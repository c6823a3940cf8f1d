import Mathlib.Algebra.Order.Field.Rat
import WallMon.CallOrder
import WallMon.Streamer

/-!
# `MonitorDispatcher` and the managers it registers monitors with

Daemon and server load monitors (collectors or handlers) on request: an `INIT`
datagram has the dispatcher load one, call its `OnInit` and register it with the
`IMonitorManager` of the program, the `Scheduler` or the `DataRouter`; a `STOP`
datagram has it removed there and its `OnStop` called. The manager's own thread calls
the monitors meanwhile. A step is one datagram, or one round of the manager's thread.

What libraries and monitors do is given from outside: whether a path can be loaded,
what kind of monitor is made, what its `OnInit` leaves in its `Context`, and what
throws. `calls` is history. Monitors are numbered in the order of their creation.
-/

namespace WallMon

/-- `STREAMER_ENTRY_PORT` -/
def streamerEntryPort : ℤ := 51023

/-- `DAEMON_MULTICAST_LISTEN_PORT` -/
def daemonMulticastListenPort : ℕ := 9955

/-- `SERVER_MULTICAST_LISTEN_PORT` -/
def serverMulticastListenPort : ℕ := 9956

/-- The fields of a `Context` that the dispatcher and the managers use. -/
structure Context where
  /-- what the monitor's messages are marked with -/
  key : String
  /-- where a collector's messages go -/
  servers : List ServerAddress
  /-- `sampleFrequencyMsec` -/
  sampleFrequencyMsec : ℚ
  /-- `__exit` -/
  exit : Bool

/-- `Context::AddServer` -/
def Context.addServer (ctx : Context) (serverAddress : String) : Context :=
  { ctx with servers := ctx.servers ++ [(serverAddress, streamerEntryPort)] }

/-- Which of the two interfaces `dynamic_cast` finds: that for plain data, else that
for protocol buffers, else none. -/
inductive MonitorType where
  /-- `IDataCollector` or `IDataHandler` -/
  | plain
  /-- `IDataCollectorProtobuf` or `IDataHandlerProtobuf` -/
  | protobuf
  /-- neither -/
  | unknown
  deriving DecidableEq

/-- What becomes of loading a path and initialising what it makes. -/
inductive LoadOutcome where
  /-- the path cannot be opened, or its `create` function is not found -/
  | noFunction
  /-- the `create` function throws -/
  | createThrows
  /-- the `create` function returns a null pointer -/
  | createsNull
  /-- a monitor is made; what its `OnInit` leaves in its `Context`; whether it throws -/
  | created (type : MonitorType) (ctx : Context) (onInitThrows : Bool)

/-- A datagram of the dispatcher's socket, with what its handling meets. -/
inductive Datagram where
  /-- not a `MonitorDispatcherMessage` -/
  | unparseable
  /-- type `INIT`; the address it came from -/
  | init (filePath sourceAddress : String) (outcome : LoadOutcome)
  /-- type `STOP`; whether `OnStop` throws -/
  | stop (filePath : String) (onStopThrows : Bool)
  /-- type `EVENT` -/
  | event

/-- `IMonitorManager`, with the round of its own thread: `none` where there is no such
round or it ends the process, else what it changes and the calls it makes. -/
structure MonitorManager (σ ε : Type) where
  /-- the port its dispatcher listens on -/
  multicastListenPort : ℕ
  /-- nothing is registered -/
  start : σ
  /-- `Register` -/
  register : ℕ → MonitorType → Context → σ → σ
  /-- `Remove` -/
  remove : ℕ → σ → σ
  /-- a round of its thread -/
  round : σ → ε → Option (σ × List (Call ℕ))

/-- A dispatcher and its manager. -/
structure Dispatcher (σ : Type) where
  /-- the loop of `_ListenForever` was not left -/
  listening : Bool
  /-- `_monitors` -/
  monitors : AList fun _ : String => ℕ
  /-- how many monitors were made -/
  created : ℕ
  /-- the state of the manager -/
  manager : σ
  /-- history: the calls of methods of monitors -/
  calls : List (Call ℕ)

/-- How the process can crash. -/
inductive NullFault where
  /-- a null pointer is called -/
  | function
  /-- a method of a null pointer is called -/
  | monitor
  deriving DecidableEq

namespace Dispatcher

variable {σ ε : Type} (M : MonitorManager σ ε)

/-- The `Context` that `INIT` registers a monitor with: a collector that names no
server is to send to the address the datagram came from. -/
def registeredContext (sourceAddress : String) (ctx : Context) (onInitThrows : Bool) : Context :=
  if onInitThrows = false ∧ M.multicastListenPort = daemonMulticastListenPort ∧
      ctx.servers = [] then
    ctx.addServer sourceAddress
  else ctx

/-- The state after a monitor was loaded and registered. -/
def withMonitor (d : Dispatcher σ) (filePath : String) (type : MonitorType) (ctx : Context) :
    Dispatcher σ :=
  { d with
    monitors := d.monitors.insert filePath d.created
    created := d.created + 1
    manager := M.register d.created type ctx d.manager
    calls := d.calls ++ [.onInit d.created] }

/-- The state after a monitor was removed and stopped. -/
def withoutMonitor (d : Dispatcher σ) (filePath : String) (monitor : ℕ) (onStopThrows : Bool) :
    Dispatcher σ :=
  { d with
    -- the handler of the exception leaves the loop before the path is erased
    listening := !onStopThrows
    monitors := if onStopThrows then d.monitors else d.monitors.erase filePath
    manager := M.remove monitor d.manager
    calls := d.calls ++ [.onStop monitor] }

/-- One round of `MonitorDispatcher::_ListenForever`. -/
def listen (d : Dispatcher σ) : Datagram → Except NullFault (Dispatcher σ)
  | .unparseable => .ok d
  | .init _ _ .noFunction => .error .function
  | .init _ _ .createThrows => .ok d
  | .init _ _ .createsNull => .error .monitor
  | .init filePath sourceAddress (.created type ctx onInitThrows) =>
    .ok (d.withMonitor M filePath type (registeredContext M sourceAddress ctx onInitThrows))
  | .stop filePath onStopThrows =>
    match d.monitors.lookup filePath with
    | none => .error .monitor
    | some monitor => .ok (d.withoutMonitor M filePath monitor onStopThrows)
  | .event => .ok d

/-- The state after a round of the manager's thread. -/
def withRound (d : Dispatcher σ) (manager : σ) (calls : List (Call ℕ)) : Dispatcher σ :=
  { d with manager, calls := d.calls ++ calls }

/-- What happens at a dispatcher and its manager. -/
inductive Event (ε : Type) where
  /-- a datagram -/
  | datagram (datagram : Datagram)
  /-- a round of the manager's thread -/
  | round (round : ε)

/-- One step that does not crash the process. -/
inductive Step : Dispatcher σ → Event ε → Dispatcher σ → Prop where
  /-- a datagram is handled -/
  | datagram {d d' : Dispatcher σ} {datagram : Datagram} : d.listening = true →
      listen M d datagram = .ok d' → Step d (.datagram datagram) d'
  /-- the manager's thread does a round -/
  | round {d : Dispatcher σ} {round : ε} {manager : σ} {calls : List (Call ℕ)} :
      M.round d.manager round = some (manager, calls) →
      Step d (.round round) (d.withRound manager calls)

/-- A dispatcher that has not received anything. -/
def initial : Dispatcher σ where
  listening := true
  monitors := ∅
  created := 0
  manager := M.start
  calls := []

/-- The transition system of a dispatcher and its manager. -/
def system : TransitionSystem (Dispatcher σ) (Event ε) where
  init d := d = initial M
  step := Step M

variable {M} in
/-- An `INIT` datagram of a path that can be loaded. -/
theorem init_step (d : Dispatcher σ) (filePath sourceAddress : String) (type : MonitorType)
    (ctx : Context) (onInitThrows : Bool) (hlistening : d.listening = true) :
    Step M d (.datagram (.init filePath sourceAddress (.created type ctx onInitThrows)))
      (d.withMonitor M filePath type (registeredContext M sourceAddress ctx onInitThrows)) :=
  .datagram hlistening rfl

variable {M} in
/-- A `STOP` datagram of a path that is listed. -/
theorem stop_step (d : Dispatcher σ) (filePath : String) {monitor : ℕ} (onStopThrows : Bool)
    (hlistening : d.listening = true) (hpath : d.monitors.lookup filePath = some monitor) :
    Step M d (.datagram (.stop filePath onStopThrows))
      (d.withoutMonitor M filePath monitor onStopThrows) := by
  refine .datagram hlistening ?_
  rw [listen, hpath]

variable {M} in
/-- A round of the manager's thread. -/
theorem round_step (d : Dispatcher σ) (round : ε) {manager : σ} {calls : List (Call ℕ)}
    (hround : M.round d.manager round = some (manager, calls)) :
    Step M d (.round round) (d.withRound manager calls) :=
  .round hround

end Dispatcher

/-! ## What a dispatcher may rely on -/

/-- What a round of a manager's thread changes: it calls one registered monitor at
most, and may stop that one. `registered` and `stopped` say so of a state and a
monitor. -/
inductive RoundEffect {σ : Type} (registered stopped : σ → ℕ → Prop) (s s' : σ) :
    List (Call ℕ) → Prop where
  /-- no monitor is called -/
  | none : (∀ m, stopped s m → stopped s' m) → RoundEffect registered stopped s s' []
  /-- a monitor works -/
  | work {m : ℕ} : registered s m → (∀ m, stopped s m → stopped s' m) →
      RoundEffect registered stopped s s' [.work m]
  /-- a monitor works and ends -/
  | exit {m : ℕ} : registered s m → ¬ registered s' m → stopped s' m →
      (∀ m, stopped s m → stopped s' m) →
      RoundEffect registered stopped s s' [.work m, .onStop m]

/-- A manager keeps a registry: which monitors it may still call, and which it has
stopped itself. Rounds are only looked at if they meet the condition `ok`. -/
structure Registry {σ ε : Type} (M : MonitorManager σ ε) (ok : σ → ε → Prop) where
  /-- an invariant of the manager -/
  Valid : σ → Prop
  /-- the manager may call the monitor -/
  registered : σ → ℕ → Prop
  /-- the manager called the monitor's `OnStop` -/
  stopped : σ → ℕ → Prop
  /-- the invariant holds at the start -/
  valid_start : Valid M.start
  /-- nothing is registered at the start -/
  registered_start : ∀ m, ¬ registered M.start m
  /-- `Register` keeps the invariant -/
  valid_register : ∀ {s m type ctx}, Valid s → ¬ registered s m → Valid (M.register m type ctx s)
  /-- `Register` registers the monitor -/
  registered_register : ∀ {s m type ctx m'},
    registered (M.register m type ctx s) m' → m' = m ∨ registered s m'
  /-- `Register` forgets no stop -/
  stopped_register : ∀ {s m type ctx m'}, stopped s m' → stopped (M.register m type ctx s) m'
  /-- `Remove` keeps the invariant -/
  valid_remove : ∀ {s m}, Valid s → Valid (M.remove m s)
  /-- `Remove` registers nothing -/
  registered_remove : ∀ {s m m'}, registered (M.remove m s) m' → registered s m'
  /-- `Remove` forgets no stop -/
  stopped_remove : ∀ {s m m'}, stopped s m' → stopped (M.remove m s) m'
  /-- rounds keep the invariant -/
  valid_round : ∀ {s e s' calls}, Valid s → ok s e → M.round s e = some (s', calls) → Valid s'
  /-- rounds register nothing -/
  registered_round : ∀ {s e s' calls m}, Valid s → ok s e → M.round s e = some (s', calls) →
    registered s' m → registered s m
  /-- what rounds do -/
  round_effect : ∀ {s e s' calls}, Valid s → ok s e → M.round s e = some (s', calls) →
    RoundEffect registered stopped s s' calls

namespace Dispatcher

variable {σ ε : Type} {M : MonitorManager σ ε} {ok : σ → ε → Prop} {d d' : Dispatcher σ}

/-- What is listed once a monitor was loaded. -/
theorem lookup_withMonitor {filePath path : String} {type : MonitorType} {ctx : Context} {m : ℕ}
    (h : (d.withMonitor M filePath type ctx).monitors.lookup path = some m) :
    path = filePath ∧ m = d.created ∨ d.monitors.lookup path = some m := by
  by_cases heq : path = filePath
  · subst heq
    exact .inl ⟨rfl, (Option.some.inj ((AList.lookup_insert _).symm.trans h)).symm⟩
  · exact .inr ((AList.lookup_insert_ne heq).symm.trans h)

/-- What is listed once a monitor was stopped. -/
theorem lookup_withoutMonitor {filePath path : String} {monitor m : ℕ} {onStopThrows : Bool}
    (h : (d.withoutMonitor M filePath monitor onStopThrows).monitors.lookup path = some m) :
    d.monitors.lookup path = some m := by
  cases onStopThrows with
  | true => exact h
  | false =>
    by_cases heq : path = filePath
    · subst heq
      cases (AList.lookup_erase _ _).symm.trans h
    · exact (AList.lookup_erase_ne heq).symm.trans h

/-- What a datagram does that does not crash the process. -/
theorem listen_eq_ok {datagram : Datagram} (h : listen M d datagram = .ok d') :
    d' = d ∨ (∃ filePath type ctx, d' = d.withMonitor M filePath type ctx) ∨
      ∃ filePath onStopThrows m, datagram = .stop filePath onStopThrows ∧
        d.monitors.lookup filePath = some m ∧ d' = d.withoutMonitor M filePath m onStopThrows := by
  cases datagram with
  | unparseable => exact .inl (Except.ok.inj h).symm
  | event => exact .inl (Except.ok.inj h).symm
  | init filePath sourceAddress outcome =>
    cases outcome with
    | noFunction => cases h
    | createsNull => cases h
    | createThrows => exact .inl (Except.ok.inj h).symm
    | created type ctx onInitThrows => exact .inr (.inl ⟨_, _, _, (Except.ok.inj h).symm⟩)
  | stop filePath onStopThrows =>
    rw [listen] at h
    split at h
    · cases h
    · next m hpath => exact .inr (.inr ⟨_, _, m, rfl, hpath, (Except.ok.inj h).symm⟩)

/-- `STOP` comes only for monitors that the manager has not stopped itself and that are
not registered any more after `Remove`; and rounds meet the condition of the registry. -/
def StopsOnce (R : Registry M ok) (d : Dispatcher σ) : Event ε → Prop
  | .datagram (.stop filePath _) => ∀ m, d.monitors.lookup filePath = some m →
      ¬ R.registered (M.remove m d.manager) m ∧ ¬ R.stopped d.manager m
  | .datagram _ => True
  | .round e => ok d.manager e

/-- How the registries of dispatcher and manager go with the calls that were made. -/
structure Inv (R : Registry M ok) (d : Dispatcher σ) : Prop where
  /-- the manager's invariant -/
  valid : R.Valid d.manager
  /-- calls are in order -/
  lawful : Call.Lawful d.calls
  /-- only monitors that were made are stopped -/
  stop_lt : ∀ {m}, .onStop m ∈ d.calls → m < d.created
  /-- only monitors that were made are listed -/
  lookup_lt : ∀ {path m}, d.monitors.lookup path = some m → m < d.created
  /-- no monitor is listed twice -/
  lookup_inj : ∀ {path path' m}, d.monitors.lookup path = some m →
    d.monitors.lookup path' = some m → path = path'
  /-- registered monitors are in the middle of their life -/
  registered : ∀ {m}, R.registered d.manager m →
    m < d.created ∧ .onInit m ∈ d.calls ∧ .onStop m ∉ d.calls
  /-- a listed monitor was stopped by the manager if at all -/
  listed : d.listening = true → ∀ {path m}, d.monitors.lookup path = some m →
    .onStop m ∈ d.calls → R.stopped d.manager m

theorem Inv.initial (R : Registry M ok) : Inv R (initial M) where
  valid := R.valid_start
  lawful := .nil
  stop_lt h := by cases h
  lookup_lt h := by cases h
  lookup_inj h := by cases h
  registered h := absurd h (R.registered_start _)
  listed _ _ _ h := by cases h

/-- Registering a new monitor. -/
theorem Inv.withMonitor {R : Registry M ok} (h : Inv R d) (filePath : String)
    (type : MonitorType) (ctx : Context) : Inv R (d.withMonitor M filePath type ctx) := by
  have hnew : Call.onStop d.created ∉ d.calls := fun hmem => absurd (h.stop_lt hmem) (lt_irrefl _)
  refine ⟨?_, ?_, ?_, ?_, ?_, ?_, ?_⟩
  · exact R.valid_register h.valid fun hreg => absurd (h.registered hreg).1 (lt_irrefl _)
  · exact h.lawful.snoc_onInit _
  · intro m hmem
    exact Nat.lt_succ_of_lt (h.stop_lt (by simpa [Dispatcher.withMonitor] using hmem))
  · intro path m hpath
    rcases lookup_withMonitor hpath with ⟨-, rfl⟩ | hold
    · exact Nat.lt_succ_self _
    · exact Nat.lt_succ_of_lt (h.lookup_lt hold)
  · intro path path' m hpath hpath'
    rcases lookup_withMonitor hpath with ⟨rfl, rfl⟩ | hold
    · rcases lookup_withMonitor hpath' with ⟨rfl, -⟩ | hold'
      · rfl
      · exact absurd (h.lookup_lt hold') (lt_irrefl _)
    · rcases lookup_withMonitor hpath' with ⟨rfl, rfl⟩ | hold'
      · exact absurd (h.lookup_lt hold) (lt_irrefl _)
      · exact h.lookup_inj hold hold'
  · intro m hreg
    rcases R.registered_register hreg with rfl | hold
    · exact ⟨Nat.lt_succ_self _, by simp [Dispatcher.withMonitor],
        by simpa [Dispatcher.withMonitor] using hnew⟩
    · obtain ⟨hlt, hinit, hstop⟩ := h.registered hold
      exact ⟨Nat.lt_succ_of_lt hlt, List.mem_append_left _ hinit,
        by simpa [Dispatcher.withMonitor] using hstop⟩
  · intro hlistening path m hpath hmem
    have hold : Call.onStop m ∈ d.calls := by simpa [Dispatcher.withMonitor] using hmem
    rcases lookup_withMonitor hpath with ⟨-, rfl⟩ | hpath
    · exact absurd hold hnew
    · exact R.stopped_register (h.listed hlistening hpath hold)

/-- Stopping a monitor that is not called any more and was not stopped before. -/
theorem Inv.withoutMonitor {R : Registry M ok} (h : Inv R d) (hlistening : d.listening = true)
    {filePath : String} {m : ℕ} (hpath : d.monitors.lookup filePath = some m)
    (hregistered : ¬ R.registered (M.remove m d.manager) m) (hstopped : ¬ R.stopped d.manager m)
    (onStopThrows : Bool) : Inv R (d.withoutMonitor M filePath m onStopThrows) := by
  have hmem : ∀ {m'}, Call.onStop m' ∈ d.calls ++ [.onStop m] ↔ .onStop m' ∈ d.calls ∨ m' = m := by
    simp
  refine ⟨R.valid_remove h.valid, ?_, ?_, fun hp => h.lookup_lt (lookup_withoutMonitor hp),
    fun hp hp' => h.lookup_inj (lookup_withoutMonitor hp) (lookup_withoutMonitor hp'), ?_, ?_⟩
  · exact h.lawful.snoc_onStop fun hstop => hstopped (h.listed hlistening hpath hstop)
  · intro m' hstop
    rcases hmem.mp hstop with hstop | rfl
    · exact h.stop_lt hstop
    · exact h.lookup_lt hpath
  · intro m' hreg
    obtain ⟨hlt, hinit, hstop⟩ := h.registered (R.registered_remove hreg)
    refine ⟨hlt, List.mem_append_left _ hinit, fun hstop' => ?_⟩
    rcases hmem.mp hstop' with hstop' | rfl
    · exact hstop hstop'
    · exact hregistered hreg
  · intro hstill path m' hpath' hstop
    have hthrows : onStopThrows = false := by simpa [Dispatcher.withoutMonitor] using hstill
    subst hthrows
    rcases hmem.mp hstop with hstop | rfl
    · exact R.stopped_remove (h.listed hlistening (lookup_withoutMonitor hpath') hstop)
    · -- the one path of the monitor was erased
      obtain rfl := h.lookup_inj (lookup_withoutMonitor hpath') hpath
      cases (AList.lookup_erase _ _).symm.trans hpath'

/-- A round of the manager's thread. -/
theorem Inv.withRound {R : Registry M ok} (h : Inv R d) {e : ε} {s : σ} {calls : List (Call ℕ)}
    (hok : ok d.manager e) (hround : M.round d.manager e = some (s, calls)) :
    Inv R (d.withRound s calls) := by
  have hvalid := R.valid_round h.valid hok hround
  have hregistered : ∀ {m}, R.registered s m → R.registered d.manager m :=
    R.registered_round h.valid hok hround
  cases R.round_effect h.valid hok hround with
  | none hstopped =>
    rw [Dispatcher.withRound, List.append_nil]
    exact ⟨hvalid, h.lawful, h.stop_lt, h.lookup_lt, h.lookup_inj,
      fun hreg => h.registered (hregistered hreg),
      fun hl _ _ hp hstop => hstopped _ (h.listed hl hp hstop)⟩
  | @work m hm hstopped =>
    obtain ⟨hlt, hinit, hstop⟩ := h.registered hm
    have hmem : ∀ {m'}, Call.onStop m' ∈ d.calls ++ [.work m] ↔ .onStop m' ∈ d.calls := by simp
    refine ⟨hvalid, h.lawful.snoc_work hinit hstop, fun hs => h.stop_lt (hmem.mp hs),
      h.lookup_lt, h.lookup_inj, ?_, fun hl _ _ hp hs => hstopped _ (h.listed hl hp (hmem.mp hs))⟩
    intro m' hreg
    obtain ⟨hlt', hinit', hstop'⟩ := h.registered (hregistered hreg)
    exact ⟨hlt', List.mem_append_left _ hinit', fun hs => hstop' (hmem.mp hs)⟩
  | @exit m hm hgone hended hstopped =>
    obtain ⟨hlt, hinit, hstop⟩ := h.registered hm
    have hmem : ∀ {m'}, Call.onStop m' ∈ d.calls ++ [.work m, .onStop m] ↔
        .onStop m' ∈ d.calls ∨ m' = m := by
      simp
    refine ⟨hvalid, ?_, ?_, h.lookup_lt, h.lookup_inj, ?_, ?_⟩
    · have hworked := h.lawful.snoc_work hinit hstop
      have hnot : Call.onStop m ∉ d.calls ++ [.work m] := by simpa using hstop
      simpa [Dispatcher.withRound] using hworked.snoc_onStop hnot
    · intro m' hs
      rcases hmem.mp hs with hs | rfl
      · exact h.stop_lt hs
      · exact hlt
    · intro m' hreg
      obtain ⟨hlt', hinit', hstop'⟩ := h.registered (hregistered hreg)
      refine ⟨hlt', List.mem_append_left _ hinit', fun hs => ?_⟩
      rcases hmem.mp hs with hs | rfl
      · exact hstop' hs
      · exact hgone hreg
    · intro hl path m' hp hs
      rcases hmem.mp hs with hs | rfl
      · exact hstopped _ (h.listed hl hp hs)
      · exact hended

/-- **One step keeps the invariant**, if it meets the condition. -/
theorem Inv.step {R : Registry M ok} (h : Inv R d) {e : Event ε} (hok : StopsOnce R d e)
    (hstep : Step M d e d') : Inv R d' := by
  cases hstep with
  | datagram hlistening hlisten =>
    rcases listen_eq_ok hlisten with
      rfl | ⟨filePath, type, ctx, rfl⟩ | ⟨filePath, onStopThrows, m, rfl, hpath, rfl⟩
    · exact h
    · exact h.withMonitor _ _ _
    · obtain ⟨hregistered, hstopped⟩ := hok m hpath
      exact h.withoutMonitor hlistening hpath hregistered hstopped _
  | round hround => exact h.withRound hok hround

/-- **Lives of monitors**: with a manager that keeps a registry, and as long as `STOP`
comes only for monitors that are over, calls are in order. -/
theorem lawful_of_stopsOnce (R : Registry M ok)
    (h : ((system M).guarded (StopsOnce R)).Reachable d) : Call.Lawful d.calls := by
  have hinv : Inv R d := h.invariant
    (by rintro _ rfl; exact .initial R)
    (fun _ _ _ _ hd hstep => hd.step hstep.2 hstep.1)
  exact hinv.lawful

end Dispatcher

end WallMon
