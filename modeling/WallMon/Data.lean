import WallMon.CheckedInt
import WallMon.ProcessCollector
import WallMon.Roster

/-!
# Which process a message is about

At the server a process is found by a string: the name of its host, and its pid right
behind. Two processes can have one string (`tile-1` with pid 23, `tile-12` with pid 3), and
then the second is taken for the first. `Data::Update` and the bar chart tell processes
apart exactly as long as no message is about a process whose string is that of another one
that is registered (`identityLaw_iff`).
-/

namespace WallMon

/-- A process, as messages name it. -/
structure ProcessId where
  /-- its host -/
  hostName : String
  /-- its pid -/
  pid : UInt32
  deriving DecidableEq

/-- `Data::_CreateProcKey` and `ProcNameStat::CreateProcMapKey` -/
def createProcKey (hostName : String) (pid : ℤ) : String := hostName ++ toString pid

/-- The key of a process. The pid of a message is converted to `int`. -/
def ProcessId.key (p : ProcessId) : String :=
  createProcKey p.hostName (CInt.ofUnsigned p.pid.toNat)

/-! ## `Data` -/

/-- The boids of a process. -/
inductive BoidKind where
  /-- `cpu` -/
  | cpu
  /-- `memory` -/
  | memory
  /-- `network` -/
  | network
  /-- `storage` -/
  | storage
  deriving DecidableEq

/-- A call that `Data::Update` makes for the boids and the table item of a `Proc`. -/
inductive VisualCall where
  /-- `CreateBoid` -/
  | createBoid (proc : ℕ) (kind : BoidKind)
  /-- `Add` of the table, with the name of the process -/
  | addItem (proc : ℕ) (processName : String)
  /-- `RemoveBoid` -/
  | removeBoid (proc : ℕ) (kind : BoidKind)
  /-- `Remove` of the table -/
  | removeItem (proc : ℕ)
  deriving DecidableEq

/-- The processes that are registered. -/
structure Data where
  /-- `procMap`; a `Proc` is given by its number -/
  procMap : String → Option ℕ
  /-- history: how many were made -/
  created : ℕ

/-- `VisualBase::InitBoids` -/
def initBoids (proc : ℕ) (processName : String) : List VisualCall :=
  [.createBoid proc .cpu, .createBoid proc .memory, .createBoid proc .network,
    .createBoid proc .storage, .addItem proc processName]

/-- What `Data::Update` removes with a `Proc`. -/
def removeVisual (proc : ℕ) : List VisualCall :=
  [.removeBoid proc .cpu, .removeBoid proc .memory, .removeBoid proc .network,
    .removeBoid proc .storage, .removeItem proc]

namespace ProcessMessage

/-- The process that a message is about. -/
def processId (msg : ProcessMessage) : ProcessId where
  hostName := msg.hostname.getD ""
  pid := msg.pid.getD 0

/-- `processname()` -/
def name (msg : ProcessMessage) : String := msg.processname.getD ""

end ProcessMessage

namespace Data

/-- A new `Data`. -/
def new : Data := { procMap := fun _ => none, created := 0 }

/-- `Data::Update`: the `Proc` that it returns, and the calls that it makes. -/
def update (d : Data) (msg : ProcessMessage) : Data × Option ℕ × List VisualCall :=
  let procMapKey := createProcKey (msg.hostname.getD "") (CInt.ofUnsigned (msg.pid.getD 0).toNat)
  if msg.isTerminated then
    match d.procMap procMapKey with
    | some proc =>
      ({ d with procMap := Function.update d.procMap procMapKey none }, none, removeVisual proc)
    | none => (d, none, [])
  else
    match d.procMap procMapKey with
    | none =>
      ({ procMap := Function.update d.procMap procMapKey (some d.created)
         created := d.created + 1 }, some d.created, initBoids d.created msg.name)
    | some proc => (d, some proc, [])

/-- What `Data::Update` does for messages, one after another. -/
def updates : Data → List ProcessMessage → List (Option ℕ × List VisualCall)
  | _, [] => []
  | d, msg :: msgs => (d.update msg).2 :: updates (d.update msg).1 msgs

/-- The requests that messages are, by process. -/
def requests (msgs : List ProcessMessage) : List (ProcessId × Bool) :=
  msgs.map fun msg => (msg.processId, msg.isTerminated)

/-- What comes of a message. -/
def render (msg : ProcessMessage) : Roster.Outcome → Option ℕ × List VisualCall
  | .created proc => (some proc, initBoids proc msg.name)
  | .found proc => (some proc, [])
  | .removed proc => (none, removeVisual proc)
  | .absent => (none, [])

/-- What is to come of messages: each process has a `Proc` of its own, from its first
message to its termination. -/
def expected (msgs : List ProcessMessage) : List (Option ℕ × List VisualCall) :=
  List.zipWith render msgs (Roster.empty.outcomes (requests msgs))

/-- The map as a roster. -/
def roster (d : Data) : Roster String := { entry := d.procMap, created := d.created }

/-- **An update** is a request for the key. -/
theorem update_eq (d : Data) (msg : ProcessMessage) :
    (d.update msg).1.roster = (d.roster.request msg.processId.key msg.isTerminated).1 ∧
      (d.update msg).2 =
        render msg (d.roster.request msg.processId.key msg.isTerminated).2 := by
  have hkey : createProcKey (msg.hostname.getD "") (CInt.ofUnsigned (msg.pid.getD 0).toNat) =
      msg.processId.key := rfl
  rw [update, hkey]
  cases hentry : d.procMap msg.processId.key <;> cases hends : msg.isTerminated <;>
    simp [Roster.request, roster, render, hentry]

theorem updates_eq (d : Data) (msgs : List ProcessMessage) :
    d.updates msgs = List.zipWith render msgs
      (d.roster.outcomes (Roster.encodeRequests ProcessId.key (requests msgs))) := by
  induction msgs generalizing d with
  | nil => rfl
  | cons msg msgs ih =>
    obtain ⟨hnext, hresult⟩ := update_eq d msg
    rw [updates, ih, hresult, hnext]
    rfl

/-- What comes of a message tells the outcome. -/
theorem render_injective (msg : ProcessMessage) : Function.Injective (render msg) := by
  intro o o' h
  cases o <;> cases o' <;> simp_all [render, initBoids, removeVisual]

theorem yields_render (msg : ProcessMessage) (o : Roster.Outcome) :
    (render msg o).1 = o.yields := by
  cases o <;> rfl

/-- **The identity of processes**: a message has the `Proc` that an earlier message of its
process made since that last ended, or a new one; a termination removes what belongs to
that `Proc`; and no two processes share one. -/
structure IdentityLaw (msgs : List ProcessMessage) : Prop where
  /-- what comes of the messages is what is to come of them -/
  same : new.updates msgs = expected msgs
  /-- a `Proc` is returned for one process only -/
  apart : (msgs.zip (new.updates msgs)).Pairwise fun p q =>
    ∀ proc, p.2.1 = some proc → q.2.1 = some proc → p.1.processId = q.1.processId

/-- What is to come of messages keeps the processes apart. -/
theorem expected_apart (msgs : List ProcessMessage) :
    (msgs.zip (expected msgs)).Pairwise fun p q =>
      ∀ proc, p.2.1 = some proc → q.2.1 = some proc → p.1.processId = q.1.processId := by
  have happart := Roster.outcomes_apart Roster.proper_empty (requests msgs)
  have hzip : ∀ (msgs : List ProcessMessage) (os : List Roster.Outcome),
      msgs.zip (List.zipWith render msgs os) =
        (msgs.zip os).map fun p => (p.1, render p.1 p.2) := by
    intro msgs os
    induction msgs generalizing os with
    | nil => rfl
    | cons msg msgs ih => cases os <;> simp [ih]
  rw [requests, List.zip_map_left, List.pairwise_map] at happart
  rw [expected, hzip, List.pairwise_map]
  refine happart.imp fun h proc hp hq => ?_
  dsimp only at hp hq
  rw [yields_render] at hp hq
  exact h proc hp hq

/-- What comes of messages tells the outcomes. -/
theorem zipWith_render_inj (msgs : List ProcessMessage) (os os' : List Roster.Outcome)
    (hlength : os.length = msgs.length) (hlength' : os'.length = msgs.length) :
    List.zipWith render msgs os = List.zipWith render msgs os' ↔ os = os' := by
  induction msgs generalizing os os' with
  | nil => simp [List.length_eq_zero_iff.mp hlength, List.length_eq_zero_iff.mp hlength']
  | cons msg msgs ih =>
    obtain ⟨o, os, rfl⟩ := List.exists_cons_of_length_eq_add_one hlength
    obtain ⟨o', os', rfl⟩ := List.exists_cons_of_length_eq_add_one hlength'
    simp only [List.length_cons, Nat.add_right_cancel_iff] at hlength hlength'
    simp [ih os os' hlength hlength', (render_injective msg).eq_iff]

/-- **When `Data::Update` tells processes apart**: exactly if no message is about a process
whose key is that of another one that is registered. -/
theorem data_identityLaw_iff (msgs : List ProcessMessage) :
    IdentityLaw msgs ↔ Roster.Clear ProcessId.key (requests msgs) := by
  have hsame : new.updates msgs = expected msgs ↔ Roster.Clear ProcessId.key (requests msgs) := by
    rw [← Roster.outcomes_encode_iff, updates_eq, expected]
    apply zipWith_render_inj
    · simp [Roster.encodeRequests, requests]
    · simp [requests]
  refine ⟨fun h => hsame.mp h.same, fun h => ⟨hsame.mpr h, ?_⟩⟩
  rw [hsame.mpr h]
  exact expected_apart msgs

end Data

/-! ## The bar chart -/

/-- `ProcNameStat`, what is known of processes of one name. -/
structure ProcNameStat where
  /-- `procMap`; a `ProcStat` is given by its number -/
  procMap : String → Option ℕ

namespace ProcNameStat

/-- A new `ProcNameStat`. -/
def new : ProcNameStat := { procMap := fun _ => none }

/-- `ProcNameStat::Has` -/
def has (s : ProcNameStat) (procKey : String) : Bool := (s.procMap procKey).isSome

/-- `ProcNameStat::Get`. A `ProcStat` that is made has the number `created`. -/
def get (s : ProcNameStat) (procKey : String) (created : ℕ) : ProcNameStat × ℕ :=
  match s.procMap procKey with
  | none => ({ procMap := Function.update s.procMap procKey (some created) }, created)
  | some procStat => (s, procStat)

end ProcNameStat

/-- What the handler of the bar chart knows of processes. -/
structure Chart where
  /-- `_processNameMap` -/
  processNameMap : String → Option ProcNameStat
  /-- `numUniqueProcesses`: how many `ProcStat` were made -/
  numUniqueProcesses : ℕ

namespace Chart

/-- The chart at the start. -/
def new : Chart := { processNameMap := fun _ => none, numUniqueProcesses := 0 }

/-- `Handler::Handle` for one message from a host, as far as it looks up the process: whether
the process was there, and its `ProcStat`. -/
def handle (c : Chart) (hostName : String) (msg : ProcessMessage) : Chart × Bool × ℕ :=
  let procKey := createProcKey hostName (CInt.ofUnsigned (msg.pid.getD 0).toNat)
  let procNameStat := (c.processNameMap msg.name).getD .new
  let (procNameStat', procStat) := procNameStat.get procKey c.numUniqueProcesses
  let has := procNameStat.has procKey
  ({ processNameMap := Function.update c.processNameMap msg.name (some procNameStat')
     numUniqueProcesses :=
       if has then c.numUniqueProcesses else c.numUniqueProcesses + 1 }, has, procStat)

/-- What comes of messages, one after another. -/
def handleAll : Chart → List (String × ProcessMessage) → List (Bool × ℕ)
  | _, [] => []
  | c, (hostName, msg) :: samples =>
    (c.handle hostName msg).2 :: handleAll (c.handle hostName msg).1 samples

/-- The process that a message from a host is about. -/
def processId (sample : String × ProcessMessage) : ProcessId where
  hostName := sample.1
  pid := sample.2.pid.getD 0

/-- The requests that messages are. Processes are kept by their name, and never removed. -/
def requests (samples : List (String × ProcessMessage)) : List ((String × ProcessId) × Bool) :=
  samples.map fun sample => ((sample.2.name, processId sample), false)

/-- The key of a process of some name. -/
def procMapKey (p : String × ProcessId) : String × String := (p.1, p.2.key)

/-- What comes of a message, as an outcome. -/
def outcome (result : Bool × ℕ) : Roster.Outcome :=
  if result.1 then .found result.2 else .created result.2

/-- The maps as a roster. -/
def roster (c : Chart) : Roster (String × String) where
  entry := fun (name, procKey) => (c.processNameMap name).bind fun s => s.procMap procKey
  created := c.numUniqueProcesses

/-- The entries of a name are those of its `ProcNameStat`. -/
theorem roster_entry (c : Chart) (name procKey : String) :
    c.roster.entry (name, procKey) = ((c.processNameMap name).getD .new).procMap procKey := by
  cases hname : c.processNameMap name <;> simp [roster, hname, ProcNameStat.new]

/-- Another `ProcNameStat` for a name has entries of its own there. -/
theorem entry_updated (c : Chart) (name : String) (s : ProcNameStat) (count : ℕ)
    (p : String × String) :
    (roster { processNameMap := Function.update c.processNameMap name (some s)
              numUniqueProcesses := count }).entry p =
      if p.1 = name then s.procMap p.2 else c.roster.entry p := by
  by_cases hname : p.1 = name <;> simp [roster, hname]

/-- **A message for the chart** is a request for the name and the key. -/
theorem handle_eq (c : Chart) (hostName : String) (msg : ProcessMessage) :
    (c.handle hostName msg).1.roster =
        (c.roster.request (procMapKey (msg.name, processId (hostName, msg))) false).1 ∧
      outcome (c.handle hostName msg).2 =
        (c.roster.request (procMapKey (msg.name, processId (hostName, msg))) false).2 := by
  have hkey : procMapKey (msg.name, processId (hostName, msg)) =
      (msg.name, createProcKey hostName (CInt.ofUnsigned (msg.pid.getD 0).toNat)) := rfl
  rw [handle, hkey]
  generalize createProcKey hostName (CInt.ofUnsigned (msg.pid.getD 0).toNat) = procKey
  have hentry := roster_entry c msg.name
  cases hstat : ((c.processNameMap msg.name).getD .new).procMap procKey with
  | some procStat =>
    simp only [Roster.request, hentry, hstat, ProcNameStat.get, ProcNameStat.has,
      Option.isSome_some, if_true, outcome, and_true]
    refine Roster.ext (funext fun p => ?_) rfl
    rw [entry_updated]
    split_ifs with hname
    · rw [← hentry, ← hname]
    · rfl
  | none =>
    simp only [Roster.request, hentry, hstat, ProcNameStat.get, ProcNameStat.has,
      Option.isSome_none, Bool.false_eq_true, if_false, outcome]
    refine ⟨Roster.ext (funext fun p => ?_) rfl, rfl⟩
    rw [entry_updated]
    dsimp only
    split_ifs with hname
    · by_cases hp : p.2 = procKey
      · obtain rfl : p = (msg.name, procKey) := Prod.ext hname hp
        simp [roster]
      · have hne : p ≠ (msg.name, procKey) := fun heq => hp (congrArg Prod.snd heq)
        rw [Function.update_of_ne hp, Function.update_of_ne hne, ← hentry, ← hname]
    · have hne : p ≠ (msg.name, procKey) := fun heq => hname (congrArg Prod.fst heq)
      rw [Function.update_of_ne hne]

theorem handleAll_eq (c : Chart) (samples : List (String × ProcessMessage)) :
    (c.handleAll samples).map outcome =
      c.roster.outcomes (Roster.encodeRequests procMapKey (requests samples)) := by
  induction samples generalizing c with
  | nil => rfl
  | cons sample samples ih =>
    obtain ⟨hostName, msg⟩ := sample
    obtain ⟨hnext, hresult⟩ := handle_eq c hostName msg
    rw [handleAll, List.map_cons, ih, hresult, hnext]
    rfl

/-- **The identity of processes in the chart**: a message has the `ProcStat` that an earlier
message of its process with its name made, or a new one; and no two processes share one. -/
structure IdentityLaw (samples : List (String × ProcessMessage)) : Prop where
  /-- what comes of the messages is what is to come of them -/
  same : (new.handleAll samples).map outcome = Roster.empty.outcomes (requests samples)
  /-- a `ProcStat` is of one process only -/
  apart : (samples.zip (new.handleAll samples)).Pairwise fun p q =>
    p.2.2 = q.2.2 → processId p.1 = processId q.1

/-- **When the chart tells processes apart**: exactly if no message is about a process whose
key is that of another one with its name. -/
theorem chart_identityLaw_iff (samples : List (String × ProcessMessage)) :
    IdentityLaw samples ↔ Roster.Clear procMapKey (requests samples) := by
  have hsame : (new.handleAll samples).map outcome = Roster.empty.outcomes (requests samples) ↔
      Roster.Clear procMapKey (requests samples) := by
    rw [← Roster.outcomes_encode_iff, handleAll_eq]
    rfl
  refine ⟨fun h => hsame.mp h.same, fun h => ⟨hsame.mpr h, ?_⟩⟩
  have happart := Roster.outcomes_apart Roster.proper_empty (requests samples)
  rw [← hsame.mpr h, requests, List.zip_map, List.pairwise_map] at happart
  refine happart.imp fun {p q} hpq hshared => ?_
  have hyields : ∀ result : Bool × ℕ, (outcome result).yields = some result.2 := by
    rintro ⟨has, procStat⟩
    cases has <;> rfl
  exact congrArg Prod.snd (hpq p.2.2 (hyields _) (hshared ▸ hyields _))

end Chart

/-! ## When processes are told apart -/

/-- **Processes are told apart** by the boids and by the chart exactly if no message is about
a process whose host and pid, one behind the other, read as those of another process that is
registered. -/
theorem identityLaw_iff (msgs : List ProcessMessage) (samples : List (String × ProcessMessage)) :
    (Data.IdentityLaw msgs ↔ Roster.Clear ProcessId.key (Data.requests msgs)) ∧
      (Chart.IdentityLaw samples ↔
        Roster.Clear Chart.procMapKey (Chart.requests samples)) :=
  ⟨Data.data_identityLaw_iff msgs, Chart.chart_identityLaw_iff samples⟩

/-- A message about a process on a host. -/
def messageOf (hostName : String) (pid : UInt32) (isTerminated : Bool) : ProcessMessage where
  hostname := some hostName
  processname := some "sh"
  pid := some pid
  isTerminated := isTerminated
  statistics := []

/-- Pid 23 of `tile-1` and pid 3 of `tile-12` share a `Proc`, whose boids go with the second
of them, and a `ProcStat`. -/
theorem tile_shared :
    (Data.new.updates [messageOf "tile-1" 23 false, messageOf "tile-12" 3 false,
        messageOf "tile-12" 3 true] =
      [(some 0, initBoids 0 "sh"), (some 0, []), (none, removeVisual 0)]) ∧
    ¬Data.IdentityLaw [messageOf "tile-1" 23 false, messageOf "tile-12" 3 false,
        messageOf "tile-12" 3 true] ∧
    ¬Chart.IdentityLaw [("tile-1", messageOf "tile-1" 23 false),
        ("tile-12", messageOf "tile-12" 3 false)] := by
  refine ⟨by decide +kernel, fun h => ?_, fun h => ?_⟩
  · exact absurd h.same (by decide +kernel)
  · exact absurd h.same (by decide +kernel)

end WallMon
