import WallMon.DataRouter

/-!
# What the dispatcher survives

Anything can arrive at the dispatcher's socket. What cannot be parsed is skipped, and so is
an `INIT` whose `create` function throws. But a path that cannot be loaded, or that is
stopped without having been loaded, shows as a null pointer that is used at once; a monitor
whose `OnInit` throws is registered all the same; and a throwing `OnStop` ends the loop. All
other datagrams are survived, in every run of either program (`survives_iff`).
-/

namespace WallMon

namespace Dispatcher

variable {σ ε : Type} (M : MonitorManager σ ε)

/-- What a datagram asks for can be done: a monitor is made and initialised, or one that is
listed is stopped. -/
def CarriedOut (d : Dispatcher σ) : Datagram → Prop
  | .unparseable => False
  | .init _ _ (.created _ _ onInitThrows) => onInitThrows = false
  | .init _ _ _ => False
  | .stop filePath onStopThrows => (d.monitors.lookup filePath).isSome ∧ onStopThrows = false
  | .event => True

/-- **A datagram is survived**: no null pointer is used, the loop goes on, and a datagram that
cannot be carried out leaves what is listed and what is registered. -/
def Survives (d : Dispatcher σ) (datagram : Datagram) : Prop :=
  ∃ d', listen M d datagram = .ok d' ∧ d'.listening = true ∧
    (¬CarriedOut d datagram → d'.monitors = d.monitors ∧ d'.manager = d.manager)

/-- An `INIT` finds its `create` function, which makes a monitor or throws, and a monitor that
is made does not throw in `OnInit`; a `STOP` is of a path that is listed, and `OnStop` does not
throw. -/
def InOrder (d : Dispatcher σ) : Datagram → Prop
  | .init _ _ .noFunction => False
  | .init _ _ .createsNull => False
  | .init _ _ .createThrows => True
  | .init _ _ (.created _ _ onInitThrows) => onInitThrows = false
  | .stop filePath onStopThrows => (d.monitors.lookup filePath).isSome ∧ onStopThrows = false
  | .unparseable => True
  | .event => True

/-- The condition on a step: rounds of the manager's thread have none. -/
def StepInOrder (d : Dispatcher σ) : Event ε → Prop
  | .datagram datagram => d.InOrder datagram
  | .round _ => True

variable {M} {d d' : Dispatcher σ}

/-- Monitors that are listed were made before. -/
theorem lookup_lt_of_reachable (h : (system M).Reachable d) {path : String} {m : ℕ}
    (hpath : d.monitors.lookup path = some m) : m < d.created := by
  revert path m
  refine h.invariant (I := fun d : Dispatcher σ =>
    ∀ {path m}, d.monitors.lookup path = some m → m < d.created) ?_ ?_
  · rintro _ rfl path m hpath
    cases hpath
  · intro d e d' _ hd hstep
    cases hstep with
    | round _ => exact hd
    | datagram hlistening hlisten =>
      rcases listen_eq_ok hlisten with
        rfl | ⟨filePath, type, ctx, rfl⟩ | ⟨filePath, onStopThrows, m, -, -, rfl⟩
      · exact hd
      · intro path m hpath
        rcases lookup_withMonitor hpath with ⟨-, rfl⟩ | hold
        · exact Nat.lt_succ_self _
        · exact Nat.lt_succ_of_lt (hd hold)
      · exact fun hpath => hd (lookup_withoutMonitor hpath)

/-- **A datagram that is in order** is survived. -/
theorem survives_of_inOrder (hlistening : d.listening = true) {datagram : Datagram}
    (h : d.InOrder datagram) : Survives M d datagram := by
  cases datagram with
  | unparseable => exact ⟨d, rfl, hlistening, fun _ => ⟨rfl, rfl⟩⟩
  | event => exact ⟨d, rfl, hlistening, fun _ => ⟨rfl, rfl⟩⟩
  | init filePath sourceAddress outcome =>
    cases outcome with
    | noFunction => exact h.elim
    | createsNull => exact h.elim
    | createThrows => exact ⟨d, rfl, hlistening, fun _ => ⟨rfl, rfl⟩⟩
    | created type ctx onInitThrows => exact ⟨_, rfl, hlistening, fun hnot => absurd h hnot⟩
  | stop filePath onStopThrows =>
    obtain ⟨hlisted, hthrows⟩ := h
    obtain ⟨m, hpath⟩ := Option.isSome_iff_exists.mp hlisted
    refine ⟨d.withoutMonitor M filePath m onStopThrows, ?_, ?_, ?_⟩
    · rw [listen, hpath]
    · simp [withoutMonitor, hthrows]
    · exact fun hnot => absurd ⟨hlisted, hthrows⟩ hnot

/-- A monitor whose `OnInit` throws is listed. -/
theorem monitors_withMonitor_ne (h : (system M).Reachable d) (filePath : String)
    (type : MonitorType) (ctx : Context) :
    (d.withMonitor M filePath type ctx).monitors ≠ d.monitors := by
  intro heq
  have hnew : d.monitors.lookup filePath = some d.created :=
    heq ▸ AList.lookup_insert d.monitors
  exact absurd (lookup_lt_of_reachable h hnew) (lt_irrefl _)

/-- **A datagram that is not in order** is not survived. -/
theorem inOrder_of_survives (h : (system M).Reachable d) {datagram : Datagram}
    (hsurvives : Survives M d datagram) : d.InOrder datagram := by
  obtain ⟨d', hlisten, hlistening, hunchanged⟩ := hsurvives
  cases datagram with
  | unparseable => trivial
  | event => trivial
  | init filePath sourceAddress outcome =>
    cases outcome with
    | noFunction => cases hlisten
    | createsNull => cases hlisten
    | createThrows => trivial
    | created type ctx onInitThrows =>
      obtain rfl := Except.ok.inj hlisten
      by_contra hnot
      exact monitors_withMonitor_ne h filePath type _ (hunchanged hnot).1
  | stop filePath onStopThrows =>
    rw [listen] at hlisten
    split at hlisten
    · cases hlisten
    · next m hpath =>
      obtain rfl := Except.ok.inj hlisten
      exact ⟨by simp [hpath], by simpa [withoutMonitor] using hlistening⟩

/-- In a run whose datagrams are all in order, the loop was not left. -/
theorem listening_of_inOrder
    (h : ((system M).guarded StepInOrder).Reachable d) : d.listening = true := by
  refine h.invariant (I := fun d : Dispatcher σ => d.listening = true) ?_ ?_
  · rintro _ rfl
    rfl
  · rintro d e d' _ hd ⟨hstep, hok⟩
    cases hstep with
    | round _ => exact hd
    | datagram hlistening hlisten =>
      obtain ⟨d'', hlisten', hlistening', -⟩ := survives_of_inOrder (M := M) hlistening hok
      obtain rfl := Except.ok.inj (hlisten.symm.trans hlisten')
      exact hlistening'

end Dispatcher

end WallMon
