import WallMon.Scheduler

/-!
# The scheduler's thread and its wake-ups

`_ScheduleForever` tests `_running`, waits on `_loopCondition`, and runs the event loop until
no timer is active. `Register` starts a timer and notifies, `Stop` clears `_running` and
notifies. The wait has no predicate: a notification that comes while the thread is on its way
to the wait is lost. In every run without such a notification no collector is left
unscheduled, and `Stop` does not leave the thread behind (`scheduled_of_inTime`); one such
notification, and the next steps of the thread can do so (`exists_not_scheduled`).
-/

namespace WallMon

/-- Where the scheduler's thread is. -/
inductive LoopPosition where
  /-- `Start` was not called -/
  | notStarted
  /-- before the test of `_running` -/
  | testing
  /-- before the call of `wait` -/
  | entering
  /-- in `wait` -/
  | waiting
  /-- in `ev_run` -/
  | eventLoop
  /-- the loop was left -/
  | left
  deriving DecidableEq

/-- The thread still has to come to its next wait. -/
def LoopPosition.BeforeWait : LoopPosition → Prop
  | notStarted => True
  | testing => True
  | entering => True
  | _ => False

/-- How far `Stop` is. -/
inductive StopCall where
  /-- it was not called -/
  | notCalled
  /-- `_running` was cleared -/
  | cleared
  /-- it has notified, and stops the timers -/
  | notified
  deriving DecidableEq

/-- The scheduler with its thread, and the calls that other threads make. -/
structure ScheduleLoop (L : EventLoop) where
  /-- where the thread is -/
  position : LoopPosition
  /-- `_running` -/
  running : Bool
  /-- the timers -/
  scheduler : Scheduler L
  /-- how many calls of `Register` have started their timer and not notified yet -/
  registering : ℕ
  /-- how far `Stop` is -/
  stop : StopCall

namespace ScheduleLoop

variable {L : EventLoop}

/-- Some timer is active. -/
def active (s : ScheduleLoop L) : Bool := s.scheduler.timers.any fun t => L.isActive t.timer

/-- `_loopCondition.notify_one`: a thread that is not waiting does not notice. -/
def notifyOne (s : ScheduleLoop L) : ScheduleLoop L :=
  if s.position = .waiting then { s with position := .eventLoop } else s

/-- What one of the threads does. -/
inductive Action where
  /-- `Start` -/
  | start
  /-- the test of `_running` -/
  | test
  /-- the call of `wait` -/
  | wait
  /-- a timer runs out in `ev_run` -/
  | timeout (o : Timeout)
  /-- `ev_run` returns -/
  | loopReturn
  /-- `Register` starts a timer -/
  | startTimer (collector : ℕ) (type : MonitorType) (ctx : Context)
  /-- `Register` notifies -/
  | registerNotify
  /-- `Stop` clears `_running` -/
  | clearRunning
  /-- `Stop` notifies -/
  | stopNotify
  /-- `Stop` stops a timer and deletes it -/
  | stopTimer (index : ℕ)

/-- One step. -/
inductive Step : ScheduleLoop L → Action → ScheduleLoop L → Prop where
  /-- `Start` is called once -/
  | start {s : ScheduleLoop L} : s.position = .notStarted →
      Step s .start { s with position := .testing, running := true }
  /-- the loop condition -/
  | test {s : ScheduleLoop L} : s.position = .testing →
      Step s .test { s with position := if s.running then .entering else .left }
  /-- the thread waits -/
  | wait {s : ScheduleLoop L} : s.position = .entering →
      Step s .wait { s with position := .waiting }
  /-- a callback -/
  | timeout {s : ScheduleLoop L} {o : Timeout} {scheduler : Scheduler L}
      {calls : List (Call ℕ)} : s.position = .eventLoop →
      s.scheduler.timeout o = some (scheduler, calls) →
      Step s (.timeout o) { s with scheduler }
  /-- no timer is active -/
  | loopReturn {s : ScheduleLoop L} : s.position = .eventLoop → s.active = false →
      Step s .loopReturn { s with position := .testing }
  /-- `Register`, up to `ev_timer_start` -/
  | startTimer {s : ScheduleLoop L} {collector : ℕ} {type : MonitorType} {ctx : Context} :
      Step s (.startTimer collector type ctx)
        { s with
          scheduler := s.scheduler.register collector type ctx
          registering := s.registering + 1 }
  /-- `notify_one` of `Register` -/
  | registerNotify {s : ScheduleLoop L} : 0 < s.registering →
      Step s .registerNotify { s.notifyOne with registering := s.registering - 1 }
  /-- `Stop` is called once, after `Start` -/
  | clearRunning {s : ScheduleLoop L} : s.position ≠ .notStarted → s.stop = .notCalled →
      Step s .clearRunning { s with running := false, stop := .cleared }
  /-- `notify_one` of `Stop` -/
  | stopNotify {s : ScheduleLoop L} : s.stop = .cleared →
      Step s .stopNotify { s.notifyOne with stop := .notified }
  /-- a round of the loop over the timers -/
  | stopTimer {s : ScheduleLoop L} {index : ℕ} : s.stop = .notified →
      Step s (.stopTimer index)
        { s with
          scheduler := { s.scheduler with timers := s.scheduler.timers.eraseIdx index } }

/-- A new scheduler. -/
def initial : ScheduleLoop L where
  position := .notStarted
  running := false
  scheduler := { now := 0, timers := [] }
  registering := 0
  stop := .notCalled

variable (L) in
/-- The transition system of the scheduler's thread and its callers. -/
def system : TransitionSystem (ScheduleLoop L) Action where
  init s := s = initial
  step := Step

/-- **Collectors are scheduled**: the thread does not wait while a timer is active and
`_running` holds, unless a notification is under way; and it does not wait once `Stop` has
notified. -/
structure Scheduled (s : ScheduleLoop L) : Prop where
  /-- active timers are in the event loop -/
  timers : ¬(s.active = true ∧ s.running = true ∧ s.position = .waiting ∧ s.registering = 0)
  /-- `Stop` gets through -/
  stop : ¬(s.stop = .notified ∧ s.position = .waiting)

/-- **Notifications come in time**: `Register` does not notify while the thread still has to
come to its wait, unless no timer is active or `Stop` was called; and `Stop` does not notify
between the test of `_running` and the wait. -/
def InTime (s : ScheduleLoop L) : Action → Prop
  | .registerNotify => s.stop = .notCalled → s.position.BeforeWait → s.active = false
  | .stopNotify => s.position ≠ .entering
  | _ => True

/-! ## No notification is lost -/

/-- What holds as long as notifications come in time. -/
structure Inv (s : ScheduleLoop L) : Prop where
  /-- an active timer is in the event loop, or its notification is to come -/
  timers : s.stop = .notCalled → s.position.BeforeWait ∨ s.position = .waiting →
    s.active = true → 0 < s.registering
  /-- only `Stop` clears `_running` -/
  running : s.running = true → s.stop = .notCalled
  /-- `Stop` comes after `Start` -/
  started : s.stop ≠ .notCalled → s.position ≠ .notStarted
  /-- once `Stop` has notified, the thread does not wait any more -/
  stop : s.stop = .notified → s.position ≠ .entering ∧ s.position ≠ .waiting

theorem Inv.initial : Inv (initial : ScheduleLoop L) where
  timers _ _ hactive := by cases hactive
  running hrunning := by cases hrunning
  started hstop := absurd rfl hstop
  stop hstop := by cases hstop

theorem Inv.scheduled {s : ScheduleLoop L} (h : s.Inv) : s.Scheduled where
  timers := by
    rintro ⟨hactive, hrunning, hwaiting, hnone⟩
    have hpos := h.timers (h.running hrunning) (.inr hwaiting) hactive
    omega
  stop := fun ⟨hstop, hwaiting⟩ => (h.stop hstop).2 hwaiting

variable {s s' : ScheduleLoop L} {a : Action}

/-- A notification changes nothing but where the thread is, and that only if it waits. -/
theorem notifyOne_cases (s : ScheduleLoop L) :
    s.position = .waiting ∧ s.notifyOne = { s with position := .eventLoop } ∨
      s.position ≠ .waiting ∧ s.notifyOne = s := by
  rw [notifyOne]
  split
  · next hwaiting => exact .inl ⟨hwaiting, rfl⟩
  · next hnot => exact .inr ⟨hnot, rfl⟩

/-- **One step** that comes in time keeps the invariant. -/
theorem Inv.step (h : s.Inv) (hstep : Step s a s') (hok : s.InTime a) : s'.Inv := by
  cases hstep with
  | start hposition =>
    have hstop : s.stop = .notCalled := by
      by_contra hcalled
      exact h.started hcalled hposition
    refine ⟨fun _ _ => h.timers hstop (.inl (by rw [hposition]; trivial)), fun _ => hstop,
      fun hcalled => absurd hstop hcalled, fun hnotified => ?_⟩
    cases hstop.symm.trans hnotified
  | test hposition =>
    have hbefore : s.stop = .notCalled → s.active = true → 0 < s.registering := fun hstop =>
      h.timers hstop (.inl (by rw [hposition]; trivial))
    refine ⟨fun hstop _ => hbefore hstop, h.running, fun _ => ?_, fun hnotified => ?_⟩
    · dsimp only
      split <;> simp
    · have hrunning : s.running = false := by
        cases hr : s.running with
        | false => rfl
        | true => cases (h.running hr).symm.trans hnotified
      simp [hrunning]
  | wait hposition =>
    refine ⟨fun hstop _ => h.timers hstop (.inl (by rw [hposition]; trivial)), h.running,
      fun _ => by simp, fun hnotified => absurd hposition (h.stop hnotified).1⟩
  | timeout hposition htimeout =>
    refine ⟨fun _ hwhere => ?_, h.running, fun hcalled => h.started hcalled, fun hnotified =>
      h.stop hnotified⟩
    rw [hposition] at hwhere
    rcases hwhere with hbefore | hwaiting
    · exact hbefore.elim
    · cases hwaiting
  | loopReturn hposition hactive =>
    refine ⟨fun _ _ hactive' => ?_, h.running, fun _ => by simp, fun _ => by simp⟩
    exact absurd (hactive.symm.trans hactive') (by decide)
  | startTimer => exact ⟨fun _ _ _ => Nat.succ_pos _, h.running, h.started, h.stop⟩
  | registerNotify hregistering =>
    rcases s.notifyOne_cases with ⟨hwaiting, heq⟩ | ⟨hnot, heq⟩
    · rw [heq]
      refine ⟨fun _ hwhere => ?_, h.running, fun _ => by simp, fun _ => by simp⟩
      rcases hwhere with hbefore | hwaiting
      · exact hbefore.elim
      · cases hwaiting
    · rw [heq]
      refine ⟨fun hstop hwhere hactive => ?_, h.running, h.started, h.stop⟩
      rcases hwhere with hbefore | hwaiting
      · exact absurd (hactive.symm.trans (hok hstop hbefore)) (by decide)
      · exact absurd hwaiting hnot
  | clearRunning hposition hstop =>
    exact ⟨fun hnot => (nomatch hnot), fun hrunning => (nomatch hrunning), fun _ => hposition,
      fun hnotified => nomatch hnotified⟩
  | stopNotify hstop =>
    have hposition : s.position ≠ .notStarted := h.started (by rw [hstop]; decide)
    have hrunning : s.running = true → StopCall.notified = .notCalled := by
      intro hr
      cases (h.running hr).symm.trans hstop
    rcases s.notifyOne_cases with ⟨hwaiting, heq⟩ | ⟨hnot, heq⟩
    · rw [heq]
      exact ⟨fun hcalled => (nomatch hcalled), hrunning, fun _ => by simp, fun _ => by simp⟩
    · rw [heq]
      exact ⟨fun hcalled => (nomatch hcalled), hrunning, fun _ => hposition, fun _ => ⟨hok, hnot⟩⟩
  | stopTimer hstop =>
    refine ⟨fun hcalled => ?_, h.running, h.started, h.stop⟩
    cases hcalled.symm.trans hstop

/-- **No collector is left unscheduled** in a run whose notifications come in time. -/
theorem scheduled_of_inTime {L : EventLoop} {s : ScheduleLoop L}
    (h : ((system L).guarded InTime).Reachable s) : s.Scheduled := by
  have hinv : s.Inv := h.invariant (by rintro _ rfl; exact .initial)
    (fun _ _ _ _ hs hstep => hs.step hstep.1 hstep.2)
  exact hinv.scheduled

/-! ## One notification that is lost -/

/-- Until `Stop` is called, a thread that was started runs. -/
theorem running_of_reachable (h : (system L).Reachable s) :
    s.stop = .notCalled → s.position ≠ .notStarted → s.running = true := by
  refine h.invariant (I := fun s : ScheduleLoop L =>
    s.stop = .notCalled → s.position ≠ .notStarted → s.running = true) ?_ ?_
  · rintro _ rfl - hposition
    exact absurd rfl hposition
  · intro s a s' _ ih hstep
    cases hstep with
    | start => exact fun _ _ => rfl
    | test hposition => exact fun hstop _ => ih hstop (by rw [hposition]; decide)
    | wait hposition => exact fun hstop _ => ih hstop (by rw [hposition]; decide)
    | timeout => exact ih
    | loopReturn hposition => exact fun hstop _ => ih hstop (by rw [hposition]; decide)
    | startTimer => exact ih
    | registerNotify =>
      rcases s.notifyOne_cases with ⟨hwaiting, heq⟩ | ⟨-, heq⟩
      · rw [heq]
        exact fun hstop _ => ih hstop (by rw [hwaiting]; decide)
      · rw [heq]
        exact ih
    | clearRunning => exact fun hstop => nomatch hstop
    | stopNotify => exact fun hstop => nomatch hstop
    | stopTimer => exact ih

/-- All calls of `Register` that are under way notify while the thread does not wait. -/
theorem reachable_registered (n : ℕ) {s : ScheduleLoop L} (h : (system L).Reachable s)
    (hn : s.registering = n) (hposition : s.position ≠ .waiting) :
    (system L).Reachable { s with registering := 0 } := by
  induction n generalizing s with
  | zero =>
    rw [← hn]
    exact h
  | succ n ih =>
    have hnotify := h.next (.registerNotify (by omega))
    rw [notifyOne, if_neg hposition] at hnotify
    have hall := ih hnotify (by dsimp only; omega) hposition
    exact hall

/-- The thread goes on to its wait. -/
theorem reachable_waiting (h : (system L).Reachable s) (hstop : s.stop = .notCalled)
    (hbefore : s.position.BeforeWait) :
    (system L).Reachable { s with position := .waiting, running := true } := by
  have hentering : ∀ {s : ScheduleLoop L}, (system L).Reachable s → s.stop = .notCalled →
      s.position = .entering →
      (system L).Reachable { s with position := .waiting, running := true } := by
    intro s h hstop hposition
    have hrunning := running_of_reachable h hstop (by rw [hposition]; decide)
    have hwait := h.next (.wait hposition)
    rw [← hrunning]
    exact hwait
  have htesting : ∀ {s : ScheduleLoop L}, (system L).Reachable s → s.stop = .notCalled →
      s.position = .testing →
      (system L).Reachable { s with position := .waiting, running := true } := by
    intro s h hstop hposition
    have hrunning := running_of_reachable h hstop (by rw [hposition]; decide)
    have htest := h.next (.test hposition)
    rw [if_pos hrunning] at htest
    have hwaits := hentering htest hstop rfl
    exact hwaits
  cases hposition : s.position with
  | notStarted =>
    have hwaits := htesting (h.next (.start hposition)) hstop rfl
    exact hwaits
  | testing => exact htesting h hstop hposition
  | entering => exact hentering h hstop hposition
  | _ =>
    rw [hposition] at hbefore
    exact hbefore.elim

/-- **A notification that does not come in time** may leave a collector unscheduled, or the
thread behind. -/
theorem exists_not_scheduled (h : (system L).Reachable s) (hstep : Step s a s')
    (hlate : ¬s.InTime a) : ∃ t, (system L).Reachable t ∧ ¬t.Scheduled := by
  cases hstep with
  | registerNotify hregistering =>
    simp only [InTime, Classical.not_imp, Bool.not_eq_false] at hlate
    obtain ⟨hstop, hbefore, hactive⟩ := hlate
    have hposition : s.position ≠ .waiting := by
      intro hwaiting
      rw [hwaiting] at hbefore
      exact hbefore
    have hwaits := reachable_waiting (reachable_registered _ h rfl hposition) hstop hbefore
    exact ⟨_, hwaits, fun hscheduled => hscheduled.timers ⟨hactive, rfl, rfl, rfl⟩⟩
  | stopNotify hstop =>
    simp only [InTime, not_not] at hlate
    have hnotified := h.next (.stopNotify hstop)
    rw [notifyOne, if_neg (by rw [hlate]; decide)] at hnotified
    exact ⟨_, hnotified.next (.wait hlate), fun hscheduled => hscheduled.stop ⟨rfl, rfl⟩⟩
  | _ => exact absurd trivial hlate

/-- The first steps of `Register`. -/
theorem startTimer_step (s : ScheduleLoop L) (collector : ℕ) (type : MonitorType)
    (ctx : Context) :
    Step s (.startTimer collector type ctx)
      { s with
        scheduler := s.scheduler.register collector type ctx
        registering := s.registering + 1 } :=
  .startTimer

/-- A `Context` for the examples below. -/
def someContext : Context where
  key := "key"
  servers := []
  sampleFrequencyMsec := 1000
  exit := false

/-- A collector is registered while the thread waits, and is in the event loop then. -/
theorem scheduled_of_inTime_sampled : ∃ s : ScheduleLoop Scheduler.libev,
    ((system Scheduler.libev).guarded InTime).Reachable s ∧
      s.position = .eventLoop ∧ s.active = true ∧ s.Scheduled := by
  have hstart : ((system Scheduler.libev).guarded InTime).Reachable initial := .start rfl
  have hwaits := ((hstart.next ⟨.start rfl, trivial⟩).next ⟨.test rfl, trivial⟩).next
    ⟨.wait rfl, trivial⟩
  have htimer := hwaits.next ⟨startTimer_step _ 0 .plain someContext, trivial⟩
  have hregistered := htimer.next
    ⟨.registerNotify (Nat.succ_pos _), fun _ hbefore => hbefore.elim⟩
  exact ⟨_, hregistered, rfl, by decide +kernel, scheduled_of_inTime hregistered⟩

/-- `Register` notifies before the thread waits, and `Stop` does: the timer is never run, and
the thread never ends. -/
theorem not_scheduled_lost :
    (∃ s : ScheduleLoop Scheduler.libev, (system Scheduler.libev).Reachable s ∧
      s.active = true ∧ s.running = true ∧ s.position = .waiting ∧ s.registering = 0 ∧
        ¬s.Scheduled) ∧
    (∃ s : ScheduleLoop Scheduler.libev, (system Scheduler.libev).Reachable s ∧
      s.stop = .notified ∧ s.position = .waiting ∧ s.registering = 0 ∧ ¬s.Scheduled) := by
  have hstarted : (system Scheduler.libev).Reachable _ :=
    (TransitionSystem.Reachable.start rfl).next (.start rfl)
  have htimer := (hstarted.next (startTimer_step _ 0 .plain someContext)).next
    (.registerNotify (Nat.succ_pos _))
  have hlost := (htimer.next (.test rfl)).next (.wait rfl)
  have hcleared := (hstarted.next (.test rfl)).next (.clearRunning (by decide) rfl)
  have hbehind := (hcleared.next (.stopNotify rfl)).next (.wait rfl)
  refine ⟨?_, ?_⟩
  · refine ⟨_, hlost, by decide +kernel, rfl, rfl, rfl, fun hscheduled => ?_⟩
    exact hscheduled.timers ⟨by decide +kernel, rfl, rfl, rfl⟩
  · exact ⟨_, hbehind, rfl, rfl, rfl, fun hscheduled => hscheduled.stop ⟨rfl, rfl⟩⟩

end ScheduleLoop

end WallMon
