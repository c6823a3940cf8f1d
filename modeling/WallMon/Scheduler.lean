import Mathlib.Tactic.NormNum
import WallMon.MonitorDispatcher

/-!
# `Scheduler`: timers for collectors

Each registered collector has a timer in libev's loop, whose callback has it sample and
restarts the timer when the collector changed its frequency. `Remove` does nothing: a
collector is sampled for as long as its timer is active, also after `STOP`
(`sampled_after_stop`). As long as `STOP` comes only for collectors whose timer ran
out, calls are in order (`lawful_of_stopsIdle`).

libev is not part of the program. What the scheduler calls of it is the structure
`EventLoop`; `libev` is one with the documented behaviour.
-/

namespace WallMon

/-- What the scheduler uses of libev. Times are in seconds; `now` is the loop's time. -/
structure EventLoop where
  /-- `ev_timer` -/
  Timer : Type
  /-- `ev_timer_init` -/
  init : ℚ → ℚ → Timer
  /-- `ev_timer_start` -/
  start : ℚ → Timer → Timer
  /-- `ev_timer_set` -/
  set : ℚ → ℚ → Timer → Timer
  /-- `ev_timer_again` -/
  again : ℚ → Timer → Timer
  /-- `ev_is_active` -/
  isActive : Timer → Bool
  /-- the loop's time has passed the timer's -/
  isDue : ℚ → Timer → Bool
  /-- what the loop does with a timer that is due, before it calls its callback -/
  expire : ℚ → Timer → Timer

/-- A timer with the data of its `CollectorTimerEvent`. -/
structure CollectorTimer (L : EventLoop) where
  /-- the timer -/
  timer : L.Timer
  /-- the context shared with the collector -/
  ctx : Context
  /-- the collector -/
  collector : ℕ
  /-- its interface -/
  type : MonitorType

/-- The scheduler's registrations. -/
structure Scheduler (L : EventLoop) where
  /-- the loop's time -/
  now : ℚ
  /-- `_timers` -/
  timers : List (CollectorTimer L)

/-- A timeout of a timer: the loop's time, what the collector's `Sample` leaves in its
`Context`, and how long it takes. -/
structure Timeout where
  /-- which timer -/
  index : ℕ
  /-- the loop's time -/
  now : ℚ
  /-- the context after `Sample` -/
  ctx : Context
  /-- `sampleDurationSec` -/
  sampleDurationSec : ℚ

namespace Scheduler

variable {L : EventLoop}

/-- `Scheduler::Register` -/
def register (collector : ℕ) (type : MonitorType) (ctx : Context) (s : Scheduler L) :
    Scheduler L :=
  let scheduleIntervalInSec := ctx.sampleFrequencyMsec / 1000
  let timer := L.start s.now (L.init scheduleIntervalInSec scheduleIntervalInSec)
  { s with timers := s.timers ++ [{ timer, ctx, collector, type }] }

/-- `Scheduler::Remove` -/
def remove (_ : ℕ) (s : Scheduler L) : Scheduler L := s

/-- What `_TimerCallback` makes of its timer: a changed frequency is told to libev. -/
def timerCallback (t : CollectorTimer L) (o : Timeout) : CollectorTimer L :=
  let oldSampleFrequencyMsec := t.ctx.sampleFrequencyMsec
  let ctx :=
    if o.ctx.sampleFrequencyMsec < 0 then { o.ctx with sampleFrequencyMsec := 0 } else o.ctx
  let timer := L.expire o.now t.timer
  -- the comparison is with the frequency before `Sample`
  if ctx.sampleFrequencyMsec ≠ oldSampleFrequencyMsec then
    let repeatSec := ctx.sampleFrequencyMsec / 1000
    let again := repeatSec - o.sampleDurationSec
    let again := if again < 0 then 0 else again
    { t with ctx, timer := L.again o.now (L.set again repeatSec timer) }
  else { t with ctx, timer }

/-- The loop calls `_TimerCallback` for a timer that is active and due; a collector
without interface ends the process. -/
def timeout (s : Scheduler L) (o : Timeout) : Option (Scheduler L × List (Call ℕ)) :=
  match s.timers[o.index]? with
  | none => none
  | some t =>
    if L.isActive t.timer && L.isDue o.now t.timer && t.type ≠ .unknown then
      some ({ now := o.now, timers := s.timers.set o.index (timerCallback t o) },
        [.work t.collector])
    else none

variable (L) in
/-- The scheduler as the daemon's `IMonitorManager`. -/
def manager : MonitorManager (Scheduler L) Timeout where
  multicastListenPort := daemonMulticastListenPort
  start := { now := 0, timers := [] }
  register := register
  remove := remove
  round := timeout

@[simp] theorem timerCallback_collector (t : CollectorTimer L) (o : Timeout) :
    (timerCallback t o).collector = t.collector :=
  (apply_ite CollectorTimer.collector _ _ _).trans (ite_self _)

/-- The callback of a timer that is active and due is called. -/
theorem timeout_due {s : Scheduler L} {o : Timeout} {t : CollectorTimer L}
    (hget : s.timers[o.index]? = some t) (hactive : L.isActive t.timer = true)
    (hdue : L.isDue o.now t.timer = true) (htype : t.type ≠ .unknown) :
    timeout s o = some ({ now := o.now, timers := s.timers.set o.index (timerCallback t o) },
      [.work t.collector]) := by
  rw [timeout, hget]
  simp [hactive, hdue, htype]

/-- What a timeout does: an active timer's collector samples, and its timer is replaced. -/
theorem timeout_eq_some {s s' : Scheduler L} {o : Timeout} {calls : List (Call ℕ)}
    (h : timeout s o = some (s', calls)) :
    ∃ t, s.timers[o.index]? = some t ∧ L.isActive t.timer = true ∧
      s'.timers = s.timers.set o.index (timerCallback t o) ∧ calls = [.work t.collector] := by
  rw [timeout] at h
  split at h
  · cases h
  · next t hget =>
    split at h
    · next hcond =>
      obtain ⟨rfl, rfl⟩ := Prod.mk.inj (Option.some.inj h)
      simp only [Bool.and_eq_true] at hcond
      exact ⟨t, hget, hcond.1.1, rfl, rfl⟩
    · cases h

/-- The collector has an active timer. -/
def Timed (s : Scheduler L) (collector : ℕ) : Prop :=
  ∃ t ∈ s.timers, t.collector = collector ∧ L.isActive t.timer = true

/-- Callbacks activate no timer that is not active. -/
theorem timed_of_timeout {s s' : Scheduler L} {o : Timeout} {calls : List (Call ℕ)}
    (h : timeout s o = some (s', calls)) {m : ℕ} (hm : Timed s' m) : Timed s m := by
  obtain ⟨t, hget, hactive, htimers, -⟩ := timeout_eq_some h
  obtain ⟨t', hmem, hcollector, hactive'⟩ := hm
  rw [htimers] at hmem
  rcases List.mem_or_eq_of_mem_set hmem with hold | rfl
  · exact ⟨t', hold, hcollector, hactive'⟩
  · exact ⟨t, List.mem_of_getElem? hget, by simpa using hcollector, hactive⟩

variable (L) in
/-- The scheduler's registry: collectors with an active timer. -/
def registry : Registry (manager L) fun _ _ => True where
  Valid _ := True
  registered := Timed
  stopped _ _ := False
  valid_start := trivial
  registered_start := by
    rintro m ⟨t, hmem, -⟩
    cases hmem
  valid_register _ _ := trivial
  registered_register := by
    rintro s m type ctx m' ⟨t, hmem, hcollector, hactive⟩
    rcases List.mem_append.mp hmem with hold | hnew
    · exact .inr ⟨t, hold, hcollector, hactive⟩
    · obtain rfl := List.mem_singleton.mp hnew
      exact .inl hcollector.symm
  stopped_register := id
  valid_remove _ := trivial
  registered_remove := id
  stopped_remove := id
  valid_round _ _ _ := trivial
  registered_round _ _ h hm := timed_of_timeout h hm
  round_effect := by
    intro s o s' calls _ _ h
    obtain ⟨t, hget, hactive, -, rfl⟩ := timeout_eq_some h
    exact .work ⟨t, List.mem_of_getElem? hget, rfl, hactive⟩ fun _ => id

/-- `STOP` comes only for collectors whose timer is not active any more. -/
def StopsIdle (d : Dispatcher (Scheduler L)) : Dispatcher.Event Timeout → Prop
  | .datagram (.stop filePath _) => ∀ m, d.monitors.lookup filePath = some m →
      ∀ t ∈ d.manager.timers, t.collector = m → L.isActive t.timer = false
  | _ => True

theorem StopsIdle.stopsOnce {d : Dispatcher (Scheduler L)} {e : Dispatcher.Event Timeout}
    (h : StopsIdle d e) : Dispatcher.StopsOnce (registry L) d e := by
  cases e with
  | datagram datagram =>
    cases datagram with
    | stop filePath onStopThrows =>
      refine fun m hpath => ⟨?_, id⟩
      rintro ⟨t, hmem, hcollector, hactive⟩
      rw [h m hpath t hmem hcollector] at hactive
      cases hactive
    | _ => trivial
  | round => trivial

/-- **Lives of collectors**: as long as `STOP` comes only for collectors whose timer ran
out, collectors sample between `OnInit` and `OnStop`. -/
theorem lawful_of_stopsIdle {d : Dispatcher (Scheduler L)}
    (h : ((Dispatcher.system (manager L)).guarded StopsIdle).Reachable d) :
    Call.Lawful d.calls :=
  Dispatcher.lawful_of_stopsOnce (registry L)
    (h.guarded_mono fun _ _ hidle => hidle.stopsOnce)

/-! ## libev -/

/-- An `ev_timer` of libev. -/
structure EvTimer where
  /-- whether it is active -/
  active : Bool
  /-- when it is due, from when it is started on as an absolute time -/
  dueAt : ℚ
  /-- its repeat value; 0 for none -/
  repeatSec : ℚ

/-- The documented behaviour of libev's timers. -/
def libev : EventLoop where
  Timer := EvTimer
  init after repeatSec := ⟨false, after, repeatSec⟩
  start now t := if t.active then t else { t with active := true, dueAt := now + t.dueAt }
  set after repeatSec t := { t with dueAt := after, repeatSec }
  again now t :=
    if t.repeatSec = 0 then { t with active := false }
    else { t with active := true, dueAt := now + t.repeatSec }
  isActive t := t.active
  isDue now t := decide (t.dueAt < now)
  expire now t :=
    if t.repeatSec = 0 then { t with active := false }
    else { t with dueAt := max (t.dueAt + t.repeatSec) now }

end Scheduler

end WallMon
