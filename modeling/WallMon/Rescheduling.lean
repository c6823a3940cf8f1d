import Mathlib.Tactic.Linarith
import Mathlib.Tactic.Ring
import WallMon.DataRouter

/-!
# Rescheduling of collectors

A collector may leave another frequency in its `Context`. `_TimerCallback` then works out
how much of the new interval the sampling has used up and gives libev both that rest and the
interval; but `ev_timer_again` reads the interval only, and takes an interval of 0 as the
end of the timer. So the rest counts for nothing: the next callback comes one whole interval
after the loop's time, which is the time before the sampling. And a collector that leaves
0, or a negative number, is not sampled again (`rescheduled_iff`).
-/

namespace WallMon

/-- The frequency a callback leaves: negative values count as 0. -/
def Timeout.frequency (o : Timeout) : ℚ := max o.ctx.sampleFrequencyMsec 0

namespace Scheduler

open TransitionSystem

/-- What libev documents of its timers, by the two times a timer holds. -/
structure TimerLaws (L : EventLoop) where
  /-- when an active timer is due -/
  dueAt : L.Timer → ℚ
  /-- its repeat value -/
  repeatSec : L.Timer → ℚ
  /-- `ev_timer_init` -/
  repeatSec_init : ∀ after r, repeatSec (L.init after r) = r
  /-- `ev_timer_start` starts a timer -/
  isActive_start : ∀ now t, L.isActive (L.start now t) = true
  /-- and keeps its repeat value -/
  repeatSec_start : ∀ now t, repeatSec (L.start now t) = repeatSec t
  /-- `ev_timer_set` -/
  repeatSec_set : ∀ after r t, repeatSec (L.set after r t) = r
  /-- `ev_timer_again` starts or restarts a timer that repeats -/
  again_repeat : ∀ now t, 0 < repeatSec t → L.isActive (L.again now t) = true ∧
    dueAt (L.again now t) = now + repeatSec t ∧ repeatSec (L.again now t) = repeatSec t
  /-- and stops one that does not -/
  again_stop : ∀ now t, repeatSec t = 0 → L.isActive (L.again now t) = false
  /-- a timer that repeats is due one interval later, but not in the past -/
  expire_repeat : ∀ now t, 0 < repeatSec t → L.isActive (L.expire now t) = L.isActive t ∧
    dueAt (L.expire now t) = max (dueAt t + repeatSec t) now ∧
    repeatSec (L.expire now t) = repeatSec t
  /-- one that does not is stopped -/
  expire_stop : ∀ now t, repeatSec t = 0 → L.isActive (L.expire now t) = false

/-- The timer `Register` adds for a collector. -/
def registered (s : Scheduler L) (collector : ℕ) (type : MonitorType) (ctx : Context) :
    CollectorTimer L :=
  let scheduleIntervalInSec := ctx.sampleFrequencyMsec / 1000
  { timer := L.start s.now (L.init scheduleIntervalInSec scheduleIntervalInSec)
    ctx, collector, type }

/-- The timer goes on as the callback means it to: it is active; after a change to `f` it is
due `max(0, f/1000 - sampleDuration)` seconds after the moment `since`, where what is due
before that moment is called then; without a change one interval after it was due, but not
in the past. -/
def Rescheduled (laws : TimerLaws L) (since : Timeout → ℚ) (t : CollectorTimer L) (o : Timeout) :
    Prop :=
  let t' := timerCallback t o
  L.isActive t'.timer = true ∧
    if o.frequency ≠ t.ctx.sampleFrequencyMsec then
      max (laws.dueAt t'.timer) (since o) =
        since o + max 0 (o.frequency / 1000 - o.sampleDurationSec)
    else laws.dueAt t'.timer = max (laws.dueAt t.timer + o.frequency / 1000) o.now

/-- The moment a callback is made: the loop's time. -/
def callbackMade (o : Timeout) : ℚ := o.now

/-- The moment its sampling is over. -/
def callbackOver (o : Timeout) : ℚ := o.now + o.sampleDurationSec

/-- A timer that repeats at the frequency of its `Context`. -/
def Repeating (laws : TimerLaws L) (t : CollectorTimer L) : Prop :=
  L.isActive t.timer = true ∧ laws.repeatSec t.timer = t.ctx.sampleFrequencyMsec / 1000

theorem repeating_registered (laws : TimerLaws L) (s : Scheduler L) (collector : ℕ)
    (type : MonitorType) (ctx : Context) : Repeating laws (registered s collector type ctx) :=
  ⟨laws.isActive_start _ _, (laws.repeatSec_start _ _).trans (laws.repeatSec_init _ _)⟩

/-- The clamp of negative values. -/
theorem clamped_ctx (o : Timeout) :
    (if o.ctx.sampleFrequencyMsec < 0 then { o.ctx with sampleFrequencyMsec := 0 } else o.ctx) =
      { o.ctx with sampleFrequencyMsec := o.frequency } := by
  unfold Timeout.frequency
  split
  · next hneg => rw [max_eq_right hneg.le]
  · next hpos => rw [max_eq_left (not_lt.mp hpos)]

@[simp] theorem timerCallback_frequency (t : CollectorTimer L) (o : Timeout) :
    (timerCallback t o).ctx.sampleFrequencyMsec = o.frequency := by
  simp only [timerCallback, clamped_ctx]
  split <;> rfl

/-- The timer after a callback that changed the frequency. -/
theorem timerCallback_changed {t : CollectorTimer L} {o : Timeout}
    (h : o.frequency ≠ t.ctx.sampleFrequencyMsec) : ∃ again,
      (timerCallback t o).timer =
        L.again o.now (L.set again (o.frequency / 1000) (L.expire o.now t.timer)) := by
  simp only [timerCallback, clamped_ctx]
  rw [if_pos h]
  exact ⟨_, rfl⟩

/-- The timer after one that did not. -/
theorem timerCallback_unchanged {t : CollectorTimer L} {o : Timeout}
    (h : o.frequency = t.ctx.sampleFrequencyMsec) :
    (timerCallback t o).timer = L.expire o.now t.timer := by
  simp only [timerCallback, clamped_ctx]
  rw [if_neg (not_not_intro h)]

theorem frequency_of_pos {o : Timeout} (h : 0 < o.ctx.sampleFrequencyMsec) :
    o.frequency = o.ctx.sampleFrequencyMsec := max_eq_left h.le

theorem frequency_of_nonpos {o : Timeout} (h : ¬0 < o.ctx.sampleFrequencyMsec) :
    o.frequency = 0 := max_eq_right (not_lt.mp h)

/-- **The timer ends**: a collector that leaves no positive frequency is not called again. -/
theorem isActive_timerCallback_of_nonpos {laws : TimerLaws L} {t : CollectorTimer L}
    (ht : Repeating laws t) {o : Timeout} (ho : ¬0 < o.ctx.sampleFrequencyMsec) :
    L.isActive (timerCallback t o).timer = false := by
  have hzero : o.frequency / 1000 = 0 := by rw [frequency_of_nonpos ho, zero_div]
  by_cases hchanged : o.frequency = t.ctx.sampleFrequencyMsec
  · rw [timerCallback_unchanged hchanged]
    exact laws.expire_stop _ _ (by rw [ht.2, ← hchanged, hzero])
  · obtain ⟨again, htimer⟩ := timerCallback_changed hchanged
    rw [htimer]
    exact laws.again_stop _ _ (by rw [laws.repeatSec_set, hzero])

/-- A callback with a changed frequency: one interval from the loop's time. -/
theorem timerCallback_changed_dueAt (laws : TimerLaws L) {t : CollectorTimer L} {o : Timeout}
    (ho : 0 < o.ctx.sampleFrequencyMsec) (h : o.frequency ≠ t.ctx.sampleFrequencyMsec) :
    Repeating laws (timerCallback t o) ∧
      laws.dueAt (timerCallback t o).timer = o.now + o.frequency / 1000 := by
  obtain ⟨again, htimer⟩ := timerCallback_changed h
  have hpos : 0 < laws.repeatSec (L.set again (o.frequency / 1000) (L.expire o.now t.timer)) := by
    rw [laws.repeatSec_set, frequency_of_pos ho]
    linarith
  obtain ⟨hactive, hdue, hrepeat⟩ := laws.again_repeat o.now _ hpos
  rw [laws.repeatSec_set] at hdue hrepeat
  rw [Repeating, htimer, timerCallback_frequency]
  exact ⟨⟨hactive, hrepeat⟩, hdue⟩

/-- A callback with the frequency as it was: one interval from when the timer was due. -/
theorem timerCallback_unchanged_dueAt {laws : TimerLaws L} {t : CollectorTimer L} {o : Timeout}
    (ht : Repeating laws t) (ho : 0 < o.ctx.sampleFrequencyMsec)
    (h : o.frequency = t.ctx.sampleFrequencyMsec) :
    Repeating laws (timerCallback t o) ∧
      laws.dueAt (timerCallback t o).timer =
        max (laws.dueAt t.timer + o.frequency / 1000) o.now := by
  have hrep : laws.repeatSec t.timer = o.frequency / 1000 := by rw [ht.2, h]
  have hpos : 0 < laws.repeatSec t.timer := by
    rw [hrep, frequency_of_pos ho]
    linarith
  obtain ⟨hactive, hdue, hrepeat⟩ := laws.expire_repeat o.now t.timer hpos
  rw [hrep] at hdue hrepeat
  rw [Repeating, timerCallback_unchanged h, timerCallback_frequency, hactive]
  exact ⟨⟨ht.1, hrepeat⟩, hdue⟩

/-- A timer that repeats goes on repeating at whatever positive frequency is left. -/
theorem Repeating.timerCallback {laws : TimerLaws L} {t : CollectorTimer L}
    (ht : Repeating laws t) {o : Timeout} (ho : 0 < o.ctx.sampleFrequencyMsec) :
    Repeating laws (timerCallback t o) := by
  by_cases hchanged : o.frequency = t.ctx.sampleFrequencyMsec
  · exact (timerCallback_unchanged_dueAt ht ho hchanged).1
  · exact (timerCallback_changed_dueAt laws ho hchanged).1

/-- One callback: it is rescheduled as meant if and only if a positive frequency is left and,
where it has changed, the interval from the loop's time is what was meant. -/
theorem rescheduled_step_iff {laws : TimerLaws L} {since : Timeout → ℚ} {t : CollectorTimer L}
    (ht : Repeating laws t) (o : Timeout) :
    Rescheduled laws since t o ↔
      0 < o.ctx.sampleFrequencyMsec ∧ (o.frequency ≠ t.ctx.sampleFrequencyMsec →
        max (o.now + o.frequency / 1000) (since o) =
          since o + max 0 (o.frequency / 1000 - o.sampleDurationSec)) := by
  by_cases ho : 0 < o.ctx.sampleFrequencyMsec
  · by_cases hchanged : o.frequency = t.ctx.sampleFrequencyMsec
    · obtain ⟨hrepeating, hdue⟩ := timerCallback_unchanged_dueAt ht ho hchanged
      refine iff_of_true ⟨hrepeating.1, ?_⟩ ⟨ho, fun h => absurd hchanged h⟩
      rw [if_neg (not_not_intro hchanged), hdue]
    · obtain ⟨hrepeating, hdue⟩ := timerCallback_changed_dueAt laws ho hchanged
      rw [Rescheduled, if_pos hchanged, hdue, and_iff_right hrepeating.1, and_iff_right ho]
      exact ⟨fun hdue _ => hdue, fun hdue => hdue hchanged⟩
  · refine iff_of_false (fun h => ?_) fun h => ho h.1
    have hstopped := isActive_timerCallback_of_nonpos ht ho
    rw [h.1] at hstopped
    cases hstopped

/-- Counted from the callback's end, a whole interval from the loop's time is right. -/
theorem due_callbackOver (now repeatSec duration : ℚ) :
    max (now + repeatSec) (now + duration) = now + duration + max 0 (repeatSec - duration) := by
  rcases le_total repeatSec duration with h | h
  · rw [max_eq_right (by linarith), max_eq_left (by linarith), add_zero]
  · rw [max_eq_left (by linarith), max_eq_right (by linarith)]
    ring

/-- Counted from the loop's time, it is right if the sampling took no time. -/
theorem due_callbackMade {now repeatSec duration : ℚ} (h : 0 < repeatSec) :
    max (now + repeatSec) now = now + max 0 (repeatSec - duration) ↔ duration = 0 := by
  rw [max_eq_left (by linarith), add_right_inj]
  refine ⟨fun heq => ?_, ?_⟩
  · rcases max_choice 0 (repeatSec - duration) with hmax | hmax
    · rw [hmax] at heq
      exact absurd heq h.ne'
    · rw [hmax] at heq
      linarith
  · rintro rfl
    rw [sub_zero, max_eq_right h.le]

/-- **Rescheduling**: in every run of callbacks of a collector the timer goes on as meant if
and only if every callback leaves a positive frequency and, where the seconds are counted
from the callback's beginning and not from its end, callbacks that change the frequency take
no time. -/
theorem rescheduled_iff (laws : TimerLaws L) (s : Scheduler L) (collector : ℕ)
    (type : MonitorType) (ctx : Context) (os : List Timeout) :
    (Meets timerCallback (Rescheduled laws callbackOver) (registered s collector type ctx) os ↔
      ∀ o ∈ os, 0 < o.ctx.sampleFrequencyMsec) ∧
    (Meets timerCallback (Rescheduled laws callbackMade) (registered s collector type ctx) os ↔
      Meets timerCallback (fun t o => 0 < o.ctx.sampleFrequencyMsec ∧
        (o.ctx.sampleFrequencyMsec ≠ t.ctx.sampleFrequencyMsec → o.sampleDurationSec = 0))
        (registered s collector type ctx) os) := by
  have hstart := repeating_registered laws s collector type ctx
  refine ⟨?_, ?_⟩
  · rw [← meets_iff_forall_mem timerCallback _ (registered s collector type ctx)]
    refine meets_congr (fun t o ht => ?_) (fun _ _ ht ho => ht.timerCallback ho) hstart os
    rw [rescheduled_step_iff ht]
    exact and_iff_left fun _ => due_callbackOver _ _ _
  · refine meets_congr (fun t o ht => ?_) (fun t o ht ho => ht.timerCallback ho.1) hstart os
    rw [rescheduled_step_iff ht]
    refine and_congr_right fun ho => ?_
    rw [frequency_of_pos ho]
    exact imp_congr_right fun _ => due_callbackMade (by linarith)

/-- libev's timers, as documented. -/
def libevLaws : TimerLaws libev where
  dueAt := EvTimer.dueAt
  repeatSec := EvTimer.repeatSec
  repeatSec_init _ _ := rfl
  isActive_start now t := by
    cases h : t.active <;> simp [libev, h]
  repeatSec_start now t := by
    cases h : t.active <;> simp [libev, h]
  repeatSec_set _ _ _ := rfl
  again_repeat now t h := by simp [libev, h.ne']
  again_stop now t h := by simp [libev, h]
  expire_repeat now t h := by simp [libev, h.ne']
  expire_stop now t h := by simp [libev, h]

/-- A collector at 1000 ms that leaves 500 ms, after a sampling of 100 ms, and then goes on. -/
theorem rescheduled_iff_libev :
    Meets timerCallback (Rescheduled libevLaws callbackOver)
      (registered ⟨0, []⟩ 0 .plain (Dispatcher.plainContext "key" 1000))
      [⟨0, 2, Dispatcher.plainContext "key" 500, 1 / 10⟩,
        ⟨0, 3, Dispatcher.plainContext "key" 500, 1 / 10⟩] := by
  refine (rescheduled_iff libevLaws _ _ _ _ _).1.mpr fun o ho => ?_
  rcases List.mem_pair.mp ho with rfl | rfl <;> decide +kernel

/-- A collector at 1000 ms that leaves 0 is not called again; one that leaves 500 ms after a
sampling of 100 ms is due 500 ms, not 400 ms, after the loop's time. -/
theorem not_rescheduled_zero :
    (¬Meets timerCallback (Rescheduled libevLaws callbackOver)
      (registered ⟨0, []⟩ 0 .plain (Dispatcher.plainContext "key" 1000))
      [⟨0, 2, Dispatcher.plainContext "key" 0, 0⟩]) ∧
    ¬Meets timerCallback (Rescheduled libevLaws callbackMade)
      (registered ⟨0, []⟩ 0 .plain (Dispatcher.plainContext "key" 1000))
      [⟨0, 2, Dispatcher.plainContext "key" 500, 1 / 10⟩] := by
  refine ⟨?_, ?_⟩
  · rintro ⟨⟨hactive, -⟩, -⟩
    revert hactive
    decide +kernel
  · rintro ⟨⟨-, hdue⟩, -⟩
    revert hdue
    rw [if_pos (by decide +kernel)]
    decide +kernel

end Scheduler

end WallMon
