import WallMon.Binary64
import WallMon.CheckedInt
import WallMon.Rescheduling
import Mathlib.Algebra.GroupWithZero.Nat
import Mathlib.Algebra.BigOperators.Group.List.Basic
import Mathlib.Algebra.Order.BigOperators.Group.List
import Mathlib.Tactic.Positivity

/-!
# The plan of the experiment: `Controller::AfterSample`

The collector of the experiment samples by a table of intervals: some number of times at one
frequency, then at the next, to the end, where it ends the daemon. The plan is followed inside
of `Sample`, while `_TimerCallback` has already saved the frequency that the message is marked
with; and the end comes with a tick of its own, whose message is not sent.

The frequencies of the table are numbers of Hz. A negative one is not followed: the callback
takes the interval for 0, which stops the timer (`plan_not_followed`). Intervals are `double`s,
rounded where 1000 is divided by the number of Hz.
-/

namespace WallMon

namespace Gnuplot

/-- `SAMPLE_INTERVAL` -/
structure SampleInterval where
  /-- `hz` -/
  hz : ℤ
  /-- `numSamples` -/
  numSamples : ℤ
  deriving DecidableEq

/-- `SAMPLE_INTERVALS` -/
def sampleIntervals : List SampleInterval :=
  [⟨1, 60⟩, ⟨2, 60⟩, ⟨4, 60⟩, ⟨8, 60⟩, ⟨16, 60⟩, ⟨32, 120⟩, ⟨64, 120⟩, ⟨128, 120⟩, ⟨256, 300⟩,
    ⟨512, 300⟩]

/-- An entry of the table, by `CHECK` -/
def intervalAt (table : List SampleInterval) (idx : ℕ) : Except Fault SampleInterval :=
  match table[idx]? with
  | some interval => .ok interval
  | none => .error .assertion

/-- The interval between samples at a frequency: `1000 / (double) hz`, of a frequency that is
not 0 -/
def SampleInterval.msec (interval : SampleInterval) : ℚ := Binary64.div 1000 interval.hz

/-- `get_frequency_in_msec` -/
def getFrequencyInMsec (table : List SampleInterval) (idx : ℕ) : Except Fault ℚ := do
  let interval ← intervalAt table idx
  return interval.msec

/-- `get_num_samples` -/
def getNumSamples (table : List SampleInterval) (idx : ℕ) : Except Fault ℤ := do
  let interval ← intervalAt table idx
  return interval.numSamples

/-- `get_total_num_samples` -/
def getTotalNumSamples (table : List SampleInterval) : Except Fault ℤ :=
  (List.range table.length).foldlM
    (fun total i => getNumSamples table i >>= fun n => CInt.add total n) 0

/-! ## The controller -/

/-- `Controller` -/
structure Controller where
  /-- `_numSamples` -/
  numSamples : ℤ
  /-- `_sampleIntervalIndex` -/
  sampleIntervalIndex : ℕ
  deriving DecidableEq

/-- A new controller. -/
def Controller.new : Controller := { numSamples := 0, sampleIntervalIndex := 0 }

/-- `AfterSample`: the controller and the context after it, unless it ends the daemon. -/
def Controller.afterSample (table : List SampleInterval) (c : Controller) (ctx : Context) :
    Except Fault (Option (Controller × Context)) :=
  if c.sampleIntervalIndex = table.length then .ok none
  else do
    let numSamples ← CInt.add c.numSamples 1
    let expected ← getNumSamples table c.sampleIntervalIndex
    if numSamples = expected then
      let sampleIntervalIndex := c.sampleIntervalIndex + 1
      if sampleIntervalIndex ≠ table.length then do
        let sampleFrequencyMsec ← getFrequencyInMsec table sampleIntervalIndex
        return some ({ numSamples := 0, sampleIntervalIndex }, { ctx with sampleFrequencyMsec })
      else return some ({ numSamples := 0, sampleIntervalIndex }, ctx)
    else return some ({ c with numSamples }, ctx)

/-! ## The daemon -/

/-- A message of the collector, as far as it is about when it was made. -/
structure StreamedMessage where
  /-- `samplefrequencymsec` -/
  samplefrequencymsec : ℚ
  /-- `collectorsequencenumber` -/
  collectorsequencenumber : ℕ
  deriving DecidableEq

/-- Whether the daemon goes on. -/
inductive DaemonStatus where
  /-- it does -/
  | running
  /-- the controller ended it -/
  | exited
  /-- a `CHECK` or an overflow did -/
  | faulted (e : Fault)
  deriving DecidableEq

/-- The daemon with the collector of the experiment. -/
structure Daemon (L : EventLoop) where
  /-- the timer of the collector, with its context -/
  timer : CollectorTimer L
  /-- the collector's `_controller` -/
  controller : Controller
  /-- `CollectorTimerEvent::numSamples` -/
  numSamples : ℕ
  /-- history: the messages that were given to the streamer -/
  streamed : List StreamedMessage
  /-- whether it goes on -/
  status : DaemonStatus

/-- A tick: the loop's time, how long sampling takes, and whether `SerializeToArray` succeeds. -/
structure Tick where
  /-- the loop's time -/
  now : ℚ
  /-- `sampleDurationSec` -/
  sampleDurationSec : ℚ
  /-- whether what was sampled fits the buffer -/
  serialises : Bool

namespace Daemon

variable {L : EventLoop}

/-- `ProcessCollector::Sample`, as far as the controller is concerned: the controller and the
context after it, and whether there is data; `none` if it ends the daemon. -/
def sample (table : List SampleInterval) (d : Daemon L) (serialises : Bool) :
    Except Fault (Option (Controller × Context × Bool)) :=
  if serialises then do
    let result ← d.controller.afterSample table d.timer.ctx
    return result.map fun after => (after.1, after.2, true)
  else .ok (some (d.controller, d.timer.ctx, false))

/-- `_TimerCallback` -/
def timerCallback (table : List SampleInterval) (d : Daemon L) (tick : Tick) : Daemon L :=
  let oldSampleFrequencyMsec := d.timer.ctx.sampleFrequencyMsec
  match d.sample table tick.serialises with
  | .error e => { d with status := .faulted e }
  | .ok none => { d with status := .exited }
  | .ok (some (controller, ctx, hasData)) =>
    let timer := Scheduler.timerCallback d.timer
      { index := 0, now := tick.now, ctx, sampleDurationSec := tick.sampleDurationSec }
    if hasData then
      { d with
        timer, controller
        numSamples := d.numSamples + 1
        streamed := d.streamed ++ [⟨oldSampleFrequencyMsec, d.numSamples⟩] }
    else { d with timer, controller }

/-- A tick, at whatever time: the loop calls the callback of a timer that is active, and nothing
happens once the daemon has ended. -/
def step (table : List SampleInterval) (d : Daemon L) (tick : Tick) : Daemon L :=
  match d.status with
  | .running => if L.isActive d.timer.timer then d.timerCallback table tick else d
  | _ => d

/-- `create_collector`, and `Register` for a scheduler. -/
def create (table : List SampleInterval) (s : Scheduler L) (servers : List ServerAddress) :
    Daemon L :=
  let ctx (sampleFrequencyMsec : ℚ) : Context :=
    { key := "gnuplot", servers, sampleFrequencyMsec, exit := false }
  match getFrequencyInMsec table 0 with
  | .ok sampleFrequencyMsec =>
    { timer := Scheduler.registered s 0 .protobuf (ctx sampleFrequencyMsec)
      controller := .new, numSamples := 0, streamed := [], status := .running }
  | .error e =>
    { timer := Scheduler.registered s 0 .protobuf (ctx 0)
      controller := .new, numSamples := 0, streamed := [], status := .faulted e }

/-- The daemon after some ticks. -/
def run (table : List SampleInterval) (s : Scheduler L) (servers : List ServerAddress)
    (ticks : List Tick) : Daemon L := ticks.foldl (step table) (create table s servers)

end Daemon

/-! ## The plan -/

/-- The intervals that the samples of a table are to be marked with, in order. -/
def plan (table : List SampleInterval) : List ℚ :=
  table.flatMap fun interval => List.replicate interval.numSamples.toNat interval.msec

/-- What is left of the plan. -/
def remaining (table : List SampleInterval) (c : Controller) : List ℚ :=
  match table.drop c.sampleIntervalIndex with
  | [] => []
  | interval :: rest =>
    List.replicate (interval.numSamples - c.numSamples).toNat interval.msec ++ plan rest

/-- A table of frequencies and numbers that are at least 1; the numbers add up to an `int`. -/
structure Plannable (table : List SampleInterval) : Prop where
  /-- the frequencies -/
  hz_pos : ∀ interval ∈ table, 0 < interval.hz
  /-- the numbers -/
  numSamples_pos : ∀ interval ∈ table, 0 < interval.numSamples
  /-- their sum -/
  total_le : (table.map SampleInterval.numSamples).sum ≤ 2147483647

variable {table : List SampleInterval}

theorem intervalAt_ok {idx : ℕ} (h : idx < table.length) :
    intervalAt table idx = .ok table[idx] := by
  rw [intervalAt, List.getElem?_eq_getElem h]

theorem getNumSamples_ok {idx : ℕ} (h : idx < table.length) :
    getNumSamples table idx = .ok (table[idx]).numSamples := by
  rw [getNumSamples, intervalAt_ok h]
  rfl

theorem getFrequencyInMsec_ok {idx : ℕ} (h : idx < table.length) :
    getFrequencyInMsec table idx = .ok (table[idx]).msec := by
  rw [getFrequencyInMsec, intervalAt_ok h]
  rfl

theorem Plannable.msec_pos (hplan : Plannable table) {interval : SampleInterval}
    (h : interval ∈ table) : 0 < interval.msec :=
  Binary64.zero_lt_div (by norm_num) (Int.cast_pos.mpr (hplan.hz_pos interval h))

theorem Plannable.numSamples_le (hplan : Plannable table) {interval : SampleInterval}
    (h : interval ∈ table) : interval.numSamples ≤ 2147483647 := by
  have hsingle : interval.numSamples ≤ (table.map SampleInterval.numSamples).sum := by
    refine List.single_le_sum (fun n hn => ?_) _ (List.mem_map_of_mem h)
    obtain ⟨other, hother, rfl⟩ := List.mem_map.mp hn
    exact (hplan.numSamples_pos other hother).le
  exact hsingle.trans hplan.total_le

theorem Plannable.tail {interval : SampleInterval} {rest : List SampleInterval}
    (hplan : Plannable (interval :: rest)) : Plannable rest := by
  have hpos := hplan.numSamples_pos interval List.mem_cons_self
  have htotal := hplan.total_le
  rw [List.map_cons, List.sum_cons] at htotal
  exact ⟨fun i hi => hplan.hz_pos i (List.mem_cons_of_mem _ hi),
    fun i hi => hplan.numSamples_pos i (List.mem_cons_of_mem _ hi), by omega⟩

/-- The plan has as many samples as the numbers say. -/
theorem Plannable.length_plan (hplan : Plannable table) :
    ((plan table).length : ℤ) = (table.map SampleInterval.numSamples).sum := by
  induction table with
  | nil => rfl
  | cons interval rest ih =>
    have hpos := hplan.numSamples_pos interval List.mem_cons_self
    have hrest := ih hplan.tail
    rw [plan, List.flatMap_cons, ← plan, List.length_append, List.length_replicate, List.map_cons,
      List.sum_cons]
    omega

/-- The sums on the way to the total are values of `int`. -/
theorem Plannable.inRange_take (hplan : Plannable table) (m : ℕ) :
    CInt.InRange ((table.take m).map SampleInterval.numSamples).sum := by
  have hnonneg : ∀ l : List SampleInterval, (∀ interval ∈ l, interval ∈ table) →
      0 ≤ (l.map SampleInterval.numSamples).sum := by
    intro l hl
    refine List.sum_nonneg fun n hn => ?_
    obtain ⟨interval, hinterval, rfl⟩ := List.mem_map.mp hn
    exact (hplan.numSamples_pos interval (hl _ hinterval)).le
  have hsplit := congrArg (fun l : List SampleInterval =>
    (l.map SampleInterval.numSamples).sum) (List.take_append_drop m table)
  rw [List.map_append, List.sum_append] at hsplit
  have htake := hnonneg (table.take m) fun i hi => List.mem_of_mem_take hi
  have hdrop := hnonneg (table.drop m) fun i hi => List.mem_of_mem_drop hi
  have htotal := hplan.total_le
  exact ⟨by omega, by omega⟩

/-- **`get_total_num_samples`** is the length of the plan. -/
theorem Plannable.getTotalNumSamples_eq (hplan : Plannable table) :
    getTotalNumSamples table = .ok (plan table).length := by
  have hloop : ∀ m, m ≤ table.length →
      (List.range m).foldlM (fun total i => getNumSamples table i >>= fun n => CInt.add total n)
        (0 : ℤ) = .ok ((table.take m).map SampleInterval.numSamples).sum := by
    intro m
    induction m with
    | zero => intro _; rfl
    | succ m ih =>
      intro hm
      have hsum : ((table.take (m + 1)).map SampleInterval.numSamples).sum =
          ((table.take m).map SampleInterval.numSamples).sum + (table[m]).numSamples := by
        rw [List.take_add_one, List.getElem?_eq_getElem hm, Option.toList_some, List.map_append,
          List.sum_append]
        simp
      have hrange := hplan.inRange_take (m + 1)
      rw [List.range_succ, List.foldlM_append, ih (by omega), ok_bind, List.foldlM_cons,
        getNumSamples_ok hm, ok_bind, CInt.add_ok (by rwa [← hsum]), ← hsum]
      rfl
  rw [getTotalNumSamples, hloop _ le_rfl, List.take_length, hplan.length_plan]

/-! ## One sample -/

/-- What is left at an interval is what is left of it, and the rest of the table. -/
theorem remaining_at {c : Controller} (h : c.sampleIntervalIndex < table.length) :
    remaining table c = List.replicate
        ((table[c.sampleIntervalIndex]).numSamples - c.numSamples).toNat
        (table[c.sampleIntervalIndex]).msec ++
      plan (table.drop (c.sampleIntervalIndex + 1)) := by
  rw [remaining, List.drop_eq_getElem_cons h]

theorem remaining_start (idx : ℕ) :
    remaining table { numSamples := 0, sampleIntervalIndex := idx } = plan (table.drop idx) := by
  rw [remaining]
  dsimp only
  cases table.drop idx with
  | nil => rfl
  | cons interval rest =>
    rw [plan, List.flatMap_cons, ← plan]
    dsimp only
    rw [sub_zero]

/-- The controller is at an interval of the table or at its end, and the context has the
frequency. -/
structure AtInterval (table : List SampleInterval) (c : Controller) (ctx : Context) : Prop where
  /-- the interval, or the end -/
  index_le : c.sampleIntervalIndex ≤ table.length
  /-- the samples made at it -/
  numSamples_nonneg : 0 ≤ c.numSamples
  /-- there are more to make -/
  numSamples_lt : ∀ h : c.sampleIntervalIndex < table.length,
    c.numSamples < (table[c.sampleIntervalIndex]).numSamples
  /-- its frequency -/
  frequency : ∀ h : c.sampleIntervalIndex < table.length,
    ctx.sampleFrequencyMsec = (table[c.sampleIntervalIndex]).msec
  /-- which is not 0 -/
  frequency_pos : 0 < ctx.sampleFrequencyMsec

/-- **A sample before the end** takes the first of what is left of the plan. -/
theorem AtInterval.afterSample (hplan : Plannable table) {c : Controller} {ctx : Context}
    (hat : AtInterval table c ctx) (h : c.sampleIntervalIndex < table.length) :
    ∃ c' ctx', c.afterSample table ctx = .ok (some (c', ctx')) ∧ AtInterval table c' ctx' ∧
      remaining table c = ctx.sampleFrequencyMsec :: remaining table c' := by
  have hlt := hat.numSamples_lt h
  have hnonneg := hat.numSamples_nonneg
  have hle := hplan.numSamples_le (List.getElem_mem h)
  have hadd : CInt.add c.numSamples 1 = .ok (c.numSamples + 1) :=
    CInt.add_ok ⟨by omega, by omega⟩
  rw [Controller.afterSample, if_neg h.ne, hadd, ok_bind, getNumSamples_ok h, ok_bind,
    remaining_at h, hat.frequency h]
  by_cases hlast : c.numSamples + 1 = (table[c.sampleIntervalIndex]).numSamples
  · -- the last sample of the interval
    have hone : ((table[c.sampleIntervalIndex]).numSamples - c.numSamples).toNat = 1 := by omega
    rw [if_pos hlast, hone]
    by_cases hmore : c.sampleIntervalIndex + 1 ≠ table.length
    · have hnext : c.sampleIntervalIndex + 1 < table.length := by omega
      dsimp only
      rw [if_pos hmore, getFrequencyInMsec_ok hnext]
      refine ⟨_, _, rfl, ⟨hnext.le, le_rfl, fun _ => ?_, fun _ => rfl, ?_⟩, ?_⟩
      · exact hplan.numSamples_pos _ (List.getElem_mem hnext)
      · exact hplan.msec_pos (List.getElem_mem hnext)
      · rw [remaining_start]
        rfl
    · dsimp only
      rw [if_neg hmore]
      have hend : ¬c.sampleIntervalIndex + 1 < table.length := by omega
      refine ⟨_, _, rfl, ⟨h, le_rfl, fun hin => absurd hin hend, fun hin => absurd hin hend,
        hat.frequency_pos⟩, ?_⟩
      rw [remaining_start]
      rfl
  · rw [if_neg hlast]
    refine ⟨_, _, rfl, ⟨h.le, by dsimp only; omega, fun _ => ?_, fun hin => hat.frequency hin,
      hat.frequency_pos⟩, ?_⟩
    · dsimp only
      omega
    · have hcount : ((table[c.sampleIntervalIndex]).numSamples - c.numSamples).toNat =
          ((table[c.sampleIntervalIndex]).numSamples - (c.numSamples + 1)).toNat + 1 := by omega
      rw [remaining_at (c := { c with numSamples := c.numSamples + 1 }) h, hcount,
        List.replicate_succ]
      rfl

/-- Being at an interval is about the frequency alone. -/
theorem AtInterval.congr {c : Controller} {ctx ctx' : Context} (hat : AtInterval table c ctx)
    (heq : ctx'.sampleFrequencyMsec = ctx.sampleFrequencyMsec) : AtInterval table c ctx' :=
  ⟨hat.index_le, hat.numSamples_nonneg, hat.numSamples_lt, fun h => heq.trans (hat.frequency h),
    heq ▸ hat.frequency_pos⟩

/-! ## All ticks -/

/-- How many ticks have produced data. -/
def successes (ticks : List Tick) : ℕ := ticks.countP Tick.serialises

namespace Daemon

variable {L : EventLoop}

/-- What the messages are marked with. -/
def labels (d : Daemon L) : List ℚ := d.streamed.map StreamedMessage.samplefrequencymsec

/-- **The daemon is on the plan**: what was sent and what is left are the plan. -/
structure OnPlan (laws : Scheduler.TimerLaws L) (table : List SampleInterval) (successes : ℕ)
    (d : Daemon L) : Prop where
  /-- the timer goes on -/
  repeating : Scheduler.Repeating laws d.timer
  /-- where the controller is -/
  at_interval : AtInterval table d.controller d.timer.ctx
  /-- what was sent, and what is left -/
  plan_eq : d.labels ++ remaining table d.controller = plan table
  /-- every tick with data has sent a message, as long as the daemon runs; -/
  running : d.status = .running → d.streamed.length = successes
  /-- it ends with one that has not -/
  exited : d.status = .exited →
    d.controller.sampleIntervalIndex = table.length ∧ d.streamed.length < successes
  /-- nothing else ends it -/
  defined : ∀ e, d.status ≠ .faulted e

/-- A positive frequency stays as it is in the callback. -/
theorem timerCallback_ctx {t : CollectorTimer L} {o : Timeout}
    (h : 0 < o.ctx.sampleFrequencyMsec) :
    (Scheduler.timerCallback t o).ctx.sampleFrequencyMsec = o.ctx.sampleFrequencyMsec := by
  rw [Scheduler.timerCallback_frequency, Scheduler.frequency_of_pos h]

theorem step_active {d : Daemon L} (h : d.status = .running)
    (hactive : L.isActive d.timer.timer = true) (tick : Tick) :
    d.step table tick = d.timerCallback table tick := by
  rw [Daemon.step, h]
  exact if_pos hactive

theorem step_stopped {d : Daemon L} (hstopped : L.isActive d.timer.timer = false) (tick : Tick) :
    d.step table tick = d := by
  rw [Daemon.step]
  split
  · exact if_neg (by rw [hstopped]; exact Bool.false_ne_true)
  · rfl

theorem step_ended {d : Daemon L} (h : d.status ≠ .running) (tick : Tick) :
    d.step table tick = d := by
  rw [Daemon.step]
  split
  · next hrunning => exact absurd hrunning h
  · rfl

/-- **A tick keeps to the plan.** -/
theorem OnPlan.step (hplan : Plannable table) {laws : Scheduler.TimerLaws L} {d : Daemon L} {k : ℕ}
    (hon : OnPlan laws table k d) (tick : Tick) :
    OnPlan laws table (k + if tick.serialises then 1 else 0) (d.step table tick) := by
  have hat := hon.at_interval
  have hrepeating := hon.repeating
  by_cases hrunning : d.status = .running
  · have hlength := hon.running hrunning
    have hnot : d.status ≠ .exited := by rw [hrunning]; exact DaemonStatus.noConfusion
    rw [step_active hrunning hrepeating.1, timerCallback]
    cases tick.serialises with
    | false =>
      rw [sample, if_neg Bool.false_ne_true]
      exact ⟨hrepeating.timerCallback hat.frequency_pos,
        hat.congr (timerCallback_ctx hat.frequency_pos), hon.plan_eq, fun _ => hlength,
        fun hexited => absurd hexited hnot, hon.defined⟩
    | true =>
      rw [sample, if_pos rfl]
      rcases hat.index_le.lt_or_eq with hlt | hend
      · obtain ⟨c', ctx', hsample, hat', hrest⟩ := hat.afterSample hplan hlt
        rw [hsample]
        refine ⟨hrepeating.timerCallback hat'.frequency_pos,
          hat'.congr (timerCallback_ctx hat'.frequency_pos), ?_, fun _ => ?_,
          fun hexited => absurd hexited hnot, hon.defined⟩
        · rw [← hon.plan_eq, hrest]
          simp [labels]
        · simp [hlength]
      · rw [Controller.afterSample, if_pos hend]
        exact ⟨hrepeating, hat, hon.plan_eq, fun hrun => (nomatch hrun),
          fun _ => ⟨hend, hlength.trans_lt (Nat.lt_succ_self k)⟩, fun e he => (nomatch he)⟩
  · rw [step_ended hrunning]
    refine ⟨hrepeating, hat, hon.plan_eq, fun hrun => absurd hrun hrunning, fun hexited => ?_,
      hon.defined⟩
    obtain ⟨hend, hlt⟩ := hon.exited hexited
    exact ⟨hend, by omega⟩

/-- The daemon is on the plan when it starts. -/
theorem onPlan_create (laws : Scheduler.TimerLaws L) (hplan : Plannable table) (hne : table ≠ [])
    (s : Scheduler L) (servers : List ServerAddress) :
    OnPlan laws table 0 (create table s servers) := by
  have hlt : 0 < table.length := List.length_pos_iff.mpr hne
  rw [create, getFrequencyInMsec_ok hlt]
  refine ⟨Scheduler.repeating_registered laws _ _ _ _,
    ⟨hlt.le, le_rfl, fun _ => ?_, fun _ => rfl, ?_⟩, ?_, fun _ => rfl,
    fun hexited => (nomatch hexited), fun e he => (nomatch he)⟩
  · exact hplan.numSamples_pos _ (List.getElem_mem hlt)
  · exact hplan.msec_pos (List.getElem_mem hlt)
  · exact remaining_start 0

/-- And it stays there. -/
theorem onPlan_run (laws : Scheduler.TimerLaws L) (hplan : Plannable table) (hne : table ≠ [])
    (s : Scheduler L) (servers : List ServerAddress) (ticks : List Tick) :
    OnPlan laws table (successes ticks) (run table s servers ticks) := by
  induction ticks using List.reverseRecOn with
  | nil => exact onPlan_create laws hplan hne s servers
  | append_singleton ticks tick ih =>
    rw [run, List.foldl_append, successes, List.countP_append, List.countP_singleton]
    exact ih.step hplan tick

/-- **The plan is followed**: ticks do not cease to come while the daemon runs; the messages are
marked with the intervals of the plan, one for each tick with data, up to its end; the next such
tick ends the daemon; and the plan has as many messages as `get_total_num_samples` says. -/
structure FollowsPlan (table : List SampleInterval) (ticks : List Tick) (d : Daemon L) :
    Prop where
  /-- the ticks -/
  active : d.status = .running → L.isActive d.timer.timer = true
  /-- the messages -/
  labels_eq : d.labels = (plan table).take (successes ticks)
  /-- the end -/
  exited_iff : d.status = .exited ↔ table ≠ [] ∧ (plan table).length < successes ticks
  /-- at which all of the plan was sent -/
  complete : d.status = .exited → d.labels = plan table
  /-- the length of the plan -/
  total : getTotalNumSamples table = .ok (plan table).length

/-- Without a table the daemon does not start. -/
theorem followsPlan_nil (s : Scheduler L) (servers : List ServerAddress) (ticks : List Tick) :
    FollowsPlan [] ticks (run [] s servers ticks) := by
  have hfaulted : run [] s servers ticks = create [] s servers := by
    induction ticks using List.reverseRecOn with
    | nil => rfl
    | append_singleton ticks tick ih =>
      rw [run, List.foldl_append, ← run, ih]
      rfl
  rw [hfaulted]
  refine ⟨fun h => (nomatch h), by simp [create, getFrequencyInMsec, intervalAt, labels, plan],
    ?_, ?_, rfl⟩
  · exact iff_of_false (fun h => nomatch h) fun h => h.1 rfl
  · exact fun h => nomatch h

/-- A daemon that is on the plan follows it. -/
theorem OnPlan.followsPlan (hplan : Plannable table) (hne : table ≠ [])
    {laws : Scheduler.TimerLaws L} {d : Daemon L} {ticks : List Tick}
    (hon : OnPlan laws table (successes ticks) d) : FollowsPlan table ticks d := by
  have heq := hon.plan_eq
  have hlength : d.labels.length = d.streamed.length := List.length_map _
  have hall : d.status = .exited → d.labels = plan table := by
    intro hexited
    obtain ⟨hend, -⟩ := hon.exited hexited
    rw [← heq, remaining, hend, List.drop_length, List.append_nil]
  have hrun : d.status = .running ∨ d.status = .exited := by
    cases hstatus : d.status with
    | running => exact .inl rfl
    | exited => exact .inr rfl
    | faulted e => exact absurd hstatus (hon.defined e)
  refine ⟨fun _ => hon.repeating.1, ?_, ⟨fun hexited => ⟨hne, ?_⟩, fun hlt => ?_⟩, hall,
    hplan.getTotalNumSamples_eq⟩
  · rcases hrun with hrunning | hexited
    · rw [← heq, List.take_left' (hlength.trans (hon.running hrunning))]
    · obtain ⟨-, hlt⟩ := hon.exited hexited
      rw [hall hexited, List.take_of_length_le]
      rw [← hall hexited, hlength]
      exact hlt.le
  · obtain ⟨-, hlt⟩ := hon.exited hexited
    rwa [← hall hexited, hlength]
  · rcases hrun with hrunning | hexited
    · have hle := congrArg List.length heq
      rw [List.length_append, hlength, hon.running hrunning] at hle
      omega
    · exact hexited

/-- **The daemon follows the plan** of every table of frequencies and numbers that are at least
1, with every scheduler and at every pattern of ticks. -/
theorem followsPlan_run (laws : Scheduler.TimerLaws L) (hplan : Plannable table) (s : Scheduler L)
    (servers : List ServerAddress) (ticks : List Tick) :
    FollowsPlan table ticks (run table s servers ticks) := by
  rcases eq_or_ne table [] with rfl | hne
  · exact followsPlan_nil s servers ticks
  · exact (onPlan_run laws hplan hne s servers ticks).followsPlan hplan hne

end Daemon

/-- A tick with data. -/
def dataTick : Tick := { now := 0, sampleDurationSec := 0, serialises := true }

/-- The table of the experiment has a plan of 1260 messages, and the tick after them ends the
daemon. -/
theorem followsPlan_sampleIntervals :
    Daemon.FollowsPlan sampleIntervals (List.replicate 1261 dataTick)
      (Daemon.run sampleIntervals { now := 0, timers := [] : Scheduler Scheduler.libev } []
        (List.replicate 1261 dataTick)) ∧ (plan sampleIntervals).length = 1260 :=
  ⟨Daemon.followsPlan_run Scheduler.libevLaws ⟨by decide, by decide, by decide⟩ _ _ _,
    by decide +kernel⟩

/-- A sample at 1 Hz, and then one at -1 Hz -/
def negativeTable : List SampleInterval := [⟨1, 1⟩, ⟨-1, 1⟩]

/-- The daemon before its first sample, and after it, when its timer does not go on. -/
inductive Halts (d : Daemon Scheduler.libev) : Prop where
  /-- before it -/
  | before : d.status = .running → d.labels = [] → d.controller = .new →
      Scheduler.Repeating Scheduler.libevLaws d.timer →
      d.timer.ctx.sampleFrequencyMsec = 1000 → Halts d
  /-- after it -/
  | after : d.status = .running → d.labels = [1000] →
      Scheduler.libev.isActive d.timer.timer = false → Halts d

theorem halts_step {d : Daemon Scheduler.libev} (h : Halts d) (tick : Tick) :
    Halts (d.step negativeTable tick) := by
  cases h with
  | before hrunning hlabels hnew hrepeating hfrequency =>
    rw [Daemon.step_active hrunning hrepeating.1, Daemon.timerCallback]
    cases tick.serialises with
    | false =>
      rw [Daemon.sample, if_neg Bool.false_ne_true]
      have hpos : 0 < d.timer.ctx.sampleFrequencyMsec := by rw [hfrequency]; norm_num
      exact .before hrunning hlabels hnew (hrepeating.timerCallback hpos)
        ((Daemon.timerCallback_ctx hpos).trans hfrequency)
    | true =>
      -- the frequency that the controller leaves is negative
      have hsample : d.controller.afterSample negativeTable d.timer.ctx = .ok (some
          (⟨0, 1⟩, { d.timer.ctx with sampleFrequencyMsec := SampleInterval.msec ⟨-1, 1⟩ })) := by
        rw [hnew]
        rfl
      rw [Daemon.sample, if_pos rfl, hsample]
      have hnegative : ¬0 < SampleInterval.msec ⟨-1, 1⟩ := by decide +kernel
      refine .after hrunning ?_ (Scheduler.isActive_timerCallback_of_nonpos hrepeating hnegative)
      show (d.streamed ++
        [(⟨d.timer.ctx.sampleFrequencyMsec, d.numSamples⟩ : StreamedMessage)]).map
          StreamedMessage.samplefrequencymsec = [1000]
      rw [List.map_append, ← Daemon.labels, hlabels, List.nil_append, List.map_singleton,
        hfrequency]
  | after hrunning hlabels hstopped =>
    rw [Daemon.step_stopped hstopped]
    exact .after hrunning hlabels hstopped

/-- **The sample at -1 Hz never comes**, whatever ticks there are; and two intervals can have more
samples than an `int` can hold. -/
theorem plan_not_followed :
    (∀ ticks, (Daemon.run negativeTable (⟨0, []⟩ : Scheduler Scheduler.libev) [] ticks).status ≠
          .exited ∧
        (Daemon.run negativeTable (⟨0, []⟩ : Scheduler Scheduler.libev) [] ticks).labels ≠
          plan negativeTable) ∧
      getTotalNumSamples [⟨1, 2147483647⟩, ⟨1, 1⟩] = .error .overflow := by
  refine ⟨fun ticks => ?_, by decide +kernel⟩
  have hhalts : Halts (Daemon.run negativeTable ⟨0, []⟩ [] ticks) := by
    induction ticks using List.reverseRecOn with
    | nil =>
      exact .before rfl rfl rfl (Scheduler.repeating_registered _ _ _ _ _) (by decide +kernel)
    | append_singleton ticks tick ih =>
      rw [Daemon.run, List.foldl_append]
      exact halts_step ih tick
  have hplan : plan negativeTable = [1000, -1000] := by decide +kernel
  rw [hplan]
  cases hhalts with
  | before hrunning hlabels =>
    rw [hrunning, hlabels]
    exact ⟨DaemonStatus.noConfusion, (List.cons_ne_nil _ _).symm⟩
  | after hrunning hlabels =>
    rw [hrunning, hlabels]
    exact ⟨DaemonStatus.noConfusion, by decide⟩

end Gnuplot

end WallMon
