import Mathlib.Algebra.BigOperators.Ring.Finset
import Mathlib.Algebra.Order.Floor.Ring
import Mathlib.Data.Rat.Floor
import Mathlib.Tactic.FieldSimp
import Mathlib.Tactic.Linarith
import Mathlib.Tactic.Ring
import WallMon.IoBytes
import WallMon.StatLine

/-!
# What the messages say of a process's CPU time

The loads and rates in a message are what a counter has grown by since the last `Update`,
over the time since then. Weighted with these times they add up again: to the CPU time and
the page faults that the kernel has counted since the monitor was added, and to the system
calls with less than one call a second missing, as these fields are whole numbers
(`cpuTime_accounted`). What does not change is told once, in the first message.

Doubles and floats are exact rationals here. A rate that no `uint32` can hold makes the
conversion to it undefined, and `stray` says what comes of it.
-/

namespace WallMon

/-- `LinuxProcessMonitorLight`, with what else its getters read. -/
structure ProcessMonitor extends LinuxProcessMonitorLight.Members where
  /-- `_user` -/
  user : String
  /-- `_startTime` -/
  startTime : String
  /-- `_jiffy` -/
  jiffy : ℤ
  /-- `_prevMinflt` -/
  prevMinflt : UInt64
  /-- `_prevMajflt` -/
  prevMajflt : UInt64
  /-- `_prevUserTime` -/
  prevUserTime : UInt64
  /-- `_prevSystemTime` -/
  prevSystemTime : UInt64
  /-- `_updateTime` -/
  updateTime : ℚ
  /-- `_prevUpdateTime` -/
  prevUpdateTime : ℚ
  /-- `_totalNumSamples` -/
  totalNumSamples : UInt64

namespace ProcessMonitor

/-- The constructor. -/
def new (raw : ProcessMonitor) (jiffy : ℤ) : ProcessMonitor :=
  { raw with
    toMembers := .new raw.toMembers
    jiffy, updateTime := 0, totalNumSamples := 0 }

/-- `Open`, of files that exist: what it asks for once. -/
def opened (m : ProcessMonitor) (user startTime : String) : ProcessMonitor :=
  { m with user, startTime }

/-- `Update` at some time. -/
def update (m : ProcessMonitor) (now : ℚ) (files : ProcFiles) : ProcessMonitor × Bool :=
  ({ m with
      toMembers := (m.toMembers.update files).1
      prevMinflt := m.stat.minflt
      prevMajflt := m.stat.majflt
      prevUserTime := m.stat.utime
      prevSystemTime := m.stat.stime
      updateTime := now
      prevUpdateTime := m.updateTime
      totalNumSamples := m.totalNumSamples + 1 }, (m.toMembers.update files).2)

/-! ## Getters -/

/-- `IsFirstTime` -/
def isFirstTime (m : ProcessMonitor) : Bool := decide (m.totalNumSamples < 3)

/-- `GetTotalNumPageFaultsPerSec` -/
def getTotalNumPageFaultsPerSec (m : ProcessMonitor) : ℚ :=
  let numFaultsSinceLastUpdate :=
    m.stat.minflt + m.stat.majflt - (m.prevMinflt + m.prevMajflt)
  numFaultsSinceLastUpdate.toNat / (m.updateTime - m.prevUpdateTime)

/-- `GetUserCpuLoad` -/
def getUserCpuLoad (m : ProcessMonitor) : ℚ :=
  let load := ((m.stat.utime.toNat : ℚ) - m.prevUserTime.toNat) / m.jiffy /
    (m.updateTime - m.prevUpdateTime)
  load * 100

/-- `GetSystemCpuLoad` -/
def getSystemCpuLoad (m : ProcessMonitor) : ℚ :=
  let load := ((m.stat.stime.toNat : ℚ) - m.prevSystemTime.toNat) / m.jiffy /
    (m.updateTime - m.prevUpdateTime)
  load * 100

/-- `GetTotalProgramSizeBytes` -/
def getTotalProgramSizeBytes (m : ProcessMonitor) : UInt64 := m.size * 4096

/-- `GetTotalProgramSize` -/
def getTotalProgramSize (m : ProcessMonitor) : ℚ :=
  m.getTotalProgramSizeBytes.toNat / (1024 * 1024)

/-- `GetNumReadSysCallsPerSec` -/
def getNumReadSysCallsPerSec (m : ProcessMonitor) : ℚ :=
  (m.io.syscr - m.prevIo.syscr).toNat / (m.updateTime - m.prevUpdateTime)

/-- `GetNumWriteSysCallsPerSec` -/
def getNumWriteSysCallsPerSec (m : ProcessMonitor) : ℚ :=
  (m.io.syscw - m.prevIo.syscw).toNat / (m.updateTime - m.prevUpdateTime)

end ProcessMonitor

/-! ## Messages -/

/-- Which fields the `filter` has, other than those of `IoFilter`, the name and the pid. -/
structure RateFilter where
  /-- `has_usercpuload` -/
  userCpuLoad : Bool
  /-- `has_systemcpuload` -/
  systemCpuLoad : Bool
  /-- `has_usercpuutilization` -/
  userCpuUtilization : Bool
  /-- `has_systemcpuutilization` -/
  systemCpuUtilization : Bool
  /-- `has_memoryutilization` -/
  memoryUtilization : Bool
  /-- `has_memorybytes` -/
  memoryBytes : Bool
  /-- `has_numreadsystemcallspersec` -/
  numReadSystemCallsPerSec : Bool
  /-- `has_numwritesystemcallspersec` -/
  numWriteSystemCallsPerSec : Bool
  /-- `has_user` -/
  user : Bool
  /-- `has_starttime` -/
  startTime : Bool
  /-- `has_numthreads` -/
  numThreads : Bool
  /-- `has_numpagefaultspersec` -/
  numPageFaultsPerSec : Bool

/-- These fields of a `ProcessMessage`. -/
structure RateFields where
  /-- `userCpuLoad` -/
  userCpuLoad : Option ℚ
  /-- `systemCpuLoad` -/
  systemCpuLoad : Option ℚ
  /-- `userCpuUtilization` -/
  userCpuUtilization : Option ℚ
  /-- `systemCpuUtilization` -/
  systemCpuUtilization : Option ℚ
  /-- `memoryUtilization` -/
  memoryUtilization : Option ℚ
  /-- `memoryBytes` -/
  memoryBytes : Option UInt64
  /-- `numReadSystemCallsPerSec` -/
  numReadSystemCallsPerSec : Option UInt32
  /-- `numWriteSystemCallsPerSec` -/
  numWriteSystemCallsPerSec : Option UInt32
  /-- `user` -/
  user : Option String
  /-- `startTime` -/
  startTime : Option String
  /-- `numThreads` -/
  numThreads : Option UInt32
  /-- `numPageFaultsPerSec` -/
  numPageFaultsPerSec : Option ℚ
  deriving DecidableEq

/-- The members of `ProcessCollector` that `Sample` reads. -/
structure CollectorHost where
  /-- `_numCores` -/
  numCores : ℤ
  /-- `_totalMemoryMb` -/
  totalMemoryMb : ℚ

/-- A setter of a field that is in the filter. -/
def setField {β : Type} (has : Bool) (value : β) : Option β := if has then some value else none

@[simp]
theorem setField_true {β : Type} (value : β) : setField true value = some value := rfl

/-- The conversion of a rate to `uint32`. -/
def rateToUInt32 (stray : ℚ → UInt32) (rate : ℚ) : UInt32 :=
  if 0 ≤ rate ∧ rate < 2 ^ 32 then UInt32.ofNat ⌊rate⌋.toNat else stray rate

/-- What `Sample` puts into these fields. -/
def rateFields (stray : ℚ → UInt32) (host : CollectorHost) (filter : RateFilter)
    (m : ProcessMonitor) : RateFields where
  userCpuLoad := setField filter.userCpuLoad m.getUserCpuLoad
  systemCpuLoad := setField filter.systemCpuLoad m.getSystemCpuLoad
  userCpuUtilization :=
    setField filter.userCpuUtilization (m.getUserCpuLoad / (host.numCores * 100) * 100)
  systemCpuUtilization :=
    setField filter.systemCpuUtilization (m.getSystemCpuLoad / (host.numCores * 100) * 100)
  memoryUtilization :=
    setField filter.memoryUtilization (m.getTotalProgramSize / host.totalMemoryMb * 100)
  memoryBytes := setField filter.memoryBytes m.getTotalProgramSizeBytes
  numReadSystemCallsPerSec :=
    setField filter.numReadSystemCallsPerSec (rateToUInt32 stray m.getNumReadSysCallsPerSec)
  numWriteSystemCallsPerSec :=
    setField filter.numWriteSystemCallsPerSec (rateToUInt32 stray m.getNumWriteSysCallsPerSec)
  user := setField (filter.user && m.isFirstTime) m.user
  startTime := setField (filter.startTime && m.isFirstTime) m.startTime
  numThreads := setField filter.numThreads m.stat.numThreads
  numPageFaultsPerSec := setField filter.numPageFaultsPerSec m.getTotalNumPageFaultsPerSec

/-- A tick at which a process is there: `stat` has the kernel's line, with a name without
white space, and `io` its counters. -/
structure TimedTick where
  /-- `System::GetTimeInSec()` -/
  now : ℚ
  /-- `_procstat` -/
  line : StatLine
  /-- `_procstatm` -/
  statm : FileRead
  /-- `_procio` -/
  io : IoFile
  /-- the line fits into the buffer -/
  fits : line.bytes.length < 300
  /-- the name is one word -/
  noSpace : line.NoSpace
  /-- `statm` does not fail -/
  statm_succeeds : statm.Succeeds

namespace TimedTick

/-- The tick without its time. -/
def toTick (tick : TimedTick) : Tick where
  stat := .content tick.line.bytes
  statm := tick.statm
  io := tick.io
  stat_succeeds := trivial
  statm_succeeds := tick.statm_succeeds

/-- `_AddProcess`: a new monitor, `Open` and the first `Update`. -/
def addProcess (raw : ProcessMonitor) (jiffy : ℤ) (user startTime : String)
    (first : TimedTick) : ProcessMonitor :=
  (((ProcessMonitor.new raw jiffy).opened user startTime).update first.now
    first.toTick.files).1

/-- The messages of a process in a run of ticks. -/
def sample (stray : ℚ → UInt32) (host : CollectorHost) (filter : RateFilter) :
    ProcessMonitor → List TimedTick → List RateFields
  | _, [] => []
  | m, tick :: ticks =>
    let m := (m.update tick.now tick.toTick.files).1
    rateFields stray host filter m :: sample stray host filter m ticks

end TimedTick

/-! ## What a tick reads -/

/-- What a monitor has read at a tick. -/
structure HasRead (m : ProcessMonitor) (tick : TimedTick) : Prop where
  /-- `_minflt` -/
  minflt : m.stat.minflt = tick.line.minflt
  /-- `_majflt` -/
  majflt : m.stat.majflt = tick.line.majflt
  /-- `_utime` -/
  utime : m.stat.utime = tick.line.utime
  /-- `_stime` -/
  stime : m.stat.stime = tick.line.stime
  /-- `_rchar` to `_write_bytes` -/
  io : m.io = tick.io.counters
  /-- `_updateTime` -/
  updateTime : m.updateTime = tick.now

/-- An `Update` reads what is there, whatever was read before. -/
theorem hasRead_update (m : ProcessMonitor) (tick : TimedTick) :
    HasRead (m.update tick.now tick.toTick.files).1 tick := by
  have hok : (m.toMembers.update tick.toTick.files).2 = true := by
    have hstatm := tick.statm_succeeds
    unfold LinuxProcessMonitorLight.Members.update
    cases hcase : tick.statm with
    | failed bytes => exact (hcase ▸ hstatm).elim
    | notOpen => simp [Tick.files, TimedTick.toTick, hcase, LinuxProcessMonitorLight.readFile]
    | content bytes => simp [Tick.files, TimedTick.toTick, hcase, LinuxProcessMonitorLight.readFile]
  have hline := (StatLine.right_iff_noSpace tick.line tick.fits m.toMembers tick.toTick.files
    rfl hok).mpr tick.noSpace
  exact ⟨hline.minflt, hline.majflt, hline.utime, hline.stime,
    (Tick.update_files m.toMembers tick.toTick).1, rfl⟩

/-- A clock tick's time. -/
def duration (i : TimedTick × TimedTick) : ℚ := i.2.now - i.1.now

/-- `minflt + majflt` -/
def faults (tick : TimedTick) : UInt64 := tick.line.minflt + tick.line.majflt

section Fields

variable {stray : ℚ → UInt32} {host : CollectorHost} {filter : RateFilter} {m : ProcessMonitor}
variable {prev tick : TimedTick}

/-- The user time, as a load. -/
theorem getUserCpuLoad_update (h : HasRead m prev) :
    (m.update tick.now tick.toTick.files).1.getUserCpuLoad =
      ((tick.line.utime.toNat : ℚ) - prev.line.utime.toNat) / m.jiffy /
        duration (prev, tick) * 100 := by
  rw [ProcessMonitor.getUserCpuLoad, (hasRead_update m tick).utime, duration, ← h.utime,
    ← h.updateTime]
  rfl

/-- The system time, as a load. -/
theorem getSystemCpuLoad_update (h : HasRead m prev) :
    (m.update tick.now tick.toTick.files).1.getSystemCpuLoad =
      ((tick.line.stime.toNat : ℚ) - prev.line.stime.toNat) / m.jiffy /
        duration (prev, tick) * 100 := by
  rw [ProcessMonitor.getSystemCpuLoad, (hasRead_update m tick).stime, duration, ← h.stime,
    ← h.updateTime]
  rfl

/-- The page faults, as a rate. -/
theorem getTotalNumPageFaultsPerSec_update (h : HasRead m prev) :
    (m.update tick.now tick.toTick.files).1.getTotalNumPageFaultsPerSec =
      (faults tick - faults prev).toNat / duration (prev, tick) := by
  rw [ProcessMonitor.getTotalNumPageFaultsPerSec, (hasRead_update m tick).minflt,
    (hasRead_update m tick).majflt, faults, faults, duration, ← h.minflt, ← h.majflt,
    ← h.updateTime]
  rfl

/-- The reading system calls, as a rate. -/
theorem getNumReadSysCallsPerSec_update (h : HasRead m prev) :
    (m.update tick.now tick.toTick.files).1.getNumReadSysCallsPerSec =
      (tick.io.counters.syscr - prev.io.counters.syscr).toNat / duration (prev, tick) := by
  have hprev := (Tick.update_files m.toMembers tick.toTick).2
  rw [h.io] at hprev
  rw [ProcessMonitor.getNumReadSysCallsPerSec, (hasRead_update m tick).io, duration,
    ← h.updateTime, ← hprev]
  rfl

/-- The writing system calls, as a rate. -/
theorem getNumWriteSysCallsPerSec_update (h : HasRead m prev) :
    (m.update tick.now tick.toTick.files).1.getNumWriteSysCallsPerSec =
      (tick.io.counters.syscw - prev.io.counters.syscw).toNat / duration (prev, tick) := by
  have hprev := (Tick.update_files m.toMembers tick.toTick).2
  rw [h.io] at hprev
  rw [ProcessMonitor.getNumWriteSysCallsPerSec, (hasRead_update m tick).io, duration,
    ← h.updateTime, ← hprev]
  rfl

end Fields

/-! ## Rates over time -/

/-- A rate in the messages of a process, times the time that each is about. -/
def overTime (rate : RateFields → ℚ) (first : TimedTick) (ticks : List TimedTick)
    (msgs : List RateFields) : ℚ :=
  (List.zipWith (fun msg i => rate msg * duration i) msgs (intervals first ticks)).sum

/-- Differences of neighbours add up to that of the ends. -/
theorem sum_differences {α : Type} (value : α → ℚ) (a : α) (l : List α) :
    ((intervals a l).map fun i => value i.2 - value i.1).sum =
      value (l.getLastD a) - value a := by
  induction l generalizing a with
  | nil => simp [intervals]
  | cons b l ih =>
    rw [intervals, List.map_cons, List.sum_cons, ih, List.getLastD_cons]
    ring

/-- The growth of a counter, as a sum of rational numbers. -/
theorem sum_growth_cast {α : Type} {counter : α → UInt64} {a : α} {l : List α}
    (h : (a :: l).IsChain fun x y => counter x ≤ counter y) :
    ((intervals a l).map fun i => (growth counter i : ℚ)).sum =
      ((counter (l.getLastD a)).toNat : ℚ) - (counter a).toNat := by
  obtain ⟨hle, hsum⟩ := sum_growth h
  rw [← Nat.cast_sub (UInt64.le_iff_toNat_le.mp hle), ← hsum, Nat.cast_list_sum, List.map_map]
  rfl

section Sums

variable {stray : ℚ → UInt32} {host : CollectorHost} {filter : RateFilter} {m : ProcessMonitor}
variable {first : TimedTick} {ticks : List TimedTick}

/-- A field of the messages, by what an interval makes of it. -/
theorem map_sample {β : Type} (field : RateFields → β) (value : TimedTick × TimedTick → β)
    (hfield : ∀ (m' : ProcessMonitor) (prev tick : TimedTick), HasRead m' prev →
      m'.jiffy = m.jiffy → field (rateFields stray host filter
        (m'.update tick.now tick.toTick.files).1) = value (prev, tick))
    (hread : HasRead m first) :
    (TimedTick.sample stray host filter m ticks).map field =
      (intervals first ticks).map value := by
  generalize hjiffy : m.jiffy = jiffy at hfield
  induction ticks generalizing m first with
  | nil => rfl
  | cons tick ticks ih =>
    rw [TimedTick.sample, intervals, List.map_cons, List.map_cons, hfield m first tick hread hjiffy]
    exact congrArg _ (ih (hasRead_update m tick) hjiffy)

/-- A rate over time, by what an interval makes of it. -/
theorem overTime_sample (rate : RateFields → ℚ) (value : TimedTick × TimedTick → ℚ)
    (hfield : ∀ (m' : ProcessMonitor) (prev tick : TimedTick), HasRead m' prev →
      m'.jiffy = m.jiffy → rate (rateFields stray host filter
        (m'.update tick.now tick.toTick.files).1) = value (prev, tick))
    (hread : HasRead m first) :
    overTime rate first ticks (TimedTick.sample stray host filter m ticks) =
      ((intervals first ticks).map fun i => value i * duration i).sum := by
  have hmap : (TimedTick.sample stray host filter m ticks).map rate =
      (intervals first ticks).map value := map_sample rate value hfield hread
  have hzip : List.zipWith (fun s i => rate s * duration i)
      (TimedTick.sample stray host filter m ticks) (intervals first ticks) =
      List.zipWith (fun r i => r * duration i)
        ((TimedTick.sample stray host filter m ticks).map rate) (intervals first ticks) := by
    rw [List.zipWith_map_left]
  rw [hmap, List.zipWith_map_left, List.zipWith_self] at hzip
  rw [overTime, hzip]

end Sums

/-! ## What the messages say -/

/-- A system call counter is told as a rate that fits into its field. -/
def RateFits (counter : LinuxProcessMonitorLight.IoMembers → UInt64)
    (i : TimedTick × TimedTick) : Prop :=
  growth (fun tick : TimedTick => counter tick.io.counters) i < 2 ^ 32 * duration i

/-- A rate in whole numbers falls short of the counter by less than one call a second. -/
structure RoundedDown (counter : LinuxProcessMonitorLight.IoMembers → UInt64)
    (first : TimedTick) (ticks : List TimedTick) (total : ℚ) : Prop where
  /-- nothing is told twice -/
  le : total ≤ ((counter (ticks.getLastD first).io.counters).toNat : ℚ) -
    (counter first.io.counters).toNat
  /-- little is left out -/
  ge : ((counter (ticks.getLastD first).io.counters).toNat : ℚ) -
    (counter first.io.counters).toNat - ((ticks.getLastD first).now - first.now) ≤ total

/-- **What the messages say**, for the fields that the filter has. -/
structure Accounted (host : CollectorHost) (filter : RateFilter) (jiffy : ℤ)
    (user startTime : String) (first : TimedTick) (ticks : List TimedTick)
    (msgs : List RateFields) : Prop where
  /-- the loads are the user time, in percent of a core -/
  userLoad : filter.userCpuLoad = true →
    overTime (fun msg => msg.userCpuLoad.getD 0) first ticks msgs / 100 * jiffy =
      ((ticks.getLastD first).line.utime.toNat : ℚ) - first.line.utime.toNat
  /-- and the system time -/
  systemLoad : filter.systemCpuLoad = true →
    overTime (fun msg => msg.systemCpuLoad.getD 0) first ticks msgs / 100 * jiffy =
      ((ticks.getLastD first).line.stime.toNat : ℚ) - first.line.stime.toNat
  /-- the utilizations are the user time, in percent of all cores -/
  userUtilization : filter.userCpuUtilization = true →
    overTime (fun msg => msg.userCpuUtilization.getD 0) first ticks msgs / 100 *
        (jiffy * host.numCores) =
      ((ticks.getLastD first).line.utime.toNat : ℚ) - first.line.utime.toNat
  /-- and the system time -/
  systemUtilization : filter.systemCpuUtilization = true →
    overTime (fun msg => msg.systemCpuUtilization.getD 0) first ticks msgs / 100 *
        (jiffy * host.numCores) =
      ((ticks.getLastD first).line.stime.toNat : ℚ) - first.line.stime.toNat
  /-- the rates are the page faults -/
  pageFaults : filter.numPageFaultsPerSec = true →
    overTime (fun msg => msg.numPageFaultsPerSec.getD 0) first ticks msgs =
      ((faults (ticks.getLastD first)).toNat : ℚ) - (faults first).toNat
  /-- the rates are the reading system calls, rounded down each time -/
  readCalls : filter.numReadSystemCallsPerSec = true →
    (∀ i ∈ intervals first ticks, RateFits (·.syscr) i) →
    RoundedDown (·.syscr) first ticks (overTime
      (fun msg => (msg.numReadSystemCallsPerSec.map fun n => (n.toNat : ℚ)).getD 0)
      first ticks msgs)
  /-- and the writing ones -/
  writeCalls : filter.numWriteSystemCallsPerSec = true →
    (∀ i ∈ intervals first ticks, RateFits (·.syscw) i) →
    RoundedDown (·.syscw) first ticks (overTime
      (fun msg => (msg.numWriteSystemCallsPerSec.map fun n => (n.toNat : ℚ)).getD 0)
      first ticks msgs)
  /-- the owner is told once, in the first message -/
  user : ∀ k (h : k < msgs.length), (msgs.get ⟨k, h⟩).user = setField (filter.user && k == 0) user
  /-- and the start time -/
  startTime : ∀ k (h : k < msgs.length),
    (msgs.get ⟨k, h⟩).startTime = setField (filter.startTime && k == 0) startTime

/-- The kernel's counters do not decrease from one tick to a later one. -/
structure CountsOn (a b : TimedTick) : Prop where
  /-- time passes -/
  now : a.now < b.now
  /-- page faults -/
  faults : faults a ≤ faults b
  /-- reading system calls -/
  syscr : a.io.counters.syscr ≤ b.io.counters.syscr
  /-- writing system calls -/
  syscw : a.io.counters.syscw ≤ b.io.counters.syscw

section Accounts

variable {stray : ℚ → UInt32} {host : CollectorHost} {filter : RateFilter} {m : ProcessMonitor}
variable {first : TimedTick} {ticks : List TimedTick}

/-- A duration is positive. -/
theorem duration_pos (hcounts : (first :: ticks).IsChain CountsOn) {i : TimedTick × TimedTick}
    (hi : i ∈ intervals first ticks) : 0 < duration i :=
  sub_pos.mpr (rel_of_mem_intervals hcounts hi).now

/-- A rate that is a difference over the time, over time, is the difference of the ends. -/
theorem overTime_difference (hcounts : (first :: ticks).IsChain CountsOn)
    (rate : RateFields → ℚ) (value : TimedTick → ℚ) (unit : ℚ)
    (hfield : ∀ (m' : ProcessMonitor) (prev tick : TimedTick), HasRead m' prev →
      m'.jiffy = m.jiffy → rate (rateFields stray host filter
        (m'.update tick.now tick.toTick.files).1) =
          (value tick - value prev) / duration (prev, tick) * unit)
    (hread : HasRead m first) :
    overTime rate first ticks (TimedTick.sample stray host filter m ticks) =
      (value (ticks.getLastD first) - value first) * unit := by
  rw [overTime_sample rate (fun i => (value i.2 - value i.1) / duration i * unit) hfield hread,
    ← sum_differences value first ticks, ← List.sum_map_mul_right]
  refine congrArg List.sum (List.map_congr_left fun i hi => ?_)
  have hpos := duration_pos hcounts hi
  field_simp

/-- A load of so many cores, over time, is the CPU time. -/
theorem overTime_load (hcounts : (first :: ticks).IsChain CountsOn) (hjiffy : m.jiffy ≠ 0)
    (rate : RateFields → ℚ) (load : ProcessMonitor → ℚ) (time : StatLine → UInt64) {cores : ℚ}
    (hcores : cores ≠ 0)
    (hrate : ∀ m', rate (rateFields stray host filter m') = load m' / cores)
    (hload : ∀ (m' : ProcessMonitor) (prev tick : TimedTick), HasRead m' prev →
      load (m'.update tick.now tick.toTick.files).1 =
        ((time tick.line).toNat - (time prev.line).toNat) / m'.jiffy / duration (prev, tick) * 100)
    (hread : HasRead m first) :
    overTime rate first ticks (TimedTick.sample stray host filter m ticks) / 100 *
        (m.jiffy * cores) =
      ((time (ticks.getLastD first).line).toNat : ℚ) - (time first.line).toNat := by
  have hunit : (m.jiffy : ℚ) ≠ 0 := Int.cast_ne_zero.mpr hjiffy
  rw [overTime_difference hcounts rate (fun tick => ((time tick.line).toNat : ℚ))
    (100 / (m.jiffy * cores)) (fun m' prev tick h heq => ?_) hread]
  · field_simp
  · rw [hrate, hload m' prev tick h, heq]
    ring

/-- A counter that is told as a rate. -/
theorem overTime_growth (hcounts : (first :: ticks).IsChain CountsOn)
    (rate : RateFields → ℚ) (counter : TimedTick → UInt64)
    (hmono : ∀ a b, CountsOn a b → counter a ≤ counter b)
    (hfield : ∀ (m' : ProcessMonitor) (prev tick : TimedTick), HasRead m' prev →
      m'.jiffy = m.jiffy → rate (rateFields stray host filter
        (m'.update tick.now tick.toTick.files).1) =
          (counter tick - counter prev).toNat / duration (prev, tick))
    (hread : HasRead m first) :
    overTime rate first ticks (TimedTick.sample stray host filter m ticks) =
      ((counter (ticks.getLastD first)).toNat : ℚ) - (counter first).toNat := by
  rw [overTime_sample rate (fun i => (counter i.2 - counter i.1).toNat / duration i) hfield hread,
    ← sum_growth_cast (hcounts.imp hmono)]
  refine congrArg List.sum (List.map_congr_left fun i hi => ?_)
  have hpos := duration_pos hcounts hi
  have hle := hmono _ _ (rel_of_mem_intervals hcounts hi)
  rw [growth, ← UInt64.toNat_sub_of_le _ _ hle]
  field_simp

/-- A rate that fits is rounded down. -/
theorem rateToUInt32_bounds {rate : ℚ} (hnonneg : 0 ≤ rate) (hlt : rate < 2 ^ 32) :
    ((rateToUInt32 stray rate).toNat : ℚ) ≤ rate ∧ rate - 1 ≤ (rateToUInt32 stray rate).toNat := by
  have hfloor : (0 : ℤ) ≤ ⌊rate⌋ := Int.floor_nonneg.mpr hnonneg
  have hfits : ⌊rate⌋.toNat < 2 ^ 32 := by
    have hcast : ⌊rate⌋ < (2 ^ 32 : ℤ) := Int.floor_lt.mpr (by exact_mod_cast hlt)
    omega
  have heq : ((rateToUInt32 stray rate).toNat : ℚ) = ⌊rate⌋ := by
    rw [rateToUInt32, if_pos ⟨hnonneg, hlt⟩, UInt32.toNat_ofNat_of_lt' hfits]
    exact_mod_cast congrArg (Int.cast (R := ℚ)) (Int.toNat_of_nonneg hfloor)
  rw [heq]
  exact ⟨Int.floor_le rate, (Int.sub_one_lt_floor rate).le⟩

/-- A counter that is told as a rate in whole numbers. -/
theorem overTime_roundedDown (hcounts : (first :: ticks).IsChain CountsOn)
    (rate : RateFields → ℚ) (counter : LinuxProcessMonitorLight.IoMembers → UInt64)
    (hmono : ∀ a b : TimedTick, CountsOn a b → counter a.io.counters ≤ counter b.io.counters)
    (hfits : ∀ i ∈ intervals first ticks, RateFits counter i)
    (hfield : ∀ (m' : ProcessMonitor) (prev tick : TimedTick), HasRead m' prev →
      m'.jiffy = m.jiffy → rate (rateFields stray host filter
        (m'.update tick.now tick.toTick.files).1) =
          (rateToUInt32 stray ((counter tick.io.counters - counter prev.io.counters).toNat /
            duration (prev, tick))).toNat)
    (hread : HasRead m first) :
    RoundedDown counter first ticks
      (overTime rate first ticks (TimedTick.sample stray host filter m ticks)) := by
  have hbounds : ∀ i ∈ intervals first ticks,
      (rateToUInt32 stray ((counter i.2.io.counters - counter i.1.io.counters).toNat /
          duration i)).toNat * duration i ≤
        (growth (fun tick : TimedTick => counter tick.io.counters) i : ℚ) ∧
      (growth (fun tick : TimedTick => counter tick.io.counters) i : ℚ) - duration i ≤
        (rateToUInt32 stray ((counter i.2.io.counters - counter i.1.io.counters).toNat /
          duration i)).toNat * duration i := by
    intro i hi
    have hpos := duration_pos hcounts hi
    have hle := hmono _ _ (rel_of_mem_intervals hcounts hi)
    have hrate : ((counter i.2.io.counters - counter i.1.io.counters).toNat : ℚ) =
        growth (fun tick : TimedTick => counter tick.io.counters) i := by
      rw [UInt64.toNat_sub_of_le _ _ hle, growth]
    rw [hrate]
    obtain ⟨hdown, hup⟩ := @rateToUInt32_bounds stray _
      (div_nonneg (Nat.cast_nonneg _) hpos.le) ((div_lt_iff₀ hpos).mpr (hfits i hi))
    refine ⟨(le_div_iff₀ hpos).mp hdown, ?_⟩
    have hscaled := mul_le_mul_of_nonneg_right hup hpos.le
    rwa [sub_mul, div_mul_cancel₀ _ hpos.ne', one_mul] at hscaled
  have hgrowth := @sum_growth_cast _ (fun tick : TimedTick => counter tick.io.counters) _ _
    (hcounts.imp hmono)
  have htime := sum_differences TimedTick.now first ticks
  rw [overTime_sample rate (fun i => ((rateToUInt32 stray
    ((counter i.2.io.counters - counter i.1.io.counters).toNat / duration i)).toNat : ℚ))
    hfield hread]
  refine ⟨?_, ?_⟩
  · rw [← hgrowth]
    exact List.sum_le_sum fun i hi => (hbounds i hi).1
  · rw [← hgrowth, ← htime, sub_le_iff_le_add, ← List.sum_map_add]
    exact List.sum_le_sum fun i hi => sub_le_iff_le_add.mp (hbounds i hi).2

/-- What does not change is in the first message only. -/
theorem told_once {β : Type} (field : RateFields → Option β) (has : Bool) (value : β)
    (get : ProcessMonitor → β) (hget : ∀ m' : ProcessMonitor, ∀ now files,
      get (m'.update now files).1 = get m')
    (hfield : ∀ m' : ProcessMonitor, field (rateFields stray host filter m') =
      setField (has && m'.isFirstTime) (get m'))
    (hvalue : get m = value) {samples : ℕ} (hsamples : m.totalNumSamples = UInt64.ofNat samples)
    (hpos : 0 < samples) (hlength : samples + ticks.length < 2 ^ 64) (k : ℕ)
    (hk : k < (TimedTick.sample stray host filter m ticks).length) :
    field ((TimedTick.sample stray host filter m ticks).get ⟨k, hk⟩) =
      setField (has && samples + k == 1) value := by
  induction ticks generalizing m samples k with
  | nil => simp [TimedTick.sample] at hk
  | cons tick ticks ih =>
    rw [List.length_cons] at hlength
    have hnext : (m.update tick.now tick.toTick.files).1.totalNumSamples =
        UInt64.ofNat (samples + 1) := by
      rw [ProcessMonitor.update, hsamples, UInt64.ofNat_add]
      rfl
    cases k with
    | zero =>
      have hfirst : (m.update tick.now tick.toTick.files).1.isFirstTime = (samples + 0 == 1) := by
        rw [ProcessMonitor.isFirstTime, hnext, Bool.eq_iff_iff, decide_eq_true_iff,
          UInt64.lt_iff_toNat_lt, UInt64.toNat_ofNat_of_lt' (by rw [UInt64.size]; omega),
          beq_iff_eq]
        have hthree : (3 : UInt64).toNat = 3 := rfl
        omega
      exact (hfield _).trans (by rw [hfirst, hget, hvalue])
    | succ k =>
      have hrest := ih ((hget m _ _).trans hvalue) hnext (by omega) (by omega) k
        (by simpa [TimedTick.sample] using hk)
      rw [show samples + (k + 1) = samples + 1 + k by omega]
      exact hrest

end Accounts

/-- **The CPU time is accounted for**: over any run of ticks at which a process is there, and its
name is one word, the messages about it tell all of its CPU time, page faults and system calls,
over exact rationals. -/
theorem cpuTime_accounted (stray : ℚ → UInt32) (host : CollectorHost) (filter : RateFilter)
    (raw : ProcessMonitor) (jiffy : ℤ) (user startTime : String) (first : TimedTick)
    (ticks : List TimedTick) (hjiffy : jiffy ≠ 0) (hcores : host.numCores ≠ 0)
    (hcounts : (first :: ticks).IsChain CountsOn) (hlength : 1 + ticks.length < 2 ^ 64) :
    Accounted host filter jiffy user startTime first ticks
      (TimedTick.sample stray host filter (TimedTick.addProcess raw jiffy user startTime first)
        ticks) := by
  have hread : HasRead (TimedTick.addProcess raw jiffy user startTime first) first :=
    hasRead_update _ first
  have hnum : (host.numCores : ℚ) ≠ 0 := Int.cast_ne_zero.mpr hcores
  have hone : ∀ k, (1 + k == 1) = (k == 0) := fun k => by
    rw [Bool.eq_iff_iff, beq_iff_eq, beq_iff_eq]
    omega
  constructor
  case userLoad =>
    intro hhas
    rw [← mul_one (jiffy : ℚ)]
    refine overTime_load hcounts hjiffy _ ProcessMonitor.getUserCpuLoad StatLine.utime one_ne_zero
      (fun m' => ?_) (fun _ _ _ h => getUserCpuLoad_update h) hread
    simp only [rateFields, hhas, setField_true, Option.getD_some, div_one]
  case systemLoad =>
    intro hhas
    rw [← mul_one (jiffy : ℚ)]
    refine overTime_load hcounts hjiffy _ ProcessMonitor.getSystemCpuLoad StatLine.stime one_ne_zero
      (fun m' => ?_) (fun _ _ _ h => getSystemCpuLoad_update h) hread
    simp only [rateFields, hhas, setField_true, Option.getD_some, div_one]
  case userUtilization =>
    intro hhas
    refine overTime_load hcounts hjiffy _ ProcessMonitor.getUserCpuLoad StatLine.utime hnum
      (fun m' => ?_) (fun _ _ _ h => getUserCpuLoad_update h) hread
    simp only [rateFields, hhas, setField_true, Option.getD_some]
    field_simp
  case systemUtilization =>
    intro hhas
    refine overTime_load hcounts hjiffy _ ProcessMonitor.getSystemCpuLoad StatLine.stime hnum
      (fun m' => ?_) (fun _ _ _ h => getSystemCpuLoad_update h) hread
    simp only [rateFields, hhas, setField_true, Option.getD_some]
    field_simp
  case pageFaults =>
    intro hhas
    refine overTime_growth hcounts _ faults (fun _ _ h => h.faults)
      (fun m' prev tick h _ => ?_) hread
    simp only [rateFields, hhas, setField_true, Option.getD_some]
    exact getTotalNumPageFaultsPerSec_update h
  case readCalls =>
    intro hhas hfits
    refine overTime_roundedDown hcounts _ (·.syscr) (fun _ _ h => h.syscr) hfits
      (fun m' prev tick h _ => ?_) hread
    simp only [rateFields, hhas, setField_true, Option.map_some, Option.getD_some]
    rw [getNumReadSysCallsPerSec_update h]
  case writeCalls =>
    intro hhas hfits
    refine overTime_roundedDown hcounts _ (·.syscw) (fun _ _ h => h.syscw) hfits
      (fun m' prev tick h _ => ?_) hread
    simp only [rateFields, hhas, setField_true, Option.map_some, Option.getD_some]
    rw [getNumWriteSysCallsPerSec_update h]
  case user =>
    intro k hk
    rw [← hone]
    exact told_once RateFields.user filter.user user ProcessMonitor.user (fun _ _ _ => rfl)
      (fun _ => rfl) rfl rfl Nat.one_pos hlength k hk
  case startTime =>
    intro k hk
    rw [← hone]
    exact told_once RateFields.startTime filter.startTime startTime ProcessMonitor.startTime
      (fun _ _ _ => rfl) (fun _ => rfl) rfl rfl Nat.one_pos hlength k hk

/-- A filter with all of these fields. -/
def allRates : RateFilter :=
  ⟨true, true, true, true, true, true, true, true, true, true, true, true⟩

/-- The line of a process that has used some time. -/
def StatLine.ofTimes (utime stime : UInt64) : StatLine :=
  { StatLine.parentheses with utime, stime }

/-- A tick at which a process has used little time. -/
def TimedTick.early : TimedTick where
  now := 10
  line := .ofTimes 41 5
  statm := .notOpen
  io := { counters := ⟨100, 50, 4, 4, 10, 20⟩, cancelledWriteBytes := 0 }
  fits := by decide +kernel
  noSpace := by decide +kernel
  statm_succeeds := trivial

/-- Half a second later it has used more. -/
def TimedTick.late : TimedTick where
  now := 10.5
  line := .ofTimes 66 10
  statm := .notOpen
  io := { counters := ⟨300, 50, 9, 4, 10, 20⟩, cancelledWriteBytes := 0 }
  fits := by decide +kernel
  noSpace := by decide +kernel
  statm_succeeds := trivial

/-- A monitor as it is before its constructor. -/
def rawProcessMonitor : ProcessMonitor :=
  { rawMonitor with
    user := "", startTime := "", jiffy := 7, prevMinflt := 7, prevMajflt := 7
    prevUserTime := 7, prevSystemTime := 7, updateTime := 7, prevUpdateTime := 7
    totalNumSamples := 7 }

/-- An interval of half a second on a host of two cores. -/
theorem cpuTime_accounted_half_second :
    Accounted ⟨2, 1024⟩ allRates 100 "root" "Feb01 12:00" TimedTick.early [TimedTick.late]
      (TimedTick.sample (fun _ => 0) ⟨2, 1024⟩ allRates
        (TimedTick.addProcess rawProcessMonitor 100 "root" "Feb01 12:00" TimedTick.early)
        [TimedTick.late]) := by
  refine cpuTime_accounted _ _ _ _ _ _ _ _ _ (by decide) (by decide)
    (.cons_cons ⟨?_, ?_, ?_, ?_⟩ (.singleton _)) (by decide)
  · norm_num [TimedTick.early, TimedTick.late]
  · decide
  · decide
  · decide

end WallMon
