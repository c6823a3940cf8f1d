import WallMon.CpuTimes
import WallMon.Display

/-!
# From the kernel's counters to the wall

The collector makes the messages of a process from the kernel's counters, and the handler
puts its boids where the newest message says. Between them nothing is known of the other
messages that the handler gets, of the frames and of the axis. Still the boid for the
processors is at the time that the process used between the last two ticks, as a part of
what all processors had (`cpuBoid_place`). This is so over exact rationals, for a process whose
name is one word, and for the newest message under its key.
-/

namespace WallMon

/-- The message about a process as the handler reads it. -/
def processSample (header : ProcessMessage) (rates : RateFields) (io : IoFields) :
    ProcessSample where
  toProcessMessage := header
  user := rates.user
  startTime := rates.startTime
  numThreads := rates.numThreads
  userCpuUtilization := rates.userCpuUtilization
  systemCpuUtilization := rates.systemCpuUtilization
  memoryUtilization := rates.memoryUtilization
  networkInBytes := io.networkInBytes
  networkOutBytes := io.networkOutBytes
  storageInBytes := io.storageInBytes
  storageOutBytes := io.storageOutBytes
  numPageFaultsPerSec := rates.numPageFaultsPerSec

/-- The time used in an interval, in percent of the time of all processors. -/
def percentUsed (host : CollectorHost) (jiffy : ℤ) (time : StatLine → UInt64)
    (i : TimedTick × TimedTick) : ℚ :=
  100 * (((time i.2.line).toNat : ℚ) - (time i.1.line).toNat) /
    (jiffy * host.numCores * duration i)

/-- The last interval. -/
theorem intervals_snoc {α : Type} (a b : α) (l : List α) :
    intervals a (l ++ [b]) = intervals a l ++ [(l.getLastD a, b)] := by
  induction l generalizing a with
  | nil => rfl
  | cons c l ih =>
    rw [List.cons_append, intervals, ih, intervals, List.getLastD_cons]
    rfl

section Newest

variable {stray : ℚ → UInt32} {host : CollectorHost} {filter : RateFilter} {m : ProcessMonitor}
variable {first tick : TimedTick} {ticks : List TimedTick} {rates : RateFields}

/-- The newest message is about the last interval. -/
theorem field_newest {β : Type} (field : RateFields → β) (value : TimedTick × TimedTick → β)
    (hfield : ∀ (m' : ProcessMonitor) (prev tick : TimedTick), HasRead m' prev →
      m'.jiffy = m.jiffy → field (rateFields stray host filter
        (m'.update tick.now tick.toTick.files).1) = value (prev, tick))
    (hread : HasRead m first)
    (hnewest : (TimedTick.sample stray host filter m (ticks ++ [tick])).getLast? = some rates) :
    field rates = value (ticks.getLastD first, tick) := by
  have hlast : ((TimedTick.sample stray host filter m (ticks ++ [tick])).map field).getLast? =
      ((intervals first (ticks ++ [tick])).map value).getLast? := by
    rw [map_sample field value hfield hread]
  rw [intervals_snoc, List.map_append, List.getLast?_map, hnewest] at hlast
  simpa using hlast

/-- The user time in the newest message. -/
theorem userUtilization_newest (hhas : filter.userCpuUtilization = true)
    (hcores : (host.numCores : ℚ) ≠ 0) (hread : HasRead m first)
    (hnewest : (TimedTick.sample stray host filter m (ticks ++ [tick])).getLast? = some rates) :
    rates.userCpuUtilization.getD 0 =
      percentUsed host m.jiffy StatLine.utime (ticks.getLastD first, tick) := by
  refine field_newest (fun msg => msg.userCpuUtilization.getD 0)
    (percentUsed host m.jiffy StatLine.utime) (fun m' prev tick h hjiffy => ?_) hread hnewest
  simp only [rateFields, hhas, setField_true, Option.getD_some]
  rw [getUserCpuLoad_update h, hjiffy, percentUsed]
  field_simp

/-- The system time in the newest message. -/
theorem systemUtilization_newest (hhas : filter.systemCpuUtilization = true)
    (hcores : (host.numCores : ℚ) ≠ 0) (hread : HasRead m first)
    (hnewest : (TimedTick.sample stray host filter m (ticks ++ [tick])).getLast? = some rates) :
    rates.systemCpuUtilization.getD 0 =
      percentUsed host m.jiffy StatLine.stime (ticks.getLastD first, tick) := by
  refine field_newest (fun msg => msg.systemCpuUtilization.getD 0)
    (percentUsed host m.jiffy StatLine.stime) (fun m' prev tick h hjiffy => ?_) hread hnewest
  simp only [rateFields, hhas, setField_true, Option.getD_some]
  rw [getSystemCpuLoad_update h, hjiffy, percentUsed]
  field_simp

end Newest

/-- What is in percent of the time of all processors is so much of it. -/
theorem percentUsed_mul (host : CollectorHost) {jiffy : ℤ} (hjiffy : jiffy ≠ 0)
    (hcores : host.numCores ≠ 0) (time : StatLine → UInt64) {prev tick : TimedTick}
    (htime : prev.now < tick.now) :
    percentUsed host jiffy time (prev, tick) / 100 *
        (jiffy * host.numCores * (tick.now - prev.now)) =
      ((time tick.line).toNat : ℚ) - (time prev.line).toNat := by
  have hunit : (jiffy : ℚ) ≠ 0 := Int.cast_ne_zero.mpr hjiffy
  have hnum : (host.numCores : ℚ) ≠ 0 := Int.cast_ne_zero.mpr hcores
  have hduration : tick.now - prev.now ≠ 0 := sub_ne_zero.mpr htime.ne'
  rw [percentUsed, duration]
  field_simp

/-- The boid for the processors is where the time puts it that a process used in an interval. -/
structure BoidAt (log2 : ℚ → Option ℚ) (d : Display) (key : String) (axis : Bool)
    (host : CollectorHost) (jiffy : ℤ) (prev tick : TimedTick) (proc : ℕ) (user system : ℚ) :
    Prop where
  /-- the process is registered -/
  registered : d.data.procMap key = some proc
  /-- its boid is where the two percentages put it -/
  place : d.destination (proc, .cpu) = some (sumDestination log2 axis user system)
  /-- which are those of the user time -/
  user : user / 100 * (jiffy * host.numCores * (tick.now - prev.now)) =
    (tick.line.utime.toNat : ℚ) - prev.line.utime.toNat
  /-- and of the system time -/
  system : system / 100 * (jiffy * host.numCores * (tick.now - prev.now)) =
    (tick.line.stime.toNat : ℚ) - prev.line.stime.toNat

/-- **Where the boid is**: whatever else the handler gets, if the newest message under a key is
that of a process, the boid for the processors is where the time that the process used between
the last two ticks puts it, on the axis that was used when the message came. -/
theorem cpuBoid_place (stray : ℚ → UInt32) (host : CollectorHost) (filter : RateFilter)
    (raw : ProcessMonitor) (jiffy : ℤ) (user startTime : String) (first tick : TimedTick)
    (ticks : List TimedTick) (rates : RateFields) (hjiffy : jiffy ≠ 0)
    (hcores : host.numCores ≠ 0) (htime : (ticks.getLastD first).now < tick.now)
    (huser : filter.userCpuUtilization = true) (hsystem : filter.systemCpuUtilization = true)
    (hnewest : (TimedTick.sample stray host filter
        (TimedTick.addProcess raw jiffy user startTime first) (ticks ++ [tick])).getLast? =
      some rates)
    (log2 : ℚ → Option ℚ) (inputs : List Display.Input) (key : String)
    (earlier : List (Bool × ProcessSample)) (axis : Bool) (header : ProcessMessage) (io : IoFields)
    (hlife : (Display.History.after inputs).life key =
      earlier ++ [(axis, processSample header rates io)]) :
    ∃ proc userUsed systemUsed, BoidAt log2 (Display.run log2 inputs) key axis host jiffy
      (ticks.getLastD first) tick proc userUsed systemUsed := by
  have hread : HasRead (TimedTick.addProcess raw jiffy user startTime first) first :=
    hasRead_update _ first
  have hnum : (host.numCores : ℚ) ≠ 0 := Int.cast_ne_zero.mpr hcores
  have hshows := Display.shows_run log2 inputs
  obtain ⟨proc, hproc⟩ := Option.ne_none_iff_exists'.mp fun hnone => by
    have hempty := (hshows.registered key).mp hnone
    rw [hlife] at hempty
    exact List.append_ne_nil_of_right_ne_nil _ (List.cons_ne_nil _ _) hempty
  obtain ⟨earlier', newest, heq, hshown⟩ := hshows.process key proc hproc
  rw [hlife] at heq
  obtain rfl := List.singleton_inj.mp (List.append_inj' heq rfl).2
  have hutime := userUtilization_newest huser hnum hread hnewest
  have hstime := systemUtilization_newest hsystem hnum hread hnewest
  refine ⟨proc, _, _, hproc, ?_, percentUsed_mul host hjiffy hcores StatLine.utime htime,
    percentUsed_mul host hjiffy hcores StatLine.stime htime⟩
  rw [hshown.destination, hshown.stat]
  exact congrArg some (congrArg₂ (sumDestination log2 axis) hutime hstime)

/-- A first message is remembered. -/
theorem life_first (header : ProcessMessage) (hends : header.isTerminated = false)
    (rates : RateFields) (io : IoFields) :
    (Display.History.after [.message (processSample header rates io)]).life header.processId.key =
      [(true, processSample header rates io)] := by
  have hprocess : (processSample header rates io).processId.key = header.processId.key := rfl
  have hstays : (processSample header rates io).isTerminated = false := hends
  rw [Display.History.after, List.foldl_cons, List.foldl_nil, Display.History.life_message,
    hprocess, Function.update_self, hstays]
  rfl

/-- Half a second of a process on a host of two cores, on the wall. -/
theorem cpuBoid_place_half_second :
    ∃ rates proc userUsed systemUsed, BoidAt (fun _ => none)
      (Display.run (fun _ => none)
        [.message (processSample (messageOf "tile-1" 17 false) rates
          (ioFields allIoFields rawMonitor))])
      (messageOf "tile-1" 17 false).processId.key true ⟨2, 1024⟩ 100 TimedTick.early TimedTick.late
      proc userUsed systemUsed :=
  ⟨_, cpuBoid_place (fun _ => 0) ⟨2, 1024⟩ allRates rawProcessMonitor 100 "root" "Feb01 12:00"
    TimedTick.early TimedTick.late [] _ (by decide) (by decide)
    (by norm_num [TimedTick.early, TimedTick.late]) rfl rfl rfl (fun _ => none) _ _ [] true
    (messageOf "tile-1" 17 false) (ioFields allIoFields rawMonitor) (life_first _ rfl _ _)⟩

end WallMon
