import WallMon.SampleLimit
import WallMon.StatFiles
import Mathlib.Data.Finset.Card
import Mathlib.Data.Finset.Dedup
import Mathlib.Data.Finset.Image
import Mathlib.Data.Finset.Filter

/-!
# Saving the experiment: `_SaveWallmonSamplingRateData`

When all samples are there, the handler makes a `Stat` for each metric, with a sample for each
frequency, and saves them. The start column of all files are the frequencies of the first
process name. So saving goes through exactly if every frequency is there for every name, and
the fields that may be missing are there for every frequency.
-/

namespace WallMon

namespace Gnuplot

open Std

/-- A `Stat` of either type. -/
inductive AnyStat where
  /-- `Stat<uint32_t>` -/
  | unsigned (s : Stat UInt32)
  /-- `Stat<double>` -/
  | double (s : Stat ℚ)

namespace AnyStat

/-- `Save` -/
def save (flags : StorageFlags) : AnyStat → Except Fault (List FileLine)
  | unsigned s => s.save flags
  | double s => s.save flags

/-- What `Save` relies on. -/
def Saveable (flags : StorageFlags) : AnyStat → Prop
  | unsigned s => s.Saveable flags
  | double s => s.Saveable flags

/-- All counts are values of `int`. -/
def Fits : AnyStat → Prop
  | unsigned s => Stat.Fits s.samples
  | double s => Stat.Fits s.samples

theorem save_ok_iff {flags : StorageFlags} {s : AnyStat} (hfits : s.Fits) :
    (∃ lines, s.save flags = .ok lines) ↔ s.Saveable flags := by
  cases s with
  | unsigned s => exact Stat.save_ok_iff hfits
  | double s => exact Stat.save_ok_iff hfits

end AnyStat

namespace Handler

/-- The flags of all files, but for the name and the start column. -/
def storageFlags (filename : String) (startColumn : Option (List ℤ))
    (generateLinearStartColumn : Bool) : StorageFlags where
  filename
  avg := true
  variance := true
  stdDev := true
  min := true
  max := true
  generateLinearStartColumn
  startColumn

/-- `hzVector`: the frequencies of the first name. -/
def hzVector (h : Handler) : List ℤ :=
  match h.procNameToHz.toList with
  | [] => []
  | (_, hzToProcs) :: _ => hzToProcs.keys

/-- The flags of a file with the frequencies at the start of its lines. -/
def hzFlags (h : Handler) (filename : String) : StorageFlags :=
  storageFlags filename (some h.hzVector) true

/-- A `Stat` that is given a sample for each key, and a value for each value. -/
def statOf {κ α T : Type} [Ord κ] (m : TreeMap κ (List α)) (values : List α → List T) : Stat T where
  samples := m.toList.map fun item => values item.2

/-- The files of a process name. -/
def processFiles (h : Handler) (item : String × TreeMap ℤ (List ProcessMessage)) :
    List (StorageFlags × AnyStat) :=
  let cpuUserUtil := statOf item.2 fun msgs => msgs.map ProcessMessage.usercpuutilization
  let cpuSystemUtil := statOf item.2 fun msgs => msgs.map ProcessMessage.systemcpuutilization
  let memoryMb := statOf item.2 fun msgs =>
    msgs.map fun msg => (msg.memorybytes.toNat / (1024 * 1024) : ℚ)
  [(h.hzFlags (item.1 ++ "_cpu_user_util.dat"), .double cpuUserUtil),
    (h.hzFlags (item.1 ++ "_cpu_system_util.dat"), .double cpuSystemUtil),
    (h.hzFlags (item.1 ++ "_memory_megabytes.dat"), .double memoryMb)]

/-- The files of messages by frequency. -/
def messageFiles (h : Handler) : List (StorageFlags × AnyStat) :=
  let m := h.hzToWallmonMessages
  let serverQueueSize := statOf m fun msgs => msgs.map WallmonMessage.serverqueuesize
  let daemonQueueSize := statOf m fun msgs => msgs.map WallmonMessage.daemonqueuesize
  let wallmonPacketLatencyMsec := statOf m fun msgs =>
    msgs.map fun msg => msg.servertimestampmsec - msg.daemontimestampmsec
  let sampleDurationMsec := statOf m fun msgs => msgs.map WallmonMessage.sampledurationmsec
  let handlerDurationMsec := statOf m fun msgs =>
    msgs.filterMap WallmonMessage.previoushandlerexecutiontimemsec
  let actualHz := statOf m fun msgs => msgs.filterMap WallmonMessage.actualhz
  [(h.hzFlags "server_queue_size.dat", .unsigned serverQueueSize),
    (h.hzFlags "daemon_queue_size.dat", .unsigned daemonQueueSize),
    (h.hzFlags "wallmon_packet_latency_msec.dat", .double wallmonPacketLatencyMsec),
    (h.hzFlags "wallmond_sample_duration_msec.dat", .double sampleDurationMsec),
    (h.hzFlags "wallmons_handler_duration_msec.dat", .double handlerDurationMsec),
    (h.hzFlags "wallmond_actual_hz.dat", .unsigned actualHz)]

/-- How far apart the first and the last message of a sequence number arrived. There is one. -/
def serverAlignment (timestamps : List WallmonMessage) : ℚ :=
  let min := (timestamps.head?.map WallmonMessage.servertimestampmsec).getD 0
  let max := (timestamps.getLast?.map WallmonMessage.servertimestampmsec).getD 0
  max - min

/-- How far apart the messages of a sequence number were sent. -/
def daemonAlignment (timestamps : List WallmonMessage) : ℚ :=
  let bounds := timestamps.foldl (fun (bounds : ℚ × ℚ) m =>
    (if bounds.1 < 0 ∨ m.daemontimestampmsec < bounds.1 then m.daemontimestampmsec else bounds.1,
      if m.daemontimestampmsec > bounds.2 then m.daemontimestampmsec else bounds.2)) (-1, -1)
  bounds.2 - bounds.1

/-- A `Stat` that is given a sample for each frequency, and a value for each sequence number. -/
def alignmentStat (h : Handler) (value : List WallmonMessage → ℚ) : Stat ℚ where
  samples := h.hzToSeqNum.toList.map fun item => item.2.toList.map fun item2 => value item2.2

/-- The files of sequence numbers by frequency. -/
def seqNumFiles (h : Handler) : List (StorageFlags × AnyStat) :=
  let collectorTimeAlignment := h.alignmentStat serverAlignment
  let collectorTimeAlignment2 := h.alignmentStat daemonAlignment
  [(h.hzFlags "collector_time_alignment.dat", .double collectorTimeAlignment),
    (h.hzFlags "collector_time_alignment_daemon.dat", .double collectorTimeAlignment2)]

/-- What is saved, with the flags. -/
def files (h : Handler) : List (StorageFlags × AnyStat) :=
  h.procNameToHz.toList.flatMap h.processFiles ++ h.messageFiles ++ h.seqNumFiles ++
    [(storageFlags "wallmons_network_receive_megabytes.dat" none true,
        .double h.networkReceiveMegaBytesPerSec),
      (storageFlags "num_server_connections.dat" none false, .unsigned h.numServerConnections)]

/-- `_SaveWallmonSamplingRateData`: the files that are written. -/
def saveWallmonSamplingRateData (h : Handler) : Except Fault (List (String × List FileLine)) :=
  h.files.mapM fun file => do
    let lines ← file.2.save file.1
    return (file.1.filename, lines)

/-- **Saving does not abort**: for every file, the start column has an entry for each sample,
and no sample is empty. -/
def SavingLaw (h : Handler) : Prop := ∀ file ∈ h.files, file.2.Saveable file.1

/-- Frequencies, names and fields are complete. -/
structure Complete (stray : Float → UInt32) (h : Handler) : Prop where
  /-- there is a process of interest -/
  targets : h.targets ≠ []
  /-- every name is there at every frequency -/
  names : ∀ target ∈ h.targets, ∀ msg ∈ h.accepted, ∃ other ∈ h.targets,
    other.2.processname = target.2.processname ∧ other.1.hz stray = msg.hz stray
  /-- at every frequency a message tells the frequency that was measured -/
  actualhz : ∀ msg ∈ h.accepted, ∃ other ∈ h.accepted,
    other.hz stray = msg.hz stray ∧ other.actualhz.isSome
  /-- and one how long its handler took -/
  handlerDuration : ∀ msg ∈ h.accepted, ∃ other ∈ h.accepted,
    other.hz stray = msg.hz stray ∧ other.previoushandlerexecutiontimemsec.isSome
  /-- a message tells the number of connections -/
  connections : ∃ msg ∈ h.accepted, msg.daemonnumserverconnections.isSome

variable {stray : Float → UInt32} {h : Handler} {totalNumSamples : ℤ}

theorem mapM_ok_iff {α β : Type} {f : α → Except Fault β} {l : List α} :
    (∃ ys, l.mapM f = .ok ys) ↔ ∀ x ∈ l, ∃ y, f x = .ok y := by
  induction l with
  | nil => exact iff_of_true ⟨[], rfl⟩ fun _ hx => absurd hx List.not_mem_nil
  | cons x l ih =>
    rw [List.mapM_cons, List.forall_mem_cons, ← ih]
    refine ⟨?_, ?_⟩
    · rintro ⟨ys, h⟩
      obtain ⟨y, hy, h⟩ := bind_eq_ok h
      obtain ⟨rest, hrest, -⟩ := bind_eq_ok h
      exact ⟨⟨y, hy⟩, rest, hrest⟩
    · rintro ⟨⟨y, hy⟩, rest, hrest⟩
      exact ⟨y :: rest, by rw [hy, ok_bind, hrest]; rfl⟩

/-- **The law says that all files are written**, as long as all counts are values of `int`. -/
theorem saveWallmonSamplingRateData_ok_iff (hfits : ∀ file ∈ h.files, file.2.Fits) :
    (∃ written, h.saveWallmonSamplingRateData = .ok written) ↔ h.SavingLaw := by
  rw [saveWallmonSamplingRateData, mapM_ok_iff]
  refine forall₂_congr fun file hfile => ?_
  rw [← AnyStat.save_ok_iff (hfits file hfile)]
  refine ⟨?_, ?_⟩
  · rintro ⟨_, h⟩
    obtain ⟨lines, hlines, -⟩ := bind_eq_ok h
    exact ⟨lines, hlines⟩
  · rintro ⟨lines, hlines⟩
    exact ⟨_, by rw [hlines, ok_bind]; rfl⟩

/-! ## The law, group by group -/

theorem ofUnsigned_injective {a b : UInt32}
    (h : CInt.ofUnsigned a.toNat = CInt.ofUnsigned b.toNat) : a = b := by
  have ha := a.toNat_lt
  have hb := b.toNat_lt
  rw [CInt.ofUnsigned, CInt.ofUnsigned] at h
  refine UInt32.toNat_inj.mp ?_
  split at h <;> split at h <;> omega

/-- What `Save` relies on with a sample for each entry of a map. -/
theorem saveable_map {κ β T : Type} [Ord κ] {filename : String} {m : TreeMap κ β}
    {sampleOf : β → List T} :
    Stat.Saveable (h.hzFlags filename) { samples := m.toList.map fun item => sampleOf item.2 } ↔
      h.hzVector.length = m.size ∧ ∀ item ∈ m.toList, sampleOf item.2 ≠ [] := by
  rw [Stat.Saveable, List.length_map, TreeMap.length_toList]
  refine and_congr ⟨fun hall => hall _ rfl, fun heq column hcolumn => ?_⟩ ⟨fun hall => ?_, ?_⟩
  · obtain rfl := Option.some.inj hcolumn
    exact heq
  · exact fun item hitem => hall (.inl rfl) _ (List.mem_map_of_mem hitem)
  · intro hall _ sample hsample
    obtain ⟨item, hitem, rfl⟩ := List.mem_map.mp hsample
    exact hall item hitem

theorem saveable_statOf {κ α T : Type} [Ord κ] {filename : String} {m : TreeMap κ (List α)}
    {values : List α → List T} :
    (statOf m values).Saveable (h.hzFlags filename) ↔
      h.hzVector.length = m.size ∧ ∀ item ∈ m.toList, values item.2 ≠ [] := saveable_map

theorem saveable_alignmentStat {filename : String} {value : List WallmonMessage → ℚ} :
    (h.alignmentStat value).Saveable (h.hzFlags filename) ↔
      h.hzVector.length = h.hzToSeqNum.size ∧
        ∀ item ∈ h.hzToSeqNum.toList, item.2.toList ≠ [] := by
  have hmap := @saveable_map h _ _ _ _ filename h.hzToSeqNum
    (fun groups => groups.toList.map fun item => value item.2)
  refine hmap.trans (and_congr_right fun _ => forall₂_congr fun item _ => ?_)
  exact List.map_eq_nil_iff.not

/-- The files of a name. -/
theorem processFiles_saveable {item : String × TreeMap ℤ (List ProcessMessage)} :
    (∀ file ∈ h.processFiles item, file.2.Saveable file.1) ↔
      h.hzVector.length = item.2.size ∧ ∀ item2 ∈ item.2.toList, item2.2 ≠ [] := by
  simp only [processFiles, List.forall_mem_cons, List.not_mem_nil, false_imp_iff, implies_true,
    and_true, AnyStat.Saveable, saveable_statOf, ne_eq, List.map_eq_nil_iff, and_self]

/-- The files of messages. -/
theorem messageFiles_saveable :
    (∀ file ∈ h.messageFiles, file.2.Saveable file.1) ↔
      h.hzVector.length = h.hzToWallmonMessages.size ∧
      ∀ item ∈ h.hzToWallmonMessages.toList, item.2 ≠ [] ∧
        item.2.filterMap WallmonMessage.previoushandlerexecutiontimemsec ≠ [] ∧
        item.2.filterMap WallmonMessage.actualhz ≠ [] := by
  simp only [messageFiles, List.forall_mem_cons, List.not_mem_nil, false_imp_iff, implies_true,
    and_true, AnyStat.Saveable, saveable_statOf, ne_eq, List.map_eq_nil_iff]
  refine ⟨?_, ?_⟩
  · rintro ⟨⟨hsize, hne⟩, -, -, -, ⟨-, hduration⟩, -, hactual⟩
    exact ⟨hsize, fun item hitem => ⟨hne item hitem, hduration item hitem, hactual item hitem⟩⟩
  · rintro ⟨hsize, hall⟩
    have hne := fun item hitem => (hall item hitem).1
    exact ⟨⟨hsize, hne⟩, ⟨hsize, hne⟩, ⟨hsize, hne⟩, ⟨hsize, hne⟩,
      ⟨hsize, fun item hitem => (hall item hitem).2.1⟩,
      hsize, fun item hitem => (hall item hitem).2.2⟩

/-- The files of sequence numbers. -/
theorem seqNumFiles_saveable :
    (∀ file ∈ h.seqNumFiles, file.2.Saveable file.1) ↔
      h.hzVector.length = h.hzToSeqNum.size ∧ ∀ item ∈ h.hzToSeqNum.toList, item.2.toList ≠ [] := by
  simp only [seqNumFiles, List.forall_mem_cons, List.not_mem_nil, false_imp_iff, implies_true,
    and_true, AnyStat.Saveable, saveable_alignmentStat, and_self]

/-- A file without a start column. -/
theorem saveable_none {T : Type} {filename : String} {linear : Bool} {s : Stat T} :
    s.Saveable (storageFlags filename none linear) ↔ ∀ sample ∈ s.samples, sample ≠ [] :=
  ⟨fun hsave => hsave.2 (.inl rfl), fun hall => ⟨fun _ hcolumn => (nomatch hcolumn), fun _ => hall⟩⟩

/-- The law, file by file. -/
theorem savingLaw_iff_parts : h.SavingLaw ↔
    (∀ item ∈ h.procNameToHz.toList, ∀ file ∈ h.processFiles item, file.2.Saveable file.1) ∧
    (∀ file ∈ h.messageFiles, file.2.Saveable file.1) ∧
    (∀ file ∈ h.seqNumFiles, file.2.Saveable file.1) ∧
    (∀ sample ∈ h.networkReceiveMegaBytesPerSec.samples, sample ≠ []) ∧
    ∀ sample ∈ h.numServerConnections.samples, sample ≠ [] := by
  simp only [SavingLaw, files, List.forall_mem_append, List.forall_mem_flatMap,
    List.forall_mem_cons, List.not_mem_nil, false_imp_iff, implies_true, and_true,
    AnyStat.Saveable, saveable_none, and_assoc]

/-! ## When saving goes through -/

/-- The frequencies of processes of a name. -/
def hzOfName (stray : Float → UInt32) (h : Handler) (name : String) : Finset UInt32 :=
  ((h.targets.filter fun target => target.2.processname = name).map
    fun target => target.1.hz stray).toFinset

/-- The frequencies of messages. -/
def hzOfMessages (stray : Float → UInt32) (h : Handler) : Finset UInt32 :=
  (h.accepted.map fun msg => msg.hz stray).toFinset

theorem mem_hzOfName {name : String} {hz : UInt32} : hz ∈ h.hzOfName stray name ↔
    ∃ target ∈ h.targets, target.2.processname = name ∧ target.1.hz stray = hz := by
  simp [hzOfName, and_assoc]

theorem mem_hzOfMessages {hz : UInt32} :
    hz ∈ h.hzOfMessages stray ↔ ∃ msg ∈ h.accepted, msg.hz stray = hz := by
  simp [hzOfMessages]

/-- Frequencies of processes are those of messages. -/
theorem Consistent.hzOfName_subset (hcons : Consistent stray totalNumSamples h) (name : String) :
    h.hzOfName stray name ⊆ h.hzOfMessages stray := by
  intro hz hmem
  obtain ⟨target, htarget, -, rfl⟩ := mem_hzOfName.mp hmem
  exact mem_hzOfMessages.mpr ⟨_, (hcons.targets_accepted target htarget).2, rfl⟩

/-- An entry of a name has as many frequencies as the name. -/
theorem Consistent.procNameToHz_entry (hcons : Consistent stray totalNumSamples h)
    {item : String × TreeMap ℤ (List ProcessMessage) compare}
    (hitem : item ∈ h.procNameToHz.toList) :
    (∃ target ∈ h.targets, target.2.processname = item.1) ∧
      item.2.size = (h.hzOfName stray item.1).card ∧ ∀ item2 ∈ item.2.toList, item2.2 ≠ [] := by
  rw [hcons.procNameToHz_eq, processes] at hitem
  obtain ⟨hname, heq⟩ := mem_toList_group2.mp hitem
  refine ⟨hname, ?_, fun item2 hitem2 => ?_⟩
  · have himage : ((h.targets.filter fun target => target.2.processname = item.1).map
        fun target => CInt.ofUnsigned (target.1.hz stray).toNat).toFinset =
        (h.hzOfName stray item.1).image fun hz => CInt.ofUnsigned hz.toNat := by
      ext k
      simp [hzOfName]
    rw [heq, size_group, himage, Finset.card_image_of_injective]
    exact fun a b => ofUnsigned_injective
  · rw [heq] at hitem2
    obtain ⟨⟨target, htarget, hkey⟩, hvalues⟩ := mem_toList_group.mp hitem2
    rw [hvalues, ne_eq, List.map_eq_nil_iff, List.filter_eq_nil_iff]
    exact fun hnone => hnone target htarget (decide_eq_true hkey)

/-- A name that is there has an entry. -/
theorem Consistent.exists_entry (hcons : Consistent stray totalNumSamples h)
    {target : WallmonMessage × ProcessMessage} (htarget : target ∈ h.targets) :
    ∃ item ∈ h.procNameToHz.toList, item.1 = target.2.processname := by
  rw [hcons.procNameToHz_eq, processes]
  exact ⟨(target.2.processname, _), mem_toList_group2.mpr ⟨⟨target, htarget, rfl⟩, rfl⟩, rfl⟩

/-- The start column has as many entries as the names have frequencies, if these agree. -/
theorem hzVector_length {n : ℕ} (hne : h.procNameToHz.toList ≠ [])
    (hsize : ∀ item ∈ h.procNameToHz.toList, item.2.size = n) : h.hzVector.length = n := by
  rw [hzVector]
  cases hlist : h.procNameToHz.toList with
  | nil => exact absurd hlist hne
  | cons item rest =>
    rw [← hsize item (by rw [hlist]; exact List.mem_cons_self)]
    exact TreeMap.length_keys

/-- The messages of a frequency. -/
theorem Consistent.mem_hzToWallmonMessages (hcons : Consistent stray totalNumSamples h)
    {hz : UInt32} {msgs : List WallmonMessage} : (hz, msgs) ∈ h.hzToWallmonMessages.toList ↔
      (∃ msg ∈ h.accepted, msg.hz stray = hz) ∧
        msgs = h.accepted.filter fun msg => msg.hz stray = hz := by
  rw [hcons.hzToWallmonMessages_eq, mem_toList_group, List.map_id]

/-- Some message of a frequency has a field. -/
theorem filterMap_filter_ne_nil {α : Type} (field : WallmonMessage → Option α) (hz : UInt32) :
    (h.accepted.filter fun msg => msg.hz stray = hz).filterMap field ≠ [] ↔
      ∃ other ∈ h.accepted, other.hz stray = hz ∧ (field other).isSome := by
  rw [ne_eq, List.filterMap_eq_nil_iff]
  simp [Option.isSome_iff_ne_none]

/-- Connections are there exactly if a message tells them. -/
theorem Consistent.connections_iff (hcons : Consistent stray totalNumSamples h) :
    (∀ sample ∈ h.numServerConnections.samples, sample ≠ []) ↔
      ∃ msg ∈ h.accepted, msg.daemonnumserverconnections.isSome := by
  rw [hcons.numServerConnections_eq, List.forall_mem_singleton, ne_eq, List.filterMap_eq_nil_iff]
  simp [Option.isSome_iff_ne_none]

/-- Where saving goes through everything is complete. -/
theorem SavingLaw.complete (hcons : Consistent stray totalNumSamples h) (hlaw : h.SavingLaw) :
    Complete stray h := by
  obtain ⟨hprocesses, hmessages, -, -, hconnections⟩ := savingLaw_iff_parts.mp hlaw
  obtain ⟨hlength, hitems⟩ := messageFiles_saveable.mp hmessages
  have hconn := hcons.connections_iff.mp hconnections
  have hcard : h.hzVector.length = (h.hzOfMessages stray).card := by
    rw [hlength, hcons.hzToWallmonMessages_eq, size_group]
    rfl
  have hfield : ∀ msg ∈ h.accepted,
      (∃ other ∈ h.accepted, other.hz stray = msg.hz stray ∧
        other.previoushandlerexecutiontimemsec.isSome) ∧
      ∃ other ∈ h.accepted, other.hz stray = msg.hz stray ∧ other.actualhz.isSome := by
    intro msg hmsg
    have hentry := hitems _ (hcons.mem_hzToWallmonMessages.mpr ⟨⟨msg, hmsg, rfl⟩, rfl⟩)
    exact ⟨(filterMap_filter_ne_nil _ _).mp hentry.2.1, (filterMap_filter_ne_nil _ _).mp hentry.2.2⟩
  refine ⟨fun hnil => ?_, fun target htarget msg hmsg => ?_, fun msg hmsg => (hfield msg hmsg).2,
    fun msg hmsg => (hfield msg hmsg).1, hconn⟩
  · -- the start column would be empty, but there is a message
    obtain ⟨msg, hmsg, -⟩ := hconn
    have hempty : h.hzVector = [] := by
      rw [hzVector, hcons.procNameToHz_eq, hnil]
      rfl
    rw [hempty, List.length_nil] at hcard
    have hmem : msg.hz stray ∈ h.hzOfMessages stray := mem_hzOfMessages.mpr ⟨msg, hmsg, rfl⟩
    rw [Finset.card_eq_zero.mp hcard.symm] at hmem
    exact absurd hmem (Finset.notMem_empty _)
  · obtain ⟨item, hitem, hname⟩ := hcons.exists_entry htarget
    obtain ⟨hsize, -⟩ := processFiles_saveable.mp (hprocesses item hitem)
    obtain ⟨-, hentry, -⟩ := hcons.procNameToHz_entry hitem
    have heq : h.hzOfName stray item.1 = h.hzOfMessages stray :=
      Finset.eq_of_subset_of_card_le (hcons.hzOfName_subset item.1) (by omega)
    have hmem : msg.hz stray ∈ h.hzOfName stray item.1 := by
      rw [heq]
      exact mem_hzOfMessages.mpr ⟨msg, hmsg, rfl⟩
    rw [← hname]
    exact mem_hzOfName.mp hmem

/-- If everything is complete, every name has all frequencies, -/
theorem Complete.hzOfName_eq (hcons : Consistent stray totalNumSamples h)
    (hcomplete : Complete stray h) {target : WallmonMessage × ProcessMessage}
    (htarget : target ∈ h.targets) :
    h.hzOfName stray target.2.processname = h.hzOfMessages stray := by
  refine (hcons.hzOfName_subset _).antisymm fun hz hmem => ?_
  obtain ⟨msg, hmsg, rfl⟩ := mem_hzOfMessages.mp hmem
  exact mem_hzOfName.mpr (hcomplete.names target htarget msg hmsg)

/-- so has an entry of a name, -/
theorem Complete.entry_size (hcons : Consistent stray totalNumSamples h)
    (hcomplete : Complete stray h) {item : String × TreeMap ℤ (List ProcessMessage) compare}
    (hitem : item ∈ h.procNameToHz.toList) : item.2.size = (h.hzOfMessages stray).card := by
  obtain ⟨⟨target, htarget, hname⟩, hsize, -⟩ := hcons.procNameToHz_entry hitem
  rw [hsize, ← hname, hcomplete.hzOfName_eq hcons htarget]

/-- and the start column has an entry for each. -/
theorem Complete.hzVector_length (hcons : Consistent stray totalNumSamples h)
    (hcomplete : Complete stray h) : h.hzVector.length = (h.hzOfMessages stray).card := by
  refine Handler.hzVector_length (fun hnil => ?_) fun item => hcomplete.entry_size hcons
  obtain ⟨first, hfirst⟩ := List.exists_mem_of_ne_nil _ hcomplete.targets
  obtain ⟨item, hitem, -⟩ := hcons.exists_entry hfirst
  rw [hnil] at hitem
  exact absurd hitem List.not_mem_nil

/-- Processes of interest have all frequencies together, too. -/
theorem Complete.hzToSeqNum_size (hcons : Consistent stray totalNumSamples h)
    (hcomplete : Complete stray h) : h.hzToSeqNum.size = (h.hzOfMessages stray).card := by
  have hall : (h.targets.map fun target => target.1.hz stray).toFinset =
      h.hzOfMessages stray := by
    refine Finset.Subset.antisymm (fun hz hmem => ?_) fun hz hmem => ?_
    · obtain ⟨target, htarget, rfl⟩ := List.mem_map.mp (List.mem_toFinset.mp hmem)
      exact mem_hzOfMessages.mpr ⟨_, (hcons.targets_accepted target htarget).2, rfl⟩
    · obtain ⟨first, hfirst⟩ := List.exists_mem_of_ne_nil _ hcomplete.targets
      rw [← hcomplete.hzOfName_eq hcons hfirst] at hmem
      obtain ⟨target, htarget, -, rfl⟩ := mem_hzOfName.mp hmem
      exact List.mem_toFinset.mpr (List.mem_map_of_mem htarget)
  rw [hcons.hzToSeqNum_eq, seqNums, size_group2, hall]

/-- And where everything is complete it goes through. -/
theorem Complete.savingLaw (hcons : Consistent stray totalNumSamples h)
    (hcomplete : Complete stray h) : h.SavingLaw := by
  have hlength := hcomplete.hzVector_length hcons
  refine savingLaw_iff_parts.mpr ⟨fun item hitem => ?_, ?_, ?_, hcons.networkReceive_nonempty,
    hcons.connections_iff.mpr hcomplete.connections⟩
  · refine processFiles_saveable.mpr ⟨by rw [hlength, hcomplete.entry_size hcons hitem], ?_⟩
    exact (hcons.procNameToHz_entry hitem).2.2
  · refine messageFiles_saveable.mpr ⟨?_, fun item hitem => ?_⟩
    · rw [hlength, hcons.hzToWallmonMessages_eq, size_group]
      rfl
    · obtain ⟨⟨msg, hmsg, hhz⟩, hmsgs⟩ := hcons.mem_hzToWallmonMessages.mp hitem
      rw [hmsgs]
      refine ⟨?_, (filterMap_filter_ne_nil _ _).mpr ?_, (filterMap_filter_ne_nil _ _).mpr ?_⟩
      · exact List.ne_nil_of_mem (List.mem_filter.mpr ⟨hmsg, decide_eq_true hhz⟩)
      · rw [← hhz]
        exact hcomplete.handlerDuration msg hmsg
      · rw [← hhz]
        exact hcomplete.actualhz msg hmsg
  · refine seqNumFiles_saveable.mpr ⟨hlength.trans (hcomplete.hzToSeqNum_size hcons).symm,
      fun item hitem => ?_⟩
    rw [hcons.hzToSeqNum_eq, seqNums] at hitem
    obtain ⟨⟨target, htarget, hhz⟩, hgroups⟩ := mem_toList_group2.mp hitem
    rw [hgroups]
    refine List.ne_nil_of_mem (mem_toList_group.mpr ⟨⟨target, ?_, rfl⟩, rfl⟩)
    exact List.mem_filter.mpr ⟨htarget, decide_eq_true hhz⟩

/-! ## What was taken -/

/-- The processes of interest of messages. -/
def targetsOf (msgs : List WallmonMessage) : List (WallmonMessage × ProcessMessage) :=
  msgs.flatMap fun msg => ((msg.data.getD []).filter fun procMsg =>
    isTargetProcess procMsg.processname).map fun procMsg => (msg, procMsg)

/-- Processes are gone through from the first on, and all of them, unless the program ends. -/
theorem goThrough_targets (hz : UInt32) (msg : WallmonMessage) (h : Handler)
    (processMessages : List ProcessMessage) :
    ∃ taken, (goThrough hz msg h processMessages).targets = h.targets ++ taken ∧
      taken <+: (processMessages.filter fun procMsg => isTargetProcess procMsg.processname).map
        (fun procMsg => (msg, procMsg)) ∧
      ((goThrough hz msg h processMessages).status = .running →
        taken = (processMessages.filter fun procMsg => isTargetProcess procMsg.processname).map
          fun procMsg => (msg, procMsg)) := by
  induction processMessages generalizing h with
  | nil => exact ⟨[], (List.append_nil _).symm, List.nil_prefix, fun _ => rfl⟩
  | cons procMsg rest ih =>
    rw [goThrough]
    by_cases htarget : isTargetProcess procMsg.processname = true
    · rw [if_pos htarget, List.filter_cons_of_pos (by simpa using htarget), List.map_cons]
      have hrecorded : (h.recordProcess hz msg procMsg).targets = h.targets ++ [(msg, procMsg)] :=
        rfl
      dsimp only
      split
      · refine ⟨[(msg, procMsg)], hrecorded, ?_, fun hrunning => by cases hrunning⟩
        exact List.cons_prefix_cons.mpr ⟨rfl, List.nil_prefix⟩
      · obtain ⟨taken, htargets, htaken, hall⟩ := ih (h.recordProcess hz msg procMsg)
        refine ⟨(msg, procMsg) :: taken, ?_, List.cons_prefix_cons.mpr ⟨rfl, htaken⟩,
          fun hrunning => congrArg _ (hall hrunning)⟩
        rw [htargets, hrecorded, List.append_assoc, List.singleton_append]
    · rw [if_neg htarget, List.filter_cons_of_neg (by simpa using htarget)]
      exact ih h

theorem targetsOf_append_singleton (msgs : List WallmonMessage) {msg : WallmonMessage}
    {processMessages : List ProcessMessage} (hdata : msg.data = some processMessages) :
    targetsOf (msgs ++ [msg]) = targetsOf msgs ++
      (processMessages.filter fun procMsg => isTargetProcess procMsg.processname).map
        fun procMsg => (msg, procMsg) := by
  rw [targetsOf, targetsOf, List.flatMap_append, List.flatMap_singleton, hdata, Option.getD_some]

/-- **While the program runs, all messages are taken** with all their processes of interest, if
more than one is expected of a host. -/
theorem taken_of_running (stray : Float → UInt32) (hmore : 1 < totalNumSamples)
    {msgs : List WallmonMessage} (hrunning : (run stray totalNumSamples msgs).status = .running) :
    (run stray totalNumSamples msgs).accepted = msgs ∧
      (run stray totalNumSamples msgs).targets = targetsOf msgs := by
  induction msgs using List.reverseRecOn with
  | nil => exact ⟨rfl, rfl⟩
  | append_singleton msgs msg ih =>
    rw [run, List.foldl_append, List.foldl_cons, List.foldl_nil, ← run] at hrunning ⊢
    have hcons : Consistent stray totalNumSamples (run stray totalNumSamples msgs) :=
      consistent_run msgs
    have hcase := handled hcons msg
    generalize (run stray totalNumSamples msgs).handle stray msg = next at hrunning hcase ⊢
    cases hcase with
    | ended hended => exact absurd hrunning hended
    | unparsed _ _ => cases hrunning
    | discarded _ _ htotal => omega
    | overflow _ _ _ _ => cases hrunning
    | @accepted ready processMessages hbefore hdata _ _ hready =>
      obtain ⟨haccepted, htargets⟩ := ih hbefore
      obtain ⟨taken, htaken, -, hall⟩ :=
        goThrough_targets (msg.hz stray) msg ready processMessages
      refine ⟨?_, ?_⟩
      · rw [(goThrough_frame _ _ _).2.1, hready.accepted, haccepted]
      · rw [htaken, hall hrunning, hready.targets, htargets, targetsOf_append_singleton _ hdata]

/-- **What is taken comes first** among the messages and their processes of interest, also when
the program has ended, perhaps in the middle of a message. -/
theorem taken_isPrefix (stray : Float → UInt32) (totalNumSamples : ℤ)
    (msgs : List WallmonMessage) :
    (run stray totalNumSamples msgs).accepted <+: msgs ∧
      (run stray totalNumSamples msgs).targets <+: targetsOf msgs := by
  induction msgs using List.reverseRecOn with
  | nil => exact ⟨List.nil_prefix, List.nil_prefix⟩
  | append_singleton msgs msg ih =>
    have hlater : targetsOf msgs <+: targetsOf (msgs ++ [msg]) := by
      rw [targetsOf, targetsOf, List.flatMap_append]
      exact List.prefix_append _ _
    have hsame := And.intro (ih.1.trans (List.prefix_append msgs [msg])) (ih.2.trans hlater)
    rw [run, List.foldl_append, List.foldl_cons, List.foldl_nil, ← run]
    have hcons : Consistent stray totalNumSamples (run stray totalNumSamples msgs) :=
      consistent_run msgs
    have hcase := handled hcons msg
    generalize hnext : (run stray totalNumSamples msgs).handle stray msg = next at hcase ⊢
    cases hcase with
    | ended _ => exact hsame
    | unparsed _ _ => exact hsame
    | overflow _ _ _ _ => exact hsame
    | discarded _ _ _ =>
      obtain ⟨_, _, _, _, hframe⟩ := counted_frame (run stray totalNumSamples msgs) msg
      rw [hframe]
      exact hsame
    | @accepted ready processMessages hbefore hdata hmore _ hready =>
      obtain ⟨haccepted, htargets⟩ := taken_of_running stray hmore hbefore
      obtain ⟨taken, htaken, hfirst, -⟩ :=
        goThrough_targets (msg.hz stray) msg ready processMessages
      rw [(goThrough_frame _ _ _).2.1, hready.accepted, haccepted, htaken, hready.targets, htargets,
        targetsOf_append_singleton _ hdata]
      exact ⟨List.prefix_refl _, (List.prefix_append_right_inj _).mpr hfirst⟩

/-- **When saving goes through**: after every run exactly if there is a process of interest,
every frequency is there for every name, each of them with a message that tells the measured
frequency and one that tells how long its handler took, and a message tells the connections.
The messages and processes that this is about are the first that came. -/
theorem savingLaw_iff (stray : Float → UInt32) (totalNumSamples : ℤ) (msgs : List WallmonMessage) :
    ((run stray totalNumSamples msgs).SavingLaw ↔
        Complete stray (run stray totalNumSamples msgs)) ∧
      (run stray totalNumSamples msgs).accepted <+: msgs ∧
      (run stray totalNumSamples msgs).targets <+: targetsOf msgs :=
  ⟨⟨fun hlaw => hlaw.complete (consistent_run msgs),
    fun hcomplete => hcomplete.savingLaw (consistent_run msgs)⟩,
    taken_isPrefix stray totalNumSamples msgs⟩

end Handler

/-- A process of interest, and a message that brings some. -/
def processNamed (processname : String) : ProcessMessage where
  processname
  usercpuutilization := 1
  systemcpuutilization := 1
  memorybytes := 1048576

/-- A message with all fields, and with processes of interest. -/
def completeMessage (samplefrequencymsec : Float) (names : List String) : WallmonMessage :=
  { messageFrom "tile-0-0" with
    data := some (names.map processNamed)
    samplefrequencymsec
    actualhz := some 1
    daemonnumserverconnections := some 1
    previoushandlerexecutiontimemsec := some 1 }

/-- The quotient is rounded before it is cut off: the interval of 7 Hz is kept under 7. -/
example : (completeMessage (1000 / 7) []).hz (fun _ => 0) = 7 := by decide +kernel

/-- The handler after a message at 1 Hz with both processes, and one at 2 Hz with some. -/
def afterTwo (names : List String) : Handler :=
  .run (fun _ => 0) 1260 [completeMessage 1000 targetProcesses, completeMessage 500 names]

/-- With both processes at both frequencies, saving goes through. -/
example : (afterTwo targetProcesses).saveWallmonSamplingRateData.toOption.isSome := by
  decide +kernel

/-- Without the daemon at 2 Hz its frequencies, of which there is one, are the start column of
files with two samples; and without the measured frequency a sample is empty. -/
theorem save_aborts :
    (afterTwo ["wallmons"]).saveWallmonSamplingRateData = .error .assertion ∧
      ¬(afterTwo ["wallmons"]).SavingLaw ∧
    (Handler.run (fun _ => 0) 1260 [{ completeMessage 1000 targetProcesses with
        actualhz := none }]).saveWallmonSamplingRateData = .error .outOfBounds := by
  refine ⟨by decide +kernel, fun hlaw => ?_, by decide +kernel⟩
  obtain ⟨hlength, -⟩ := Handler.messageFiles_saveable.mp (Handler.savingLaw_iff_parts.mp hlaw).2.1
  exact absurd hlength (by decide +kernel)

end Gnuplot

end WallMon
