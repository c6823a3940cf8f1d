import Mathlib.Algebra.Order.BigOperators.Group.List
import WallMon.LinuxProcessMonitorLight

/-!
# What the messages say of a process's I/O

Each tick of the collector puts the bytes of the last interval into the message of a
process. The counters are of 64 bits, and so are their differences, but the fields are of 32
bits: an interval in which a counter grows by more is reported modulo 2^32. The fields add
up to what the counters have grown by exactly if no interval is like that
(`conserved_iff_fits`).
-/

namespace WallMon

/-- `io` of a process: the counters that are scanned, and one more. -/
structure IoFile where
  /-- `rchar` to `write_bytes` -/
  counters : LinuxProcessMonitorLight.IoMembers
  /-- `cancelled_write_bytes` -/
  cancelledWriteBytes : UInt64

namespace IoFile

open Scan (Field)

/-- The characters of a label. -/
def label (s : String) : List UInt8 := s.toList.map fun c => UInt8.ofNat c.toNat

/-- A line of the file. -/
def line (name : String) (n : UInt64) : List UInt8 :=
  label name ++ [32] ++ Scan.intText n.toNat ++ [10]

/-- The file, in the kernel's format. -/
def bytes (file : IoFile) : List UInt8 :=
  line "rchar:" file.counters.rchar ++ line "wchar:" file.counters.wchar ++
    line "syscr:" file.counters.syscr ++ line "syscw:" file.counters.syscw ++
    line "read_bytes:" file.counters.readBytes ++ line "write_bytes:" file.counters.writeBytes ++
    line "cancelled_write_bytes:" file.cancelledWriteBytes

/-- A word is a label if it can be scanned as one string. -/
def IsLabel (name : String) : Prop :=
  label name ≠ [] ∧ ∀ b ∈ label name, Scan.isSpace b = false ∧ b ≠ 0

instance (name : String) : Decidable (IsLabel name) :=
  have := List.decidableBAll (fun b => Scan.isSpace b = false ∧ b ≠ 0) (label name)
  inferInstanceAs (Decidable (_ ∧ _))

/-- A label with the space after it. -/
def labelField (name : String) (h : IsLabel name) : Field where
  text := label name
  gap := [32]
  conversion := .string
  assign := false
  value := .string (label name)
  reads := Scan.reads_string h.1 fun b hb => (h.2 b hb).1
  gap_ne_nil := Scan.space_ne_nil
  gap_space := Scan.isSpace_space

/-- A counter with the newline after it. -/
def counterField (n : UInt64) : Field where
  text := Scan.intText n.toNat
  gap := [10]
  conversion := .decimal
  assign := true
  value := .int n.toNat
  reads := Scan.reads_intText n.toNat
  gap_ne_nil := List.cons_ne_nil _ _
  gap_space := List.forall_mem_singleton.mpr rfl

/-- The fields of a line. -/
def lineFields (name : String) (h : IsLabel name) (n : UInt64) : List Field :=
  [labelField name h, counterField n]

/-- The fields of the file that are scanned. -/
def fields (file : IoFile) : List Field :=
  lineFields "rchar:" (by decide) file.counters.rchar ++
    lineFields "wchar:" (by decide) file.counters.wchar ++
    lineFields "syscr:" (by decide) file.counters.syscr ++
    lineFields "syscw:" (by decide) file.counters.syscw ++
    lineFields "read_bytes:" (by decide) file.counters.readBytes ++
    lineFields "write_bytes:" (by decide) file.counters.writeBytes

theorem bytes_lineFields {name : String} (h : IsLabel name) (n : UInt64) :
    (lineFields name h n).flatMap Field.bytes = line name n := by
  simp [lineFields, Field.bytes, labelField, counterField, line]

theorem bytes_eq (file : IoFile) :
    file.bytes = file.fields.flatMap Field.bytes ++
      line "cancelled_write_bytes:" file.cancelledWriteBytes := by
  simp only [fields, List.flatMap_append, bytes_lineFields, bytes]

theorem zero_notMem_line {name : String} (h : IsLabel name) (n : UInt64) : 0 ∉ line name n := by
  have hlabel : 0 ∉ label name := fun hmem => (h.2 0 hmem).2 rfl
  simp [line, hlabel, Scan.zero_notMem_intText]

theorem zero_notMem_fields (file : IoFile) : 0 ∉ file.fields.flatMap Field.bytes := by
  simp only [fields, List.flatMap_append, bytes_lineFields, List.mem_append, not_or]
  refine ⟨⟨⟨⟨⟨?_, ?_⟩, ?_⟩, ?_⟩, ?_⟩, ?_⟩ <;> exact zero_notMem_line (by decide) _

theorem length_line_le (name : String) (n : UInt64) :
    (line name n).length ≤ (label name).length + 22 := by
  have hlt := n.toNat_lt
  have htext : (Scan.intText n.toNat).length ≤ 20 := by
    rw [Scan.intText, if_neg (by omega), Int.natAbs_natCast]
    exact Scan.length_natText (by decide) (by omega)
  simp only [line, List.length_append, List.length_cons, List.length_nil]
  omega

/-- The file fits into the buffer. -/
theorem length_bytes_le (file : IoFile) : file.bytes.length ≤ 300 := by
  have hlines : ∀ name k, (label name).length = k → ∀ n, (line name n).length ≤ k + 22 := by
    rintro name k rfl n
    exact length_line_le name n
  have hrchar := hlines "rchar:" 6 (by decide) file.counters.rchar
  have hwchar := hlines "wchar:" 6 (by decide) file.counters.wchar
  have hsyscr := hlines "syscr:" 6 (by decide) file.counters.syscr
  have hsyscw := hlines "syscw:" 6 (by decide) file.counters.syscw
  have hread := hlines "read_bytes:" 11 (by decide) file.counters.readBytes
  have hwrite := hlines "write_bytes:" 12 (by decide) file.counters.writeBytes
  have hcancelled := hlines "cancelled_write_bytes:" 22 (by decide) file.cancelledWriteBytes
  simp only [bytes, List.length_append]
  omega

/-- The format asks for the fields of the file. -/
theorem ioFormat_fields (file : IoFile) :
    Scan.directives LinuxProcessMonitorLight.ioFormat.toList ++ [.space] =
      file.fields.flatMap Field.format := by
  calc Scan.directives LinuxProcessMonitorLight.ioFormat.toList ++ [.space]
      = (List.replicate 6 [.convert .string false, .space, .convert .decimal true, .space]).flatten
        := by decide +kernel
    _ = file.fields.flatMap Field.format := rfl

/-- **The counters are read back**, whatever the buffer had before. -/
theorem readFile_io (file : IoFile) (buf : List UInt8)
    (io : LinuxProcessMonitorLight.IoMembers) :
    (LinuxProcessMonitorLight.readFile LinuxProcessMonitorLight.ioFormat
      LinuxProcessMonitorLight.ioTargets buf io (.content file.bytes)).2 =
        (file.counters, true) := by
  have hlength := file.length_bytes_le
  rw [bytes_eq] at hlength ⊢
  rw [LinuxProcessMonitorLight.readFile_fields (ioFormat_fields file) file.zero_notMem_fields
    hlength]
  have hstored : Scan.store LinuxProcessMonitorLight.ioTargets
      (file.fields.filterMap Field.assigned) io =
        { rchar := UInt64.ofInt file.counters.rchar.toNat
          wchar := UInt64.ofInt file.counters.wchar.toNat
          syscr := UInt64.ofInt file.counters.syscr.toNat
          syscw := UInt64.ofInt file.counters.syscw.toNat
          readBytes := UInt64.ofInt file.counters.readBytes.toNat
          writeBytes := UInt64.ofInt file.counters.writeBytes.toNat } := rfl
  simp only [hstored, LinuxProcessMonitorLight.ofInt_toNat]

end IoFile

/-! ## Sums of differences -/

/-- The intervals between the elements of a list. -/
def intervals {α : Type} : α → List α → List (α × α)
  | _, [] => []
  | a, b :: l => (a, b) :: intervals b l

/-- A counter's growth in an interval. -/
def growth {α : Type} (counter : α → UInt64) (i : α × α) : ℕ :=
  (counter i.2).toNat - (counter i.1).toNat

section Sums

variable {α : Type} {counter : α → UInt64} {a : α} {l : List α}

/-- What holds of neighbours holds of the ends of an interval. -/
theorem rel_of_mem_intervals {R : α → α → Prop} (h : (a :: l).IsChain R)
    {i : α × α} (hi : i ∈ intervals a l) : R i.1 i.2 := by
  induction l generalizing a with
  | nil => cases hi
  | cons b l ih =>
    obtain ⟨hle, hrest⟩ := List.isChain_cons_cons.mp h
    rcases List.mem_cons.mp hi with rfl | hlater
    · exact hle
    · exact ih hrest hlater

/-- The growth of all intervals is that from the first element to the last. -/
theorem sum_growth (h : (a :: l).IsChain fun x y => counter x ≤ counter y) :
    counter a ≤ counter (l.getLastD a) ∧ ((intervals a l).map (growth counter)).sum =
      (counter (l.getLastD a)).toNat - (counter a).toNat := by
  induction l generalizing a with
  | nil => exact ⟨UInt64.le_refl _, by simp [intervals]⟩
  | cons b l ih =>
    obtain ⟨hle, hrest⟩ := List.isChain_cons_cons.mp h
    obtain ⟨hlast, hsum⟩ := ih hrest
    rw [List.getLastD_cons]
    refine ⟨UInt64.le_trans hle hlast, ?_⟩
    rw [intervals, List.map_cons, List.sum_cons, hsum, growth]
    rw [UInt64.le_iff_toNat_le] at hle hlast
    dsimp only
    omega

/-- Remainders add up to the same as the numbers do only if they are the numbers. -/
theorem sum_mod_eq_iff {n : ℕ} (hn : 0 < n) (l : List ℕ) :
    (l.map (· % n)).sum = l.sum ↔ ∀ x ∈ l, x < n := by
  induction l with
  | nil => simp
  | cons x l ih =>
    have hle : (l.map (· % n)).sum ≤ l.sum := by
      simpa using List.sum_le_sum (l := l) fun y _ => Nat.mod_le y n
    have hx := Nat.mod_le x n
    rw [List.map_cons, List.sum_cons, List.sum_cons, List.forall_mem_cons, ← ih]
    refine ⟨fun heq => ?_, ?_⟩
    · have hmod : x % n = x := by omega
      exact ⟨hmod ▸ Nat.mod_lt x hn, by omega⟩
    · rintro ⟨hlt, heq⟩
      rw [Nat.mod_eq_of_lt hlt, heq]

end Sums

/-! ## Messages -/

/-- Which of these fields the `filter` has. -/
structure IoFilter where
  /-- `has_ioinbytes` -/
  ioInBytes : Bool
  /-- `has_iooutbytes` -/
  ioOutBytes : Bool
  /-- `has_networkinbytes` -/
  networkInBytes : Bool
  /-- `has_networkoutbytes` -/
  networkOutBytes : Bool
  /-- `has_storageinbytes` -/
  storageInBytes : Bool
  /-- `has_storageoutbytes` -/
  storageOutBytes : Bool

/-- These fields of a `ProcessMessage`. -/
structure IoFields where
  /-- `ioInBytes` -/
  ioInBytes : Option UInt32
  /-- `ioOutBytes` -/
  ioOutBytes : Option UInt32
  /-- `networkInBytes` -/
  networkInBytes : Option UInt32
  /-- `networkOutBytes` -/
  networkOutBytes : Option UInt32
  /-- `storageInBytes` -/
  storageInBytes : Option UInt32
  /-- `storageOutBytes` -/
  storageOutBytes : Option UInt32
  deriving DecidableEq

/-- A setter of a `uint32` field that is given an `unsigned long`. -/
def setUInt32 (has : Bool) (value : UInt64) : Option UInt32 :=
  if has then some value.toUInt32 else none

/-- What `Sample` puts into these fields. -/
def ioFields (filter : IoFilter) (m : LinuxProcessMonitorLight.Members) : IoFields where
  ioInBytes := setUInt32 filter.ioInBytes m.getTotalIoInBytes
  ioOutBytes := setUInt32 filter.ioOutBytes m.getTotalIoOutBytes
  networkInBytes := setUInt32 filter.networkInBytes m.getNetworkInBytes
  networkOutBytes := setUInt32 filter.networkOutBytes m.getNetworkOutBytes
  storageInBytes := setUInt32 filter.storageInBytes m.getStorageInBytes
  storageOutBytes := setUInt32 filter.storageOutBytes m.getStorageOutBytes

/-- A tick whose `Update` succeeds: `io` has some counters, and the other files are read or
not open. -/
structure Tick where
  /-- `_procstat` -/
  stat : FileRead
  /-- `_procstatm` -/
  statm : FileRead
  /-- `_procio` -/
  io : IoFile
  /-- `stat` does not fail -/
  stat_succeeds : stat.Succeeds
  /-- `statm` does not fail -/
  statm_succeeds : statm.Succeeds

namespace Tick

/-- The files of a tick. -/
def files (tick : Tick) : ProcFiles := ⟨tick.stat, tick.statm, .content tick.io.bytes⟩

/-- The counters that a tick reads. -/
def counters (tick : Tick) : LinuxProcessMonitorLight.IoMembers := tick.io.counters

/-- `_AddProcess`: a new monitor and its first `Update`. -/
def addProcess (raw : LinuxProcessMonitorLight.Members) (first : Tick) :
    LinuxProcessMonitorLight.Members :=
  (LinuxProcessMonitorLight.Members.update (.new raw) first.files).1

/-- The messages of a process in a run of ticks. -/
def sample (filter : IoFilter) : LinuxProcessMonitorLight.Members → List Tick → List IoFields
  | _, [] => []
  | m, tick :: ticks =>
    let m := (m.update tick.files).1
    ioFields filter m :: sample filter m ticks

/-- A tick reads its counters, and keeps those before. -/
theorem update_files (m : LinuxProcessMonitorLight.Members) (tick : Tick) :
    (m.update tick.files).1.io = tick.counters ∧ (m.update tick.files).1.prevIo = m.io := by
  obtain ⟨hio, hprev⟩ := LinuxProcessMonitorLight.Members.update_of_succeeds m tick.files
    tick.stat_succeeds tick.statm_succeeds
  refine ⟨hio.trans ?_, hprev⟩
  rw [files, IoFile.readFile_io]
  rfl

/-- The messages of a process are about the intervals between its ticks. -/
theorem sample_eq (filter : IoFilter) (m : LinuxProcessMonitorLight.Members)
    (ticks : List Tick) :
    sample filter m ticks = (intervals m.io (ticks.map counters)).map fun i =>
      ioFields filter { m with prevIo := i.1, io := i.2 } := by
  induction ticks generalizing m with
  | nil => rfl
  | cons tick ticks ih =>
    obtain ⟨hio, hprev⟩ := update_files m tick
    rw [sample, ih, hio]
    refine congrArg (· :: _) ?_
    rw [← hio, ← hprev]
    rfl

end Tick

/-- What the messages have of a field, in total. -/
def total (field : IoFields → Option UInt32) (msgs : List IoFields) : ℕ :=
  (msgs.map fun msg => ((field msg).map UInt32.toNat).getD 0).sum

/-- No counter decreases. -/
structure Grows (a b : LinuxProcessMonitorLight.IoMembers) : Prop where
  /-- bytes read -/
  rchar : a.rchar ≤ b.rchar
  /-- bytes written -/
  wchar : a.wchar ≤ b.wchar
  /-- bytes read from storage -/
  readBytes : a.readBytes ≤ b.readBytes
  /-- bytes written to storage -/
  writeBytes : a.writeBytes ≤ b.writeBytes

/-- **No byte is lost**: the fields that the filter has add up to what the counters have grown
by since the monitor was added, and the network has what is not from storage. -/
structure Conserved (filter : IoFilter) (added : LinuxProcessMonitorLight.IoMembers)
    (read : List LinuxProcessMonitorLight.IoMembers) (msgs : List IoFields) : Prop where
  /-- bytes read -/
  ioIn : filter.ioInBytes = true →
    total (·.ioInBytes) msgs = (read.getLastD added).rchar.toNat - added.rchar.toNat
  /-- bytes written -/
  ioOut : filter.ioOutBytes = true →
    total (·.ioOutBytes) msgs = (read.getLastD added).wchar.toNat - added.wchar.toNat
  /-- bytes read from storage -/
  storageIn : filter.storageInBytes = true →
    total (·.storageInBytes) msgs =
      (read.getLastD added).readBytes.toNat - added.readBytes.toNat
  /-- bytes written to storage -/
  storageOut : filter.storageOutBytes = true →
    total (·.storageOutBytes) msgs =
      (read.getLastD added).writeBytes.toNat - added.writeBytes.toNat
  /-- bytes read from the network, in each interval -/
  networkIn : filter.networkInBytes = true →
    msgs.map (fun msg => msg.networkInBytes.map fun bytes => (bytes.toNat : ℤ)) =
      (intervals added read).map fun i =>
        some (max 0 ((growth (·.rchar) i : ℤ) - growth (·.readBytes) i))

/-- **An interval fits** into the fields that the filter has. -/
structure IntervalFits (filter : IoFilter)
    (i : LinuxProcessMonitorLight.IoMembers × LinuxProcessMonitorLight.IoMembers) : Prop where
  /-- bytes read -/
  ioIn : filter.ioInBytes = true → growth (·.rchar) i < 2 ^ 32
  /-- bytes written -/
  ioOut : filter.ioOutBytes = true → growth (·.wchar) i < 2 ^ 32
  /-- bytes read from storage -/
  storageIn : filter.storageInBytes = true → growth (·.readBytes) i < 2 ^ 32
  /-- bytes written to storage -/
  storageOut : filter.storageOutBytes = true → growth (·.writeBytes) i < 2 ^ 32
  /-- bytes read from the network -/
  networkIn : filter.networkInBytes = true →
    growth (·.rchar) i - growth (·.readBytes) i < 2 ^ 32

/-- **The fields add up** if every interval fits, and only then. -/
theorem total_eq_iff (filter : IoFilter) {m : LinuxProcessMonitorLight.Members}
    {ticks : List Tick} (counter : LinuxProcessMonitorLight.IoMembers → UInt64)
    (field : IoFields → Option UInt32)
    (hfield : ∀ m : LinuxProcessMonitorLight.Members, field (ioFields filter m) =
      some (counter m.io - counter m.prevIo).toUInt32)
    (hgrows : (m.io :: ticks.map Tick.counters).IsChain fun x y => counter x ≤ counter y) :
    total field (Tick.sample filter m ticks) =
        (counter ((ticks.map Tick.counters).getLastD m.io)).toNat - (counter m.io).toNat ↔
      ∀ i ∈ intervals m.io (ticks.map Tick.counters), growth counter i < 2 ^ 32 := by
  have htotal : total field (Tick.sample filter m ticks) =
      (((intervals m.io (ticks.map Tick.counters)).map (growth counter)).map (· % 2 ^ 32)).sum := by
    rw [List.map_map, total, Tick.sample_eq, List.map_map]
    congr 1
    refine List.map_congr_left fun i hi => ?_
    have hle := rel_of_mem_intervals hgrows hi
    rw [Function.comp_apply, hfield, Option.map_some, Option.getD_some, UInt64.toNat_toUInt32,
      UInt64.toNat_sub_of_le _ _ hle]
    rfl
  rw [htotal, ← (sum_growth hgrows).2, sum_mod_eq_iff (by decide), List.forall_mem_map]

/-- What is not from storage is from the network. -/
theorem getNetworkInBytes_eq {m : LinuxProcessMonitorLight.Members} (h : Grows m.prevIo m.io) :
    m.getNetworkInBytes.toNat =
      growth (·.rchar) (m.prevIo, m.io) - growth (·.readBytes) (m.prevIo, m.io) := by
  have hio : m.getTotalIoInBytes.toNat = growth (·.rchar) (m.prevIo, m.io) :=
    UInt64.toNat_sub_of_le _ _ h.rchar
  have hstorage : m.getStorageInBytes.toNat = growth (·.readBytes) (m.prevIo, m.io) :=
    UInt64.toNat_sub_of_le _ _ h.readBytes
  rw [← hio, ← hstorage, LinuxProcessMonitorLight.Members.getNetworkInBytes]
  split
  · next hlt =>
    rw [gt_iff_lt, UInt64.lt_iff_toNat_lt] at hlt
    simp only [UInt64.toNat_zero]
    omega
  · next hle =>
    exact UInt64.toNat_sub_of_le _ _ (UInt64.not_lt.mp hle)

/-- **The network's field** is right in every message if every interval fits, and only then. -/
theorem networkIn_iff {filter : IoFilter} (hhas : filter.networkInBytes = true)
    {m : LinuxProcessMonitorLight.Members} {ticks : List Tick}
    (hgrows : (m.io :: ticks.map Tick.counters).IsChain Grows) :
    (Tick.sample filter m ticks).map
        (fun msg => msg.networkInBytes.map fun bytes => (bytes.toNat : ℤ)) =
      (intervals m.io (ticks.map Tick.counters)).map (fun i =>
        some (max 0 ((growth (·.rchar) i : ℤ) - growth (·.readBytes) i))) ↔
      ∀ i ∈ intervals m.io (ticks.map Tick.counters),
        growth (·.rchar) i - growth (·.readBytes) i < 2 ^ 32 := by
  rw [Tick.sample_eq, List.map_map, List.map_inj_left]
  refine forall₂_congr fun i hi => ?_
  have hvalue : ({ m with prevIo := i.1, io := i.2 } :
      LinuxProcessMonitorLight.Members).getNetworkInBytes.toNat =
        growth (·.rchar) i - growth (·.readBytes) i :=
    getNetworkInBytes_eq (rel_of_mem_intervals hgrows hi)
  simp only [Function.comp_apply, ioFields, setUInt32, hhas, if_true, Option.map_some,
    Option.some.injEq, UInt64.toNat_toUInt32, hvalue]
  omega

/-- **The bytes are conserved** in a run of ticks exactly if every interval fits into the
fields. -/
theorem conserved_iff_fits (filter : IoFilter) (raw : LinuxProcessMonitorLight.Members)
    (first : Tick) (ticks : List Tick)
    (hgrows : (first.counters :: ticks.map Tick.counters).IsChain Grows) :
    Conserved filter first.counters (ticks.map Tick.counters)
        (Tick.sample filter (Tick.addProcess raw first) ticks) ↔
      ∀ i ∈ intervals first.counters (ticks.map Tick.counters), IntervalFits filter i := by
  have hadded : (Tick.addProcess raw first).io = first.counters := (Tick.update_files _ first).1
  rw [← hadded] at hgrows ⊢
  have hchain : ∀ counter : LinuxProcessMonitorLight.IoMembers → UInt64,
      (∀ a b, Grows a b → counter a ≤ counter b) →
      ((Tick.addProcess raw first).io :: ticks.map Tick.counters).IsChain
        fun x y => counter x ≤ counter y := fun counter hle => hgrows.imp hle
  have hset : ∀ {has : Bool} {value : UInt64}, has = true →
      setUInt32 has value = some value.toUInt32 := by
    rintro _ _ rfl
    rfl
  have hioIn := fun hhas : filter.ioInBytes = true => total_eq_iff filter (·.rchar)
    (·.ioInBytes) (fun _ => hset hhas) (hchain _ fun _ _ h => h.rchar)
  have hioOut := fun hhas : filter.ioOutBytes = true => total_eq_iff filter (·.wchar)
    (·.ioOutBytes) (fun _ => hset hhas) (hchain _ fun _ _ h => h.wchar)
  have hstorageIn := fun hhas : filter.storageInBytes = true =>
    total_eq_iff filter (·.readBytes) (·.storageInBytes) (fun _ => hset hhas)
      (hchain _ fun _ _ h => h.readBytes)
  have hstorageOut := fun hhas : filter.storageOutBytes = true =>
    total_eq_iff filter (·.writeBytes) (·.storageOutBytes) (fun _ => hset hhas)
      (hchain _ fun _ _ h => h.writeBytes)
  have hnetworkIn := fun hhas : filter.networkInBytes = true => networkIn_iff hhas hgrows
  refine ⟨fun h i hi => ?_, fun h => ?_⟩
  · exact ⟨fun hhas => (hioIn hhas).mp (h.ioIn hhas) i hi,
      fun hhas => (hioOut hhas).mp (h.ioOut hhas) i hi,
      fun hhas => (hstorageIn hhas).mp (h.storageIn hhas) i hi,
      fun hhas => (hstorageOut hhas).mp (h.storageOut hhas) i hi,
      fun hhas => (hnetworkIn hhas).mp (h.networkIn hhas) i hi⟩
  · exact ⟨fun hhas => (hioIn hhas).mpr fun i hi => (h i hi).ioIn hhas,
      fun hhas => (hioOut hhas).mpr fun i hi => (h i hi).ioOut hhas,
      fun hhas => (hstorageIn hhas).mpr fun i hi => (h i hi).storageIn hhas,
      fun hhas => (hstorageOut hhas).mpr fun i hi => (h i hi).storageOut hhas,
      fun hhas => (hnetworkIn hhas).mpr fun i hi => (h i hi).networkIn hhas⟩

/-- A filter with all of these fields. -/
def allIoFields : IoFilter := ⟨true, true, true, true, true, true⟩

/-- A tick that reads only `io`. -/
def Tick.ofCounters (rchar wchar readBytes writeBytes : UInt64) : Tick where
  stat := .notOpen
  statm := .notOpen
  io := { counters := { rchar, wchar, syscr := 4, syscw := 4, readBytes, writeBytes }
          cancelledWriteBytes := 0 }
  stat_succeeds := trivial
  statm_succeeds := trivial

/-- A monitor as it is before its constructor. -/
def rawMonitor : LinuxProcessMonitorLight.Members where
  stat :=
    { pid := 0, comm := [], minflt := 0, majflt := 0, utime := 0, stime := 0, numThreads := 0 }
  size := 0
  io := { rchar := 7, wchar := 7, syscr := 7, syscw := 7, readBytes := 7, writeBytes := 7 }
  prevIo := { rchar := 7, wchar := 7, syscr := 7, syscw := 7, readBytes := 7, writeBytes := 7 }
  bufStat := []
  bufStatm := []
  bufIo := []

/-- Two intervals, in the second of which there is more from storage than is read. -/
theorem conserved_two_intervals :
    Conserved allIoFields ⟨100, 50, 4, 4, 10, 20⟩
      [⟨4000000100, 60, 4, 4, 2000000010, 20⟩, ⟨4000000200, 60, 4, 4, 2000000310, 30⟩]
      (Tick.sample allIoFields (Tick.addProcess rawMonitor (.ofCounters 100 50 10 20))
        [.ofCounters 4000000100 60 2000000010 20, .ofCounters 4000000200 60 2000000310 30]) := by
  refine (conserved_iff_fits allIoFields rawMonitor (.ofCounters 100 50 10 20)
    [.ofCounters 4000000100 60 2000000010 20, .ofCounters 4000000200 60 2000000310 30] ?_).mpr ?_
  · refine .cons_cons ⟨?_, ?_, ?_, ?_⟩ (.cons_cons ⟨?_, ?_, ?_, ?_⟩ (.singleton _)) <;> decide
  · intro i hi
    rcases List.mem_cons.mp hi with rfl | hi
    · refine ⟨?_, ?_, ?_, ?_, ?_⟩ <;> decide
    · obtain rfl := List.mem_singleton.mp hi
      refine ⟨?_, ?_, ?_, ?_, ?_⟩ <;> decide

/-- A process that reads 4 GiB in one interval has read nothing. -/
theorem not_conserved_four_gib :
    (Tick.sample allIoFields (Tick.addProcess rawMonitor (.ofCounters 100 50 10 20))
      [.ofCounters 4294967396 50 10 20]).map (·.ioInBytes) = [some 0] ∧
    ¬Conserved allIoFields ⟨100, 50, 4, 4, 10, 20⟩ [⟨4294967396, 50, 4, 4, 10, 20⟩]
      (Tick.sample allIoFields (Tick.addProcess rawMonitor (.ofCounters 100 50 10 20))
        [.ofCounters 4294967396 50 10 20]) := by
  refine ⟨by decide +kernel, fun h => ?_⟩
  have htotal := h.ioIn rfl
  exact absurd htotal (by decide +kernel)

end WallMon
