import WallMon.Scan

/-!
# `LinuxProcessMonitorLight`: what is read of a process

`Update` reads up to three files of a process, each into a buffer of its own that is not
cleared in between, and scans the buffers into the data members. The counters of `io` are
kept for one more `Update`, so that the getters have the bytes of the last interval.
-/

namespace WallMon

/-- What `fread` finds of a file. -/
inductive FileRead where
  /-- the file is not open -/
  | notOpen
  /-- reading fails after these bytes -/
  | failed (bytes : List UInt8)
  /-- the file has these bytes -/
  | content (bytes : List UInt8)

/-- The file is not open, or it can be read. -/
def FileRead.Succeeds : FileRead → Prop
  | .failed _ => False
  | _ => True

/-- The files of a process in `/proc`, as one `Update` finds them. -/
structure ProcFiles where
  /-- `_procstat` -/
  stat : FileRead
  /-- `_procstatm` -/
  statm : FileRead
  /-- `_procio` -/
  io : FileRead

namespace LinuxProcessMonitorLight

open Scan (Value Field)

/-! ## Data members -/

/-- The members scanned from `stat`. -/
structure StatMembers where
  /-- `_pid` -/
  pid : Int32
  /-- `_comm`, up to its zero -/
  comm : List UInt8
  /-- `_minflt` -/
  minflt : UInt64
  /-- `_majflt` -/
  majflt : UInt64
  /-- `_utime` -/
  utime : UInt64
  /-- `_stime` -/
  stime : UInt64
  /-- `_numThreads` -/
  numThreads : UInt32
  deriving DecidableEq

/-- The members scanned from `io`. -/
structure IoMembers where
  /-- `_rchar` -/
  rchar : UInt64
  /-- `_wchar` -/
  wchar : UInt64
  /-- `_syscr` -/
  syscr : UInt64
  /-- `_syscw` -/
  syscw : UInt64
  /-- `_read_bytes` -/
  readBytes : UInt64
  /-- `_write_bytes` -/
  writeBytes : UInt64
  deriving DecidableEq

/-- The data members. -/
structure Members where
  /-- `_pid` to `_numThreads` -/
  stat : StatMembers
  /-- `_size` -/
  size : UInt64
  /-- `_rchar` to `_write_bytes` -/
  io : IoMembers
  /-- `_prevRchar` to `_prevWriteBytes` -/
  prevIo : IoMembers
  /-- `_bufStat` -/
  bufStat : List UInt8
  /-- `_bufStatm` -/
  bufStatm : List UInt8
  /-- `_bufIo` -/
  bufIo : List UInt8

/-! ## `Update` -/

/-- `fread` of at most 300 bytes into a buffer of 300 bytes. -/
def fread (buf bytes : List UInt8) : List UInt8 := bytes.take 300 ++ buf.drop bytes.length

/-- The format for `stat`. -/
def statFormat : String :=
  "%d %s %*c %*d %*d %*d %*d %*d %*u %lu %*lu %lu %*lu %lu %lu %*ld %*ld %*ld %*ld %d"

/-- The format for `statm`. -/
def statmFormat : String := "%lu"

/-- The format for `io`. -/
def ioFormat : String := "%*s %lu %*s %lu %*s %lu %*s %lu %*s %lu %*s %lu"

/-- A pointer to a number. -/
def intPointer {τ : Type} (set : ℤ → τ → τ) : Value → τ → τ
  | .int n => set n
  | _ => id

/-- An array of characters. -/
def charArray {τ : Type} (set : List UInt8 → τ → τ) : Value → τ → τ
  | .string bytes => set bytes
  | _ => id

/-- `&_pid, _comm, &_minflt, &_majflt, &_utime, &_stime, &_numThreads` -/
def statTargets : List (Value → StatMembers → StatMembers) :=
  [intPointer fun n m => { m with pid := Int32.ofInt n },
    charArray fun bytes m => { m with comm := bytes },
    intPointer fun n m => { m with minflt := UInt64.ofInt n },
    intPointer fun n m => { m with majflt := UInt64.ofInt n },
    intPointer fun n m => { m with utime := UInt64.ofInt n },
    intPointer fun n m => { m with stime := UInt64.ofInt n },
    intPointer fun n m => { m with numThreads := UInt32.ofInt n }]

/-- `&_size` -/
def statmTargets : List (Value → UInt64 → UInt64) := [intPointer fun n _ => UInt64.ofInt n]

/-- `&_rchar, &_wchar, &_syscr, &_syscw, &_read_bytes, &_write_bytes` -/
def ioTargets : List (Value → IoMembers → IoMembers) :=
  [intPointer fun n m => { m with rchar := UInt64.ofInt n },
    intPointer fun n m => { m with wchar := UInt64.ofInt n },
    intPointer fun n m => { m with syscr := UInt64.ofInt n },
    intPointer fun n m => { m with syscw := UInt64.ofInt n },
    intPointer fun n m => { m with readBytes := UInt64.ofInt n },
    intPointer fun n m => { m with writeBytes := UInt64.ofInt n }]

/-- The part of `Update` for one file: the buffer and the members after it, and whether
`Update` goes on. -/
def readFile {τ : Type} (format : String) (targets : List (Value → τ → τ)) (buf : List UInt8)
    (members : τ) : FileRead → List UInt8 × τ × Bool
  | .notOpen => (buf, members, true)
  | .failed bytes => (fread buf bytes, members, false)
  | .content bytes =>
    let buf := fread buf bytes
    (buf, Scan.store targets (Scan.sscanf buf format) members, true)

namespace Members

/-- `Update` -/
def update (m : Members) (files : ProcFiles) : Members × Bool :=
  let m := { m with prevIo := m.io }
  let (bufStat, stat, ok) := readFile statFormat statTargets m.bufStat m.stat files.stat
  let m := { m with bufStat, stat }
  if ok = false then (m, false)
  else
    let (bufStatm, size, ok) := readFile statmFormat statmTargets m.bufStatm m.size files.statm
    let m := { m with bufStatm, size }
    if ok = false then (m, false)
    else
      let (bufIo, io, ok) := readFile ioFormat ioTargets m.bufIo m.io files.io
      ({ m with bufIo, io }, ok)

/-- The constructor. The members that it does not set are what they are. -/
def new (raw : Members) : Members where
  stat := { raw.stat with utime := 0, stime := 0 }
  size := raw.size
  io := { rchar := 0, wchar := 0, syscr := 0, syscw := 0, readBytes := 0, writeBytes := 0 }
  prevIo := raw.prevIo
  bufStat := List.replicate 300 0
  bufStatm := List.replicate 300 0
  bufIo := List.replicate 300 0

/-! ## Getters -/

/-- `GetProcessName`; `erase` throws if there is nothing to erase. -/
def getProcessName (m : Members) : Option (List UInt8) :=
  let processName := m.stat.comm
  if processName = [] then none else some (processName.dropLast.drop 1)

/-- `GetTotalIoInBytes` -/
def getTotalIoInBytes (m : Members) : UInt64 := m.io.rchar - m.prevIo.rchar

/-- `GetTotalIoOutBytes` -/
def getTotalIoOutBytes (m : Members) : UInt64 := m.io.wchar - m.prevIo.wchar

/-- `GetStorageInBytes` -/
def getStorageInBytes (m : Members) : UInt64 := m.io.readBytes - m.prevIo.readBytes

/-- `GetStorageOutBytes` -/
def getStorageOutBytes (m : Members) : UInt64 := m.io.writeBytes - m.prevIo.writeBytes

/-- `GetNetworkInBytes` -/
def getNetworkInBytes (m : Members) : UInt64 :=
  let ioInBytes := m.getTotalIoInBytes
  let storageInBytes := m.getStorageInBytes
  if storageInBytes > ioInBytes then 0 else ioInBytes - storageInBytes

/-- `GetNetworkOutBytes` -/
def getNetworkOutBytes (m : Members) : UInt64 :=
  let ioOutBytes := m.getTotalIoOutBytes
  let storageOutBytes := m.getStorageOutBytes
  if storageOutBytes > ioOutBytes then 0 else ioOutBytes - storageOutBytes

end Members

/-! ## Files that are read -/

/-- A file that fits into the buffer is in front of what is left of the last one. -/
theorem fread_short {bytes : List UInt8} (h : bytes.length ≤ 300) (buf : List UInt8) :
    fread buf bytes = bytes ++ buf.drop bytes.length := by
  rw [fread, List.take_of_length_le h]

/-- A file with the fields of its format is scanned into the members. -/
theorem readFile_fields {τ : Type} {format : String} {fields : List Field} {rest : List UInt8}
    (hformat : Scan.directives format.toList ++ [.space] = fields.flatMap Field.format)
    (hzero : 0 ∉ fields.flatMap Field.bytes)
    (hlength : (fields.flatMap Field.bytes ++ rest).length ≤ 300)
    (targets : List (Value → τ → τ)) (buf : List UInt8) (members : τ) :
    (readFile format targets buf members
        (.content (fields.flatMap Field.bytes ++ rest))).2 =
      (Scan.store targets (fields.filterMap Field.assigned) members, true) := by
  simp only [readFile, fread_short hlength, List.append_assoc, Scan.sscanf_fields hformat hzero]

/-- Only the second conversion of `stat` is stored in `_comm`. -/
theorem comm_store (pid : ℤ) (comm : List UInt8) (values : List Value) (stat : StatMembers) :
    (Scan.store statTargets (.int pid :: .string comm :: values) stat).comm = comm := by
  have hnumbers : ∀ target ∈ statTargets.drop 2, ∀ value (stat : StatMembers),
      (target value stat).comm = stat.comm := by
    simp only [statTargets, List.drop_succ_cons, List.drop_zero, List.forall_mem_cons]
    refine ⟨?_, ?_, ?_, ?_, ?_, fun _ hmem => nomatch hmem⟩ <;>
    · intro value stat
      cases value <;> rfl
  exact Scan.store_preserves (p := StatMembers.comm) hnumbers values _

/-- An `unsigned long` is stored as it is. -/
theorem ofInt_toNat (x : UInt64) : UInt64.ofInt (x.toNat : ℤ) = x := by
  have hlt := x.toNat_lt
  rw [UInt64.ofInt, Int.emod_eq_of_lt (by omega) (by omega), Int.toNat_natCast,
    UInt64.ofNat_toNat]

namespace Members

variable {m : Members} {files : ProcFiles}

theorem getProcessName_eq {comm : List UInt8} (h : m.stat.comm = comm) (hne : comm ≠ []) :
    m.getProcessName = some (comm.dropLast.drop 1) := by
  subst h
  exact if_neg hne

/-- `Update` gets as far as `io` if the other files are read. -/
theorem update_of_succeeds (m : Members) (files : ProcFiles) (hstat : files.stat.Succeeds)
    (hstatm : files.statm.Succeeds) :
    (m.update files).1.io = (readFile ioFormat ioTargets m.bufIo m.io files.io).2.1 ∧
      (m.update files).1.prevIo = m.io := by
  obtain ⟨stat, statm, io⟩ := files
  cases stat with
  | failed => exact hstat.elim
  | notOpen =>
    cases statm with
    | failed => exact hstatm.elim
    | _ => exact ⟨rfl, rfl⟩
  | content =>
    cases statm with
    | failed => exact hstatm.elim
    | _ => exact ⟨rfl, rfl⟩

/-- The members of `stat` after a successful `Update`. -/
theorem update_stat (h : (m.update files).2 = true) :
    (m.update files).1.stat =
      (readFile statFormat statTargets m.bufStat m.stat files.stat).2.1 := by
  obtain ⟨stat, statm, io⟩ := files
  cases stat with
  | failed => cases h
  | _ =>
    cases statm with
    | failed => cases h
    | _ => rfl

end Members

end LinuxProcessMonitorLight

end WallMon
