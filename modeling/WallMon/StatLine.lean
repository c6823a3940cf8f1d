import Mathlib.Data.List.TakeWhile
import WallMon.LinuxProcessMonitorLight

/-!
# What `Update` makes of `/proc/<pid>/stat`

The name of a process stands in its line as it is, between parentheses. `%s` stops at white
space, so a name with white space is cut off there, and the conversions after it start
inside of the name. Names without white space are read back, parentheses and all, and so is
every number (`right_iff_noSpace`).
-/

namespace WallMon

/-- The line of a process: the fields that `Update` reads, the numbers in between, and what
comes behind them. -/
structure StatLine where
  /-- 1: `pid`, an `int` -/
  pid : ℕ
  /-- 2: the name -/
  name : List UInt8
  /-- 3: `state` -/
  state : UInt8
  /-- 4: `ppid` -/
  ppid : ℤ
  /-- 5: `pgrp` -/
  pgrp : ℤ
  /-- 6: `session` -/
  session : ℤ
  /-- 7: `tty_nr` -/
  ttyNr : ℤ
  /-- 8: `tpgid` -/
  tpgid : ℤ
  /-- 9: `flags` -/
  flags : ℕ
  /-- 10: `minflt` -/
  minflt : UInt64
  /-- 11: `cminflt` -/
  cminflt : ℕ
  /-- 12: `majflt` -/
  majflt : UInt64
  /-- 13: `cmajflt` -/
  cmajflt : ℕ
  /-- 14: `utime` -/
  utime : UInt64
  /-- 15: `stime` -/
  stime : UInt64
  /-- 16: `cutime` -/
  cutime : ℤ
  /-- 17: `cstime` -/
  cstime : ℤ
  /-- 18: `priority` -/
  priority : ℤ
  /-- 19: `nice` -/
  nice : ℤ
  /-- 20: `num_threads`, an `int` -/
  numThreads : ℕ
  /-- from 21 on -/
  tail : List UInt8
  /-- pids are less than 2^31 -/
  pid_lt : pid < 2 ^ 31
  /-- a name is not empty -/
  name_ne_nil : name ≠ []
  /-- and of at most 15 characters -/
  name_length : name.length ≤ 15
  /-- other than zero -/
  zero_notMem_name : 0 ∉ name
  /-- the state is a letter -/
  isSpace_state : Scan.isSpace state = false
  /-- the state is not zero -/
  state_ne_zero : state ≠ 0
  /-- an `int` -/
  numThreads_lt : numThreads < 2 ^ 31

namespace StatLine

open Scan (Field Value isSpace intText)

/-- The numbers 4 to 20, and whether `Update` reads them. -/
def numbers (line : StatLine) : List (Bool × ℤ) :=
  [(false, line.ppid), (false, line.pgrp), (false, line.session), (false, line.ttyNr),
    (false, line.tpgid), (false, line.flags), (true, line.minflt.toNat), (false, line.cminflt),
    (true, line.majflt.toNat), (false, line.cmajflt), (true, line.utime.toNat),
    (true, line.stime.toNat), (false, line.cutime), (false, line.cstime),
    (false, line.priority), (false, line.nice), (true, line.numThreads)]

/-- The name as it is in the line. -/
def comm (line : StatLine) : List UInt8 := 40 :: line.name ++ [41]

/-- The line, in the kernel's format. -/
def bytes (line : StatLine) : List UInt8 :=
  intText line.pid ++ [32] ++ line.comm ++ [32, line.state, 32] ++
    (line.numbers.flatMap fun n => intText n.2 ++ [32]) ++ line.tail

/-- **The line was read right**: the members have the numbers, and `GetProcessName` the name. -/
structure Right (line : StatLine) (m : LinuxProcessMonitorLight.Members) : Prop where
  /-- the 1st field -/
  pid : m.stat.pid.toInt = line.pid
  /-- the 10th -/
  minflt : m.stat.minflt = line.minflt
  /-- the 12th -/
  majflt : m.stat.majflt = line.majflt
  /-- the 14th -/
  utime : m.stat.utime = line.utime
  /-- the 15th -/
  stime : m.stat.stime = line.stime
  /-- the 20th -/
  numThreads : m.stat.numThreads.toNat = line.numThreads
  /-- the name -/
  name : m.getProcessName = some line.name

/-- The name has no white space. -/
def NoSpace (line : StatLine) : Prop := ∀ b ∈ line.name, isSpace b = false

instance (line : StatLine) : Decidable line.NoSpace := List.decidableBAll _ line.name

/-! ## Names without white space -/

/-- A number with a space after it. -/
def numberField (assign : Bool) (n : ℤ) : Field where
  text := intText n
  gap := [32]
  conversion := .decimal
  assign := assign
  value := .int n
  reads := Scan.reads_intText n
  gap_ne_nil := Scan.space_ne_nil
  gap_space := Scan.isSpace_space

variable {line : StatLine}

theorem zero_notMem_comm : 0 ∉ line.comm := by
  have hname := line.zero_notMem_name
  simp [comm, hname]

theorem isSpace_comm (h : line.NoSpace) : ∀ b ∈ line.comm, isSpace b = false := by
  intro b hb
  rw [comm, List.mem_append, List.mem_cons, List.mem_singleton] at hb
  rcases hb with (rfl | hname) | rfl
  · decide
  · exact h b hname
  · decide

/-- The name with a space after it. -/
def commField (h : line.NoSpace) : Field where
  text := line.comm
  gap := [32]
  conversion := .string
  assign := true
  value := .string line.comm
  reads := Scan.reads_string (by simp [comm]) (isSpace_comm h)
  gap_ne_nil := Scan.space_ne_nil
  gap_space := Scan.isSpace_space

/-- The state with a space after it. -/
def stateField (line : StatLine) : Field where
  text := [line.state]
  gap := [32]
  conversion := .char
  assign := false
  value := .char line.state
  reads := Scan.reads_char line.isSpace_state
  gap_ne_nil := Scan.space_ne_nil
  gap_space := Scan.isSpace_space

/-- The fields of a line up to the 20th. -/
def statFields (h : line.NoSpace) : List Field :=
  numberField true line.pid :: commField h :: line.stateField ::
    line.numbers.map fun n => numberField n.1 n.2

theorem bytes_eq (h : line.NoSpace) :
    line.bytes = (statFields h).flatMap Field.bytes ++ line.tail := by
  have hnumbers : (line.numbers.map fun n => numberField n.1 n.2).flatMap Field.bytes =
      line.numbers.flatMap fun n => intText n.2 ++ [32] := by
    rw [List.flatMap_map]
    rfl
  simp only [statFields, List.flatMap_cons, hnumbers]
  simp [bytes, Field.bytes, numberField, commField, stateField]

theorem zero_notMem_fields (h : line.NoSpace) : 0 ∉ (statFields h).flatMap Field.bytes := by
  have hnumber : ∀ assign n, 0 ∉ (numberField assign n).bytes := by
    intro assign n
    simp [Field.bytes, numberField, Scan.zero_notMem_intText]
  have hcomm : 0 ∉ (commField h).bytes := by
    simp [Field.bytes, commField, zero_notMem_comm]
  have hstate : 0 ∉ line.stateField.bytes := by
    simpa [Field.bytes, stateField] using line.state_ne_zero.symm
  rw [List.mem_flatMap]
  rintro ⟨field, hmem, hzero⟩
  rw [statFields, List.mem_cons, List.mem_cons, List.mem_cons, List.mem_map] at hmem
  rcases hmem with rfl | rfl | rfl | ⟨n, -, rfl⟩
  · exact hnumber _ _ hzero
  · exact hcomm hzero
  · exact hstate hzero
  · exact hnumber _ _ hzero

/-- The format asks for the fields of a line. -/
theorem statFormat_fields (h : line.NoSpace) :
    Scan.directives LinuxProcessMonitorLight.statFormat.toList ++ [.space] =
      (statFields h).flatMap Field.format := by
  -- what is assigned, from the 4th field on
  let assigns := [false, false, false, false, false, false, true, false, true, false, true, true,
    false, false, false, false, true]
  calc Scan.directives LinuxProcessMonitorLight.statFormat.toList ++ [.space]
      = [.convert .decimal true, .space, .convert .string true, .space, .convert .char false,
          .space] ++ assigns.flatMap fun assign => [.convert .decimal assign, .space] := by
        decide +kernel
    _ = (statFields h).flatMap Field.format := rfl

/-- What a line without white space in its name leaves in the members. -/
theorem right_stored (h : line.NoSpace) {m : LinuxProcessMonitorLight.Members}
    {stat : LinuxProcessMonitorLight.StatMembers}
    (hstat : m.stat = Scan.store LinuxProcessMonitorLight.statTargets
      ((statFields h).filterMap Field.assigned) stat) : line.Right m := by
  have hstored : m.stat =
      { pid := Int32.ofInt line.pid
        comm := line.comm
        minflt := UInt64.ofInt line.minflt.toNat
        majflt := UInt64.ofInt line.majflt.toNat
        utime := UInt64.ofInt line.utime.toNat
        stime := UInt64.ofInt line.stime.toNat
        numThreads := UInt32.ofInt line.numThreads } := hstat
  have hthreads := line.numThreads_lt
  simp only [LinuxProcessMonitorLight.ofInt_toNat] at hstored
  refine ⟨?_, by rw [hstored], by rw [hstored], by rw [hstored], by rw [hstored], ?_, ?_⟩
  · have hpid := line.pid_lt
    rw [hstored, Int32.toInt_ofInt_of_le (by omega) (by omega)]
  · rw [hstored, UInt32.ofInt, Int.emod_eq_of_lt (by omega) (by omega), Int.toNat_natCast]
    exact UInt32.toNat_ofNat_of_lt' (by rw [UInt32.size]; omega)
  · have hcomm : m.stat.comm = line.comm := by rw [hstored]
    rw [LinuxProcessMonitorLight.Members.getProcessName_eq hcomm (by simp [comm]), comm,
      List.dropLast_concat]
    rfl

/-! ## Names with white space -/

/-- White space is not at the end. -/
theorem length_word_lt (hspace : ¬line.NoSpace) :
    (line.comm.takeWhile (!isSpace ·)).length < line.comm.length := by
  have hpre := List.takeWhile_prefix (l := line.comm) (!isSpace ·)
  refine lt_of_le_of_ne hpre.length_le fun hlength => hspace fun b hb => ?_
  have hmem : b ∈ line.comm.takeWhile (!isSpace ·) := by
    rw [hpre.eq_of_length hlength]
    simp [comm, hb]
  simpa using List.mem_takeWhile_imp hmem

/-- Only as much of the name as there is in front of white space is scanned. -/
theorem sscanf_of_space (hspace : ¬line.NoSpace) (rest : List UInt8) :
    ∃ values, Scan.sscanf (line.bytes ++ rest) LinuxProcessMonitorLight.statFormat =
      .int line.pid :: .string (line.comm.takeWhile (!isSpace ·)) :: values := by
  have hformat : Scan.directives LinuxProcessMonitorLight.statFormat.toList =
      .convert .decimal true :: .space :: .convert .string true ::
        (Scan.directives LinuxProcessMonitorLight.statFormat.toList).drop 3 := by
    decide +kernel
  -- what comes after the name does not matter
  obtain ⟨after, hbytes⟩ : ∃ after, line.bytes ++ rest =
      ((numberField true line.pid).bytes ++ line.comm) ++ after := by
    refine ⟨[32, line.state, 32] ++ (line.numbers.flatMap fun n => intText n.2 ++ [32]) ++
      line.tail ++ rest, ?_⟩
    simp [bytes, Field.bytes, numberField]
  have hzero : 0 ∉ (numberField true line.pid).bytes ++ line.comm := by
    simp [Field.bytes, numberField, Scan.zero_notMem_intText, zero_notMem_comm]
  have hword : (line.comm ++ Scan.cString after).takeWhile (!isSpace ·) =
      line.comm.takeWhile (!isSpace ·) := by
    rw [List.takeWhile_append, if_neg (length_word_lt hspace).ne]
  have hne : line.comm.takeWhile (!isSpace ·) ≠ [] := by simp [comm, isSpace]
  have hskip : (line.comm ++ Scan.cString after).dropWhile isSpace =
      line.comm ++ Scan.cString after := by
    rw [comm, List.cons_append, List.cons_append, Scan.dropWhile_isSpace (by decide)]
  have hfield := Scan.scan_field (numberField true line.pid)
    (.convert .string true :: (Scan.directives LinuxProcessMonitorLight.statFormat.toList).drop 3)
    (line.comm ++ Scan.cString after)
  simp only [hskip, Scan.scan, Scan.Conversion.read, hword, hne, if_false, if_true] at hfield
  rw [Scan.sscanf, hformat, hbytes, Scan.cString_append hzero, List.append_assoc]
  exact ⟨_, hfield⟩

/-- A name with white space is not the one that `GetProcessName` returns. -/
theorem not_right_of_space (hspace : ¬line.NoSpace) {m : LinuxProcessMonitorLight.Members}
    (hcomm : m.stat.comm = line.comm.takeWhile (!isSpace ·)) : ¬line.Right m := by
  intro hright
  have hne : line.comm.takeWhile (!isSpace ·) ≠ [] := by simp [comm, isSpace]
  have hname := LinuxProcessMonitorLight.Members.getProcessName_eq hcomm hne
  rw [hright.name] at hname
  have hlength := congrArg List.length (Option.some.inj hname)
  have hshorter := length_word_lt hspace
  have hpos := List.length_pos_of_ne_nil line.name_ne_nil
  rw [List.length_drop, List.length_dropLast] at hlength
  simp only [comm, List.length_append, List.length_cons, List.length_nil] at hlength hshorter
  omega

/-- **A line is read right** by a successful `Update`, whatever was read before, exactly if its
name has no white space. -/
theorem right_iff_noSpace (line : StatLine) (hlength : line.bytes.length < 300)
    (m : LinuxProcessMonitorLight.Members) (files : ProcFiles)
    (hstat : files.stat = .content line.bytes) (hok : (m.update files).2 = true) :
    line.Right (m.update files).1 ↔ line.NoSpace := by
  have hmembers := LinuxProcessMonitorLight.Members.update_stat hok
  rw [hstat] at hmembers
  refine ⟨fun hright => ?_, fun h => ?_⟩
  · by_contra hspace
    obtain ⟨values, hvalues⟩ := sscanf_of_space hspace (m.bufStat.drop line.bytes.length)
    refine not_right_of_space hspace ?_ hright
    rw [hmembers, LinuxProcessMonitorLight.readFile,
      LinuxProcessMonitorLight.fread_short hlength.le, hvalues]
    exact LinuxProcessMonitorLight.comm_store _ _ _ _
  · have hbytes := bytes_eq h
    rw [hbytes] at hlength hmembers
    rw [LinuxProcessMonitorLight.readFile_fields (statFormat_fields h) (zero_notMem_fields h)
      hlength.le] at hmembers
    exact right_stored h hmembers

/-- A line with some numbers, for any name. -/
def ofName (name : List UInt8) (hne : name ≠ []) (hlength : name.length ≤ 15)
    (hzero : 0 ∉ name) : StatLine where
  pid := 17
  name := name
  state := 83
  ppid := 1
  pgrp := 17
  session := 17
  ttyNr := 0
  tpgid := -1
  flags := 4194560
  minflt := 118
  cminflt := 0
  majflt := 2
  cmajflt := 0
  utime := 41
  stime := 5
  cutime := 0
  cstime := 0
  priority := 20
  nice := 0
  numThreads := 3
  tail := [48, 10]
  pid_lt := by decide
  name_ne_nil := hne
  name_length := hlength
  zero_notMem_name := hzero
  isSpace_state := by decide
  state_ne_zero := by decide
  numThreads_lt := by decide

/-- A process named `a(b)`. -/
def parentheses : StatLine := ofName [97, 40, 98, 41] (by decide) (by decide) (by decide)

/-- A process named `a b`. -/
def twoWords : StatLine := ofName [97, 32, 98] (by decide) (by decide) (by decide)

/-- A monitor before its first `Update`. -/
def someMonitor : LinuxProcessMonitorLight.Members := .new
  { stat := { pid := 0, comm := [], minflt := 0, majflt := 0, utime := 0, stime := 0
              numThreads := 0 }
    size := 0
    io := { rchar := 0, wchar := 0, syscr := 0, syscw := 0, readBytes := 0, writeBytes := 0 }
    prevIo := { rchar := 0, wchar := 0, syscr := 0, syscw := 0, readBytes := 0, writeBytes := 0 }
    bufStat := [], bufStatm := [], bufIo := [] }

/-- The files of a process that has this line, and no others. -/
def files (line : StatLine) : ProcFiles := ⟨.content line.bytes, .notOpen, .notOpen⟩

/-- A name with parentheses is read right. -/
theorem right_parentheses : parentheses.Right (someMonitor.update parentheses.files).1 :=
  (right_iff_noSpace parentheses (by decide +kernel) someMonitor parentheses.files rfl rfl).mpr
    (by decide +kernel)

/-- A name of two words is empty, and the number of threads is not read. -/
theorem not_right_twoWords :
    (someMonitor.update twoWords.files).1.getProcessName = some [] ∧
      (someMonitor.update twoWords.files).1.stat.numThreads = 0 ∧
      ¬twoWords.Right (someMonitor.update twoWords.files).1 := by
  have hname : (someMonitor.update twoWords.files).1.getProcessName = some [] := by
    decide +kernel
  refine ⟨hname, by decide +kernel, fun hright => ?_⟩
  rw [hright.name] at hname
  exact twoWords.name_ne_nil (Option.some.inj hname)

end StatLine

end WallMon
