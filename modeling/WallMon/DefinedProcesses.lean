import Mathlib.Algebra.Order.BigOperators.Group.List
import WallMon.LinuxProcessMonitorLight
import WallMon.ProcessCollector

/-!
# `ProcessCollector` with defined processes

`SetProcesses` has the collector look only for the processes with the given names: for each
of them `System::GetPid` runs `pgrep` and takes the first pid it prints. `GetPid` says -1 if
it prints none; to `LinuxProcessMonitorLight::Open` -1 is the process that calls it. So each
name without a process has the collector monitor its own process, if that can be opened
and read (`monitors_eq_requested_iff`).
-/

namespace WallMon

/-! ## `System` -/

/-- `fgets`: the first line with its end, of at most `size - 1` bytes; `none` at the end. -/
def fgets (size : ℕ) (s : List UInt8) : Option (List UInt8) :=
  let s := s.take (size - 1)
  let line := s.takeWhile (· != 10)
  if s = [] then none else some (line ++ (s.drop line.length).take 1)

/-- `System::RunCommand` of a command with this output, `none` if there is no pipe. A line
that begins with a zero byte, which would make `erase` throw, is printed by no command. -/
def runCommand (output : Option (List UInt8)) : List UInt8 :=
  match output with
  | none => []
  | some output =>
    match fgets 8000 output with
    | none => []
    | some line => (Scan.cString line).dropLast

/-- `atoi` -/
def atoi (s : List UInt8) : ℤ :=
  match Scan.Conversion.decimal.read s with
  | some (.int n, _) => n
  | _ => 0

/-- The processes of a host while `OnInit` runs. -/
structure ProcessTable where
  /-- the pids that `pgrep` prints for a name, in its order; `none` if it cannot be run -/
  pgrep : String → Option (List ℕ)
  /-- which are pids -/
  pgrep_pos : ∀ name pids, pgrep name = some pids → ∀ pid ∈ pids, 0 < pid ∧ pid ≤ 4194304
  /-- what there is to open and to read in `/proc` for a pid -/
  files : ℤ → ProcFiles
  /-- the number of the birth of the process that has a pid -/
  birth : ℤ → ℕ
  /-- `getpid` -/
  ownPid : ℤ
  /-- what a new monitor's members hold that its constructor does not set -/
  raw : LinuxProcessMonitorLight.Members

/-- A file is opened. -/
def FileRead.opens : FileRead → Bool
  | .notOpen => false
  | _ => true

namespace ProcessTable

variable (T : ProcessTable)

/-- `System::GetPid` -/
def getPid (processName : String) : ℤ :=
  let output := (T.pgrep processName).map fun pids => pids.flatMap (Scan.natText · ++ [10])
  let processName := runCommand output
  -- process name not found
  if processName = [] then -1 else atoi processName

/-- `LinuxProcessMonitorLight::Open`: whether it succeeds, and which process's files it opens. -/
def openFiles (pid : ℤ) : Bool × ℤ :=
  let pid := if pid = -1 then T.ownPid else pid
  let files := T.files pid
  (files.stat.opens || files.statm.opens || files.io.opens, pid)

/-- The first `Update` of a monitor with a process's files. -/
def firstUpdate (pid : ℤ) : Bool :=
  ((LinuxProcessMonitorLight.Members.new T.raw).update (T.files pid)).2

end ProcessTable

namespace ProcessCollector

variable (T : ProcessTable)

/-- `_AddProcess` of a pid. -/
def addPid (c : ProcessCollector) (pid : ℤ) : ProcessCollector :=
  let (opened, process) := T.openFiles pid
  let update := if opened then T.firstUpdate process else false
  c.addProcess (if opened && update then some ⟨process, T.birth process⟩ else none)

/-- `_AddDefinedProcesses` -/
def addDefinedProcesses (processNames : List String) (c : ProcessCollector) : ProcessCollector :=
  processNames.foldl (fun c processName => c.addPid T (T.getPid processName)) c

/-- `_FindAllNewProcesses` with a snapshot of the pids. -/
def findAllNewProcesses (snapshot : Option (List ℤ)) (c : ProcessCollector) : ProcessCollector :=
  let pidMonitor := c.pidMonitor.update snapshot
  pidMonitor.getDifference.foldl (addPid T) { c with pidMonitor }

/-- `OnInit` after `SetProcesses`. -/
def onInit (snapshot : Option (List ℤ)) (processNames : List String) (c : ProcessCollector) :
    ProcessCollector :=
  let c :=
    if processNames = [] then c.findAllNewProcesses T snapshot
    else c.addDefinedProcesses T processNames
  { c with processesMsg := [] }

/-- The pids of the processes that are monitored. -/
def monitored (c : ProcessCollector) : List ℤ := c.monitors.map (·.process.pid)

end ProcessCollector

/-! ## What they compute -/

/-- The pid that `pgrep` prints first for a name. -/
def ProcessTable.firstPid (T : ProcessTable) (processName : String) : Option ℕ :=
  (T.pgrep processName).bind List.head?

/-- A file that is not open can be left unread; one that is, is read. -/
def FileRead.readable : FileRead → Bool
  | .failed _ => false
  | _ => true

/-- The process's files can be opened and read. -/
def ProcFiles.Usable (files : ProcFiles) : Prop :=
  (files.stat.opens || files.statm.opens || files.io.opens) = true ∧
    files.stat.readable = true ∧ files.statm.readable = true ∧ files.io.readable = true

instance (files : ProcFiles) : Decidable files.Usable := inferInstanceAs (Decidable (_ ∧ _))

/-- When an `Update` succeeds. -/
theorem LinuxProcessMonitorLight.Members.update_succeeds_iff (m : Members) (files : ProcFiles) :
    (m.update files).2 = true ↔
      files.stat.readable = true ∧ files.statm.readable = true ∧ files.io.readable = true := by
  obtain ⟨stat, statm, io⟩ := files
  cases stat <;> cases statm <;> cases io <;> simp [update, readFile, FileRead.readable]

/-- A line that fits is read without its end. -/
theorem runCommand_line {line : List UInt8} (hline : ∀ b ∈ line, b ≠ 10 ∧ b ≠ 0)
    (hlength : line.length < 7999) (rest : List UInt8) :
    runCommand (some (line ++ 10 :: rest)) = line := by
  obtain ⟨k, hk⟩ : ∃ k, 7999 - line.length = k + 1 := ⟨7998 - line.length, by omega⟩
  have htake : (line ++ 10 :: rest).take 7999 = line ++ 10 :: rest.take k := by
    rw [List.take_append, List.take_of_length_le hlength.le, hk, List.take_succ_cons]
  have hfirst : (line ++ 10 :: rest.take k).takeWhile (· != 10) = line := by
    rw [List.takeWhile_append_of_pos fun b hb => by simpa using (hline b hb).1,
      List.takeWhile_cons_of_neg (by simp), List.append_nil]
  have hgets : fgets 8000 (line ++ 10 :: rest) = some (line ++ [10]) := by
    simp [fgets, htake, hfirst]
  have hzero : 0 ∉ line := fun hmem => (hline 0 hmem).2 rfl
  rw [runCommand, hgets]
  show (Scan.cString (line ++ [10])).dropLast = line
  rw [Scan.cString_append hzero]
  exact List.dropLast_concat

/-- The line of a pid. -/
theorem natText_line {pid : ℕ} (hpid : pid ≤ 4194304) :
    (∀ b ∈ Scan.natText pid, b ≠ 10 ∧ b ≠ 0) ∧ (Scan.natText pid).length < 7999 := by
  refine ⟨fun b hb => ?_, ?_⟩
  · have hrange := Scan.isDigit_iff.mp (Scan.isDigit_natText b hb)
    constructor <;> rintro rfl <;> exact absurd hrange.1 (by decide)
  · have hlength := Scan.length_natText (k := 7) (by decide) (show pid < 10 ^ 7 by omega)
    omega

namespace ProcessTable

variable (T : ProcessTable)

/-- **`GetPid`**: the first pid that `pgrep` prints, or -1. -/
theorem getPid_eq (processName : String) :
    T.getPid processName = ((T.firstPid processName).map Int.ofNat).getD (-1) := by
  rw [getPid, firstPid]
  cases hpgrep : T.pgrep processName with
  | none => rfl
  | some pids =>
    cases pids with
    | nil => rfl
    | cons pid pids =>
      obtain ⟨hline, hlength⟩ := natText_line (T.pgrep_pos _ _ hpgrep pid (by simp)).2
      have hfirst : runCommand (some ((pid :: pids).flatMap (Scan.natText · ++ [10]))) =
          Scan.natText pid := by
        rw [List.flatMap_cons, List.append_assoc]
        exact runCommand_line hline hlength _
      simp only [Option.map_some, hfirst, Scan.natText_ne_nil, if_false, atoi,
        Scan.decimal_read_natText]
      rfl

/-- The process can be monitored. -/
def Monitorable (pid : ℤ) : Prop := (T.files pid).Usable

instance (pid : ℤ) : Decidable (T.Monitorable pid) := inferInstanceAs (Decidable (_ ∧ _))

theorem monitorable_iff (pid : ℤ) :
    T.Monitorable pid ↔ ((T.files pid).stat.opens || (T.files pid).statm.opens ||
      (T.files pid).io.opens) = true ∧ T.firstUpdate pid = true :=
  and_congr_right fun _ =>
    (LinuxProcessMonitorLight.Members.update_succeeds_iff (.new T.raw) (T.files pid)).symm

/-- What a pid of `GetPid` adds to `_monitors`. -/
def added (pid : ℤ) : List ℤ :=
  let pid := if pid = -1 then T.ownPid else pid
  if T.Monitorable pid then [pid] else []

/-- What a name should add: the first process that `pgrep` prints, if it can be monitored. -/
def requested (processName : String) : List ℤ :=
  match T.firstPid processName with
  | none => []
  | some pid => if T.Monitorable pid then [(pid : ℤ)] else []

end ProcessTable

namespace ProcessCollector

variable (T : ProcessTable)

/-- The test of `_AddProcess`. -/
theorem opened_and_update (pid : ℤ) :
    let (opened, process) := T.openFiles pid
    (opened && if opened then T.firstUpdate process else false) =
      decide (T.Monitorable (if pid = -1 then T.ownPid else pid)) := by
  simp only [ProcessTable.openFiles]
  rw [Bool.eq_iff_iff, decide_eq_true_iff, ProcessTable.monitorable_iff]
  split <;> simp_all

theorem monitored_addPid (c : ProcessCollector) (pid : ℤ) :
    (c.addPid T pid).monitored = c.monitored ++ T.added pid := by
  have htest := opened_and_update T pid
  rw [addPid, ProcessTable.added]
  simp only [] at htest ⊢
  rw [htest]
  by_cases hm : T.Monitorable (if pid = -1 then T.ownPid else pid)
  · simp [hm, addProcess, monitored, ProcessTable.openFiles]
  · simp [hm, addProcess, monitored]

/-- The step of a collector's run in which a pid is added is `_AddProcess`, on a host that
runs what can be opened. -/
theorem collector_add {C : CollectorConfig} (hown : C.ownPid = T.ownPid) {r : CollectorRun}
    (hhost : ∀ pid, r.host.running pid =
      if (T.files pid).stat.opens || (T.files pid).statm.opens || (T.files pid).io.opens then
        some (T.birth pid) else none) (pid : ℤ) (pids : List ℤ) (inSample : Bool) :
    (r.add C pid pids inSample (T.firstUpdate (CollectorRun.openPid C pid))).collector =
      r.collector.addPid T pid := by
  have hopen : (T.openFiles pid).2 = CollectorRun.openPid C pid := by
    rw [CollectorRun.openPid, hown]
    rfl
  have hopened := hhost (CollectorRun.openPid C pid)
  rw [← hopen] at hopened ⊢
  rw [CollectorRun.add, ← hopen, addPid]
  simp only [hopened]
  cases h : (T.openFiles pid).1 <;> cases T.firstUpdate (T.openFiles pid).2 <;>
    simp_all [ProcessTable.openFiles, addProcess]

/-- Names are dealt with one by one. -/
theorem monitored_addDefinedProcesses (processNames : List String) (c : ProcessCollector) :
    (c.addDefinedProcesses T processNames).monitored =
      c.monitored ++ processNames.flatMap fun processName => T.added (T.getPid processName) := by
  induction processNames generalizing c with
  | nil => simp [addDefinedProcesses]
  | cons processName processNames ih =>
    rw [addDefinedProcesses, List.foldl_cons, ← addDefinedProcesses, ih, monitored_addPid,
      List.flatMap_cons, List.append_assoc]

/-- What a name adds: -1 is no process to `GetPid`, and the collector's own to `Open`. -/
theorem added_getPid (processName : String) :
    T.added (T.getPid processName) =
      match T.firstPid processName with
      | none => if T.Monitorable T.ownPid then [T.ownPid] else []
      | some _ => T.requested processName := by
  rw [T.getPid_eq, ProcessTable.added, ProcessTable.requested]
  cases T.firstPid processName with
  | none => rfl
  | some pid =>
    have hne : (pid : ℤ) ≠ -1 := by omega
    simp [hne]

/-- **Only the requested processes**: the monitors are the requested ones, name by name, if
and only if there is a process for every name or the collector's own process cannot be
monitored. -/
theorem monitors_eq_requested_iff (snapshot : Option (List ℤ)) {processNames : List String}
    (hnames : processNames ≠ []) :
    (new.onInit T snapshot processNames).monitored = processNames.flatMap T.requested ↔
      (∀ processName ∈ processNames, T.firstPid processName ≠ none) ∨
        ¬T.Monitorable T.ownPid := by
  have hmonitored : (new.onInit T snapshot processNames).monitored =
      processNames.flatMap fun processName => T.added (T.getPid processName) := by
    rw [onInit, if_neg hnames]
    exact monitored_addDefinedProcesses T processNames new
  rw [hmonitored]
  refine ⟨fun heq => ?_, fun hcond => ?_⟩
  · by_contra hnot
    rw [not_or, not_not] at hnot
    obtain ⟨hall, hown⟩ := hnot
    push Not at hall
    obtain ⟨processName, hmem, hfirst⟩ := hall
    -- the name without a process makes the list of monitors longer than what was requested
    have hlength := congrArg List.length heq
    rw [List.length_flatMap, List.length_flatMap] at hlength
    refine hlength.not_gt (List.sum_lt_sum _ _ (fun name _ => ?_) ⟨processName, hmem, ?_⟩)
    · rw [added_getPid]
      cases hname : T.firstPid name with
      | none => simp [ProcessTable.requested, hname]
      | some pid => exact le_rfl
    · rw [added_getPid, hfirst, ProcessTable.requested, hfirst]
      simp [hown]
  · refine List.flatMap_congr fun processName hmem => ?_
    rw [added_getPid]
    cases hfirst : T.firstPid processName with
    | some pid => rfl
    | none =>
      have hown : ¬T.Monitorable T.ownPid :=
        hcond.resolve_left fun hall => hall processName hmem hfirst
      rw [if_neg hown, ProcessTable.requested, hfirst]

/-- Members of a monitor before its constructor. -/
def unsetMembers : LinuxProcessMonitorLight.Members where
  stat :=
    { pid := 9, comm := [], minflt := 9, majflt := 9, utime := 9, stime := 9, numThreads := 9 }
  size := 9
  io := { rchar := 9, wchar := 9, syscr := 9, syscw := 9, readBytes := 9, writeBytes := 9 }
  prevIo := { rchar := 9, wchar := 9, syscr := 9, syscw := 9, readBytes := 9, writeBytes := 9 }
  bufStat := []
  bufStatm := []
  bufIo := []

/-- The pids that `pgrep` prints on a host with two editors. -/
def editorPids (name : String) : List ℕ := if name = "vi" then [100, 101] else []

theorem editorPids_pos (name : String) (pids : List ℕ) (h : some (editorPids name) = some pids) :
    ∀ pid ∈ pids, 0 < pid ∧ pid ≤ 4194304 := by
  obtain rfl := Option.some.inj h
  intro pid hpid
  rw [editorPids] at hpid
  split at hpid
  · rcases List.mem_pair.mp hpid with rfl | rfl <;> decide
  · cases hpid

/-- The host; the collector's own process has the pid 77. -/
def editorTable : ProcessTable where
  pgrep name := some (editorPids name)
  pgrep_pos := editorPids_pos
  files pid :=
    if pid = 77 ∨ pid = 100 then ⟨.content [], .content [], .notOpen⟩
    else ⟨.notOpen, .notOpen, .notOpen⟩
  birth _ := 0
  ownPid := 77
  raw := unsetMembers

/-- An editor that is there, requested twice. -/
theorem monitors_eq_requested_editor :
    (new.onInit editorTable none ["vi", "vi"]).monitored =
      ["vi", "vi"].flatMap editorTable.requested :=
  (monitors_eq_requested_iff editorTable none (List.cons_ne_nil _ _)).mpr (.inl (by decide))

/-- A name without a process has the collector monitor itself. -/
theorem not_requested_missing :
    (new.onInit editorTable none ["vi", "emacs"]).monitored = [100, 77] ∧
      (new.onInit editorTable none ["vi", "emacs"]).monitored ≠
        ["vi", "emacs"].flatMap editorTable.requested := by
  have hmonitored : (new.onInit editorTable none ["vi", "emacs"]).monitored = [100, 77] := by
    rw [onInit, if_neg (List.cons_ne_nil _ _)]
    refine (monitored_addDefinedProcesses editorTable ["vi", "emacs"] new).trans ?_
    simp only [List.flatMap_cons, added_getPid]
    decide
  rw [hmonitored]
  decide

end ProcessCollector

end WallMon
