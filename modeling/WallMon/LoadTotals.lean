import WallMon.BarChart
import WallMon.Data
import WallMon.Latest
import WallMon.Transition
import Mathlib.Algebra.Group.Prod

/-!
# The loads of process names: `Handler::Handle`

The module `barchart` keeps, for each process name, the loads of its processes in all. A report
of a process takes away what the process had under the name, and adds what it has now.

What the process had under another name stays there: a process that has become another program
(`exec`) counts twice. And a process is found by its host and its pid, one right behind the
other, so that two processes of one name may share an entry.
-/

namespace WallMon

namespace BarChart

/-! ## Messages -/

/-- `ProcessMessage`, as far as the handler reads it. A field that is missing has its default. -/
structure ProcessMessage where
  /-- `processname` -/
  processname : String
  /-- `pid` -/
  pid : UInt32
  /-- `usercpuload` -/
  usercpuload : ℚ
  /-- `systemcpuload` -/
  systemcpuload : ℚ
  deriving DecidableEq

/-- `WallmonMessage`, as far as the handler reads it. -/
structure WallmonMessage where
  /-- `data`, parsed, if it can be -/
  data : Option (List ProcessMessage)
  /-- `hostname` -/
  hostname : String
  deriving DecidableEq

/-- What a host says of one of its processes. -/
structure Report where
  /-- the host -/
  hostname : String
  /-- what it says -/
  message : ProcessMessage
  deriving DecidableEq

namespace Report

/-- The process -/
def process (r : Report) : ProcessId := { hostName := r.hostname, pid := r.message.pid }

/-- The name of the process and its key, under which the handler keeps it. -/
def entry (r : Report) : String × String := (r.message.processname, r.process.key)

/-- The user and the system load -/
def loads (r : Report) : ℚ × ℚ := (r.message.usercpuload, r.message.systemcpuload)

end Report

/-! ## The handler -/

/-- A new `ProcStat` -/
def ProcStat.new : ProcStat := { userCpuLoad := 0, systemCpuLoad := 0 }

namespace ProcNameStat

/-- A new `ProcNameStat` -/
def new : ProcNameStat := { procMap := ∅, userCpuLoad := 0, systemCpuLoad := 0 }

/-- `ProcNameStat::Has` -/
def has (s : ProcNameStat) (procKey : String) : Bool := s.procMap.contains procKey

/-- `ProcNameStat::Get`: a `ProcStat` that is not there is made. -/
def get (s : ProcNameStat) (procKey : String) : ProcStat := s.procMap.getD procKey .new

end ProcNameStat

/-- What the handler keeps. -/
structure Handler where
  /-- `_processNameMap` -/
  processNameMap : ProcNameMap
  /-- `numUniqueProcesses` -/
  numUniqueProcesses : ℕ
  /-- `LOG(FATAL)` has ended the program -/
  ended : Bool

namespace Handler

/-- The handler at the start -/
def new : Handler := { processNameMap := ∅, numUniqueProcesses := 0, ended := false }

/-- The body of the loop in `Handle` -/
def handleProcess (hostname : String) (h : Handler) (processMessage : ProcessMessage) : Handler :=
  let processName := processMessage.processname
  let procKey := createProcKey hostname (CInt.ofUnsigned processMessage.pid.toNat)
  let procNameStat := h.processNameMap.getD processName .new
  let procStat := procNameStat.get procKey
  let procStat' : ProcStat :=
    { userCpuLoad := processMessage.usercpuload, systemCpuLoad := processMessage.systemcpuload }
  let procNameStat' : ProcNameStat :=
    { procMap := procNameStat.procMap.insert procKey procStat'
      userCpuLoad := procNameStat.userCpuLoad - procStat.userCpuLoad + procStat'.userCpuLoad
      systemCpuLoad :=
        procNameStat.systemCpuLoad - procStat.systemCpuLoad + procStat'.systemCpuLoad }
  { h with
    processNameMap := h.processNameMap.insert processName procNameStat'
    numUniqueProcesses :=
      if procNameStat.has procKey then h.numUniqueProcesses else h.numUniqueProcesses + 1 }

/-- `Handle`, and nothing once the program has ended -/
def handle (h : Handler) (msg : WallmonMessage) : Handler :=
  if h.ended then h
  else
    match msg.data with
    | none => { h with ended := true }
    | some processMessages => processMessages.foldl (handleProcess msg.hostname) h

/-- What messages lead to -/
def run (msgs : List WallmonMessage) : Handler := msgs.foldl handle new

/-- What the loads in the handler say of a name; a name that is not kept has none. -/
def totals (h : Handler) (name : String) : ℚ × ℚ :=
  ((h.processNameMap.getD name .new).userCpuLoad, (h.processNameMap.getD name .new).systemCpuLoad)

end Handler

/-! ## What is to be kept -/

/-- The reports in messages, up to one that cannot be parsed. -/
def reports (msgs : List WallmonMessage) : List Report :=
  (msgs.takeWhile fun msg => msg.data.isSome).flatMap fun msg =>
    (msg.data.getD []).map (Report.mk msg.hostname)

/-- What a report counts for a name -/
def Report.under (name : String) (r : Report) : ℚ × ℚ :=
  if r.message.processname = name then r.loads else 0

/-- The loads of a name from scratch: the last report of each process counts, if it is one
under the name. -/
def recomputed (l : List Report) (name : String) : ℚ × ℚ :=
  latestSum Report.process (Report.under name) l

/-- The loads kept for the names are those of their processes. -/
def Agrees (h : Handler) (l : List Report) : Prop := ∀ name, h.totals name = recomputed l name

/-- The handler after some reports -/
def Handler.ofReports (l : List Report) : Handler :=
  l.foldl (fun h r => h.handleProcess r.hostname r.message) .new

/-- **The loads of names**: they are right after each message, and after each report in one. -/
structure LoadTotalsLaw (msgs : List WallmonMessage) : Prop where
  /-- within `Handle` -/
  reports : ∀ done, done <+: reports msgs → Agrees (.ofReports done) done
  /-- after `Handle` -/
  messages : ∀ done, done <+: msgs → Agrees (.run done) (BarChart.reports done)

/-- When the loads stay right: what is taken away is what counted before. -/
structure Accountable (l : List Report) (r : Report) : Prop where
  /-- what was last reported for the name and the key is what counts for the process there -/
  sameEntry : (latest Report.entry l r.entry).elim 0 Report.loads =
    (latest Report.process l r.process).elim 0 (Report.under r.message.processname)
  /-- under another name, the process had no load -/
  renamed : ∀ previous ∈ latest Report.process l r.process,
    previous.message.processname ≠ r.message.processname → previous.loads = 0

/-! ## One report -/

namespace Handler

/-- What is kept under a name and a key -/
def stored (h : Handler) (entry : String × String) : ℚ × ℚ :=
  (((h.processNameMap.getD entry.1 .new).get entry.2).userCpuLoad,
    ((h.processNameMap.getD entry.1 .new).get entry.2).systemCpuLoad)

theorem stored_new (entry : String × String) : new.stored entry = 0 := by
  rw [stored, new, Std.TreeMap.getD_emptyc, ProcNameStat.get, ProcNameStat.new,
    Std.TreeMap.getD_emptyc]
  rfl

theorem totals_new (name : String) : new.totals name = 0 := by
  rw [totals, new, Std.TreeMap.getD_emptyc]
  rfl

/-- The report is what is kept under its name and key. -/
theorem stored_handleProcess (h : Handler) (r : Report) (entry : String × String) :
    (h.handleProcess r.hostname r.message).stored entry =
      if r.entry = entry then r.loads else h.stored entry := by
  obtain ⟨name, procKey⟩ := entry
  have hprocKey : createProcKey r.hostname (CInt.ofUnsigned r.message.pid.toNat) =
      r.process.key := rfl
  rw [stored, handleProcess, hprocKey]
  dsimp only
  rw [Std.TreeMap.getD_insert]
  by_cases hname : r.message.processname = name
  · subst hname
    rw [if_pos Std.ReflCmp.compare_self, ProcNameStat.get, Std.TreeMap.getD_insert]
    by_cases hkey : r.process.key = procKey
    · subst hkey
      rw [if_pos Std.ReflCmp.compare_self]
      exact (if_pos rfl).symm
    · rw [if_neg (fun heq => hkey (Std.LawfulEqCmp.compare_eq_iff_eq.mp heq)),
        if_neg (fun heq => hkey (congrArg Prod.snd heq))]
      rfl
  · rw [if_neg (fun heq => hname (Std.LawfulEqCmp.compare_eq_iff_eq.mp heq)),
      if_neg (fun heq => hname (congrArg Prod.fst heq)), stored]

/-- What was kept is taken away, and the report added. -/
theorem totals_handleProcess (h : Handler) (r : Report) (name : String) :
    (h.handleProcess r.hostname r.message).totals name =
      if r.message.processname = name then h.totals name - h.stored r.entry + r.loads
      else h.totals name := by
  rw [totals, handleProcess]
  dsimp only
  rw [Std.TreeMap.getD_insert]
  by_cases hname : r.message.processname = name
  · subst hname
    rw [if_pos Std.ReflCmp.compare_self, if_pos rfl]
    rfl
  · rw [if_neg (fun heq => hname (Std.LawfulEqCmp.compare_eq_iff_eq.mp heq)), if_neg hname, totals]

theorem ofReports_append_singleton (l : List Report) (r : Report) :
    ofReports (l ++ [r]) = (ofReports l).handleProcess r.hostname r.message :=
  List.foldl_append ..

/-- What is kept under a name and a key is what was last reported for them. -/
theorem stored_ofReports (l : List Report) (entry : String × String) :
    (ofReports l).stored entry = (latest Report.entry l entry).elim 0 Report.loads := by
  induction l using List.reverseRecOn with
  | nil => exact stored_new entry
  | append_singleton l r ih =>
    rw [ofReports_append_singleton, stored_handleProcess, latest_append_singleton, ih]
    split <;> rfl

end Handler

/-- **One report more**: the loads stay right exactly if what is taken away is what counted. -/
theorem agrees_append_singleton_iff {l : List Report} (r : Report)
    (h : Agrees (.ofReports l) l) :
    Agrees (.ofReports (l ++ [r])) (l ++ [r]) ↔ Accountable l r := by
  -- what the report changes, for a name
  have hname : ∀ name, (Handler.ofReports (l ++ [r])).totals name = recomputed (l ++ [r]) name ↔
      if r.message.processname = name then
        (Handler.ofReports l).stored r.entry =
          (latest Report.process l r.process).elim 0 (Report.under name)
      else (latest Report.process l r.process).elim 0 (Report.under name) = 0 := by
    intro name
    rw [Handler.ofReports_append_singleton, Handler.totals_handleProcess, recomputed,
      latestSum_append_singleton, h name, recomputed]
    split
    case isTrue heq =>
      rw [Report.under.eq_def name r, if_pos heq, add_left_inj, sub_right_inj]
    case isFalse hne =>
      rw [Report.under.eq_def name r, if_neg hne, add_zero, eq_comm, sub_eq_self]
  rw [Agrees, forall_congr' hname]
  refine ⟨fun hall => ?_, ?_⟩
  · refine ⟨?_, fun previous hprevious hne => ?_⟩
    · have hsame := hall r.message.processname
      rwa [if_pos rfl, Handler.stored_ofReports] at hsame
    · have hother := hall previous.message.processname
      rwa [if_neg hne.symm, hprevious, Option.elim_some, Report.under, if_pos rfl] at hother
  · rintro ⟨hsame, hrenamed⟩ name
    split
    case isTrue heq => rw [Handler.stored_ofReports, hsame, heq]
    case isFalse hne =>
      cases hlatest : latest Report.process l r.process with
      | none => rfl
      | some previous =>
        rw [Option.elim_some, Report.under]
        split
        case isTrue heq => exact hrenamed previous hlatest fun hsame => hne (hsame.symm.trans heq)
        case isFalse => rfl

/-! ## Whole runs -/

theorem Handler.handle_foldl_of_ended {h : Handler} (hended : h.ended = true)
    (msgs : List WallmonMessage) : msgs.foldl handle h = h := by
  induction msgs with
  | nil => rfl
  | cons msg msgs ih => rw [List.foldl_cons, handle, if_pos hended, ih]

theorem Handler.ended_foldl_handleProcess (h : Handler) (hostname : String)
    (processMessages : List ProcessMessage) :
    (processMessages.foldl (handleProcess hostname) h).ended = h.ended := by
  induction processMessages generalizing h with
  | nil => rfl
  | cons processMessage processMessages ih => exact ih (h.handleProcess hostname processMessage)

/-- Messages are handled report after report. -/
theorem Handler.processNameMap_foldl_handle {h : Handler} (hended : h.ended = false)
    (msgs : List WallmonMessage) :
    (msgs.foldl handle h).processNameMap =
      ((reports msgs).foldl (fun h r => h.handleProcess r.hostname r.message)
        h).processNameMap := by
  induction msgs generalizing h with
  | nil => rfl
  | cons msg msgs ih =>
    rw [List.foldl_cons, handle, if_neg (by rw [hended]; decide), reports]
    cases hdata : msg.data with
    | none =>
      rw [List.takeWhile_cons_of_neg (by rw [hdata]; decide)]
      dsimp only
      rw [handle_foldl_of_ended rfl]
      rfl
    | some processMessages =>
      rw [List.takeWhile_cons_of_pos (by rw [hdata]; rfl), List.flatMap_cons, List.foldl_append,
        hdata, Option.getD_some, List.foldl_map]
      exact ih (by rw [ended_foldl_handleProcess, hended])

theorem reports_isPrefix {done msgs : List WallmonMessage} (h : done <+: msgs) :
    reports done <+: reports msgs := by
  obtain ⟨rest, rfl⟩ := h
  refine List.IsPrefix.flatMap ?_ _
  rw [List.takeWhile_append]
  split
  · exact (List.takeWhile_prefix _).trans (List.prefix_append ..)
  · exact List.prefix_refl _

theorem agrees_congr {h h' : Handler} (heq : h.processNameMap = h'.processNameMap)
    (l : List Report) : Agrees h l ↔ Agrees h' l := by
  simp only [Agrees, Handler.totals, heq]

/-- **When the loads are right**: exactly if each report takes away what counted before, under
its own name and, where the process had another name, there. -/
theorem loadTotalsLaw_iff (msgs : List WallmonMessage) :
    LoadTotalsLaw msgs ↔
      TransitionSystem.Meets (fun l r => l ++ [r]) Accountable [] (reports msgs) := by
  have hreports : (∀ done, done <+: reports msgs → Agrees (.ofReports done) done) ↔
      TransitionSystem.Meets (fun l r => l ++ [r]) Accountable [] (reports msgs) := by
    refine TransitionSystem.forall_prefix_iff_meets ?_ ?_ (reports msgs)
    · exact fun name => Handler.totals_new name
    · intro l r hl
      have hlog : ∀ l : List Report, l.foldl (fun l r => l ++ [r]) [] = l := fun l => by
        simp [← List.flatMap_def]
      rw [hlog]
      exact agrees_append_singleton_iff r hl
  rw [← hreports]
  refine ⟨LoadTotalsLaw.reports, fun h => ⟨h, fun done hdone => ?_⟩⟩
  have hmap : (Handler.run done).processNameMap =
      (Handler.ofReports (reports done)).processNameMap :=
    Handler.processNameMap_foldl_handle rfl done
  exact (agrees_congr hmap _).mpr (h (reports done) (reports_isPrefix hdone))

/-- A report of a process that kept its name, and whose key no other process has, is taken
down right. -/
theorem Accountable.of_apart {l : List Report} {r : Report}
    (hkey : ∀ r' ∈ l, r'.process.key = r.process.key → r'.process = r.process)
    (hname : ∀ r' ∈ l, r'.process = r.process →
      r'.message.processname = r.message.processname) :
    Accountable l r := by
  have hsame : latest Report.entry l r.entry = latest Report.process l r.process := by
    rw [latest, latest, List.filter_congr fun r' hr' => ?_]
    refine decide_eq_decide.mpr ⟨fun hentry => ?_, fun hprocess => ?_⟩
    · exact hkey r' hr' (congrArg Prod.snd hentry)
    · rw [Report.entry, hname r' hr' hprocess, hprocess, Report.entry]
  have hlatest : ∀ previous ∈ latest Report.process l r.process,
      previous.message.processname = r.message.processname := by
    intro previous hprevious
    have hmem := List.mem_filter.mp (List.mem_of_getLast? hprevious)
    exact hname previous hmem.1 (of_decide_eq_true hmem.2)
  refine ⟨?_, fun previous hprevious hne => absurd (hlatest previous hprevious) hne⟩
  rw [hsame]
  cases hprevious : latest Report.process l r.process with
  | none => rfl
  | some previous =>
    rw [Option.elim_some, Option.elim_some, Report.under, if_pos (hlatest previous hprevious)]

/-- A report of a process with a user load -/
def reportOf (hostname : String) (pid : UInt32) (name : String) (load : ℚ) : WallmonMessage where
  data := some [{ processname := name, pid, usercpuload := load, systemcpuload := 0 }]
  hostname

/-- A shell that becomes `make` keeps its load; pid 23 of `tile-1` is taken for pid 3 of
`tile-12`. -/
theorem loads_wrong :
    ¬LoadTotalsLaw [reportOf "tile-1" 23 "sh" 3, reportOf "tile-1" 23 "make" 1] ∧
      ¬LoadTotalsLaw [reportOf "tile-1" 23 "sh" 3, reportOf "tile-12" 3 "sh" 1] := by
  refine ⟨fun h => ?_, fun h => ?_⟩
  · have hsh := h.messages _ (List.prefix_refl _) "sh"
    revert hsh
    decide +kernel
  · have hsh := h.messages _ (List.prefix_refl _) "sh"
    revert hsh
    decide +kernel

end BarChart

end WallMon
