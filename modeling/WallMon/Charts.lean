import WallMon.LoadTotals

/-!
# The charts that are shown

With every message the handler takes down what hosts report, and at most twice a second it
renders the chart. What is then shown is the latest loads: the names with the highest loads among
the processes as they last reported, the rest as "others", and the utilization of all processes
(`charts_right`).

This is where loads are taken down right: a process keeps its name, or had no load when it
became another program, and does not share its key with others. Charts are of a positive load
in all, and their shares add up over exact rationals.
-/

namespace WallMon

namespace BarChart

/-- `FRAMES_PER_SEC` -/
def framesPerSec : ℚ := 2

/-- `NUM_PROCESSES_TO_DISPLAY` -/
def numProcessesToDisplay : ℕ := 8

/-- A call of `Handle` -/
structure ChartCall where
  /-- the message -/
  msg : WallmonMessage
  /-- the time in seconds -/
  timestampNow : ℚ
  /-- what lies in the local bars of `_UpdateBarChart` -/
  bars : ℕ → BarData

/-- A call of `_UpdateBarChart` -/
structure ChartUpdate where
  /-- history: the messages that have been handled -/
  msgs : List WallmonMessage
  /-- history: when it was called -/
  timestamp : ℚ
  /-- what it hands to `Render` -/
  chart : Except Fault (ℚ × List BarData)

/-- The handler and its chart -/
structure Charting where
  /-- the loads -/
  handler : Handler
  /-- `_timestamp` -/
  timestamp : ℚ
  /-- history: the messages that have been handled -/
  msgs : List WallmonMessage
  /-- history: the charts -/
  updates : List ChartUpdate

namespace Charting

variable (H : StdHeap) (S : StdSort)

/-- `OnInit`, called at some time -/
def onInit (timestamp : ℚ) : Charting := { handler := .new, timestamp, msgs := [], updates := [] }

/-- `Handle`, with graphics -/
def handle (c : Charting) (call : ChartCall) : Charting :=
  let handler := c.handler.handle call.msg
  let msgs := c.msgs ++ [call.msg]
  if handler.ended then { c with handler, msgs }
  else if call.timestampNow - c.timestamp > 1 / framesPerSec then
    { handler
      timestamp := call.timestampNow
      msgs
      updates := c.updates ++
        [{ msgs
           timestamp := call.timestampNow
           chart := updateBarChart H S call.bars numProcessesToDisplay handler.processNameMap }] }
  else { c with handler, msgs }

/-- Calls, one after another -/
def run (timestamp : ℚ) (calls : List ChartCall) : Charting :=
  calls.foldl (handle H S) (onInit timestamp)

end Charting

/-! ## What is to be shown -/

/-- The names in reports -/
def names (l : List Report) : List String := (l.map (·.message.processname)).dedup

/-- The bar of a name: its loads from scratch -/
def nameBar (l : List Report) (name : String) : BarData :=
  { label := name, user := (recomputed l name).1, system := (recomputed l name).2 }

/-- The bar of the names that are not shown -/
def restBar (l : List Report) (rest : List String) : BarData where
  label := "others"
  user := (rest.map fun name => (recomputed l name).1).sum
  system := (rest.map fun name => (recomputed l name).2).sum

/-- The loads of all processes, as they last reported -/
def latestLoads (l : List Report) : ℚ × ℚ := latestSum Report.process Report.loads l

/-- Both loads -/
def cpuLoad (l : List Report) : ℚ := (latestLoads l).1 + (latestLoads l).2

/-- **The chart of the latest loads**: bars for the names with the highest loads, and one for the
rest. -/
structure ShowsLatest (numBars : ℕ) (l : List Report) (chart : ℚ × List BarData) : Prop where
  /-- the load of all processes -/
  utilization : chart.1 = cpuLoad l / 2900
  /-- the names, and the shares of their loads -/
  top : ∃ shown rest,
    IsTop (fun name => (nameBar l name).total) (numBars - 1) (names l) shown rest ∧
      chart.2.Perm ((shown.map (nameBar l) ++ [restBar l rest]).map (.share (cpuLoad l)))
  /-- shares are in percent -/
  sum : (chart.2.map BarData.total).sum = 100
  /-- from the greatest share on -/
  sorted : chart.2.Pairwise fun a b => b.total ≤ a.total

/-! ## From the map to the reports -/

namespace Handler

variable {h : Handler} {l : List Report}

theorem mem_handleProcess (r : Report) (name : String) :
    name ∈ (h.handleProcess r.hostname r.message).processNameMap ↔
      r.message.processname = name ∨ name ∈ h.processNameMap := by
  rw [handleProcess, Std.TreeMap.mem_insert, Std.LawfulEqCmp.compare_eq_iff_eq]

/-- The map has the names in reports. -/
theorem keys_ofReports_perm (l : List Report) :
    ((ofReports l).processNameMap.toList.map Prod.fst).Perm (names l) := by
  have hmem : ∀ name, name ∈ (ofReports l).processNameMap ↔
      name ∈ l.map (·.message.processname) := by
    intro name
    induction l using List.reverseRecOn with
    | nil => simp [ofReports, new]
    | append_singleton l r ih =>
      rw [ofReports_append_singleton, mem_handleProcess, ih, List.map_append, List.mem_append,
        List.map_singleton, List.mem_singleton, or_comm, eq_comm]
  rw [Std.TreeMap.map_fst_toList_eq_keys, names]
  refine (List.perm_ext_iff_of_nodup Std.TreeMap.nodup_keys (List.nodup_dedup _)).mpr fun name => ?_
  rw [Std.TreeMap.mem_keys, hmem, List.mem_dedup]

/-- The bar of an entry is that of its name. -/
theorem ofEntry_eq (h : Agrees (ofReports l) l) {entry : String × ProcNameStat}
    (hentry : entry ∈ (ofReports l).processNameMap.toList) :
    BarData.ofEntry entry = nameBar l entry.1 := by
  obtain ⟨name, procNameStat⟩ := entry
  have hget : (ofReports l).processNameMap.getD name .new = procNameStat := by
    rw [Std.TreeMap.getD_eq_getD_getElem?, Std.TreeMap.mem_toList_iff_getElem?_eq_some.mp hentry]
    rfl
  rw [nameBar, ← h name, totals, hget, BarData.ofEntry]

end Handler

/-- Loads that are taken down right stay right. -/
theorem agrees_of_meets {l : List Report}
    (h : TransitionSystem.Meets (fun l r => l ++ [r]) Accountable [] l) :
    Agrees (.ofReports l) l := by
  induction l using List.reverseRecOn with
  | nil => exact fun name => Handler.totals_new name
  | append_singleton l r ih =>
    have hlog : l.foldl (fun l r => l ++ [r]) [] = l := by simp [← List.flatMap_def]
    rw [TransitionSystem.meets_append_singleton, hlog] at h
    exact (agrees_append_singleton_iff r (ih h.1)).mpr h.2

/-- The loads of names in all are those of processes in all. -/
theorem sum_recomputed (l : List Report) :
    ((names l).map (recomputed l)).sum = latestLoads l := by
  have hnames : (names l).toFinset = (l.map (·.message.processname)).toFinset := by
    ext name
    rw [List.mem_toFinset, names, List.mem_dedup, List.mem_toFinset]
  have hnodup : (names l).Nodup := List.nodup_dedup _
  rw [← List.sum_toFinset _ hnodup, hnames]
  exact sum_latestSum_ite Report.process (·.message.processname) Report.loads l

/-- A sum of loads, by coordinates. -/
theorem sum_map_recomputed (l : List Report) (names : List String) :
    (names.map (recomputed l)).sum = ((names.map fun name => (recomputed l name).1).sum,
      (names.map fun name => (recomputed l name).2).sum) := by
  induction names with
  | nil => rfl
  | cons name names ih =>
    rw [List.map_cons, List.sum_cons, ih]
    simp only [List.map_cons, List.sum_cons]
    rfl

/-! ## One chart -/

section

variable {l : List Report} {entries : List (String × ProcNameStat)}

/-- The loads of entries are those of their names. -/
theorem loads_eq (hentries : ∀ entry ∈ entries, BarData.ofEntry entry = nameBar l entry.1) :
    (userLoad entries, systemLoad entries) =
      ((entries.map Prod.fst).map (recomputed l)).sum := by
  have huser : ∀ entry ∈ entries, entry.2.userCpuLoad = (recomputed l entry.1).1 :=
    fun entry hentry => congrArg BarData.user (hentries entry hentry)
  have hsystem : ∀ entry ∈ entries, entry.2.systemCpuLoad = (recomputed l entry.1).2 :=
    fun entry hentry => congrArg BarData.system (hentries entry hentry)
  rw [sum_map_recomputed, List.map_map, List.map_map, userLoad, systemLoad]
  exact congrArg₂ _ (congrArg _ (List.map_congr_left huser))
    (congrArg _ (List.map_congr_left hsystem))

/-- A selection of entries is one of their names. -/
theorem isTop_names {count : ℕ} {selected rejected : List (String × ProcNameStat)}
    (hentries : ∀ entry ∈ entries, BarData.ofEntry entry = nameBar l entry.1)
    (h : IsTop load count entries selected rejected)
    (hnames : (entries.map Prod.fst).Perm (names l)) :
    IsTop (fun name => (nameBar l name).total) count (names l) (selected.map Prod.fst)
      (rejected.map Prod.fst) := by
  have hload : ∀ entry ∈ entries, load entry = (nameBar l entry.1).total :=
    fun entry hentry => congrArg BarData.total (hentries entry hentry)
  refine ⟨?_, ?_, ?_⟩
  · rw [← List.map_append]
    exact hnames.symm.trans (h.perm.map _)
  · rw [List.length_map, h.length, ← hnames.length_eq, List.length_map]
  · intro a ha b hb
    obtain ⟨entry, hentry, rfl⟩ := List.mem_map.mp ha
    obtain ⟨entry', hentry', rfl⟩ := List.mem_map.mp hb
    rw [← hload _ (h.perm.symm.subset (List.mem_append_left _ hentry)),
      ← hload _ (h.perm.symm.subset (List.mem_append_right _ hentry'))]
    exact h.best _ hentry _ hentry'

/-- **The chart of loads that are right** is that of the latest loads. -/
theorem showsLatest_updateBarChart (H : StdHeap) (S : StdSort) (bars : ℕ → BarData) {numBars : ℕ}
    (hbars : 2 ≤ numBars) (hagrees : Agrees (.ofReports l) l) (hload : 0 < cpuLoad l) :
    ∃ chart, updateBarChart H S bars numBars (Handler.ofReports l).processNameMap = .ok chart ∧
      ShowsLatest numBars l chart := by
  have hentries : ∀ entry ∈ (Handler.ofReports l).processNameMap.toList,
      BarData.ofEntry entry = nameBar l entry.1 := fun _ => Handler.ofEntry_eq hagrees
  have hnames := Handler.keys_ofReports_perm l
  have hstart : Selecting numBars [] [] []
      { heap := [], bars, totalUserCpuLoad := 0, totalSystemCpuLoad := 0 } :=
    ⟨.nil load _, .nil bars, rfl, rfl⟩
  obtain ⟨s, selected, rejected, hrun, h⟩ :=
    hstart.run H hbars (Handler.ofReports l).processNameMap.toList
  rw [List.nil_append] at h
  obtain ⟨hutilization, hrendered, hsorted⟩ := h.render S
  have hloads := loads_eq hentries
  rw [(hnames.map (recomputed l)).sum_eq, sum_recomputed] at hloads
  have htotal : totalLoad (Handler.ofReports l).processNameMap.toList = cpuLoad l := by
    rw [totalLoad, cpuLoad, ← hloads]
  have hselected : ∀ entry ∈ selected, BarData.ofEntry entry = nameBar l entry.1 :=
    fun entry hentry => hentries entry (h.isTop.perm.symm.subset (List.mem_append_left _ hentry))
  have hrejected : ∀ entry ∈ rejected, BarData.ofEntry entry = nameBar l entry.1 :=
    fun entry hentry => hentries entry (h.isTop.perm.symm.subset (List.mem_append_right _ hentry))
  have hothers : others rejected = restBar l (rejected.map Prod.fst) := by
    have hrest := loads_eq hrejected
    rw [sum_map_recomputed] at hrest
    rw [others, restBar, (Prod.mk.inj hrest).1, (Prod.mk.inj hrest).2]
  refine ⟨s.render S numBars, ?_, ?_, ⟨_, _, isTop_names hentries h.isTop hnames, ?_⟩, ?_, hsorted⟩
  · rw [updateBarChart, hrun, ok_bind]
    rfl
  · rw [hutilization, htotal]
  · refine hrendered.trans (List.Perm.of_eq ?_)
    rw [chart, htotal, hothers, List.map_append, List.map_map, List.map_map, List.map_singleton]
    exact congrArg (· ++ _) (List.map_congr_left fun entry hentry =>
      congrArg (BarData.share (cpuLoad l)) (hselected entry hentry))
  · rw [(hrendered.map _).sum_eq]
    exact sum_chart h.isTop.perm (by rw [htotal]; exact hload.ne')

end

/-! ## All calls -/

namespace Charting

/-- What is known of the chart: it is the one of the handler's loads at the time, and updates are
half a second apart. -/
structure Inv (H : StdHeap) (S : StdSort) (c : Charting) : Prop where
  /-- the loads are those of the messages -/
  handler : c.handler = .run c.msgs
  /-- charts are made of the loads -/
  updates : ∀ u ∈ c.updates, u.msgs <+: c.msgs ∧ (Handler.run u.msgs).ended = false ∧
    ∃ bars, u.chart = updateBarChart H S bars numProcessesToDisplay
      (Handler.run u.msgs).processNameMap
  /-- the time of the last chart, or of the start -/
  last : ∀ u ∈ c.updates.getLast?, u.timestamp = c.timestamp
  /-- charts are apart -/
  spaced : c.updates.IsChain fun u v => u.timestamp + 1 / 2 < v.timestamp

variable {H : StdHeap} {S : StdSort}

theorem inv_onInit (timestamp : ℚ) : Inv H S (onInit timestamp) where
  handler := rfl
  updates := List.forall_mem_nil _
  last _ hu := by cases hu
  spaced := .nil

/-- **A call** keeps what is known. -/
theorem Inv.handle {c : Charting} (h : Inv H S c) (call : ChartCall) :
    Inv H S (c.handle H S call) := by
  have hhandler : c.handler.handle call.msg = .run (c.msgs ++ [call.msg]) := by
    rw [h.handler, Handler.run, Handler.run, List.foldl_append]
    rfl
  have hold : ∀ u ∈ c.updates, u.msgs <+: c.msgs ++ [call.msg] ∧
      (Handler.run u.msgs).ended = false ∧ ∃ bars, u.chart =
        updateBarChart H S bars numProcessesToDisplay (Handler.run u.msgs).processNameMap :=
    fun u hu => ⟨(h.updates u hu).1.trans (List.prefix_append ..), (h.updates u hu).2⟩
  rw [Charting.handle]
  split
  · exact ⟨hhandler, hold, h.last, h.spaced⟩
  next hended =>
  split
  · next hdue =>
    refine ⟨hhandler, List.forall_mem_append.mpr ⟨hold, List.forall_mem_singleton.mpr ?_⟩,
      fun u hu => ?_, List.isChain_append.mpr ⟨h.spaced, List.isChain_singleton _, ?_⟩⟩
    · rw [hhandler] at hended ⊢
      exact ⟨List.prefix_refl _, Bool.eq_false_iff.mpr hended, call.bars, rfl⟩
    · rw [List.getLast?_concat] at hu
      obtain rfl := Option.some.inj hu
      rfl
    · intro u hu v hv
      obtain rfl := Option.some.inj hv
      rw [h.last u hu]
      rw [framesPerSec] at hdue
      linarith
  · exact ⟨hhandler, hold, h.last, h.spaced⟩

theorem Inv.run (timestamp : ℚ) (calls : List ChartCall) :
    Inv H S (Charting.run H S timestamp calls) := by
  induction calls using List.reverseRecOn with
  | nil => exact inv_onInit timestamp
  | append_singleton calls call ih =>
    rw [Charting.run, List.foldl_append]
    exact ih.handle call

theorem msgs_handle (c : Charting) (call : ChartCall) :
    (c.handle H S call).msgs = c.msgs ++ [call.msg] := by
  rw [Charting.handle]
  split_ifs <;> rfl

theorem msgs_run (timestamp : ℚ) (calls : List ChartCall) :
    (Charting.run H S timestamp calls).msgs = calls.map (·.msg) := by
  induction calls using List.reverseRecOn with
  | nil => rfl
  | append_singleton calls call ih =>
    rw [List.map_append, ← ih, Charting.run, Charting.run, List.foldl_append]
    exact msgs_handle _ call

end Charting

/-- **Charts show the latest loads**, where reports are taken down right: each chart of a positive
load is that of the messages handled by then, and charts are more than half a second apart. -/
theorem charts_right (H : StdHeap) (S : StdSort) (timestamp : ℚ) (calls : List ChartCall)
    (hreports : TransitionSystem.Meets (fun l r => l ++ [r]) Accountable []
      (reports (calls.map (·.msg)))) :
    ((Charting.run H S timestamp calls).updates.IsChain fun u v =>
        u.timestamp + 1 / 2 < v.timestamp) ∧
      ∀ u ∈ (Charting.run H S timestamp calls).updates,
        u.msgs <+: calls.map (·.msg) ∧ (0 < cpuLoad (reports u.msgs) → ∃ chart,
          u.chart = .ok chart ∧ ShowsLatest numProcessesToDisplay (reports u.msgs) chart) := by
  have h := Charting.Inv.run (H := H) (S := S) timestamp calls
  refine ⟨h.spaced, fun u hu => ?_⟩
  obtain ⟨hpre, -, bars, hchart⟩ := h.updates u hu
  rw [Charting.msgs_run] at hpre
  refine ⟨hpre, fun hload => ?_⟩
  have hagrees := agrees_of_meets (hreports.of_isPrefix (reports_isPrefix hpre))
  have hmap : (Handler.run u.msgs).processNameMap =
      (Handler.ofReports (reports u.msgs)).processNameMap :=
    Handler.processNameMap_foldl_handle rfl u.msgs
  rw [hchart, hmap]
  exact showsLatest_updateBarChart H S bars (by decide) hagrees hload

/-- A host reports a load of 3 for one process, and half a second later 1 for another. -/
def twoCalls : List ChartCall :=
  [{ msg := reportOf "tile-1" 23 "sh" 3, timestampNow := 1, bars := fun _ => ⟨"", 0, 0⟩ },
    { msg := reportOf "tile-1" 24 "make" 1, timestampNow := 2, bars := fun _ => ⟨"", 0, 0⟩ }]

/-- Two charts, the second with two names. -/
theorem charts_right_twoCalls :
    ∃ updates, (Charting.run (.sorting .insertion) .insertion 0 twoCalls).updates = updates ∧
      updates.map (·.chart) = [
        .ok (3 / 2900, [⟨"sh", 100, 0⟩, ⟨"others", 0, 0⟩]),
        .ok (4 / 2900, [⟨"sh", 75, 0⟩, ⟨"make", 25, 0⟩, ⟨"others", 0, 0⟩])] ∧
      updates.IsChain fun u v => u.timestamp + 1 / 2 < v.timestamp := by
  refine ⟨_, rfl, by decide +kernel, ?_⟩
  refine (charts_right (.sorting .insertion) .insertion 0 twoCalls ⟨?_, ?_, trivial⟩).1
  · exact .of_apart (List.forall_mem_nil _) (List.forall_mem_nil _)
  · exact .of_apart (List.forall_mem_singleton.mpr fun heq => absurd heq (by decide +kernel))
      (List.forall_mem_singleton.mpr fun heq => absurd heq (by decide +kernel))

end BarChart

end WallMon
