import WallMon.CheckedInt
import WallMon.Heaps
import Mathlib.Algebra.BigOperators.Group.List.Basic
import Mathlib.Tactic.FieldSimp
import Mathlib.Tactic.Linarith
import Mathlib.Tactic.Ring
import Std.Data.TreeMap

/-!
# The bar chart: `Handler::_UpdateBarChart`

The module `barchart` shows the process names with the highest load, and a bar "others" with the
rest. The names are looked through once. A min-heap of pointers to bars keeps the highest so
far; the least one is overwritten when a higher one comes, while its pointer is out of the heap.

A `double` is a rational number here, and `std::map` is `Std.TreeMap`. A pointer to a bar is its
index in `barDataArray`, and the first one past the array is that of the bar "others". A local
`BarData` has no values at first; `bars` says what lies there. To read the front of an empty
heap is a `Fault`.
-/

namespace WallMon

namespace BarChart

/-! ## Data -/

/-- `ProcStat`, as far as it is used. -/
structure ProcStat where
  /-- `userCpuLoad` -/
  userCpuLoad : ℚ
  /-- `systemCpuLoad` -/
  systemCpuLoad : ℚ
  deriving DecidableEq

/-- `ProcNameStat` -/
structure ProcNameStat where
  /-- `procMap` -/
  procMap : Std.TreeMap String ProcStat
  /-- `userCpuLoad` -/
  userCpuLoad : ℚ
  /-- `systemCpuLoad` -/
  systemCpuLoad : ℚ

/-- `ProcNameMap` -/
abbrev ProcNameMap := Std.TreeMap String ProcNameStat

/-- `BarData` -/
structure BarData where
  /-- `label` -/
  label : String
  /-- `user` -/
  user : ℚ
  /-- `system` -/
  system : ℚ
  deriving DecidableEq

/-- What a bar shows in all -/
def BarData.total (bar : BarData) : ℚ := bar.user + bar.system

/-- The bar of a process name: its loads -/
def BarData.ofEntry (entry : String × ProcNameStat) : BarData :=
  { label := entry.1, user := entry.2.userCpuLoad, system := entry.2.systemCpuLoad }

/-- `(load / totalCpuLoad) * 100.`, for both loads of a bar -/
def BarData.share (totalCpuLoad : ℚ) (bar : BarData) : BarData :=
  { bar with user := bar.user / totalCpuLoad * 100, system := bar.system / totalCpuLoad * 100 }

/-- `MinHeapCompare` -/
def minHeapCompare (bars : ℕ → BarData) (a b : ℕ) : Bool :=
  (bars a).user + (bars a).system > (bars b).user + (bars b).system

/-! ## The function -/

/-- The variables of the first loop -/
structure Selection where
  /-- `heap` -/
  heap : List ℕ
  /-- what the pointers point to -/
  bars : ℕ → BarData
  /-- `totalUserCpuLoad` -/
  totalUserCpuLoad : ℚ
  /-- `totalSystemCpuLoad` -/
  totalSystemCpuLoad : ℚ

/-- A bar is put into the heap, or the least one of a full heap is overwritten by it. -/
def Selection.put (H : StdHeap) (numBars : ℕ) (s : Selection) (bar : BarData) :
    Except Fault Selection :=
  if s.heap.length < numBars - 1 then
    let bars := Function.update s.bars s.heap.length bar
    .ok { s with bars, heap := H.push (minHeapCompare bars) (s.heap ++ [s.heap.length]) }
  else
    match s.heap.head? with
    | none => .error .outOfBounds
    | some min =>
      if bar.user + bar.system > (s.bars min).user + (s.bars min).system then
        let popped := H.pop (minHeapCompare s.bars) s.heap
        let bars := Function.update s.bars min bar
        .ok { s with bars, heap := H.push (minHeapCompare bars) popped }
      else
        .ok s

/-- The body of the first loop -/
def Selection.next (H : StdHeap) (numBars : ℕ) (s : Selection) (entry : String × ProcNameStat) :
    Except Fault Selection :=
  { s with
    totalUserCpuLoad := s.totalUserCpuLoad + entry.2.userCpuLoad
    totalSystemCpuLoad := s.totalSystemCpuLoad + entry.2.systemCpuLoad }.put H numBars
      (.ofEntry entry)

/-- The variables of the second loop -/
structure Remainder where
  /-- what the pointers point to -/
  bars : ℕ → BarData
  /-- `othersUserCpuLoad` -/
  othersUserCpuLoad : ℚ
  /-- `othersSystemCpuLoad` -/
  othersSystemCpuLoad : ℚ

/-- The body of the second loop -/
def Remainder.next (totalCpuLoad : ℚ) (r : Remainder) (barData : ℕ) : Remainder where
  bars := Function.update r.bars barData ((r.bars barData).share totalCpuLoad)
  othersUserCpuLoad := r.othersUserCpuLoad - (r.bars barData).user
  othersSystemCpuLoad := r.othersSystemCpuLoad - (r.bars barData).system

/-- The part after the first loop, up to the call of `Render`: the arguments of the call -/
def Selection.render (S : StdSort) (numBars : ℕ) (s : Selection) : ℚ × List BarData :=
  let totalCpuLoad := s.totalUserCpuLoad + s.totalSystemCpuLoad
  let r := s.heap.foldl (Remainder.next totalCpuLoad)
    { bars := s.bars
      othersUserCpuLoad := s.totalUserCpuLoad
      othersSystemCpuLoad := s.totalSystemCpuLoad }
  let others : BarData :=
    { label := "others", user := r.othersUserCpuLoad, system := r.othersSystemCpuLoad }
  let bars := Function.update r.bars (numBars - 1) (others.share totalCpuLoad)
  let heap := S.sort (minHeapCompare bars) (s.heap ++ [numBars - 1])
  (totalCpuLoad / 2900, heap.map bars)

/-- `_UpdateBarChart` -/
def updateBarChart (H : StdHeap) (S : StdSort) (bars : ℕ → BarData) (numBars : ℕ)
    (processNameMap : ProcNameMap) : Except Fault (ℚ × List BarData) := do
  let s ← processNameMap.toList.foldlM (Selection.next H numBars)
    { heap := [], bars, totalUserCpuLoad := 0, totalSystemCpuLoad := 0 }
  return s.render S numBars

/-! ## The selection -/

/-- The user loads of some names in all -/
def userLoad (l : List (String × ProcNameStat)) : ℚ := (l.map fun entry => entry.2.userCpuLoad).sum

/-- The system loads of some names in all -/
def systemLoad (l : List (String × ProcNameStat)) : ℚ :=
  (l.map fun entry => entry.2.systemCpuLoad).sum

/-- The load of a name in all -/
def load (entry : String × ProcNameStat) : ℚ := (BarData.ofEntry entry).total

theorem userLoad_perm {l l' : List (String × ProcNameStat)} (h : l.Perm l') :
    userLoad l = userLoad l' := (h.map _).sum_eq

theorem systemLoad_perm {l l' : List (String × ProcNameStat)} (h : l.Perm l') :
    systemLoad l = systemLoad l' := (h.map _).sum_eq

theorem userLoad_append (l l' : List (String × ProcNameStat)) :
    userLoad (l ++ l') = userLoad l + userLoad l' := by
  rw [userLoad, List.map_append, List.sum_append, userLoad, userLoad]

theorem systemLoad_append (l l' : List (String × ProcNameStat)) :
    systemLoad (l ++ l') = systemLoad l + systemLoad l' := by
  rw [systemLoad, List.map_append, List.sum_append, systemLoad, systemLoad]

/-- The memory that pointers point to: a heap of pointers to the bars of the selected names. -/
structure Holds (heap : List ℕ) (bars : ℕ → BarData)
    (selected : List (String × ProcNameStat)) : Prop where
  /-- the bars are those of the names -/
  entries : (heap.map bars).Perm (selected.map BarData.ofEntry)
  /-- the first bar is the least -/
  isHeap : IsHeap (minHeapCompare bars) heap
  /-- the slots up to the size of the heap are in use -/
  pointers : heap.Perm (List.range heap.length)

theorem strictWeak_minHeapCompare (bars : ℕ → BarData) : StrictWeak (minHeapCompare bars) := by
  refine strictWeak_of_value (fun p => -(bars p).total) fun a b => ?_
  rw [minHeapCompare, decide_eq_true_eq, neg_lt_neg_iff]
  rfl

theorem minHeapCompare_eq_false {bars : ℕ → BarData} {a b : ℕ} :
    minHeapCompare bars a b = false ↔ (bars a).total ≤ (bars b).total := by
  rw [minHeapCompare, decide_eq_false_iff_not, gt_iff_lt, not_lt]
  rfl

/-- Bars that are not in the heap may change. -/
theorem isHeap_update {heap : List ℕ} {bars : ℕ → BarData} {p : ℕ} (bar : BarData) (hp : p ∉ heap)
    (h : IsHeap (minHeapCompare bars) heap) :
    IsHeap (minHeapCompare (Function.update bars p bar)) heap := by
  refine h.congr fun a ha b hb => ?_
  have hne : ∀ q ∈ heap, q ≠ p := fun q hq heq => hp (heq ▸ hq)
  rw [minHeapCompare, minHeapCompare, Function.update_of_ne (hne a ha),
    Function.update_of_ne (hne b hb)]

theorem map_update {heap : List ℕ} {bars : ℕ → BarData} {p : ℕ} (bar : BarData) (hp : p ∉ heap) :
    heap.map (Function.update bars p bar) = heap.map bars :=
  List.map_congr_left fun _ hq => Function.update_of_ne (fun heq => hp (by rwa [← heq])) ..

/-- A bar is written to a slot out of the heap, and its pointer pushed. -/
theorem Holds.push (H : StdHeap) {heap : List ℕ} {bars : ℕ → BarData} {p : ℕ}
    {selected : List (String × ProcNameStat)} (entry : String × ProcNameStat)
    (hbars : (heap.map bars).Perm (selected.map BarData.ofEntry))
    (hheap : IsHeap (minHeapCompare bars) heap)
    (hpointers : (heap ++ [p]).Perm (List.range (heap.length + 1))) :
    Holds (H.push (minHeapCompare (Function.update bars p (.ofEntry entry))) (heap ++ [p]))
      (Function.update bars p (.ofEntry entry)) (selected ++ [entry]) := by
  have hp : p ∉ heap := by
    have hnodup := hpointers.nodup_iff.mpr List.nodup_range
    exact fun hmem => (List.nodup_append.mp hnodup).2.2 p hmem p (by simp) rfl
  have hweak := strictWeak_minHeapCompare (Function.update bars p (.ofEntry entry))
  have hheap := isHeap_update (.ofEntry entry) hp hheap
  have hperm := H.push_perm hweak heap p hheap
  refine ⟨?_, ?_, ?_⟩
  · refine (hperm.map _).trans ?_
    rw [List.map_append, map_update _ hp, List.map_append, List.map_singleton,
      Function.update_self, List.map_singleton]
    exact hbars.append_right _
  · exact H.push_isHeap hweak heap p hheap
  · rw [hperm.length_eq, List.length_append, List.length_singleton]
    exact hperm.trans hpointers

/-- **A place is free**: the bar is put into it. -/
theorem Holds.fill (H : StdHeap) {heap : List ℕ} {bars : ℕ → BarData}
    {selected : List (String × ProcNameStat)} (h : Holds heap bars selected)
    (entry : String × ProcNameStat) :
    Holds (H.push (minHeapCompare (Function.update bars heap.length (.ofEntry entry)))
      (heap ++ [heap.length])) (Function.update bars heap.length (.ofEntry entry))
      (selected ++ [entry]) := by
  refine Holds.push H entry h.entries h.isHeap ?_
  rw [List.range_succ]
  exact h.pointers.append_right _

/-- **A name has to go**: the bar of a name with the least load is overwritten. -/
theorem Holds.replace (H : StdHeap) {front : ℕ} {rest : List ℕ} {bars : ℕ → BarData}
    {selected : List (String × ProcNameStat)} (h : Holds (front :: rest) bars selected)
    (entry : String × ProcNameStat) :
    ∃ removed kept, selected.Perm (removed :: kept) ∧
      load removed = (bars front).total ∧
      Holds (H.push (minHeapCompare (Function.update bars front (.ofEntry entry)))
        (H.pop (minHeapCompare bars) (front :: rest)))
        (Function.update bars front (.ofEntry entry)) (kept ++ [entry]) := by
  obtain ⟨popped, hpop, hperm, hheap⟩ :=
    H.pop_spec (strictWeak_minHeapCompare bars) front rest h.isHeap
  -- the name whose bar comes first
  have hmem : bars front ∈ selected.map BarData.ofEntry :=
    h.entries.subset (List.mem_cons_self ..)
  obtain ⟨removed, hremoved, heq⟩ := List.mem_map.mp hmem
  obtain ⟨before, after, hselected⟩ := List.append_of_mem hremoved
  have hkept : selected.Perm (removed :: (before ++ after)) :=
    hselected ▸ List.perm_middle
  refine ⟨removed, before ++ after, hkept, by rw [load, heq], ?_⟩
  rw [hpop]
  refine Holds.push H entry ?_ hheap ?_
  · have hbars := h.entries.trans (hkept.map BarData.ofEntry)
    rw [List.map_cons, List.map_cons, heq] at hbars
    exact (hperm.map bars).trans hbars.cons_inv
  · have hfront : (popped ++ [front]).Perm (front :: rest) :=
      (List.perm_append_singleton front popped).trans (hperm.cons front)
    rw [hperm.length_eq]
    exact hfront.trans h.pointers

/-- What the first loop knows after some names. -/
structure Selecting (numBars : ℕ) (done selected rejected : List (String × ProcNameStat))
    (s : Selection) : Prop where
  /-- the selection is right so far -/
  isTop : IsTop load (numBars - 1) done selected rejected
  /-- the heap holds it -/
  holds : Holds s.heap s.bars selected
  /-- the loads so far -/
  user : s.totalUserCpuLoad = userLoad done
  /-- the loads so far -/
  system : s.totalSystemCpuLoad = systemLoad done

theorem Holds.nil (bars : ℕ → BarData) : Holds [] bars [] where
  entries := .refl _
  isHeap _ _ _ hparent := nomatch hparent
  pointers := .refl _

theorem Holds.length_eq {heap : List ℕ} {bars : ℕ → BarData}
    {selected : List (String × ProcNameStat)} (h : Holds heap bars selected) :
    heap.length = selected.length := by
  rw [← List.length_map (f := bars), h.entries.length_eq, List.length_map]

/-- The bar at the front of the heap is a least one. -/
theorem Holds.front_le {front : ℕ} {rest : List ℕ} {bars : ℕ → BarData}
    {selected : List (String × ProcNameStat)} (h : Holds (front :: rest) bars selected)
    {a : String × ProcNameStat} (ha : a ∈ selected) : (bars front).total ≤ load a := by
  have hmem := h.entries.symm.subset (List.mem_map_of_mem (f := BarData.ofEntry) ha)
  obtain ⟨p, hp, heq⟩ := List.mem_map.mp hmem
  rw [load, ← heq]
  exact minHeapCompare_eq_false.mp
    (h.isHeap.front_max (strictWeak_minHeapCompare bars) hp)

/-- **One name more**: the selection stays right. -/
theorem Selecting.next (H : StdHeap) {numBars : ℕ} (hbars : 2 ≤ numBars)
    {done selected rejected : List (String × ProcNameStat)} {s : Selection}
    (h : Selecting numBars done selected rejected s) (entry : String × ProcNameStat) :
    ∃ s' selected' rejected', s.next H numBars entry = .ok s' ∧
      Selecting numBars (done ++ [entry]) selected' rejected' s' := by
  have hlength := h.holds.length_eq
  have huser : s.totalUserCpuLoad + entry.2.userCpuLoad = userLoad (done ++ [entry]) := by
    rw [h.user, userLoad_append]
    simp [userLoad]
  have hsystem : s.totalSystemCpuLoad + entry.2.systemCpuLoad = systemLoad (done ++ [entry]) := by
    rw [h.system, systemLoad_append]
    simp [systemLoad]
  rw [Selection.next, Selection.put]
  split
  case isTrue hfree =>
    dsimp only at hfree
    exact ⟨_, selected ++ [entry], rejected, rfl, h.isTop.fill (by omega) entry,
      h.holds.fill H entry, huser, hsystem⟩
  case isFalse hfull =>
    dsimp only at hfull
    obtain ⟨front, rest, hheap⟩ := List.exists_cons_of_length_pos (l := s.heap) (by omega)
    have hholds := hheap ▸ h.holds
    rw [hheap, List.head?_cons]
    dsimp only
    split
    case isTrue hgreater =>
      obtain ⟨removed, kept, hkept, hremoved, hholds'⟩ := hholds.replace H entry
      refine ⟨_, kept ++ [entry], removed :: rejected, rfl, ?_, hholds', huser, hsystem⟩
      refine h.isTop.replace (by omega) hkept (fun a ha => ?_) ?_
      · exact hremoved.le.trans (hholds.front_le ha)
      · exact hremoved.le.trans hgreater.le
    case isFalse hle =>
      refine ⟨_, selected, rejected ++ [entry], rfl, ?_, hholds, huser, hsystem⟩
      exact h.isTop.reject (by omega) fun a ha => (not_lt.mp hle).trans (hholds.front_le ha)

/-- **All names**: the first loop selects names with the highest loads. -/
theorem Selecting.run (H : StdHeap) {numBars : ℕ} (hbars : 2 ≤ numBars)
    (entries : List (String × ProcNameStat)) {done selected rejected} {s : Selection}
    (h : Selecting numBars done selected rejected s) :
    ∃ s' selected' rejected', entries.foldlM (Selection.next H numBars) s = .ok s' ∧
      Selecting numBars (done ++ entries) selected' rejected' s' := by
  induction entries generalizing done selected rejected s with
  | nil => exact ⟨s, selected, rejected, rfl, by rwa [List.append_nil]⟩
  | cons entry entries ih =>
    obtain ⟨s₁, selected₁, rejected₁, hnext, h₁⟩ := h.next H hbars entry
    obtain ⟨s₂, selected₂, rejected₂, hrun, h₂⟩ := ih h₁
    refine ⟨s₂, selected₂, rejected₂, ?_, ?_⟩
    · rw [List.foldlM_cons, hnext, ok_bind, hrun]
    · rwa [List.append_assoc] at h₂

/-! ## The shares -/

theorem BarData.total_share (totalCpuLoad : ℚ) (bar : BarData) :
    (bar.share totalCpuLoad).total = bar.total / totalCpuLoad * 100 := by
  rw [total, total, share]
  ring

/-- The second loop turns the bars in the heap into shares, and takes their loads away. -/
theorem Remainder.foldl_next (totalCpuLoad : ℚ) {heap : List ℕ} (hheap : heap.Nodup)
    (r : Remainder) :
    (∀ p ∈ heap, (heap.foldl (next totalCpuLoad) r).bars p = (r.bars p).share totalCpuLoad) ∧
      (∀ p ∉ heap, (heap.foldl (next totalCpuLoad) r).bars p = r.bars p) ∧
      (heap.foldl (next totalCpuLoad) r).othersUserCpuLoad =
        r.othersUserCpuLoad - (heap.map fun p => (r.bars p).user).sum ∧
      (heap.foldl (next totalCpuLoad) r).othersSystemCpuLoad =
        r.othersSystemCpuLoad - (heap.map fun p => (r.bars p).system).sum := by
  induction heap generalizing r with
  | nil => simp
  | cons p heap ih =>
    obtain ⟨hp, hheap⟩ := List.nodup_cons.mp hheap
    obtain ⟨hin, hout, huser, hsystem⟩ := ih hheap (r.next totalCpuLoad p)
    -- the other bars are as before
    have hne : ∀ q, q ≠ p → (r.next totalCpuLoad p).bars q = r.bars q := fun q hq =>
      Function.update_of_ne hq ..
    have hne' : ∀ q ∈ heap, (r.next totalCpuLoad p).bars q = r.bars q := fun q hq =>
      hne q fun heq => hp (heq ▸ hq)
    rw [List.foldl_cons]
    refine ⟨fun q hq => ?_, fun q hq => ?_, ?_, ?_⟩
    · rcases List.mem_cons.mp hq with rfl | hq
      · rw [hout q hp]
        exact Function.update_self ..
      · rw [hin q hq, hne' q hq]
    · rw [List.mem_cons, not_or] at hq
      rw [hout q hq.2, hne q hq.1]
    · rw [huser, List.map_congr_left fun q hq => by rw [hne' q hq], List.map_cons, List.sum_cons]
      exact sub_sub ..
    · rw [hsystem, List.map_congr_left fun q hq => by rw [hne' q hq], List.map_cons,
        List.sum_cons]
      exact sub_sub ..

/-- The bars in the heap have in all what the names have. -/
theorem Holds.sum_eq {heap : List ℕ} {bars : ℕ → BarData}
    {selected : List (String × ProcNameStat)} (h : Holds heap bars selected)
    (field : BarData → ℚ) :
    (heap.map fun p => field (bars p)).sum =
      (selected.map fun entry => field (.ofEntry entry)).sum := by
  have hperm := (h.entries.map field).sum_eq
  rwa [List.map_map, List.map_map] at hperm

/-- The second loop, from a heap that holds the selected names. -/
theorem Holds.foldl_next {heap : List ℕ} {bars : ℕ → BarData}
    {selected : List (String × ProcNameStat)} (h : Holds heap bars selected)
    (totalCpuLoad user system : ℚ) :
    (heap.map (heap.foldl (Remainder.next totalCpuLoad) ⟨bars, user, system⟩).bars).Perm
        (selected.map fun entry => (BarData.ofEntry entry).share totalCpuLoad) ∧
      (heap.foldl (Remainder.next totalCpuLoad) ⟨bars, user, system⟩).othersUserCpuLoad =
        user - userLoad selected ∧
      (heap.foldl (Remainder.next totalCpuLoad) ⟨bars, user, system⟩).othersSystemCpuLoad =
        system - systemLoad selected := by
  have hnodup : heap.Nodup := h.pointers.nodup_iff.mpr List.nodup_range
  obtain ⟨hin, -, huser, hsystem⟩ :=
    Remainder.foldl_next totalCpuLoad hnodup ⟨bars, user, system⟩
  refine ⟨?_, ?_, ?_⟩
  · have hperm := h.entries.map (BarData.share totalCpuLoad)
    rw [List.map_map, List.map_map] at hperm
    rw [List.map_congr_left hin]
    exact hperm
  · rw [huser]
    exact congrArg (user - ·) (h.sum_eq BarData.user)
  · rw [hsystem]
    exact congrArg (system - ·) (h.sum_eq BarData.system)

/-- The loads of some names in all -/
def totalLoad (l : List (String × ProcNameStat)) : ℚ := userLoad l + systemLoad l

/-- The bar "others": what the names that are not selected have. -/
def others (rejected : List (String × ProcNameStat)) : BarData :=
  { label := "others", user := userLoad rejected, system := systemLoad rejected }

theorem totalLoad_cons (entry : String × ProcNameStat) (l : List (String × ProcNameStat)) :
    totalLoad (entry :: l) = load entry + totalLoad l := by
  rw [totalLoad, userLoad, systemLoad, List.map_cons, List.sum_cons, List.map_cons, List.sum_cons]
  exact add_add_add_comm ..

theorem totalLoad_append (l l' : List (String × ProcNameStat)) :
    totalLoad (l ++ l') = totalLoad l + totalLoad l' := by
  rw [totalLoad, userLoad_append, systemLoad_append]
  exact add_add_add_comm ..

theorem totalLoad_perm {l l' : List (String × ProcNameStat)} (h : l.Perm l') :
    totalLoad l = totalLoad l' := by
  rw [totalLoad, userLoad_perm h, systemLoad_perm h, totalLoad]

theorem sum_share (totalCpuLoad : ℚ) (l : List (String × ProcNameStat)) :
    (l.map fun entry => ((BarData.ofEntry entry).share totalCpuLoad).total).sum =
      totalLoad l / totalCpuLoad * 100 := by
  induction l with
  | nil => simp [totalLoad, userLoad, systemLoad]
  | cons entry l ih =>
    rw [List.map_cons, List.sum_cons, ih, totalLoad_cons, BarData.total_share, load]
    ring

/-- What is handed to `Render`, in some order. -/
def chart (totalCpuLoad : ℚ) (selected rejected : List (String × ProcNameStat)) : List BarData :=
  selected.map (fun entry => (BarData.ofEntry entry).share totalCpuLoad) ++
    [(others rejected).share totalCpuLoad]

/-- The shares of all names sum to 100 percent. -/
theorem sum_chart {entries selected rejected : List (String × ProcNameStat)}
    (hperm : entries.Perm (selected ++ rejected)) (htotal : totalLoad entries ≠ 0) :
    ((chart (totalLoad entries) selected rejected).map BarData.total).sum = 100 := by
  have hselected := sum_share (totalLoad entries) selected
  have hothers : (others rejected).total = totalLoad rejected := rfl
  have hsum : totalLoad entries = totalLoad selected + totalLoad rejected := by
    rw [totalLoad_perm hperm, totalLoad_append]
  rw [chart, List.map_append, List.sum_append, List.map_map, List.map_singleton,
    List.sum_singleton, BarData.total_share, hothers]
  calc _ = totalLoad selected / totalLoad entries * 100 +
        totalLoad rejected / totalLoad entries * 100 := congrArg (· + _) hselected
    _ = totalLoad entries / totalLoad entries * 100 := by
        rw [← add_mul, ← add_div, ← hsum]
    _ = 100 := by rw [div_self htotal, one_mul]

/-- A heap with one more bar, sorted. -/
theorem render_perm (S : StdSort) {heap : List ℕ} {bars : ℕ → BarData} {p : ℕ} (hp : p ∉ heap)
    (bar : BarData) :
    ((S.sort (minHeapCompare (Function.update bars p bar)) (heap ++ [p])).map
        (Function.update bars p bar)).Perm (heap.map bars ++ [bar]) := by
  have hweak := strictWeak_minHeapCompare (Function.update bars p bar)
  have hperm := (S.perm hweak (heap ++ [p])).map (Function.update bars p bar)
  rwa [List.map_append, map_update bar hp, List.map_singleton, Function.update_self] at hperm

theorem render_sorted (S : StdSort) (bars : ℕ → BarData) (heap : List ℕ) :
    ((S.sort (minHeapCompare bars) heap).map bars).Pairwise fun a b => b.total ≤ a.total := by
  have hsorted := S.sorted (strictWeak_minHeapCompare bars) heap
  exact List.pairwise_map.mpr (hsorted.imp minHeapCompare_eq_false.mp)

/-- **After the first loop**: the selected names and the rest are handed to `Render`. -/
theorem Selecting.render (S : StdSort) {numBars : ℕ}
    {entries selected rejected : List (String × ProcNameStat)} {s : Selection}
    (h : Selecting numBars entries selected rejected s) :
    (s.render S numBars).1 = totalLoad entries / 2900 ∧
      (s.render S numBars).2.Perm (chart (totalLoad entries) selected rejected) ∧
      (s.render S numBars).2.Pairwise fun a b => b.total ≤ a.total := by
  obtain ⟨isTop, holds, huser, hsystem⟩ := h
  have htotal : s.totalUserCpuLoad + s.totalSystemCpuLoad = totalLoad entries := by
    rw [huser, hsystem, totalLoad]
  obtain ⟨hshares, hothersUser, hothersSystem⟩ := holds.foldl_next (totalLoad entries)
    s.totalUserCpuLoad s.totalSystemCpuLoad
  have hrestUser : s.totalUserCpuLoad - userLoad selected = userLoad rejected := by
    rw [huser, userLoad_perm isTop.perm, userLoad_append, add_sub_cancel_left]
  have hrestSystem : s.totalSystemCpuLoad - systemLoad selected = systemLoad rejected := by
    rw [hsystem, systemLoad_perm isTop.perm, systemLoad_append, add_sub_cancel_left]
  -- the bar "others" lies past the array
  have hpast : numBars - 1 ∉ s.heap := by
    have hlength := holds.length_eq
    have hcount := isTop.length
    rw [holds.pointers.mem_iff, List.mem_range]
    omega
  rw [Selection.render, htotal]
  refine ⟨rfl, ?_, render_sorted S _ _⟩
  refine (render_perm S hpast _).trans ?_
  rw [hothersUser, hothersSystem, hrestUser, hrestSystem]
  exact hshares.append_right _

/-- **Top names**: the chart shows the names with the highest loads, their shares, and the rest,
from the greatest share on. -/
theorem updateBarChart_top (H : StdHeap) (S : StdSort) (bars : ℕ → BarData) {numBars : ℕ}
    (hbars : 2 ≤ numBars) (m : ProcNameMap) (htotal : 0 < totalLoad m.toList) :
    ∃ selected rejected rendered,
      updateBarChart H S bars numBars m = .ok (totalLoad m.toList / 2900, rendered) ∧
      IsTop load (numBars - 1) m.toList selected rejected ∧
      (selected.map Prod.fst).Nodup ∧
      rendered.Perm (chart (totalLoad m.toList) selected rejected) ∧
      (rendered.map BarData.total).sum = 100 ∧
      rendered.Pairwise fun a b => b.total ≤ a.total := by
  have hstart : Selecting numBars [] [] []
      { heap := [], bars, totalUserCpuLoad := 0, totalSystemCpuLoad := 0 } :=
    ⟨.nil load _, .nil bars, rfl, rfl⟩
  obtain ⟨s, selected, rejected, hrun, h⟩ := hstart.run H hbars m.toList
  rw [List.nil_append] at h
  obtain ⟨hutilization, hrendered, hsorted⟩ := h.render S
  refine ⟨selected, rejected, (s.render S numBars).2, ?_, h.isTop, ?_, hrendered, ?_, hsorted⟩
  · rw [updateBarChart, hrun, ok_bind, ← hutilization]
    rfl
  · have hnames : (m.toList.map Prod.fst).Nodup := by
      rw [Std.TreeMap.map_fst_toList_eq_keys]
      exact Std.TreeMap.nodup_keys
    have hperm := (h.isTop.perm.map Prod.fst).nodup_iff.mp hnames
    rw [List.map_append] at hperm
    exact hperm.of_append_left
  · rw [(hrendered.map _).sum_eq]
    exact sum_chart h.isTop.perm htotal.ne'

/-- Three names, with loads of 1, 3 and 4 -/
def threeNames : ProcNameMap :=
  Std.TreeMap.empty.insert "init" ⟨∅, 1, 0⟩ |>.insert "make" ⟨∅, 1, 2⟩ |>.insert "ssh" ⟨∅, 0, 4⟩

/-- Two bars of three names: the first name has to go. -/
theorem updateBarChart_threeNames :
    ∃ selected rejected rendered,
      updateBarChart (.sorting .insertion) .insertion (fun _ => ⟨"", 0, 0⟩) 3 threeNames =
        .ok (totalLoad threeNames.toList / 2900, rendered) ∧
      IsTop load 2 threeNames.toList selected rejected ∧
      (selected.map Prod.fst).Nodup ∧
      rendered.Perm (chart (totalLoad threeNames.toList) selected rejected) ∧
      (rendered.map BarData.total).sum = 100 ∧
      rendered.Pairwise fun a b => b.total ≤ a.total :=
  updateBarChart_top (.sorting .insertion) .insertion _ (by decide) threeNames (by decide +kernel)

example : updateBarChart (.sorting .insertion) .insertion (fun _ => ⟨"", 0, 0⟩) 3 threeNames =
    .ok (8 / 2900, [⟨"ssh", 0, 50⟩, ⟨"make", 25 / 2, 25⟩, ⟨"others", 25 / 2, 0⟩]) := by
  decide +kernel

end BarChart

end WallMon
