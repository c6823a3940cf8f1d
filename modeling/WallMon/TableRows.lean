import Mathlib.Data.List.GetD
import WallMon.Table

/-!
# The items in a table's rows

What the operations of a table do to the items it holds, whatever groups these are in:
adding an item adds it, removing one removes it (`flatten_removeItem`), and everything
that state messages do leaves the items and the two queues as they are
(`processMessages_sameItems`).
-/

namespace WallMon

namespace Table

variable {ι : Type}

/-! ## Adding -/

theorem flatten_modify_append (items : List (List ι)) {i : ℕ} (hi : i < items.length) (item : ι) :
    (items.modify i (· ++ [item])).flatten.Perm (item :: items.flatten) := by
  induction items generalizing i with
  | nil => simp at hi
  | cons group items ih =>
    cases i with
    | zero =>
      simp only [List.modify_zero_cons, List.flatten_cons, List.append_assoc]
      exact List.perm_middle
    | succ i =>
      simp only [List.modify_succ_cons, List.flatten_cons]
      exact ((ih (Nat.lt_of_succ_lt_succ hi)).append_left group).trans List.perm_middle

/-- **Adding an item** adds it to the items held. -/
theorem flatten_addItem (heap : ι → TableItem) (item : ι) (items : List (List ι)) :
    (addItem heap item items).flatten.Perm (item :: items.flatten) := by
  rw [addItem]
  split
  · rw [List.flatten_append]
    exact List.perm_append_singleton item items.flatten
  · next i hi =>
    exact flatten_modify_append items (List.findIdx?_eq_some_iff_getElem.mp hi).1 item

/-! ## Removing -/

theorem mem_flatten_of_mem_getD {items : List (List ι)} {i : ℕ} {x : ι}
    (h : x ∈ items.getD i []) : x ∈ items.flatten := by
  rw [List.getD_eq_getElem?_getD] at h
  cases hget : items[i]? with
  | none =>
    rw [hget] at h
    cases h
  | some group =>
    rw [hget] at h
    exact List.mem_flatten.mpr ⟨group, List.mem_of_getElem? hget, h⟩

/-- What is left of the rows when an item is erased. -/
theorem eraseAt_eq (pre post : List (List ι)) (before after : List ι) (item : ι) :
    eraseAt (pre ++ (before ++ item :: after) :: post) pre.length before.length =
      pre ++ (if before ++ after = [] then [] else [before ++ after]) ++ post := by
  have hgroup : ((pre ++ (before ++ item :: after) :: post).getD pre.length []).eraseIdx
      before.length = before ++ after := by
    simp [List.eraseIdx_append_of_length_le]
  rw [eraseAt, hgroup]
  split
  · simp [List.eraseIdx_append_of_length_le]
  · simp

theorem flatten_eraseAt (pre post : List (List ι)) (before after : List ι) (item : ι) :
    (eraseAt (pre ++ (before ++ item :: after) :: post) pre.length before.length).flatten =
      pre.flatten ++ (before ++ after) ++ post.flatten := by
  rw [eraseAt_eq]
  split
  · next hnil => simp [hnil]
  · simp

/-- The rows with one occurrence of an item singled out. -/
theorem flatten_split (pre post : List (List ι)) (before after : List ι) (item : ι) :
    (pre ++ (before ++ item :: after) :: post).flatten =
      (pre.flatten ++ before) ++ item :: (after ++ post.flatten) := by
  simp

/-- An item that is not held twice is nowhere else. -/
theorem notMem_rest {pre post : List (List ι)} {before after : List ι} {item : ι}
    (h : (pre ++ (before ++ item :: after) :: post).flatten.Nodup) :
    item ∉ (pre.flatten ++ before) ++ (after ++ post.flatten) := by
  rw [flatten_split, List.nodup_middle] at h
  exact (List.nodup_cons.mp h).1

/-- Erasing an item that is not held twice leaves rows without it. -/
theorem notMem_eraseAt {pre post : List (List ι)} {before after : List ι} {item : ι}
    (h : (pre ++ (before ++ item :: after) :: post).flatten.Nodup) :
    item ∉ (eraseAt (pre ++ (before ++ item :: after) :: post) pre.length
      before.length).flatten := by
  rw [flatten_eraseAt]
  simpa using notMem_rest h

/-- Adding an item leaves no empty group. -/
theorem nil_notMem_addItem {heap : ι → TableItem} {item : ι} {items : List (List ι)}
    (h : [] ∉ items) :
    [] ∉ addItem heap item items := by
  rw [addItem]
  split
  · simpa using h
  · next i hi =>
    intro hmem
    obtain ⟨j, hj, heq⟩ := List.getElem_of_mem hmem
    rw [List.getElem_modify] at heq
    split at heq
    · simp at heq
    · exact h (heq ▸ List.getElem_mem _)

/-- Erasing takes a group out that gets empty. -/
theorem nil_notMem_eraseAt {items : List (List ι)} {i j : ℕ} (h : [] ∉ items) :
    [] ∉ eraseAt items i j := by
  rw [eraseAt]
  split
  · exact fun hmem => h (List.mem_of_mem_eraseIdx hmem)
  · next hne =>
    intro hmem
    rcases List.mem_or_eq_of_mem_set hmem with hold | hnew
    · exact h hold
    · exact hne hnew.symm

variable [DecidableEq ι] {item : ι} {items : List (List ι)}

/-- The inner loop leaves a group without the item as it is. -/
theorem removeInGroup_of_notMem {i : ℕ} (h : item ∉ items.getD i []) (fuel j : ℕ) :
    removeInGroup item i fuel j items = items := by
  induction fuel generalizing j with
  | zero => rfl
  | succ fuel ih =>
    rw [removeInGroup]
    split
    · rfl
    · next x hx =>
      have hne : item ≠ x := by
        rintro rfl
        exact h (List.mem_of_getElem? hx)
      rw [if_neg hne]
      exact ih (j + 1)

/-- The outer loop leaves rows without the item as they are. -/
theorem removeFrom_of_notMem (h : item ∉ items.flatten) (fuel i : ℕ) :
    removeFrom item fuel i items = items := by
  induction fuel generalizing i with
  | zero => rfl
  | succ fuel ih =>
    rw [removeFrom]
    split
    · rw [removeInGroup_of_notMem fun hmem => h (mem_flatten_of_mem_getD hmem)]
      exact ih (i + 1)
    · rfl

/-- The inner loop erases an item that is held once, and goes on without effect. -/
theorem removeInGroup_found {pre post : List (List ι)} {before after : List ι}
    (hnodup : (pre ++ (before ++ item :: after) :: post).flatten.Nodup)
    {fuel j : ℕ} (hj : j ≤ before.length) (hfuel : before.length < j + fuel) :
    removeInGroup item pre.length fuel j (pre ++ (before ++ item :: after) :: post) =
      eraseAt (pre ++ (before ++ item :: after) :: post) pre.length before.length := by
  have hgroup : (pre ++ (before ++ item :: after) :: post).getD pre.length [] =
      before ++ item :: after := by simp
  have hbefore : item ∉ before := fun hmem => notMem_rest hnodup (by simp [hmem])
  induction fuel generalizing j with
  | zero => omega
  | succ fuel ih =>
    rw [removeInGroup, hgroup]
    -- the index has not come to the item yet, or it has
    rcases Nat.lt_or_eq_of_le hj with hlt | rfl
    · have hne : item ≠ before[j] := fun heq => hbefore (heq ▸ List.getElem_mem hlt)
      rw [List.getElem?_append_left hlt, List.getElem?_eq_getElem hlt]
      dsimp only
      rw [if_neg hne]
      exact ih hlt (by omega)
    · rw [List.getElem?_append_right (le_refl _), Nat.sub_self, List.getElem?_cons_zero]
      dsimp only
      rw [if_pos rfl]
      exact removeInGroup_of_notMem
        (fun hmem => notMem_eraseAt hnodup (mem_flatten_of_mem_getD hmem)) _ _

/-- The outer loop erases an item that is held once, and goes on without effect. -/
theorem removeFrom_found {pre post : List (List ι)} {before after : List ι}
    (hnodup : (pre ++ (before ++ item :: after) :: post).flatten.Nodup)
    {fuel i : ℕ} (hi : i ≤ pre.length) (hfuel : pre.length < i + fuel) :
    removeFrom item fuel i (pre ++ (before ++ item :: after) :: post) =
      eraseAt (pre ++ (before ++ item :: after) :: post) pre.length before.length := by
  induction fuel generalizing i with
  | zero => omega
  | succ fuel ih =>
    have hlength : i < (pre ++ (before ++ item :: after) :: post).length := by
      rw [List.length_append, List.length_cons]
      omega
    rw [removeFrom, if_pos hlength]
    rcases Nat.lt_or_eq_of_le hi with hlt | rfl
    · have hother : item ∉ (pre ++ (before ++ item :: after) :: post).getD i [] := by
        rw [List.getD_append _ _ _ _ hlt]
        exact fun hmem => notMem_rest hnodup (by simp [mem_flatten_of_mem_getD hmem])
      rw [removeInGroup_of_notMem hother]
      exact ih hlt (by omega)
    · have hshort : before.length <
          0 + (pre ++ (before ++ item :: after) :: post).flatten.length := by
        rw [flatten_split]
        simp only [List.length_append, List.length_cons]
        omega
      rw [removeInGroup_found hnodup (Nat.zero_le _) hshort]
      exact removeFrom_of_notMem (notMem_eraseAt hnodup) _ _

/-- **Removing an item** removes it from the items held. -/
theorem flatten_removeItem (hnodup : items.flatten.Nodup) :
    (removeItem item items).flatten = items.flatten.erase item := by
  by_cases hmem : item ∈ items.flatten
  · obtain ⟨group, hgroup, hitem⟩ := List.mem_flatten.mp hmem
    obtain ⟨pre, post, rfl⟩ := List.append_of_mem hgroup
    obtain ⟨before, after, rfl⟩ := List.append_of_mem hitem
    have hfirst : item ∉ pre.flatten ++ before :=
      fun hmem => notMem_rest hnodup (List.mem_append_left _ hmem)
    have hlength : pre.length < 0 + (pre ++ (before ++ item :: after) :: post).length := by
      rw [List.length_append, List.length_cons]
      omega
    rw [removeItem, removeFrom_found hnodup (Nat.zero_le _) hlength, flatten_eraseAt,
      flatten_split, List.erase_append_right _ hfirst, List.erase_cons_head]
    simp
  · rw [removeItem, removeFrom_of_notMem hmem, List.erase_of_not_mem hmem]

/-! ## What removing keeps -/

theorem removeInGroup_preserves {P : List (List ι) → Prop}
    (hP : ∀ items i j, (items.getD i [])[j]? = some item → P items → P (eraseAt items i j))
    {i : ℕ} (h : P items) (fuel j : ℕ) : P (removeInGroup item i fuel j items) := by
  induction fuel generalizing j items with
  | zero => exact h
  | succ fuel ih =>
    rw [removeInGroup]
    split
    · exact h
    · next x hx =>
      split
      · next heq => exact ih (hP _ _ _ (heq ▸ hx) h) _
      · exact ih h _

theorem removeFrom_preserves {P : List (List ι) → Prop}
    (hP : ∀ items i j, (items.getD i [])[j]? = some item → P items → P (eraseAt items i j))
    (h : P items) (fuel i : ℕ) : P (removeFrom item fuel i items) := by
  induction fuel generalizing i items with
  | zero => exact h
  | succ fuel ih =>
    rw [removeFrom]
    split
    · exact ih (removeInGroup_preserves hP h _ _) _
    · exact h

/-- **What erasing an item keeps**, removing it keeps. -/
theorem removeItem_preserves {P : List (List ι) → Prop}
    (hP : ∀ items i j, (items.getD i [])[j]? = some item → P items → P (eraseAt items i j))
    (h : P items) : P (removeItem item items) :=
  removeFrom_preserves hP h _ _

/-- **Removing an item** leaves no empty group. -/
theorem nil_notMem_removeItem (h : [] ∉ items) : [] ∉ removeItem item items :=
  removeItem_preserves (P := ([] ∉ ·)) (fun _ _ _ _ => nil_notMem_eraseAt) h

end Table

namespace LoopState

variable {ι : Type} {s s' s'' : LoopState ι}

/-! ## State messages -/

/-- The rows are the same up to their order, and the same calls are waiting. -/
structure SameItems (s s' : LoopState ι) : Prop where
  /-- the rows -/
  rows : s'.table.items.Perm s.table.items
  /-- waiting additions -/
  addQueue : s'.table.addQueue = s.table.addQueue
  /-- waiting removals -/
  removeQueue : s'.table.removeQueue = s.table.removeQueue
  /-- which of the two tables it is -/
  isTopLevelTable : s'.table.isTopLevelTable = s.table.isTopLevelTable

/-- What handling a message can do: at most the order of the rows changes, as far as
rows and queues go. -/
structure Rearranges (s s' : LoopState ι) : Prop extends SameItems s s' where
  /-- waiting messages -/
  stateQueue : s'.table.stateQueue = s.table.stateQueue

theorem SameItems.refl (s : LoopState ι) : SameItems s s := ⟨.refl _, rfl, rfl, rfl⟩

theorem SameItems.trans (h : SameItems s s') (h' : SameItems s' s'') : SameItems s s'' :=
  ⟨h'.rows.trans h.rows, h'.addQueue.trans h.addQueue, h'.removeQueue.trans h.removeQueue,
    h'.isTopLevelTable.trans h.isTopLevelTable⟩

theorem Rearranges.refl (s : LoopState ι) : Rearranges s s := ⟨.refl s, rfl⟩

theorem Rearranges.trans (h : Rearranges s s') (h' : Rearranges s' s'') : Rearranges s s'' :=
  ⟨h.toSameItems.trans h'.toSameItems, h'.stateQueue.trans h.stateQueue⟩

/-- A part of a frame leaves the kind of the table and the waiting messages, and empties
no group without taking it out. -/
structure KeepsGroups (s s' : LoopState ι) : Prop where
  /-- which of the two tables it is -/
  isTopLevelTable : s'.table.isTopLevelTable = s.table.isTopLevelTable
  /-- waiting messages -/
  stateQueue : s'.table.stateQueue = s.table.stateQueue
  /-- groups -/
  groups : [] ∉ s.table.items → [] ∉ s'.table.items

theorem KeepsGroups.refl (s : LoopState ι) : KeepsGroups s s := ⟨rfl, rfl, id⟩

theorem KeepsGroups.trans (h : KeepsGroups s s') (h' : KeepsGroups s' s'') : KeepsGroups s s'' :=
  ⟨h'.isTopLevelTable.trans h.isTopLevelTable, h'.stateQueue.trans h.stateQueue,
    fun hs => h'.groups (h.groups hs)⟩

theorem KeepsGroups.foldl {α : Type} {f : LoopState ι → α → LoopState ι}
    (hf : ∀ s a, KeepsGroups s (f s a)) (l : List α) (s : LoopState ι) :
    KeepsGroups s (l.foldl f s) := by
  induction l generalizing s with
  | nil => exact .refl s
  | cons a l ih => exact (hf s a).trans (ih _)

theorem Rearranges.keepsGroups (h : Rearranges s s') : KeepsGroups s s' :=
  ⟨h.isTopLevelTable, h.stateQueue, fun hs hmem => hs (h.rows.mem_iff.mp hmem)⟩

theorem strictWeak_compareAlphabetically (heap : ι → TableItem) :
    StrictWeak (Table.compareAlphabetically heap) :=
  strictWeak_of_value (fun group => (Table.groupKey heap group).toList)
    fun _ _ => decide_eq_true_iff

theorem strictWeak_compareUtilization (heap : ι → TableItem) :
    StrictWeak (Table.compareUtilization heap) :=
  strictWeak_of_value (fun group => OrderDual.toDual (Table.groupScore heap group))
    fun _ _ => decide_eq_true_iff

/-- What a tap on row `idx` does where the row is there. -/
inductive SelectsRow (s : LoopState ι) (idx : ℤ) : LoopState ι → Prop
  /-- the selected row was tapped -/
  | deselect (group : List ι) (top : s.table.isTopLevelTable = true) (nonneg : 0 ≤ idx)
      (row : s.table.items[idx.toNat]? = some group)
      (selected : idx = s.table.selectedItemIndex) :
      SelectsRow s idx { s with
        table := { s.table with selectedItemIndex := -1 }
        subCalls := s.subCalls ++ [.clear] }
  /-- another row was tapped -/
  | select (group : List ι) (top : s.table.isTopLevelTable = true) (nonneg : 0 ≤ idx)
      (row : s.table.items[idx.toNat]? = some group)
      (selected : idx ≠ s.table.selectedItemIndex) :
      SelectsRow s idx { s with
        table := { s.table with selectedItemIndex := idx }
        subCalls := s.subCalls ++ .clear :: group.map .add }
  /-- a row of the sub-table was tapped -/
  | terminate (group : List ι) (items : List (List ι)) (item : ι)
      (sub : s.table.isTopLevelTable = false) (rows : s.table.items = group :: items)
      (row : group[idx.toNat]? = some item) :
      SelectsRow s idx { s with
        table := { s.table with processTerminationIndex := idx }
        terminated := s.terminated ++ [((s.heap item).hostName, (s.heap item).pid)] }

theorem selectsRow_of_selectRow {idx : ℤ} (h : s.selectRow idx = some s') :
    SelectsRow s idx s' := by
  rw [selectRow] at h
  split at h
  · next htop =>
    split at h
    · cases h
    · next hidx =>
      split at h
      · cases h
      · next group hgroup =>
        split at h
        · next heq =>
          obtain rfl := Option.some.inj h
          exact .deselect group htop (not_lt.mp hidx) hgroup heq
        · next hne =>
          obtain rfl := Option.some.inj h
          exact .select group htop (not_lt.mp hidx) hgroup hne
  · next htop =>
    split at h
    · cases h
    · next group items hitems =>
      split at h
      · cases h
      · split at h
        · cases h
        · next item hitem =>
          obtain rfl := Option.some.inj h
          exact .terminate group items item (Bool.eq_false_iff.mpr htop) hitems hitem

theorem selectRow_rearranges {idx : ℤ} (h : s.selectRow idx = some s') : Rearranges s s' := by
  cases selectsRow_of_selectRow h with
  | deselect => exact ⟨⟨.refl _, rfl, rfl, rfl⟩, rfl⟩
  | select => exact ⟨⟨.refl _, rfl, rfl, rfl⟩, rfl⟩
  | terminate => exact ⟨⟨.refl _, rfl, rfl, rfl⟩, rfl⟩

theorem pop_sameItems (s : LoopState ι) (queue : List TableStateMessage) :
    SameItems s (s.pop queue) := ⟨.refl _, rfl, rfl, rfl⟩

variable [DecidableEq ι] {S : StdSort} {stray : List (List ι) → ℤ → Option ι}

theorem sortTable_rearranges {compare : List ι → List ι → Bool} (hcompare : StrictWeak compare)
    (s : LoopState ι) : Rearranges s (s.sortTable S stray compare) := by
  have hperm := S.perm hcompare s.table.items
  rw [sortTable]
  split
  · exact ⟨⟨hperm, rfl, rfl, rfl⟩, rfl⟩
  · exact ⟨⟨hperm, rfl, rfl, rfl⟩, rfl⟩

theorem lowerKeys_rearranges (s : LoopState ι) : Rearranges s s.lowerKeys := by
  rw [lowerKeys]
  split
  · exact .refl s
  · exact ⟨⟨.refl _, rfl, rfl, rfl⟩, rfl⟩

theorem startupSort_rearranges (o : FrameInput ι) (s : LoopState ι) :
    Rearranges s (s.startupSort S o) := by
  rw [startupSort]
  split
  · have hflag : Rearranges s { s with table := { s.table with startupSortDone := true } } :=
      ⟨⟨.refl _, rfl, rfl, rfl⟩, rfl⟩
    exact hflag.trans (sortTable_rearranges (strictWeak_compareUtilization _) _)
  · exact .refl s

/-- What lowering the keys and sorting keep, a swipe over the top-level table keeps. -/
theorem swipeTop_preserves {I : LoopState ι → Prop} (hlower : ∀ s, I s → I s.lowerKeys)
    (hsort : ∀ s compare, StrictWeak compare → I s → I (s.sortTable S stray compare)) (h : I s)
    (msg : TableStateMessage) : I (s.swipeTop S stray msg) := by
  rw [swipeTop]
  generalize hs' : (if msg.swipeLeft.isSome then s.sortTableAlphabetically S stray else s) = s'
  have hleft : I s' := by
    rw [← hs']
    split
    · exact hsort _ _ (strictWeak_compareAlphabetically _) (hlower s h)
    · exact h
  split
  · exact hsort _ _ (strictWeak_compareUtilization _) hleft
  · exact hleft

theorem swipeTop_rearranges (s : LoopState ι) (msg : TableStateMessage) :
    Rearranges s (s.swipeTop S stray msg) :=
  swipeTop_preserves (fun s' h => h.trans (lowerKeys_rearranges s'))
    (fun s' _ hcompare h => h.trans (sortTable_rearranges hcompare s')) (.refl s) msg

theorem swipeSub_rearranges {msg : TableStateMessage} (h : s.swipeSub msg = some s') :
    Rearranges s s' := by
  rw [swipeSub] at h
  split at h
  · split at h
    · cases h
    · split at h
      · obtain rfl := Option.some.inj h
        exact ⟨⟨.refl _, rfl, rfl, rfl⟩, rfl⟩
      · obtain rfl := Option.some.inj h
        exact ⟨⟨.refl _, rfl, rfl, rfl⟩, rfl⟩
  · obtain rfl := Option.some.inj h
    exact .refl s

/-- What scrolling, a tap and swipes keep, a state message keeps. -/
theorem handleMessage_preserves {I : LoopState ι → Prop}
    (hscroll : ∀ s currentPixelIndex, I s →
      I { s with table := { s.table with currentPixelIndex } })
    (hselect : ∀ s s' idx, I s → s.selectRow idx = some s' → I s')
    (htop : ∀ s msg, I s → I (s.swipeTop S stray msg))
    (hsub : ∀ s s' msg, I s → s.swipeSub msg = some s' → I s') (h : I s)
    (msg : TableStateMessage) : I (s.handleMessage S stray msg).1 := by
  rw [handleMessage]
  dsimp only
  have hscrolled := hscroll s (msg.pixelIndex.getD 0) h
  split
  · exact hscrolled
  · next s₂ hselect₂ =>
    have hselected : I s₂ := by
      split at hselect₂
      · exact hselect _ _ _ hscrolled hselect₂
      · obtain rfl := Option.some.inj hselect₂
        exact hscrolled
    split
    · exact htop _ msg hselected
    · split
      · exact hselected
      · next s₃ hswipe => exact hsub _ _ _ hselected hswipe

/-- **A state message** changes at most the order of the rows. -/
theorem handleMessage_rearranges (S : StdSort) (stray : List (List ι) → ℤ → Option ι)
    (s : LoopState ι) (msg : TableStateMessage) :
    Rearranges s (s.handleMessage S stray msg).1 := by
  refine handleMessage_preserves (I := Rearranges s) (fun s' _ h => ?_)
    (fun s' s'' _ h hselect => ?_) (fun s' msg h => ?_) (fun s' s'' _ h hswipe => ?_) (.refl s) msg
  · exact h.trans ⟨⟨.refl _, rfl, rfl, rfl⟩, rfl⟩
  · exact h.trans (selectRow_rearranges hselect)
  · exact h.trans (swipeTop_rearranges s' msg)
  · exact h.trans (swipeSub_rearranges hswipe)

/-- What one message keeps, the loop over the state messages keeps. -/
theorem processMessages_preserves {I : LoopState ι → Prop} (hpop : ∀ s queue, I s → I (s.pop queue))
    (hhandle : ∀ s msg, I s → I (s.handleMessage S stray msg).1) (h : I s)
    (queue : List TableStateMessage) : I (processMessages S stray queue s).1 := by
  induction queue generalizing s with
  | nil => exact h
  | cons msg queue ih =>
    rw [processMessages]
    have hhandled := hhandle _ msg (hpop s queue h)
    split
    · next s' heq =>
      rw [heq] at hhandled
      exact hhandled
    · next s' heq =>
      rw [heq] at hhandled
      exact ih hhandled

/-- **The loop over the state messages** leaves the items as they are. -/
theorem processMessages_sameItems (S : StdSort) (stray : List (List ι) → ℤ → Option ι)
    (queue : List TableStateMessage) (s : LoopState ι) :
    SameItems s (processMessages S stray queue s).1 :=
  processMessages_preserves (fun s' queue h => h.trans (pop_sameItems s' queue))
    (fun s' msg h => h.trans (handleMessage_rearranges S stray s' msg).toSameItems) (.refl s) queue

/-! ## Frames and groups -/

/-- Ending the highlighting of groups changes items only. -/
@[simp] theorem foldl_unHighlightBoids_table (groups : List (List ι)) (s : LoopState ι) :
    (groups.foldl unHighlightBoids s).table = s.table := by
  induction groups generalizing s with
  | nil => rfl
  | cons group groups ih => exact ih _

theorem removal_keepsGroups (s : LoopState ι) (removal : Option ι) :
    KeepsGroups s (s.removal removal) := by
  cases removal with
  | none =>
    refine ⟨?_, ?_, fun _ => List.not_mem_nil⟩
    · simp [LoopState.removal]
    · simp [LoopState.removal]
  | some item => exact ⟨rfl, rfl, Table.nil_notMem_removeItem⟩

/-- **Emptying the queues** leaves no empty group. -/
theorem drain_keepsGroups (s : LoopState ι) : KeepsGroups s s.drain := by
  rw [drain]
  dsimp only
  generalize hs₁ : s.table.removeQueue.foldl LoopState.removal
    { s with table := { s.table with removeQueue := [] } } = s₁
  have hremoved : KeepsGroups s s₁ := by
    rw [← hs₁]
    have hqueue : KeepsGroups s { s with table := { s.table with removeQueue := [] } } :=
      ⟨rfl, rfl, id⟩
    exact hqueue.trans (.foldl removal_keepsGroups _ _)
  have hqueue : KeepsGroups s₁ { s₁ with table := { s₁.table with addQueue := [] } } :=
    ⟨rfl, rfl, id⟩
  refine (hremoved.trans hqueue).trans (.foldl (f := addition) (fun s item => ?_) _ _)
  exact ⟨rfl, rfl, Table.nil_notMem_addItem⟩

end LoopState

end WallMon
