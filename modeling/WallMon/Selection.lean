import WallMon.TableGroups

/-!
# The selected group of the top-level table

A tap selects a group by its index, and the sorts find the index of the selected group
again. A removal does not look at the index: when it empties a row before the selected
one, or takes the last process of the selected name, then the index is that of another
group or of none. As long as no removal does that, the index is that of the group of the
selected name, or -1 (`selects_of_removalsKeep`).
-/

namespace WallMon

namespace Table

variable {ι : Type} {name : ι → String} {t : Table ι} {sel : Option String}

/-! ## What the index says -/

/-- The index is -1, or that of a row. -/
def ValidIndex (t : Table ι) : Prop :=
  t.selectedItemIndex = -1 ∨ 0 ≤ t.selectedItemIndex ∧ t.selectedItemIndex < t.items.length

/-- The index is that of a group with a process of the selected name, or -1 if no name is
selected. -/
def Selects (name : ι → String) (t : Table ι) : Option String → Prop
  | none => t.selectedItemIndex = -1
  | some k => ∃ i : ℕ, t.selectedItemIndex = i ∧ ∃ x ∈ t.items.getD i [], name x = k

theorem Selects.validIndex (h : t.Selects name sel) : t.ValidIndex := by
  cases sel with
  | none => exact .inl h
  | some k =>
    obtain ⟨i, hi, x, hx, -⟩ := h
    have hlt := lt_of_mem_getD hx
    exact .inr ⟨by omega, by omega⟩

/-- The index in a table that differs in other fields. -/
theorem Selects.of_eq (h : t.Selects name sel) {t' : Table ι} (hitems : t'.items = t.items)
    (hidx : t'.selectedItemIndex = t.selectedItemIndex) : t'.Selects name sel := by
  cases sel with
  | none => exact hidx.trans h
  | some k =>
    obtain ⟨i, hi, hx⟩ := h
    exact ⟨i, hidx.trans hi, hitems ▸ hx⟩

/-- What is left of a selection when its group disappears. -/
def stillHeld (name : ι → String) (t : Table ι) (sel : Option String) : Option String :=
  sel.filter fun k => decide (∃ x ∈ t.items.flatten, name x = k)

/-- What is selected is held. -/
theorem Selects.stillHeld (h : t.Selects name sel) : t.stillHeld name sel = sel := by
  cases sel with
  | none => rfl
  | some k =>
    obtain ⟨i, -, x, hx, hk⟩ := h
    have hheld : ∃ x ∈ t.items.flatten, name x = k := ⟨x, mem_flatten_of_mem_getD hx, hk⟩
    rw [Table.stillHeld, Option.filter_some, if_pos (decide_eq_true hheld)]

/-! ## Removals and additions -/

/-- A removal empties no row before the selected one, and takes not the last process of
the selected name in it. -/
def KeepsSelected (name : ι → String) (t : Table ι) : Option ι → Option String → Prop
  | some item, some k =>
    (∀ j < t.selectedItemIndex.toNat, ∃ x ∈ t.items.getD j [], x ≠ item) ∧
      ∃ x ∈ t.items.getD t.selectedItemIndex.toNat [], x ≠ item ∧ name x = k
  | none, _ => True
  | some _, none => True

instance [DecidableEq ι] (name : ι → String) (t : Table ι) :
    ∀ removal sel, Decidable (t.KeepsSelected name removal sel)
  | some _, some _ => inferInstanceAs (Decidable (_ ∧ _))
  | none, _ => .isTrue trivial
  | some _, none => .isTrue trivial

/-- A row with an item other than the one erased stays at its index, if all rows before it
have such an item. -/
theorem mem_getD_eraseAt {items : List (List ι)} {item x : ι} {n i j : ℕ}
    (hitem : (items.getD i [])[j]? = some item)
    (hbefore : ∀ k < n, ∃ y ∈ items.getD k [], y ≠ item) (hx : x ∈ items.getD n [])
    (hne : x ≠ item) : x ∈ (eraseAt items i j).getD n [] := by
  have hstays : ∀ y ∈ items.getD i [], y ≠ item → y ∈ (items.getD i []).eraseIdx j := by
    intro y hy hy'
    obtain ⟨k, hk⟩ := List.mem_iff_getElem?.mp hy
    refine List.mem_eraseIdx_iff_getElem?.mpr ⟨k, fun heq => ?_, hk⟩
    subst heq
    exact hy' (Option.some.inj (hk.symm.trans hitem))
  rw [eraseAt]
  split
  · next hempty =>
    -- the row that is taken out is behind
    have hlt : n < i := by
      rcases Nat.lt_trichotomy n i with hlt | rfl | hgt
      · exact hlt
      · exact absurd (hempty ▸ hstays x hx hne) List.not_mem_nil
      · obtain ⟨y, hy, hy'⟩ := hbefore i hgt
        exact absurd (hempty ▸ hstays y hy hy') List.not_mem_nil
    rwa [List.getD_eq_getElem?_getD, List.getElem?_eraseIdx_of_lt hlt,
      ← List.getD_eq_getElem?_getD]
  · by_cases heq : n = i
    · subst heq
      rw [List.getD_eq_getElem _ _ (by simpa using lt_of_mem_getD hx), List.getElem_set_self]
      exact hstays x hx hne
    · rwa [List.getD_eq_getElem?_getD, List.getElem?_set_ne (Ne.symm heq),
        ← List.getD_eq_getElem?_getD]

variable [DecidableEq ι]

/-- Removing another item leaves an item in the selected row. -/
theorem mem_getD_removeItem {items : List (List ι)} {item x : ι} {n : ℕ}
    (hbefore : ∀ k < n, ∃ y ∈ items.getD k [], y ≠ item) (hx : x ∈ items.getD n [])
    (hne : x ≠ item) : x ∈ (removeItem item items).getD n [] := by
  have hkept : (∀ k < n, ∃ y ∈ (removeItem item items).getD k [], y ≠ item) ∧
      x ∈ (removeItem item items).getD n [] := by
    refine removeItem_preserves (P := fun items =>
      (∀ k < n, ∃ y ∈ items.getD k [], y ≠ item) ∧ x ∈ items.getD n []) ?_ ⟨hbefore, hx⟩
    rintro items i j hitem ⟨hbefore, hx⟩
    refine ⟨fun k hk => ?_, mem_getD_eraseAt hitem hbefore hx hne⟩
    obtain ⟨y, hy, hy'⟩ := hbefore k hk
    exact ⟨y, mem_getD_eraseAt hitem (fun l hl => hbefore l (hl.trans hk)) hy hy', hy'⟩
  exact hkept.2

/-- **A removal** that keeps what is selected leaves the index as it is to be. -/
theorem Selects.removal {s : LoopState ι} (h : s.table.Selects name sel) (removal : Option ι)
    (hkeeps : s.table.KeepsSelected name removal sel) :
    (s.removal removal).table.Selects name ((s.removal removal).table.stillHeld name sel) := by
  cases removal with
  | none =>
    have hgone : (s.removal none).table.stillHeld name sel = none := by
      cases sel with
      | none => rfl
      | some k => simp [Table.stillHeld, LoopState.removal]
    rw [hgone]
    rfl
  | some item =>
    have hselects : (s.removal (some item)).table.Selects name sel := by
      cases sel with
      | none => exact h
      | some k =>
        obtain ⟨i, hi, -⟩ := h
        obtain ⟨hbefore, x, hx, hne, hk⟩ := hkeeps
        rw [hi, Int.toNat_natCast] at hbefore hx
        exact ⟨i, hi, x, mem_getD_removeItem hbefore hx hne, hk⟩
    rwa [hselects.stillHeld]

omit [DecidableEq ι] in
/-- Adding an item leaves the others in their rows. -/
theorem mem_getD_addItem {heap : ι → TableItem} {items : List (List ι)} {x : ι} {i : ℕ}
    (hx : x ∈ items.getD i []) (item : ι) : x ∈ (addItem heap item items).getD i [] := by
  rw [addItem]
  split
  · rwa [List.getD_append _ _ _ _ (lt_of_mem_getD hx)]
  · next n hn => exact (mem_getD_modify (lookupItemGroup_eq_some hn).1).mpr (.inl hx)

omit [DecidableEq ι] in
/-- **An addition** leaves the index as it is to be. -/
theorem Selects.addition {s : LoopState ι} (h : s.table.Selects name sel) (item : ι) :
    (s.addition item).table.Selects name sel := by
  cases sel with
  | none => exact h
  | some k =>
    obtain ⟨i, hi, x, hx, hk⟩ := h
    exact ⟨i, hi, x, mem_getD_addItem hx item, hk⟩

/-- **A sort** finds the selected row again. -/
theorem sortTable_row {s : LoopState ι} {i : ℕ} (hi : s.table.selectedItemIndex = i)
    (hlt : i < s.table.items.length) (hgroups : [] ∉ s.table.items)
    (hnodup : s.table.items.flatten.Nodup) {S : StdSort}
    {stray : List (List ι) → ℤ → Option ι} {compare : List ι → List ι → Bool}
    (hcompare : StrictWeak compare) :
    ∃ m : ℕ, (s.sortTable S stray compare).table.selectedItemIndex = m ∧
      (s.sortTable S stray compare).table.items.getD m [] = s.table.items.getD i [] := by
  have hperm := S.perm hcompare s.table.items
  obtain ⟨first, rest, hfirst⟩ : ∃ first rest, s.table.items[i] = first :: rest :=
    List.exists_cons_of_ne_nil fun hnil => hgroups (hnil ▸ List.getElem_mem hlt)
  obtain ⟨m, hm, hrow⟩ := List.getElem_of_mem (hperm.mem_iff.mpr (List.getElem_mem hlt))
  -- no other row has its first item
  have hseparated := separated_iff.mp (separated_of_nodup (hperm.flatten.nodup_iff.mpr hnodup))
  have hfound : (S.sort compare s.table.items).findIdx? (fun group =>
      decide (group.head? = some first)) = some m := by
    refine List.findIdx?_eq_some_iff_getElem.mpr ⟨hm, by simp [hrow, hfirst], ?_⟩
    intro j hj hhead
    have hmem : first ∈ (S.sort compare s.table.items)[j] :=
      List.mem_of_head? (by simpa using hhead)
    have hmem' : first ∈ (S.sort compare s.table.items).getD m [] := by
      rw [List.getD_eq_getElem _ _ hm, hrow, hfirst]
      exact List.mem_cons_self ..
    rw [← List.getD_eq_getElem _ [] (hj.trans hm)] at hmem
    exact hj.ne (hseparated j m first first hmem hmem' rfl)
  refine ⟨m, ?_, ?_⟩
  · rw [LoopState.sortTable, if_pos (by omega), hi, Int.toNat_natCast, List.getElem?_eq_getElem hlt]
    dsimp only
    rw [hfirst, List.head?_cons, tableItemToIndex, hfound]
    rfl
  · have hitems : (s.sortTable S stray compare).table.items = S.sort compare s.table.items := by
      rw [LoopState.sortTable]
      split <;> rfl
    rw [hitems, List.getD_eq_getElem _ _ hm, hrow, List.getD_eq_getElem _ _ hlt]

/-- A sort leaves the index as it is to be. -/
theorem Selects.sortTable {s : LoopState ι} (h : s.table.Selects name sel)
    (hgroups : [] ∉ s.table.items) (hnodup : s.table.items.flatten.Nodup) {S : StdSort}
    {stray : List (List ι) → ℤ → Option ι} {compare : List ι → List ι → Bool}
    (hcompare : StrictWeak compare) : (s.sortTable S stray compare).table.Selects name sel := by
  cases sel with
  | none =>
    have hidx : s.table.selectedItemIndex = -1 := h
    rw [LoopState.sortTable, if_neg (by omega)]
    exact h
  | some k =>
    obtain ⟨i, hi, x, hx, hk⟩ := h
    obtain ⟨m, hm, hrow⟩ := sortTable_row hi (lt_of_mem_getD hx) hgroups hnodup hcompare
    exact ⟨m, hm, x, hrow ▸ hx, hk⟩

end Table

/-! ## A frame -/

namespace LoopState

variable {ι : Type} {name : ι → String} {s s' : LoopState ι} {sel : Option String}

/-- What a tap on a row makes of the selection. A second tap on the row that is selected
ends it. -/
def rowSelection (s : LoopState ι) (idx : ℤ) (sel : Option String) : Option String :=
  if idx < 0 then sel
  else match s.table.items[idx.toNat]? with
    | none => sel
    | some group =>
      if idx = s.table.selectedItemIndex then none else Handled.groupName s.heap group

/-- What a message makes of the selection. -/
def tapSelection (s : LoopState ι) (sel : Option String) (msg : TableStateMessage) :
    Option String :=
  match msg.selectedIndex with
  | none => sel
  | some idx => s.rowSelection idx sel

/-- The top-level table in a frame, with what is selected there. -/
structure Watched (name : ι → String) (sel : Option String) (s : LoopState ι) : Prop where
  /-- the table is the top-level table -/
  isTopLevelTable : s.table.isTopLevelTable = true
  /-- no group is empty -/
  groups : [] ∉ s.table.items
  /-- no item is listed twice -/
  nodup : s.table.items.flatten.Nodup
  /-- the names -/
  names : ∀ x, (s.heap x).name = name x
  /-- the index is that of the group selected -/
  selects : s.table.Selects name sel

/-- What rearranges the rows keeps all but the index. -/
theorem Watched.of_rearranges (h : Watched name sel s) (hs' : SameItems s s')
    (hnames : ∀ x, (s'.heap x).name = name x) {sel' : Option String}
    (hselects : s'.table.Selects name sel') : Watched name sel' s' where
  isTopLevelTable := hs'.isTopLevelTable.trans h.isTopLevelTable
  groups := fun hnil => h.groups (hs'.rows.mem_iff.mp hnil)
  nodup := hs'.rows.flatten.nodup_iff.mpr h.nodup
  names := hnames
  selects := hselects

theorem Watched.selectRow (h : Watched name sel s) {idx : ℤ} (hselect : s.selectRow idx = some s') :
    Watched name (s.rowSelection idx sel) s' := by
  have hnames : ∀ x, (s'.heap x).name = name x :=
    KeptByWrites.selectRow (P := fun heap => ∀ x, (heap x).name = name x) h.names hselect
  refine h.of_rearranges (selectRow_rearranges hselect).toSameItems hnames ?_
  cases LoopState.selectsRow_of_selectRow hselect with
  | deselect group htop hidx hgroup heq =>
    rw [rowSelection, if_neg (not_lt.mpr hidx), hgroup]
    dsimp only
    rw [if_pos heq]
    rfl
  | select group htop hidx hgroup hne =>
    rw [rowSelection, if_neg (not_lt.mpr hidx), hgroup]
    dsimp only
    rw [if_neg hne]
    obtain ⟨first, rest, rfl⟩ : ∃ first rest, group = first :: rest :=
      List.exists_cons_of_ne_nil fun hnil => h.groups (hnil ▸ List.mem_of_getElem? hgroup)
    refine ⟨idx.toNat, by dsimp only; omega, first, ?_, (h.names first).symm⟩
    rw [List.getD_eq_getElem?_getD, hgroup]
    exact List.mem_cons_self ..
  | terminate _ _ _ hsub => simp [h.isTopLevelTable] at hsub

/-- A tap on a row that is not there leaves the selection. -/
theorem Watched.rowSelection_of_none (h : Watched name sel s) {idx : ℤ}
    (hselect : s.selectRow idx = none) : s.rowSelection idx sel = sel := by
  rw [rowSelection]
  split
  · rfl
  · next hidx =>
    cases hgroup : s.table.items[idx.toNat]? with
    | none => rfl
    | some group =>
      obtain ⟨s', hs', -⟩ := LoopState.selectRow_top h.isTopLevelTable hidx hgroup
      rw [hselect] at hs'
      cases hs'

variable [DecidableEq ι] {S : StdSort} {stray : List (List ι) → ℤ → Option ι}

theorem Watched.sortTable (h : Watched name sel s) {compare : List ι → List ι → Bool}
    (hcompare : StrictWeak compare) : Watched name sel (s.sortTable S stray compare) :=
  h.of_rearranges (sortTable_rearranges hcompare s).toSameItems
    (KeptByWrites.sortTable (P := fun heap => ∀ x, (heap x).name = name x) h.names)
    (h.selects.sortTable h.groups h.nodup hcompare)

theorem Watched.lowerKeys (h : Watched name sel s) : Watched name sel s.lowerKeys := by
  refine h.of_rearranges (lowerKeys_rearranges s).toSameItems ?_ ?_
  · exact (keptByWrites_names name).lowerKeys h.names
  · rw [LoopState.lowerKeys]
    split
    · exact h.selects
    · exact h.selects.of_eq rfl rfl

theorem Watched.swipeTop (h : Watched name sel s) (msg : TableStateMessage) :
    Watched name sel (s.swipeTop S stray msg) :=
  swipeTop_preserves (I := Watched name sel) (fun _ => Watched.lowerKeys)
    (fun _ _ hcompare hs => hs.sortTable hcompare) h msg

/-- **A message** makes of the selection what the tap in it says. -/
theorem Watched.handleMessage (h : Watched name sel s) (msg : TableStateMessage) :
    Watched name (s.tapSelection sel msg) (s.handleMessage S stray msg).1 := by
  rw [LoopState.handleMessage, tapSelection]
  dsimp only
  have hscroll : Watched name sel
      { s with table := { s.table with currentPixelIndex := msg.pixelIndex.getD 0 } } :=
    { h with selects := h.selects.of_eq rfl rfl }
  cases msg.selectedIndex with
  | none =>
    dsimp only
    rw [if_pos h.isTopLevelTable]
    exact hscroll.swipeTop msg
  | some idx =>
    dsimp only
    split
    · next hselect =>
      have hsame : s.rowSelection idx sel = sel := hscroll.rowSelection_of_none hselect
      rw [hsame]
      exact hscroll
    · next s₂ hselect =>
      have hselected : Watched name (s.rowSelection idx sel) s₂ := hscroll.selectRow hselect
      rw [if_pos hselected.isTopLevelTable]
      exact hselected.swipeTop msg

/-- What the messages of a frame make of the selection. -/
def messagesSelection (S : StdSort) (stray : List (List ι) → ℤ → Option ι)
    (queue : List TableStateMessage) (s : LoopState ι) (sel : Option String) : Option String :=
  (history S stray queue s).foldl (fun sel (msg, before, _) => before.tapSelection sel msg) sel

/-- **The loop over the messages** makes of the selection what the taps say. -/
theorem Watched.processMessages (h : Watched name sel s) (queue : List TableStateMessage) :
    Watched name (messagesSelection S stray queue s sel)
      (processMessages S stray queue s).1 := by
  induction queue generalizing s sel with
  | nil => exact h
  | cons msg queue ih =>
    have hpopped : Watched name sel (s.pop queue) :=
      h.of_rearranges (pop_sameItems s queue) h.names (h.selects.of_eq rfl rfl)
    have hhandled : Watched name ((s.pop queue).tapSelection sel msg)
        ((s.pop queue).handleMessage S stray msg).1 := hpopped.handleMessage msg
    rw [messagesSelection, history, LoopState.processMessages]
    cases hresult : (s.pop queue).handleMessage S stray msg with
    | mk s' returns =>
      rw [hresult] at hhandled
      cases returns with
      | true => exact hhandled
      | false => exact ih hhandled

/-- What is left of the selection after removals. -/
def removalsSelection (name : ι → String) :
    List (Option ι) → LoopState ι → Option String → Option String
  | [], _, sel => sel
  | r :: removals, s, sel =>
    removalsSelection name removals (s.removal r) ((s.removal r).table.stillHeld name sel)

/-- Each removal keeps what is selected then. -/
def RemovalsKeep (name : ι → String) : List (Option ι) → LoopState ι → Option String → Prop
  | [], _, _ => True
  | r :: removals, s, sel => s.table.KeepsSelected name r sel ∧
      RemovalsKeep name removals (s.removal r) ((s.removal r).table.stillHeld name sel)

instance instDecidableRemovalsKeep (name : ι → String) :
    ∀ removals s sel, Decidable (RemovalsKeep name removals s sel)
  | [], _, _ => .isTrue trivial
  | r :: removals, s, sel =>
    have := instDecidableRemovalsKeep name removals (s.removal r)
      ((s.removal r).table.stillHeld name sel)
    inferInstanceAs (Decidable (s.table.KeepsSelected name r sel ∧ _))

theorem selects_foldl_removal {removals : List (Option ι)} (h : s.table.Selects name sel)
    (hkeep : RemovalsKeep name removals s sel) :
    (removals.foldl removal s).table.Selects name (removalsSelection name removals s sel) := by
  induction removals generalizing s sel with
  | nil => exact h
  | cons r removals ih => exact ih (h.removal r hkeep.1) hkeep.2

omit [DecidableEq ι] in
theorem selects_foldl_addition (items : List ι) (h : s.table.Selects name sel) :
    (items.foldl addition s).table.Selects name sel := by
  induction items generalizing s with
  | nil => exact h
  | cons item items ih => exact ih (h.addition item)

/-- The state in which the removals of a frame begin. -/
def dequeued (s : LoopState ι) : LoopState ι :=
  { s with table := { s.table with removeQueue := [] } }

theorem Watched.drain (h : Watched name sel s) (hwaiting : s.table.Waiting)
    (hkeep : RemovalsKeep name s.table.removeQueue s.dequeued sel) :
    Watched name (removalsSelection name s.table.removeQueue s.dequeued sel) s.drain := by
  have hgroups := drain_keepsGroups s
  refine
    { isTopLevelTable := hgroups.isTopLevelTable.trans h.isTopLevelTable
      groups := hgroups.groups h.groups
      nodup := (drain_contents hwaiting).1
      names := (keptByWrites_names name).drain h.names
      selects := ?_ }
  have hdequeued : s.dequeued.table.Selects name sel := h.selects.of_eq rfl rfl
  have hremoved := selects_foldl_removal hdequeued hkeep
  rw [LoopState.drain]
  exact selects_foldl_addition _ (hremoved.of_eq rfl rfl)

theorem Watched.startupSort (h : Watched name sel s) (o : FrameInput ι) :
    Watched name sel (s.startupSort S o) := by
  rw [LoopState.startupSort]
  split
  · have hflag : Watched name sel
        { s with table := { s.table with startupSortDone := true } } :=
      { h with selects := h.selects.of_eq rfl rfl }
    exact hflag.sortTable (strictWeak_compareUtilization _)
  · exact h

end LoopState

namespace Table

variable {ι : Type} [DecidableEq ι] {S : StdSort} {heap : ι → TableItem} {t : Table ι}
  {name : ι → String} {sel : Option String}

/-- What is selected after a frame: what the last tap selected, as long as there is a
process of that name. -/
def frameSelection (S : StdSort) (name : ι → String) (heap : ι → TableItem) (t : Table ι)
    (o : FrameInput ι) (sel : Option String) : Option String :=
  let sel := LoopState.messagesSelection S o.stray t.stateQueue (Tile.loopState heap t) sel
  match LoopState.processMessages S o.stray t.stateQueue (Tile.loopState heap t) with
  | (_, true) => sel
  | (s, false) => LoopState.removalsSelection name s.table.removeQueue s.dequeued sel

/-- The removals of a frame keep what is selected. -/
def FrameKeeps (S : StdSort) (name : ι → String) (heap : ι → TableItem) (t : Table ι)
    (o : FrameInput ι) (sel : Option String) : Prop :=
  let sel := LoopState.messagesSelection S o.stray t.stateQueue (Tile.loopState heap t) sel
  match LoopState.processMessages S o.stray t.stateQueue (Tile.loopState heap t) with
  | (_, true) => True
  | (s, false) => LoopState.RemovalsKeep name s.table.removeQueue s.dequeued sel

instance (name : ι → String) (o : FrameInput ι) :
    Decidable (t.FrameKeeps S name heap o sel) := by
  unfold FrameKeeps
  dsimp only
  split <;> infer_instance

/-- **A frame** leaves the index that of the group selected. -/
theorem onLoop_watched (h : LoopState.Watched name sel (Tile.loopState heap t))
    (hwaiting : t.Waiting) (o : FrameInput ι) (hkeeps : t.FrameKeeps S name heap o sel) :
    LoopState.Watched name (t.frameSelection S name heap o sel) (t.onLoop S heap o) := by
  have hmessages : LoopState.Watched name
      (LoopState.messagesSelection S o.stray t.stateQueue (Tile.loopState heap t) sel)
      (LoopState.processMessages S o.stray t.stateQueue (Tile.loopState heap t)).1 :=
    h.processMessages t.stateQueue
  have hsame := LoopState.processMessages_sameItems S o.stray t.stateQueue (Tile.loopState heap t)
  rw [FrameKeeps] at hkeeps
  rw [Tile.onLoop_eq, frameSelection]
  generalize LoopState.processMessages S o.stray t.stateQueue (Tile.loopState heap t) = result
    at hmessages hsame hkeeps
  obtain ⟨s, returns⟩ := result
  cases returns with
  | true => exact hmessages
  | false => exact (hmessages.drain (hsame.waiting hwaiting) hkeeps).startupSort o

end Table

/-! ## Runs -/

/-- An item is added only when the top-level table is not to hold it. -/
def Tile.AddsNew {ι : Type} [DecidableEq ι] (d : Tile ι) (e : TileEvent ι) : Prop :=
  ∀ item, e = .call (.add item) → item ∉ d.top.settled

instance {ι : Type} [DecidableEq ι] (d : Tile ι) (e : TileEvent ι) : Decidable (d.AddsNew e) :=
  match e with
  | .call (.add item) => decidable_of_iff (item ∉ d.top.settled)
      ⟨fun h _ heq => by cases heq; exact h, fun h => h item rfl⟩
  | .call (.remove _) => .isTrue nofun
  | .call .clear => .isTrue nofun
  | .receive _ => .isTrue nofun
  | .write .. => .isTrue nofun
  | .topFrame _ => .isTrue nofun
  | .subFrame _ => .isTrue nofun

/-- The calls wait in order. -/
theorem Tile.waiting_next {ι : Type} [DecidableEq ι] {S : StdSort} {d : Tile ι} {e : TileEvent ι}
    (h : d.top.Waiting) (hnew : d.AddsNew e) : (d.next S e).top.Waiting := by
  cases e with
  | call call => exact h.call call fun item hitem => hnew item (congrArg _ hitem)
  | receive msg =>
    rw [Tile.next, Tile.receive]
    dsimp only
    split
    · exact ⟨h.items, h.addQueue, h.fresh⟩
    · exact h
  | write => exact h
  | topFrame o => exact (Table.onLoop_settled h d.heap o).1
  | subFrame => exact h

/-- A tile, and what is selected there. -/
structure Watch (ι : Type) where
  /-- the tile -/
  tile : Tile ι
  /-- history: the process name that the last tap selected, as long as there is a process
  of that name -/
  selection : Option String

namespace Watch

variable {ι : Type} [DecidableEq ι] {S : StdSort} {w : Watch ι}

/-- The state after an event. -/
def next (S : StdSort) (w : Watch ι) (e : TileEvent ι) : Watch ι where
  tile := w.tile.next S e
  selection := match e with
    | .topFrame o => w.tile.top.frameSelection S w.tile.names w.tile.heap o w.selection
    | _ => w.selection

/-- A tile at its start. -/
def initial (heap : ι → TableItem) (now : ℚ) : Watch ι :=
  { tile := Tile.initial heap now, selection := none }

/-- The transition system: no item is added more than once. -/
def system (S : StdSort) : TransitionSystem (Watch ι) (TileEvent ι) where
  init w := ∃ heap now, w = initial heap now
  step w e w' := w.tile.AddsNew e ∧ w' = w.next S e

/-- In a frame, no removal takes the only process of a row before the selected one, or the
last process of the selected name in the selected row. -/
def KeepsSelection (S : StdSort) (w : Watch ι) : TileEvent ι → Prop
  | .topFrame o => w.tile.top.FrameKeeps S w.tile.names w.tile.heap o w.selection
  | _ => True

/-- What holds of the top-level table in every run. -/
structure Sound (S : StdSort) (w : Watch ι) : Prop where
  /-- the tables -/
  tile : Tile.Inv S w.tile
  /-- the calls -/
  waiting : w.tile.top.Waiting
  /-- the index -/
  selects : w.tile.top.Selects w.tile.names w.selection

theorem Sound.initial (heap : ι → TableItem) (now : ℚ) : Sound S (initial heap now) where
  tile := Tile.inv_initial heap now
  waiting := ⟨List.nodup_nil, List.nodup_nil, fun _ hmem => absurd hmem List.not_mem_nil⟩
  selects := rfl

/-- **One step keeps the index that of the group selected**, if removals keep it. -/
theorem Sound.next (h : Sound S w) {e : TileEvent ι} (hnew : w.tile.AddsNew e)
    (hkeeps : KeepsSelection S w e) : Sound S (w.next S e) := by
  have hnames : (w.next S e).tile.names = w.tile.names := Tile.names_next w.tile e
  refine { tile := h.tile.next e, waiting := Tile.waiting_next h.waiting hnew, selects := ?_ }
  rw [hnames]
  cases e with
  | call call =>
    obtain ⟨-, hitems, -⟩ := Table.foldl_call [call] w.tile.top
    exact h.selects.of_eq hitems (by cases call <;> rfl)
  | receive msg =>
    change (w.tile.receive msg).top.Selects w.tile.names w.selection
    rw [Tile.receive]
    dsimp only
    split
    · exact h.selects.of_eq rfl rfl
    · exact h.selects
  | write => exact h.selects
  | topFrame o =>
    have hwatched : LoopState.Watched w.tile.names w.selection
        (Tile.loopState w.tile.heap w.tile.top) :=
      { isTopLevelTable := h.tile.top
        groups := h.tile.topGroups
        nodup := h.waiting.items
        names := fun _ => rfl
        selects := h.selects }
    exact (Table.onLoop_watched hwatched h.waiting o hkeeps).selects
  | subFrame => exact h.selects

/-- **When the index is that of the group selected**: in every run in which no removal
takes the only process of a row before the selected one, or the last process of the selected
name in the selected row. -/
theorem selects_of_keepsSelection (h : ((system S).guarded (KeepsSelection S)).Reachable w) :
    w.tile.top.ValidIndex ∧ w.tile.top.Selects w.tile.names w.selection := by
  have hsound : Sound S w := by
    refine h.invariant ?_ ?_
    · rintro _ ⟨heap, now, rfl⟩
      exact .initial heap now
    · rintro w e _ - hsound ⟨⟨hnew, rfl⟩, hkeeps⟩
      exact hsound.next hnew hkeeps
  exact ⟨hsound.selects.validIndex, hsound.selects⟩

/-! ## A removal before the selected row -/

instance (w : Watch ι) : ∀ e : TileEvent ι, Decidable (KeepsSelection S w e)
  | .topFrame o => inferInstanceAs
    (Decidable (w.tile.top.FrameKeeps S w.tile.names w.tile.heap o w.selection))
  | .call _ => .isTrue trivial
  | .receive _ => .isTrue trivial
  | .write _ _ _ _ => .isTrue trivial
  | .subFrame _ => .isTrue trivial

/-- A tap on a row of the top-level table. -/
def tapRow (row : ℤ) : TableStateMessage := { Tile.tapFirst true with selectedIndex := some row }

/-- Two processes appear, the one in a row is selected, and a process ends. -/
def selectThenEnd (row : ℤ) (ended : ℕ) : List (TileEvent ℕ) :=
  Tile.appear 0 1 ++
    [.receive (tapRow row), .topFrame Tile.early, .call (.remove ended), .topFrame Tile.early]

/-- The state after these events. -/
def afterwards (row : ℤ) (ended : ℕ) : Watch ℕ :=
  (selectThenEnd row ended).foldl (next .insertion) (initial Tile.twoNames 0)

/-- A process that ends in a row behind leaves the selection. -/
theorem selects_after_later_row :
    ∃ w, ((system .insertion).guarded (KeepsSelection .insertion)).Reachable w ∧
      w.tile.top.items = [[0]] ∧ w.selection = some "bash" ∧
      w.tile.top.ValidIndex ∧ w.tile.top.Selects w.tile.names w.selection := by
  have hmeets : TransitionSystem.Meets (next .insertion)
      (fun w e => w.tile.AddsNew e ∧ KeepsSelection .insertion w e)
      (initial Tile.twoNames 0) (selectThenEnd 0 1) := by decide +kernel
  have hstart : ((system .insertion).guarded (KeepsSelection .insertion)).Reachable
      (initial Tile.twoNames 0) := .start ⟨Tile.twoNames, 0, rfl⟩
  have hreach := hstart.foldl hmeets fun _ _ hok => ⟨⟨hok.1, rfl⟩, hok.2⟩
  exact ⟨afterwards 0 1, hreach, by decide +kernel, by decide +kernel,
    selects_of_keepsSelection hreach⟩

/-- A process that ends in a row before leaves an index without a row. -/
theorem removal_before_selected_row :
    ∃ w, (system .insertion).Reachable w ∧ w.tile.top.items = [[1]] ∧
      w.selection = some "vim" ∧ w.tile.top.selectedItemIndex = 1 ∧ ¬w.tile.top.ValidIndex := by
  have hmeets : TransitionSystem.Meets (next .insertion) (fun w e => w.tile.AddsNew e)
      (initial Tile.twoNames 0) (selectThenEnd 1 0) := by decide +kernel
  have hstart : (system .insertion).Reachable (initial Tile.twoNames 0) :=
    .start ⟨Tile.twoNames, 0, rfl⟩
  have hreach := hstart.foldl hmeets fun _ _ hok => ⟨hok, rfl⟩
  have hitems : (afterwards 1 0).tile.top.items = [[1]] := by decide +kernel
  have hidx : (afterwards 1 0).tile.top.selectedItemIndex = 1 := by decide +kernel
  refine ⟨afterwards 1 0, hreach, hitems, by decide +kernel, hidx, ?_⟩
  rw [Table.ValidIndex, hitems, hidx]
  decide

end Watch

end WallMon
