import WallMon.Selection

/-!
# What the sub-table shows

A tap on a row of the top-level table clears the sub-table and adds the items of the row to
it. These calls wait at the sub-table until its frame, which clears first and adds then: if
two taps wait there, both groups are added. A process that ends is removed from the
top-level table only. So the sub-table shows the group selected as long as each tap finds no
additions waiting there, and what is removed is not shown there (`shown_of_keepsShown`).
-/

namespace WallMon

/-! ## Both tables -/

namespace Table

variable {ι : Type} {top top' sub t : Table ι} {x : ι}

/-- The item is in the selected group. -/
def InSelected (t : Table ι) (x : ι) : Prop :=
  ∃ i : ℕ, t.selectedItemIndex = i ∧ x ∈ t.items.getD i []

theorem InSelected.held (h : t.InSelected x) : x ∈ t.items.flatten := by
  obtain ⟨i, -, hx⟩ := h
  exact mem_flatten_of_mem_getD hx

/-- What the sub-table holds or waits for, next to the top-level table. -/
structure Shows (top sub : Table ι) : Prop where
  /-- nobody removes single items from the sub-table -/
  cleared : ∀ r ∈ sub.removeQueue, r = none
  /-- what waits to be added is in the selected group -/
  waiting : ∀ x ∈ sub.addQueue, top.InSelected x
  /-- what it holds and is not to clear is in the selected group -/
  shown : sub.removeQueue = [] → ∀ x ∈ sub.items.flatten, top.InSelected x
  /-- what it holds is held by the top-level table -/
  held : ∀ x ∈ sub.items.flatten, x ∈ top.items.flatten

/-- What leaves the items in their rows leaves what the sub-table shows. -/
theorem Shows.of_top (h : Shows top sub) (hselected : ∀ x, top.InSelected x → top'.InSelected x)
    (hheld : ∀ x, x ∈ top.items.flatten → x ∈ top'.items.flatten) : Shows top' sub where
  cleared := h.cleared
  waiting := fun x hx => hselected x (h.waiting x hx)
  shown := fun hnone x hx => hselected x (h.shown hnone x hx)
  held := fun x hx => hheld x (h.held x hx)

theorem Shows.of_eq (h : Shows top sub) (hitems : top'.items = top.items)
    (hidx : top'.selectedItemIndex = top.selectedItemIndex) : Shows top' sub :=
  h.of_top (fun _ ⟨i, hi, hx⟩ => ⟨i, hidx.trans hi, hitems ▸ hx⟩) fun _ hx => hitems ▸ hx

/-- Calls that add the items of a group. -/
theorem foldl_call_add (group : List ι) (t : Table ι) :
    (group.map TableCall.add).foldl call t = { t with addQueue := t.addQueue ++ group } := by
  induction group generalizing t with
  | nil => simp
  | cons x group ih =>
    rw [List.map_cons, List.foldl_cons, ih]
    simp [call]

end Table

/-! ## A frame of the top-level table -/

namespace LoopState

variable {ι : Type} {sub : Table ι} {s s' : LoopState ι}

/-- The sub-table with the calls made so far. -/
def calledSub (s : LoopState ι) (sub : Table ι) : Table ι := s.subCalls.foldl Table.call sub

/-- The row of a tap is there. -/
def tapsRow (s : LoopState ι) (msg : TableStateMessage) : Bool :=
  msg.selectedIndex.any fun idx => decide (0 ≤ idx ∧ idx.toNat < s.table.items.length)

/-- The top-level table in a frame, next to the sub-table. -/
structure Feeds (sub : Table ι) (s : LoopState ι) : Prop where
  /-- the table is the top-level table -/
  isTopLevelTable : s.table.isTopLevelTable = true
  /-- no group is empty -/
  groups : [] ∉ s.table.items
  /-- no item is listed twice -/
  nodup : s.table.items.flatten.Nodup
  /-- what the sub-table shows -/
  shows : s.table.Shows (s.calledSub sub)

theorem Feeds.of_sameItems (h : Feeds sub s) (hs' : SameItems s s')
    (hshows : s'.table.Shows (s'.calledSub sub)) : Feeds sub s' where
  isTopLevelTable := hs'.isTopLevelTable.trans h.isTopLevelTable
  groups := fun hnil => h.groups (hs'.rows.mem_iff.mp hnil)
  nodup := hs'.rows.flatten.nodup_iff.mpr h.nodup
  shows := hshows

/-- A tap finds its row, and no addition waiting at the sub-table. -/
theorem Feeds.selectRow (h : Feeds sub s) {idx : ℤ} (hready : (s.calledSub sub).addQueue = [])
    (hselect : s.selectRow idx = some s') : Feeds sub s' := by
  refine h.of_sameItems (selectRow_rearranges hselect).toSameItems ?_
  have hcleared : ∀ r ∈ ((s.calledSub sub).call .clear).removeQueue, r = none :=
    List.forall_mem_append.mpr ⟨h.shows.cleared, List.forall_mem_singleton.mpr rfl⟩
  have hpending : ((s.calledSub sub).call .clear).removeQueue ≠ [] :=
    List.append_ne_nil_of_right_ne_nil _ (List.cons_ne_nil _ _)
  cases LoopState.selectsRow_of_selectRow hselect with
  | deselect =>
    rw [calledSub, List.foldl_append]
    exact
      { cleared := hcleared
        waiting := fun x hx => by
          have hx' : x ∈ (s.calledSub sub).addQueue := hx
          rw [hready] at hx'
          cases hx'
        shown := fun hnone => absurd hnone hpending
        held := h.shows.held }
  | select group htop hidx hgroup =>
    have hcalls : s.subCalls ++ .clear :: group.map TableCall.add =
        s.subCalls ++ [.clear] ++ group.map TableCall.add := by simp
    rw [calledSub]
    dsimp only
    rw [hcalls, List.foldl_append, List.foldl_append, Table.foldl_call_add]
    refine
      { cleared := hcleared
        waiting := fun x hx => ?_
        shown := fun hnone => absurd hnone hpending
        held := h.shows.held }
    have hx' : x ∈ (s.calledSub sub).addQueue ++ group := hx
    rw [hready, List.nil_append] at hx'
    refine ⟨idx.toNat, by dsimp only; omega, ?_⟩
    rw [List.getD_eq_getElem?_getD, hgroup]
    exact hx'
  | terminate _ _ _ hsub => simp [h.isTopLevelTable] at hsub

/-- A tap that selects finds its row. -/
theorem tapsRow_of_selectRow (htop : s.table.isTopLevelTable = true) {idx : ℤ}
    (hselect : s.selectRow idx = some s') : 0 ≤ idx ∧ idx.toNat < s.table.items.length := by
  cases LoopState.selectsRow_of_selectRow hselect with
  | deselect _ _ hidx hgroup => exact ⟨hidx, (List.getElem?_eq_some_iff.mp hgroup).1⟩
  | select _ _ hidx hgroup => exact ⟨hidx, (List.getElem?_eq_some_iff.mp hgroup).1⟩
  | terminate _ _ _ hsub => simp [htop] at hsub

variable [DecidableEq ι] {S : StdSort} {stray : List (List ι) → ℤ → Option ι}

theorem subCalls_sortTable (s : LoopState ι) (compare : List ι → List ι → Bool) :
    (s.sortTable S stray compare).subCalls = s.subCalls := by
  rw [LoopState.sortTable]
  split <;> rfl

theorem Feeds.sortTable (h : Feeds sub s) {compare : List ι → List ι → Bool}
    (hcompare : StrictWeak compare) : Feeds sub (s.sortTable S stray compare) := by
  have hsame : SameItems s (s.sortTable S stray compare) :=
    (sortTable_rearranges hcompare s).toSameItems
  refine h.of_sameItems hsame ?_
  rw [calledSub, subCalls_sortTable]
  refine h.shows.of_top ?_ fun x hx => hsame.rows.flatten.mem_iff.mpr hx
  rintro x ⟨i, hi, hx⟩
  obtain ⟨m, hm, hrow⟩ :=
    Table.sortTable_row hi (lt_of_mem_getD hx) h.groups h.nodup hcompare
  exact ⟨m, hm, hrow ▸ hx⟩

theorem Feeds.lowerKeys (h : Feeds sub s) : Feeds sub s.lowerKeys := by
  rw [LoopState.lowerKeys]
  split
  · exact h
  · exact { h with shows := h.shows.of_eq rfl rfl }

theorem Feeds.swipeTop (h : Feeds sub s) (msg : TableStateMessage) :
    Feeds sub (s.swipeTop S stray msg) :=
  swipeTop_preserves (I := Feeds sub) (fun _ => Feeds.lowerKeys)
    (fun _ _ hcompare hs => hs.sortTable hcompare) h msg

/-- **A message** leaves what the sub-table shows, if a tap in it finds no addition waiting
there. -/
theorem Feeds.handleMessage (h : Feeds sub s) (msg : TableStateMessage)
    (hready : s.tapsRow msg = true → (s.calledSub sub).addQueue = []) :
    Feeds sub (s.handleMessage S stray msg).1 := by
  rw [LoopState.handleMessage]
  dsimp only
  have hscroll : Feeds sub
      { s with table := { s.table with currentPixelIndex := msg.pixelIndex.getD 0 } } :=
    { h with shows := h.shows.of_eq rfl rfl }
  cases hmsg : msg.selectedIndex with
  | none =>
    dsimp only
    rw [if_pos h.isTopLevelTable]
    exact hscroll.swipeTop msg
  | some idx =>
    dsimp only
    split
    · exact hscroll
    · next s₂ hselect =>
      have htaps : s.tapsRow msg = true := by
        rw [tapsRow, hmsg]
        exact decide_eq_true (tapsRow_of_selectRow hscroll.isTopLevelTable hselect)
      have hselected : Feeds sub s₂ := hscroll.selectRow (hready htaps) hselect
      rw [if_pos hselected.isTopLevelTable]
      exact hselected.swipeTop msg

/-- **The loop over the messages** leaves what the sub-table shows, if each tap finds no
addition waiting there. -/
theorem Feeds.processMessages (h : Feeds sub s) (queue : List TableStateMessage)
    (hready : ∀ p ∈ history S stray queue s, p.2.1.tapsRow p.1 = true →
      (p.2.1.calledSub sub).addQueue = []) :
    Feeds sub (processMessages S stray queue s).1 :=
  processMessages_preserves_of_history (I := Feeds sub)
    (fun s' queue h' => h'.of_sameItems (pop_sameItems s' queue) (h'.shows.of_eq rfl rfl))
    (fun _ msg h' => h'.handleMessage msg) h hready

/-! ## Removals and additions -/

/-- The loop over the removals: each with the state before. -/
def removalSteps : List (Option ι) → LoopState ι → List (LoopState ι × Option ι)
  | [], _ => []
  | r :: queue, s => (s, r) :: removalSteps queue (s.removal r)

/-- What a removal keeps where a condition holds of it and of the state before, the loop keeps
where the condition holds of each. -/
theorem foldl_removal_preserves {I : LoopState ι → Prop} {C : LoopState ι → Option ι → Prop}
    (hremoval : ∀ s r, I s → C s r → I (s.removal r)) {removals : List (Option ι)} (h : I s)
    (hC : ∀ p ∈ removalSteps removals s, C p.1 p.2) : I (removals.foldl LoopState.removal s) := by
  induction removals generalizing s with
  | nil => exact h
  | cons r removals ih =>
    obtain ⟨hfirst, hrest⟩ := List.forall_mem_cons.mp hC
    exact ih (hremoval s r h hfirst) hrest

/-- A removal is of an item that the sub-table neither holds nor waits for, and which is
not alone in a row before the selected one; or of all, and the sub-table has none. -/
def LeavesShown (sub : Table ι) (s : LoopState ι) : Option ι → Prop
  | none => (s.calledSub sub).items.flatten = [] ∧ (s.calledSub sub).addQueue = []
  | some item =>
    (item ∉ (s.calledSub sub).items.flatten ∧ item ∉ (s.calledSub sub).addQueue) ∧
      ∀ j < s.table.selectedItemIndex.toNat, ∃ x ∈ s.table.items.getD j [], x ≠ item

instance (sub : Table ι) (s : LoopState ι) : ∀ r, Decidable (LeavesShown sub s r)
  | none => inferInstanceAs (Decidable (_ ∧ _))
  | some _ => inferInstanceAs (Decidable (_ ∧ _))

/-- A removal calls nothing. -/
theorem removal_calls (s : LoopState ι) (r : Option ι) :
    (s.removal r).subCalls = s.subCalls ∧ (s.removal r).terminated = s.terminated := by
  cases r with
  | none =>
    have hgroups : ∀ (groups : List (List ι)) (s : LoopState ι),
        (groups.foldl unHighlightBoids s).subCalls = s.subCalls ∧
          (groups.foldl unHighlightBoids s).terminated = s.terminated := by
      intro groups
      induction groups with
      | nil => exact fun s => ⟨rfl, rfl⟩
      | cons group groups ih => exact fun s => ih (s.unHighlightBoids group)
    exact hgroups s.table.items s
  | some item => exact ⟨rfl, rfl⟩

/-- **A removal** of what the sub-table does not show leaves what it shows. -/
theorem Feeds.removal (h : Feeds sub s) {r : Option ι} (hleaves : LeavesShown sub s r) :
    Feeds sub (s.removal r) := by
  cases r with
  | none =>
    obtain ⟨hcalls, -⟩ := removal_calls s none
    have hcalled : (s.removal none).calledSub sub = s.calledSub sub := by
      rw [calledSub, hcalls, calledSub]
    have htop : (s.removal none).table.isTopLevelTable = s.table.isTopLevelTable := by
      simp [LoopState.removal]
    refine
      { isTopLevelTable := htop.trans h.isTopLevelTable
        groups := List.not_mem_nil
        nodup := List.nodup_nil
        shows := ?_ }
    rw [hcalled]
    exact
      { cleared := h.shows.cleared
        waiting := fun x hx => absurd (hleaves.2 ▸ hx) List.not_mem_nil
        shown := fun _ x hx => absurd (hleaves.1 ▸ hx) List.not_mem_nil
        held := fun x hx => absurd (hleaves.1 ▸ hx) List.not_mem_nil }
  | some item =>
    obtain ⟨⟨hheld, hwaits⟩, hbefore⟩ := hleaves
    have hne : ∀ x, x ∈ (s.calledSub sub).items.flatten ∨ x ∈ (s.calledSub sub).addQueue →
        x ≠ item := by
      rintro x (hx | hx) rfl
      · exact hheld hx
      · exact hwaits hx
    have hselected : ∀ x, x ≠ item → s.table.InSelected x →
        (s.removal (some item)).table.InSelected x := by
      rintro x hxne ⟨i, hi, hx⟩
      rw [hi, Int.toNat_natCast] at hbefore
      exact ⟨i, hi, Table.mem_getD_removeItem hbefore hx hxne⟩
    refine
      { isTopLevelTable := h.isTopLevelTable
        groups := Table.nil_notMem_removeItem h.groups
        nodup := (removal_contents h.nodup (some item)).1
        shows :=
          { cleared := h.shows.cleared
            waiting := fun x hx => hselected x (hne x (.inr hx)) (h.shows.waiting x hx)
            shown := fun hnone x hx =>
              hselected x (hne x (.inl hx)) (h.shows.shown hnone x hx)
            held := fun x hx => ?_ } }
    change x ∈ (Table.removeItem item s.table.items).flatten
    rw [Table.flatten_removeItem h.nodup]
    exact (List.mem_erase_of_ne (hne x (.inl hx))).mpr (h.shows.held x hx)

theorem Feeds.foldl_removal {removals : List (Option ι)} (h : Feeds sub s)
    (hleaves : ∀ p ∈ removalSteps removals s, LeavesShown sub p.1 p.2) :
    Feeds sub (removals.foldl LoopState.removal s) :=
  foldl_removal_preserves (I := Feeds sub) (fun _ _ h' => h'.removal) h hleaves

omit [DecidableEq ι] in
/-- Additions leave what the sub-table shows. -/
theorem shows_foldl_addition (items : List ι) (h : s.table.Shows (s.calledSub sub)) :
    (items.foldl addition s).table.Shows ((items.foldl addition s).calledSub sub) := by
  induction items generalizing s with
  | nil => exact h
  | cons item items ih =>
    refine ih (s := s.addition item) (h.of_top ?_ fun x hx => ?_)
    · rintro x ⟨i, hi, hx⟩
      exact ⟨i, hi, Table.mem_getD_addItem hx item⟩
    · exact (Table.flatten_addItem ..).mem_iff.mpr (List.mem_cons_of_mem _ hx)

theorem Feeds.drain (h : Feeds sub s) (hwaiting : s.table.Waiting)
    (hleaves : ∀ p ∈ removalSteps s.table.removeQueue s.dequeued, LeavesShown sub p.1 p.2) :
    Feeds sub s.drain := by
  have hgroups := drain_keepsGroups s
  have hdequeued : Feeds sub s.dequeued := { h with shows := h.shows.of_eq rfl rfl }
  have hremoved := hdequeued.foldl_removal hleaves
  refine
    { isTopLevelTable := hgroups.isTopLevelTable.trans h.isTopLevelTable
      groups := hgroups.groups h.groups
      nodup := (drain_contents hwaiting).1
      shows := ?_ }
  rw [LoopState.drain]
  exact shows_foldl_addition _ (hremoved.shows.of_eq rfl rfl)

theorem Feeds.startupSort (h : Feeds sub s) (o : FrameInput ι) :
    Feeds sub (s.startupSort S o) := by
  rw [LoopState.startupSort]
  split
  · have hflag : Feeds sub { s with table := { s.table with startupSortDone := true } } :=
      { h with shows := h.shows.of_eq rfl rfl }
    exact hflag.sortTable (strictWeak_compareUtilization _)
  · exact h

end LoopState

namespace Table

variable {ι : Type} [DecidableEq ι] {S : StdSort} {heap : ι → TableItem} {t sub : Table ι}

/-- The removals of a frame, each with the state before. -/
def frameRemovals (S : StdSort) (heap : ι → TableItem) (t : Table ι) (o : FrameInput ι) :
    List (LoopState ι × Option ι) :=
  match LoopState.processMessages S o.stray t.stateQueue (Tile.loopState heap t) with
  | (_, true) => []
  | (s, false) => LoopState.removalSteps s.table.removeQueue s.dequeued

/-- **A frame of the top-level table** leaves what the sub-table shows. -/
theorem onLoop_feeds (h : LoopState.Feeds sub (Tile.loopState heap t)) (hwaiting : t.Waiting)
    (o : FrameInput ι)
    (hready : ∀ p ∈ LoopState.history S o.stray t.stateQueue (Tile.loopState heap t),
      p.2.1.tapsRow p.1 = true → (p.2.1.calledSub sub).addQueue = [])
    (hleaves : ∀ p ∈ t.frameRemovals S heap o, LoopState.LeavesShown sub p.1 p.2) :
    LoopState.Feeds sub (t.onLoop S heap o) := by
  have hmessages := h.processMessages t.stateQueue hready
  have hsame := LoopState.processMessages_sameItems S o.stray t.stateQueue (Tile.loopState heap t)
  rw [frameRemovals] at hleaves
  rw [Tile.onLoop_eq]
  generalize LoopState.processMessages S o.stray t.stateQueue (Tile.loopState heap t) = result
    at hmessages hsame hleaves
  obtain ⟨s, returns⟩ := result
  cases returns with
  | true => exact hmessages
  | false => exact (hmessages.drain (hsame.waiting hwaiting) hleaves).startupSort o

end Table

/-! ## A frame of the sub-table -/

namespace LoopState

variable {ι : Type} {s s' : LoopState ι} {top : Table ι} {x : ι}

theorem SameItems.shows (hs' : SameItems s s') (h : top.Shows s.table) : top.Shows s'.table where
  cleared := hs'.removeQueue ▸ h.cleared
  waiting := hs'.addQueue ▸ h.waiting
  shown := fun hnone x hx =>
    h.shown (hs'.removeQueue ▸ hnone) x (hs'.rows.flatten.mem_iff.mp hx)
  held := fun x hx => h.held x (hs'.rows.flatten.mem_iff.mp hx)

/-- Additions add what they say, and leave the calls that wait. -/
theorem foldl_addition_facts (items : List ι) (s : LoopState ι) :
    (∀ x, x ∈ (items.foldl addition s).table.items.flatten ↔
        x ∈ s.table.items.flatten ∨ x ∈ items) ∧
      (items.foldl addition s).table.addQueue = s.table.addQueue ∧
      (items.foldl addition s).table.removeQueue = s.table.removeQueue := by
  induction items generalizing s with
  | nil => simp
  | cons item items ih =>
    obtain ⟨hitems, hqueues⟩ := ih (s.addition item)
    refine ⟨fun x => ?_, hqueues⟩
    have hadded : x ∈ (s.addition item).table.items.flatten ↔ x ∈ item :: s.table.items.flatten :=
      (Table.flatten_addItem ..).mem_iff
    rw [List.foldl_cons, hitems x, hadded, List.mem_cons, List.mem_cons]
    tauto

variable [DecidableEq ι] {S : StdSort} {stray : List (List ι) → ℤ → Option ι}

/-- Removals of all items leave none. -/
theorem mem_foldl_clear {removals : List (Option ι)} (hnone : ∀ r ∈ removals, r = none)
    (hx : x ∈ (removals.foldl removal s).table.items.flatten) :
    removals = [] ∧ x ∈ s.table.items.flatten := by
  induction removals generalizing s with
  | nil => exact ⟨rfl, hx⟩
  | cons r removals ih =>
    obtain ⟨hfirst, hrest⟩ := List.forall_mem_cons.mp hnone
    obtain ⟨-, hmem⟩ := ih hrest hx
    subst hfirst
    exact absurd hmem List.not_mem_nil

/-- Emptying the queues of the sub-table. -/
theorem shows_drain (h : top.Shows s.table) : top.Shows s.drain.table := by
  obtain ⟨-, hremove⟩ := foldl_removal_queues s.table.removeQueue s.dequeued
  obtain ⟨hitems, hadd', hremove'⟩ := foldl_addition_facts s.table.addQueue s.removals
  rw [← drain_eq] at hitems hadd' hremove'
  have hmem : ∀ x ∈ s.drain.table.items.flatten,
      s.table.removeQueue = [] ∧ x ∈ s.table.items.flatten ∨ x ∈ s.table.addQueue := by
    intro x hx
    refine ((hitems x).mp hx).imp_left fun hx' => ?_
    exact mem_foldl_clear (s := s.dequeued) h.cleared hx'
  have hselected : ∀ x ∈ s.drain.table.items.flatten, top.InSelected x := by
    intro x hx
    rcases hmem x hx with ⟨hnone, hx'⟩ | hx'
    · exact h.shown hnone x hx'
    · exact h.waiting x hx'
  exact
    { cleared := by
        rw [hremove', removals]
        exact fun r hr => absurd (hremove ▸ hr) List.not_mem_nil
      waiting := by
        rw [hadd']
        exact fun x hx => absurd hx List.not_mem_nil
      shown := fun _ => hselected
      held := fun x hx => (hselected x hx).held }

/-! ### Processes terminated by taps -/

/-- The calls of `_TerminateProcess` are for items in the rows. -/
def TerminatesHeld (rows : List ι) (process : ι → String × String) (s : LoopState ι) : Prop :=
  ∀ p ∈ s.terminated, ∃ x ∈ rows, p = process x

omit [DecidableEq ι] in
theorem TerminatesHeld.selectRow {rows : List ι} {process : ι → String × String}
    (h : TerminatesHeld rows process s) (hrows : ∀ x ∈ s.table.items.flatten, x ∈ rows)
    (hheap : ∀ x, ((s.heap x).hostName, (s.heap x).pid) = process x) {idx : ℤ}
    (hselect : s.selectRow idx = some s') : TerminatesHeld rows process s' := by
  cases LoopState.selectsRow_of_selectRow hselect with
  | deselect => exact h
  | select => exact h
  | terminate group items item _ hitems hitem =>
    refine List.forall_mem_append.mpr
      ⟨h, List.forall_mem_singleton.mpr ⟨item, hrows item ?_, hheap item⟩⟩
    rw [hitems]
    exact List.mem_flatten.mpr ⟨group, List.mem_cons_self .., List.mem_of_getElem? hitem⟩

/-- A sort terminates nothing. -/
theorem terminated_sortTable (s : LoopState ι) (compare : List ι → List ι → Bool) :
    (s.sortTable S stray compare).terminated = s.terminated := by
  rw [LoopState.sortTable]
  split <;> rfl

theorem terminated_swipeTop (s : LoopState ι) (msg : TableStateMessage) :
    (s.swipeTop S stray msg).terminated = s.terminated := by
  refine swipeTop_preserves (I := fun s' => s'.terminated = s.terminated) (fun s' h => ?_)
    (fun s' compare _ h => (terminated_sortTable s' compare).trans h) rfl msg
  rw [lowerKeys]
  split <;> exact h

theorem terminated_swipeSub {msg : TableStateMessage} (hswipe : s.swipeSub msg = some s') :
    s'.terminated = s.terminated := by
  rw [swipeSub] at hswipe
  split at hswipe
  · split at hswipe
    · cases hswipe
    · split at hswipe <;> obtain rfl := Option.some.inj hswipe <;> rfl
  · obtain rfl := Option.some.inj hswipe
    rfl

theorem TerminatesHeld.handleMessage {rows : List ι} {process : ι → String × String}
    (h : TerminatesHeld rows process s) (hrows : ∀ x ∈ s.table.items.flatten, x ∈ rows)
    (hheap : ∀ x, ((s.heap x).hostName, (s.heap x).pid) = process x) (msg : TableStateMessage) :
    TerminatesHeld rows process (s.handleMessage S stray msg).1 := by
  rw [LoopState.handleMessage]
  dsimp only
  split
  · exact h
  · next s₂ hselect =>
    have hselected : TerminatesHeld rows process s₂ := by
      split at hselect
      · refine TerminatesHeld.selectRow ?_ ?_ ?_ hselect
        · exact h
        · exact hrows
        · exact hheap
      · obtain rfl := Option.some.inj hselect
        exact h
    split
    · rw [TerminatesHeld, terminated_swipeTop]
      exact hselected
    · split
      · exact hselected
      · next s₃ hswipe =>
        rw [TerminatesHeld, terminated_swipeSub hswipe]
        exact hselected

theorem TerminatesHeld.processMessages {rows : List ι} {process : ι → String × String}
    (h : TerminatesHeld rows process s) (hrows : ∀ x ∈ s.table.items.flatten, x ∈ rows)
    (hheap : ∀ x, ((s.heap x).hostName, (s.heap x).pid) = process x)
    (queue : List TableStateMessage) :
    TerminatesHeld rows process (processMessages S stray queue s).1 := by
  have hkept := keptByWrites_field (fun item => (item.hostName, item.pid)) (fun _ _ _ => rfl)
    (fun _ _ => rfl) process
  refine (processMessages_preserves (I := fun s => TerminatesHeld rows process s ∧
    (∀ x ∈ s.table.items.flatten, x ∈ rows) ∧
    ∀ x, ((s.heap x).hostName, (s.heap x).pid) = process x) (fun _ _ => id) ?_ ⟨h, hrows, hheap⟩
    queue).1
  rintro s msg ⟨h, hrows, hheap⟩
  have hsame := (handleMessage_rearranges S stray s msg).rows.flatten
  exact ⟨h.handleMessage hrows hheap msg, fun x hx => hrows x (hsame.mem_iff.mp hx),
    hkept.handleMessage S stray msg hheap⟩

/-- Emptying the queues terminates nothing. -/
theorem terminated_drain (s : LoopState ι) : s.drain.terminated = s.terminated :=
  drain_preserves (P := fun s' => s'.terminated = s.terminated) (fun _ _ _ => id)
    (fun s' r h => (removal_calls s' r).2.trans h) (fun _ _ => id) rfl

end LoopState

namespace Table

variable {ι : Type} [DecidableEq ι] {S : StdSort} {heap : ι → TableItem} {t top : Table ι}

/-- **A frame of the sub-table** shows no more. -/
theorem Shows.onLoop (h : Shows top t) (heap : ι → TableItem) (o : FrameInput ι) :
    Shows top (t.onLoop S heap o).table := by
  have hsame := LoopState.processMessages_sameItems S o.stray t.stateQueue (Tile.loopState heap t)
  rw [Tile.onLoop_eq]
  generalize LoopState.processMessages S o.stray t.stateQueue (Tile.loopState heap t) = result
    at hsame
  obtain ⟨s, returns⟩ := result
  have hs : Shows top s.table := hsame.shows h
  cases returns with
  | true => exact hs
  | false =>
    exact (LoopState.startupSort_rearranges o s.drain).toSameItems.shows (LoopState.shows_drain hs)

/-- **A frame terminates** processes whose items the table holds. -/
theorem onLoop_terminated (t : Table ι) (heap : ι → TableItem) (o : FrameInput ι) :
    ∀ p ∈ (t.onLoop S heap o).terminated,
      ∃ x ∈ t.items.flatten, p = ((heap x).hostName, (heap x).pid) := by
  have hstart : LoopState.TerminatesHeld t.items.flatten
      (fun x => ((heap x).hostName, (heap x).pid)) (Tile.loopState heap t) :=
    fun _ hp => absurd hp List.not_mem_nil
  have hmessages : LoopState.TerminatesHeld t.items.flatten
      (fun x => ((heap x).hostName, (heap x).pid))
      (LoopState.processMessages S o.stray t.stateQueue (Tile.loopState heap t)).1 :=
    hstart.processMessages (fun _ hx => hx) (fun _ => rfl) t.stateQueue
  rw [Tile.onLoop_eq]
  generalize LoopState.processMessages S o.stray t.stateQueue (Tile.loopState heap t) = result
    at hmessages
  obtain ⟨s, returns⟩ := result
  cases returns with
  | true => exact hmessages
  | false =>
    have hsorted : (s.drain.startupSort S o).terminated = s.terminated := by
      rw [LoopState.startupSort]
      split
      · exact (LoopState.terminated_sortTable _ _).trans (LoopState.terminated_drain s)
      · exact LoopState.terminated_drain s
    dsimp only
    rw [hsorted]
    exact hmessages

end Table

/-! ## Runs -/

namespace Tile

variable {ι : Type} [DecidableEq ι] {S : StdSort} {d : Tile ι}

/-- No call, removal or message waits at either table. -/
structure QueuesEmpty (d : Tile ι) : Prop where
  /-- additions to the top-level table -/
  topAdd : d.top.addQueue = []
  /-- removals from the top-level table -/
  topRemove : d.top.removeQueue = []
  /-- messages for the top-level table -/
  topState : d.top.stateQueue = []
  /-- additions to the sub-table -/
  subAdd : d.sub.addQueue = []
  /-- removals from the sub-table -/
  subRemove : d.sub.removeQueue = []
  /-- messages for the sub-table -/
  subState : d.sub.stateQueue = []

/-- In a frame of the top-level table, each tap on a row finds no addition waiting at the
sub-table, and no removal is of an item that the sub-table holds or waits for, or which is
alone in a row before the selected one. -/
def KeepsShown (S : StdSort) (d : Tile ι) : TileEvent ι → Prop
  | .topFrame o =>
    (∀ p ∈ LoopState.history S o.stray d.top.stateQueue (loopState d.heap d.top),
      p.2.1.tapsRow p.1 = true → (p.2.1.calledSub d.sub).addQueue = []) ∧
    ∀ p ∈ d.top.frameRemovals S d.heap o, LoopState.LeavesShown d.sub p.1 p.2
  | _ => True

instance (d : Tile ι) : ∀ e : TileEvent ι, Decidable (d.KeepsShown S e)
  | .topFrame _ => inferInstanceAs (Decidable (_ ∧ _))
  | .call _ => .isTrue trivial
  | .receive _ => .isTrue trivial
  | .write _ _ _ _ => .isTrue trivial
  | .subFrame _ => .isTrue trivial

/-- What holds of both tables in every run. -/
structure Linked (S : StdSort) (d : Tile ι) : Prop where
  /-- the tables -/
  tile : Inv S d
  /-- the calls -/
  waiting : d.top.Waiting
  /-- what the sub-table shows -/
  shows : d.top.Shows d.sub

theorem Linked.initial (heap : ι → TableItem) (now : ℚ) : Linked S (initial heap now) where
  tile := inv_initial heap now
  waiting := ⟨List.nodup_nil, List.nodup_nil, fun _ hmem => absurd hmem List.not_mem_nil⟩
  shows :=
    { cleared := fun _ hmem => absurd hmem List.not_mem_nil
      waiting := fun _ hmem => absurd hmem List.not_mem_nil
      shown := fun _ _ hmem => absurd hmem List.not_mem_nil
      held := fun _ hmem => absurd hmem List.not_mem_nil }

/-- **One step keeps what the sub-table shows.** -/
theorem Linked.next (h : Linked S d) {e : TileEvent ι} (hnew : d.AddsNew e)
    (hkeeps : d.KeepsShown S e) : Linked S (d.next S e) := by
  refine { tile := h.tile.next e, waiting := waiting_next h.waiting hnew, shows := ?_ }
  cases e with
  | call call =>
    obtain ⟨-, hitems, -⟩ := Table.foldl_call [call] d.top
    exact h.shows.of_eq hitems (by cases call <;> rfl)
  | receive msg =>
    change (d.receive msg).top.Shows (d.receive msg).sub
    rw [receive]
    dsimp only
    split
    · exact h.shows.of_eq rfl rfl
    · exact
        { cleared := h.shows.cleared
          waiting := h.shows.waiting
          shown := h.shows.shown
          held := h.shows.held }
  | write => exact h.shows
  | topFrame o =>
    have hfeeds : LoopState.Feeds d.sub (loopState d.heap d.top) :=
      { isTopLevelTable := h.tile.top
        groups := h.tile.topGroups
        nodup := h.waiting.items
        shows := h.shows }
    exact (Table.onLoop_feeds hfeeds h.waiting o hkeeps.1 hkeeps.2).shows
  | subFrame o => exact h.shows.onLoop d.heap o

/-- **When the sub-table shows what is selected**: in every run in which each tap finds no
addition waiting at the sub-table, and no process is removed that is shown there or alone
in a row before the selected one. -/
theorem shown_of_keepsShown
    (h : ((system S).guarded fun d e => d.AddsNew e ∧ d.KeepsShown S e).Reachable d) :
    (d.QueuesEmpty → ∀ x ∈ d.sub.items.flatten, d.top.InSelected x) ∧
      ∀ o, ∀ p ∈ (d.sub.onLoop S d.heap o).terminated,
        ∃ x ∈ d.top.items.flatten, p = ((d.heap x).hostName, (d.heap x).pid) := by
  have hlinked : Linked S d := by
    refine h.invariant ?_ ?_
    · rintro _ ⟨heap, now, rfl⟩
      exact .initial heap now
    · rintro d e _ - hlinked ⟨rfl, hnew, hkeeps⟩
      exact hlinked.next hnew hkeeps
  refine ⟨fun hempty => hlinked.shows.shown hempty.subRemove, fun o p hp => ?_⟩
  obtain ⟨x, hx, heq⟩ := Table.onLoop_terminated d.sub d.heap o p hp
  exact ⟨x, hlinked.shows.held x hx, heq⟩

/-! ## A process that ends while it is shown -/

/-- A frame of both tables. -/
def bothFrames : List (TileEvent ℕ) := [.topFrame early, .subFrame early]

/-- Two processes appear, the first row is selected, and a process ends. -/
def showThenEnd (ended : ℕ) : List (TileEvent ℕ) :=
  [.call (.add 0), .call (.add 1)] ++ bothFrames ++ [.receive (tapFirst true)] ++ bothFrames ++
    [.call (.remove ended)] ++ bothFrames

/-- A process that ends in another row leaves the sub-table in order. -/
theorem shown_after_other_ends :
    ∃ d, ((system .insertion).guarded
        fun d e => d.AddsNew e ∧ d.KeepsShown .insertion e).Reachable d ∧
      d.sub.items = [[0]] ∧ d.top.items = [[0]] ∧ d.top.InSelected 0 := by
  have hmeets : TransitionSystem.Meets (next .insertion)
      (fun d e => d.AddsNew e ∧ d.KeepsShown .insertion e) (initial twoNames 0)
      (showThenEnd 1) := by decide +kernel
  have hstart : ((system .insertion).guarded
      fun d e => d.AddsNew e ∧ d.KeepsShown .insertion e).Reachable (initial twoNames 0) :=
    .start ⟨twoNames, 0, rfl⟩
  have hreach := hstart.foldl hmeets fun _ _ hok => ⟨rfl, hok⟩
  have hempty : (run twoNames (showThenEnd 1)).QueuesEmpty := by
    refine ⟨?_, ?_, ?_, ?_, ?_, ?_⟩ <;> decide +kernel
  exact ⟨run twoNames (showThenEnd 1), hreach, by decide +kernel, by decide +kernel,
    (shown_of_keepsShown hreach).1 hempty 0 (by decide +kernel)⟩

/-- A process that ends while it is shown stays in the sub-table, and a tap there
terminates what has its pid. -/
theorem ended_process_shown :
    ∃ d, ((system .insertion).guarded fun d e => d.AddsNew e).Reachable d ∧ d.QueuesEmpty ∧
      d.top.items = [[1]] ∧ d.sub.items = [[0]] ∧ ¬d.top.InSelected 0 ∧
      ((d.receive (tapFirst false)).sub.onLoop .insertion d.heap early).terminated =
        [((d.heap 0).hostName, (d.heap 0).pid)] := by
  have hmeets : TransitionSystem.Meets (next .insertion) (fun d e => d.AddsNew e)
      (initial twoNames 0) (showThenEnd 0) := by decide +kernel
  have hstart : ((system .insertion).guarded fun d e => d.AddsNew e).Reachable
      (initial twoNames 0) := .start ⟨twoNames, 0, rfl⟩
  have hreach := hstart.foldl hmeets fun _ _ hok => ⟨rfl, hok⟩
  have htop : (run twoNames (showThenEnd 0)).top.items = [[1]] := by decide +kernel
  refine ⟨run twoNames (showThenEnd 0), hreach, ?_, htop, by decide +kernel, fun hselected => ?_,
    by decide +kernel⟩
  · refine ⟨?_, ?_, ?_, ?_, ?_, ?_⟩ <;> decide +kernel
  · have hheld := hselected.held
    rw [htop] at hheld
    simp at hheld

end Tile

end WallMon
