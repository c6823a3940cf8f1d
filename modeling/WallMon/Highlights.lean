import WallMon.SubTable

/-!
# What a swipe highlights

A swipe over the sub-table highlights the boids of all processes in its first group, each with
its place in the group, and the next one ends that. `_isHighlighted` is to say which of the two
it is.

But the flag survives the group: `Clear` ends the highlights and not the flag, so that the next
group counts as highlighted, and a process that is removed while it is highlighted stays so.
The flag agrees with the boids as long as, while it is set, nobody is added to the first group
or removed from it (`highlightLaw_of_keepsHighlights`).
-/

namespace WallMon

/-! ## Highlights -/

/-- The process is not highlighted. -/
structure TableItem.Plain (item : TableItem) : Prop where
  /-- it shows no number -/
  number : item.highlightNumber = -1
  /-- none of its boids is highlighted -/
  boids : ∀ b ∈ item.boids, b.isHighlighted = false

/-- The process is highlighted as the one at a position. -/
structure TableItem.Marked (item : TableItem) (position : ℕ) : Prop where
  /-- it shows the position -/
  number : item.highlightNumber = position
  /-- all of its boids are highlighted -/
  boids : ∀ b ∈ item.boids, b.isHighlighted = true

theorem TableItem.Marked.not_plain {item : TableItem} {position : ℕ} (h : item.Marked position) :
    ¬item.Plain := by
  intro hplain
  have hnumber := h.number.symm.trans hplain.number
  omega

section

variable {ι : Type}

/-- All processes of a group are highlighted. -/
def AllMarked (heap : ι → TableItem) (group : List ι) : Prop :=
  ∀ i x, group[i]? = some x → (heap x).Marked i

/-- No process of a group is highlighted. -/
def NoneMarked (heap : ι → TableItem) (group : List ι) : Prop := ∀ x ∈ group, (heap x).Plain

/-- `_items[0]`, if there is a group -/
def Table.firstGroup (t : Table ι) : List ι := t.items.headD []

theorem Table.firstGroup_subset {t : Table ι} {x : ι} (hx : x ∈ t.firstGroup) :
    x ∈ t.items.flatten := by
  rw [firstGroup] at hx
  cases hitems : t.items with
  | nil =>
    rw [hitems] at hx
    exact absurd hx List.not_mem_nil
  | cons group rest =>
    rw [hitems] at hx
    exact List.mem_append_left _ hx

/-- What is known of the highlights. -/
structure Highlights (heap : ι → TableItem) (t : Table ι) : Prop where
  /-- the table is the sub-table -/
  sub : t.isTopLevelTable = false
  /-- no group is empty -/
  groups : [] ∉ t.items
  /-- only the first group can be highlighted, and only if the flag is set -/
  rest : ∀ x, (t.isHighlighted = true → x ∉ t.firstGroup) → (heap x).Plain
  /-- if the flag is set, the first group is highlighted -/
  marked : t.isHighlighted = true → AllMarked heap t.firstGroup

/-- A step that leaves the items and the first group leaves the highlights. -/
theorem Highlights.of_firstGroup {heap : ι → TableItem} {t t' : Table ι} (h : Highlights heap t)
    (htop : t'.isTopLevelTable = t.isTopLevelTable) (hgroups : [] ∉ t'.items)
    (hflag : t'.isHighlighted = t.isHighlighted)
    (hfirst : t.isHighlighted = true → t'.firstGroup = t.firstGroup) : Highlights heap t' where
  sub := htop.trans h.sub
  groups := hgroups
  rest x hx := h.rest x fun hset => hfirst hset ▸ hx (hflag.trans hset)
  marked hset := by
    rw [hflag] at hset
    rw [hfirst hset]
    exact h.marked hset

end

/-! ## Highlighting -/

namespace LoopState

variable {ι : Type} [DecidableEq ι] {s : LoopState ι}

/-- What is written to the items of a group, from position `k` on. -/
theorem foldl_enableHighlight (group : List ι) (k : ℕ) (heap : ι → TableItem)
    (hnodup : group.Nodup) :
    let heap' := (group.zipIdx k).foldl (fun heap (item, i) => Function.update heap item
      { heap item with
        highlightNumber := i
        boids := (heap item).boids.map (·.enableHighlight i) }) heap
    (∀ x ∉ group, heap' x = heap x) ∧
      ∀ i x, group[i]? = some x → (heap' x).Marked (k + i) := by
  induction group generalizing k heap with
  | nil => simp
  | cons a group ih =>
    obtain ⟨ha, hnodup⟩ := List.nodup_cons.mp hnodup
    obtain ⟨hother, hmarked⟩ := ih (k + 1) (Function.update heap a
      { heap a with
        highlightNumber := k
        boids := (heap a).boids.map (·.enableHighlight k) }) hnodup
    rw [List.zipIdx_cons]
    refine ⟨fun x hx => ?_, fun i x hx => ?_⟩
    · rw [List.mem_cons, not_or] at hx
      exact (hother x hx.2).trans (Function.update_of_ne hx.1 ..)
    · cases i with
      | zero =>
        obtain rfl : a = x := by simpa using hx
        rw [List.foldl_cons, hother a ha, Function.update_self]
        refine ⟨rfl, fun b hb => ?_⟩
        obtain ⟨b', -, rfl⟩ := List.mem_map.mp hb
        rfl
      | succ i =>
        have hlater := hmarked i x (by simpa using hx)
        rwa [Nat.add_right_comm] at hlater

theorem highlightBoids_spec (s : LoopState ι) {group : List ι} (hnodup : group.Nodup) :
    (∀ x ∉ group, (s.highlightBoids group).heap x = s.heap x) ∧
      AllMarked (s.highlightBoids group).heap group := by
  obtain ⟨hother, hmarked⟩ := foldl_enableHighlight group 0 s.heap hnodup
  refine ⟨hother, fun i x hx => ?_⟩
  have hx' := hmarked i x hx
  rwa [Nat.zero_add] at hx'

theorem unHighlightBoids_spec (s : LoopState ι) (group : List ι) :
    (∀ x ∉ group, (s.unHighlightBoids group).heap x = s.heap x) ∧
      NoneMarked (s.unHighlightBoids group).heap group := by
  induction group generalizing s with
  | nil => exact ⟨fun _ _ => rfl, fun _ hx => absurd hx List.not_mem_nil⟩
  | cons a group ih =>
    obtain ⟨hother, hplain⟩ := ih (s.unHighlightBoids [a])
    refine ⟨fun x hx => ?_, fun x hx => ?_⟩
    · rw [List.mem_cons, not_or] at hx
      exact (hother x hx.2).trans (Function.update_of_ne hx.1 ..)
    · by_cases hmem : x ∈ group
      · exact hplain x hmem
      · obtain rfl : x = a := (List.mem_cons.mp hx).resolve_right hmem
        have hlast : ((s.unHighlightBoids (x :: group)).heap x) =
            (s.unHighlightBoids [x]).heap x := hother x hmem
        have hwritten : (s.unHighlightBoids [x]).heap x =
            { s.heap x with
              highlightNumber := -1
              boids := (s.heap x).boids.map (·.disableHighlight) } := Function.update_self ..
        rw [hlast, hwritten]
        refine ⟨rfl, fun b hb => ?_⟩
        obtain ⟨b', -, rfl⟩ := List.mem_map.mp hb
        rfl

/-! ## A swipe -/

/-- The first group gets highlighted, and the flag set. -/
theorem highlights_highlightBoids (h : Highlights s.heap s.table)
    (hflag : s.table.isHighlighted = false) (hnodup : s.table.firstGroup.Nodup) :
    Highlights (s.highlightBoids s.table.firstGroup).heap
      { s.table with isHighlighted := true } := by
  obtain ⟨hother, hmarked⟩ := s.highlightBoids_spec hnodup
  refine ⟨h.sub, h.groups, fun x hx => ?_, fun _ => hmarked⟩
  rw [hother x (hx rfl)]
  exact h.rest x fun hset => absurd (hflag.symm.trans hset) Bool.false_ne_true

/-- The first group is highlighted no longer, and the flag not set. -/
theorem highlights_unHighlightBoids (h : Highlights s.heap s.table) :
    Highlights (s.unHighlightBoids s.table.firstGroup).heap
      { s.table with isHighlighted := false } := by
  obtain ⟨hother, hplain⟩ := s.unHighlightBoids_spec s.table.firstGroup
  refine ⟨h.sub, h.groups, fun x _ => ?_, fun hset => absurd hset Bool.false_ne_true⟩
  by_cases hx : x ∈ s.table.firstGroup
  · exact hplain x hx
  · rw [hother x hx]
    exact h.rest x fun _ => hx

theorem highlights_swipeSub {s' : LoopState ι} (h : Highlights s.heap s.table)
    {msg : TableStateMessage}
    (hok : (msg.swipeLeft.isSome || msg.swipeRight.isSome) = true →
      s.table.isHighlighted = false → s.table.firstGroup.Nodup)
    (hswipe : s.swipeSub msg = some s') : Highlights s'.heap s'.table := by
  rw [swipeSub] at hswipe
  split at hswipe
  case isFalse => exact Option.some.inj hswipe ▸ h
  case isTrue hswipes =>
    split at hswipe
    case h_1 => cases hswipe
    case h_2 group rest hitems =>
      have hfirst : s.table.firstGroup = group := by rw [Table.firstGroup, hitems]; rfl
      split at hswipe
      case isTrue =>
        have hafter := highlights_unHighlightBoids h
        rw [hfirst] at hafter
        exact Option.some.inj hswipe ▸ hafter
      case isFalse hflag =>
        rw [Bool.not_eq_true] at hflag
        have hafter := highlights_highlightBoids h hflag (hok hswipes hflag)
        rw [hfirst] at hafter
        exact Option.some.inj hswipe ▸ hafter

/-- A swipe that comes to highlight finds nobody twice in the first group. -/
def SwipeKeeps (s : LoopState ι) (msg : TableStateMessage) : Prop :=
  (msg.swipeLeft.isSome || msg.swipeRight.isSome) = true → s.table.isHighlighted = false →
    (∀ idx ∈ msg.selectedIndex, ((s.scroll msg).selectRow idx).isSome) → s.table.firstGroup.Nodup

instance (s : LoopState ι) (msg : TableStateMessage) : Decidable (s.SwipeKeeps msg) :=
  inferInstanceAs (Decidable (_ → _ → _ → _))

omit [DecidableEq ι] in
/-- A tap on the sub-table leaves the items and the flag. -/
theorem selectRow_of_sub {s' : LoopState ι} (hsub : s.table.isTopLevelTable = false) {idx : ℤ}
    (hselect : s.selectRow idx = some s') :
    s'.heap = s.heap ∧ s'.table = { s.table with processTerminationIndex := idx } := by
  cases selectsRow_of_selectRow hselect with
  | deselect _ htop => simp [hsub] at htop
  | select _ htop => simp [hsub] at htop
  | terminate => exact ⟨rfl, rfl⟩

variable {S : StdSort} {stray : List (List ι) → ℤ → Option ι}

/-- **A message** keeps the highlights. -/
theorem highlights_handleMessage (h : Highlights s.heap s.table) {msg : TableStateMessage}
    (hok : s.SwipeKeeps msg) :
    Highlights (s.handleMessage S stray msg).1.heap (s.handleMessage S stray msg).1.table := by
  have hscroll : Highlights (s.scroll msg).heap (s.scroll msg).table :=
    h.of_firstGroup rfl h.groups rfl fun _ => rfl
  rw [handleMessage]
  dsimp only
  cases hmsg : msg.selectedIndex with
  | none =>
    have hnodup := fun hswipes hflag => hok hswipes hflag fun idx hidx => by
      rw [hmsg] at hidx
      cases hidx
    dsimp only
    rw [if_neg (by rw [h.sub]; decide)]
    split
    · exact hscroll
    · next s₂ hswipe => exact highlights_swipeSub hscroll hnodup hswipe
  | some idx =>
    dsimp only
    split
    · exact hscroll
    · next s₂ hselect =>
      obtain ⟨hheap, htable⟩ := selectRow_of_sub (s := s.scroll msg) h.sub hselect
      have hselected : Highlights s₂.heap s₂.table := by
        rw [hheap, htable]
        exact hscroll.of_firstGroup rfl h.groups rfl fun _ => rfl
      have hnodup : (msg.swipeLeft.isSome || msg.swipeRight.isSome) = true →
          s₂.table.isHighlighted = false → s₂.table.firstGroup.Nodup := by
        rw [htable]
        refine fun hswipes hflag => hok hswipes hflag fun idx' hidx' => ?_
        rw [hmsg] at hidx'
        obtain rfl := Option.some.inj hidx'
        exact hselect ▸ rfl
      rw [if_neg (by rw [hselected.sub]; decide)]
      split
      · exact hselected
      · next s₃ hswipe => exact highlights_swipeSub hselected hnodup hswipe

/-- **The loop over the messages** keeps the highlights. -/
theorem highlights_processMessages (h : Highlights s.heap s.table) (queue : List TableStateMessage)
    (hok : ∀ p ∈ history S stray queue s, p.2.1.SwipeKeeps p.1) :
    Highlights (processMessages S stray queue s).1.heap
      (processMessages S stray queue s).1.table :=
  processMessages_preserves_of_history (I := fun s => Highlights s.heap s.table)
    (C := fun msg s => s.SwipeKeeps msg)
    (fun _ _ h' => h'.of_firstGroup rfl h'.groups rfl fun _ => rfl)
    (fun _ _ h' => highlights_handleMessage h') h hok

/-! ## Removals, additions and the sort -/

/-- While the flag is set, nobody is removed from the first group. -/
def RemovalKeeps (s : LoopState ι) : Option ι → Prop
  | none => True
  | some item => s.table.isHighlighted = true → item ∉ s.table.firstGroup

instance (s : LoopState ι) : ∀ r, Decidable (s.RemovalKeeps r)
  | none => .isTrue trivial
  | some _ => inferInstanceAs (Decidable (_ → _))

/-- Removing an item from another group leaves the first one. -/
theorem headD_removeItem {items : List (List ι)} {item : ι} (hitem : item ∉ items.headD []) :
    (Table.removeItem item items).headD [] = items.headD [] := by
  cases items with
  | nil => rfl
  | cons group rest =>
    refine Table.removeItem_preserves (P := fun items => items.headD [] = group) ?_ rfl
    intro items i j hget hhead
    cases items with
    | nil => cases hget
    | cons group' rest' =>
      obtain rfl : group' = group := hhead
      cases i with
      | zero => exact absurd (List.mem_of_getElem? hget) hitem
      | succ i =>
        rw [Table.eraseAt]
        split <;> rfl

/-- Ending the highlights of all groups leaves none. -/
theorem foldl_unHighlightBoids (groups : List (List ι)) (s : LoopState ι) :
    (∀ x ∉ groups.flatten, (groups.foldl unHighlightBoids s).heap x = s.heap x) ∧
      NoneMarked (groups.foldl unHighlightBoids s).heap groups.flatten := by
  induction groups generalizing s with
  | nil => exact ⟨fun _ _ => rfl, fun _ hx => absurd hx List.not_mem_nil⟩
  | cons group groups ih =>
    obtain ⟨hother, hplain⟩ := ih (s.unHighlightBoids group)
    obtain ⟨hother', hplain'⟩ := s.unHighlightBoids_spec group
    rw [List.flatten_cons]
    refine ⟨fun x hx => ?_, fun x hx => ?_⟩
    · rw [List.mem_append, not_or] at hx
      exact (hother x hx.2).trans (hother' x hx.1)
    · by_cases hmem : x ∈ groups.flatten
      · exact hplain x hmem
      · rw [List.foldl_cons, hother x hmem]
        exact hplain' x ((List.mem_append.mp hx).resolve_right hmem)

/-- **A removal** keeps the highlights: `Clear` ends them, and leaves the flag. -/
theorem highlights_removal (h : Highlights s.heap s.table) {r : Option ι} (hok : s.RemovalKeeps r) :
    Highlights (s.removal r).heap (s.removal r).table := by
  cases r with
  | none =>
    obtain ⟨hother, hplain⟩ := foldl_unHighlightBoids s.table.items s
    have hall : ∀ x, ((s.removal none).heap x).Plain := by
      intro x
      by_cases hx : x ∈ s.table.items.flatten
      · exact hplain x hx
      · have hsame : (s.removal none).heap x = s.heap x := hother x hx
        rw [hsame]
        exact h.rest x fun _ hfirst => hx (Table.firstGroup_subset hfirst)
    refine ⟨?_, List.not_mem_nil, fun x _ => hall x, fun _ i x hx => nomatch hx⟩
    rw [(removal_keepsGroups s none).isTopLevelTable, h.sub]
  | some item =>
    exact h.of_firstGroup rfl (Table.nil_notMem_removeItem h.groups) rfl
      fun hset => headD_removeItem (hok hset)

/-- While the flag is set, nobody is added to the first group, or as the first one. -/
def AdditionKeeps (s : LoopState ι) (item : ι) : Prop :=
  s.table.isHighlighted = true → s.table.items ≠ [] ∧
    Table.lookupItemGroup s.heap s.table.items (s.heap item).key ≠ some 0

instance (s : LoopState ι) (item : ι) : Decidable (s.AdditionKeeps item) :=
  inferInstanceAs (Decidable (_ → _ ∧ _))

omit [DecidableEq ι] in
/-- An addition to another group leaves the first one. -/
theorem headD_addItem {heap : ι → TableItem} {items : List (List ι)} {item : ι}
    (hitems : items ≠ []) (hlookup : Table.lookupItemGroup heap items (heap item).key ≠ some 0) :
    (Table.addItem heap item items).headD [] = items.headD [] := by
  obtain ⟨group, rest, rfl⟩ := List.exists_cons_of_ne_nil hitems
  rw [Table.addItem]
  split
  · rfl
  · next i hi =>
    cases i with
    | zero => exact absurd hi hlookup
    | succ i => rfl

omit [DecidableEq ι] in
/-- **An addition** keeps the highlights. -/
theorem highlights_addition (h : Highlights s.heap s.table) {item : ι}
    (hok : s.AdditionKeeps item) :
    Highlights (s.addition item).heap (s.addition item).table :=
  h.of_firstGroup rfl (Table.nil_notMem_addItem h.groups) rfl
    fun hset => headD_addItem (hok hset).1 (hok hset).2

/-- If the sort after two seconds comes while the flag is set, the first group has a higher
score than each other. -/
def SortKeeps (s : LoopState ι) (o : FrameInput ι) : Prop :=
  s.table.isHighlighted = true → s.table.startupSortDone = false →
    o.now - s.table.startTimestamp > 2 → ∀ group ∈ s.table.items.tail,
      Table.compareUtilization s.heap s.table.firstGroup group = true

instance (s : LoopState ι) (o : FrameInput ι) : Decidable (s.SortKeeps o) :=
  inferInstanceAs (Decidable (_ → _ → _ → _))

/-- A sort leaves a first group that comes before each other. -/
theorem headD_sort {items : List (List ι)} {compare : List ι → List ι → Bool}
    (hcompare : StrictWeak compare)
    (hfirst : ∀ group ∈ items.tail, compare (items.headD []) group = true) :
    (S.sort compare items).headD [] = items.headD [] := by
  have hperm := S.perm hcompare items
  have hsorted := S.sorted hcompare items
  cases items with
  | nil => rw [hperm.eq_nil]
  | cons group rest =>
    cases hresult : S.sort compare (group :: rest) with
    | nil => exact absurd (hresult ▸ hperm).symm.eq_nil (List.cons_ne_nil _ _)
    | cons first others =>
      rw [hresult] at hperm hsorted
      by_contra hne
      -- another group came to be the first, and the first one behind it
      have hmem : first ∈ rest :=
        (List.mem_cons.mp (hperm.subset (List.mem_cons_self ..))).resolve_left hne
      have hbehind : group ∈ others :=
        (List.mem_cons.mp (hperm.symm.subset (List.mem_cons_self ..))).resolve_left (Ne.symm hne)
      have hbefore := (List.pairwise_cons.mp hsorted).1 group hbehind
      exact Bool.false_ne_true (hbefore.symm.trans (hfirst first hmem))

theorem sortTable_items (S : StdSort) (stray : List (List ι) → ℤ → Option ι) (s : LoopState ι)
    (compare : List ι → List ι → Bool) :
    (s.sortTable S stray compare).table.items = S.sort compare s.table.items ∧
      (s.sortTable S stray compare).heap = s.heap ∧
      (s.sortTable S stray compare).table.isHighlighted = s.table.isHighlighted := by
  rw [sortTable]
  split <;> exact ⟨rfl, rfl, rfl⟩

/-- **The sort** keeps the highlights. -/
theorem highlights_startupSort (h : Highlights s.heap s.table) {o : FrameInput ι}
    (hok : s.SortKeeps o) : Highlights (s.startupSort S o).heap (s.startupSort S o).table := by
  have hrearranged := startupSort_rearranges (S := S) o s
  have hgroups := hrearranged.keepsGroups.groups h.groups
  have hsub := hrearranged.isTopLevelTable
  rw [startupSort] at hgroups hsub ⊢
  split
  case isFalse => exact h
  case isTrue hdue =>
    rw [if_pos hdue, sortTableScore] at hgroups hsub
    rw [sortTableScore]
    obtain ⟨hitems, hheap, hflag⟩ := sortTable_items S o.stray
      { s with table := { s.table with startupSortDone := true } }
      (Table.compareUtilization s.heap)
    rw [hheap]
    refine h.of_firstGroup hsub hgroups hflag fun hset => ?_
    rw [Table.firstGroup, hitems]
    exact headD_sort (strictWeak_compareUtilization s.heap) (hok hset hdue.1 hdue.2)

/-! ## A frame -/

/-- The state in which the sort of a frame finds the table, if the frame comes to it. -/
def frameDrained (S : StdSort) (heap : ι → TableItem) (t : Table ι) (o : FrameInput ι) :
    List (LoopState ι) :=
  match processMessages S o.stray t.stateQueue (Tile.loopState heap t) with
  | (_, true) => []
  | (s, false) => [s.drain]

/-- What a frame does while the flag is set, and the swipes in it, keep the highlights. -/
structure FrameKeeps (S : StdSort) (heap : ι → TableItem) (t : Table ι) (o : FrameInput ι) :
    Prop where
  /-- the messages -/
  messages : ∀ p ∈ history S o.stray t.stateQueue (Tile.loopState heap t), p.2.1.SwipeKeeps p.1
  /-- the removals -/
  removals : ∀ p ∈ t.frameRemovals S heap o, p.1.RemovalKeeps p.2
  /-- the additions -/
  additions : ∀ p ∈ t.frameAdditions S heap o, p.1.AdditionKeeps p.2
  /-- the sort -/
  sort : ∀ s ∈ frameDrained S heap t o, s.SortKeeps o

instance (S : StdSort) (heap : ι → TableItem) (t : Table ι) (o : FrameInput ι) :
    Decidable (FrameKeeps S heap t o) :=
  decidable_of_iff
    ((∀ p ∈ history S o.stray t.stateQueue (Tile.loopState heap t), p.2.1.SwipeKeeps p.1) ∧
      (∀ p ∈ t.frameRemovals S heap o, p.1.RemovalKeeps p.2) ∧
      (∀ p ∈ t.frameAdditions S heap o, p.1.AdditionKeeps p.2) ∧
      ∀ s ∈ frameDrained S heap t o, s.SortKeeps o)
    ⟨fun ⟨hm, hr, ha, hs⟩ => ⟨hm, hr, ha, hs⟩, fun ⟨hm, hr, ha, hs⟩ => ⟨hm, hr, ha, hs⟩⟩

theorem highlights_foldl_removal {removals : List (Option ι)} (h : Highlights s.heap s.table)
    (hok : ∀ p ∈ removalSteps removals s, p.1.RemovalKeeps p.2) :
    Highlights (removals.foldl removal s).heap (removals.foldl removal s).table :=
  foldl_removal_preserves (I := fun s => Highlights s.heap s.table)
    (fun _ _ h' => highlights_removal h') h hok

omit [DecidableEq ι] in
theorem highlights_foldl_addition {items : List ι} (h : Highlights s.heap s.table)
    (hok : ∀ p ∈ LoopState.additions items s, p.1.AdditionKeeps p.2) :
    Highlights (items.foldl addition s).heap (items.foldl addition s).table := by
  induction items generalizing s with
  | nil => exact h
  | cons item items ih =>
    obtain ⟨hfirst, hrest⟩ := List.forall_mem_cons.mp hok
    exact ih (highlights_addition h hfirst) hrest

/-- Emptying the queues keeps the highlights. -/
theorem highlights_drain (h : Highlights s.heap s.table)
    (hremovals : ∀ p ∈ removalSteps s.table.removeQueue s.dequeued, p.1.RemovalKeeps p.2)
    (hadditions : ∀ p ∈ LoopState.additions s.table.addQueue s.removals, p.1.AdditionKeeps p.2) :
    Highlights s.drain.heap s.drain.table := by
  have hdequeued : Highlights s.dequeued.heap s.dequeued.table :=
    h.of_firstGroup rfl h.groups rfl fun _ => rfl
  have hremoved := highlights_foldl_removal hdequeued hremovals
  have hstart : Highlights s.removals.heap s.removals.table :=
    hremoved.of_firstGroup rfl hremoved.groups rfl fun _ => rfl
  rw [drain_eq]
  exact highlights_foldl_addition hstart hadditions

/-- **A frame** keeps the highlights. -/
theorem highlights_onLoop {heap : ι → TableItem} {t : Table ι} {o : FrameInput ι}
    (h : Highlights heap t) (hok : FrameKeeps S heap t o) :
    Highlights (t.onLoop S heap o).heap (t.onLoop S heap o).table := by
  have hmessages := highlights_processMessages (s := Tile.loopState heap t) h t.stateQueue
    hok.messages
  obtain ⟨-, hremovals, hadditions, hsort⟩ := hok
  rw [Table.frameRemovals] at hremovals
  rw [Table.frameAdditions] at hadditions
  rw [frameDrained] at hsort
  rw [Tile.onLoop_eq]
  generalize processMessages S o.stray t.stateQueue (Tile.loopState heap t) = result
    at hmessages hremovals hadditions hsort
  obtain ⟨s, returns⟩ := result
  cases returns with
  | true => exact hmessages
  | false =>
    exact highlights_startupSort (highlights_drain hmessages hremovals hadditions)
      (hsort _ (List.mem_singleton_self _))

end LoopState

/-! ## The law -/

section

variable {ι : Type}

/-- No call and no message waits at a table, and it holds a process. -/
structure Table.Settled (t : Table ι) : Prop where
  /-- additions -/
  addQueue : t.addQueue = []
  /-- removals -/
  removeQueue : t.removeQueue = []
  /-- messages -/
  stateQueue : t.stateQueue = []
  /-- what it holds -/
  holds : t.items.flatten ≠ []

/-- The flag says whether the first group is highlighted, and nobody outside is. -/
structure FlagAgrees (heap : ι → TableItem) (t : Table ι) : Prop where
  /-- set exactly if all are highlighted -/
  all : t.isHighlighted = true ↔ AllMarked heap t.firstGroup
  /-- not set exactly if none is -/
  none : t.isHighlighted = false ↔ NoneMarked heap t.firstGroup
  /-- outside the table -/
  outside : ∀ x ∉ t.items.flatten, ∀ b ∈ (heap x).boids, b.isHighlighted = false

/-- What is known of the highlights makes the flag agree. -/
theorem Highlights.flagAgrees {heap : ι → TableItem} {t : Table ι} (h : Highlights heap t)
    (hholds : t.items.flatten ≠ []) : FlagAgrees heap t := by
  -- the first process of the first group is highlighted, or is not
  obtain ⟨x, hx⟩ : ∃ x, t.firstGroup[0]? = some x := by
    cases hitems : t.items with
    | nil => exact absurd (by rw [hitems]; rfl) hholds
    | cons group rest =>
      have hgroup : group ≠ [] := fun hnil => h.groups (by rw [hitems, hnil]; exact .head _)
      obtain ⟨x, others, rfl⟩ := List.exists_cons_of_ne_nil hgroup
      exact ⟨x, by rw [Table.firstGroup, hitems]; rfl⟩
  have hmem := List.mem_of_getElem? hx
  have hplain : t.isHighlighted = false → ∀ x, (heap x).Plain := fun hflag x =>
    h.rest x fun hset => absurd (hflag.symm.trans hset) Bool.false_ne_true
  refine ⟨⟨h.marked, fun hall => ?_⟩, ⟨fun hflag x _ => hplain hflag x, fun hnone => ?_⟩, ?_⟩
  · by_contra hflag
    exact (hall 0 x hx).not_plain (hplain (Bool.eq_false_iff.mpr hflag) x)
  · by_contra hflag
    exact (h.marked (Bool.not_eq_false _ ▸ hflag) 0 x hx).not_plain (hnone x hmem)
  · exact fun x hx => (h.rest x fun _ hfirst => hx (Table.firstGroup_subset hfirst)).boids

end

/-! ## Runs -/

/-- The sub-table, and the items -/
structure SubTable (ι : Type) where
  /-- the items -/
  heap : ι → TableItem
  /-- the table -/
  table : Table ι

namespace SubTable

variable {ι : Type} [DecidableEq ι] {S : StdSort} {r : SubTable ι}

/-- The state after an event. Other parts of the program change items, but not what is
highlighted. -/
def next (S : StdSort) (r : SubTable ι) : TableEvent ι → SubTable ι
  | .call call => { r with table := r.table.call call }
  | .receive msg => { r with table := r.table.receive msg }
  | .write item value =>
    { r with
      heap := Function.update r.heap item
        { value with
          highlightNumber := (r.heap item).highlightNumber
          boids := (r.heap item).boids } }
  | .frame o =>
    { heap := (r.table.onLoop S r.heap o).heap
      table := (r.table.onLoop S r.heap o).table }

/-- A new sub-table; nothing is highlighted yet. -/
def Started (r : SubTable ι) : Prop :=
  (∃ now, r.table = Table.new false now) ∧ ∀ x, (r.heap x).Plain

/-- The transition system of the sub-table. -/
def system (S : StdSort) : TransitionSystem (SubTable ι) (TableEvent ι) where
  init := Started
  step r e r' := r' = r.next S e

/-- What keeps the highlights in a step. -/
def KeepsHighlights (S : StdSort) (r : SubTable ι) : TableEvent ι → Prop
  | .frame o => LoopState.FrameKeeps S r.heap r.table o
  | _ => True

instance (S : StdSort) (r : SubTable ι) : ∀ e, Decidable (r.KeepsHighlights S e)
  | .frame _ => inferInstanceAs (Decidable (LoopState.FrameKeeps ..))
  | .call _ => .isTrue trivial
  | .receive _ => .isTrue trivial
  | .write _ _ => .isTrue trivial

/-- The flag agrees with the boids whenever nothing waits. -/
def HighlightLaw (r : SubTable ι) : Prop := r.table.Settled → FlagAgrees r.heap r.table

omit [DecidableEq ι] in
/-- The flag is wrong if a process of the first group does not show its position. -/
theorem not_highlightLaw {i : ℕ} {x : ι} (hsettled : r.table.Settled)
    (hflag : r.table.isHighlighted = true) (hx : r.table.firstGroup[i]? = some x)
    (hnumber : (r.heap x).highlightNumber ≠ i) : ¬r.HighlightLaw := by
  intro hlaw
  exact hnumber ((hlaw hsettled).all.mp hflag i x hx).number

/-- Other parts of the program leave the numbers and the boids. -/
theorem write_leaves (S : StdSort) (r : SubTable ι) (item : ι) (value : TableItem) (x : ι) :
    ((r.next S (.write item value)).heap x).highlightNumber = (r.heap x).highlightNumber ∧
      ((r.next S (.write item value)).heap x).boids = (r.heap x).boids := by
  by_cases hx : x = item
  · subst hx
    have hwritten : (r.next S (.write x value)).heap x =
        { value with
          highlightNumber := (r.heap x).highlightNumber
          boids := (r.heap x).boids } := Function.update_self ..
    rw [hwritten]
    exact ⟨rfl, rfl⟩
  · have hother : (r.next S (.write item value)).heap x = r.heap x :=
      Function.update_of_ne hx ..
    rw [hother]
    exact ⟨rfl, rfl⟩

/-- **One step keeps the highlights.** -/
theorem highlights_next (h : Highlights r.heap r.table) {e : TableEvent ι}
    (hok : r.KeepsHighlights S e) : Highlights (r.next S e).heap (r.next S e).table := by
  cases e with
  | call call => cases call <;> exact h.of_firstGroup rfl h.groups rfl fun _ => rfl
  | receive msg => exact h.of_firstGroup rfl h.groups rfl fun _ => rfl
  | write item value =>
    have hsame := write_leaves S r item value
    refine ⟨h.sub, h.groups, fun x hx => ?_, fun hset i x hx => ?_⟩
    · obtain ⟨hnumber, hboids⟩ := h.rest x hx
      exact ⟨(hsame x).1.trans hnumber, (hsame x).2 ▸ hboids⟩
    · obtain ⟨hnumber, hboids⟩ := h.marked hset i x hx
      exact ⟨(hsame x).1.trans hnumber, (hsame x).2 ▸ hboids⟩
  | frame o => exact LoopState.highlights_onLoop h hok

/-- **When the flag agrees with the boids**: in every run in which, while it is set, nobody is
removed from the first group or added to it, the sort leaves it first, and nobody is in it
twice when it gets highlighted. -/
theorem highlightLaw_of_keepsHighlights
    (h : ((system S).guarded (KeepsHighlights S)).Reachable r) : HighlightLaw r := by
  have hinv : Highlights r.heap r.table := by
    refine h.invariant (I := fun r => Highlights r.heap r.table) ?_ ?_
    · rintro r ⟨⟨now, htable⟩, hplain⟩
      rw [htable]
      exact ⟨rfl, List.not_mem_nil, fun x _ => hplain x, nofun⟩
    · rintro r e _ - hr ⟨rfl, hok⟩
      exact highlights_next hr hok
  exact fun hsettled => hinv.flagAgrees hsettled.holds

/-! ### Processes that come and go while they are highlighted -/

/-- Processes of one name, each with a boid -/
def oneBoid (_ : ℕ) : TableItem :=
  { Tile.process "bash" "10" 1 with boids := [{ isHighlighted := false, highlightNumber := 0 }] }

/-- A swipe over the sub-table -/
def swipeSub : TableStateMessage := { Tile.swipe with isTopTable := false }

/-- A run of a new sub-table -/
def run (events : List (TableEvent ℕ)) : SubTable ℕ :=
  events.foldl (next .insertion) { heap := oneBoid, table := Table.new false 0 }

/-- Two processes are shown, and a swipe highlights them. -/
def highlightTwo : List (TableEvent ℕ) :=
  [.call (.add 0), .call (.add 1), .frame Tile.early, .receive swipeSub, .frame Tile.early]

/-- The calls, and a frame -/
def thenCalls (calls : List (TableCall ℕ)) : List (TableEvent ℕ) :=
  highlightTwo ++ calls.map .call ++ [.frame Tile.early]

theorem started_oneBoid :
    Started { heap := oneBoid, table := (Table.new false 0 : Table ℕ) } := by
  refine ⟨⟨0, rfl⟩, fun x => ⟨rfl, fun b hb => ?_⟩⟩
  rw [List.mem_singleton.mp hb]

theorem run_reachable (events : List (TableEvent ℕ)) :
    (system .insertion).Reachable (run events) := by
  have hmeets : TransitionSystem.Meets (next .insertion) (fun _ _ => True)
      { heap := oneBoid, table := Table.new false 0 } events := by
    rw [TransitionSystem.meets_iff_forall_mem]
    exact fun _ _ => trivial
  have hstart : (system .insertion).Reachable { heap := oneBoid, table := Table.new false 0 } :=
    .start started_oneBoid
  exact hstart.foldl hmeets fun _ _ _ => rfl

/-- Two processes that are highlighted -/
theorem highlightLaw_two :
    ∃ r, ((system .insertion).guarded (KeepsHighlights .insertion)).Reachable r ∧
      r.table.items = [[0, 1]] ∧ r.table.isHighlighted = true ∧ HighlightLaw r := by
  have hmeets : TransitionSystem.Meets (next .insertion) (KeepsHighlights .insertion)
      { heap := oneBoid, table := Table.new false 0 } highlightTwo := by decide +kernel
  have hstart : ((system .insertion).guarded (KeepsHighlights .insertion)).Reachable
      { heap := oneBoid, table := Table.new false 0 } := .start started_oneBoid
  have hreach := hstart.foldl hmeets fun _ _ hok => ⟨rfl, hok⟩
  exact ⟨run highlightTwo, hreach, by decide +kernel, by decide +kernel,
    highlightLaw_of_keepsHighlights hreach⟩

/-- A process is selected twice between two frames, and a swipe highlights it. -/
def selectTwice : List (TableEvent ℕ) :=
  ([.clear, .add 0, .clear, .add 0].map .call) ++
    [.frame Tile.early, .receive swipeSub, .frame Tile.early]

/-- While two processes are highlighted, another group is selected, a process of their name is
added, or one of them is removed; or a process comes to be shown twice. -/
theorem flag_disagrees :
    (∀ calls ∈ [[.clear, .add 2], [.add 2], [.remove 0]],
      (system .insertion).Reachable (run (thenCalls calls)) ∧
        ¬HighlightLaw (run (thenCalls calls))) ∧
      (system .insertion).Reachable (run selectTwice) ∧ ¬HighlightLaw (run selectTwice) := by
  refine ⟨fun calls hcalls => ⟨run_reachable _, ?_⟩, run_reachable _, ?_⟩
  · simp only [List.mem_cons, List.not_mem_nil, or_false] at hcalls
    rcases hcalls with rfl | rfl | rfl
    · exact not_highlightLaw (i := 0) (x := 2) (by constructor <;> decide +kernel)
        (by decide +kernel) (by decide +kernel) (by decide +kernel)
    · exact not_highlightLaw (i := 2) (x := 2) (by constructor <;> decide +kernel)
        (by decide +kernel) (by decide +kernel) (by decide +kernel)
    · -- the process that was removed is still highlighted
      intro hlaw
      have hagrees := hlaw (by constructor <;> decide +kernel)
      have hboids := hagrees.outside 0 (by decide +kernel)
      revert hboids
      decide +kernel
  · exact not_highlightLaw (i := 0) (x := 0) (by constructor <;> decide +kernel)
      (by decide +kernel) (by decide +kernel) (by decide +kernel)

end SubTable

end WallMon
