import WallMon.CheckedInt
import WallMon.TableRows
import WallMon.Transition

/-!
# Indices in the removal loops

The inner loop of a removal tests its index against the size of `_items[i]`, also after the
group at `i` was erased. If another group took its place, the loop goes on in that group,
and finds nothing more. If it was the last one, `_items[i]` is not there any more. So the
loops stay within the vectors exactly if no item is removed that is the only one of the last
group (`removals_ok_iff`).

Here all accesses are checked; where none is outside, the loops are those of `removeItem`
(`removeItem_eq_without`).
-/

namespace WallMon

namespace Table

variable {ι : Type}

/-- `v[i]` of a `vector` -/
def vectorAt {α : Type} (v : List α) (i : ℕ) : Except Fault α :=
  match v[i]? with
  | some x => .ok x
  | none => .error .outOfBounds

section Loops

variable [DecidableEq ι]

/-- The inner removal loop, from index `j` on. -/
def checkedRemoveInGroup (item : ι) (i : ℕ) : ℕ → ℕ → List (List ι) → Except Fault (List (List ι))
  | 0, _, _ => .error .outOfFuel
  | fuel + 1, j, items => do
    let group ← vectorAt items i
    if j < group.length then
      let x ← vectorAt group j
      checkedRemoveInGroup item i fuel (j + 1) (if item = x then eraseAt items i j else items)
    else return items

/-- The outer removal loop, from index `i` on. -/
def checkedRemoveFrom (item : ι) : ℕ → ℕ → List (List ι) → Except Fault (List (List ι))
  | 0, _, _ => .error .outOfFuel
  | fuel + 1, i, items =>
    if i < items.length then do
      let items ← checkedRemoveInGroup item i (items.flatten.length + 1) 0 items
      checkedRemoveFrom item fuel (i + 1) items
    else .ok items

/-- The loop that unhighlights all groups, before they are cleared. -/
def checkedClear : ℕ → ℕ → List (List ι) → Except Fault (List (List ι))
  | 0, _, _ => .error .outOfFuel
  | fuel + 1, i, items =>
    if i < items.length then do
      let _group ← vectorAt items i
      checkedClear fuel (i + 1) items
    else .ok []

/-- A removal of all items or of one. -/
def checkedRemoval (items : List (List ι)) : Option ι → Except Fault (List (List ι))
  | none => checkedClear (items.length + 1) 0 items
  | some item => checkedRemoveFrom item (items.length + 1) 0 items

/-- **What a removal is for**: the item is gone, and its group if it was the only one there. -/
def without (items : List (List ι)) : Option ι → List (List ι)
  | none => []
  | some item => (items.map (·.erase item)).filter (· ≠ [])

/-- **The item is not alone in the last group.** -/
def NotAloneAtEnd (items : List (List ι)) : Option ι → Prop
  | none => True
  | some item => items.getLast? ≠ some [item]

instance (items : List (List ι)) : (request : Option ι) → Decidable (NotAloneAtEnd items request)
  | none => .isTrue trivial
  | some _ => inferInstanceAs (Decidable (_ ≠ _))

end Loops

/-- The contents of a table: no group is empty, and no item is held twice. -/
structure Contents (items : List (List ι)) : Prop where
  /-- groups have items -/
  nil_notMem : [] ∉ items
  /-- all items are distinct -/
  nodup : items.flatten.Nodup

/-! ## The loops where the item is not -/

theorem vectorAt_ok {α : Type} {v : List α} {i : ℕ} (h : i < v.length) :
    vectorAt v i = .ok v[i] := by
  rw [vectorAt, List.getElem?_eq_getElem h]

variable [DecidableEq ι] {item : ι} {items : List (List ι)}

/-- The inner loop ends without effect in a group without the item. -/
theorem checkedRemoveInGroup_of_notMem {i : ℕ} (hi : i < items.length) (h : item ∉ items[i])
    {fuel j : ℕ} (hfuel : items[i].length < j + fuel) (hpos : 0 < fuel) :
    checkedRemoveInGroup item i fuel j items = .ok items := by
  induction fuel generalizing j with
  | zero => omega
  | succ fuel ih =>
    rw [checkedRemoveInGroup, vectorAt_ok hi, ok_bind]
    split
    · next hj =>
      have hne : item ≠ items[i][j] := fun heq => h (heq ▸ List.getElem_mem hj)
      rw [vectorAt_ok hj, ok_bind, if_neg hne]
      exact ih (by omega) (by omega)
    · rfl

/-- The outer loop ends without effect if the item is nowhere. -/
theorem checkedRemoveFrom_of_notMem (h : item ∉ items.flatten) {fuel i : ℕ}
    (hfuel : items.length < i + fuel) (hpos : 0 < fuel) :
    checkedRemoveFrom item fuel i items = .ok items := by
  induction fuel generalizing i with
  | zero => omega
  | succ fuel ih =>
    rw [checkedRemoveFrom]
    split
    · next hi =>
      have hgroup : item ∉ items[i] := fun hmem =>
        h (List.mem_flatten_of_mem (List.getElem_mem hi) hmem)
      have hlength := (List.sublist_flatten_of_mem (List.getElem_mem hi)).length_le
      rw [checkedRemoveInGroup_of_notMem hi hgroup (by omega) (Nat.succ_pos _), ok_bind]
      exact ih (by omega) (by omega)
    · rfl

/-! ## The loops where the item is -/

variable {pre post : List (List ι)} {before after : List ι}

omit [DecidableEq ι] in
/-- Whether there is a group in the place of the group, once the item is erased. -/
theorem lt_length_eraseAt_iff :
    pre.length < (eraseAt (pre ++ (before ++ item :: after) :: post) pre.length
      before.length).length ↔ before ++ after ≠ [] ∨ post ≠ [] := by
  rw [eraseAt_eq, ← List.length_pos_iff (l := post)]
  split
  · next hnil => simp [hnil]
  · next hne => simp [hne]

/-- The place in the middle is within the list. -/
theorem lt_length_middle {α : Type} {front back : List α} {x : α} {i : ℕ} (h : i ≤ front.length) :
    i < (front ++ x :: back).length := by
  rw [List.length_append, List.length_cons]
  omega

omit [DecidableEq ι] in
/-- There are fewer items then. -/
theorem length_flatten_eraseAt_lt (pre post : List (List ι)) (before after : List ι) (item : ι) :
    (eraseAt (pre ++ (before ++ item :: after) :: post) pre.length before.length).flatten.length <
      (pre ++ (before ++ item :: after) :: post).flatten.length := by
  rw [flatten_eraseAt, flatten_split]
  simp only [List.length_append, List.length_cons]
  omega

/-- The inner loop erases the item, and tests its index against the group that is in its place
then. -/
theorem checkedRemoveInGroup_found
    (hnodup : (pre ++ (before ++ item :: after) :: post).flatten.Nodup) {fuel j : ℕ}
    (hj : j ≤ before.length)
    (hfuel : (pre ++ (before ++ item :: after) :: post).flatten.length < j + fuel) :
    checkedRemoveInGroup item pre.length fuel j (pre ++ (before ++ item :: after) :: post) =
      if pre.length < (eraseAt (pre ++ (before ++ item :: after) :: post) pre.length
          before.length).length then
        .ok (eraseAt (pre ++ (before ++ item :: after) :: post) pre.length before.length)
      else .error .outOfBounds := by
  have hat : vectorAt (pre ++ (before ++ item :: after) :: post) pre.length =
      .ok (before ++ item :: after) := by simp [vectorAt]
  have hbefore : item ∉ before := fun hmem => notMem_rest hnodup (by simp [hmem])
  have hshort : before.length < (pre ++ (before ++ item :: after) :: post).flatten.length := by
    rw [flatten_split]
    simp only [List.length_append, List.length_cons]
    omega
  induction fuel generalizing j with
  | zero => omega
  | succ fuel ih =>
    have hlength : j < (before ++ item :: after).length := lt_length_middle hj
    rw [checkedRemoveInGroup, hat, ok_bind, if_pos hlength, vectorAt_ok hlength, ok_bind]
    -- the index has not come to the item yet, or it has
    rcases Nat.lt_or_eq_of_le hj with hlt | rfl
    · have hne : item ≠ (before ++ item :: after)[j] := by
        rw [List.getElem_append_left hlt]
        exact fun heq => hbefore (heq ▸ List.getElem_mem hlt)
      rw [if_neg hne]
      exact ih hlt (by omega)
    · have heq : item = (before ++ item :: after)[before.length] := by simp
      rw [if_pos heq]
      have hgone := notMem_eraseAt hnodup
      have hle := length_flatten_eraseAt_lt pre post before after item
      generalize eraseAt (pre ++ (before ++ item :: after) :: post) pre.length before.length =
        erased at hgone hle ⊢
      split
      · next hi =>
        have hgroup : item ∉ erased[pre.length] := fun hmem =>
          hgone (List.mem_flatten_of_mem (List.getElem_mem hi) hmem)
        have hle' := (List.sublist_flatten_of_mem (List.getElem_mem hi)).length_le
        exact checkedRemoveInGroup_of_notMem hi hgroup (by omega) (by omega)
      · next hi =>
        obtain ⟨fuel, rfl⟩ : ∃ k, fuel = k + 1 := ⟨fuel - 1, by omega⟩
        rw [checkedRemoveInGroup, vectorAt, List.getElem?_eq_none (by omega)]
        rfl

/-- The outer loop erases the item, if its place is still there then. -/
theorem checkedRemoveFrom_found
    (hnodup : (pre ++ (before ++ item :: after) :: post).flatten.Nodup) {fuel i : ℕ}
    (hi : i ≤ pre.length)
    (hfuel : (pre ++ (before ++ item :: after) :: post).length < i + fuel) :
    checkedRemoveFrom item fuel i (pre ++ (before ++ item :: after) :: post) =
      if pre.length < (eraseAt (pre ++ (before ++ item :: after) :: post) pre.length
          before.length).length then
        .ok (eraseAt (pre ++ (before ++ item :: after) :: post) pre.length before.length)
      else .error .outOfBounds := by
  induction fuel generalizing i with
  | zero => exact absurd hfuel (Nat.lt_asymm (lt_length_middle hi))
  | succ fuel ih =>
    have hlength : i < (pre ++ (before ++ item :: after) :: post).length := lt_length_middle hi
    rw [checkedRemoveFrom, if_pos hlength]
    -- the index has not come to the group yet, or it has
    rcases Nat.lt_or_eq_of_le hi with hlt | rfl
    · have hother : item ∉ (pre ++ (before ++ item :: after) :: post)[i] := by
        rw [List.getElem_append_left hlt]
        exact fun hmem => notMem_rest hnodup (by
          simp [List.mem_flatten_of_mem (List.getElem_mem hlt) hmem])
      have hle := (List.sublist_flatten_of_mem (List.getElem_mem hlength)).length_le
      rw [checkedRemoveInGroup_of_notMem hlength hother (by omega) (Nat.succ_pos _), ok_bind]
      exact ih hlt (by omega)
    · rw [checkedRemoveInGroup_found hnodup (Nat.zero_le _) (by omega)]
      split
      · rw [ok_bind]
        refine checkedRemoveFrom_of_notMem (notMem_eraseAt hnodup) ?_ ?_
        · rw [eraseAt_eq]
          rw [List.length_append, List.length_cons] at hfuel
          split <;> simp <;> omega
        · rw [List.length_append, List.length_cons] at hfuel
          omega
      · rfl

/-! ## One removal -/

/-- Groups that do not have the item stay. -/
theorem without_of_notMem (hnil : [] ∉ items) (hitem : item ∉ items.flatten) :
    without items (some item) = items := by
  have hmap : items.map (·.erase item) = items := by
    refine (List.map_congr_left fun group hgroup => ?_).trans (List.map_id items)
    exact List.erase_of_not_mem fun hmem => hitem (List.mem_flatten_of_mem hgroup hmem)
  rw [without, hmap, List.filter_eq_self]
  intro group hgroup
  simpa using fun hempty : group = [] => hnil (hempty ▸ hgroup)

/-- The group that has the item loses it. -/
theorem without_found (h : Contents (pre ++ (before ++ item :: after) :: post)) :
    without (pre ++ (before ++ item :: after) :: post) (some item) =
      eraseAt (pre ++ (before ++ item :: after) :: post) pre.length before.length := by
  have hrest := notMem_rest h.nodup
  have hnil := h.nil_notMem
  simp only [List.mem_append, List.mem_cons, not_or] at hrest hnil
  have hpre := without_of_notMem hnil.1 hrest.1.1
  have hpost := without_of_notMem hnil.2.2 hrest.2.2
  have hgroup : (before ++ item :: after).erase item = before ++ after := by
    rw [List.erase_append_right _ hrest.1.2, List.erase_cons_head]
  rw [without] at hpre hpost
  rw [without, List.map_append, List.map_cons, List.filter_append, List.filter_cons, hpre, hpost,
    hgroup, eraseAt_eq]
  by_cases hempty : before ++ after = [] <;> simp [hempty]

omit [DecidableEq ι] in
/-- An item is alone in the last group if its place is not there once it is erased. -/
theorem notAloneAtEnd_found
    (hnodup : (pre ++ (before ++ item :: after) :: post).flatten.Nodup) :
    NotAloneAtEnd (pre ++ (before ++ item :: after) :: post) (some item) ↔
      before ++ after ≠ [] ∨ post ≠ [] := by
  rw [NotAloneAtEnd]
  rcases List.eq_nil_or_concat' post with rfl | ⟨post, last, rfl⟩
  · have halone : before ++ item :: after = [item] ↔ before ++ after = [] := by
      cases before <;> simp
    rw [List.getLast?_concat, ne_eq, Option.some.injEq, halone]
    simp
  · rw [← List.cons_append, ← List.append_assoc, List.getLast?_concat]
    refine iff_of_true (fun heq => ?_) (.inr (by simp))
    obtain rfl := Option.some.inj heq
    exact notMem_rest hnodup (by simp)

omit [DecidableEq ι] in
theorem Contents.eraseAt (h : Contents (pre ++ (before ++ item :: after) :: post)) :
    Contents (Table.eraseAt (pre ++ (before ++ item :: after) :: post) pre.length
      before.length) := by
  have hnodup := h.nodup
  rw [flatten_split, List.nodup_middle] at hnodup
  refine ⟨nil_notMem_eraseAt h.nil_notMem, ?_⟩
  rw [flatten_eraseAt]
  simpa using (List.nodup_cons.mp hnodup).2

/-- A removal of all items goes through all groups. -/
theorem checkedClear_eq {fuel i : ℕ} (hfuel : items.length < i + fuel) (hpos : 0 < fuel) :
    checkedClear fuel i items = .ok [] := by
  induction fuel generalizing i with
  | zero => omega
  | succ fuel ih =>
    rw [checkedClear]
    split
    · next hi =>
      rw [vectorAt_ok hi, ok_bind]
      exact ih (by omega) (by omega)
    · rfl

omit [DecidableEq ι] in
/-- An item that is held is in one of the groups. -/
theorem exists_found (hmem : item ∈ items.flatten) :
    ∃ pre before after post, items = pre ++ (before ++ item :: after) :: post := by
  obtain ⟨group, hgroup, hitem⟩ := List.mem_flatten.mp hmem
  obtain ⟨pre, post, rfl⟩ := List.append_of_mem hgroup
  obtain ⟨before, after, rfl⟩ := List.append_of_mem hitem
  exact ⟨pre, before, after, post, rfl⟩

/-- **One removal** leaves what it is for, if the item is not alone in the last group. -/
theorem checkedRemoval_of_notAlone (h : Contents items) {request : Option ι}
    (hok : NotAloneAtEnd items request) :
    checkedRemoval items request = .ok (without items request) ∧
      Contents (without items request) := by
  cases request with
  | none => exact ⟨checkedClear_eq (by omega) (Nat.succ_pos _), ⟨by simp [without], .nil⟩⟩
  | some item =>
    rw [checkedRemoval]
    by_cases hmem : item ∉ items.flatten
    · rw [checkedRemoveFrom_of_notMem hmem (by omega) (Nat.succ_pos _),
        without_of_notMem h.nil_notMem hmem]
      exact ⟨rfl, h⟩
    · obtain ⟨pre, before, after, post, rfl⟩ := exists_found (not_not.mp hmem)
      rw [checkedRemoveFrom_found h.nodup (Nat.zero_le _) (by omega), without_found h,
        if_pos (lt_length_eraseAt_iff.mpr ((notAloneAtEnd_found h.nodup).mp hok))]
      exact ⟨rfl, h.eraseAt⟩

/-- **One removal** of an item that is alone in the last group goes outside of the vector. -/
theorem checkedRemoval_of_alone (h : Contents items) {request : Option ι}
    (halone : ¬NotAloneAtEnd items request) :
    checkedRemoval items request = .error .outOfBounds := by
  cases request with
  | none => exact absurd trivial halone
  | some item =>
    have hmem : item ∈ items.flatten :=
      List.mem_flatten_of_mem (List.mem_of_getLast? (not_not.mp halone))
        (List.mem_singleton_self item)
    obtain ⟨pre, before, after, post, rfl⟩ := exists_found hmem
    rw [notAloneAtEnd_found h.nodup, ← lt_length_eraseAt_iff] at halone
    rw [checkedRemoval, checkedRemoveFrom_found h.nodup (Nat.zero_le _) (by omega), if_neg halone]

/-- The model of the loops without checks does the same. -/
theorem removeItem_eq_without (h : Contents items) (item : ι) :
    removeItem item items = without items (some item) := by
  by_cases hmem : item ∉ items.flatten
  · rw [removeItem, removeFrom_of_notMem hmem, without_of_notMem h.nil_notMem hmem]
  · obtain ⟨pre, before, after, post, rfl⟩ := exists_found (not_not.mp hmem)
    rw [removeItem, removeFrom_found h.nodup (Nat.zero_le _) (by simp), without_found h]

/-- **Removals stay within the vectors**, end, and remove exactly what was requested, if no item
is removed that is alone in the last group, and only then. -/
theorem removals_ok_iff {items : List (List ι)} (h : Contents items)
    (requests : List (Option ι)) :
    requests.foldlM checkedRemoval items = .ok (requests.foldl without items) ↔
      TransitionSystem.Meets without NotAloneAtEnd items requests :=
  TransitionSystem.foldlM_eq_ok_iff (I := Contents)
    (fun _ _ hcontents hok => checkedRemoval_of_notAlone hcontents hok)
    (fun _ _ hcontents halone => ⟨_, checkedRemoval_of_alone hcontents halone⟩) h requests

/-- Removals from a group of two and a group of one, the last of all items. -/
theorem removals_ok_two_groups :
    [some 1, some 2, none].foldlM checkedRemoval [[1, 2], [3]] = .ok [] := by
  have hcontents : Contents [[1, 2], [3]] := ⟨by decide, by decide⟩
  exact (removals_ok_iff hcontents [some 1, some 2, none]).mpr (by decide)

/-- The only item of a table is removed. -/
theorem removal_only_item :
    checkedRemoval [[1]] (some 1) = .error .outOfBounds ∧
      [some 1].foldlM checkedRemoval [[1]] ≠ .ok ([some 1].foldl without [[1]]) := by
  have hcontents : Contents [[1]] := ⟨by decide, by decide⟩
  have halone : ¬NotAloneAtEnd [[1]] (some 1) := by decide
  have hremoval := checkedRemoval_of_alone hcontents halone
  refine ⟨hremoval, ?_⟩
  rw [List.foldlM_cons, hremoval]
  exact nofun

end Table

end WallMon
