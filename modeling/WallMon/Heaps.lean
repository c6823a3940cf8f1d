import WallMon.Table

/-!
# Binary heaps

`std::push_heap` and `std::pop_heap` keep a vector a binary heap: no element is above its
parent, so the first one is a greatest. The order may look at data that the elements point to;
what is then needed of a change of the data is that the elements in the heap compare as
before. `std::push_heap` and `std::pop_heap` are the parameter `StdHeap`.

A heap serves to select the greatest of many elements that come one after the other: a full
selection gives up a least element for a greater one.
-/

namespace WallMon

variable {α : Type} {lt lt' : α → α → Bool}

/-- No element is above its parent. -/
def IsHeap (lt : α → α → Bool) (l : List α) : Prop :=
  ∀ i parent child, l[i / 2]? = some parent → l[i + 1]? = some child → lt parent child = false

/-- The first element of a heap is not below any. -/
theorem IsHeap.front_max (hlt : StrictWeak lt) {front : α} {rest : List α}
    (h : IsHeap lt (front :: rest)) {x : α} (hx : x ∈ front :: rest) : lt front x = false := by
  obtain ⟨i, hi⟩ := List.mem_iff_getElem?.mp hx
  -- from an element to its parent, which stands before it
  induction i using Nat.strong_induction_on generalizing x with
  | _ i ih =>
    cases i with
    | zero =>
      obtain rfl : front = x := by simpa using hi
      exact hlt.irrefl front
    | succ i =>
      have hlength : i + 1 < (front :: rest).length := (List.getElem?_eq_some_iff.mp hi).1
      have hparent := List.getElem?_eq_getElem (l := front :: rest) (i := i / 2) (by omega)
      have hfront := ih (i / 2) (by omega) (List.mem_of_getElem? hparent) hparent
      exact hlt.incomp (h i _ _ hparent hi) hfront

/-- A heap remains one if its elements compare as before. -/
theorem IsHeap.congr {l : List α} (h : IsHeap lt l) (hlt : ∀ x ∈ l, ∀ y ∈ l, lt' x y = lt x y) :
    IsHeap lt' l := by
  intro i parent child hparent hchild
  rw [hlt parent (List.mem_of_getElem? hparent) child (List.mem_of_getElem? hchild)]
  exact h i parent child hparent hchild

/-- A sorted list is a heap. -/
theorem IsHeap.of_pairwise {l : List α} (h : l.Pairwise fun a b => lt a b = false) :
    IsHeap lt l := by
  intro i parent child hparent hchild
  obtain ⟨hi, rfl⟩ := List.getElem?_eq_some_iff.mp hparent
  obtain ⟨hj, rfl⟩ := List.getElem?_eq_some_iff.mp hchild
  exact List.pairwise_iff_getElem.mp h (i / 2) (i + 1) hi hj (by omega)

/-- `std::push_heap` and `std::pop_heap`; how the heap is built is not said. -/
structure StdHeap where
  /-- put the last element in its place -/
  push : {α : Type} → (α → α → Bool) → List α → List α
  /-- move the first element to the end -/
  pop : {α : Type} → (α → α → Bool) → List α → List α
  /-- no element gets lost, and none is added -/
  push_perm : ∀ {α : Type} {lt : α → α → Bool}, StrictWeak lt → ∀ (l : List α) (x : α),
    IsHeap lt l → (push lt (l ++ [x])).Perm (l ++ [x])
  /-- the result is a heap -/
  push_isHeap : ∀ {α : Type} {lt : α → α → Bool}, StrictWeak lt → ∀ (l : List α) (x : α),
    IsHeap lt l → IsHeap lt (push lt (l ++ [x]))
  /-- before the first element, the others are a heap -/
  pop_spec : ∀ {α : Type} {lt : α → α → Bool}, StrictWeak lt → ∀ (front : α) (l : List α),
    IsHeap lt (front :: l) → ∃ rest, pop lt (front :: l) = rest ++ [front] ∧ rest.Perm l ∧
      IsHeap lt rest

/-- A vector that is sorted after each change is a heap. -/
def StdHeap.sorting (S : StdSort) : StdHeap where
  push lt l := S.sort (fun a b => lt b a) l
  pop lt l := S.sort (fun a b => lt b a) l.tail ++ l.head?.toList
  push_perm hlt l x _ := S.perm hlt.flip (l ++ [x])
  push_isHeap hlt l x _ := .of_pairwise (S.sorted hlt.flip (l ++ [x]))
  pop_spec hlt _ l _ := ⟨_, rfl, S.perm hlt.flip l, .of_pairwise (S.sorted hlt.flip l)⟩

/-! ## Selecting the greatest -/

/-- Elements with the greatest values, and the others. -/
structure IsTop {β : Type} [Preorder β] (value : α → β) (count : ℕ) (l selected rejected : List α) :
    Prop where
  /-- an element is in one of the two lists -/
  perm : l.Perm (selected ++ rejected)
  /-- as many as asked for, if there are -/
  length : selected.length = min count l.length
  /-- no other element has a greater value -/
  best : ∀ a ∈ selected, ∀ b ∈ rejected, value b ≤ value a

namespace IsTop

open scoped List

variable {β : Type} [Preorder β] {value : α → β} {count : ℕ} {l selected rejected : List α}

theorem nil (value : α → β) (count : ℕ) : IsTop value count [] [] [] where
  perm := .refl _
  length := by rw [List.length_nil, Nat.min_zero]
  best _ h := nomatch h

theorem length_add (h : IsTop value count l selected rejected) :
    selected.length + rejected.length = l.length := by
  rw [← List.length_append, h.perm.length_eq]

/-- As long as a place is free, an element gets it. -/
theorem fill (h : IsTop value count l selected rejected) (hfree : selected.length < count) (x : α) :
    IsTop value count (l ++ [x]) (selected ++ [x]) rejected := by
  have hlength := h.length
  have hadd := h.length_add
  obtain rfl : rejected = [] := List.eq_nil_of_length_eq_zero (by omega)
  refine ⟨?_, ?_, ?_⟩
  · simpa using h.perm.append_right [x]
  · simp only [List.length_append, List.length_singleton]
    omega
  · exact fun _ _ _ hb => nomatch hb

/-- An element that is not greater than any selected one is not taken. -/
theorem reject (h : IsTop value count l selected rejected) (hfull : count ≤ selected.length)
    {x : α} (hx : ∀ a ∈ selected, value x ≤ value a) :
    IsTop value count (l ++ [x]) selected (rejected ++ [x]) := by
  have hlength := h.length
  refine ⟨?_, ?_, fun a ha b hb => ?_⟩
  · rw [← List.append_assoc]
    exact h.perm.append_right [x]
  · rw [List.length_append, List.length_singleton]
    omega
  · rcases List.mem_append.mp hb with hb | hb
    · exact h.best a ha b hb
    · exact List.mem_singleton.mp hb ▸ hx a ha

/-- A greater element takes the place of a least one. -/
theorem replace (h : IsTop value count l selected rejected) (hfull : count ≤ selected.length)
    {removed x : α} {kept : List α} (hkept : selected.Perm (removed :: kept))
    (hleast : ∀ a ∈ selected, value removed ≤ value a) (hx : value removed ≤ value x) :
    IsTop value count (l ++ [x]) (kept ++ [x]) (removed :: rejected) := by
  have hlength := h.length
  have hkeptLength := hkept.length_eq
  rw [List.length_cons] at hkeptLength
  have hremoved : removed ∈ selected := hkept.symm.subset (List.mem_cons_self ..)
  have hrejected : ∀ b ∈ removed :: rejected, value b ≤ value removed := by
    intro b hb
    rcases List.mem_cons.mp hb with rfl | hb
    · exact le_rfl
    · exact h.best removed hremoved b hb
  refine ⟨?_, ?_, fun a ha b hb => ?_⟩
  · calc l ++ [x]
      _ ~ selected ++ rejected ++ [x] := h.perm.append_right [x]
      _ ~ removed :: kept ++ rejected ++ [x] := (hkept.append_right _).append_right _
      _ ~ removed :: rejected ++ kept ++ [x] :=
          (List.perm_append_comm.cons removed).append_right _
      _ ~ removed :: rejected ++ (kept ++ [x]) := by rw [List.append_assoc]
      _ ~ kept ++ [x] ++ removed :: rejected := List.perm_append_comm
  · simp only [List.length_append, List.length_singleton]
    omega
  · refine (hrejected b hb).trans ?_
    rcases List.mem_append.mp ha with ha | ha
    · exact hleast a (hkept.symm.subset (List.mem_cons_of_mem _ ha))
    · exact List.mem_singleton.mp ha ▸ hx

end IsTop

end WallMon
