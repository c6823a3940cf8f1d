import Mathlib.Data.List.Basic
import Mathlib.Data.List.GetD
import Mathlib.Data.List.Nodup

/-!
# Groups kept apart by a name

Items with a name are kept in groups, such that no two groups have items of one name. The
order of the groups does not matter for that, and taking items out keeps them apart. A
new item keeps them apart exactly if it comes to the group that has its name
(`separated_modify_iff`), or starts a group if none has it (`separated_snoc_iff`).
-/

namespace WallMon

section Grouping

variable {α κ : Type} {name : α → κ} {groups groups' : List (List α)}

/-- No name is in two groups. -/
def Separated (name : α → κ) (groups : List (List α)) : Prop :=
  groups.Pairwise fun group group' => ∀ x ∈ group, ∀ y ∈ group', name x ≠ name y

theorem separated_nil : Separated name [] := .nil

/-- The order of the groups does not matter. -/
theorem Separated.perm (h : Separated name groups) (hperm : groups'.Perm groups) :
    Separated name groups' :=
  hperm.symm.pairwise h fun hne y hy x hx heq => hne x hx y hy heq.symm

theorem Separated.sublist (h : Separated name groups) (hsublist : groups'.Sublist groups) :
    Separated name groups' :=
  List.Pairwise.sublist hsublist h

/-- What an index yields, it yields of a group that is there. -/
theorem lt_of_mem_getD {i : ℕ} {x : α} (h : x ∈ groups.getD i []) : i < groups.length := by
  by_contra hge
  rw [List.getD_eq_default _ _ (Nat.not_lt.mp hge)] at h
  exact List.not_mem_nil h

/-- In terms of indices. -/
theorem separated_iff : Separated name groups ↔ ∀ i j x y, x ∈ groups.getD i [] →
    y ∈ groups.getD j [] → name x = name y → i = j := by
  rw [Separated, List.pairwise_iff_getElem]
  refine ⟨fun h i j x y hx hy heq => ?_, fun h i j hi hj hij x hx y hy heq => ?_⟩
  · have hi := lt_of_mem_getD hx
    have hj := lt_of_mem_getD hy
    rw [List.getD_eq_getElem _ _ hi] at hx
    rw [List.getD_eq_getElem _ _ hj] at hy
    rcases Nat.lt_trichotomy i j with hij | hij | hij
    · exact absurd heq (h i j hi hj hij x hx y hy)
    · exact hij
    · exact absurd heq.symm (h j i hj hi hij y hy x hx)
  · rw [← List.getD_eq_getElem _ [] hi] at hx
    rw [← List.getD_eq_getElem _ [] hj] at hy
    exact Nat.ne_of_lt hij (h i j x y hx hy heq)

/-- Groups in which no item is listed twice are kept apart by the items. -/
theorem separated_of_nodup (h : groups.flatten.Nodup) : Separated id groups := by
  refine (List.nodup_flatten.mp h).2.imp fun hdisjoint x hx y hy heq => ?_
  obtain rfl : x = y := heq
  exact hdisjoint hx hy

/-- **Taking items out** of a group keeps the groups apart. -/
theorem Separated.set (h : Separated name groups) {i : ℕ} {group : List α}
    (hgroup : ∀ x ∈ group, x ∈ groups.getD i []) : Separated name (groups.set i group) := by
  have hmem : ∀ j x, x ∈ (groups.set i group).getD j [] → x ∈ groups.getD j [] := by
    intro j x hx
    by_cases hij : j = i
    · subst hij
      by_cases hj : j < groups.length
      · rw [List.getD_eq_getElem _ _ (by simpa using hj), List.getElem_set_self] at hx
        exact hgroup x hx
      · rwa [List.set_eq_of_length_le (Nat.not_lt.mp hj)] at hx
    · rwa [List.getD_eq_getElem?_getD, List.getElem?_set_ne (Ne.symm hij),
        ← List.getD_eq_getElem?_getD] at hx
  rw [separated_iff] at h ⊢
  exact fun j k x y hx hy => h j k x y (hmem j x hx) (hmem k y hy)

/-- What a group has when an item was added to one of them. -/
theorem mem_getD_modify {i j : ℕ} (hi : i < groups.length) {x y : α} :
    y ∈ (groups.modify i (· ++ [x])).getD j [] ↔ y ∈ groups.getD j [] ∨ j = i ∧ y = x := by
  by_cases hij : j = i
  · subst hij
    rw [List.getD_eq_getElem _ _ (by simpa using hi), List.getElem_modify,
      List.getD_eq_getElem _ _ hi]
    simp
  · have hne : i ≠ j := fun h => hij h.symm
    rw [List.getD_eq_getElem?_getD, List.getElem?_modify_ne _ _ hne, ← List.getD_eq_getElem?_getD]
    simp [hij]

/-- **A new item for a group** keeps the groups apart exactly if no other has its name. -/
theorem separated_modify_iff {i : ℕ} (hi : i < groups.length) {x : α} :
    Separated name (groups.modify i (· ++ [x])) ↔ Separated name groups ∧
      ∀ j, ∀ y ∈ groups.getD j [], name y = name x → j = i := by
  simp only [separated_iff, mem_getD_modify hi]
  refine ⟨fun h => ?_, ?_⟩
  · exact ⟨fun j k y z hy hz => h j k y z (.inl hy) (.inl hz),
      fun j y hy heq => h j i y x (.inl hy) (.inr ⟨rfl, rfl⟩) heq⟩
  · rintro ⟨hold, hnew⟩ j k y z (hy | ⟨rfl, rfl⟩) (hz | ⟨rfl, rfl⟩) heq
    · exact hold j k y z hy hz heq
    · exact hnew j y hy heq
    · exact (hnew k z hz heq.symm).symm
    · rfl

/-- **A new item as a group** keeps the groups apart exactly if none has its name. -/
theorem separated_snoc_iff {x : α} :
    Separated name (groups ++ [[x]]) ↔ Separated name groups ∧
      ∀ j, ∀ y ∈ groups.getD j [], name y ≠ name x := by
  rw [Separated, List.pairwise_append]
  refine and_congr_right fun _ => ?_
  refine ⟨?_, fun h => ?_⟩
  · rintro ⟨-, h⟩ j y hy
    have hj := lt_of_mem_getD hy
    rw [List.getD_eq_getElem _ _ hj] at hy
    exact h _ (List.getElem_mem hj) [x] (List.mem_singleton_self _) y hy x
      (List.mem_singleton_self _)
  · refine ⟨List.pairwise_singleton _ _, fun group hgroup group' hgroup' y hy z hz => ?_⟩
    obtain rfl := List.mem_singleton.mp hgroup'
    obtain rfl := List.mem_singleton.mp hz
    obtain ⟨j, hj, rfl⟩ := List.getElem_of_mem hgroup
    exact h j y (by rwa [List.getD_eq_getElem _ _ hj])

end Grouping

end WallMon
