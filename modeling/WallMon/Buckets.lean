import Mathlib.Data.Finset.Card
import Mathlib.Data.Finset.Dedup
import Mathlib.Data.List.Basic
import Mathlib.Data.List.Perm.Basic
import Mathlib.Data.List.Perm.Subperm
import Mathlib.Tactic.Common
import Std.Data.TreeMap

/-!
# Maps of vectors

`std::map` from keys to vectors, as programs use it to sort values into groups: a value goes to
the end of the vector of its key, and the vector is made if it is not there. No value is lost
on the way, and the keys are those of the values.
-/

namespace WallMon

open Std

variable {κ α : Type} [Ord κ]

/-- A value goes to the vector of its key, which is made if it is not there. -/
def pushBack (m : TreeMap κ (List α)) (k : κ) (x : α) : TreeMap κ (List α) :=
  m.insert k (m.getD k [] ++ [x])

/-- All values -/
def contents (m : TreeMap κ (List α)) : List α := m.toList.flatMap Prod.snd

/-- Values sorted into groups by a key. -/
def group {α β : Type} (key : α → κ) (value : α → β) (l : List α) : TreeMap κ (List β) :=
  l.foldl (fun m x => pushBack m (key x) (value x)) ∅

/-- Values sorted into groups by two keys. -/
def group2 {κ' α β : Type} [Ord κ'] (key : α → κ) (key' : α → κ') (value : α → β) (l : List α) :
    TreeMap κ (TreeMap κ' (List β)) :=
  l.foldl (fun m x => m.insert (key x) (pushBack (m.getD (key x) ∅) (key' x) (value x))) ∅

variable [TransOrd κ] [LawfulEqOrd κ]

/-! ## One value more -/

/-- A vector that was pushed to has one value more than before. -/
theorem getD_pushBack [DecidableEq κ] (m : TreeMap κ (List α)) (k k' : κ) (x : α) :
    (pushBack m k x).getD k' [] = if k = k' then m.getD k' [] ++ [x] else m.getD k' [] := by
  rw [pushBack, TreeMap.getD_insert]
  by_cases hk : k = k'
  · rw [if_pos (by rw [hk]; exact compare_self), if_pos hk, hk]
  · rw [if_neg (fun h => hk (LawfulEqOrd.eq_of_compare h)), if_neg hk]

theorem mem_pushBack {m : TreeMap κ (List α)} {k k' : κ} {x : α} :
    k' ∈ pushBack m k x ↔ k = k' ∨ k' ∈ m := by
  rw [pushBack, TreeMap.mem_insert, LawfulEqCmp.compare_eq_iff_eq]

theorem nodup_toList {β : Type} (m : TreeMap κ β) : m.toList.Nodup :=
  (TreeMap.distinct_keys_toList (t := m)).imp fun hne heq => hne (by rw [heq]; exact compare_self)

/-- The entries with other keys -/
def others {β : Type} (m : TreeMap κ β) (k : κ) : List (κ × β) :=
  m.toList.filter fun p => compare k p.1 ≠ .eq

omit [TransOrd κ] [LawfulEqOrd κ] in
theorem mem_others {β : Type} {m : TreeMap κ β} {k : κ} {p : κ × β} :
    p ∈ others m k ↔ p ∈ m.toList ∧ compare k p.1 ≠ .eq := by
  rw [others, List.mem_filter, decide_eq_true_eq]

/-- The entries of a map that has a key are that of the key, and the others. -/
theorem toList_perm {β : Type} {m : TreeMap κ β} {k : κ} {v : β} (h : m[k]? = some v) :
    m.toList.Perm ((k, v) :: others m k) := by
  refine (List.perm_ext_iff_of_nodup (nodup_toList m) ?_).mpr fun p => ?_
  · refine List.nodup_cons.mpr ⟨fun hmem => ?_, (nodup_toList m).filter _⟩
    exact (mem_others.mp hmem).2 compare_self
  · rw [List.mem_cons, mem_others]
    refine ⟨fun hp => ?_, ?_⟩
    · by_cases hk : compare k p.1 = .eq
      · left
        have hkey : k = p.1 := LawfulEqOrd.eq_of_compare hk
        have hvalue := TreeMap.mem_toList_iff_getElem?_eq_some.mp hp
        rw [← hkey, h] at hvalue
        exact Prod.ext hkey.symm (Option.some.inj hvalue).symm
      · exact .inr ⟨hp, hk⟩
    · rintro (rfl | ⟨hp, -⟩)
      · exact TreeMap.mem_toList_iff_getElem?_eq_some.mpr h
      · exact hp

theorem others_insert {β : Type} (m : TreeMap κ β) (k : κ) (v : β) :
    (others (m.insert k v) k).Perm (others m k) := by
  refine (List.perm_ext_iff_of_nodup ((nodup_toList _).filter _) ((nodup_toList _).filter _)).mpr
    fun p => ?_
  change p ∈ others (m.insert k v) k ↔ p ∈ others m k
  rw [mem_others, mem_others, TreeMap.mem_toList_iff_getElem?_eq_some,
    TreeMap.mem_toList_iff_getElem?_eq_some, TreeMap.getElem?_insert]
  refine and_congr_left fun hk => ?_
  rw [if_neg hk]

/-- The entries after an insertion are the new one, and the others. -/
theorem toList_insert {β : Type} (m : TreeMap κ β) (k : κ) (v : β) :
    (m.insert k v).toList.Perm ((k, v) :: others m k) :=
  (toList_perm TreeMap.getElem?_insert_self).trans ((others_insert m k v).cons _)

/-- The values are those of a key, and those of the others. -/
theorem contents_perm (m : TreeMap κ (List α)) (k : κ) :
    (contents m).Perm (m.getD k [] ++ (others m k).flatMap Prod.snd) := by
  rw [contents, TreeMap.getD_eq_getD_getElem?]
  cases h : m[k]? with
  | none =>
    have hall : others m k = m.toList := by
      refine List.filter_eq_self.mpr fun p hp => decide_eq_true fun hk => ?_
      have hvalue := TreeMap.mem_toList_iff_getElem?_eq_some.mp hp
      rw [← LawfulEqOrd.eq_of_compare hk, h] at hvalue
      cases hvalue
    rw [hall, Option.getD_none, List.nil_append]
  | some v => exact (toList_perm h).flatMap_right _

/-- **No value is lost**, and one is new. -/
theorem contents_pushBack (m : TreeMap κ (List α)) (k : κ) (x : α) :
    (contents (pushBack m k x)).Perm (contents m ++ [x]) := by
  have hnew : (contents (pushBack m k x)).Perm
      (m.getD k [] ++ [x] ++ (others m k).flatMap Prod.snd) :=
    (toList_insert m k _).flatMap_right _
  refine hnew.trans (List.Perm.trans ?_ ((contents_perm m k).symm.append_right [x]))
  rw [List.append_assoc, List.append_assoc]
  exact List.perm_append_comm.append_left _

/-- An entry is a key that is there, and what the map has for it. -/
theorem mem_toList_iff {β : Type} {m : TreeMap κ β} (fallback : β) {k : κ} {v : β} :
    (k, v) ∈ m.toList ↔ k ∈ m ∧ v = m.getD k fallback := by
  rw [TreeMap.mem_toList_iff_getElem?_eq_some, TreeMap.getD_eq_getD_getElem?,
    TreeMap.mem_iff_isSome_getElem?]
  cases m[k]? with
  | none => simp
  | some v' => simp [eq_comm]

/-! ## Groups -/

/-- A map has as many entries as it has keys. -/
theorem size_eq_card {β : Type} [DecidableEq κ] {m : TreeMap κ β} {s : Finset κ}
    (h : ∀ k, k ∈ m ↔ k ∈ s) : m.size = s.card := by
  have hkeys : m.keys.toFinset = s := by
    ext k
    rw [List.mem_toFinset, TreeMap.mem_keys, h]
  rw [← hkeys, List.toFinset_card_of_nodup TreeMap.nodup_keys, TreeMap.length_keys]

section Group

variable {β : Type} {key : α → κ} {value : α → β} {l : List α}

/-- The keys are those of the values. -/
theorem mem_group {k : κ} : k ∈ group key value l ↔ ∃ x ∈ l, key x = k := by
  induction l using List.reverseRecOn with
  | nil => simp [group]
  | append_singleton l x ih =>
    rw [group, List.foldl_append, List.foldl_cons, List.foldl_nil, mem_pushBack, ← group, ih]
    simp only [List.mem_append, List.mem_singleton, or_and_right, exists_or, exists_eq_left]
    exact or_comm

/-- There are as many groups as keys. -/
theorem size_group [DecidableEq κ] : (group key value l).size = (l.map key).toFinset.card :=
  size_eq_card fun k => by rw [mem_group, List.mem_toFinset, List.mem_map]

/-- A group has the values of its key, in order. -/
theorem getD_group [DecidableEq κ] (k : κ) :
    (group key value l).getD k [] = (l.filter fun x => key x = k).map value := by
  induction l using List.reverseRecOn with
  | nil => simp [group]
  | append_singleton l x ih =>
    rw [group, List.foldl_append, List.foldl_cons, List.foldl_nil, getD_pushBack, ← group, ih,
      List.filter_append, List.map_append]
    by_cases hk : key x = k
    · simp [hk]
    · simp [hk]

/-- The entries are the groups. -/
theorem mem_toList_group [DecidableEq κ] {k : κ} {values : List β} :
    (k, values) ∈ (group key value l).toList ↔
      (∃ x ∈ l, key x = k) ∧ values = (l.filter fun x => key x = k).map value := by
  rw [mem_toList_iff [], mem_group, getD_group]

/-- No value is lost. -/
theorem contents_group : (contents (group key value l)).Perm (l.map value) := by
  induction l using List.reverseRecOn with
  | nil => rfl
  | append_singleton l x ih =>
    rw [group, List.foldl_append, List.map_append]
    exact (contents_pushBack _ _ _).trans (ih.append_right _)

variable {κ' : Type} [Ord κ'] {key' : α → κ'}

theorem mem_group2 {k : κ} : k ∈ group2 key key' value l ↔ ∃ x ∈ l, key x = k := by
  induction l using List.reverseRecOn with
  | nil => simp [group2]
  | append_singleton l x ih =>
    rw [group2, List.foldl_append, List.foldl_cons, List.foldl_nil, TreeMap.mem_insert,
      LawfulEqCmp.compare_eq_iff_eq, ← group2, ih]
    simp only [List.mem_append, List.mem_singleton, or_and_right, exists_or, exists_eq_left]
    exact or_comm

theorem size_group2 [DecidableEq κ] :
    (group2 key key' value l).size = (l.map key).toFinset.card :=
  size_eq_card fun k => by rw [mem_group2, List.mem_toFinset, List.mem_map]

/-- The groups of a key are those of the values that have it. -/
theorem getD_group2 [DecidableEq κ] (k : κ) : (group2 key key' value l).getD k ∅ =
    group key' value (l.filter fun x => key x = k) := by
  induction l using List.reverseRecOn with
  | nil => simp [group2, group]
  | append_singleton l x ih =>
    rw [group2, List.foldl_append, List.foldl_cons, List.foldl_nil, TreeMap.getD_insert, ← group2,
      List.filter_append]
    by_cases hk : key x = k
    · rw [hk, if_pos compare_self, ih]
      simp [hk, group, List.foldl_append]
    · rw [if_neg fun h => hk (LawfulEqOrd.eq_of_compare h), ih]
      simp [hk]

theorem mem_toList_group2 [DecidableEq κ] {k : κ} {m : TreeMap κ' (List β) compare} :
    (k, m) ∈ (group2 key key' value l).toList ↔
      (∃ x ∈ l, key x = k) ∧ m = group key' value (l.filter fun x => key x = k) := by
  rw [mem_toList_iff ∅, mem_group2, getD_group2]

end Group

end WallMon
