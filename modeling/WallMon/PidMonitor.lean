import Mathlib.Data.List.Sort
import Mathlib.Order.Lattice

/-!
# `PidMonitor`: the pids that are new

`std::set_difference` walks over two sorted ranges and keeps what only the first has.
`PidMonitor` applies it to two snapshots of the pids in `/proc`. A pid that both
snapshots list is not new, whichever processes had it; and a snapshot that failed lists
nothing.
-/

namespace WallMon

/-! ## Differences of sorted ranges -/

section SetDifference

variable {α : Type} [LinearOrder α]

/-- The walk over the second range, for the first element of the first; `rest` is what
comes of the elements after it. -/
def skipBelow (x : α) (rest : List α → List α) : List α → List α
  | [] => x :: rest []
  | y :: ys =>
    if x < y then x :: rest (y :: ys)
    else if y < x then skipBelow x rest ys
    else rest ys

/-- `std::set_difference` of two sorted ranges -/
def setDifference : List α → List α → List α
  | [], _ => []
  | x :: xs, ys => skipBelow x (setDifference xs) ys

/-- What only the first of two sorted ranges has: the walk over the second. -/
theorem mem_skipBelow {x : α} {xs : List α} {rest : List α → List α} (hx : ∀ a ∈ xs, x < a)
    (hrest : ∀ ys : List α, ys.Pairwise (· ≤ ·) → ∀ a, a ∈ rest ys ↔ a ∈ xs ∧ a ∉ ys)
    {ys : List α} (hys : ys.Pairwise (· ≤ ·)) (a : α) :
    a ∈ skipBelow x rest ys ↔ (a = x ∨ a ∈ xs) ∧ a ∉ ys := by
  induction ys with
  | nil => simp [skipBelow, hrest [] hys]
  | cons y ys ih =>
    obtain ⟨hy, hys'⟩ := List.pairwise_cons.mp hys
    have habove : ∀ a ∈ xs, ∀ b, b ≤ x → a ≠ b := by
      rintro a ha b hb rfl
      exact absurd (hx a ha) (not_lt.mpr hb)
    rw [skipBelow]
    split
    · next hlt =>
      -- all of the second range is above
      have hnot : x ∉ y :: ys := by
        intro hmem
        rcases List.mem_cons.mp hmem with rfl | hmem
        · exact lt_irrefl _ hlt
        · exact absurd (hlt.trans_le (hy x hmem)) (lt_irrefl _)
      rw [List.mem_cons, hrest _ hys]
      refine ⟨?_, ?_⟩
      · rintro (rfl | ⟨hmem, hout⟩)
        · exact ⟨.inl rfl, hnot⟩
        · exact ⟨.inr hmem, hout⟩
      · rintro ⟨rfl | hmem, hout⟩
        · exact .inl rfl
        · exact .inr ⟨hmem, hout⟩
    · next hle =>
      split
      · next hlt =>
        rw [ih hys', List.mem_cons, not_or]
        refine ⟨?_, ?_⟩
        · rintro ⟨hmem, hout⟩
          refine ⟨hmem, ?_, hout⟩
          rintro rfl
          rcases hmem with rfl | hmem
          · exact lt_irrefl _ hlt
          · exact habove _ hmem _ hlt.le rfl
        · rintro ⟨hmem, -, hout⟩
          exact ⟨hmem, hout⟩
      · next hge =>
        obtain rfl : x = y := le_antisymm (not_lt.mp hge) (not_lt.mp hle)
        rw [hrest _ hys', List.mem_cons, not_or]
        refine ⟨?_, ?_⟩
        · rintro ⟨hmem, hout⟩
          exact ⟨.inr hmem, habove a hmem x le_rfl, hout⟩
        · rintro ⟨rfl | hmem, hne, hout⟩
          · exact absurd rfl hne
          · exact ⟨hmem, hout⟩

/-- **The difference** has what only the first range has. -/
theorem mem_setDifference {xs : List α} (hxs : xs.Pairwise (· < ·)) {ys : List α}
    (hys : ys.Pairwise (· ≤ ·)) (a : α) : a ∈ setDifference xs ys ↔ a ∈ xs ∧ a ∉ ys := by
  induction xs generalizing ys a with
  | nil => simp [setDifference]
  | cons x xs ih =>
    obtain ⟨hx, hxs'⟩ := List.pairwise_cons.mp hxs
    rw [setDifference, mem_skipBelow hx (fun ys hys a => ih hxs' hys a) hys, List.mem_cons]

theorem skipBelow_sublist {x : α} {xs : List α} {rest : List α → List α}
    (hrest : ∀ ys, (rest ys).Sublist xs) (ys : List α) :
    (skipBelow x rest ys).Sublist (x :: xs) := by
  induction ys with
  | nil => exact (hrest []).cons_cons x
  | cons y ys ih =>
    rw [skipBelow]
    split
    · exact (hrest _).cons_cons x
    · split
      · exact ih
      · exact (hrest _).trans (List.sublist_cons_self x xs)

/-- The difference keeps the order of the first range. -/
theorem setDifference_sublist (xs ys : List α) : (setDifference xs ys).Sublist xs := by
  induction xs generalizing ys with
  | nil => exact .refl _
  | cons x xs ih => exact skipBelow_sublist ih ys

end SetDifference

/-! ## The class -/

/-- The two snapshots. -/
structure PidMonitor where
  /-- `_new` -/
  newPids : List ℤ
  /-- `_old` -/
  oldPids : List ℤ

namespace PidMonitor

/-- The constructor. -/
def empty : PidMonitor := { newPids := [], oldPids := [] }

/-- `PidMonitor::Update`; `none` is a `GetAllPids` that fails, which is not noticed. -/
def update (m : PidMonitor) (snapshot : Option (List ℤ)) : PidMonitor where
  newPids := (snapshot.getD []).insertionSort (· ≤ ·)
  oldPids := m.newPids

/-- `PidMonitor::GetDifference` -/
def getDifference (m : PidMonitor) : List ℤ := setDifference m.newPids m.oldPids

/-- Both snapshots are sorted and list no pid twice. -/
structure Sorted (m : PidMonitor) : Prop where
  /-- the new one -/
  newPids : m.newPids.Pairwise (· < ·)
  /-- the old one -/
  oldPids : m.oldPids.Pairwise (· < ·)

theorem sorted_empty : empty.Sorted := ⟨.nil, .nil⟩

theorem mem_update {m : PidMonitor} {pids : List ℤ} {pid : ℤ} :
    pid ∈ (m.update (some pids)).newPids ↔ pid ∈ pids :=
  (List.perm_insertionSort _ pids).mem_iff

/-- **An update** keeps the snapshots sorted. -/
theorem Sorted.update {m : PidMonitor} (h : m.Sorted) {snapshot : Option (List ℤ)}
    (hnodup : (snapshot.getD []).Nodup) : (m.update snapshot).Sorted := by
  refine ⟨?_, h.newPids⟩
  have hsorted := List.pairwise_insertionSort (· ≤ ·) (snapshot.getD [])
  have hperm := List.perm_insertionSort (· ≤ ·) (snapshot.getD [])
  exact hsorted.imp₂ (fun _ _ hle hne => lt_of_le_of_ne hle hne) (hperm.nodup_iff.mpr hnodup)

/-- **The new pids** are those that only the new snapshot lists. -/
theorem mem_getDifference {m : PidMonitor} (h : m.Sorted) {pid : ℤ} :
    pid ∈ m.getDifference ↔ pid ∈ m.newPids ∧ pid ∉ m.oldPids :=
  mem_setDifference h.newPids (h.oldPids.imp fun hlt => hlt.le) pid

theorem nodup_getDifference {m : PidMonitor} (h : m.Sorted) : m.getDifference.Nodup :=
  (h.newPids.imp fun hlt => hlt.ne).sublist (setDifference_sublist _ _)

end PidMonitor

end WallMon
