import Mathlib.Algebra.BigOperators.Group.Finset.Piecewise
import Mathlib.Algebra.BigOperators.Group.Finset.Sigma
import Mathlib.Data.Finset.Dedup

/-!
# Latest entries

A log has entries with keys, and of each key the last entry counts. A sum over the entries that
count is kept up by taking away what counted for the key of a new entry, and adding the entry.
-/

namespace WallMon

variable {α κ M : Type} [DecidableEq κ] (key : α → κ)

/-- The last entry with a key. -/
def latest (l : List α) (k : κ) : Option α := (l.filter fun a => key a = k).getLast?

theorem latest_append_singleton (l : List α) (a : α) (k : κ) :
    latest key (l ++ [a]) k = if key a = k then some a else latest key l k := by
  rw [latest, List.filter_append, latest]
  by_cases hk : key a = k
  · rw [if_pos hk, List.filter_singleton, decide_eq_true hk]
    exact List.getLast?_concat
  · rw [if_neg hk, List.filter_singleton, decide_eq_false hk]
    exact congrArg _ (List.append_nil _)

theorem latest_eq_none {key : α → κ} {l : List α} {k : κ} (h : k ∉ l.map key) :
    latest key l k = none := by
  rw [latest, List.getLast?_eq_none_iff, List.filter_eq_nil_iff]
  intro a ha hk
  exact h (of_decide_eq_true hk ▸ List.mem_map_of_mem ha)

/-- The sum over the keys of a log, of a value of their last entries. -/
def latestSum [AddCommMonoid M] (value : α → M) (l : List α) : M :=
  ∑ k ∈ (l.map key).toFinset, (latest key l k).elim 0 value

/-- **One entry more**: what counted for its key is taken away, and the entry added. -/
theorem latestSum_append_singleton [AddCommGroup M] (value : α → M) (l : List α) (a : α) :
    latestSum key value (l ++ [a]) =
      latestSum key value l - (latest key l (key a)).elim 0 value + value a := by
  have hkeys : ((l ++ [a]).map key).toFinset = insert (key a) (l.map key).toFinset := by
    ext k
    simp
  -- the key of the entry apart, the sum is the same
  have hrest : ∑ k ∈ (l.map key).toFinset.erase (key a), (latest key (l ++ [a]) k).elim 0 value =
      ∑ k ∈ (l.map key).toFinset.erase (key a), (latest key l k).elim 0 value := by
    refine Finset.sum_congr rfl fun k hk => ?_
    rw [latest_append_singleton, if_neg (Finset.ne_of_mem_erase hk).symm]
  have hbefore : latestSum key value l = (latest key l (key a)).elim 0 value +
      ∑ k ∈ (l.map key).toFinset.erase (key a), (latest key l k).elim 0 value := by
    by_cases hmem : key a ∈ (l.map key).toFinset
    · exact (Finset.add_sum_erase _ _ hmem).symm
    · rw [Finset.erase_eq_of_notMem hmem, latest_eq_none (by rwa [List.mem_toFinset] at hmem)]
      exact (zero_add _).symm
  rw [latestSum, hkeys, ← Finset.add_sum_erase _ _ (Finset.mem_insert_self ..),
    Finset.erase_insert_eq_erase, hrest, hbefore, latest_append_singleton, if_pos rfl]
  rw [add_sub_cancel_left]
  exact add_comm ..

/-- **By tags**: summed over the tags, what counts under each is what counts in all. -/
theorem sum_latestSum_ite [AddCommMonoid M] {τ : Type} [DecidableEq τ] (tag : α → τ)
    (value : α → M) (l : List α) :
    ∑ t ∈ (l.map tag).toFinset, latestSum key (fun a => if tag a = t then value a else 0) l =
      latestSum key value l := by
  simp only [latestSum]
  refine Finset.sum_comm.trans (Finset.sum_congr rfl fun k _ => ?_)
  cases hlatest : latest key l k with
  | none => exact Finset.sum_const_zero
  | some a =>
    have hmem : a ∈ l := (List.mem_filter.mp (List.mem_of_getLast? hlatest)).1
    simp only [Option.elim_some]
    rw [Finset.sum_ite_eq, if_pos (List.mem_toFinset.mpr (List.mem_map_of_mem hmem))]

end WallMon
