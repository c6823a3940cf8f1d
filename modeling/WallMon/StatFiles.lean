import WallMon.Stat

/-!
# Files of statistics: `Stat<T>::Save`

A file has a line for each sample, with the statistics that flags ask for. What stands at the
start of the lines may be given; then there have to be as many entries as samples, which is a
`CHECK`. The smallest value of an empty sample is read from where there is none.

A standard deviation is the root of a variance; the model keeps the variance. The text around
the numbers, and the averages at the end of the file, are left out.
-/

namespace WallMon

/-- `StorageFlags` -/
structure StorageFlags where
  /-- `filename` -/
  filename : String
  /-- `avg` -/
  avg : Bool
  /-- `variance` -/
  variance : Bool
  /-- `stdDev` -/
  stdDev : Bool
  /-- `min` -/
  min : Bool
  /-- `max` -/
  max : Bool
  /-- `generateLinearStartColumn` -/
  generateLinearStartColumn : Bool
  /-- `startColumn`, unless it is `NULL` -/
  startColumn : Option (List ℤ)
  deriving DecidableEq

/-- The numbers of a line, as far as they are written. -/
structure FileLine where
  /-- the number of the line -/
  linear : Option ℕ
  /-- the entry of the start column -/
  start : Option ℤ
  /-- `Avg` -/
  avg : Option ℚ
  /-- `Variance` -/
  variance : Option ℚ
  /-- `StandardDeviation`, squared -/
  stdDev : Option ℚ
  /-- `MinVal` -/
  min : Option ℚ
  /-- `MaxVal` -/
  max : Option ℚ
  /-- `NumSamples` -/
  numSamples : ℤ
  deriving DecidableEq, Inhabited

/-- A number that is computed only if a flag asks for it. -/
def ifSet {α : Type} (flag : Bool) (call : Except Fault α) : Except Fault (Option α) :=
  if flag then call >>= fun x => .ok (some x) else .ok none

theorem ifSet_ok {α : Type} (flag : Bool) {call : Except Fault α}
    (h : flag = true → ∃ x, call = .ok x) : ∃ x, ifSet flag call = .ok x := by
  rw [ifSet]
  split
  · next hflag =>
    obtain ⟨x, hx⟩ := h hflag
    exact ⟨some x, by rw [hx, ok_bind]⟩
  · exact ⟨none, rfl⟩

theorem ifSet_eq_ok {α : Type} {flag : Bool} {call : Except Fault α} {x : Option α}
    (h : ifSet flag call = .ok x) (hflag : flag = true) : ∃ y, call = .ok y := by
  rw [ifSet, if_pos hflag] at h
  obtain ⟨y, hy, -⟩ := bind_eq_ok h
  exact ⟨y, hy⟩

namespace Stat

variable {T : Type} [StatValue T] (s : Stat T)

/-- The line of a sample. -/
def line (flags : StorageFlags) (i : ℕ) : Except Fault FileLine := do
  let avg ← ifSet flags.avg (s.avg i)
  let variance ← ifSet flags.variance (s.variance i)
  let stdDev ← ifSet flags.stdDev (s.variance i)
  let min ← ifSet flags.min (s.minValOf i >>= fun v => .ok (StatValue.toDouble v))
  let max ← ifSet flags.max (s.maxValOf i >>= fun v => .ok (StatValue.toDouble v))
  let linear := if flags.generateLinearStartColumn then some i else none
  let start ← ifSet flags.startColumn.isSome (elem (flags.startColumn.getD []) i)
  let numSamples ← s.numSamplesOf i
  return { linear, start, avg, variance, stdDev, min, max, numSamples }

/-- `Save` -/
def save (flags : StorageFlags) : Except Fault (List FileLine) := do
  let n ← s.numSamples
  cassert (∀ startColumn ∈ flags.startColumn, (startColumn.length : ℤ) = n)
  loop 0 n (fun lines i => s.line flags i >>= fun line => .ok (lines ++ [line])) []

variable {s}

omit [StatValue T] in
/-- **What `Save` relies on**: the start column, if there is one, has an entry for each sample,
and no sample is empty of which the smallest or the largest value is to be written. -/
def Saveable (flags : StorageFlags) (s : Stat T) : Prop :=
  (∀ startColumn ∈ flags.startColumn, startColumn.length = s.samples.length) ∧
    (flags.min = true ∨ flags.max = true → ∀ sample ∈ s.samples, sample ≠ [])

theorem variance_ok (hfits : Fits s.samples) {i : ℕ} (hi : i < s.samples.length) :
    ∃ x, s.variance i = .ok x := by
  rw [variance, avg_ok hfits hi, ok_bind, numSamplesOf_ok hfits hi, ok_bind,
    loop_eq_foldl _ (fun j hj => get_ok hi hj)]
  exact ⟨_, rfl⟩

/-- A line is written if what it relies on is there, -/
theorem line_ok {flags : StorageFlags} (hfits : Fits s.samples) (hsave : Saveable flags s) {i : ℕ}
    (hi : i < s.samples.length) : ∃ line, s.line flags i = .ok line := by
  have hbest : ∀ better : T → T → Bool, flags.min = true ∨ flags.max = true →
      ∃ x, (s.best better i >>= fun v => .ok (StatValue.toDouble v)) = .ok x := by
    intro better hflag
    have hne := hsave.2 hflag _ (List.getElem_mem hi)
    exact ⟨_, by rw [best_ok better hfits hi hne, ok_bind]⟩
  obtain ⟨avg, havg⟩ := ifSet_ok flags.avg fun _ => ⟨_, avg_ok hfits hi⟩
  obtain ⟨variance, hvariance⟩ := ifSet_ok flags.variance fun _ => variance_ok hfits hi
  obtain ⟨stdDev, hstdDev⟩ := ifSet_ok flags.stdDev fun _ => variance_ok hfits hi
  obtain ⟨min, hmin⟩ := ifSet_ok flags.min fun hflag => hbest _ (.inl hflag)
  obtain ⟨max, hmax⟩ := ifSet_ok flags.max fun hflag => hbest _ (.inr hflag)
  have hentry : flags.startColumn.isSome = true →
      ∃ x, elem (flags.startColumn.getD []) i = .ok x := by
    intro hsome
    obtain ⟨startColumn, hcolumn⟩ := Option.isSome_iff_exists.mp hsome
    have hlength := hsave.1 startColumn hcolumn
    rw [hcolumn]
    exact ⟨_, elem_ok (by rw [Option.getD_some]; omega)⟩
  obtain ⟨start, hstart⟩ := ifSet_ok flags.startColumn.isSome hentry
  rw [line, havg, ok_bind, hvariance, ok_bind, hstdDev, ok_bind, minValOf, hmin, ok_bind,
    maxValOf, hmax, ok_bind]
  dsimp only
  rw [hstart, ok_bind, numSamplesOf_ok hfits hi]
  exact ⟨_, rfl⟩

/-- and if it is written, no value was missing. -/
theorem line_eq_ok {flags : StorageFlags} {i : ℕ} (hi : i < s.samples.length) {line : FileLine}
    (h : s.line flags i = .ok line) (hflag : flags.min = true ∨ flags.max = true) :
    s.samples[i] ≠ [] := by
  obtain ⟨avg, -, h⟩ := bind_eq_ok h
  obtain ⟨variance, -, h⟩ := bind_eq_ok h
  obtain ⟨stdDev, -, h⟩ := bind_eq_ok h
  obtain ⟨min, hmin, h⟩ := bind_eq_ok h
  obtain ⟨max, hmax, -⟩ := bind_eq_ok h
  have hbest : ∀ {better : T → T → Bool} {x : T}, s.best better i = .ok x → s.samples[i] ≠ [] := by
    intro better x hx hnil
    obtain ⟨first, hfirst, -⟩ := bind_eq_ok hx
    rw [get, elem_ok hi, ok_bind, hnil] at hfirst
    cases hfirst
  rcases hflag with hflag | hflag
  · obtain ⟨y, hy⟩ := ifSet_eq_ok hmin hflag
    obtain ⟨v, hv, -⟩ := bind_eq_ok hy
    exact hbest hv
  · obtain ⟨y, hy⟩ := ifSet_eq_ok hmax hflag
    obtain ⟨v, hv, -⟩ := bind_eq_ok hy
    exact hbest hv

/-- **`Save` writes a file exactly if what it relies on is there**, as long as all counts are
values of `int`. -/
theorem save_ok_iff {flags : StorageFlags} (hfits : Fits s.samples) :
    (∃ lines, s.save flags = .ok lines) ↔ Saveable flags s := by
  have hsave : s.save flags = (do
      cassert (∀ startColumn ∈ flags.startColumn,
        (startColumn.length : ℤ) = s.samples.length)
      loop 0 s.samples.length
        (fun lines i => s.line flags i >>= fun line => .ok (lines ++ [line])) []) := by
    rw [save, numSamples_ok hfits, ok_bind]
  rw [hsave]
  refine ⟨?_, fun hsaveable => ?_⟩
  · rintro ⟨lines, h⟩
    obtain ⟨_, hcheck, hloop⟩ := bind_eq_ok h
    refine ⟨fun startColumn hcolumn => ?_, fun hflag sample hsample => ?_⟩
    · by_contra hne
      rw [cassert_failed fun hall => hne (by exact_mod_cast hall startColumn hcolumn)] at hcheck
      cases hcheck
    · obtain ⟨i, hi, rfl⟩ := List.getElem_of_mem hsample
      obtain ⟨line, hline⟩ := loop_calls hloop i (Nat.zero_le i) hi
      exact line_eq_ok hi hline hflag
  · have hcheck : ∀ startColumn ∈ flags.startColumn,
        (startColumn.length : ℤ) = s.samples.length := fun startColumn hcolumn => by
      rw [hsaveable.1 startColumn hcolumn]
    choose! lineOf hline using fun i (hi : i < s.samples.length) => line_ok hfits hsaveable hi
    have hlines : ∀ i (hi : i < ((List.range s.samples.length).map lineOf).length),
        s.line flags i = .ok ((List.range s.samples.length).map lineOf)[i] := by
      intro i hi
      rw [List.length_map, List.length_range] at hi
      rw [List.getElem_map, List.getElem_range]
      exact hline i hi
    have hloop := loop_eq_foldl (fun lines line => lines ++ [line]) hlines 0 []
    rw [List.length_map, List.length_range] at hloop
    rw [cassert_ok hcheck, ok_bind, hloop]
    exact ⟨_, rfl⟩

end Stat

end WallMon
