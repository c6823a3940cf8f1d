import WallMon.Stat
import WallMon.Table
import Mathlib.Algebra.GroupWithZero.Nat
import Mathlib.Algebra.Order.BigOperators.Group.List
import Mathlib.Algebra.BigOperators.Group.List.Basic
import Mathlib.Algebra.BigOperators.Ring.Finset
import Mathlib.Data.Nat.Cast.Field
import Mathlib.Tactic.FieldSimp
import Mathlib.Tactic.Linarith
import Mathlib.Tactic.Positivity

/-!
# Statistics of unsigned values

What `Stat<T>` computes is meant to be the arithmetic of the values: averages are averages, and
the smallest and the largest are what they say. With `T = uint32_t` sums wrap, and `AvgAvg` adds
averages up in a variable of type `T`, which drops their fractions. So the arithmetic is right
exactly if all values together are below `2^32`, and the average of each sample is a whole number.
-/

namespace WallMon

namespace Stat

variable {T : Type}

/-! ## The smallest and the largest -/

/-- What is left is one of the values, and no value is better. -/
theorem bestIn_spec {α : Type} {better : α → α → Bool} (hbetter : StrictWeak better)
    {values : List α} (hne : values ≠ []) :
    bestIn better values hne ∈ values ∧
      ∀ x ∈ values, better x (bestIn better values hne) = false := by
  have hfold : ∀ (rest : List α) (kept : α),
      rest.foldl (keepBetter better) kept ∈ kept :: rest ∧
        ∀ x ∈ kept :: rest, better x (rest.foldl (keepBetter better) kept) = false := by
    intro rest
    induction rest with
    | nil =>
      intro kept
      refine ⟨List.mem_singleton_self _, fun x hx => ?_⟩
      rw [List.mem_singleton.mp hx]
      exact hbetter.irrefl kept
    | cons y rest ih =>
      intro kept
      obtain ⟨hmem, hbest⟩ := ih (keepBetter better kept y)
      have hchoice : keepBetter better kept y ∈ [kept, y] ∧
          better kept (keepBetter better kept y) = false ∧
          better y (keepBetter better kept y) = false := by
        rw [keepBetter]
        split
        · next h =>
          refine ⟨by simp, ?_, hbetter.irrefl y⟩
          by_contra hlt
          exact absurd (hbetter.trans h (Bool.not_eq_false _ ▸ hlt)) (by simp [hbetter.irrefl])
        · next h => exact ⟨by simp, hbetter.irrefl kept, Bool.eq_false_iff.mpr h⟩
      refine ⟨?_, fun x hx => ?_⟩
      · rw [List.foldl_cons]
        rcases List.mem_cons.mp hmem with heq | hrest
        · rw [heq]
          rcases List.mem_pair.mp hchoice.1 with h | h <;> simp [h]
        · exact List.mem_cons_of_mem _ (List.mem_cons_of_mem _ hrest)
      · rw [List.foldl_cons]
        have hkept := hbest _ List.mem_cons_self
        rcases List.mem_cons.mp hx with rfl | hx
        · exact hbetter.incomp hkept hchoice.2.1
        · rcases List.mem_cons.mp hx with rfl | hx
          · exact hbetter.incomp hkept hchoice.2.2
          · exact hbest x (List.mem_cons_of_mem _ hx)
  have hspec := hfold values.tail (values.head hne)
  rwa [List.cons_head_tail] at hspec

/-! ## The arithmetic that is meant -/

section Law

variable [StatValue T]

/-- Values as numbers -/
def values (sample : List T) : List ℚ := sample.map StatValue.toDouble

/-- The arithmetic mean -/
def mean (xs : List ℚ) : ℚ := xs.sum / xs.length

/-- **The arithmetic of a `Stat`**: its functions return what they are named after. -/
structure ArithmeticLaw (s : Stat T) : Prop where
  /-- `Avg(i)` is the mean of sample `i`, -/
  avg : ∀ i (h : i < s.samples.length), s.avg i = .ok (mean (values s.samples[i]))
  /-- which lies between `MinVal(i)` and `MaxVal(i)`; -/
  avg_between : ∀ i (h : i < s.samples.length), ∃ low high,
    s.minValOf i = .ok low ∧ s.maxValOf i = .ok high ∧
      StatValue.toDouble low ≤ mean (values s.samples[i]) ∧
      mean (values s.samples[i]) ≤ StatValue.toDouble high
  /-- `AvgAvg` is the mean of the means, -/
  avgAvg : s.avgAvg = .ok (mean (s.samples.map fun sample => mean (values sample)))
  /-- and `SumAvg` that of the sums; -/
  sumAvg : s.sumAvg = .ok (mean (s.samples.map fun sample => (values sample).sum))
  /-- `MinVal` is the smallest value of all, -/
  minVal : ∃ low, s.minVal = .ok low ∧ low ∈ s.samples.flatten ∧
    ∀ value ∈ s.samples.flatten, StatValue.toDouble low ≤ StatValue.toDouble value
  /-- and `MaxVal` the largest; -/
  maxVal : ∃ high, s.maxVal = .ok high ∧ high ∈ s.samples.flatten ∧
    ∀ value ∈ s.samples.flatten, StatValue.toDouble value ≤ StatValue.toDouble high
  /-- `SumAvg` lies between `SumMin` and `SumMax`. -/
  sumAvg_between : ∃ low high average,
    s.sumMin = .ok low ∧ s.sumMax = .ok high ∧ s.sumAvg = .ok average ∧
      StatValue.toDouble low ≤ average ∧ average ≤ StatValue.toDouble high

end Law

/-- The sums are right as `uint32_t`, and no average has a fraction. -/
structure SumsAreExact (samples : List (List UInt32)) : Prop where
  /-- all counts are values of `int` -/
  fits : Fits samples
  /-- all values together are a `uint32_t` -/
  sum_lt : (samples.map fun sample => (sample.map UInt32.toNat).sum).sum < 4294967296
  /-- the size of a sample divides its sum -/
  whole : ∀ sample ∈ samples, sample.length ∣ (sample.map UInt32.toNat).sum

/-! ## Unsigned values -/

@[simp] theorem toDouble_unsigned (v : UInt32) : StatValue.toDouble v = (v.toNat : ℚ) := rfl

/-- The whole part, if it is a `uint32_t` -/
theorem ofDouble_unsigned (x : ℚ) : (StatValue.ofDouble x : Except Fault UInt32) =
    if -1 < x ∧ x < 4294967296 then .ok (.ofNat ⌊x⌋.toNat) else .error .overflow := rfl

theorem ofDouble_toDouble (v : UInt32) : StatValue.ofDouble (StatValue.toDouble v) = .ok v := by
  have hv : (v.toNat : ℚ) < 4294967296 := by exact_mod_cast v.toNat_lt
  have hv0 : (-1 : ℚ) < v.toNat := lt_of_lt_of_le (by norm_num) v.toNat.cast_nonneg
  have hfloor : ⌊(v.toNat : ℚ)⌋.toNat = v.toNat := by rw [Int.floor_natCast, Int.toNat_natCast]
  rw [toDouble_unsigned, ofDouble_unsigned, if_pos ⟨hv0, hv⟩, hfloor, UInt32.ofNat_toNat]

/-- Sums wrap. -/
theorem toNat_total (sample : List UInt32) :
    (total sample).toNat = (sample.map UInt32.toNat).sum % 4294967296 := by
  have hfold : ∀ sum : UInt32, (sample.foldl StatValue.add sum).toNat =
      (sum.toNat + (sample.map UInt32.toNat).sum) % 4294967296 := by
    induction sample with
    | nil =>
      intro sum
      rw [List.foldl_nil, List.map_nil, List.sum_nil, Nat.add_zero,
        Nat.mod_eq_of_lt sum.toNat_lt]
    | cons v sample ih =>
      intro sum
      have hadd : (StatValue.add sum v).toNat = (sum.toNat + v.toNat) % 4294967296 :=
        UInt32.toNat_add sum v
      rw [List.foldl_cons, ih, hadd, List.map_cons, List.sum_cons, Nat.mod_add_mod, Nat.add_assoc]
  have hzero := hfold 0
  rwa [UInt32.toNat_zero, Nat.zero_add] at hzero

theorem sum_values (sample : List UInt32) :
    (values sample).sum = ((sample.map UInt32.toNat).sum : ℕ) := by
  rw [Nat.cast_list_sum, List.map_map]
  rfl

/-- Converted averages add up to no more than the averages, and to less if one of them has a
fraction. -/
theorem addConverted_le {xs : List ℚ} (hpos : ∀ x ∈ xs, 0 ≤ x) {avg : UInt32}
    (h : addConverted xs = .ok avg) :
    (avg.toNat : ℚ) ≤ xs.sum ∧ ((avg.toNat : ℚ) = xs.sum → ∀ x ∈ xs, ∃ k : ℕ, x = k) := by
  have hfold : ∀ start : UInt32,
      xs.foldlM (fun avg x => StatValue.ofDouble (StatValue.toDouble avg + x)) start = .ok avg →
      (avg.toNat : ℚ) ≤ start.toNat + xs.sum ∧
        ((avg.toNat : ℚ) = start.toNat + xs.sum → ∀ x ∈ xs, ∃ k : ℕ, x = k) := by
    clear h
    induction xs with
    | nil =>
      intro start h
      obtain rfl := Except.ok.inj h
      simp
    | cons x xs ih =>
      intro start h
      obtain ⟨next, hnext, hrest⟩ := bind_eq_ok (by rwa [List.foldlM_cons] at h)
      have hx := hpos x List.mem_cons_self
      have hsum : (0 : ℚ) ≤ start.toNat + x := add_nonneg (Nat.cast_nonneg _) hx
      have hfloor : (next.toNat : ℚ) = ⌊(start.toNat + x : ℚ)⌋ := by
        rw [toDouble_unsigned, ofDouble_unsigned] at hnext
        split at hnext
        · next hrange =>
          obtain rfl := Except.ok.inj hnext
          have hf0 : 0 ≤ ⌊(start.toNat : ℚ) + x⌋ := Int.floor_nonneg.mpr hsum
          have hf : ⌊(start.toNat : ℚ) + x⌋ < 4294967296 := by
            rw [Int.floor_lt]
            exact_mod_cast hrange.2
          rw [UInt32.toNat_ofNat', Nat.mod_eq_of_lt (by omega), ← Int.cast_natCast,
            Int.toNat_of_nonneg hf0]
        · cases hnext
      have hle : (next.toNat : ℚ) ≤ start.toNat + x := hfloor ▸ Int.floor_le _
      obtain ⟨hbound, hwhole⟩ := ih (fun y hy => hpos y (List.mem_cons_of_mem _ hy)) next hrest
      rw [List.sum_cons]
      refine ⟨by linarith, fun heq y hy => ?_⟩
      have hstep : (next.toNat : ℚ) = start.toNat + x := le_antisymm hle (by linarith)
      rcases List.mem_cons.mp hy with rfl | hy
      · refine ⟨next.toNat - start.toNat, ?_⟩
        have hge : start.toNat ≤ next.toNat := by
          have : (start.toNat : ℚ) ≤ next.toNat := by linarith
          exact_mod_cast this
        push_cast [hge]
        linarith
      · exact hwhole (by linarith) y hy
  have hspec := hfold 0 h
  rwa [UInt32.toNat_zero, Nat.cast_zero, zero_add] at hspec

/-- Whole averages add up as they are, as long as their sum is a `uint32_t`. -/
theorem addConverted_of_whole {xs : List ℚ} (hwhole : ∀ x ∈ xs, ∃ k : ℕ, x = k)
    (hsum : xs.sum < 4294967296) :
    ∃ avg : UInt32, addConverted xs = .ok avg ∧ (avg.toNat : ℚ) = xs.sum := by
  have hfold : ∀ start : UInt32, (start.toNat : ℚ) + xs.sum < 4294967296 →
      ∃ avg : UInt32,
        xs.foldlM (fun avg x => StatValue.ofDouble (StatValue.toDouble avg + x)) start = .ok avg ∧
        (avg.toNat : ℚ) = start.toNat + xs.sum := by
    clear hsum
    induction xs with
    | nil => exact fun start _ => ⟨start, rfl, by simp⟩
    | cons x xs ih =>
      intro start hsum
      obtain ⟨k, rfl⟩ := hwhole x List.mem_cons_self
      have hrest : ∀ x ∈ xs, ∃ k : ℕ, x = k := fun x hx => hwhole x (List.mem_cons_of_mem _ hx)
      have hpos : 0 ≤ xs.sum := by
        refine List.sum_nonneg fun x hx => ?_
        obtain ⟨k, rfl⟩ := hrest x hx
        exact k.cast_nonneg
      rw [List.sum_cons] at hsum ⊢
      have hlt : start.toNat + k < 4294967296 := by
        have : (start.toNat : ℚ) + k < 4294967296 := by linarith
        exact_mod_cast this
      have hnext : StatValue.ofDouble (StatValue.toDouble start + (k : ℚ)) =
          .ok (UInt32.ofNat (start.toNat + k)) := by
        have hcast : StatValue.toDouble start + (k : ℚ) =
            ((UInt32.ofNat (start.toNat + k)).toNat : ℚ) := by
          rw [UInt32.toNat_ofNat', Nat.mod_eq_of_lt hlt, toDouble_unsigned]
          push_cast
          rfl
        rw [hcast]
        exact ofDouble_toDouble _
      have htoNat : ((UInt32.ofNat (start.toNat + k)).toNat : ℚ) = start.toNat + k := by
        rw [UInt32.toNat_ofNat', Nat.mod_eq_of_lt hlt]
        push_cast
        rfl
      obtain ⟨avg, havg, heq⟩ := ih hrest (UInt32.ofNat (start.toNat + k)) (by linarith)
      refine ⟨avg, ?_, by linarith⟩
      rw [List.foldlM_cons, hnext, ok_bind, havg]
  have hspec := hfold 0 (by rwa [UInt32.toNat_zero, Nat.cast_zero, zero_add])
  rwa [UInt32.toNat_zero, Nat.cast_zero, zero_add] at hspec

theorem lt_strict : StrictWeak fun a b : UInt32 => StatValue.lt a b :=
  strictWeak_of_value UInt32.toNat fun a b => by
    change decide (a < b) = true ↔ _
    rw [decide_eq_true_iff, UInt32.lt_iff_toNat_lt]

theorem double_lt_strict : StrictWeak fun a b : ℚ => decide (a < b) :=
  strictWeak_of_value id fun _ _ => decide_eq_true_iff

/-- The mean lies between the bounds of numbers. -/
theorem mean_between {xs : List ℚ} (hne : xs ≠ []) {low high : ℚ}
    (h : ∀ x ∈ xs, low ≤ x ∧ x ≤ high) : low ≤ mean xs ∧ mean xs ≤ high := by
  have hpos : (0 : ℚ) < xs.length := Nat.cast_pos.mpr (List.length_pos_iff.mpr hne)
  have hlow := List.card_nsmul_le_sum xs low fun x hx => (h x hx).1
  have hhigh := List.sum_le_card_nsmul xs high fun x hx => (h x hx).2
  rw [nsmul_eq_mul] at hlow hhigh
  rw [mean, le_div_iff₀ hpos, div_le_iff₀ hpos, mul_comm low, mul_comm high]
  exact ⟨hlow, hhigh⟩

section Unsigned

variable {s : Stat UInt32}

/-- What is left of the values of a sample. -/
theorem best_spec {better : UInt32 → UInt32 → Bool} (hbetter : StrictWeak better)
    (hfits : Fits s.samples) {i : ℕ} (hi : i < s.samples.length) (hne : s.samples[i] ≠ []) :
    ∃ value ∈ s.samples[i], s.best better i = .ok value ∧
      ∀ v ∈ s.samples[i], better v value = false :=
  have hspec := bestIn_spec hbetter hne
  ⟨_, hspec.1, best_ok better hfits hi hne, hspec.2⟩

/-- What is left of the values that a function has for the samples. -/
theorem bestOf_spec {better : ℚ → ℚ → Bool} (hbetter : StrictWeak better) (hfits : Fits s.samples)
    (hne : s.samples ≠ []) {call : ℕ → Except Fault UInt32} {xs : List UInt32}
    (hlength : xs.length = s.samples.length) (hcall : ∀ i (h : i < xs.length), call i = .ok xs[i]) :
    ∃ value ∈ xs, s.bestOf better call = .ok value ∧
      ∀ v ∈ xs, better (StatValue.toDouble v) (StatValue.toDouble value) = false := by
  have hxs : xs.map StatValue.toDouble ≠ [] := by
    intro hnil
    rw [List.map_eq_nil_iff.mp hnil, List.length_nil] at hlength
    exact hne (List.length_eq_zero_iff.mp hlength.symm)
  obtain ⟨hmem, hbest⟩ := bestIn_spec hbetter hxs
  obtain ⟨value, hvalue, heq⟩ := List.mem_map.mp hmem
  refine ⟨value, hvalue, ?_, fun v hv => ?_⟩
  · rw [bestOf_eq better hfits hlength hcall hxs, ← heq, ofDouble_toDouble]
  · rw [heq]
    exact hbest _ (List.mem_map_of_mem hv)

/-- `MinVal()` and `MaxVal()`: what is left of all values. -/
theorem bestOf_best {better : UInt32 → UInt32 → Bool} {better' : ℚ → ℚ → Bool}
    (hbetter : StrictWeak better) (hbetter' : StrictWeak better')
    (hsame : ∀ a b, better a b = better' (StatValue.toDouble a) (StatValue.toDouble b))
    (hfits : Fits s.samples) (hne : s.samples ≠ [])
    (hnonempty : ∀ sample ∈ s.samples, sample ≠ []) :
    ∃ value ∈ s.samples.flatten, s.bestOf better' (s.best better) = .ok value ∧
      ∀ v ∈ s.samples.flatten, better v value = false := by
  have hcall : ∀ i (h : i < (s.samples.pmap (bestIn better) hnonempty).length),
      s.best better i = .ok (s.samples.pmap (bestIn better) hnonempty)[i] := by
    intro i hi
    rw [List.length_pmap] at hi
    rw [List.getElem_pmap]
    exact best_ok better hfits hi (hnonempty _ (List.getElem_mem hi))
  obtain ⟨value, hvalue, heq, hbest⟩ := bestOf_spec hbetter' hfits hne List.length_pmap hcall
  obtain ⟨sample, hsample, rfl⟩ := List.mem_pmap.mp hvalue
  refine ⟨_, List.mem_flatten.mpr ⟨sample, hsample, (bestIn_spec hbetter _).1⟩, heq, fun v hv => ?_⟩
  obtain ⟨other, hother, hv⟩ := List.mem_flatten.mp hv
  have hin := (bestIn_spec hbetter (hnonempty other hother)).2 v hv
  refine hbetter.incomp ?_ hin
  rw [hsame]
  exact hbest _ (List.mem_pmap.mpr ⟨other, hother, rfl⟩)

/-! ## When the sums are exact -/

theorem SumsAreExact.sample (h : SumsAreExact s.samples) {sample : List UInt32}
    (hsample : sample ∈ s.samples) : (sample.map UInt32.toNat).sum < 4294967296 :=
  (List.le_sum_of_mem (List.mem_map_of_mem hsample)).trans_lt h.sum_lt

theorem SumsAreExact.toNat_total (h : SumsAreExact s.samples) {sample : List UInt32}
    (hsample : sample ∈ s.samples) : (total sample).toNat = (sample.map UInt32.toNat).sum := by
  rw [Stat.toNat_total, Nat.mod_eq_of_lt (h.sample hsample)]

/-- The mean of a sample is a whole number. -/
theorem SumsAreExact.mean_whole (h : SumsAreExact s.samples) {sample : List UInt32}
    (hsample : sample ∈ s.samples) (hne : sample ≠ []) :
    mean (values sample) = ((sample.map UInt32.toNat).sum / sample.length : ℕ) := by
  have hlength : (sample.length : ℚ) ≠ 0 :=
    Nat.cast_ne_zero.mpr (List.length_pos_iff.mpr hne).ne'
  rw [Nat.cast_div (h.whole sample hsample) hlength, mean, sum_values, values, List.length_map]

theorem avg_exact (h : SumsAreExact s.samples) {i : ℕ} (hi : i < s.samples.length) :
    s.avg i = .ok (mean (values s.samples[i])) := by
  rw [avg_ok h.fits hi, toDouble_unsigned, h.toNat_total (List.getElem_mem hi), mean, sum_values,
    values, List.length_map]

theorem sum_exact (h : SumsAreExact s.samples) {sample : List UInt32}
    (hsample : sample ∈ s.samples) :
    StatValue.toDouble (total sample) = (values sample).sum := by
  rw [toDouble_unsigned, h.toNat_total hsample, sum_values]

theorem sum_sums (samples : List (List UInt32)) :
    (samples.map fun sample => (values sample).sum).sum =
      ((samples.map fun sample => (sample.map UInt32.toNat).sum).sum : ℕ) := by
  rw [Nat.cast_list_sum, List.map_map]
  exact congrArg List.sum (List.map_congr_left fun sample _ => sum_values sample)

/-- All values together, as the source adds them up. -/
theorem toNat_totals (samples : List (List UInt32)) :
    (total (samples.map total)).toNat =
      (samples.map fun sample => (sample.map UInt32.toNat).sum).sum % 4294967296 := by
  have hmods : (samples.map total).map UInt32.toNat =
      (samples.map fun sample => (sample.map UInt32.toNat).sum).map (· % 4294967296) := by
    rw [List.map_map, List.map_map]
    exact List.map_congr_left fun sample _ => Stat.toNat_total sample
  rw [Stat.toNat_total, hmods, ← List.sum_nat_mod]

/-- The smallest and the largest value of a sample are those at both ends of its mean. -/
theorem mean_between_best (hfits : Fits s.samples) {i : ℕ} (hi : i < s.samples.length)
    (hne : s.samples[i] ≠ []) :
    ∃ low high, s.minValOf i = .ok low ∧ s.maxValOf i = .ok high ∧
      StatValue.toDouble low ≤ mean (values s.samples[i]) ∧
      mean (values s.samples[i]) ≤ StatValue.toDouble high := by
  obtain ⟨low, -, hlow, hleast⟩ := best_spec lt_strict hfits hi hne
  obtain ⟨high, -, hhigh, hmost⟩ := best_spec lt_strict.flip hfits hi hne
  refine ⟨low, high, hlow, hhigh, mean_between (by simpa [values] using hne) fun x hx => ?_⟩
  obtain ⟨v, hv, rfl⟩ := List.mem_map.mp hx
  have hl : ¬v < low := of_decide_eq_false (hleast v hv)
  have hh : ¬high < v := of_decide_eq_false (hmost v hv)
  rw [UInt32.lt_iff_toNat_lt, not_lt] at hl hh
  exact ⟨Nat.cast_le.mpr hl, Nat.cast_le.mpr hh⟩

theorem sumAvg_exact (h : SumsAreExact s.samples) :
    s.sumAvg = .ok (mean (s.samples.map fun sample => (values sample).sum)) := by
  rw [sumAvg_ok h.fits, toDouble_unsigned, toNat_totals, Nat.mod_eq_of_lt h.sum_lt, mean,
    sum_sums, List.length_map]

/-- Means of whole values are no larger than their sums, so they add up to a `uint32_t`. -/
theorem SumsAreExact.sum_means_lt (h : SumsAreExact s.samples)
    (hnonempty : ∀ sample ∈ s.samples, sample ≠ []) :
    (s.samples.map fun sample => mean (values sample)).sum < 4294967296 := by
  have hle : (s.samples.map fun sample => mean (values sample)).sum ≤
      (s.samples.map fun sample => (values sample).sum).sum := by
    refine List.sum_le_sum fun sample hsample => ?_
    rw [h.mean_whole hsample (hnonempty sample hsample), sum_values]
    exact Nat.cast_le.mpr (Nat.div_le_self _ _)
  rw [sum_sums] at hle
  exact hle.trans_lt (by exact_mod_cast h.sum_lt)

theorem avgAvg_exact (h : SumsAreExact s.samples)
    (hnonempty : ∀ sample ∈ s.samples, sample ≠ []) :
    s.avgAvg = .ok (mean (s.samples.map fun sample => mean (values sample))) := by
  have hwhole : ∀ x ∈ s.samples.map fun sample => mean (values sample), ∃ k : ℕ, x = k := by
    intro x hx
    obtain ⟨sample, hsample, rfl⟩ := List.mem_map.mp hx
    exact ⟨_, h.mean_whole hsample (hnonempty sample hsample)⟩
  obtain ⟨avg, havg, heq⟩ := addConverted_of_whole hwhole (h.sum_means_lt hnonempty)
  have hcall := calls_map (l := s.samples) (f := fun sample => mean (values sample))
    fun i hi => avg_exact h hi
  rw [avgAvg_eq h.fits (List.length_map _) hcall, havg, ok_bind, toDouble_unsigned, heq, mean,
    List.length_map]

/-- The smallest and the largest sum are those at both ends of their mean. -/
theorem sumAvg_between_exact (hne : s.samples ≠ []) (h : SumsAreExact s.samples) :
    ∃ low high average, s.sumMin = .ok low ∧ s.sumMax = .ok high ∧ s.sumAvg = .ok average ∧
      StatValue.toDouble low ≤ average ∧ average ≤ StatValue.toDouble high := by
  have hcall := calls_map fun i (hi : i < s.samples.length) => sum_ok h.fits hi
  obtain ⟨low, -, hlow, hleast⟩ :=
    bestOf_spec double_lt_strict h.fits hne (List.length_map _) hcall
  obtain ⟨high, -, hhigh, hmost⟩ :=
    bestOf_spec double_lt_strict.flip h.fits hne (List.length_map _) hcall
  refine ⟨low, high, _, hlow, hhigh, sumAvg_exact h, mean_between (by simpa using hne)
    fun x hx => ?_⟩
  obtain ⟨sample, hsample, rfl⟩ := List.mem_map.mp hx
  have htotal : total sample ∈ s.samples.map total := List.mem_map_of_mem hsample
  have hl := hleast _ htotal
  have hh := hmost _ htotal
  rw [decide_eq_false_iff_not, not_lt, sum_exact h hsample] at hl hh
  exact ⟨hl, hh⟩

/-- **The arithmetic is right** if the sums are exact. -/
theorem arithmeticLaw_of_exact (hne : s.samples ≠ [])
    (hnonempty : ∀ sample ∈ s.samples, sample ≠ []) (h : SumsAreExact s.samples) :
    ArithmeticLaw s := by
  refine ⟨fun i hi => avg_exact h hi, fun i hi => ?_, avgAvg_exact h hnonempty, sumAvg_exact h,
    ?_, ?_, sumAvg_between_exact hne h⟩
  · exact mean_between_best h.fits hi (hnonempty _ (List.getElem_mem hi))
  · obtain ⟨low, hmem, heq, hleast⟩ := bestOf_best lt_strict double_lt_strict
      (fun a b => by simp [StatValue.lt, UInt32.lt_iff_toNat_lt]) h.fits hne hnonempty
    refine ⟨low, heq, hmem, fun value hvalue => Nat.cast_le.mpr ?_⟩
    have hlow : ¬value < low := of_decide_eq_false (hleast value hvalue)
    rwa [UInt32.lt_iff_toNat_lt, not_lt] at hlow
  · obtain ⟨high, hmem, heq, hmost⟩ := bestOf_best lt_strict.flip double_lt_strict.flip
      (fun a b => by simp [StatValue.lt, UInt32.lt_iff_toNat_lt]) h.fits hne hnonempty
    refine ⟨high, heq, hmem, fun value hvalue => Nat.cast_le.mpr ?_⟩
    have hhigh : ¬high < value := of_decide_eq_false (hmost value hvalue)
    rwa [UInt32.lt_iff_toNat_lt, not_lt] at hhigh

/-- All counts are asked for where the arithmetic is. -/
theorem ArithmeticLaw.fits (h : ArithmeticLaw s) : Fits s.samples := by
  have hchecked : ∀ {z w : ℤ}, CInt.checked z = .ok w → CInt.InRange z := by
    intro z w hz
    by_contra hrange
    rw [CInt.checked, if_neg hrange] at hz
    cases hz
  refine ⟨?_, fun sample hsample => ?_⟩
  · obtain ⟨_, htotal, -⟩ := bind_eq_ok h.sumAvg
    obtain ⟨_, hn, -⟩ := bind_eq_ok htotal
    exact hchecked hn
  · obtain ⟨i, hi, rfl⟩ := List.getElem_of_mem hsample
    obtain ⟨_, hsum, -⟩ := bind_eq_ok (h.avg i hi)
    obtain ⟨_, hn, -⟩ := bind_eq_ok hsum
    rw [numSamplesOf, elem_ok hi, ok_bind] at hn
    exact hchecked hn

/-- Where the averages add up as they are, each of them is a whole number. -/
theorem ArithmeticLaw.mean_whole (hne : s.samples ≠ []) (h : ArithmeticLaw s)
    {sample : List UInt32} (hsample : sample ∈ s.samples) :
    ∃ k : ℕ, mean (values sample) = k := by
  have hpos : (0 : ℚ) < s.samples.length := Nat.cast_pos.mpr (List.length_pos_iff.mpr hne)
  have hcall := calls_map (l := s.samples) (f := fun sample => mean (values sample)) h.avg
  have hlaw := h.avgAvg
  rw [avgAvg_eq h.fits (List.length_map _) hcall] at hlaw
  obtain ⟨avg, havg, hmean⟩ := bind_eq_ok hlaw
  have hmeans : ∀ x ∈ s.samples.map fun sample => mean (values sample), 0 ≤ x := by
    intro x hx
    obtain ⟨sample, -, rfl⟩ := List.mem_map.mp hx
    rw [mean, sum_values]
    positivity
  have heq := Except.ok.inj hmean
  rw [mean, List.length_map, div_left_inj' hpos.ne', toDouble_unsigned] at heq
  exact (addConverted_le hmeans havg).2 heq _ (List.mem_map_of_mem hsample)

/-- **Where the arithmetic is right** the sums are exact. -/
theorem ArithmeticLaw.exact (hne : s.samples ≠ []) (hnonempty : ∀ sample ∈ s.samples, sample ≠ [])
    (h : ArithmeticLaw s) : SumsAreExact s.samples := by
  have hpos : (0 : ℚ) < s.samples.length := Nat.cast_pos.mpr (List.length_pos_iff.mpr hne)
  refine ⟨h.fits, ?_, fun sample hsample => ?_⟩
  · have heq := Except.ok.inj ((sumAvg_ok h.fits).symm.trans h.sumAvg)
    rw [mean, List.length_map, div_left_inj' hpos.ne', toDouble_unsigned, toNat_totals, sum_sums,
      Nat.cast_inj] at heq
    rw [← heq]
    exact Nat.mod_lt _ (by decide)
  · obtain ⟨k, hk⟩ := h.mean_whole hne hsample
    have hlength : (0 : ℚ) < sample.length :=
      Nat.cast_pos.mpr (List.length_pos_iff.mpr (hnonempty sample hsample))
    rw [mean, sum_values, values, List.length_map, div_eq_iff hlength.ne'] at hk
    refine ⟨k, ?_⟩
    rw [Nat.mul_comm]
    exact_mod_cast hk

end Unsigned

/-- **When statistics of unsigned values are right**: exactly if all values together are a
`uint32_t`, the size of each sample divides its sum, and all counts are values of `int`. -/
theorem build_arithmeticLaw_iff {samples : List (List UInt32)} (hne : samples ≠ [])
    (hnonempty : ∀ sample ∈ samples, sample ≠ []) :
    (∃ s, build samples = .ok s ∧ ArithmeticLaw s) ↔ SumsAreExact samples := by
  refine ⟨?_, fun hexact => ?_⟩
  · rintro ⟨s, hbuild, hlaw⟩
    obtain rfl := build_eq_ok hbuild
    exact hlaw.exact hne hnonempty
  · exact ⟨{ samples }, build_ok hexact.fits.1, arithmeticLaw_of_exact hne hnonempty hexact⟩

/-- The averages of 1 and 3, and of 4, are whole numbers. -/
theorem build_whole : ∃ s, build [[(1 : UInt32), 3], [4]] = .ok s ∧ ArithmeticLaw s :=
  (build_arithmeticLaw_iff (by decide) (by decide)).mpr
    ⟨⟨by decide, by decide⟩, by decide, by decide⟩

/-- The average of 1 and 2 loses its half in `AvgAvg`, and the sum of the largest value and 1
is 0. -/
theorem build_wrong :
    (∃ s, build [[(1 : UInt32), 2]] = .ok s ∧ s.avg 0 = .ok (3 / 2) ∧ s.avgAvg = .ok 1 ∧
      ¬ArithmeticLaw s) ∧
    ∃ s, build [[(4294967295 : UInt32)], [1]] = .ok s ∧ s.sumAvg = .ok 0 ∧ ¬ArithmeticLaw s := by
  refine ⟨⟨_, build_ok (by decide), by decide +kernel, by decide +kernel, fun h => ?_⟩,
    ⟨_, build_ok (by decide), by decide +kernel, fun h => ?_⟩⟩
  · exact absurd h.avgAvg (by decide +kernel)
  · exact absurd h.sumAvg (by decide +kernel)

end Stat

end WallMon
