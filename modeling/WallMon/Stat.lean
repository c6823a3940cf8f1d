import WallMon.CheckedInt
import Mathlib.Algebra.Order.Field.Rat
import Mathlib.Data.List.Basic
import Mathlib.Data.Rat.Floor
import Mathlib.Tactic.Common

/-!
# Statistics: `Stat<T>`

A `Stat` holds samples, which are lists of values of one type. It adds up and compares values
as that type does, and divides as `double`, which is a rational number here. `Save` writes a
line for each sample to a file, and takes from outside what stands at the start of the lines.

The number of samples and of values of a sample is an `int`; for a size that is not one the
conversion depends on the compiler, and is a `Fault` here.
-/

namespace WallMon

/-- What `Stat` does with values of its type. -/
class StatValue (T : Type) where
  /-- `0` -/
  zero : T
  /-- `+` -/
  add : T → T → T
  /-- `<` -/
  lt : T → T → Bool
  /-- conversion to `double` -/
  toDouble : T → ℚ
  /-- conversion from `double`; undefined if the whole part is not a value -/
  ofDouble : ℚ → Except Fault T

/-- `uint32_t`: sums wrap, and the whole part of a `double` is taken. -/
instance : StatValue UInt32 where
  zero := 0
  add a b := a + b
  lt a b := a < b
  toDouble a := a.toNat
  ofDouble x := if -1 < x ∧ x < 4294967296 then .ok (.ofNat ⌊x⌋.toNat) else .error .overflow

/-- `double` -/
instance : StatValue ℚ where
  zero := 0
  add a b := a + b
  lt a b := a < b
  toDouble a := a
  ofDouble a := .ok a

/-! ## Loops over vectors -/

/-- `v[i]` -/
def elem {α : Type} (v : List α) (i : ℕ) : Except Fault α :=
  match v[i]? with
  | some x => .ok x
  | none => .error .outOfBounds

theorem elem_ok {α : Type} {v : List α} {i : ℕ} (h : i < v.length) : elem v i = .ok v[i] := by
  rw [elem, List.getElem?_eq_getElem h]

/-- `for (int i = first; i < n; i++)`, with what the body makes of a value -/
def loop {β : Type} (first : ℕ) (n : ℤ) (body : β → ℕ → Except Fault β) (b : β) :
    Except Fault β :=
  (List.range' first (n.toNat - first)).foldlM body b

/-- A loop whose body asks for one thing after another is a loop over these. -/
theorem loop_eq_foldlM {α β : Type} (op : β → α → Except Fault β) {call : ℕ → Except Fault α}
    {l : List α} (hcall : ∀ i (h : i < l.length), call i = .ok l[i]) (first : ℕ) (b : β) :
    loop first l.length (fun b i => call i >>= op b) b = (l.drop first).foldlM op b := by
  rw [loop, Int.toNat_natCast]
  induction hn : l.length - first generalizing first b with
  | zero =>
    rw [List.drop_of_length_le (by omega), List.range'_zero, List.foldlM_nil, List.foldlM_nil]
  | succ n ih =>
    have hfirst : first < l.length := by omega
    rw [List.range'_succ, List.foldlM_cons, hcall first hfirst, ok_bind,
      List.drop_eq_getElem_cons hfirst, List.foldlM_cons]
    cases op b l[first] with
    | error e => rfl
    | ok b' => exact ih (first + 1) b' (by omega)

/-- And a body that cannot fail apart from that makes it a fold. -/
theorem loop_eq_foldl {α β : Type} (op : β → α → β) {call : ℕ → Except Fault α} {l : List α}
    (hcall : ∀ i (h : i < l.length), call i = .ok l[i]) (first : ℕ) (b : β) :
    loop first l.length (fun b i => call i >>= fun x => .ok (op b x)) b =
      .ok ((l.drop first).foldl op b) := by
  rw [loop_eq_foldlM (fun b x => .ok (op b x)) hcall]
  exact List.foldlM_pure

/-- What a function has for the elements of a list is the list of it. -/
theorem calls_map {α β : Type} {l : List α} {call : ℕ → Except Fault β} {f : α → β}
    (hcall : ∀ i (h : i < l.length), call i = .ok (f l[i])) :
    ∀ i (h : i < (l.map f).length), call i = .ok (l.map f)[i] := by
  intro i hi
  rw [List.getElem_map]
  exact hcall i (by rwa [List.length_map] at hi)

/-- A loop that ends has got all it asked for. -/
theorem loop_calls {α β : Type} {op : β → α → Except Fault β} {call : ℕ → Except Fault α}
    {first n : ℕ} {b b' : β} (h : loop first n (fun b i => call i >>= op b) b = .ok b') :
    ∀ i, first ≤ i → i < n → ∃ x, call i = .ok x := by
  rw [loop, Int.toNat_natCast] at h
  generalize hcount : n - first = count at h
  induction count generalizing first b with
  | zero => intro i hi hn; omega
  | succ count ih =>
    rw [List.range'_succ, List.foldlM_cons] at h
    obtain ⟨next, hnext, hrest⟩ := bind_eq_ok h
    obtain ⟨x, hx, -⟩ := bind_eq_ok hnext
    intro i hi hn
    rcases Nat.eq_or_lt_of_le hi with rfl | hlt
    · exact ⟨x, hx⟩
    · exact ih (by omega) hrest i hlt hn

/-! ## Samples -/

/-- `Stat<T>` -/
structure Stat (T : Type) where
  /-- `_samples` -/
  samples : List (List T)
  deriving DecidableEq

namespace Stat

variable {T : Type}

/-- A new `Stat`. -/
def new : Stat T := { samples := [] }

/-- `NewSample` -/
def newSample (s : Stat T) : Stat T := { samples := s.samples ++ [[]] }

/-- `NumSamples()` -/
def numSamples (s : Stat T) : Except Fault ℤ := CInt.checked s.samples.length

/-- `NumSamples(idx)` -/
def numSamplesOf (s : Stat T) (idx : ℕ) : Except Fault ℤ := do
  let sample ← elem s.samples idx
  CInt.checked sample.length

/-- `Get` -/
def get (s : Stat T) (sampleIdx valueIdx : ℕ) : Except Fault T := do
  let sample ← elem s.samples sampleIdx
  elem sample valueIdx

/-- `Add(value, sampleIdx)` -/
def addTo (s : Stat T) (value : T) (sampleIdx : ℤ) : Except Fault (Stat T) :=
  if 0 ≤ sampleIdx ∧ sampleIdx < s.samples.length then
    .ok { samples := s.samples.modify sampleIdx.toNat (· ++ [value]) }
  else .error .outOfBounds

/-- `Add(value)`, to the last sample -/
def add (s : Stat T) (value : T) : Except Fault (Stat T) := do
  let n ← s.numSamples
  s.addTo value (n - 1)

/-- `NewSample`, and `Add` for each value of a sample. -/
def addSample (s : Stat T) (sample : List T) : Except Fault (Stat T) :=
  sample.foldlM add s.newSample

/-- A `Stat` with some samples. -/
def build (samples : List (List T)) : Except Fault (Stat T) := samples.foldlM addSample new

/-! ## Statistics of a sample -/

section Values

variable [StatValue T] (s : Stat T)

/-- `Sum` -/
def sum (idx : ℕ) : Except Fault T := do
  let n ← s.numSamplesOf idx
  loop 0 n (fun sum i => s.get idx i >>= fun value => .ok (StatValue.add sum value)) StatValue.zero

/-- `Avg`. The average of no values is not a number, where the model has 0. -/
def avg (idx : ℕ) : Except Fault ℚ := do
  let sum ← s.sum idx
  let n ← s.numSamplesOf idx
  return StatValue.toDouble sum / n

/-- `Variance`, likewise -/
def variance (idx : ℕ) : Except Fault ℚ := do
  let avg ← s.avg idx
  let n ← s.numSamplesOf idx
  let var ← loop 0 n
    (fun var i => s.get idx i >>= fun value => .ok (var + (StatValue.toDouble value - avg) ^ 2)) 0
  return var / n

/-- One value stays at hand unless another is better. -/
def keepBetter {α : Type} (better : α → α → Bool) (kept other : α) : α :=
  if better other kept then other else kept

/-- `MinVal(idx)` and `MaxVal(idx)`, of values some of which are better -/
def best (better : T → T → Bool) (idx : ℕ) : Except Fault T := do
  let first ← s.get idx 0
  let n ← s.numSamplesOf idx
  loop 1 n (fun kept i => s.get idx i >>= fun value => .ok (keepBetter better kept value)) first

/-- `MinVal(idx)` -/
def minValOf (idx : ℕ) : Except Fault T := s.best (fun a b => StatValue.lt a b) idx

/-- `MaxVal(idx)` -/
def maxValOf (idx : ℕ) : Except Fault T := s.best (fun a b => StatValue.lt b a) idx

/-! ## Statistics of all samples -/

/-- `SumTotal` -/
def sumTotal : Except Fault T := do
  let n ← s.numSamples
  loop 0 n (fun sum i => s.sum i >>= fun value => .ok (StatValue.add sum value)) StatValue.zero

/-- `SumAvg` -/
def sumAvg : Except Fault ℚ := do
  let total ← s.sumTotal
  let n ← s.numSamples
  return StatValue.toDouble total / n

/-- `AvgAvg`. The variable that the averages are added to has the type of the values. -/
def avgAvg : Except Fault ℚ := do
  let n ← s.numSamples
  let avg ← loop 0 n
    (fun avg i => s.avg i >>= fun x => StatValue.ofDouble (StatValue.toDouble avg + x))
    (StatValue.zero : T)
  return StatValue.toDouble avg / n

/-- `SumMin`, `SumMax`, `MinVal()` and `MaxVal()`, of what a function has for each sample. The
variable at hand is a `double`. -/
def bestOf (better : ℚ → ℚ → Bool) (call : ℕ → Except Fault T) : Except Fault T := do
  let first ← call 0
  let n ← s.numSamples
  let kept ← loop 1 n
    (fun kept i => call i >>= fun tmp => .ok (keepBetter better kept (StatValue.toDouble tmp)))
    (StatValue.toDouble first)
  StatValue.ofDouble kept

/-- `SumMin` -/
def sumMin : Except Fault T := s.bestOf (fun a b => a < b) s.sum

/-- `SumMax` -/
def sumMax : Except Fault T := s.bestOf (fun a b => b < a) s.sum

/-- `MinVal()` -/
def minVal : Except Fault T := s.bestOf (fun a b => a < b) s.minValOf

/-- `MaxVal()` -/
def maxVal : Except Fault T := s.bestOf (fun a b => b < a) s.maxValOf

end Values

/-! ## Building -/

/-- All counts are values of `int`. -/
def Fits (samples : List (List T)) : Prop :=
  CInt.InRange samples.length ∧ ∀ sample ∈ samples, CInt.InRange sample.length

theorem numSamples_ok {s : Stat T} (hfits : Fits s.samples) :
    s.numSamples = .ok s.samples.length := CInt.checked_ok hfits.1

theorem add_ok {before : List (List T)} {sample : List T} (value : T)
    (hcount : CInt.InRange ((before.length + 1 : ℕ) : ℤ)) :
    add { samples := before ++ [sample] } value =
      .ok { samples := before ++ [sample ++ [value]] } := by
  have hn : numSamples { samples := before ++ [sample] } = .ok ((before.length + 1 : ℕ) : ℤ) := by
    rw [numSamples, List.length_append, List.length_singleton]
    exact CInt.checked_ok hcount
  have hlast : ((before.length + 1 : ℕ) : ℤ) - 1 = before.length := by omega
  rw [add, hn, ok_bind, hlast, addTo, if_pos ⟨by omega, by simp⟩, Int.toNat_natCast,
    List.modify_eq_take_cons_drop (by simp)]
  simp

theorem addSample_ok {before : List (List T)} (sample : List T)
    (hcount : CInt.InRange ((before.length + 1 : ℕ) : ℤ)) :
    addSample { samples := before } sample = .ok { samples := before ++ [sample] } := by
  have hadds : ∀ taken : List T, sample.foldlM add { samples := before ++ [taken] } =
      .ok { samples := before ++ [taken ++ sample] } := by
    induction sample with
    | nil => intro taken; rw [List.append_nil]; rfl
    | cons value sample ih =>
      intro taken
      rw [List.foldlM_cons, add_ok value hcount, ok_bind, ih, List.append_assoc]
      rfl
  exact hadds []

/-- **Building** goes through if the samples can be counted. -/
theorem build_ok {samples : List (List T)} (hcount : CInt.InRange samples.length) :
    build samples = .ok { samples } := by
  have hbuild : ∀ before : List (List T), CInt.InRange ((before.length + samples.length : ℕ) : ℤ) →
      samples.foldlM addSample { samples := before } = .ok { samples := before ++ samples } := by
    clear hcount
    induction samples with
    | nil => intro before _; rw [List.append_nil]; rfl
    | cons sample samples ih =>
      intro before hcount
      rw [CInt.InRange, List.length_cons] at hcount
      rw [List.foldlM_cons, addSample_ok sample ⟨by omega, by omega⟩, ok_bind,
        ih _ ⟨by simp; omega, by simp; omega⟩, List.append_assoc]
      rfl
  exact hbuild [] (by rwa [List.length_nil, Nat.zero_add])

theorem add_eq_ok {before : List (List T)} {sample : List T} {value : T} {s : Stat T}
    (h : add { samples := before ++ [sample] } value = .ok s) :
    s = { samples := before ++ [sample ++ [value]] } := by
  by_cases hcount : CInt.InRange ((before.length + 1 : ℕ) : ℤ)
  · rw [add_ok value hcount] at h
    exact (Except.ok.inj h).symm
  · have hn : numSamples { samples := before ++ [sample] } = .error .overflow := by
      rw [numSamples, List.length_append, List.length_singleton]
      exact if_neg hcount
    rw [add, hn] at h
    cases h

theorem addSample_eq_ok {before : List (List T)} {sample : List T} {s : Stat T}
    (h : addSample { samples := before } sample = .ok s) :
    s = { samples := before ++ [sample] } := by
  have hadds : ∀ taken : List T, sample.foldlM add { samples := before ++ [taken] } = .ok s →
      s = { samples := before ++ [taken ++ sample] } := by
    clear h
    induction sample with
    | nil =>
      intro taken h
      rw [List.append_nil]
      exact (Except.ok.inj h).symm
    | cons value sample ih =>
      intro taken h
      rw [List.foldlM_cons] at h
      obtain ⟨next, hnext, hrest⟩ := bind_eq_ok h
      obtain rfl := add_eq_ok hnext
      rw [ih _ hrest, List.append_assoc]
      rfl
  exact hadds [] h

/-- What is built has the samples. -/
theorem build_eq_ok {samples : List (List T)} {s : Stat T} (h : build samples = .ok s) :
    s = { samples } := by
  have hbuild : ∀ before : List (List T), samples.foldlM addSample { samples := before } = .ok s →
      s = { samples := before ++ samples } := by
    clear h
    induction samples with
    | nil =>
      intro before h
      rw [List.append_nil]
      exact (Except.ok.inj h).symm
    | cons sample samples ih =>
      intro before h
      rw [List.foldlM_cons] at h
      obtain ⟨next, hnext, hrest⟩ := bind_eq_ok h
      obtain rfl := addSample_eq_ok hnext
      rw [ih _ hrest, List.append_assoc]
      rfl
  exact hbuild [] h

/-! ## The loops as folds -/

variable {s : Stat T}

theorem numSamplesOf_ok (hfits : Fits s.samples) {i : ℕ} (hi : i < s.samples.length) :
    s.numSamplesOf i = .ok (s.samples[i]).length := by
  rw [numSamplesOf, elem_ok hi, ok_bind]
  exact CInt.checked_ok (hfits.2 _ (List.getElem_mem hi))

theorem get_ok {i j : ℕ} (hi : i < s.samples.length) (hj : j < (s.samples[i]).length) :
    s.get i j = .ok (s.samples[i])[j] := by
  rw [get, elem_ok hi, ok_bind, elem_ok hj]

/-- The value that is left of those of a list. -/
def bestIn {α : Type} (better : α → α → Bool) (values : List α) (h : values ≠ []) : α :=
  values.tail.foldl (keepBetter better) (values.head h)

theorem best_ok (better : T → T → Bool) (hfits : Fits s.samples) {i : ℕ}
    (hi : i < s.samples.length) (hne : s.samples[i] ≠ []) :
    s.best better i = .ok (bestIn better s.samples[i] hne) := by
  have hfirst : s.get i 0 = .ok ((s.samples[i]).head hne) := by
    rw [get_ok hi (List.length_pos_iff.mpr hne), List.head_eq_getElem]
  rw [best, hfirst, ok_bind, numSamplesOf_ok hfits hi, ok_bind,
    loop_eq_foldl _ (fun j hj => get_ok hi hj), List.drop_one]
  rfl

section Values

variable [StatValue T]

/-- What adding up as `T` makes of values. -/
def total (values : List T) : T := values.foldl StatValue.add StatValue.zero

theorem sum_ok (hfits : Fits s.samples) {i : ℕ} (hi : i < s.samples.length) :
    s.sum i = .ok (total s.samples[i]) := by
  rw [sum, numSamplesOf_ok hfits hi, ok_bind, loop_eq_foldl _ (fun j hj => get_ok hi hj)]
  rfl

theorem avg_ok (hfits : Fits s.samples) {i : ℕ} (hi : i < s.samples.length) :
    s.avg i = .ok (StatValue.toDouble (total s.samples[i]) / (s.samples[i]).length) := by
  rw [avg, sum_ok hfits hi, ok_bind, numSamplesOf_ok hfits hi, ok_bind]
  rfl

theorem sumTotal_ok (hfits : Fits s.samples) :
    s.sumTotal = .ok (total (s.samples.map total)) := by
  have hcall := calls_map fun i (hi : i < s.samples.length) => sum_ok hfits hi
  have hloop := loop_eq_foldl StatValue.add hcall 0 StatValue.zero
  rw [List.length_map] at hloop
  rw [sumTotal, numSamples_ok hfits, ok_bind, hloop]
  rfl

theorem sumAvg_ok (hfits : Fits s.samples) :
    s.sumAvg = .ok (StatValue.toDouble (total (s.samples.map total)) / s.samples.length) := by
  rw [sumAvg, sumTotal_ok hfits, ok_bind, numSamples_ok hfits, ok_bind]
  rfl

/-- Adding up numbers, each of the results being made a `T`. -/
def addConverted (xs : List ℚ) : Except Fault T :=
  xs.foldlM (fun avg x => StatValue.ofDouble (StatValue.toDouble avg + x)) StatValue.zero

theorem avgAvg_eq (hfits : Fits s.samples) {xs : List ℚ} (hlength : xs.length = s.samples.length)
    (havg : ∀ i (h : i < xs.length), s.avg i = .ok xs[i]) :
    s.avgAvg = (addConverted xs : Except Fault T) >>= fun avg =>
      .ok (StatValue.toDouble avg / s.samples.length) := by
  have hloop := loop_eq_foldlM (fun avg x => StatValue.ofDouble (StatValue.toDouble avg + x))
    havg 0 (StatValue.zero : T)
  rw [hlength] at hloop
  rw [avgAvg, numSamples_ok hfits, ok_bind, hloop]
  rfl

theorem bestOf_eq (better : ℚ → ℚ → Bool) (hfits : Fits s.samples) {call : ℕ → Except Fault T}
    {xs : List T} (hlength : xs.length = s.samples.length)
    (hcall : ∀ i (h : i < xs.length), call i = .ok xs[i])
    (hne : xs.map StatValue.toDouble ≠ []) :
    s.bestOf better call =
      StatValue.ofDouble (bestIn better (xs.map StatValue.toDouble) hne) := by
  have hpos : 0 < xs.length := List.length_pos_iff.mpr (fun hnil => hne (by rw [hnil]; rfl))
  have hloop := loop_eq_foldl (fun kept tmp => keepBetter better kept (StatValue.toDouble tmp))
    hcall 1 (StatValue.toDouble xs[0])
  rw [hlength] at hloop
  rw [bestOf, hcall 0 hpos, ok_bind, numSamples_ok hfits, ok_bind, hloop, ok_bind, bestIn,
    List.head_map, ← List.map_tail, List.foldl_map, List.drop_one, List.head_eq_getElem]

end Values

end Stat

end WallMon
