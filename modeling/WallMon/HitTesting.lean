import Mathlib.Algebra.Order.Floor.Ring
import Mathlib.Tactic.Linarith
import Mathlib.Tactic.FieldSimp
import Mathlib.Tactic.Ring
import WallMon.Tile

/-!
# Tapping rows and drawing them

A table draws its rows one below the other from `TABLE_TOP` on, shifted up by the pixel
index, and a tap is turned back into a row number. Drawing and tapping both convert the pixel
index to a row and a remainder, towards zero. That agrees with where the rows are as long as
the converted numbers are not negative, and below -1 it makes no difference. In between, when
the list is pulled down by less than a row, a tap above the first row is taken for one on it
(`hitAgrees_iff`).
-/

namespace WallMon

namespace Rows

/-- `_CurrentPixelToItemIndex`, for rows of height `h` and the pixel index `q` -/
def currentPixelToItemIndex (h q : ℚ) : ℤ := truncate (q / h)

/-- `_ItemNumberToPixel` -/
def itemNumberToPixel (h q : ℚ) (number : ℤ) : ℚ :=
  let offset := fmod q h
  tableTop + offset - h * number

/-- `_RelativePixelToItemIndex` -/
def relativePixelToItemIndex (h q relativeY : ℚ) : ℤ :=
  let offset := fmod q h
  let idx := truncate ((tableTop - relativeY + offset) / h)
  idx + currentPixelToItemIndex h q

/-- The functions of a table are these. -/
theorem table_relativePixelToItemIndex {ι : Type} (t : Table ι) (y : ℚ) :
    t.relativePixelToItemIndex y =
      relativePixelToItemIndex t.itemHeight t.currentPixelIndex y := rfl

/-- The drawing loop, from row `i` on for `fuel` more rows: the rows that are drawn, with the
pixel that each is drawn at. -/
def drawFrom (h q : ℚ) : ℕ → ℕ → List (ℕ × ℚ)
  | 0, _ => []
  | fuel + 1, i =>
    let y := itemNumberToPixel h q (i - currentPixelToItemIndex h q)
    if y < 0 then [] else (i, y) :: drawFrom h q fuel (i + 1)

/-- The rows that `_DrawTopLevelTable` and `_DrawSubLevelTable` draw of `n` rows. -/
def drawn (h q : ℚ) (n : ℕ) : List (ℕ × ℚ) :=
  let startIndex := (max (currentPixelToItemIndex h q) 0).toNat
  drawFrom h q (n - startIndex) startIndex

/-- A row drawn at `top` contains the ordinate `y`. -/
def Contains (h top y : ℚ) : Prop := top - h < y ∧ y ≤ top

instance (h top y : ℚ) : Decidable (Contains h top y) := inferInstanceAs (Decidable (_ ∧ _))

/-- Tapping agrees with drawing: a row number among the rows is that of a drawn row that
contains the ordinate, and where there is no such row there is no such number. -/
def HitAgrees (h q : ℚ) (n : ℕ) (y : ℚ) : Prop :=
  let idx := relativePixelToItemIndex h q y
  (∀ i : ℕ, idx = i → i < n → ∃ top, (i, top) ∈ drawn h q n ∧ Contains h top y) ∧
    ((∀ row ∈ drawn h q n, ¬Contains h row.2 y) → ¬(0 ≤ idx ∧ idx < n))

/-! ## Where the rows are -/

theorem truncate_of_nonneg {x : ℚ} (hx : 0 ≤ x) :
    0 ≤ truncate x ∧ (truncate x : ℚ) ≤ x ∧ x < truncate x + 1 := by
  rw [truncate, if_pos hx]
  exact ⟨Int.floor_nonneg.mpr hx, Int.floor_le x, Int.lt_floor_add_one x⟩

theorem truncate_of_neg {x : ℚ} (hx : x < 0) :
    truncate x ≤ 0 ∧ x ≤ truncate x ∧ (truncate x : ℚ) - 1 < x := by
  rw [truncate, if_neg (not_le.mpr hx)]
  refine ⟨Int.ceil_le.mpr (by exact_mod_cast hx.le), Int.le_ceil x, ?_⟩
  linarith [Int.ceil_lt_add_one x]

variable {h q y : ℚ}

/-- The remainder and the start row cancel: rows are placed from the pixel index. -/
theorem itemNumberToPixel_eq (i : ℤ) :
    itemNumberToPixel h q (i - currentPixelToItemIndex h q) = tableTop + q - h * i := by
  simp only [itemNumberToPixel, fmod, currentPixelToItemIndex]
  push_cast
  ring

/-- **The drawing loop** draws the rows up to the first that begins below 0, and rows after
that one begin below 0 too. -/
theorem mem_drawFrom (hh : 0 < h) {fuel i j : ℕ} {top : ℚ} :
    (j, top) ∈ drawFrom h q fuel i ↔
      i ≤ j ∧ j < i + fuel ∧ top = tableTop + q - h * j ∧ 0 ≤ top := by
  induction fuel generalizing i with
  | zero =>
    refine iff_of_false List.not_mem_nil ?_
    omega
  | succ fuel ih =>
    have hy := itemNumberToPixel_eq (h := h) (q := q) i
    push_cast at hy
    rw [drawFrom]
    simp only [hy]
    by_cases hlow : tableTop + q - h * i < 0
    · rw [if_pos hlow]
      refine iff_of_false List.not_mem_nil ?_
      rintro ⟨hle, -, rfl, hnonneg⟩
      have hmul : h * (i : ℚ) ≤ h * j := mul_le_mul_of_nonneg_left (by exact_mod_cast hle) hh.le
      linarith
    · rw [if_neg hlow, List.mem_cons, ih, Prod.mk.injEq]
      refine ⟨?_, ?_⟩
      · rintro (⟨rfl, rfl⟩ | ⟨hle, hlt, htop⟩)
        · exact ⟨le_rfl, by omega, rfl, not_lt.mp hlow⟩
        · exact ⟨by omega, by omega, htop⟩
      · rintro ⟨hle, hlt, htop, hnonneg⟩
        rcases hle.eq_or_lt with rfl | hlt'
        · exact .inl ⟨rfl, htop⟩
        · exact .inr ⟨hlt', by omega, htop, hnonneg⟩

/-- The rows drawn of `n`. -/
theorem mem_drawn (hh : 0 < h) {n j : ℕ} {top : ℚ} :
    (j, top) ∈ drawn h q n ↔
      currentPixelToItemIndex h q ≤ j ∧ j < n ∧ top = tableTop + q - h * j ∧ 0 ≤ top := by
  rw [drawn, mem_drawFrom hh]
  refine ⟨?_, ?_⟩
  · rintro ⟨hle, hlt, htop⟩
    exact ⟨by omega, by omega, htop⟩
  · rintro ⟨hle, hlt, htop⟩
    exact ⟨by omega, by omega, htop⟩

/-- How many rows the ordinate is below the beginning of the list. -/
def depth (h q y : ℚ) : ℚ := (tableTop + q - y) / h

/-- A row contains the ordinates whose depth begins with its number. -/
theorem contains_iff (hh : 0 < h) (i : ℕ) :
    Contains h (tableTop + q - h * i) y ↔ i ≤ depth h q y ∧ depth h q y < i + 1 := by
  rw [Contains, depth, le_div_iff₀ hh, div_lt_iff₀ hh]
  constructor <;> rintro ⟨h₁, h₂⟩ <;> constructor <;> linarith

/-- The row number of a tap. -/
theorem relativePixelToItemIndex_eq (hh : 0 < h) :
    relativePixelToItemIndex h q y =
      truncate (depth h q y - currentPixelToItemIndex h q) + currentPixelToItemIndex h q := by
  have hdepth : (tableTop - y + fmod q h) / h = depth h q y - currentPixelToItemIndex h q := by
    rw [depth, fmod, currentPixelToItemIndex]
    field_simp
    ring
  simp only [relativePixelToItemIndex, hdepth]

/-- The tap is above a list that is pulled down by less than a row. -/
def AbovePulledList (h q y : ℚ) : Prop := -h < q ∧ q < 0 ∧ tableTop + q < y

instance (h q y : ℚ) : Decidable (AbovePulledList h q y) := inferInstanceAs (Decidable (_ ∧ _))

/-- Taps are below the upper edge. -/
theorem pixelIndex_le_depth (hh : 0 < h) (hy : y ≤ tableTop) : q / h ≤ depth h q y := by
  rw [depth, div_le_div_iff_of_pos_right hh]
  linarith

/-- **There the tap** is taken for one on the first row. -/
theorem relativePixelToItemIndex_of_above (hh : 0 < h) (hy : y ≤ tableTop)
    (habove : AbovePulledList h q y) : relativePixelToItemIndex h q y = 0 := by
  obtain ⟨hlow, hneg, htop⟩ := habove
  have hstart : -1 < q / h ∧ q / h < 0 := by
    refine ⟨?_, div_neg_of_neg_of_pos hneg hh⟩
    rw [lt_div_iff₀ hh]
    linarith
  have hdepth : depth h q y < 0 := div_neg_of_neg_of_pos (by linarith) hh
  have hle := pixelIndex_le_depth (q := q) hh hy
  have hzero : ∀ x : ℚ, -1 < x → x < 0 → truncate x = 0 := by
    intro x hx hx'
    rw [truncate, if_neg (not_le.mpr hx'), Int.ceil_eq_zero_iff]
    exact ⟨hx, hx'.le⟩
  have hindex : currentPixelToItemIndex h q = 0 := hzero _ hstart.1 hstart.2
  rw [relativePixelToItemIndex_eq hh, hindex, Int.cast_zero, sub_zero,
    hzero _ (by linarith) hdepth, add_zero]

/-- **Elsewhere** a row number that is not negative is that of the row. -/
theorem contains_of_not_above (hh : 0 < h) (hy : y ≤ tableTop) (habove : ¬AbovePulledList h q y)
    {i : ℕ} (hidx : relativePixelToItemIndex h q y = i) :
    currentPixelToItemIndex h q ≤ i ∧ Contains h (tableTop + q - h * i) y := by
  have hle := pixelIndex_le_depth (q := q) hh hy
  rw [relativePixelToItemIndex_eq hh] at hidx
  rw [contains_iff hh]
  generalize hs : currentPixelToItemIndex h q = s at hidx ⊢
  have hcast : (truncate (depth h q y - s) : ℚ) + s = i := by exact_mod_cast hidx
  by_cases hnonneg : 0 ≤ depth h q y - s
  · -- the conversion rounds down
    obtain ⟨hpos, hfloor, hfloor'⟩ := truncate_of_nonneg hnonneg
    exact ⟨by omega, by linarith, by linarith⟩
  · -- it rounds up: the tap is above the start row, so the pixel index is negative
    exfalso
    rw [not_le] at hnonneg
    obtain ⟨hneg, -, -⟩ := truncate_of_neg hnonneg
    have hq : q / h < 0 := by
      by_contra hq
      obtain ⟨-, hstart, -⟩ := truncate_of_nonneg (not_lt.mp hq)
      rw [show truncate (q / h) = s from hs] at hstart
      linarith
    obtain ⟨hstart, -, hlow⟩ := truncate_of_neg hq
    rw [show truncate (q / h) = s from hs] at hstart hlow
    obtain rfl : s = 0 := by omega
    rw [Int.cast_zero, sub_zero, depth, div_lt_iff₀ hh] at hnonneg
    rw [Int.cast_zero, zero_sub, lt_div_iff₀ hh] at hlow
    rw [div_lt_iff₀ hh] at hq
    exact habove ⟨by linarith, by linarith, by linarith⟩

/-- There the row is drawn under the tap. -/
theorem exists_mem_drawn (hh : 0 < h) (hbottom : tableBottom ≤ y) (htop : y ≤ tableTop)
    (habove : ¬AbovePulledList h q y) {i n : ℕ} (hidx : relativePixelToItemIndex h q y = i)
    (hi : i < n) : ∃ top, (i, top) ∈ drawn h q n ∧ Contains h top y := by
  obtain ⟨hstart, hcontains⟩ := contains_of_not_above hh htop habove hidx
  have hpos : 0 ≤ tableTop + q - h * i := by
    have hedge : (0 : ℚ) ≤ tableBottom := by norm_num [tableBottom]
    linarith [hcontains.2]
  exact ⟨_, (mem_drawn hh).mpr ⟨hstart, hi, rfl, hpos⟩, hcontains⟩

/-- **A tap on a table** selects the row that is drawn under it: a row number in the message is
that of a drawn row which contains the ordinate, unless the tap is above a list that is pulled
down. -/
theorem exists_mem_drawn_of_tap {ι : Type} {t : Table ι} {msg : TableStateMessage}
    (htap : t.tap y = some msg) (habove : ¬AbovePulledList t.itemHeight t.currentPixelIndex y)
    {i n : ℕ} (hrow : msg.selectedIndex = some (i : ℤ)) (hi : i < n) :
    ∃ top, (i, top) ∈ drawn t.itemHeight t.currentPixelIndex n ∧ Contains t.itemHeight top y := by
  have hheight : 0 < t.itemHeight := by
    rw [Table.itemHeight]
    split <;> norm_num
  rw [Table.tap] at htap
  split at htap
  · cases htap
  · next hwithin =>
    rw [not_or, not_lt, not_lt] at hwithin
    obtain rfl := Option.some.inj htap
    rw [Table.synchronizeState] at hrow
    split at hrow
    · rw [table_relativePixelToItemIndex] at hrow
      exact exists_mem_drawn hheight hwithin.2 hwithin.1 habove (Option.some.inj hrow) hi
    · cases hrow

/-- **Tapping and drawing** agree for an ordinate within the table if and only if it is not
that of a tap above a list with rows that is pulled down by less than a row. -/
theorem hitAgrees_iff (hh : 0 < h) (n : ℕ) (hbottom : tableBottom ≤ y) (htop : y ≤ tableTop) :
    HitAgrees h q n y ↔ ¬(AbovePulledList h q y ∧ 1 ≤ n) := by
  refine ⟨?_, fun hnot => ?_⟩
  · rintro ⟨hhit, -⟩ ⟨habove, hn⟩
    obtain ⟨top, hdrawn, -, hle⟩ :=
      hhit 0 (relativePixelToItemIndex_of_above hh htop habove) hn
    obtain ⟨-, -, heq, -⟩ := (mem_drawn hh).mp hdrawn
    have hgap := habove.2.2
    rw [Nat.cast_zero, mul_zero, sub_zero] at heq
    linarith
  · have hhit : ∀ i : ℕ, relativePixelToItemIndex h q y = i → i < n →
        ∃ top, (i, top) ∈ drawn h q n ∧ Contains h top y := by
      intro i hidx hi
      have habove : ¬AbovePulledList h q y := fun habove => hnot ⟨habove, by omega⟩
      exact exists_mem_drawn hh hbottom htop habove hidx hi
    refine ⟨hhit, fun hnone hidx => ?_⟩
    obtain ⟨i, hi⟩ := Int.eq_ofNat_of_zero_le hidx.1
    obtain ⟨top, hdrawn, hcontains⟩ := hhit i hi (by omega)
    exact hnone _ hdrawn hcontains

/-- Three rows of the sub-table, scrolled by half a row, and a tap on the second. -/
theorem hitAgrees_half_row : HitAgrees 15 (15 / 2) 3 (70 : ℚ) :=
  (hitAgrees_iff (by norm_num) 3 (by norm_num [tableBottom]) (by norm_num [tableTop])).mpr
    (by norm_num [AbovePulledList])

/-- One row of the top-level table, pulled down by half of it: a tap above selects it. -/
theorem not_hitAgrees_above : relativePixelToItemIndex 6 (-3) 84 = 0 ∧
    drawn 6 (-3) 1 = [(0, 82)] ∧ ¬HitAgrees 6 (-3) 1 84 := by
  have hidx : relativePixelToItemIndex 6 (-3) 84 = 0 := by decide +kernel
  have hdrawn : drawn 6 (-3) 1 = [(0, 82)] := by decide +kernel
  refine ⟨hidx, hdrawn, fun hagrees => ?_⟩
  obtain ⟨top, hmem, -, hle⟩ := hagrees.1 0 hidx (by decide)
  rw [hdrawn] at hmem
  obtain ⟨-, rfl⟩ := Prod.mk.inj (List.mem_singleton.mp hmem)
  norm_num at hle

end Rows

end WallMon
