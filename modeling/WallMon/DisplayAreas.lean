import Mathlib.Tactic.Linarith
import Mathlib.Tactic.Ring
import WallMon.Binary64
import WallMon.CheckedInt
import WallMon.Touches

/-!
# The display areas of a grid

`WallView` is a grid of tiles of the display wall. The constructor lists the names of the
tiles row by row, and leaves out what is beyond the wall. `GetDisplayArea` looks up a name in
the list and turns the index into a column and a row by dividing by the width of the grid, as
if no column had been left out. With a second row that goes wrong for a grid that is cut off
on the right (`tilesGrid_iff`).
-/

namespace WallMon

/-- `WALL_WIDHT` -/
def wallWidth : ℤ := 7

/-- `WALL_HEIGHT` -/
def wallHeight : ℤ := 4

/-- `HOSTNAMES` -/
def hostnames : List String :=
  ["tile-0-0", "tile-1-0", "tile-2-0", "tile-3-0", "tile-4-0", "tile-5-0", "tile-6-0",
    "tile-0-1", "tile-1-1", "tile-2-1", "tile-3-1", "tile-4-1", "tile-5-1", "tile-6-1",
    "tile-0-2", "tile-1-2", "tile-2-2", "tile-3-2", "tile-4-2", "tile-5-2", "tile-6-2",
    "tile-0-3", "tile-1-3", "tile-2-3", "tile-3-3", "tile-4-3", "tile-5-3", "tile-6-3"]

/-- `HOSTNAMES[index]` -/
def hostnameAt (index : ℤ) : Except Fault String :=
  if 0 ≤ index then
    match hostnames[index.toNat]? with
    | some name => .ok name
    | none => .error .outOfBounds
  else .error .outOfBounds

/-- A rectangle of the display, in pixels -/
structure DisplayArea where
  /-- `x` -/
  x : ℚ
  /-- `y` -/
  y : ℚ
  /-- `width` -/
  width : ℚ
  /-- `height` -/
  height : ℚ
  deriving DecidableEq

namespace WallView

/-- The inner loop of the constructor, from column `j` on -/
def rowFrom (v : WallView) (i : ℤ) : ℕ → ℤ → Except Fault (List String)
  | 0, _ => .error .outOfFuel
  | fuel + 1, j => do
    let stop ← CInt.add v.x v.w
    if j < stop ∧ j < wallWidth then
      let tileHostname ← hostnameAt (← CInt.add j (← CInt.mul i wallWidth))
      let rest ← rowFrom v i fuel (j + 1)
      return tileHostname :: rest
    else return []

/-- The outer loop of the constructor, from row `i` on -/
def gridFrom (v : WallView) : ℕ → ℤ → Except Fault (List String)
  | 0, _ => .error .outOfFuel
  | fuel + 1, i => do
    let stop ← CInt.add v.y v.h
    if i < stop ∧ i < wallHeight then
      let row ← rowFrom v i ((wallWidth - v.x).toNat + 1) v.x
      let rest ← gridFrom v fuel (i + 1)
      return row ++ rest
    else return []

end WallView

/-- A `WallView` with its list of names. -/
structure WallGrid extends WallView where
  /-- `_grid` -/
  grid : List String

namespace WallGrid

/-- `WallView::WallView`, less `_hostname` -/
def new (x y width height : ℤ) : Except Fault WallGrid := do
  let view : WallView := { x, y, w := width, h := height }
  let grid ← view.gridFrom ((wallHeight - y).toNat + 1) y
  return { view with grid }

/-- `WallView::_GetIndex` -/
def getIndex (g : WallGrid) (hostname : String) : ℤ :=
  match g.grid.findIdx? fun name => name.toList.take 8 == hostname.toList.take 8 with
  | some i => i
  | none => -1

/-- `WallView::_IndexToCoordinates`, where `_w` is not 0 -/
def indexToCoordinates (g : WallGrid) (index : ℤ) : ℤ × ℤ := (index.tmod g.w, index.tdiv g.w)

/-- `WallView::GetDisplayArea`. A conversion of an `int` to `double` is exact. -/
def getDisplayArea (g : WallGrid) (hostname : String) : Except Fault DisplayArea := do
  let index := g.getIndex hostname
  let pos := g.indexToCoordinates index
  let totalWidth ← CInt.mul 1024 g.w
  let totalHeight ← CInt.mul 768 g.h
  return {
    x := Binary64.mul (Binary64.div pos.1 g.w) totalWidth
    y := Binary64.mul (Binary64.div pos.2 g.h) totalHeight
    width := tileScreenWidth
    height := tileScreenHeight }

end WallGrid

/-! ## What the areas should be -/

/-- The name of the tile in column `i` and row `j` -/
def tileName (i j : ℕ) : String := s!"tile-{i}-{j}"

/-- How many columns of a grid are on the wall -/
def columns (x w : ℤ) : ℕ := (min (x + w) wallWidth - x).toNat

/-- How many rows of a grid are on the wall -/
def rows (y h : ℤ) : ℕ := (min (y + h) wallHeight - y).toNat

/-- The rectangle has the point. -/
def DisplayArea.Covers (a : DisplayArea) (p : WVPoint2d) : Prop :=
  (a.x ≤ p.x ∧ p.x < a.x + a.width) ∧ a.y ≤ p.y ∧ p.y < a.y + a.height

namespace WallGrid

/-- The tile in column `i` and row `j` of the wall is one of the grid. -/
def Contains (g : WallGrid) (i j : ℕ) : Prop :=
  (g.x ≤ i ∧ i < g.x + g.w ∧ (i : ℤ) < wallWidth) ∧
    g.y ≤ j ∧ j < g.y + g.h ∧ (j : ℤ) < wallHeight

/-- The areas are those of the tiles. Host names are compared by eight characters. -/
def AreasRight (g : WallGrid) : Prop :=
  ∀ i j : ℕ, g.Contains i j → ∀ hostname : String,
    hostname.toList.take 8 = (tileName i j).toList →
      g.getDisplayArea hostname = .ok
        { x := (i - g.x) * 1024, y := (j - g.y) * 768, width := 1024, height := 768 }

/-- The tile shows the point. -/
def Shows (g : WallGrid) (i j : ℕ) (p : WVPoint2d) : Prop :=
  g.Contains i j ∧ ∃ a, g.getDisplayArea (tileName i j) = .ok a ∧ a.Covers p

/-- No two tiles show the same point. -/
def AreasDisjoint (g : WallGrid) : Prop :=
  ∀ p i j i' j', g.Shows i j p → g.Shows i' j' p → i = i' ∧ j = j'

/-- The tiles show what is visible of the grid. -/
def AreasFill (g : WallGrid) : Prop :=
  ∀ p, (∃ i j, g.Shows i j p) ↔
    (0 ≤ p.x ∧ p.x < columns g.x g.w * 1024) ∧ 0 ≤ p.y ∧ p.y < rows g.y g.h * 768

end WallGrid

/-- The display areas tile the grid. -/
def TilesGrid (x y w h : ℤ) : Prop :=
  ∃ g, WallGrid.new x y w h = .ok g ∧ g.AreasRight ∧ g.AreasDisjoint ∧ g.AreasFill

/-- The number of a column or row comes back when it is divided by the extent of the grid
and multiplied with the pixels of that. -/
def ComesBack (size extent : ℤ) (k : ℕ) : Prop :=
  Binary64.mul (Binary64.div k extent) (size * extent) = k * size

instance (size extent : ℤ) (k : ℕ) : Decidable (ComesBack size extent k) :=
  inferInstanceAs (Decidable (_ = _))

/-- The grid is not cut off on the right unless just one row is on the wall; its size in
pixels is an `int`; and no column or row is lost by rounding. -/
structure Fits (x y w h : ℤ) : Prop where
  /-- the width in pixels -/
  width : CInt.InRange (1024 * w)
  /-- the height in pixels -/
  height : CInt.InRange (768 * h)
  /-- what is cut off -/
  rectangle : x + w ≤ wallWidth ∨ rows y h = 1
  /-- rounding of columns -/
  column : ∀ c < columns x w, ComesBack 1024 w c
  /-- rounding of rows -/
  row : ∀ r < rows y h, ComesBack 768 h r

/-! ## Names -/

/-- The names in the array -/
theorem hostnames_getElem? : ∀ i < 7, ∀ j < 4, hostnames[i + j * 7]? = some (tileName i j) := by
  decide +kernel

/-- A name has eight characters, -/
theorem take_tileName : ∀ i < 7, ∀ j < 4,
    (tileName i j).toList.take 8 = (tileName i j).toList := by
  decide +kernel

/-- and names are different. -/
theorem tileName_inj {i j i' j' : ℕ} (hi : i < 7) (hj : j < 4) (hi' : i' < 7) (hj' : j' < 4)
    (heq : (tileName i j).toList = (tileName i' j').toList) : i = i' ∧ j = j' := by
  have hnodup : (hostnames.map String.toList).Nodup := by decide +kernel
  have hget : ∀ i < 7, ∀ j < 4,
      (hostnames.map String.toList)[i + j * 7]? = some (tileName i j).toList := by
    intro i hi j hj
    rw [List.getElem?_map, hostnames_getElem? i hi j hj]
    rfl
  have hlength : i + j * 7 < (hostnames.map String.toList).length := by
    have hlength : (hostnames.map String.toList).length = 28 := by decide +kernel
    omega
  have hindex := (List.getElem?_inj hlength hnodup).mp
    ((hget i hi j hj).trans ((congrArg some heq).trans (hget i' hi' j' hj').symm))
  omega

theorem hostnameAt_eq {i j : ℕ} (hi : i < 7) (hj : j < 4) :
    hostnameAt (i + j * 7) = .ok (tileName i j) := by
  have hnat : (i + j * 7 : ℤ) = ((i + j * 7 : ℕ) : ℤ) := by push_cast; rfl
  rw [hostnameAt, if_pos (by omega), hnat, Int.toNat_natCast, hostnames_getElem? i hi j hj]

/-! ## The list of names -/

namespace WallView

variable {v : WallView}

/-- **The inner loop** lists the names of a row. -/
theorem rowFrom_eq (hw : CInt.InRange (v.x + v.w)) {i j fuel : ℕ} (hi : i < 4)
    (hfuel : 7 - j < fuel) :
    v.rowFrom i fuel j = .ok ((List.range (min (v.x + v.w) wallWidth - j).toNat).map
      fun c => tileName (j + c) i) := by
  induction fuel generalizing j with
  | zero => omega
  | succ fuel ih =>
    rw [rowFrom, CInt.add_ok hw, ok_bind]
    by_cases hinside : (j : ℤ) < v.x + v.w ∧ (j : ℤ) < wallWidth
    · rw [if_pos hinside]
      rw [wallWidth] at hinside
      have hrest := ih (j := j + 1) (by omega)
      rw [wallWidth, CInt.mul_ok (by rw [CInt.InRange]; omega), ok_bind,
        CInt.add_ok (by rw [CInt.InRange]; omega), ok_bind, hostnameAt_eq (by omega) hi, ok_bind]
      push_cast at hrest
      rw [hrest, ok_bind]
      have hcount : (min (v.x + v.w) 7 - (j : ℤ)).toNat =
          (min (v.x + v.w) 7 - ((j : ℤ) + 1)).toNat + 1 := by omega
      rw [hcount, List.range_succ_eq_map, List.map_cons, List.map_map]
      have hshift : (fun c => tileName (j + c) i) ∘ Nat.succ = fun c => tileName (j + 1 + c) i := by
        funext c
        rw [Function.comp_apply, Nat.succ_eq_add_one, Nat.add_right_comm, Nat.add_assoc]
      rw [hshift]
      rfl
    · have hcount : (min (v.x + v.w) wallWidth - (j : ℤ)).toNat = 0 := by omega
      rw [if_neg hinside, hcount]
      rfl

/-- **The outer loop** lists the names row by row. -/
theorem gridFrom_eq {x : ℕ} (hx : v.x = x) (hx' : x < 7) (hw : CInt.InRange (v.x + v.w))
    (hh : CInt.InRange (v.y + v.h)) {i fuel : ℕ} (hfuel : 4 - i < fuel) :
    v.gridFrom fuel i = .ok
      ((List.range ((min (v.y + v.h) wallHeight - i).toNat * columns v.x v.w)).map
        fun k => tileName (x + k % columns v.x v.w) (i + k / columns v.x v.w)) := by
  induction fuel generalizing i with
  | zero => omega
  | succ fuel ih =>
    rw [gridFrom, CInt.add_ok hh, ok_bind]
    by_cases hinside : (i : ℤ) < v.y + v.h ∧ (i : ℤ) < wallHeight
    · rw [if_pos hinside]
      rw [wallHeight] at hinside
      have hfuel' : 7 - x < (wallWidth - v.x).toNat + 1 := by
        rw [wallWidth]
        omega
      have hrow := rowFrom_eq hw (i := i) (by omega) hfuel'
      have hrest := ih (i := i + 1) (by omega)
      rw [← hx, ← columns] at hrow
      push_cast at hrest
      have hcount : (min (v.y + v.h) wallHeight - (i : ℤ)).toNat =
          (min (v.y + v.h) wallHeight - ((i : ℤ) + 1)).toNat + 1 := by
        rw [wallHeight]
        omega
      rw [hrow, ok_bind, hrest, ok_bind, hcount, Nat.succ_mul,
        Nat.add_comm _ (columns v.x v.w), List.range_add, List.map_append, List.map_map]
      refine congrArg Except.ok (congrArg₂ (· ++ ·) ?_ ?_) <;> refine List.map_congr_left ?_
      · intro k hk
        have hk' := List.mem_range.mp hk
        rw [Nat.mod_eq_of_lt hk', Nat.div_eq_of_lt hk', Nat.add_zero]
      · intro k hk
        have hpos : 0 < columns v.x v.w :=
          Nat.pos_of_mul_pos_left (Nat.zero_lt_of_lt (List.mem_range.mp hk))
        rw [Function.comp_apply, Nat.add_mod_left, Nat.add_div_left k hpos, Nat.add_assoc i 1,
          Nat.add_comm 1]
    · have hcount : (min (v.y + v.h) wallHeight - (i : ℤ)).toNat = 0 := by omega
      rw [if_neg hinside, hcount, Nat.zero_mul]
      rfl

end WallView

namespace WallGrid

/-- The grid at column `x` and row `y` of the wall -/
def listed (x y : ℕ) (w h : ℤ) : WallGrid :=
  { x, y, w, h
    grid := (List.range (rows y h * columns x w)).map
      fun k => tileName (x + k % columns x w) (y + k / columns x w) }

variable {x y c r : ℕ} {w h : ℤ}

/-- **The constructor** -/
theorem new_eq (hx : x < 7) (hw : CInt.InRange (x + w)) (hh : CInt.InRange (y + h)) :
    new x y w h = .ok (listed x y w h) := by
  have hfuel : 4 - y < (wallHeight - y).toNat + 1 := by
    rw [wallHeight]
    omega
  have hgrid := WallView.gridFrom_eq (v := { x, y, w, h }) rfl hx hw hh hfuel
  rw [new, hgrid, ok_bind]
  rfl

/-- Tiles of the grid are on the wall. -/
theorem onWall (hc : c < columns x w) (hr : r < rows y h) : x + c < 7 ∧ y + r < 4 := by
  rw [columns, wallWidth] at hc
  rw [rows, wallHeight] at hr
  omega

/-- **The index** of a tile counts the tiles that are listed before it. -/
theorem getIndex_listed (hc : c < columns x w) (hr : r < rows y h) {hostname : String}
    (hname : hostname.toList.take 8 = (tileName (x + c) (y + r)).toList) :
    (listed x y w h).getIndex hostname = (r * columns x w + c : ℕ) := by
  have hpos : 0 < columns x w := Nat.zero_lt_of_lt hc
  have hmod : (r * columns x w + c) % columns x w = c := by
    rw [Nat.mul_add_mod', Nat.mod_eq_of_lt hc]
  have hdiv : (r * columns x w + c) / columns x w = r := by
    rw [Nat.add_comm, Nat.add_mul_div_right c r hpos, Nat.div_eq_of_lt hc, Nat.zero_add]
  have hlt : r * columns x w + c < rows y h * columns x w := by
    calc r * columns x w + c < r * columns x w + columns x w := Nat.add_lt_add_left hc _
      _ = (r + 1) * columns x w := (Nat.succ_mul _ _).symm
      _ ≤ rows y h * columns x w := Nat.mul_le_mul_right _ hr
  have hfind : ((listed x y w h).grid.findIdx? fun name =>
      name.toList.take 8 == hostname.toList.take 8) = some (r * columns x w + c) := by
    rw [List.findIdx?_eq_some_iff_getElem]
    refine ⟨by rw [listed, List.length_map, List.length_range]; exact hlt, ?_, ?_⟩
    · simp only [listed, List.getElem_map, List.getElem_range, hmod, hdiv, hname]
      obtain ⟨hi, hj⟩ := onWall hc hr
      rw [take_tileName _ hi _ hj, beq_self_eq_true]
    · intro k hk
      simp only [listed, List.getElem_map, List.getElem_range, hname]
      intro heq
      have hk' : k < rows y h * columns x w := hk.trans hlt
      obtain ⟨hi, hj⟩ := onWall (Nat.mod_lt k hpos) (Nat.div_lt_of_lt_mul
        (by rwa [Nat.mul_comm] at hk') : k / columns x w < rows y h)
      rw [take_tileName _ hi _ hj, beq_iff_eq] at heq
      obtain ⟨hi', hj'⟩ := onWall hc hr
      obtain ⟨hcol, hrow⟩ := tileName_inj hi hj hi' hj' heq
      have hparts := Nat.div_add_mod k (columns x w)
      rw [Nat.add_left_cancel hcol, Nat.add_left_cancel hrow, Nat.mul_comm] at hparts
      omega
  rw [getIndex, hfind]

/-! ## What the areas are -/

/-- `GetDisplayArea` returns if the size of the whole grid in pixels is one. -/
theorem inRange_of_getDisplayArea {g : WallGrid} {hostname : String} {a : DisplayArea}
    (h : g.getDisplayArea hostname = .ok a) :
    CInt.InRange (1024 * g.w) ∧ CInt.InRange (768 * g.h) := by
  rw [getDisplayArea] at h
  refine ⟨?_, ?_⟩
  · by_contra hover
    rw [CInt.mul_overflow hover, error_bind] at h
    cases h
  · by_contra hover
    obtain ⟨_, -, h⟩ := bind_eq_ok h
    rw [CInt.mul_overflow hover, error_bind] at h
    cases h

variable {w' h' : ℕ}

/-- **The area** of a tile, from its index. -/
theorem getDisplayArea_listed (hw : CInt.InRange (1024 * w')) (hh : CInt.InRange (768 * h'))
    (hc : c < columns x w') (hr : r < rows y h') {hostname : String}
    (hname : hostname.toList.take 8 = (tileName (x + c) (y + r)).toList) :
    (listed x y w' h').getDisplayArea hostname = .ok
      { x := Binary64.mul (Binary64.div ((r * columns x w' + c) % w' : ℕ) w') (1024 * w')
        y := Binary64.mul (Binary64.div ((r * columns x w' + c) / w' : ℕ) h') (768 * h')
        width := tileScreenWidth
        height := tileScreenHeight } := by
  have hindex := getIndex_listed hc hr hname
  have hsize : ((1024 * w' : ℤ) : ℚ) = 1024 * w' ∧ ((768 * h' : ℤ) : ℚ) = 768 * h' := by
    constructor <;> push_cast <;> rfl
  rw [getDisplayArea, hindex, show (listed x y w' h').w = w' from rfl,
    show (listed x y w' h').h = h' from rfl, CInt.mul_ok hw, CInt.mul_ok hh, ok_bind, ok_bind,
    hsize.1, hsize.2]
  rfl

/-- **The column and the row** come out of the index, if the grid is not cut off on the right
or has just one row. -/
theorem index_of_rectangle (hrectangle : columns x w' = w' ∨ rows y h' = 1)
    (hc : c < columns x w') (hr : r < rows y h') :
    (r * columns x w' + c) % w' = c ∧ (r * columns x w' + c) / w' = r := by
  rcases hrectangle with hcolumns | hone
  · rw [hcolumns] at hc ⊢
    rw [Nat.mul_add_mod', Nat.mod_eq_of_lt hc, Nat.add_comm,
      Nat.add_mul_div_right c r (Nat.zero_lt_of_lt hc), Nat.div_eq_of_lt hc, Nat.zero_add]
    exact ⟨rfl, rfl⟩
  · have hle : columns x w' ≤ w' := by
      rw [columns]
      omega
    obtain rfl : r = 0 := by omega
    rw [Nat.zero_mul, Nat.zero_add]
    exact ⟨Nat.mod_eq_of_lt (hc.trans_le hle), Nat.div_eq_of_lt (hc.trans_le hle)⟩

/-- A grid is not cut off on the right if all its columns are on the wall. -/
theorem columns_eq_iff (hx : x < 7) : columns x w' = w' ↔ (x + w' : ℤ) ≤ wallWidth := by
  rw [columns, wallWidth]
  omega

/-- The tiles of the grid -/
theorem contains_listed_iff {i j : ℕ} : (listed x y w h).Contains i j ↔
    ∃ c < columns x w, ∃ r < rows y h, i = x + c ∧ j = y + r := by
  have hunfold : (listed x y w h).Contains i j ↔
      ((x : ℤ) ≤ i ∧ (i : ℤ) < x + w ∧ (i : ℤ) < 7) ∧
        (y : ℤ) ≤ j ∧ (j : ℤ) < y + h ∧ (j : ℤ) < 4 := Iff.rfl
  rw [hunfold, columns, rows, wallWidth, wallHeight]
  refine ⟨?_, ?_⟩
  · rintro ⟨hi, hj⟩
    exact ⟨i - x, by omega, j - y, by omega, by omega, by omega⟩
  · rintro ⟨c, hc, r, hr, rfl, rfl⟩
    omega

theorem cast_offset (x c : ℕ) : ((x + c : ℕ) : ℚ) - ((x : ℤ) : ℚ) = c := by
  push_cast
  ring

/-- Columns are counted from the first of the grid, -/
theorem listed_x_offset : ((x + c : ℕ) : ℚ) - ((listed x y w h).x : ℚ) = c := cast_offset x c

/-- and rows too. -/
theorem listed_y_offset : ((y + r : ℕ) : ℚ) - ((listed x y w h).y : ℚ) = r := cast_offset y r

/-- A grid that meets the condition has the right areas. -/
theorem areasRight_listed (hx : x < 7) (hfits : Fits x y w' h') :
    (listed x y w' h').AreasRight := by
  intro i j hcontains hostname hname
  obtain ⟨c, hc, r, hr, rfl, rfl⟩ := contains_listed_iff.mp hcontains
  rw [getDisplayArea_listed hfits.width hfits.height hc hr hname]
  have hrectangle := hfits.rectangle.imp_left (columns_eq_iff hx).mpr
  have hposition := index_of_rectangle hrectangle hc hr
  have hcolumn := hfits.column c hc
  have hrow := hfits.row r hr
  rw [ComesBack] at hcolumn hrow
  push_cast at hcolumn hrow
  rw [hposition.1, hposition.2, hcolumn, hrow, tileScreenWidth, tileScreenHeight,
    listed_x_offset, listed_y_offset]

/-! ## Points -/

/-- The strips of one size that begin at 0 tile what is not negative. -/
theorem strip_iff {size t : ℚ} (hsize : 0 < size) (k : ℕ) :
    k * size ≤ t ∧ t < k * size + size ↔ 0 ≤ t ∧ ⌊t / size⌋₊ = k := by
  have hfloor : ∀ ht : 0 ≤ t, ⌊t / size⌋₊ = k ↔ k * size ≤ t ∧ t < k * size + size := by
    intro ht
    rw [Nat.floor_eq_iff (div_nonneg ht hsize.le), le_div_iff₀ hsize, div_lt_iff₀ hsize,
      add_one_mul]
  refine ⟨fun hstrip => ?_, ?_⟩
  · have ht : 0 ≤ t := (mul_nonneg k.cast_nonneg hsize.le).trans hstrip.1
    exact ⟨ht, (hfloor ht).mpr hstrip⟩
  · rintro ⟨ht, hk⟩
    exact (hfloor ht).mp hk

/-- A point belongs to one of the first `n` strips. -/
theorem exists_strip_iff {size t : ℚ} (hsize : 0 < size) (n : ℕ) :
    (∃ k < n, k * size ≤ t ∧ t < k * size + size) ↔ 0 ≤ t ∧ t < n * size := by
  have hlt : ∀ ht : 0 ≤ t, ⌊t / size⌋₊ < n ↔ t < n * size := by
    intro ht
    rw [Nat.floor_lt (div_nonneg ht hsize.le), div_lt_iff₀ hsize]
  refine ⟨?_, ?_⟩
  · rintro ⟨k, hk, hstrip⟩
    obtain ⟨ht, rfl⟩ := (strip_iff hsize k).mp hstrip
    exact ⟨ht, (hlt ht).mp hk⟩
  · rintro ⟨ht, hn⟩
    exact ⟨_, (hlt ht).mpr hn, (strip_iff hsize _).mpr ⟨ht, rfl⟩⟩

/-- What a tile shows, where the areas are right. -/
theorem shows_iff (hright : (listed x y w h).AreasRight) {i j : ℕ} {p : WVPoint2d} :
    (listed x y w h).Shows i j p ↔
      ∃ c < columns x w, ∃ r < rows y h, (i = x + c ∧ j = y + r) ∧
        ((c : ℚ) * 1024 ≤ p.x ∧ p.x < c * 1024 + 1024) ∧
          (r : ℚ) * 768 ≤ p.y ∧ p.y < r * 768 + 768 := by
  have harea : ∀ c < columns x w, ∀ r < rows y h,
      (listed x y w h).getDisplayArea (tileName (x + c) (y + r)) =
        .ok { x := c * 1024, y := r * 768, width := 1024, height := 768 } := by
    intro c hc r hr
    obtain ⟨hi, hj⟩ := onWall hc hr
    rw [hright _ _ (contains_listed_iff.mpr ⟨c, hc, r, hr, rfl, rfl⟩) _ (take_tileName _ hi _ hj),
      listed_x_offset, listed_y_offset]
  rw [Shows, contains_listed_iff]
  refine ⟨?_, ?_⟩
  · rintro ⟨⟨c, hc, r, hr, rfl, rfl⟩, a, hok, hcovers⟩
    rw [harea c hc r hr] at hok
    obtain rfl := Except.ok.inj hok
    exact ⟨c, hc, r, hr, ⟨rfl, rfl⟩, hcovers⟩
  · rintro ⟨c, hc, r, hr, ⟨rfl, rfl⟩, hcovers⟩
    exact ⟨⟨c, hc, r, hr, rfl, rfl⟩, _, harea c hc r hr, hcovers⟩

/-- Right areas are disjoint, -/
theorem areasDisjoint_listed (hright : (listed x y w h).AreasRight) :
    (listed x y w h).AreasDisjoint := by
  intro p i j i' j' hshows hshows'
  obtain ⟨c, -, r, -, ⟨rfl, rfl⟩, hx, hy⟩ := (shows_iff hright).mp hshows
  obtain ⟨c', -, r', -, ⟨rfl, rfl⟩, hx', hy'⟩ := (shows_iff hright).mp hshows'
  rw [strip_iff (by norm_num)] at hx hy hx' hy'
  exact ⟨congrArg (x + ·) (hx.2.symm.trans hx'.2), congrArg (y + ·) (hy.2.symm.trans hy'.2)⟩

/-- and fill the grid. -/
theorem areasFill_listed (hright : (listed x y w h).AreasRight) : (listed x y w h).AreasFill := by
  intro p
  rw [← exists_strip_iff (by norm_num), ← exists_strip_iff (by norm_num)]
  refine ⟨?_, ?_⟩
  · rintro ⟨i, j, hshows⟩
    obtain ⟨c, hc, r, hr, -, hx, hy⟩ := (shows_iff hright).mp hshows
    exact ⟨⟨c, hc, hx⟩, r, hr, hy⟩
  · rintro ⟨⟨c, hc, hx⟩, r, hr, hy⟩
    exact ⟨_, _, (shows_iff hright).mpr ⟨c, hc, r, hr, ⟨rfl, rfl⟩, hx, hy⟩⟩

/-! ## All grids -/

/-- There is no overflow in the constructor, if there is none later. -/
theorem inRange_of_size (hx : x < 7) (hy : y < 4) (hw : CInt.InRange (1024 * w'))
    (hh : CInt.InRange (768 * h')) : CInt.InRange (x + w') ∧ CInt.InRange (y + h') := by
  rw [CInt.InRange] at *
  rw [CInt.InRange]
  omega

/-- A grid that meets the condition is tiled. -/
theorem tilesGrid_of_fits (hx : x < 7) (hy : y < 4) (hfits : Fits x y w' h') :
    TilesGrid x y w' h' := by
  obtain ⟨hw, hh⟩ := inRange_of_size hx hy hfits.width hfits.height
  have hright := areasRight_listed hx hfits
  exact ⟨_, new_eq hx hw hh, hright, areasDisjoint_listed hright, areasFill_listed hright⟩

/-- The constructor keeps its arguments. -/
theorem view_of_new {x y w h : ℤ} {g : WallGrid} (hnew : new x y w h = .ok g) :
    g.toWallView = { x, y, w, h } := by
  obtain ⟨grid, -, hok⟩ := bind_eq_ok hnew
  rw [← Except.ok.inj hok]

/-- A grid whose areas are right meets the condition. -/
theorem fits_of_areasRight (hx : x < 7) (hy : y < 4) (hw : 1 ≤ w') (hh : 1 ≤ h') {g : WallGrid}
    (hnew : new x y w' h' = .ok g) (hright : g.AreasRight) : Fits x y w' h' := by
  have hview := view_of_new hnew
  have hfirst : g.Contains x y := by
    rw [Contains, hview, wallWidth, wallHeight]
    dsimp only
    omega
  obtain ⟨hwidth, hheight⟩ :=
    inRange_of_getDisplayArea (hright x y hfirst _ (take_tileName _ hx _ hy))
  rw [hview] at hwidth hheight
  obtain ⟨hw', hh'⟩ := inRange_of_size hx hy hwidth hheight
  obtain rfl : listed x y w' h' = g := Except.ok.inj ((new_eq hx hw' hh').symm.trans hnew)
  have hcolumns : 0 < columns x w' ∧ columns x w' ≤ w' := by
    rw [columns, wallWidth]
    omega
  have hrows : 0 < rows y h' := by
    rw [rows, wallHeight]
    omega
  have hplace : ∀ c < columns x w', ∀ r < rows y h',
      Binary64.mul (Binary64.div ((r * columns x w' + c) % w' : ℕ) w') (1024 * w') = c * 1024 ∧
        Binary64.mul (Binary64.div ((r * columns x w' + c) / w' : ℕ) h') (768 * h') = r * 768 := by
    intro c hc r hr
    obtain ⟨hi, hj⟩ := onWall hc hr
    have hname := take_tileName _ hi _ hj
    have harea := hright _ _ (contains_listed_iff.mpr ⟨c, hc, r, hr, rfl, rfl⟩) _ hname
    rw [getDisplayArea_listed hwidth hheight hc hr hname, listed_x_offset, listed_y_offset] at harea
    obtain ⟨hx, hy, -⟩ := DisplayArea.mk.inj (Except.ok.inj harea)
    exact ⟨hx, hy⟩
  have hrectangle : columns x w' = w' ∨ rows y h' = 1 := by
    by_contra hcut
    rw [not_or] at hcut
    -- the first tile of the second row gets a column after the last
    have hzero := (hplace 0 hcolumns.1 1 (by omega)).1
    rw [Nat.one_mul, Nat.add_zero, Nat.mod_eq_of_lt (by omega), Nat.cast_zero, zero_mul] at hzero
    have hpos : (0 : ℚ) < columns x w' ∧ (0 : ℚ) < w' :=
      ⟨Nat.cast_pos.mpr hcolumns.1, Nat.cast_pos.mpr hw⟩
    have hlt := Binary64.zero_lt_mul (Binary64.zero_lt_div hpos.1 hpos.2)
      (mul_pos (by norm_num : (0 : ℚ) < 1024) hpos.2)
    exact hlt.ne' hzero
  refine ⟨hwidth, hheight, hrectangle.imp_left (columns_eq_iff hx).mp, ?_, ?_⟩
  · intro c hc
    have hback := (hplace c hc 0 hrows).1
    rw [Nat.zero_mul, Nat.zero_add, Nat.mod_eq_of_lt (by omega)] at hback
    rw [ComesBack]
    push_cast
    exact hback
  · intro r hr
    have hback := (hplace 0 hcolumns.1 r hr).2
    rw [(index_of_rectangle hrectangle hcolumns.1 hr).2] at hback
    rw [ComesBack]
    push_cast
    exact hback

end WallGrid

/-- **The display areas** of the tiles tile the grid if and only if the grid is not cut off on
the right, or has just one row on the wall, and numbers are neither too large nor lost by
rounding. -/
theorem tilesGrid_iff {x y w h : ℤ} (hx : 0 ≤ x) (hx' : x < 7) (hy : 0 ≤ y) (hy' : y < 4)
    (hw : 1 ≤ w) (hh : 1 ≤ h) : TilesGrid x y w h ↔ Fits x y w h := by
  obtain ⟨x, rfl⟩ := Int.eq_ofNat_of_zero_le hx
  obtain ⟨y, rfl⟩ := Int.eq_ofNat_of_zero_le hy
  obtain ⟨w, rfl⟩ := Int.eq_ofNat_of_zero_le (by omega : 0 ≤ w)
  obtain ⟨h, rfl⟩ := Int.eq_ofNat_of_zero_le (by omega : 0 ≤ h)
  refine ⟨?_, ?_⟩
  · rintro ⟨g, hnew, hright, -, -⟩
    exact WallGrid.fits_of_areasRight (by omega) (by omega) (by omega) (by omega) hnew hright
  · exact WallGrid.tilesGrid_of_fits (by omega) (by omega)

/-- Two rows of three columns, in the middle of the wall. -/
theorem tilesGrid_three_two : TilesGrid 2 1 3 2 :=
  (tilesGrid_iff (by decide) (by decide) (by decide) (by decide) (by decide) (by decide)).mpr
    { width := by decide
      height := by decide
      rectangle := .inl (by decide)
      column := by decide +kernel
      row := by decide +kernel }

/-- Two rows of eight columns, one of them beyond the wall: the first tile of the second row is
drawn to the right of the wall. -/
theorem not_tilesGrid_eight_two :
    (do (← WallGrid.new 0 0 8 2).getDisplayArea "tile-0-1") =
        .ok { x := 7168, y := 0, width := 1024, height := 768 } ∧
      ¬TilesGrid 0 0 8 2 := by
  refine ⟨by decide +kernel, ?_⟩
  rintro ⟨g, hnew, hright, -, -⟩
  have hfits : Fits (0 : ℕ) (0 : ℕ) (8 : ℕ) (2 : ℕ) :=
    WallGrid.fits_of_areasRight (by decide) (by decide) (by decide) (by decide) hnew hright
  exact absurd hfits.rectangle (by decide)

/-- Grids that are on the wall are tiled. -/
theorem tilesGrid_of_onWall {x y w h : ℕ} (hx : x < 7) (hy : y < 4) (hcut : x + w ≤ 7)
    (hcut' : y + h ≤ 4) : TilesGrid x y w h := by
  have hback : ∀ w ≤ 7, ∀ c < w, ComesBack 1024 (w : ℕ) c := by decide +kernel
  have hback' : ∀ h ≤ 4, ∀ r < h, ComesBack 768 (h : ℕ) r := by decide +kernel
  refine WallGrid.tilesGrid_of_fits hx hy ⟨?_, ?_, ?_, fun c hc => ?_, fun r hr => ?_⟩
  · rw [CInt.InRange]
    omega
  · rw [CInt.InRange]
    omega
  · rw [wallWidth]
    omega
  · rw [columns] at hc
    exact hback w (by omega) c (by omega)
  · rw [rows] at hr
    exact hback' h (by omega) r (by omega)

end WallMon
