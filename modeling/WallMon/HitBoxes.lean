import WallMon.Touches
import Mathlib.Algebra.Order.Field.Rat
import Mathlib.Data.Set.Prod
import Mathlib.Tactic.FieldSimp
import Mathlib.Tactic.Linarith
import Mathlib.Tactic.Ring

/-!
# Touching shapes and drawing them

A scene shows its entities in coordinates of its own: what is drawn is moved to the origin of
the scene and scaled, and a touch is turned back. The two are inverse to each other. The shapes
that an entity may have all reach from one corner of a box to the other.

A shape may be drawn around the position of its entity (`centerShape`), but a touch is always
looked for to the right of the position and above it. The two boxes overlap by a quarter.
-/

namespace WallMon

/-! ## Bounding boxes -/

/-- The point lies in the bounding box of some points. -/
structure InBoundingBox (points : List WVPoint2d) (p : WVPoint2d) : Prop where
  /-- not left of all of them -/
  left : ∃ a ∈ points, a.x ≤ p.x
  /-- not right of all of them -/
  right : ∃ a ∈ points, p.x ≤ a.x
  /-- not below all of them -/
  bottom : ∃ a ∈ points, a.y ≤ p.y
  /-- not above all of them -/
  top : ∃ a ∈ points, p.y ≤ a.y

/-- The point lies in the box with the corner `(x, y)`. -/
def InBox (x y width height : ℚ) (p : WVPoint2d) : Prop :=
  (x ≤ p.x ∧ p.x ≤ x + width) ∧ y ≤ p.y ∧ p.y ≤ y + height

/-- The points lie in the box and touch its sides. -/
structure Spans (points : List WVPoint2d) (x y width height : ℚ) : Prop where
  /-- no point lies outside -/
  inBox : ∀ a ∈ points, InBox x y width height a
  /-- one lies on the left -/
  left : ∃ a ∈ points, a.x = x
  /-- one lies on the right -/
  right : ∃ a ∈ points, a.x = x + width
  /-- one lies on the bottom -/
  bottom : ∃ a ∈ points, a.y = y
  /-- one lies on the top -/
  top : ∃ a ∈ points, a.y = y + height

/-- The box that points span is their bounding box. -/
theorem Spans.inBoundingBox_iff {points : List WVPoint2d} {x y width height : ℚ}
    (h : Spans points x y width height) (p : WVPoint2d) :
    InBoundingBox points p ↔ InBox x y width height p := by
  refine ⟨?_, ?_⟩
  · rintro ⟨⟨a, ha, hax⟩, ⟨b, hb, hbx⟩, ⟨c, hc, hcy⟩, ⟨d, hd, hdy⟩⟩
    exact ⟨⟨(h.inBox a ha).1.1.trans hax, hbx.trans (h.inBox b hb).1.2⟩,
      (h.inBox c hc).2.1.trans hcy, hdy.trans (h.inBox d hd).2.2⟩
  · rintro ⟨⟨hleft, hright⟩, hbottom, htop⟩
    obtain ⟨a, ha, hax⟩ := h.left
    obtain ⟨b, hb, hbx⟩ := h.right
    obtain ⟨c, hc, hcy⟩ := h.bottom
    obtain ⟨d, hd, hdy⟩ := h.top
    exact ⟨⟨a, ha, hax.le.trans hleft⟩, ⟨b, hb, hright.trans hbx.ge⟩,
      ⟨c, hc, hcy.le.trans hbottom⟩, ⟨d, hd, htop.trans hdy.ge⟩⟩

/-! ## Drawing -/

/-- `Shape` -/
inductive Shape where
  /-- `QUAD` -/
  | quad
  /-- `DIAMOND` -/
  | diamond
  /-- `TRIANGLE_UP` -/
  | triangleUp
  /-- `TRIANGLE_DOWN` -/
  | triangleDown
  /-- `TRIANGLE_LEFT` -/
  | triangleLeft
  /-- `TRIANGLE_RIGHT` -/
  | triangleRight
  /-- `POLYGON` -/
  | polygon
  deriving DecidableEq

/-- An `EntityShape`, and where it is. -/
structure EntityShape (E : Type) extends EntityArea E where
  /-- `entityShape` -/
  entityShape : Shape
  /-- `centerShape` -/
  centerShape : Bool

/-- The vertices of a shape from the corner `(x, y)` on -/
def Shape.vertices (x y width height : ℚ) : Shape → List WVPoint2d
  | .quad => [⟨x, y⟩, ⟨x + width, y⟩, ⟨x + width, y + height⟩, ⟨x, y + height⟩]
  | .diamond =>
    [⟨x, y + height / 2⟩, ⟨x + width / 2, y⟩, ⟨x + width, y + height / 2⟩,
      ⟨x + width / 2, y + height⟩]
  | .triangleUp => [⟨x, y⟩, ⟨x + width, y⟩, ⟨x + width / 2, y + height⟩]
  | .triangleDown => [⟨x + width / 2, y⟩, ⟨x + width, y + height⟩, ⟨x, y + height⟩]
  | .triangleLeft => [⟨x, y + height / 2⟩, ⟨x + width, y⟩, ⟨x + width, y + height⟩]
  | .triangleRight => [⟨x, y⟩, ⟨x + width, y + height / 2⟩, ⟨x, y + height⟩]
  | .polygon =>
    [⟨x, y + height / 4⟩, ⟨x + width / 4, y⟩, ⟨x + width - width / 4, y⟩,
      ⟨x + width, y + height / 4⟩, ⟨x + width, y + height - height / 4⟩,
      ⟨x + width - width / 4, y + height⟩, ⟨x + width / 4, y + height⟩,
      ⟨x, y + height - height / 4⟩]

/-- `EntityShape::DrawEntityShape`: the vertices that it draws -/
def EntityShape.drawEntityShape {E : Type} (e : EntityShape E) : List WVPoint2d :=
  if e.centerShape then
    e.entityShape.vertices (e.tx - e.width / 2) (e.ty - e.height / 2) e.width e.height
  else
    e.entityShape.vertices e.tx e.ty e.width e.height

namespace SceneArea

/-- `Scene::Scene` -/
def new (x y w h virtualW virtualH : ℚ) : SceneArea :=
  { x, y, w, h, scale := min (w / virtualW) (h / virtualH) }

/-- `Scene::LoadVirtual`: where a vertex comes to lie -/
def loadVirtual (s : SceneArea) (v : WVPoint2d) : WVPoint2d :=
  { x := s.x + s.scale * v.x, y := s.y + s.scale * v.y }

end SceneArea

/-- **Touching and drawing agree**: within the scene, an entity is hit where it is drawn, if
nothing is rounded. -/
def HitBoxLaw {E : Type} (s : SceneArea) (e : EntityShape E) : Prop :=
  ∀ p, s.isSceneHit id p = true →
    (e.isHit id (s.realToVirtualCoords id p) = true ↔
      InBoundingBox (e.drawEntityShape.map s.loadVirtual) p)

/-! ## The box of a shape -/

/-- Each shape spans its box. -/
theorem Shape.spans_vertices (shape : Shape) (x y : ℚ) {width height : ℚ} (hwidth : 0 ≤ width)
    (hheight : 0 ≤ height) : Spans (shape.vertices x y width height) x y width height := by
  constructor
  · cases shape <;>
      simp only [vertices, List.forall_mem_cons, InBox, List.not_mem_nil, false_implies,
        implies_true, and_true] <;>
      split_ands <;> linarith
  all_goals cases shape <;> simp [vertices]

namespace SceneArea

variable (s : SceneArea)

/-- A scene with a positive scale draws where it looks for touches. -/
theorem loadVirtual_realToVirtualCoords (hscale : 0 < s.scale) (p : WVPoint2d) :
    s.loadVirtual (s.realToVirtualCoords id p) = p := by
  have hne := hscale.ne'
  obtain ⟨x, y⟩ := p
  simp only [loadVirtual, realToVirtualCoords, id_eq]
  congr 1 <;> field_simp <;> ring

theorem loadVirtual_x_le (hscale : 0 < s.scale) (v v' : WVPoint2d) :
    (s.loadVirtual v).x ≤ (s.loadVirtual v').x ↔ v.x ≤ v'.x := by
  rw [loadVirtual, loadVirtual, add_le_add_iff_left, mul_le_mul_iff_right₀ hscale]

theorem loadVirtual_y_le (hscale : 0 < s.scale) (v v' : WVPoint2d) :
    (s.loadVirtual v).y ≤ (s.loadVirtual v').y ↔ v.y ≤ v'.y := by
  rw [loadVirtual, loadVirtual, add_le_add_iff_left, mul_le_mul_iff_right₀ hscale]

/-- The bounding box is drawn with the points. -/
theorem inBoundingBox_loadVirtual_iff (hscale : 0 < s.scale) (points : List WVPoint2d)
    (v : WVPoint2d) :
    InBoundingBox (points.map s.loadVirtual) (s.loadVirtual v) ↔ InBoundingBox points v := by
  have hx := s.loadVirtual_x_le hscale
  have hy := s.loadVirtual_y_le hscale
  have hmap : ∀ P : WVPoint2d → Prop,
      (∃ a ∈ points.map s.loadVirtual, P a) ↔ ∃ a ∈ points, P (s.loadVirtual a) := by simp
  refine ⟨?_, ?_⟩
  · rintro ⟨hleft, hright, hbottom, htop⟩
    simp only [hmap, hx, hy] at hleft hright hbottom htop
    exact ⟨hleft, hright, hbottom, htop⟩
  · rintro ⟨hleft, hright, hbottom, htop⟩
    constructor <;> simpa only [hmap, hx, hy]

/-- The scene in coordinates of its own -/
theorem isSceneHit_loadVirtual_iff (hscale : 0 < s.scale) (v : WVPoint2d) :
    s.isSceneHit id (s.loadVirtual v) = true ↔
      v.x ∈ Set.Icc 0 (s.w / s.scale) ∧ v.y ∈ Set.Icc 0 (s.h / s.scale) := by
  rw [isSceneHit, decide_eq_true_eq, loadVirtual, Set.mem_Icc, Set.mem_Icc,
    le_div_iff₀' hscale, le_div_iff₀' hscale]
  simp only [id_eq, ge_iff_le, le_add_iff_nonneg_right, mul_nonneg_iff_of_pos_left hscale,
    add_le_add_iff_left, and_assoc]

theorem realToVirtualCoords_loadVirtual (hscale : 0 < s.scale) (v : WVPoint2d) :
    s.realToVirtualCoords id (s.loadVirtual v) = v := by
  have hne := hscale.ne'
  obtain ⟨x, y⟩ := v
  simp only [loadVirtual, realToVirtualCoords, id_eq]
  congr 1 <;> field_simp <;> ring

end SceneArea

/-! ## Where two boxes agree -/

/-- Boxes agree within a box if their sides do, or if neither reaches into it. -/
theorem prod_agree_iff {α β : Type} {X P P' : Set α} {Y Q Q' : Set β} :
    (∀ x ∈ X, ∀ y ∈ Y, (x ∈ P ∧ y ∈ Q ↔ x ∈ P' ∧ y ∈ Q')) ↔
      (X ∩ P = X ∩ P' ∧ Y ∩ Q = Y ∩ Q') ∨
        (X ∩ P = ∅ ∨ Y ∩ Q = ∅) ∧ (X ∩ P' = ∅ ∨ Y ∩ Q' = ∅) := by
  have hmem : ∀ x y, ((x, y) ∈ (X ∩ P) ×ˢ (Y ∩ Q) ↔ (x, y) ∈ (X ∩ P') ×ˢ (Y ∩ Q')) ↔
      (x ∈ X → y ∈ Y → (x ∈ P ∧ y ∈ Q ↔ x ∈ P' ∧ y ∈ Q')) := by
    intro x y
    simp only [Set.mem_prod, Set.mem_inter_iff]
    tauto
  rw [← Set.prod_eq_prod_iff, Set.ext_iff, Prod.forall]
  simp only [hmem]
  exact ⟨fun h x y hx hy => h x hx y hy, fun h x hx y hy => h x y hx hy⟩

/-- A side of a box is out of sight. -/
def OutOfSight (length lo size : ℚ) : Prop := length < 0 ∨ lo + size < 0 ∨ length < lo

/-- On an axis that is seen from 0 to `length`, it makes no difference whether the side of a box
starts at `t` or is around it. -/
def ShowsAlike (length t size : ℚ) : Prop :=
  length < 0 ∨ size = 0 ∨ (t ≤ 0 ∧ length ≤ t + size / 2) ∨ t + size < 0 ∨ length < t - size / 2

theorem outOfSight_iff {length lo size : ℚ} (hsize : 0 ≤ size) :
    Set.Icc 0 length ∩ Set.Icc lo (lo + size) = ∅ ↔ OutOfSight length lo size := by
  have hle : lo ≤ lo + size := le_add_of_nonneg_right hsize
  rw [Set.Icc_inter_Icc, Set.Icc_eq_empty_iff, sup_le_iff, le_inf_iff, le_inf_iff, OutOfSight,
    and_iff_left hle]
  simp only [not_and_or, not_le, or_assoc]

theorem showsAlike_iff {length t size : ℚ} (hsize : 0 ≤ size) :
    Set.Icc 0 length ∩ Set.Icc t (t + size) =
        Set.Icc 0 length ∩ Set.Icc (t - size / 2) (t - size / 2 + size) ↔
      ShowsAlike length t size := by
  simp only [Set.ext_iff, Set.mem_inter_iff, Set.mem_Icc]
  refine ⟨fun h => ?_, ?_⟩
  · by_contra hnot
    simp only [ShowsAlike, not_or, not_and, not_le, not_lt] at hnot
    obtain ⟨hlength, hne, hcovers, hbelow, habove⟩ := hnot
    have hpos : 0 < size := lt_of_le_of_ne hsize (Ne.symm hne)
    rcases le_or_gt t 0 with ht | ht
    · -- the right end of the box from `t` on
      have hend := hcovers ht
      have hin := (h (min (t + size) length)).mp
        ⟨⟨le_min hbelow hlength, min_le_right ..⟩, le_min (by linarith) (by linarith),
          min_le_left ..⟩
      have hmin : t - size / 2 + size < min (t + size) length := lt_min (by linarith) (by linarith)
      exact absurd hin.2.2 (not_le.mpr hmin)
    · -- the left end of the box around `t`
      have hin := (h (max (t - size / 2) 0)).mpr
        ⟨⟨le_max_right .., max_le habove hlength⟩, le_max_left .., max_le (by linarith)
          (by linarith)⟩
      have hmax : max (t - size / 2) 0 < t := max_lt (by linarith) ht
      exact absurd hin.2.1 (not_le.mpr hmax)
  · rintro (hlength | rfl | ⟨hleft, hright⟩ | hbelow | habove) x
    · exact iff_of_false (fun h => by linarith [h.1.1, h.1.2]) fun h => by linarith [h.1.1, h.1.2]
    · simp
    · refine and_congr_right fun hx => iff_of_true ⟨?_, ?_⟩ ⟨?_, ?_⟩ <;> linarith [hx.1, hx.2]
    · exact iff_of_false (fun h => by linarith [h.1.1, h.2.2]) fun h => by linarith [h.1.1, h.2.2]
    · exact iff_of_false (fun h => by linarith [h.1.2, h.2.1]) fun h => by linarith [h.1.2, h.2.1]

/-! ## The law -/

/-- When an entity is hit where it is drawn: its shape starts at its position, or the
difference cannot be seen within the scene, on either axis, or neither box can be seen. -/
def HitWhereDrawn {E : Type} (s : SceneArea) (e : EntityShape E) : Prop :=
  let length := s.w / s.scale
  let length' := s.h / s.scale
  e.centerShape = false ∨
    (ShowsAlike length e.tx e.width ∧ ShowsAlike length' e.ty e.height) ∨
      (OutOfSight length e.tx e.width ∨ OutOfSight length' e.ty e.height) ∧
        (OutOfSight length (e.tx - e.width / 2) e.width ∨
          OutOfSight length' (e.ty - e.height / 2) e.height)

section

variable {E : Type} {s : SceneArea} {e : EntityShape E}

theorem isHit_iff (v : WVPoint2d) :
    e.isHit id v = true ↔ InBox e.tx e.ty e.width e.height v := by
  rw [EntityArea.isHit, decide_eq_true_eq, InBox, and_assoc, id_eq, id_eq]

/-- The law in coordinates of the scene -/
theorem hitBoxLaw_iff_virtual (hscale : 0 < s.scale) :
    HitBoxLaw s e ↔ ∀ v : WVPoint2d, v.x ∈ Set.Icc 0 (s.w / s.scale) →
      v.y ∈ Set.Icc 0 (s.h / s.scale) →
      (InBox e.tx e.ty e.width e.height v ↔ InBoundingBox e.drawEntityShape v) := by
  refine ⟨fun h v hx hy => ?_, fun h p hp => ?_⟩
  · have hv := h (s.loadVirtual v) ((s.isSceneHit_loadVirtual_iff hscale v).mpr ⟨hx, hy⟩)
    rwa [s.realToVirtualCoords_loadVirtual hscale, isHit_iff,
      s.inBoundingBox_loadVirtual_iff hscale] at hv
  · rw [← s.loadVirtual_realToVirtualCoords hscale p] at hp ⊢
    obtain ⟨hx, hy⟩ := (s.isSceneHit_loadVirtual_iff hscale _).mp hp
    rw [s.realToVirtualCoords_loadVirtual hscale, isHit_iff, s.inBoundingBox_loadVirtual_iff hscale]
    exact h _ hx hy

/-- **Where shapes are hit**: exactly where they are drawn, if they start at their position or
it makes no difference. -/
theorem hitBoxLaw_iff (x y w h virtualW virtualH : ℚ) (e : EntityShape E)
    (hscale : 0 < (SceneArea.new x y w h virtualW virtualH).scale) (hwidth : 0 ≤ e.width)
    (hheight : 0 ≤ e.height) :
    HitBoxLaw (.new x y w h virtualW virtualH) e ↔
      HitWhereDrawn (.new x y w h virtualW virtualH) e := by
  generalize SceneArea.new x y w h virtualW virtualH = s at hscale ⊢
  rw [hitBoxLaw_iff_virtual hscale, HitWhereDrawn]
  cases hcenter : e.centerShape with
  | false =>
    have hspans := e.entityShape.spans_vertices e.tx e.ty hwidth hheight
    refine iff_of_true (fun v _ _ => ?_) (.inl rfl)
    rw [EntityShape.drawEntityShape, hcenter]
    exact (hspans.inBoundingBox_iff v).symm
  | true =>
    have hspans := e.entityShape.spans_vertices (e.tx - e.width / 2) (e.ty - e.height / 2) hwidth
      hheight
    have hdrawn : ∀ v, InBoundingBox e.drawEntityShape v ↔
        InBox (e.tx - e.width / 2) (e.ty - e.height / 2) e.width e.height v := by
      intro v
      rw [EntityShape.drawEntityShape, hcenter]
      exact hspans.inBoundingBox_iff v
    rw [or_iff_right (by decide), ← showsAlike_iff hwidth, ← showsAlike_iff hheight,
      ← outOfSight_iff hwidth, ← outOfSight_iff hheight, ← outOfSight_iff hwidth,
      ← outOfSight_iff hheight, ← prod_agree_iff]
    simp only [hdrawn]
    exact ⟨fun h x hx y hy => h ⟨x, y⟩ hx hy, fun h v hx hy => h v.x hx v.y hy⟩

/-- A square in the middle of a scene that is five times as large as its resolution -/
def square (centerShape : Bool) : EntityShape Unit :=
  { entity := (), tx := 50, ty := 50, width := 20, height := 20, entityShape := .quad, centerShape }

/-- A square that starts at its position is hit where it is drawn. -/
theorem hitBoxLaw_square : HitBoxLaw (.new 0 0 1000 500 100 100) (square false) :=
  (hitBoxLaw_iff 0 0 1000 500 100 100 (square false) (by decide +kernel) (by decide +kernel)
    (by decide +kernel)).mpr (.inl rfl)

/-- A square around its position is not hit on its left half. -/
theorem square_missed : ¬HitBoxLaw (.new 0 0 1000 500 100 100) (square true) := by
  intro h
  have hdrawn : InBoundingBox ((square true).drawEntityShape.map
      (SceneArea.new 0 0 1000 500 100 100).loadVirtual) ⟨225, 225⟩ := by
    constructor <;> decide +kernel
  have hhit := (h ⟨225, 225⟩ (by decide +kernel)).mpr hdrawn
  revert hhit
  decide +kernel

end

end WallMon
