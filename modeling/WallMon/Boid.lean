import Mathlib.Tactic.NormNum
import WallMon.Table

/-!
# A boid: `Boid::OnLoop` and `Boid::OnRender`

A boid moves towards the destination that its context says, and leaves a tail of the places
it has been at. Its scene calls `OnLoop` and then `OnRender` once in a frame. A negative
destination hides the boid, and it stays where it is.

The speed is such that the boid arrives after `MAX_FPS` frames. It is computed when the
destination is not the remembered one, and set to 0 on arrival.

Coordinates are rational numbers. What is drawn is left out. A field that the constructor
does not set is given from outside, and so is the length of the tail.
-/

namespace WallMon

/-- `MAX_FPS` -/
def maxFps : ℚ := 35

/-- A boid and what its context says. -/
structure Boid where
  /-- `ctx`, less the destination -/
  ctx : BoidSharedContext
  /-- `ctx->_destx` -/
  destx : ℚ
  /-- `ctx->_desty` -/
  desty : ℚ
  /-- `tx`: where the boid is -/
  tx : ℚ
  /-- `ty` -/
  ty : ℚ
  /-- `width` -/
  width : ℚ
  /-- `height` -/
  height : ℚ
  /-- `speedx` -/
  speedx : ℚ
  /-- `speedy` -/
  speedy : ℚ
  /-- `_oldDestx`: the destination of the last speed -/
  oldDestx : ℚ
  /-- `_oldDesty` -/
  oldDesty : ℚ
  /-- `_tail`: newest first -/
  tail : List (ℚ × ℚ)
  /-- `_isHighlighted` -/
  isHighlighted : Bool
  /-- `_visible` -/
  visible : Bool

namespace Boid

/-- `Boid::Boid`, for a context with a destination; the speed and `_isHighlighted` are not
set there. -/
def new (ctx : BoidSharedContext) (destx desty speedx speedy : ℚ) (isHighlighted : Bool) : Boid :=
  { ctx, destx, desty, tx := 0, ty := 0, width := 2, height := 2, speedx, speedy,
    oldDestx := -1, oldDesty := -1, tail := [], isHighlighted, visible := false }

/-- A call of the context. -/
inductive ContextCall where
  /-- `SetDestination` -/
  | setDestination (x y : ℚ)
  /-- `EnableHighlight` -/
  | enableHighlight (number : ℤ)
  /-- `DisableHighlight` -/
  | disableHighlight

/-- What a call of the context does. -/
def call (b : Boid) : ContextCall → Boid
  | .setDestination x y => { b with destx := x, desty := y }
  | .enableHighlight number => { b with ctx := b.ctx.enableHighlight number }
  | .disableHighlight => { b with ctx := b.ctx.disableHighlight }

/-- A coordinate of a destination, aligned with the axes for a boid of the given extent -/
def align (extent dest : ℚ) : ℚ :=
  let dest := max dest (extent / 2)
  min dest (100 - extent / 2)

/-- `destx` in `OnLoop`, aligned -/
def alignedx (b : Boid) (x : ℚ) : ℚ := align b.width x

/-- `desty` in `OnLoop`, aligned -/
def alignedy (b : Boid) (y : ℚ) : ℚ := align b.height y

/-- `_IsDestinationReached` -/
def IsDestinationReached (b : Boid) (destx desty : ℚ) : Prop :=
  |b.tx - destx| < 1 / 2 ∧ |b.ty - desty| < 1 / 2

instance (b : Boid) (destx desty : ℚ) : Decidable (b.IsDestinationReached destx desty) :=
  inferInstanceAs (Decidable (_ ∧ _))

/-- The part of `OnLoop` that moves a visible boid -/
def move (b : Boid) : Boid :=
  let destx := b.alignedx b.destx
  let desty := b.alignedy b.desty
  if b.IsDestinationReached destx desty then
    { b with speedx := 0, speedy := 0 }
  else
    let b :=
      if destx ≠ b.oldDestx ∨ desty ≠ b.oldDesty then
        let dx := destx - b.tx
        let dy := desty - b.ty
        { b with oldDestx := destx, oldDesty := desty
                 speedx := dx / maxFps, speedy := dy / maxFps }
      else b
    { b with tx := b.tx + b.speedx, ty := b.ty + b.speedy }

/-- The part of `OnLoop` that asks whether the boid is highlighted -/
def resize (b : Boid) : Boid :=
  let isHighlighted := b.ctx.isHighlighted
  let size := if isHighlighted then 4 else 2
  { b with isHighlighted, width := size, height := size }

/-- `_tail` when a visible frame is over: `tailLength` is the local variable, `tail` what was
there, and `place` where the boid is now. -/
def nextTail (tailLength : ℤ) (tail : List (ℚ × ℚ)) (place : ℚ × ℚ) : List (ℚ × ℚ) :=
  if tailLength = 0 then []
  else
    let tail := if (tail.length : ℤ) = tailLength then tail.dropLast else tail
    place :: tail

/-- The part of `OnLoop` that updates the tail -/
def updateTail (tailLength : ℤ) (b : Boid) : Boid :=
  { b with tail := nextTail tailLength b.tail (b.tx, b.ty) }

/-- `Boid::OnLoop`, where `tailLength` is the local variable -/
def onLoop (tailLength : ℤ) (b : Boid) : Boid :=
  if b.destx < 0 ∨ b.desty < 0 then { b with visible := false }
  else updateTail tailLength (resize (move { b with visible := true }))

/-- `Boid::OnRender` -/
def onRender (b : Boid) : Boid :=
  if b.visible = false then b
  else if b.isHighlighted then { b with width := b.width - 2, height := b.height - 2 }
  else b

/-- A frame, as `Scene::Run` goes through it for one of its entities -/
def frame (b : Boid) (tailLength : ℤ) : Boid := (b.onLoop tailLength).onRender

/-- The destination is one to show. -/
def Shown (b : Boid) : Prop := 0 ≤ b.destx ∧ 0 ≤ b.desty

instance (b : Boid) : Decidable b.Shown := inferInstanceAs (Decidable (_ ∧ _))

theorem not_shown (b : Boid) : ¬b.Shown ↔ b.destx < 0 ∨ b.desty < 0 := by
  rw [Shown, not_and_or, not_le, not_le]

/-! ## The parts of a frame -/

/-- A boid at its destination stops. -/
theorem move_of_reached {b : Boid}
    (h : b.IsDestinationReached (b.alignedx b.destx) (b.alignedy b.desty)) :
    b.move = { b with speedx := 0, speedy := 0 } := if_pos h

/-- A boid whose destination is the remembered one goes on. -/
theorem move_of_remembered {b : Boid}
    (h : ¬b.IsDestinationReached (b.alignedx b.destx) (b.alignedy b.desty))
    (hold : b.oldDestx = b.alignedx b.destx ∧ b.oldDesty = b.alignedy b.desty) :
    b.move = { b with tx := b.tx + b.speedx, ty := b.ty + b.speedy } := by
  have hsame : ¬(b.alignedx b.destx ≠ b.oldDestx ∨ b.alignedy b.desty ≠ b.oldDesty) := by
    rw [not_or, not_ne_iff, not_ne_iff]
    exact ⟨hold.1.symm, hold.2.symm⟩
  rw [move]
  simp only [if_neg h, if_neg hsame]

/-- A boid with another destination gets a new speed. -/
theorem move_of_new {b : Boid}
    (h : ¬b.IsDestinationReached (b.alignedx b.destx) (b.alignedy b.desty))
    (hnew : ¬(b.oldDestx = b.alignedx b.destx ∧ b.oldDesty = b.alignedy b.desty)) :
    b.move =
      { b with
        oldDestx := b.alignedx b.destx
        oldDesty := b.alignedy b.desty
        speedx := (b.alignedx b.destx - b.tx) / maxFps
        speedy := (b.alignedy b.desty - b.ty) / maxFps
        tx := b.tx + (b.alignedx b.destx - b.tx) / maxFps
        ty := b.ty + (b.alignedy b.desty - b.ty) / maxFps } := by
  have hother : b.alignedx b.destx ≠ b.oldDestx ∨ b.alignedy b.desty ≠ b.oldDesty := by
    rw [← not_and_or]
    exact fun hsame => hnew ⟨hsame.1.symm, hsame.2.symm⟩
  rw [move]
  simp only [if_neg h, if_pos hother]

/-- Moving changes the place, the speed and the remembered destination. -/
theorem move_changes (b : Boid) : ∃ tx ty speedx speedy oldDestx oldDesty : ℚ,
    b.move = { b with tx, ty, speedx, speedy, oldDestx, oldDesty } := by
  by_cases h : b.IsDestinationReached (b.alignedx b.destx) (b.alignedy b.desty)
  · rw [move_of_reached h]
    exact ⟨_, _, _, _, _, _, rfl⟩
  · by_cases hold : b.oldDestx = b.alignedx b.destx ∧ b.oldDesty = b.alignedy b.desty
    · rw [move_of_remembered h hold]
      exact ⟨_, _, _, _, _, _, rfl⟩
    · rw [move_of_new h hold]
      exact ⟨_, _, _, _, _, _, rfl⟩

/-- A boid moves whether or not it was visible before. -/
theorem move_visible (b : Boid) :
    move { b with visible := true } = { b.move with visible := true } := by
  by_cases h : b.IsDestinationReached (b.alignedx b.destx) (b.alignedy b.desty)
  · rw [move_of_reached h]
    exact move_of_reached (b := { b with visible := true }) h
  · by_cases hold : b.oldDestx = b.alignedx b.destx ∧ b.oldDesty = b.alignedy b.desty
    · rw [move_of_remembered h hold]
      exact move_of_remembered (b := { b with visible := true }) h hold
    · rw [move_of_new h hold]
      exact move_of_new (b := { b with visible := true }) h hold

/-- When a frame is over, a visible boid has the size that it was made with. -/
theorem onRender_resize (b : Boid) (hvisible : b.visible = true) :
    onRender b.resize =
      { b with isHighlighted := b.ctx.isHighlighted, width := 2, height := 2 } := by
  have hnot : ¬b.resize.visible = false := by
    rw [show b.resize.visible = true from hvisible]
    decide
  have hsize : (4 : ℚ) - 2 = 2 := by norm_num
  rw [onRender, if_neg hnot, resize]
  cases b.ctx.isHighlighted with
  | false => rfl
  | true => simp only [if_true, hsize]

/-- **A visible frame** moves the boid and updates its tail. -/
theorem frame_of_shown {b : Boid} (h : b.Shown) (n : ℤ) :
    b.frame n =
      { b.move with
        tail := nextTail n b.tail (b.move.tx, b.move.ty)
        isHighlighted := b.ctx.isHighlighted
        visible := true
        width := 2
        height := 2 } := by
  have hnot : ¬(b.destx < 0 ∨ b.desty < 0) := by
    rw [← not_shown]
    exact not_not_intro h
  obtain ⟨tx, ty, speedx, speedy, oldDestx, oldDesty, hmove⟩ := move_changes b
  rw [frame, onLoop, if_neg hnot, move_visible, hmove]
  exact onRender_resize (updateTail n _) rfl

/-- A frame with a hidden destination only hides the boid. -/
theorem frame_of_hidden {b : Boid} (h : ¬b.Shown) (n : ℤ) :
    b.frame n = { b with visible := false } := by
  rw [not_shown] at h
  rw [frame, onLoop, if_pos h]
  rfl

end Boid

end WallMon
