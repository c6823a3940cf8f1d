import WallMon.Boid
import WallMon.CheckedInt
import WallMon.Transition

/-!
# Tails of boids

All boids have tails of one length, `BoidSharedContext::tailLength`, which swipes change. A
visible frame takes at most one point off a tail, and only off a tail that has exactly that
length, and then adds one. So a tail is short enough as long as it was no longer than the
length before (`tailIsRight_iff`); a tail that is longer only grows.

The length is a `float`, with its rounding: five swipes by 1.4 make a length of 7. What the
conversion to `int` of a number out of range yields is given from outside. The coordinates of
boids are rational numbers; neither the length of a tail nor its order depends on them.
-/

namespace WallMon

open TransitionSystem

/-- `(int)` of a `float` -/
def toInt (stray : Float32 → ℤ) (x : Float32) : ℤ :=
  let whole := x.toModel.unpack.toInt 0 0
  if x.isFinite = true ∧ CInt.InRange whole then whole else stray x

/-- `fmax`, which prefers a number to NaN -/
def fmax (x y : Float32) : Float32 :=
  if x.isNaN then y else if y.isNaN then x else if x < y then y else x

/-- `fmin` -/
def fmin (x y : Float32) : Float32 :=
  if x.isNaN then y else if y.isNaN then x else if y < x then y else x

/-- A boid and what its tail depends on. -/
structure TailedBoid where
  /-- the boid -/
  boid : Boid
  /-- `BoidSharedContext::tailLength` -/
  tailLength : Float32
  /-- history: where visible frames left the boid, newest first -/
  places : List (ℚ × ℚ)

namespace TailedBoid

/-- A new boid -/
def start (boid : Boid) : TailedBoid := { boid, tailLength := 0, places := [] }

/-- What happens to a tail. -/
inductive TailInput where
  /-- a call of the boid's context -/
  | call (c : Boid.ContextCall)
  /-- a frame -/
  | frame
  /-- `BoidAxis::SwipeLeft` -/
  | swipeLeft (speed : Float32)
  /-- `BoidAxis::SwipeRight` -/
  | swipeRight (speed : Float32)

variable (stray : Float32 → ℤ)

/-- What an input does. -/
def step (s : TailedBoid) : TailInput → TailedBoid
  | .call c => { s with boid := s.boid.call c }
  | .frame =>
    let boid := s.boid.frame (toInt stray s.tailLength)
    { s with
      boid
      places := if boid.visible = true then (boid.tx, boid.ty) :: s.places else s.places }
  | .swipeLeft speed => { s with tailLength := fmax (s.tailLength - speed) 0 }
  | .swipeRight speed => { s with tailLength := fmin (s.tailLength + speed) 100 }

/-- The tail is the latest places, at most as many as the length says. -/
def TailIsRight (s : TailedBoid) : Prop :=
  (s.boid.tail.length : ℤ) ≤ toInt stray s.tailLength ∧ s.boid.tail <+: s.places

instance (s : TailedBoid) : Decidable (s.TailIsRight stray) := inferInstanceAs (Decidable (_ ∧ _))

/-- If the input is a frame that shows the boid, then it leaves the right tail. -/
def LeavesRightTail (s : TailedBoid) : TailInput → Prop
  | .frame => (s.step stray .frame).boid.visible = true → (s.step stray .frame).TailIsRight stray
  | _ => True

instance (s : TailedBoid) : ∀ input, Decidable (s.LeavesRightTail stray input)
  | .call _ => .isTrue trivial
  | .frame => inferInstanceAs (Decidable (_ → _))
  | .swipeLeft _ => .isTrue trivial
  | .swipeRight _ => .isTrue trivial

/-- If the input is a frame that shows the boid, then tails have length 0 or the tail is not
longer than tails are. -/
def HasRoom (s : TailedBoid) : TailInput → Prop
  | .frame => s.boid.Shown →
      toInt stray s.tailLength = 0 ∨ (s.boid.tail.length : ℤ) ≤ toInt stray s.tailLength
  | _ => True

/-! ## One frame -/

/-- A tail stays what is latest. -/
theorem nextTail_latest {tail places : List (ℚ × ℚ)} (h : tail <+: places) (n : ℤ)
    (place : ℚ × ℚ) : Boid.nextTail n tail place <+: place :: places := by
  rw [Boid.nextTail]
  split
  · exact List.nil_prefix
  · rw [List.cons_prefix_cons]
    refine ⟨rfl, ?_⟩
    split
    · exact (List.dropLast_prefix tail).trans h
    · exact h

/-- **The length** of the next tail. -/
theorem length_nextTail_le_iff (n : ℤ) (tail : List (ℚ × ℚ)) (place : ℚ × ℚ) :
    ((Boid.nextTail n tail place).length : ℤ) ≤ n ↔ n = 0 ∨ (tail.length : ℤ) ≤ n := by
  rw [Boid.nextTail]
  by_cases hzero : n = 0
  · rw [if_pos hzero, hzero]
    exact iff_of_true le_rfl (.inl rfl)
  · rw [if_neg hzero, List.length_cons]
    by_cases hfull : (tail.length : ℤ) = n
    · rw [if_pos hfull, List.length_dropLast]
      omega
    · rw [if_neg hfull]
      omega

variable {s : TailedBoid}

/-- A frame with a destination to show. -/
theorem step_frame_of_shown (hshown : s.boid.Shown) :
    let place := (s.boid.move.tx, s.boid.move.ty)
    (s.step stray .frame).boid.visible = true ∧
      (s.step stray .frame).boid.tail =
        Boid.nextTail (toInt stray s.tailLength) s.boid.tail place ∧
      (s.step stray .frame).places = place :: s.places := by
  rw [step, Boid.frame_of_shown hshown]
  exact ⟨rfl, rfl, rfl⟩

/-- A frame without. -/
theorem step_frame_of_hidden (hhidden : ¬s.boid.Shown) :
    (s.step stray .frame).boid.visible = false ∧
      (s.step stray .frame).boid.tail = s.boid.tail ∧
      (s.step stray .frame).places = s.places := by
  rw [step, Boid.frame_of_hidden hhidden]
  exact ⟨rfl, rfl, rfl⟩

/-- **Invariant**: a tail is what is latest. -/
theorem step_latest (h : s.boid.tail <+: s.places) (input : TailInput) :
    (s.step stray input).boid.tail <+: (s.step stray input).places := by
  cases input with
  | call c => cases c <;> exact h
  | frame =>
    by_cases hshown : s.boid.Shown
    · obtain ⟨-, htail, hplaces⟩ := step_frame_of_shown stray hshown
      rw [htail, hplaces]
      exact nextTail_latest h _ _
    · obtain ⟨-, htail, hplaces⟩ := step_frame_of_hidden stray hshown
      rw [htail, hplaces]
      exact h
  | swipeLeft speed => exact h
  | swipeRight speed => exact h

/-- **One frame** leaves the right tail if and only if it has room for one more point. -/
theorem leavesRightTail_iff_hasRoom (h : s.boid.tail <+: s.places) (input : TailInput) :
    s.LeavesRightTail stray input ↔ s.HasRoom stray input := by
  cases input with
  | call c => exact Iff.rfl
  | frame =>
    rw [LeavesRightTail, HasRoom]
    by_cases hshown : s.boid.Shown
    · obtain ⟨hvisible, htail, -⟩ := step_frame_of_shown stray hshown
      have hlength : (s.step stray .frame).tailLength = s.tailLength := rfl
      rw [TailIsRight, hlength, and_iff_left (step_latest stray h .frame), htail,
        length_nextTail_le_iff]
      exact ⟨fun hright _ => hright hvisible, fun hroom _ => hroom hshown⟩
    · obtain ⟨hvisible, -, -⟩ := step_frame_of_hidden stray hshown
      rw [hvisible]
      exact iff_of_true nofun fun hshown' => absurd hshown' hshown
  | swipeLeft speed => exact Iff.rfl
  | swipeRight speed => exact Iff.rfl

/-- **In every run** of a new boid all visible frames leave the right tail if and only if
they all have room for one more point. -/
theorem tailIsRight_iff (ctx : BoidSharedContext) (destx desty speedx speedy : ℚ)
    (isHighlighted : Bool) (inputs : List TailInput) :
    Meets (step stray) (LeavesRightTail stray)
        (start (.new ctx destx desty speedx speedy isHighlighted)) inputs ↔
      Meets (step stray) (HasRoom stray)
        (start (.new ctx destx desty speedx speedy isHighlighted)) inputs :=
  meets_congr (I := fun s => s.boid.tail <+: s.places)
    (fun _ input h => leavesRightTail_iff_hasRoom stray h input)
    (fun _ input h _ => step_latest stray h input) List.nil_prefix inputs

/-- Lengths are rounded. -/
example : toInt (fun _ => 0) ([1.4, 1.4, 1.4, 1.4, 1.4].foldl (fun s speed =>
    s.step (fun _ => 0) (.swipeRight speed)) (start (.new ⟨false, 0⟩ 0 0 0 0 false))).tailLength =
      7 := by
  decide +kernel

/-- Tails of three points become tails of one: the tail has four points after the next frame. -/
theorem not_tailIsRight_shortened :
    ¬Meets (step fun _ => 0) (LeavesRightTail fun _ => 0)
      (start (.new { isHighlighted := false, highlightNumber := 0 } (-1) (-1) 0 0 false))
      [.call (.setDestination 50 50), .swipeRight 3, .frame, .frame, .frame, .swipeLeft 2,
        .frame] := by
  decide +kernel

end TailedBoid

end WallMon
