import Mathlib.Tactic.Linarith
import Mathlib.Tactic.Ring
import WallMon.Boid
import WallMon.Transition

/-!
# Boids reach their destination

A boid is given a speed when its destination is not the remembered one, and is there after
`MAX_FPS` frames. A destination next to a boid that is on its way stops the boid, and the
destination that it was on its way to stays the remembered one. When this becomes the
destination again, the boid does not move (`arrives_iff`).
-/

namespace WallMon

open TransitionSystem

namespace Boid

/-! ## Runs -/

/-- What happens to a boid. -/
inductive BoidInput where
  /-- a call of its context -/
  | call (c : ContextCall)
  /-- a frame, at the length for tails -/
  | frame (tailLength : ℤ)

/-- What an input does. -/
def step (b : Boid) : BoidInput → Boid
  | .call c => b.call c
  | .frame tailLength => b.frame tailLength

/-- The boid is at the destination that its context says. -/
def AtDestination (b : Boid) : Prop :=
  b.IsDestinationReached (b.alignedx b.destx) (b.alignedy b.desty)

/-- The boid is at its destination after `MAX_FPS` further frames and from then on, if the
destination is one to show. -/
def Arrives (b : Boid) : Prop :=
  b.Shown → ∀ tailLengths : List ℤ, 35 ≤ tailLengths.length →
    (tailLengths.foldl frame b).AtDestination

/-- The boid has stopped, not at the point `x, y`, but this is the remembered destination. -/
def StoppedShort (b : Boid) (x y : ℚ) : Prop :=
  (0 ≤ x ∧ 0 ≤ y) ∧ (b.speedx = 0 ∧ b.speedy = 0) ∧
    (b.oldDestx = b.alignedx x ∧ b.oldDesty = b.alignedy y) ∧
    ¬b.IsDestinationReached (b.alignedx x) (b.alignedy y)

instance (b : Boid) (x y : ℚ) : Decidable (b.StoppedShort x y) :=
  inferInstanceAs (Decidable (_ ∧ _ ∧ _ ∧ _))

/-- The input sends the boid to the destination that it stopped short of. -/
def Strands (b : Boid) : BoidInput → Prop
  | .call (.setDestination x y) => b.StoppedShort x y
  | _ => False

/-! ## One frame -/

/-- The boid has the size that it was made with. -/
def Sized (b : Boid) : Prop := b.width = 2 ∧ b.height = 2

/-- Boids of that size align alike. -/
theorem Sized.aligned_congr {b c : Boid} (h : b.Sized) (hc : c.Sized) (x y : ℚ) :
    c.alignedx x = b.alignedx x ∧ c.alignedy y = b.alignedy y := by
  rw [alignedx, alignedx, alignedy, alignedy, h.1, h.2, hc.1, hc.2]
  exact ⟨rfl, rfl⟩

/-- The first remembered destination is no aligned one. -/
theorem Sized.alignedx_ne {b : Boid} (h : b.Sized) (x : ℚ) : -1 ≠ b.alignedx x := by
  have hle : 1 ≤ b.alignedx x := by
    rw [alignedx, h.1, align, div_self two_ne_zero]
    exact le_min (le_max_right x 1) (by norm_num)
  intro heq
  linarith

/-- The boid is `r` frames from the remembered destination, at most `k`. -/
def OnCourse (k : ℕ) (b : Boid) : Prop :=
  ∃ r : ℕ, r ≤ k ∧ b.oldDestx - b.tx = r * b.speedx ∧ b.oldDesty - b.ty = r * b.speedy

/-- A boid that is 0 frames from it is there. -/
theorem reached_of_onCourse {b : Boid} (h : b.OnCourse 0) :
    b.IsDestinationReached b.oldDestx b.oldDesty := by
  obtain ⟨r, hr, hx, hy⟩ := h
  obtain rfl : r = 0 := Nat.le_zero.mp hr
  rw [Nat.cast_zero, zero_mul, sub_eq_zero] at hx hy
  rw [IsDestinationReached, hx, hy, sub_self, sub_self, abs_zero]
  norm_num

/-- At the start of a journey. -/
theorem onCourse_new {b : Boid} {x y : ℚ} (hx : b.speedx = (b.oldDestx - x) / maxFps)
    (hy : b.speedy = (b.oldDesty - y) / maxFps) (htx : b.tx = x + b.speedx)
    (hty : b.ty = y + b.speedy) : b.OnCourse 34 := by
  refine ⟨34, le_rfl, ?_, ?_⟩
  · rw [htx, hx, maxFps]
    push_cast
    ring
  · rw [hty, hy, maxFps]
    push_cast
    ring

/-- One frame of the journey. -/
theorem OnCourse.move {k : ℕ} {b : Boid} (h : b.OnCourse k)
    (haway : ¬b.IsDestinationReached b.oldDestx b.oldDesty) :
    OnCourse (k - 1) { b with tx := b.tx + b.speedx, ty := b.ty + b.speedy } := by
  obtain ⟨r, hr, hx, hy⟩ := h
  cases r with
  | zero => exact absurd (reached_of_onCourse ⟨0, le_rfl, hx, hy⟩) haway
  | succ r =>
    push_cast at hx hy
    refine ⟨r, by omega, ?_, ?_⟩ <;> dsimp only <;> linarith

/-- The boid is at its destination, or at most `k` frames from it. -/
structure Arriving (k : ℕ) (b : Boid) : Prop where
  /-- its size -/
  sized : b.Sized
  /-- the destination is one to show -/
  shown : b.Shown
  /-- where it is -/
  near : b.AtDestination ∨
    (b.oldDestx = b.alignedx b.destx ∧ b.oldDesty = b.alignedy b.desty) ∧ b.OnCourse k

/-- A boid that is not at its destination is not at the remembered one, if that is the same. -/
theorem not_reached_of_remembered {b : Boid} (hat : ¬b.AtDestination)
    (hold : b.oldDestx = b.alignedx b.destx ∧ b.oldDesty = b.alignedy b.desty) :
    ¬b.IsDestinationReached b.oldDestx b.oldDesty := by
  rw [hold.1, hold.2]
  exact hat

/-- **One frame** brings the boid one frame nearer. -/
theorem Arriving.frame {k : ℕ} {b : Boid} (h : Arriving k b) (n : ℤ) :
    Arriving (k - 1) (b.frame n) := by
  obtain ⟨hsized, hshown, hnear⟩ := h
  rw [frame_of_shown hshown]
  by_cases hat : b.AtDestination
  · rw [move_of_reached hat]
    refine ⟨⟨rfl, rfl⟩, hshown, .inl ?_⟩
    rw [AtDestination, (hsized.aligned_congr ⟨rfl, rfl⟩ b.destx b.desty).1,
      (hsized.aligned_congr ⟨rfl, rfl⟩ b.destx b.desty).2]
    exact hat
  · obtain ⟨hold, hcourse⟩ := hnear.resolve_left hat
    rw [move_of_remembered hat hold]
    refine ⟨⟨rfl, rfl⟩, hshown, .inr ⟨?_, hcourse.move (not_reached_of_remembered hat hold)⟩⟩
    rw [(hsized.aligned_congr ⟨rfl, rfl⟩ b.destx b.desty).1,
      (hsized.aligned_congr ⟨rfl, rfl⟩ b.destx b.desty).2]
    exact hold

/-- A boid that is 0 frames from its destination is there. -/
theorem Arriving.atDestination {b : Boid} (h : Arriving 0 b) : b.AtDestination := by
  rcases h.near with hat | ⟨hold, hcourse⟩
  · exact hat
  · rw [AtDestination, ← hold.1, ← hold.2]
    exact reached_of_onCourse hcourse

/-- Frames do not change the destination. -/
theorem frame_dest (b : Boid) (n : ℤ) :
    (b.frame n).destx = b.destx ∧ (b.frame n).desty = b.desty := by
  by_cases hshown : b.Shown
  · obtain ⟨tx, ty, speedx, speedy, oldDestx, oldDesty, hmove⟩ := move_changes b
    rw [frame_of_shown hshown, hmove]
    exact ⟨rfl, rfl⟩
  · rw [frame_of_hidden hshown]
    exact ⟨rfl, rfl⟩

/-! ## All states -/

/-- What holds between frames: there is no remembered destination, or the boid has stopped,
or the remembered destination is where its speed leads. -/
structure Inv (b : Boid) : Prop where
  /-- its size -/
  sized : b.Sized
  /-- where it is going -/
  course : b.oldDestx = -1 ∨ (b.speedx = 0 ∧ b.speedy = 0) ∨ b.OnCourse 35

theorem OnCourse.mono {k k' : ℕ} {b : Boid} (h : b.OnCourse k) (hle : k ≤ k') : b.OnCourse k' := by
  obtain ⟨r, hr, hcourse⟩ := h
  exact ⟨r, hr.trans hle, hcourse⟩

/-- **Invariant**, for a frame. -/
theorem Inv.frame {b : Boid} (h : b.Inv) (n : ℤ) : (b.frame n).Inv := by
  by_cases hshown : b.Shown
  · rw [frame_of_shown hshown]
    refine ⟨⟨rfl, rfl⟩, ?_⟩
    by_cases hat : b.AtDestination
    · rw [move_of_reached hat]
      exact .inr (.inl ⟨rfl, rfl⟩)
    · by_cases hold : b.oldDestx = b.alignedx b.destx ∧ b.oldDesty = b.alignedy b.desty
      · rw [move_of_remembered hat hold]
        refine h.course.imp_right (Or.imp_right fun hcourse => ?_)
        exact (hcourse.move (not_reached_of_remembered hat hold)).mono (Nat.sub_le 35 1)
      · rw [move_of_new hat hold]
        exact .inr (.inr ((onCourse_new rfl rfl rfl rfl).mono (by decide)))
  · rw [frame_of_hidden hshown]
    exact ⟨h.sized, h.course⟩

/-- **Invariant**, for a call. -/
theorem Inv.call {b : Boid} (h : b.Inv) (c : ContextCall) : (b.call c).Inv := by
  cases c <;> exact ⟨h.sized, h.course⟩

/-- **Invariant**, for any input. -/
theorem Inv.step {b : Boid} (h : b.Inv) (input : BoidInput) : (b.step input).Inv := by
  cases input with
  | call c => exact h.call c
  | frame n => exact h.frame n

/-- **Invariant**, for a history. -/
theorem Inv.foldl {b : Boid} (h : b.Inv) (inputs : List BoidInput) :
    (inputs.foldl Boid.step b).Inv :=
  List.foldlRecOn inputs Boid.step h fun _ hb input _ => hb.step input

/-- A boid that has not stopped short of its destination is on its way after a frame. -/
theorem Inv.arriving {b : Boid} (h : b.Inv) (hshown : b.Shown)
    (hnot : ¬b.StoppedShort b.destx b.desty) (n : ℤ) : Arriving 34 (b.frame n) := by
  by_cases hat : b.AtDestination
  · exact Arriving.frame (k := 35) ⟨h.sized, hshown, .inl hat⟩ n
  · by_cases hold : b.oldDestx = b.alignedx b.destx ∧ b.oldDesty = b.alignedy b.desty
    · have hcourse : b.OnCourse 35 := by
        rcases h.course with hnone | hstop | hcourse
        · exact absurd (hnone.symm.trans hold.1) (h.sized.alignedx_ne b.destx)
        · exact absurd ⟨hshown, hstop, hold, hat⟩ hnot
        · exact hcourse
      exact Arriving.frame (k := 35) ⟨h.sized, hshown, .inr ⟨hold, hcourse⟩⟩ n
    · rw [frame_of_shown hshown, move_of_new hat hold]
      refine ⟨⟨rfl, rfl⟩, hshown, .inr ⟨?_, onCourse_new rfl rfl rfl rfl⟩⟩
      obtain ⟨hx, hy⟩ := h.sized.aligned_congr (c := { b with width := 2, height := 2 })
        ⟨rfl, rfl⟩ b.destx b.desty
      exact ⟨hx.symm, hy.symm⟩

/-- A boid that has stopped short of its destination stays where it is. -/
theorem StoppedShort.frame {b : Boid} (hsized : b.Sized) (h : b.StoppedShort b.destx b.desty)
    (n : ℤ) : (b.frame n).Sized ∧ (b.frame n).StoppedShort (b.frame n).destx (b.frame n).desty := by
  obtain ⟨hshown, ⟨hspeedx, hspeedy⟩, hold, haway⟩ := h
  obtain ⟨hx, hy⟩ := hsized.aligned_congr (c := { b with width := 2, height := 2 }) ⟨rfl, rfl⟩
    b.destx b.desty
  rw [frame_of_shown hshown, move_of_remembered haway hold, hspeedx, hspeedy, add_zero, add_zero]
  rw [← hx, ← hy] at hold haway
  exact ⟨⟨rfl, rfl⟩, hshown, ⟨rfl, rfl⟩, hold, haway⟩

/-- **The boid arrives** if and only if it has not stopped short of its destination. -/
theorem Inv.arrives_iff_not_stoppedShort {b : Boid} (h : b.Inv) :
    b.Arrives ↔ ¬b.StoppedShort b.destx b.desty := by
  refine ⟨fun harrives hshort => ?_, fun hnot hshown tailLengths hlong => ?_⟩
  · have hstays : ∀ ns : List ℤ, (ns.foldl Boid.frame b).Sized ∧
        (ns.foldl Boid.frame b).StoppedShort (ns.foldl Boid.frame b).destx
          (ns.foldl Boid.frame b).desty := fun ns =>
      List.foldlRecOn (motive := fun b : Boid => b.Sized ∧ b.StoppedShort b.destx b.desty) ns
        Boid.frame ⟨h.sized, hshort⟩ fun b hb n _ => hb.2.frame hb.1 n
    obtain ⟨ns, hlong⟩ : ∃ ns : List ℤ, ns.length = 35 := ⟨_, List.length_replicate (a := 0)⟩
    obtain ⟨-, -, -, -, haway⟩ := hstays ns
    exact haway (harrives hshort.1 ns hlong.ge)
  · cases tailLengths with
    | nil => cases hlong
    | cons n ns =>
      have hstep : ∀ (k : ℕ) (b : Boid) (n : ℤ), Arriving k b → Arriving (k - 1) (b.frame n) :=
        fun _ _ n hb => hb.frame n
      have hthere := countdown hstep (h.arriving hshown hnot n) ns
      rw [List.length_cons] at hlong
      rw [Nat.sub_eq_zero_of_le (by omega)] at hthere
      exact hthere.atDestination

/-- One more input to a boid that arrives. -/
theorem Inv.arrives_step {b : Boid} (h : b.Inv) (harrives : b.Arrives) (input : BoidInput) :
    (b.step input).Arrives ↔ ¬b.Strands input := by
  cases input with
  | call c =>
    have hcall := (h.call c).arrives_iff_not_stoppedShort
    have hbefore := h.arrives_iff_not_stoppedShort.mp harrives
    cases c with
    | setDestination x y => exact hcall
    | enableHighlight number => exact iff_of_true (hcall.mpr hbefore) not_false
    | disableHighlight => exact iff_of_true (hcall.mpr hbefore) not_false
  | frame n =>
    refine iff_of_true (fun hshown ns hlong => ?_) not_false
    obtain ⟨hx, hy⟩ := frame_dest b n
    have hshown' : b.Shown := by
      rw [Shown, ← hx, ← hy]
      exact hshown
    have hlong' : 35 ≤ (n :: ns).length := hlong.trans (Nat.le_succ _)
    exact harrives hshown' (n :: ns) hlong'

/-- **In every history** of a boid it arrives at the destination it has, whenever that stays
what it is, if and only if no call of `SetDestination` sends it to the destination that it
stopped short of. -/
theorem arrives_iff (ctx : BoidSharedContext) (destx desty speedx speedy : ℚ)
    (isHighlighted : Bool) (inputs : List BoidInput) :
    (∀ before, before <+: inputs →
      (before.foldl step (new ctx destx desty speedx speedy isHighlighted)).Arrives) ↔
      Meets step (fun b input => ¬b.Strands input)
        (new ctx destx desty speedx speedy isHighlighted) inputs := by
  have hinit : (new ctx destx desty speedx speedy isHighlighted).Inv := ⟨⟨rfl, rfl⟩, .inl rfl⟩
  refine forall_prefix_iff_meets ?_ ?_ inputs
  · rw [List.foldl_nil, hinit.arrives_iff_not_stoppedShort]
    rintro ⟨-, -, hold, -⟩
    exact hinit.sized.alignedx_ne destx hold.1
  · intro ls input hbefore
    rw [List.foldl_append, List.foldl_cons, List.foldl_nil]
    exact (Inv.foldl hinit ls).arrives_step hbefore input

/-- A boid that is sent from its way to `35, 35` to the place it is at, and back. -/
theorem not_arrives_back :
    ¬Arrives ([.call (.setDestination 35 35), .frame 0, .call (.setDestination 1 1), .frame 0,
      .call (.setDestination 35 35)].foldl step
        (new { isHighlighted := false, highlightNumber := 0 } (-1) (-1) 0 0 false)) := by
  generalize hb : List.foldl step _ _ = b
  have hinv : b.Inv := by
    rw [← hb]
    exact Inv.foldl ⟨⟨rfl, rfl⟩, .inl rfl⟩ _
  rw [hinv.arrives_iff_not_stoppedShort, not_not, ← hb]
  decide +kernel

end Boid

end WallMon
