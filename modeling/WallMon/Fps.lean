import Mathlib.Data.List.Chain
import Mathlib.Tactic.Linarith
import Mathlib.Tactic.NormNum
import WallMon.Boid
import WallMon.Transition

/-!
# The pace of frames

The main loop of the display calls `Fps::OnLoop` once a frame. It waits until the time for a
frame has passed, and counts the frames of about a second. The clock is SDL's, in milliseconds
since the start, modulo 2^32.

As long as the clock does not wrap, frames are at least 28 ms apart, every frame is counted
once, and a count is at most 37 (`paced`). A count that begins 1001 ms before the clock wraps
never ends (`count_frozen`).
-/

namespace WallMon

/-- `Fps`, without `_currentTime`, which is never set. -/
structure Fps where
  /-- `_oldTime` -/
  oldTime : UInt32
  /-- `_lastTime` -/
  lastTime : UInt32
  /-- `_speedFactor` -/
  speedFactor : ℚ
  /-- `_numFrames` -/
  numFrames : ℕ
  /-- `_frames` -/
  frames : ℕ
  deriving DecidableEq

namespace Fps

/-- The constructor. -/
def new : Fps := ⟨0, 0, 0, 0, 0⟩

/-- `GetFps` -/
def getFps (f : Fps) : ℕ := f.numFrames

/-- `intendedTimeSpent` -/
def intendedTimeSpent : UInt32 := UInt32.ofNat ⌊1000 / maxFps⌋.toNat

/-- More than a second has passed. -/
def SecondPassed (f : Fps) (currentTime : UInt32) : Prop := currentTime > f.oldTime + 1000

instance (f : Fps) (currentTime : UInt32) : Decidable (f.SecondPassed currentTime) :=
  inferInstanceAs (Decidable (_ > _))

/-- "One second passed, reset state" -/
def reset (f : Fps) (currentTime : UInt32) : Fps :=
  if f.SecondPassed currentTime then
    { f with oldTime := currentTime, numFrames := f.frames, frames := 0 }
  else f

/-- What `OnLoop` gives to `SDL_Delay`; it does not call it for 0. -/
def delay (f : Fps) (currentTime : UInt32) : UInt32 :=
  let actualTimeSpent := currentTime - f.lastTime
  if intendedTimeSpent > actualTimeSpent then intendedTimeSpent - actualTimeSpent else 0

/-- `OnLoop`; `currentTime` is `SDL_GetTicks()`. -/
def onLoop (f : Fps) (currentTime : UInt32) : Fps :=
  let actualTimeSpent := currentTime - f.lastTime + f.delay currentTime
  { f.reset currentTime with
    speedFactor := actualTimeSpent.toNat / 1000 * maxFps
    lastTime := currentTime + f.delay currentTime
    frames := (f.reset currentTime).frames + 1 }

end Fps

/-- The frames of the main loop. -/
structure Pacing where
  /-- `Fps::fpsControl` -/
  fps : Fps
  /-- history: when each frame was over -/
  ends : List ℕ
  /-- history: the counts that were begun anew -/
  counts : List ℕ

namespace Pacing

/-- Before the first frame. -/
def start : Pacing := { fps := .new, ends := [], counts := [] }

/-- A frame, at the end of which `OnLoop` is called at some time. -/
def frame (p : Pacing) (now : ℕ) : Pacing where
  fps := p.fps.onLoop (UInt32.ofNat now)
  ends := p.ends ++ [now + (p.fps.delay (UInt32.ofNat now)).toNat]
  counts := if p.fps.SecondPassed (UInt32.ofNat now) then p.counts ++ [p.fps.frames] else p.counts

/-- Frames, one after another. -/
def run (p : Pacing) (times : List ℕ) : Pacing := times.foldl frame p

/-- The clock has not wrapped, and `SDL_Delay` has waited at least as long as it was to. -/
def Timely (p : Pacing) (now : ℕ) : Prop :=
  p.fps.lastTime.toNat ≤ now ∧ now + 1028 < 2 ^ 32

instance (p : Pacing) (now : ℕ) : Decidable (p.Timely now) := inferInstanceAs (Decidable (_ ∧ _))

end Pacing

/-! ## One frame -/

namespace Fps

theorem intendedTimeSpent_eq : intendedTimeSpent = 28 := by
  have hfloor : ⌊(1000 / 35 : ℚ)⌋ = 28 := by norm_num
  rw [intendedTimeSpent, maxFps, hfloor]
  rfl

variable {f : Fps} {now : ℕ}

/-- A time of a clock that has not wrapped. -/
theorem toNat_time (hlt : now < 2 ^ 32) : (UInt32.ofNat now).toNat = now :=
  UInt32.toNat_ofNat_of_lt' hlt

/-- The delay is what is missing of 28 ms. -/
theorem toNat_delay (hle : f.lastTime.toNat ≤ now) (hlt : now < 2 ^ 32) :
    (f.delay (UInt32.ofNat now)).toNat = 28 - (now - f.lastTime.toNat) := by
  have hnow := toNat_time hlt
  have hactual : (UInt32.ofNat now - f.lastTime).toNat = now - f.lastTime.toNat := by
    rw [UInt32.toNat_sub_of_le _ _ (by rwa [UInt32.le_iff_toNat_le, hnow]), hnow]
  have htwentyEight : (28 : UInt32).toNat = 28 := rfl
  rw [delay, intendedTimeSpent_eq]
  split
  · next hahead =>
    rw [UInt32.toNat_sub_of_le _ _ (UInt32.le_of_lt hahead), hactual, htwentyEight]
  · next hbehind =>
    rw [gt_iff_lt, UInt32.lt_iff_toNat_lt, hactual, htwentyEight] at hbehind
    rw [UInt32.toNat_zero]
    omega

/-- The frame is over when the delay is. -/
theorem toNat_lastTime (hle : f.lastTime.toNat ≤ now) (hlt : now + 28 < 2 ^ 32) :
    (f.onLoop (UInt32.ofNat now)).lastTime.toNat = now + (28 - (now - f.lastTime.toNat)) := by
  have hnow : (UInt32.ofNat now).toNat = now := toNat_time (by omega)
  have hdelay := toNat_delay hle (by omega)
  rw [onLoop]
  dsimp only
  rw [UInt32.toNat_add, hnow, hdelay]
  omega

/-- The factor is no less than that of 28 ms. -/
theorem le_speedFactor (hle : f.lastTime.toNat ≤ now) (hlt : now + 28 < 2 ^ 32) :
    49 / 50 ≤ (f.onLoop (UInt32.ofNat now)).speedFactor := by
  have hnow : (UInt32.ofNat now).toNat = now := toNat_time (by omega)
  have hdelay := toNat_delay hle (by omega)
  have hspent : 28 ≤ (UInt32.ofNat now - f.lastTime + f.delay (UInt32.ofNat now)).toNat := by
    rw [UInt32.toNat_add, UInt32.toNat_sub_of_le _ _ (by rwa [UInt32.le_iff_toNat_le, hnow]), hnow,
      hdelay]
    omega
  have hcast : (28 : ℚ) ≤
      (UInt32.ofNat now - f.lastTime + f.delay (UInt32.ofNat now)).toNat := by exact_mod_cast hspent
  rw [onLoop, maxFps]
  dsimp only
  linarith

/-- A second has passed if the clock says so. -/
theorem secondPassed_iff (hold : f.oldTime.toNat + 1000 < 2 ^ 32) (hlt : now < 2 ^ 32) :
    f.SecondPassed (UInt32.ofNat now) ↔ f.oldTime.toNat + 1000 < now := by
  have hthousand : (1000 : UInt32).toNat = 1000 := rfl
  rw [SecondPassed, gt_iff_lt, UInt32.lt_iff_toNat_lt, UInt32.toNat_add, hthousand,
    toNat_time hlt, Nat.mod_eq_of_lt hold]

end Fps

/-! ## All frames -/

namespace Pacing

/-- **The pace of frames.** -/
structure Paced (p : Pacing) : Prop where
  /-- the frames are apart -/
  spaced : p.ends.IsChain fun t t' => t + 28 ≤ t'
  /-- each is counted once -/
  counted : p.counts.sum + p.fps.frames = p.ends.length
  /-- the counts are not far above `MAX_FPS` -/
  counts_le : ∀ n ∈ p.counts, n ≤ 37
  /-- what is shown is the last of them -/
  shown : p.fps.getFps = p.counts.getLastD 0
  /-- the factor is close to 1, or above -/
  factor : p.ends ≠ [] → 49 / 50 ≤ p.fps.speedFactor

/-- What is known after each frame. -/
structure Inv (p : Pacing) : Prop extends Paced p where
  /-- the time of the last frame -/
  last : ∀ t ∈ p.ends.getLast?, p.fps.lastTime.toNat = t
  /-- the frames of the count so far were apart -/
  room : p.fps.oldTime.toNat + 28 * (p.fps.frames - 1) ≤ p.fps.lastTime.toNat
  /-- the count so far -/
  frames_le : p.fps.frames ≤ 37
  /-- the count can end -/
  old : p.fps.oldTime.toNat + 1000 < 2 ^ 32

theorem inv_start : Inv start where
  spaced := .nil
  counted := rfl
  counts_le := List.forall_mem_nil _
  shown := rfl
  factor hne := absurd rfl hne
  last _ ht := by cases ht
  room := by decide
  frames_le := by decide
  old := by decide

/-- **A timely frame keeps the pace.** -/
theorem Inv.frame {p : Pacing} (h : Inv p) {now : ℕ} (htimely : p.Timely now) :
    Inv (p.frame now) := by
  obtain ⟨hle, hlt⟩ := htimely
  have hdelay := Fps.toNat_delay hle (by omega)
  have hlast := Fps.toNat_lastTime hle (by omega)
  have hpassed := Fps.secondPassed_iff h.old (show now < 2 ^ 32 by omega)
  have hnow : (UInt32.ofNat now).toNat = now := Fps.toNat_time (by omega)
  have hroom := h.room
  have hcount := h.frames_le
  have hspaced : (p.frame now).ends.IsChain fun t t' => t + 28 ≤ t' := by
    rw [Pacing.frame, List.isChain_append]
    refine ⟨h.spaced, List.isChain_singleton _, fun t ht t' ht' => ?_⟩
    obtain rfl := Option.some.inj ht'
    rw [hdelay, ← h.last t ht]
    omega
  have hend : ∀ t ∈ (p.frame now).ends.getLast?, (p.frame now).fps.lastTime.toNat = t := by
    intro t ht
    rw [Pacing.frame, List.getLast?_concat] at ht
    obtain rfl := Option.some.inj ht
    rw [hdelay]
    exact hlast
  have hfactor : (p.frame now).ends ≠ [] → 49 / 50 ≤ (p.frame now).fps.speedFactor :=
    fun _ => Fps.le_speedFactor hle (by omega)
  by_cases hsecond : p.fps.SecondPassed (UInt32.ofNat now)
  · have hreset : p.fps.reset (UInt32.ofNat now) =
        { p.fps with oldTime := UInt32.ofNat now, numFrames := p.fps.frames, frames := 0 } :=
      if_pos hsecond
    have hfps : (p.frame now).fps.frames = 1 ∧ (p.frame now).fps.oldTime = UInt32.ofNat now ∧
        (p.frame now).fps.numFrames = p.fps.frames := by
      simp [Pacing.frame, Fps.onLoop, hreset]
    have hcounts : (p.frame now).counts = p.counts ++ [p.fps.frames] := if_pos hsecond
    obtain ⟨hframes, hold, hnum⟩ := hfps
    refine ⟨⟨hspaced, ?_, ?_, ?_, hfactor⟩, hend, ?_, ?_, ?_⟩
    · rw [hcounts, hframes, List.sum_append, List.sum_singleton, h.counted]
      simp [Pacing.frame]
    · rw [hcounts]
      exact List.forall_mem_append.mpr ⟨h.counts_le, List.forall_mem_singleton.mpr hcount⟩
    · rw [hcounts, Fps.getFps, hnum]
      simp
    · rw [hframes, hold, hnow]
      exact hlast ▸ Nat.le_add_right _ _
    · rw [hframes]
      decide
    · rw [hold, hnow]
      omega
  · have hreset : p.fps.reset (UInt32.ofNat now) = p.fps := if_neg hsecond
    have hfps : (p.frame now).fps.frames = p.fps.frames + 1 ∧
        (p.frame now).fps.oldTime = p.fps.oldTime ∧
        (p.frame now).fps.numFrames = p.fps.numFrames := by
      simp [Pacing.frame, Fps.onLoop, hreset]
    have hcounts : (p.frame now).counts = p.counts := if_neg hsecond
    rw [hpassed] at hsecond
    obtain ⟨hframes, hold, hnum⟩ := hfps
    have hnext : (p.frame now).fps.lastTime.toNat = now + (28 - (now - p.fps.lastTime.toNat)) :=
      hlast
    refine ⟨⟨hspaced, ?_, ?_, ?_, hfactor⟩, hend, ?_, ?_, ?_⟩
    · rw [hcounts, hframes, ← Nat.add_assoc, h.counted]
      simp [Pacing.frame]
    · rw [hcounts]
      exact h.counts_le
    · rw [hcounts, Fps.getFps, hnum]
      exact h.shown
    · rw [hframes, hold, hnext]
      omega
    · rw [hframes]
      omega
    · rw [hold]
      exact h.old

theorem Inv.run {p : Pacing} (h : Inv p) {times : List ℕ}
    (htimes : TransitionSystem.Meets Pacing.frame Timely p times) : Inv (p.run times) := by
  induction times generalizing p with
  | nil => exact h
  | cons now times ih => exact ih (h.frame htimes.1) htimes.2

end Pacing

/-- **A count that never ends**: no time is more than a second later than the last second
before the clock wraps. -/
theorem Fps.count_frozen {f : Fps} (hold : f.oldTime = 4294966295) (times : List UInt32) :
    (times.foldl onLoop f).getFps = f.getFps ∧
      (times.foldl onLoop f).frames = f.frames + times.length := by
  have hnever : ∀ {f : Fps}, f.oldTime = 4294966295 → ∀ t, ¬f.SecondPassed t := by
    intro f hold t
    have hmax : (4294966295 + 1000 : UInt32).toNat = 2 ^ 32 - 1 := rfl
    have hlt := t.toNat_lt
    rw [SecondPassed, hold, gt_iff_lt, UInt32.lt_iff_toNat_lt, hmax]
    omega
  induction times generalizing f with
  | nil => exact ⟨rfl, rfl⟩
  | cons t times ih =>
    have hreset : f.reset t = f := if_neg (hnever hold t)
    have hstep : (f.onLoop t).oldTime = f.oldTime ∧ (f.onLoop t).numFrames = f.numFrames ∧
        (f.onLoop t).frames = f.frames + 1 := by
      simp [onLoop, hreset]
    obtain ⟨hshown, hframes⟩ := @ih (f.onLoop t) (hstep.1.trans hold)
    refine ⟨hshown.trans hstep.2.1, ?_⟩
    rw [List.foldl_cons, hframes, hstep.2.2, List.length_cons]
    omega

end WallMon
