import Mathlib.Algebra.Order.Group.MinMax
import Mathlib.Algebra.Order.Ring.Rat
import Mathlib.Data.List.Chain
import Mathlib.Tactic.Linarith
import Mathlib.Tactic.Ring
import WallMon.TouchManager

/-!
# Gestures

An `EntityEvent` makes taps, scrolls and swipes of the touches that hit it. A touch that moves
adds to a speed, and the main loop calls back with the speed, which decays from call to call.
Each kind of call has an interval. Speeds are exact rationals here, where the code has floats.

Whatever the touches are, no call has a speed beyond the limits (`speeds_within_limits`); a
list that is let go glides in one direction, for twenty frames at most (`glide_ends`); and
calls of a kind that has an interval are further apart than this (`calls_spaced`).
-/

namespace WallMon

/-- A touch, with what `HandleHit` reads besides. -/
structure Touch extends TouchState where
  /-- `movedDistance` -/
  movedDistance : ℚ
  /-- `lastUpdated` -/
  lastUpdated : ℚ

/-- An interval between calls and the timestamps that it is checked with. -/
structure EventInterval where
  /-- `_tapEventInterval`, `_scrollEventInterval` or `_swipeEventInterval` -/
  seconds : ℚ
  /-- `_previousTapEventTimestamp` and so on -/
  previousTimestamp : ℚ
  /-- `_currentTapEventTimestamp` and so on -/
  currentTimestamp : ℚ

namespace EventInterval

/-- The interval has passed. -/
def Passed (i : EventInterval) : Prop := i.currentTimestamp - i.previousTimestamp > i.seconds

instance (i : EventInterval) : Decidable i.Passed := inferInstanceAs (Decidable (_ > _))

/-- A new interval begins. -/
def begin (i : EventInterval) : EventInterval := { i with previousTimestamp := i.currentTimestamp }

end EventInterval

/-- The callbacks of an `EntityEvent`. -/
inductive Gesture where
  /-- `Tap` -/
  | tap (x y : ℚ)
  /-- `ScrollDown` -/
  | scrollDown (speed : ℚ)
  /-- `ScrollUp` -/
  | scrollUp (speed : ℚ)
  /-- `SwipeLeft` -/
  | swipeLeft (speed : ℚ)
  /-- `SwipeRight` -/
  | swipeRight (speed : ℚ)
  /-- `Clap` -/
  | clap
  deriving DecidableEq

/-- An entity that is touched. -/
structure EntityEvent where
  /-- `width` -/
  width : ℚ
  /-- `height` -/
  height : ℚ
  /-- `_scrollThreshold` -/
  scrollThreshold : ℚ
  /-- `_swipeThreshold` -/
  swipeThreshold : ℚ
  /-- `_scrollSpeed` -/
  scrollSpeed : ℚ
  /-- `_swipeSpeed` -/
  swipeSpeed : ℚ
  /-- `_maxSpeed` -/
  maxSpeed : ℚ
  /-- `_minSpeed` -/
  minSpeed : ℚ
  /-- `_isFirstTime` -/
  isFirstTime : Bool
  /-- the interval for taps -/
  tapEvent : EventInterval
  /-- the interval for scrolls -/
  scrollEvent : EventInterval
  /-- the interval for swipes -/
  swipeEvent : EventInterval

namespace EntityEvent

/-- What the constructor sets; `SetTapEventInterval` and its siblings may have been called. The
other fields may hold anything. -/
structure Constructed (e : EntityEvent) : Prop where
  /-- not touched yet -/
  isFirstTime : e.isFirstTime = true
  /-- no speed -/
  scrollSpeed : e.scrollSpeed = 0
  /-- no speed -/
  swipeSpeed : e.swipeSpeed = 0
  /-- no tap -/
  tap : e.tapEvent.previousTimestamp = -1
  /-- no scroll -/
  scroll : e.scrollEvent.previousTimestamp = -1
  /-- no swipe -/
  swipe : e.swipeEvent.previousTimestamp = -1

/-- "Policies and thresholds not calculated" -/
def calculateThresholds (e : EntityEvent) : EntityEvent :=
  if e.isFirstTime then
    { e with
      isFirstTime := false
      scrollThreshold := e.height * (2 / 100)
      swipeThreshold := e.width * (2 / 100)
      minSpeed := e.height * (1 / 1000)
      maxSpeed := e.height * (3 / 100) }
  else e

/-- A speed within the limits. -/
def limit (e : EntityEvent) (speed : ℚ) : ℚ :=
  if speed > e.minSpeed then min speed e.maxSpeed
  else if speed < -e.minSpeed then max speed (-e.maxSpeed)
  else speed

/-- The touch is a tap. -/
def IsTap (event : Touch) : Prop :=
  event.remove = true ∧ event.movedDistance < 5 ∨ event.radius > 20

instance (event : Touch) : Decidable (IsTap event) := inferInstanceAs (Decidable (_ ∨ _))

/-- `EntityEvent::HandleHit`, with the callbacks made. -/
def handleHit (e : EntityEvent) (event : Touch) : EntityEvent × List Gesture :=
  if event.isSound then (e, [.clap])
  else
    let e := e.calculateThresholds
    if IsTap event then
      let e := { e with tapEvent.currentTimestamp := event.lastUpdated }
      if e.tapEvent.Passed then
        ({ e with tapEvent := e.tapEvent.begin }, [.tap event.loc.x event.loc.y])
      else (e, [])
    else if event.remove then (e, [])
    else if |event.delta.y| < e.scrollThreshold ∧ |event.delta.x| < e.swipeThreshold then (e, [])
    else if |event.delta.y| > |event.delta.x| then
      ({ e with
        scrollEvent.currentTimestamp := event.lastUpdated
        scrollSpeed := e.limit (e.scrollSpeed + event.delta.y) }, [])
    else
      ({ e with
        swipeEvent.currentTimestamp := event.lastUpdated
        swipeSpeed := e.limit (e.swipeSpeed + event.delta.x) }, [])

/-- The speed after a callback with it. -/
def decay (e : EntityEvent) (speed : ℚ) : ℚ :=
  if speed > e.minSpeed then max (speed - e.maxSpeed * (5 / 100)) 0
  else if speed < -e.minSpeed then min (speed + e.maxSpeed * (5 / 100)) 0
  else 0

/-- The callback for a speed. -/
def callback (e : EntityEvent) (forwards backwards : ℚ → Gesture) (speed : ℚ) : List Gesture :=
  if speed > e.minSpeed then [forwards speed]
  else if speed < -e.minSpeed then [backwards (-speed)]
  else []

/-- `_RunScrollCallbacks` -/
def runScrollCallbacks (e : EntityEvent) : EntityEvent × List Gesture :=
  ({ e with scrollSpeed := e.decay e.scrollSpeed },
    e.callback .scrollDown .scrollUp e.scrollSpeed)

/-- `_RunSwipeCallbacks` -/
def runSwipeCallbacks (e : EntityEvent) : EntityEvent × List Gesture :=
  ({ e with swipeSpeed := e.decay e.swipeSpeed },
    e.callback .swipeRight .swipeLeft e.swipeSpeed)

/-- The scrolls of `RunCallbacks`. -/
def runScroll (e : EntityEvent) : EntityEvent × List Gesture :=
  if e.scrollEvent.Passed then { e with scrollEvent := e.scrollEvent.begin }.runScrollCallbacks
  else (e, [])

/-- The swipes of `RunCallbacks`. -/
def runSwipe (e : EntityEvent) : EntityEvent × List Gesture :=
  if e.swipeEvent.Passed then { e with swipeEvent := e.swipeEvent.begin }.runSwipeCallbacks
  else (e, [])

/-- `EntityEvent::RunCallbacks` -/
def runCallbacks (e : EntityEvent) : EntityEvent × List Gesture :=
  (e.runScroll.1.runSwipe.1, e.runScroll.2 ++ e.runScroll.1.runSwipe.2)

/-- What happens to an entity. -/
inductive Input where
  /-- a touch hits it -/
  | hit (event : Touch)
  /-- the main loop runs its callbacks -/
  | callbacks

/-- The entity after an input, with the callbacks made. -/
def react (e : EntityEvent) : Input → EntityEvent × List Gesture
  | .hit event => e.handleHit event
  | .callbacks => e.runCallbacks

end EntityEvent

/-- An entity, with the history of its callbacks: each with the entity that made it. -/
structure Gesturing where
  /-- the entity -/
  entity : EntityEvent
  /-- history: the callbacks -/
  calls : List (EntityEvent × Gesture)

namespace Gesturing

/-- The state after an input. -/
def next (s : Gesturing) (input : EntityEvent.Input) : Gesturing where
  entity := (s.entity.react input).1
  calls := s.calls ++ (s.entity.react input).2.map ((s.entity.react input).1, ·)

/-- The inputs one after the other. -/
def run (s : Gesturing) (inputs : List EntityEvent.Input) : Gesturing := inputs.foldl next s

/-- **Run rule** for inputs. -/
theorem run_preserves {I : Gesturing → Prop} (hstep : ∀ s input, I s → I (s.next input))
    {s : Gesturing} (hs : I s) (inputs : List EntityEvent.Input) : I (s.run inputs) := by
  induction inputs generalizing s with
  | nil => exact hs
  | cons input inputs ih => exact ih (hstep s input hs)

end Gesturing

/-! ## Limits -/

/-- The speed of a gesture. -/
def Gesture.speed : Gesture → Option ℚ
  | .scrollDown speed | .scrollUp speed | .swipeLeft speed | .swipeRight speed => some speed
  | .tap _ _ | .clap => none

namespace EntityEvent

variable {e : EntityEvent} {v : ℚ}

theorem abs_limit_le (hmin : 0 ≤ e.minSpeed) (hmax : e.minSpeed ≤ e.maxSpeed) :
    |e.limit v| ≤ e.maxSpeed := by
  rw [limit, abs_le]
  split
  · exact ⟨le_min (by linarith) (by linarith), min_le_right _ _⟩
  · split
    · exact ⟨le_max_right _ _, max_le (by linarith) (by linarith)⟩
    · exact ⟨by linarith, by linarith⟩

theorem abs_decay_le (hmin : 0 ≤ e.minSpeed) (hv : |v| ≤ e.maxSpeed) :
    |e.decay v| ≤ e.maxSpeed := by
  have hmax := (abs_nonneg v).trans hv
  rw [abs_le] at hv ⊢
  rw [decay]
  split
  · exact ⟨(by linarith : -e.maxSpeed ≤ 0).trans (le_max_right _ _),
      max_le (by linarith) (by linarith)⟩
  · split
    · exact ⟨le_min (by linarith) (by linarith), (min_le_right _ _).trans hmax⟩
    · exact ⟨by linarith, hmax⟩

@[simp] theorem decay_zero (hmin : 0 ≤ e.minSpeed) : e.decay 0 = 0 := by
  rw [decay, if_neg (by linarith), if_neg (by linarith)]

@[simp] theorem callback_zero (hmin : 0 ≤ e.minSpeed) (f b : ℚ → Gesture) :
    e.callback f b 0 = [] := by
  rw [callback, if_neg (by linarith), if_neg (by linarith)]

/-- The speed that a callback gets. -/
theorem of_mem_callback {f b : ℚ → Gesture} {g : Gesture} (hv : |v| ≤ e.maxSpeed)
    (hg : g ∈ e.callback f b v) :
    ∃ w, e.minSpeed < w ∧ w ≤ e.maxSpeed ∧ (g = f w ∨ g = b w) := by
  rw [abs_le] at hv
  rw [callback] at hg
  split at hg
  case isTrue h => exact ⟨v, h, hv.2, .inl (List.mem_singleton.mp hg)⟩
  case isFalse =>
    split at hg
    case isTrue h => exact ⟨-v, by linarith, by linarith, .inr (List.mem_singleton.mp hg)⟩
    case isFalse => cases hg

/-- The thresholds are calculated from the size, and the speeds within them; before, the speeds
are zero. -/
structure WithinLimits (height : ℚ) (e : EntityEvent) : Prop where
  /-- its size -/
  height_eq : e.height = height
  /-- no speed before the first touch -/
  untouched : e.isFirstTime = true → e.scrollSpeed = 0 ∧ e.swipeSpeed = 0
  /-- the limits after it -/
  touched : e.isFirstTime = false →
    e.minSpeed = height * (1 / 1000) ∧ e.maxSpeed = height * (3 / 100)
  /-- not negative in any case -/
  minSpeed : 0 ≤ e.minSpeed
  /-- the scroll speed -/
  scroll : |e.scrollSpeed| ≤ e.maxSpeed
  /-- the swipe speed -/
  swipe : |e.swipeSpeed| ≤ e.maxSpeed

/-- What a touch can do to an entity with calculated thresholds. -/
inductive Hits (c : EntityEvent) (event : Touch) : EntityEvent → List Gesture → Prop
  /-- a tap that is called back -/
  | tap (hpassed : { c.tapEvent with currentTimestamp := event.lastUpdated }.Passed) :
      Hits c event
        { c with tapEvent := { c.tapEvent with currentTimestamp := event.lastUpdated }.begin }
        [.tap event.loc.x event.loc.y]
  /-- one that comes too early -/
  | early : Hits c event { c with tapEvent.currentTimestamp := event.lastUpdated } []
  /-- nothing, or a movement below the thresholds -/
  | rest : Hits c event c []
  /-- a scroll -/
  | scroll : Hits c event
      { c with
        scrollEvent.currentTimestamp := event.lastUpdated
        scrollSpeed := c.limit (c.scrollSpeed + event.delta.y) } []
  /-- a swipe -/
  | swipe : Hits c event
      { c with
        swipeEvent.currentTimestamp := event.lastUpdated
        swipeSpeed := c.limit (c.swipeSpeed + event.delta.x) } []

/-- What `HandleHit` can do. -/
theorem handleHit_cases (e : EntityEvent) (event : Touch) :
    e.handleHit event = (e, [.clap]) ∨
      Hits e.calculateThresholds event (e.handleHit event).1 (e.handleHit event).2 := by
  rw [handleHit]
  split
  · exact .inl rfl
  · refine .inr ?_
    dsimp only
    split
    · split
      case isTrue hpassed => exact .tap hpassed
      case isFalse => exact .early
    · split
      · exact .rest
      · split
        · exact .rest
        · split
          · exact .scroll
          · exact .swipe

@[simp] theorem calculateThresholds_isFirstTime (e : EntityEvent) :
    e.calculateThresholds.isFirstTime = false := by
  rw [calculateThresholds]
  split
  · rfl
  case isFalse h => exact Bool.eq_false_of_not_eq_true h

variable {height : ℚ}

theorem WithinLimits.calculateThresholds (h : WithinLimits height e) (hheight : 0 ≤ height) :
    WithinLimits height e.calculateThresholds := by
  rw [EntityEvent.calculateThresholds]
  split
  case isTrue hfirst =>
    obtain ⟨hscroll, hswipe⟩ := h.untouched hfirst
    have hmax : (0 : ℚ) ≤ height * (3 / 100) := by linarith
    refine ⟨h.height_eq, fun hfalse => ?_, fun _ => ?_, ?_, ?_, ?_⟩
    · cases hfalse
    · exact ⟨by rw [h.height_eq], by rw [h.height_eq]⟩
    · rw [h.height_eq]
      linarith
    · rwa [h.height_eq, hscroll, abs_zero]
    · rwa [h.height_eq, hswipe, abs_zero]
  · exact h

/-- Touched, the limits are in order. -/
theorem WithinLimits.minSpeed_le (h : WithinLimits height e) (hheight : 0 ≤ height)
    (htouched : e.isFirstTime = false) : e.minSpeed ≤ e.maxSpeed := by
  obtain ⟨hmin, hmax⟩ := h.touched htouched
  rw [hmin, hmax]
  linarith

theorem WithinLimits.handleHit (h : WithinLimits height e) (hheight : 0 ≤ height)
    (event : Touch) : WithinLimits height (e.handleHit event).1 := by
  rcases handleHit_cases e event with heq | hhits
  · rwa [heq]
  · have hc := h.calculateThresholds hheight
    have htouched := calculateThresholds_isFirstTime e
    have hle := hc.minSpeed_le hheight htouched
    generalize e.calculateThresholds = c at hc htouched hle hhits
    generalize (e.handleHit event).1 = e' at hhits ⊢
    generalize (e.handleHit event).2 = gs at hhits
    have huntouched : ∀ {P : Prop}, c.isFirstTime = true → P := fun hfirst => by
      cases htouched.symm.trans hfirst
    cases hhits with
    | tap => exact ⟨hc.height_eq, hc.untouched, hc.touched, hc.minSpeed, hc.scroll, hc.swipe⟩
    | early => exact ⟨hc.height_eq, hc.untouched, hc.touched, hc.minSpeed, hc.scroll, hc.swipe⟩
    | rest => exact hc
    | scroll =>
      exact ⟨hc.height_eq, huntouched, hc.touched, hc.minSpeed, abs_limit_le hc.minSpeed hle,
        hc.swipe⟩
    | swipe =>
      exact ⟨hc.height_eq, huntouched, hc.touched, hc.minSpeed, hc.scroll,
        abs_limit_le hc.minSpeed hle⟩

/-- Scroll callbacks make the speed decay, or do not come. -/
theorem runScroll_cases (e : EntityEvent) :
    (e.scrollEvent.Passed ∧ e.runScroll =
      ({ e with scrollEvent := e.scrollEvent.begin, scrollSpeed := e.decay e.scrollSpeed },
        e.callback .scrollDown .scrollUp e.scrollSpeed)) ∨
    e.runScroll = (e, []) := by
  rw [runScroll]
  split
  case isTrue hpassed => exact .inl ⟨hpassed, rfl⟩
  case isFalse => exact .inr rfl

/-- Swipe callbacks make the speed decay, or do not come. -/
theorem runSwipe_cases (e : EntityEvent) :
    (e.swipeEvent.Passed ∧ e.runSwipe =
      ({ e with swipeEvent := e.swipeEvent.begin, swipeSpeed := e.decay e.swipeSpeed },
        e.callback .swipeRight .swipeLeft e.swipeSpeed)) ∨
    e.runSwipe = (e, []) := by
  rw [runSwipe]
  split
  case isTrue hpassed => exact .inl ⟨hpassed, rfl⟩
  case isFalse => exact .inr rfl

theorem WithinLimits.runScroll (h : WithinLimits height e) : WithinLimits height e.runScroll.1 := by
  rcases runScroll_cases e with ⟨-, heq⟩ | heq
  · rw [heq]
    refine ⟨h.height_eq, fun hfirst => ?_, h.touched, h.minSpeed,
      abs_decay_le h.minSpeed h.scroll, h.swipe⟩
    obtain ⟨hscroll, hswipe⟩ := h.untouched hfirst
    exact ⟨by rw [hscroll, decay_zero h.minSpeed], hswipe⟩
  · rwa [heq]

theorem WithinLimits.runSwipe (h : WithinLimits height e) : WithinLimits height e.runSwipe.1 := by
  rcases runSwipe_cases e with ⟨-, heq⟩ | heq
  · rw [heq]
    refine ⟨h.height_eq, fun hfirst => ?_, h.touched, h.minSpeed, h.scroll,
      abs_decay_le h.minSpeed h.swipe⟩
    obtain ⟨hscroll, hswipe⟩ := h.untouched hfirst
    exact ⟨hscroll, by rw [hswipe, decay_zero h.minSpeed]⟩
  · rwa [heq]

theorem WithinLimits.react (h : WithinLimits height e) (hheight : 0 ≤ height) (input : Input) :
    WithinLimits height (e.react input).1 := by
  cases input with
  | hit event => exact h.handleHit hheight event
  | callbacks => exact h.runScroll.runSwipe

/-- A callback's speed is within the limits. -/
def SpeedWithin (height : ℚ) (g : Gesture) : Prop :=
  ∀ w ∈ g.speed, height * (1 / 1000) < w ∧ w ≤ height * (3 / 100)

/-- Callbacks from within the limits. -/
theorem WithinLimits.speedWithin_callback (h : WithinLimits height e) {f b : ℚ → Gesture}
    (hf : ∀ w, (f w).speed = some w) (hb : ∀ w, (b w).speed = some w) (hv : |v| ≤ e.maxSpeed)
    (hzero : e.isFirstTime = true → v = 0) {g : Gesture} (hg : g ∈ e.callback f b v) :
    SpeedWithin height g := by
  by_cases hfirst : e.isFirstTime = true
  · rw [hzero hfirst, callback_zero h.minSpeed] at hg
    cases hg
  · obtain ⟨hmin, hmax⟩ := h.touched (Bool.eq_false_of_not_eq_true hfirst)
    obtain ⟨w, hlt, hle, rfl | rfl⟩ := of_mem_callback hv hg
    · intro w' hw'
      obtain rfl := Option.some.inj ((hf w).symm.trans hw')
      exact ⟨hmin ▸ hlt, hmax ▸ hle⟩
    · intro w' hw'
      obtain rfl := Option.some.inj ((hb w).symm.trans hw')
      exact ⟨hmin ▸ hlt, hmax ▸ hle⟩

theorem WithinLimits.speedWithin_react (h : WithinLimits height e) (input : Input) :
    ∀ g ∈ (e.react input).2, SpeedWithin height g := by
  have hnone : ∀ {g : Gesture}, g.speed = none → SpeedWithin height g := fun hg w hw => by
    cases hg.symm.trans hw
  cases input with
  | hit event =>
    rw [EntityEvent.react]
    rcases handleHit_cases e event with heq | hhits
    · rw [heq]
      exact List.forall_mem_singleton.mpr (hnone rfl)
    · generalize (e.handleHit event).1 = e' at hhits
      generalize (e.handleHit event).2 = gs at hhits ⊢
      cases hhits with
      | tap => exact List.forall_mem_singleton.mpr (hnone rfl)
      | early => exact List.forall_mem_nil _
      | rest => exact List.forall_mem_nil _
      | scroll => exact List.forall_mem_nil _
      | swipe => exact List.forall_mem_nil _
  | callbacks =>
    refine List.forall_mem_append.mpr ⟨?_, ?_⟩
    · rcases runScroll_cases e with ⟨-, heq⟩ | heq
      · rw [heq]
        exact fun g hg => h.speedWithin_callback (fun _ => rfl) (fun _ => rfl) h.scroll
          (fun hfirst => (h.untouched hfirst).1) hg
      · rw [heq]
        exact List.forall_mem_nil _
    · rcases runSwipe_cases e.runScroll.1 with ⟨-, heq⟩ | heq
      · rw [heq]
        exact fun g hg => h.runScroll.speedWithin_callback (fun _ => rfl) (fun _ => rfl)
          h.runScroll.swipe (fun hfirst => (h.runScroll.untouched hfirst).2) hg
      · rw [heq]
        exact List.forall_mem_nil _

end EntityEvent

namespace Gesturing

open EntityEvent

variable {e : EntityEvent}

theorem withinLimits_of_constructed (h : e.Constructed) (hmin : 0 ≤ e.minSpeed)
    (hmax : 0 ≤ e.maxSpeed) : WithinLimits e.height e where
  height_eq := rfl
  untouched _ := ⟨h.scrollSpeed, h.swipeSpeed⟩
  touched hfalse := by cases hfalse.symm.trans h.isFirstTime
  minSpeed := hmin
  scroll := by rwa [h.scrollSpeed, abs_zero]
  swipe := by rwa [h.swipeSpeed, abs_zero]

/-- **No call beyond the limits.** Whatever touches an entity, and however often its callbacks
run in between: each scroll and swipe has, over exact rationals, a speed above a thousandth of the
height, and of at most three hundredths. Before the first touch this needs that the memory for
the limits held no negative number. -/
theorem speeds_within_limits (h : e.Constructed) (hmin : 0 ≤ e.minSpeed) (hmax : 0 ≤ e.maxSpeed)
    (hheight : 0 ≤ e.height) (inputs : List Input) :
    WithinLimits e.height (run ⟨e, []⟩ inputs).entity ∧
      ∀ call ∈ (run ⟨e, []⟩ inputs).calls, SpeedWithin e.height call.2 := by
  refine run_preserves (I := fun s => WithinLimits e.height s.entity ∧
    ∀ call ∈ s.calls, SpeedWithin e.height call.2) ?_
    ⟨withinLimits_of_constructed h hmin hmax, List.forall_mem_nil _⟩ inputs
  rintro s input ⟨hlimits, hcalls⟩
  refine ⟨hlimits.react hheight input, List.forall_mem_append.mpr ⟨hcalls, ?_⟩⟩
  intro call hcall
  obtain ⟨g, hg, rfl⟩ := List.mem_map.mp hcall
  exact hlimits.speedWithin_react input g hg

end Gesturing

/-! ## Intervals -/

/-- The kinds of callbacks that have an interval. -/
inductive GestureKind where
  /-- taps -/
  | tap
  /-- scrolls -/
  | scroll
  /-- swipes -/
  | swipe
  deriving DecidableEq

/-- The kind of a gesture. -/
def Gesture.kind : Gesture → Option GestureKind
  | .tap _ _ => some .tap
  | .scrollDown _ | .scrollUp _ => some .scroll
  | .swipeLeft _ | .swipeRight _ => some .swipe
  | .clap => none

namespace EntityEvent

/-- The interval of a kind. -/
def interval (e : EntityEvent) : GestureKind → EventInterval
  | .tap => e.tapEvent
  | .scroll => e.scrollEvent
  | .swipe => e.swipeEvent

/-- What an input can do to an interval, with as many calls: leave it, or begin a new one for
one call at most. -/
def Elapses (i i' : EventInterval) (calls : ℕ) : Prop :=
  i'.seconds = i.seconds ∧
    (calls = 0 ∧ i'.previousTimestamp = i.previousTimestamp ∨
      calls ≤ 1 ∧ i'.previousTimestamp = i'.currentTimestamp ∧
        i'.currentTimestamp - i.previousTimestamp > i.seconds)

/-- The callbacks of a kind. -/
def ofKind (kind : GestureKind) (gs : List Gesture) : List Gesture :=
  gs.filter (·.kind = some kind)

@[simp] theorem interval_calculateThresholds (e : EntityEvent) (kind : GestureKind) :
    e.calculateThresholds.interval kind = e.interval kind := by
  rw [calculateThresholds]
  split
  · cases kind <;> rfl
  · rfl

theorem elapses_handleHit (e : EntityEvent) (event : Touch) (kind : GestureKind) :
    Elapses (e.interval kind) ((e.handleHit event).1.interval kind)
      (ofKind kind (e.handleHit event).2).length := by
  rcases handleHit_cases e event with heq | hhits
  · rw [heq]
    exact ⟨rfl, .inl ⟨rfl, rfl⟩⟩
  · rw [← interval_calculateThresholds e kind]
    generalize e.calculateThresholds = c at hhits
    generalize (e.handleHit event).1 = e' at hhits ⊢
    generalize (e.handleHit event).2 = gs at hhits ⊢
    cases hhits with
    | tap hpassed =>
      cases kind with
      | tap => exact ⟨rfl, .inr ⟨le_rfl, rfl, hpassed⟩⟩
      | scroll => exact ⟨rfl, .inl ⟨rfl, rfl⟩⟩
      | swipe => exact ⟨rfl, .inl ⟨rfl, rfl⟩⟩
    | early => cases kind <;> exact ⟨rfl, .inl ⟨rfl, rfl⟩⟩
    | rest => exact ⟨rfl, .inl ⟨rfl, rfl⟩⟩
    | scroll => cases kind <;> exact ⟨rfl, .inl ⟨rfl, rfl⟩⟩
    | swipe => cases kind <;> exact ⟨rfl, .inl ⟨rfl, rfl⟩⟩

theorem length_callback_le (e : EntityEvent) (f b : ℚ → Gesture) (v : ℚ) :
    (e.callback f b v).length ≤ 1 := by
  rw [callback]
  split
  · exact le_rfl
  · split
    · exact le_rfl
    · exact Nat.zero_le _

theorem kind_of_mem_callback {e : EntityEvent} {f b : ℚ → Gesture} {v : ℚ}
    {kind : Option GestureKind} {g : Gesture} (hg : g ∈ e.callback f b v)
    (hf : ∀ w, (f w).kind = kind) (hb : ∀ w, (b w).kind = kind) : g.kind = kind := by
  rw [callback] at hg
  split at hg
  · rw [List.mem_singleton.mp hg, hf]
  · split at hg
    · rw [List.mem_singleton.mp hg, hb]
    · cases hg

/-- All scroll callbacks are scrolls. -/
theorem kind_of_mem_runScroll {e : EntityEvent} {g : Gesture} (hg : g ∈ e.runScroll.2) :
    g.kind = some .scroll := by
  rcases runScroll_cases e with ⟨-, heq⟩ | heq
  · rw [heq] at hg
    exact kind_of_mem_callback hg (fun _ => rfl) fun _ => rfl
  · rw [heq] at hg
    cases hg

/-- All swipe callbacks are swipes. -/
theorem kind_of_mem_runSwipe {e : EntityEvent} {g : Gesture} (hg : g ∈ e.runSwipe.2) :
    g.kind = some .swipe := by
  rcases runSwipe_cases e with ⟨-, heq⟩ | heq
  · rw [heq] at hg
    exact kind_of_mem_callback hg (fun _ => rfl) fun _ => rfl
  · rw [heq] at hg
    cases hg

/-- Scrolls and swipes do not mix. -/
theorem ofKind_runCallbacks (e : EntityEvent) (kind : GestureKind) :
    ofKind kind e.runCallbacks.2 =
      match kind with
      | .tap => []
      | .scroll => e.runScroll.2
      | .swipe => e.runScroll.1.runSwipe.2 := by
  rw [runCallbacks, ofKind, List.filter_append]
  cases kind with
  | tap =>
    rw [List.filter_eq_nil_iff.mpr fun g hg => by simp [kind_of_mem_runScroll hg],
      List.filter_eq_nil_iff.mpr fun g hg => by simp [kind_of_mem_runSwipe hg], List.append_nil]
  | scroll =>
    rw [List.filter_eq_self.mpr fun g hg => by simp [kind_of_mem_runScroll hg],
      List.filter_eq_nil_iff.mpr fun g hg => by simp [kind_of_mem_runSwipe hg], List.append_nil]
  | swipe =>
    rw [List.filter_eq_nil_iff.mpr fun g hg => by simp [kind_of_mem_runScroll hg],
      List.filter_eq_self.mpr fun g hg => by simp [kind_of_mem_runSwipe hg], List.nil_append]

/-- Scroll callbacks leave the intervals of other kinds. -/
theorem interval_runScroll (e : EntityEvent) {kind : GestureKind} (hkind : kind ≠ .scroll) :
    e.runScroll.1.interval kind = e.interval kind := by
  rcases runScroll_cases e with ⟨-, heq⟩ | heq
  · rw [heq]
    cases kind with
    | tap => rfl
    | scroll => exact absurd rfl hkind
    | swipe => rfl
  · rw [heq]

/-- Swipe callbacks leave the intervals of other kinds. -/
theorem interval_runSwipe (e : EntityEvent) {kind : GestureKind} (hkind : kind ≠ .swipe) :
    e.runSwipe.1.interval kind = e.interval kind := by
  rcases runSwipe_cases e with ⟨-, heq⟩ | heq
  · rw [heq]
    cases kind with
    | tap => rfl
    | scroll => rfl
    | swipe => exact absurd rfl hkind
  · rw [heq]

theorem elapses_runCallbacks (e : EntityEvent) (kind : GestureKind) :
    Elapses (e.interval kind) (e.runCallbacks.1.interval kind)
      (ofKind kind e.runCallbacks.2).length := by
  rw [ofKind_runCallbacks, runCallbacks]
  cases kind with
  | tap =>
    rw [interval_runSwipe _ (by decide), interval_runScroll _ (by decide)]
    exact ⟨rfl, .inl ⟨rfl, rfl⟩⟩
  | scroll =>
    rw [interval_runSwipe _ (by decide)]
    rcases runScroll_cases e with ⟨hpassed, heq⟩ | heq
    · rw [heq]
      exact ⟨rfl, .inr ⟨length_callback_le _ _ _ _, rfl, hpassed⟩⟩
    · rw [heq]
      exact ⟨rfl, .inl ⟨rfl, rfl⟩⟩
  | swipe =>
    rw [← interval_runScroll e (show GestureKind.swipe ≠ .scroll by decide)]
    rcases runSwipe_cases e.runScroll.1 with ⟨hpassed, heq⟩ | heq
    · rw [heq]
      exact ⟨rfl, .inr ⟨length_callback_le _ _ _ _, rfl, hpassed⟩⟩
    · rw [heq]
      exact ⟨rfl, .inl ⟨rfl, rfl⟩⟩

theorem elapses_react (e : EntityEvent) (input : Input) (kind : GestureKind) :
    Elapses (e.interval kind) ((e.react input).1.interval kind)
      (ofKind kind (e.react input).2).length := by
  cases input with
  | hit event => exact elapses_handleHit e event kind
  | callbacks => exact elapses_runCallbacks e kind

end EntityEvent

namespace Gesturing

open EntityEvent

variable {e : EntityEvent}

/-- When the callbacks of a kind were made: the times of the touches that they answer. -/
def times (kind : GestureKind) (calls : List (EntityEvent × Gesture)) : List ℚ :=
  (calls.filter (·.2.kind = some kind)).map fun call => (call.1.interval kind).currentTimestamp

theorem times_append (kind : GestureKind) (calls calls' : List (EntityEvent × Gesture)) :
    times kind (calls ++ calls') = times kind calls ++ times kind calls' := by
  rw [times, List.filter_append, List.map_append, times, times]

/-- The times of new callbacks. -/
theorem times_map (kind : GestureKind) (e : EntityEvent) (gs : List Gesture) :
    times kind (gs.map (e, ·)) =
      List.replicate (ofKind kind gs).length (e.interval kind).currentTimestamp := by
  rw [times, List.filter_map, List.map_map, ofKind, List.eq_replicate_iff]
  refine ⟨by rw [List.length_map]; rfl, fun t ht => ?_⟩
  obtain ⟨g, -, rfl⟩ := List.mem_map.mp ht
  rfl

/-- The callbacks of a kind are further apart than their interval, and none is later than the
time that the next one is measured from. -/
structure Spaced (kind : GestureKind) (seconds : ℚ) (s : Gesturing) : Prop where
  /-- the interval stays what it is -/
  seconds_eq : (s.entity.interval kind).seconds = seconds
  /-- apart -/
  chain : (times kind s.calls).IsChain fun t t' => t' - t > seconds
  /-- not later -/
  last : ∀ t ∈ (times kind s.calls).getLast?, t ≤ (s.entity.interval kind).previousTimestamp

theorem Spaced.next {kind : GestureKind} {seconds : ℚ} (hpos : 0 ≤ seconds) {s : Gesturing}
    (h : Spaced kind seconds s) (input : Input) : Spaced kind seconds (s.next input) := by
  obtain ⟨hseconds, hcases⟩ := elapses_react s.entity input kind
  have htimes : times kind (s.next input).calls = times kind s.calls ++
      List.replicate (ofKind kind (s.entity.react input).2).length
        ((s.next input).entity.interval kind).currentTimestamp := by
    rw [Gesturing.next, times_append, times_map]
  rw [h.seconds_eq] at hseconds hcases
  rcases hcases with ⟨hnone, hprevious⟩ | ⟨hone, hprevious, hpassed⟩
  · rw [hnone, List.replicate_zero, List.append_nil] at htimes
    exact ⟨hseconds, htimes ▸ h.chain, fun t ht => hprevious.symm ▸ h.last t (htimes ▸ ht)⟩
  · have hlater : ∀ t ∈ (times kind s.calls).getLast?,
        ((s.next input).entity.interval kind).currentTimestamp - t > seconds := by
      intro t ht
      have hlast := h.last t ht
      rw [Gesturing.next]
      linarith
    rcases Nat.le_one_iff_eq_zero_or_eq_one.mp hone with hnone | hsome
    · rw [hnone, List.replicate_zero, List.append_nil] at htimes
      refine ⟨hseconds, htimes ▸ h.chain, fun t ht => ?_⟩
      rw [htimes] at ht
      have hapart := hlater t ht
      rw [Gesturing.next] at hapart ⊢
      linarith
    · rw [hsome, List.replicate_one] at htimes
      refine ⟨hseconds, ?_, fun t ht => ?_⟩
      · rw [htimes, List.isChain_append]
        refine ⟨h.chain, List.isChain_singleton _, fun t ht t' ht' => ?_⟩
        obtain rfl := Option.some.inj ht'
        exact hlater t ht
      · rw [htimes, List.getLast?_concat] at ht
        obtain rfl := Option.some.inj ht
        exact hprevious.ge

/-- **Calls are spaced.** Whatever touches an entity, with whatever times, and however often its
callbacks run: taps answer touches that are further apart than the interval for taps, if that is
not negative, and so do scrolls and swipes. -/
theorem calls_spaced (e : EntityEvent) (inputs : List Input) (kind : GestureKind)
    (hpos : 0 ≤ (e.interval kind).seconds) :
    (times kind (run ⟨e, []⟩ inputs).calls).IsChain fun t t' =>
      t' - t > (e.interval kind).seconds := by
  refine (run_preserves (I := Spaced kind (e.interval kind).seconds)
    (fun _ input hs => hs.next hpos input) ?_ inputs).chain
  refine ⟨rfl, .nil, ?_⟩
  rintro _ ⟨⟩

end Gesturing

/-! ## Glides -/

namespace EntityEvent

variable {e : EntityEvent} {v : ℚ}

/-- One direction of `RunCallbacks`: its interval and speed after it, and its calls. -/
def turn (e : EntityEvent) (f b : ℚ → Gesture) (i : EventInterval) (v : ℚ) :
    EventInterval × ℚ × List Gesture :=
  if i.Passed then (i.begin, e.decay v, e.callback f b v) else (i, v, [])

/-- The calls of as many turns. -/
def turns (e : EntityEvent) (f b : ℚ → Gesture) : ℕ → EventInterval → ℚ → List Gesture
  | 0, _, _ => []
  | n + 1, i, v =>
    (e.turn f b i v).2.2 ++ e.turns f b n (e.turn f b i v).1 (e.turn f b i v).2.1

/-- The calls of a glide: each slower than the one before by the same amount, all of them faster
than the minimum. -/
def IsGlide (e : EntityEvent) (f : ℚ → Gesture) (v : ℚ) (gs : List Gesture) : Prop :=
  ∃ k : ℕ, gs = (List.range k).map (fun j : ℕ => f (v - j * (e.maxSpeed * (5 / 100)))) ∧
    ∀ j < k, e.minSpeed < v - j * (e.maxSpeed * (5 / 100))

theorem isGlide_nil (e : EntityEvent) (f : ℚ → Gesture) (v : ℚ) : e.IsGlide f v [] :=
  ⟨0, rfl, fun _ hj => absurd hj (Nat.not_lt_zero _)⟩

/-- A glide begins with a call, and goes on from the decayed speed. -/
theorem IsGlide.cons {f : ℚ → Gesture} {gs : List Gesture} (hmin : 0 ≤ e.minSpeed)
    (hv : v > e.minSpeed) (h : e.IsGlide f (e.decay v) gs) : e.IsGlide f v (f v :: gs) := by
  obtain ⟨k, rfl, hk⟩ := h
  rw [decay, if_pos hv] at hk ⊢
  by_cases hpos : 0 ≤ v - e.maxSpeed * (5 / 100)
  · rw [max_eq_left hpos] at hk ⊢
    have hshift : ∀ j : ℕ, v - e.maxSpeed * (5 / 100) - j * (e.maxSpeed * (5 / 100)) =
        v - ((j + 1 : ℕ) : ℚ) * (e.maxSpeed * (5 / 100)) := by
      intro j
      push_cast
      ring
    refine ⟨k + 1, ?_, fun j hj => ?_⟩
    · rw [List.range_succ_eq_map, List.map_cons, List.map_map]
      simp only [Nat.cast_zero, zero_mul, sub_zero, hshift]
      rfl
    · cases j with
      | zero => simpa using hv
      | succ j => exact hshift j ▸ hk j (by omega)
  · rw [max_eq_right (le_of_not_ge hpos)] at hk ⊢
    cases k with
    | zero => exact ⟨1, by simp, fun j hj => by simpa [Nat.lt_one_iff.mp hj] using hv⟩
    | succ k =>
      have hfirst := hk 0 (Nat.succ_pos k)
      rw [Nat.cast_zero, zero_mul, sub_zero] at hfirst
      linarith

/-- Turns from a speed that is not negative. -/
theorem isGlide_turns (hmin : 0 ≤ e.minSpeed) (f b : ℚ → Gesture) (n : ℕ) (i : EventInterval)
    (hv : 0 ≤ v) : e.IsGlide f v (e.turns f b n i v) := by
  induction n generalizing i v with
  | zero => exact isGlide_nil e f v
  | succ n ih =>
    rw [turns, turn]
    split
    · by_cases hfast : v > e.minSpeed
      · have hdecay : 0 ≤ e.decay v := by
          rw [decay, if_pos hfast]
          exact le_max_right _ _
        rw [callback, if_pos hfast]
        exact (ih i.begin hdecay).cons hmin hfast
      · have hslow : ¬v < -e.minSpeed := by linarith
        have hzero := ih i.begin le_rfl
        rw [callback, decay, if_neg hfast, if_neg hslow, if_neg hfast, if_neg hslow,
          List.nil_append]
        obtain ⟨k, hgs, hk⟩ := hzero
        cases k with
        | zero => exact hgs ▸ isGlide_nil e f v
        | succ k =>
          have hfirst := hk 0 (Nat.succ_pos k)
          rw [Nat.cast_zero, zero_mul, sub_zero] at hfirst
          linarith
    · exact ih i hv

/-- The other direction, mirrored. -/
theorem callback_neg (hmin : 0 ≤ e.minSpeed) (f b : ℚ → Gesture) (v : ℚ) :
    e.callback f b (-v) = e.callback b f v := by
  rw [callback, callback]
  by_cases hfast : v > e.minSpeed
  · rw [if_neg (by linarith), if_pos (by linarith), if_pos hfast, neg_neg]
  · rw [if_neg hfast]
    by_cases hback : v < -e.minSpeed
    · rw [if_pos (by linarith), if_pos hback]
    · rw [if_neg (by linarith), if_neg (by linarith), if_neg hback]

theorem decay_neg (hmin : 0 ≤ e.minSpeed) (v : ℚ) : e.decay (-v) = -e.decay v := by
  rw [decay, decay]
  by_cases hfast : v > e.minSpeed
  · rw [if_neg (by linarith), if_pos (by linarith), if_pos hfast, ← min_neg_neg,
      neg_zero, neg_sub, neg_add_eq_sub]
  · rw [if_neg hfast]
    by_cases hback : v < -e.minSpeed
    · rw [if_pos (by linarith), if_pos hback, ← max_neg_neg, neg_zero, neg_add, sub_eq_add_neg]
    · rw [if_neg (by linarith), if_neg (by linarith), if_neg hback, neg_zero]

theorem turns_neg (hmin : 0 ≤ e.minSpeed) (f b : ℚ → Gesture) (n : ℕ) (i : EventInterval) (v : ℚ) :
    e.turns f b n i (-v) = e.turns b f n i v := by
  induction n generalizing i v with
  | zero => rfl
  | succ n ih =>
    rw [turns, turns, turn, turn]
    split
    · dsimp only
      rw [callback_neg hmin, decay_neg hmin, ih]
    · exact ih i v

/-- Turns whose first makes no call make none. -/
theorem turns_of_nil (hmin : 0 ≤ e.minSpeed) {f b : ℚ → Gesture} {i : EventInterval}
    (h : (e.turn f b i v).2.2 = []) (n : ℕ) : e.turns f b n i v = [] := by
  have hzero : ∀ n i, e.turns f b n i 0 = [] := by
    intro n
    induction n with
    | zero => exact fun _ => rfl
    | succ n ih =>
      intro i
      rw [turns, turn]
      split
      · dsimp only
        rw [callback_zero hmin, decay_zero hmin, ih, List.append_nil]
      · exact ih i
  cases n with
  | zero => rfl
  | succ n =>
    rw [turns, h, List.nil_append]
    rw [turn] at h ⊢
    split at h
    case isTrue hpassed =>
      rw [if_pos hpassed]
      dsimp only at h ⊢
      rw [callback] at h
      split at h
      · cases h
      case isFalse hslow =>
        split at h
        · cases h
        case isFalse hback => rw [decay, if_neg hslow, if_neg hback, hzero]
    case isFalse hpassed =>
      rw [if_neg hpassed]
      clear h
      induction n with
      | zero => rfl
      | succ n ih => rw [turns, turn, if_neg hpassed, List.nil_append, ih]

theorem length_turn_le (e : EntityEvent) (f b : ℚ → Gesture) (i : EventInterval) (v : ℚ) :
    (e.turn f b i v).2.2.length ≤ 1 := by
  rw [turn]
  split
  · exact length_callback_le e f b v
  · exact Nat.zero_le _

/-- There is a call in each turn, or all calls have been made. -/
theorem turns_cases (hmin : 0 ≤ e.minSpeed) (f b : ℚ → Gesture) (n : ℕ) (i : EventInterval)
    (v : ℚ) : (e.turns f b n i v).length = n ∨
      ∀ m, n ≤ m → e.turns f b m i v = e.turns f b n i v := by
  induction n generalizing i v with
  | zero => exact .inl rfl
  | succ n ih =>
    by_cases hnil : (e.turn f b i v).2.2 = []
    · exact .inr fun m _ => by rw [turns_of_nil hmin hnil, turns_of_nil hmin hnil]
    · have hone : (e.turn f b i v).2.2.length = 1 :=
        le_antisymm (length_turn_le e f b i v) (List.length_pos_iff.mpr hnil)
      rcases ih (e.turn f b i v).1 (e.turn f b i v).2.1 with hlength | hall
      · refine .inl ?_
        rw [turns, List.length_append, hone, hlength, Nat.add_comm]
      · refine .inr fun m hm => ?_
        obtain ⟨m, rfl⟩ := Nat.exists_eq_add_of_le' (Nat.le_trans (Nat.succ_le_succ n.zero_le) hm)
        rw [turns, turns, hall m (by omega)]

/-- Fewer turns make the first of the calls. -/
theorem turns_isPrefix (e : EntityEvent) (f b : ℚ → Gesture) {n m : ℕ} (h : n ≤ m)
    (i : EventInterval) (v : ℚ) : e.turns f b n i v <+: e.turns f b m i v := by
  induction n generalizing i v m with
  | zero => exact List.nil_prefix
  | succ n ih =>
    obtain ⟨m, rfl⟩ := Nat.exists_eq_add_of_le' (Nat.le_trans (Nat.succ_le_succ n.zero_le) h)
    exact (List.prefix_append_right_inj _).mpr (ih (by omega) _ _)

/-- The calls for frames without touches: at most twenty, in the direction of the speed, each
slower than the one before by the same amount, and none after the twentieth frame. -/
structure Glides (e : EntityEvent) (f b : ℚ → Gesture) (v : ℚ) (calls : ℕ → List Gesture) :
    Prop where
  /-- the calls -/
  calls_eq : ∀ n, ∃ k ≤ 20, calls n = (List.range k).map fun j : ℕ =>
    (if 0 ≤ v then f else b) (|v| - j * (e.maxSpeed * (5 / 100)))
  /-- no others -/
  ends : ∀ n, 20 ≤ n → calls n = calls 20

/-- A glide has at most twenty calls. -/
theorem IsGlide.exists_le {f : ℚ → Gesture} {gs : List Gesture} (hmin : 0 ≤ e.minSpeed)
    (hv : v ≤ e.maxSpeed) (h : e.IsGlide f v gs) : ∃ k ≤ 20, gs = (List.range k).map fun j : ℕ =>
      f (v - j * (e.maxSpeed * (5 / 100))) := by
  obtain ⟨k, rfl, hk⟩ := h
  refine ⟨k, ?_, rfl⟩
  by_contra hlong
  have hlast := hk 20 (by omega)
  push_cast at hlast
  linarith

theorem glides_turns (hmin : 0 ≤ e.minSpeed) (hv : |v| ≤ e.maxSpeed) (f b : ℚ → Gesture)
    (i : EventInterval) : e.Glides f b v fun n => e.turns f b n i v := by
  have hcalls : ∀ n, ∃ k ≤ 20, e.turns f b n i v = (List.range k).map fun j : ℕ =>
      (if 0 ≤ v then f else b) (|v| - j * (e.maxSpeed * (5 / 100))) := by
    intro n
    by_cases hpos : 0 ≤ v
    · rw [if_pos hpos, abs_of_nonneg hpos] at *
      exact (isGlide_turns hmin f b n i hpos).exists_le hmin hv
    · have hneg : 0 ≤ -v := by linarith
      rw [if_neg hpos, abs_of_neg (by linarith), ← neg_neg v, turns_neg hmin, neg_neg] at *
      exact (isGlide_turns hmin b f n i hneg).exists_le hmin hv
  refine ⟨hcalls, fun n hn => ?_⟩
  rcases turns_cases hmin f b 20 i v with hlength | hall
  · obtain ⟨k, hk, heq⟩ := hcalls n
    refine ((turns_isPrefix e f b hn i v).eq_of_length_le ?_).symm
    rw [hlength, heq, List.length_map, List.length_range]
    exact hk
  · exact hall n hn

/-- The calls of as many frames without touches. -/
def frames : ℕ → EntityEvent → List Gesture
  | 0, _ => []
  | n + 1, e => e.runCallbacks.2 ++ frames n e.runCallbacks.1

/-- The limits alone count. -/
theorem turns_congr {e e' : EntityEvent} (hmin : e'.minSpeed = e.minSpeed)
    (hmax : e'.maxSpeed = e.maxSpeed) (f b : ℚ → Gesture) (n : ℕ) (i : EventInterval) (v : ℚ) :
    e'.turns f b n i v = e.turns f b n i v := by
  have hturn : ∀ i v, e'.turn f b i v = e.turn f b i v := by
    intro i v
    rw [turn, turn, callback, callback, decay, decay, hmin, hmax]
  induction n generalizing i v with
  | zero => rfl
  | succ n ih => rw [turns, turns, hturn, ih]

theorem runScroll_turn (e : EntityEvent) :
    (e.runScroll.1.scrollEvent, e.runScroll.1.scrollSpeed, e.runScroll.2) =
      e.turn .scrollDown .scrollUp e.scrollEvent e.scrollSpeed := by
  rw [runScroll, turn]
  split <;> rfl

theorem runSwipe_turn (e : EntityEvent) :
    (e.runSwipe.1.swipeEvent, e.runSwipe.1.swipeSpeed, e.runSwipe.2) =
      e.turn .swipeRight .swipeLeft e.swipeEvent e.swipeSpeed := by
  rw [runSwipe, turn]
  split <;> rfl

/-- What scroll callbacks leave. -/
theorem runScroll_keeps (e : EntityEvent) :
    e.runScroll.1.minSpeed = e.minSpeed ∧ e.runScroll.1.maxSpeed = e.maxSpeed ∧
      e.runScroll.1.swipeEvent = e.swipeEvent ∧ e.runScroll.1.swipeSpeed = e.swipeSpeed := by
  rw [runScroll]
  split <;> exact ⟨rfl, rfl, rfl, rfl⟩

/-- What swipe callbacks leave. -/
theorem runSwipe_keeps (e : EntityEvent) :
    e.runSwipe.1.minSpeed = e.minSpeed ∧ e.runSwipe.1.maxSpeed = e.maxSpeed ∧
      e.runSwipe.1.scrollEvent = e.scrollEvent ∧ e.runSwipe.1.scrollSpeed = e.scrollSpeed := by
  rw [runSwipe]
  split <;> exact ⟨rfl, rfl, rfl, rfl⟩

theorem ofKind_append (kind : GestureKind) (gs gs' : List Gesture) :
    ofKind kind (gs ++ gs') = ofKind kind gs ++ ofKind kind gs' := List.filter_append ..

/-- The scrolls of frames are turns. -/
theorem ofKind_scroll_frames (n : ℕ) (e : EntityEvent) :
    ofKind .scroll (frames n e) =
      e.turns .scrollDown .scrollUp n e.scrollEvent e.scrollSpeed := by
  induction n generalizing e with
  | zero => rfl
  | succ n ih =>
    obtain ⟨hmin, hmax, -, -⟩ := runScroll_keeps e
    obtain ⟨hmin', hmax', hevent, hspeed⟩ := runSwipe_keeps e.runScroll.1
    have hturn := runScroll_turn e
    rw [frames, ofKind_append, ofKind_runCallbacks, ih, turns, ← hturn, runCallbacks]
    dsimp only
    rw [turns_congr (hmin'.trans hmin) (hmax'.trans hmax), hevent, hspeed]

/-- The swipes of frames are turns. -/
theorem ofKind_swipe_frames (n : ℕ) (e : EntityEvent) :
    ofKind .swipe (frames n e) = e.turns .swipeRight .swipeLeft n e.swipeEvent e.swipeSpeed := by
  induction n generalizing e with
  | zero => rfl
  | succ n ih =>
    obtain ⟨hmin, hmax, hevent, hspeed⟩ := runScroll_keeps e
    obtain ⟨hmin', hmax', -, -⟩ := runSwipe_keeps e.runScroll.1
    have hturn : (e.runScroll.1.runSwipe.1.swipeEvent, e.runScroll.1.runSwipe.1.swipeSpeed,
        e.runScroll.1.runSwipe.2) = e.turn .swipeRight .swipeLeft e.swipeEvent e.swipeSpeed := by
      rw [runSwipe_turn, hevent, hspeed, turn, turn, callback, callback, decay, decay, hmin, hmax]
    rw [frames, ofKind_append, ofKind_runCallbacks, ih, turns, ← hturn, runCallbacks]
    dsimp only
    rw [turns_congr (hmin'.trans hmin) (hmax'.trans hmax)]

end EntityEvent

namespace Gesturing

open EntityEvent

variable {e : EntityEvent}

/-- **Glides end.** Whatever has touched an entity: once it is let go, each further frame calls
back with a speed that is less by a fixed amount (over exact rationals), always in the same
direction, and after twenty frames there are no more calls; this holds of scrolls and of
swipes. -/
theorem glide_ends (h : e.Constructed) (hmin : 0 ≤ e.minSpeed) (hmax : 0 ≤ e.maxSpeed)
    (hheight : 0 ≤ e.height) (inputs : List Input) {e' : EntityEvent}
    (he' : (run ⟨e, []⟩ inputs).entity = e') :
    e'.Glides .scrollDown .scrollUp e'.scrollSpeed (fun n => ofKind .scroll (frames n e')) ∧
      e'.Glides .swipeRight .swipeLeft e'.swipeSpeed (fun n => ofKind .swipe (frames n e')) := by
  have hlimits : WithinLimits e.height e' := by
    rw [← he']
    exact run_preserves (I := fun s => WithinLimits e.height s.entity)
      (fun _ input hs => hs.react hheight input) (withinLimits_of_constructed h hmin hmax) inputs
  refine ⟨?_, ?_⟩
  · simp only [ofKind_scroll_frames]
    exact glides_turns hlimits.minSpeed hlimits.scroll _ _ _
  · simp only [ofKind_swipe_frames]
    exact glides_turns hlimits.minSpeed hlimits.swipe _ _ _

/-! ## A touch that moves down -/

/-- An entity of the height 100, with the intervals of a table. -/
def hundred : EntityEvent where
  width := 50
  height := 100
  scrollThreshold := 0
  swipeThreshold := 0
  scrollSpeed := 0
  swipeSpeed := 0
  maxSpeed := 0
  minSpeed := 0
  isFirstTime := true
  tapEvent := { seconds := 11 / 10, previousTimestamp := -1, currentTimestamp := 0 }
  scrollEvent := { seconds := -1, previousTimestamp := -1, currentTimestamp := 0 }
  swipeEvent := { seconds := 3 / 4, previousTimestamp := -1, currentTimestamp := 0 }

theorem constructed_hundred : hundred.Constructed := ⟨rfl, rfl, rfl, rfl, rfl, rfl⟩

/-- A touch that moves, or is lifted where it was. -/
def touched (t dy : ℚ) (remove : Bool) : Touch where
  loc := ⟨10, 20⟩
  delta := ⟨0, dy⟩
  oid := 1
  radius := 3
  wasUpdated := true
  remove := remove
  visualizeOnly := false
  isSound := false
  movedDistance := 0
  lastUpdated := t

theorem speeds_within_limits_hundred :
    (run ⟨hundred, []⟩ [.hit (touched 5 9 false), .callbacks, .callbacks]).calls.map (·.2) =
      [.scrollDown 3, .scrollDown (57 / 20)] ∧
    ∀ call ∈ (run ⟨hundred, []⟩ [.hit (touched 5 9 false), .callbacks, .callbacks]).calls,
      SpeedWithin 100 call.2 :=
  ⟨by decide +kernel, (speeds_within_limits constructed_hundred (by decide) (by decide)
    (by decide) [.hit (touched 5 9 false), .callbacks, .callbacks]).2⟩

theorem glide_ends_hundred :
    ∃ e', (run ⟨hundred, []⟩ [.hit (touched 5 9 false)]).entity = e' ∧
      (ofKind .scroll (frames 20 e')).length = 20 ∧
      ∀ n, 20 ≤ n → ofKind .scroll (frames n e') = ofKind .scroll (frames 20 e') :=
  ⟨_, rfl, by decide +kernel, (glide_ends constructed_hundred (by decide) (by decide)
    (by decide) [.hit (touched 5 9 false)] rfl).1.ends⟩

theorem calls_spaced_hundred :
    times .tap (run ⟨hundred, []⟩
      [.hit (touched 5 0 true), .hit (touched 6 0 true), .hit (touched 7 0 true)]).calls =
        [5, 7] ∧
    (times .tap (run ⟨hundred, []⟩
      [.hit (touched 5 0 true), .hit (touched 6 0 true), .hit (touched 7 0 true)]).calls).IsChain
        fun t t' => t' - t > 11 / 10 :=
  ⟨by decide +kernel, calls_spaced hundred
    [.hit (touched 5 0 true), .hit (touched 6 0 true), .hit (touched 7 0 true)] .tap
    (show (0 : ℚ) ≤ 11 / 10 by norm_num)⟩

end Gesturing

end WallMon
