import Mathlib.Data.List.Nodup
import Mathlib.Data.Rat.Defs
import Mathlib.Logic.Function.Basic

/-!
# The touch manager

`STouchManager` keeps a state for each touch that is down, and calls back after each event
that it knows the touch of. The callback gets all touches that are down and those just
lifted. States are objects, given by number; `oidTouchMap` and `touchesDown` have the same
ones (`STouchManager.Consistent`).
-/

namespace WallMon

/-- A point. -/
structure WVPoint2d where
  /-- `x` -/
  x : ℚ
  /-- `y` -/
  y : ℚ

/-- `operator-` of points -/
def WVPoint2d.sub (p q : WVPoint2d) : WVPoint2d := { x := p.x - q.x, y := p.y - q.y }

/-- `TT_touch_state_t` -/
structure TouchState where
  /-- `loc` -/
  loc : WVPoint2d
  /-- `delta` -/
  delta : WVPoint2d
  /-- `oid` -/
  oid : UInt32
  /-- `radius` -/
  radius : ℚ
  /-- `wasUpdated` -/
  wasUpdated : Bool
  /-- `remove` -/
  remove : Bool
  /-- `visualizeOnly` -/
  visualizeOnly : Bool
  /-- `isSound` -/
  isSound : Bool

/-- Two states have the id of one touch, and say the same of its update. -/
structure TouchState.Same (t t' : TouchState) : Prop where
  /-- the id -/
  oid : t.oid = t'.oid
  /-- the update -/
  wasUpdated : t.wasUpdated = t'.wasUpdated

theorem TouchState.Same.trans {t t' t'' : TouchState} (h : t.Same t') (h' : t'.Same t'') :
    t.Same t'' :=
  ⟨h.oid.trans h'.oid, h.wasUpdated.trans h'.wasUpdated⟩

/-- An object gets another state of its touch. -/
theorem same_update (touches : ℕ → TouchState) (q : ℕ) (obj : TouchState)
    (h : obj.Same (touches q)) (p : ℕ) : (Function.update touches q obj p).Same (touches p) := by
  by_cases hp : p = q
  · subst hp
    rwa [Function.update_self]
  · rw [Function.update_of_ne hp]
    exact ⟨rfl, rfl⟩

/-- The touch manager. -/
structure STouchManager where
  /-- the objects -/
  touches : ℕ → TouchState
  /-- history: how many objects were allocated -/
  allocated : ℕ
  /-- `oidTouchMap` -/
  oidTouchMap : UInt32 → Option ℕ
  /-- `touchesDown` -/
  touchesDown : List ℕ
  /-- `touchesUp` -/
  touchesUp : List ℕ

/-- A callback: from the objects, `down` and `up` to the objects and what it does. -/
abbrev TouchManagerCallback (α : Type) : Type :=
  (ℕ → TouchState) → List ℕ → List ℕ → (ℕ → TouchState) × α

/-- An event for the touch manager. -/
inductive ManagerEvent where
  /-- `kEvt_type_calibrated_touch_location`, first and last detection in one -/
  | location (oid : UInt32) (loc : WVPoint2d) (radius : ℚ)
  /-- `kEvt_type_touch_remove` -/
  | remove (oid : UInt32)

/-- The id of an event. -/
def ManagerEvent.oid : ManagerEvent → UInt32
  | location oid _ _ => oid
  | remove oid => oid

/-- `STouchManager::newTouchStateForEvent`. Without a wanted sender every event has a state. -/
def newTouchStateForEvent (oid : UInt32) (loc : WVPoint2d) (radius : ℚ) : TouchState :=
  { loc, delta := ⟨0, 0⟩, oid, radius, wasUpdated := true, remove := false
    visualizeOnly := false, isSound := false }

/-- `STouchManager::updateTouch` -/
def updateTouch (obj newObj : TouchState) : TouchState :=
  { obj with
    delta := newObj.loc.sub obj.loc
    loc := newObj.loc
    radius := newObj.radius
    oid := newObj.oid
    wasUpdated := true }

namespace STouchManager

variable {α : Type}

/-- A touch manager without touches. -/
def new : STouchManager where
  touches := fun _ => newTouchStateForEvent 0 ⟨0, 0⟩ 0
  allocated := 0
  oidTouchMap := fun _ => none
  touchesDown := []
  touchesUp := []

/-- `STouchManager::runCallback` -/
def runCallback (callback : TouchManagerCallback α) (m : STouchManager) : STouchManager × α :=
  let (touches, result) := callback m.touches m.touchesDown m.touchesUp
  ({ m with touches, touchesUp := [] }, result)

/-- A location event, before the callback. -/
def locate (m : STouchManager) (state : TouchState) : STouchManager :=
  match m.oidTouchMap state.oid with
  | some existingState =>
    { m with touches :=
        Function.update m.touches existingState (updateTouch (m.touches existingState) state) }
  | none =>
    { m with
      touches := Function.update m.touches m.allocated state
      allocated := m.allocated + 1
      oidTouchMap := Function.update m.oidTouchMap state.oid (some m.allocated)
      touchesDown := m.touchesDown ++ [m.allocated] }

/-- A remove event of a touch, before the callback. -/
def lift (m : STouchManager) (oid : UInt32) (state : ℕ) : STouchManager :=
  { m with
    touches := Function.update m.touches state { m.touches state with remove := true }
    oidTouchMap := Function.update m.oidTouchMap oid none
    touchesDown := m.touchesDown.erase state
    touchesUp := m.touchesUp ++ [state] }

/-- `STouchManager::handleEvent`, and what the callback does, if it is called. -/
def handleEvent (callback : TouchManagerCallback α) (m : STouchManager) :
    ManagerEvent → STouchManager × Option α
  | .location oid loc radius =>
    ((m.locate (newTouchStateForEvent oid loc radius)).runCallback callback).map id some
  | .remove oid =>
    match m.oidTouchMap oid with
    | none => (m, none)
    | some state => ((m.lift oid state).runCallback callback).map id some

/-! ## Touches that are down -/

/-- A touch is down. -/
def Down (m : STouchManager) (oid : UInt32) : Prop := (m.oidTouchMap oid).isSome

instance (m : STouchManager) (oid : UInt32) : Decidable (m.Down oid) :=
  inferInstanceAs (Decidable (_ = true))

/-- The map and the vectors have the same objects. -/
structure Consistent (m : STouchManager) : Prop where
  /-- the map leads from ids to the touches that are down -/
  map_iff : ∀ oid p, m.oidTouchMap oid = some p ↔ p ∈ m.touchesDown ∧ (m.touches p).oid = oid
  /-- objects are counted -/
  lt : ∀ p ∈ m.touchesDown, p < m.allocated
  /-- no object is there twice -/
  nodup : m.touchesDown.Nodup
  /-- every touch was updated -/
  updated : ∀ p ∈ m.touchesDown, (m.touches p).wasUpdated = true

/-- A callback that keeps ids and that touches were updated. -/
def KeepsTouches (callback : TouchManagerCallback α) : Prop :=
  ∀ touches down up p, ((callback touches down up).1 p).Same (touches p)

theorem consistent_new : new.Consistent where
  map_iff oid p := by simp [new]
  lt := nofun
  nodup := .nil
  updated := nofun

variable {m : STouchManager} {oid : UInt32}

theorem Consistent.down_iff (h : m.Consistent) :
    m.Down oid ↔ ∃ p ∈ m.touchesDown, (m.touches p).oid = oid := by
  simp only [Down, Option.isSome_iff_exists, h.map_iff]

/-- The touches are the same, up to what does not tell them apart. -/
theorem Consistent.of_same {m' : STouchManager} (h : m.Consistent)
    (hmap : m'.oidTouchMap = m.oidTouchMap) (hdown : m'.touchesDown = m.touchesDown)
    (hallocated : m'.allocated = m.allocated)
    (hsame : ∀ p, (m'.touches p).Same (m.touches p)) : m'.Consistent where
  map_iff oid p := by rw [hmap, hdown, (hsame p).oid, h.map_iff]
  lt := by rw [hdown, hallocated]; exact h.lt
  nodup := hdown ▸ h.nodup
  updated p hp := (hsame p).wasUpdated.trans (h.updated p (hdown ▸ hp))

/-- **A location event**: its touch is down. -/
theorem Consistent.locate (h : m.Consistent) (state : TouchState)
    (hstate : state.wasUpdated = true) :
    (m.locate state).Consistent ∧
      ∀ oid, (m.locate state).Down oid ↔ m.Down oid ∨ oid = state.oid := by
  cases hmap : m.oidTouchMap state.oid with
  | some existing =>
    obtain ⟨hmem, hoid⟩ := (h.map_iff _ _).mp hmap
    have hsame : (updateTouch (m.touches existing) state).Same (m.touches existing) :=
      ⟨hoid.symm, (h.updated existing hmem).symm⟩
    simp only [STouchManager.locate, hmap]
    refine ⟨h.of_same rfl rfl rfl (same_update _ _ _ hsame), fun oid => ⟨Or.inl, ?_⟩⟩
    rintro (hold | rfl)
    · exact hold
    · simp [Down, hmap]
  | none =>
    have hfresh : m.allocated ∉ m.touchesDown := fun hmem => (h.lt _ hmem).false
    have hne : ∀ p ∈ m.touchesDown, p ≠ m.allocated := fun p hp heq => hfresh (heq ▸ hp)
    simp only [STouchManager.locate, hmap]
    refine ⟨⟨fun oid p => ?_, fun p hp => ?_, ?_, fun p hp => ?_⟩, fun oid => ?_⟩
    · by_cases hp : p = m.allocated
      · subst hp
        by_cases hoid : oid = state.oid
        · simp [hoid]
        · have hnone : m.oidTouchMap oid ≠ some m.allocated := fun hsome =>
            hfresh ((h.map_iff _ _).mp hsome).1
          simp [hoid, hnone, Ne.symm hoid]
      · by_cases hoid : oid = state.oid
        · have hnot : ¬(p ∈ m.touchesDown ∧ (m.touches p).oid = state.oid) := by
            rw [← h.map_iff, hmap]
            nofun
          subst hoid
          simpa [hp, Ne.symm hp] using hnot
        · simpa [hp, hoid] using h.map_iff oid p
    · rcases List.mem_append.mp hp with hold | hnew
      · exact (h.lt p hold).trans (Nat.lt_succ_self _)
      · exact (List.mem_singleton.mp hnew) ▸ Nat.lt_succ_self _
    · exact List.nodup_append.mpr ⟨h.nodup, List.nodup_singleton _, fun p hp q hq =>
        (List.mem_singleton.mp hq) ▸ hne p hp⟩
    · rcases List.mem_append.mp hp with hold | hnew
      · simpa [hne p hold] using h.updated p hold
      · simp [List.mem_singleton.mp hnew, hstate]
    · by_cases hoid : oid = state.oid <;> simp [Down, hoid]

theorem same_lift (m : STouchManager) (oid : UInt32) (state p : ℕ) :
    ((m.lift oid state).touches p).Same (m.touches p) :=
  same_update _ _ { m.touches state with remove := true } ⟨rfl, rfl⟩ p

/-- **A remove event**: its touch is no longer down. -/
theorem Consistent.lift (h : m.Consistent) {state : ℕ} (hmap : m.oidTouchMap oid = some state) :
    (m.lift oid state).Consistent ∧
      ∀ oid', (m.lift oid state).Down oid' ↔ m.Down oid' ∧ oid' ≠ oid := by
  have hsame := m.same_lift oid state
  have hstate := (h.map_iff _ _).mp hmap
  have hmem : ∀ p, p ∈ (m.lift oid state).touchesDown ↔ p ≠ state ∧ p ∈ m.touchesDown :=
    fun p => h.nodup.mem_erase_iff
  refine ⟨⟨fun oid' p => ?_, fun p hp => h.lt p ((hmem p).mp hp).2, h.nodup.erase _,
    fun p hp => (hsame p).wasUpdated.trans (h.updated p ((hmem p).mp hp).2)⟩, fun oid' => ?_⟩
  · rw [hmem, (hsame p).oid]
    by_cases hoid : oid' = oid
    · subst hoid
      -- no other object has this id
      have hunique : p ∈ m.touchesDown → (m.touches p).oid = oid' → p = state := fun hp hpoid =>
        Option.some.inj (((h.map_iff _ _).mpr ⟨hp, hpoid⟩).symm.trans hmap)
      simp only [STouchManager.lift, Function.update_self, reduceCtorEq, false_iff]
      rintro ⟨⟨hne, hp⟩, hpoid⟩
      exact hne (hunique hp hpoid)
    · have hne : (m.touches p).oid = oid' → p ≠ state := by
        rintro hpoid rfl
        exact hoid (hpoid.symm.trans hstate.2)
      simp only [STouchManager.lift, Function.update_of_ne hoid, h.map_iff]
      refine ⟨?_, ?_⟩
      · rintro ⟨hp, hpoid⟩
        exact ⟨⟨hne hpoid, hp⟩, hpoid⟩
      · rintro ⟨⟨-, hp⟩, hpoid⟩
        exact ⟨hp, hpoid⟩
  · by_cases hoid : oid' = oid <;> simp [Down, STouchManager.lift, hoid]

/-- The callback leaves the touches that are down. -/
theorem Consistent.runCallback {callback : TouchManagerCallback α} (h : m.Consistent)
    (hkeeps : KeepsTouches callback) : (m.runCallback callback).1.Consistent :=
  h.of_same rfl rfl rfl fun p => hkeeps m.touches m.touchesDown m.touchesUp p

/-- A remove event of a touch that is not known does nothing. -/
theorem handleEvent_unknown (callback : TouchManagerCallback α) (h : ¬m.Down oid) :
    m.handleEvent callback (.remove oid) = (m, none) := by
  have hnone : m.oidTouchMap oid = none := Option.not_isSome_iff_eq_none.mp h
  simp [handleEvent, hnone]

/-- What the callback gets: the touches that are down and the one just lifted, by id. -/
structure Reported (ids : UInt32 → Prop) (touches : ℕ → TouchState) (down up : List ℕ) :
    Prop where
  /-- every touch was updated -/
  updated : ∀ p ∈ down ++ up, (touches p).wasUpdated = true
  /-- the ids of the touches -/
  ids_iff : ∀ oid, (∃ p ∈ down ++ up, (touches p).oid = oid) ↔ ids oid

/-- **A location event** is called back with all touches that are down, its own included. -/
theorem Consistent.handleEvent_location {callback : TouchManagerCallback α} (h : m.Consistent)
    (hup : m.touchesUp = []) (hkeeps : KeepsTouches callback) (oid : UInt32) (loc : WVPoint2d)
    (radius : ℚ) :
    (m.handleEvent callback (.location oid loc radius)).1.Consistent ∧
      (m.handleEvent callback (.location oid loc radius)).1.touchesUp = [] ∧
      (∀ oid', (m.handleEvent callback (.location oid loc radius)).1.Down oid' ↔
        m.Down oid' ∨ oid' = oid) ∧
      ∃ touches down up, Reported (fun oid' => m.Down oid' ∨ oid' = oid) touches down up ∧
        (m.handleEvent callback (.location oid loc radius)).2 =
          some (callback touches down up).2 := by
  obtain ⟨hlocated, hdown⟩ := h.locate (newTouchStateForEvent oid loc radius) rfl
  have hup' : (m.locate (newTouchStateForEvent oid loc radius)).touchesUp = [] := by
    rw [STouchManager.locate]
    split <;> exact hup
  refine ⟨hlocated.runCallback hkeeps, rfl, hdown, _, _, _, ⟨?_, ?_⟩, rfl⟩
  · intro p hp
    rw [hup', List.append_nil] at hp
    exact hlocated.updated p hp
  · intro oid'
    rw [hup', List.append_nil, ← hlocated.down_iff, hdown]
    rfl

/-- **A remove event of a touch that is down** is called back with all touches that are down
and this one. -/
theorem Consistent.handleEvent_remove {callback : TouchManagerCallback α} (h : m.Consistent)
    (hup : m.touchesUp = []) (hkeeps : KeepsTouches callback) (hoid : m.Down oid) :
    (m.handleEvent callback (.remove oid)).1.Consistent ∧
      (m.handleEvent callback (.remove oid)).1.touchesUp = [] ∧
      (∀ oid', (m.handleEvent callback (.remove oid)).1.Down oid' ↔ m.Down oid' ∧ oid' ≠ oid) ∧
      ∃ touches down up, Reported m.Down touches down up ∧
        (m.handleEvent callback (.remove oid)).2 = some (callback touches down up).2 := by
  obtain ⟨state, hmap⟩ := Option.isSome_iff_exists.mp hoid
  obtain ⟨hlifted, hdown⟩ := h.lift hmap
  have hstate := ((h.map_iff _ _).mp hmap).1
  have hevent : m.handleEvent callback (.remove oid) =
      (((m.lift oid state).runCallback callback).1,
        some ((m.lift oid state).runCallback callback).2) := by
    simp [STouchManager.handleEvent, hmap, Prod.map]
  have hmem : ∀ p, p ∈ (m.lift oid state).touchesDown ++ (m.lift oid state).touchesUp ↔
      p ∈ m.touchesDown := by
    intro p
    simp only [STouchManager.lift, hup, List.nil_append]
    rw [(List.perm_append_singleton _ _).mem_iff, (List.perm_cons_erase hstate).mem_iff]
  have hsame := m.same_lift oid state
  rw [hevent]
  refine ⟨hlifted.runCallback hkeeps, rfl, hdown, _, _, _, ⟨?_, ?_⟩, rfl⟩
  · intro p hp
    exact (hsame p).wasUpdated.trans (h.updated p ((hmem p).mp hp))
  · intro oid'
    rw [h.down_iff]
    refine exists_congr fun p => and_congr (hmem p) ?_
    rw [(hsame p).oid]

end STouchManager

end WallMon
