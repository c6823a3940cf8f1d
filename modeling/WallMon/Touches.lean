import WallMon.TouchManager
import WallMon.Transition

/-!
# Which entity a touch is for

`FilterAndRouteEvent` finds the entity that an event is for, and puts it into the one
variable `_currentEntity`. Then the touch manager calls back with all touches that are down,
and every one of them is queued for `_currentEntity`. So a touch goes to its own entity as
long as no touch that is down is of another entity than the event (`right_iff`).

Coordinates are rational numbers here, and how `float` rounds what is computed of them is left
open. What an event hits depends on it, but not where its touch goes then.
-/

namespace WallMon

/-! ## Coordinates -/

/-- `TILE_SCREEN_WIDTH` -/
def tileScreenWidth : ℚ := 1024

/-- `TILE_SCREEN_HEIGHT` -/
def tileScreenHeight : ℚ := 768

/-- `WALL_SCREEN_HEIGHT` -/
def wallScreenHeight : ℚ := 3072

/-- A grid of tiles on the display wall. -/
structure WallView where
  /-- `_x` -/
  x : ℤ
  /-- `_y` -/
  y : ℤ
  /-- `_w` -/
  w : ℤ
  /-- `_h` -/
  h : ℤ
  /-- how a coordinate is rounded when it is computed -/
  round : ℚ → ℚ := id

namespace WallView

/-- `WallView::IsCordsWithin` -/
def isCordsWithin (v : WallView) (p : WVPoint2d) : Bool :=
  p.x ≥ v.round (v.x * tileScreenWidth) ∧ p.x ≤ v.round ((v.x + v.w) * tileScreenWidth) ∧
    p.y ≥ v.round (v.y * tileScreenHeight) ∧ p.y ≤ v.round ((v.y + v.h) * tileScreenHeight)

/-- `WallView::GlobalToGridCoords` -/
def globalToGridCoords (v : WallView) (p : WVPoint2d) : WVPoint2d where
  x := v.round (p.x - v.round (tileScreenWidth * v.x))
  y := v.round (p.y - v.round (tileScreenHeight * v.y))

end WallView

/-- Where a scene is. -/
structure SceneArea where
  /-- `_x` -/
  x : ℚ
  /-- `_y` -/
  y : ℚ
  /-- `_w` -/
  w : ℚ
  /-- `_h` -/
  h : ℚ
  /-- `_scale` -/
  scale : ℚ

namespace SceneArea

/-- `Scene::RealToVirtualCoords` -/
def realToVirtualCoords (s : SceneArea) (round : ℚ → ℚ) (p : WVPoint2d) : WVPoint2d where
  x := round (round (p.x - s.x) * round (1 / s.scale))
  y := round (round (p.y - s.y) * round (1 / s.scale))

/-- `Scene::IsSceneHit` -/
def isSceneHit (s : SceneArea) (round : ℚ → ℚ) (p : WVPoint2d) : Bool :=
  p.x ≥ s.x ∧ p.x ≤ round (s.x + s.w) ∧ p.y ≥ s.y ∧ p.y ≤ round (s.y + s.h)

end SceneArea

/-- Where an entity is. -/
structure EntityArea (E : Type) where
  /-- the entity -/
  entity : E
  /-- `tx` -/
  tx : ℚ
  /-- `ty` -/
  ty : ℚ
  /-- `width` -/
  width : ℚ
  /-- `height` -/
  height : ℚ

/-- `Entity::IsHit` -/
def EntityArea.isHit {E : Type} (e : EntityArea E) (round : ℚ → ℚ) (p : WVPoint2d) : Bool :=
  p.x ≥ e.tx ∧ p.x ≤ round (e.tx + e.width) ∧ p.y ≥ e.ty ∧ p.y ≤ round (e.ty + e.height)

/-- `EntityHit` -/
structure EntityHit (E : Type) where
  /-- `virtX` and `virtY` -/
  virt : WVPoint2d
  /-- `scene` -/
  scene : SceneArea
  /-- `entity` -/
  entity : E

/-- `Scene::GetEntityHits` -/
def getEntityHits {E : Type} (round : ℚ → ℚ) (scene : SceneArea)
    (entityList : List (EntityArea E)) (p : WVPoint2d) : List (EntityHit E) :=
  (entityList.filter (·.isHit round p)).map fun e => { virt := p, scene, entity := e.entity }

/-- `Scene::GetAllEntityHits` -/
def getAllEntityHits {E : Type} (round : ℚ → ℚ)
    (scenes : List (SceneArea × List (EntityArea E))) (p : WVPoint2d) : List (EntityHit E) :=
  scenes.flatMap fun (scene, entityList) =>
    if scene.isSceneHit round p then
      getEntityHits round scene entityList (scene.realToVirtualCoords round p)
    else []

/-! ## The event system -/

/-- A touch event, and the scenes when it arrives. -/
structure ShoutEvent (E : Type) where
  /-- it is a remove event -/
  isLast : Bool
  /-- it can be parsed -/
  parses : Bool
  /-- its id -/
  eventId : UInt32
  /-- its coordinates; of a remove event, what the variables hold -/
  loc : WVPoint2d
  /-- its radius -/
  radius : ℚ
  /-- the scenes and their entities -/
  scenes : List (SceneArea × List (EntityArea E))

/-- What is pushed to `eventQueue`. -/
structure QueuedTouch (E : Type) where
  /-- the entity -/
  entity : Option E
  /-- the state of the touch -/
  touch : TouchState
  /-- history: the entity associated with the touch -/
  associated : Option E

/-- The event system. -/
structure EventSystemBase (E : Type) where
  /-- `_wallView` -/
  wallView : WallView
  /-- `_eventIdMap` -/
  eventIdMap : UInt32 → Option (E × SceneArea)
  /-- `_currentEntity` -/
  currentEntity : Option E
  /-- `_touchManager` -/
  touchManager : STouchManager
  /-- history: what was pushed to `eventQueue` -/
  pushed : List (QueuedTouch E)
  /-- history: the entity that the first accepted location event of each touch hit -/
  associated : UInt32 → Option E

/-- A loop of `_HandleTouchesCallback`: the touches that it hands to `_HandleTouch`. -/
def handleTouches (remove : Bool) : List ℕ → (ℕ → TouchState) → (ℕ → TouchState) × List TouchState
  | [], touches => (touches, [])
  | p :: ps, touches =>
    let obj := { touches p with isSound := false }
    if obj.wasUpdated then
      let obj := { obj with remove }
      (handleTouches remove ps (Function.update touches p obj)).map id (obj :: ·)
    else handleTouches remove ps (Function.update touches p obj)

/-- `EventSystemBase::_HandleTouchesCallback` -/
def handleTouchesCallback : TouchManagerCallback (List TouchState) := fun touches down up =>
  let (touches, lower) := handleTouches false down touches
  let (touches, upper) := handleTouches true up touches
  (touches, lower ++ upper)

namespace EventSystemBase

variable {E : Type}

/-- A new event system. -/
def new (wallView : WallView) : EventSystemBase E where
  wallView := wallView
  eventIdMap := fun _ => none
  currentEntity := none
  touchManager := .new
  pushed := []
  associated := fun _ => none

/-- The entity and the scene of an event, as `FilterAndRouteEvent` finds them. -/
def route (s : EventSystemBase E) (event : ShoutEvent E) (entityHits : List (EntityHit E)) :
    Option (EventSystemBase E × SceneArea) :=
  match s.eventIdMap event.eventId with
  | some (entity, scene) =>
    some ({ s with
      currentEntity := some entity
      eventIdMap :=
        if event.isLast then Function.update s.eventIdMap event.eventId none
        else s.eventIdMap }, scene)
  | none =>
    match entityHits with
    | [] => none
    | hit :: _ =>
      some ({ s with
        currentEntity := some hit.entity
        eventIdMap :=
          Function.update s.eventIdMap event.eventId (some (hit.entity, hit.scene)) }, hit.scene)

/-- The history is kept: if this is the first location event of a touch that is accepted. -/
def associate (s : EventSystemBase E) (event : ShoutEvent E) (entityHits : List (EntityHit E)) :
    EventSystemBase E :=
  if event.isLast = false ∧ ¬s.touchManager.Down event.eventId then
    { s with
      associated :=
        Function.update s.associated event.eventId (entityHits.head?.map (·.entity)) }
  else s

/-- `_HandleTouch`, for each touch -/
def push (s : EventSystemBase E) (touches : List TouchState) : EventSystemBase E :=
  { s with pushed := s.pushed ++ touches.map fun touch =>
      { entity := s.currentEntity, touch, associated := s.associated touch.oid } }

/-- The touch manager handles an event. -/
def handleEvent (s : EventSystemBase E) (event : ManagerEvent) : EventSystemBase E :=
  let (touchManager, touches) := s.touchManager.handleEvent handleTouchesCallback event
  { s with touchManager }.push (touches.getD [])

/-- Where an event is, in the coordinates of the wall. -/
def wallLoc (wallView : WallView) (event : ShoutEvent E) : WVPoint2d :=
  { event.loc with y := wallView.round (wallScreenHeight - event.loc.y) }

/-- Where it is in the coordinates of the grid. -/
def gridLoc (s : EventSystemBase E) (event : ShoutEvent E) : WVPoint2d :=
  s.wallView.globalToGridCoords (wallLoc s.wallView event)

/-- The entities that an event hits. -/
def entityHits (s : EventSystemBase E) (event : ShoutEvent E) : List (EntityHit E) :=
  getAllEntityHits s.wallView.round event.scenes (s.gridLoc event)

/-- The event that `FilterAndRouteEvent` creates for the touch manager. -/
def managerEvent (s : EventSystemBase E) (event : ShoutEvent E) (scene : SceneArea) :
    ManagerEvent :=
  if event.isLast then .remove event.eventId
  else .location event.eventId
    (scene.realToVirtualCoords s.wallView.round (s.gridLoc event)) event.radius

/-- `EventSystemBase::FilterAndRouteEvent` of touch events -/
def filterAndRouteEvent (s : EventSystemBase E) (event : ShoutEvent E) : EventSystemBase E :=
  if event.parses = false then s
  else if event.isLast = false ∧ s.wallView.isCordsWithin (wallLoc s.wallView event) = false then s
  else
    match s.route event (s.entityHits event) with
    | none => s
    | some (s', scene) =>
      (s'.associate event (s.entityHits event)).handleEvent (s.managerEvent event scene)

/-- A touch is down. -/
abbrev Down (s : EventSystemBase E) (oid : UInt32) : Prop := s.touchManager.Down oid

end EventSystemBase

/-! ## What the callback hands on -/

theorem handleTouches_keeps (remove : Bool) (ps : List ℕ) (touches : ℕ → TouchState) (p : ℕ) :
    ((handleTouches remove ps touches).1 p).Same (touches p) := by
  induction ps generalizing touches with
  | nil => exact ⟨rfl, rfl⟩
  | cons q ps ih =>
    rw [handleTouches]
    split_ifs
    · exact (ih _).trans
        (same_update _ _ { touches q with isSound := false, remove } ⟨rfl, rfl⟩ p)
    · exact (ih _).trans (same_update _ _ { touches q with isSound := false } ⟨rfl, rfl⟩ p)

/-- Every touch that was updated is handed on. -/
theorem map_oid_handleTouches (remove : Bool) (ps : List ℕ) (touches : ℕ → TouchState)
    (h : ∀ p ∈ ps, (touches p).wasUpdated = true) :
    (handleTouches remove ps touches).2.map (·.oid) = ps.map fun p => (touches p).oid := by
  induction ps generalizing touches with
  | nil => rfl
  | cons q ps ih =>
    obtain ⟨hq, hps⟩ := List.forall_mem_cons.mp h
    have hsame := same_update touches q { touches q with isSound := false, remove } ⟨rfl, rfl⟩
    rw [handleTouches, if_pos hq]
    simp only [Prod.map_snd, List.map_cons]
    rw [ih _ fun p hp => (hsame p).wasUpdated.trans (hps p hp)]
    simp only [(hsame _).oid]

theorem keepsTouches_handleTouchesCallback : STouchManager.KeepsTouches handleTouchesCallback := by
  intro touches down up p
  exact (handleTouches_keeps true up _ p).trans (handleTouches_keeps false down touches p)

/-- **The callback hands on** the touches that it gets. -/
theorem exists_mem_handleTouchesCallback {ids : UInt32 → Prop} {touches : ℕ → TouchState}
    {down up : List ℕ} (h : STouchManager.Reported ids touches down up) (oid : UInt32) :
    (∃ touch ∈ (handleTouchesCallback touches down up).2, touch.oid = oid) ↔ ids oid := by
  have hdown := map_oid_handleTouches false down touches fun p hp =>
    h.updated p (List.mem_append_left _ hp)
  have hup := map_oid_handleTouches true up (handleTouches false down touches).1 fun p hp =>
    (handleTouches_keeps false down touches p).wasUpdated.trans
      (h.updated p (List.mem_append_right _ hp))
  simp only [(handleTouches_keeps false down touches _).oid] at hup
  have hoids : (handleTouchesCallback touches down up).2.map (·.oid) =
      (down ++ up).map fun p => (touches p).oid := by
    rw [handleTouchesCallback, List.map_append, List.map_append, hdown, hup]
  rw [← h.ids_iff, ← List.mem_map, ← List.mem_map, hoids]

namespace EventSystemBase

variable {E : Type} {s : EventSystemBase E} {event : ShoutEvent E} {oid : UInt32}

/-! ## Where touches go -/

/-- Every touch was queued for the entity associated with it. -/
def Right (s : EventSystemBase E) : Prop :=
  ∀ q ∈ s.pushed, q.entity.isSome ∧ q.entity = q.associated

/-- The map has the entity associated with a touch. -/
def Mapped (s : EventSystemBase E) (oid : UInt32) : Prop :=
  ∃ entity scene, s.eventIdMap oid = some (entity, scene) ∧ s.associated oid = some entity

/-- What is known of an event system. -/
structure Routed (s : EventSystemBase E) : Prop where
  /-- the touch manager is consistent -/
  consistent : s.touchManager.Consistent
  /-- no touch was just lifted -/
  up : s.touchManager.touchesUp = []
  /-- the map has the entities associated with touches that are down -/
  mapped : ∀ oid, s.Down oid → s.Mapped oid

/-- All touches that are down are of one entity. -/
def OneEntity (s : EventSystemBase E) (entity : Option E) : Prop :=
  ∀ oid, s.Down oid → s.associated oid = entity

/-- The entity that an event hits first. -/
def firstHit (s : EventSystemBase E) (event : ShoutEvent E) : Option E :=
  (s.entityHits event).head?.map (·.entity)

/-- A new touch: an entity that the map has for its id is the one that the event hits, and
all touches that are down are of this entity. -/
def NewUndivided (s : EventSystemBase E) (event : ShoutEvent E) : Prop :=
  (∀ entity scene, s.eventIdMap event.eventId = some (entity, scene) →
      s.firstHit event = some entity) ∧
    ((s.firstHit event).isSome → s.OneEntity (s.firstHit event))

/-- **All touches that are down are of the entity of the event.** -/
def Undivided (s : EventSystemBase E) (event : ShoutEvent E) : Prop :=
  if s.Down event.eventId then
    event.parses = true →
      (event.isLast = false → s.wallView.isCordsWithin (wallLoc s.wallView event) = true) →
      s.OneEntity (s.associated event.eventId)
  else
    event.parses = true → event.isLast = false →
      s.wallView.isCordsWithin (wallLoc s.wallView event) = true →
      s.NewUndivided event

theorem right_push (touches : List TouchState) :
    (s.push touches).Right ↔ s.Right ∧ ∀ touch ∈ touches,
      s.currentEntity.isSome ∧ s.currentEntity = s.associated touch.oid := by
  simp only [Right, push, List.forall_mem_append, List.forall_mem_map]

/-- What the callback queues, by id. -/
theorem right_push_reported {ids : UInt32 → Prop} {touches : ℕ → TouchState} {down up : List ℕ}
    (h : STouchManager.Reported ids touches down up) :
    (s.push (handleTouchesCallback touches down up).2).Right ↔ s.Right ∧ ∀ oid, ids oid →
      s.currentEntity.isSome ∧ s.currentEntity = s.associated oid := by
  rw [right_push]
  refine and_congr_right fun _ => ?_
  simp only [← exists_mem_handleTouchesCallback h]
  refine ⟨?_, ?_⟩
  · rintro hall oid ⟨touch, hmem, rfl⟩
    exact hall touch hmem
  · exact fun hall touch hmem => hall touch.oid ⟨touch, hmem, rfl⟩

theorem right_handleEvent (event : ManagerEvent) :
    (s.handleEvent event).Right ↔
      (s.push ((s.touchManager.handleEvent handleTouchesCallback event).2.getD [])).Right :=
  Iff.rfl

/-- **A location event** queues all touches that are down. -/
theorem right_handleEvent_location (h : s.touchManager.Consistent)
    (hup : s.touchManager.touchesUp = []) (oid : UInt32) (loc : WVPoint2d) (radius : ℚ) :
    (s.handleEvent (.location oid loc radius)).Right ↔ s.Right ∧ ∀ oid', s.Down oid' ∨ oid' = oid →
      s.currentEntity.isSome ∧ s.currentEntity = s.associated oid' := by
  obtain ⟨-, -, -, touches, down, up, hreported, hresult⟩ :=
    h.handleEvent_location hup keepsTouches_handleTouchesCallback oid loc radius
  rw [← right_push_reported hreported, right_handleEvent, hresult]
  rfl

/-- **A remove event** queues all touches that are down. -/
theorem right_handleEvent_remove (h : s.touchManager.Consistent)
    (hup : s.touchManager.touchesUp = []) (hdown : s.Down oid) :
    (s.handleEvent (.remove oid)).Right ↔ s.Right ∧ ∀ oid', s.Down oid' →
      s.currentEntity.isSome ∧ s.currentEntity = s.associated oid' := by
  obtain ⟨-, -, -, touches, down, up, hreported, hresult⟩ :=
    h.handleEvent_remove hup keepsTouches_handleTouchesCallback hdown
  rw [← right_push_reported hreported, right_handleEvent, hresult]
  rfl

theorem routed_handleEvent_location (h : s.touchManager.Consistent)
    (hup : s.touchManager.touchesUp = []) (oid : UInt32) (loc : WVPoint2d) (radius : ℚ)
    (hmapped : ∀ oid', s.Down oid' ∨ oid' = oid → s.Mapped oid') :
    (s.handleEvent (.location oid loc radius)).Routed := by
  obtain ⟨hconsistent, hup', hdown, -⟩ :=
    h.handleEvent_location hup keepsTouches_handleTouchesCallback oid loc radius
  exact ⟨hconsistent, hup', fun oid' hoid' => hmapped oid' ((hdown oid').mp hoid')⟩

theorem routed_handleEvent_remove (h : s.touchManager.Consistent)
    (hup : s.touchManager.touchesUp = []) (hoid : s.Down oid)
    (hmapped : ∀ oid', s.Down oid' → oid' ≠ oid → s.Mapped oid') :
    (s.handleEvent (.remove oid)).Routed := by
  obtain ⟨hconsistent, hup', hdown, -⟩ :=
    h.handleEvent_remove hup keepsTouches_handleTouchesCallback hoid
  refine ⟨hconsistent, hup', fun oid' hoid' => ?_⟩
  obtain ⟨hold, hne⟩ := (hdown oid').mp hoid'
  exact hmapped oid' hold hne

/-- All touches that are down are queued for the entity of one of them. -/
theorem forall_down_iff {entity : E} (hcurrent : s.currentEntity = some entity) :
    (∀ oid, s.Down oid → s.currentEntity.isSome ∧ s.currentEntity = s.associated oid) ↔
      s.OneEntity (some entity) := by
  simp [hcurrent, OneEntity, eq_comm]

/-- **An event of a touch that is down** queues touches for the entity of this one. -/
theorem filterAndRouteEvent_down (h : s.Routed) (hparses : event.parses = true)
    (hwithin : event.isLast = false → s.wallView.isCordsWithin (wallLoc s.wallView event) = true)
    (hdown : s.Down event.eventId) :
    ((s.filterAndRouteEvent event).Right ↔
        s.Right ∧ s.OneEntity (s.associated event.eventId)) ∧
      (s.filterAndRouteEvent event).Routed := by
  obtain ⟨entity, scene, hmap, hassociated⟩ := h.mapped _ hdown
  rw [hassociated]
  cases hlast : event.isLast with
  | true =>
    let t : EventSystemBase E := { s with
      currentEntity := some entity
      eventIdMap := Function.update s.eventIdMap event.eventId none }
    have hevent : s.filterAndRouteEvent event = t.handleEvent (.remove event.eventId) := by
      simp [filterAndRouteEvent, hparses, hlast, route, hmap, associate, managerEvent, t]
    rw [hevent]
    refine ⟨?_, ?_⟩
    · rw [right_handleEvent_remove (s := t) h.consistent h.up hdown, forall_down_iff rfl]
      rfl
    · refine routed_handleEvent_remove (s := t) h.consistent h.up hdown fun oid' hoid' hne => ?_
      obtain ⟨entity', scene', hmap', hassociated'⟩ := h.mapped oid' hoid'
      exact ⟨entity', scene', (Function.update_of_ne hne _ _).trans hmap', hassociated'⟩
  | false =>
    let t : EventSystemBase E := { s with currentEntity := some entity }
    have hevent : s.filterAndRouteEvent event = t.handleEvent (.location event.eventId
        (scene.realToVirtualCoords s.wallView.round (s.gridLoc event))
        event.radius) := by
      simp [filterAndRouteEvent, hparses, hlast, hwithin hlast, route, hmap, associate, hdown,
        managerEvent, t]
    have hold : ∀ oid, s.Down oid ∨ oid = event.eventId ↔ s.Down oid := by
      intro oid
      refine or_iff_left_of_imp ?_
      rintro rfl
      exact hdown
    rw [hevent]
    refine ⟨?_, ?_⟩
    · rw [right_handleEvent_location (s := t) h.consistent h.up,
        forall_congr' fun oid => imp_congr_left (hold oid), forall_down_iff (s := t) rfl]
      rfl
    · exact routed_handleEvent_location (s := t) h.consistent h.up _ _ _ fun oid' hoid' =>
        h.mapped oid' ((hold oid').mp hoid')

theorem handleEvent_unknown (hdown : ¬s.Down oid) : s.handleEvent (.remove oid) = s := by
  rw [handleEvent, STouchManager.handleEvent_unknown _ hdown]
  simp [push]

/-- An event system that found an entity, and has another entry in its map. -/
def found (s : EventSystemBase E) (oid : UInt32) (entity : E) (entry : Option (E × SceneArea)) :
    EventSystemBase E :=
  { s with currentEntity := some entity, eventIdMap := Function.update s.eventIdMap oid entry }

/-- The map changes for an id whose touch is not down. -/
theorem Routed.found (h : s.Routed) (hdown : ¬s.Down oid) (entity : E)
    (entry : Option (E × SceneArea)) : (s.found oid entity entry).Routed := by
  refine ⟨h.consistent, h.up, fun oid' hoid' => ?_⟩
  have hne : oid' ≠ oid := fun heq => hdown (heq ▸ hoid')
  obtain ⟨entity, scene, hmap, hassociated⟩ := h.mapped oid' hoid'
  exact ⟨entity, scene, (Function.update_of_ne hne _ _).trans hmap, hassociated⟩

/-- **How an event finds its entity**: in the map, or it is the first that the event hits. -/
theorem route_cases (s : EventSystemBase E) (event : ShoutEvent E) (hits : List (EntityHit E)) :
    (s.route event hits = none ∧ s.eventIdMap event.eventId = none ∧ hits = []) ∨
      ∃ entity scene entry, s.route event hits = some (s.found event.eventId entity entry, scene) ∧
        (event.isLast = false → entry = some (entity, scene)) ∧
        (s.eventIdMap event.eventId = some (entity, scene) ∨
          s.eventIdMap event.eventId = none ∧ hits.head?.map (·.entity) = some entity) := by
  cases hmap : s.eventIdMap event.eventId with
  | some entry =>
    obtain ⟨entity, scene⟩ := entry
    refine .inr ⟨entity, scene, if event.isLast then none else some (entity, scene), ?_, ?_, ?_⟩
    · have hself : Function.update s.eventIdMap event.eventId (some (entity, scene)) =
          s.eventIdMap := by rw [← hmap, Function.update_eq_self]
      cases hlast : event.isLast with
      | true => simp [route, hmap, hlast, found]
      | false => simp [route, hmap, hlast, found, hself]
    · intro hlast
      rw [hlast]
      rfl
    · exact .inl rfl
  | none =>
    cases hits with
    | nil => exact .inl ⟨by simp [route, hmap], rfl, rfl⟩
    | cons hit hits =>
      exact .inr ⟨hit.entity, hit.scene, some (hit.entity, hit.scene),
        by simp [route, hmap, found], fun _ => rfl, .inr ⟨rfl, rfl⟩⟩

/-- **A remove event of a touch that is not down** queues nothing. -/
theorem filterAndRouteEvent_remove_unknown (h : s.Routed) (hlast : event.isLast = true)
    (hdown : ¬s.Down event.eventId) :
    ((s.filterAndRouteEvent event).Right ↔ s.Right) ∧ (s.filterAndRouteEvent event).Routed := by
  rw [filterAndRouteEvent]
  split_ifs with hparses hwithin
  · exact ⟨Iff.rfl, h⟩
  · exact ⟨Iff.rfl, h⟩
  · rcases s.route_cases event (s.entityHits event) with
      ⟨hroute, -⟩ | ⟨entity, scene, entry, hroute, -⟩
    · rw [hroute]
      exact ⟨Iff.rfl, h⟩
    · simp only [hroute, associate, hlast, Bool.true_eq_false, false_and, if_false, managerEvent,
        if_true]
      rw [handleEvent_unknown (s := s.found event.eventId entity entry) hdown]
      exact ⟨Iff.rfl, h.found hdown entity entry⟩

/-- All touches that are down, with a new one, are queued for an entity. -/
theorem forall_new_iff {entity : E} {hit : Option E} (hcurrent : s.currentEntity = some entity)
    (hdown : ¬s.Down oid) :
    (∀ oid', s.Down oid' ∨ oid' = oid → s.currentEntity.isSome ∧
        s.currentEntity = Function.update s.associated oid hit oid') ↔
      hit = some entity ∧ s.OneEntity (some entity) := by
  have hne : ∀ oid', s.Down oid' → oid' ≠ oid := fun oid' hoid' heq => hdown (heq ▸ hoid')
  rw [hcurrent]
  refine ⟨fun hall => ?_, ?_⟩
  · refine ⟨?_, fun oid' hoid' => ?_⟩
    · have hself := (hall oid (.inr rfl)).2
      rw [Function.update_self] at hself
      exact hself.symm
    · have hother := (hall oid' (.inl hoid')).2
      rw [Function.update_of_ne (hne oid' hoid')] at hother
      exact hother.symm
  · rintro ⟨hhit, hall⟩ oid' (hoid' | rfl)
    · rw [Function.update_of_ne (hne oid' hoid')]
      exact ⟨rfl, (hall oid' hoid').symm⟩
    · rw [Function.update_self]
      exact ⟨rfl, hhit.symm⟩

/-- When a new touch is undivided, if the entity that its event finds is known. -/
theorem newUndivided_iff {entity : E} {scene : SceneArea}
    (hfound : s.eventIdMap event.eventId = some (entity, scene) ∨
      s.eventIdMap event.eventId = none ∧ s.firstHit event = some entity) :
    s.NewUndivided event ↔ s.firstHit event = some entity ∧ s.OneEntity (some entity) := by
  refine ⟨?_, ?_⟩
  · rintro ⟨hsame, hone⟩
    have hhit : s.firstHit event = some entity := by
      rcases hfound with hmap | ⟨-, hhit⟩
      · exact hsame entity scene hmap
      · exact hhit
    rw [hhit] at hone
    exact ⟨hhit, hone rfl⟩
  · rintro ⟨hhit, hone⟩
    refine ⟨fun entity' scene' hsome => ?_, fun _ => hhit ▸ hone⟩
    rcases hfound with hmap | ⟨hmap, -⟩
    · rw [hmap] at hsome
      cases hsome
      exact hhit
    · rw [hmap] at hsome
      cases hsome

/-- The map has the entities of all touches that are down, and of a new one. -/
theorem Routed.mapped_new (h : s.Routed) {entity : E} {scene : SceneArea} {oid' : UInt32}
    (hoid' : s.Down oid' ∨ oid' = oid) :
    Mapped { s.found oid entity (some (entity, scene)) with
      associated := Function.update s.associated oid (some entity) } oid' := by
  by_cases heq : oid' = oid
  · subst heq
    exact ⟨entity, scene, Function.update_self _ _ _, Function.update_self _ _ _⟩
  · obtain ⟨entity', scene', hmap', hassociated'⟩ := h.mapped oid' (hoid'.resolve_right heq)
    refine ⟨entity', scene', ?_, ?_⟩
    · exact (Function.update_of_ne heq _ _).trans hmap'
    · exact (Function.update_of_ne heq _ _).trans hassociated'

/-- **The first location event of a touch** queues all touches that are down, and the new
one, for the entity that it finds. -/
theorem filterAndRouteEvent_new (h : s.Routed) (hparses : event.parses = true)
    (hlast : event.isLast = false)
    (hwithin : s.wallView.isCordsWithin (wallLoc s.wallView event) = true)
    (hdown : ¬s.Down event.eventId) :
    ((s.filterAndRouteEvent event).Right ↔ s.Right ∧ s.NewUndivided event) ∧
      (s.NewUndivided event → (s.filterAndRouteEvent event).Routed) := by
  rcases s.route_cases event (s.entityHits event) with
    ⟨hroute, hmap, hhits⟩ | ⟨entity, scene, entry, hroute, hentry, hfound⟩
  · have hevent : s.filterAndRouteEvent event = s := by
      simp [filterAndRouteEvent, hwithin, hroute]
    have hnew : s.NewUndivided event := by
      simp [NewUndivided, hmap, firstHit, hhits]
    rw [hevent]
    exact ⟨(and_iff_left hnew).symm, fun _ => h⟩
  · obtain rfl := hentry hlast
    let t : EventSystemBase E := { s.found event.eventId entity (some (entity, scene)) with
      associated := Function.update s.associated event.eventId (s.firstHit event) }
    have hevent : s.filterAndRouteEvent event = t.handleEvent (.location event.eventId
        (scene.realToVirtualCoords s.wallView.round (s.gridLoc event))
        event.radius) := by
      have hdown' : ¬s.touchManager.Down event.eventId := hdown
      simp [filterAndRouteEvent, hparses, hlast, hwithin, hroute, associate, hdown', managerEvent,
        firstHit, found, t]
    rw [hevent, newUndivided_iff hfound]
    refine ⟨?_, ?_⟩
    · rw [right_handleEvent_location (s := t) h.consistent h.up]
      refine and_congr Iff.rfl ?_
      exact forall_new_iff (s := s.found event.eventId entity (some (entity, scene))) rfl hdown
    · rintro ⟨hhit, -⟩
      refine routed_handleEvent_location (s := t) h.consistent h.up _ _ _ fun oid' hoid' => ?_
      dsimp only [t]
      rw [hhit]
      exact h.mapped_new hoid'

/-- **An event queues each touch for its own entity** exactly if all touches that are down
are of the entity of the event. -/
theorem filterAndRouteEvent_right_iff (h : s.Routed) (event : ShoutEvent E) :
    ((s.filterAndRouteEvent event).Right ↔ s.Right ∧ s.Undivided event) ∧
      (s.Undivided event → (s.filterAndRouteEvent event).Routed) := by
  by_cases hparses : event.parses = true
  swap
  · have hevent : s.filterAndRouteEvent event = s := by simp [filterAndRouteEvent, hparses]
    simp [hevent, Undivided, hparses, h]
  by_cases hwithin : event.isLast = false →
      s.wallView.isCordsWithin (wallLoc s.wallView event) = true
  swap
  · have hevent : s.filterAndRouteEvent event = s := by
      simp only [Classical.not_imp, Bool.not_eq_true] at hwithin
      simp [filterAndRouteEvent, hwithin]
    have hundivided : s.Undivided event := by
      rw [Undivided]
      split_ifs
      · exact fun _ hall => absurd hall hwithin
      · exact fun _ hlast hall => absurd (fun _ => hall) hwithin
    rw [hevent]
    exact ⟨(and_iff_left hundivided).symm, fun _ => h⟩
  by_cases hdown : s.Down event.eventId
  · obtain ⟨hright, hrouted⟩ := filterAndRouteEvent_down h hparses hwithin hdown
    have hundivided : s.Undivided event ↔ s.OneEntity (s.associated event.eventId) := by
      rw [Undivided, if_pos hdown]
      exact ⟨fun hall => hall hparses hwithin, fun hone _ _ => hone⟩
    rw [hundivided]
    exact ⟨hright, fun _ => hrouted⟩
  cases hlast : event.isLast with
  | true =>
    obtain ⟨hright, hrouted⟩ := filterAndRouteEvent_remove_unknown h hlast hdown
    have hundivided : s.Undivided event := by
      rw [Undivided, if_neg hdown, hlast]
      exact fun _ => nofun
    rw [and_iff_left hundivided]
    exact ⟨hright, fun _ => hrouted⟩
  | false =>
    have hnew : s.Undivided event ↔ s.NewUndivided event := by
      rw [Undivided, if_neg hdown]
      exact ⟨fun hall => hall hparses hlast (hwithin hlast), fun hall _ _ _ => hall⟩
    rw [hnew]
    exact filterAndRouteEvent_new h hparses hlast (hwithin hlast) hdown

theorem routed_new (wallView : WallView) : (new wallView : EventSystemBase E).Routed where
  consistent := STouchManager.consistent_new
  up := rfl
  mapped oid hoid := by cases hoid

/-- What is queued stays queued. -/
theorem right_of_filterAndRouteEvent (h : (s.filterAndRouteEvent event).Right) : s.Right := by
  have hpush : ∀ (t : EventSystemBase E) (e : ManagerEvent), (t.handleEvent e).Right → t.Right :=
    fun t e ht => ((right_push _).mp ht).1
  rw [filterAndRouteEvent] at h
  split_ifs at h
  · exact h
  · exact h
  · rcases s.route_cases event (s.entityHits event) with
      ⟨hroute, -⟩ | ⟨entity, scene, entry, hroute, -⟩
    · simpa only [hroute] using h
    · simp only [hroute] at h
      have ht := hpush _ _ h
      rw [associate] at ht
      split_ifs at ht
      · exact ht
      · exact ht

theorem right_of_foldl (events : List (ShoutEvent E))
    (h : (events.foldl filterAndRouteEvent s).Right) : s.Right := by
  induction events generalizing s with
  | nil => exact h
  | cons event events ih => exact right_of_filterAndRouteEvent (ih h)

theorem right_foldl_iff (h : s.Routed) (events : List (ShoutEvent E)) :
    (events.foldl filterAndRouteEvent s).Right ↔
      s.Right ∧ TransitionSystem.Meets filterAndRouteEvent Undivided s events := by
  induction events generalizing s with
  | nil => simp [TransitionSystem.Meets]
  | cons event events ih =>
    obtain ⟨hright, hrouted⟩ := filterAndRouteEvent_right_iff h event
    rw [List.foldl_cons, TransitionSystem.Meets]
    by_cases hundivided : s.Undivided event
    · rw [ih (hrouted hundivided), hright, and_assoc]
    · -- a touch is queued for another entity now, and stays so
      refine iff_of_false (fun hall => ?_) fun hall => hundivided hall.2.1
      exact hundivided (hright.mp (right_of_foldl events hall)).2

theorem right_new (wallView : WallView) : (new wallView : EventSystemBase E).Right :=
  fun _ hmem => absurd hmem List.not_mem_nil

/-- **Touches go to their own entities** in a run exactly if at each event all touches that
are down are of the entity of the event. -/
theorem right_iff (wallView : WallView) (events : List (ShoutEvent E)) :
    (events.foldl filterAndRouteEvent (new wallView)).Right ↔
      TransitionSystem.Meets filterAndRouteEvent Undivided (new wallView) events := by
  rw [right_foldl_iff (routed_new wallView)]
  exact and_iff_right (right_new wallView)

/-- A touch at a point of a wall with two entities, which are squares at 0 and at 20. -/
def touchAt (eventId : UInt32) (x : ℚ) : ShoutEvent ℕ where
  isLast := false
  parses := true
  eventId := eventId
  loc := { x, y := 3067 }
  radius := 2
  scenes := [({ x := 0, y := 0, w := 7168, h := 3072, scale := 1 },
    [{ entity := 0, tx := 0, ty := 0, width := 10, height := 10 },
      { entity := 1, tx := 20, ty := 0, width := 10, height := 10 }])]

/-- What comes of two touches, the second of the other entity. -/
def twoTouches : EventSystemBase ℕ :=
  [touchAt 1 5, touchAt 2 25].foldl filterAndRouteEvent (new { x := 0, y := 0, w := 7, h := 4 })

/-- Two fingers on two entities: with the second, the touch of the first is queued for the
entity of the second. -/
theorem not_right_twoTouches :
    twoTouches.pushed.map (fun q => (q.entity, q.touch.oid, q.associated)) =
      [(some 0, 1, some 0), (some 1, 1, some 0), (some 1, 2, some 1)] ∧ ¬twoTouches.Right := by
  have hpushed : twoTouches.pushed.map (fun q => (q.entity, q.touch.oid, q.associated)) =
      [(some 0, 1, some 0), (some 1, 1, some 0), (some 1, 2, some 1)] := by
    decide +kernel
  refine ⟨hpushed, fun hall => ?_⟩
  have hmem : (some 1, 1, some 0) ∈
      twoTouches.pushed.map fun q => (q.entity, q.touch.oid, q.associated) := by
    rw [hpushed]
    exact .tail _ (.head _)
  obtain ⟨q, hq, heq⟩ := List.mem_map.mp hmem
  have hright := (hall q hq).2
  simp only [Prod.mk.injEq] at heq
  rw [heq.1, heq.2.2] at hright
  cases hright

end EventSystemBase

end WallMon
