import WallMon.CheckedInt
import WallMon.TouchIds
import WallMon.Tile

/-!
# The mouse in place of fingers

On an ordinary screen, touches are simulated with the mouse. `PollEvents`, called once a frame,
makes touch events of what SDL reports: location events while a button is pressed, a remove
event when it is released, after which the next touch has the next id. The thread of the event
system routes these events like those of the touch display.

With fingers, touches can be queued for each other's entities. With the mouse they cannot, as
long as no key is pressed: at most one touch is down, whenever the two threads get to run
(`mouse_right`).
-/

namespace WallMon

/-- `WALL_SCREEN_WIDTH` -/
def wallScreenWidth : ℚ := 7168

/-- What SDL reports -/
inductive SdlEvent where
  /-- `SDL_MOUSEBUTTONDOWN` -/
  | mouseButtonDown
  /-- `SDL_MOUSEBUTTONUP` -/
  | mouseButtonUp
  /-- `SDL_KEYDOWN` -/
  | keyDown
  /-- any other type -/
  | other
  deriving DecidableEq

/-- What is pushed to `_queue` -/
inductive MouseEvent where
  /-- of `create_calibrated_touch_location_event_v2` -/
  | location (eventId : ℤ) (x y : ℤ)
  /-- of `create_touch_remove_event` -/
  | remove (eventId : ℤ)
  /-- of `shout_create_sound_location_event` -/
  | sound
  deriving DecidableEq

/-- `SdlMouseEventFetcher` -/
structure SdlMouseEventFetcher where
  /-- `_queue` -/
  queue : List MouseEvent
  /-- `_timestamp` -/
  timestamp : ℚ
  /-- `_isEventStreamActive` -/
  isEventStreamActive : Bool
  /-- `_eventId` -/
  eventId : ℤ
  deriving DecidableEq

namespace SdlMouseEventFetcher

/-- The constructor, called at some time -/
def new (timeInMsec : ℚ) : SdlMouseEventFetcher where
  queue := []
  timestamp := timeInMsec
  isEventStreamActive := false
  eventId := 0

/-- The loop of `PollEvents`: the fetcher, the events that SDL still has, and whether the loop
was left by a `return` -/
def pollLoop (f : SdlMouseEventFetcher) :
    List SdlEvent → Except Fault (SdlMouseEventFetcher × List SdlEvent × Bool)
  | [] => .ok (f, [], false)
  | .mouseButtonDown :: events => pollLoop { f with isEventStreamActive := true } events
  | .mouseButtonUp :: events => do
    let eventId ← CInt.add f.eventId 1
    let queue := f.queue ++ [.remove f.eventId]
    return ({ f with queue, isEventStreamActive := false, eventId }, events, true)
  | .keyDown :: events => .ok ({ f with queue := f.queue ++ [.sound] }, events, true)
  | .other :: events => pollLoop f events

/-- `PollEvents`, with the place of the mouse, the events that SDL has, and the time. A full
queue would have it wait. -/
def pollEvents (f : SdlMouseEventFetcher) (mx my : ℤ) (events : List SdlEvent) (timeInMsec : ℚ) :
    Except Fault (SdlMouseEventFetcher × List SdlEvent) := do
  let mx := truncate (mx * (wallScreenWidth / 1600))
  let my := truncate (my * (wallScreenHeight / 768))
  let (f, events, returned) ← f.pollLoop events
  if returned ∨ f.isEventStreamActive = false ∨ timeInMsec - f.timestamp < 10 then
    return (f, events)
  else
    return ({ f with
      timestamp := timeInMsec, queue := f.queue ++ [.location f.eventId mx my] }, events)

end SdlMouseEventFetcher

/-- What is there when an event is routed -/
structure Surroundings (E : Type) where
  /-- the event can be parsed -/
  parses : Bool
  /-- what `x` and `y` hold -/
  loc : WVPoint2d
  /-- what `radius` holds -/
  radius : ℚ
  /-- what `isLast` holds -/
  isLast : Bool
  /-- what `eventId` holds -/
  eventId : UInt32
  /-- what `e` holds -/
  touch : TouchState
  /-- the scenes and their entities -/
  scenes : List (SceneArea × List (EntityArea E))

/-- What `FilterAndRouteEvent` gets of an event -/
def MouseEvent.routed {E : Type} (there : Surroundings E) : MouseEvent → RoutedEvent E
  | .location eventId x y => .touch
    { isLast := false
      parses := there.parses
      eventId := UInt32.ofNat (eventId % 2 ^ 32).toNat
      loc := { x, y }
      radius := 2
      scenes := there.scenes }
  | .remove eventId => .touch
    { isLast := true
      parses := there.parses
      eventId := UInt32.ofNat (eventId % 2 ^ 32).toNat
      loc := there.loc
      radius := there.radius
      scenes := there.scenes }
  | .sound => .sound
    { parses := there.parses
      isLast := there.isLast
      eventId := there.eventId
      touch := there.touch
      scenes := there.scenes }

/-- The mouse and the event system -/
structure Mouse (E : Type) where
  /-- the fetcher -/
  fetcher : SdlMouseEventFetcher
  /-- the events that SDL has -/
  pending : List SdlEvent
  /-- the event system -/
  events : EventSystemBase E

/-- What happens -/
inductive MouseAction (E : Type) where
  /-- the main loop polls, and SDL finds some events more -/
  | poll (pumped : List SdlEvent) (mx my : ℤ) (timeInMsec : ℚ)
  /-- the thread of the event system handles the next event -/
  | route (there : Surroundings E)

namespace Mouse

variable {E : Type}

/-- `PollEvents` of the main loop, or `WaitAndHandleNextEvent` of the other thread -/
inductive Step : Mouse E → MouseAction E → Mouse E → Prop where
  /-- a frame -/
  | poll {m : Mouse E} {pumped : List SdlEvent} {mx my : ℤ} {timeInMsec : ℚ}
      {fetcher : SdlMouseEventFetcher} {pending : List SdlEvent} :
      m.fetcher.pollEvents mx my (m.pending ++ pumped) timeInMsec = .ok (fetcher, pending) →
      Step m (.poll pumped mx my timeInMsec) { m with fetcher, pending }
  /-- an event -/
  | route {m : Mouse E} {there : Surroundings E} {event : MouseEvent} {queue : List MouseEvent} :
      m.fetcher.queue = event :: queue →
      Step m (.route there) { m with
        fetcher := { m.fetcher with queue }
        events := m.events.filterAndRouteAnyEvent (event.routed there) }

/-- Before the first frame -/
def start (wallView : WallView) (timeInMsec : ℚ) : Mouse E where
  fetcher := .new timeInMsec
  pending := []
  events := .new wallView

/-- The mouse on a wall view, with the time at the start -/
def system (wallView : WallView) (timeInMsec : ℚ) : TransitionSystem (Mouse E) (MouseAction E) where
  init m := m = start wallView timeInMsec
  step := Step

/-- No key is pressed, and the library parses what it has made. -/
def Plain (_ : Mouse E) : MouseAction E → Prop
  | .poll pumped _ _ _ => .keyDown ∉ pumped
  | .route there => there.parses = true

instance (m : Mouse E) : ∀ action, Decidable (Plain m action)
  | .poll pumped _ _ _ => inferInstanceAs (Decidable (.keyDown ∉ pumped))
  | .route there => inferInstanceAs (Decidable (there.parses = true))

end Mouse

/-! ## What is queued -/

/-- The events are of touches with consecutive ids: of one id until its remove event, then of
the next. -/
def Consecutive : ℤ → List MouseEvent → ℤ → Prop
  | first, [], last => first = last
  | first, .location eventId _ _ :: queue, last => eventId = first ∧ Consecutive first queue last
  | first, .remove eventId :: queue, last => eventId = first ∧ Consecutive (first + 1) queue last
  | _, .sound :: _, _ => False

theorem Consecutive.append {first mid last : ℤ} {queue added : List MouseEvent}
    (h : Consecutive first queue mid) (hadded : Consecutive mid added last) :
    Consecutive first (queue ++ added) last := by
  induction queue generalizing first with
  | nil => exact h ▸ hadded
  | cons event queue ih =>
    cases event with
    | location eventId x y => exact ⟨h.1, ih h.2⟩
    | remove eventId => exact ⟨h.1, ih h.2⟩
    | sound => exact h

theorem Consecutive.le {first last : ℤ} {queue : List MouseEvent}
    (h : Consecutive first queue last) : first ≤ last := by
  induction queue generalizing first with
  | nil => exact le_of_eq h
  | cons event queue ih =>
    cases event with
    | location eventId x y => exact ih h.2
    | remove eventId => exact (Int.le_add_one (le_refl first)).trans (ih h.2)
    | sound => exact h.elim

namespace SdlMouseEventFetcher

/-- What a call adds to the queue: events of consecutive touches, up to the touch at hand. -/
structure Adds (f f' : SdlMouseEventFetcher) (events rest : List SdlEvent) : Prop where
  /-- the events -/
  queue : ∃ added, f'.queue = f.queue ++ added ∧ Consecutive f.eventId added f'.eventId
  /-- ids are `int` -/
  inRange : CInt.InRange f.eventId → CInt.InRange f'.eventId
  /-- SDL keeps the rest of its events -/
  rest : rest <:+ events

theorem pollLoop_adds {f f' : SdlMouseEventFetcher} {events rest : List SdlEvent} {returned : Bool}
    (hkeys : .keyDown ∉ events) (h : f.pollLoop events = .ok (f', rest, returned)) :
    Adds f f' events rest := by
  induction events generalizing f with
  | nil =>
    obtain ⟨rfl, rfl, -⟩ := by simpa [pollLoop] using h
    exact ⟨⟨[], (List.append_nil _).symm, rfl⟩, id, List.suffix_refl _⟩
  | cons event events ih =>
    obtain ⟨hkey, hrest⟩ := List.ne_and_not_mem_of_not_mem_cons hkeys
    cases event with
    | mouseButtonDown =>
      obtain ⟨hqueue, hrange, hsuffix⟩ := ih hrest h
      exact ⟨hqueue, hrange, hsuffix.trans (List.suffix_cons _ _)⟩
    | other =>
      obtain ⟨hqueue, hrange, hsuffix⟩ := ih hrest h
      exact ⟨hqueue, hrange, hsuffix.trans (List.suffix_cons _ _)⟩
    | keyDown => exact absurd rfl hkey
    | mouseButtonUp =>
      obtain ⟨eventId, hadd, hresult⟩ := bind_eq_ok h
      rw [CInt.add, CInt.checked] at hadd
      split at hadd
      case isFalse => cases hadd
      case isTrue hrange =>
        cases hadd
        cases hresult
        exact ⟨⟨[.remove f.eventId], rfl, rfl, rfl⟩, fun _ => hrange, List.suffix_cons _ _⟩

theorem pollEvents_adds {f f' : SdlMouseEventFetcher} {mx my : ℤ} {events rest : List SdlEvent}
    {timeInMsec : ℚ} (hkeys : .keyDown ∉ events)
    (h : f.pollEvents mx my events timeInMsec = .ok (f', rest)) : Adds f f' events rest := by
  obtain ⟨⟨g, rest', returned⟩, hloop, hresult⟩ := bind_eq_ok h
  obtain ⟨⟨added, hqueue, hadded⟩, hrange, hsuffix⟩ := pollLoop_adds hkeys hloop
  dsimp only at hresult
  split at hresult
  · cases hresult
    exact ⟨⟨added, hqueue, hadded⟩, hrange, hsuffix⟩
  · cases hresult
    have hlocation : ∀ x y, Consecutive g.eventId [.location g.eventId x y] g.eventId :=
      fun _ _ => ⟨rfl, rfl⟩
    refine ⟨⟨_, ?_, hadded.append (hlocation (truncate (mx * (wallScreenWidth / 1600)))
      (truncate (my * (wallScreenHeight / 768))))⟩, hrange, hsuffix⟩
    dsimp only
    rw [hqueue, List.append_assoc]

end SdlMouseEventFetcher

/-! ## One touch at a time -/

namespace EventSystemBase

variable {E : Type} {s : EventSystemBase E} {event : ShoutEvent E}

/-- An event changes the map for its own id only. -/
theorem eventIdMap_filterAndRouteEvent_of_ne {oid : UInt32} (hne : oid ≠ event.eventId) :
    (s.filterAndRouteEvent event).eventIdMap oid = s.eventIdMap oid := by
  have hmap := eventIdMap_filterAndRouteAnyEvent s (.touch event)
  rw [filterAndRouteAnyEvent] at hmap
  rw [hmap, comesToMap]
  split_ifs
  · exact Function.update_of_ne hne _ _
  · rfl

/-- A location event changes nothing, or its touch is down then. -/
theorem down_filterAndRouteEvent_location (h : s.Routed) (hlast : event.isLast = false) :
    s.filterAndRouteEvent event = s ∨
      ∀ oid, (s.filterAndRouteEvent event).Down oid ↔ s.Down oid ∨ oid = event.eventId := by
  rw [filterAndRouteEvent]
  split_ifs
  · exact .inl rfl
  · exact .inl rfl
  · rcases s.route_cases event (s.entityHits event) with
      ⟨hroute, -⟩ | ⟨entity, scene, entry, hroute, -⟩
    · rw [hroute]
      exact .inl rfl
    · rw [hroute]
      dsimp only
      have hmanager : ((s.found event.eventId entity entry).associate event
          (s.entityHits event)).touchManager = s.touchManager := by
        rw [associate]
        split <;> rfl
      obtain ⟨-, -, hdown, -⟩ := h.consistent.handleEvent_location h.up
        keepsTouches_handleTouchesCallback event.eventId
        (scene.realToVirtualCoords s.wallView.round (s.gridLoc event)) event.radius
      refine .inr fun oid => ?_
      rw [Down, handleEvent, hmanager, managerEvent, if_neg (by rw [hlast]; decide)]
      exact hdown oid

/-- After a remove event its touch is not down. -/
theorem down_filterAndRouteEvent_remove (h : s.Routed) (hlast : event.isLast = true)
    (hparses : event.parses = true) (oid : UInt32) :
    (s.filterAndRouteEvent event).Down oid ↔ s.Down oid ∧ oid ≠ event.eventId := by
  have hunknown : ¬s.Down event.eventId → (s.Down oid ↔ s.Down oid ∧ oid ≠ event.eventId) := by
    refine fun hdown => (and_iff_left_of_imp fun hoid => ?_).symm
    rintro rfl
    exact hdown hoid
  rw [filterAndRouteEvent, if_neg (by rw [hparses]; decide), if_neg (by rw [hlast]; simp)]
  rcases s.route_cases event (s.entityHits event) with
    ⟨hroute, hmap, -⟩ | ⟨entity, scene, entry, hroute, -⟩
  · rw [hroute]
    refine hunknown fun hdown => ?_
    obtain ⟨_, _, hsome, -⟩ := h.mapped _ hdown
    rw [hmap] at hsome
    cases hsome
  · rw [hroute]
    dsimp only
    rw [associate, if_neg (by rw [hlast]; simp), managerEvent, if_pos hlast]
    by_cases hdown : s.Down event.eventId
    · obtain ⟨-, -, hiff, -⟩ := h.consistent.handleEvent_remove h.up
        keepsTouches_handleTouchesCallback hdown
      exact hiff oid
    · rw [handleEvent_unknown (s := s.found event.eventId entity entry) hdown]
      exact hunknown hdown

/-- At most the touch of an id is down, and the map has nothing for it or a later id else. -/
structure Single (s : EventSystemBase E) (id : ℤ) : Prop where
  /-- what is known of an event system -/
  routed : s.Routed
  /-- touches were queued for their own entities -/
  right : s.Right
  /-- the touch that is down -/
  down : ∀ oid, s.Down oid → (oid.toNat : ℤ) = id
  /-- ids are new -/
  fresh : ∀ oid, id ≤ (oid.toNat : ℤ) → (s.eventIdMap oid).isSome → s.Down oid

variable {id : ℤ}

theorem Single.eq_of_down (h : s.Single id) {oid oid' : UInt32} (hdown : s.Down oid)
    (hdown' : s.Down oid') : oid = oid' := by
  have heq := (h.down oid hdown).trans (h.down oid' hdown').symm
  exact UInt32.toNat_inj.mp (Int.ofNat_inj.mp heq)

theorem single_new (wallView : WallView) : (new wallView : EventSystemBase E).Single 0 where
  routed := routed_new wallView
  right := right_new wallView
  down oid hdown := by cases hdown
  fresh oid _ hsome := by cases hsome

/-- With one touch, an event of it is undivided. -/
theorem Single.undivided (h : s.Single id) (hid : (event.eventId.toNat : ℤ) = id) :
    s.Undivided event := by
  rw [Undivided]
  split
  · next hdown => exact fun _ _ oid hoid => by rw [h.eq_of_down hoid hdown]
  · next hdown =>
    refine fun _ _ _ => ⟨fun entity scene hmap => ?_, fun _ oid hoid => ?_⟩
    · exact absurd (h.fresh _ hid.ge (by rw [hmap]; rfl)) hdown
    · have heq : oid = event.eventId :=
        UInt32.toNat_inj.mp (Int.ofNat_inj.mp ((h.down oid hoid).trans hid.symm))
      exact absurd (heq ▸ hoid) hdown

theorem Single.right_routed (h : s.Single id) (hid : (event.eventId.toNat : ℤ) = id) :
    (s.filterAndRouteEvent event).Right ∧ (s.filterAndRouteEvent event).Routed := by
  obtain ⟨hright, hrouted⟩ := filterAndRouteEvent_right_iff h.routed event
  exact ⟨hright.mpr ⟨h.right, h.undivided hid⟩, hrouted (h.undivided hid)⟩

/-- **A location event** of the touch keeps it the only one. -/
theorem Single.location (h : s.Single id) (hlast : event.isLast = false)
    (hid : (event.eventId.toNat : ℤ) = id) : (s.filterAndRouteEvent event).Single id := by
  obtain ⟨hright, hrouted⟩ := h.right_routed hid
  rcases down_filterAndRouteEvent_location h.routed hlast with hsame | hdown
  · rw [hsame]
    exact h
  refine ⟨hrouted, hright, fun oid hoid => ?_, fun oid hle hsome => (hdown oid).mpr ?_⟩
  · rcases (hdown oid).mp hoid with hold | rfl
    · exact h.down oid hold
    · exact hid
  · by_cases heq : oid = event.eventId
    · exact .inr heq
    · rw [eventIdMap_filterAndRouteEvent_of_ne heq] at hsome
      exact .inl (h.fresh oid hle hsome)

/-- **The remove event** of the touch leaves none. -/
theorem Single.remove (h : s.Single id) (hlast : event.isLast = true)
    (hparses : event.parses = true) (hid : (event.eventId.toNat : ℤ) = id) :
    (s.filterAndRouteEvent event).Single (id + 1) := by
  obtain ⟨hright, hrouted⟩ := h.right_routed hid
  have hdown := down_filterAndRouteEvent_remove h.routed hlast hparses
  refine ⟨hrouted, hright, fun oid hoid => ?_, fun oid hle hsome => (hdown oid).mpr ?_⟩
  · obtain ⟨hold, hne⟩ := (hdown oid).mp hoid
    exact absurd (UInt32.toNat_inj.mp (Int.ofNat_inj.mp ((h.down oid hold).trans hid.symm))) hne
  · have hne : oid ≠ event.eventId := by
      rintro rfl
      omega
    rw [eventIdMap_filterAndRouteEvent_of_ne hne] at hsome
    exact ⟨h.fresh oid (by omega) hsome, hne⟩

end EventSystemBase

/-! ## All runs -/

namespace Mouse

variable {E : Type} {m m' : Mouse E}

/-- What is known of the mouse: the events that are queued are of consecutive touches, and the
event system has at most the touch of the next one. -/
structure Inv (m : Mouse E) : Prop where
  /-- no key is pressed -/
  keys : .keyDown ∉ m.pending
  /-- ids are `int` -/
  inRange : CInt.InRange m.fetcher.eventId
  /-- the touches that are queued -/
  touches : ∃ id, 0 ≤ id ∧ Consecutive id m.fetcher.queue m.fetcher.eventId ∧ m.events.Single id

theorem Inv.start (wallView : WallView) (timeInMsec : ℚ) :
    Inv (Mouse.start wallView timeInMsec : Mouse E) where
  keys := List.not_mem_nil
  inRange := show CInt.InRange 0 by decide
  touches := ⟨0, le_refl 0, rfl, EventSystemBase.single_new wallView⟩

/-- An id as the event system sees it -/
theorem toNat_eventId {eventId : ℤ} (hnonneg : 0 ≤ eventId) (hrange : CInt.InRange eventId) :
    ((UInt32.ofNat (eventId % 2 ^ 32).toNat).toNat : ℤ) = eventId := by
  obtain ⟨-, hle⟩ := hrange
  rw [Int.emod_eq_of_lt hnonneg (by omega), UInt32.toNat_ofNat_of_lt' (by
    rw [UInt32.size]
    omega), Int.toNat_of_nonneg hnonneg]

/-- **One step** keeps touches apart. -/
theorem Inv.step {action : MouseAction E} (h : Inv m) (hstep : Step m action m')
    (hplain : Plain m action) : Inv m' := by
  obtain ⟨id, hnonneg, hqueue, hsingle⟩ := h.touches
  cases hstep with
  | @poll pumped mx my timeInMsec fetcher pending hpoll =>
    have hkeys : .keyDown ∉ m.pending ++ pumped :=
      fun hmem => (List.mem_append.mp hmem).elim h.keys hplain
    obtain ⟨⟨added, hadds, hadded⟩, hrange, hrest⟩ :=
      SdlMouseEventFetcher.pollEvents_adds hkeys hpoll
    refine ⟨fun hmem => hkeys (hrest.subset hmem), hrange h.inRange, id, hnonneg, ?_, hsingle⟩
    dsimp only
    rw [hadds]
    exact hqueue.append hadded
  | @route there event queue hhead =>
    rw [hhead] at hqueue
    have hparses : there.parses = true := hplain
    -- the ids of events are at most that of the fetcher
    have hid : ∀ {eventId next}, eventId = id → Consecutive next queue m.fetcher.eventId →
        id ≤ next → ((UInt32.ofNat (eventId % 2 ^ 32).toNat).toNat : ℤ) = id := by
      rintro eventId next rfl hrest hle
      have hlast := hrest.le
      obtain ⟨hlow, hhigh⟩ := h.inRange
      exact toNat_eventId hnonneg ⟨by omega, by omega⟩
    cases event with
    | location eventId x y =>
      refine ⟨h.keys, h.inRange, id, hnonneg, hqueue.2, ?_⟩
      exact hsingle.location rfl (hid hqueue.1 hqueue.2 le_rfl)
    | remove eventId =>
      refine ⟨h.keys, h.inRange, id + 1, by omega, hqueue.2, ?_⟩
      exact hsingle.remove rfl hparses (hid hqueue.1 hqueue.2 (by omega))
    | sound => exact hqueue.elim

/-- **Touches of the mouse** are queued for the entities on which the button was pressed, and
there is at most one at a time, whenever the two threads get to run. -/
theorem mouse_right {wallView : WallView} {timeInMsec : ℚ}
    (h : ((system wallView timeInMsec).guarded Plain).Reachable m) :
    m.events.Right ∧ ∀ oid oid', m.events.Down oid → m.events.Down oid' → oid = oid' := by
  have hinv : Inv m := by
    refine h.invariant (fun m hm => ?_) fun m action m' _ hinv hstep => ?_
    · rw [hm]
      exact .start wallView timeInMsec
    · exact hinv.step hstep.1 hstep.2
  obtain ⟨id, -, -, hsingle⟩ := hinv.touches
  exact ⟨hsingle.right, fun _ _ => hsingle.eq_of_down⟩

/-- Two entities, which are squares at 0 and at 20. -/
def twoSquares : Surroundings ℕ where
  parses := true
  loc := { x := 25, y := 3067 }
  radius := 0
  isLast := false
  eventId := 0
  touch := newTouchStateForEvent 0 { x := 0, y := 0 } 0
  scenes := [({ x := 0, y := 0, w := 7168, h := 3072, scale := 1 },
    [{ entity := 0, tx := 0, ty := 0, width := 10, height := 10 },
      { entity := 1, tx := 20, ty := 0, width := 10, height := 10 }])]

section

variable {wallView : WallView} {startTime : ℚ}

theorem reachable_poll (h : ((system wallView startTime).guarded Plain).Reachable m)
    {pumped : List SdlEvent} {mx my : ℤ} {timeInMsec : ℚ} {fetcher : SdlMouseEventFetcher}
    {pending : List SdlEvent} (hkeys : .keyDown ∉ pumped)
    (hpoll : m.fetcher.pollEvents mx my (m.pending ++ pumped) timeInMsec =
      .ok (fetcher, pending)) :
    ((system wallView startTime).guarded Plain).Reachable { m with fetcher, pending } :=
  h.next (l := .poll pumped mx my timeInMsec) ⟨.poll hpoll, hkeys⟩

theorem reachable_route (h : ((system wallView startTime).guarded Plain).Reachable m)
    {there : Surroundings E} {event : MouseEvent} {queue : List MouseEvent}
    (hparses : there.parses = true) (hqueue : m.fetcher.queue = event :: queue) :
    ((system wallView startTime).guarded Plain).Reachable { m with
      fetcher := { m.fetcher with queue }
      events := m.events.filterAndRouteAnyEvent (event.routed there) } :=
  h.next (l := .route there) ⟨.route hqueue, hparses⟩

end

/-- A click on the first square; what lies in the coordinates of the remove event is on the
second. -/
theorem mouse_right_click :
    ∃ m : Mouse ℕ, ((system { x := 0, y := 0, w := 7, h := 4 } 0).guarded Plain).Reachable m ∧
      m.events.pushed.map (fun q => (q.entity, q.touch.oid)) = [(some 0, 0), (some 0, 0)] ∧
      m.events.Right := by
  have hstart : ((system { x := 0, y := 0, w := 7, h := 4 } 0).guarded Plain).Reachable
      (start { x := 0, y := 0, w := 7, h := 4 } 0 : Mouse ℕ) := .start rfl
  -- the button is pressed at (1, 766), and released
  have hpress : (SdlMouseEventFetcher.new 0).pollEvents 1 766 [.mouseButtonDown] 20 =
      .ok (⟨[.location 0 4 3064], 20, true, 0⟩, []) := by decide +kernel
  have hrelease : SdlMouseEventFetcher.pollEvents ⟨[], 20, true, 0⟩ 1 766 [.mouseButtonUp] 40 =
      .ok (⟨[.remove 0], 20, false, 1⟩, []) := by decide +kernel
  have hpressed := reachable_poll hstart (by decide) hpress
  have hlocation := reachable_route hpressed (show twoSquares.parses = true from rfl) rfl
  have hreleased := reachable_poll hlocation (by decide) hrelease
  have hremove := reachable_route hreleased (show twoSquares.parses = true from rfl) rfl
  exact ⟨_, hremove, by decide +kernel, (mouse_right hremove).1⟩

end Mouse

end WallMon
