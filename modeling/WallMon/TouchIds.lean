import WallMon.CallOrder
import WallMon.Touches

/-!
# Which touch ids are associated with an entity

`FilterAndRouteEvent` gets location, remove and sound events. All three take the same path
to `_eventIdMap`: an id that is not there is associated with the entity that the event hits
first. But only a location event has read both its id and its coordinates then. The
coordinates of a remove event, and the id of a sound event, are what the variables hold. So
the map has the ids of the touches as long as such events hit no entity under an id that it
does not have (`idLife_iff`).
-/

namespace WallMon

/-- A sound event, and what is there when it arrives. -/
structure SoundEvent (E : Type) where
  /-- it can be parsed -/
  parses : Bool
  /-- what the variable `isLast` holds -/
  isLast : Bool
  /-- what the variable `eventId` holds -/
  eventId : UInt32
  /-- what the variable `e` holds -/
  touch : TouchState
  /-- the scenes and their entities -/
  scenes : List (SceneArea × List (EntityArea E))

/-- An event passed to `FilterAndRouteEvent`, by its type. -/
inductive RoutedEvent (E : Type) where
  /-- `kEvt_type_calibrated_touch_location` or `kEvt_type_touch_remove` -/
  | touch (event : ShoutEvent E)
  /-- `kEvt_type_sound_location` -/
  | sound (event : SoundEvent E)
  /-- any other type -/
  | unknown

/-- A sound event as the shared path sees it: at a fixed place, and of a type that erases
nothing from the map. -/
def SoundEvent.located {E : Type} (event : SoundEvent E) : ShoutEvent E where
  isLast := false
  parses := event.parses
  eventId := event.eventId
  loc := { x := 100, y := 100 }
  radius := 0
  scenes := event.scenes

namespace EventSystemBase

variable {E : Type}

/-- `EventSystemBase::FilterAndRouteEvent` of sound events. The touch manager does nothing
with them. -/
def filterAndRouteSoundEvent (s : EventSystemBase E) (event : SoundEvent E) : EventSystemBase E :=
  if event.parses = false then s
  else if event.isLast = false ∧
      s.wallView.isCordsWithin (wallLoc s.wallView event.located) = false then s
  else
    match s.route event.located (s.entityHits event.located) with
    | none => s
    | some (s', _) => s'.push [{ event.touch with isSound := true }]

/-- `EventSystemBase::FilterAndRouteEvent` -/
def filterAndRouteAnyEvent (s : EventSystemBase E) : RoutedEvent E → EventSystemBase E
  | .touch event => s.filterAndRouteEvent event
  | .sound event => s.filterAndRouteSoundEvent event
  | .unknown => s

/-- The event system after some events. -/
def afterEvents (wallView : WallView) (events : List (RoutedEvent E)) : EventSystemBase E :=
  events.foldl filterAndRouteAnyEvent (new wallView)

/-! ## The life of an id -/

/-- The entity that an event hits first, and its scene. -/
def firstEntry (wallView : WallView) (event : ShoutEvent E) : Option (E × SceneArea) :=
  (getAllEntityHits wallView.round event.scenes
    (wallView.globalToGridCoords (wallLoc wallView event))).head?.map
    fun hit => (hit.entity, hit.scene)

/-- A location event of the id that is accepted and hits an entity. -/
def Opens (wallView : WallView) (id : UInt32) : RoutedEvent E → Prop
  | .touch event => event.eventId = id ∧ event.isLast = false ∧ event.parses = true ∧
      wallView.isCordsWithin (wallLoc wallView event) = true ∧ (firstEntry wallView event).isSome
  | _ => False

/-- A remove event of the id. -/
def Closes (id : UInt32) : RoutedEvent E → Prop
  | .touch event => event.eventId = id ∧ event.isLast = true ∧ event.parses = true
  | _ => False

/-- The id has had a location event that was accepted and hit an entity, and no remove event
since. -/
def Live (wallView : WallView) (events : List (RoutedEvent E)) (id : UInt32) : Prop :=
  Since (Opens wallView id) (Closes id) events

/-- **The life of ids**: the map has the ids that are live, and an id that is not live, as
after its remove event, is associated afresh by its next touch. -/
structure IdLife (wallView : WallView) (events : List (RoutedEvent E)) : Prop where
  /-- the ids in the map -/
  keys : ∀ id, ((afterEvents wallView events).eventIdMap id).isSome ↔ Live wallView events id
  /-- the entity of a new touch -/
  afresh : ∀ id event, ¬Live wallView events id → Opens wallView id (.touch event) →
    (afterEvents wallView (events ++ [.touch event])).eventIdMap id = firstEntry wallView event

/-- An event as it comes to the map: it can be parsed, and where it may be the last one of
its touch, as far as `isLast` says, its place does not matter. -/
def comesToMap (wallView : WallView) : RoutedEvent E → Option (ShoutEvent E)
  | .touch event =>
    if event.parses = true ∧
        (event.isLast = true ∨ wallView.isCordsWithin (wallLoc wallView event) = true)
    then some event else none
  | .sound event =>
    if event.parses = true ∧
        (event.isLast = true ∨ wallView.isCordsWithin (wallLoc wallView event.located) = true)
    then some event.located else none
  | .unknown => none

/-- It is a location event. -/
def IsLocation : RoutedEvent E → Prop
  | .touch event => event.isLast = false
  | _ => False

/-- **No id comes in that is not read**: a remove event or a sound event that comes to the map
with an id that is not there hits no entity. -/
def OnlyTouches (s : EventSystemBase E) (event : RoutedEvent E) : Prop :=
  ∀ seen, comesToMap s.wallView event = some seen → ¬IsLocation event →
    s.eventIdMap seen.eventId = none → firstEntry s.wallView seen = none

/-! ## What events do to the map -/

variable {s : EventSystemBase E} {wallView : WallView}

/-- What the map has for the id of an event, once it was routed. -/
def entryAfter (s : EventSystemBase E) (event : ShoutEvent E) : Option (E × SceneArea) :=
  match s.eventIdMap event.eventId with
  | some entry => if event.isLast then none else some entry
  | none => firstEntry s.wallView event

/-- **How an event changes the map**, if it comes to it. -/
theorem route_eventIdMap (s : EventSystemBase E) (event : ShoutEvent E) :
    ((s.route event (s.entityHits event)).map fun found => found.1.eventIdMap).getD s.eventIdMap =
      Function.update s.eventIdMap event.eventId (s.entryAfter event) := by
  cases hmap : s.eventIdMap event.eventId with
  | some entry =>
    have hself : Function.update s.eventIdMap event.eventId (some entry) = s.eventIdMap := by
      rw [← hmap, Function.update_eq_self]
    cases hlast : event.isLast with
    | true => simp [route, entryAfter, hmap, hlast]
    | false => simp [route, entryAfter, hmap, hlast, hself]
  | none =>
    have hself : Function.update s.eventIdMap event.eventId none = s.eventIdMap := by
      rw [← hmap, Function.update_eq_self]
    have hentry : s.entryAfter event =
        (s.entityHits event).head?.map fun hit => (hit.entity, hit.scene) := by
      simp only [entryAfter, hmap, firstEntry, entityHits, gridLoc]
    rw [hentry]
    cases hhits : s.entityHits event with
    | nil => simp [route, hmap, hself]
    | cons hit hits => simp [route, hmap]

@[simp] theorem handleEvent_eventIdMap (s : EventSystemBase E) (event : ManagerEvent) :
    (s.handleEvent event).eventIdMap = s.eventIdMap := rfl

@[simp] theorem associate_eventIdMap (s : EventSystemBase E) (event : ShoutEvent E)
    (hits : List (EntityHit E)) : (s.associate event hits).eventIdMap = s.eventIdMap := by
  rw [associate]
  split <;> rfl

/-- The two tests before the shared path, as one. -/
theorem ite_comes {α : Type} {parses isLast within : Bool} (skipped routed : α) :
    (if parses = false then skipped else if isLast = false ∧ within = false then skipped
      else routed) =
      if parses = true ∧ (isLast = true ∨ within = true) then routed else skipped := by
  cases parses <;> cases isLast <;> cases within <;> rfl

/-- **The map after an event.** -/
theorem eventIdMap_filterAndRouteAnyEvent (s : EventSystemBase E) (event : RoutedEvent E) :
    (s.filterAndRouteAnyEvent event).eventIdMap =
      match comesToMap s.wallView event with
      | none => s.eventIdMap
      | some seen => Function.update s.eventIdMap seen.eventId (s.entryAfter seen) := by
  cases event with
  | unknown => rfl
  | touch event =>
    rw [filterAndRouteAnyEvent, filterAndRouteEvent, ite_comes, comesToMap]
    split_ifs
    · dsimp only
      rw [← route_eventIdMap]
      cases s.route event (s.entityHits event) with
      | none => rfl
      | some found => simp
    · rfl
  | sound event =>
    rw [filterAndRouteAnyEvent, filterAndRouteSoundEvent, ite_comes, comesToMap]
    split_ifs
    · dsimp only
      rw [← route_eventIdMap]
      cases s.route event.located (s.entityHits event.located) with
      | none => rfl
      | some found => rfl
    · rfl

/-- The wall view stays what it is. -/
@[simp] theorem wallView_filterAndRouteAnyEvent (s : EventSystemBase E) (event : RoutedEvent E) :
    (s.filterAndRouteAnyEvent event).wallView = s.wallView := by
  have hfound : ∀ (event : ShoutEvent E) (s' : EventSystemBase E) (scene : SceneArea),
      s.route event (s.entityHits event) = some (s', scene) → s'.wallView = s.wallView := by
    intro event s' scene hroute
    rcases s.route_cases event (s.entityHits event) with ⟨hnone, -⟩ | ⟨_, _, _, hsome, -⟩
    · rw [hnone] at hroute
      cases hroute
    · rw [hsome] at hroute
      cases hroute
      rfl
  cases event with
  | unknown => rfl
  | touch event =>
    rw [filterAndRouteAnyEvent, filterAndRouteEvent]
    split_ifs
    · rfl
    · rfl
    · cases hroute : s.route event (s.entityHits event) with
      | none => rfl
      | some found =>
        refine Eq.trans ?_ (hfound event found.1 found.2 hroute)
        change (found.1.associate event _).wallView = _
        rw [associate]
        split_ifs <;> rfl
  | sound event =>
    rw [filterAndRouteAnyEvent, filterAndRouteSoundEvent]
    split_ifs
    · rfl
    · rfl
    · cases hroute : s.route event.located (s.entityHits event.located) with
      | none => rfl
      | some found => exact hfound event.located found.1 found.2 hroute

theorem wallView_afterEvents (wallView : WallView) (events : List (RoutedEvent E)) :
    (afterEvents wallView events).wallView = wallView := by
  induction events using List.reverseRecOn with
  | nil => rfl
  | append_singleton events event ih =>
    rw [afterEvents, List.foldl_append]
    exact (wallView_filterAndRouteAnyEvent _ _).trans ih

/-! ## The law of ids -/

/-- An event that does not come to the map opens and closes nothing. -/
theorem not_opens_of_filtered {event : RoutedEvent E} (h : comesToMap wallView event = none)
    (id : UInt32) : ¬Opens wallView id event ∧ ¬Closes id event := by
  cases event with
  | unknown => exact ⟨False.elim, False.elim⟩
  | sound event => exact ⟨False.elim, False.elim⟩
  | touch event =>
    rw [comesToMap] at h
    split_ifs at h with hcomes
    refine ⟨?_, ?_⟩
    · rintro ⟨-, -, hparses, hwithin, -⟩
      exact hcomes ⟨hparses, .inr hwithin⟩
    · rintro ⟨-, hlast, hparses⟩
      exact hcomes ⟨hparses, .inl hlast⟩

/-- What an event that comes to the map opens and closes. -/
theorem opens_iff {event : RoutedEvent E} {seen : ShoutEvent E}
    (h : comesToMap wallView event = some seen) (id : UInt32) :
    (Opens wallView id event ↔
        seen.eventId = id ∧ IsLocation event ∧ (firstEntry wallView seen).isSome) ∧
      (Closes id event ↔ seen.eventId = id ∧ seen.isLast = true) ∧
      (IsLocation event → seen.isLast = false) := by
  cases event with
  | unknown => cases h
  | sound event =>
    rw [comesToMap] at h
    split_ifs at h
    obtain rfl := Option.some.inj h
    simp [Opens, Closes, IsLocation, SoundEvent.located]
  | touch event =>
    rw [comesToMap] at h
    split_ifs at h with hcomes
    obtain rfl := Option.some.inj h
    obtain ⟨hparses, hwithin⟩ := hcomes
    refine ⟨?_, by simp [Closes, hparses], fun hlast => hlast⟩
    simp only [Opens, IsLocation, hparses, true_and]
    refine and_congr_right fun _ => and_congr_right fun hlast => and_iff_right ?_
    simpa [hlast] using hwithin

/-- **The entry of an id** is as it should be after an event exactly if no id comes in that
is not read. -/
theorem entryAfter_isSome_iff {seen : ShoutEvent E} {location : Prop}
    (hlocation : location → seen.isLast = false) :
    ((s.entryAfter seen).isSome ↔
        location ∧ (firstEntry s.wallView seen).isSome ∨
          (s.eventIdMap seen.eventId).isSome ∧ ¬seen.isLast = true) ↔
      (¬location → s.eventIdMap seen.eventId = none → firstEntry s.wallView seen = none) := by
  cases hmap : s.eventIdMap seen.eventId with
  | some entry =>
    refine iff_of_true ?_ fun _ hnone => nomatch hnone
    cases hlast : seen.isLast with
    | true =>
      have hnot : ¬location := fun hloc => by simp [hlocation hloc] at hlast
      simp [entryAfter, hmap, hlast, hnot]
    | false => simp [entryAfter, hmap, hlast]
  | none =>
    have hentry : s.entryAfter seen = firstEntry s.wallView seen := by simp [entryAfter, hmap]
    rw [hentry]
    by_cases hloc : location
    · simp [hloc]
    · simp [hloc, Option.isSome_iff_ne_none]

/-- **One more event**: the map still has the ids that are live exactly if no id comes in
that is not read. -/
theorem isSome_filterAndRouteAnyEvent_iff {live : UInt32 → Prop}
    (h : ∀ id, (s.eventIdMap id).isSome ↔ live id) (event : RoutedEvent E) :
    (∀ id, ((s.filterAndRouteAnyEvent event).eventIdMap id).isSome ↔
        Opens s.wallView id event ∨ live id ∧ ¬Closes id event) ↔ s.OnlyTouches event := by
  rw [eventIdMap_filterAndRouteAnyEvent, OnlyTouches]
  cases hcomes : comesToMap s.wallView event with
  | none =>
    refine iff_of_true (fun id => ?_) fun _ hsome => nomatch hsome
    obtain ⟨hopens, hcloses⟩ := not_opens_of_filtered hcomes id
    simp [hopens, hcloses, h]
  | some seen =>
    dsimp only
    have hself : Function.update s.eventIdMap seen.eventId (s.entryAfter seen) seen.eventId =
        s.entryAfter seen := Function.update_self ..
    have hlocation := (opens_iff hcomes seen.eventId).2.2
    refine ⟨fun hall seen' hseen' => ?_, fun honly id => ?_⟩
    · obtain rfl := Option.some.inj hseen'
      have hid := hall seen.eventId
      rw [hself, (opens_iff hcomes _).1, (opens_iff hcomes _).2.1, ← h] at hid
      exact (entryAfter_isSome_iff hlocation).mp (by simpa using hid)
    · by_cases hid : seen.eventId = id
      · subst hid
        have hentry := (entryAfter_isSome_iff hlocation).mpr (honly seen rfl)
        rw [hself, (opens_iff hcomes _).1, (opens_iff hcomes _).2.1, ← h]
        simpa using hentry
      · rw [Function.update_of_ne (Ne.symm hid), (opens_iff hcomes id).1,
          (opens_iff hcomes id).2.1, h]
        simp [hid]

/-- A touch whose id the map does not have is associated with the entity that its event hits
first. -/
theorem eventIdMap_of_opens {id : UInt32} {event : ShoutEvent E}
    (hnone : s.eventIdMap id = none) (hopens : Opens s.wallView id (.touch event)) :
    (s.filterAndRouteAnyEvent (.touch event)).eventIdMap id = firstEntry s.wallView event := by
  obtain ⟨rfl, hlast, hparses, hwithin, -⟩ := hopens
  have hcomes : comesToMap s.wallView (.touch event) = some event :=
    if_pos ⟨hparses, .inr hwithin⟩
  rw [eventIdMap_filterAndRouteAnyEvent, hcomes]
  dsimp only
  rw [Function.update_self, entryAfter, hnone]

theorem afterEvents_append_singleton (events : List (RoutedEvent E)) (event : RoutedEvent E) :
    afterEvents wallView (events ++ [event]) =
      (afterEvents wallView events).filterAndRouteAnyEvent event := by
  rw [afterEvents, List.foldl_append]
  rfl

/-- The second half of the law follows from the first. -/
theorem idLife_of_keys {events : List (RoutedEvent E)}
    (h : ∀ id, ((afterEvents wallView events).eventIdMap id).isSome ↔ Live wallView events id) :
    IdLife wallView events := by
  refine ⟨h, fun id event hlive hopens => ?_⟩
  rw [← h, Option.not_isSome_iff_eq_none] at hlive
  rw [afterEvents_append_singleton]
  have hview := wallView_afterEvents wallView events
  have hentry := eventIdMap_of_opens hlive (hview.symm ▸ hopens)
  rwa [hview] at hentry

/-- **The map has the ids of the touches** after every event of a sequence exactly if no
remove event and no sound event brings in an id that is not there. -/
theorem idLife_iff (wallView : WallView) (events : List (RoutedEvent E)) :
    (∀ before, before <+: events → IdLife wallView before) ↔
      TransitionSystem.Meets filterAndRouteAnyEvent OnlyTouches (new wallView) events := by
  refine TransitionSystem.forall_prefix_iff_meets ?_ ?_ events
  · exact idLife_of_keys fun id => iff_of_false (by simp [afterEvents, new]) not_since_nil
  · intro events event h
    have hstep := isSome_filterAndRouteAnyEvent_iff h.keys event
    rw [wallView_afterEvents] at hstep
    change _ ↔ (afterEvents wallView events).OnlyTouches event
    rw [← hstep]
    refine ⟨fun hlife id => ?_, fun hkeys => ?_⟩
    · rw [← afterEvents_append_singleton, hlife.keys, Live, since_append_singleton]
      rfl
    · refine idLife_of_keys fun id => ?_
      rw [afterEvents_append_singleton, hkeys]
      exact since_append_singleton.symm

/-- A scene that fills a wall, with one entity that fills the scene. -/
def fullScene : List (SceneArea × List (EntityArea ℕ)) :=
  [({ x := 0, y := 0, w := 7168, h := 3072, scale := 1 },
    [{ entity := 0, tx := 0, ty := 0, width := 7168, height := 3072 }])]

/-- A sound event while the variable for the id holds 7. -/
def soundAt7 : RoutedEvent ℕ := .sound
  { parses := true, isLast := false, eventId := 7
    touch := newTouchStateForEvent 0 ⟨0, 0⟩ 0, scenes := fullScene }

/-- A remove event of id 7 while the variables for the coordinates hold 5. -/
def removeOf7 : RoutedEvent ℕ := .touch
  { isLast := true, parses := true, eventId := 7, loc := ⟨5, 5⟩, radius := 0
    scenes := fullScene }

/-- A sound event, and a remove event of an id that is not there, each bring an id into the
map that has had no location event. -/
theorem not_idLife_sound_remove :
    ¬IdLife { x := 0, y := 0, w := 7, h := 4 } [soundAt7] ∧
      ¬IdLife { x := 0, y := 0, w := 7, h := 4 } [removeOf7] := by
  have hlive : ∀ event, ¬Opens { x := 0, y := 0, w := 7, h := 4 } 7 event →
      ¬Live (E := ℕ) { x := 0, y := 0, w := 7, h := 4 } [event] 7 := by
    intro event hopens hlive
    have hrecord : Since (Opens { x := 0, y := 0, w := 7, h := 4 } 7) (Closes 7) ([] ++ [event]) :=
      hlive
    rcases since_append_singleton.mp hrecord with hnow | ⟨hbefore, -⟩
    · exact hopens hnow
    · exact not_since_nil hbefore
  refine ⟨fun hlife => ?_, fun hlife => ?_⟩
  · exact hlive soundAt7 (fun hopens => hopens) ((hlife.keys 7).mp (by decide +kernel))
  · exact hlive removeOf7 (fun hopens => nomatch hopens.2.1) ((hlife.keys 7).mp (by decide +kernel))

end EventSystemBase

end WallMon
