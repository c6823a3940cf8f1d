import WallMon.Scheduler

/-!
# `DataRouter`: handlers by key

A registered handler is invoked for messages with the key its `Context` had at
registration. A handler that asks to exit is stopped and deleted by the router, which
forgets the key that the `Context` has then; the dispatcher still lists it. `Remove`
does nothing here either. So calls are in order as long as `STOP` comes only for
handlers that another one displaced, and handlers exit under the key they were
registered with. With the same result for collectors this settles the lives of monitors
in both programs (`calls_lawful`).
-/

namespace WallMon

/-- A registered handler. -/
structure HandlerEvent where
  /-- the context shared with the handler -/
  ctx : Context
  /-- the handler -/
  handler : ℕ
  /-- its interface -/
  type : MonitorType

/-- The router's registrations. -/
structure DataRouter where
  /-- `_handlers`; an entry whose event was deleted keeps the pointer to it -/
  handlers : AList fun _ : String => HandlerEvent
  /-- the handlers whose event was deleted -/
  deleted : List ℕ

/-- A message that the router takes from its queue: its key, and what the handler it is
for leaves in its `Context`. -/
structure RoutedMessage where
  /-- `key` -/
  key : String
  /-- the context after `Handle` -/
  ctx : Context

namespace DataRouter

/-- `DataRouter::Register` -/
def register (handler : ℕ) (type : MonitorType) (ctx : Context) (r : DataRouter) : DataRouter :=
  { r with handlers := r.handlers.insert ctx.key { ctx, handler, type } }

/-- `DataRouter::Remove` -/
def remove (_ : ℕ) (r : DataRouter) : DataRouter := r

/-- `DataRouter::_DeleteHandler`, for an event with the context it has by then. -/
def deleteHandler (event : HandlerEvent) (r : DataRouter) : DataRouter :=
  { handlers := r.handlers.erase event.ctx.key, deleted := event.handler :: r.deleted }

/-- One round of `DataRouter::_RouteForever`; a handler without interface ends the
process, and so does an event that was deleted. -/
def route (r : DataRouter) (msg : RoutedMessage) : Option (DataRouter × List (Call ℕ)) :=
  match r.handlers.lookup msg.key with
  | none => some (r, [])
  | some event =>
    -- an event that was deleted while its `Context` had another key is still found
    if event.handler ∈ r.deleted then none
    else if event.type = .unknown then none
    else
      let event := { event with ctx := msg.ctx }
      if event.ctx.exit then
        -- erased under the key its context has now, not under the message's key
        some (r.deleteHandler event, [.work event.handler, .onStop event.handler])
      else some ({ r with handlers := r.handlers.insert msg.key event }, [.work event.handler])

/-- The router as the server's `IMonitorManager`. -/
def manager : MonitorManager DataRouter RoutedMessage where
  multicastListenPort := serverMulticastListenPort
  start := { handlers := ∅, deleted := [] }
  register := register
  remove := remove
  round := route

/-- The handler is registered under the key. -/
def HandlesKey (r : DataRouter) (key : String) (handler : ℕ) : Prop :=
  ∃ event, r.handlers.lookup key = some event ∧ event.handler = handler

/-- The handler that a message is for exits only under the key it is registered with. -/
def ExitsUnderItsKey (r : DataRouter) (msg : RoutedMessage) : Prop :=
  r.handlers.lookup msg.key ≠ none → msg.ctx.exit = true → msg.ctx.key = msg.key

/-- No handler is registered under two keys. -/
def OneKey (r : DataRouter) : Prop :=
  ∀ {key key' m}, r.HandlesKey key m → r.HandlesKey key' m → key = key'

theorem handlesKey_insert {r : DataRouter} {key key' : String} {event : HandlerEvent} {m : ℕ}
    (h : HandlesKey { r with handlers := r.handlers.insert key event } key' m) :
    key' = key ∧ m = event.handler ∨ key' ≠ key ∧ r.HandlesKey key' m := by
  obtain ⟨event', hlookup, rfl⟩ := h
  by_cases heq : key' = key
  · subst heq
    obtain rfl := Option.some.inj (hlookup.symm.trans (AList.lookup_insert _))
    exact .inl ⟨rfl, rfl⟩
  · exact .inr ⟨heq, event', (AList.lookup_insert_ne heq).symm.trans hlookup, rfl⟩

theorem handlesKey_deleteHandler {r : DataRouter} {event : HandlerEvent} {key : String} {m : ℕ}
    (h : (r.deleteHandler event).HandlesKey key m) : key ≠ event.ctx.key ∧ r.HandlesKey key m := by
  obtain ⟨event', hlookup, rfl⟩ := h
  by_cases heq : key = event.ctx.key
  · subst heq
    cases hlookup.symm.trans (AList.lookup_erase _ _)
  · exact ⟨heq, event', (AList.lookup_erase_ne heq).symm.trans hlookup, rfl⟩

/-- What a message does: nothing; the handler with its key works; or that handler works
and is stopped and deleted. -/
theorem route_eq_some {r r' : DataRouter} {msg : RoutedMessage} {calls : List (Call ℕ)}
    (h : r.route msg = some (r', calls)) :
    r' = r ∧ calls = [] ∨
    (∃ event, r.HandlesKey msg.key event.handler ∧
      r' = { r with handlers := r.handlers.insert msg.key event } ∧
      calls = [.work event.handler]) ∨
    (∃ event, r.HandlesKey msg.key event.handler ∧ event.ctx = msg.ctx ∧ msg.ctx.exit = true ∧
      r.handlers.lookup msg.key ≠ none ∧ r' = r.deleteHandler event ∧
      calls = [.work event.handler, .onStop event.handler]) := by
  rw [route] at h
  split at h
  · obtain ⟨rfl, rfl⟩ := Prod.mk.inj (Option.some.inj h)
    exact .inl ⟨rfl, rfl⟩
  · next event hlookup =>
    have hkey : r.HandlesKey msg.key event.handler := ⟨event, hlookup, rfl⟩
    split at h
    · cases h
    · split at h
      · cases h
      dsimp only at h
      split at h
      · next hexit =>
        obtain ⟨rfl, rfl⟩ := Prod.mk.inj (Option.some.inj h)
        refine .inr (.inr ⟨{ event with ctx := msg.ctx }, hkey, rfl, hexit, ?_, rfl, rfl⟩)
        rw [hlookup]
        exact Option.some_ne_none event
      · obtain ⟨rfl, rfl⟩ := Prod.mk.inj (Option.some.inj h)
        exact .inr (.inl ⟨{ event with ctx := msg.ctx }, hkey, rfl, rfl⟩)

/-- Replacing a handler's event under its key registers nothing new. -/
theorem handlesKey_of_update {r : DataRouter} {key key' : String} {event : HandlerEvent} {m : ℕ}
    (hkey : r.HandlesKey key event.handler)
    (h : HandlesKey { r with handlers := r.handlers.insert key event } key' m) :
    r.HandlesKey key' m := by
  rcases handlesKey_insert h with ⟨rfl, rfl⟩ | ⟨-, hold⟩
  · exact hkey
  · exact hold

/-- Messages register nothing. -/
theorem handlesKey_of_route {r r' : DataRouter} {msg : RoutedMessage} {calls : List (Call ℕ)}
    (h : r.route msg = some (r', calls)) {key : String} {m : ℕ} (hkey : r'.HandlesKey key m) :
    r.HandlesKey key m := by
  rcases route_eq_some h with ⟨rfl, -⟩ | ⟨event, hevent, rfl, -⟩ | ⟨event, -, -, -, -, rfl, -⟩
  · exact hkey
  · exact handlesKey_of_update hevent hkey
  · exact (handlesKey_deleteHandler hkey).2

/-- The router's registry: the handlers in the map. -/
def registry : Registry manager ExitsUnderItsKey where
  Valid := OneKey
  registered r m := ∃ key, r.HandlesKey key m
  stopped r m := m ∈ r.deleted
  valid_start := by
    rintro key key' m ⟨event, hlookup, -⟩
    cases hlookup
  registered_start := by
    rintro m ⟨key, event, hlookup, -⟩
    cases hlookup
  valid_register := by
    intro r m type ctx hr hm key key' m' h h'
    rcases handlesKey_insert h with ⟨rfl, rfl⟩ | ⟨-, hold⟩
    · rcases handlesKey_insert h' with ⟨rfl, -⟩ | ⟨-, hold'⟩
      · rfl
      · exact absurd ⟨key', hold'⟩ hm
    · rcases handlesKey_insert h' with ⟨rfl, rfl⟩ | ⟨-, hold'⟩
      · exact absurd ⟨key, hold⟩ hm
      · exact hr hold hold'
  registered_register := by
    rintro r m type ctx m' ⟨key, h⟩
    rcases handlesKey_insert h with ⟨-, rfl⟩ | ⟨-, hold⟩
    · exact .inl rfl
    · exact .inr ⟨key, hold⟩
  stopped_register := id
  valid_remove := id
  registered_remove := id
  stopped_remove := id
  valid_round hr _ h _ _ _ hkey hkey' :=
    hr (handlesKey_of_route h hkey) (handlesKey_of_route h hkey')
  registered_round _ _ h := fun ⟨key, hkey⟩ => ⟨key, handlesKey_of_route h hkey⟩
  round_effect := by
    intro r msg r' calls hr hok h
    rcases route_eq_some h with
      ⟨rfl, rfl⟩ | ⟨event, hevent, rfl, rfl⟩ | ⟨event, hevent, hctx, hexit, hfound, rfl, rfl⟩
    · exact .none fun _ => id
    · exact .work ⟨msg.key, hevent⟩ fun _ => id
    · refine .exit ⟨msg.key, hevent⟩ ?_ (List.mem_cons_self ..) fun _ => List.mem_cons_of_mem _
      rintro ⟨key, hkey⟩
      obtain ⟨hne, hold⟩ := handlesKey_deleteHandler hkey
      -- the one key of the handler is the one that was erased
      rw [hctx, hok hfound hexit] at hne
      exact hne (hr hold hevent)

/-- `STOP` comes only for handlers that are not in the map any more and did not exit
themselves, and handlers exit under the key they were registered with. -/
def StopsDisplaced (d : Dispatcher DataRouter) : Dispatcher.Event RoutedMessage → Prop
  | .datagram (.stop filePath _) => ∀ m, d.monitors.lookup filePath = some m →
      (∀ key, ¬ d.manager.HandlesKey key m) ∧ m ∉ d.manager.deleted
  | .datagram _ => True
  | .round msg => d.manager.ExitsUnderItsKey msg

theorem StopsDisplaced.stopsOnce {d : Dispatcher DataRouter} {e : Dispatcher.Event RoutedMessage}
    (h : StopsDisplaced d e) : Dispatcher.StopsOnce registry d e := by
  cases e with
  | datagram datagram =>
    cases datagram with
    | stop filePath onStopThrows =>
      intro m hpath
      obtain ⟨hkeys, hdeleted⟩ := h m hpath
      exact ⟨fun ⟨key, hkey⟩ => hkeys key hkey, hdeleted⟩
    | _ => trivial
  | round => exact h

/-- **Lives of handlers**: as long as `STOP` comes only for handlers that were displaced
and did not exit, and handlers exit under their key, handlers handle between `OnInit`
and `OnStop`. -/
theorem lawful_of_stopsDisplaced {d : Dispatcher DataRouter}
    (h : ((Dispatcher.system manager).guarded StopsDisplaced).Reachable d) :
    Call.Lawful d.calls :=
  Dispatcher.lawful_of_stopsOnce registry
    (h.guarded_mono fun _ _ hdisplaced => hdisplaced.stopsOnce)

end DataRouter

/-! ## Both programs -/

namespace Dispatcher

/-- **Lives of monitors**, in the daemon and in the server: every `Sample` and `Handle`
comes after the monitor's `OnInit` and before its `OnStop`, and `OnStop` is called at most
once, in every run in which `STOP` comes only for monitors that the manager has no use for
any more, and handlers exit under their key. -/
theorem calls_lawful (L : EventLoop) :
    (∀ d, ((system (Scheduler.manager L)).guarded Scheduler.StopsIdle).Reachable d →
      Call.Lawful d.calls) ∧
    (∀ d, ((system DataRouter.manager).guarded DataRouter.StopsDisplaced).Reachable d →
      Call.Lawful d.calls) :=
  ⟨fun _ => Scheduler.lawful_of_stopsIdle, fun _ => DataRouter.lawful_of_stopsDisplaced⟩

/-- A `Context` that names no server and does not ask to exit. -/
def plainContext (key : String) (sampleFrequencyMsec : ℚ) : Context :=
  { key, servers := [], sampleFrequencyMsec, exit := false }

/-- A collector with frequency 0 samples once, its timer runs out, and it is stopped. A
handler is stopped after another one was loaded with its key, which then handles. -/
theorem calls_lawful_over :
    (∃ d, ((system (Scheduler.manager Scheduler.libev)).guarded Scheduler.StopsIdle).Reachable d ∧
      d.calls = [.onInit 0, .work 0, .onStop 0] ∧ Call.Lawful d.calls) ∧
    (∃ d, ((system DataRouter.manager).guarded DataRouter.StopsDisplaced).Reachable d ∧
      d.calls = [.onInit 0, .onInit 1, .onStop 0, .work 1] ∧ Call.Lawful d.calls) := by
  have hdaemon : ((system (Scheduler.manager Scheduler.libev)).guarded
      Scheduler.StopsIdle).Reachable (initial _) := .start rfl
  have hsampled := (hdaemon.next
    ⟨init_step _ "collector.so" "tile-0-0" .plain (plainContext "key" 0) false rfl, trivial⟩).next
    ⟨round_step _ ⟨0, 1, plainContext "key" 0, 0⟩
      (Scheduler.timeout_due rfl rfl (by decide +kernel) (by decide)), trivial⟩
  have hcollector := hsampled.next ⟨stop_step _ "collector.so" false rfl rfl, by
    intro m hpath t ht _
    obtain rfl := List.mem_singleton.mp ht
    decide +kernel⟩
  have hserver : ((system DataRouter.manager).guarded
      DataRouter.StopsDisplaced).Reachable (initial _) := .start rfl
  have hloaded := (hserver.next
    ⟨init_step _ "old.so" "tile-0-0" .plain (plainContext "key" 0) false rfl, trivial⟩).next
    ⟨init_step _ "new.so" "tile-0-0" .plain (plainContext "key" 0) false rfl, trivial⟩
  have hstopped := hloaded.next ⟨stop_step _ "old.so" false rfl rfl, by
    intro m hpath
    obtain rfl := Option.some.inj hpath
    refine ⟨fun key hkey => ?_, List.not_mem_nil⟩
    rcases DataRouter.handlesKey_insert hkey with ⟨-, hm⟩ | ⟨hne, hkey⟩
    · cases hm
    · rcases DataRouter.handlesKey_insert hkey with ⟨heq, -⟩ | ⟨-, event, hlookup, -⟩
      · exact hne heq
      · cases hlookup⟩
  have hhandler := hstopped.next ⟨round_step _ ⟨"key", plainContext "key" 0⟩ rfl, by
    intro _ hexit
    cases hexit⟩
  exact ⟨⟨_, hcollector, rfl, (calls_lawful Scheduler.libev).1 _ hcollector⟩,
    ⟨_, hhandler, rfl, (calls_lawful Scheduler.libev).2 _ hhandler⟩⟩

/-- A collector with the default frequency is sampled after it was stopped; a handler
handles after it was stopped; and a handler that exited is stopped once more. -/
theorem calls_after_stop :
    (∃ d, (system (Scheduler.manager Scheduler.libev)).Reachable d ∧
      d.calls = [.onInit 0, .onStop 0, .work 0] ∧ ¬ Call.Lawful d.calls) ∧
    (∃ d, (system DataRouter.manager).Reachable d ∧
      d.calls = [.onInit 0, .onStop 0, .work 0] ∧ ¬ Call.Lawful d.calls) ∧
    (∃ d, (system DataRouter.manager).Reachable d ∧
      d.calls = [.onInit 0, .work 0, .onStop 0, .onStop 0] ∧ ¬ Call.Lawful d.calls) := by
  have hlate : ¬ Call.Lawful [Call.onInit 0, .onStop 0, .work 0] := by
    intro h
    have hsplit : [Call.onInit 0, .onStop 0, .work 0] = [.onInit 0, .onStop 0] ++ [.work 0] := rfl
    have hstop := (h.work hsplit).2
    simp at hstop
  have htwice : ¬ Call.Lawful [Call.onInit 0, .work 0, .onStop 0, .onStop 0] := by
    intro h
    have hcount := h.onStop 0
    revert hcount
    decide
  have hdaemon : (system (Scheduler.manager Scheduler.libev)).Reachable (initial _) := .start rfl
  have hsampled := ((hdaemon.next
    (init_step _ "collector.so" "tile-0-0" .plain (plainContext "key" 1000) false rfl)).next
    (stop_step _ "collector.so" false rfl rfl)).next
    (round_step _ ⟨0, 2, plainContext "key" 1000, 0⟩
      (Scheduler.timeout_due rfl rfl (by decide +kernel) (by decide)))
  have hserver : (system DataRouter.manager).Reachable (initial _) := .start rfl
  have hloaded := hserver.next
    (init_step _ "handler.so" "tile-0-0" .plain (plainContext "key" 1000) false rfl)
  have hhandled := (hloaded.next (stop_step _ "handler.so" false rfl rfl)).next
    (round_step _ ⟨"key", plainContext "key" 1000⟩ rfl)
  have hexited := (hloaded.next
    (round_step _ ⟨"key", { plainContext "key" 1000 with exit := true }⟩ rfl)).next
    (stop_step _ "handler.so" false rfl rfl)
  exact ⟨⟨_, hsampled, rfl, hlate⟩, ⟨_, hhandled, rfl, hlate⟩, ⟨_, hexited, rfl, htwice⟩⟩

end Dispatcher

end WallMon
