import WallMon.DataRouter
import WallMon.Transition

/-!
# The messages of `DataRouter`

`_RouteForever` parses each string into the one `_msg`, and does not look at what
`ParseFromArray` returns. What a failed parse has left in `_msg` is routed like any message:
if a handler is registered under the key that is there by then, it handles the rest. So
handlers get what they should, from messages that parse only, exactly if no string that does
not parse leaves the key of a handler (`run_eq_ideal_iff`). An empty key will do, if a handler
is registered under the empty key. Besides, the entry of a handler that exited while its
`Context` had another key is still there, and its event is not.

Protobuf is a parameter, and so is what handlers do.
-/

namespace WallMon

/-- `WallmonMessage`; a required field that is not set reads as empty. -/
structure WallmonMessage where
  /-- the key of the handler -/
  key : String := ""
  /-- what the collector sampled -/
  data : List UInt8 := []
  -- set by the daemon, and only passed on here
  daemonTimestampMsec : Option ℚ := none
  hostname : Option String := none
  sampleFrequencyMsec : Option ℚ := none
  sampleDurationMsec : Option ℚ := none
  scheduleDriftMsec : Option ℚ := none
  scheduleDurationMsec : Option ℚ := none
  actualHz : Option UInt32 := none
  daemonQueueSize : Option UInt32 := none
  daemonNumServerConnections : Option UInt32 := none
  serverNumBytesPerSecNetworkReceive : Option UInt64 := none
  collectorSequenceNumber : Option UInt32 := none
  -- statistics that the router adds
  networkMessageSizeBytes : Option UInt32 := none
  serverSequenceNumber : Option UInt32 := none
  serverQueueSize : Option UInt32 := none
  serverTimestampMsec : Option ℚ := none
  previousHandlerExecutionTimeMsec : Option ℚ := none
  deriving DecidableEq

/-- What is relied on of protobuf. -/
structure Protobuf where
  /-- `ParseFromArray`: what it leaves in the message, and what it returns -/
  parseFromArray : WallmonMessage → List UInt8 → WallmonMessage × Bool
  /-- the message is cleared first -/
  clears : ∀ msg msg' bytes, parseFromArray msg bytes = parseFromArray msg' bytes
  /-- the empty string has no required field -/
  required : ∀ msg, (parseFromArray msg []).2 = false

/-- The string is a message with all required fields. -/
def Protobuf.Parses (P : Protobuf) (bytes : List UInt8) : Prop :=
  (P.parseFromArray {} bytes).2 = true

instance (P : Protobuf) (bytes : List UInt8) : Decidable (P.Parses bytes) :=
  inferInstanceAs (Decidable (_ = true))

/-- What `Handle` is called with. -/
inductive Received where
  /-- `Handle(void *data, int length)` -/
  | data (bytes : List UInt8)
  /-- `Handle(WallmonMessage *msg)` -/
  | message (msg : WallmonMessage)
  deriving DecidableEq

namespace Received

/-- What a handler with the interface is called with. -/
def of (type : MonitorType) (msg : WallmonMessage) : Received :=
  match type with
  | .plain => .data msg.data
  | _ => .message msg

/-- The data in it. -/
def payload : Received → List UInt8
  | .data bytes => bytes
  | .message msg => msg.data

theorem payload_of (type : MonitorType) (msg : WallmonMessage) :
    (of type msg).payload = msg.data := by
  cases type <;> rfl

end Received

/-- A call of `Handle`. -/
structure Invocation where
  /-- the handler -/
  handler : ℕ
  /-- the arguments -/
  received : Received
  deriving DecidableEq

/-- The handlers' side: what they do with a state of their own, and where that has their
contexts. A handler that does not return ends the process, be it by `LOG(FATAL)` or by an
exception. -/
structure Handlers (σ : Type) where
  /-- `Handle`; `none` if it ends the process -/
  handle : ℕ → Received → σ → Option σ
  /-- `OnStop`; `none` if it ends the process -/
  onStop : ℕ → σ → Option σ
  /-- the handler's `Context` -/
  context : ℕ → σ → Context
  /-- `includeStatistics` in it -/
  includeStatistics : ℕ → σ → Bool

/-- A string for `DataRouter::Route`, and what is measured once it is taken from the queue. -/
structure RoutedString where
  /-- `message`, of `length` bytes -/
  message : List UInt8
  /-- `_queue->GetSize()` -/
  queueSize : UInt32
  /-- `timestampMsec` -/
  timestampMsec : ℚ
  /-- `System::GetTimeInMsec() - timestampMsec` after `Handle` -/
  executionTimeMsec : ℚ

/-- The state of `_RouteForever`. -/
structure MessageRouter (σ : Type) where
  /-- `_handlers` -/
  router : DataRouter
  /-- `_msg` -/
  msg : WallmonMessage
  /-- `_sequenceNumber` -/
  sequenceNumber : UInt32
  /-- `_handlerExecutionTimeMsec` -/
  handlerExecutionTimeMsec : ℚ
  /-- the state of the handlers -/
  world : σ
  /-- no handler has ended the process -/
  running : Bool

/-- All that is registered has one of the two interfaces of handlers. -/
def DataRouter.AllHandlers (r : DataRouter) : Prop :=
  ∀ key event, r.handlers.lookup key = some event → event.type ≠ .unknown

namespace MessageRouter

variable {σ : Type} (P : Protobuf) (H : Handlers σ)

/-- The statistics before `Handle`. -/
def withStatistics (s : MessageRouter σ) (handler : ℕ) (item : RoutedString) : MessageRouter σ :=
  if H.includeStatistics handler s.world then
    { s with
      msg := { s.msg with
        networkMessageSizeBytes := some (.ofNat item.message.length)
        serverSequenceNumber := some s.sequenceNumber
        serverQueueSize := some item.queueSize
        serverTimestampMsec := some item.timestampMsec
        previousHandlerExecutionTimeMsec :=
          if s.handlerExecutionTimeMsec > 0 then some s.handlerExecutionTimeMsec
          else s.msg.previousHandlerExecutionTimeMsec }
      sequenceNumber := s.sequenceNumber + 1 }
  else s

/-- The statistics after `Handle`. -/
def withExecutionTime (s : MessageRouter σ) (handler : ℕ) (item : RoutedString) :
    MessageRouter σ :=
  if H.includeStatistics handler s.world then
    { s with handlerExecutionTimeMsec := item.executionTimeMsec }
  else s

/-- `Handle`, between the statistics. -/
def handle (s : MessageRouter σ) (event : HandlerEvent) (item : RoutedString) : MessageRouter σ :=
  let s := s.withStatistics H event.handler item
  match H.handle event.handler (.of event.type s.msg) s.world with
  | none => { s with running := false }
  | some world => { s with world }.withExecutionTime H event.handler item

/-- `OnStop`, of a handler that asks to exit. -/
def stop (s : MessageRouter σ) (event : HandlerEvent) (ctx : Context) : MessageRouter σ :=
  if ctx.exit then
    match H.onStop event.handler s.world with
    | none => { s with running := false }
    | some world => { s with world }
  else s

/-- The branch of `_RouteForever` for a handler that is found; the handlers are kept as in
`DataRouter.route`. -/
def invoke (s : MessageRouter σ) (event : HandlerEvent) (item : RoutedString) :
    Option (MessageRouter σ × List Invocation) := do
  let received := Received.of event.type (s.withStatistics H event.handler item).msg
  let s := s.handle H event item
  let ctx := H.context event.handler s.world
  let (router, _) ← s.router.route ⟨s.msg.key, ctx⟩
  return (if s.running then { s with router }.stop H event ctx else s, [⟨event.handler, received⟩])

/-- `_msg` once the string is parsed into it. -/
def parsed (s : MessageRouter σ) (item : RoutedString) : MessageRouter σ :=
  { s with msg := (P.parseFromArray s.msg item.message).1 }

/-- One round of `_RouteForever`. -/
def round (s : MessageRouter σ) (item : RoutedString) :
    Option (MessageRouter σ × List Invocation) :=
  -- what `ParseFromArray` returns is not looked at
  let s := s.parsed P item
  match s.router.handlers.lookup s.msg.key with
  | none => some (s, [])
  | some event => s.invoke H event item

/-- `DataRouter::Route`, and the round of `_RouteForever` that takes the string. -/
def receive (s : MessageRouter σ) (item : RoutedString) :
    Option (MessageRouter σ × List Invocation) :=
  if item.message.length = 0 ∨ s.running = false then some (s, []) else s.round P H item

/-- The calls of `Handle`, string by string. -/
def run (s : MessageRouter σ) : List RoutedString → Option (List (List Invocation))
  | [] => some []
  | item :: items => do
    let (s', calls) ← s.receive P H item
    let rest ← run s' items
    return calls :: rest

/-- The state after a string. -/
def after (s : MessageRouter σ) (item : RoutedString) : MessageRouter σ :=
  match s.receive P H item with
  | none => s
  | some (s', _) => s'

/-- The handler for a message is called once, with the message, as long as the process runs. -/
def expected (s : MessageRouter σ) (item : RoutedString) : List Invocation :=
  if s.running = false then []
  else
    let s := s.parsed P item
    match s.router.handlers.lookup s.msg.key with
    | none => []
    | some event => [⟨event.handler, .of event.type (s.withStatistics H event.handler item).msg⟩]

/-- **What the router is for**: messages are handled, and other strings change nothing. -/
def ideal (s : MessageRouter σ) : List RoutedString → List (List Invocation)
  | [] => []
  | item :: items =>
    if P.Parses item.message then s.expected P H item :: ideal (s.after P H item) items
    else [] :: ideal s items

/-- **The rest is for no handler**: a string that does not parse leaves a key under which none
is registered. -/
def RestUnhandled (s : MessageRouter σ) (item : RoutedString) : Prop :=
  item.message ≠ [] → s.running = true → ¬P.Parses item.message →
    (s.parsed P item).msg.key ∉ s.router.handlers

instance (s : MessageRouter σ) (item : RoutedString) : Decidable (s.RestUnhandled P item) :=
  inferInstanceAs (Decidable (_ → _))

/-- **The event is there**: what is found under the key that a string leaves was not deleted. -/
def EventThere (s : MessageRouter σ) (item : RoutedString) : Prop :=
  item.message ≠ [] → s.running = true →
    ∀ event ∈ s.router.handlers.lookup (s.parsed P item).msg.key, event.handler ∉ s.router.deleted

instance (s : MessageRouter σ) (item : RoutedString) : Decidable (s.EventThere P item) :=
  inferInstanceAs (Decidable (_ → _))

end MessageRouter

/-! ## One string -/

namespace DataRouter

variable {r r' : DataRouter}

/-- A message for a handler is handled. -/
theorem exists_route_eq_some (h : r.AllHandlers) {key : String} {event : HandlerEvent}
    (hlookup : r.handlers.lookup key = some event) (hthere : event.handler ∉ r.deleted)
    (ctx : Context) : ∃ r' calls, r.route ⟨key, ctx⟩ = some (r', calls) := by
  rw [route, hlookup]
  dsimp only
  rw [if_neg hthere, if_neg (h key event hlookup)]
  split <;> exact ⟨_, _, rfl⟩

/-- A deleted event ends the process. -/
theorem route_of_mem_deleted {key : String} {event : HandlerEvent}
    (hlookup : r.handlers.lookup key = some event) (hdeleted : event.handler ∈ r.deleted)
    (ctx : Context) : r.route ⟨key, ctx⟩ = none := by
  rw [route, hlookup]
  exact if_pos hdeleted

theorem allHandlers_start : manager.start.AllHandlers := by
  intro key event hevent
  cases hevent

theorem AllHandlers.register (h : r.AllHandlers) {handler : ℕ} {type : MonitorType} {ctx : Context}
    (htype : type ≠ .unknown) : (r.register handler type ctx).AllHandlers := by
  intro key event hevent
  by_cases heq : key = ctx.key
  · subst heq
    obtain rfl := Option.some.inj (hevent.symm.trans (AList.lookup_insert _))
    exact htype
  · exact h key event ((AList.lookup_insert_ne heq).symm.trans hevent)

theorem AllHandlers.route (h : r.AllHandlers) {msg : RoutedMessage} {calls : List (Call ℕ)}
    (hroute : r.route msg = some (r', calls)) : r'.AllHandlers := by
  intro key event hevent
  rw [DataRouter.route] at hroute
  split at hroute
  · obtain ⟨rfl, -⟩ := Prod.mk.inj (Option.some.inj hroute)
    exact h key event hevent
  · next event' hlookup =>
    split at hroute
    · cases hroute
    split at hroute
    · cases hroute
    · next htype =>
      dsimp only at hroute
      split at hroute <;> obtain ⟨rfl, -⟩ := Prod.mk.inj (Option.some.inj hroute)
      · by_cases heq : key = msg.ctx.key
        · subst heq
          cases hevent.symm.trans (AList.lookup_erase _ _)
        · exact h key event ((AList.lookup_erase_ne heq).symm.trans hevent)
      · by_cases heq : key = msg.key
        · subst heq
          obtain rfl := Option.some.inj (hevent.symm.trans (AList.lookup_insert _))
          exact htype
        · exact h key event ((AList.lookup_insert_ne heq).symm.trans hevent)

end DataRouter

namespace MessageRouter

variable {σ : Type} {P : Protobuf} {H : Handlers σ} {s s' : MessageRouter σ} {item : RoutedString}

@[simp]
theorem withStatistics_router (handler : ℕ) :
    (s.withStatistics H handler item).router = s.router := by
  rw [withStatistics]
  split <;> rfl

@[simp]
theorem withStatistics_key (handler : ℕ) :
    (s.withStatistics H handler item).msg.key = s.msg.key := by
  rw [withStatistics]
  split <;> rfl

@[simp]
theorem withStatistics_data (handler : ℕ) :
    (s.withStatistics H handler item).msg.data = s.msg.data := by
  rw [withStatistics]
  split <;> rfl

theorem handle_router (event : HandlerEvent) : (s.handle H event item).router = s.router := by
  rw [handle]
  split
  · exact withStatistics_router _
  · rw [withExecutionTime]
    split <;> exact withStatistics_router _

theorem handle_key (event : HandlerEvent) : (s.handle H event item).msg.key = s.msg.key := by
  rw [handle]
  split
  · exact withStatistics_key _
  · rw [withExecutionTime]
    split <;> exact withStatistics_key _

theorem stop_router (event : HandlerEvent) (ctx : Context) :
    (s.stop H event ctx).router = s.router := by
  rw [stop]
  split
  · split <;> rfl
  · rfl

/-- A handler is called once, with the message. -/
theorem invoke_eq_some (h : s.router.AllHandlers) {event : HandlerEvent}
    (hlookup : s.router.handlers.lookup s.msg.key = some event)
    (hthere : event.handler ∉ s.router.deleted) :
    ∃ s', s.invoke H event item =
        some (s', [⟨event.handler, .of event.type (s.withStatistics H event.handler item).msg⟩]) ∧
      s'.router.AllHandlers := by
  obtain ⟨router, calls, hroute⟩ := DataRouter.exists_route_eq_some h hlookup hthere
    (H.context event.handler (s.handle H event item).world)
  rw [invoke]
  simp only [handle_router, handle_key, hroute]
  refine ⟨_, rfl, ?_⟩
  split
  · rw [stop_router]
    exact h.route hroute
  · rwa [handle_router]

/-- A string whose key is that of no handler only changes `_msg`. -/
theorem receive_unhandled (hkey : item.message ≠ [] → s.running = true →
      (s.parsed P item).msg.key ∉ s.router.handlers) :
    ∃ msg, s.receive P H item = some ({ s with msg }, []) := by
  rw [receive]
  split
  · exact ⟨s.msg, rfl⟩
  · next hround =>
    rw [not_or, Bool.not_eq_false] at hround
    have hlookup : (s.parsed P item).router.handlers.lookup (s.parsed P item).msg.key = none :=
      AList.lookup_eq_none.mpr (hkey (mt List.length_eq_zero_iff.mpr hround.1) hround.2)
    refine ⟨(s.parsed P item).msg, ?_⟩
    rw [round, hlookup]
    rfl

/-- Nothing happens once the process has ended. -/
theorem receive_ended (hended : s.running = false) : s.receive P H item = some (s, []) :=
  if_pos (.inr hended)

theorem receive_round (hne : item.message ≠ []) (hrunning : s.running = true) :
    s.receive P H item = s.round P H item :=
  if_neg (not_or.mpr ⟨mt List.length_eq_zero_iff.mp hne, by rw [hrunning]; decide⟩)

/-- A string that is not empty is handled once, if its key is that of a handler. -/
theorem receive_handled (h : s.router.AllHandlers) (hthere : s.EventThere P item)
    (hne : item.message ≠ []) :
    ∃ s', s.receive P H item = some (s', s.expected P H item) ∧ s'.router.AllHandlers := by
  rw [expected]
  split
  · next hended => exact ⟨s, receive_ended hended, h⟩
  · next hrunning =>
    rw [Bool.not_eq_false] at hrunning
    rw [receive_round hne hrunning, round]
    dsimp only
    split
    · exact ⟨_, rfl, h⟩
    · next event hlookup =>
      exact invoke_eq_some (s := s.parsed P item) h hlookup (hthere hne hrunning event hlookup)

/-- A string whose key is that of a deleted event ends the process. -/
theorem receive_deleted (hgone : ¬s.EventThere P item) : s.receive P H item = none := by
  rw [EventThere, Classical.not_imp, Classical.not_imp] at hgone
  obtain ⟨hne, hrunning, hgone⟩ := hgone
  push Not at hgone
  obtain ⟨event, hlookup, hdeleted⟩ := hgone
  have hfound : (s.parsed P item).router.handlers.lookup (s.parsed P item).msg.key = some event :=
    hlookup
  rw [receive_round hne hrunning, round, hfound]
  show (s.parsed P item).invoke H event item = none
  rw [invoke]
  simp only [handle_router, handle_key]
  rw [DataRouter.route_of_mem_deleted hfound hdeleted]
  rfl

/-- A handler under the key is called. -/
theorem expected_ne_nil (hrunning : s.running = true)
    (hkey : (s.parsed P item).msg.key ∈ s.router.handlers) : s.expected P H item ≠ [] := by
  rw [expected, if_neg (by rw [hrunning]; decide)]
  dsimp only
  split
  · next hlookup => exact absurd hkey (AList.lookup_eq_none.mp hlookup)
  · exact List.cons_ne_nil _ _

/-- What a handler is called with has the data of the message. -/
theorem payload_of_mem_expected {invocation : Invocation} (h : invocation ∈ s.expected P H item) :
    invocation.received.payload = (s.parsed P item).msg.data := by
  rw [expected] at h
  split at h
  · cases h
  dsimp only at h
  split at h
  · cases h
  · obtain rfl := List.mem_singleton.mp h
    rw [Received.payload_of, withStatistics_data]

theorem after_eq {calls : List Invocation} (h : s.receive P H item = some (s', calls)) :
    s.after P H item = s' := by
  rw [after, h]

theorem after_of_none (h : s.receive P H item = none) : s.after P H item = s := by
  rw [after, h]

theorem ne_nil_of_parses {bytes : List UInt8} (h : P.Parses bytes) : bytes ≠ [] := by
  rintro rfl
  exact Bool.false_ne_true ((P.required {}).symm.trans h)

/-! ## All strings -/

/-- What `_msg` is before a string is of no importance. -/
theorem parsed_msg (msg : WallmonMessage) :
    ({ s with msg } : MessageRouter σ).parsed P item = s.parsed P item := by
  rw [parsed, parsed, P.clears _ s.msg]

theorem expected_msg (msg : WallmonMessage) :
    ({ s with msg } : MessageRouter σ).expected P H item = s.expected P H item := by
  rw [expected, expected, parsed_msg]

theorem receive_msg (msg : WallmonMessage) (hne : item.message ≠ []) (hrunning : s.running = true) :
    ({ s with msg } : MessageRouter σ).receive P H item = s.receive P H item := by
  have hsame : ({ s with msg } : MessageRouter σ).running = true := hrunning
  rw [receive_round hne hsame, receive_round hne hrunning, round, round, parsed_msg]

theorem ideal_msg (msg : WallmonMessage) (items : List RoutedString) :
    ({ s with msg } : MessageRouter σ).ideal P H items = s.ideal P H items := by
  induction items with
  | nil => rfl
  | cons item items ih =>
    rw [ideal, ideal, ih, expected_msg]
    split
    · next hparses =>
      have hne := ne_nil_of_parses hparses
      rcases Bool.eq_false_or_eq_true s.running with hrunning | hended
      · have hsame : ({ s with msg } : MessageRouter σ).receive P H item = s.receive P H item :=
          receive_msg msg hne hrunning
        cases hreceive : s.receive P H item with
        | none => rw [after_of_none hreceive, after_of_none (hsame.trans hreceive), ih]
        | some result =>
          obtain ⟨s', calls⟩ := result
          rw [after_eq hreceive, after_eq (hsame.trans hreceive)]
      · have hended' : ({ s with msg } : MessageRouter σ).running = false := hended
        rw [after_eq (receive_ended hended), after_eq (receive_ended hended'), ih]
    · rfl

/-- The calls for one more string in front. -/
theorem run_cons_eq_some {calls calls' : List Invocation} {items : List RoutedString}
    {rest : List (List Invocation)} (h : s.receive P H item = some (s', calls)) :
    s.run P H (item :: items) = some (calls' :: rest) ↔
      calls = calls' ∧ s'.run P H items = some rest := by
  rw [run, h]
  cases hrun : s'.run P H items <;> simp [hrun]

/-- Strings that do not parse are as if they had never been received. -/
theorem flatten_ideal_filter (items : List RoutedString) :
    (s.ideal P H items).flatten =
      (s.ideal P H (items.filter fun item => P.Parses item.message)).flatten := by
  induction items generalizing s with
  | nil => rfl
  | cons item items ih =>
    by_cases hparses : P.Parses item.message
    · rw [List.filter_cons_of_pos (by simpa using hparses), ideal, ideal, if_pos hparses,
        if_pos hparses, List.flatten_cons, List.flatten_cons, ih]
    · rw [List.filter_cons_of_neg (by simpa using hparses), ideal, if_neg hparses,
        List.flatten_cons, List.nil_append, ih]

/-! ## Short messages -/

/-- Parse the two required fields, if they have fewer than 128 bytes. -/
def parseFields : ℕ → Bool → Bool → WallmonMessage → List UInt8 → WallmonMessage × Bool
  | fuel + 1, hasKey, hasData, msg, tag :: length :: bytes =>
    let field := bytes.take length.toNat
    let rest := bytes.drop length.toNat
    if bytes.length < length.toNat then (msg, false)
    else if tag = 0x0A then
      let key := String.ofList (field.map fun c => Char.ofNat c.toNat)
      parseFields fuel true hasData { msg with key } rest
    else if tag = 0x12 then parseFields fuel hasKey true { msg with data := field } rest
    else (msg, false)
  | _, hasKey, hasData, msg, bytes => (msg, bytes = [] && hasKey && hasData)

/-- Protobuf, for short messages. -/
def shortMessages : Protobuf where
  parseFromArray _ bytes := parseFields bytes.length false false {} bytes
  clears _ _ _ := rfl
  required _ := rfl

/-- Handlers that want no statistics and do not exit. -/
def plainHandlers : Handlers Unit where
  handle _ _ := some
  onStop _ := some
  context _ _ := Dispatcher.plainContext "k" 1000
  includeStatistics _ _ := false

/-- One handler, with the key `k`. -/
def oneHandler : MessageRouter Unit where
  router := DataRouter.register 0 .plain (Dispatcher.plainContext "k" 1000)
    DataRouter.manager.start
  msg := {}
  sequenceNumber := 0
  handlerExecutionTimeMsec := -1
  world := ()
  running := true

/-- The string arrives when the queue is empty. -/
def arrival (message : List UInt8) : RoutedString := ⟨message, 0, 0, 0⟩

theorem oneHandler_allHandlers : oneHandler.router.AllHandlers :=
  DataRouter.allHandlers_start.register (by decide)

/-- A handler exits, with another key in its `Context`: its entry is still there, not its event. -/
example : oneHandler.run shortMessages
    { plainHandlers with
      context := fun _ _ => { Dispatcher.plainContext "other" 1000 with exit := true } }
    ([[0x0A, 1, 0x6B, 0x12, 1, 7], [0x0A, 1, 0x6B, 0x12, 1, 8]].map arrival) = none := rfl

end MessageRouter

end WallMon
