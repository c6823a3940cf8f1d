import WallMon.MessageRouter
import WallMon.Pipeline

/-!
# From messages to calls of `Handle`

The pipeline with messages in place of payloads: daemons that queue nothing but serialised
messages, and the router thread that parses what it takes. All strings it gets parse, in every
run, however the bytes were cut up on their way. So it never comes to what a failed parse
leaves behind, and handlers are called as they should: at most once for each message, in the
order of the strings, and with the data that a collector has sampled.
-/

namespace WallMon

/-- What is relied on of serialisation. -/
structure Serializer (P : Protobuf) where
  /-- `SerializeToArray` -/
  serialize : WallmonMessage → List UInt8
  /-- messages that the format can hold: their numbers are doubles, and they are not too long -/
  Holds : WallmonMessage → Prop
  /-- what was serialised is parsed as it was -/
  parse_serialize : ∀ {msg}, Holds msg → P.parseFromArray {} (serialize msg) = (msg, true)

namespace Serializer

variable {P : Protobuf} (S : Serializer P)

theorem parses {msg : WallmonMessage} (h : S.Holds msg) : P.Parses (S.serialize msg) :=
  congrArg Prod.snd (S.parse_serialize h)

/-- The payload is a message. -/
def Message (payload : List UInt8) : Prop := ∃ msg, S.Holds msg ∧ S.serialize msg = payload

/-- Strings that are messages, as a list of messages. -/
theorem exists_messages {strings : List (List UInt8)} (h : ∀ bytes ∈ strings, S.Message bytes) :
    ∃ msgs : List WallmonMessage, (∀ msg ∈ msgs, S.Holds msg) ∧
      strings = msgs.map S.serialize := by
  induction strings with
  | nil => exact ⟨[], List.forall_mem_nil _, rfl⟩
  | cons bytes strings ih =>
    obtain ⟨⟨msg, hmsg, hbytes⟩, h⟩ := List.forall_mem_cons.mp h
    obtain ⟨msgs, hmsgs, hstrings⟩ := ih h
    refine ⟨msg :: msgs, List.forall_mem_cons.mpr ⟨hmsg, hmsgs⟩, ?_⟩
    rw [List.map_cons, hbytes, hstrings]

end Serializer

namespace Producer

variable {K : DaemonConfig} {p p' : Producer} {a : Action} {ok : List UInt8 → Prop}

/-- All payloads are of the kind. -/
structure Speaks (ok : List UInt8 → Prop) (p : Producer) : Prop where
  /-- what was queued -/
  streamed : ∀ entry ∈ p.streamed, ok entry.2
  /-- the item of a callback -/
  setting : ∀ collector item servers, p.daemon.timer = .settingUp collector item servers →
    ok item.payload

theorem Speaks.fresh (h : p.Fresh) : Speaks ok p := by
  obtain ⟨⟨d, -, hdaemon⟩, hstreamed⟩ := h
  refine ⟨?_, ?_⟩
  · rw [hstreamed]
    exact nofun
  · rw [hdaemon]
    exact nofun

/-- Only callbacks make payloads. -/
theorem Speaks.step (h : Speaks ok p) (hstep : Step K p a p') (hok : Composes ok a) :
    Speaks ok p' := by
  obtain ⟨⟨shared, timer, sender⟩, streamed⟩ := p
  obtain ⟨daemon', streamed'⟩ := p'
  obtain ⟨hthread, hlog, -⟩ := hstep
  dsimp only at hthread hlog
  subst hlog
  cases hthread with
  | compose hcompose =>
    refine ⟨h.streamed, ?_⟩
    rintro _ _ _ heq
    obtain ⟨-, rfl, -⟩ := TimerThread.settingUp.inj heq
    obtain ⟨-, rfl⟩ := StreamItem.compose_eq_ok hcompose
    rw [payload_ofPayload]
    exact hok
  | setupStream =>
    refine ⟨h.streamed, ?_⟩
    rintro _ _ _ heq
    obtain ⟨-, rfl, -⟩ := TimerThread.settingUp.inj heq
    have hitem := h.setting _ _ _ rfl
    exact hitem
  | stream =>
    refine ⟨?_, nofun⟩
    intro entry hentry
    rcases List.mem_append.mp hentry with hold | hnew
    · exact h.streamed entry hold
    · obtain rfl := List.mem_singleton.mp hnew
      exact h.setting _ _ _ rfl
  | pop | sent | fellShort | remove => exact ⟨h.streamed, h.setting⟩

end Producer

namespace Pipeline

open Producer

variable {δ : Type} [DecidableEq δ] {K : δ → DaemonConfig} {s s' : Pipeline δ}

theorem speaks_step {ok : List UInt8 → Prop} (h : ∀ i, Speaks ok (s.producers i))
    {e : PipelineEvent δ} (hstep : Step K s e s') (hok : Composing ok s e) :
    ∀ i, Speaks ok (s'.producers i) := by
  cases hstep with
  | @daemon i a p hdaemon =>
    intro j
    by_cases hj : j = i
    · subst hj
      rw [withProducer_producers_self]
      exact (h j).step hdaemon hok
    · rw [withProducer_producers_ne _ hj]
      exact h j
  | accept | read | close | push | take => exact h

theorem speaks_of_reachable {ok : List UInt8 → Prop}
    (h : ((system K).guarded (Composing ok)).Reachable s) : ∀ i, Speaks ok (s.producers i) := by
  refine h.invariant (I := fun s => ∀ i, Speaks ok (s.producers i)) ?_ ?_
  · exact fun s hs i => .fresh (hs.producers i)
  · rintro s e s' - hs ⟨hstep, hok⟩
    exact speaks_step hs hstep hok

/-- An item that was taken was queued by a daemon. -/
theorem Inv.exists_streamed (h : Inv s) {item : RouterItem} (hitem : item ∈ s.taken) :
    ∃ i collector, (collector, item.message) ∈ (s.producers i).streamed := by
  have hmem : item ∈ s.calls.map routed := by
    rw [← h.fifo, List.append_assoc]
    exact List.mem_append_left _ hitem
  obtain ⟨call, hcall, rfl⟩ := List.mem_map.mp hmem
  have harrived : call.payload ∈ s.arrived call.watcher :=
    List.mem_map_of_mem (List.mem_filter.mpr ⟨hcall, decide_eq_true rfl⟩)
  have hsent := (h.arrived_isPrefix call.watcher).subset harrived
  obtain ⟨w, hw, hpayload⟩ := List.mem_map.mp hsent
  have hpayloads : call.payload ∈ payloads (s.shared call.watcher) call.watcher.2 :=
    hpayload ▸ List.mem_map_of_mem (List.mem_filter.mp hw).1
  have hcarries := h.carries call.watcher.1
  exact ⟨_, (hcarries.payloads_inOrder call.watcher.2).exists_mem hpayloads⟩

end Pipeline

/-- Handlers that exit have the key in their `Context` under which they were registered. -/
def Handlers.ExitUnderKey {σ : Type} (H : Handlers σ) (keyOf : ℕ → String) : Prop :=
  ∀ m world, (H.context m world).exit = true → (H.context m world).key = keyOf m

/-- Each handler is registered under its key, and none of them was deleted. -/
def DataRouter.UnderKey (keyOf : ℕ → String) (r : DataRouter) : Prop :=
  ∀ key m, r.HandlesKey key m → keyOf m = key ∧ m ∉ r.deleted

/-- It stays so if handlers exit under their key. -/
theorem DataRouter.UnderKey.route {keyOf : ℕ → String} {r r' : DataRouter} (h : r.UnderKey keyOf)
    {msg : RoutedMessage} {calls : List (Call ℕ)} (hroute : r.route msg = some (r', calls))
    (hexit : ∀ m, r.HandlesKey msg.key m → msg.ctx.exit = true → msg.ctx.key = keyOf m) :
    r'.UnderKey keyOf := by
  intro key m hkey
  rcases route_eq_some hroute with
    ⟨rfl, -⟩ | ⟨event, hevent, rfl, -⟩ | ⟨event, hevent, hctx, hexits, -, rfl, -⟩
  · exact h _ _ hkey
  · exact h _ _ (handlesKey_of_update hevent hkey)
  · obtain ⟨hne, hold⟩ := handlesKey_deleteHandler hkey
    obtain ⟨hof, hnot⟩ := h _ _ hold
    refine ⟨hof, fun hmem => ?_⟩
    rcases List.mem_cons.mp hmem with rfl | hmem
    · -- its key is the one that was erased
      rw [hctx, hexit _ hevent hexits, hof] at hne
      exact hne rfl
    · exact hnot hmem

/-- It stays so when another handler is registered. -/
theorem DataRouter.UnderKey.register {keyOf : ℕ → String} {r : DataRouter} (h : r.UnderKey keyOf)
    {handler : ℕ} {type : MonitorType} {ctx : Context} (hkey : keyOf handler = ctx.key)
    (hnew : handler ∉ r.deleted) : (register handler type ctx r).UnderKey keyOf := by
  intro key m hm
  rcases handlesKey_insert hm with ⟨rfl, rfl⟩ | ⟨-, hold⟩
  · exact ⟨hkey, hnew⟩
  · exact h _ _ hold

namespace MessageRouter

variable {σ : Type} {P : Protobuf} {H : Handlers σ}

/-- What a string does to the registrations: nothing, or what `DataRouter.route` does for a
handler that was found. -/
theorem receive_router {r r' : MessageRouter σ} {item : RoutedString} {calls : List Invocation}
    (h : r.receive P H item = some (r', calls)) :
    r'.router = r.router ∨ ∃ key m world calls, r.router.HandlesKey key m ∧
      r.router.route ⟨key, H.context m world⟩ = some (r'.router, calls) := by
  rw [receive] at h
  split at h
  · obtain ⟨rfl, -⟩ := Prod.mk.inj (Option.some.inj h)
    exact .inl rfl
  rw [round] at h
  split at h
  · obtain ⟨rfl, -⟩ := Prod.mk.inj (Option.some.inj h)
    exact .inl rfl
  · next event hlookup =>
    rw [invoke] at h
    obtain ⟨⟨router, calls⟩, hroute, h⟩ := Option.bind_eq_some_iff.mp h
    obtain ⟨rfl, -⟩ := Prod.mk.inj (Option.some.inj h)
    rw [handle_router, handle_key] at hroute
    split
    · rw [stop_router]
      exact .inr ⟨_, _, _, _, ⟨event, hlookup, rfl⟩, hroute⟩
    · rw [handle_router]
      exact .inl rfl

theorem underKey_receive {keyOf : ℕ → String} (hH : H.ExitUnderKey keyOf) {r r' : MessageRouter σ}
    (h : r.router.UnderKey keyOf) {item : RoutedString} {calls : List Invocation}
    (hreceive : r.receive P H item = some (r', calls)) : r'.router.UnderKey keyOf := by
  rcases receive_router hreceive with heq | ⟨key, m, world, calls, hkey, hroute⟩
  · rwa [heq]
  · refine h.route hroute fun m' hkey' hexit => ?_
    have hof := (h _ _ hkey').1
    rw [← (h _ _ hkey).1] at hof
    exact (hH m world hexit).trans hof.symm

/-- Strings that parse are all that the router was made for, if handlers exit under their key. -/
theorem run_eq_ideal_of_parses {keyOf : ℕ → String} (hH : H.ExitUnderKey keyOf)
    {r : MessageRouter σ} (h : r.router.AllHandlers) (hkeys : r.router.UnderKey keyOf)
    {items : List RoutedString} (hitems : ∀ item ∈ items, P.Parses item.message) :
    r.run P H items = some (r.ideal P H items) := by
  induction items generalizing r with
  | nil => rfl
  | cons item items ih =>
    obtain ⟨hitem, hitems⟩ := List.forall_mem_cons.mp hitems
    have hthere : r.EventThere P item :=
      fun _ _ event hlookup => (hkeys _ _ ⟨event, hlookup, rfl⟩).2
    obtain ⟨r', hreceive, hr'⟩ :=
      receive_handled (P := P) (H := H) h hthere (ne_nil_of_parses hitem)
    rw [ideal, if_pos hitem, run_cons_eq_some hreceive, after_eq hreceive]
    exact ⟨rfl, ih hr' (underKey_receive hH hkeys hreceive) hitems⟩

/-- There is at most one call for a string. -/
theorem length_expected_le {r : MessageRouter σ} {item : RoutedString} :
    (r.expected P H item).length ≤ 1 := by
  rw [expected]
  split
  · exact Nat.zero_le 1
  dsimp only
  split
  · exact Nat.zero_le 1
  · exact le_refl 1

/-- What is called for serialised messages: one list of calls for each, of at most one call,
which hands over the data. -/
theorem forall₂_ideal {S : Serializer P} {r : MessageRouter σ} {items : List RoutedString}
    {msgs : List WallmonMessage} (hholds : ∀ msg ∈ msgs, S.Holds msg)
    (hitems : items.map RoutedString.message = msgs.map S.serialize) :
    List.Forall₂ (fun calls msg => calls.length ≤ 1 ∧
      ∀ call ∈ calls, call.received.payload = msg.data) (r.ideal P H items) msgs := by
  induction items generalizing r msgs with
  | nil =>
    rw [List.map_nil, eq_comm, List.map_eq_nil_iff] at hitems
    rw [hitems]
    exact .nil
  | cons item items ih =>
    cases msgs with
    | nil => cases hitems
    | cons msg msgs =>
      obtain ⟨hitem, hrest⟩ := List.cons_eq_cons.mp hitems
      obtain ⟨hmsg, hholds⟩ := List.forall_mem_cons.mp hholds
      have hparsed : (r.parsed P item).msg = msg := by
        rw [parsed, P.clears _ {}, hitem, S.parse_serialize hmsg]
      rw [ideal, if_pos (hitem ▸ S.parses hmsg)]
      refine .cons ⟨length_expected_le, fun call hcall => ?_⟩ (ih hholds hrest)
      rw [payload_of_mem_expected hcall, hparsed]

end MessageRouter

namespace Pipeline

open Producer

variable {δ : Type} [DecidableEq δ] {K : δ → DaemonConfig} {s : Pipeline δ}

/-- Restrictions on what daemons queue, one of which is weaker. -/
theorem reachable_mono {ok ok' : List UInt8 → Prop} (himp : ∀ payload, ok payload → ok' payload)
    (h : ((system K).guarded (Composing ok)).Reachable s) :
    ((system K).guarded (Composing ok')).Reachable s := by
  refine h.guarded_mono ?_
  intro s e he
  cases e with
  | daemon i a => exact he.mono himp
  | _ => trivial

/-- **What handlers are called with.** If daemons queue serialised messages only, then in every
reachable state the strings that the router thread has taken are the serialisations of messages
that collectors have composed; as long as handlers exit under the key they were registered with,
routing the strings goes as it should, to the end or until a handler ends the process; and each
of them leads to at most one call of `Handle`, which gets the data of the message. -/
theorem handlers_called {P : Protobuf} {S : Serializer P} {σ : Type} {H : Handlers σ}
    (h : ((system K).guarded (Composing fun payload =>
      Sized payload ∧ S.Message payload)).Reachable s) {keyOf : ℕ → String}
    (hH : H.ExitUnderKey keyOf) {r : MessageRouter σ} (hr : r.router.AllHandlers)
    (hkeys : r.router.UnderKey keyOf) {items : List RoutedString}
    (hitems : items.map RoutedString.message = s.taken.map RouterItem.message) :
    ∃ msgs : List WallmonMessage, s.taken.map RouterItem.message = msgs.map S.serialize ∧
      (∀ msg ∈ msgs, ∃ i collector, (collector, S.serialize msg) ∈ (s.producers i).streamed) ∧
      r.run P H items = some (r.ideal P H items) ∧
      List.Forall₂ (fun calls msg => calls.length ≤ 1 ∧
        ∀ call ∈ calls, call.received.payload = msg.data) (r.ideal P H items) msgs := by
  have hinv := Inv.reachable (reachable_mono (fun _ hok => hok.1) h)
  have hspeaks := speaks_of_reachable (reachable_mono (fun _ hok => hok.2) h)
  have hmessage : ∀ bytes ∈ s.taken.map RouterItem.message, S.Message bytes := by
    intro bytes hbytes
    obtain ⟨item, hitem, rfl⟩ := List.mem_map.mp hbytes
    obtain ⟨i, collector, hmem⟩ := hinv.exists_streamed hitem
    exact (hspeaks i).streamed _ hmem
  obtain ⟨msgs, hholds, hmsgs⟩ := S.exists_messages hmessage
  refine ⟨msgs, hmsgs, ?_, ?_, MessageRouter.forall₂_ideal hholds (hitems.trans hmsgs)⟩
  · intro msg hmsg
    have hbytes : S.serialize msg ∈ s.taken.map RouterItem.message :=
      hmsgs ▸ List.mem_map_of_mem hmsg
    obtain ⟨item, hitem, heq⟩ := List.mem_map.mp hbytes
    rw [← heq]
    exact hinv.exists_streamed hitem
  · apply MessageRouter.run_eq_ideal_of_parses hH hr hkeys
    intro item hitem
    have hbytes : item.message ∈ s.taken.map RouterItem.message :=
      hitems ▸ List.mem_map_of_mem hitem
    obtain ⟨msg, hmsg, heq⟩ := hmessage _ hbytes
    rw [← heq]
    exact S.parses hmsg

/-- Serialisation of short messages. -/
def shortSerializer : Serializer MessageRouter.shortMessages where
  serialize msg :=
    let key := msg.key.toList.map fun c => UInt8.ofNat c.toNat
    0x0A :: UInt8.ofNat key.length :: key ++ 0x12 :: UInt8.ofNat msg.data.length :: msg.data
  Holds msg :=
    let key := msg.key.toList.map fun c => UInt8.ofNat c.toNat
    MessageRouter.shortMessages.parseFromArray {}
      (0x0A :: UInt8.ofNat key.length :: key ++
        0x12 :: UInt8.ofNat msg.data.length :: msg.data) = (msg, true)
  parse_serialize := id

/-- Handlers that do not exit do so under any key. -/
theorem exitUnderKey_plainHandlers :
    MessageRouter.plainHandlers.ExitUnderKey fun _ => "k" := fun _ _ hexit => nomatch hexit

theorem underKey_oneHandler :
    DataRouter.UnderKey (fun _ => "k") MessageRouter.oneHandler.router :=
  DataRouter.UnderKey.register (r := DataRouter.manager.start)
    (fun _ _ ⟨_, hlookup, _⟩ => nomatch hlookup) rfl List.not_mem_nil

theorem handlers_called_two_messages :
    ∃ s, ((system oneDaemon).guarded (Composing fun payload =>
        Sized payload ∧ shortSerializer.Message payload)).Reachable s ∧
      s.taken.map RouterItem.message = twoMessages ∧
      MessageRouter.oneHandler.run MessageRouter.shortMessages MessageRouter.plainHandlers
        (twoMessages.map MessageRouter.arrival) = some [[⟨0, .data [7]⟩], [⟨0, .data [8]⟩]] := by
  obtain ⟨s, hs, -, hsent, hother⟩ := @reachable_sent
    (fun payload => Sized payload ∧ shortSerializer.Message payload)
    [0x0A, 1, 0x6B, 0x12, 1, 7] [0x0A, 1, 0x6B, 0x12, 1, 8]
    ⟨⟨by decide, by decide⟩, { key := "k", data := [7] }, rfl, rfl⟩
    ⟨⟨by decide, by decide⟩, { key := "k", data := [8] }, rfl, rfl⟩ (by decide)
  have hinv := Inv.reachable (reachable_mono (fun _ hok => hok.1) hs)
  obtain ⟨s', hlead, hhandled⟩ := hinv.exists_handled (K := oneDaemon)
  have htaken : s'.taken.map RouterItem.message = twoMessages := by
    rw [(hlead.inv hinv).map_taken_eq_handled fun c hc => (hhandled c).trans (hother c hc),
      hhandled]
    exact hsent
  have hitems : (twoMessages.map MessageRouter.arrival).map RoutedString.message =
      s'.taken.map RouterItem.message := by
    rw [htaken]
    rfl
  obtain ⟨-, -, -, hrun, -⟩ := handlers_called (H := MessageRouter.plainHandlers)
    (hlead.guarded hs) exitUnderKey_plainHandlers MessageRouter.oneHandler_allHandlers
    underKey_oneHandler hitems
  exact ⟨s', hlead.guarded hs, htaken, hrun⟩

end Pipeline

end WallMon
