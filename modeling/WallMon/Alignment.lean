import WallMon.Streamer

/-!
# Connections stay frame-aligned

Descriptors in the queue may be stale: they may have been closed, and given to a
new connection, since the item that holds them was queued. Even so, what is
written to any one connection is a sequence of complete items, of which only the
last can be cut short: a send that falls short closes its descriptor, no connection
ever has another one, and descriptors of new connections belong to new connections.
-/

namespace WallMon

namespace Streamer

variable {K : DaemonConfig} {d : Streamer}

/-- What was written so far is aligned: all items are composed ones, a connection that
still has a descriptor got only complete items, and after an incomplete one a
connection gets nothing more. -/
structure Aligned (d : Streamer) : Prop where
  /-- queued items are composed -/
  queued : ∀ q ∈ d.queue, Composed q.item
  /-- deliveries are prefixes of composed items, to connections that were made -/
  delivered : ∀ w ∈ d.deliveries, Composed w.queued.item ∧ w.conn < d.conns.length ∧
    w.bytes <+: w.queued.item.message
  /-- a connection that has a descriptor got only complete items -/
  intact : ∀ {fd c}, d.fds fd = some (.connected c) →
    ∀ w ∈ d.deliveries, w.conn = c → w.bytes = w.queued.item.message
  /-- an incomplete item is the last one its connection gets -/
  last : d.deliveries.Pairwise fun w w' => w.bytes ≠ w.queued.item.message → w'.conn ≠ w.conn

namespace Aligned

theorem started (h : Started d) : Aligned d := by
  have hnone : ∀ w, w ∉ d.deliveries := by
    rw [h.deliveries]
    exact fun w => List.not_mem_nil
  refine ⟨?_, fun w hw => absurd hw (hnone w), fun _ w hw => absurd hw (hnone w), ?_⟩
  · intro q hq
    rw [h.queue] at hq
    exact absurd hq List.not_mem_nil
  · rw [h.deliveries]
    exact List.Pairwise.nil

/-- Setting up a stream writes nothing, and a new connection got nothing yet. -/
theorem setupStream (h : Aligned d) (server : ServerAddress) (o : SetupOutcome) :
    Aligned (Streamer.setupStream K d server o).1 := by
  rcases setupStream_cases K d server o with
    ⟨fd, -, heq⟩ | ⟨-, heq | heq | ⟨ip, -, -, heq⟩⟩
  · rw [heq]
    exact h
  · rw [heq]
    exact h
  · rw [heq]
    refine ⟨h.queued, h.delivered, ?_, h.last⟩
    intro fd c hfd
    by_cases hfd' : fd = o.fd
    · subst hfd'
      rw [withUnconnected_fds_self] at hfd
      cases hfd
    · rw [withUnconnected_fds_ne _ _ hfd'] at hfd
      exact h.intact hfd
  · rw [heq]
    refine ⟨h.queued, ?_, ?_, h.last⟩
    · intro w hw
      obtain ⟨hcomposed, hlt, hprefix⟩ := h.delivered w hw
      refine ⟨hcomposed, ?_, hprefix⟩
      rw [withConnection_conns, List.length_append]
      exact Nat.lt_add_right _ hlt
    · intro fd c hfd w hw hc
      rcases withConnection_inv hfd with ⟨-, hnew⟩ | hold
      · exact absurd (h.delivered w hw).2.1 (by rw [hc, hnew]; exact lt_irrefl _)
      · exact h.intact hold w hw hc

/-- Queueing a composed item. -/
theorem enqueue (h : Aligned d) {q : QueuedItem} (hq : Composed q.item) (n : ℕ) :
    Aligned { d with queue := d.queue ++ [q], produced := n } := by
  refine ⟨?_, h.delivered, h.intact, h.last⟩
  intro q' hq'
  rcases List.mem_append.mp hq' with hold | hnew
  · exact h.queued q' hold
  · obtain rfl := List.mem_singleton.mp hnew
    exact hq

/-- Taking an item off the queue. -/
theorem dequeue (h : Aligned d) {q : QueuedItem} {queue : List QueuedItem}
    (hqueue : d.queue = q :: queue) : Aligned { d with queue } := by
  refine ⟨?_, h.delivered, h.intact, h.last⟩
  intro q' hq'
  exact h.queued q' (by rw [hqueue]; exact List.mem_cons_of_mem _ hq')

/-- Sending an item to one descriptor. -/
theorem sendTo (h : Aligned d) (hd : Consistent d) {q : QueuedItem} (hq : Composed q.item)
    (fd : ℕ) (results : List (Option ℕ)) : Aligned (d.sendTo q fd results) := by
  -- what a delivery adds, whether complete or not
  have hdelivered : ∀ {c bytes}, bytes <+: q.item.message → d.fds fd = some (.connected c) →
      (∀ w ∈ (d.withDelivery c q bytes).deliveries, Composed w.queued.item ∧
        w.conn < d.conns.length ∧ w.bytes <+: w.queued.item.message) ∧
      (d.withDelivery c q bytes).deliveries.Pairwise fun w w' =>
        w.bytes ≠ w.queued.item.message → w'.conn ≠ w.conn := by
    intro c bytes hbytes hfd
    refine ⟨?_, ?_⟩
    · intro w hw
      rcases List.mem_append.mp hw with hold | hnew
      · exact h.delivered w hold
      · obtain rfl := List.mem_singleton.mp hnew
        exact ⟨hq, hd.conn_lt hfd, hbytes⟩
    · refine List.pairwise_append.mpr ⟨h.last, List.pairwise_singleton _ _, ?_⟩
      intro w hw w' hw' hcut hconn
      obtain rfl := List.mem_singleton.mp hw'
      exact hcut (h.intact hfd w hw hconn.symm)
  rcases hd.sendTo_cases hq fd results with
    ⟨-, heq⟩ | ⟨c, hfd, heq⟩ | ⟨c, host, n, hfd, -, -, heq⟩
  · rw [heq]
    exact h
  · rw [heq]
    obtain ⟨hall, hlast⟩ := hdelivered (List.prefix_refl _) hfd
    refine ⟨h.queued, hall, ?_, hlast⟩
    intro fd' c' hfd' w hw hconn
    rcases List.mem_append.mp hw with hold | hnew
    · exact h.intact hfd' w hold hconn
    · obtain rfl := List.mem_singleton.mp hnew
      rfl
  · rw [heq]
    obtain ⟨hall, hlast⟩ := hdelivered (List.take_prefix n _) hfd
    refine ⟨h.queued, hall, ?_, hlast⟩
    intro fd' c' hfd' w hw hconn
    obtain ⟨hne, hfd'⟩ := without_inv hfd'
    rcases List.mem_append.mp hw with hold | hnew
    · exact h.intact hfd' w hold hconn
    · -- the connection of the closed descriptor has no other
      obtain rfl := List.mem_singleton.mp hnew
      rw [← hconn] at hfd'
      exact absurd (hd.once hfd' hfd) hne

end Aligned

/-- **One step of the daemon** keeps the descriptors consistent and the connections
aligned. -/
theorem Step.aligned {d d' : Streamer} {e : Event} (hstep : Step K d e d') (hd : Consistent d)
    (ha : Aligned d) : Consistent d' ∧ Aligned d' := by
  cases hstep with
  | @callback collector payload calls item hcompose _ hcalls =>
    refine ⟨hd.timerCallback K hcalls, ?_⟩
    have hsetup : Aligned (setupStreams K calls d).1 :=
      setupStreams_preserves K (fun _ _ _ h _ => h.setupStream _ _) calls d ha hcalls
    exact hsetup.enqueue (composed_of_compose hcompose _) _
  | @iteration q queue results hqueue =>
    have hq : Composed q.item := ha.queued q (by rw [hqueue]; exact List.mem_cons_self ..)
    refine sendItem_preserves (I := fun d => Consistent d ∧ Aligned d) ?_ _ _ ?_
    · exact fun d fd _ results h => ⟨h.1.sendTo hq fd results, h.2.sendTo h.1 hq fd results⟩
    · exact ⟨hd.congr rfl rfl rfl, ha.dequeue hqueue⟩

theorem aligned_of_reachable (h : (system K).Reachable d) : Consistent d ∧ Aligned d := by
  refine h.invariant (I := fun d => Consistent d ∧ Aligned d) ?_ ?_
  · exact fun d hd => ⟨.started hd, .started hd⟩
  · exact fun d e d' _ hd hstep => Step.aligned hstep hd.1 hd.2

/-! ## The bytes of a connection -/

/-- The messages that were sent on a connection, in order, the last perhaps in part. -/
def messages (d : Streamer) (conn : ℕ) : List (List UInt8) :=
  (d.deliveries.filter (·.conn = conn)).map (·.queued.item.message)

/-- What was written to a connection, in order. -/
def written (d : Streamer) (conn : ℕ) : List UInt8 :=
  (d.deliveries.filter (·.conn = conn)).flatMap (·.bytes)

/-- Deliveries to one connection of which only the last can be incomplete: complete
items, then a proper prefix of one. -/
theorem flatMap_bytes {c : ℕ} {ws : List Delivery} (hconn : ∀ w ∈ ws, w.conn = c)
    (hcomposed : ∀ w ∈ ws, Composed w.queued.item ∧ w.bytes <+: w.queued.item.message)
    (hlast : ws.Pairwise fun w w' => w.bytes ≠ w.queued.item.message → w'.conn ≠ w.conn) :
    ∃ payloads payload tail, ws.flatMap (·.bytes) = clientStream payloads ++ tail ∧
      tail <+: StreamItem.bytes payload ∧ tail ≠ StreamItem.bytes payload ∧
      (ws.map (·.queued.item.message) = payloads.map StreamItem.bytes ∧ tail = [] ∨
        ws.map (·.queued.item.message) =
          payloads.map StreamItem.bytes ++ [StreamItem.bytes payload]) := by
  induction ws with
  | nil =>
    exact ⟨[], [], [], rfl, List.nil_prefix, by decide, .inl ⟨rfl, rfl⟩⟩
  | cons w ws ih =>
    obtain ⟨⟨⟨⟨payload, hpayload⟩, -⟩, hprefix⟩, hcomposed⟩ := List.forall_mem_cons.mp hcomposed
    obtain ⟨hw, hconn⟩ := List.forall_mem_cons.mp hconn
    obtain ⟨hfirst, hlast⟩ := List.pairwise_cons.mp hlast
    rw [hpayload] at hprefix hfirst
    by_cases hwhole : w.bytes = StreamItem.bytes payload
    · obtain ⟨payloads, payload', tail, heq, hpre, hne, hmessages⟩ := ih hconn hcomposed hlast
      refine ⟨payload :: payloads, payload', tail, ?_, hpre, hne, ?_⟩
      · rw [List.flatMap_cons, heq, hwhole, clientStream, clientStream, List.flatMap_cons,
          List.append_assoc]
      · rw [List.map_cons, List.map_cons, hpayload]
        refine hmessages.imp ?_ ?_
        · exact fun h => ⟨by rw [h.1], h.2⟩
        · exact fun h => by rw [h, List.cons_append]
    · -- nothing follows on this connection
      have hnil : ws = [] := by
        rw [List.eq_nil_iff_forall_not_mem]
        intro w' hw'
        exact hfirst w' hw' hwhole ((hconn w' hw').trans hw.symm)
      refine ⟨[], payload, w.bytes, ?_, hprefix, hwhole, .inr ?_⟩
      · rw [hnil, List.flatMap_cons, List.flatMap_nil, List.append_nil]
        rfl
      · rw [hnil, List.map_singleton, hpayload]
        rfl

/-- **Streams stay frame-aligned**: in every reachable state, what was written to a
connection is a sequence of complete items and a proper prefix of one, namely of those that
were sent on it, and after a send that fell short nothing more was written to its connection. -/
theorem written_aligned (h : (system K).Reachable d) :
    (∀ conn, ∃ payloads payload tail, d.written conn = clientStream payloads ++ tail ∧
      tail <+: StreamItem.bytes payload ∧ tail ≠ StreamItem.bytes payload ∧
      (d.messages conn = payloads.map StreamItem.bytes ∧ tail = [] ∨
        d.messages conn = payloads.map StreamItem.bytes ++ [StreamItem.bytes payload])) ∧
    d.deliveries.Pairwise fun earlier later =>
      earlier.bytes ≠ earlier.queued.item.message → later.conn ≠ earlier.conn := by
  obtain ⟨-, ha⟩ := aligned_of_reachable h
  refine ⟨fun conn => ?_, ha.last⟩
  apply flatMap_bytes (c := conn)
  · intro w hw
    exact of_decide_eq_true (List.mem_filter.mp hw).2
  · intro w hw
    obtain ⟨hcomposed, -, hprefix⟩ := ha.delivered w (List.mem_filter.mp hw).1
    exact ⟨hcomposed, hprefix⟩
  · exact ha.last.filter _

/-- A message to one server, of which the connection takes two bytes before it breaks. -/
theorem written_aligned_two_bytes :
    ∃ d, (system (posix ["10.0.0.1"] fun _ => [("tile", 80)])).Reachable d ∧
      d.written 0 = [0, 0] ∧
      d.deliveries.Pairwise fun earlier later =>
        earlier.bytes ≠ earlier.queued.item.message → later.conn ≠ earlier.conn := by
  have hstart : (system (posix ["10.0.0.1"] fun _ => [("tile", 80)])).Reachable initial :=
    .start started_initial
  have hcallback := hstart.next (callback_step _ 0 [7]
    [(("tile", 80), ⟨"10.0.0.1", "", 3, true⟩)] (by decide) rfl ⟨⟨rfl, by decide⟩, trivial⟩)
  have hiteration := hcallback.next (iteration_step _ [[some 1, none]] rfl)
  exact ⟨_, hiteration, by decide, (written_aligned hiteration).2⟩

end Streamer

end WallMon
