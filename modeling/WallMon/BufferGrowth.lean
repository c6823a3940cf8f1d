import WallMon.Server

/-!
# How far a receive buffer grows

`_ReadCallback` resizes a connection's buffer when the header of a message is there and the
message does not fit. The buffer is doubled, or set to the message's length where that is
more, which leaves no room for the header yet: then the header is read again on the next read
event, and the buffer is doubled. So the capacity stays proportional to the longest message,
and a message resizes it at most twice (`capacity_le_and_count_le_two`).
-/

namespace WallMon

theorem DataSink.length_le_grown (capacity n : ℕ) : n ≤ grown capacity n := by
  unfold grown
  split <;> omega

/-! ## A connection -/

/-- A connection of the server. -/
structure Receiver where
  /-- its buffer -/
  buf : ByteBuffer
  /-- history: how many bytes have been received -/
  received : ℕ
  /-- history: how many messages have been routed -/
  routed : ℕ
  /-- history: the calls of `Resize`, each with the number of messages routed before it -/
  resizes : List ℕ

/-- A read event: how many bytes `recv` returns, and the router's queue and the calls of
`Route` so far, which other connections share. -/
structure ReadEvent (ι : Type) where
  /-- the number of bytes -/
  numBytes : ℕ
  /-- the items in the router's queue -/
  queue : List RouterItem
  /-- history: the calls of `DataRouter::Route` -/
  calls : List (RouteCall ι)

namespace Receiver

variable {ι : Type} (w : ι) (ps : List (List UInt8))

/-- The bytes that `recv` returns: the next ones of the stream. -/
def chunk (r : Receiver) (n : ℕ) : List UInt8 := ((clientStream ps).drop r.received).take n

/-- `recv` returns at least one byte, at most what it is offered, and nothing that was not
sent. -/
structure Admissible (r : Receiver) (n : ℕ) : Prop where
  /-- at least one byte -/
  pos : 1 ≤ n
  /-- at most the offered length -/
  le_offered : ∃ len, DataSink.offered r.buf = .ok len ∧ (n : ℤ) ≤ len
  /-- bytes that have been sent -/
  sent : r.received + n ≤ (clientStream ps).length

/-- What `_ReadCallback` works on. -/
def sink (r : Receiver) (e : ReadEvent ι) : SinkState ι := ⟨r.buf, e.queue, e.calls, []⟩

/-- The connection after a read event whose callback left `s`. -/
def afterRead (r : Receiver) (e : ReadEvent ι) (s : SinkState ι) : Receiver where
  buf := s.buf
  received := r.received + e.numBytes
  routed := r.routed + (s.calls.length - e.calls.length)
  resizes := r.resizes ++ s.resizes.map fun calls => r.routed + (calls - e.calls.length)

/-- A connection to which the payloads `ps` are sent, read in any portions. -/
def system : TransitionSystem Receiver (ReadEvent ι) where
  init r := ByteBuffer.new DataSink.receiveBufStartSize = .ok r.buf ∧ r.received = 0 ∧
    r.routed = 0 ∧ r.resizes = []
  step r e r' := r.Admissible ps e.numBytes ∧ ∃ c s,
    DataSink.readCallback w false (.bytes (r.chunk ps e.numBytes)) (r.sink e) = .ok c s ∧
      r' = r.afterRead e s

/-- The bound on the capacity, for payloads of at most `L` bytes. -/
def maxCapacity (L : ℕ) : ℕ := max 102400 (2 * (L + 3))

/-- What holds of a connection: the message at the front of the buffer is the next to be
routed, and the more often it has resized the buffer, the better it fits. -/
structure Inv (L : ℕ) (r : Receiver) (f : ByteFifo) : Prop where
  /-- the connection is in order -/
  connection : Server.ConnectionInv ps r.received r.buf f
  /-- the completed messages were routed -/
  routed_eq : r.routed = (wire.completed ps r.received).length
  /-- the capacity is bounded -/
  capacity_le : f.capacity ≤ maxCapacity L
  /-- messages resize the buffer when they are at the front -/
  later : ∀ k, r.routed < k → r.resizes.count k = 0
  /-- at most twice -/
  earlier : ∀ k, r.resizes.count k ≤ 2
  /-- once, and the payload fits -/
  once : 1 ≤ r.resizes.count r.routed → 4 < f.pending.length ∧ ntohl f.pending ≤ f.capacity
  /-- twice, and the message fits -/
  twice : 2 ≤ r.resizes.count r.routed → ntohl f.pending + 4 ≤ f.capacity

variable {ps} {w}

/-- Payloads of 1 to `L` bytes. -/
def PayloadsUpTo (L : ℕ) (ps : List (List UInt8)) : Prop := ∀ p ∈ ps, 1 ≤ p.length ∧ p.length ≤ L

theorem PayloadsUpTo.payloads {L : ℕ} (hL : L ≤ 2 ^ 29) (h : PayloadsUpTo L ps) :
    Server.Payloads ps := fun p hp => ⟨(h p hp).1, (h p hp).2.trans hL⟩

/-- **A read event**: what it does to the connection, as far as the capacity goes. -/
theorem readEvent_eq {r : Receiver} {f : ByteFifo} (hps : Server.Payloads ps)
    (hconn : Server.ConnectionInv ps r.received r.buf f) {e : ReadEvent ι}
    (hadm : r.Admissible ps e.numBytes) :
    ∃ s f' new, DataSink.readCallback w false (.bytes (r.chunk ps e.numBytes)) (r.sink e) =
        .ok .kept s ∧
      Server.ConnectionInv ps (r.received + e.numBytes) s.buf f' ∧
      wire.completed ps (r.received + e.numBytes) = wire.completed ps r.received ++ new ∧
      (new = [] → f.pending <+: f'.pending) ∧
      f'.capacity = DataSink.capacityAfter f.capacity f'.pending ∧
      (r.afterRead e s).routed = r.routed + new.length ∧
      (r.afterRead e s).resizes = r.resizes ++
        if DataSink.Outgrown f.capacity f'.pending then [r.routed + new.length] else [] := by
  obtain ⟨len, hoffered, -, hroom⟩ := hconn.offered
  obtain ⟨hpos, ⟨len', hoffered', hle⟩, hsent⟩ := hadm
  obtain rfl : len = len' := Except.ok.inj (hoffered.symm.trans hoffered')
  have hroom := hroom e.numBytes hle
  rw [hps.clientStream_eq] at hsent
  obtain ⟨s, f', cs, hrun, hconn', hcalls, -, hcompleted, hcap, hresizes⟩ :=
    hconn.read_grown w e.queue e.calls hps hpos hroom hsent
  have hchunk : r.chunk ps e.numBytes =
      ((wire.stream ps).drop r.received).take e.numBytes := by
    rw [chunk, hps.clientStream_eq]
  have hrest := hconn.rest_append_chunk e.numBytes
  have hnew := hconn.completed_append_chunk hps e.numBytes
  rw [← hchunk] at hrun hrest hnew
  have hframes := List.append_cancel_left (hcompleted.symm.trans hnew)
  have hcount : s.calls.length - e.calls.length = cs.length := by
    rw [hcalls, List.length_append, Nat.add_sub_cancel_left]
  refine ⟨s, f', cs.map RouteCall.payload, hrun, hconn', hcompleted, ?_, hcap, ?_, ?_⟩
  · intro hnone
    have hnot : ¬wire.Ready (f.pending ++ r.chunk ps e.numBytes) := by
      intro hready
      rw [hnone, wire.frames_of_ready hready] at hframes
      cases hframes
    rw [hconn'.pending_eq, ← hrest, wire.rest_of_not_ready hnot]
    exact List.prefix_append _ _
  · rw [List.length_map, ← hcount]
    rfl
  · rw [afterRead, hresizes, List.length_map]
    split
    · rw [List.map_singleton, hcount]
    · rfl

/-- The header at the front stays what it is. -/
theorem ntohl_of_isPrefix {bs cs : List UInt8} (h : bs <+: cs) (hlong : 4 < bs.length) :
    4 < cs.length ∧ ntohl cs = ntohl bs := by
  obtain ⟨rest, rfl⟩ := h
  refine ⟨by rw [List.length_append]; omega, ?_⟩
  rw [← ntohl_take, List.take_append_of_le_length hlong.le, ntohl_take]

/-- The capacity after growing for a message of at most `L` bytes. -/
theorem capacityAfter_le_maxCapacity {L capacity : ℕ} {rest : List UInt8}
    (hle : capacity ≤ maxCapacity L) (hrest : 4 < rest.length → ntohl rest ≤ L) :
    DataSink.capacityAfter capacity rest ≤ maxCapacity L := by
  rw [DataSink.capacityAfter]
  split
  · next hgrow =>
    have hlength := hrest hgrow.1
    have hbound : 2 * (L + 3) ≤ maxCapacity L := le_max_right _ _
    have hsmall := hgrow.2
    unfold DataSink.grown
    split <;> omega
  · exact hle

/-- The message that begins what waits is one of the payloads. -/
theorem ntohl_pending_le {L : ℕ} (hL : L ≤ 2 ^ 29) (hps : PayloadsUpTo L ps) {n : ℕ}
    {buf : ByteBuffer} {f : ByteFifo} (hconn : Server.ConnectionInv ps n buf f)
    (hlong : 4 < f.pending.length) : ntohl f.pending ≤ L := by
  rw [hconn.pending_eq] at hlong ⊢
  obtain ⟨p, hp, heq⟩ := wire.announced_rest_take_stream (hps.payloads hL).sendable _ hlong
  rw [← announced_wire, heq]
  exact (hps p hp).2

/-- What the message that comes to the front of the buffer in an event, or stays there, has done
to the buffer before. -/
theorem Inv.front {L : ℕ} {r : Receiver} {f : ByteFifo} (hinv : Inv ps L r f) {α : Type}
    {new : List α} {pending : List UInt8} (hfront : new = [] → f.pending <+: pending) :
    (1 ≤ r.resizes.count (r.routed + new.length) →
        4 < pending.length ∧ ntohl pending ≤ f.capacity) ∧
      (2 ≤ r.resizes.count (r.routed + new.length) → ntohl pending + 4 ≤ f.capacity) := by
  by_cases hnone : new = []
  · rw [hnone, List.length_nil, Nat.add_zero]
    refine ⟨fun hone => ?_, fun htwo => ?_⟩
    · obtain ⟨hlong, hle⟩ := hinv.once hone
      obtain ⟨hlong', heq⟩ := ntohl_of_isPrefix (hfront hnone) hlong
      exact ⟨hlong', heq.trans_le hle⟩
    · obtain ⟨hlong, -⟩ := hinv.once (by omega)
      rw [(ntohl_of_isPrefix (hfront hnone) hlong).2]
      exact hinv.twice htwo
  · have hpos := List.length_pos_iff.mpr hnone
    rw [hinv.later _ (by omega)]
    exact ⟨fun hone => absurd hone (by decide), fun htwo => absurd htwo (by decide)⟩

theorem Inv.read {L : ℕ} (hL : L ≤ 2 ^ 29) (hps : PayloadsUpTo L ps) {r : Receiver}
    {f : ByteFifo} (hinv : Inv ps L r f) {e : ReadEvent ι} (hadm : r.Admissible ps e.numBytes) :
    ∃ s f', DataSink.readCallback w false (.bytes (r.chunk ps e.numBytes)) (r.sink e) =
        .ok .kept s ∧ Inv ps L (r.afterRead e s) f' ∧ f.capacity ≤ f'.capacity := by
  obtain ⟨s, f', new, hrun, hconn, hcompleted, hfront, hcap, hrouted, hresizes⟩ :=
    readEvent_eq (w := w) (hps.payloads hL) hinv.connection hadm
  have hlength : 4 < f'.pending.length → ntohl f'.pending ≤ L := ntohl_pending_le hL hps hconn
  have hbefore := hinv.front hfront
  have hge := hinv.connection.capacity_ge
  have hcount : ∀ k, (r.afterRead e s).resizes.count k = r.resizes.count k +
      if DataSink.Outgrown f.capacity f'.pending ∧ k = r.routed + new.length then 1 else 0 := by
    intro k
    rw [hresizes, List.count_append]
    by_cases hout : DataSink.Outgrown f.capacity f'.pending
    · rw [if_pos hout, List.count_singleton]
      simp only [hout, true_and, beq_iff_eq, @eq_comm _ k]
    · simp [hout]
  refine ⟨s, f', hrun, ⟨hconn, ?_, ?_, ?_, ?_, ?_, ?_⟩, ?_⟩
  · rw [hrouted, hinv.routed_eq, ← List.length_append, ← hcompleted]
    rfl
  · rw [hcap]
    exact capacityAfter_le_maxCapacity hinv.capacity_le hlength
  · intro k hk
    rw [hrouted] at hk
    rw [hcount, hinv.later k (by omega), if_neg fun hand => absurd hand.2 (by omega)]
  · intro k
    rw [hcount]
    split
    · next hnow =>
      -- a message that has resized the buffer twice fits
      have hlt : ¬2 ≤ r.resizes.count (r.routed + new.length) := fun htwo =>
        absurd (hbefore.2 htwo) (Nat.not_le.mpr hnow.1.2)
      rw [hnow.2]
      omega
    · exact hinv.earlier k
  · intro hone
    rw [hrouted, hcount] at hone
    rw [hcap, DataSink.capacityAfter]
    split
    · next hout => exact ⟨hout.1, DataSink.length_le_grown _ _⟩
    · next hstay =>
      rw [if_neg fun hand => hstay hand.1] at hone
      exact hbefore.1 hone
  · intro htwo
    rw [hrouted, hcount] at htwo
    rw [hcap, DataSink.capacityAfter]
    split
    · next hout =>
      rw [if_pos ⟨hout, rfl⟩] at htwo
      have hle := (hbefore.1 (by omega)).2
      have hdouble := DataSink.le_grown f.capacity (ntohl f'.pending)
      omega
    · next hstay =>
      rw [if_neg fun hand => hstay hand.1] at htwo
      exact hbefore.2 htwo
  · rw [hcap]
    exact DataSink.le_capacityAfter _ _

/-- A connection that was accepted. -/
theorem Inv.start (L : ℕ) {r : Receiver}
    (hnew : ByteBuffer.new DataSink.receiveBufStartSize = .ok r.buf) (hreceived : r.received = 0)
    (hrouted : r.routed = 0) (hresizes : r.resizes = []) : ∃ f, Inv ps L r f := by
  refine ⟨_, ⟨by rw [hreceived]; exact .start hnew, ?_, le_max_left _ _, ?_, ?_, ?_, ?_⟩⟩
  · rw [hrouted, hreceived, wire.completed_zero]
    rfl
  all_goals
    intros
    simp_all

theorem Inv.reachable {L : ℕ} (hL : L ≤ 2 ^ 29) (hps : PayloadsUpTo L ps) {r : Receiver}
    (h : (system w ps).Reachable r) : ∃ f, Inv ps L r f := by
  refine h.invariant (I := fun r => ∃ f, Inv ps L r f) ?_ ?_
  · rintro r ⟨hnew, hreceived, hrouted, hresizes⟩
    exact Inv.start L hnew hreceived hrouted hresizes
  · rintro r e r' - ⟨f, hinv⟩ ⟨hadm, c, s, hrun, rfl⟩
    obtain ⟨s', f', hrun', hinv', -⟩ := hinv.read (w := w) hL hps hadm
    rw [hrun] at hrun'
    obtain ⟨rfl, rfl⟩ := EStateM.Result.ok.inj hrun'
    exact ⟨f', hinv'⟩

/-- A read event is a step. -/
theorem step_of_readCallback {r : Receiver} {e : ReadEvent ι} (hadm : r.Admissible ps e.numBytes)
    {c : Connection} {s : SinkState ι}
    (hrun : DataSink.readCallback w false (.bytes (r.chunk ps e.numBytes)) (r.sink e) = .ok c s) :
    (system w ps).step r e (r.afterRead e s) :=
  ⟨hadm, c, s, hrun, rfl⟩

/-- Every connection of a server is one of these. -/
theorem reachable_of_server {ι : Type} [DecidableEq ι] {ps : ι → List (List UInt8)}
    {srv : Server ι} (h : (Server.system ps).Reachable srv) (i : ι) :
    (srv.buffers i = none → srv.received i = 0) ∧ ∀ buf, srv.buffers i = some buf →
      ∃ routed resizes,
        (system i (ps i)).Reachable ⟨buf, srv.received i, routed, resizes⟩ := by
  induction h with
  | start hinit =>
    obtain rfl := hinit
    exact ⟨fun _ => rfl, fun _ hbuf => nomatch hbuf⟩
  | @next t _ _ hr hstep ih =>
    cases hstep with
    | @accept j buf₀ hnone hnew =>
      by_cases hij : i = j
      · subst hij
        refine ⟨fun hbuf => ?_, fun buf hbuf => ⟨0, [], .start ⟨?_, ih.1 hnone, rfl, rfl⟩⟩⟩
        · rw [Server.accepted_buffers_self] at hbuf
          cases hbuf
        · rw [Server.accepted_buffers_self] at hbuf
          exact hnew.trans (congrArg _ (Option.some.inj hbuf))
      · rw [Server.accepted_buffers_ne hij]
        exact ih
    | @read j buf₀ n c s hbuf₀ hadm hrun =>
      by_cases hij : i = j
      · subst hij
        obtain ⟨routed, resizes, hreach⟩ := ih.2 buf₀ hbuf₀
        rw [Server.readEvent, Server.chunk] at hrun
        have hread := step_of_readCallback (e := ⟨n, t.queue, t.calls⟩)
          (r := ⟨buf₀, t.received i, routed, resizes⟩) ⟨hadm.pos, hadm.le_offered, hadm.sent⟩ hrun
        refine ⟨fun hbuf => ?_, fun buf hbuf => ?_⟩
        · rw [Server.afterRead_buffers_self] at hbuf
          cases hbuf
        · rw [Server.afterRead_buffers_self] at hbuf
          obtain rfl := Option.some.inj hbuf
          rw [Server.afterRead_received_self]
          exact ⟨_, _, hreach.next hread⟩
      · rw [Server.afterRead_buffers_ne hij, Server.afterRead_received_ne hij]
        exact ih

/-- **Growth of a receive buffer**: in every reachable state of a connection with payloads of
1 to `L` bytes the capacity is bounded, and no message has resized the buffer more than twice
before it was routed; read events do not shrink the buffer, and all of them go through. -/
theorem capacity_le_and_count_le_two {L : ℕ} (hL : L ≤ 2 ^ 29) (hps : PayloadsUpTo L ps)
    {r : Receiver} (h : (system w ps).Reachable r) :
    r.buf.getCapacity ≤ max 102400 (2 * (L + 3)) ∧ (∀ k, r.resizes.count k ≤ 2) ∧
      (∀ e r', (system w ps).step r e r' → r.buf.getCapacity ≤ r'.buf.getCapacity) ∧
      ∀ e : ReadEvent ι, r.Admissible ps e.numBytes → ∃ r', (system w ps).step r e r' := by
  obtain ⟨f, hinv⟩ := Inv.reachable hL hps h
  have hcap := hinv.connection.represents.capacity_eq
  refine ⟨?_, hinv.earlier, ?_, fun e hadm => ?_⟩
  · rw [ByteBuffer.getCapacity, hcap]
    exact_mod_cast hinv.capacity_le
  · rintro e r' ⟨hadm, c, s, hrun, rfl⟩
    obtain ⟨s', f', hrun', hinv', hle⟩ := hinv.read (w := w) hL hps hadm
    rw [hrun] at hrun'
    obtain ⟨rfl, rfl⟩ := EStateM.Result.ok.inj hrun'
    have hcap' := hinv'.connection.represents.capacity_eq
    rw [ByteBuffer.getCapacity, ByteBuffer.getCapacity, hcap, hcap']
    exact_mod_cast hle
  · obtain ⟨s, f', hrun, -⟩ := hinv.read (w := w) hL hps hadm
    exact ⟨_, step_of_readCallback hadm hrun⟩

/-- A read event that leaves behind the beginning of the first message, which does not fit:
nothing is routed, and the buffer is resized. -/
theorem exists_step_outgrown (hps : Server.Payloads ps) {r : Receiver} {f : ByteFifo}
    (hconn : Server.ConnectionInv ps r.received r.buf f) {e : ReadEvent ι}
    (hadm : r.Admissible ps e.numBytes) {bs : List UInt8}
    (htake : (wire.stream ps).take (r.received + e.numBytes) = bs) (hpart : ¬wire.Ready bs)
    (hout : DataSink.Outgrown f.capacity bs) :
    ∃ r' f', (system w ps).step r e r' ∧ Server.ConnectionInv ps r'.received r'.buf f' ∧
      r'.received = r.received + e.numBytes ∧ f'.pending = bs ∧
      f'.capacity = DataSink.grown f.capacity (ntohl bs) ∧ r'.routed = r.routed ∧
      r'.resizes = r.resizes ++ [r.routed] := by
  obtain ⟨s, f', new, hrun, hconn', hcompleted, -, hcap, hrouted, hresizes⟩ :=
    readEvent_eq (w := w) hps hconn hadm
  have hpending : f'.pending = bs := by
    rw [hconn'.pending_eq, htake, wire.rest_of_not_ready hpart]
  have hnone : new = [] := by
    rw [← wire.frames_take_stream hps.sendable, htake, wire.frames_of_not_ready hpart] at hcompleted
    exact (List.append_eq_nil_iff.mp hcompleted.symm).2
  rw [hnone, List.length_nil, Nat.add_zero] at hrouted hresizes
  rw [hpending, if_pos hout] at hresizes
  rw [hpending, DataSink.capacityAfter, if_pos hout] at hcap
  exact ⟨_, f', step_of_readCallback hadm hrun, hconn', rfl, hpending, hcap, hrouted, hresizes⟩

/-- The header of a payload of `n` bytes and the first of its bytes. -/
theorem take_stream_replicate {k n : ℕ} (b : UInt8) (hk : k ≤ n) :
    (wire.stream [List.replicate n b]).take (4 + k) = htonl n ++ List.replicate k b := by
  rw [Framing.stream, List.flatMap_singleton, Framing.encode, List.length_replicate]
  change (htonl n ++ List.replicate n b).take (4 + k) = _
  rw [← length_htonl n, List.take_length_add_append, List.take_replicate, Nat.min_eq_left hk]

/-- Space for the next bytes of a connection that have been sent. -/
theorem admissible_of_le {r : Receiver} {f : ByteFifo}
    (hconn : Server.ConnectionInv ps r.received r.buf f) {n : ℕ} (hpos : 1 ≤ n)
    (hroom : f.pending.length + n ≤ f.capacity)
    (hsent : r.received + n ≤ (clientStream ps).length) : r.Admissible ps n :=
  ⟨hpos, ⟨_, DataSink.offered_eq hconn.represents, by omega⟩, hsent⟩

/-- A payload of 204801 bytes, more than twice what the first buffer holds. Its header and a
byte are read, which sets the capacity to the payload's length, and one byte more, which doubles
it: then the rest of the message can be read. -/
theorem capacity_le_long_payload : ∃ r, (system () [List.replicate 204801 7]).Reachable r ∧
    r.resizes = [0, 0] ∧ r.buf.getCapacity = 409602 ∧
      r.buf.getCapacity ≤ max 102400 (2 * (204801 + 3)) ∧ (∀ k, r.resizes.count k ≤ 2) ∧
        ∃ r', (system () [List.replicate 204801 7]).step r ⟨204799, [], []⟩ r' := by
  have hup : PayloadsUpTo 204801 [List.replicate 204801 7] := by
    intro p hp
    rw [List.mem_singleton.mp hp, List.length_replicate]
    decide
  have hps := hup.payloads (by decide)
  have hlength : (clientStream [List.replicate 204801 7]).length = 204805 := by
    rw [hps.clientStream_eq, Framing.stream, List.flatMap_singleton, Framing.encode,
      List.length_append, List.length_replicate]
    exact congrArg (· + 204801) (length_htonl _)
  have hheader : htonl 204801 = [0, 3, 32, 1] := by decide
  obtain ⟨buf, hnew, -, -⟩ := ByteBuffer.new_represents (n := 102400) (by omega) (by omega)
  have hstart : (system () [List.replicate 204801 7]).Reachable ⟨buf, 0, 0, []⟩ :=
    .start ⟨hnew, rfl, rfl, rfl⟩
  have hconn : Server.ConnectionInv [List.replicate 204801 7] 0 buf (.empty 102400) :=
    .start hnew
  have htake : ∀ k ≤ 204801, (wire.stream [List.replicate 204801 7]).take (4 + k) =
      [0, 3, 32, 1] ++ List.replicate k 7 := fun k hk => by
    rw [take_stream_replicate 7 hk, hheader]
  obtain ⟨r₁, f₁, hstep₁, hconn₁, hreceived₁, hpending₁, hcap₁, hrouted₁, hresizes₁⟩ :=
    exists_step_outgrown (w := ()) hps (r := ⟨buf, 0, 0, []⟩) (e := ⟨5, [], []⟩) hconn
      (admissible_of_le hconn (by decide) (by decide)
        (by rw [hlength]; change 0 + 5 ≤ 204805; decide))
      (htake 1 (by decide)) (by decide) (by decide)
  have hempty : (ByteFifo.empty 102400).capacity = 102400 := rfl
  have hfirst : DataSink.grown 102400 204801 = 204801 := by decide
  have hsecond : DataSink.grown 204801 204801 = 409602 := by decide
  have hannounced : ∀ k, ntohl ([0, 3, 32, 1] ++ List.replicate k 7) = 204801 := fun k => by
    rw [← ntohl_take]
    change ntohl [0, 3, 32, 1] = _
    decide
  rw [hempty, hannounced, hfirst] at hcap₁
  replace hreceived₁ : r₁.received = 5 := hreceived₁
  have htake₂ : (wire.stream [List.replicate 204801 7]).take (r₁.received + 1) =
      [0, 3, 32, 1] ++ List.replicate 2 7 := by
    rw [hreceived₁]
    exact htake 2 (by decide)
  obtain ⟨r₂, f₂, hstep₂, hconn₂, hreceived₂, hpending₂, hcap₂, hrouted₂, hresizes₂⟩ :=
    exists_step_outgrown (w := ()) hps (e := ⟨1, [], []⟩) hconn₁
      (admissible_of_le hconn₁ (by decide) (by rw [hpending₁, hcap₁]; decide)
        (by rw [hlength, hreceived₁]; change 5 + 1 ≤ 204805; decide))
      htake₂ (by decide) (by rw [hcap₁]; decide)
  replace hreceived₂ : r₂.received = 6 := hreceived₂.trans (congrArg (· + 1) hreceived₁)
  rw [hcap₁, hannounced, hsecond] at hcap₂
  have hreach := (hstart.next hstep₁).next hstep₂
  obtain ⟨hle, hcount, -, hread⟩ := capacity_le_and_count_le_two (by decide) hup hreach
  refine ⟨r₂, hreach, ?_, ?_, hle, hcount, hread ⟨204799, [], []⟩ ?_⟩
  · rw [hresizes₂, hresizes₁, hrouted₁]
    rfl
  · rw [ByteBuffer.getCapacity, hconn₂.represents.capacity_eq, hcap₂]
    rfl
  · refine admissible_of_le hconn₂ (by decide) ?_ ?_
    · rw [hpending₂, hcap₂]
      decide
    · rw [hlength, hreceived₂]
      decide

end Receiver

end WallMon
