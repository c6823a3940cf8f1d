import Mathlib.Algebra.Group.Nat.Defs
import WallMon.DataSink
import WallMon.Transition

/-!
# The server's receive side

All client connections together. A connection is accepted with a fresh buffer;
after that, whenever bytes of it have arrived, one read event takes some of them.
The operating system chooses which connection is read next and how many of the
offered bytes a `recv` returns. `received` is a history variable: how many bytes
of a connection's stream have been received.

The main result is `routed_eq_completed`: at any moment the messages routed for a
connection are those whose last byte has been received.
-/

namespace WallMon

/-- The receive side of the server. -/
structure Server (ι : Type) where
  /-- `_watcherMap`: the buffers of the accepted connections -/
  buffers : ι → Option ByteBuffer
  /-- the items in the router's queue -/
  queue : List RouterItem
  /-- history: the calls of `DataRouter::Route` -/
  calls : List (RouteCall ι)
  /-- history: how many bytes of each connection have been received -/
  received : ι → ℕ

/-- What happens at the server. -/
inductive ServerEvent (ι : Type) where
  /-- a client connects -/
  | accept (i : ι)
  /-- a socket is readable, and `recv` returns this many bytes -/
  | read (i : ι) (n : ℕ)

namespace Server

variable {ι : Type} [DecidableEq ι]

/-- The server before any connection. -/
def initial : Server ι where
  buffers _ := none
  queue := []
  calls := []
  received _ := 0

/-- The bytes `recv` returns: the next `n` of the connection's stream. -/
def chunk (ps : ι → List (List UInt8)) (srv : Server ι) (i : ι) (n : ℕ) : List UInt8 :=
  ((clientStream (ps i)).drop (srv.received i)).take n

/-- `recv`, offered `len` bytes of space, may return `n` bytes: at least one, at
most `len`, and no more than the client has sent. -/
structure Admissible (ps : ι → List (List UInt8)) (srv : Server ι) (i : ι) (buf : ByteBuffer)
    (n : ℕ) : Prop where
  /-- at least one byte -/
  pos : 1 ≤ n
  /-- at most the offered length -/
  le_offered : ∃ len, DataSink.offered buf = .ok len ∧ (n : ℤ) ≤ len
  /-- bytes that have been sent -/
  sent : srv.received i + n ≤ (clientStream (ps i)).length

/-- A read event of a connection whose buffer is `buf`. -/
def readEvent (ps : ι → List (List UInt8)) (srv : Server ι) (i : ι) (buf : ByteBuffer) (n : ℕ) :
    EStateM.Result Fault (SinkState ι) Connection :=
  DataSink.readCallback i false (.bytes (srv.chunk ps i n))
    { buf, queue := srv.queue, calls := srv.calls, resizes := [] }

/-- The server after accepting a connection. -/
def accepted (srv : Server ι) (i : ι) (buf : ByteBuffer) : Server ι where
  buffers := Function.update srv.buffers i (some buf)
  queue := srv.queue
  calls := srv.calls
  received := srv.received

/-- The server after a read event of `n` bytes whose callback left `s`. -/
def afterRead (srv : Server ι) (i : ι) (n : ℕ) (s : SinkState ι) : Server ι where
  buffers := Function.update srv.buffers i (some s.buf)
  queue := s.queue
  calls := s.calls
  received := Function.update srv.received i (srv.received i + n)

/-- One step of the server. -/
inductive Step (ps : ι → List (List UInt8)) : Server ι → ServerEvent ι → Server ι → Prop where
  /-- `_AcceptCallback`: a connection is accepted once, with a fresh buffer -/
  | accept {srv : Server ι} {i : ι} {buf : ByteBuffer} :
      srv.buffers i = none → ByteBuffer.new DataSink.receiveBufStartSize = .ok buf →
      Step ps srv (.accept i) (srv.accepted i buf)
  /-- `_ReadCallback` on received bytes -/
  | read {srv : Server ι} {i : ι} {buf : ByteBuffer} {n : ℕ} {c : Connection} {s : SinkState ι} :
      srv.buffers i = some buf → Admissible ps srv i buf n →
      readEvent ps srv i buf n = .ok c s →
      Step ps srv (.read i n) (srv.afterRead i n s)

/-- The server, with clients that send the payloads `ps`. -/
def system (ps : ι → List (List UInt8)) : TransitionSystem (Server ι) (ServerEvent ι) where
  init srv := srv = initial
  step := Step ps

@[simp] theorem accepted_buffers_self (srv : Server ι) (i : ι) (buf : ByteBuffer) :
    (srv.accepted i buf).buffers i = some buf := Function.update_self ..

theorem accepted_buffers_ne {i j : ι} (h : j ≠ i) (srv : Server ι) (buf : ByteBuffer) :
    (srv.accepted i buf).buffers j = srv.buffers j := Function.update_of_ne h ..

@[simp] theorem afterRead_buffers_self (srv : Server ι) (i : ι) (n : ℕ) (s : SinkState ι) :
    (srv.afterRead i n s).buffers i = some s.buf := Function.update_self ..

theorem afterRead_buffers_ne {i j : ι} (h : j ≠ i) (srv : Server ι) (n : ℕ)
    (s : SinkState ι) : (srv.afterRead i n s).buffers j = srv.buffers j :=
  Function.update_of_ne h ..

@[simp] theorem afterRead_received_self (srv : Server ι) (i : ι) (n : ℕ) (s : SinkState ι) :
    (srv.afterRead i n s).received i = srv.received i + n := Function.update_self ..

theorem afterRead_received_ne {i j : ι} (h : j ≠ i) (srv : Server ι) (n : ℕ)
    (s : SinkState ι) : (srv.afterRead i n s).received j = srv.received j :=
  Function.update_of_ne h ..

/-- The calls of `Route` made for a connection. -/
def callsFor (srv : Server ι) (i : ι) : List (RouteCall ι) :=
  srv.calls.filter (·.watcher = i)

/-! ## One connection -/

/-- A connection of which `n` bytes have been received: its buffer holds what the
decoder leaves over of them, and has room for more. -/
structure ConnectionInv (ps : List (List UInt8)) (n : ℕ) (buf : ByteBuffer) (f : ByteFifo) :
    Prop where
  /-- the buffer is well formed -/
  represents : buf.Represents f
  /-- it holds the incomplete message -/
  pending_eq : f.pending = wire.rest ((wire.stream ps).take n)
  /-- there is room -/
  room : f.pending.length < f.capacity
  /-- buffers do not shrink -/
  capacity_ge : 102400 ≤ f.capacity
  /-- nor grow beyond what messages of `2^29` bytes require -/
  capacity_le : f.capacity ≤ 1073741830

/-- Payloads of admissible length. -/
def Payloads (ps : List (List UInt8)) : Prop := ∀ p ∈ ps, 1 ≤ p.length ∧ p.length ≤ 2 ^ 29

instance (ps : List (List UInt8)) : Decidable (Payloads ps) :=
  inferInstanceAs (Decidable (∀ p ∈ ps, _))

theorem Payloads.sendable {ps : List (List UInt8)} (h : Payloads ps) :
    ∀ p ∈ ps, wire.Sendable p := by
  intro p hp
  obtain ⟨h₁, h₂⟩ := h p hp
  exact ⟨h₁, by rw [wire_maxLength]; omega⟩

theorem Payloads.clientStream_eq {ps : List (List UInt8)} (h : Payloads ps) :
    clientStream ps = wire.stream ps := by
  apply WallMon.clientStream_eq
  intro p hp
  have := (h p hp).2
  omega

/-- The header left over after receiving `n` bytes is harmless. -/
theorem headerSafe_of_payloads {ps : List (List UInt8)} (h : Payloads ps) (n cap : ℕ) :
    DataSink.HeaderSafe cap (wire.rest ((wire.stream ps).take n)) := by
  intro hlong
  obtain ⟨p, hp, heq⟩ := wire.announced_rest_take_stream h.sendable n hlong
  have hle := (h p hp).2
  rw [announced_wire] at heq
  omega

/-- Growing for a message of at most `2^29` bytes. -/
theorem capacityAfter_le {ps : List (List UInt8)} (h : Payloads ps) (n : ℕ) {cap : ℕ}
    (hcap : cap ≤ 1073741830) :
    DataSink.capacityAfter cap (wire.rest ((wire.stream ps).take n)) ≤ 1073741830 := by
  unfold DataSink.capacityAfter
  split
  · next hgrow =>
    obtain ⟨p, hp, heq⟩ := wire.announced_rest_take_stream h.sendable n hgrow.1
    have hle := (h p hp).2
    have hbig := hgrow.2
    rw [announced_wire] at heq
    unfold DataSink.grown
    split <;> omega
  · exact hcap

/-- A fresh buffer belongs to a connection of which nothing has been received. -/
theorem ConnectionInv.start {ps : List (List UInt8)} {buf : ByteBuffer}
    (hnew : ByteBuffer.new DataSink.receiveBufStartSize = .ok buf) :
    ConnectionInv ps 0 buf (.empty 102400) := by
  obtain ⟨b, hb, hrep, -⟩ := ByteBuffer.new_represents (n := 102400) (by omega) (by omega)
  obtain rfl : b = buf := Except.ok.inj (hb.symm.trans hnew)
  refine ⟨hrep, ?_, by show 0 < 102400; omega, le_refl _, by show 102400 ≤ 1073741830; omega⟩
  rw [List.take_zero, wire.rest_of_not_ready]
  · rfl
  · rintro ⟨hlong, -⟩
    exact absurd hlong (Nat.not_lt_zero _)

/-- The bytes of a connection and the next ones of its stream: what the decoder leaves over. -/
theorem ConnectionInv.rest_append_chunk {ps : List (List UInt8)} {n : ℕ} {buf : ByteBuffer}
    {f : ByteFifo} (hinv : ConnectionInv ps n buf f) (k : ℕ) :
    wire.rest (f.pending ++ ((wire.stream ps).drop n).take k) =
      wire.rest ((wire.stream ps).take (n + k)) := by
  rw [hinv.pending_eq, ← wire.rest_append, ← List.take_add]

/-- And what it finds. -/
theorem ConnectionInv.completed_append_chunk {ps : List (List UInt8)} {n : ℕ} {buf : ByteBuffer}
    {f : ByteFifo} (hinv : ConnectionInv ps n buf f) (hps : Payloads ps) (k : ℕ) :
    wire.completed ps (n + k) =
      wire.completed ps n ++ wire.frames (f.pending ++ ((wire.stream ps).drop n).take k) := by
  rw [hinv.pending_eq, ← wire.frames_take_stream hps.sendable,
    ← wire.frames_take_stream hps.sendable, List.take_add, wire.frames_append]

omit [DecidableEq ι] in
/-- **A read event of a connection**: it returns, keeps the connection in order,
and routes exactly the messages completed by the new bytes. The buffer grows for the
message that is left over, in one call of `Resize`. -/
theorem ConnectionInv.read_grown {ps : List (List UInt8)} {n : ℕ} {buf : ByteBuffer}
    {f : ByteFifo} (w : ι) (queue : List RouterItem) (calls : List (RouteCall ι))
    (hps : Payloads ps) (hinv : ConnectionInv ps n buf f) {k : ℕ} (hk : 1 ≤ k)
    (hroom : f.pending.length + k ≤ f.capacity) (hsent : n + k ≤ (wire.stream ps).length) :
    ∃ s f' cs,
      DataSink.readCallback w false (.bytes (((wire.stream ps).drop n).take k))
        ⟨buf, queue, calls, []⟩ = .ok .kept s ∧
      ConnectionInv ps (n + k) s.buf f' ∧ s.calls = calls ++ cs ∧
      (∀ c ∈ cs, DataSink.GoodCall w c) ∧
      wire.completed ps (n + k) = wire.completed ps n ++ cs.map RouteCall.payload ∧
      f'.capacity = DataSink.capacityAfter f.capacity f'.pending ∧
      s.resizes = if DataSink.Outgrown f.capacity f'.pending then [s.calls.length] else [] := by
  have hlen : (((wire.stream ps).drop n).take k).length = k := by
    rw [List.length_take, List.length_drop]
    omega
  have hne : ((wire.stream ps).drop n).take k ≠ [] := by
    intro hnil
    rw [hnil, List.length_nil] at hlen
    omega
  have hrest := hinv.rest_append_chunk k
  have hfit : f.pending.length + (((wire.stream ps).drop n).take k).length ≤ f.capacity := by
    rw [hlen]
    exact hroom
  have hcap := hinv.capacity_ge
  obtain ⟨s, f', cs, hrun, hrep, hpending, hcap', hcalls, -, hresizes, hframes,
    hgood⟩ :=
    DataSink.readCallback_safe (w := w) (s := ⟨buf, queue, calls, []⟩) hinv.represents hne hfit
      (by rw [hrest]; exact headerSafe_of_payloads hps _ _)
  rw [hrest] at hpending hcap' hresizes
  have hspace : (wire.rest ((wire.stream ps).take (n + k))).length <
      DataSink.capacityAfter f.capacity (wire.rest ((wire.stream ps).take (n + k))) := by
    rw [← hrest]
    exact DataSink.room_after (by omega) (by rw [List.length_append]; exact hfit)
  refine ⟨s, f', cs, hrun, ⟨hrep, hpending, ?_, ?_, ?_⟩, hcalls, hgood, ?_, ?_, ?_⟩
  · rw [hpending, hcap']
    exact hspace
  · rw [hcap']
    exact le_trans hcap (DataSink.le_capacityAfter _ _)
  · rw [hcap']
    exact capacityAfter_le hps _ hinv.capacity_le
  · rw [hframes, hinv.completed_append_chunk hps]
  · rw [hcap', hpending]
  · rw [hpending]
    exact hresizes

omit [DecidableEq ι] in
/-- A read event of a connection, whatever the capacity of the buffer. -/
theorem ConnectionInv.read {ps : List (List UInt8)} {n : ℕ} {buf : ByteBuffer} {f : ByteFifo}
    (w : ι) (queue : List RouterItem) (calls : List (RouteCall ι)) (hps : Payloads ps)
    (hinv : ConnectionInv ps n buf f) {k : ℕ} (hk : 1 ≤ k)
    (hroom : f.pending.length + k ≤ f.capacity) (hsent : n + k ≤ (wire.stream ps).length) :
    ∃ s f' cs,
      DataSink.readCallback w false (.bytes (((wire.stream ps).drop n).take k))
        ⟨buf, queue, calls, []⟩ = .ok .kept s ∧
      ConnectionInv ps (n + k) s.buf f' ∧ s.calls = calls ++ cs ∧
      (∀ c ∈ cs, DataSink.GoodCall w c) ∧
      wire.completed ps (n + k) = wire.completed ps n ++ cs.map RouteCall.payload := by
  obtain ⟨s, f', cs, hrun, hinv', hcalls, hgood, hcompleted, -, -⟩ :=
    hinv.read_grown w queue calls hps hk hroom hsent
  exact ⟨s, f', cs, hrun, hinv', hcalls, hgood, hcompleted⟩

/-! ## All connections -/

/-- What holds of the server in every reachable state. -/
structure Inv (ps : ι → List (List UInt8)) (srv : Server ι) : Prop where
  /-- a connection that was not accepted has received nothing -/
  fresh : ∀ i, srv.buffers i = none → srv.received i = 0
  /-- accepted connections are in order -/
  connected : ∀ i buf, srv.buffers i = some buf →
    ∃ f, ConnectionInv (ps i) (srv.received i) buf f
  /-- the completed messages were routed -/
  routed : ∀ i, (srv.callsFor i).map RouteCall.payload = wire.completed (ps i) (srv.received i)
  /-- with their lengths -/
  length_eq : ∀ c ∈ srv.calls, c.length = c.payload.length

theorem Inv.initial (ps : ι → List (List UInt8)) : Inv ps (initial : Server ι) where
  fresh _ _ := rfl
  connected _ _ h := nomatch h
  routed i := by
    rw [show (Server.initial : Server ι).received i = 0 from rfl, wire.completed_zero]
    rfl
  length_eq _ hc := absurd hc List.not_mem_nil

/-- Accepting a connection touches no other. -/
theorem Inv.accept {ps : ι → List (List UInt8)} {srv : Server ι} {i : ι} {buf : ByteBuffer}
    (hinv : Inv ps srv) (hnone : srv.buffers i = none)
    (hnew : ByteBuffer.new DataSink.receiveBufStartSize = .ok buf) :
    Inv ps (srv.accepted i buf) where
  fresh j hj := by
    by_cases hij : j = i
    · subst hij
      exact hinv.fresh j hnone
    · rw [accepted_buffers_ne hij] at hj
      exact hinv.fresh j hj
  connected j b hj := by
    by_cases hij : j = i
    · subst hij
      rw [accepted_buffers_self] at hj
      obtain rfl := Option.some.inj hj
      have hzero : (srv.accepted j buf).received j = 0 := hinv.fresh j hnone
      rw [hzero]
      exact ⟨_, ConnectionInv.start hnew⟩
    · rw [accepted_buffers_ne hij] at hj
      exact hinv.connected j b hj
  routed := hinv.routed
  length_eq := hinv.length_eq

/-- Calls for one connection are not calls for another. -/
theorem filter_calls_self {i : ι} {cs : List (RouteCall ι)}
    (h : ∀ c ∈ cs, DataSink.GoodCall i c) : cs.filter (·.watcher = i) = cs := by
  rw [List.filter_eq_self]
  intro c hc
  exact decide_eq_true (h c hc).watcher_eq

theorem filter_calls_ne {i j : ι} (hij : j ≠ i) {cs : List (RouteCall ι)}
    (h : ∀ c ∈ cs, DataSink.GoodCall i c) : cs.filter (·.watcher = j) = [] := by
  rw [List.filter_eq_nil_iff]
  intro c hc heq
  have hj : c.watcher = j := of_decide_eq_true heq
  exact hij (hj.symm.trans (h c hc).watcher_eq)

/-- The space offered to `recv` in a connection that is in order. -/
theorem ConnectionInv.offered {ps : List (List UInt8)} {n : ℕ} {buf : ByteBuffer}
    {f : ByteFifo} (h : ConnectionInv ps n buf f) :
    ∃ len, DataSink.offered buf = .ok len ∧ 1 ≤ len ∧
      ∀ k : ℕ, (k : ℤ) ≤ len → f.pending.length + k ≤ f.capacity := by
  have hroom := h.room
  refine ⟨_, DataSink.offered_eq h.represents, by omega, ?_⟩
  intro k hk
  omega

/-- **Every admissible read event** of an accepted connection returns, and keeps
the server in order. -/
theorem Inv.read {ps : ι → List (List UInt8)} {srv : Server ι} {i : ι} {buf : ByteBuffer}
    {n : ℕ} (hps : ∀ i, Payloads (ps i)) (hinv : Inv ps srv) (hbuf : srv.buffers i = some buf)
    (hadm : Admissible ps srv i buf n) :
    ∃ s, readEvent ps srv i buf n = .ok .kept s ∧ Inv ps (srv.afterRead i n s) := by
  obtain ⟨f, hconn⟩ := hinv.connected i buf hbuf
  obtain ⟨len, hoffered, -, hroom⟩ := hconn.offered
  obtain ⟨hpos, ⟨len', hoffered', hle⟩, hsent⟩ := hadm
  obtain rfl : len = len' := Except.ok.inj (hoffered.symm.trans hoffered')
  rw [(hps i).clientStream_eq] at hsent
  obtain ⟨s, f', cs, hrun, hconn', hcalls, hgood, hcompleted⟩ :=
    hconn.read i srv.queue srv.calls (hps i) hpos (hroom n hle) hsent
  refine ⟨s, ?_, ?_, ?_, ?_, ?_⟩
  · rw [readEvent, chunk, (hps i).clientStream_eq]
    exact hrun
  · intro j hj
    by_cases hij : j = i
    · subst hij
      rw [afterRead_buffers_self] at hj
      exact nomatch hj
    · rw [afterRead_buffers_ne hij] at hj
      rw [afterRead_received_ne hij]
      exact hinv.fresh j hj
  · intro j b hj
    by_cases hij : j = i
    · subst hij
      rw [afterRead_buffers_self] at hj
      obtain rfl := Option.some.inj hj
      rw [afterRead_received_self]
      exact ⟨f', hconn'⟩
    · rw [afterRead_buffers_ne hij] at hj
      rw [afterRead_received_ne hij]
      exact hinv.connected j b hj
  · intro j
    have hold : (srv.afterRead i n s).callsFor j =
        srv.callsFor j ++ cs.filter (·.watcher = j) := by
      rw [callsFor, afterRead, hcalls, List.filter_append, callsFor]
    rw [hold, List.map_append, hinv.routed j]
    by_cases hij : j = i
    · subst hij
      rw [afterRead_received_self, filter_calls_self hgood, hcompleted]
    · rw [afterRead_received_ne hij, filter_calls_ne hij hgood, List.map_nil, List.append_nil]
  · intro c hc
    rw [afterRead, hcalls] at hc
    rcases List.mem_append.mp hc with hold | hnew
    · exact hinv.length_eq c hold
    · exact (hgood c hnew).length_eq

/-- What holds of every reachable state. -/
theorem Inv.reachable {ps : ι → List (List UInt8)} (hps : ∀ i, Payloads (ps i))
    {srv : Server ι} (h : (system ps).Reachable srv) : Inv ps srv := by
  refine h.invariant (I := Inv ps) ?_ ?_
  · rintro s rfl
    exact Inv.initial ps
  · intro s l t _ hinv hstep
    cases hstep with
    | accept hnone hnew => exact hinv.accept hnone hnew
    | read hbuf hadm hrun =>
      obtain ⟨s', hrun', hinv'⟩ := hinv.read hps hbuf hadm
      rw [hrun] at hrun'
      obtain ⟨rfl, rfl⟩ := EStateM.Result.ok.inj hrun'
      exact hinv'

/-- **Refinement of one-shot decoding**: in every reachable state the messages
routed for a connection, with their lengths, are the payloads whose last byte has
been received; `recv` is always offered space, and no read event fails. -/
theorem routed_eq_completed {ps : ι → List (List UInt8)} (hps : ∀ i, Payloads (ps i))
    {srv : Server ι} (h : (system ps).Reachable srv) :
    (∀ i, (srv.callsFor i).map (fun c => (c.payload, c.length)) =
      (wire.completed (ps i) (srv.received i)).map fun p => (p, (p.length : ℤ))) ∧
    (∀ i buf, srv.buffers i = some buf →
      ∃ len, DataSink.offered buf = .ok len ∧ 1 ≤ len) ∧
    (∀ i buf n, srv.buffers i = some buf → Admissible ps srv i buf n →
      ∃ s, readEvent ps srv i buf n = .ok .kept s) := by
  have hinv := Inv.reachable hps h
  refine ⟨?_, ?_, ?_⟩
  · intro i
    rw [← hinv.routed i, List.map_map]
    refine List.map_congr_left fun c hc => ?_
    rw [Function.comp_apply, hinv.length_eq c (List.mem_of_mem_filter hc)]
  · intro i buf hbuf
    obtain ⟨f, hconn⟩ := hinv.connected i buf hbuf
    obtain ⟨len, hoffered, hpos, -⟩ := hconn.offered
    exact ⟨len, hoffered, hpos⟩
  · intro i buf n hbuf hadm
    obtain ⟨s, hrun, -⟩ := hinv.read hps hbuf hadm
    exact ⟨s, hrun⟩

/-- Short streams fit a buffer of the first size: any bytes that were sent can be received. -/
theorem Inv.admissible {ps : ι → List (List UInt8)} {srv : Server ι} (hinv : Inv ps srv) {i : ι}
    {buf : ByteBuffer} {n : ℕ} (hbuf : srv.buffers i = some buf) (hpos : 1 ≤ n)
    (hsent : srv.received i + n ≤ (clientStream (ps i)).length)
    (hroom : srv.received i + n ≤ 102400) : Admissible ps srv i buf n := by
  obtain ⟨f, hconn⟩ := hinv.connected i buf hbuf
  have hcap := hconn.capacity_ge
  have hpending : f.pending.length ≤ srv.received i := by
    rw [hconn.pending_eq]
    exact (wire.length_rest_le _).trans (List.length_take_le _ _)
  exact ⟨hpos, ⟨_, DataSink.offered_eq hconn.represents, by omega⟩, hsent⟩

/-- With all connections accepted, the next bytes of any of them can be received. -/
theorem exists_read {ps : ι → List (List UInt8)} (hps : ∀ i, Payloads (ps i)) {srv : Server ι}
    (h : (system ps).Reachable srv) (hall : ∀ i, (srv.buffers i).isSome) (i : ι) {n : ℕ}
    (hpos : 1 ≤ n) (hsent : srv.received i + n ≤ (clientStream (ps i)).length)
    (hroom : srv.received i + n ≤ 102400) :
    ∃ srv', (system ps).Reachable srv' ∧ (∀ j, (srv'.buffers j).isSome) ∧
      srv'.received = Function.update srv.received i (srv.received i + n) := by
  have hinv := Inv.reachable hps h
  obtain ⟨buf, hbuf⟩ := Option.isSome_iff_exists.mp (hall i)
  have hadm := hinv.admissible hbuf hpos hsent hroom
  obtain ⟨s, hrun, -⟩ := hinv.read hps hbuf hadm
  refine ⟨srv.afterRead i n s, h.next (.read hbuf hadm hrun), fun j => ?_, rfl⟩
  by_cases hij : j = i
  · rw [hij, afterRead_buffers_self]
    rfl
  · rw [afterRead_buffers_ne hij]
    exact hall j

/-- Two connections with two payloads each, whose bytes arrive in turns: a header alone, the
rest of a message with the start of the next. One connection's messages have been routed, and
of the other's the first, while a byte of the second is on its way. -/
theorem routed_eq_completed_two_connections :
    ∃ srv, (system fun i : Bool => if i then [[1], [2, 3]] else [[7, 8], [9]]).Reachable srv ∧
      (srv.callsFor false).map (fun c => (c.payload, c.length)) = [([7, 8], 2), ([9], 1)] ∧
      (srv.callsFor true).map (fun c => (c.payload, c.length)) = [([1], 1)] ∧
      srv.received true = 10 := by
  have hps : ∀ i : Bool, Payloads (if i then [[1], [2, 3]] else [[7, 8], [9]]) := by
    rintro (_ | _) <;> decide
  obtain ⟨buf, hnew, -, -⟩ := ByteBuffer.new_represents (n := 102400) (by omega) (by omega)
  have hstart : (system fun i : Bool => if i then [[1], [2, 3]] else [[7, 8], [9]]).Reachable
      ((initial.accepted false buf).accepted true buf) :=
    .next (.next (.start rfl) (.accept rfl hnew)) (.accept rfl hnew)
  have hall : ∀ i : Bool, (((initial.accepted false buf).accepted true buf).buffers i).isSome := by
    rintro (_ | _) <;> rfl
  have hzero : ((initial.accepted false buf).accepted true buf).received = fun _ => 0 := rfl
  -- the header of the first message of `false`, without a byte of its payload
  obtain ⟨s₁, h₁, hall₁, hr₁⟩ := exists_read hps hstart hall false (n := 4) (by decide)
    (by rw [hzero]; decide) (by rw [hzero]; decide)
  rw [hzero] at hr₁
  obtain ⟨s₂, h₂, hall₂, hr₂⟩ := exists_read hps h₁ hall₁ true (n := 7) (by decide)
    (by rw [hr₁]; decide) (by rw [hr₁]; decide)
  rw [hr₁] at hr₂
  obtain ⟨s₃, h₃, hall₃, hr₃⟩ := exists_read hps h₂ hall₂ false (n := 3) (by decide)
    (by rw [hr₂]; decide) (by rw [hr₂]; decide)
  rw [hr₂] at hr₃
  obtain ⟨s₄, h₄, hall₄, hr₄⟩ := exists_read hps h₃ hall₃ true (n := 3) (by decide)
    (by rw [hr₃]; decide) (by rw [hr₃]; decide)
  rw [hr₃] at hr₄
  obtain ⟨s₅, h₅, -, hr₅⟩ := exists_read hps h₄ hall₄ false (n := 4) (by decide)
    (by rw [hr₄]; decide) (by rw [hr₄]; decide)
  rw [hr₄] at hr₅
  have hrouted := (routed_eq_completed hps h₅).1
  refine ⟨s₅, h₅, ?_, ?_, ?_⟩
  · rw [hrouted false, hr₅]
    decide
  · rw [hrouted true, hr₅]
    decide
  · rw [hr₅]
    rfl

end Server

end WallMon
