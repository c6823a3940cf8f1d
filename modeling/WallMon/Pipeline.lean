import Mathlib.Data.Finset.Lattice.Fold
import Mathlib.Data.Finset.Prod
import Mathlib.Data.Fintype.Basic
import WallMon.Carried
import WallMon.FailedReads

/-!
# From the collectors to the handlers

Daemons, connections and one server together. Each daemon runs its two threads; the server
accepts connections, reads whatever has arrived on one of them, deletes those that are closed
by the other side, and its router thread takes the strings from the queue. What happens when,
and how many bytes a `recv` returns, is arbitrary. A daemon may be connected to other servers
as well: their connections are never accepted here.

The router's queue holds a hundred items. A callback that has received more messages waits in
`Push`, and with it all connections, until the router thread has taken some.

`calls` and `taken` are history: the calls of `DataRouter::Route`, and the items that
`_RouteForever` has taken from the queue. The main result is `handled_in_order`: what the
router thread gets from a connection are payloads that the daemon has sent in full, all of
them up to some moment, each once for each time it was sent, and in their order.
-/

namespace WallMon

/-- What the server has for a connection. -/
inductive Watcher where
  /-- not accepted -/
  | pending
  /-- a watcher with this buffer -/
  | serving (buf : ByteBuffer)
  /-- deleted -/
  | deleted

/-- The daemons and the server. -/
structure Pipeline (δ : Type) where
  /-- the daemons -/
  producers : δ → Producer
  /-- `_watcherMap`, for the connection of a daemon that has this number there -/
  watchers : δ × ℕ → Watcher
  /-- history: how many bytes of each connection have been received -/
  received : δ × ℕ → ℕ
  /-- the items in the router's queue -/
  queue : List RouterItem
  /-- the items that the running callback has not pushed yet -/
  pushing : List RouterItem
  /-- history: the calls of `DataRouter::Route` -/
  calls : List (RouteCall (δ × ℕ))
  /-- history: the items taken from the queue -/
  taken : List RouterItem

/-- What happens next. -/
inductive PipelineEvent (δ : Type) where
  /-- a thread of a daemon -/
  | daemon (i : δ) (a : Action)
  /-- a connection is accepted -/
  | accept (c : δ × ℕ)
  /-- a socket is readable, and `recv` returns this many bytes -/
  | read (c : δ × ℕ) (n : ℕ)
  /-- `recv` finds the connection closed -/
  | close (c : δ × ℕ)
  /-- `Push` -/
  | push
  /-- the router thread takes an item -/
  | take

namespace Pipeline

open Producer

variable {δ : Type} [DecidableEq δ]

/-- What the daemon shares of its threads. -/
def shared (s : Pipeline δ) (c : δ × ℕ) : Streamer := (s.producers c.1).daemon.shared

/-- What was written to a connection. -/
def written (s : Pipeline δ) (c : δ × ℕ) : List UInt8 := (s.shared c).written c.2

/-- The next `n` bytes of a connection. -/
def chunk (s : Pipeline δ) (c : δ × ℕ) (n : ℕ) : List UInt8 :=
  ((s.written c).drop (s.received c)).take n

/-- A read event of a connection whose buffer is `buf`: what it pushes is collected. -/
def readEvent (s : Pipeline δ) (c : δ × ℕ) (buf : ByteBuffer) (received : RecvResult) :
    EStateM.Result Fault (SinkState (δ × ℕ)) Connection :=
  DataSink.readCallback c false received { buf, queue := [], calls := s.calls, resizes := [] }

/-- Items that the router's queue can hold. -/
def capacity : ℕ := 100

/-- `recv`, offered `len` bytes of space, may return `n` bytes. -/
structure Admissible (s : Pipeline δ) (c : δ × ℕ) (buf : ByteBuffer) (n : ℕ) : Prop where
  /-- at least one byte -/
  pos : 1 ≤ n
  /-- at most the offered length -/
  le_offered : ∃ len, DataSink.offered buf = .ok len ∧ (n : ℤ) ≤ len
  /-- bytes that were written -/
  written : s.received c + n ≤ (s.written c).length

/-- The state after a thread of a daemon went on. -/
def withProducer (s : Pipeline δ) (i : δ) (p : Producer) : Pipeline δ :=
  { s with producers := Function.update s.producers i p }

/-- The state after a connection was accepted. -/
def accepted (s : Pipeline δ) (c : δ × ℕ) (buf : ByteBuffer) : Pipeline δ :=
  { s with watchers := Function.update s.watchers c (.serving buf) }

/-- The state after a callback of a watcher. -/
def withWatcher (s : Pipeline δ) (c : δ × ℕ) (w : Watcher) (n : ℕ) (sink : SinkState (δ × ℕ)) :
    Pipeline δ :=
  { s with
    watchers := Function.update s.watchers c w
    received := Function.update s.received c (s.received c + n)
    pushing := sink.queue
    calls := sink.calls }

/-- One step. -/
inductive Step (K : δ → DaemonConfig) : Pipeline δ → PipelineEvent δ → Pipeline δ → Prop where
  /-- a thread of a daemon -/
  | daemon {s : Pipeline δ} {i : δ} {a : Action} {p : Producer} :
      Producer.Step (K i) (s.producers i) a p → Step K s (.daemon i a) (s.withProducer i p)
  /-- `_AcceptCallback` -/
  | accept {s : Pipeline δ} {c : δ × ℕ} {buf : ByteBuffer} :
      s.pushing = [] → s.watchers c = .pending → c.2 < (s.shared c).conns.length →
      ByteBuffer.new DataSink.receiveBufStartSize = .ok buf →
      Step K s (.accept c) (s.accepted c buf)
  /-- `_ReadCallback` on received bytes -/
  | read {s : Pipeline δ} {c : δ × ℕ} {n : ℕ} {buf : ByteBuffer} {connection : Connection}
      {sink : SinkState (δ × ℕ)} :
      s.pushing = [] → s.watchers c = .serving buf → Admissible s c buf n →
      s.readEvent c buf (.bytes (s.chunk c n)) = .ok connection sink →
      Step K s (.read c n) (s.withWatcher c (.serving sink.buf) n sink)
  /-- `_ReadCallback` on a connection that the daemon has closed, when all was received -/
  | close {s : Pipeline δ} {c : δ × ℕ} {buf : ByteBuffer} {connection : Connection}
      {sink : SinkState (δ × ℕ)} :
      s.pushing = [] → s.watchers c = .serving buf → Closed (s.shared c) c.2 →
      s.received c = (s.written c).length →
      s.readEvent c buf .closed = .ok connection sink →
      Step K s (.close c) (s.withWatcher c .deleted 0 sink)
  /-- `Push` of `Route`, in the running callback -/
  | push {s : Pipeline δ} {item : RouterItem} {pushing : List RouterItem} :
      s.pushing = item :: pushing → s.queue.length < capacity →
      Step K s .push { s with queue := s.queue ++ [item], pushing }
  /-- `Pop` of `_RouteForever` -/
  | take {s : Pipeline δ} {item : RouterItem} {queue : List RouterItem} :
      s.queue = item :: queue → Step K s .take { s with queue, taken := s.taken ++ [item] }

/-- Before any connection. -/
structure Initial (s : Pipeline δ) : Prop where
  /-- the daemons have made no connection -/
  producers : ∀ i, (s.producers i).Fresh
  /-- the server has accepted none -/
  watchers : ∀ c, s.watchers c = .pending
  /-- nothing was received -/
  received : ∀ c, s.received c = 0
  /-- the queue is empty -/
  queue : s.queue = []
  /-- no callback is running -/
  pushing : s.pushing = []
  /-- nothing was routed -/
  calls : s.calls = []
  /-- nothing was taken -/
  taken : s.taken = []

/-- The transition system of daemons with the configurations `K` and a server. -/
def system (K : δ → DaemonConfig) : TransitionSystem (Pipeline δ) (PipelineEvent δ) where
  init := Initial
  step := Step K

/-- Daemons queue only payloads of the kind. -/
def Composing (ok : List UInt8 → Prop) : Pipeline δ → PipelineEvent δ → Prop
  | _, .daemon _ a => Composes ok a
  | _, _ => True

section Fields

variable (s : Pipeline δ)

@[simp] theorem withProducer_producers_self (i : δ) (p : Producer) :
    (s.withProducer i p).producers i = p := Function.update_self ..

@[simp] theorem withProducer_producers_ne {i j : δ} (h : j ≠ i) (p : Producer) :
    (s.withProducer i p).producers j = s.producers j := Function.update_of_ne h ..

@[simp] theorem accepted_watchers_self (c : δ × ℕ) (buf : ByteBuffer) :
    (s.accepted c buf).watchers c = .serving buf := Function.update_self ..

@[simp] theorem accepted_watchers_ne {c c' : δ × ℕ} (h : c' ≠ c) (buf : ByteBuffer) :
    (s.accepted c buf).watchers c' = s.watchers c' := Function.update_of_ne h ..

variable (w : Watcher) (n : ℕ) (sink : SinkState (δ × ℕ))

@[simp] theorem withWatcher_watchers_self (c : δ × ℕ) :
    (s.withWatcher c w n sink).watchers c = w := Function.update_self ..

@[simp] theorem withWatcher_watchers_ne {c c' : δ × ℕ} (h : c' ≠ c) :
    (s.withWatcher c w n sink).watchers c' = s.watchers c' := Function.update_of_ne h ..

@[simp] theorem withWatcher_received_self (c : δ × ℕ) :
    (s.withWatcher c w n sink).received c = s.received c + n := Function.update_self ..

@[simp] theorem withWatcher_received_ne {c c' : δ × ℕ} (h : c' ≠ c) :
    (s.withWatcher c w n sink).received c' = s.received c' := Function.update_of_ne h ..

end Fields

/-- The payloads routed for a connection. -/
def arrived (s : Pipeline δ) (c : δ × ℕ) : List (List UInt8) :=
  (s.calls.filter (·.watcher = c)).map RouteCall.payload

/-- Those of them that the router thread has taken from the queue. -/
def handled (s : Pipeline δ) (c : δ × ℕ) : List (List UInt8) :=
  ((s.calls.take s.taken.length).filter (·.watcher = c)).map RouteCall.payload

/-- The item that a call puts into the queue. -/
def routed (call : RouteCall (δ × ℕ)) : RouterItem := ⟨call.length, call.payload⟩

/-! ## One connection -/

/-- Fronts of one list are the same as far as they go. -/
theorem take_drop_of_isPrefix {l l' : List UInt8} (h : l <+: l') {a b : ℕ}
    (hle : a + b ≤ l.length) : (l.drop a).take b = (l'.drop a).take b := by
  obtain ⟨rest, rfl⟩ := h
  rw [List.drop_append_of_le_length (by omega),
    List.take_append_of_le_length (by rw [List.length_drop]; omega)]

/-- What was received of a connection does not change while its daemon goes on. -/
theorem take_stream_eq {p p' : Producer} (hp : Carries p) (hp' : Carries p')
    (hcontinues : Continues p.daemon.shared p'.daemon.shared) {c n : ℕ}
    (hn : n ≤ (p.daemon.shared.written c).length) :
    (wire.stream (payloads p.daemon.shared c)).take n =
      (wire.stream (payloads p'.daemon.shared c)).take n := by
  have hbefore := take_drop_of_isPrefix (hp.written_isPrefix c).1 (a := 0) (b := n) (by omega)
  have hafter := take_drop_of_isPrefix
    ((hcontinues.written_isPrefix c).trans (hp'.written_isPrefix c).1) (a := 0) (b := n) (by omega)
  exact hbefore.symm.trans hafter

/-- A read event, and what it does to the router's queue. -/
theorem read_queue {ι : Type} {ps : List (List UInt8)} {n : ℕ} {buf : ByteBuffer} {f : ByteFifo}
    (w : ι) (queue : List RouterItem) (calls : List (RouteCall ι)) (hps : Server.Payloads ps)
    (hinv : Server.ConnectionInv ps n buf f) {k : ℕ} (hk : 1 ≤ k)
    (hroom : f.pending.length + k ≤ f.capacity) (hsent : n + k ≤ (wire.stream ps).length) :
    ∃ s f' cs,
      DataSink.readCallback w false (.bytes (((wire.stream ps).drop n).take k))
        ⟨buf, queue, calls, []⟩ = .ok .kept s ∧
      Server.ConnectionInv ps (n + k) s.buf f' ∧ s.calls = calls ++ cs ∧
      s.queue = queue ++ cs.map (fun c => ⟨c.length, c.payload⟩) ∧
      (∀ c ∈ cs, DataSink.GoodCall w c) ∧
      wire.completed ps (n + k) = wire.completed ps n ++ cs.map RouteCall.payload := by
  obtain ⟨s, f', cs, hrun, hinv', hcalls, hgood, hcompleted⟩ :=
    hinv.read w queue calls hps hk hroom hsent
  have hlength : (((wire.stream ps).drop n).take k).length = k := by
    rw [List.length_take, List.length_drop]
    omega
  have hne : ((wire.stream ps).drop n).take k ≠ [] := by
    intro hnil
    rw [hnil, List.length_nil] at hlength
    omega
  obtain ⟨s', f'', cs', hrun', -, -, -, hcalls', hqueue, -, -, -⟩ :=
    DataSink.readCallback_safe (w := w) (s := ⟨buf, queue, calls, []⟩) hinv.represents hne
      (by rw [hlength]; exact hroom)
      (by rw [hinv.rest_append_chunk k]; exact Server.headerSafe_of_payloads hps _ _)
  obtain ⟨-, rfl⟩ := EStateM.Result.ok.inj (hrun.symm.trans hrun')
  obtain rfl : cs = cs' := List.append_cancel_left (hcalls.symm.trans hcalls')
  refine ⟨s, f', cs, hrun, hinv', hcalls, ?_, hgood, hcompleted⟩
  -- none of the payloads is empty
  rw [hqueue, List.map_eq_flatMap]
  congr 1
  refine List.flatMap_congr fun c hc => ?_
  have hmem : c.payload ∈ ps := by
    refine (wire.completed_isPrefix ps (n + k)).subset ?_
    rw [hcompleted]
    exact List.mem_append_right _ (List.mem_map_of_mem hc)
  have hpos := (hps _ hmem).1
  have hlen := (hgood c hc).length_eq
  rw [RouteCall.items, if_neg (by omega)]

/-- A closed connection leaves the queue and the calls alone. -/
theorem readCallback_closed_eq {ι : Type} {w : ι} {s : SinkState ι} {f : ByteFifo}
    (h : s.buf.Represents f) :
    ∃ buf, DataSink.readCallback w false .closed s = .ok .deleted { s with buf } := by
  obtain ⟨b, hrep, heq⟩ := DataSink.readCallback_nothing w h .closed rfl
  have hsize := hrep.size_eq
  obtain ⟨h0, h1, h2, h3, h4, h5⟩ := hrep.wellFormed
  have hwritten : b.bytesWritten 0 = .ok { b with size := b.size + 0, head := b.head + 0 } := by
    rw [ByteBuffer.bytesWritten, CInt.add_ok ⟨by omega, by omega⟩, ok_bind,
      CInt.add_ok ⟨by omega, by omega⟩, ok_bind, cassert_ok ⟨by omega, by omega⟩, ok_bind]
    rfl
  exact ⟨_, heq.trans (DataSink.bind_ok (DataSink.onBuf_ok hwritten))⟩

/-! ## All of it -/

/-- What holds of the daemons and the server in every reachable state. -/
structure Inv (s : Pipeline δ) : Prop where
  /-- the daemons -/
  carries : ∀ i, Carries (s.producers i)
  /-- of a connection that was not accepted nothing was received -/
  pending : ∀ c, s.watchers c = .pending → s.received c = 0
  /-- an accepted connection was made, and its buffer is in order -/
  serving : ∀ c buf, s.watchers c = .serving buf → c.2 < (s.shared c).conns.length ∧
    ∃ f, Server.ConnectionInv (payloads (s.shared c) c.2) (s.received c) buf f
  /-- a deleted one was closed, and all of it received -/
  deleted : ∀ c, s.watchers c = .deleted → c.2 < (s.shared c).conns.length ∧
    Closed (s.shared c) c.2 ∧ s.received c = (s.written c).length
  /-- what is received was written -/
  received_le : ∀ c, s.received c ≤ (s.written c).length
  /-- the messages that are complete were routed -/
  arrived_eq : ∀ c, s.arrived c = wire.completed (payloads (s.shared c) c.2) (s.received c)
  /-- with their lengths -/
  length_eq : ∀ call ∈ s.calls, call.length = call.payload.length
  /-- first in, first out -/
  fifo : s.taken ++ s.queue ++ s.pushing = s.calls.map routed
  /-- the queue is bounded -/
  queue_le : s.queue.length ≤ capacity

/-- What holds of the watcher of one connection. -/
structure Watched (s : Pipeline δ) (c : δ × ℕ) : Prop where
  /-- nothing was received before it is accepted -/
  pending : s.watchers c = .pending → s.received c = 0
  /-- once it is, its buffer is in order -/
  serving : ∀ buf, s.watchers c = .serving buf → c.2 < (s.shared c).conns.length ∧
    ∃ f, Server.ConnectionInv (payloads (s.shared c) c.2) (s.received c) buf f
  /-- it is deleted when the connection was closed and all of it received -/
  deleted : s.watchers c = .deleted → c.2 < (s.shared c).conns.length ∧
    Closed (s.shared c) c.2 ∧ s.received c = (s.written c).length

omit [DecidableEq δ] in
/-- It does not depend on the other watchers. -/
theorem Watched.congr {s s' : Pipeline δ} {c : δ × ℕ} (h : Watched s c)
    (hproducers : s'.producers = s.producers) (hwatchers : s'.watchers c = s.watchers c)
    (hreceived : s'.received c = s.received c) : Watched s' c := by
  have hshared : s'.shared c = s.shared c := by rw [shared, shared, hproducers]
  have hwritten : s'.written c = s.written c := by rw [written, written, hshared]
  constructor
  · rw [hwatchers, hreceived]
    exact h.pending
  · rw [hwatchers, hshared, hreceived]
    exact h.serving
  · rw [hwatchers, hshared, hreceived, hwritten]
    exact h.deleted

namespace Inv

variable {K : δ → DaemonConfig} {s : Pipeline δ}

theorem watched (h : Inv s) (c : δ × ℕ) : Watched s c := ⟨h.pending c, h.serving c, h.deleted c⟩

theorem initial (h : Initial s) : Inv s := by
  have hnone : ∀ c : δ × ℕ, s.written c = [] := by
    intro c
    obtain ⟨⟨d, hd, hdaemon⟩, -⟩ := h.producers c.1
    rw [written, shared, hdaemon, Streamer.written, hd.deliveries]
    rfl
  refine ⟨fun i => .fresh (h.producers i), fun c _ => h.received c, ?_, ?_, ?_, ?_, ?_, ?_, ?_⟩
  · intro c buf hserving
    cases (h.watchers c).symm.trans hserving
  · intro c hdeleted
    cases (h.watchers c).symm.trans hdeleted
  · intro c
    rw [h.received]
    exact Nat.zero_le _
  · intro c
    rw [h.received, wire.completed_zero, arrived, h.calls]
    rfl
  · rw [h.calls]
    intro call hcall
    cases hcall
  · rw [h.taken, h.queue, h.pushing, h.calls]
    rfl
  · rw [h.queue]
    exact Nat.zero_le _

/-- How the daemons change when a thread of one of them goes on. -/
theorem continues_withProducer {i : δ} {p : Producer}
    (hcontinues : Continues (s.producers i).daemon.shared p.daemon.shared) (c : δ × ℕ) :
    Continues (s.shared c) ((s.withProducer i p).shared c) := by
  by_cases hi : c.1 = i
  · subst hi
    rw [shared, shared, withProducer_producers_self]
    exact hcontinues
  · rw [shared, shared, withProducer_producers_ne _ hi]
    exact ⟨List.prefix_refl _, List.prefix_refl _, fun c _ h => h, fun c _ _ => rfl⟩

/-- A thread of a daemon goes on. -/
theorem daemon (h : Inv s) {i : δ} {a : Action} {p : Producer}
    (hstep : Producer.Step (K i) (s.producers i) a p) (hsized : Composes Sized a) :
    Inv (s.withProducer i p) := by
  have hcarries : ∀ j, Carries ((s.withProducer i p).producers j) := by
    intro j
    by_cases hj : j = i
    · subst hj
      rw [withProducer_producers_self]
      exact (h.carries j).step hstep hsized
    · rw [withProducer_producers_ne _ hj]
      exact h.carries j
  have hcontinues := continues_withProducer (s := s) (hstep.continues (h.carries i))
  have htake : ∀ c, (wire.stream (payloads (s.shared c) c.2)).take (s.received c) =
      (wire.stream (payloads ((s.withProducer i p).shared c) c.2)).take (s.received c) :=
    fun c => take_stream_eq (h.carries c.1) (hcarries c.1) (hcontinues c) (h.received_le c)
  refine ⟨hcarries, h.pending, ?_, ?_, ?_, ?_, h.length_eq, h.fifo, h.queue_le⟩
  · intro c buf hserving
    obtain ⟨hlt, f, hconn⟩ := h.serving c buf hserving
    refine ⟨lt_of_lt_of_le hlt (hcontinues c).conns.length_le, f, hconn.represents, ?_, hconn.room,
      hconn.capacity_ge, hconn.capacity_le⟩
    rw [hconn.pending_eq, htake c]
    rfl
  · intro c hdeleted
    obtain ⟨hlt, hclosed, hall⟩ := h.deleted c hdeleted
    refine ⟨lt_of_lt_of_le hlt (hcontinues c).conns.length_le,
      (hcontinues c).closed c.2 hlt hclosed, ?_⟩
    show s.received c = (((s.withProducer i p).shared c).written c.2).length
    rw [(hcontinues c).written_eq c.2 hlt hclosed]
    exact hall
  · intro c
    exact (h.received_le c).trans ((hcontinues c).written_isPrefix c.2).length_le
  · intro c
    show s.arrived c = _
    rw [h.arrived_eq c]
    exact wire.completed_congr ((h.carries c.1).payloads_sized c.2).sendable
      ((hcarries c.1).payloads_sized c.2).sendable (htake c)

/-- A connection is accepted. -/
theorem accept (h : Inv s) {c : δ × ℕ} {buf : ByteBuffer} (hpending : s.watchers c = .pending)
    (hlt : c.2 < (s.shared c).conns.length)
    (hnew : ByteBuffer.new DataSink.receiveBufStartSize = .ok buf) :
    Inv (s.accepted c buf) := by
  have hwatched : ∀ c', Watched (s.accepted c buf) c' := by
    intro c'
    by_cases hc : c' = c
    · subst hc
      refine ⟨fun _ => h.pending c' hpending, fun buf' hserving => ?_, fun hdeleted => ?_⟩
      · rw [accepted_watchers_self] at hserving
        obtain rfl : buf = buf' := Watcher.serving.inj hserving
        refine ⟨hlt, .empty 102400, ?_⟩
        show Server.ConnectionInv _ (s.received c') buf _
        rw [h.pending c' hpending]
        exact .start hnew
      · rw [accepted_watchers_self] at hdeleted
        cases hdeleted
    · exact (h.watched c').congr rfl (accepted_watchers_ne _ hc _) rfl
  exact ⟨h.carries, fun c' => (hwatched c').pending, fun c' => (hwatched c').serving,
    fun c' => (hwatched c').deleted, h.received_le, h.arrived_eq, h.length_eq, h.fifo, h.queue_le⟩

/-- The bytes that `recv` returns, as part of the stream of payloads. -/
theorem chunk_eq (h : Inv s) {c : δ × ℕ} {n : ℕ}
    (hn : s.received c + n ≤ (s.written c).length) :
    s.chunk c n =
      ((wire.stream (payloads (s.shared c) c.2)).drop (s.received c)).take n :=
  take_drop_of_isPrefix ((h.carries c.1).written_isPrefix c.2).1 hn

/-- **A read event** returns, and keeps everything in order. -/
theorem read (h : Inv s) (hpushing : s.pushing = []) {c : δ × ℕ} {n : ℕ} {buf : ByteBuffer}
    (hserving : s.watchers c = .serving buf) (hadm : Admissible s c buf n) :
    ∃ sink, s.readEvent c buf (.bytes (s.chunk c n)) = .ok .kept sink ∧
      Inv (s.withWatcher c (.serving sink.buf) n sink) := by
  obtain ⟨hlt, f, hconn⟩ := h.serving c buf hserving
  obtain ⟨hpos, ⟨len, hoffered, hle⟩, hwritten⟩ := hadm
  obtain ⟨len', hoffered', -, hroom⟩ := hconn.offered
  obtain rfl : len' = len := Except.ok.inj (hoffered'.symm.trans hoffered)
  have hps := (h.carries c.1).payloads_sized c.2
  have hpre := ((h.carries c.1).written_isPrefix c.2).1
  obtain ⟨sink, f', cs, hrun, hconn', hcalls, hqueue, hgood, hcompleted⟩ :=
    read_queue c [] s.calls hps hconn hpos (hroom n hle) (hwritten.trans hpre.length_le)
  have hwatched : ∀ c', Watched (s.withWatcher c (.serving sink.buf) n sink) c' := by
    intro c'
    by_cases hc : c' = c
    · subst hc
      refine ⟨fun hpending => ?_, fun buf' hserving' => ?_, fun hdeleted => ?_⟩
      · rw [withWatcher_watchers_self] at hpending
        cases hpending
      · rw [withWatcher_watchers_self] at hserving'
        obtain rfl := Watcher.serving.inj hserving'
        rw [withWatcher_received_self]
        exact ⟨hlt, f', hconn'⟩
      · rw [withWatcher_watchers_self] at hdeleted
        cases hdeleted
    · exact (h.watched c').congr rfl (withWatcher_watchers_ne _ _ _ _ hc)
        (withWatcher_received_ne _ _ _ _ hc)
  refine ⟨sink, ?_, h.carries, fun c' => (hwatched c').pending, fun c' => (hwatched c').serving,
    fun c' => (hwatched c').deleted, ?_, ?_, ?_, ?_, h.queue_le⟩
  · rw [readEvent, h.chunk_eq hwritten]
    exact hrun
  · intro c'
    by_cases hc : c' = c
    · subst hc
      rw [withWatcher_received_self]
      exact hwritten
    · rw [withWatcher_received_ne _ _ _ _ hc]
      exact h.received_le c'
  · intro c'
    have hold : (s.withWatcher c (.serving sink.buf) n sink).arrived c' =
        s.arrived c' ++ (cs.filter (·.watcher = c')).map RouteCall.payload := by
      rw [arrived, withWatcher, hcalls, List.filter_append, List.map_append, arrived]
    rw [hold, h.arrived_eq c']
    by_cases hc : c' = c
    · subst hc
      rw [withWatcher_received_self, Server.filter_calls_self hgood]
      exact hcompleted.symm
    · rw [withWatcher_received_ne _ _ _ _ hc, Server.filter_calls_ne hc hgood, List.map_nil,
        List.append_nil]
      rfl
  · intro call hcall
    rw [withWatcher, hcalls] at hcall
    rcases List.mem_append.mp hcall with hold | hnew
    · exact h.length_eq call hold
    · exact (hgood call hnew).length_eq
  · show s.taken ++ s.queue ++ sink.queue = sink.calls.map routed
    rw [hcalls, hqueue, List.map_append, ← h.fifo, hpushing, List.append_nil]
    rfl

/-- **A closed connection** is deleted, and everything else stays. -/
theorem close (h : Inv s) (hpushing : s.pushing = []) {c : δ × ℕ} {buf : ByteBuffer}
    (hserving : s.watchers c = .serving buf) (hclosed : Closed (s.shared c) c.2)
    (hall : s.received c = (s.written c).length) :
    ∃ buf', s.readEvent c buf .closed = .ok .deleted ⟨buf', [], s.calls, []⟩ ∧
      Inv (s.withWatcher c .deleted 0 ⟨buf', [], s.calls, []⟩) := by
  obtain ⟨hlt, f, hconn⟩ := h.serving c buf hserving
  obtain ⟨buf', hrun⟩ := readCallback_closed_eq (w := c) (s := ⟨buf, [], s.calls, []⟩)
    hconn.represents
  refine ⟨buf', hrun, ?_⟩
  have hreceived : (s.withWatcher c .deleted 0 ⟨buf', [], s.calls, []⟩).received = s.received := by
    funext c'
    by_cases hc : c' = c
    · subst hc
      rw [withWatcher_received_self]
      rfl
    · rw [withWatcher_received_ne _ _ _ _ hc]
  have hfifo : s.taken ++ s.queue ++ [] = s.calls.map routed := hpushing ▸ h.fifo
  have hwatched : ∀ c', Watched (s.withWatcher c .deleted 0 ⟨buf', [], s.calls, []⟩) c' := by
    intro c'
    by_cases hc : c' = c
    · subst hc
      refine ⟨fun hpending => ?_, fun buf'' hserving' => ?_, fun _ => ⟨hlt, hclosed, ?_⟩⟩
      · rw [withWatcher_watchers_self] at hpending
        cases hpending
      · rw [withWatcher_watchers_self] at hserving'
        cases hserving'
      · rw [hreceived]
        exact hall
    · exact (h.watched c').congr rfl (withWatcher_watchers_ne _ _ _ _ hc)
        (withWatcher_received_ne _ _ _ _ hc)
  refine ⟨h.carries, fun c' => (hwatched c').pending, fun c' => (hwatched c').serving,
    fun c' => (hwatched c').deleted, ?_, ?_, h.length_eq, hfifo, h.queue_le⟩
  all_goals rw [hreceived]
  · exact h.received_le
  · exact h.arrived_eq

/-- The router thread takes an item. -/
theorem take (h : Inv s) {item : RouterItem} {queue : List RouterItem}
    (hqueue : s.queue = item :: queue) :
    Inv { s with queue, taken := s.taken ++ [item] } := by
  refine ⟨h.carries, h.pending, h.serving, h.deleted, h.received_le, h.arrived_eq, h.length_eq,
    ?_, ?_⟩
  · have hfifo := h.fifo
    rw [hqueue] at hfifo
    show (s.taken ++ [item]) ++ queue ++ s.pushing = _
    rw [List.append_assoc s.taken]
    exact hfifo
  · have hle := h.queue_le
    rw [hqueue, List.length_cons] at hle
    exact Nat.le_of_succ_le hle

/-- The running callback pushes an item. -/
theorem push (h : Inv s) {item : RouterItem} {pushing : List RouterItem}
    (hpushing : s.pushing = item :: pushing) (hroom : s.queue.length < capacity) :
    Inv { s with queue := s.queue ++ [item], pushing } := by
  refine ⟨h.carries, h.pending, h.serving, h.deleted, h.received_le, h.arrived_eq, h.length_eq,
    ?_, ?_⟩
  · have hfifo := h.fifo
    rw [hpushing] at hfifo
    show s.taken ++ (s.queue ++ [item]) ++ pushing = _
    rw [← List.append_assoc s.taken, List.append_assoc _ [item]]
    exact hfifo
  · show (s.queue ++ [item]).length ≤ capacity
    rw [List.length_append, List.length_singleton]
    exact hroom

/-- **One step of the pipeline.** -/
theorem step (h : Inv s) {e : PipelineEvent δ} {s' : Pipeline δ} (hstep : Step K s e s')
    (hsized : Composing Sized s e) : Inv s' := by
  cases hstep with
  | daemon hdaemon => exact h.daemon hdaemon hsized
  | accept _ hpending hlt hnew => exact h.accept hpending hlt hnew
  | read hpushing hserving hadm hrun =>
    obtain ⟨sink, hrun', hinv⟩ := h.read hpushing hserving hadm
    obtain ⟨-, rfl⟩ := EStateM.Result.ok.inj (hrun.symm.trans hrun')
    exact hinv
  | close hpushing hserving hclosed hall hrun =>
    obtain ⟨buf, hrun', hinv⟩ := h.close hpushing hserving hclosed hall
    obtain ⟨-, rfl⟩ := EStateM.Result.ok.inj (hrun.symm.trans hrun')
    exact hinv
  | push hpushing hroom => exact h.push hpushing hroom
  | take hqueue => exact h.take hqueue

theorem reachable (h : ((system K).guarded (Composing Sized)).Reachable s) : Inv s := by
  refine h.invariant (I := Inv) (fun _ hs => initial hs) ?_
  rintro s e s' - hs ⟨hstep, hsized⟩
  exact hs.step hstep hsized

end Inv

/-! ## What handlers get -/

variable {K : δ → DaemonConfig} {s : Pipeline δ}

/-- What was taken is at the front of what was routed. -/
theorem handled_isPrefix (s : Pipeline δ) (c : δ × ℕ) : s.handled c <+: s.arrived c :=
  ((List.take_prefix _ _).filter _).map _

/-- When nothing is left to push or to take, it is all of it. -/
theorem Inv.handled_eq (h : Inv s) (hqueue : s.queue = []) (hpushing : s.pushing = [])
    (c : δ × ℕ) : s.handled c = s.arrived c := by
  have hlength := congrArg List.length h.fifo
  rw [hqueue, hpushing, List.append_nil, List.append_nil, List.length_map] at hlength
  rw [handled, hlength, List.take_length, arrived]

/-- What was taken, as strings. -/
theorem Inv.map_taken (h : Inv s) :
    s.taken.map RouterItem.message =
      (s.calls.take s.taken.length).map RouteCall.payload := by
  have hfront := congrArg (List.take s.taken.length) h.fifo
  rw [List.append_assoc, List.take_left, ← List.map_take] at hfront
  calc s.taken.map RouterItem.message
      = ((s.calls.take s.taken.length).map routed).map RouterItem.message := by rw [← hfront]
    _ = (s.calls.take s.taken.length).map RouteCall.payload := by
        rw [List.map_map]
        rfl

/-- If all of it is from one connection, it is what the router thread got from this one. -/
theorem Inv.map_taken_eq_handled (h : Inv s) {c : δ × ℕ}
    (hother : ∀ c' ≠ c, s.handled c' = []) : s.taken.map RouterItem.message = s.handled c := by
  rw [h.map_taken, handled, List.filter_eq_self.mpr]
  intro call hcall
  by_contra hne
  have hmem : call.payload ∈ s.handled call.watcher :=
    List.mem_map_of_mem (List.mem_filter.mpr ⟨hcall, decide_eq_true rfl⟩)
  rw [hother _ fun heq => hne (decide_eq_true heq)] at hmem
  cases hmem

/-- What has arrived was sent in full. -/
theorem Inv.arrived_isPrefix (h : Inv s) (c : δ × ℕ) :
    s.arrived c <+: sent (s.shared c) c.2 := by
  have hsent : sent (s.shared c) c.2 = wire.completed (payloads (s.shared c) c.2)
      (s.written c).length := ((h.carries c.1).written_isPrefix c.2).2.symm
  rw [h.arrived_eq, hsent]
  exact wire.completed_mono _ (h.received_le c)

/-- Once all is received, all that was sent in full has arrived. -/
theorem Inv.arrived_eq_sent (h : Inv s) {c : δ × ℕ}
    (hall : s.received c = (s.written c).length) : s.arrived c = sent (s.shared c) c.2 := by
  rw [h.arrived_eq, hall]
  exact ((h.carries c.1).written_isPrefix c.2).2

/-- What was sent in full on a connection was queued in that order. -/
theorem Inv.sent_inOrder (h : Inv s) (c : δ × ℕ) :
    InOrder (s.producers c.1).streamed (sent (s.shared c) c.2) := by
  have hcarries := h.carries c.1
  refine (hcarries.payloads_inOrder c.2).of_isPrefix ?_
  show sent (s.producers c.1).daemon.shared c.2 <+: _
  rw [← (hcarries.written_isPrefix c.2).2]
  exact wire.completed_isPrefix _ _

/-- So was what the router thread got from it. -/
theorem Inv.handled_inOrder (h : Inv s) (c : δ × ℕ) :
    InOrder (s.producers c.1).streamed (s.handled c) :=
  (h.sent_inOrder c).of_isPrefix ((s.handled_isPrefix c).trans (h.arrived_isPrefix c))

/-- **From collectors to handlers.** In every reachable state the router thread has taken what
was routed, first in, first out; and for every connection of every daemon, what it got from
the connection is the front of what the daemon has sent on it in full, which are payloads that
collectors of the daemon have composed, in the order in which they were queued. Once all that
was written is received and there is nothing left to push or to take, it is all that was sent
in full. -/
theorem handled_in_order (h : ((system K).guarded (Composing Sized)).Reachable s) :
    s.taken ++ s.queue ++ s.pushing = s.calls.map (fun call => ⟨call.length, call.payload⟩) ∧
    s.queue.length ≤ 100 ∧
    ∀ c : δ × ℕ, s.handled c <+: sent (s.shared c) c.2 ∧
      InOrder (s.producers c.1).streamed (sent (s.shared c) c.2) ∧
      (s.received c = (s.written c).length → s.queue = [] → s.pushing = [] →
        s.handled c = sent (s.shared c) c.2) := by
  have hinv := Inv.reachable h
  refine ⟨hinv.fifo, hinv.queue_le, fun c => ⟨?_, hinv.sent_inOrder c, ?_⟩⟩
  · exact (s.handled_isPrefix c).trans (hinv.arrived_isPrefix c)
  · intro hall hqueue hpushing
    rw [hinv.handled_eq hqueue hpushing, hinv.arrived_eq_sent hall]

/-! ## Nothing is lost -/

/-- The server does something. -/
def OfServer : PipelineEvent δ → Prop
  | .daemon _ _ => False
  | _ => True

omit [DecidableEq δ] in
/-- What the server does sends nothing. -/
theorem OfServer.composing {ok : List UInt8 → Prop} {e : PipelineEvent δ} (h : OfServer e)
    (s : Pipeline δ) : Composing ok s e := by
  cases e with
  | daemon => exact absurd h id
  | _ => trivial

/-- Between two callbacks, the server can do something about a connection of which not all was
received. -/
theorem Inv.exists_step (h : Inv s) (hpushing : s.pushing = []) {c : δ × ℕ}
    (hc : c.2 < (s.shared c).conns.length) (hleft : s.received c < (s.written c).length) :
    (∃ buf, s.watchers c = .pending ∧ Step K s (.accept c) (s.accepted c buf)) ∨
    ∃ buf sink, s.watchers c = .serving buf ∧
      Step K s (.read c 1) (s.withWatcher c (.serving sink.buf) 1 sink) := by
  cases hwatcher : s.watchers c with
  | pending =>
    obtain ⟨buf, hnew, -, -⟩ := ByteBuffer.new_represents (n := 102400) (by omega) (by omega)
    exact .inl ⟨buf, rfl, .accept hpushing hwatcher hc hnew⟩
  | serving buf =>
    obtain ⟨-, f, hconn⟩ := h.serving c buf hwatcher
    obtain ⟨len, hoffered, hpos, -⟩ := hconn.offered
    have hadm : Admissible s c buf 1 := ⟨le_refl 1, ⟨len, hoffered, hpos⟩, hleft⟩
    obtain ⟨sink, hrun, -⟩ := h.read hpushing hwatcher hadm
    exact .inr ⟨buf, sink, rfl, .read hpushing hwatcher hadm hrun⟩
  | deleted =>
    obtain ⟨-, -, hall⟩ := h.deleted c hwatcher
    omega

/-- The server gets somewhere by itself. -/
def Leads (K : δ → DaemonConfig) (s s' : Pipeline δ) : Prop :=
  ∃ es, (∀ e ∈ es, OfServer e) ∧ (system K).Run s es s' ∧ s'.producers = s.producers

namespace Leads

variable {s' s'' : Pipeline δ}

theorem refl (s : Pipeline δ) : Leads K s s := ⟨[], nofun, .nil, rfl⟩

theorem trans (h : Leads K s s') (h' : Leads K s' s'') : Leads K s s'' := by
  obtain ⟨es, hes, hrun, hsame⟩ := h
  obtain ⟨es', hes', hrun', hsame'⟩ := h'
  refine ⟨es ++ es', ?_, hrun.append hrun', hsame'.trans hsame⟩
  intro e he
  rcases List.mem_append.mp he with he | he
  · exact hes e he
  · exact hes' e he

theorem of_step {e : PipelineEvent δ} (he : OfServer e) (hstep : Step K s e s')
    (hsame : s'.producers = s.producers) : Leads K s s' := by
  refine ⟨[e], ?_, TransitionSystem.Run.nil.snoc hstep, hsame⟩
  intro e' he'
  obtain rfl := List.mem_singleton.mp he'
  exact he

/-- What each step of the server keeps. -/
theorem preserves {I : Pipeline δ → Prop} (h : Leads K s s') (hs : I s)
    (hstep : ∀ s e s', OfServer e → Step K s e s' → I s → I s') : I s' := by
  obtain ⟨es, hes, hrun, -⟩ := h
  induction hrun with
  | nil => exact hs
  | @snoc es t u e _ hnext ih =>
    obtain ⟨hbefore, he⟩ := List.forall_mem_append.mp hes
    exact hstep t e u (he e (List.mem_singleton_self e)) hnext (ih hbefore)

theorem inv (h : Leads K s s') (hs : Inv s) : Inv s' :=
  h.preserves hs fun s _ _ he hstep hs => hs.step hstep (he.composing s)

/-- What daemons queue is of no concern to it. -/
theorem guarded {ok : List UInt8 → Prop} (h : Leads K s s')
    (hs : ((system K).guarded (Composing ok)).Reachable s) :
    ((system K).guarded (Composing ok)).Reachable s' :=
  h.preserves hs fun s _ _ he hstep hs => hs.next ⟨hstep, he.composing s⟩

theorem shared_eq (h : Leads K s s') (c : δ × ℕ) : s'.shared c = s.shared c := by
  obtain ⟨-, -, -, hsame⟩ := h
  rw [shared, hsame, shared]

theorem written_eq (h : Leads K s s') (c : δ × ℕ) : s'.written c = s.written c := by
  rw [written, h.shared_eq, written]

/-- What was received stays so. -/
theorem received_le (h : Leads K s s') (c : δ × ℕ) : s.received c ≤ s'.received c := by
  refine h.preserves (I := fun t => s.received c ≤ t.received c) le_rfl ?_
  intro t e u he hstep ht
  have hadd : ∀ (c' : δ × ℕ) (w : Watcher) (n : ℕ) (sink : SinkState (δ × ℕ)),
      t.received c ≤ (t.withWatcher c' w n sink).received c := by
    intro c' w n sink
    by_cases hc : c = c'
    · subst hc
      rw [withWatcher_received_self]
      exact Nat.le_add_right _ _
    · rw [withWatcher_received_ne _ _ _ _ hc]
  cases hstep with
  | daemon => exact absurd he id
  | accept | push | take => exact ht
  | read | close => exact ht.trans (hadd ..)

/-- What was received in full stays so. -/
theorem received_eq (h : Leads K s s') (hs : Inv s) {c : δ × ℕ}
    (hall : s.received c = (s.written c).length) : s'.received c = (s'.written c).length := by
  refine le_antisymm ((h.inv hs).received_le c) ?_
  rw [h.written_eq, ← hall]
  exact h.received_le c

end Leads

/-- The router thread can empty the queue. -/
theorem exists_emptied (s : Pipeline δ) :
    ∃ s', Leads K s s' ∧ s'.queue = [] ∧ s'.pushing = s.pushing ∧ s'.received = s.received ∧
      s'.watchers = s.watchers := by
  obtain ⟨queue, hqueue⟩ : ∃ queue, s.queue = queue := ⟨_, rfl⟩
  induction queue generalizing s with
  | nil => exact ⟨s, .refl s, hqueue, rfl, rfl, rfl⟩
  | cons item queue ih =>
    have hlead : Leads K s { s with queue, taken := s.taken ++ [item] } :=
      .of_step (e := .take) trivial (.take hqueue) rfl
    obtain ⟨s', hlead', hempty, hsame⟩ := ih { s with queue, taken := s.taken ++ [item] } rfl
    exact ⟨s', hlead.trans hlead', hempty, hsame⟩

/-- The running callback can end, and the router thread can then empty the queue. -/
theorem exists_drained (s : Pipeline δ) :
    ∃ s', Leads K s s' ∧ s'.queue = [] ∧ s'.pushing = [] ∧ s'.received = s.received ∧
      s'.watchers = s.watchers := by
  obtain ⟨pushing, hpushing⟩ : ∃ pushing, s.pushing = pushing := ⟨_, rfl⟩
  induction pushing generalizing s with
  | nil =>
    obtain ⟨s', hlead, hqueue, hsame, hrest⟩ := exists_emptied (K := K) s
    exact ⟨s', hlead, hqueue, hsame.trans hpushing, hrest⟩
  | cons item pushing ih =>
    obtain ⟨s₁, hlead₁, hqueue, hsame, hreceived, hwatchers⟩ := exists_emptied (K := K) s
    have hroom : s₁.queue.length < capacity := by
      rw [hqueue]
      decide
    have hlead₂ : Leads K s₁ { s₁ with queue := s₁.queue ++ [item], pushing } :=
      .of_step (e := .push) trivial (.push (hsame.trans hpushing) hroom) rfl
    obtain ⟨s₃, hlead₃, hqueue₃, hpushing₃, hreceived₃, hwatchers₃⟩ :=
      ih { s₁ with queue := s₁.queue ++ [item], pushing } rfl
    exact ⟨s₃, hlead₁.trans (hlead₂.trans hlead₃), hqueue₃, hpushing₃,
      hreceived₃.trans hreceived, hwatchers₃.trans hwatchers⟩

/-- The server can receive what was written to a connection that it has accepted, byte by
byte. -/
theorem Inv.exists_received_of_accepted (h : Inv s) {c : δ × ℕ}
    (hc : c.2 < (s.shared c).conns.length) (hnot : s.watchers c ≠ .pending) {left : ℕ}
    (hleft : left = (s.written c).length - s.received c) :
    ∃ s', Leads K s s' ∧ s'.received c = (s'.written c).length := by
  induction left generalizing s with
  | zero =>
    have hle := h.received_le c
    exact ⟨s, .refl s, by omega⟩
  | succ left ih =>
    obtain ⟨s₁, hlead₁, -, hpushing, hreceived, hwatchers⟩ := exists_drained (K := K) s
    have hwritten := congrArg List.length (hlead₁.written_eq c)
    rw [← hlead₁.shared_eq c] at hc
    rw [← hwatchers] at hnot
    rw [← hreceived] at hleft
    rcases (hlead₁.inv h).exists_step (K := K) hpushing hc (by omega) with
      ⟨buf, hpending, -⟩ | ⟨buf, sink, -, hstep⟩
    · exact absurd hpending hnot
    · have hlead : Leads K s₁ _ := .of_step (e := .read c 1) trivial hstep rfl
      obtain ⟨s', hlead', hall⟩ := ih (hlead.inv (hlead₁.inv h)) hc
        (by rw [withWatcher_watchers_self]; exact nofun)
        (by
          rw [withWatcher_received_self]
          show left = (s₁.written c).length - _
          omega)
      exact ⟨s', hlead₁.trans (hlead.trans hlead'), hall⟩

/-- Nothing was written to a connection that was not made. -/
theorem Inv.written_eq_nil (h : Inv s) {c : δ × ℕ} (hc : ¬c.2 < (s.shared c).conns.length) :
    s.written c = [] := by
  have hnone : (s.shared c).deliveries.filter (·.conn = c.2) = [] := by
    refine List.filter_eq_nil_iff.mpr fun w hw hconn => hc ?_
    rw [← of_decide_eq_true hconn]
    exact ((h.carries c.1).delivered w hw).2.1
  rw [written, Streamer.written, hnone, List.flatMap_nil]

/-- The server can receive what was written to any connection. -/
theorem Inv.exists_received (h : Inv s) (c : δ × ℕ) :
    ∃ s', Leads K s s' ∧ s'.received c = (s'.written c).length := by
  by_cases hc : c.2 < (s.shared c).conns.length
  · by_cases hpending : s.watchers c = .pending
    · obtain ⟨s₁, hlead₁, -, hpushing, -, hwatchers⟩ := exists_drained (K := K) s
      obtain ⟨buf, hnew, -, -⟩ := ByteBuffer.new_represents (n := 102400) (by omega) (by omega)
      rw [← hlead₁.shared_eq c] at hc
      rw [← hwatchers] at hpending
      have hlead : Leads K s₁ (s₁.accepted c buf) := .of_step (e := .accept c) trivial
        (.accept hpushing hpending hc hnew) rfl
      obtain ⟨s', hlead', hall⟩ := (hlead.inv (hlead₁.inv h)).exists_received_of_accepted (K := K)
        hc (by rw [accepted_watchers_self]; exact nofun) rfl
      exact ⟨s', hlead₁.trans (hlead.trans hlead'), hall⟩
    · exact h.exists_received_of_accepted hc hpending rfl
  · have hle := h.received_le c
    rw [h.written_eq_nil hc, List.length_nil, Nat.le_zero] at hle
    exact ⟨s, .refl s, by rw [hle, h.written_eq_nil hc, List.length_nil]⟩

/-- One connection after the other, it can receive what was written to some of them. -/
theorem Inv.exists_received_finset (h : Inv s) (cs : Finset (δ × ℕ)) :
    ∃ s', Leads K s s' ∧ ∀ c ∈ cs, s'.received c = (s'.written c).length := by
  induction cs using Finset.induction_on with
  | empty => exact ⟨s, .refl s, fun c hc => absurd hc (Finset.notMem_empty c)⟩
  | insert c cs _ ih =>
    obtain ⟨s₁, hlead₁, hall₁⟩ := ih
    have hinv₁ := hlead₁.inv h
    obtain ⟨s₂, hlead₂, hall₂⟩ := hinv₁.exists_received (K := K) c
    refine ⟨s₂, hlead₁.trans hlead₂, fun c' hc' => ?_⟩
    rcases Finset.mem_insert.mp hc' with rfl | hc'
    · exact hall₂
    · exact hlead₂.received_eq hinv₁ (hall₁ c' hc')

/-- The server can receive all that was written. -/
theorem Inv.exists_all_received [Fintype δ] (h : Inv s) :
    ∃ s', Leads K s s' ∧ ∀ c, s'.received c = (s'.written c).length := by
  -- all connections are among these
  obtain ⟨s', hlead, hall⟩ := h.exists_received_finset (K := K) (Finset.univ ×ˢ
    Finset.range (Finset.univ.sup fun i => (s.producers i).daemon.shared.conns.length))
  refine ⟨s', hlead, fun c => ?_⟩
  by_cases hc : c.2 < (s.shared c).conns.length
  · refine hall c (Finset.mem_product.mpr ⟨Finset.mem_univ _, Finset.mem_range.mpr ?_⟩)
    exact hc.trans_le (Finset.le_sup (f := fun i => (s.producers i).daemon.shared.conns.length)
      (Finset.mem_univ c.1))
  · have hle := h.received_le c
    rw [h.written_eq_nil hc, List.length_nil, Nat.le_zero] at hle
    refine hlead.received_eq h ?_
    rw [hle, h.written_eq_nil hc, List.length_nil]

/-- When the server has nothing to do, all that was sent in full was handled. -/
theorem Inv.handled_of_idle (hinv : Inv s) (hidle : ∀ e s', OfServer e → ¬Step K s e s')
    (c : δ × ℕ) : s.handled c = sent (s.shared c) c.2 := by
  have hqueue : s.queue = [] := by
    cases hq : s.queue with
    | nil => rfl
    | cons item queue => exact absurd (.take hq) (hidle .take _ trivial)
  have hpushing : s.pushing = [] := by
    cases hp : s.pushing with
    | nil => rfl
    | cons item pushing =>
      have hroom : s.queue.length < capacity := by
        rw [hqueue]
        decide
      exact absurd (.push hp hroom) (hidle .push _ trivial)
  have hall : s.received c = (s.written c).length := by
    by_cases hc : c.2 < (s.shared c).conns.length
    · by_contra hne
      have hleft := lt_of_le_of_ne (hinv.received_le c) hne
      rcases hinv.exists_step (K := K) hpushing hc hleft with
        ⟨buf, -, hstep⟩ | ⟨buf, sink, -, hstep⟩
      · exact hidle (.accept c) _ trivial hstep
      · exact hidle (.read c 1) _ trivial hstep
    · have hle := hinv.received_le c
      rw [hinv.written_eq_nil hc, List.length_nil, Nat.le_zero] at hle
      rw [hle, hinv.written_eq_nil hc, List.length_nil]
  rw [hinv.handled_eq hqueue hpushing, hinv.arrived_eq_sent hall]

/-- The server can handle all that was sent. -/
theorem Inv.exists_handled [Fintype δ] (hinv : Inv s) :
    ∃ s', Leads K s s' ∧ ∀ c, s'.handled c = sent (s.shared c) c.2 := by
  obtain ⟨s₁, hlead₁, hall⟩ := hinv.exists_all_received (K := K)
  obtain ⟨s₂, hlead₂, hqueue, hpushing, -⟩ := exists_drained (K := K) s₁
  have hinv₁ := hlead₁.inv hinv
  have hlead := hlead₁.trans hlead₂
  refine ⟨s₂, hlead, fun c => ?_⟩
  rw [(hlead₂.inv hinv₁).handled_eq hqueue hpushing,
    (hlead₂.inv hinv₁).arrived_eq_sent (hlead₂.received_eq hinv₁ (hall c)), hlead.shared_eq]

/-- One daemon, one collector, one server. -/
def oneDaemon : Unit → DaemonConfig := fun _ =>
  Streamer.posix ["10.0.0.1"] fun _ => [("tile", 80)]

/-- Before any connection. -/
def start : Pipeline Unit where
  producers _ := ⟨⟨Streamer.initial, .idle, .idle⟩, []⟩
  watchers _ := .pending
  received _ := 0
  queue := []
  pushing := []
  calls := []
  taken := []

/-- The item of the collector. -/
def itemOf (payload : List UInt8) (number : ℕ) : QueuedItem where
  item := { StreamItem.ofPayload payload with serversSockFd := [3] }
  collector := 0
  number

theorem payload_itemOf (payload : List UInt8) (number : ℕ) :
    (itemOf payload number).item.payload = payload := payload_ofPayload payload

/-- One `send` takes all of it. -/
theorem sendAllTo_itemOf {d : Streamer} (hconn : d.connOf 3 = some 0) (payload : List UInt8)
    (number : ℕ) :
    d.sendAllTo (itemOf payload number) 3 [some (payload.length + 3)] =
      (payload.length + 4,
        d.withDelivery 0 (itemOf payload number) (itemOf payload number).item.message) := by
  have hlength : (itemOf payload number).item.message.length = payload.length + 4 := by
    show (wire.encode payload).length = _
    rw [wire.length_encode, wire_width, Nat.add_comm]
  have hnat : (itemOf payload number).item.messageLength.toNat = payload.length + 4 := by
    show ((payload.length : ℤ) + 4).toNat = _
    omega
  rw [Streamer.sendAllTo, hconn]
  dsimp only
  rw [hnat, Streamer.sendAll, if_pos rfl]
  dsimp only
  rw [Nat.sub_zero, Nat.min_self, Nat.zero_add, if_neg (lt_irrefl _), List.drop_zero, ← hlength,
    List.take_length]

/-- A message is composed and sent. -/
theorem exists_sent {ok : List UInt8 → Prop} {s : Pipeline Unit}
    (hs : ((system oneDaemon).guarded (Composing ok)).Reachable s) {payload : List UInt8}
    (hok : ok payload) (hle : payload.length ≤ 2 ^ 29) {d d' : Streamer} {o : SetupOutcome}
    (hdaemon : (s.producers ()).daemon = ⟨d, .idle, .idle⟩)
    (halloc : (oneDaemon ()).allocates d.fds o.fd)
    (hsetup : Streamer.setupStream (oneDaemon ()) d ("tile", 80) o = (d', some 3))
    (hconn : d'.connOf 3 = some 0) (hqueue : d'.queue = []) :
    ∃ s', ((system oneDaemon).guarded (Composing ok)).Reachable s' ∧
      s'.producers () =
        ⟨⟨{ d'.withDelivery 0 (itemOf payload d'.produced)
              (itemOf payload d'.produced).item.message with
            queue := [], produced := d'.produced + 1 }, .idle, .idle⟩,
          (s.producers ()).streamed ++ [(0, payload)]⟩ := by
  have hnext : ∀ {s : Pipeline Unit} {p : Producer} (p' : Producer) {a : Action},
      ((system oneDaemon).guarded (Composing ok)).Reachable s ∧ s.producers () = p →
      Daemon.Step (oneDaemon ()) p.daemon a p'.daemon → p'.streamed = p.log a → Composes ok a →
      (a = .stream → p.daemon.shared.queue.length < Producer.capacity) →
      ((system oneDaemon).guarded (Composing ok)).Reachable (s.withProducer () p') ∧
        (s.withProducer () p').producers () = p' := by
    rintro s p p' a ⟨hs, rfl⟩ hstep hlog hcomposes hroom
    exact ⟨hs.next ⟨.daemon ⟨hstep, hlog, hroom⟩, hcomposes⟩, withProducer_producers_self ..⟩
  have hcompose := hnext (a := .compose 0 payload)
    ⟨⟨d, .settingUp 0 (.ofPayload payload) [("tile", 80)], .idle⟩, (s.producers ()).streamed⟩
    ⟨hs, rfl⟩ (by rw [hdaemon]; exact .compose (StreamItem.compose_ok (by omega))) rfl hok
    (fun h => by cases h)
  have hstep := @Daemon.Step.setupStream (oneDaemon ()) d .idle 0 (.ofPayload payload)
    ("tile", 80) [] o halloc
  rw [hsetup] at hstep
  have hset := hnext (a := .setupStream o)
    ⟨⟨d', .settingUp 0 (itemOf payload 0).item [], .idle⟩, (s.producers ()).streamed⟩ hcompose
    hstep rfl trivial (fun h => by cases h)
  have hstream := hnext (a := .stream)
    ⟨⟨{ d' with queue := [itemOf payload d'.produced], produced := d'.produced + 1 }, .idle,
      .idle⟩, (s.producers ()).streamed ++ [(0, payload)]⟩ hset
    (by
      have hstep := @Daemon.Step.stream (oneDaemon ()) d' .idle 0 (itemOf payload 0).item
      rw [Streamer.enqueue, hqueue] at hstep
      exact hstep)
    (by
      show _ = (s.producers ()).streamed ++ [(0, (itemOf payload 0).item.payload)]
      rw [payload_itemOf])
    trivial
    (fun _ => by
      show d'.queue.length < _
      rw [hqueue]
      decide)
  have hpop := hnext (a := .pop)
    ⟨⟨{ d' with queue := [], produced := d'.produced + 1 }, .idle,
      .sending (itemOf payload d'.produced) 3 []⟩, (s.producers ()).streamed ++ [(0, payload)]⟩
    hstream (@Daemon.Step.pop (oneDaemon ())
      { d' with queue := [itemOf payload d'.produced], produced := d'.produced + 1 } .idle
      (itemOf payload d'.produced) [] rfl) rfl trivial (fun h => by cases h)
  have hall := sendAllTo_itemOf (d := { d' with queue := [], produced := d'.produced + 1 }) hconn
    payload d'.produced
  have hsend := @Daemon.Step.sent (oneDaemon ())
    { d' with queue := [], produced := d'.produced + 1 } .idle (itemOf payload d'.produced) 3 []
    [some (payload.length + 3)] (by
      rw [hall]
      rfl)
  rw [hall] at hsend
  exact ⟨_, hnext ⟨_, (s.producers ()).streamed ++ [(0, payload)]⟩ hpop hsend rfl trivial
    (fun h => by cases h)⟩

/-- Two messages were composed, and sent in full. -/
theorem reachable_sent {ok : List UInt8 → Prop} {p q : List UInt8} (hp : ok p) (hq : ok q)
    (hpq : p.length < 1000 ∧ q.length < 1000) :
    ∃ s, ((system oneDaemon).guarded (Composing ok)).Reachable s ∧
      (s.producers ()).streamed = [(0, p), (0, q)] ∧ sent (s.shared ((), 0)) 0 = [p, q] ∧
      ∀ c ≠ ((), 0), sent (s.shared c) c.2 = [] := by
  have hstart : ((system oneDaemon).guarded (Composing ok)).Reachable start :=
    .start ⟨fun _ => ⟨⟨_, Streamer.started_initial, rfl⟩, rfl⟩, fun _ => rfl, fun _ => rfl, rfl,
      rfl, rfl, rfl⟩
  obtain ⟨s, hs, hproducer⟩ := exists_sent (o := ⟨"10.0.0.1", "", 3, true⟩) hstart hp (by omega)
    rfl ⟨rfl, by decide⟩ rfl rfl rfl
  have halloc : (oneDaemon ()).allocates (Streamer.setupStream (oneDaemon ()) Streamer.initial
      ("tile", 80) ⟨"10.0.0.1", "", 3, true⟩).1.fds 4 := ⟨rfl, by decide⟩
  obtain ⟨s', hs', hproducer'⟩ := exists_sent (o := ⟨"10.0.0.1", "", 4, true⟩) hs hq (by omega)
    (congrArg Producer.daemon hproducer) halloc rfl rfl rfl
  have hdeliveries : ∀ c, (s'.shared c).deliveries =
      [⟨0, itemOf p 0, (itemOf p 0).item.message⟩, ⟨0, itemOf q 1, (itemOf q 1).item.message⟩] := by
    intro c
    rw [shared, hproducer']
    rfl
  refine ⟨s', hs', ?_, ?_, ?_⟩
  · rw [hproducer', hproducer]
    rfl
  · simp [sent, hdeliveries, payload_itemOf]
  · rintro ⟨i, c⟩ hc
    have hne : 0 ≠ c := fun heq => hc (by rw [heq])
    simp [sent, hdeliveries, hne]

/-- The two messages -/
def twoMessages : List (List UInt8) := [[0x0A, 1, 0x6B, 0x12, 1, 7], [0x0A, 1, 0x6B, 0x12, 1, 8]]

theorem handled_in_order_two_messages :
    ∃ s, ((system oneDaemon).guarded (Composing Sized)).Reachable s ∧
      s.handled ((), 0) = twoMessages ∧ InOrder (s.producers ()).streamed twoMessages := by
  obtain ⟨s, hs, -, hsent, -⟩ := @reachable_sent Sized [0x0A, 1, 0x6B, 0x12, 1, 7]
    [0x0A, 1, 0x6B, 0x12, 1, 8] ⟨by decide, by decide⟩ ⟨by decide, by decide⟩ (by decide)
  obtain ⟨s', hlead, hhandled⟩ := (Inv.reachable hs).exists_handled (K := oneDaemon)
  have hs' := hlead.guarded hs
  have horder := ((handled_in_order hs').2.2 ((), 0)).2.1
  rw [hlead.shared_eq, hsent] at horder
  exact ⟨s', hs', (hhandled _).trans hsent, horder⟩

end Pipeline

end WallMon
