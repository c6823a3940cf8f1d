import WallMon.Alignment
import WallMon.Server
import WallMon.Threads

/-!
# What the connections of a daemon carry

The two threads of the daemon call by call, with a history of the items that were queued.
A connection carries complete items and at most one cut one, its last. The items on it are
among those that were queued, in the order in which they were queued: the queue is first in,
first out, and one thread takes from it.

The same item can come twice on a connection. Between two calls of `SetupStream` for one
item the streamer thread may close the descriptor that the first has returned, and the second
may get that number for a new connection.
-/

namespace WallMon

/-- The payload behind the header. -/
def StreamItem.payload (item : StreamItem) : List UInt8 := item.message.drop 4

/-- A daemon, and the items its callbacks have queued: the collector and the payload. -/
structure Producer where
  /-- the two threads -/
  daemon : Daemon
  /-- history: what was queued -/
  streamed : List (ℕ × List UInt8)

namespace Producer

open Streamer

/-- The history after an action. -/
def log (p : Producer) : Action → List (ℕ × List UInt8)
  | .stream =>
    match p.daemon.timer with
    | .settingUp collector item [] => p.streamed ++ [(collector, item.payload)]
    | _ => p.streamed
  | _ => p.streamed

/-- A payload that is not empty and has at most `2^29` bytes. -/
def Sized (payload : List UInt8) : Prop := 1 ≤ payload.length ∧ payload.length ≤ 2 ^ 29

/-- The payload of a callback is of the kind. -/
def Composes (ok : List UInt8 → Prop) : Action → Prop
  | .compose _ payload => ok payload
  | _ => True

theorem Composes.mono {ok ok' : List UInt8 → Prop} (himp : ∀ payload, ok payload → ok' payload)
    {a : Action} (h : Composes ok a) : Composes ok' a := by
  cases a with
  | compose collector payload => exact himp payload h
  | _ => trivial

/-- Items that the queue between the threads can hold. -/
def capacity : ℕ := 100

/-- One step of one of the threads. `Push` waits while the queue is full. -/
def Step (K : DaemonConfig) (p : Producer) (a : Action) (p' : Producer) : Prop :=
  Daemon.Step K p.daemon a p'.daemon ∧ p'.streamed = p.log a ∧
    (a = .stream → p.daemon.shared.queue.length < capacity)

/-- A daemon that has not made any connection yet. -/
def Fresh (p : Producer) : Prop :=
  (∃ d, Started d ∧ p.daemon = ⟨d, .idle, .idle⟩) ∧ p.streamed = []

/-! ## Items -/

/-- An item as a callback composes it. -/
structure Sendable (item : StreamItem) : Prop where
  /-- a header and the payload -/
  message_eq : item.message = wire.encode item.payload
  /-- not empty -/
  length_pos : 1 ≤ item.payload.length
  /-- not too long -/
  length_le : item.payload.length ≤ 2 ^ 29
  /-- accounts for both -/
  messageLength_eq : item.messageLength = item.message.length

@[simp] theorem payload_withFds (item : StreamItem) (fds : List ℕ) :
    ({ item with serversSockFd := fds } : StreamItem).payload = item.payload := rfl

@[simp] theorem payload_ofPayload (payload : List UInt8) :
    (StreamItem.ofPayload payload).payload = payload := by
  show (htonl payload.length ++ payload).drop 4 = payload
  rw [List.drop_append_of_le_length (length_htonl _).ge,
    List.drop_of_length_le (length_htonl _).le, List.nil_append]

theorem sendable_of_compose {payload : List UInt8} {item : StreamItem}
    (h : StreamItem.compose payload = .ok item) (hpos : 1 ≤ payload.length)
    (hle : payload.length ≤ 2 ^ 29) : Sendable item := by
  obtain ⟨-, rfl⟩ := StreamItem.compose_eq_ok h
  refine ⟨?_, ?_, ?_, ?_⟩
  · rw [payload_ofPayload]
    rfl
  · rwa [payload_ofPayload]
  · rwa [payload_ofPayload]
  · show (payload.length : ℤ) + 4 = (wire.encode payload).length
    rw [wire.length_encode, wire_width]
    omega

theorem Sendable.withFds {item : StreamItem} (h : Sendable item) (fds : List ℕ) :
    Sendable { item with serversSockFd := fds } :=
  ⟨h.message_eq, h.length_pos, h.length_le, h.messageLength_eq⟩

theorem Sendable.wire {item : StreamItem} (h : Sendable item) : wire.Sendable item.payload := by
  have hle := h.length_le
  exact ⟨h.length_pos, by rw [wire_maxLength]; omega⟩

/-- The item is one of those that were queued: the one of its number. -/
def Recorded (streamed : List (ℕ × List UInt8)) (q : QueuedItem) : Prop :=
  streamed[q.number]? = some (q.collector, q.item.payload) ∧ Sendable q.item

theorem Recorded.append {streamed : List (ℕ × List UInt8)} {q : QueuedItem}
    (h : Recorded streamed q) (more : List (ℕ × List UInt8)) : Recorded (streamed ++ more) q := by
  obtain ⟨hget, hitem⟩ := h
  refine ⟨?_, hitem⟩
  rw [List.getElem?_append_left (List.getElem?_eq_some_iff.mp hget).1]
  exact hget

theorem Recorded.number_lt {streamed : List (ℕ × List UInt8)} {q : QueuedItem}
    (h : Recorded streamed q) : q.number < streamed.length :=
  (List.getElem?_eq_some_iff.mp h.1).1

/-! ## The invariant -/

/-- The item that the streamer thread is at. -/
def current : StreamerThread → Option QueuedItem
  | .idle => none
  | .sending q _ _ => some q
  | .removing q _ _ => some q

/-- The descriptor that the streamer thread is about to close. -/
def condemned : StreamerThread → Option ℕ
  | .removing _ sockFd _ => some sockFd
  | _ => none

@[simp] theorem condemned_turnTo (q : QueuedItem) (sockFds : List ℕ) :
    condemned (.turnTo q sockFds) = none := by
  cases sockFds <;> rfl

/-- The item at hand is `q`, or none. -/
theorem current_turnTo (q : QueuedItem) (sockFds : List ℕ) :
    current (.turnTo q sockFds) = none ∨ current (.turnTo q sockFds) = some q := by
  cases sockFds with
  | nil => exact .inl rfl
  | cons sockFd sockFds => exact .inr rfl

/-- The numbers of the items that were sent, the one that is being sent, and those that wait. -/
def numbers (t : Daemon) : List ℕ :=
  t.shared.deliveries.map (·.queued.number) ++ (current t.sender).toList.map (·.number) ++
    t.shared.queue.map (·.number)

/-- What holds of a daemon between any two calls. -/
structure Carries (p : Producer) : Prop where
  /-- map and descriptors -/
  consistent : Consistent p.daemon.shared
  /-- items are counted as they are queued -/
  produced_eq : p.daemon.shared.produced = p.streamed.length
  /-- the item of a callback -/
  composed : ∀ collector item servers, p.daemon.timer = .settingUp collector item servers →
    Sendable item
  /-- what waits was queued -/
  queued : ∀ q ∈ p.daemon.shared.queue, Recorded p.streamed q
  /-- so was what is being sent -/
  sending : ∀ q, current p.daemon.sender = some q → Recorded p.streamed q
  /-- and what was sent -/
  delivered : ∀ w ∈ p.daemon.shared.deliveries, Recorded p.streamed w.queued ∧
    w.conn < p.daemon.shared.conns.length ∧ w.bytes <+: w.queued.item.message
  /-- a connection whose descriptor is to stay got complete items -/
  intact : ∀ fd c, p.daemon.shared.fds fd = some (.connected c) →
    condemned p.daemon.sender ≠ some fd →
    ∀ w ∈ p.daemon.shared.deliveries, w.conn = c → w.bytes = w.queued.item.message
  /-- a cut item is the last on its connection -/
  last : p.daemon.shared.deliveries.Pairwise fun w w' =>
    w.bytes ≠ w.queued.item.message → w'.conn ≠ w.conn
  /-- first in, first out -/
  sorted : (numbers p.daemon).Pairwise (· ≤ ·)

namespace Carries

variable {K : DaemonConfig} {p : Producer}

theorem fresh (h : p.Fresh) : Carries p := by
  obtain ⟨⟨d, hd, hdaemon⟩, hstreamed⟩ := h
  obtain ⟨daemon, streamed⟩ := p
  obtain rfl : daemon = ⟨d, .idle, .idle⟩ := hdaemon
  obtain rfl : streamed = [] := hstreamed
  refine ⟨.started hd, hd.produced, nofun, ?_, nofun, ?_, ?_, ?_, ?_⟩
  · intro q hq
    rw [hd.queue] at hq
    cases hq
  · intro w hw
    rw [hd.deliveries] at hw
    cases hw
  · intro fd c hfd
    exact absurd hfd (hd.fds fd c)
  · rw [hd.deliveries]
    exact List.Pairwise.nil
  · rw [numbers, hd.deliveries, hd.queue]
    exact List.Pairwise.nil

/-- A callback starts. -/
theorem compose {shared : Streamer} {sender : StreamerThread} {timer : TimerThread}
    {streamed : List (ℕ × List UInt8)} {collector : ℕ} {item : StreamItem}
    {servers : List ServerAddress} (h : Carries ⟨⟨shared, timer, sender⟩, streamed⟩)
    (hitem : Sendable item) :
    Carries ⟨⟨shared, .settingUp collector item servers, sender⟩, streamed⟩ := by
  refine ⟨h.consistent, h.produced_eq, ?_, h.queued, h.sending, h.delivered, h.intact, h.last,
    h.sorted⟩
  rintro _ _ _ heq
  obtain ⟨-, rfl, -⟩ := TimerThread.settingUp.inj heq
  exact hitem

/-- A connection that `SetupStream` makes has carried nothing. -/
theorem setupStream {shared : Streamer} {sender : StreamerThread} {timer timer' : TimerThread}
    {streamed : List (ℕ × List UInt8)} {server : ServerAddress} {o : SetupOutcome}
    (h : Carries ⟨⟨shared, timer, sender⟩, streamed⟩) (halloc : K.allocates shared.fds o.fd)
    (hcomposed : ∀ collector item servers, timer' = .settingUp collector item servers →
      Sendable item) :
    Carries ⟨⟨(Streamer.setupStream K shared server o).1, timer', sender⟩, streamed⟩ := by
  have hext := setupStream_extends K server halloc
  have hconsistent : Consistent shared := h.consistent
  have hproduced : (Streamer.setupStream K shared server o).1.produced = shared.produced :=
    Daemon.setupStreams_produced [(server, o)] shared
  refine ⟨hconsistent.setupStream K halloc, hproduced.trans h.produced_eq, hcomposed, ?_,
    h.sending, ?_, ?_, ?_, ?_⟩
  · intro q hq
    exact h.queued q (hext.queue ▸ hq)
  · intro w hw
    rw [hext.deliveries] at hw
    obtain ⟨hrecorded, hlt, hpre⟩ := h.delivered w hw
    exact ⟨hrecorded, lt_of_lt_of_le hlt hext.conns.length_le, hpre⟩
  · intro fd c hfd hstays w hw hconn
    rw [hext.deliveries] at hw
    rcases setupStream_cases K shared server o with
      ⟨fd', -, heq⟩ | ⟨-, heq | heq | ⟨ip, -, -, heq⟩⟩
    all_goals rw [heq] at hfd
    · exact h.intact fd c hfd hstays w hw hconn
    · exact h.intact fd c hfd hstays w hw hconn
    · by_cases heq' : fd = o.fd
      · subst heq'
        rw [withUnconnected_fds_self] at hfd
        cases hfd
      · rw [withUnconnected_fds_ne _ _ heq'] at hfd
        exact h.intact fd c hfd hstays w hw hconn
    · rcases withConnection_inv hfd with ⟨-, hnew⟩ | hold
      · have hlt : w.conn < shared.conns.length := (h.delivered w hw).2.1
        omega
      · exact h.intact fd c hold hstays w hw hconn
  · rw [hext.deliveries]
    exact h.last
  · have hsame : numbers ⟨(Streamer.setupStream K shared server o).1, timer', sender⟩ =
        numbers ⟨shared, timer, sender⟩ := by
      rw [numbers, numbers, hext.deliveries, hext.queue]
    rw [hsame]
    exact h.sorted

/-- The item is queued under the next number. -/
theorem stream {shared : Streamer} {sender : StreamerThread} {streamed : List (ℕ × List UInt8)}
    {collector : ℕ} {item : StreamItem}
    (h : Carries ⟨⟨shared, .settingUp collector item [], sender⟩, streamed⟩) :
    Carries ⟨⟨shared.enqueue collector item, .idle, sender⟩,
      streamed ++ [(collector, item.payload)]⟩ := by
  have hitem : Sendable item := h.composed collector item [] rfl
  have hproduced : shared.produced = streamed.length := h.produced_eq
  have hnew : Recorded (streamed ++ [(collector, item.payload)])
      (shared.newItem collector item) := by
    refine ⟨?_, hitem⟩
    show (streamed ++ [(collector, item.payload)])[shared.produced]? = _
    rw [hproduced, List.getElem?_concat_length]
    rfl
  refine ⟨h.consistent.congr rfl rfl rfl, ?_, nofun, ?_, ?_, ?_, h.intact, h.last, ?_⟩
  · show shared.produced + 1 = _
    rw [hproduced, List.length_append, List.length_singleton]
  · intro q hq
    rcases List.mem_append.mp hq with hold | hlast
    · exact (h.queued q hold).append _
    · obtain rfl := List.mem_singleton.mp hlast
      exact hnew
  · exact fun q hq => (h.sending q hq).append _
  · intro w hw
    obtain ⟨hrecorded, hrest⟩ := h.delivered w hw
    exact ⟨hrecorded.append _, hrest⟩
  · -- all earlier items have smaller numbers
    have heq : numbers ⟨shared.enqueue collector item, .idle, sender⟩ =
        numbers ⟨shared, .settingUp collector item [], sender⟩ ++ [shared.produced] := by
      simp [numbers, enqueue, newItem, List.append_assoc]
    rw [heq]
    refine List.pairwise_append.mpr ⟨h.sorted, List.pairwise_singleton _ _, ?_⟩
    intro n hn m hm
    obtain rfl := List.mem_singleton.mp hm
    rw [hproduced]
    apply Nat.le_of_lt
    rw [numbers, List.mem_append, List.mem_append] at hn
    rcases hn with (hn | hn) | hn
    · obtain ⟨w, hw, rfl⟩ := List.mem_map.mp hn
      exact (h.delivered w hw).1.number_lt
    · obtain ⟨q, hq, rfl⟩ := List.mem_map.mp hn
      exact (h.sending q (Option.mem_toList.mp hq)).number_lt
    · obtain ⟨q, hq, rfl⟩ := List.mem_map.mp hn
      exact (h.queued q hq).number_lt

/-- The numbers stay sorted when the streamer thread is done with an item, or goes on with it. -/
theorem sorted_turnTo {shared : Streamer} {timer : TimerThread} {q : QueuedItem}
    {sockFds : List ℕ}
    (h : (shared.deliveries.map (·.queued.number) ++ [q.number] ++
      shared.queue.map (·.number)).Pairwise (· ≤ ·)) :
    (numbers ⟨shared, timer, .turnTo q sockFds⟩).Pairwise (· ≤ ·) := by
  rw [numbers]
  rcases current_turnTo q sockFds with hnone | hsome
  · rw [hnone]
    refine h.sublist (List.Sublist.append_right ?_ _)
    exact List.Sublist.append_left (List.nil_sublist _) _
  · rw [hsome]
    exact h

theorem sending_turnTo {streamed : List (ℕ × List UInt8)} {q : QueuedItem} {sockFds : List ℕ}
    (h : Recorded streamed q) :
    ∀ q', current (.turnTo q sockFds) = some q' → Recorded streamed q' := by
  intro q' hq'
  rcases current_turnTo q sockFds with hnone | hsome
  · cases hnone.symm.trans hq'
  · obtain rfl := Option.some.inj (hsome.symm.trans hq')
    exact h

/-- The first item is taken from the queue. -/
theorem pop {shared : Streamer} {timer : TimerThread} {streamed : List (ℕ × List UInt8)}
    {q : QueuedItem} {queue : List QueuedItem} (h : Carries ⟨⟨shared, timer, .idle⟩, streamed⟩)
    (hqueue : shared.queue = q :: queue) :
    Carries ⟨⟨{ shared with queue }, timer, .turnTo q q.item.serversSockFd⟩, streamed⟩ := by
  have hq : Recorded streamed q := h.queued q (by rw [hqueue]; exact List.mem_cons_self ..)
  refine ⟨h.consistent.congr rfl rfl rfl, h.produced_eq, h.composed, ?_, sending_turnTo hq,
    h.delivered, ?_, h.last, sorted_turnTo ?_⟩
  · intro q' hq'
    exact h.queued q' (by rw [hqueue]; exact List.mem_cons_of_mem _ hq')
  · exact fun fd c hfd _ => h.intact fd c hfd nofun
  · have hsorted := h.sorted
    simp only [numbers, hqueue, current] at hsorted
    simpa using hsorted

/-- A number may come twice in a row. -/
theorem pairwise_le_twice {before after : List ℕ} {n : ℕ}
    (h : (before ++ [n] ++ after).Pairwise (· ≤ ·)) :
    (before ++ [n] ++ [n] ++ after).Pairwise (· ≤ ·) := by
  obtain ⟨hfront, hafter, hcross⟩ := List.pairwise_append.mp h
  obtain ⟨hbefore, -, hlast⟩ := List.pairwise_append.mp hfront
  refine List.pairwise_append.mpr ⟨?_, hafter, ?_⟩
  · refine List.pairwise_append.mpr ⟨hfront, List.pairwise_singleton _ _, ?_⟩
    intro m hm k hk
    obtain rfl := List.mem_singleton.mp hk
    rcases List.mem_append.mp hm with hm | hm
    · exact hlast m hm k (List.mem_singleton_self k)
    · exact (List.mem_singleton.mp hm).le
  · intro m hm
    refine hcross m ?_
    rcases List.mem_append.mp hm with hm | hm
    · exact hm
    · exact List.mem_append_right _ hm

/-- What `_SendAll` does: nothing, if the number is not that of a connection; or it writes the
front of the item, the whole of it exactly if it returns the item's length. -/
theorem sendAllTo_inv {shared : Streamer} {q : QueuedItem} (hq : Sendable q.item) (sockFd : ℕ)
    (results : List (Option ℕ)) :
    shared.connOf sockFd = none ∧ (shared.sendAllTo q sockFd results).2 = shared ∨
    ∃ c n, shared.fds sockFd = some (.connected c) ∧
      (shared.sendAllTo q sockFd results).1 = n ∧
      (shared.sendAllTo q sockFd results).2 =
        shared.withDelivery c q (q.item.message.take n) ∧
      ((n : ℤ) = q.item.messageLength → q.item.message.take n = q.item.message) := by
  rw [sendAllTo]
  cases hconn : shared.connOf sockFd with
  | none => exact .inl ⟨rfl, rfl⟩
  | some c =>
    refine .inr ⟨c, _, connOf_eq_some.mp hconn, rfl, ?_, fun hall => ?_⟩
    · dsimp only
      rw [sendAll_bytes]
    rw [hq.messageLength_eq, Int.toNat_natCast] at hall ⊢
    rw [Int.natCast_inj.mp hall, List.take_length]

/-- A descriptor gets an item, whole or in part; if in part, it is to be closed. -/
theorem sendAll {shared : Streamer} {timer : TimerThread} {streamed : List (ℕ × List UInt8)}
    {q : QueuedItem} {sockFd : ℕ} {sockFds : List ℕ} {results : List (Option ℕ)}
    {sender : StreamerThread} (h : Carries ⟨⟨shared, timer, .sending q sockFd sockFds⟩, streamed⟩)
    (hsender : sender = .turnTo q sockFds ∧
        ((shared.sendAllTo q sockFd results).1 : ℤ) = q.item.messageLength ∨
      sender = .removing q sockFd sockFds) :
    Carries ⟨⟨(shared.sendAllTo q sockFd results).2, timer, sender⟩, streamed⟩ := by
  have hq : Recorded streamed q := h.sending q rfl
  have hcurrent : ∀ q', current sender = some q' → Recorded streamed q' := by
    rcases hsender with ⟨rfl, -⟩ | rfl
    · exact sending_turnTo hq
    · rintro q' heq
      obtain rfl := Option.some.inj heq
      exact hq
  have hnumbers : ∀ {d : Streamer}, (d.deliveries.map (·.queued.number) ++ [q.number] ++
      d.queue.map (·.number)).Pairwise (· ≤ ·) →
      (numbers ⟨d, timer, sender⟩).Pairwise (· ≤ ·) := by
    intro d hd
    rcases hsender with ⟨rfl, -⟩ | rfl
    · exact sorted_turnTo hd
    · exact hd
  rcases sendAllTo_inv hq.2 sockFd results with ⟨hnone, heq⟩ | ⟨c, n, hfd, hn, heq, hwhole⟩
  · rw [heq]
    exact ⟨h.consistent, h.produced_eq, h.composed, h.queued, hcurrent, h.delivered,
      fun fd c hfd _ => h.intact fd c hfd nofun, h.last, hnumbers h.sorted⟩
  · have hintact : ∀ w ∈ shared.deliveries, w.conn = c → w.bytes = w.queued.item.message :=
      h.intact sockFd c hfd nofun
    have hconsistent : Consistent shared := h.consistent
    rw [heq]
    refine ⟨hconsistent.congr rfl rfl rfl, h.produced_eq, h.composed, h.queued, hcurrent, ?_, ?_,
      ?_, hnumbers ?_⟩
    · intro w hw
      rcases List.mem_append.mp hw with hold | hnew
      · exact h.delivered w hold
      · obtain rfl := List.mem_singleton.mp hnew
        exact ⟨hq, hconsistent.conn_lt hfd, List.take_prefix _ _⟩
    · intro fd c' hfd' hstays w hw hconn
      rcases List.mem_append.mp hw with hold | hnew
      · exact h.intact fd c' hfd' nofun w hold hconn
      · obtain rfl := List.mem_singleton.mp hnew
        obtain rfl : c = c' := hconn
        obtain rfl : fd = sockFd := hconsistent.once hfd' hfd
        rcases hsender with ⟨-, hall⟩ | rfl
        · exact hwhole (hn ▸ hall)
        · exact absurd rfl hstays
    · refine List.pairwise_append.mpr ⟨h.last, List.pairwise_singleton _ _, ?_⟩
      intro w hw w' hw' hcut hconn
      obtain rfl := List.mem_singleton.mp hw'
      exact hcut (hintact w hw hconn.symm)
    · rw [withDelivery, List.map_append, List.map_singleton]
      exact pairwise_le_twice h.sorted

/-- The descriptor is closed. -/
theorem remove {shared : Streamer} {timer : TimerThread} {streamed : List (ℕ × List UInt8)}
    {q : QueuedItem} {sockFd : ℕ} {sockFds : List ℕ}
    (h : Carries ⟨⟨shared, timer, .removing q sockFd sockFds⟩, streamed⟩) :
    Carries ⟨⟨shared.removeAndCleanupSockFd sockFd, timer, .turnTo q sockFds⟩, streamed⟩ := by
  have hconsistent : Consistent shared := h.consistent
  have hq : Recorded streamed q := h.sending q rfl
  cases hconn : shared.connOf sockFd with
  | none =>
    rw [hconsistent.removeAndCleanupSockFd_none hconn]
    refine ⟨hconsistent, h.produced_eq, h.composed, h.queued, sending_turnTo hq, h.delivered, ?_,
      h.last, sorted_turnTo h.sorted⟩
    rintro fd c hfd -
    refine h.intact fd c hfd fun heq => ?_
    obtain rfl : sockFd = fd := Option.some.inj heq
    cases hconn.symm.trans (connOf_eq_some.mpr hfd)
  | some c =>
    obtain ⟨host, hhost⟩ := hconsistent.listed (connOf_eq_some.mp hconn)
    rw [hconsistent.removeAndCleanupSockFd_eq hhost]
    refine ⟨hconsistent.without hhost, h.produced_eq, h.composed, h.queued, sending_turnTo hq,
      h.delivered, ?_, h.last, sorted_turnTo h.sorted⟩
    rintro fd c' hfd -
    obtain ⟨hne, hold⟩ := without_inv hfd
    exact h.intact fd c' hold fun heq => hne (Option.some.inj heq).symm

/-- **One step of a thread** whose payloads have admissible lengths. -/
theorem step {p' : Producer} {a : Action} (h : Carries p) (hstep : Step K p a p')
    (hsized : Composes Sized a) : Carries p' := by
  obtain ⟨⟨shared, timer, sender⟩, streamed⟩ := p
  obtain ⟨daemon', streamed'⟩ := p'
  obtain ⟨hthread, hlog, -⟩ := hstep
  dsimp only at hthread hlog
  subst hlog
  cases hthread with
  | compose hcompose => exact h.compose (sendable_of_compose hcompose hsized.1 hsized.2)
  | setupStream halloc =>
    refine h.setupStream halloc ?_
    rintro _ _ _ heq
    obtain ⟨-, rfl, -⟩ := TimerThread.settingUp.inj heq
    exact (h.composed _ _ _ rfl).withFds _
  | stream => exact h.stream
  | pop hqueue => exact h.pop hqueue
  | sent hall => exact h.sendAll (.inl ⟨rfl, hall⟩)
  | fellShort hshort => exact h.sendAll (.inr rfl)
  | remove => exact h.remove

end Carries

/-! ## One connection -/

/-- The payloads of the items a connection got, the last of them perhaps in part. -/
def payloads (d : Streamer) (c : ℕ) : List (List UInt8) :=
  (d.deliveries.filter (·.conn = c)).map (·.queued.item.payload)

/-- The payloads of the items a connection got in full. -/
def sent (d : Streamer) (c : ℕ) : List (List UInt8) :=
  ((d.deliveries.filter (·.conn = c)).filter (fun w => w.bytes = w.queued.item.message)).map
    (·.queued.item.payload)

/-- These are payloads of queued items, none before one that was queued earlier. -/
def InOrder (streamed : List (ℕ × List UInt8)) (ps : List (List UInt8)) : Prop :=
  ∃ ns : List ℕ, ns.Pairwise (· ≤ ·) ∧
    List.Forall₂ (fun n p => ∃ collector, streamed[n]? = some (collector, p)) ns ps

/-- Items of which only the last can be cut, on the wire. -/
theorem flatMap_bytes_isPrefix {c : ℕ} {ws : List Delivery} (hconn : ∀ w ∈ ws, w.conn = c)
    (hitem : ∀ w ∈ ws, Sendable w.queued.item ∧ w.bytes <+: w.queued.item.message)
    (hlast : ws.Pairwise fun w w' => w.bytes ≠ w.queued.item.message → w'.conn ≠ w.conn) :
    ws.flatMap (·.bytes) <+: wire.stream (ws.map (·.queued.item.payload)) ∧
      wire.completed (ws.map (·.queued.item.payload)) (ws.flatMap (·.bytes)).length =
        (ws.filter (fun w => w.bytes = w.queued.item.message)).map (·.queued.item.payload) := by
  induction ws with
  | nil => exact ⟨List.nil_prefix, rfl⟩
  | cons w ws ih =>
    obtain ⟨⟨hsendable, hpre⟩, hitem⟩ := List.forall_mem_cons.mp hitem
    obtain ⟨hw, hconn⟩ := List.forall_mem_cons.mp hconn
    obtain ⟨hfirst, hlast⟩ := List.pairwise_cons.mp hlast
    rw [List.flatMap_cons, List.map_cons, wire.stream_cons, Framing.completed,
      ← hsendable.message_eq]
    by_cases hwhole : w.bytes = w.queued.item.message
    · obtain ⟨hstream, hcompleted⟩ := ih hconn hitem hlast
      rw [List.filter_cons_of_pos (by simpa using hwhole), List.map_cons, hwhole,
        List.length_append, if_pos (Nat.le_add_right _ _), Nat.add_sub_cancel_left, hcompleted]
      exact ⟨(List.prefix_append_right_inj _).mpr hstream, rfl⟩
    · -- nothing follows
      have hnil : ws = [] := by
        rw [List.eq_nil_iff_forall_not_mem]
        intro w' hw'
        exact hfirst w' hw' hwhole ((hconn w' hw').trans hw.symm)
      subst hnil
      have hshort : w.bytes.length < w.queued.item.message.length :=
        lt_of_le_of_ne hpre.length_le fun heq => hwhole (hpre.eq_of_length heq)
      rw [List.filter_cons_of_neg (by simpa using hwhole), List.flatMap_nil, List.append_nil,
        if_neg (Nat.not_le.mpr hshort)]
      exact ⟨hpre.trans (List.prefix_append _ _), rfl⟩

namespace Carries

variable {K : DaemonConfig} {p p' : Producer}

/-- **What was written to a connection** is the front of a stream of payloads, and those that
are complete in it were sent in full. -/
theorem written_isPrefix (h : Carries p) (c : ℕ) :
    p.daemon.shared.written c <+: wire.stream (payloads p.daemon.shared c) ∧
      wire.completed (payloads p.daemon.shared c) (p.daemon.shared.written c).length =
        sent p.daemon.shared c := by
  apply flatMap_bytes_isPrefix (c := c)
  · intro w hw
    exact of_decide_eq_true (List.mem_filter.mp hw).2
  · intro w hw
    obtain ⟨hrecorded, -, hpre⟩ := h.delivered w (List.mem_filter.mp hw).1
    exact ⟨hrecorded.2, hpre⟩
  · exact h.last.filter _

/-- The payloads have admissible lengths. -/
theorem payloads_sized (h : Carries p) (c : ℕ) : Server.Payloads (payloads p.daemon.shared c) := by
  intro payload hpayload
  obtain ⟨w, hw, rfl⟩ := List.mem_map.mp hpayload
  have hitem := (h.delivered w (List.mem_filter.mp hw).1).1.2
  exact ⟨hitem.length_pos, hitem.length_le⟩

/-- **The payloads of a connection come in the order of the queue.** -/
theorem payloads_inOrder (h : Carries p) (c : ℕ) :
    InOrder p.streamed (payloads p.daemon.shared c) := by
  refine ⟨(p.daemon.shared.deliveries.filter (·.conn = c)).map (·.queued.number), ?_, ?_⟩
  · have hsorted := h.sorted
    rw [numbers, List.append_assoc] at hsorted
    exact (List.pairwise_append.mp hsorted).1.sublist (List.filter_sublist.map _)
  · rw [payloads, List.forall₂_map_left_iff, List.forall₂_map_right_iff, List.forall₂_same]
    intro w hw
    exact ⟨_, (h.delivered w (List.mem_filter.mp hw).1).1.1⟩

end Carries

/-- The front of payloads that are in order is in order. -/
theorem InOrder.of_isPrefix {streamed : List (ℕ × List UInt8)} {ps qs : List (List UInt8)}
    (h : InOrder streamed qs) (hps : ps <+: qs) : InOrder streamed ps := by
  obtain ⟨ns, hsorted, hmatch⟩ := h
  obtain ⟨rest, rfl⟩ := hps
  exact ⟨ns.take ps.length, hsorted.sublist (List.take_sublist _ _),
    List.forall₂_take_append ns ps rest hmatch⟩

/-- What is in order was queued. -/
theorem InOrder.exists_mem {streamed : List (ℕ × List UInt8)} {ps : List (List UInt8)}
    (h : InOrder streamed ps) {p : List UInt8} (hp : p ∈ ps) :
    ∃ collector, (collector, p) ∈ streamed := by
  obtain ⟨ns, -, hmatch⟩ := h
  obtain ⟨i, hi, rfl⟩ := List.getElem_of_mem hp
  obtain ⟨collector, hget⟩ := hmatch.get (hmatch.length_eq ▸ hi) hi
  exact ⟨collector, List.mem_of_getElem? hget⟩

/-- The connection has no descriptor. -/
def Closed (d : Streamer) (c : ℕ) : Prop := ∀ fd, d.fds fd ≠ some (.connected c)

/-- What a step leaves: connections and deliveries are only added, and none to a connection
that was made and has no descriptor any more. -/
structure Continues (d d' : Streamer) : Prop where
  /-- nothing that was written is taken back -/
  deliveries : d.deliveries <+: d'.deliveries
  /-- connections are added -/
  conns : d.conns <+: d'.conns
  /-- a closed connection stays closed -/
  closed : ∀ c < d.conns.length, Closed d c → Closed d' c
  /-- nothing is written to one -/
  written_eq : ∀ c < d.conns.length, Closed d c → d'.written c = d.written c

theorem continues_setupStream {K : DaemonConfig} {d : Streamer} (server : ServerAddress)
    {o : SetupOutcome} (halloc : K.allocates d.fds o.fd) :
    Continues d (setupStream K d server o).1 := by
  have hext := setupStream_extends K server halloc
  refine ⟨hext.deliveries ▸ List.prefix_refl _, hext.conns, ?_, ?_⟩
  · intro c hc hclosed fd hfd
    rcases setupStream_cases K d server o with
      ⟨fd', -, heq⟩ | ⟨-, heq | heq | ⟨ip, -, -, heq⟩⟩
    all_goals rw [heq] at hfd
    · exact hclosed fd hfd
    · exact hclosed fd hfd
    · by_cases heq' : fd = o.fd
      · subst heq'
        rw [withUnconnected_fds_self] at hfd
        cases hfd
      · rw [withUnconnected_fds_ne _ _ heq'] at hfd
        exact hclosed fd hfd
    · rcases withConnection_inv hfd with ⟨-, hnew⟩ | hold
      · omega
      · exact hclosed fd hold
  · intro c _ _
    rw [written, written, hext.deliveries]

theorem continues_sendAllTo {d : Streamer} (q : QueuedItem) (sockFd : ℕ)
    (results : List (Option ℕ)) : Continues d (d.sendAllTo q sockFd results).2 := by
  rw [sendAllTo]
  cases hconn : d.connOf sockFd with
  | none => exact ⟨List.prefix_refl _, List.prefix_refl _, fun c _ h => h, fun c _ _ => rfl⟩
  | some c =>
    refine ⟨List.prefix_append _ _, List.prefix_refl _, fun c _ h => h, ?_⟩
    intro c' _ hclosed
    have hne : c ≠ c' := by
      rintro rfl
      exact hclosed sockFd (connOf_eq_some.mp hconn)
    simp [written, withDelivery, List.filter_append, hne]

theorem continues_remove {d : Streamer} (hd : Consistent d) (sockFd : ℕ) :
    Continues d (d.removeAndCleanupSockFd sockFd) := by
  rcases hd.removeAndCleanupSockFd_cases sockFd with heq | ⟨host, -, heq⟩
  · rw [heq]
    exact ⟨List.prefix_refl _, List.prefix_refl _, fun c _ h => h, fun c _ _ => rfl⟩
  · rw [heq]
    exact ⟨List.prefix_refl _, List.prefix_refl _,
      fun c _ h fd hfd => h fd (without_inv hfd).2, fun c _ _ => rfl⟩

theorem Step.continues {K : DaemonConfig} {p p' : Producer} {a : Action} (hp : Carries p)
    (h : Step K p a p') : Continues p.daemon.shared p'.daemon.shared := by
  obtain ⟨⟨shared, timer, sender⟩, streamed⟩ := p
  obtain ⟨daemon', streamed'⟩ := p'
  obtain ⟨hthread, -, -⟩ := h
  dsimp only at hthread
  cases hthread with
  | setupStream halloc => exact continues_setupStream _ halloc
  | sent | fellShort => exact continues_sendAllTo ..
  | remove => exact continues_remove hp.consistent _
  | compose | stream | pop =>
    exact ⟨List.prefix_refl _, List.prefix_refl _, fun c _ h => h, fun c _ _ => rfl⟩

/-- What a connection has carried is at the front of what it carries later. -/
theorem Continues.written_isPrefix {d d' : Streamer} (h : Continues d d') (c : ℕ) :
    d.written c <+: d'.written c := by
  obtain ⟨more, hmore⟩ := h.deliveries
  rw [written, written, ← hmore, List.filter_append, List.flatMap_append]
  exact List.prefix_append _ _

end Producer

end WallMon
