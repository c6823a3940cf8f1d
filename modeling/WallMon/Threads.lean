import WallMon.Streamer

/-!
# The daemon's two threads, call by call

`Streamer.system` takes a whole timer callback, and a whole iteration of the streamer
thread, for one step. Here the threads are interleaved call by call: between any two
calls of `SetupStream`, `Stream`, `Pop`, `_SendAll` and `_RemoveAndCleanupSockFd` the
other thread may run. Whatever state the coarser system comes to, this one comes to as
well, with both threads between two rounds (`reachable_of_atomic`).
-/

namespace WallMon

/-- Where the timer thread is. -/
inductive TimerThread where
  /-- between two callbacks -/
  | idle
  /-- in `_TimerCallback`: servers are left to set up for the item -/
  | settingUp (collector : ℕ) (item : StreamItem) (servers : List ServerAddress)

/-- Where the streamer thread is. -/
inductive StreamerThread where
  /-- before `Pop` -/
  | idle
  /-- in `_SendItem`, before `_SendAll` on a socket -/
  | sending (q : QueuedItem) (sockFd : ℕ) (sockFds : List ℕ)
  /-- in `_SendItem`, before `_RemoveAndCleanupSockFd` -/
  | removing (q : QueuedItem) (sockFd : ℕ) (sockFds : List ℕ)

/-- The loop of `_SendItem` goes on with the sockets that are left. -/
def StreamerThread.turnTo (q : QueuedItem) : List ℕ → StreamerThread
  | [] => .idle
  | sockFd :: sockFds => .sending q sockFd sockFds

/-- The shared state and the two threads. -/
structure Daemon where
  /-- what the threads share -/
  shared : Streamer
  /-- the timer thread -/
  timer : TimerThread
  /-- the streamer thread -/
  sender : StreamerThread

/-- What one of the threads does next. -/
inductive Action where
  /-- a timer callback composes a message with this payload -/
  | compose (collector : ℕ) (payload : List UInt8)
  /-- `SetupStream` for the next server -/
  | setupStream (o : SetupOutcome)
  /-- `Stream` -/
  | stream
  /-- `Pop` -/
  | pop
  /-- `_SendAll`; what the sends return -/
  | sendAll (results : List (Option ℕ))
  /-- `_RemoveAndCleanupSockFd` -/
  | remove

namespace Streamer

/-- `_SendAll` on a socket: how many bytes were sent, and the state afterwards. -/
def sendAllTo (d : Streamer) (q : QueuedItem) (sockFd : ℕ) (results : List (Option ℕ)) :
    ℕ × Streamer :=
  match d.connOf sockFd with
  | some conn =>
    let (numBytesSent, bytes) :=
      sendAll true q.item.message q.item.messageLength.toNat results 0
    (numBytesSent, d.withDelivery conn q bytes)
  | none => ((sendAll false q.item.message q.item.messageLength.toNat results 0).1, d)

/-- A round of `_SendItem` is `_SendAll` and, if that fell short, the clean-up. -/
theorem sendTo_eq (d : Streamer) (q : QueuedItem) (sockFd : ℕ) (results : List (Option ℕ)) :
    d.sendTo q sockFd results =
      if ((d.sendAllTo q sockFd results).1 : ℤ) ≠ q.item.messageLength then
        (d.sendAllTo q sockFd results).2.removeAndCleanupSockFd sockFd
      else (d.sendAllTo q sockFd results).2 := by
  rw [sendTo, sendAllTo]
  cases d.connOf sockFd with
  | none => rfl
  | some conn => rfl

/-- The item is in the queue. -/
def enqueue (d : Streamer) (collector : ℕ) (item : StreamItem) : Streamer :=
  { d with queue := d.queue ++ [d.newItem collector item], produced := d.produced + 1 }

end Streamer

namespace Daemon

open Streamer

variable (K : DaemonConfig)

/-- One step of one of the threads. -/
inductive Step : Daemon → Action → Daemon → Prop where
  /-- a callback starts -/
  | compose {shared : Streamer} {sender : StreamerThread} {collector : ℕ} {payload : List UInt8}
      {item : StreamItem} : StreamItem.compose payload = .ok item →
      Step ⟨shared, .idle, sender⟩ (.compose collector payload)
        ⟨shared, .settingUp collector item (K.servers collector), sender⟩
  /-- a valid descriptor is associated with the item -/
  | setupStream {shared : Streamer} {sender : StreamerThread} {collector : ℕ} {item : StreamItem}
      {server : ServerAddress} {servers : List ServerAddress} {o : SetupOutcome} :
      K.allocates shared.fds o.fd →
      Step ⟨shared, .settingUp collector item (server :: servers), sender⟩ (.setupStream o)
        ⟨(setupStream K shared server o).1,
          .settingUp collector
            { item with
              serversSockFd := item.serversSockFd ++ (setupStream K shared server o).2.toList }
            servers,
          sender⟩
  /-- the item is queued -/
  | stream {shared : Streamer} {sender : StreamerThread} {collector : ℕ} {item : StreamItem} :
      Step ⟨shared, .settingUp collector item [], sender⟩ .stream
        ⟨shared.enqueue collector item, .idle, sender⟩
  /-- an item is taken from the queue -/
  | pop {shared : Streamer} {timer : TimerThread} {q : QueuedItem} {queue : List QueuedItem} :
      shared.queue = q :: queue →
      Step ⟨shared, timer, .idle⟩ .pop
        ⟨{ shared with queue }, timer, .turnTo q q.item.serversSockFd⟩
  /-- all of it was sent to the socket -/
  | sent {shared : Streamer} {timer : TimerThread} {q : QueuedItem} {sockFd : ℕ}
      {sockFds : List ℕ} {results : List (Option ℕ)} :
      ((shared.sendAllTo q sockFd results).1 : ℤ) = q.item.messageLength →
      Step ⟨shared, timer, .sending q sockFd sockFds⟩ (.sendAll results)
        ⟨(shared.sendAllTo q sockFd results).2, timer, .turnTo q sockFds⟩
  /-- not all of it was sent -/
  | fellShort {shared : Streamer} {timer : TimerThread} {q : QueuedItem} {sockFd : ℕ}
      {sockFds : List ℕ} {results : List (Option ℕ)} :
      ((shared.sendAllTo q sockFd results).1 : ℤ) ≠ q.item.messageLength →
      Step ⟨shared, timer, .sending q sockFd sockFds⟩ (.sendAll results)
        ⟨(shared.sendAllTo q sockFd results).2, timer, .removing q sockFd sockFds⟩
  /-- the server is forgotten and its descriptor closed -/
  | remove {shared : Streamer} {timer : TimerThread} {q : QueuedItem} {sockFd : ℕ}
      {sockFds : List ℕ} :
      Step ⟨shared, timer, .removing q sockFd sockFds⟩ .remove
        ⟨shared.removeAndCleanupSockFd sockFd, timer, .turnTo q sockFds⟩

/-- The transition system of the two threads. -/
def system : TransitionSystem Daemon Action where
  init t := ∃ d, Started d ∧ t = ⟨d, .idle, .idle⟩
  step := Step K

/-! ## Whole rounds -/

variable {K} {d : Streamer} {timer : TimerThread} {sender : StreamerThread}

theorem setupStreams_produced (calls : List (ServerAddress × SetupOutcome)) (d : Streamer) :
    (setupStreams K calls d).1.produced = d.produced := by
  induction calls generalizing d with
  | nil => rfl
  | cons call calls ih =>
    rw [setupStreams_cons]
    dsimp only
    rw [ih]
    rcases setupStream_cases K d call.1 call.2 with
      ⟨fd, -, heq⟩ | ⟨-, heq | heq | ⟨ip, -, -, heq⟩⟩
    all_goals exact congrArg (fun result => result.1.produced) heq

/-- The servers of a callback are set up while the streamer thread does not run. -/
theorem setupStreams_reachable {collector : ℕ} {item : StreamItem}
    {calls : List (ServerAddress × SetupOutcome)} (halloc : Allocates K calls d)
    (h : (system K).Reachable ⟨d, .settingUp collector item (calls.map (·.1)), sender⟩) :
    (system K).Reachable
      ⟨(setupStreams K calls d).1,
        .settingUp collector
          { item with serversSockFd := item.serversSockFd ++ (setupStreams K calls d).2 } [],
        sender⟩ := by
  induction calls generalizing d item with
  | nil =>
    rw [setupStreams, List.append_nil]
    exact h
  | cons call calls ih =>
    obtain ⟨hfd, halloc⟩ := halloc
    have hlast := ih halloc (h.next (.setupStream hfd))
    rw [List.append_assoc] at hlast
    exact hlast

/-- A callback runs while the streamer thread does not. -/
theorem timerCallback_reachable {collector : ℕ} {payload : List UInt8} {item : StreamItem}
    {calls : List (ServerAddress × SetupOutcome)} (hcompose : StreamItem.compose payload = .ok item)
    (hservers : calls.map (·.1) = K.servers collector) (halloc : Allocates K calls d)
    (h : (system K).Reachable ⟨d, .idle, sender⟩) :
    (system K).Reachable ⟨d.timerCallback K collector calls item, .idle, sender⟩ := by
  have hstart : (system K).Reachable ⟨d, .settingUp collector item (calls.map (·.1)), sender⟩ :=
    hservers ▸ h.next (.compose hcompose)
  have hqueued := (setupStreams_reachable halloc hstart).next .stream
  obtain ⟨-, rfl⟩ := StreamItem.compose_eq_ok hcompose
  have hcallback : (setupStreams K calls d).1.enqueue collector
      { StreamItem.ofPayload payload with serversSockFd := (setupStreams K calls d).2 } =
        d.timerCallback K collector calls (.ofPayload payload) := by
    rw [enqueue, newItem, setupStreams_produced]
    rfl
  rw [← hcallback]
  exact hqueued

/-- An item is sent while the timer thread does not run. -/
theorem sendItem_reachable {q : QueuedItem} {sockFds : List ℕ} (results : List (List (Option ℕ)))
    (h : (system K).Reachable ⟨d, timer, .turnTo q sockFds⟩) :
    (system K).Reachable ⟨sendItem q sockFds results d, timer, .idle⟩ := by
  induction sockFds generalizing d results with
  | nil => exact h
  | cons sockFd sockFds ih =>
    rw [sendItem]
    apply ih
    rw [sendTo_eq]
    split
    · next hshort => exact (h.next (.fellShort hshort)).next .remove
    · next hall => exact h.next (.sent (not_ne_iff.mp hall))

/-- **The coarser system** comes to no state that this one does not come to. -/
theorem reachable_of_atomic (h : (Streamer.system K).Reachable d) :
    (system K).Reachable ⟨d, .idle, .idle⟩ := by
  refine h.invariant (I := fun d => (system K).Reachable ⟨d, .idle, .idle⟩) ?_ ?_
  · exact fun d hd => .start ⟨d, hd, rfl⟩
  · intro d e d' _ hd hstep
    cases hstep with
    | callback hcompose hservers halloc =>
      exact timerCallback_reachable hcompose hservers halloc hd
    | iteration hqueue => exact sendItem_reachable _ (hd.next (.pop hqueue))

end Daemon

end WallMon
