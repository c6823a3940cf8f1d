import Mathlib.Data.List.AList
import WallMon.StreamItem
import WallMon.Transition

/-!
# The daemon's send side: `Streamer` and the timer callback

Two threads share the streamer. The scheduler's timer callback composes a message,
has `SetupStream` find or make a connection to each server of the collector's
`Context`, and queues the message with the descriptor numbers it got. The streamer
thread takes messages off the queue and sends each to its descriptors; a failed
send closes the descriptor and forgets the server.

The operating system appears as the table of open descriptors, and as outcomes
given from outside: what names resolve to, which number a new socket gets, whether
`connect` succeeds, and how many bytes each `send` takes. `conns` and `deliveries`
are history: the connections ever made and what was written to them. A callback
that would wait for room in the queue is one that happens later, so the queue is
unbounded here.
-/

namespace WallMon

/-- A server as a `Context` lists it: host and port. -/
abbrev ServerAddress := String × ℤ

/-- What an open descriptor stands for. -/
inductive Descriptor where
  /-- something of the rest of the process -/
  | other
  /-- a socket whose `connect` failed; it is never closed -/
  | unconnected
  /-- a socket connected by the connection of this number -/
  | connected (conn : ℕ)
  deriving DecidableEq

/-- A TCP connection that was made. -/
structure TcpConnection where
  /-- the arguments of the `SetupStream` that made it -/
  server : ServerAddress
  /-- the address it was made to, as passed to `inet_addr` -/
  serverIpAddress : String

/-- An item in the streamer's queue. -/
structure QueuedItem where
  /-- the item -/
  item : StreamItem
  /-- history: the collector that produced it -/
  collector : ℕ
  /-- history: how many items were queued before it -/
  number : ℕ

/-- What one call of `_SendAll` wrote to a connection. -/
structure Delivery where
  /-- the connection -/
  conn : ℕ
  /-- the item that was sent -/
  queued : QueuedItem
  /-- the bytes of it that the connection took -/
  bytes : List UInt8

/-- The state the two threads share. -/
structure Streamer where
  /-- the open descriptors of the process -/
  fds : ℕ → Option Descriptor
  /-- history: the connections ever made -/
  conns : List TcpConnection
  /-- `_serverMap`: server address to socket -/
  serverMap : AList fun _ : String => ℕ
  /-- `_queue` -/
  queue : List QueuedItem
  /-- history: what was written -/
  deliveries : List Delivery
  /-- history: how many items were ever queued -/
  produced : ℕ

/-- What the operating system answers during one `SetupStream`. -/
structure SetupOutcome where
  /-- `HostnameToIpAddress` of the host -/
  resolved : String
  /-- `HostnameToIpAddressFallback` of the host -/
  fallback : String
  /-- the number a new socket gets -/
  fd : ℕ
  /-- whether `connect` succeeds -/
  connects : Bool

/-- The configuration a daemon runs under. -/
structure DaemonConfig where
  /-- `System::IsValidIpAddress` -/
  isValidIpAddress : String → Bool
  /-- the servers in the `Context` of each collector -/
  servers : ℕ → List ServerAddress
  /-- the numbers the operating system may give to a new descriptor -/
  allocates : (ℕ → Option Descriptor) → ℕ → Prop
  /-- an open number is not given again -/
  allocates_free : ∀ {fds fd}, allocates fds fd → fds fd = none

namespace Streamer

variable (K : DaemonConfig)

/-- The address `SetupStream` passes to `inet_addr`: the empty string when the server
address is an IP address already; `none` when it gives up. -/
def resolve (serverAddress : String) (o : SetupOutcome) : Option String :=
  if K.isValidIpAddress serverAddress = false then
    let serverIpAddress := if o.resolved = "" then o.fallback else o.resolved
    if serverIpAddress = "" then none
    else if K.isValidIpAddress serverIpAddress = false then none
    else some serverIpAddress
  else some ""

/-- A new socket was connected: `SetupStream` book-keeps it for the server. -/
def withConnection (d : Streamer) (server : ServerAddress) (serverIpAddress : String) (fd : ℕ) :
    Streamer :=
  { d with
    fds := Function.update d.fds fd (some (.connected d.conns.length))
    conns := d.conns ++ [{ server, serverIpAddress }]
    serverMap := d.serverMap.insert server.1 fd }

/-- A new socket was not connected: it stays open. -/
def withUnconnected (d : Streamer) (fd : ℕ) : Streamer :=
  { d with fds := Function.update d.fds fd (some .unconnected) }

/-- A server was forgotten and its descriptor closed. -/
def without (d : Streamer) (serverAddress : String) (fd : ℕ) : Streamer :=
  { d with
    serverMap := d.serverMap.erase serverAddress
    fds := Function.update d.fds fd none }

/-- Bytes of an item were written to a connection. -/
def withDelivery (d : Streamer) (conn : ℕ) (queued : QueuedItem) (bytes : List UInt8) : Streamer :=
  { d with deliveries := d.deliveries ++ [{ conn, queued, bytes }] }

section Fields

variable (d : Streamer) (server : ServerAddress) (ip host : String) (fd : ℕ)

@[simp] theorem withConnection_fds_self :
    (d.withConnection server ip fd).fds fd = some (.connected d.conns.length) :=
  Function.update_self ..

@[simp] theorem withConnection_fds_ne {fd' : ℕ} (h : fd' ≠ fd) :
    (d.withConnection server ip fd).fds fd' = d.fds fd' := Function.update_of_ne h ..

@[simp] theorem withConnection_conns :
    (d.withConnection server ip fd).conns = d.conns ++ [{ server, serverIpAddress := ip }] := rfl

@[simp] theorem withConnection_lookup_self :
    (d.withConnection server ip fd).serverMap.lookup server.1 = some fd := AList.lookup_insert _

@[simp] theorem withConnection_lookup_ne {host : String} (h : host ≠ server.1) :
    (d.withConnection server ip fd).serverMap.lookup host = d.serverMap.lookup host :=
  AList.lookup_insert_ne h

@[simp] theorem withUnconnected_fds_self : (d.withUnconnected fd).fds fd = some .unconnected :=
  Function.update_self ..

@[simp] theorem withUnconnected_fds_ne {fd' : ℕ} (h : fd' ≠ fd) :
    (d.withUnconnected fd).fds fd' = d.fds fd' := Function.update_of_ne h ..

@[simp] theorem without_fds_self : (d.without host fd).fds fd = none := Function.update_self ..

@[simp] theorem without_fds_ne {fd' : ℕ} (h : fd' ≠ fd) :
    (d.without host fd).fds fd' = d.fds fd' := Function.update_of_ne h ..

@[simp] theorem without_lookup_self : (d.without host fd).serverMap.lookup host = none :=
  AList.lookup_erase host _

@[simp] theorem without_lookup_ne {host' : String} (h : host' ≠ host) :
    (d.without host fd).serverMap.lookup host' = d.serverMap.lookup host' :=
  AList.lookup_erase_ne h

end Fields

/-- `Streamer::SetupStream`; the result `-1` is `none`. -/
def setupStream (d : Streamer) (server : ServerAddress) (o : SetupOutcome) :
    Streamer × Option ℕ :=
  match d.serverMap.lookup server.1 with
  -- whatever port that connection was made to
  | some fd => (d, some fd)
  | none =>
    match resolve K server.1 o with
    | none => (d, none)
    | some serverIpAddress =>
      if o.connects then (d.withConnection server serverIpAddress o.fd, some o.fd)
      else (d.withUnconnected o.fd, none)

/-- The loop of `_TimerCallback` over the servers of the `Context`: the valid
descriptors it gets, in order. -/
def setupStreams : List (ServerAddress × SetupOutcome) → Streamer → Streamer × List ℕ
  | [], d => (d, [])
  | (server, o) :: calls, d =>
    let (d₁, sockfd) := setupStream K d server o
    let (d₂, sockfds) := setupStreams calls d₁
    (d₂, sockfd.toList ++ sockfds)

/-- The next item of a collector, as it goes into the queue. -/
def newItem (d : Streamer) (collector : ℕ) (item : StreamItem) : QueuedItem :=
  { item, collector, number := d.produced }

/-- `Scheduler::_TimerCallback` from the composed message on: set up the servers, then
`Stream` the item. -/
def timerCallback (d : Streamer) (collector : ℕ) (calls : List (ServerAddress × SetupOutcome))
    (item : StreamItem) : Streamer :=
  let (d', serversSockFd) := setupStreams K calls d
  { d' with
    queue := d'.queue ++ [d.newItem collector { item with serversSockFd }]
    produced := d.produced + 1 }

/-- The connection of a descriptor. -/
def connOf (d : Streamer) (sockFd : ℕ) : Option ℕ :=
  match d.fds sockFd with
  | some (.connected c) => some c
  | _ => none

/-- `_SendAll`, from `numBytesSent` on: how many bytes were sent, and which the socket took
from then on. Each `send` takes at least one byte and at most what is left (`some k` stands
for `k + 1` bytes, if there are as many) or returns `-1`, as it always does on a socket that
is not connected. -/
def sendAll (connected : Bool) (message : List UInt8) (len : ℕ) :
    List (Option ℕ) → ℕ → ℕ × List UInt8
  | [], numBytesSent => (numBytesSent, [])
  | none :: _, numBytesSent => (numBytesSent, [])
  | some k :: results, numBytesSent =>
    if connected then
      let retval := min (k + 1) (len - numBytesSent)
      -- the bytes from `message + numBytesSent` on
      let bytes := (message.drop numBytesSent).take retval
      let numBytesSent := numBytesSent + retval
      if numBytesSent < len then
        let rest := sendAll connected message len results numBytesSent
        (rest.1, bytes ++ rest.2)
      else (numBytesSent, bytes)
    else (numBytesSent, [])

/-- `_RemoveAndCleanupSockFd`: the first server with this descriptor is forgotten and
the descriptor closed. The order of the entries does not matter: no two servers have
the same descriptor (`Consistent.lookup_inj`). -/
def removeAndCleanupSockFd (d : Streamer) (sockFd : ℕ) : Streamer :=
  match d.serverMap.entries.find? (·.2 = sockFd) with
  | some entry => d.without entry.1 sockFd
  | none => d

/-- One round of the loop of `_SendItem`. -/
def sendTo (d : Streamer) (q : QueuedItem) (sockFd : ℕ) (results : List (Option ℕ)) : Streamer :=
  match d.connOf sockFd with
  | some conn =>
    let (numBytesSent, bytes) :=
      sendAll true q.item.message q.item.messageLength.toNat results 0
    let d' := d.withDelivery conn q bytes
    if (numBytesSent : ℤ) ≠ q.item.messageLength then d'.removeAndCleanupSockFd sockFd else d'
  | none =>
    -- a number that was closed, or that stands for something else by now
    let (numBytesSent, _) := sendAll false q.item.message q.item.messageLength.toNat results 0
    if (numBytesSent : ℤ) ≠ q.item.messageLength then d.removeAndCleanupSockFd sockFd else d

/-- `Streamer::_SendItem`: the loop over `serversSockFd`. -/
def sendItem (q : QueuedItem) : List ℕ → List (List (Option ℕ)) → Streamer → Streamer
  | [], _, d => d
  | sockFd :: sockFds, results, d =>
    sendItem q sockFds results.tail (d.sendTo q sockFd (results.headD []))

/-- The operating system's choice of numbers for the sockets made by the calls. -/
def Allocates : List (ServerAddress × SetupOutcome) → Streamer → Prop
  | [], _ => True
  | (server, o) :: calls, d =>
    K.allocates d.fds o.fd ∧ Allocates calls (setupStream K d server o).1

/-- What happens at the daemon. -/
inductive Event where
  /-- a timer callback of a collector whose message has this payload -/
  | callback (collector : ℕ) (payload : List UInt8) (calls : List (ServerAddress × SetupOutcome))
  /-- an iteration of the streamer thread; for each descriptor what the sends return -/
  | iteration (results : List (List (Option ℕ)))

/-- One step of the daemon. -/
inductive Step : Streamer → Event → Streamer → Prop where
  /-- `_TimerCallback` with data -/
  | callback {d : Streamer} {collector : ℕ} {payload : List UInt8}
      {calls : List (ServerAddress × SetupOutcome)} {item : StreamItem} :
      StreamItem.compose payload = .ok item → calls.map (·.1) = K.servers collector →
      Allocates K calls d →
      Step d (.callback collector payload calls) (d.timerCallback K collector calls item)
  /-- `Pop` and `_SendItem` -/
  | iteration {d : Streamer} {q : QueuedItem} {queue : List QueuedItem}
      {results : List (List (Option ℕ))} : d.queue = q :: queue →
      Step d (.iteration results)
        (sendItem q q.item.serversSockFd results { d with queue })

/-- A daemon that has not made any connection yet. -/
structure Started (d : Streamer) : Prop where
  /-- no descriptor is a connection -/
  fds : ∀ fd c, d.fds fd ≠ some (.connected c)
  /-- no connection was made -/
  conns : d.conns = []
  /-- the map is empty -/
  serverMap : d.serverMap = ∅
  /-- the queue is empty -/
  queue : d.queue = []
  /-- nothing was written -/
  deliveries : d.deliveries = []
  /-- nothing was queued -/
  produced : d.produced = 0

/-- The POSIX rule for new descriptors: the lowest number that is free. -/
def lowestFree (fds : ℕ → Option Descriptor) (fd : ℕ) : Prop :=
  fds fd = none ∧ ∀ m < fd, fds m ≠ none

/-- A daemon on a POSIX system, for which the addresses in `ips` are valid. -/
def posix (ips : List String) (servers : ℕ → List ServerAddress) : DaemonConfig where
  isValidIpAddress s := s ∈ ips
  servers := servers
  allocates := lowestFree
  allocates_free h := h.1

/-- A daemon whose process has only the three standard descriptors open. -/
def initial : Streamer where
  fds fd := if fd < 3 then some .other else none
  conns := []
  serverMap := ∅
  queue := []
  deliveries := []
  produced := 0

theorem started_initial : Started initial := by
  refine ⟨?_, rfl, rfl, rfl, rfl, rfl⟩
  intro fd c hfd
  simp only [initial] at hfd
  split at hfd
  · cases hfd
  · cases hfd

/-- The transition system of the daemon. -/
def system : TransitionSystem Streamer Event where
  init := Started
  step := Step K

variable {K} in
/-- A timer callback whose payload can be composed. -/
theorem callback_step (d : Streamer) (collector : ℕ) (payload : List UInt8)
    (calls : List (ServerAddress × SetupOutcome)) (hlen : payload.length ≤ 2147483643)
    (hservers : calls.map (·.1) = K.servers collector) (hcalls : Allocates K calls d) :
    Step K d (.callback collector payload calls)
      (d.timerCallback K collector calls (.ofPayload payload)) :=
  .callback (StreamItem.compose_ok hlen) hservers hcalls

variable {K} in
/-- An iteration of the streamer thread with the first item of the queue. -/
theorem iteration_step (d : Streamer) (results : List (List (Option ℕ))) {q : QueuedItem}
    {queue : List QueuedItem} (hqueue : d.queue = q :: queue) :
    Step K d (.iteration results) (sendItem q q.item.serversSockFd results { d with queue }) :=
  .iteration hqueue

/-! ## The server map and the descriptors -/

/-- A connected descriptor after a new connection is the new one or an old one. -/
theorem withConnection_inv {d : Streamer} {server : ServerAddress} {ip : String} {fd fd' c : ℕ}
    (h : (d.withConnection server ip fd).fds fd' = some (.connected c)) :
    fd' = fd ∧ c = d.conns.length ∨ d.fds fd' = some (.connected c) := by
  by_cases heq : fd' = fd
  · subst heq
    rw [withConnection_fds_self] at h
    exact .inl ⟨rfl, (Descriptor.connected.inj (Option.some.inj h)).symm⟩
  · rw [withConnection_fds_ne _ _ _ _ heq] at h
    exact .inr h

/-- A connected descriptor after one was closed is another one. -/
theorem without_inv {d : Streamer} {host : String} {fd fd' c : ℕ}
    (h : (d.without host fd).fds fd' = some (.connected c)) :
    fd' ≠ fd ∧ d.fds fd' = some (.connected c) := by
  by_cases heq : fd' = fd
  · subst heq
    rw [without_fds_self] at h
    cases h
  · rw [without_fds_ne _ _ _ heq] at h
    exact ⟨heq, h⟩

/-- The server map lists exactly the connected descriptors: a server's descriptor is
connected to that server, a connected descriptor belongs to a server, and no
connection has two descriptors. -/
structure Consistent (d : Streamer) : Prop where
  /-- a server's descriptor is connected to it -/
  mapped : ∀ {host fd}, d.serverMap.lookup host = some fd →
    ∃ c conn, d.fds fd = some (.connected c) ∧ d.conns[c]? = some conn ∧ conn.server.1 = host
  /-- a connected descriptor is in the map -/
  listed : ∀ {fd c}, d.fds fd = some (.connected c) → ∃ host, d.serverMap.lookup host = some fd
  /-- a connection has one descriptor -/
  once : ∀ {fd fd' c}, d.fds fd = some (.connected c) → d.fds fd' = some (.connected c) → fd = fd'

namespace Consistent

variable {d d' : Streamer}

/-- The queue and the histories do not matter. -/
theorem congr (h : Consistent d) (hfds : d'.fds = d.fds) (hconns : d'.conns = d.conns)
    (hmap : d'.serverMap = d.serverMap) : Consistent d' := by
  obtain ⟨hmapped, hlisted, honce⟩ := h
  rw [← hfds, ← hmap, ← hconns] at hmapped
  rw [← hfds, ← hmap] at hlisted
  rw [← hfds] at honce
  exact ⟨hmapped, hlisted, honce⟩

theorem started (h : Started d) : Consistent d := by
  refine ⟨?_, ?_, ?_⟩
  · intro host fd hlookup
    rw [h.serverMap, AList.lookup_empty] at hlookup
    cases hlookup
  · intro fd c hfd
    exact absurd hfd (h.fds fd c)
  · intro fd fd' c hfd
    exact absurd hfd (h.fds fd c)

/-- No two servers have the same descriptor. -/
theorem lookup_inj (h : Consistent d) {host host' : String} {fd : ℕ}
    (hhost : d.serverMap.lookup host = some fd) (hhost' : d.serverMap.lookup host' = some fd) :
    host = host' := by
  obtain ⟨c, conn, hfd, hconn, rfl⟩ := h.mapped hhost
  obtain ⟨c', conn', hfd', hconn', rfl⟩ := h.mapped hhost'
  obtain rfl : c = c' := Descriptor.connected.inj (Option.some.inj (hfd.symm.trans hfd'))
  rw [Option.some.inj (hconn.symm.trans hconn')]

/-- The connection of an open descriptor was made. -/
theorem conn_lt (h : Consistent d) {fd c : ℕ} (hfd : d.fds fd = some (.connected c)) :
    c < d.conns.length := by
  obtain ⟨host, hhost⟩ := h.listed hfd
  obtain ⟨c', conn, hfd', hconn, -⟩ := h.mapped hhost
  obtain rfl : c = c' := Descriptor.connected.inj (Option.some.inj (hfd.symm.trans hfd'))
  exact (List.getElem?_eq_some_iff.mp hconn).1

theorem withUnconnected (h : Consistent d) {fd : ℕ} (hfree : d.fds fd = none) :
    Consistent (d.withUnconnected fd) := by
  have hsame : ∀ {fd' c}, (d.withUnconnected fd).fds fd' = some (.connected c) ↔
      d.fds fd' = some (.connected c) := by
    intro fd' c
    by_cases heq : fd' = fd
    · subst heq
      simp [hfree]
    · simp [heq]
  refine ⟨?_, ?_, ?_⟩
  · intro host fd' hlookup
    obtain ⟨c, conn, hfd', hconn, hhost⟩ := h.mapped hlookup
    exact ⟨c, conn, hsame.mpr hfd', hconn, hhost⟩
  · intro fd' c hfd'
    exact h.listed (hsame.mp hfd')
  · intro fd' fd'' c hfd' hfd''
    exact h.once (hsame.mp hfd') (hsame.mp hfd'')

/-- A new connection leaves the old ones. -/
theorem withConnection_old {server : ServerAddress} {ip : String} {fd fd' c : ℕ}
    (hfree : d.fds fd = none) (hfd' : d.fds fd' = some (.connected c)) :
    (d.withConnection server ip fd).fds fd' = some (.connected c) := by
  have hne : fd' ≠ fd := by
    rintro rfl
    rw [hfree] at hfd'
    cases hfd'
  rw [withConnection_fds_ne _ _ _ _ hne, hfd']

/-- Book-keeping a new connection of a server that had none. -/
theorem withConnection (h : Consistent d) {server : ServerAddress} {ip : String} {fd : ℕ}
    (hfree : d.fds fd = none) (hnone : d.serverMap.lookup server.1 = none) :
    Consistent (d.withConnection server ip fd) := by
  refine ⟨?_, ?_, ?_⟩
  · intro host fd' hlookup
    by_cases hhost : host = server.1
    · subst hhost
      rw [withConnection_lookup_self] at hlookup
      obtain rfl := Option.some.inj hlookup
      exact ⟨d.conns.length, { server, serverIpAddress := ip }, by simp, by simp, rfl⟩
    · rw [withConnection_lookup_ne _ _ _ _ hhost] at hlookup
      obtain ⟨c, conn, hfd', hconn, hserver⟩ := h.mapped hlookup
      refine ⟨c, conn, withConnection_old hfree hfd', ?_, hserver⟩
      rw [withConnection_conns, List.getElem?_append_left (h.conn_lt hfd')]
      exact hconn
  · intro fd' c hfd'
    rcases withConnection_inv hfd' with ⟨rfl, -⟩ | hold
    · exact ⟨server.1, withConnection_lookup_self ..⟩
    · obtain ⟨host, hhost⟩ := h.listed hold
      have hne : host ≠ server.1 := by
        rintro rfl
        rw [hnone] at hhost
        cases hhost
      exact ⟨host, (withConnection_lookup_ne _ _ _ _ hne).trans hhost⟩
  · intro fd' fd'' c hfd' hfd''
    rcases withConnection_inv hfd' with ⟨heq', hc'⟩ | hold'
    · rcases withConnection_inv hfd'' with ⟨heq'', -⟩ | hold''
      · exact heq'.trans heq''.symm
      · exact absurd (h.conn_lt hold'') (by rw [hc']; exact lt_irrefl _)
    · rcases withConnection_inv hfd'' with ⟨-, hc''⟩ | hold''
      · exact absurd (h.conn_lt hold') (by rw [hc'']; exact lt_irrefl _)
      · exact h.once hold' hold''

/-- Forgetting a server and closing its descriptor. -/
theorem without (h : Consistent d) {host : String} {fd : ℕ}
    (hhost : d.serverMap.lookup host = some fd) : Consistent (d.without host fd) := by
  refine ⟨?_, ?_, ?_⟩
  · intro host' fd' hlookup
    have hne : host' ≠ host := by
      rintro rfl
      rw [without_lookup_self] at hlookup
      cases hlookup
    rw [without_lookup_ne _ _ _ hne] at hlookup
    obtain ⟨c, conn, hfd', hconn, hserver⟩ := h.mapped hlookup
    have hfd : fd' ≠ fd := by
      rintro rfl
      exact hne (h.lookup_inj hlookup hhost)
    exact ⟨c, conn, (without_fds_ne _ _ _ hfd).trans hfd', hconn, hserver⟩
  · intro fd' c hfd'
    obtain ⟨hne, hold⟩ := without_inv hfd'
    obtain ⟨host', hhost'⟩ := h.listed hold
    have hnehost : host' ≠ host := by
      rintro rfl
      exact hne (Option.some.inj (hhost'.symm.trans hhost))
    exact ⟨host', (without_lookup_ne _ _ _ hnehost).trans hhost'⟩
  · intro fd' fd'' c hfd' hfd''
    exact h.once (without_inv hfd').2 (without_inv hfd'').2

end Consistent

/-! ### One `SetupStream` -/

/-- What `SetupStream` can do: find the descriptor it has, give up, leave a socket
unconnected, or make a connection. -/
theorem setupStream_cases (d : Streamer) (server : ServerAddress) (o : SetupOutcome) :
    (∃ fd, d.serverMap.lookup server.1 = some fd ∧ setupStream K d server o = (d, some fd)) ∨
    d.serverMap.lookup server.1 = none ∧
      (setupStream K d server o = (d, none) ∨
        setupStream K d server o = (d.withUnconnected o.fd, none) ∨
        ∃ ip, resolve K server.1 o = some ip ∧ o.connects = true ∧
          setupStream K d server o = (d.withConnection server ip o.fd, some o.fd)) := by
  rw [setupStream]
  cases hlookup : d.serverMap.lookup server.1 with
  | some fd => exact .inl ⟨fd, rfl, rfl⟩
  | none =>
    refine .inr ⟨rfl, ?_⟩
    cases hresolve : resolve K server.1 o with
    | none => exact .inl rfl
    | some ip =>
      cases hconnects : o.connects with
      | false => exact .inr (.inl rfl)
      | true => exact .inr (.inr ⟨ip, rfl, rfl, rfl⟩)

theorem connOf_eq_some {d : Streamer} {fd c : ℕ} :
    d.connOf fd = some c ↔ d.fds fd = some (.connected c) := by
  rw [connOf]
  refine ⟨fun h => ?_, fun h => ?_⟩
  · split at h
    · next hfd =>
      obtain rfl := Option.some.inj h
      exact hfd
    · cases h
  · rw [h]

/-- The server a descriptor is connected to. -/
def target (d : Streamer) (fd : ℕ) : Option ServerAddress :=
  (d.connOf fd).bind fun c => d.conns[c]?.map (·.server)

/-- How setting up streams changes the state: descriptors, connections and entries of
the map are added, and nothing else happens. -/
structure Extends (d d' : Streamer) : Prop where
  /-- open descriptors stay what they are -/
  fds : ∀ {fd x}, d.fds fd = some x → d'.fds fd = some x
  /-- connections are added -/
  conns : d.conns <+: d'.conns
  /-- servers keep their descriptors -/
  lookup : ∀ {host fd}, d.serverMap.lookup host = some fd → d'.serverMap.lookup host = some fd
  /-- nothing is queued -/
  queue : d'.queue = d.queue
  /-- nothing is sent -/
  deliveries : d'.deliveries = d.deliveries

theorem Extends.refl (d : Streamer) : Extends d d := ⟨id, List.prefix_refl _, id, rfl, rfl⟩

theorem Extends.trans {d₁ d₂ d₃ : Streamer} (h : Extends d₁ d₂) (h' : Extends d₂ d₃) :
    Extends d₁ d₃ :=
  ⟨fun hfd => h'.fds (h.fds hfd), h.conns.trans h'.conns, fun hl => h'.lookup (h.lookup hl),
    h'.queue.trans h.queue, h'.deliveries.trans h.deliveries⟩

theorem setupStream_extends {d : Streamer} (server : ServerAddress) {o : SetupOutcome}
    (hfd : K.allocates d.fds o.fd) : Extends d (setupStream K d server o).1 := by
  have hfree := K.allocates_free hfd
  have hne : ∀ {fd x}, d.fds fd = some x → fd ≠ o.fd := by
    rintro fd x hx rfl
    rw [hfree] at hx
    cases hx
  rcases setupStream_cases K d server o with
    ⟨fd, -, heq⟩ | ⟨hnone, heq | heq | ⟨ip, -, -, heq⟩⟩
  · rw [heq]
    exact .refl d
  · rw [heq]
    exact .refl d
  · rw [heq]
    refine ⟨fun hx => ?_, List.prefix_refl _, id, rfl, rfl⟩
    rw [withUnconnected_fds_ne _ _ (hne hx), hx]
  · rw [heq]
    refine ⟨fun hx => ?_, List.prefix_append _ _, fun hl => ?_, rfl, rfl⟩
    · rw [withConnection_fds_ne _ _ _ _ (hne hx), hx]
    · rw [withConnection_lookup_ne _ _ _ _ _, hl]
      rintro rfl
      rw [hnone] at hl
      cases hl

theorem setupStreams_extends {d : Streamer} {calls : List (ServerAddress × SetupOutcome)}
    (hcalls : Allocates K calls d) : Extends d (setupStreams K calls d).1 := by
  induction calls generalizing d with
  | nil => exact .refl d
  | cons call calls ih =>
    obtain ⟨hfd, hcalls⟩ := hcalls
    exact (setupStream_extends K _ hfd).trans (ih hcalls)

/-- The targets of connected descriptors stay what they are. -/
theorem Extends.target_eq {d d' : Streamer} (h : Extends d d') {fd : ℕ} {server : ServerAddress}
    (htarget : d.target fd = some server) : d'.target fd = some server := by
  obtain ⟨c, hconn, hserver⟩ := Option.bind_eq_some_iff.mp htarget
  obtain ⟨conn, hget, rfl⟩ := Option.map_eq_some_iff.mp hserver
  obtain ⟨conns, hconns⟩ := h.conns
  have hlt := (List.getElem?_eq_some_iff.mp hget).1
  rw [target, connOf_eq_some.mpr (h.fds (connOf_eq_some.mp hconn)), Option.bind_some, ← hconns,
    List.getElem?_append_left hlt, hget]
  rfl

/-- A server's descriptor is connected to an endpoint of that host. -/
theorem Consistent.target_of_lookup {d : Streamer} (h : Consistent d) {host : String} {fd : ℕ}
    (hlookup : d.serverMap.lookup host = some fd) :
    ∃ server : ServerAddress, d.target fd = some server ∧ server.1 = host := by
  obtain ⟨c, conn, hfd, hget, hhost⟩ := h.mapped hlookup
  refine ⟨conn.server, ?_, hhost⟩
  rw [target, connOf_eq_some.mpr hfd, Option.bind_some, hget]
  rfl

@[simp] theorem target_withConnection_self (d : Streamer) (server : ServerAddress) (ip : String)
    (fd : ℕ) : (d.withConnection server ip fd).target fd = some server := by
  rw [target, connOf_eq_some.mpr (withConnection_fds_self ..), Option.bind_some]
  simp

theorem setupStreams_cons (call : ServerAddress × SetupOutcome)
    (calls : List (ServerAddress × SetupOutcome)) (d : Streamer) :
    setupStreams K (call :: calls) d =
      ((setupStreams K calls (setupStream K d call.1 call.2).1).1,
        (setupStream K d call.1 call.2).2.toList ++
          (setupStreams K calls (setupStream K d call.1 call.2).1).2) := rfl

/-- What each `SetupStream` keeps, the loop of the callback keeps. -/
theorem setupStreams_preserves {I : Streamer → Prop}
    (hstep : ∀ d server o, I d → K.allocates d.fds o.fd → I (setupStream K d server o).1)
    (calls : List (ServerAddress × SetupOutcome)) (d : Streamer) (hd : I d)
    (hcalls : Allocates K calls d) : I (setupStreams K calls d).1 := by
  induction calls generalizing d with
  | nil => exact hd
  | cons call calls ih =>
    obtain ⟨hfd, hcalls⟩ := hcalls
    exact ih _ (hstep d call.1 call.2 hd hfd) hcalls

theorem Consistent.setupStream {d : Streamer} (h : Consistent d) {server : ServerAddress}
    {o : SetupOutcome} (hfd : K.allocates d.fds o.fd) :
    Consistent (Streamer.setupStream K d server o).1 := by
  have hfree := K.allocates_free hfd
  rcases setupStream_cases K d server o with
    ⟨fd, -, heq⟩ | ⟨hnone, heq | heq | ⟨ip, -, -, heq⟩⟩
  · rw [heq]
    exact h
  · rw [heq]
    exact h
  · rw [heq]
    exact h.withUnconnected hfree
  · rw [heq]
    exact h.withConnection hfree hnone

/-- The loop of the callback keeps the map and the descriptors consistent. -/
theorem Consistent.setupStreams {d : Streamer} (h : Consistent d)
    {calls : List (ServerAddress × SetupOutcome)} (hcalls : Allocates K calls d) :
    Consistent (Streamer.setupStreams K calls d).1 :=
  setupStreams_preserves K (fun _ _ _ hd hfd => hd.setupStream K hfd) calls d h hcalls

/-- **A timer callback keeps the map and the descriptors consistent.** -/
theorem Consistent.timerCallback {d : Streamer} (h : Consistent d) {collector : ℕ}
    {calls : List (ServerAddress × SetupOutcome)} {item : StreamItem}
    (hcalls : Allocates K calls d) : Consistent (d.timerCallback K collector calls item) :=
  (h.setupStreams K hcalls).congr rfl rfl rfl

/-! ### One round of `_SendItem` -/

/-- What each round keeps, the loop of `_SendItem` keeps. -/
theorem sendItem_preserves {I : Streamer → Prop} {q : QueuedItem} {fds : List ℕ}
    (hstep : ∀ d, ∀ fd ∈ fds, ∀ results, I d → I (d.sendTo q fd results))
    (results : List (List (Option ℕ))) (d : Streamer) (hd : I d) :
    I (sendItem q fds results d) := by
  induction fds generalizing results d with
  | nil => exact hd
  | cons fd fds ih =>
    refine ih ?_ results.tail _ (hstep d fd (List.mem_cons_self ..) _ hd)
    exact fun d fd' hfd' => hstep d fd' (List.mem_cons_of_mem _ hfd')

/-- A composed item: its message is the encoding of a payload. -/
def Composed (item : StreamItem) : Prop :=
  (∃ payload, item.message = StreamItem.bytes payload) ∧
    item.messageLength = item.message.length ∧ item.message ≠ []

theorem composed_of_compose {payload : List UInt8} {item : StreamItem}
    (h : StreamItem.compose payload = .ok item) (fds : List ℕ) :
    Composed { item with serversSockFd := fds } := by
  obtain ⟨hle, rfl⟩ := StreamItem.compose_eq_ok h
  refine ⟨⟨payload, (StreamItem.bytes_eq hle).symm⟩, ?_, ?_⟩
  · show (payload.length : ℤ) + 4 = (wire.encode payload).length
    rw [wire.length_encode, wire_width]
    omega
  · intro hnil
    have hlen := wire.length_encode payload
    have hempty : wire.encode payload = [] := hnil
    rw [hempty, wire_width, List.length_nil] at hlen
    omega

/-- A socket that is not connected takes nothing. -/
theorem sendAll_false (message : List UInt8) (len : ℕ) (results : List (Option ℕ)) (n : ℕ) :
    sendAll false message len results n = (n, []) := by
  match results with
  | [] => rfl
  | none :: _ => rfl
  | some _ :: _ => rfl

/-- **`_SendAll`** sends no more than the message; and what the socket takes, piece by piece, is
the part of the message up to the number of bytes sent. -/
theorem sendAll_spec (message : List UInt8) (len : ℕ) (results : List (Option ℕ)) {n : ℕ}
    (hn : n ≤ len) :
    n ≤ (sendAll true message len results n).1 ∧ (sendAll true message len results n).1 ≤ len ∧
      (sendAll true message len results n).2 =
        (message.drop n).take ((sendAll true message len results n).1 - n) := by
  have hstop : n ≤ (n, ([] : List UInt8)).1 ∧ (n, ([] : List UInt8)).1 ≤ len ∧
      (n, ([] : List UInt8)).2 = (message.drop n).take ((n, ([] : List UInt8)).1 - n) := by
    refine ⟨le_rfl, hn, ?_⟩
    rw [Nat.sub_self, List.take_zero]
  induction results generalizing n with
  | nil => exact hstop
  | cons r results ih =>
    cases r with
    | none => exact hstop
    | some k =>
      rw [sendAll, if_pos rfl]
      dsimp only
      generalize hretval : min (k + 1) (len - n) = retval
      split
      · obtain ⟨hge, hle, hbytes⟩ := ih (n := n + retval) (by omega) ⟨le_rfl, by omega, by simp⟩
        refine ⟨by omega, hle, ?_⟩
        have htotal : (sendAll true message len results (n + retval)).1 - n =
            retval + ((sendAll true message len results (n + retval)).1 - (n + retval)) := by
          omega
        rw [hbytes, ← List.drop_drop, htotal, List.take_add]
      · exact ⟨by omega, by dsimp only; omega, by rw [Nat.add_sub_cancel_left]⟩

/-- What `_SendAll` writes is the front of the message. -/
theorem sendAll_bytes (message : List UInt8) (len : ℕ) (results : List (Option ℕ)) :
    (sendAll true message len results 0).2 =
      message.take (sendAll true message len results 0).1 := by
  rw [(sendAll_spec message len results (Nat.zero_le _)).2.2, List.drop_zero, Nat.sub_zero]

/-- Cleaning up a server's descriptor. -/
theorem Consistent.removeAndCleanupSockFd_eq {d : Streamer} (h : Consistent d) {host : String}
    {fd : ℕ} (hhost : d.serverMap.lookup host = some fd) :
    d.removeAndCleanupSockFd fd = d.without host fd := by
  rw [removeAndCleanupSockFd]
  split
  · next entry hentry =>
    have hfd : entry.2 = fd := by simpa using List.find?_some hentry
    have hlookup : d.serverMap.lookup entry.1 = some fd :=
      AList.mem_lookup_iff.mpr (by rw [← hfd]; exact List.mem_of_find?_eq_some hentry)
    rw [h.lookup_inj hlookup hhost]
  · next hnone =>
    have hmem := AList.mem_lookup_iff.mp hhost
    exact absurd (decide_eq_true rfl) (List.find?_eq_none.mp hnone _ hmem)

/-- Cleaning up a descriptor that is not connected does nothing. -/
theorem Consistent.removeAndCleanupSockFd_none {d : Streamer} (h : Consistent d) {fd : ℕ}
    (hfd : d.connOf fd = none) : d.removeAndCleanupSockFd fd = d := by
  rw [removeAndCleanupSockFd]
  split
  · next entry hentry =>
    have heq : entry.2 = fd := by simpa using List.find?_some hentry
    have hlookup : d.serverMap.lookup entry.1 = some fd :=
      AList.mem_lookup_iff.mpr (by rw [← heq]; exact List.mem_of_find?_eq_some hentry)
    obtain ⟨c, -, hconn, -, -⟩ := h.mapped hlookup
    rw [connOf, hconn] at hfd
    cases hfd
  · rfl

/-- Cleaning up closes the descriptor of a server, or does nothing. -/
theorem Consistent.removeAndCleanupSockFd_cases {d : Streamer} (h : Consistent d) (fd : ℕ) :
    d.removeAndCleanupSockFd fd = d ∨
      ∃ host, d.serverMap.lookup host = some fd ∧
        d.removeAndCleanupSockFd fd = d.without host fd := by
  cases hconn : d.connOf fd with
  | none => exact .inl (h.removeAndCleanupSockFd_none hconn)
  | some c =>
    obtain ⟨host, hhost⟩ := h.listed (connOf_eq_some.mp hconn)
    exact .inr ⟨host, hhost, h.removeAndCleanupSockFd_eq hhost⟩

/-- What sending a composed item to a descriptor can do: nothing, if it is not
connected; write the whole message; or write less and close the descriptor. -/
theorem Consistent.sendTo_cases {d : Streamer} (h : Consistent d) {q : QueuedItem}
    (hq : Composed q.item) (fd : ℕ) (results : List (Option ℕ)) :
    d.connOf fd = none ∧ d.sendTo q fd results = d ∨
    (∃ c, d.fds fd = some (.connected c) ∧
      d.sendTo q fd results = d.withDelivery c q q.item.message) ∨
    (∃ c host n, d.fds fd = some (.connected c) ∧ d.serverMap.lookup host = some fd ∧
      n < q.item.message.length ∧
      d.sendTo q fd results =
        (d.withDelivery c q (q.item.message.take n)).without host fd) := by
  obtain ⟨-, hlen, hne⟩ := hq
  have hpos : 0 < q.item.message.length := List.length_pos_iff.mpr hne
  rw [sendTo, hlen, Int.toNat_natCast]
  cases hconn : d.connOf fd with
  | none =>
    refine .inl ⟨rfl, ?_⟩
    dsimp only
    rw [sendAll_false, if_pos (by omega), h.removeAndCleanupSockFd_none hconn]
  | some c =>
    have hfd := connOf_eq_some.mp hconn
    have hle := (sendAll_spec q.item.message q.item.message.length results (Nat.zero_le _)).2.1
    have hbytes := sendAll_bytes q.item.message q.item.message.length results
    dsimp only
    rw [hbytes]
    generalize (sendAll true q.item.message q.item.message.length results 0).1 = n at hle ⊢
    by_cases hall : n = q.item.message.length
    · refine .inr (.inl ⟨c, hfd, ?_⟩)
      rw [hall, if_neg (by omega), List.take_length]
    · obtain ⟨host, hhost⟩ := h.listed hfd
      have hdelivered : Consistent (d.withDelivery c q (q.item.message.take n)) :=
        h.congr rfl rfl rfl
      refine .inr (.inr ⟨c, host, n, hfd, hhost, lt_of_le_of_ne hle hall, ?_⟩)
      rw [if_pos (by omega), hdelivered.removeAndCleanupSockFd_eq hhost]

theorem Consistent.sendTo {d : Streamer} (h : Consistent d) {q : QueuedItem}
    (hq : Composed q.item) (fd : ℕ) (results : List (Option ℕ)) :
    Consistent (d.sendTo q fd results) := by
  rcases h.sendTo_cases hq fd results with ⟨-, heq⟩ | ⟨c, -, heq⟩ | ⟨c, host, n, -, hhost, -, heq⟩
  · rw [heq]
    exact h
  · rw [heq]
    exact h.congr rfl rfl rfl
  · rw [heq]
    have hdelivered : Consistent (d.withDelivery c q (q.item.message.take n)) :=
      h.congr rfl rfl rfl
    exact hdelivered.without hhost

end Streamer

end WallMon
