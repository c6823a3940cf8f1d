import WallMon.Alignment
import WallMon.Threads

/-!
# To whom items are sent

An item names its destinations by descriptor number only. When a send fails, the
streamer thread closes the descriptor while other items that hold the number still wait,
and the next socket the timer thread makes may get it. Those items then go to whatever
server that socket was made for.

`NumbersUnused` is the condition on a call of `SetupStream` under which this cannot
happen: a number given to a new connection is held by no item of a collector that does
not list the server. It also asks that the cached connection of a listed host be one to
a listed server, which the key of `_serverMap`, the host without the port, does not
ensure. The two threads are interleaved call by call.
-/

namespace WallMon

namespace Streamer

variable {K : DaemonConfig} {d : Streamer}

/-- The server that got a delivery. -/
def recipient (d : Streamer) (w : Delivery) : Option ServerAddress :=
  d.conns[w.conn]?.map (·.server)

/-- Bytes of an item only ever went to servers its collector lists. -/
def NoMisdelivery (K : DaemonConfig) (d : Streamer) : Prop :=
  ∀ w ∈ d.deliveries, w.bytes ≠ [] →
    ∃ server ∈ K.servers w.queued.collector, d.recipient w = some server

instance : Decidable (NoMisdelivery K d) :=
  inferInstanceAs (Decidable (∀ w ∈ d.deliveries, _ → ∃ server ∈ _, _))

/-- A descriptor is connected to no server but those a collector lists. -/
def Reaches (K : DaemonConfig) (d : Streamer) (fd collector : ℕ) : Prop :=
  ∀ server, d.target fd = some server → server ∈ K.servers collector

/-! ## What a new socket changes -/

/-- The target of a descriptor after a new connection is an old one or the new one. -/
theorem target_withConnection_inv (h : Consistent d) {server t : ServerAddress} {ip : String}
    {fd fd' : ℕ} (ht : (d.withConnection server ip fd).target fd' = some t) :
    fd' = fd ∧ t = server ∨ d.target fd' = some t := by
  by_cases heq : fd' = fd
  · subst heq
    rw [target_withConnection_self] at ht
    exact .inl ⟨rfl, (Option.some.inj ht).symm⟩
  · obtain ⟨c, hconn, hserver⟩ := Option.bind_eq_some_iff.mp ht
    have hfd := connOf_eq_some.mp hconn
    rw [withConnection_fds_ne _ _ _ _ heq] at hfd
    rw [withConnection_conns, List.getElem?_append_left (h.conn_lt hfd)] at hserver
    refine .inr ?_
    rw [target, connOf_eq_some.mpr hfd, Option.bind_some, hserver]

theorem target_withUnconnected_inv {t : ServerAddress} {fd fd' : ℕ}
    (ht : (d.withUnconnected fd).target fd' = some t) : d.target fd' = some t := by
  obtain ⟨c, hconn, hserver⟩ := Option.bind_eq_some_iff.mp ht
  have hfd := connOf_eq_some.mp hconn
  by_cases heq : fd' = fd
  · subst heq
    rw [withUnconnected_fds_self] at hfd
    cases hfd
  · rw [withUnconnected_fds_ne _ _ heq] at hfd
    rw [target, connOf_eq_some.mpr hfd, Option.bind_some]
    exact hserver

theorem target_without_inv {t : ServerAddress} {host : String} {fd fd' : ℕ}
    (ht : (d.without host fd).target fd' = some t) : d.target fd' = some t := by
  obtain ⟨c, hconn, hserver⟩ := Option.bind_eq_some_iff.mp ht
  obtain ⟨-, hfd⟩ := without_inv (connOf_eq_some.mp hconn)
  rw [target, connOf_eq_some.mpr hfd, Option.bind_some]
  exact hserver

/-- A descriptor keeps reaching only a collector's servers, unless its number is given
to a connection to another one. -/
theorem Reaches.setupStream (h : Consistent d) {server : ServerAddress} {o : SetupOutcome}
    {fd collector : ℕ} (hreach : Reaches K d fd collector)
    (hnew : d.serverMap.lookup server.1 = none → resolve K server.1 o ≠ none →
      o.connects = true → o.fd = fd → server ∈ K.servers collector) :
    Reaches K (Streamer.setupStream K d server o).1 fd collector := by
  rcases setupStream_cases K d server o with
    ⟨fd', -, heq⟩ | ⟨hnone, heq | heq | ⟨ip, hresolve, hconnects, heq⟩⟩
  · rw [heq]
    exact hreach
  · rw [heq]
    exact hreach
  · rw [heq]
    exact fun t ht => hreach t (target_withUnconnected_inv ht)
  · rw [heq]
    intro t ht
    rcases target_withConnection_inv h ht with ⟨hfd, rfl⟩ | hold
    · refine hnew hnone ?_ hconnects hfd.symm
      rw [hresolve]
      exact Option.some_ne_none ip
    · exact hreach t hold

/-- The target of a descriptor after `SetupStream` is an old one or the server set up. -/
theorem target_setupStream_inv (h : Consistent d) {server t : ServerAddress} {o : SetupOutcome}
    {fd : ℕ} (ht : (Streamer.setupStream K d server o).1.target fd = some t) :
    d.target fd = some t ∨ t = server := by
  rcases setupStream_cases K d server o with
    ⟨fd', -, heq⟩ | ⟨-, heq | heq | ⟨ip, -, -, heq⟩⟩
  · rw [heq] at ht
    exact .inl ht
  · rw [heq] at ht
    exact .inl ht
  · rw [heq] at ht
    exact .inl (target_withUnconnected_inv ht)
  · rw [heq] at ht
    rcases target_withConnection_inv h ht with ⟨-, rfl⟩ | hold
    · exact .inr rfl
    · exact .inl hold

/-- The descriptor `SetupStream` returns is connected to a server of the collector. -/
theorem setupStream_target (h : Consistent d) {server : ServerAddress} {o : SetupOutcome}
    {fd collector : ℕ} (hserver : server ∈ K.servers collector)
    (hcached : ∀ fd, d.serverMap.lookup server.1 = some fd → Reaches K d fd collector)
    (hfd : (Streamer.setupStream K d server o).2 = some fd) :
    ∃ t ∈ K.servers collector, (Streamer.setupStream K d server o).1.target fd = some t := by
  rcases setupStream_cases K d server o with
    ⟨fd', hlookup, heq⟩ | ⟨-, heq | heq | ⟨ip, -, -, heq⟩⟩
  · rw [heq] at hfd ⊢
    obtain rfl := Option.some.inj hfd
    obtain ⟨t, ht, -⟩ := h.target_of_lookup hlookup
    exact ⟨t, hcached fd' hlookup t ht, ht⟩
  · rw [heq] at hfd
    cases hfd
  · rw [heq] at hfd
    cases hfd
  · rw [heq] at hfd ⊢
    obtain rfl := Option.some.inj hfd
    exact ⟨server, hserver, target_withConnection_self ..⟩

/-- The recipient of a delivery does not change. -/
theorem Extends.recipient_eq {d d' : Streamer} (h : Extends d d') {w : Delivery}
    {server : ServerAddress} (hw : d.recipient w = some server) :
    d'.recipient w = some server := by
  obtain ⟨conn, hget, rfl⟩ := Option.map_eq_some_iff.mp hw
  obtain ⟨conns, hconns⟩ := h.conns
  have hlt := (List.getElem?_eq_some_iff.mp hget).1
  rw [recipient, ← hconns, List.getElem?_append_left hlt, hget]
  rfl

/-- What `_SendAll` writes goes to the descriptor's target. -/
theorem sendAllTo_cases (d : Streamer) (q : QueuedItem) (fd : ℕ) (results : List (Option ℕ)) :
    (d.sendAllTo q fd results).2 = d ∨
      ∃ c bytes, d.fds fd = some (.connected c) ∧
        (d.sendAllTo q fd results).2 = d.withDelivery c q bytes := by
  rw [sendAllTo]
  cases hconn : d.connOf fd with
  | none => exact .inl rfl
  | some c => exact .inr ⟨c, _, connOf_eq_some.mp hconn, rfl⟩

end Streamer

/-! ## Runs -/

namespace Daemon

open Streamer

variable {K : DaemonConfig} {t t' : Daemon}

/-- The numbers that an item holds for its collector. -/
def holds (collector : ℕ) (sockFds : List ℕ) : List (ℕ × ℕ) :=
  sockFds.map fun fd => (collector, fd)

/-- The numbers held by the item that the timer thread sets up. -/
def timerHeld : TimerThread → List (ℕ × ℕ)
  | .idle => []
  | .settingUp collector item _ => holds collector item.serversSockFd

/-- The numbers of the sockets that the streamer thread still has to send its item to. -/
def senderHeld : StreamerThread → List (ℕ × ℕ)
  | .idle => []
  | .sending q sockFd sockFds => holds q.collector (sockFd :: sockFds)
  | .removing q _ sockFds => holds q.collector sockFds

/-- The numbers held by queued items. -/
def queueHeld (queue : List QueuedItem) : List (ℕ × ℕ) :=
  queue.flatMap fun q => holds q.collector q.item.serversSockFd

/-- All numbers that items hold, each with the collector of its item. -/
def held (t : Daemon) : List (ℕ × ℕ) :=
  queueHeld t.shared.queue ++ timerHeld t.timer ++ senderHeld t.sender

/-- No call of `SetupStream` gives a number that an item holds to a server the item's
collector does not list. -/
def NumberUnused (K : DaemonConfig) (t : Daemon) : Action → Prop
  | .setupStream o =>
    match t.timer with
    | .settingUp _ _ (server :: _) =>
      t.shared.serverMap.lookup server.1 = none → resolve K server.1 o ≠ none →
        o.connects = true → ∀ p ∈ t.held, p.2 = o.fd → server ∈ K.servers p.1
    | _ => True
  | _ => True

/-- No call of `SetupStream` finds a cached connection to a server its collector does not
list. -/
def CachedListed (K : DaemonConfig) (t : Daemon) : Action → Prop
  | .setupStream _ =>
    match t.timer with
    | .settingUp collector _ (server :: _) =>
      ∀ fd, t.shared.serverMap.lookup server.1 = some fd → Reaches K t.shared fd collector
    | _ => True
  | _ => True

/-- The condition on the calls of `SetupStream`. -/
def NumbersUnused (K : DaemonConfig) (t : Daemon) (a : Action) : Prop :=
  NumberUnused K t a ∧ CachedListed K t a

/-- No host is listed with two ports. -/
def DistinctHosts (K : DaemonConfig) : Prop :=
  ∀ collector collector', ∀ server ∈ K.servers collector, ∀ server' ∈ K.servers collector',
    server.1 = server'.1 → server = server'

theorem senderHeld_turnTo (q : QueuedItem) (sockFds : List ℕ) :
    senderHeld (.turnTo q sockFds) = holds q.collector sockFds := by
  cases sockFds with
  | nil => rfl
  | cons sockFd sockFds => rfl

/-- The invariant: the numbers held reach only servers their collectors list, and
deliveries went to such. -/
structure Addressed (K : DaemonConfig) (t : Daemon) : Prop where
  /-- map and descriptors -/
  consistent : Consistent t.shared
  /-- servers left to set up are listed -/
  listed : ∀ collector item servers, t.timer = .settingUp collector item servers →
    ∀ server ∈ servers, server ∈ K.servers collector
  /-- connections are to listed servers -/
  known : ∀ {fd server}, t.shared.target fd = some server →
    ∃ collector, server ∈ K.servers collector
  /-- numbers held -/
  held : ∀ p ∈ t.held, Reaches K t.shared p.2 p.1
  /-- deliveries -/
  delivered : ∀ w ∈ t.shared.deliveries, ∃ server ∈ K.servers w.queued.collector,
    t.shared.recipient w = some server

theorem mem_held {p : ℕ × ℕ} :
    p ∈ t.held ↔
      p ∈ queueHeld t.shared.queue ∨ p ∈ timerHeld t.timer ∨ p ∈ senderHeld t.sender := by
  rw [held, List.mem_append, List.mem_append, or_assoc]

/-- Numbers may be let go, and descriptors closed. -/
theorem Addressed.mono (h : Addressed K t) (hconsistent : Consistent t'.shared)
    (hlisted : ∀ collector item servers, t'.timer = .settingUp collector item servers →
      ∀ server ∈ servers, server ∈ K.servers collector)
    (hheld : ∀ p ∈ t'.held, p ∈ t.held)
    (htarget : ∀ {fd server}, t'.shared.target fd = some server →
      t.shared.target fd = some server)
    (hconns : t'.shared.conns = t.shared.conns)
    (hdeliveries : t'.shared.deliveries = t.shared.deliveries) : Addressed K t' where
  consistent := hconsistent
  listed := hlisted
  known hserver := h.known (htarget hserver)
  held p hp server hserver := h.held p (hheld p hp) server (htarget hserver)
  delivered w hw := by
    rw [recipient, hconns]
    exact h.delivered w (hdeliveries ▸ hw)

/-- A call of `SetupStream` that meets the condition. -/
theorem Addressed.setupStream {shared : Streamer} {sender : StreamerThread} {collector : ℕ}
    {item : StreamItem} {server : ServerAddress} {servers : List ServerAddress} {o : SetupOutcome}
    (h : Addressed K ⟨shared, .settingUp collector item (server :: servers), sender⟩)
    (halloc : K.allocates shared.fds o.fd)
    (hok : NumbersUnused K ⟨shared, .settingUp collector item (server :: servers), sender⟩
      (.setupStream o)) :
    Addressed K
      ⟨(Streamer.setupStream K shared server o).1,
        .settingUp collector
          { item with
            serversSockFd := item.serversSockFd ++
              (Streamer.setupStream K shared server o).2.toList }
          servers,
        sender⟩ := by
  obtain ⟨hnew, hcached⟩ := hok
  have hext := setupStream_extends K server halloc
  have hlisted := h.listed collector item _ rfl
  have hserver := hlisted server (List.mem_cons_self ..)
  have hconsistent : Consistent shared := h.consistent
  -- numbers that were held before reach no more than they did
  have hold : ∀ p ∈ (Daemon.mk shared (.settingUp collector item (server :: servers)) sender).held,
      Reaches K (Streamer.setupStream K shared server o).1 p.2 p.1 := by
    intro p hp
    refine (h.held p hp).setupStream hconsistent ?_
    exact fun hnone hresolve hconnects hfd => hnew hnone hresolve hconnects p hp hfd.symm
  refine ⟨hconsistent.setupStream K halloc, ?_, ?_, ?_, ?_⟩
  · rintro _ _ _ heq server' hmem
    obtain ⟨rfl, -, rfl⟩ := TimerThread.settingUp.inj heq
    exact hlisted server' (List.mem_cons_of_mem _ hmem)
  · intro fd server' htarget
    rcases target_setupStream_inv hconsistent htarget with hbefore | rfl
    · exact h.known hbefore
    · exact ⟨collector, hserver⟩
  · intro p hp
    rcases mem_held.mp hp with hqueue | htimer | hsender
    · refine hold p (mem_held.mpr (.inl ?_))
      rw [← hext.queue]
      exact hqueue
    · obtain ⟨fd, hfd, rfl⟩ := List.mem_map.mp htimer
      rcases List.mem_append.mp hfd with hfd | hfd
      · exact hold _ (mem_held.mpr (.inr (.inl (List.mem_map_of_mem hfd))))
      · obtain ⟨server', hserver', htarget⟩ :=
          setupStream_target hconsistent hserver hcached (Option.mem_toList.mp hfd)
        intro server'' htarget'
        obtain rfl := Option.some.inj (htarget.symm.trans htarget')
        exact hserver'
    · exact hold p (mem_held.mpr (.inr (.inr hsender)))
  · intro w hw
    rw [hext.deliveries] at hw
    obtain ⟨server', hserver', hrecipient⟩ := h.delivered w hw
    exact ⟨server', hserver', hext.recipient_eq hrecipient⟩

/-- `_SendAll` writes to a server that the collector lists. -/
theorem Addressed.sendAll {shared : Streamer} {timer : TimerThread} {sender : StreamerThread}
    {q : QueuedItem} {sockFd : ℕ} {sockFds : List ℕ} {results : List (Option ℕ)}
    (h : Addressed K ⟨shared, timer, .sending q sockFd sockFds⟩)
    (hsender : ∀ p ∈ senderHeld sender, p ∈ holds q.collector sockFds) :
    Addressed K ⟨(shared.sendAllTo q sockFd results).2, timer, sender⟩ := by
  have hconsistent : Consistent shared := h.consistent
  have hheld : ∀ p, p ∈ queueHeld shared.queue ∨ p ∈ timerHeld timer ∨ p ∈ senderHeld sender →
      Reaches K shared p.2 p.1 := by
    intro p hp
    refine h.held p (mem_held.mpr (hp.imp_right (Or.imp_right fun hmem => ?_)))
    exact List.mem_cons_of_mem _ (hsender p hmem)
  rcases sendAllTo_cases shared q sockFd results with heq | ⟨c, bytes, hc, heq⟩
  · rw [heq]
    exact ⟨hconsistent, h.listed, h.known, fun p hp => hheld p (mem_held.mp hp), h.delivered⟩
  · rw [heq]
    refine ⟨hconsistent.congr rfl rfl rfl, h.listed, h.known,
      fun p hp => hheld p (mem_held.mp hp), ?_⟩
    intro w hw
    rcases List.mem_append.mp hw with hold | hnew
    · exact h.delivered w hold
    · obtain rfl := List.mem_singleton.mp hnew
      obtain ⟨host, hhost⟩ := hconsistent.listed hc
      obtain ⟨server, hserver, -⟩ := hconsistent.target_of_lookup hhost
      have hsending : (q.collector, sockFd) ∈
          (Daemon.mk shared timer (.sending q sockFd sockFds)).held :=
        mem_held.mpr (.inr (.inr (List.mem_cons_self ..)))
      refine ⟨server, h.held _ hsending server hserver, ?_⟩
      rw [target, connOf_eq_some.mpr hc, Option.bind_some] at hserver
      exact hserver

/-- Cleaning up makes no server reachable. -/
theorem Addressed.remove {shared : Streamer} {timer : TimerThread} {q : QueuedItem} {sockFd : ℕ}
    {sockFds : List ℕ} (h : Addressed K ⟨shared, timer, .removing q sockFd sockFds⟩) :
    Addressed K ⟨shared.removeAndCleanupSockFd sockFd, timer, .turnTo q sockFds⟩ := by
  have hconsistent : Consistent shared := h.consistent
  have hheld : ∀ p, p ∈ queueHeld shared.queue ∨ p ∈ timerHeld timer ∨
      p ∈ senderHeld (.turnTo q sockFds) →
        p ∈ (Daemon.mk shared timer (.removing q sockFd sockFds)).held := by
    rw [senderHeld_turnTo]
    exact fun p hp => mem_held.mpr hp
  rcases hconsistent.removeAndCleanupSockFd_cases sockFd with heq | ⟨host, hhost, heq⟩
  · rw [heq]
    exact h.mono hconsistent h.listed (fun p hp => hheld p (mem_held.mp hp)) id rfl rfl
  · rw [heq]
    exact h.mono (hconsistent.without hhost) h.listed (fun p hp => hheld p (mem_held.mp hp))
      target_without_inv rfl rfl

/-- **One step under the condition.** -/
theorem Addressed.step {a : Action} (h : Addressed K t) (hstep : Step K t a t')
    (hok : NumbersUnused K t a) : Addressed K t' := by
  cases hstep with
  | compose hcompose =>
    obtain ⟨-, rfl⟩ := StreamItem.compose_eq_ok hcompose
    refine h.mono h.consistent ?_ (fun p hp => hp) id rfl rfl
    rintro _ _ _ heq
    obtain ⟨rfl, -, rfl⟩ := TimerThread.settingUp.inj heq
    exact fun server hserver => hserver
  | setupStream halloc => exact h.setupStream halloc hok
  | @stream shared sender collector item =>
    refine h.mono (h.consistent.congr rfl rfl rfl) nofun ?_ id rfl rfl
    intro p hp
    rcases mem_held.mp hp with hqueue | htimer | hsender
    · rw [queueHeld, enqueue, List.flatMap_append] at hqueue
      rcases List.mem_append.mp hqueue with hold | hnew
      · exact mem_held.mpr (.inl hold)
      · rw [List.flatMap_singleton] at hnew
        exact mem_held.mpr (.inr (.inl hnew))
    · cases htimer
    · exact mem_held.mpr (.inr (.inr hsender))
  | @pop shared timer q queue hqueue =>
    refine h.mono (h.consistent.congr rfl rfl rfl) h.listed ?_ id rfl rfl
    intro p hp
    have hall : queueHeld shared.queue =
        holds q.collector q.item.serversSockFd ++ queueHeld queue := by
      rw [hqueue]
      rfl
    rcases mem_held.mp hp with hrest | htimer | hsender
    · refine mem_held.mpr (.inl ?_)
      rw [hall]
      exact List.mem_append_right _ hrest
    · exact mem_held.mpr (.inr (.inl htimer))
    · refine mem_held.mpr (.inl ?_)
      rw [senderHeld_turnTo] at hsender
      rw [hall]
      exact List.mem_append_left _ hsender
  | @sent shared timer q sockFd sockFds results hall =>
    refine h.sendAll ?_
    rw [senderHeld_turnTo]
    exact fun p hp => hp
  | fellShort hshort => exact h.sendAll fun p hp => hp
  | remove => exact h.remove

theorem addressed_of_reachable (h : ((system K).guarded (NumbersUnused K)).Reachable t) :
    Addressed K t := by
  refine h.invariant (I := Addressed K) ?_ ?_
  · rintro _ ⟨d, hd, rfl⟩
    have hstarted : Consistent d := .started hd
    refine ⟨hstarted, nofun, ?_, ?_, ?_⟩
    · intro fd server htarget
      obtain ⟨c, hconn, -⟩ := Option.bind_eq_some_iff.mp htarget
      exact absurd (connOf_eq_some.mp hconn) (hd.fds fd c)
    · intro p hp
      rw [held, hd.queue] at hp
      cases hp
    · intro w hw
      rw [hd.deliveries] at hw
      cases hw
  · rintro t a t' - ht ⟨hstep, hok⟩
    exact ht.step hstep hok

/-- **When items reach only their collectors' servers**: in every run of the two threads
in which all calls of `SetupStream` meet the condition, bytes of an item are only ever
written to a socket connected to a server its collector lists. -/
theorem noMisdelivery_of_numbersUnused
    (h : ((system K).guarded (NumbersUnused K)).Reachable t) : NoMisdelivery K t.shared :=
  fun w hw _ => (addressed_of_reachable h).delivered w hw

/-- Where no host is listed with two ports, cached connections are to listed servers. -/
theorem Addressed.cachedListed (h : Addressed K t) (hhosts : DistinctHosts K) (a : Action) :
    CachedListed K t a := by
  cases a with
  | setupStream o =>
    rw [CachedListed]
    split
    · next collector item server servers htimer =>
      intro fd hlookup server' htarget
      have hlisted := h.listed collector item _ htimer server (List.mem_cons_self ..)
      obtain ⟨server'', htarget', hhost⟩ := h.consistent.target_of_lookup hlookup
      obtain rfl := Option.some.inj (htarget.symm.trans htarget')
      obtain ⟨collector', hknown⟩ := h.known htarget
      rw [hhosts collector' collector server' hknown server hlisted hhost]
      exact hlisted
    · trivial
  | compose | stream | pop | sendAll | remove => trivial

/-- **Distinct hosts**: then only the numbers matter. -/
theorem noMisdelivery_of_distinctHosts (hhosts : DistinctHosts K)
    (h : ((system K).guarded (NumberUnused K)).Reachable t) : NoMisdelivery K t.shared := by
  have hreachable : ((system K).guarded (NumbersUnused K)).Reachable t := by
    refine h.invariant (I := ((system K).guarded (NumbersUnused K)).Reachable) ?_ ?_
    · exact fun t ht => .start ht
    · rintro t a t' - ht ⟨hstep, hok⟩
      exact ht.next ⟨hstep, hok, (addressed_of_reachable ht).cachedListed hhosts a⟩
  exact fun w hw _ => (addressed_of_reachable hreachable).delivered w hw

/-- A call for a server that is not connected, with a number that no item holds. -/
theorem numbersUnused_of_unconnected {collector : ℕ} {item : StreamItem} {server : ServerAddress}
    {servers : List ServerAddress} {o : SetupOutcome}
    (htimer : t.timer = .settingUp collector item (server :: servers))
    (hlookup : t.shared.serverMap.lookup server.1 = none) (hheld : ∀ p ∈ t.held, p.2 ≠ o.fd) :
    NumbersUnused K t (.setupStream o) := by
  rw [NumbersUnused, NumberUnused, CachedListed, htimer]
  refine ⟨fun _ _ _ p hp hfd => absurd hfd (hheld p hp), ?_⟩
  intro fd hfd
  rw [hlookup] at hfd
  cases hfd

/-- Two collectors, each with one server of its own. -/
def twoCollectors : DaemonConfig :=
  posix ["10.1.1.1", "10.1.1.2"] fun
    | 0 => [("tile-0-0", 51150)]
    | 1 => [("tile-0-1", 51151)]
    | _ => []

/-- Both servers get a message of their collector; the second callback runs while the
first message is sent. -/
theorem noMisdelivery_two_servers :
    ∃ t, ((system twoCollectors).guarded (NumbersUnused twoCollectors)).Reachable t ∧
      t.shared.deliveries.map t.shared.recipient =
        [some ("tile-0-0", 51150), some ("tile-0-1", 51151)] ∧
      NoMisdelivery twoCollectors t.shared := by
  have hstart : ((system twoCollectors).guarded (NumbersUnused twoCollectors)).Reachable
      ⟨initial, .idle, .idle⟩ := .start ⟨initial, started_initial, rfl⟩
  have hcompose : StreamItem.compose [7] = .ok (.ofPayload [7]) :=
    StreamItem.compose_ok (by decide)
  have hcompose' : StreamItem.compose [8] = .ok (.ofPayload [8]) :=
    StreamItem.compose_ok (by decide)
  -- the first callback, and its message is taken from the queue
  have hcomposed := hstart.next (l := Action.compose 0 [7]) ⟨.compose hcompose, trivial, trivial⟩
  have hset := hcomposed.next (l := Action.setupStream ⟨"10.1.1.1", "", 3, true⟩)
    ⟨.setupStream ⟨rfl, by decide⟩, numbersUnused_of_unconnected rfl (by decide) (by decide)⟩
  have hqueued := hset.next (l := Action.stream) ⟨.stream, trivial, trivial⟩
  have hpopped := hqueued.next (l := Action.pop) ⟨.pop rfl, trivial, trivial⟩
  -- the second callback
  have hcomposed' := hpopped.next (l := Action.compose 1 [8]) ⟨.compose hcompose', trivial, trivial⟩
  have hset' := hcomposed'.next (l := Action.setupStream ⟨"10.1.1.2", "", 4, true⟩)
    ⟨.setupStream ⟨rfl, by decide⟩, numbersUnused_of_unconnected rfl (by decide) (by decide)⟩
  have hsent := hset'.next (l := Action.sendAll [some 9]) ⟨.sent (by decide), trivial, trivial⟩
  have hqueued' := hsent.next (l := Action.stream) ⟨.stream, trivial, trivial⟩
  have hpopped' := hqueued'.next (l := Action.pop) ⟨.pop rfl, trivial, trivial⟩
  have hsent' := hpopped'.next (l := Action.sendAll [some 9]) ⟨.sent (by decide), trivial, trivial⟩
  exact ⟨_, hsent', by decide, noMisdelivery_of_numbersUnused hsent'⟩

/-- The first of two messages to a server breaks its connection; before the second is
sent, the other collector's callback connects to its own server and gets the number
just freed. The second message goes to that server. -/
theorem stale_number_misdelivers :
    ∃ t, (system twoCollectors).Reachable t ∧ DistinctHosts twoCollectors ∧
      t.shared.deliveries.map
          (fun w => (w.queued.collector, w.bytes.length, t.shared.recipient w)) =
        [(0, 0, some ("tile-0-0", 51150)), (0, 5, some ("tile-0-1", 51151))] ∧
      ¬ NoMisdelivery twoCollectors t.shared := by
  have hstart : (Streamer.system twoCollectors).Reachable initial := .start started_initial
  have hfirst := hstart.next (callback_step _ 0 [7]
    [(("tile-0-0", 51150), ⟨"10.1.1.1", "", 3, true⟩)] (by decide) rfl ⟨⟨rfl, by decide⟩, trivial⟩)
  have hsecond := hfirst.next (callback_step _ 0 [8]
    [(("tile-0-0", 51150), ⟨"10.1.1.1", "", 4, true⟩)] (by decide) rfl ⟨⟨rfl, by decide⟩, trivial⟩)
  have hbroken := hsecond.next (iteration_step _ [[none]] rfl)
  have hother := hbroken.next (callback_step _ 1 [9]
    [(("tile-0-1", 51151), ⟨"10.1.1.2", "", 3, true⟩)] (by decide) rfl ⟨⟨rfl, by decide⟩, trivial⟩)
  have hstale := hother.next (iteration_step _ [[some 9]] rfl)
  refine ⟨_, reachable_of_atomic hstale, ?_, by decide, by decide⟩
  intro collector collector' server hserver server' hserver' hhost
  match collector, collector' with
  | 0, 0 | 1, 1 | 0, 1 | 1, 0 => simp_all [twoCollectors, posix]
  | _ + 2, _ => cases hserver
  | _, _ + 2 => cases hserver'

end Daemon

end WallMon
