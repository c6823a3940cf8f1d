import WallMon.Misdelivery

/-!
# One copy per configured server

The daemon without failures: names resolve, servers accept connections, and no send
returns `-1`. Then a message goes, whole and once, to the connection its callback
found or made for each listed server. That is one copy for each listed server
exactly when no host is listed with two ports and no listed host was connected
before with another port (`copies_perm_iff`): `_serverMap` knows servers by host
alone. Lists made for the port forwarder name one host with a port per tile.
-/

namespace WallMon

/-- `ROCKSVV_CLUSTER_HOST_NAME` -/
def rocksvvClusterHostName : String := "rocksvv.cs.uit.no"

/-- `_tileToPortMap` -/
def tileToPortMap : List (String × ℤ) :=
  [("tile-0-0", 51150), ("tile-0-1", 51151), ("tile-0-2", 51152), ("tile-0-3", 51153),
   ("tile-1-0", 51154), ("tile-1-1", 51155), ("tile-1-2", 51156), ("tile-1-3", 51157),
   ("tile-2-0", 51158), ("tile-2-1", 51159), ("tile-2-2", 51160), ("tile-2-3", 51161),
   ("tile-3-0", 51162), ("tile-3-1", 51163), ("tile-3-2", 51164), ("tile-3-3", 51165),
   ("tile-4-0", 51166), ("tile-4-1", 51167), ("tile-4-2", 51168), ("tile-4-3", 51169),
   ("tile-5-0", 51170), ("tile-5-1", 51171), ("tile-5-2", 51172), ("tile-5-3", 51173),
   ("tile-6-0", 51174), ("tile-6-1", 51175), ("tile-6-2", 51176), ("tile-6-3", 51177)]

/-- `PortForwarder::HostnamesToRocksvvRootNodeMapping`; `operator[]` of a missing key
yields 0. -/
def hostnamesToRocksvvRootNodeMapping (hostnames : List String) : List ServerAddress :=
  hostnames.map fun hostname =>
    (rocksvvClusterHostName, (tileToPortMap.lookup hostname).getD 0)

/-- A forwarded list of two tiles or more names one host twice. -/
theorem not_nodup_forwarded {hostnames : List String} (h : 2 ≤ hostnames.length) :
    ¬ ((hostnamesToRocksvvRootNodeMapping hostnames).map (·.1)).Nodup := by
  match hostnames with
  | [] => simp at h
  | [_] => simp at h
  | _ :: _ :: _ => simp [hostnamesToRocksvvRootNodeMapping]

namespace Streamer

variable {K : DaemonConfig} {d d' : Streamer}

/-- A server with a resolvable name, which accepts the connection. -/
def Accepting (K : DaemonConfig) (call : ServerAddress × SetupOutcome) : Prop :=
  K.isValidIpAddress call.1.1 = false ∧ resolve K call.1.1 call.2 ≠ none ∧
    call.2.connects = true

/-- Nothing fails: servers accept connections, and each send of the item at the front
takes some bytes. -/
def NeverFails (K : DaemonConfig) (d : Streamer) : Event → Prop
  | .callback _ _ calls => ∀ call ∈ calls, Accepting K call
  | .iteration results => ∀ q ∈ d.queue.head?,
      results.length = q.item.serversSockFd.length ∧
        ∀ rs ∈ results, none ∉ rs ∧ q.item.message.length ≤ rs.length

instance (call : ServerAddress × SetupOutcome) : Decidable (Accepting K call) :=
  inferInstanceAs (Decidable (_ ∧ _ ∧ _))

instance (e : Event) : Decidable (NeverFails K d e) :=
  match e with
  | .callback _ _ calls => inferInstanceAs (Decidable (∀ call ∈ calls, Accepting K call))
  | .iteration results => inferInstanceAs (Decidable (∀ q ∈ d.queue.head?,
      results.length = q.item.serversSockFd.length ∧
        ∀ rs ∈ results, none ∉ rs ∧ q.item.message.length ≤ rs.length))

/-- The daemon without failures. -/
def unfailing (K : DaemonConfig) : TransitionSystem Streamer Event :=
  (system K).guarded (NeverFails K)

/-- What was written of the item with this number: to whom, and which bytes. -/
def copies (d : Streamer) (number : ℕ) : List (Option ServerAddress × List UInt8) :=
  (d.deliveries.filter (·.queued.number = number)).map fun w => (d.recipient w, w.bytes)

/-- The server that the descriptor cached for a host is connected to. -/
def cached (d : Streamer) (host : String) : Option ServerAddress :=
  (d.serverMap.lookup host).bind d.target

/-! ## Sending without failures -/

/-- Sends that all take some bytes end with the whole message sent. -/
theorem sendAll_complete {message : List UInt8} {len : ℕ} {results : List (Option ℕ)}
    (hnone : none ∉ results) {n : ℕ} (hn : n ≤ len) (hlen : len ≤ results.length + n) :
    (sendAll true message len results n).1 = len := by
  induction results generalizing n with
  | nil =>
    rw [List.length_nil] at hlen
    rw [sendAll]
    dsimp only
    omega
  | cons r results ih =>
    rw [List.length_cons] at hlen
    cases r with
    | none => exact absurd (List.mem_cons_self ..) hnone
    | some k =>
      rw [sendAll, if_pos rfl]
      dsimp only
      split
      · next hlt =>
        apply ih (fun hmem => hnone (List.mem_cons_of_mem _ hmem))
        · omega
        · omega
      · dsimp only
        omega

/-- What a complete item is delivered as. -/
def completeDeliveries (d : Streamer) (q : QueuedItem) (fds : List ℕ) : List Delivery :=
  fds.map fun fd => { conn := (d.connOf fd).getD 0, queued := q, bytes := q.item.message }

/-- **Sending without failures** delivers the whole item on every descriptor. -/
theorem sendItem_complete {q : QueuedItem} (hq : Composed q.item) {fds : List ℕ}
    {results : List (List (Option ℕ))} (hfds : ∀ fd ∈ fds, ∃ c, d.fds fd = some (.connected c))
    (hlen : results.length = fds.length)
    (hresults : ∀ rs ∈ results, none ∉ rs ∧ q.item.message.length ≤ rs.length) :
    sendItem q fds results d =
      { d with deliveries := d.deliveries ++ d.completeDeliveries q fds } := by
  induction fds generalizing results d with
  | nil =>
    rw [sendItem, completeDeliveries, List.map_nil, List.append_nil]
  | cons fd fds ih =>
    cases results with
    | nil => cases hlen
    | cons rs results =>
      obtain ⟨⟨hnone, hle⟩, hresults⟩ := List.forall_mem_cons.mp hresults
      obtain ⟨⟨c, hc⟩, hfds⟩ := List.forall_mem_cons.mp hfds
      have hsend : d.sendTo q fd rs = d.withDelivery c q q.item.message := by
        rw [sendTo, connOf_eq_some.mpr hc, hq.2.1, Int.toNat_natCast]
        dsimp only
        rw [sendAll_bytes, sendAll_complete hnone (Nat.zero_le _) hle, List.take_length,
          if_neg (fun hne => hne rfl)]
      rw [sendItem, List.headD_cons, List.tail_cons, hsend,
        ih (d := d.withDelivery c q q.item.message) hfds (Nat.succ.inj hlen) hresults]
      simp [withDelivery, completeDeliveries, connOf, hc]

/-! ## Setting up without failures -/

/-- Where servers accept, the descriptor `SetupStream` returns is the cached one from
then on. -/
theorem setupStream_lookup {server : ServerAddress} {o : SetupOutcome}
    (h : Accepting K (server, o)) :
    ∃ fd, (setupStream K d server o).2 = some fd ∧
      (setupStream K d server o).1.serverMap.lookup server.1 = some fd := by
  obtain ⟨-, hresolve, hconnects⟩ := h
  obtain ⟨ip, hip⟩ := Option.ne_none_iff_exists'.mp hresolve
  rw [setupStream]
  cases hlookup : d.serverMap.lookup server.1 with
  | some fd => exact ⟨fd, rfl, hlookup⟩
  | none =>
    dsimp only at hip hconnects ⊢
    rw [hip]
    dsimp only
    rw [if_pos hconnects]
    exact ⟨o.fd, rfl, withConnection_lookup_self ..⟩

/-- The descriptors the callback gets are those cached for its servers afterwards. -/
theorem setupStreams_lookup {calls : List (ServerAddress × SetupOutcome)}
    (halloc : Allocates K calls d) (hcalls : ∀ call ∈ calls, Accepting K call) :
    (setupStreams K calls d).2.map some =
      calls.map fun call => (setupStreams K calls d).1.serverMap.lookup call.1.1 := by
  induction calls generalizing d with
  | nil => rfl
  | cons call calls ih =>
    obtain ⟨hfd, halloc⟩ := halloc
    obtain ⟨hcall, hcalls⟩ := List.forall_mem_cons.mp hcalls
    obtain ⟨fd, hgot, hlookup⟩ := setupStream_lookup (d := d) hcall
    have hlater := (setupStreams_extends K halloc).lookup hlookup
    rw [setupStreams_cons, hgot, Option.toList_some, List.singleton_append, List.map_cons,
      List.map_cons, ih halloc hcalls, hlater]

/-- A host that was not cached is cached with one of the servers set up. -/
theorem setupStreams_new {calls : List (ServerAddress × SetupOutcome)} (h : Consistent d)
    (halloc : Allocates K calls d) {host : String} {fd : ℕ}
    (hlookup : (setupStreams K calls d).1.serverMap.lookup host = some fd) :
    d.serverMap.lookup host = some fd ∨
      ∃ call ∈ calls, (setupStreams K calls d).1.target fd = some call.1 := by
  induction calls generalizing d with
  | nil => exact .inl hlookup
  | cons call calls ih =>
    obtain ⟨hfd, halloc⟩ := halloc
    rcases ih (h.setupStream K hfd) halloc hlookup with hold | ⟨call', hmem, htarget⟩
    · rcases setupStream_cases K d call.1 call.2 with
        ⟨fd', -, heq⟩ | ⟨-, heq | heq | ⟨ip, -, -, heq⟩⟩
      · rw [heq] at hold
        exact .inl hold
      · rw [heq] at hold
        exact .inl hold
      · rw [heq] at hold
        exact .inl hold
      · rw [heq] at hold
        by_cases hhost : host = call.1.1
        · subst hhost
          rw [withConnection_lookup_self] at hold
          obtain rfl := Option.some.inj hold
          refine .inr ⟨call, List.mem_cons_self .., ?_⟩
          apply (setupStreams_extends K halloc).target_eq
          rw [heq]
          exact target_withConnection_self ..
        · rw [withConnection_lookup_ne _ _ _ _ hhost] at hold
          exact .inl hold
    · exact .inr ⟨call', List.mem_cons_of_mem _ hmem, htarget⟩

/-- A cached host keeps its server. -/
theorem Extends.cached_eq (h : Extends d d') {host : String} {server : ServerAddress}
    (hcached : d.cached host = some server) : d'.cached host = some server := by
  obtain ⟨fd, hlookup, htarget⟩ := Option.bind_eq_some_iff.mp hcached
  rw [cached, h.lookup hlookup, Option.bind_some, h.target_eq htarget]

theorem Consistent.cached_host (h : Consistent d) {host : String} {server : ServerAddress}
    (hcached : d.cached host = some server) : server.1 = host := by
  obtain ⟨fd, hlookup, htarget⟩ := Option.bind_eq_some_iff.mp hcached
  obtain ⟨server', htarget', hhost⟩ := h.target_of_lookup hlookup
  rw [Option.some.inj (htarget.symm.trans htarget')]
  exact hhost

/-- **Setting up without failures**: the callback gets a descriptor for each server,
which is connected to what is cached for the server's host afterwards: what was
cached before, else one of the callback's own servers. -/
theorem setupStreams_targets {calls : List (ServerAddress × SetupOutcome)} (h : Consistent d)
    (halloc : Allocates K calls d) (hcalls : ∀ call ∈ calls, Accepting K call) :
    (setupStreams K calls d).2.map (setupStreams K calls d).1.target =
        calls.map (fun call => (setupStreams K calls d).1.cached call.1.1) ∧
      ∀ call ∈ calls, d.cached call.1.1 = none →
        ∃ call' ∈ calls, call'.1.1 = call.1.1 ∧
          (setupStreams K calls d).1.cached call.1.1 = some call'.1 := by
  have hlookups := setupStreams_lookup halloc hcalls
  have hconsistent := h.setupStreams K halloc
  refine ⟨?_, ?_⟩
  · have hmap := congrArg (List.map (·.bind (setupStreams K calls d).1.target)) hlookups
    rw [List.map_map, List.map_map] at hmap
    exact hmap
  · intro call hmem hnone
    have hsome : (setupStreams K calls d).1.serverMap.lookup call.1.1 ∈
        (setupStreams K calls d).2.map some := by
      rw [hlookups]
      exact List.mem_map_of_mem hmem
    obtain ⟨fd, -, hlookup⟩ := List.mem_map.mp hsome
    rcases setupStreams_new h halloc hlookup.symm with hold | ⟨call', hmem', htarget⟩
    · obtain ⟨server, htarget, -⟩ := h.target_of_lookup hold
      rw [cached, hold, Option.bind_some, htarget] at hnone
      cases hnone
    · have hcached : (setupStreams K calls d).1.cached call.1.1 = some call'.1 := by
        rw [cached, ← hlookup, Option.bind_some, htarget]
      exact ⟨call', hmem', hconsistent.cached_host hcached, hcached⟩

/-! ## Runs without failures -/

/-- The daemon after an iteration in which all of the first item was sent. -/
def afterIteration (d : Streamer) (q : QueuedItem) (queue : List QueuedItem) : Streamer :=
  { d with
    queue := queue
    deliveries := d.deliveries ++ d.completeDeliveries q q.item.serversSockFd }

/-- What holds in runs without failures, besides the general invariants: items are
numbered, and queued items have connected descriptors. -/
structure Healthy (d : Streamer) : Prop where
  /-- map and descriptors -/
  consistent : Consistent d
  /-- frames -/
  aligned : Aligned d
  /-- queued items -/
  queued : ∀ q ∈ d.queue, q.number < d.produced ∧
    ∀ fd ∈ q.item.serversSockFd, ∃ c, d.fds fd = some (.connected c)
  /-- deliveries are of items queued before -/
  delivered : ∀ w ∈ d.deliveries, w.queued.number < d.produced

/-- An iteration without failures sends all of the first item. -/
theorem Healthy.iteration (h : Healthy d) {q : QueuedItem} {queue : List QueuedItem}
    {results : List (List (Option ℕ))} (hqueue : d.queue = q :: queue)
    (hok : NeverFails K d (.iteration results)) :
    sendItem q q.item.serversSockFd results { d with queue } = d.afterIteration q queue := by
  have hmem : q ∈ d.queue := by
    rw [hqueue]
    exact List.mem_cons_self ..
  obtain ⟨hlen, hresults⟩ := hok q (by rw [hqueue]; rfl)
  exact sendItem_complete (h.aligned.queued q hmem) (h.queued q hmem).2 hlen hresults

/-- The descriptors a callback gets are connected. -/
theorem setupStreams_connected {calls : List (ServerAddress × SetupOutcome)} (h : Consistent d)
    (halloc : Allocates K calls d) (hcalls : ∀ call ∈ calls, Accepting K call) :
    ∀ fd ∈ (setupStreams K calls d).2,
      ∃ c, (setupStreams K calls d).1.fds fd = some (.connected c) := by
  intro fd hfd
  have hconsistent := h.setupStreams K halloc
  have hmem : some fd ∈ (setupStreams K calls d).2.map some := List.mem_map_of_mem hfd
  rw [setupStreams_lookup halloc hcalls] at hmem
  obtain ⟨call, -, hlookup⟩ := List.mem_map.mp hmem
  obtain ⟨c, conn, hconn, -, -⟩ := hconsistent.mapped hlookup
  exact ⟨c, hconn⟩

theorem Healthy.step (h : Healthy d) {e : Event} (hstep : Step K d e d')
    (hok : NeverFails K d e) : Healthy d' := by
  obtain ⟨hconsistent, haligned⟩ := Step.aligned hstep h.consistent h.aligned
  cases hstep with
  | @callback collector payload calls item _ _ halloc =>
    have hext := setupStreams_extends K halloc
    refine ⟨hconsistent, haligned, ?_, ?_⟩
    · intro q hq
      rcases List.mem_append.mp hq with hold | hnew
      · rw [hext.queue] at hold
        obtain ⟨hlt, hfds⟩ := h.queued q hold
        refine ⟨Nat.lt_succ_of_lt hlt, fun fd hfd => ?_⟩
        obtain ⟨c, hc⟩ := hfds fd hfd
        exact ⟨c, hext.fds hc⟩
      · obtain rfl := List.mem_singleton.mp hnew
        exact ⟨Nat.lt_succ_self _, setupStreams_connected h.consistent halloc hok⟩
    · intro w hw
      refine Nat.lt_succ_of_lt (h.delivered w ?_)
      rw [← hext.deliveries]
      exact hw
  | @iteration q queue results hqueue =>
    have heq := h.iteration hqueue hok
    rw [heq] at hconsistent haligned ⊢
    refine ⟨hconsistent, haligned, ?_, ?_⟩
    · exact fun q' hq' => h.queued q' (by rw [hqueue]; exact List.mem_cons_of_mem _ hq')
    · intro w hw
      rcases List.mem_append.mp hw with hold | hnew
      · exact h.delivered w hold
      · obtain ⟨fd, -, rfl⟩ := List.mem_map.mp hnew
        exact (h.queued q (by rw [hqueue]; exact List.mem_cons_self ..)).1

theorem Healthy.reachable (h : (unfailing K).Reachable d) : Healthy d := by
  refine h.invariant (I := Healthy) ?_ ?_
  · intro d hd
    refine ⟨.started hd, .started hd, ?_, ?_⟩
    · intro q hq
      rw [hd.queue] at hq
      exact absurd hq List.not_mem_nil
    · intro w hw
      rw [hd.deliveries] at hw
      exact absurd hw List.not_mem_nil
  · exact fun d e d' _ hd hstep => hd.step hstep.1 hstep.2

/-! ## The copies of one item -/

/-- Setting up streams changes nothing about what was written. -/
theorem copies_of_extends (h : Extends d d') (ha : Aligned d) (number : ℕ) :
    d'.copies number = d.copies number := by
  rw [copies, copies, h.deliveries]
  refine List.map_congr_left fun w hw => ?_
  have hlt := (ha.delivered w (List.mem_of_mem_filter hw)).2.1
  have hsome : d.recipient w = some d.conns[w.conn].server := by
    rw [recipient, List.getElem?_eq_getElem hlt]
    rfl
  rw [hsome, h.recipient_eq hsome]

/-- What an iteration adds to the copies of an item. -/
theorem copies_afterIteration {q : QueuedItem} {queue : List QueuedItem} {number : ℕ}
    (hfds : ∀ fd ∈ q.item.serversSockFd, ∃ c, d.fds fd = some (.connected c)) :
    (d.afterIteration q queue).copies number = d.copies number ++
      if q.number = number then q.item.serversSockFd.map fun fd => (d.target fd, q.item.message)
      else [] := by
  have hnew : (d.completeDeliveries q q.item.serversSockFd).map
      (fun w => (d.recipient w, w.bytes)) =
        q.item.serversSockFd.map fun fd => (d.target fd, q.item.message) := by
    rw [completeDeliveries, List.map_map]
    refine List.map_congr_left fun fd hfd => ?_
    obtain ⟨c, hc⟩ := hfds fd hfd
    rw [Function.comp_apply, recipient, target, connOf_eq_some.mpr hc]
    rfl
  have hnumber : ∀ w ∈ d.completeDeliveries q q.item.serversSockFd, w.queued = q := by
    intro w hw
    obtain ⟨fd, -, rfl⟩ := List.mem_map.mp hw
    rfl
  rw [copies, afterIteration, List.filter_append, List.map_append]
  congr 1
  split
  · next heq =>
    rw [List.filter_eq_self.mpr fun w hw => by rw [hnumber w hw, heq]; exact decide_eq_true rfl]
    exact hnew
  · next hne =>
    rw [List.filter_eq_nil_iff.mpr fun w hw => by rw [hnumber w hw]; simp [hne]]
    rfl

/-- An item on its way: it waits in the queue and nothing was written of it, or it has
been sent to each of its descriptors. -/
structure Tracked (q : QueuedItem) (targets : List (Option ServerAddress)) (d : Streamer) :
    Prop where
  /-- the daemon is in order -/
  healthy : Healthy d
  /-- the item was queued -/
  number_lt : q.number < d.produced
  /-- what the item's descriptors are connected to -/
  targets_eq : q.item.serversSockFd.map d.target = targets
  /-- its descriptors are connected -/
  connected : ∀ fd ∈ q.item.serversSockFd, ∃ c, d.fds fd = some (.connected c)
  /-- it waits, or it was sent -/
  fate : (∃ earlier later, d.queue = earlier ++ q :: later ∧
      (∀ q' ∈ earlier ++ later, q'.number ≠ q.number) ∧ d.copies q.number = []) ∨
    (∀ q' ∈ d.queue, q'.number ≠ q.number) ∧
      d.copies q.number = targets.map fun t => (t, q.item.message)

/-- A connected descriptor has a target. -/
theorem Consistent.target_of_connected (h : Consistent d) {fd c : ℕ}
    (hfd : d.fds fd = some (.connected c)) : ∃ t, d.target fd = some t := by
  obtain ⟨host, hlookup⟩ := h.listed hfd
  obtain ⟨t, ht, -⟩ := h.target_of_lookup hlookup
  exact ⟨t, ht⟩

/-- A callback queues its item behind the one tracked. -/
theorem Tracked.callback {q : QueuedItem} {targets : List (Option ServerAddress)} {collector : ℕ}
    {calls : List (ServerAddress × SetupOutcome)} {item : StreamItem} (h : Tracked q targets d)
    (halloc : Allocates K calls d) (hhealthy : Healthy (d.timerCallback K collector calls item)) :
    Tracked q targets (d.timerCallback K collector calls item) := by
  have hext := setupStreams_extends K halloc
  have hcopies : (d.timerCallback K collector calls item).copies q.number = d.copies q.number :=
    copies_of_extends hext h.healthy.aligned q.number
  refine ⟨hhealthy, Nat.lt_succ_of_lt h.number_lt, ?_, ?_, ?_⟩
  · rw [← h.targets_eq]
    refine List.map_congr_left fun fd hfd => ?_
    obtain ⟨c, hc⟩ := h.connected fd hfd
    obtain ⟨t, ht⟩ := h.healthy.consistent.target_of_connected hc
    rw [ht]
    exact hext.target_eq ht
  · intro fd hfd
    obtain ⟨c, hc⟩ := h.connected fd hfd
    exact ⟨c, hext.fds hc⟩
  · rw [hcopies]
    generalize hlast : d.newItem collector
      { item with serversSockFd := (setupStreams K calls d).2 } = last
    have hqueue : (d.timerCallback K collector calls item).queue = d.queue ++ [last] := by
      rw [← hlast, ← hext.queue]
      rfl
    have hnew : last.number ≠ q.number := by
      rw [← hlast]
      exact Nat.ne_of_gt h.number_lt
    -- numbers are not used twice
    have hnewOnly : ∀ q' ∈ [last], q'.number ≠ q.number := List.forall_mem_singleton.mpr hnew
    rw [hqueue]
    rcases h.fate with ⟨earlier, later, heq, hothers, hnone⟩ | ⟨hothers, hsent⟩
    · refine .inl ⟨earlier, later ++ [last], ?_, ?_, hnone⟩
      · rw [heq, List.append_assoc, List.cons_append]
      · rw [← List.append_assoc]
        exact List.forall_mem_append.mpr ⟨hothers, hnewOnly⟩
    · exact .inr ⟨List.forall_mem_append.mpr ⟨hothers, hnewOnly⟩, hsent⟩

/-- The first item is sent: the one tracked, or one before it, or any if the one tracked
was sent already. -/
theorem Tracked.afterIteration {q first : QueuedItem} {targets : List (Option ServerAddress)}
    {queue : List QueuedItem} (h : Tracked q targets d) (hqueue : d.queue = first :: queue)
    (hhealthy : Healthy (d.afterIteration first queue)) :
    Tracked q targets (d.afterIteration first queue) := by
  refine ⟨hhealthy, h.number_lt, h.targets_eq, h.connected, ?_⟩
  have hmem : first ∈ d.queue := by
    rw [hqueue]
    exact List.mem_cons_self ..
  rw [copies_afterIteration (h.healthy.queued first hmem).2]
  change (∃ earlier later, queue = earlier ++ q :: later ∧ _ ∧ _) ∨ (∀ q' ∈ queue, _) ∧ _
  rcases h.fate with ⟨earlier, later, heq, hothers, hnone⟩ | ⟨hothers, hsent⟩
  · rw [hqueue] at heq
    cases earlier with
    | nil =>
      -- it is the item's turn
      obtain ⟨rfl, rfl⟩ := List.cons.inj heq
      refine .inr ⟨hothers, ?_⟩
      rw [hnone, if_pos rfl, ← h.targets_eq, List.map_map]
      rfl
    | cons q' earlier =>
      obtain ⟨rfl, rfl⟩ := List.cons.inj heq
      obtain ⟨hne, hothers⟩ := List.forall_mem_cons.mp hothers
      refine .inl ⟨earlier, later, rfl, hothers, ?_⟩
      rw [hnone, if_neg hne]
      rfl
  · refine .inr ⟨?_, ?_⟩
    · exact fun q' hq' => hothers q' (by rw [hqueue]; exact List.mem_cons_of_mem _ hq')
    · rw [hsent, if_neg (hothers first hmem), List.append_nil]

/-- **One step without failures** keeps track of an item. -/
theorem Tracked.step {q : QueuedItem} {targets : List (Option ServerAddress)} {e : Event}
    (h : Tracked q targets d) (hstep : Step K d e d') (hok : NeverFails K d e) :
    Tracked q targets d' := by
  have hhealthy := h.healthy.step hstep hok
  cases hstep with
  | callback _ _ halloc => exact h.callback halloc hhealthy
  | iteration hqueue =>
    rw [h.healthy.iteration hqueue hok] at hhealthy ⊢
    exact h.afterIteration hqueue hhealthy

theorem Tracked.run {q : QueuedItem} {targets : List (Option ServerAddress)} {es : List Event}
    (h : Tracked q targets d) (hrun : (unfailing K).Run d es d') :
    Tracked q targets d' :=
  hrun.preserves (fun _ _ _ hd hstep => hd.step hstep.1 hstep.2) h

theorem Tracked.copies_eq {q : QueuedItem} {targets : List (Option ServerAddress)}
    (h : Tracked q targets d) (hsent : ∀ q' ∈ d.queue, q'.number ≠ q.number) :
    d.copies q.number = targets.map fun t => (t, q.item.message) := by
  rcases h.fate with ⟨earlier, later, hqueue, -, -⟩ | ⟨-, hcopies⟩
  · refine absurd rfl (hsent q ?_)
    rw [hqueue]
    exact List.mem_append_right _ (List.mem_cons_self ..)
  · exact hcopies

/-- **A callback without failures** queues an item whose descriptors are connected to
what is cached for its servers. -/
theorem Healthy.tracked (h : Healthy d) {collector : ℕ} {payload : List UInt8}
    {calls : List (ServerAddress × SetupOutcome)} {item : StreamItem}
    (hcompose : StreamItem.compose payload = .ok item)
    (hservers : calls.map (·.1) = K.servers collector) (halloc : Allocates K calls d)
    (haccepting : ∀ call ∈ calls, Accepting K call) :
    Tracked (d.newItem collector { item with serversSockFd := (setupStreams K calls d).2 })
      (calls.map fun call => (setupStreams K calls d).1.cached call.1.1)
      (d.timerCallback K collector calls item) := by
  have hext := setupStreams_extends K halloc
  refine ⟨h.step (.callback hcompose hservers halloc) haccepting, Nat.lt_succ_self _,
    (setupStreams_targets h.consistent halloc haccepting).1,
    setupStreams_connected h.consistent halloc haccepting, .inl ⟨d.queue, [], ?_, ?_, ?_⟩⟩
  · rw [← hext.queue]
    rfl
  · intro q hq
    rw [List.append_nil] at hq
    exact Nat.ne_of_lt (h.queued q hq).1
  · refine (copies_of_extends hext h.aligned d.produced).trans ?_
    rw [copies, List.map_eq_nil_iff, List.filter_eq_nil_iff]
    intro w hw
    have hlt := h.delivered w hw
    simp [Nat.ne_of_lt hlt]

/-! ## Who gets a copy -/

/-- Servers that differ have different hosts, if no host is listed twice. -/
theorem eq_of_host_eq {servers : List ServerAddress} (hnodup : (servers.map (·.1)).Nodup)
    {server server' : ServerAddress} (hmem : server ∈ servers) (hmem' : server' ∈ servers)
    (hhost : server.1 = server'.1) : server = server' :=
  List.inj_on_of_nodup_map hnodup hmem hmem' hhost

/-- **Copies by host**: each listed server's copy goes to what is cached for its host,
before if there is something, else with one of the servers. These are the servers
listed exactly if no host is listed twice and nothing else was cached. -/
theorem perm_cached_iff {servers : List ServerAddress} (hnodup : servers.Nodup)
    {before after : String → Option ServerAddress} (message : List UInt8)
    (hhost : ∀ {host server}, before host = some server → server.1 = host)
    (hkeep : ∀ {host server}, before host = some server → after host = some server)
    (hnew : ∀ server ∈ servers, before server.1 = none →
      ∃ server' ∈ servers, server'.1 = server.1 ∧ after server.1 = some server') :
    (servers.map fun server => (after server.1, message)).Perm
        (servers.map fun server => (some server, message)) ↔
      (servers.map (·.1)).Nodup ∧
        ∀ server ∈ servers, ∀ other, before server.1 = some other → other = server := by
  refine ⟨fun hperm => ?_, ?_⟩
  · have hnodup_some : (servers.map fun server => (some server, message)).Nodup :=
      hnodup.map fun server server' heq => Option.some.inj (Prod.mk.inj heq).1
    -- two ports of one host would get the same copy twice
    have hnodup_after := hperm.nodup_iff.mpr hnodup_some
    have hhosts : (servers.map (·.1)).Nodup := by
      refine hnodup.map_on fun server hmem server' hmem' heq => ?_
      refine List.inj_on_of_nodup_map hnodup_after hmem hmem' ?_
      rw [heq]
    refine ⟨hhosts, ?_⟩
    intro server hmem other hbefore
    have hcopy : (some other, message) ∈ servers.map fun server => (some server, message) := by
      rw [← hkeep hbefore]
      exact hperm.subset (List.mem_map_of_mem hmem)
    obtain ⟨server', hmem', heq⟩ := List.mem_map.mp hcopy
    obtain rfl := Option.some.inj (Prod.mk.inj heq).1
    exact eq_of_host_eq hhosts hmem' hmem (hhost hbefore)
  · rintro ⟨hhosts, hbefore⟩
    refine List.Perm.of_eq (List.map_congr_left fun server hmem => ?_)
    cases hcached : before server.1 with
    | some other => rw [hkeep hcached, hbefore server hmem other hcached]
    | none =>
      obtain ⟨server', hmem', heq, hafter⟩ := hnew server hmem hcached
      rw [hafter, eq_of_host_eq hhosts hmem' hmem heq]

/-- **When each listed server gets one copy**: in a daemon without failures, once a
callback's message has been sent, it was written whole to each server listed, once,
and to no other, if and only if no host is listed twice and no listed host was
cached with another server before the callback. -/
theorem copies_perm_iff {d₁ d₂ : Streamer} {collector : ℕ} {payload : List UInt8}
    {calls : List (ServerAddress × SetupOutcome)} {es : List Event}
    (h : (unfailing K).Reachable d)
    (hnodup : (K.servers collector).Nodup)
    (hcallback : (unfailing K).step d (.callback collector payload calls) d₁)
    (hrun : (unfailing K).Run d₁ es d₂)
    (hsent : ∀ q ∈ d₂.queue, q.number ≠ d.produced) :
    (d₂.copies d.produced).Perm
        ((K.servers collector).map fun server => (some server, StreamItem.bytes payload)) ↔
      ((K.servers collector).map (·.1)).Nodup ∧
        ∀ server ∈ K.servers collector, ∀ other, d.cached server.1 = some other →
          other = server := by
  have hhealthy := Healthy.reachable h
  obtain ⟨hstep, haccepting⟩ := hcallback
  cases hstep with
  | @callback _ _ _ item hcompose hservers halloc =>
    have hext := setupStreams_extends K halloc
    have hnew := (setupStreams_targets hhealthy.consistent halloc haccepting).2
    have htracked := hhealthy.tracked hcompose hservers halloc haccepting
    have hcopies := (htracked.run hrun).copies_eq hsent
    obtain ⟨hle, rfl⟩ := StreamItem.compose_eq_ok hcompose
    have hcopies' : d₂.copies d.produced = (K.servers collector).map fun server =>
        ((setupStreams K calls d).1.cached server.1, StreamItem.bytes payload) := by
      rw [List.map_map] at hcopies
      rw [← hservers, List.map_map, StreamItem.bytes_eq hle]
      exact hcopies
    rw [hcopies']
    refine perm_cached_iff hnodup _ hhealthy.consistent.cached_host hext.cached_eq ?_
    intro server hmem hnone
    rw [← hservers] at hmem ⊢
    obtain ⟨call, hcall, rfl⟩ := List.mem_map.mp hmem
    obtain ⟨call', hcall', hhost, hcached⟩ := hnew call hcall hnone
    exact ⟨call'.1, List.mem_map_of_mem hcall', hhost, hcached⟩

/-- Collectors that all list the same servers. -/
def sameServers (servers : List ServerAddress) : DaemonConfig :=
  posix ["10.1.1.1", "10.1.1.2"] fun _ => servers

/-- The first callback of a daemon with two servers that accept. -/
def twoCalls (server server' : ServerAddress) : List (ServerAddress × SetupOutcome) :=
  [(server, ⟨"10.1.1.1", "", 3, true⟩), (server', ⟨"10.1.1.2", "", 4, true⟩)]

/-- An iteration for two descriptors in which each send takes some bytes. -/
def twoSends : List (List (Option ℕ)) := List.replicate 2 (List.replicate 5 (some 2))

/-- Two hosts: each gets its copy. -/
theorem copies_perm_two_hosts :
    ∃ d₁ d₂ es,
      (unfailing (sameServers [("tile-0-0", 51150), ("tile-0-1", 51151)])).step initial
        (.callback 0 [7] (twoCalls ("tile-0-0", 51150) ("tile-0-1", 51151))) d₁ ∧
      (unfailing (sameServers [("tile-0-0", 51150), ("tile-0-1", 51151)])).Run d₁ es d₂ ∧
      (d₂.copies 0).Perm [(some ("tile-0-0", 51150), StreamItem.bytes [7]),
        (some ("tile-0-1", 51151), StreamItem.bytes [7])] := by
  have hcallback : (unfailing (sameServers [("tile-0-0", 51150), ("tile-0-1", 51151)])).step
      initial (.callback 0 [7] (twoCalls ("tile-0-0", 51150) ("tile-0-1", 51151))) _ :=
    ⟨callback_step _ _ _ _ (by decide) rfl ⟨⟨rfl, by decide⟩, ⟨rfl, by decide⟩, trivial⟩,
      by decide⟩
  have hrun : (unfailing (sameServers [("tile-0-0", 51150), ("tile-0-1", 51151)])).Run
      (initial.timerCallback (sameServers [("tile-0-0", 51150), ("tile-0-1", 51151)]) 0
        (twoCalls ("tile-0-0", 51150) ("tile-0-1", 51151)) (.ofPayload [7]))
      [.iteration twoSends] _ := .snoc .nil ⟨iteration_step _ twoSends rfl, by decide⟩
  refine ⟨_, _, _, hcallback, hrun, ?_⟩
  refine (copies_perm_iff (.start started_initial) (by decide) hcallback hrun (by decide)).mpr
    ⟨by decide, ?_⟩
  intro server hserver other hcached
  cases hcached

/-- The servers of two forwarded tiles, one host with two ports: both copies go to the
first port. -/
theorem forwarded_tiles_miss_a_server :
    ∃ (servers : List ServerAddress) (d₁ d₂ : Streamer) (es : List Event),
      servers = hostnamesToRocksvvRootNodeMapping ["tile-0-0", "tile-0-1"] ∧ servers.Nodup ∧
      (unfailing (sameServers servers)).step initial
        (.callback 0 [7] (twoCalls ("rocksvv.cs.uit.no", 51150) ("rocksvv.cs.uit.no", 51151))) d₁ ∧
      (unfailing (sameServers servers)).Run d₁ es d₂ ∧ d₂.queue = [] ∧
      d₂.copies 0 = [(some ("rocksvv.cs.uit.no", 51150), StreamItem.bytes [7]),
        (some ("rocksvv.cs.uit.no", 51150), StreamItem.bytes [7])] ∧
      ¬ (d₂.copies 0).Perm
        (servers.map fun server => (some server, StreamItem.bytes [7])) := by
  have hcallback : (unfailing (sameServers
      (hostnamesToRocksvvRootNodeMapping ["tile-0-0", "tile-0-1"]))).step initial
        (.callback 0 [7]
          (twoCalls ("rocksvv.cs.uit.no", 51150) ("rocksvv.cs.uit.no", 51151))) _ :=
    ⟨callback_step _ _ _ _ (by decide) rfl ⟨⟨rfl, by decide⟩, ⟨rfl, by decide⟩, trivial⟩,
      by decide⟩
  refine ⟨_, _, _, _, rfl, by decide, hcallback,
    .snoc .nil ⟨iteration_step _ twoSends rfl, by decide⟩, rfl, by decide, by decide⟩

end Streamer

end WallMon
