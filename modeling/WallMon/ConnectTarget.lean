import Mathlib.Data.List.SplitBy
import WallMon.Scheduler

/-!
# Where the daemon connects to

`SetupStream` takes a server address that is either an IP address or a host name. Which
socket address it passes to `connect` is decided by one string, `serverIpAddress`, that
only the branch for host names sets. An IP address is thus never connected to
(`connectAddr_denotes_iff`), and the address that a collector without servers gets by
default, the source of the datagram that loaded it, is one.

`inet_pton` and `inet_addr` are those of the C library, restricted to dotted quads.
-/

namespace WallMon

/-! ## Addresses -/

/-- A decimal number of a dotted quad: at most 255, without leading zeros. -/
def octet (digits : List Char) : Option ℕ :=
  if digits = [] ∨ digits.any (fun c => !c.isDigit) ∨
      1 < digits.length ∧ digits.head? = some '0' then none
  else
    let n := digits.foldl (fun n c => n * 10 + (c.toNat - '0'.toNat)) 0
    if n ≤ 255 then some n else none

/-- `inet_pton` of family `AF_INET`: the address of a dotted quad as a number. -/
def inetPton (s : String) : Option ℕ :=
  match s.toList.splitOn '.' with
  | [a, b, c, d] => do
    let a ← octet a
    let b ← octet b
    let c ← octet c
    let d ← octet d
    return ((a * 256 + b) * 256 + c) * 256 + d
  | _ => none

/-- `INADDR_NONE`, which is also the address 255.255.255.255 -/
def inaddrNone : ℕ := 4294967295

/-- `inet_addr` -/
def inetAddr (s : String) : ℕ := (inetPton s).getD inaddrNone

/-- `System::IsValidIpAddress` -/
def isValidIpAddress (ipAddress : String) : Bool := (inetPton ipAddress).isSome

/-- The configuration with the library's test for IP addresses. -/
def DaemonConfig.withInet (K : DaemonConfig) : DaemonConfig :=
  { K with isValidIpAddress := WallMon.isValidIpAddress }

/-- `struct sockaddr_in` -/
structure SockAddr where
  /-- `sin_addr.s_addr`, as a number -/
  addr : ℕ
  /-- `sin_port`, as a number -/
  port : ℕ
  deriving DecidableEq, Repr

/-- The socket address that `SetupStream` makes of `serverIpAddress` and `serverPort`. -/
def sockAddr (serverIpAddress : String) (serverPort : ℤ) : SockAddr where
  addr := inetAddr serverIpAddress
  -- `htons` takes 16 bits of the `int`
  port := (serverPort % 65536).toNat

/-- The socket address is the one of an IP address and a port. -/
def SockAddr.Denotes (a : SockAddr) (ip : String) (port : ℤ) : Prop :=
  inetPton ip = some a.addr ∧ (a.port : ℤ) = port

instance (a : SockAddr) (ip : String) (port : ℤ) : Decidable (a.Denotes ip port) :=
  inferInstanceAs (Decidable (_ ∧ _))

/-- The IP address of a server: the server address itself if it is one, else what the
host name resolves to, by the second attempt if the first gives nothing. -/
def targetIp (serverAddress : String) (o : SetupOutcome) : String :=
  if isValidIpAddress serverAddress then serverAddress
  else if o.resolved = "" then o.fallback else o.resolved

namespace Streamer

/-- What `SetupStream` passes to `connect`, if it gets that far. -/
def connectAddr (K : DaemonConfig) (d : Streamer) (server : ServerAddress) (o : SetupOutcome) :
    Option SockAddr :=
  match d.serverMap.lookup server.1 with
  | some _ => none
  | none => (resolve K server.1 o).map (sockAddr · server.2)

variable {K : DaemonConfig} {d : Streamer} {server : ServerAddress} {o : SetupOutcome}
  {addr : SockAddr}

/-- `connect` is reached with a string for `inet_addr`. -/
theorem connectAddr_eq_some (h : d.connectAddr K server o = some addr) :
    d.serverMap.lookup server.1 = none ∧
      ∃ ip, resolve K server.1 o = some ip ∧ addr = sockAddr ip server.2 := by
  rw [connectAddr] at h
  split at h
  · cases h
  · next hnone =>
    obtain ⟨ip, hresolve, rfl⟩ := Option.map_eq_some_iff.mp h
    exact ⟨hnone, ip, hresolve, rfl⟩

/-- The connection that `SetupStream` makes is one to that address; where it does not get
as far as `connect`, it makes none. -/
theorem setupStream_connectAddr (K : DaemonConfig) (d : Streamer) (server : ServerAddress)
    (o : SetupOutcome) :
    (d.connectAddr K server o = none → (setupStream K d server o).1 = d) ∧
      ∀ addr, d.connectAddr K server o = some addr →
        ∃ ip, addr = sockAddr ip server.2 ∧ (setupStream K d server o).1 =
          if o.connects then d.withConnection server ip o.fd else d.withUnconnected o.fd := by
  refine ⟨?_, ?_⟩
  · intro hnone
    rw [connectAddr] at hnone
    rw [setupStream]
    cases hlookup : d.serverMap.lookup server.1 with
    | some fd => rfl
    | none =>
      rw [hlookup] at hnone
      dsimp only
      rw [Option.map_eq_none_iff.mp hnone]
  · intro addr haddr
    obtain ⟨hlookup, ip, hresolve, rfl⟩ := connectAddr_eq_some haddr
    refine ⟨ip, rfl, ?_⟩
    rw [setupStream, hlookup]
    dsimp only
    rw [hresolve]
    dsimp only
    split
    · rfl
    · rfl

/-- The string of an IP address is never set. -/
theorem resolve_of_valid (h : isValidIpAddress server.1 = true) :
    resolve K.withInet server.1 o = some "" := by
  have hvalid : K.withInet.isValidIpAddress server.1 = true := h
  rw [resolve, hvalid]
  rfl

/-- A host name resolves to an IP address or to nothing. -/
theorem resolve_of_host (h : isValidIpAddress server.1 = false) {ip : String}
    (hresolve : resolve K.withInet server.1 o = some ip) :
    ip = targetIp server.1 o ∧ isValidIpAddress ip = true := by
  have hvalid : ∀ s, K.withInet.isValidIpAddress s = isValidIpAddress s := fun _ => rfl
  rw [resolve, if_pos ((hvalid _).trans h)] at hresolve
  rw [targetIp, if_neg (by simp [h])]
  dsimp only at hresolve
  generalize (if o.resolved = "" then o.fallback else o.resolved) = resolved at hresolve ⊢
  split at hresolve
  · cases hresolve
  · split at hresolve
    · cases hresolve
    · next hip =>
      obtain rfl := Option.some.inj hresolve
      exact ⟨rfl, by simpa [hvalid] using hip⟩

theorem inetAddr_of_valid {ip : String} (h : isValidIpAddress ip = true) :
    inetPton ip = some (inetAddr ip) := by
  obtain ⟨n, hn⟩ := Option.isSome_iff_exists.mp h
  rw [inetAddr, hn, Option.getD_some]

theorem inetAddr_of_host {host : String} (h : isValidIpAddress host = false) :
    inetAddr host = inaddrNone := by
  rw [isValidIpAddress, Option.isSome_eq_false_iff, Option.isNone_iff_eq_none] at h
  rw [inetAddr, h, Option.getD_none]

/-- A port survives `htons` if it is one. -/
theorem htons_eq_iff (port : ℤ) : ((port % 65536).toNat : ℤ) = port ↔ 0 ≤ port ∧ port < 65536 := by
  omega

/-- **Which address `connect` gets.** -/
theorem connectAddr_denotes (h : d.connectAddr K.withInet server o = some addr) :
    addr.Denotes (targetIp server.1 o) server.2 ↔
      inetAddr server.1 = inaddrNone ∧ 0 ≤ server.2 ∧ server.2 < 65536 := by
  obtain ⟨-, ip, hresolve, rfl⟩ := connectAddr_eq_some h
  rw [SockAddr.Denotes, sockAddr]
  dsimp only
  rw [htons_eq_iff]
  refine and_congr_left fun _ => ?_
  cases hvalid : isValidIpAddress server.1 with
  | true =>
    -- `serverIpAddress` is still the empty string
    obtain rfl : "" = ip := Option.some.inj ((resolve_of_valid hvalid).symm.trans hresolve)
    rw [targetIp, if_pos hvalid, inetAddr_of_valid hvalid, Option.some_inj]
    rfl
  | false =>
    obtain ⟨rfl, hip⟩ := resolve_of_host hvalid hresolve
    exact iff_of_true (inetAddr_of_valid hip) (inetAddr_of_host hvalid)

end Streamer

/-! ## The default server -/

namespace Scheduler

variable {L : EventLoop}

/-- The timer that an `INIT` datagram adds for a collector without servers: its messages
are to go to the source of the datagram, if `OnInit` does not throw. -/
theorem init_default_server {m m' : Dispatcher (Scheduler L)} {filePath sourceAddress : String}
    {type : MonitorType} {ctx : Context} {onInitThrows : Bool} (hservers : ctx.servers = [])
    (h : Dispatcher.listen (manager L) m
      (.init filePath sourceAddress (.created type ctx onInitThrows)) = .ok m') :
    ∃ t, m'.manager.timers = m.manager.timers ++ [t] ∧
      t.ctx.servers = if onInitThrows then [] else [(sourceAddress, streamerEntryPort)] := by
  obtain rfl := Except.ok.inj h
  refine ⟨_, rfl, ?_⟩
  cases onInitThrows with
  | true => simpa [Dispatcher.registeredContext] using hservers
  | false => simp [Dispatcher.registeredContext, manager, hservers, Context.addServer]

end Scheduler

namespace Streamer

/-- **Connect target**: where `SetupStream` gets as far as `connect`, the address is that
of the server if and only if the server address is a host name (or 255.255.255.255) and
the port is a port; and the default server of a collector is connected to only if it is
255.255.255.255. -/
theorem connectAddr_denotes_iff (K : DaemonConfig) (L : EventLoop) :
    (∀ d server o addr, connectAddr K.withInet d server o = some addr →
      (addr.Denotes (targetIp server.1 o) server.2 ↔
        inetAddr server.1 = inaddrNone ∧ 0 ≤ server.2 ∧ server.2 < 65536)) ∧
    ∀ (m m' : Dispatcher (Scheduler L)) (filePath sourceAddress : String) (type : MonitorType)
      (ctx : Context) (onInitThrows : Bool), isValidIpAddress sourceAddress = true →
      ctx.servers = [] →
      Dispatcher.listen (Scheduler.manager L) m
        (.init filePath sourceAddress (.created type ctx onInitThrows)) = .ok m' →
      ∃ t, m'.manager.timers = m.manager.timers ++ [t] ∧
        ∀ server ∈ t.ctx.servers, ∀ d o addr, connectAddr K.withInet d server o = some addr →
          (addr.Denotes sourceAddress streamerEntryPort ↔
            inetAddr sourceAddress = inaddrNone) := by
  refine ⟨fun d server o addr => connectAddr_denotes, ?_⟩
  intro m m' filePath sourceAddress type ctx onInitThrows hsource hservers h
  obtain ⟨t, htimers, ht⟩ := Scheduler.init_default_server hservers h
  refine ⟨t, htimers, fun server hserver d o addr haddr => ?_⟩
  rw [ht] at hserver
  obtain rfl : server = (sourceAddress, streamerEntryPort) := by
    cases onInitThrows with
    | true => cases hserver
    | false => exact List.mem_singleton.mp hserver
  have htarget : targetIp sourceAddress o = sourceAddress := if_pos hsource
  have hiff := connectAddr_denotes haddr
  rw [htarget] at hiff
  rw [hiff]
  have hport : 0 ≤ streamerEntryPort ∧ streamerEntryPort < 65536 := by decide
  exact and_iff_left hport

/-- A daemon without collectors that runs on a POSIX system. -/
def plainConfig : DaemonConfig := posix [] fun _ => []

/-- Both attempts at a name resolution, of which the second succeeds. -/
def lateResolution : SetupOutcome :=
  { resolved := "", fallback := "10.1.255.238", fd := 3, connects := true }

/-- A host name that only the second attempt resolves is connected to. -/
theorem connectAddr_denotes_tile :
    connectAddr plainConfig.withInet initial ("tile-0-0", 51023) lateResolution =
      some { addr := 167903214, port := 51023 } ∧
    SockAddr.Denotes { addr := 167903214, port := 51023 } "10.1.255.238" 51023 := by
  have haddr : connectAddr plainConfig.withInet initial ("tile-0-0", 51023) lateResolution =
      some { addr := 167903214, port := 51023 } := by decide
  refine ⟨haddr, ?_⟩
  exact ((connectAddr_denotes_iff plainConfig Scheduler.libev).1 _ _ _ _ haddr).mpr
    (by decide)

/-- A collector that names no server is loaded by a datagram from 10.1.255.238: what its
samples are sent to is 255.255.255.255. -/
theorem default_server_not_connected :
    ∃ (m : Dispatcher (Scheduler Scheduler.libev)) (t : CollectorTimer Scheduler.libev),
      Dispatcher.listen (Scheduler.manager Scheduler.libev)
        (Dispatcher.initial (Scheduler.manager Scheduler.libev))
        (.init "collector.so" "10.1.255.238"
          (.created .protobuf
            { key := "", servers := [], sampleFrequencyMsec := 1000, exit := false } false)) =
        .ok m ∧
      m.manager.timers = [t] ∧ t.ctx.servers = [("10.1.255.238", streamerEntryPort)] ∧
      connectAddr plainConfig.withInet initial ("10.1.255.238", streamerEntryPort)
        lateResolution = some { addr := inaddrNone, port := 51023 } ∧
      ¬SockAddr.Denotes { addr := inaddrNone, port := 51023 } "10.1.255.238"
        streamerEntryPort := by
  exact ⟨_, _, rfl, rfl, rfl, by decide, by decide⟩

end Streamer

end WallMon
