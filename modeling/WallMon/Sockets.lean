import WallMon.Streamer

/-!
# The sockets that the streamer has open

`SetupStream` makes a socket for each server that it does not know yet, and
`_RemoveAndCleanupSockFd` closes one. If `connect` fails, `SetupStream` returns -1 and the
socket stays open, in no map: the next sample makes another one. As long as every `connect`
succeeds, the map has the open sockets, each under one address (`bookkept_iff_connects`).
-/

namespace WallMon

namespace Streamer

variable (K : DaemonConfig)

/-- A socket that the streamer has open. -/
def OpenSocket (d : Streamer) (fd : ℕ) : Prop :=
  ∃ descriptor, d.fds fd = some descriptor ∧ descriptor ≠ .other

/-- `SetupStream` gets as far as `socket`. -/
def ComesToSocket (d : Streamer) (server : ServerAddress) (o : SetupOutcome) : Prop :=
  d.serverMap.lookup server.1 = none ∧ (resolve K server.1 o).isSome

/-- A call. -/
inductive SocketCall where
  /-- `SetupStream`, where `socket` and `setsockopt` succeed or not -/
  | setupStream (server : ServerAddress) (socket : Bool) (o : SetupOutcome)
  /-- `_RemoveAndCleanupSockFd` -/
  | removeAndCleanupSockFd (sockFd : ℕ)

/-- A call that returns. If `socket` or `setsockopt` fails, `LOG(FATAL)` ends the process. -/
inductive SocketStep : Streamer → SocketCall → Streamer → Prop where
  /-- `SetupStream` -/
  | setupStream {d : Streamer} {server : ServerAddress} {socket : Bool} {o : SetupOutcome} :
      K.allocates d.fds o.fd → (d.ComesToSocket K server o → socket = true) →
      SocketStep d (.setupStream server socket o) (setupStream K d server o).1
  /-- `_RemoveAndCleanupSockFd` -/
  | removeAndCleanupSockFd {d : Streamer} {sockFd : ℕ} :
      SocketStep d (.removeAndCleanupSockFd sockFd) (d.removeAndCleanupSockFd sockFd)

/-- The transition system of these calls. -/
def sockets : TransitionSystem Streamer SocketCall where
  init d := Started d ∧ ∀ fd, ¬d.OpenSocket fd
  step := SocketStep K

/-- **The book-keeping is right**: the open sockets are those in the map, and none is there
under two addresses. -/
structure Bookkept (d : Streamer) : Prop where
  /-- the map has the open sockets -/
  open_iff : ∀ fd, d.OpenSocket fd ↔ ∃ host, d.serverMap.lookup host = some fd
  /-- each under one address -/
  lookup_inj : ∀ host host' fd, d.serverMap.lookup host = some fd →
    d.serverMap.lookup host' = some fd → host = host'

/-- **A failure changes nothing**: `SetupStream` leaves the map and the open sockets if it
returns -1. -/
def FailureUnchanged (d : Streamer) : SocketCall → Prop
  | .setupStream server _ o =>
    (setupStream K d server o).2 = none →
      (setupStream K d server o).1.serverMap = d.serverMap ∧
        ∀ fd, (setupStream K d server o).1.OpenSocket fd ↔ d.OpenSocket fd
  | .removeAndCleanupSockFd _ => True

/-- **The call connects**: if `SetupStream` gets as far as `socket`, then `connect` succeeds. -/
def Connects (d : Streamer) : SocketCall → Prop
  | .setupStream server _ o => d.ComesToSocket K server o → o.connects = true
  | .removeAndCleanupSockFd _ => True

variable {K} {d d' : Streamer}

/-! ## What a call does -/

/-- A `SetupStream` that connects finds a descriptor, gives up, or makes a connection. -/
theorem setupStream_of_connects {server : ServerAddress} {socket : Bool} {o : SetupOutcome}
    (h : Connects K d (.setupStream server socket o)) :
    (setupStream K d server o).1 = d ∨
      d.serverMap.lookup server.1 = none ∧ (setupStream K d server o).2 ≠ none ∧
        ∃ ip, (setupStream K d server o).1 = d.withConnection server ip o.fd := by
  rw [setupStream]
  cases hlookup : d.serverMap.lookup server.1 with
  | some fd => exact .inl rfl
  | none =>
    cases hresolve : resolve K server.1 o with
    | none => exact .inl rfl
    | some ip =>
      have hconnects : o.connects = true := h ⟨hlookup, by simp [hresolve]⟩
      dsimp only
      rw [if_pos hconnects]
      exact .inr ⟨rfl, by simp, ip, rfl⟩

/-- A `SetupStream` that does not connect leaves a socket open, and returns -1. -/
theorem setupStream_of_not_connects {server : ServerAddress} {socket : Bool} {o : SetupOutcome}
    (h : ¬Connects K d (.setupStream server socket o)) :
    setupStream K d server o = (d.withUnconnected o.fd, none) := by
  simp only [Connects, Classical.not_imp, Bool.not_eq_true] at h
  obtain ⟨⟨hlookup, hresolve⟩, hconnects⟩ := h
  obtain ⟨ip, hip⟩ := Option.isSome_iff_exists.mp hresolve
  simp [setupStream, hlookup, hip, hconnects]

/-! ## The book-keeping -/

/-- No socket is open that was not connected. -/
def NoneUnconnected (d : Streamer) : Prop := ∀ fd, d.fds fd ≠ some .unconnected

theorem Consistent.bookkept (h : Consistent d) (hnone : NoneUnconnected d) : Bookkept d := by
  refine ⟨fun fd => ⟨?_, ?_⟩, fun host host' fd hhost hhost' => h.lookup_inj hhost hhost'⟩
  · rintro ⟨descriptor, hfd, hother⟩
    cases descriptor with
    | other => exact absurd rfl hother
    | unconnected => exact absurd hfd (hnone fd)
    | connected c => exact h.listed hfd
  · rintro ⟨host, hhost⟩
    obtain ⟨c, -, hfd, -, -⟩ := h.mapped hhost
    exact ⟨_, hfd, by simp⟩

/-- A call that connects keeps the book-keeping, and changes nothing if it fails. -/
theorem SocketStep.consistent {call : SocketCall} (hstep : SocketStep K d call d')
    (h : Consistent d) (hnone : NoneUnconnected d) (hconnects : Connects K d call) :
    Consistent d' ∧ NoneUnconnected d' ∧ FailureUnchanged K d call := by
  cases hstep with
  | @setupStream server socket o hallocates hsocket =>
    rcases setupStream_of_connects hconnects with heq | ⟨hlookup, hreturns, ip, heq⟩
    · refine ⟨by rwa [heq], by rwa [heq], fun _ => ?_⟩
      rw [heq]
      exact ⟨rfl, fun fd => Iff.rfl⟩
    · have hfree := K.allocates_free hallocates
      refine ⟨by rw [heq]; exact h.withConnection hfree hlookup, ?_, fun hnot =>
        absurd hnot hreturns⟩
      intro fd
      rw [heq]
      by_cases hfd : fd = o.fd
      · simp [hfd]
      · simpa [hfd] using hnone fd
  | @removeAndCleanupSockFd sockFd =>
    rcases h.removeAndCleanupSockFd_cases sockFd with heq | ⟨host, hhost, heq⟩
    · rw [heq]
      exact ⟨h, hnone, trivial⟩
    · rw [heq]
      refine ⟨h.without hhost, fun fd => ?_, trivial⟩
      by_cases hfd : fd = sockFd
      · simp [hfd]
      · simpa [hfd] using hnone fd

/-- **The book-keeping is right** in every run whose calls connect, and after the next call
exactly if that one connects too. -/
theorem bookkept_iff_connects (K : DaemonConfig) {d : Streamer}
    (h : ((sockets K).guarded (Connects K)).Reachable d) :
    Bookkept d ∧ ∀ call d', SocketStep K d call d' →
      (Bookkept d' ∧ FailureUnchanged K d call ↔ Connects K d call) := by
  obtain ⟨hconsistent, hnone⟩ : Consistent d ∧ NoneUnconnected d := by
    refine h.invariant (I := fun d => Consistent d ∧ NoneUnconnected d) ?_ ?_
    · rintro d ⟨hstarted, hclosed⟩
      refine ⟨.started hstarted, fun fd hfd => hclosed fd ⟨_, hfd, by simp⟩⟩
    · rintro d call d' - ⟨hd, hnone⟩ ⟨hstep, hconnects⟩
      obtain ⟨hd', hnone', -⟩ := hstep.consistent hd hnone hconnects
      exact ⟨hd', hnone'⟩
  refine ⟨hconsistent.bookkept hnone, fun call d' hstep => ⟨?_, ?_⟩⟩
  · rintro ⟨-, hunchanged⟩
    by_contra hfails
    cases hstep with
    | @setupStream server socket o hallocates hsocket =>
      have heq := setupStream_of_not_connects hfails
      have hopen : (setupStream K d server o).1.OpenSocket o.fd :=
        ⟨.unconnected, by simp [heq], by simp⟩
      obtain ⟨descriptor, hfd, -⟩ := ((hunchanged (by rw [heq])).2 o.fd).mp hopen
      cases (K.allocates_free hallocates).symm.trans hfd
    | removeAndCleanupSockFd => exact hfails trivial
  · intro hconnects
    obtain ⟨hd', hnone', hunchanged⟩ := hstep.consistent hconsistent hnone hconnects
    exact ⟨hd'.bookkept hnone', hunchanged⟩

/-- A daemon for which 10.0.0.1 is the only valid address. -/
def oneAddress : DaemonConfig := posix ["10.0.0.1"] fun _ => []

/-- What the operating system answers: the name resolves, the socket is descriptor 3, and
`connect` succeeds or not. -/
def resolving (connects : Bool) : SetupOutcome where
  resolved := "10.0.0.1"
  fallback := ""
  fd := 3
  connects := connects

theorem initial_sockets : Started initial ∧ ∀ fd, ¬initial.OpenSocket fd := by
  refine ⟨started_initial, ?_⟩
  rintro fd ⟨descriptor, hfd, hother⟩
  simp only [initial] at hfd
  split at hfd
  · exact hother (Option.some.inj hfd).symm
  · cases hfd

theorem allocates_three : oneAddress.allocates initial.fds 3 :=
  ⟨rfl, by decide⟩

/-- A first call connects; the book-keeping is right, and stays so when the descriptor is
cleaned up. -/
theorem bookkept_one_server : ∃ d d',
    ((sockets oneAddress).guarded (Connects oneAddress)).Reachable d ∧
    d.serverMap.lookup "tile-0-0" = some 3 ∧ Bookkept d ∧
    SocketStep oneAddress d (.removeAndCleanupSockFd 3) d' ∧ Bookkept d' := by
  have hstart : ((sockets oneAddress).guarded (Connects oneAddress)).Reachable initial :=
    .start initial_sockets
  have hstep : SocketStep oneAddress initial
      (.setupStream ("tile-0-0", 51150) true (resolving true)) _ :=
    .setupStream allocates_three fun _ => rfl
  have hnext := hstart.next ⟨hstep, fun _ => rfl⟩
  obtain ⟨hkept, hiff⟩ := bookkept_iff_connects oneAddress hnext
  exact ⟨_, _, hnext, by decide +kernel, hkept, .removeAndCleanupSockFd,
    ((hiff _ _ .removeAndCleanupSockFd).mpr trivial).1⟩

/-- A `connect` that fails leaves descriptor 3 open, in no map. -/
theorem not_bookkept_refused : ∃ d, (sockets oneAddress).Reachable d ∧
    d.fds 3 = some .unconnected ∧ d.serverMap = ∅ ∧ ¬Bookkept d ∧
    ¬FailureUnchanged oneAddress initial
      (.setupStream ("tile-0-0", 51150) true (resolving false)) := by
  have hstart : (sockets oneAddress).Reachable initial := .start initial_sockets
  have hstep : SocketStep oneAddress initial
      (.setupStream ("tile-0-0", 51150) true (resolving false)) _ :=
    .setupStream allocates_three fun _ => rfl
  have hopen : (setupStream oneAddress initial ("tile-0-0", 51150) (resolving false)).1.OpenSocket
      3 := ⟨.unconnected, rfl, by simp⟩
  refine ⟨_, hstart.next hstep, rfl, rfl, fun hkept => ?_, fun hunchanged => ?_⟩
  · obtain ⟨host, hhost⟩ := (hkept.open_iff 3).mp hopen
    cases hhost
  · exact initial_sockets.2 3 (((hunchanged rfl).2 3).mp hopen)

end Streamer

end WallMon
