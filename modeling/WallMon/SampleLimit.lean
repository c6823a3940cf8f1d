import WallMon.GnuplotHandler

/-!
# The limit on the samples of a host

The handler of the experiment counts the samples of each host, so that a host can be cut off
when it has sent as many as are expected, and so that the program ends when all hosts have.
The two branches of the count are the wrong way round: a host that is known keeps the count 1,
and only for a new host does the code look at what was counted before. So the count is right
exactly as long as no host sends a second message.
-/

namespace WallMon

namespace Gnuplot

open Std TransitionSystem

namespace Handler

/-- How many messages of a host were received. -/
def receivedFrom (h : Handler) (hostname : String) : ℕ :=
  h.received.countP fun msg => msg.hostname = hostname

/-- How many messages of a host are in `_hzToWallmonMessages`. -/
def recordedFrom (h : Handler) (hostname : String) : ℕ :=
  (contents h.hzToWallmonMessages).countP fun msg => msg.hostname = hostname

/-- **The limit on samples**: hosts are counted and cut off, and the program ends when all hosts
have sent their samples. -/
structure SampleLimitLaw (h : Handler) : Prop where
  /-- the count of a host is that of its messages -/
  counted : ∀ hostname, h.terminationCond.getD hostname 0 = h.receivedFrom hostname
  /-- no more messages of a host are recorded than expected -/
  limited : ∀ hostname, (h.recordedFrom hostname : ℤ) ≤ h.expectedNumSamplesPerNode
  /-- when all hosts that were seen have delivered what is expected, this is noticed -/
  complete : h.received ≠ [] →
    (∀ msg ∈ h.received, h.expectedNumSamplesPerNode ≤ h.receivedFrom msg.hostname) →
    h.status = .allSamplesReceived
  /-- no count overflows -/
  defined : ∀ e, h.status ≠ .faulted e

/-- A message that is handled is the first one of its host, with more than one expected of it,
and the messages can be counted. -/
def FirstOfHost (h : Handler) (msg : WallmonMessage) : Prop :=
  h.status = .running → msg.data ≠ none →
    h.receivedFrom msg.hostname = 0 ∧ 1 < h.expectedNumSamplesPerNode ∧ h.numSamples < 2147483647

instance (h : Handler) (msg : WallmonMessage) : Decidable (h.FirstOfHost msg) :=
  inferInstanceAs (Decidable (_ → _ → _))

variable {stray : Float → UInt32} {h : Handler} {msg : WallmonMessage} {totalNumSamples : ℤ}

/-! ## Counts of hosts -/

theorem receivedFrom_append {h' : Handler} (hreceived : h'.received = h.received ++ [msg])
    (hostname : String) : h'.receivedFrom hostname =
      h.receivedFrom hostname + if msg.hostname = hostname then 1 else 0 := by
  rw [receivedFrom, receivedFrom, hreceived, List.countP_append, List.countP_singleton]
  simp

/-- What is recorded is what was accepted. -/
theorem Consistent.recordedFrom_eq (hcons : Consistent stray totalNumSamples h)
    (hostname : String) :
    h.recordedFrom hostname = h.accepted.countP fun msg => msg.hostname = hostname := by
  have hperm : (contents (group (fun msg => msg.hz stray) id h.accepted)).Perm h.accepted := by
    have hall : (contents (group (fun msg => msg.hz stray) id h.accepted)).Perm
        (h.accepted.map id) := contents_group
    rwa [List.map_id] at hall
  rw [recordedFrom, hcons.hzToWallmonMessages_eq]
  exact hperm.countP_eq _

theorem Consistent.recordedFrom_le (hcons : Consistent stray totalNumSamples h)
    (hostname : String) : h.recordedFrom hostname ≤ h.receivedFrom hostname := by
  rw [hcons.recordedFrom_eq]
  exact hcons.accepted_received.countP_le

theorem getD_counted (m : TreeMap String ℤ) (hostname hostname' : String) :
    (m.insert hostname 1).getD hostname' 0 =
      if hostname = hostname' then 1 else m.getD hostname' 0 := by
  simp only [TreeMap.getD_insert, LawfulEqCmp.compare_eq_iff_eq]

theorem receivedFrom_pos {hostname : String} :
    0 < h.receivedFrom hostname ↔ ∃ msg ∈ h.received, msg.hostname = hostname := by
  rw [receivedFrom, List.countP_pos_iff]
  simp

/-! ## One message -/

/-- Going through the processes changes neither the counts nor what is received and accepted. -/
theorem goThrough_frame {msg : WallmonMessage} (hz : UInt32) (ready : Handler)
    (processMessages : List ProcessMessage) :
    (goThrough hz msg ready processMessages).received = ready.received ∧
      (goThrough hz msg ready processMessages).accepted = ready.accepted ∧
      (goThrough hz msg ready processMessages).terminationCond = ready.terminationCond ∧
      ((goThrough hz msg ready processMessages).status = ready.status ∨
        (goThrough hz msg ready processMessages).status = .allSamplesReceived) :=
  goThrough_preserves (I := fun h => h.received = ready.received ∧
      h.accepted = ready.accepted ∧ h.terminationCond = ready.terminationCond ∧
      (h.status = ready.status ∨ h.status = .allSamplesReceived))
    (fun _ _ _ hI => hI) (fun _ hI => ⟨hI.1, hI.2.1, hI.2.2.1, .inr rfl⟩)
    ⟨rfl, rfl, rfl, .inl rfl⟩ _

/-- Where one sample is expected, every host has sent what is expected; but the message is
discarded. -/
theorem not_sampleLimitLaw_counted (hcons : Consistent stray totalNumSamples h)
    (hrunning : h.status = .running) (htotal : totalNumSamples ≤ 1) :
    ¬SampleLimitLaw (h.counted msg) := by
  intro hlaw
  obtain ⟨_, _, _, _, hframe⟩ := counted_frame h msg
  have hdone := hlaw.complete (by rw [hframe]; simp) fun m hm => by
    have hpos : 0 < (h.counted msg).receivedFrom m.hostname := receivedFrom_pos.mpr ⟨m, hm, rfl⟩
    rw [(hcons.counted msg).expected]
    omega
  rw [hframe] at hdone
  exact absurd (hrunning.symm.trans hdone) (by simp)

/-- The handler that has accepted a message and gone through its processes, as far as hosts
are counted. -/
structure Accepting (h : Handler) (msg : WallmonMessage) (next : Handler) : Prop where
  /-- the message is received, -/
  received : next.received = h.received ++ [msg]
  /-- and accepted -/
  accepted : next.accepted = h.accepted ++ [msg]
  /-- its host is counted -/
  terminationCond : next.terminationCond = h.terminationCond.insert msg.hostname 1
  /-- the program may have ended -/
  status : next.status = h.status ∨ next.status = .allSamplesReceived

theorem Ready.accepting {ready : Handler} (hready : Ready stray totalNumSamples h msg ready)
    (processMessages : List ProcessMessage) :
    Accepting h msg (goThrough (msg.hz stray) msg ready processMessages) := by
  obtain ⟨hreceived, haccepted, hterm, hstatus⟩ :=
    goThrough_frame (msg.hz stray) ready processMessages
  exact ⟨hreceived.trans hready.received, haccepted.trans hready.accepted,
    hterm.trans hready.terminationCond, hstatus.imp_left fun heq => heq.trans hready.status⟩

/-- Accepting a message keeps the law exactly if it is the first one of its host. -/
theorem Accepting.keepsLaw_iff {next : Handler} (haccepting : Accepting h msg next)
    (hcons : Consistent stray totalNumSamples h) (hnext : Consistent stray totalNumSamples next)
    (hlaw : SampleLimitLaw h) (hrunning : h.status = .running) (hmore : 1 < totalNumSamples) :
    SampleLimitLaw next ↔ h.receivedFrom msg.hostname = 0 := by
  have hfrom := receivedFrom_append haccepting.received
  have hterm := haccepting.terminationCond
  refine ⟨fun hnew => ?_, fun hzero => ?_⟩
  · have hone := hnew.counted msg.hostname
    rw [hterm, getD_counted, if_pos rfl, hfrom, if_pos rfl] at hone
    omega
  refine ⟨fun hostname => ?_, fun hostname => ?_, fun _ hall => ?_, fun e he => ?_⟩
  · rw [hterm, getD_counted, hfrom]
    by_cases hhost : msg.hostname = hostname
    · rw [if_pos hhost, if_pos hhost, ← hhost, hzero]
      rfl
    · rw [if_neg hhost, if_neg hhost]
      exact hlaw.counted hostname
  · rw [hnext.expected]
    by_cases hhost : msg.hostname = hostname
    · have hle := hnext.recordedFrom_le hostname
      rw [hfrom, if_pos hhost, ← hhost, hzero] at hle
      rw [← hhost]
      omega
    · have hlimited := hlaw.limited hostname
      rw [hcons.recordedFrom_eq, hcons.expected] at hlimited
      rw [hnext.recordedFrom_eq, haccepting.accepted, List.countP_append, List.countP_singleton,
        if_neg (by simpa using hhost)]
      exact hlimited
  · have hmsg := hall msg (by rw [haccepting.received]; simp)
    rw [hfrom, if_pos rfl, hzero, hnext.expected] at hmsg
    omega
  · rcases haccepting.status with hstatus | hstatus
    · rw [he, hrunning] at hstatus
      cases hstatus
    · rw [he] at hstatus
      cases hstatus

/-- **A message keeps the law exactly if it is the first one of its host.** -/
theorem sampleLimitLaw_handle_iff (hcons : Consistent stray totalNumSamples h)
    (hlaw : SampleLimitLaw h) (msg : WallmonMessage) :
    SampleLimitLaw (h.handle stray msg) ↔ h.FirstOfHost msg := by
  have hnext := hcons.handle msg
  have hcase := handled hcons msg
  generalize h.handle stray msg = next at hnext hcase ⊢
  have hexpected := hcons.expected
  cases hcase with
  | ended hended => exact iff_of_true hlaw fun hrunning => absurd hrunning hended
  | unparsed hrunning hdata =>
    refine iff_of_true ⟨hlaw.counted, hlaw.limited, fun hne hall => ?_, fun e h => by cases h⟩
      fun _ hsome => absurd hdata hsome
    have hdone := hlaw.complete hne hall
    rw [hrunning] at hdone
    cases hdone
  | discarded hrunning hdata htotal =>
    refine iff_of_false (not_sampleLimitLaw_counted hcons hrunning htotal) fun hfirst => ?_
    obtain ⟨-, htotal', -⟩ := hfirst hrunning hdata
    omega
  | overflow hrunning hdata htotal heq =>
    refine iff_of_false (fun hnew => hnew.defined _ rfl) fun hfirst => ?_
    obtain ⟨-, -, hlt⟩ := hfirst hrunning hdata
    omega
  | @accepted ready processMessages hrunning hdata htotal hlt hready =>
    have hsome : msg.data ≠ none := by rw [hdata]; exact Option.some_ne_none _
    rw [(hready.accepting processMessages).keepsLaw_iff hcons hnext hlaw hrunning htotal]
    exact ⟨fun hzero _ _ => ⟨hzero, by omega, hlt⟩, fun hfirst => (hfirst hrunning hsome).1⟩

theorem sampleLimitLaw_onInit (hpos : 0 ≤ totalNumSamples) :
    SampleLimitLaw (onInit totalNumSamples) where
  counted _ := TreeMap.getD_emptyc
  limited _ := hpos
  complete hne := absurd rfl hne
  defined _ h := nomatch h

/-- **When hosts are counted, cut off and waited for**: all along exactly if every message that
is handled is the first one of its host, with more than one expected of it (and there are fewer
than `2^31` messages). -/
theorem sampleLimitLaw_iff (stray : Float → UInt32) (totalNumSamples : ℕ)
    (msgs : List WallmonMessage) :
    (∀ before, before <+: msgs → SampleLimitLaw (run stray totalNumSamples before)) ↔
      Meets (handle stray) FirstOfHost (onInit totalNumSamples) msgs := by
  refine forall_prefix_iff_meets ?_ ?_ msgs
  · exact sampleLimitLaw_onInit (Int.natCast_nonneg _)
  · intro before msg hlaw
    rw [run, List.foldl_append]
    exact sampleLimitLaw_handle_iff (consistent_run before) hlaw msg

end Handler

/-- A message of a host, without processes of interest. -/
def messageFrom (hostname : String) : WallmonMessage where
  data := some []
  hostname
  samplefrequencymsec := 1000
  scheduledriftmsec := none
  scheduledurationmsec := none
  sampledurationmsec := 1
  actualhz := none
  networkmessagesizebytes := 100
  daemonqueuesize := 0
  serverqueuesize := 0
  daemonnumserverconnections := none
  daemontimestampmsec := 0
  servertimestampmsec := 0
  previoushandlerexecutiontimemsec := none
  collectorsequencenumber := 0

/-- The handler after some messages of one host. -/
def repeated (totalNumSamples : ℤ) (n : ℕ) : Handler :=
  .run (fun _ => 0) totalNumSamples (List.replicate n (messageFrom "tile-0-0"))

/-- After the second message of a host its count is still 1. Where two are expected of it, three
are recorded, and the program does not end. -/
theorem host_not_cut_off :
    ((repeated 1260 2).terminationCond.getD "tile-0-0" 0 = 1 ∧
      (repeated 1260 2).receivedFrom "tile-0-0" = 2 ∧ ¬(repeated 1260 2).SampleLimitLaw) ∧
    (repeated 2 3).recordedFrom "tile-0-0" = 3 ∧ (repeated 2 3).status = .running ∧
      ¬(repeated 2 3).SampleLimitLaw := by
  refine ⟨⟨by decide +kernel, by decide +kernel, fun hlaw => ?_⟩, by decide +kernel,
    by decide +kernel, fun hlaw => ?_⟩
  · exact absurd (hlaw.counted "tile-0-0") (by decide +kernel)
  · exact absurd (hlaw.limited "tile-0-0") (by decide +kernel)

end Gnuplot

end WallMon
