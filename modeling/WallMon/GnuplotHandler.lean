import WallMon.Buckets
import WallMon.Stat
import WallMon.Transition
import Mathlib.Data.UInt

/-!
# The handler of the experiment: `GnuplotHandler::Handle`

The handler of the module `gnuplot` collects the samples of daemons, by their frequency in Hz,
until all are there; then the program saves statistics of them and ends. A message brings the
samples of many processes, two of which are of interest: the server and the daemon.

The frequency of a message is a `double`, with its rounding, since it decides under which number
of Hz the message is kept; the others are rational numbers here, and `std::map` is
`Std.TreeMap`. A whole part that is not a `uint32_t` makes the conversion to it undefined, and
`stray` says what comes of it. A message whose data cannot be parsed ends the program, and so
does a signed overflow, which is a `Fault`.
-/

namespace WallMon

namespace Gnuplot

open Std

/-! ## Messages -/

/-- `ProcessMessage`, as far as the handler reads it. -/
structure ProcessMessage where
  /-- `processname` -/
  processname : String
  /-- `usercpuutilization` -/
  usercpuutilization : ℚ
  /-- `systemcpuutilization` -/
  systemcpuutilization : ℚ
  /-- `memorybytes` -/
  memorybytes : UInt64
  deriving DecidableEq

/-- `WallmonMessage`, as far as the handler reads it. A field that may be missing without its
default standing for it is `none` then. -/
structure WallmonMessage where
  /-- `data`, parsed, if it can be -/
  data : Option (List ProcessMessage)
  /-- `hostname` -/
  hostname : String
  /-- `samplefrequencymsec` -/
  samplefrequencymsec : Float
  /-- `scheduledriftmsec` -/
  scheduledriftmsec : Option ℚ
  /-- `scheduledurationmsec` -/
  scheduledurationmsec : Option ℚ
  /-- `sampledurationmsec` -/
  sampledurationmsec : ℚ
  /-- `actualhz` -/
  actualhz : Option UInt32
  /-- `networkmessagesizebytes` -/
  networkmessagesizebytes : UInt32
  /-- `daemonqueuesize` -/
  daemonqueuesize : UInt32
  /-- `serverqueuesize` -/
  serverqueuesize : UInt32
  /-- `daemonnumserverconnections` -/
  daemonnumserverconnections : Option UInt32
  /-- `daemontimestampmsec` -/
  daemontimestampmsec : ℚ
  /-- `servertimestampmsec` -/
  servertimestampmsec : ℚ
  /-- `previoushandlerexecutiontimemsec` -/
  previoushandlerexecutiontimemsec : Option ℚ
  /-- `collectorsequencenumber` -/
  collectorsequencenumber : UInt32
  deriving DecidableEq

/-- `(uint32_t)(1000 / msg->samplefrequencymsec())` -/
def WallmonMessage.hz (stray : Float → UInt32) (msg : WallmonMessage) : UInt32 :=
  let quotient := 1000 / msg.samplefrequencymsec
  let whole := quotient.toModel.unpack.toInt 0 0
  if quotient.isFinite = true ∧ 0 ≤ whole ∧ whole < 4294967296 then .ofNat whole.toNat
  else stray quotient

/-- `_targetProcesses` -/
def targetProcesses : List String := ["wallmons", "wallmond"]

/-- `_IsTargetProcess` -/
def isTargetProcess (processName : String) : Bool := targetProcesses.any fun s => processName = s

/-! ## The handler -/

/-- Whether the program still handles messages. -/
inductive Status where
  /-- it does -/
  | running
  /-- all samples were received -/
  | allSamplesReceived
  /-- `LOG(FATAL)` ended it -/
  | aborted
  /-- a fault did -/
  | faulted (e : Fault)
  deriving DecidableEq

/-- `GnuplotHandler` -/
structure Handler where
  /-- `_expectedNumSamplesPerNode` -/
  expectedNumSamplesPerNode : ℤ
  /-- `_numSamples` -/
  numSamples : ℤ
  /-- `_expectedTotalNumSamples` -/
  expectedTotalNumSamples : ℤ
  /-- `_terminationCond`: how many samples a host sent -/
  terminationCond : TreeMap String ℤ
  /-- `_procNameToHz` -/
  procNameToHz : TreeMap String (TreeMap ℤ (List ProcessMessage))
  /-- `_hzToWallmonMessages` -/
  hzToWallmonMessages : TreeMap UInt32 (List WallmonMessage)
  /-- `_hzToSeqNum` -/
  hzToSeqNum : TreeMap UInt32 (TreeMap UInt32 (List WallmonMessage))
  /-- `_numServerConnections` -/
  numServerConnections : Stat UInt32
  /-- `_networkReceiveMegaBytesPerSec` -/
  networkReceiveMegaBytesPerSec : Stat ℚ
  /-- `_previousTimestamp` -/
  previousTimestamp : ℚ
  /-- `_sumBytesNetworkReceive` -/
  sumBytesNetworkReceive : UInt64
  /-- `totalScheduleDriftMsec` -/
  totalScheduleDriftMsec : ℚ
  /-- `totalScheduleDurationMsec` -/
  totalScheduleDurationMsec : ℚ
  /-- whether messages are handled -/
  status : Status
  /-- history: the messages received -/
  received : List WallmonMessage
  /-- history: those of them that were not discarded -/
  accepted : List WallmonMessage
  /-- history: the processes of interest that were gone through, with their messages -/
  targets : List (WallmonMessage × ProcessMessage)

namespace Handler

/-- `OnInit`, with what `get_total_num_samples` returns -/
def onInit (totalNumSamples : ℤ) : Handler where
  expectedNumSamplesPerNode := totalNumSamples
  numSamples := 0
  expectedTotalNumSamples := 9999
  terminationCond := ∅
  procNameToHz := ∅
  hzToWallmonMessages := ∅
  hzToSeqNum := ∅
  numServerConnections := Stat.new.newSample
  networkReceiveMegaBytesPerSec := .new
  previousTimestamp := -1
  sumBytesNetworkReceive := 0
  totalScheduleDriftMsec := 0
  totalScheduleDurationMsec := 0
  status := .running
  received := []
  accepted := []
  targets := []

/-- The schedule of a message is added to the totals. -/
def addSchedule (h : Handler) (msg : WallmonMessage) : Handler :=
  { h with
    totalScheduleDriftMsec := h.totalScheduleDriftMsec + msg.scheduledriftmsec.getD 0
    totalScheduleDurationMsec := h.totalScheduleDurationMsec + msg.scheduledurationmsec.getD 0 }

/-- The samples of hosts are counted, and those expected of all of them; the product is one of
`size_t`. The result is what `numSamples` is then. -/
def countSample (h : Handler) (hostname : String) : Handler × ℤ :=
  if hostname ∈ h.terminationCond then
    ({ h with terminationCond := h.terminationCond.insert hostname 1 }, 1)
  else
    let numSamples := h.terminationCond.getD hostname 0 + 1
    let terminationCond := h.terminationCond.insert hostname numSamples
    let product := h.expectedNumSamplesPerNode * terminationCond.size
    ({ h with
      terminationCond
      expectedTotalNumSamples := CInt.ofUnsigned (product % 4294967296).toNat }, numSamples)

/-- `_MaintainNetworkReceivePerSec` -/
def maintainNetworkReceivePerSec (h : Handler) (msg : WallmonMessage) : Except Fault Handler :=
  if h.previousTimestamp < 0 then
    .ok { h with
      previousTimestamp := msg.servertimestampmsec
      sumBytesNetworkReceive := msg.networkmessagesizebytes.toUInt64 }
  else if msg.servertimestampmsec - h.previousTimestamp ≥ 1000 then do
    let stat ← h.networkReceiveMegaBytesPerSec.newSample.add
      (h.sumBytesNetworkReceive.toNat / (1024 * 1024))
    return { h with
      previousTimestamp := msg.servertimestampmsec
      networkReceiveMegaBytesPerSec := stat
      sumBytesNetworkReceive := 0 + msg.networkmessagesizebytes.toUInt64 }
  else
    .ok { h with
      sumBytesNetworkReceive := h.sumBytesNetworkReceive + msg.networkmessagesizebytes.toUInt64 }

/-- The number of connections that a message may bring is added to the one sample of them. -/
def addServerConnections (h : Handler) (msg : WallmonMessage) : Except Fault Handler :=
  match msg.daemonnumserverconnections with
  | some n => do
    let stat ← h.numServerConnections.add n
    return { h with numServerConnections := stat }
  | none => .ok h

/-- The message goes to the others of its frequency. -/
def recordMessage (h : Handler) (hz : UInt32) (msg : WallmonMessage) : Handler :=
  { h with
    hzToWallmonMessages := pushBack h.hzToWallmonMessages hz msg
    accepted := h.accepted ++ [msg] }

/-- A process goes to the others of its name and frequency, and the message to those of its
frequency and sequence number. -/
def recordProcess (h : Handler) (hz : UInt32) (msg : WallmonMessage) (procMsg : ProcessMessage) :
    Handler :=
  let hzToProcs := h.procNameToHz.getD procMsg.processname ∅
  let seqNumToServerTimestamps := h.hzToSeqNum.getD hz ∅
  { h with
    procNameToHz := h.procNameToHz.insert procMsg.processname
      (pushBack hzToProcs (CInt.ofUnsigned hz.toNat) procMsg)
    hzToSeqNum := h.hzToSeqNum.insert hz
      (pushBack seqNumToServerTimestamps msg.collectorsequencenumber msg)
    targets := h.targets ++ [(msg, procMsg)] }

/-- All process messages are gone through; with the last sample that is expected the program
ends, whether or not others of them are left. -/
def goThrough (hz : UInt32) (msg : WallmonMessage) : Handler → List ProcessMessage → Handler
  | h, [] => h
  | h, procMsg :: rest =>
    if isTargetProcess procMsg.processname then
      let h := h.recordProcess hz msg procMsg
      if h.numSamples = h.expectedTotalNumSamples then { h with status := .allSamplesReceived }
      else goThrough hz msg h rest
    else goThrough hz msg h rest

/-- `Handle`, from where `_numSamples` is incremented -/
def acceptMessage (h : Handler) (hz : UInt32) (msg : WallmonMessage)
    (processMessages : List ProcessMessage) : Except Fault Handler := do
  let numSamples ← CInt.add h.numSamples 1
  let h ← maintainNetworkReceivePerSec { h with numSamples } msg
  let h ← h.addServerConnections msg
  return goThrough hz msg (h.recordMessage hz msg) processMessages

/-- `Handle`, of a message that is parsed -/
def handleParsed (stray : Float → UInt32) (h : Handler) (msg : WallmonMessage)
    (processMessages : List ProcessMessage) : Except Fault Handler :=
  let hz := msg.hz stray
  let counted := (h.addSchedule msg).countSample msg.hostname
  let h := { counted.1 with received := h.received ++ [msg] }
  if counted.2 ≥ h.expectedNumSamplesPerNode then .ok h
  else h.acceptMessage hz msg processMessages

/-- `Handle`, and nothing once the program has ended -/
def handle (stray : Float → UInt32) (h : Handler) (msg : WallmonMessage) : Handler :=
  match h.status with
  | .running =>
    match msg.data with
    | none => { h with status := .aborted }
    | some processMessages =>
      match h.handleParsed stray msg processMessages with
      | .ok next => next
      | .error e => { h with status := .faulted e }
  | _ => h

/-- The handler after some messages. -/
def run (stray : Float → UInt32) (totalNumSamples : ℤ) (msgs : List WallmonMessage) : Handler :=
  msgs.foldl (handle stray) (onInit totalNumSamples)

/-! ## What a message does -/

variable {stray : Float → UInt32} {h : Handler} {msg : WallmonMessage}

/-- The handler once a message is counted. -/
def counted (h : Handler) (msg : WallmonMessage) : Handler :=
  { ((h.addSchedule msg).countSample msg.hostname).1 with received := h.received ++ [msg] }

/-- Whether or not the host is known, the count is 1. -/
theorem countSample_snd (h : Handler) (hostname : String) : (h.countSample hostname).2 = 1 := by
  rw [countSample]
  split
  · rfl
  · next hnew => rw [TreeMap.getD_eq_fallback hnew]; rfl

/-- And it is the count of the host from then on. -/
theorem terminationCond_counted (h : Handler) (msg : WallmonMessage) :
    (h.counted msg).terminationCond = h.terminationCond.insert msg.hostname 1 := by
  rw [counted, countSample]
  split
  · rfl
  · next hnew =>
    have hzero : (h.addSchedule msg).terminationCond.getD msg.hostname 0 = 0 :=
      TreeMap.getD_eq_fallback hnew
    dsimp only
    rw [hzero]
    rfl

/-- Apart from the counts and what is received, nothing changes. -/
theorem counted_frame (h : Handler) (msg : WallmonMessage) :
    ∃ terminationCond total drift duration, h.counted msg = { h with
      terminationCond
      expectedTotalNumSamples := total
      totalScheduleDriftMsec := drift
      totalScheduleDurationMsec := duration
      received := h.received ++ [msg] } := by
  rw [counted, countSample]
  split
  · exact ⟨_, _, _, _, rfl⟩
  · exact ⟨_, _, _, _, rfl⟩

/-- What recording a process of interest keeps, and ending the program does, going through the
processes keeps. -/
theorem goThrough_preserves {I : Handler → Prop} {hz : UInt32}
    (hrecord : ∀ h procMsg, isTargetProcess procMsg.processname = true → I h →
      I (h.recordProcess hz msg procMsg))
    (hend : ∀ h, I h → I { h with status := .allSamplesReceived }) (hI : I h)
    (processMessages : List ProcessMessage) : I (goThrough hz msg h processMessages) := by
  induction processMessages generalizing h with
  | nil => exact hI
  | cons procMsg rest ih =>
    rw [goThrough]
    split
    · next htarget =>
      dsimp only
      split
      · exact hend _ (hrecord h procMsg htarget hI)
      · exact ih (hrecord h procMsg htarget hI)
    · exact ih hI

/-- The network statistics get at most one more sample, of one value. -/
theorem maintainNetworkReceivePerSec_ok (h : Handler) (msg : WallmonMessage)
    (hcount : CInt.InRange ((h.networkReceiveMegaBytesPerSec.samples.length + 1 : ℕ) : ℤ)) :
    ∃ timestamp stat bytes, h.maintainNetworkReceivePerSec msg = .ok { h with
        previousTimestamp := timestamp
        networkReceiveMegaBytesPerSec := stat
        sumBytesNetworkReceive := bytes } ∧
      (stat = h.networkReceiveMegaBytesPerSec ∨
        ∃ x, stat.samples = h.networkReceiveMegaBytesPerSec.samples ++ [[x]]) := by
  rw [maintainNetworkReceivePerSec]
  split
  · exact ⟨_, _, _, rfl, .inl rfl⟩
  · split
    · rw [Stat.newSample, Stat.add_ok _ hcount, ok_bind]
      exact ⟨_, _, _, rfl, .inr ⟨_, rfl⟩⟩
    · exact ⟨_, _, _, rfl, .inl rfl⟩

/-- The connections go to the only sample of them. -/
theorem addServerConnections_ok (values : List UInt32)
    (hvalues : h.numServerConnections.samples = [values]) :
    h.addServerConnections msg = .ok { h with
      numServerConnections :=
        { samples := [values ++ msg.daemonnumserverconnections.toList] } } := by
  have hstat : h.numServerConnections = { samples := [values] } := by
    rw [← hvalues]
  rw [addServerConnections]
  cases msg.daemonnumserverconnections with
  | none => rw [Option.toList_none, List.append_nil, ← hstat]
  | some n =>
    have hadd : Stat.add { samples := [values] } n = .ok { samples := [values ++ [n]] } :=
      @Stat.add_ok _ [] values n (by decide)
    dsimp only
    rw [hstat, hadd]
    rfl

/-! ## What holds of every run -/

/-- The processes by name and frequency. -/
def processes (stray : Float → UInt32) (targets : List (WallmonMessage × ProcessMessage)) :
    TreeMap String (TreeMap ℤ (List ProcessMessage)) :=
  group2 (fun target => target.2.processname)
    (fun target => CInt.ofUnsigned (target.1.hz stray).toNat) Prod.snd targets

/-- The messages by frequency and sequence number. -/
def seqNums (stray : Float → UInt32) (targets : List (WallmonMessage × ProcessMessage)) :
    TreeMap UInt32 (TreeMap UInt32 (List WallmonMessage)) :=
  group2 (fun target => target.1.hz stray) (fun target => target.1.collectorsequencenumber)
    Prod.fst targets

/-- **What the handler holds** is what the messages brought. -/
structure Consistent (stray : Float → UInt32) (totalNumSamples : ℤ) (h : Handler) : Prop where
  /-- the expected number of samples does not change -/
  expected : h.expectedNumSamplesPerNode = totalNumSamples
  /-- the hosts that are known are those of the messages -/
  seen : ∀ hostname, hostname ∈ h.terminationCond ↔ ∃ msg ∈ h.received, msg.hostname = hostname
  /-- what is accepted was received -/
  accepted_received : h.accepted.Sublist h.received
  /-- what is accepted is counted -/
  numSamples_eq : h.numSamples = h.accepted.length
  /-- and the count is an `int` -/
  numSamples_le : h.numSamples ≤ 2147483647
  /-- the messages by frequency -/
  hzToWallmonMessages_eq : h.hzToWallmonMessages =
    group (fun msg => msg.hz stray) id h.accepted
  /-- the processes by name and frequency -/
  procNameToHz_eq : h.procNameToHz = processes stray h.targets
  /-- the messages by frequency and sequence number -/
  hzToSeqNum_eq : h.hzToSeqNum = seqNums stray h.targets
  /-- the processes are of interest, and of accepted messages -/
  targets_accepted : ∀ target ∈ h.targets,
    isTargetProcess target.2.processname = true ∧ target.1 ∈ h.accepted
  /-- the connections -/
  numServerConnections_eq : h.numServerConnections.samples =
    [h.accepted.filterMap WallmonMessage.daemonnumserverconnections]
  /-- there are no more network samples than messages, -/
  networkReceive_length :
    h.networkReceiveMegaBytesPerSec.samples.length ≤ h.accepted.length
  /-- and none of them is empty -/
  networkReceive_nonempty : ∀ sample ∈ h.networkReceiveMegaBytesPerSec.samples, sample ≠ []

variable {totalNumSamples : ℤ}

theorem consistent_onInit : Consistent stray totalNumSamples (onInit totalNumSamples) where
  expected := rfl
  seen hostname := by simp [onInit]
  accepted_received := .slnil
  numSamples_eq := rfl
  numSamples_le := (by decide : (0 : ℤ) ≤ 2147483647)
  hzToWallmonMessages_eq := rfl
  procNameToHz_eq := rfl
  hzToSeqNum_eq := rfl
  targets_accepted _ htarget := absurd htarget List.not_mem_nil
  numServerConnections_eq := rfl
  networkReceive_length := Nat.le_refl 0
  networkReceive_nonempty _ hsample := absurd hsample List.not_mem_nil

theorem Consistent.status (hcons : Consistent stray totalNumSamples h) (status : Status) :
    Consistent stray totalNumSamples { h with status } :=
  { hcons with }

theorem Consistent.counted (hcons : Consistent stray totalNumSamples h) (msg : WallmonMessage) :
    Consistent stray totalNumSamples (h.counted msg) := by
  have hterm := terminationCond_counted h msg
  obtain ⟨terminationCond, total, drift, duration, heq⟩ := counted_frame h msg
  rw [heq] at hterm ⊢
  dsimp only at hterm
  refine { hcons with seen := fun hostname => ?_, accepted_received := ?_ }
  · have hinsert : hostname ∈ terminationCond ↔
        msg.hostname = hostname ∨ hostname ∈ h.terminationCond := by
      rw [hterm, TreeMap.mem_insert, LawfulEqCmp.compare_eq_iff_eq]
    rw [hinsert, hcons.seen]
    simp only [List.mem_append, List.mem_singleton, or_and_right, exists_or, exists_eq_left]
    exact or_comm
  · exact hcons.accepted_received.trans (List.sublist_append_left _ _)

theorem Consistent.recordProcess (hcons : Consistent stray totalNumSamples h)
    (hmsg : msg ∈ h.accepted) {procMsg : ProcessMessage}
    (htarget : isTargetProcess procMsg.processname = true) :
    Consistent stray totalNumSamples (h.recordProcess (msg.hz stray) msg procMsg) := by
  refine { hcons with procNameToHz_eq := ?_, hzToSeqNum_eq := ?_, targets_accepted := ?_ }
  · have heq := hcons.procNameToHz_eq
    rw [processes, group2] at heq
    rw [Handler.recordProcess, processes, group2, List.foldl_append, ← heq]
    rfl
  · have heq := hcons.hzToSeqNum_eq
    rw [seqNums, group2] at heq
    rw [Handler.recordProcess, seqNums, group2, List.foldl_append, ← heq]
    rfl
  · intro target hmem
    rcases List.mem_append.mp hmem with hmem | hmem
    · exact hcons.targets_accepted target hmem
    · obtain rfl := List.mem_singleton.mp hmem
      exact ⟨htarget, hmsg⟩

/-- The handler that has accepted a message, but not gone through its processes. -/
structure Ready (stray : Float → UInt32) (totalNumSamples : ℤ) (h : Handler) (msg : WallmonMessage)
    (ready : Handler) : Prop where
  /-- the message is among what it holds -/
  consistent : Consistent stray totalNumSamples ready
  /-- it is accepted -/
  accepted : ready.accepted = h.accepted ++ [msg]
  /-- and received -/
  received : ready.received = h.received ++ [msg]
  /-- its host is counted -/
  terminationCond : ready.terminationCond = h.terminationCond.insert msg.hostname 1
  /-- the processes are those of before -/
  targets : ready.targets = h.targets
  /-- the program still handles messages -/
  status : ready.status = h.status

/-- Accepting a message goes through unless a count overflows. -/
theorem acceptMessage_frame (h : Handler) (msg : WallmonMessage) {values : List UInt32}
    (hnum : CInt.InRange (h.numSamples + 1))
    (hlength : CInt.InRange ((h.networkReceiveMegaBytesPerSec.samples.length + 1 : ℕ) : ℤ))
    (hvalues : h.numServerConnections.samples = [values]) (hz : UInt32)
    (processMessages : List ProcessMessage) :
    ∃ timestamp stat bytes, h.acceptMessage hz msg processMessages =
        .ok (goThrough hz msg { h with
          numSamples := h.numSamples + 1
          previousTimestamp := timestamp
          networkReceiveMegaBytesPerSec := stat
          sumBytesNetworkReceive := bytes
          numServerConnections :=
            { samples := [values ++ msg.daemonnumserverconnections.toList] }
          hzToWallmonMessages := pushBack h.hzToWallmonMessages hz msg
          accepted := h.accepted ++ [msg] } processMessages) ∧
      (stat = h.networkReceiveMegaBytesPerSec ∨
        ∃ x, stat.samples = h.networkReceiveMegaBytesPerSec.samples ++ [[x]]) := by
  obtain ⟨timestamp, stat, bytes, hmaintain, hstat⟩ := maintainNetworkReceivePerSec_ok
    { h with numSamples := h.numSamples + 1 } msg hlength
  refine ⟨timestamp, stat, bytes, ?_, hstat⟩
  rw [acceptMessage, CInt.add_ok hnum, ok_bind, hmaintain, ok_bind, addServerConnections_ok values]
  · rfl
  · exact hvalues

/-- **Accepting a message**: it is among what the handler holds then. -/
theorem acceptMessage_ok (hcons : Consistent stray totalNumSamples h)
    (hcount : h.numSamples < 2147483647) (processMessages : List ProcessMessage) :
    ∃ ready, Ready stray totalNumSamples h msg ready ∧
      (h.counted msg).acceptMessage (msg.hz stray) msg processMessages =
        .ok (goThrough (msg.hz stray) msg ready processMessages) := by
  have hcounted := hcons.counted msg
  have hterm := terminationCond_counted h msg
  obtain ⟨terminationCond, total, drift, duration, heq⟩ := counted_frame h msg
  have hnum := hcons.numSamples_eq
  have hlength := hcons.networkReceive_length
  have hnumRange : CInt.InRange (h.numSamples + 1) := ⟨by omega, by omega⟩
  have hlengthRange :
      CInt.InRange ((h.networkReceiveMegaBytesPerSec.samples.length + 1 : ℕ) : ℤ) :=
    ⟨by omega, by omega⟩
  obtain ⟨timestamp, stat, bytes, hok, hstat⟩ := acceptMessage_frame (h.counted msg) msg
    (by rwa [heq]) (by rwa [heq]) hcounted.numServerConnections_eq (msg.hz stray)
    processMessages
  refine ⟨_, ?_, hok⟩
  rw [heq] at hterm hcounted hstat ⊢
  refine ⟨?_, rfl, rfl, hterm, rfl, rfl⟩
  refine { hcounted with
    accepted_received := ?_, numSamples_eq := ?_, numSamples_le := ?_, hzToWallmonMessages_eq := ?_
    targets_accepted := ?_, numServerConnections_eq := ?_, networkReceive_length := ?_
    networkReceive_nonempty := ?_ }
  · exact hcons.accepted_received.append (List.Sublist.refl [msg])
  · rw [List.length_append, List.length_singleton, hnum]
    rfl
  · exact hcount
  · have heq := hcons.hzToWallmonMessages_eq
    rw [group] at heq
    rw [group, List.foldl_append, ← heq]
    rfl
  · intro target htarget
    obtain ⟨hname, hmsg⟩ := hcons.targets_accepted target htarget
    exact ⟨hname, List.mem_append_left _ hmsg⟩
  · rw [List.filterMap_append]
    cases hconn : msg.daemonnumserverconnections <;> simp [hconn]
  · rw [List.length_append, List.length_singleton]
    rcases hstat with rfl | ⟨x, hx⟩
    · exact hlength.trans (Nat.le_succ _)
    · rw [hx, List.length_append, List.length_singleton]
      exact Nat.add_le_add_right hlength 1
  · intro sample hsample
    rcases hstat with rfl | ⟨x, hx⟩
    · exact hcons.networkReceive_nonempty sample hsample
    · rw [hx] at hsample
      rcases List.mem_append.mp hsample with hsample | hsample
      · exact hcons.networkReceive_nonempty sample hsample
      · rw [List.mem_singleton.mp hsample]
        exact List.cons_ne_nil x []

/-- What comes of a message. -/
inductive Handled (stray : Float → UInt32) (totalNumSamples : ℤ) (h : Handler)
    (msg : WallmonMessage) : Handler → Prop where
  /-- the program has ended -/
  | ended : h.status ≠ .running → Handled stray totalNumSamples h msg h
  /-- it ends here, as the message cannot be parsed -/
  | unparsed : h.status = .running → msg.data = none →
      Handled stray totalNumSamples h msg { h with status := .aborted }
  /-- the message is discarded -/
  | discarded : h.status = .running → msg.data ≠ none → totalNumSamples ≤ 1 →
      Handled stray totalNumSamples h msg (h.counted msg)
  /-- the count of messages overflows -/
  | overflow : h.status = .running → msg.data ≠ none → 1 < totalNumSamples →
      h.numSamples = 2147483647 →
      Handled stray totalNumSamples h msg { h with status := .faulted .overflow }
  /-- the message is accepted -/
  | accepted {ready : Handler} {processMessages : List ProcessMessage} : h.status = .running →
      msg.data = some processMessages → 1 < totalNumSamples → h.numSamples < 2147483647 →
      Ready stray totalNumSamples h msg ready →
      Handled stray totalNumSamples h msg (goThrough (msg.hz stray) msg ready processMessages)

/-- **The cases of `Handle`** -/
theorem handled (hcons : Consistent stray totalNumSamples h) (msg : WallmonMessage) :
    Handled stray totalNumSamples h msg (h.handle stray msg) := by
  have hone : (h.counted msg).expectedNumSamplesPerNode = totalNumSamples :=
    (hcons.counted msg).expected
  rw [handle]
  split
  · next hrunning =>
    split
    · next hdata => exact .unparsed hrunning hdata
    · next processMessages hdata =>
      have hparsed : h.handleParsed stray msg processMessages =
          if (h.counted msg).expectedNumSamplesPerNode ≤ 1 then .ok (h.counted msg)
          else (h.counted msg).acceptMessage (msg.hz stray) msg processMessages := by
        rw [handleParsed]
        dsimp only
        rw [countSample_snd]
        rfl
      rw [hparsed, hone]
      have hsome : msg.data ≠ none := by rw [hdata]; exact Option.some_ne_none _
      by_cases htotal : totalNumSamples ≤ 1
      · rw [if_pos htotal]
        exact .discarded hrunning hsome htotal
      · rw [if_neg htotal]
        rcases lt_or_eq_of_le hcons.numSamples_le with hlt | heq
        · obtain ⟨ready, hready, hok⟩ := acceptMessage_ok hcons hlt processMessages
          rw [hok]
          exact .accepted hrunning hdata (by omega) hlt hready
        · have hadd : CInt.add (h.counted msg).numSamples 1 = .error .overflow := by
            obtain ⟨_, _, _, _, hframe⟩ := counted_frame h msg
            rw [hframe]
            exact CInt.add_overflow (by dsimp only; rw [heq]; decide)
          rw [acceptMessage, hadd, error_bind]
          exact .overflow hrunning hsome (by omega) heq
  · next hended => exact .ended hended

/-- Going through the processes keeps what the handler holds to what the messages brought. -/
theorem Consistent.goThrough {ready : Handler} (hcons : Consistent stray totalNumSamples ready)
    (hmsg : msg ∈ ready.accepted) (processMessages : List ProcessMessage) :
    Consistent stray totalNumSamples (goThrough (msg.hz stray) msg ready processMessages) := by
  refine (goThrough_preserves
    (I := fun h => Consistent stray totalNumSamples h ∧ msg ∈ h.accepted)
    (fun h procMsg htarget hI => ⟨hI.1.recordProcess hI.2 htarget, hI.2⟩)
    (fun h hI => ⟨hI.1.status _, hI.2⟩) ⟨hcons, hmsg⟩ processMessages).1

/-- A message keeps it so, -/
theorem Consistent.handle (hcons : Consistent stray totalNumSamples h) (msg : WallmonMessage) :
    Consistent stray totalNumSamples (h.handle stray msg) := by
  have hcase := handled hcons msg
  generalize h.handle stray msg = next at hcase ⊢
  cases hcase with
  | ended _ => exact hcons
  | unparsed _ _ => exact hcons.status _
  | discarded _ _ _ => exact hcons.counted msg
  | overflow _ _ _ _ => exact hcons.status _
  | accepted _ _ _ _ hready =>
    exact hready.consistent.goThrough (by rw [hready.accepted]; simp) _

/-- **and so does every run.** -/
theorem consistent_run (msgs : List WallmonMessage) :
    Consistent stray totalNumSamples (run stray totalNumSamples msgs) := by
  induction msgs using List.reverseRecOn with
  | nil => exact consistent_onInit
  | append_singleton msgs msg ih =>
    rw [run, List.foldl_append]
    exact ih.handle msg

end Handler

end Gnuplot

end WallMon
