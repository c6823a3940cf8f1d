import Mathlib.Algebra.GroupWithZero.Nat
import Mathlib.Data.Nat.Log
import WallMon.PidMonitor
import WallMon.Transition

/-!
# `ProcessCollector` on a host where processes come and go

The collector keeps a `LinuxProcessMonitorLight` with open files for each process it
knows. A tick (`Sample`) takes a snapshot of the pids, opens the files of those that are
new, has every monitor read its files, takes a monitor whose reads fail out of
`_monitors`, and serialises a message for each monitor into a buffer.

A step is one of these: the snapshot, one pid, one monitor, the serialisation. Between
any two of them processes are born and die. Opening or reading the files of a process
that is not running fails; with a process that is running it may fail too.
-/

namespace WallMon

/-! ## The host -/

/-- A process: its pid, and the number of its birth among all births on the host. -/
structure Process where
  /-- the pid -/
  pid : ℤ
  /-- how many processes were born before -/
  birth : ℕ
  deriving DecidableEq

/-- The processes of a host. -/
structure Host where
  /-- which process has a pid, by the number of its birth -/
  running : ℤ → Option ℕ
  /-- how many processes were ever born -/
  births : ℕ

namespace Host

/-- The process is running. -/
def Runs (h : Host) (p : Process) : Prop := h.running p.pid = some p.birth

instance (h : Host) (p : Process) : Decidable (h.Runs p) := inferInstanceAs (Decidable (_ = _))

/-- A process is born. -/
def birth (h : Host) (pid : ℤ) : Host where
  running := Function.update h.running pid (some h.births)
  births := h.births + 1

/-- A process dies. -/
def death (h : Host) (pid : ℤ) : Host :=
  { h with running := Function.update h.running pid none }

/-- What `GetAllPids` adds to its vector: the pids of the processes that are running, or
nothing if it fails. -/
def Lists (h : Host) (snapshot : Option (List ℤ)) : Prop :=
  ∀ pids, snapshot = some pids → pids.Nodup ∧ ∀ pid, pid ∈ pids ↔ (h.running pid).isSome

/-- Pids are positive, and births are counted. -/
structure WellFormed (h : Host) : Prop where
  /-- pids are positive -/
  pos : ∀ p, h.Runs p → 0 < p.pid
  /-- births are counted -/
  lt : ∀ p, h.Runs p → p.birth < h.births

variable {h : Host} {p : Process} {pid : ℤ}

/-- The processes after a birth. -/
theorem runs_birth : (h.birth pid).Runs p ↔
    p = ⟨pid, h.births⟩ ∨ h.Runs p ∧ p.pid ≠ pid := by
  obtain ⟨pid', birth⟩ := p
  by_cases heq : pid' = pid
  · subst heq
    simp [Runs, Host.birth, eq_comm]
  · simp [Runs, Host.birth, heq]

/-- The processes after a death. -/
theorem runs_death : (h.death pid).Runs p ↔ h.Runs p ∧ p.pid ≠ pid := by
  obtain ⟨pid', birth⟩ := p
  by_cases heq : pid' = pid
  · subst heq
    simp [Runs, Host.death]
  · simp [Runs, Host.death, heq]

/-- Which pids a snapshot lists. -/
theorem Lists.mem_iff {pids : List ℤ} (hlists : h.Lists (some pids)) :
    pid ∈ pids ↔ ∃ birth, h.Runs ⟨pid, birth⟩ := by
  rw [(hlists pids rfl).2, Option.isSome_iff_exists]
  rfl

/-- A snapshot can fail. -/
theorem lists_none (h : Host) : h.Lists none := fun _ heq => nomatch heq

theorem Lists.nodup {snapshot : Option (List ℤ)} (hlists : h.Lists snapshot) :
    (snapshot.getD []).Nodup := by
  cases snapshot with
  | none => exact .nil
  | some pids => exact (hlists pids rfl).1

theorem WellFormed.birth (hwf : h.WellFormed) (hpid : 0 < pid) : (h.birth pid).WellFormed := by
  refine ⟨?_, ?_⟩
  · intro p hp
    rcases runs_birth.mp hp with rfl | ⟨hold, -⟩
    · exact hpid
    · exact hwf.pos p hold
  · intro p hp
    rcases runs_birth.mp hp with rfl | ⟨hold, -⟩
    · exact Nat.lt_succ_self _
    · exact (hwf.lt p hold).trans (Nat.lt_succ_self _)

theorem WellFormed.death (hwf : h.WellFormed) : (h.death pid).WellFormed :=
  ⟨fun p hp => hwf.pos p (runs_death.mp hp).1, fun p hp => hwf.lt p (runs_death.mp hp).1⟩

end Host

/-! ## Messages -/

/-- A `ProcessMessage`; a string or number that is not set is `none`. -/
structure ProcessMessage where
  /-- `hostname` -/
  hostname : Option String
  /-- `processname` -/
  processname : Option String
  /-- `pid` -/
  pid : Option UInt32
  /-- `isTerminated`, which is set only to be true -/
  isTerminated : Bool
  /-- the other fields that are set, as encoded -/
  statistics : List UInt8

/-- The bytes of a number in base 128. -/
def varintSize (n : ℕ) : ℕ := Nat.log 128 n + 1

/-- The bytes of a field with a string: a tag of one byte, the length, the string. -/
def stringFieldSize (s : String) : ℕ := 1 + varintSize s.utf8ByteSize + s.utf8ByteSize

/-- `ByteSize` of a message -/
def ProcessMessage.byteSize (msg : ProcessMessage) : ℕ :=
  (msg.hostname.map stringFieldSize).getD 0 + (msg.processname.map stringFieldSize).getD 0 +
    (msg.pid.map fun pid => 1 + varintSize pid.toNat).getD 0 +
    (if msg.isTerminated then 3 else 0) + msg.statistics.length

/-- `ByteSize` of the message around them -/
def batchByteSize (msgs : List ProcessMessage) : ℕ :=
  (msgs.map fun msg => 1 + varintSize msg.byteSize + msg.byteSize).sum

/-- `MESSAGE_BUF_SIZE` -/
def messageBufSize : ℕ := 1024 * 1024

/-! ## The collector -/

/-- A monitor, as far as the collector uses it. -/
structure LinuxProcessMonitorLight where
  /-- the process whose files it has open -/
  process : Process
  /-- history: how many monitors were made before -/
  number : ℕ

/-- The data members of the class that change, and how many monitors were made. -/
structure ProcessCollector where
  /-- `_pidMonitor` -/
  pidMonitor : PidMonitor
  /-- `_monitors` -/
  monitors : List LinuxProcessMonitorLight
  /-- `_processesMsg`; history: the number of the monitor that a message is about -/
  processesMsg : List (ℕ × ProcessMessage)
  /-- history: how many monitors were made -/
  created : ℕ

namespace ProcessCollector

/-- A new collector. -/
def new : ProcessCollector where
  pidMonitor := .empty
  monitors := []
  processesMsg := []
  created := 0

/-- `_AddProcess`; `none` if a file cannot be opened or read. -/
def addProcess (c : ProcessCollector) : Option Process → ProcessCollector
  | none => c
  | some process =>
    { c with
      monitors := c.monitors ++ [{ process, number := c.created }]
      created := c.created + 1 }

/-- One round of the loop in `Sample`, for the monitor at index `i`: whether its `Update`
succeeds, and the values it has for its message. -/
def sampleMonitor (c : ProcessCollector) (i : ℕ) (update : Bool) (values : ProcessMessage) :
    ProcessCollector :=
  match c.monitors[i]? with
  | none => c
  | some monitor =>
    { c with
      -- the loop goes on at `i + 1`: the monitor that moves up is left out in this tick
      monitors := if update then c.monitors else c.monitors.eraseIdx i
      processesMsg := c.processesMsg ++
        [(monitor.number, { values with isTerminated := !update })] }

/-- `SerializeToArray` of what was collected fits into the buffer. -/
def Fits (c : ProcessCollector) : Prop :=
  batchByteSize (c.processesMsg.map (·.2)) ≤ messageBufSize

instance (c : ProcessCollector) : Decidable c.Fits := inferInstanceAs (Decidable (_ ≤ _))

/-- The end of `Sample`: the data of its message, if it sets any. -/
def serialize (c : ProcessCollector) : ProcessCollector × Option (List (ℕ × ProcessMessage)) :=
  ({ c with processesMsg := [] }, if c.Fits then some c.processesMsg else none)

end ProcessCollector

/-! ## Runs -/

/-- What a collector is set up with. -/
structure CollectorConfig where
  /-- `_processNames`; if there are none, all processes are monitored -/
  processNames : List String
  /-- `getpid` -/
  ownPid : ℤ

/-- A collector that monitors all processes. -/
def CollectorConfig.allProcesses (ownPid : ℤ) : CollectorConfig := { processNames := [], ownPid }

/-- Where the collector's code is. -/
inductive Phase where
  /-- `OnInit` was not called yet -/
  | created
  /-- in `OnInit` or in `Sample`, with these pids still to add -/
  | adding (pids : List ℤ) (inSample : Bool)
  /-- in the loop of `Sample` -/
  | sampling (i : ℕ)
  /-- between two calls -/
  | idle
  deriving DecidableEq

/-- Whether a call can begin, and whether it is one of `Sample`. -/
def Phase.begins : Phase → Option Bool
  | .created => some false
  | .idle => some true
  | .adding _ _ => none
  | .sampling _ => none

/-- The pids still to add. -/
def Phase.pending : Phase → List ℤ
  | .adding pids _ => pids
  | _ => []

/-- A host and its collector. -/
structure CollectorRun where
  /-- the host -/
  host : Host
  /-- the collector -/
  collector : ProcessCollector
  /-- where its code is -/
  phase : Phase
  /-- history: how many processes were born before the last snapshot -/
  snapped : ℕ
  /-- history: how many were born before the collector last dealt with a pid, by the last
  snapshot or by opening files -/
  dealt : ℤ → ℕ
  /-- history: processes whose files could not be opened or read while they were running -/
  refused : List Process
  /-- history: the monitors taken out of `_monitors` -/
  removed : List ℕ
  /-- history: the data handed back by `Sample` -/
  handed : List (List (ℕ × ProcessMessage))

/-- What happens at a host and its collector. -/
inductive CollectorEvent where
  /-- a process is born -/
  | birth (pid : ℤ)
  /-- the process with a pid dies -/
  | death (pid : ℤ)
  /-- `OnInit` or `Sample` begins, with a snapshot -/
  | snapshot (pids : Option (List ℤ))
  /-- `OnInit` begins, with the pids of the defined processes -/
  | defined (pids : List ℤ)
  /-- `Sample` begins, without a snapshot -/
  | sample
  /-- `_AddProcess`; whether the files of a running process can be opened and read -/
  | add (readable : Bool)
  /-- all processes are added -/
  | added
  /-- a round of the loop in `Sample`; whether the files of a running process can be read -/
  | update (readable : Bool) (values : ProcessMessage)
  /-- the end of `Sample` -/
  | finish

namespace CollectorRun

/-- `_FindAllNewProcesses` up to the loop over the pids. -/
def findAllNewProcesses (r : CollectorRun) (pids : Option (List ℤ)) (inSample : Bool) :
    CollectorRun :=
  let pidMonitor := r.collector.pidMonitor.update pids
  { r with
    collector := { r.collector with pidMonitor }
    phase := .adding pidMonitor.getDifference inSample
    snapped := r.host.births
    dealt := fun _ => r.host.births }

/-- The pid whose files `Open` opens. -/
def openPid (C : CollectorConfig) (pid : ℤ) : ℤ := if pid = -1 then C.ownPid else pid

/-- `_AddProcess` for a pid, with these still to add after it. -/
def add (C : CollectorConfig) (r : CollectorRun) (pid : ℤ) (pids : List ℤ) (inSample : Bool)
    (readable : Bool) : CollectorRun :=
  let pid := openPid C pid
  let r :=
    { r with
      phase := .adding pids inSample
      dealt := Function.update r.dealt pid r.host.births }
  match r.host.running pid with
  | none => { r with collector := r.collector.addProcess none }
  | some birth =>
    if readable then { r with collector := r.collector.addProcess (some ⟨pid, birth⟩) }
    else
      { r with
        collector := r.collector.addProcess none
        refused := r.refused ++ [⟨pid, birth⟩] }

/-- A round of the loop in `Sample`. -/
def update (r : CollectorRun) (i : ℕ) (monitor : LinuxProcessMonitorLight) (readable : Bool)
    (values : ProcessMessage) : CollectorRun :=
  let update := readable && decide (r.host.Runs monitor.process)
  { r with
    collector := r.collector.sampleMonitor i update values
    phase := .sampling (i + 1)
    refused := r.refused ++
      if update = false ∧ r.host.Runs monitor.process then [monitor.process] else []
    removed := r.removed ++ if update then [] else [monitor.number] }

/-- The end of `Sample`. -/
def finish (r : CollectorRun) : CollectorRun :=
  { r with
    collector := r.collector.serialize.1
    phase := .idle
    handed := r.handed ++ r.collector.serialize.2.toList }

/-- One step. -/
inductive Step (C : CollectorConfig) : CollectorRun → CollectorEvent → CollectorRun → Prop where
  /-- a process is born -/
  | birth {r : CollectorRun} {pid : ℤ} : 0 < pid → r.host.running pid = none →
      Step C r (.birth pid) { r with host := r.host.birth pid }
  /-- a process dies -/
  | death {r : CollectorRun} {pid : ℤ} : Step C r (.death pid) { r with host := r.host.death pid }
  /-- a call begins with a snapshot -/
  | snapshot {r : CollectorRun} {pids : Option (List ℤ)} {inSample : Bool} :
      C.processNames = [] → r.phase.begins = some inSample → r.host.Lists pids →
      Step C r (.snapshot pids) (r.findAllNewProcesses pids inSample)
  /-- `OnInit` with defined processes -/
  | defined {r : CollectorRun} {pids : List ℤ} :
      C.processNames ≠ [] → r.phase = .created → pids.length = C.processNames.length →
      Step C r (.defined pids) { r with phase := .adding pids false }
  /-- `Sample` with defined processes -/
  | sample {r : CollectorRun} : C.processNames ≠ [] → r.phase = .idle →
      Step C r .sample { r with phase := .sampling 0 }
  /-- a process is added -/
  | add {r : CollectorRun} {pid : ℤ} {pids : List ℤ} {inSample readable : Bool} :
      r.phase = .adding (pid :: pids) inSample →
      Step C r (.add readable) (r.add C pid pids inSample readable)
  /-- all processes are added -/
  | added {r : CollectorRun} {inSample : Bool} : r.phase = .adding [] inSample →
      Step C r .added { r with phase := if inSample then .sampling 0 else .idle }
  /-- a monitor is sampled -/
  | update {r : CollectorRun} {i : ℕ} {monitor : LinuxProcessMonitorLight} {readable : Bool}
      {values : ProcessMessage} :
      r.phase = .sampling i → r.collector.monitors[i]? = some monitor →
      Step C r (.update readable values) (r.update i monitor readable values)
  /-- the loop of `Sample` is over -/
  | finish {r : CollectorRun} {i : ℕ} : r.phase = .sampling i →
      r.collector.monitors.length ≤ i → Step C r .finish r.finish

/-- A host with a new collector. -/
def start (host : Host) : CollectorRun where
  host := host
  collector := .new
  phase := .created
  snapped := 0
  dealt := fun _ => 0
  refused := []
  removed := []
  handed := []

/-- The transition system of a host and its collector. -/
def system (C : CollectorConfig) : TransitionSystem CollectorRun CollectorEvent where
  init r := ∃ host : Host, host.WellFormed ∧ r = start host
  step := Step C

section Steps

variable (C : CollectorConfig) (r : CollectorRun)

/-- A call begins with a snapshot. -/
theorem snapshot_step (pids : Option (List ℤ)) (inSample : Bool) (hnames : C.processNames = [])
    (hbegins : r.phase.begins = some inSample) (hlists : r.host.Lists pids) :
    Step C r (.snapshot pids) (r.findAllNewProcesses pids inSample) :=
  .snapshot hnames hbegins hlists

/-- A process is added. -/
theorem add_step (pid : ℤ) {pids : List ℤ} {inSample : Bool} (readable : Bool)
    (hphase : r.phase = .adding (pid :: pids) inSample) :
    Step C r (.add readable) (r.add C pid pids inSample readable) :=
  .add hphase

/-- All processes are added. -/
theorem added_step (inSample : Bool) (hphase : r.phase = .adding [] inSample) :
    Step C r .added { r with phase := if inSample then .sampling 0 else .idle } :=
  .added hphase

/-- A monitor is sampled. -/
theorem update_step {i : ℕ} {monitor : LinuxProcessMonitorLight} (readable : Bool)
    (values : ProcessMessage) (hphase : r.phase = .sampling i)
    (hmonitor : r.collector.monitors[i]? = some monitor) :
    Step C r (.update readable values) (r.update i monitor readable values) :=
  .update hphase hmonitor

/-- The loop of `Sample` is over. -/
theorem finish_step {i : ℕ} (hphase : r.phase = .sampling i)
    (hlength : r.collector.monitors.length ≤ i) : Step C r .finish r.finish :=
  .finish hphase hlength

end Steps

/-! ## What steps do to the monitors -/

variable {C : CollectorConfig} {r r' : CollectorRun} {e : CollectorEvent}

/-- What adding a process does: its files are opened and read, or there is no process, or
it is refused. -/
theorem add_cases (C : CollectorConfig) (r : CollectorRun) (pid : ℤ) (pids : List ℤ)
    (inSample readable : Bool) :
    ∃ monitors created refused,
      r.add C pid pids inSample readable =
        { r with
          collector := { r.collector with monitors, created }
          phase := .adding pids inSample
          dealt := Function.update r.dealt (openPid C pid) r.host.births
          refused := refused } ∧
      ((∃ birth, r.host.Runs ⟨openPid C pid, birth⟩ ∧
          monitors = r.collector.monitors ++
            [⟨⟨openPid C pid, birth⟩, r.collector.created⟩] ∧
          created = r.collector.created + 1 ∧ refused = r.refused) ∨
        monitors = r.collector.monitors ∧ created = r.collector.created ∧
          (∀ birth, r.host.Runs ⟨openPid C pid, birth⟩ → ⟨openPid C pid, birth⟩ ∈ refused) ∧
          ∀ p ∈ r.refused, p ∈ refused) := by
  rw [add]
  dsimp only
  split
  · next hnone =>
    refine ⟨_, _, _, rfl, .inr ⟨rfl, rfl, ?_, fun _ => id⟩⟩
    intro birth hruns
    rw [Host.Runs, hnone] at hruns
    cases hruns
  · next birth hbirth =>
    split
    · exact ⟨_, _, _, rfl, .inl ⟨birth, hbirth, rfl, rfl, rfl⟩⟩
    · refine ⟨_, _, _, rfl, .inr ⟨rfl, rfl, ?_, fun _ hp => List.mem_append_left _ hp⟩⟩
      intro birth' hruns
      obtain rfl : birth = birth' := Option.some.inj (hbirth.symm.trans hruns)
      exact List.mem_append_right _ (List.mem_singleton_self _)

/-- What sampling a monitor does: it stays, or it is taken out and its process is not
running or refused. -/
theorem update_cases (r : CollectorRun) {i : ℕ} {monitor : LinuxProcessMonitorLight}
    (readable : Bool) (values : ProcessMessage)
    (hmonitor : r.collector.monitors[i]? = some monitor) :
    ∃ update : Bool,
      (r.update i monitor readable values).collector =
        { r.collector with
          monitors :=
            if update then r.collector.monitors else r.collector.monitors.eraseIdx i
          processesMsg := r.collector.processesMsg ++
            [(monitor.number, { values with isTerminated := !update })] } ∧
      (r.update i monitor readable values).removed =
        r.removed ++ (if update then [] else [monitor.number]) ∧
      (∀ p ∈ r.refused, p ∈ (r.update i monitor readable values).refused) ∧
      (update = false → r.host.Runs monitor.process →
        monitor.process ∈ (r.update i monitor readable values).refused) := by
  refine ⟨readable && decide (r.host.Runs monitor.process), ?_, rfl, ?_, ?_⟩
  · simp only [update, ProcessCollector.sampleMonitor, hmonitor]
  · exact fun p hp => List.mem_append_left _ hp
  · intro hupdate hruns
    exact List.mem_append_right _ (by rw [if_pos ⟨hupdate, hruns⟩]; exact List.mem_singleton_self _)

/-- The host stays well-formed. -/
theorem Step.wellFormed (h : Step C r e r') (hwf : r.host.WellFormed) : r'.host.WellFormed := by
  cases h with
  | birth hpid => exact hwf.birth hpid
  | death => exact hwf.death
  | @add pid pids inSample readable =>
    obtain ⟨_, _, _, heq, -⟩ := add_cases C r pid pids inSample readable
    rw [heq]
    exact hwf
  | snapshot => exact hwf
  | defined => exact hwf
  | sample => exact hwf
  | added => exact hwf
  | update => exact hwf
  | finish => exact hwf

end CollectorRun

end WallMon
