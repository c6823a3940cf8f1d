import WallMon.Data
import WallMon.Scene
import WallMon.Table

/-!
# What the wall shows of a process

`Handler::Handle` takes a message apart into messages about processes. Each of them puts
the process's numbers into its `Proc`, gives its four boids places on the axes, and fills in
the row of its table item. Meanwhile the axis can be switched, and frames draw what the
scene has.

So what is shown of a process is what its newest message says, as the axis was then, and
each text is the last that a message had (`newest_shown`). And what a frame draws are the axis
and the boids of the processes that are registered, provided that no process ends before there
was a frame since its first message (`drawn_registered`). A process is known by its key: two
processes whose hosts and pids, written one behind the other, are the same count as one.

Floating-point numbers are rational here, and the logarithm is a parameter; no value of it
stands for minus infinity. Objects are given by number.
-/

namespace WallMon

/-- A `ProcessMessage` with the fields that this handler reads of it. -/
structure ProcessSample extends ProcessMessage where
  /-- `user` -/
  user : Option String
  /-- `startTime` -/
  startTime : Option String
  /-- `numThreads` -/
  numThreads : Option UInt32
  /-- `userCpuUtilization` -/
  userCpuUtilization : Option ℚ
  /-- `systemCpuUtilization` -/
  systemCpuUtilization : Option ℚ
  /-- `memoryUtilization` -/
  memoryUtilization : Option ℚ
  /-- `networkInBytes` -/
  networkInBytes : Option UInt32
  /-- `networkOutBytes` -/
  networkOutBytes : Option UInt32
  /-- `storageInBytes` -/
  storageInBytes : Option UInt32
  /-- `storageOutBytes` -/
  storageOutBytes : Option UInt32
  /-- `numPageFaultsPerSec` -/
  numPageFaultsPerSec : Option ℚ

/-- `StatBase`, without the sums, which are never added to. -/
structure StatBase where
  /-- `userCpuUtilization` -/
  userCpuUtilization : ℚ
  /-- `systemCpuUtilization` -/
  systemCpuUtilization : ℚ
  /-- `memoryUtilization` -/
  memoryUtilization : ℚ
  /-- `networkInUtilization` -/
  networkInUtilization : ℚ
  /-- `networkOutUtilization` -/
  networkOutUtilization : ℚ
  /-- `storageInUtilization` -/
  storageInUtilization : ℚ
  /-- `storageOutUtilization` -/
  storageOutUtilization : ℚ
  /-- `numSamples` -/
  numSamples : UInt32
  deriving DecidableEq

/-- The constructor. -/
def StatBase.new : StatBase := ⟨0, 0, 0, 0, 0, 0, 0, 0⟩

/-- What a `TableItem` says of a process. -/
structure ItemTexts where
  /-- `key` -/
  key : String
  /-- `_procName` -/
  procName : String
  /-- `_hostName` -/
  hostName : String
  /-- `_user` -/
  user : String
  /-- `_time` -/
  startTime : String
  /-- `_numThreads` -/
  numThreads : String
  /-- `_pid` -/
  pid : String
  /-- `_score` -/
  score : ℚ
  deriving DecidableEq

/-- The constructor. -/
def ItemTexts.new (key : String) : ItemTexts := ⟨key, "", "", "", "", "", "", 0⟩

/-! ## The places of boids -/

/-- `FILTER_THRESHOLD` -/
def filterThreshold : ℚ := 1

/-- `NETWORK_MAX_IN_AND_OUT_BYTES` -/
def networkMaxInAndOutBytes : ℚ := 1024 * 1024 * 50

/-- Bytes in percent of the most that are expected. -/
def byteUtilization (bytes : Option UInt32) : ℚ :=
  (bytes.getD 0).toNat / networkMaxInAndOutBytes * 100

/-- `_UpdateProcessStatistics` -/
def updateProcessStatistics (msg : ProcessSample) (pstat : StatBase) : StatBase where
  userCpuUtilization := msg.userCpuUtilization.getD 0
  systemCpuUtilization := msg.systemCpuUtilization.getD 0
  memoryUtilization := msg.memoryUtilization.getD 0
  networkInUtilization := byteUtilization msg.networkInBytes
  networkOutUtilization := byteUtilization msg.networkOutBytes
  storageInUtilization := byteUtilization msg.storageInBytes
  storageOutUtilization := byteUtilization msg.storageOutBytes
  numSamples := pstat.numSamples + 1

section Places

variable (log2 : ℚ → Option ℚ)

/-- `_LinearToLogarithmicAxisValue` -/
def linearToLogarithmicAxisValue (linearValue : ℚ) : Option ℚ :=
  (log2 linearValue).map fun l => (l + 1) * 12.5

/-- A value on the axis that is used. -/
def axisValue (useLogarithmicAxis : Bool) (value : ℚ) : Option ℚ :=
  if useLogarithmicAxis then linearToLogarithmicAxisValue log2 value else some value

/-- Where a boid that is not shown is sent. -/
def hidden : ℚ × ℚ := (-1, -1)

/-- The destination for a value on the axis. -/
def filtered (value : Option ℚ) (y : ℚ) : ℚ × ℚ :=
  match value with
  | none => hidden
  | some x => if x < filterThreshold then hidden else (x, y)

/-- The share of a part, in percent. -/
def relativeShare (part total : ℚ) : ℚ := if total > 0 then part / total * 100 else 50

/-- The destination of the boid for a sum of two utilizations, one of which gives the share. -/
def sumDestination (useLogarithmicAxis : Bool) (part other : ℚ) : ℚ × ℚ :=
  filtered (axisValue log2 useLogarithmicAxis (part + other)) (relativeShare part (part + other))

/-- The destination of the boid for memory: what is filtered is the value on the linear axis,
whichever is used. From the threshold on there is a logarithm. -/
def memoryDestination (useLogarithmicAxis : Bool) (memoryUtilization pageFaults : ℚ) : ℚ × ℚ :=
  if memoryUtilization < filterThreshold then hidden
  else
    match axisValue log2 useLogarithmicAxis memoryUtilization with
    | none => hidden
    | some x => (x, pageFaults * 0.1)

/-- The destinations that `_HandleProcessMessage` sets. -/
def destinations (useLogarithmicAxis : Bool) (stat : StatBase) (msg : ProcessSample) :
    BoidKind → ℚ × ℚ
  | .cpu => sumDestination log2 useLogarithmicAxis stat.userCpuUtilization stat.systemCpuUtilization
  | .memory =>
    memoryDestination log2 useLogarithmicAxis stat.memoryUtilization
      (msg.numPageFaultsPerSec.getD 0)
  | .network =>
    sumDestination log2 useLogarithmicAxis stat.networkOutUtilization stat.networkInUtilization
  | .storage =>
    sumDestination log2 useLogarithmicAxis stat.storageOutUtilization stat.storageInUtilization

end Places

/-- `newScore` -/
def newScore (stat : StatBase) : ℚ :=
  stat.userCpuUtilization + stat.systemCpuUtilization +
    (stat.networkInUtilization + stat.networkOutUtilization) * 1.5 +
    (stat.storageInUtilization + stat.storageOutUtilization) * 1.5 + stat.memoryUtilization * 0.5

/-- What `_HandleProcessMessage` sets in the table item. -/
def updateItem (stat : StatBase) (msg : ProcessSample) (item : ItemTexts) : ItemTexts where
  key := item.key
  procName := msg.processname.getD item.procName
  hostName := msg.hostname.getD item.hostName
  user := msg.user.getD item.user
  startTime := msg.startTime.getD item.startTime
  numThreads := (msg.numThreads.map fun n => toString n.toNat).getD item.numThreads
  pid := (msg.pid.map fun n => toString n.toNat).getD item.pid
  score := newScore stat

/-! ## The handler -/

/-- A boid of a `Proc`. -/
abbrev ProcBoid := ℕ × BoidKind

/-- An entity of `_boidScene`. -/
inductive BoidEntity where
  /-- the `BoidAxis` -/
  | axis
  /-- a boid -/
  | boid (boid : ProcBoid)
  deriving DecidableEq

/-- The handler, and what it changes of the scene and the table. -/
structure Display where
  /-- `_data` -/
  data : Data
  /-- `BoidSharedContext::useLogarithmicAxis` -/
  useLogarithmicAxis : Bool
  /-- `stat` of a `Proc` -/
  stat : ℕ → StatBase
  /-- the destination of a boid, once it is set -/
  destination : ProcBoid → Option (ℚ × ℚ)
  /-- `tableItem` of a `Proc` -/
  item : ℕ → ItemTexts
  /-- `_boidScene` -/
  scene : Scene BoidEntity
  /-- history: the calls of the table -/
  tableCalls : List (TableCall ℕ)

namespace Display

/-- The handler at the start: `_SetupAndPopulateScenes` has put the axis into the scene, and
scrolled it, as it is linear at first. -/
def new : Display where
  data := .new
  useLogarithmicAxis := true
  stat _ := .new
  destination _ := none
  item _ := .new ""
  scene := Scene.new.addEntity .axis
  tableCalls := []

/-- A call that `Data::Update` makes. -/
def visualCall (d : Display) : VisualCall → Display
  | .createBoid proc kind => { d with scene := d.scene.addEntity (.boid (proc, kind)) }
  | .addItem proc processName =>
    { d with item := Function.update d.item proc (.new processName)
             tableCalls := d.tableCalls ++ [.add proc] }
  | .removeBoid proc kind => { d with scene := d.scene.removeEntity (.boid (proc, kind)) }
  | .removeItem proc => { d with tableCalls := d.tableCalls ++ [.remove proc] }

/-- The calls that `Data::Update` makes. -/
def visualCalls (d : Display) (calls : List VisualCall) : Display := calls.foldl visualCall d

/-- `_HandleProcessMessage` from the `Proc` on. -/
def updateProc (log2 : ℚ → Option ℚ) (d : Display) (msg : ProcessSample) (proc : ℕ) : Display :=
  let stat := updateProcessStatistics msg (d.stat proc)
  { d with
    stat := Function.update d.stat proc stat
    destination := fun boid =>
      if boid.1 = proc then some (destinations log2 d.useLogarithmicAxis stat msg boid.2)
      else d.destination boid
    item := Function.update d.item proc (updateItem stat msg (d.item proc)) }

/-- `_HandleProcessMessage` -/
def handleProcessMessage (log2 : ℚ → Option ℚ) (d : Display) (msg : ProcessSample) : Display :=
  let (data, proc, calls) := d.data.update msg.toProcessMessage
  let d := { d with data }.visualCalls calls
  match proc with
  | none => d
  | some proc => d.updateProc log2 msg proc

/-- `Scene::Run` of the scene. Neither boids nor the axis add entities. -/
def frame (d : Display) : Display :=
  let waiting := d.scene.entityListInit.length
  let inits := List.replicate waiting []
  let loops := List.replicate (d.scene.entityList.length + waiting) []
  { d with scene := (d.scene.run inits loops).getD d.scene }

/-- What happens to the handler. -/
inductive Input where
  /-- a message about a process -/
  | message (msg : ProcessSample)
  /-- `ScrollUp` or `ScrollDown` of the axis -/
  | scroll
  /-- a frame -/
  | frame

/-- What an input does. -/
def step (log2 : ℚ → Option ℚ) (d : Display) : Input → Display
  | .message msg => d.handleProcessMessage log2 msg
  | .scroll => { d with useLogarithmicAxis := !d.useLogarithmicAxis }
  | .frame => d.frame

/-- The handler after inputs. -/
def run (log2 : ℚ → Option ℚ) (inputs : List Input) : Display := inputs.foldl (step log2) new

/-- `Handle`: the messages about processes that a message is taken apart into. A message that
cannot be parsed ends the program. -/
def handle (parse : List UInt8 → Option (List ProcessSample)) (hostname : Option String)
    (data : Option (List UInt8)) : Option (List Input) :=
  (parse (data.getD [])).map fun msgs =>
    msgs.map fun msg => .message { msg with hostname := some (hostname.getD "") }

/-! ## What is to be shown -/

/-- What is known of the inputs so far. -/
structure History where
  /-- the axis -/
  axis : Bool
  /-- the messages about a process since it was registered, each with the axis that was used -/
  life : String → List (Bool × ProcessSample)
  /-- there was a frame since it was registered -/
  drawn : String → Bool

namespace History

/-- At the start: nothing is known. -/
def new : History where
  axis := true
  life _ := []
  drawn _ := false

/-- One more input. -/
def remember (h : History) : Input → History
  | .message msg =>
    let key := msg.processId.key
    if msg.isTerminated then { h with life := Function.update h.life key [] }
    else
      { h with
        life := Function.update h.life key (h.life key ++ [(h.axis, msg)])
        drawn :=
          if h.life key = [] then Function.update h.drawn key false else h.drawn }
  | .scroll => { h with axis := !h.axis }
  | .frame => { h with drawn := fun _ => true }

/-- Some inputs. -/
def after (inputs : List Input) : History := inputs.foldl remember new

variable {h : History} {msg : ProcessSample}

theorem axis_message : (h.remember (.message msg)).axis = h.axis := by
  cases hends : msg.isTerminated <;> simp [remember, hends]

theorem life_message : (h.remember (.message msg)).life =
    Function.update h.life msg.processId.key
      (if msg.isTerminated then [] else h.life msg.processId.key ++ [(h.axis, msg)]) := by
  cases hends : msg.isTerminated <;> simp [remember, hends]

end History

/-- The last text that a message had. -/
def lastSet (field : ProcessSample → Option String) (life : List (Bool × ProcessSample)) : String :=
  (life.reverse.findSome? fun p => field p.2).getD ""

/-- What is to be shown of a process, after its newest message and those before. -/
structure ProcessShown (log2 : ℚ → Option ℚ) (earlier : List (Bool × ProcessSample))
    (newest : Bool × ProcessSample) (d : Display) (proc : ℕ) : Prop where
  /-- the numbers are those of the newest message, and the messages are counted -/
  stat : d.stat proc =
    { updateProcessStatistics newest.2 .new with numSamples := UInt32.ofNat (earlier.length + 1) }
  /-- the boids are where it says, on the axis of that time -/
  destination : ∀ kind, d.destination (proc, kind) =
    some (destinations log2 newest.1 (d.stat proc) newest.2 kind)
  /-- the group is that of the first name -/
  key : (d.item proc).key =
    (((earlier ++ [newest]).head?.bind fun p => p.2.processname).getD "")
  /-- each text is the last one -/
  procName : (d.item proc).procName = lastSet (·.processname) (earlier ++ [newest])
  /-- the host's -/
  hostName : (d.item proc).hostName = lastSet (·.hostname) (earlier ++ [newest])
  /-- the owner's -/
  user : (d.item proc).user = lastSet (·.user) (earlier ++ [newest])
  /-- the start time's -/
  startTime : (d.item proc).startTime = lastSet (·.startTime) (earlier ++ [newest])
  /-- the number's of threads -/
  numThreads : (d.item proc).numThreads =
    lastSet (fun msg => msg.numThreads.map fun n => toString n.toNat) (earlier ++ [newest])
  /-- the pid's -/
  pid : (d.item proc).pid =
    lastSet (fun msg => msg.pid.map fun n => toString n.toNat) (earlier ++ [newest])
  /-- the rank is that of the numbers -/
  score : (d.item proc).score = newScore (d.stat proc)

/-- **The display is right**: it shows the processes that had a message and did not end
since, each as its newest message says. -/
structure Shows (log2 : ℚ → Option ℚ) (h : History) (d : Display) : Prop where
  /-- the axis -/
  axis : d.useLogarithmicAxis = h.axis
  /-- which processes are registered -/
  registered : ∀ key, d.data.procMap key = none ↔ h.life key = []
  /-- no two of them have one `Proc` -/
  proper : d.data.roster.Proper
  /-- what is shown of them -/
  process : ∀ key proc, d.data.procMap key = some proc →
    ∃ earlier newest, h.life key = earlier ++ [newest] ∧
      ProcessShown log2 earlier newest d proc
  /-- a `Proc` that is not made yet has no numbers -/
  fresh : ∀ proc, d.data.created ≤ proc → d.stat proc = .new

/-! ## What messages do -/

/-- The boids of a `Proc`. -/
def procBoids (proc : ℕ) : List BoidEntity :=
  [.boid (proc, .cpu), .boid (proc, .memory), .boid (proc, .network), .boid (proc, .storage)]

section Messages

variable {log2 : ℚ → Option ℚ} {d : Display} {msg : ProcessSample} {proc : ℕ}

/-- The key of a process -/
theorem key_toProcessMessage (msg : ProcessSample) :
    createProcKey (msg.toProcessMessage.hostname.getD "")
      (CInt.ofUnsigned (msg.toProcessMessage.pid.getD 0).toNat) = msg.processId.key := rfl

/-- The last message of a process. -/
theorem handleProcessMessage_removed (hends : msg.isTerminated = true)
    (hproc : d.data.procMap msg.processId.key = some proc) :
    d.handleProcessMessage log2 msg =
      { d with
        data := { d.data with procMap := Function.update d.data.procMap msg.processId.key none }
        scene := (procBoids proc).foldl Scene.removeEntity d.scene
        tableCalls := d.tableCalls ++ [.remove proc] } := by
  have hupdate : d.data.update msg.toProcessMessage =
      ({ d.data with procMap := Function.update d.data.procMap msg.processId.key none }, none,
        removeVisual proc) := by
    have hkey := (congrArg d.data.procMap (key_toProcessMessage msg)).trans hproc
    rw [Data.update, if_pos hends]
    dsimp only
    rw [hkey]
    rfl
  rw [handleProcessMessage, hupdate]
  rfl

/-- A last message of a process that is not registered. -/
theorem handleProcessMessage_absent (hends : msg.isTerminated = true)
    (hproc : d.data.procMap msg.processId.key = none) : d.handleProcessMessage log2 msg = d := by
  have hupdate : d.data.update msg.toProcessMessage = (d.data, none, []) := by
    have hkey := (congrArg d.data.procMap (key_toProcessMessage msg)).trans hproc
    rw [Data.update, if_pos hends, hkey]
  rw [handleProcessMessage, hupdate]
  rfl

/-- A process is registered, with a `Proc` that is as it was made. -/
def register (d : Display) (msg : ProcessSample) : Display :=
  { d with
    data :=
      { procMap := Function.update d.data.procMap msg.processId.key (some d.data.created)
        created := d.data.created + 1 }
    scene := d.scene.addEntities (procBoids d.data.created)
    item := Function.update d.item d.data.created (.new msg.name)
    tableCalls := d.tableCalls ++ [.add d.data.created] }

/-- The first message of a process. -/
theorem handleProcessMessage_created (hends : msg.isTerminated = false)
    (hproc : d.data.procMap msg.processId.key = none) :
    d.handleProcessMessage log2 msg =
      (d.register msg).updateProc log2 msg d.data.created := by
  have hupdate : d.data.update msg.toProcessMessage =
      ({ procMap := Function.update d.data.procMap msg.processId.key (some d.data.created)
         created := d.data.created + 1 }, some d.data.created,
        initBoids d.data.created msg.name) := by
    have hkey := (congrArg d.data.procMap (key_toProcessMessage msg)).trans hproc
    rw [Data.update, if_neg (by simp [hends]), hkey]
    rfl
  rw [handleProcessMessage, hupdate]
  rfl

/-- A message about a process that is registered. -/
theorem handleProcessMessage_found (hends : msg.isTerminated = false)
    (hproc : d.data.procMap msg.processId.key = some proc) :
    d.handleProcessMessage log2 msg = d.updateProc log2 msg proc := by
  have hupdate : d.data.update msg.toProcessMessage = (d.data, some proc, []) := by
    have hkey := (congrArg d.data.procMap (key_toProcessMessage msg)).trans hproc
    rw [Data.update, if_neg (by simp [hends]), hkey]
  rw [handleProcessMessage, hupdate]
  rfl

end Messages

/-! ## What is shown -/

@[simp]
theorem lastSet_nil (field : ProcessSample → Option String) : lastSet field [] = "" := rfl

/-- A further message counts if it has the text. -/
@[simp]
theorem lastSet_snoc (field : ProcessSample → Option String) (life : List (Bool × ProcessSample))
    (p : Bool × ProcessSample) :
    lastSet field (life ++ [p]) = (field p.2).getD (lastSet field life) := by
  cases hfield : field p.2 <;> simp [lastSet, hfield]

section Shown

variable {log2 : ℚ → Option ℚ} {d d' : Display} {msg : ProcessSample} {proc : ℕ}
variable {earlier : List (Bool × ProcessSample)} {newest : Bool × ProcessSample}

/-- What is shown of a process depends on its own numbers, boids and item. -/
theorem ProcessShown.congr (h : ProcessShown log2 earlier newest d proc)
    (hstat : d'.stat proc = d.stat proc)
    (hdestination : ∀ kind, d'.destination (proc, kind) = d.destination (proc, kind))
    (hitem : d'.item proc = d.item proc) : ProcessShown log2 earlier newest d' proc where
  stat := by rw [hstat, h.stat]
  destination kind := by rw [hdestination, hstat, h.destination]
  key := by rw [hitem, h.key]
  procName := by rw [hitem, h.procName]
  hostName := by rw [hitem, h.hostName]
  user := by rw [hitem, h.user]
  startTime := by rw [hitem, h.startTime]
  numThreads := by rw [hitem, h.numThreads]
  pid := by rw [hitem, h.pid]
  score := by rw [hitem, hstat, h.score]

/-- **A first message is shown.** -/
theorem processShown_first (hstat : d.stat proc = .new) (hitem : d.item proc = .new msg.name) :
    ProcessShown log2 [] (d.useLogarithmicAxis, msg) (d.updateProc log2 msg proc) proc where
  stat := by
    simp only [updateProc, Function.update_self, hstat]
    rfl
  destination kind := by simp [updateProc]
  key := by simp [updateProc, updateItem, hitem, ItemTexts.new, ProcessMessage.name]
  procName := by simp [updateProc, updateItem, hitem, ItemTexts.new, lastSet]
  hostName := by simp [updateProc, updateItem, hitem, ItemTexts.new, lastSet]
  user := by simp [updateProc, updateItem, hitem, ItemTexts.new, lastSet]
  startTime := by simp [updateProc, updateItem, hitem, ItemTexts.new, lastSet]
  numThreads := by simp [updateProc, updateItem, hitem, ItemTexts.new, lastSet]
  pid := by simp [updateProc, updateItem, hitem, ItemTexts.new, lastSet]
  score := by simp [updateProc, updateItem]

/-- **A further message is shown** in place of the one before. -/
theorem ProcessShown.updateProc (h : ProcessShown log2 earlier newest d proc) :
    ProcessShown log2 (earlier ++ [newest]) (d.useLogarithmicAxis, msg)
      (d.updateProc log2 msg proc) proc where
  stat := by
    have hcount : UInt32.ofNat (earlier.length + 1) + 1 =
        UInt32.ofNat ((earlier ++ [newest]).length + 1) := by
      rw [List.length_append, List.length_singleton, UInt32.ofNat_add (earlier.length + 1) 1]
      rfl
    simp only [Display.updateProc, Function.update_self, updateProcessStatistics, h.stat, hcount]
  destination kind := by simp [Display.updateProc]
  key := by
    have hkey := h.key
    cases earlier <;> simpa [Display.updateProc, updateItem] using hkey
  procName := by
    rw [lastSet_snoc, ← h.procName]
    simp [Display.updateProc, updateItem]
  hostName := by
    rw [lastSet_snoc, ← h.hostName]
    simp [Display.updateProc, updateItem]
  user := by
    rw [lastSet_snoc, ← h.user]
    simp [Display.updateProc, updateItem]
  startTime := by
    rw [lastSet_snoc, ← h.startTime]
    simp [Display.updateProc, updateItem]
  numThreads := by
    rw [lastSet_snoc, ← h.numThreads]
    simp [Display.updateProc, updateItem]
  pid := by
    rw [lastSet_snoc, ← h.pid]
    simp [Display.updateProc, updateItem]
  score := by simp [Display.updateProc, updateItem]

/-- What is shown of another process stays. -/
theorem ProcessShown.updateProc_of_ne (h : ProcessShown log2 earlier newest d proc) {proc' : ℕ}
    (hne : proc ≠ proc') :
    ProcessShown log2 earlier newest (d.updateProc log2 msg proc') proc :=
  h.congr (by simp [Display.updateProc, hne]) (by simp [Display.updateProc, hne])
    (by simp [Display.updateProc, hne])

end Shown

section Steps

variable {log2 : ℚ → Option ℚ} {h : History} {d : Display} {msg : ProcessSample}

theorem shows_new : Shows log2 .new new where
  axis := rfl
  registered _ := ⟨fun _ => rfl, fun _ => rfl⟩
  proper := Roster.proper_empty
  process _ _ heq := by cases heq
  fresh _ _ := rfl

/-- The roster after a message. -/
theorem roster_message (log2 : ℚ → Option ℚ) (d : Display) (msg : ProcessSample) :
    (d.handleProcessMessage log2 msg).data.roster =
      (d.data.roster.request msg.processId.key msg.isTerminated).1 := by
  rw [← (Data.update_eq d.data msg.toProcessMessage).1]
  have hcalls : ∀ (calls : List VisualCall) (d : Display), (d.visualCalls calls).data = d.data := by
    intro calls
    induction calls with
    | nil => exact fun _ => rfl
    | cons call calls ih =>
      intro d
      rw [visualCalls, List.foldl_cons, ← visualCalls, ih]
      cases call <;> rfl
  unfold handleProcessMessage
  obtain ⟨data, proc, calls⟩ := d.data.update msg.toProcessMessage
  cases proc <;> simp [updateProc, hcalls]

/-- **A message keeps the display right.** -/
theorem Shows.message (hshows : Shows log2 h d) (msg : ProcessSample) :
    Shows log2 (h.remember (.message msg)) (d.handleProcessMessage log2 msg) := by
  have hproper : (d.handleProcessMessage log2 msg).data.roster.Proper := by
    rw [roster_message]
    exact hshows.proper.request _ _
  -- the process of another key has another number
  have hother : ∀ {key key' proc proc'}, key ≠ key' → d.data.procMap key = some proc →
      d.data.procMap key' = some proc' → proc ≠ proc' := by
    rintro key key' proc proc' hne hproc hproc' rfl
    exact hne (hshows.proper.inj key key' proc hproc hproc')
  cases hends : msg.isTerminated with
  | true =>
    have hlife : (h.remember (.message msg)).life =
        Function.update h.life msg.processId.key [] := by
      rw [History.life_message, hends, if_pos rfl]
    cases hproc : d.data.procMap msg.processId.key with
    | none =>
      have hsame : (h.remember (.message msg)).life = h.life := by
        rw [hlife, ← (hshows.registered _).mp hproc, Function.update_eq_self]
      rw [handleProcessMessage_absent hends hproc]
      exact ⟨hshows.axis.trans History.axis_message.symm, fun key => hsame ▸ hshows.registered key,
        hshows.proper, fun key proc hkey => hsame ▸ hshows.process key proc hkey, hshows.fresh⟩
    | some proc =>
      rw [handleProcessMessage_removed hends hproc] at hproper ⊢
      refine ⟨hshows.axis.trans History.axis_message.symm, fun key => ?_, hproper,
        fun key proc' hkey => ?_, hshows.fresh⟩
      · by_cases hne : key = msg.processId.key
        · simp [hlife, hne]
        · simp [hlife, hne, hshows.registered key]
      · by_cases hne : key = msg.processId.key
        · simp [hne] at hkey
        · simp only [Function.update_of_ne hne] at hkey
          obtain ⟨earlier, newest, heq, hshown⟩ := hshows.process key proc' hkey
          exact ⟨earlier, newest, by rw [hlife, Function.update_of_ne hne, heq],
            hshown.congr rfl (fun _ => rfl) rfl⟩
  | false =>
    have hlife : (h.remember (.message msg)).life = Function.update h.life msg.processId.key
        (h.life msg.processId.key ++ [(h.axis, msg)]) := by
      rw [History.life_message, hends]
      rfl
    have hregistered : ∀ key, key ≠ msg.processId.key →
        (d.data.procMap key = none ↔ (h.remember (.message msg)).life key = []) := by
      intro key hne
      rw [hlife, Function.update_of_ne hne, hshows.registered]
    cases hproc : d.data.procMap msg.processId.key with
    | none =>
      have hempty := (hshows.registered _).mp hproc
      rw [handleProcessMessage_created hends hproc] at hproper ⊢
      refine ⟨hshows.axis.trans History.axis_message.symm, fun key => ?_, hproper,
        fun key proc' hkey => ?_, fun proc' hle => ?_⟩
      · by_cases hne : key = msg.processId.key
        · simp [updateProc, register, hlife, hne]
        · simpa [updateProc, register, hne] using hregistered key hne
      · by_cases hne : key = msg.processId.key
        · obtain rfl : d.data.created = proc' := by simpa [updateProc, register, hne] using hkey
          refine ⟨[], (h.axis, msg), by rw [hlife, hne, Function.update_self, hempty], ?_⟩
          rw [← hshows.axis]
          exact processShown_first (d := d.register msg) (hshows.fresh _ (Nat.le_refl _))
            (Function.update_self ..)
        · have hkey : d.data.procMap key = some proc' := by
            simpa [updateProc, register, hne] using hkey
          obtain ⟨earlier, newest, heq, hshown⟩ := hshows.process key proc' hkey
          have hlt := hshows.proper.lt key proc' hkey
          refine ⟨earlier, newest, by rw [hlife, Function.update_of_ne hne, heq], ?_⟩
          refine ProcessShown.updateProc_of_ne ?_ (Nat.ne_of_lt hlt)
          exact hshown.congr rfl (fun _ => rfl) (Function.update_of_ne (Nat.ne_of_lt hlt) ..)
      · have hne : proc' ≠ d.data.created := (Nat.ne_of_lt hle).symm
        simp only [updateProc, Function.update_of_ne hne]
        exact hshows.fresh proc' (Nat.le_of_lt hle)
    | some proc =>
      rw [handleProcessMessage_found hends hproc] at hproper ⊢
      refine ⟨hshows.axis.trans History.axis_message.symm, fun key => ?_, hproper,
        fun key proc' hkey => ?_, fun proc' hle => ?_⟩
      · by_cases hne : key = msg.processId.key
        · simp [updateProc, hlife, hne, hproc]
        · exact hregistered key hne
      · by_cases hne : key = msg.processId.key
        · obtain rfl : proc = proc' := Option.some.inj (hproc.symm.trans (hne ▸ hkey))
          obtain ⟨earlier, newest, heq, hshown⟩ := hshows.process key proc hkey
          refine ⟨earlier ++ [newest], (h.axis, msg), ?_, ?_⟩
          · rw [hlife, hne, Function.update_self, ← hne, heq]
          · rw [← hshows.axis]
            exact hshown.updateProc
        · obtain ⟨earlier, newest, heq, hshown⟩ := hshows.process key proc' hkey
          exact ⟨earlier, newest, by rw [hlife, Function.update_of_ne hne, heq],
            hshown.updateProc_of_ne (hother hne hkey hproc)⟩
      · have hlt := hshows.proper.lt _ proc hproc
        have hne : proc' ≠ proc := (Nat.ne_of_lt (Nat.lt_of_lt_of_le hlt hle)).symm
        simp only [updateProc, Function.update_of_ne hne]
        exact hshows.fresh proc' hle

/-- The axis does not matter for what was shown before. -/
theorem Shows.scroll (hshows : Shows log2 h d) :
    Shows log2 (h.remember .scroll) (d.step log2 .scroll) where
  axis := congrArg (!·) hshows.axis
  registered := hshows.registered
  proper := hshows.proper
  process key proc hkey := by
    obtain ⟨earlier, newest, heq, hshown⟩ := hshows.process key proc hkey
    exact ⟨earlier, newest, heq, hshown.congr rfl (fun _ => rfl) rfl⟩
  fresh := hshows.fresh

/-- A frame only draws. -/
theorem Shows.frame (hshows : Shows log2 h d) :
    Shows log2 (h.remember .frame) (d.step log2 .frame) where
  axis := hshows.axis
  registered := hshows.registered
  proper := hshows.proper
  process key proc hkey := by
    obtain ⟨earlier, newest, heq, hshown⟩ := hshows.process key proc hkey
    exact ⟨earlier, newest, heq, hshown.congr rfl (fun _ => rfl) rfl⟩
  fresh := hshows.fresh

theorem Shows.step (hshows : Shows log2 h d) (input : Input) :
    Shows log2 (h.remember input) (d.step log2 input) := by
  cases input with
  | message msg => exact hshows.message msg
  | scroll => exact hshows.scroll
  | frame => exact hshows.frame

end Steps

theorem run_snoc (log2 : ℚ → Option ℚ) (inputs : List Input) (input : Input) :
    run log2 (inputs ++ [input]) = (run log2 inputs).step log2 input := by
  rw [run, List.foldl_append]
  rfl

theorem History.after_snoc (inputs : List Input) (input : Input) :
    History.after (inputs ++ [input]) = (History.after inputs).remember input := by
  rw [History.after, List.foldl_append]
  rfl

/-- The display is right after any inputs. -/
theorem shows_run (log2 : ℚ → Option ℚ) (inputs : List Input) :
    Shows log2 (.after inputs) (run log2 inputs) := by
  induction inputs using List.reverseRecOn with
  | nil => exact shows_new
  | append_singleton inputs input ih =>
    rw [run_snoc, History.after_snoc]
    exact ih.step input

/-- The calls of the table: each `Proc` is added once, and removed when its process ends. -/
structure RowsRight (d : Display) : Prop where
  /-- no call is made twice -/
  nodup : d.tableCalls.Nodup
  /-- items are added with their `Proc` -/
  added : ∀ proc, .add proc ∈ d.tableCalls ↔ proc < d.data.created
  /-- and removed with it -/
  removed : ∀ proc, .remove proc ∈ d.tableCalls ↔
    proc < d.data.created ∧ ∀ key, d.data.procMap key ≠ some proc
  /-- the table is never cleared -/
  kept : .clear ∉ d.tableCalls

theorem rowsRight_new : RowsRight new where
  nodup := List.nodup_nil
  added _ := by simp [new, Data.new]
  removed _ := by simp [new, Data.new]
  kept := List.not_mem_nil

/-- **The numbers that are free** are those whose entry was forgotten. -/
theorem free_request {r : Roster String} (hproper : r.Proper) (key : String) (ends : Bool)
    (proc : ℕ) :
    (proc < (r.request key ends).1.created ∧
        ∀ key', (r.request key ends).1.entry key' ≠ some proc) ↔
      (proc < r.created ∧ ∀ key', r.entry key' ≠ some proc) ∨
        ends = true ∧ r.entry key = some proc := by
  have hself : (r.request key ends).1.entry key =
      if ends then none else some ((r.entry key).getD r.created) := Roster.entry_request_self
  have hother : ∀ key', key' ≠ key → (r.request key ends).1.entry key' = r.entry key' :=
    fun _ => Roster.entry_request_of_ne
  cases ends with
  | true =>
    have hcreated : (r.request key true).1.created = r.created := by
      cases hentry : r.entry key <;> simp [Roster.request, hentry]
    rw [hcreated]
    constructor
    · rintro ⟨hlt, hfree⟩
      by_cases hentry : r.entry key = some proc
      · exact .inr ⟨rfl, hentry⟩
      · refine .inl ⟨hlt, fun key' => ?_⟩
        by_cases hne : key' = key
        · exact hne ▸ hentry
        · exact hother key' hne ▸ hfree key'
    · rintro (⟨hlt, hfree⟩ | ⟨-, hentry⟩)
      · refine ⟨hlt, fun key' => ?_⟩
        by_cases hne : key' = key
        · simp [hne, hself]
        · exact (hother key' hne).symm ▸ hfree key'
      · refine ⟨hproper.lt key proc hentry, fun key' => ?_⟩
        by_cases hne : key' = key
        · simp [hne, hself]
        · rw [hother key' hne]
          exact fun heq => hne (hproper.inj key' key proc heq hentry)
  | false =>
    simp only [Bool.false_eq_true, false_and, or_false]
    rw [if_neg Bool.false_ne_true] at hself
    cases hentry : r.entry key with
    | some proc' => simp [Roster.request, hentry]
    | none =>
      have hcreated : (r.request key false).1.created = r.created + 1 := by
        simp [Roster.request, hentry]
      rw [hentry, Option.getD_none] at hself
      rw [hcreated]
      constructor
      · rintro ⟨hlt, hfree⟩
        have hne : r.created ≠ proc := fun heq => hfree key (heq ▸ hself)
        refine ⟨by omega, fun key' => ?_⟩
        by_cases hkey : key' = key
        · simp [hkey, hentry]
        · exact hother key' hkey ▸ hfree key'
      · rintro ⟨hlt, hfree⟩
        refine ⟨Nat.lt_succ_of_lt hlt, fun key' => ?_⟩
        by_cases hkey : key' = key
        · rw [hkey, hself]
          exact fun heq => (Nat.ne_of_lt hlt).symm (Option.some.inj heq)
        · exact (hother key' hkey).symm ▸ hfree key'

section Rows

variable {d : Display}

/-- Which `Proc`s a message leaves without a process. -/
theorem free_message (log2 : ℚ → Option ℚ) (hproper : d.data.roster.Proper)
    (msg : ProcessSample) (proc : ℕ) :
    (proc < (d.handleProcessMessage log2 msg).data.created ∧
        ∀ key, (d.handleProcessMessage log2 msg).data.procMap key ≠ some proc) ↔
      (proc < d.data.created ∧ ∀ key, d.data.procMap key ≠ some proc) ∨
        msg.isTerminated = true ∧ d.data.procMap msg.processId.key = some proc := by
  have hfree := free_request hproper msg.processId.key msg.isTerminated proc
  rw [← roster_message log2 d msg] at hfree
  exact hfree

/-- **A message keeps the rows right.** -/
theorem RowsRight.message (hrows : RowsRight d) (hproper : d.data.roster.Proper)
    (log2 : ℚ → Option ℚ) (msg : ProcessSample) :
    RowsRight (d.handleProcessMessage log2 msg) := by
  have hfree := free_message log2 hproper msg
  cases hends : msg.isTerminated with
  | true =>
    cases hproc : d.data.procMap msg.processId.key with
    | none => rwa [handleProcessMessage_absent hends hproc]
    | some proc =>
      rw [handleProcessMessage_removed hends hproc] at hfree ⊢
      refine ⟨?_, fun proc' => ?_, fun proc' => ?_, ?_⟩
      · refine List.nodup_append.mpr ⟨hrows.nodup, List.nodup_singleton _, ?_⟩
        rintro call hmem _ hlast rfl
        obtain rfl := List.mem_singleton.mp hlast
        exact ((hrows.removed proc).mp hmem).2 _ hproc
      · simpa using hrows.added proc'
      · rw [hfree, List.mem_append, hrows.removed, hends, hproc]
        simp [eq_comm]
      · simpa using hrows.kept
  | false =>
    cases hproc : d.data.procMap msg.processId.key with
    | none =>
      rw [handleProcessMessage_created hends hproc] at hfree ⊢
      have hcalls : ((d.register msg).updateProc log2 msg d.data.created).tableCalls =
          d.tableCalls ++ [.add d.data.created] := rfl
      refine ⟨?_, fun proc' => ?_, fun proc' => ?_, ?_⟩
      · refine hcalls ▸ List.nodup_append.mpr ⟨hrows.nodup, List.nodup_singleton _, ?_⟩
        rintro call hmem _ hlast rfl
        obtain rfl := List.mem_singleton.mp hlast
        exact Nat.lt_irrefl _ ((hrows.added _).mp hmem)
      · have hadded := hrows.added proc'
        simp only [List.mem_append, hadded, List.mem_singleton, TableCall.add.injEq, updateProc,
          register]
        omega
      · rw [hfree, hends, hcalls, List.mem_append, hrows.removed]
        simp
      · simpa [hcalls] using hrows.kept
    | some proc =>
      rw [handleProcessMessage_found hends hproc]
      exact ⟨hrows.nodup, hrows.added, hrows.removed, hrows.kept⟩

end Rows

theorem rowsRight_run (log2 : ℚ → Option ℚ) (inputs : List Input) :
    RowsRight (run log2 inputs) := by
  induction inputs using List.reverseRecOn with
  | nil => exact rowsRight_new
  | append_singleton inputs input ih =>
    rw [run_snoc]
    cases input with
    | message msg => exact ih.message (shows_run log2 inputs).proper log2 msg
    | scroll => exact ⟨ih.nodup, ih.added, ih.removed, ih.kept⟩
    | frame => exact ⟨ih.nodup, ih.added, ih.removed, ih.kept⟩

/-- **The newest messages are shown**: whatever the handler is given, in whatever order, each
key that had a message and did not end since has a `Proc` of its own, whose numbers,
boids and table item are those of its messages since. The table was told of each `Proc`, and
of the end of those whose processes ended. -/
theorem newest_shown (log2 : ℚ → Option ℚ) (inputs : List Input) :
    Shows log2 (.after inputs) (run log2 inputs) ∧ RowsRight (run log2 inputs) :=
  ⟨shows_run log2 inputs, rowsRight_run log2 inputs⟩

/-! ## What is drawn -/

section Drawn

/-- The first loop of `Run` gets through, if `OnInit` adds nothing. -/
theorem initLoop_replicate {E : Type} (s : Scene E) :
    (s.initLoop (List.replicate s.entityListInit.length [])).isSome := by
  generalize hlength : s.entityListInit.length = n
  induction n generalizing s with
  | zero => simp [Scene.initLoop, List.length_eq_zero_iff.mp hlength]
  | succ n ih =>
    have hne : s.entityListInit ≠ [] := by
      rintro hnil
      simp [hnil] at hlength
    rw [List.replicate_succ, Scene.initLoop, List.getLast?_eq_getLast_of_ne_nil hne]
    refine ih (s.initEntity (s.entityListInit.getLast hne)) ?_
    simp [Scene.initEntity, Scene.call, hlength]

/-- A frame is a `Run` that adds nothing. -/
theorem frame_run (d : Display) :
    d.scene.run (List.replicate d.scene.entityListInit.length [])
      (List.replicate (d.scene.entityList.length + d.scene.entityListInit.length) []) =
        some d.frame.scene := by
  obtain ⟨s, hinit⟩ := Option.isSome_iff_exists.mp (initLoop_replicate d.scene)
  obtain ⟨opened, hopened, hs⟩ := Scene.initLoop_eq_some hinit
  have hlength : (List.replicate (d.scene.entityList.length + d.scene.entityListInit.length)
      ([] : List BoidEntity)).length = s.entityList.length := by
    simp [hs, hopened.length_eq]
  obtain ⟨t, hrun⟩ : ∃ t, d.scene.run (List.replicate d.scene.entityListInit.length [])
      (List.replicate (d.scene.entityList.length + d.scene.entityListInit.length) []) = some t := by
    rw [Scene.run, hinit, Option.bind_some, if_pos hlength]
    exact ⟨_, rfl⟩
  simp only [frame, hrun, Option.getD_some]

theorem flatten_replicate_nil (n : ℕ) : (List.replicate n ([] : List BoidEntity)).flatten = [] := by
  simp

/-- **What a frame does**: it opens the entities that waited, and draws all. -/
theorem frame_scene (d : Display) :
    ∃ opened : List BoidEntity, opened.Perm d.scene.entityListInit ∧
      d.frame.scene = { d.scene with
        entityList := d.scene.entityList ++ opened
        entityListInit := []
        calls := d.scene.calls ++ Scene.runCalls opened (d.scene.entityList ++ opened) } := by
  obtain ⟨opened, hopened, heq⟩ := Scene.run_eq_some (frame_run d)
  refine ⟨opened, by rwa [flatten_replicate_nil, List.append_nil] at hopened, ?_⟩
  simpa only [List.flatten_append, flatten_replicate_nil, List.append_nil] using heq

/-- The boids of a process that ends were drawn before. -/
def EndsDrawn (inputs : List Input) : Prop :=
  ∀ pre msg post, inputs = pre ++ .message msg :: post → msg.isTerminated = true →
    (History.after pre).life msg.processId.key ≠ [] →
    (History.after pre).drawn msg.processId.key = true

/-- The scene has the axis, and the boids of the processes that are registered. -/
structure SceneShows (h : History) (d : Display) : Prop where
  /-- the scene is settled -/
  settled : d.scene.Settled
  /-- no entity is made twice -/
  nodup : d.scene.added.Nodup
  /-- the axis is there -/
  axis : .axis ∈ d.scene.added ∧ .axis ∉ d.scene.removed
  /-- boids are made with their `Proc` -/
  added : ∀ boid, .boid boid ∈ d.scene.added ↔ boid.1 < d.data.created
  /-- and removed with it -/
  removed : ∀ boid, .boid boid ∈ d.scene.removed ↔
    boid.1 < d.data.created ∧ ∀ key, d.data.procMap key ≠ some boid.1
  /-- boids wait for the first frame -/
  waiting : ∀ key proc, d.data.procMap key = some proc → h.drawn key = true →
    ∀ kind, .boid (proc, kind) ∉ d.scene.entityListInit

theorem mem_procBoids {proc : ℕ} {boid : ProcBoid} :
    .boid boid ∈ procBoids proc ↔ boid.1 = proc := by
  obtain ⟨proc', kind⟩ := boid
  cases kind <;> simp [procBoids]

theorem axis_notMem_procBoids (proc : ℕ) : .axis ∉ procBoids proc := by simp [procBoids]

/-- Boids are added. -/
theorem settled_addBoids {s : Scene BoidEntity} (h : s.Settled) {proc : ℕ}
    (hnew : ∀ boid, .boid boid ∈ s.added → boid.1 ≠ proc)
    (hlive : ∀ boid, .boid boid ∈ s.removed → boid.1 ≠ proc) :
    (s.addEntities (procBoids proc)).Settled := by
  have hfresh : ∀ kind, .boid (proc, kind) ∉ s.added := fun kind hmem => hnew _ hmem rfl
  have hkept : ∀ kind, .boid (proc, kind) ∉ s.removed := fun kind hmem => hlive _ hmem rfl
  have hcpu := h.addEntity (hfresh .cpu) (hkept .cpu)
  have hmemory := hcpu.addEntity (e := .boid (proc, .memory))
    (by simp [Scene.addEntity, hfresh]) (hkept .memory)
  have hnetwork := hmemory.addEntity (e := .boid (proc, .network))
    (by simp [Scene.addEntity, hfresh]) (hkept .network)
  exact hnetwork.addEntity (e := .boid (proc, .storage))
    (by simp [Scene.addEntity, hfresh]) (hkept .storage)

/-- Boids are removed that do not wait. -/
theorem settled_removeBoids {s : Scene BoidEntity} (h : s.Settled) {proc : ℕ}
    (hwaiting : ∀ kind, .boid (proc, kind) ∉ s.entityListInit) :
    ((procBoids proc).foldl Scene.removeEntity s).Settled :=
  (((h.removeEntity (hwaiting .cpu)).removeEntity (hwaiting .memory)).removeEntity
    (hwaiting .network)).removeEntity (hwaiting .storage)

/-- What the removals leave. -/
theorem foldl_removeEntity (s : Scene BoidEntity) (boids : List BoidEntity) :
    (boids.foldl Scene.removeEntity s).added = s.added ∧
      (boids.foldl Scene.removeEntity s).removed = s.removed ++ boids ∧
      (boids.foldl Scene.removeEntity s).entityListInit = s.entityListInit := by
  induction boids generalizing s with
  | nil => exact ⟨rfl, (List.append_nil _).symm, rfl⟩
  | cons boid boids ih =>
    obtain ⟨hadded, hremoved, hwaiting⟩ := ih (s.removeEntity boid)
    refine ⟨hadded, ?_, hwaiting⟩
    rw [List.foldl_cons, hremoved]
    simp [Scene.removeEntity]

section SceneSteps

variable {log2 : ℚ → Option ℚ} {h : History} {d : Display} {msg : ProcessSample} {proc : ℕ}

theorem sceneShows_new : SceneShows .new new where
  settled := Scene.settled_new.addEntity List.not_mem_nil List.not_mem_nil
  nodup := List.nodup_singleton _
  axis := ⟨List.mem_singleton_self _, List.not_mem_nil⟩
  added _ := by simp [new, Scene.new, Scene.addEntity, Data.new]
  removed _ := by simp [new, Scene.new, Scene.addEntity, Data.new]
  waiting _ _ hproc := by cases hproc

/-- **The end of a process** whose boids were drawn takes them out of the scene. -/
theorem SceneShows.remove (hscene : SceneShows h d) (hproper : d.data.roster.Proper)
    (hends : msg.isTerminated = true) (hproc : d.data.procMap msg.processId.key = some proc)
    (hdrawn : h.drawn msg.processId.key = true) :
    SceneShows (h.remember (.message msg)) (d.handleProcessMessage log2 msg) := by
  obtain ⟨hadded, hremoved, hwaiting⟩ := foldl_removeEntity d.scene (procBoids proc)
  have hfree := free_message log2 hproper msg
  rw [handleProcessMessage_removed hends hproc] at hfree ⊢
  constructor
  case settled => exact settled_removeBoids hscene.settled (hscene.waiting _ proc hproc hdrawn)
  case nodup => exact hadded ▸ hscene.nodup
  case axis =>
    rw [hadded, hremoved, List.mem_append, not_or]
    exact ⟨hscene.axis.1, hscene.axis.2, axis_notMem_procBoids proc⟩
  case added => exact fun boid => hadded ▸ hscene.added boid
  case removed =>
    intro boid
    rw [hfree, hremoved, List.mem_append, hscene.removed, mem_procBoids, hends, hproc]
    simp [eq_comm]
  case waiting =>
    intro key proc' hkey hkeyDrawn kind
    rw [hwaiting]
    by_cases hne : key = msg.processId.key
    · simp [hne] at hkey
    · simp only [Function.update_of_ne hne] at hkey
      refine hscene.waiting key proc' hkey ?_ kind
      simpa [History.remember, hends] using hkeyDrawn

/-- **The first message of a process** puts its boids into the scene. -/
theorem SceneShows.create (hscene : SceneShows h d) (hproper : d.data.roster.Proper)
    (hends : msg.isTerminated = false) (hproc : d.data.procMap msg.processId.key = none)
    (hlife : h.life msg.processId.key = []) :
    SceneShows (h.remember (.message msg)) (d.handleProcessMessage log2 msg) := by
  have hnew : ∀ boid, .boid boid ∈ d.scene.added → boid.1 ≠ d.data.created := fun boid hmem =>
    Nat.ne_of_lt ((hscene.added boid).mp hmem)
  have hlive : ∀ boid, .boid boid ∈ d.scene.removed → boid.1 ≠ d.data.created := fun boid hmem =>
    Nat.ne_of_lt ((hscene.removed boid).mp hmem).1
  have hfree := free_message log2 hproper msg
  rw [handleProcessMessage_created hends hproc] at hfree ⊢
  constructor
  case settled => exact settled_addBoids hscene.settled hnew hlive
  case nodup =>
    simp only [updateProc, register, Scene.addEntities_eq]
    refine List.nodup_append.mpr ⟨hscene.nodup, by simp [procBoids], ?_⟩
    rintro entity hmem entity' hmem' rfl
    cases entity with
    | axis => exact axis_notMem_procBoids _ hmem'
    | boid boid => exact hnew boid hmem (mem_procBoids.mp hmem')
  case axis =>
    simp only [updateProc, register, Scene.addEntities_eq]
    exact ⟨List.mem_append_left _ hscene.axis.1, hscene.axis.2⟩
  case added =>
    intro boid
    simp only [updateProc, register, Scene.addEntities_eq, List.mem_append, hscene.added,
      mem_procBoids]
    omega
  case removed =>
    intro boid
    rw [hfree, hends]
    simp only [updateProc, register, Scene.addEntities_eq, hscene.removed, Bool.false_eq_true,
      false_and, or_false]
  case waiting =>
    intro key proc' hkey hkeyDrawn kind
    simp only [updateProc, register, Scene.addEntities_eq, List.mem_append, mem_procBoids]
    by_cases hne : key = msg.processId.key
    · simp [History.remember, hends, hlife, hne] at hkeyDrawn
    · simp only [updateProc, register, Function.update_of_ne hne] at hkey
      simp only [History.remember, hends, hlife, if_pos, Bool.false_eq_true, if_false,
        Function.update_of_ne hne] at hkeyDrawn
      rintro (hmem | heq)
      · exact hscene.waiting key proc' hkey hkeyDrawn kind hmem
      · exact Nat.ne_of_lt (hproper.lt key proc' hkey) heq

/-- **A message keeps the scene right**, if it ends no process before that was drawn. -/
theorem SceneShows.message (hscene : SceneShows h d) (hshows : Shows log2 h d)
    (hdrawn : msg.isTerminated = true → h.life msg.processId.key ≠ [] →
      h.drawn msg.processId.key = true) :
    SceneShows (h.remember (.message msg)) (d.handleProcessMessage log2 msg) := by
  cases hends : msg.isTerminated with
  | true =>
    cases hproc : d.data.procMap msg.processId.key with
    | none =>
      rw [handleProcessMessage_absent hends hproc]
      refine ⟨hscene.settled, hscene.nodup, hscene.axis, hscene.added, hscene.removed,
        fun key proc hkey hkeyDrawn => ?_⟩
      refine hscene.waiting key proc hkey ?_
      simpa [History.remember, hends] using hkeyDrawn
    | some proc =>
      refine hscene.remove hshows.proper hends hproc (hdrawn hends fun hlife => ?_)
      rw [(hshows.registered _).mpr hlife] at hproc
      cases hproc
  | false =>
    cases hproc : d.data.procMap msg.processId.key with
    | none =>
      exact hscene.create hshows.proper hends hproc ((hshows.registered _).mp hproc)
    | some proc =>
      have hlife : h.life msg.processId.key ≠ [] := fun hnil => by
        rw [(hshows.registered _).mpr hnil] at hproc
        cases hproc
      rw [handleProcessMessage_found hends hproc]
      refine ⟨hscene.settled, hscene.nodup, hscene.axis, hscene.added, hscene.removed,
        fun key proc hkey hkeyDrawn => ?_⟩
      refine hscene.waiting key proc hkey ?_
      simpa [History.remember, hends, hlife] using hkeyDrawn

/-- **A frame keeps the scene right.** -/
theorem SceneShows.frame (hscene : SceneShows h d) : SceneShows (h.remember .frame) d.frame := by
  obtain ⟨opened, hperm, heq⟩ := frame_scene d
  refine ⟨?_, ?_, ?_, fun boid => ?_, fun boid => ?_, fun key proc hkey _ kind => ?_⟩
  · refine hscene.settled.run (frame_run d) ?_ ?_ <;>
      rw [List.flatten_append, flatten_replicate_nil, flatten_replicate_nil, List.append_nil]
    · rw [List.append_nil]
      exact hscene.nodup
    · exact fun _ hmem => absurd hmem List.not_mem_nil
  · rw [heq]
    exact hscene.nodup
  · rw [heq]
    exact hscene.axis
  · rw [heq]
    exact hscene.added boid
  · rw [heq]
    exact hscene.removed boid
  · rw [heq]
    exact List.not_mem_nil

end SceneSteps

theorem sceneShows_run (log2 : ℚ → Option ℚ) {inputs : List Input} (hdrawn : EndsDrawn inputs) :
    SceneShows (.after inputs) (run log2 inputs) := by
  induction inputs using List.reverseRecOn with
  | nil => exact sceneShows_new
  | append_singleton inputs input ih =>
    have hbefore : EndsDrawn inputs := by
      rintro pre msg post rfl hends hlife
      exact hdrawn pre msg (post ++ [input]) (by simp) hends hlife
    have hscene := ih hbefore
    rw [run_snoc, History.after_snoc]
    cases input with
    | message msg =>
      exact hscene.message (shows_run log2 inputs) (hdrawn inputs msg [] rfl)
    | scroll =>
      exact ⟨hscene.settled, hscene.nodup, hscene.axis, hscene.added, hscene.removed,
        hscene.waiting⟩
    | frame => exact hscene.frame

/-- The calls of a frame. -/
def callsOfFrame (d : Display) : List (EntityCall BoidEntity) := d.scene.callsSince d.frame.scene

/-- A frame moves and draws an entity once. -/
def DrawsOnce (d : Display) (entity : BoidEntity) : Prop :=
  d.callsOfFrame.count (.onLoop entity) = 1 ∧ d.callsOfFrame.count (.onRender entity) = 1

/-- A frame draws the axis, and the boids of the processes that had a message and did not end
since. -/
structure FrameShows (h : History) (d : Display) : Prop where
  /-- each of their boids is moved and drawn -/
  boids : ∀ key, h.life key ≠ [] → ∃ proc, d.data.procMap key = some proc ∧
    ∀ kind, d.DrawsOnce (.boid (proc, kind))
  /-- and the axis -/
  axis : d.DrawsOnce .axis
  /-- and no other entity -/
  only : ∀ call ∈ d.callsOfFrame, call.entity = .axis ∨
    ∃ key proc kind, h.life key ≠ [] ∧ d.data.procMap key = some proc ∧
      call.entity = .boid (proc, kind)

/-- **What a frame draws**, after any inputs in which no process ends before there was a frame
since its first message. -/
theorem drawn_registered (log2 : ℚ → Option ℚ) (inputs : List Input) (hdrawn : EndsDrawn inputs) :
    FrameShows (.after inputs) (run log2 inputs) := by
  have hshows := shows_run log2 inputs
  have hscene := sceneShows_run log2 hdrawn
  have hadds : ∀ n m,
      (List.replicate n ([] : List BoidEntity) ++ List.replicate m []).flatten = [] :=
    fun n m => by simp
  have hlaw := hscene.settled.runLaw (frame_run (run log2 inputs))
    (by rw [hadds, List.append_nil]; exact hscene.nodup)
    (by rw [hadds]; exact fun _ hmem => absurd hmem List.not_mem_nil)
  have hlive : ∀ key, (History.after inputs).life key ≠ [] →
      ∃ proc, (run log2 inputs).data.procMap key = some proc ∧ ∀ kind,
        .boid (proc, kind) ∈ (run log2 inputs).scene.added ∧
          .boid (proc, kind) ∉ (run log2 inputs).scene.removed := by
    intro key hlife
    obtain ⟨proc, hproc⟩ := Option.ne_none_iff_exists'.mp
      fun hnone => hlife ((hshows.registered key).mp hnone)
    refine ⟨proc, hproc, fun kind => ⟨?_, fun hremoved => ?_⟩⟩
    · exact (hscene.added _).mpr (hshows.proper.lt key proc hproc)
    · exact ((hscene.removed _).mp hremoved).2 key hproc
  have honce : ∀ entity, entity ∈ (run log2 inputs).scene.added →
      entity ∉ (run log2 inputs).scene.removed → (run log2 inputs).DrawsOnce entity :=
    fun entity hadded hkept => ⟨hlaw.loop _ hadded hkept, hlaw.render _ hadded hkept⟩
  refine ⟨fun key hlife => ?_, honce _ hscene.axis.1 hscene.axis.2, fun call hcall => ?_⟩
  · obtain ⟨proc, hproc, hboids⟩ := hlive key hlife
    exact ⟨proc, hproc, fun kind => honce _ (hboids kind).1 (hboids kind).2⟩
  · have hmade : call.entity ∈ (run log2 inputs).scene.added := by
      obtain ⟨opened, hperm, heq⟩ := frame_scene (run log2 inputs)
      rw [callsOfFrame, Scene.callsSince, heq, List.drop_left] at hcall
      have hmem : call.entity ∈ (run log2 inputs).scene.entityList ++ opened := by
        rcases Scene.mem_runCalls hcall with ⟨-, hopened⟩ | hmem
        · exact List.mem_append_right _ hopened
        · exact hmem
      refine ((hscene.settled.mem_iff call.entity).mp ?_).1
      exact (List.Perm.append_left _ hperm).mem_iff.mp hmem
    have hkept := hlaw.removed call hcall
    cases hentity : call.entity with
    | axis => exact .inl rfl
    | boid boid =>
      obtain ⟨proc, kind⟩ := boid
      rw [hentity] at hmade hkept
      rw [hscene.removed, not_and] at hkept
      obtain ⟨key, hkey⟩ := not_forall_not.mp (hkept ((hscene.added _).mp hmade))
      refine .inr ⟨key, proc, kind, fun hlife => ?_, hkey, rfl⟩
      rw [(hshows.registered key).mpr hlife] at hkey
      cases hkey

/-- A message about a process that uses nothing. -/
def idleSample (isTerminated : Bool) : ProcessSample where
  toProcessMessage := messageOf "tile-1" 23 isTerminated
  user := none
  startTime := none
  numThreads := none
  userCpuUtilization := none
  systemCpuUtilization := none
  memoryUtilization := none
  networkInBytes := none
  networkOutBytes := none
  storageInBytes := none
  storageOutBytes := none
  numPageFaultsPerSec := none

/-- A process that ends after a frame. -/
theorem drawn_registered_after_frame :
    FrameShows (.after [.message (idleSample false), .frame, .message (idleSample true)])
      (run (fun _ => none) [.message (idleSample false), .frame, .message (idleSample true)]) := by
  refine drawn_registered _ _ fun pre msg post heq hends _ => ?_
  rcases pre with _ | ⟨first, _ | ⟨second, _ | ⟨third, pre⟩⟩⟩
  · obtain ⟨hmsg, -⟩ := List.cons.inj heq
    rw [← Input.message.inj hmsg] at hends
    cases hends
  · cases (List.cons.inj (List.cons.inj heq).2).1
  · obtain ⟨rfl, hrest⟩ := List.cons.inj heq
    obtain ⟨rfl, -⟩ := List.cons.inj hrest
    rfl
  · have hlength := congrArg List.length heq
    simp at hlength

end Drawn

end Display

end WallMon
