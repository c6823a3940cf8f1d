import Mathlib.Data.List.TakeWhile
import WallMon.DataRouter
import WallMon.DispatcherMessage

/-!
# The dispatcher program and the dispatchers it talks to

The script of the dispatcher multicasts one datagram after another to servers and to daemons, and
each has a `MonitorDispatcher` that parses and handles it. Datagrams may get lost, come again and
come in any order; the script may be run any number of times, in any way.

Only its command `init` sends anything: the files of a directory, one by one, up to the first whose
name is not ASCII (`main_sent`). What a dispatcher has loaded is then in that directory, is never
unloaded by it, and is listed under its path with the monitor that was loaded last (`dispatched`).
-/

namespace WallMon

namespace Dispatching

open WireFormat

/-- A `str` of ASCII characters -/
def str (literal : String) : List UInt8 :=
  literal.toList.map fun c => UInt8.ofNat c.toNat

/-- `MONITORS_PATH` -/
def monitorsPath : List UInt8 := str "/home/arild/WallMon/modules/bin/"

/-- `os.path.join` -/
def join (d f : List UInt8) : List UInt8 :=
  if str "/" <+: f then f
  else if d = [] ∨ str "/" <:+ d then d ++ f
  else d ++ str "/" ++ f

/-- `listdir_fullpath`, of the names in the directory -/
def listdirFullpath (listdir : List (List UInt8)) : List (List UInt8) :=
  listdir.map (join monitorsPath)

/-- A datagram that is multicast -/
structure Sent where
  /-- to which port -/
  port : ℕ
  /-- its bytes -/
  msg : List UInt8

/-- `multicast_monitor_message` -/
def multicastMonitorMessage (msg : List UInt8) : List Sent :=
  [⟨serverMulticastListenPort, msg⟩, ⟨daemonMulticastListenPort, msg⟩]

/-- What a run of the script does -/
structure Outcome where
  /-- what it sends -/
  sent : List Sent
  /-- what it ends with -/
  raised : Option PythonError

/-- The loop of `init` -/
def initPaths (msg : MonitorDispatcherMessage) : List (List UInt8) → Outcome
  | [] => ⟨[], none⟩
  | path :: paths =>
    match msg.setFilePath (.str path) with
    | .error e => ⟨[], some e⟩
    | .ok msg =>
      match msg.serializeToString with
      | .error e => ⟨[], some e⟩
      | .ok serialized =>
        let rest := initPaths msg paths
        ⟨multicastMonitorMessage serialized ++ rest.sent, rest.raised⟩

/-- The loop of `stop`: nothing is sent. -/
def stopPaths (msg : MonitorDispatcherMessage) : List (List UInt8) → Outcome
  | [] => ⟨[], none⟩
  | path :: paths =>
    match msg.setFilePath (.str path) with
    | .error e => ⟨[], some e⟩
    | .ok msg => stopPaths msg paths

/-- A command of paths: the type is set, and the directory listed. -/
def pathsCommand (type : ℤ) (loop : MonitorDispatcherMessage → List (List UInt8) → Outcome)
    (listdir : Except PythonError (List (List UInt8))) : Outcome :=
  match MonitorDispatcherMessage.new.setType type with
  | .error e => ⟨[], some e⟩
  | .ok msg =>
    match listdir with
    | .error e => ⟨[], some e⟩
    | .ok names => loop msg (listdirFullpath names)

/-- The script, of its arguments and what listing the directory results in -/
def main (argv : List (List UInt8)) (listdir : Except PythonError (List (List UInt8))) : Outcome :=
  if argv.length = 0 then pathsCommand MonitorDispatcherMessage.init initPaths listdir
  else
    match argv[1]? with
    | none => ⟨[], some .indexError⟩
    | some command =>
      if str "init" <+: command then
        pathsCommand MonitorDispatcherMessage.init initPaths listdir
      else if str "stop" <+: command then
        pathsCommand MonitorDispatcherMessage.stop stopPaths listdir
      -- the message of `event` is not sent
      else ⟨[], none⟩

/-! ## What is sent -/

/-- The message that is sent for a path -/
def initMessage (path : List UInt8) : MonitorDispatcherMessage where
  type := some MonitorDispatcherMessage.init
  filePath := some (ofAscii path)
  eventData := none

/-- The datagrams that are sent for a path -/
def initDatagrams (path : List UInt8) : List Sent :=
  multicastMonitorMessage (initMessage path).serializePartialToString

/-- The message becomes that of the path. -/
theorem setFilePath_str {msg : MonitorDispatcherMessage}
    (htype : msg.type = some MonitorDispatcherMessage.init) (heventData : msg.eventData = none)
    {path : List UInt8} (hascii : isAscii path) :
    msg.setFilePath (.str path) = .ok (initMessage path) := by
  obtain ⟨type, filePath, eventData⟩ := msg
  obtain rfl : type = _ := htype
  obtain rfl : eventData = _ := heventData
  rw [MonitorDispatcherMessage.setFilePath, Text.checkValue, if_pos hascii]
  rfl

/-- The loop of `init` sends up to the first path that is not ASCII. -/
theorem initPaths_sent {msg : MonitorDispatcherMessage}
    (htype : msg.type = some MonitorDispatcherMessage.init) (heventData : msg.eventData = none)
    (paths : List (List UInt8)) :
    (initPaths msg paths).sent =
      (paths.takeWhile isAscii).flatMap initDatagrams := by
  induction paths generalizing msg with
  | nil => rfl
  | cons path paths ih =>
    by_cases hascii : isAscii path
    · have hserialize : (initMessage path).serializeToString =
          .ok (initMessage path).serializePartialToString := if_neg (Option.some_ne_none _)
      rw [initPaths, setFilePath_str htype heventData hascii]
      dsimp only
      rw [hserialize, List.takeWhile_cons_of_pos hascii, List.flatMap_cons]
      dsimp only
      rw [ih rfl rfl]
      rfl
    · have hset : msg.setFilePath (.str path) = .error .valueError := by
        rw [MonitorDispatcherMessage.setFilePath, Text.checkValue, if_neg hascii]
        rfl
      rw [initPaths, hset, List.takeWhile_cons_of_neg hascii, List.flatMap_nil]

theorem stopPaths_sent (msg : MonitorDispatcherMessage) (paths : List (List UInt8)) :
    (stopPaths msg paths).sent = [] := by
  induction paths generalizing msg with
  | nil => rfl
  | cons path paths ih =>
    rw [stopPaths]
    split
    · rfl
    · exact ih _

/-- `stop` sends nothing. -/
theorem pathsCommand_stop_sent (listdir : Except PythonError (List (List UInt8))) :
    (pathsCommand MonitorDispatcherMessage.stop stopPaths listdir).sent = [] := by
  rw [pathsCommand]
  split
  · rfl
  split
  · rfl
  · exact stopPaths_sent _ _

/-- `init` sends the paths in the directory. -/
theorem pathsCommand_init_sent (listdir : Except PythonError (List (List UInt8))) :
    (pathsCommand MonitorDispatcherMessage.init initPaths listdir).sent = [] ∨
    ∃ names, listdir = .ok names ∧
      (pathsCommand MonitorDispatcherMessage.init initPaths listdir).sent =
        ((listdirFullpath names).takeWhile isAscii).flatMap initDatagrams := by
  cases listdir with
  | error e => exact .inl rfl
  | ok names => exact .inr ⟨names, rfl, initPaths_sent rfl rfl _⟩

/-- **Only `init` sends anything.** -/
theorem main_sent (argv : List (List UInt8))
    (listdir : Except PythonError (List (List UInt8))) :
    (main argv listdir).sent = [] ∨ ∃ names, listdir = .ok names ∧ (main argv listdir).sent =
      ((listdirFullpath names).takeWhile isAscii).flatMap initDatagrams := by
  rw [main]
  split
  · exact pathsCommand_init_sent listdir
  split
  · exact .inl rfl
  split
  · exact pathsCommand_init_sent listdir
  split
  · exact .inl (pathsCommand_stop_sent listdir)
  · exact .inl rfl

/-- `init` sends all paths that it meets. -/
theorem main_init_sent (script : List UInt8) {command : List UInt8} (args : List (List UInt8))
    (names : List (List UInt8)) (hcommand : str "init" <+: command) :
    (main (script :: command :: args) (.ok names)).sent =
      ((listdirFullpath names).takeWhile isAscii).flatMap initDatagrams := by
  have hlength : (script :: command :: args).length ≠ 0 := Nat.succ_ne_zero _
  rw [main, if_neg hlength, List.getElem?_cons_succ, List.getElem?_cons_zero]
  dsimp only
  rw [if_pos hcommand]
  exact initPaths_sent rfl rfl _

/-- What is sent is the message of a path in the directory. -/
theorem mem_main_sent {argv : List (List UInt8)} {names : List (List UInt8)} {sent : Sent}
    (h : sent ∈ (main argv (.ok names)).sent) :
    ∃ name ∈ names, isAscii (join monitorsPath name) ∧
      sent.msg = (initMessage (join monitorsPath name)).serializePartialToString := by
  obtain hnone | ⟨names', heq, hsent⟩ := main_sent argv (.ok names)
  · rw [hnone] at h
    cases h
  · obtain rfl := Except.ok.inj heq
    rw [hsent] at h
    obtain ⟨path, hpath, hmsg⟩ := List.mem_flatMap.mp h
    obtain ⟨name, hname, rfl⟩ := List.mem_map.mp ((List.takeWhile_prefix _).mem hpath)
    refine ⟨name, hname, List.mem_takeWhile_imp hpath, ?_⟩
    obtain rfl | hmsg := List.mem_cons.mp hmsg
    · rfl
    · obtain rfl := List.mem_singleton.mp hmsg
      rfl

/-! ## What is received -/

/-- A name that a directory can list -/
structure FileName (name : List UInt8) : Prop where
  /-- no more than `NAME_MAX` bytes -/
  length_le : name.length ≤ 255
  /-- it is no path -/
  not_slash : 47 ∉ name

/-- A file in the directory -/
theorem FileName.join_eq {name : List UInt8} (h : FileName name) :
    join monitorsPath name = monitorsPath ++ name := by
  have hslash : ¬str "/" <+: name := fun hpre => h.not_slash (hpre.mem (by decide))
  rw [join, if_neg hslash, if_pos (by decide)]

/-- A `std::string` of these bytes -/
def stdString (bytes : List UInt8) : String :=
  String.ofList (bytes.map fun b => Char.ofNat b.toNat)

theorem stdString_append (bytes bytes' : List UInt8) :
    stdString (bytes ++ bytes') = stdString bytes ++ stdString bytes' := by
  rw [stdString, List.map_append, String.ofList_append]
  rfl

/-- The directory -/
theorem stdString_monitorsPath : stdString monitorsPath = "/home/arild/WallMon/modules/bin/" := by
  decide

/-- `RECV_BUFFER_SIZE` -/
def recvBufferSize : ℕ := 1024 * 10

theorem encodeVarint_length_le (value : ℕ) : (encodeVarint value).length ≤ value + 1 := by
  induction value using encodeVarint.induct with
  | case1 value hlt =>
    rw [encodeVarint, if_pos hlt, List.length_singleton]
    omega
  | case2 value hge ih =>
    rw [encodeVarint, if_neg hge, List.length_cons]
    omega

/-- The message of a file fits in the buffer. -/
theorem FileName.serialized_length_le {name : List UInt8} (h : FileName name)
    (hascii : isAscii (join monitorsPath name)) :
    (initMessage (join monitorsPath name)).serializePartialToString.length ≤ recvBufferSize := by
  have hpath : (ofAscii (join monitorsPath name)).encode.length ≤ 32 + 255 := by
    rw [encode_ofAscii hascii, h.join_eq, List.length_append]
    exact Nat.add_le_add (by decide) h.length_le
  have htypeTag := encodeVarint_length_le (3 * 8 + WireType.varint.toNat)
  have htype := encodeVarint_length_le 0
  have hpathTag := encodeVarint_length_le (4 * 8 + WireType.lengthDelimited.toNat)
  have hsize := encodeVarint_length_le (ofAscii (join monitorsPath name)).encode.length
  have hserialized : (initMessage (join monitorsPath name)).serializePartialToString =
      tagBytes 3 .varint ++ encodeVarint 0 ++ (tagBytes 4 .lengthDelimited ++
        encodeVarint (ofAscii (join monitorsPath name)).encode.length ++
        (ofAscii (join monitorsPath name)).encode) :=
    List.append_nil _
  rw [hserialized, List.length_append, List.length_append, List.length_append, List.length_append,
    tagBytes, tagBytes, recvBufferSize]
  simp only [WireType.toNat] at *
  omega

variable (parseFromArray : List UInt8 → Option MonitorDispatcherMessage)

/-- `ParseFromArray` reads what Python serializes, unless it writes other characters. -/
def Reads : Prop :=
  ∀ m : MonitorDispatcherMessage, m.WellFormed → m.joined = m →
    m.type = some MonitorDispatcherMessage.init ∨ m.type = some MonitorDispatcherMessage.stop ∨
      m.type = some MonitorDispatcherMessage.event →
    parseFromArray m.serializePartialToString = some m

/-- What a dispatcher makes of bytes that it receives, with where they come from and what handling
them meets. The message classes of C++ are given from outside. -/
def received (bytes : List UInt8) (sourceAddress : String) (outcome : LoadOutcome)
    (onStopThrows : Bool) : Datagram :=
  match parseFromArray (bytes.take recvBufferSize) with
  | none => .unparseable
  | some msg =>
    if msg.type = some MonitorDispatcherMessage.init then
      .init (stdString ((msg.filePath.map Unicode.encode).getD [])) sourceAddress outcome
    else if msg.type = some MonitorDispatcherMessage.stop then
      .stop (stdString ((msg.filePath.map Unicode.encode).getD [])) onStopThrows
    -- an `EVENT` is logged, and other types are not handled
    else .event

/-- A datagram that a run of the script sends to a port, of files in the directory -/
def FromScript (port : ℕ) (datagram : Datagram) : Prop :=
  ∃ (argv names : List (List UInt8)) (sent : Sent) (sourceAddress : String)
    (outcome : LoadOutcome) (onStopThrows : Bool),
    (∀ name ∈ names, FileName name) ∧ sent ∈ (main argv (.ok names)).sent ∧ sent.port = port ∧
    datagram = received parseFromArray sent.msg sourceAddress outcome onStopThrows

variable {parseFromArray}

/-- The message of a path can be serialized. -/
theorem initMessage_wellFormed {path : List UInt8} (hascii : isAscii path)
    (hlength : path.length < 2 ^ 64) : (initMessage path).WellFormed where
  type value h := by
    obtain rfl := Option.some.inj h
    decide
  filePath value h := by
    obtain rfl := Option.some.inj h
    rwa [encode_ofAscii hascii]
  eventData value h := by cases h

theorem initMessage_joined {path : List UInt8} (hascii : isAscii path) :
    (initMessage path).joined = initMessage path := by
  refine (MonitorDispatcherMessage.joined_eq_self_iff _).mpr fun value h => ?_
  obtain rfl := Option.some.inj h
  exact joined_ofAscii hascii

/-- The message of a file is received as an `INIT`. -/
theorem received_initMessage
    (hreads : Reads parseFromArray)
    {name : List UInt8} (hfile : FileName name) (hascii : isAscii (join monitorsPath name))
    (sourceAddress : String) (outcome : LoadOutcome) (onStopThrows : Bool) :
    received parseFromArray (initMessage (join monitorsPath name)).serializePartialToString
        sourceAddress outcome onStopThrows =
      .init ("/home/arild/WallMon/modules/bin/" ++ stdString name) sourceAddress outcome := by
  have hlength : (join monitorsPath name).length < 2 ^ 64 := by
    have hle := hfile.length_le
    have hdirectory : monitorsPath.length = 32 := by decide
    rw [hfile.join_eq, List.length_append]
    omega
  rw [received, List.take_of_length_le (hfile.serialized_length_le hascii),
    hreads _ (initMessage_wellFormed hascii hlength) (initMessage_joined hascii) (.inl rfl),
    ← stdString_monitorsPath, ← stdString_append, ← hfile.join_eq]
  show Datagram.init (stdString (ofAscii _).encode) _ _ = _
  rw [encode_ofAscii hascii]

/-- What the script sends is an `INIT` of a file in the directory. -/
theorem FromScript.exists_init
    (hreads : Reads parseFromArray)
    {port : ℕ} {datagram : Datagram} (h : FromScript parseFromArray port datagram) :
    ∃ (name : List UInt8) (sourceAddress : String) (outcome : LoadOutcome),
      FileName name ∧ isAscii name ∧
      datagram = .init ("/home/arild/WallMon/modules/bin/" ++ stdString name) sourceAddress
        outcome := by
  obtain ⟨argv, names, sent, sourceAddress, outcome, onStopThrows, hnames, hsent, -, rfl⟩ := h
  obtain ⟨name, hname, hascii, hmsg⟩ := mem_main_sent hsent
  have hfile := hnames name hname
  have hname : isAscii name := by
    rw [hfile.join_eq, isAscii, List.all_append, Bool.and_eq_true] at hascii
    exact hascii.2
  refine ⟨name, sourceAddress, outcome, hfile, hname, ?_⟩
  rw [hmsg, received_initMessage hreads hfile hascii]

/-! ## What is loaded -/

/-- The last index of a path -/
def LastAt (paths : List String) (path : String) (k : ℕ) : Prop :=
  paths[k]? = some path ∧ ∀ j, k < j → paths[j]? ≠ some path

/-- One more path -/
theorem lastAt_append_singleton {paths : List String} {last path : String} {k : ℕ} :
    LastAt (paths ++ [last]) path k ↔
      if path = last then k = paths.length else LastAt paths path k := by
  split
  · rename_i heq
    subst heq
    constructor
    · rintro ⟨hk, hlast⟩
      have hlt : k < paths.length + 1 := by
        have hlt := (List.getElem?_eq_some_iff.mp hk).1
        rwa [List.length_append, List.length_singleton] at hlt
      by_contra hne
      exact hlast paths.length (by omega) List.getElem?_concat_length
    · rintro rfl
      refine ⟨List.getElem?_concat_length, fun j hj => ?_⟩
      rw [List.getElem?_eq_none (by rw [List.length_append, List.length_singleton]; omega)]
      exact (Option.some_ne_none path).symm
  · rename_i hne
    -- the path that was added is another one
    have hindex (j : ℕ) : (paths ++ [last])[j]? = some path ↔ paths[j]? = some path := by
      rcases lt_trichotomy j paths.length with hlt | rfl | hgt
      · rw [List.getElem?_append_left hlt]
      · rw [List.getElem?_concat_length, List.getElem?_eq_none le_rfl]
        exact ⟨fun heq => absurd (Option.some.inj heq).symm hne, fun heq => by cases heq⟩
      · rw [List.getElem?_eq_none (by rw [List.length_append, List.length_singleton]; omega),
          List.getElem?_eq_none (by omega)]
    simp only [LastAt, ne_eq, hindex]

variable {σ ε : Type}

/-- The path of a monitor that is made -/
def loadedPath : Dispatcher.Event ε → Option String
  | .datagram (.init filePath _ (.created _ _ _)) => some filePath
  | _ => none

/-- The paths of the monitors that were made, one after another -/
def loaded (events : List (Dispatcher.Event ε)) : List String :=
  events.filterMap loadedPath

theorem loaded_append_none (events : List (Dispatcher.Event ε)) {event : Dispatcher.Event ε}
    (h : loadedPath event = none) : loaded (events ++ [event]) = loaded events := by
  rw [loaded, List.filterMap_append, List.filterMap_cons_none h, List.filterMap_nil,
    List.append_nil]
  rfl

theorem loaded_append_some (events : List (Dispatcher.Event ε)) {event : Dispatcher.Event ε}
    {path : String} (h : loadedPath event = some path) :
    loaded (events ++ [event]) = loaded events ++ [path] := by
  rw [loaded, List.filterMap_append, List.filterMap_cons_some h, List.filterMap_nil]
  rfl

/-- What is known of a dispatcher when only the script sends it datagrams -/
structure Loaded (events : List (Dispatcher.Event ε)) (d : Dispatcher σ) : Prop where
  /-- it goes on -/
  listening : d.listening = true
  /-- it has loaded files in the directory -/
  directory (path : String) : path ∈ loaded events →
    ∃ name, FileName name ∧ isAscii name ∧
      path = "/home/arild/WallMon/modules/bin/" ++ stdString name
  /-- every monitor that was made is counted -/
  created : d.created = (loaded events).length
  /-- a path is listed with the last monitor that was made of it -/
  monitors (path : String) (k : ℕ) :
    d.monitors.lookup path = some k ↔ LastAt (loaded events) path k

variable {M : MonitorManager σ ε}

/-- At first nothing is loaded. -/
theorem Loaded.initial : Loaded ([] : List (Dispatcher.Event ε)) (Dispatcher.initial M) where
  listening := rfl
  directory path h := by cases h
  created := rfl
  monitors path k := by
    constructor
    · intro h
      cases (AList.lookup_empty path).symm.trans h
    · rintro ⟨h, -⟩
      cases h

/-- What loads nothing. -/
theorem Loaded.of_none {events : List (Dispatcher.Event ε)} {event : Dispatcher.Event ε}
    {d d' : Dispatcher σ} (h : Loaded events d) (hevent : loadedPath event = none)
    (hlistening : d'.listening = d.listening) (hcreated : d'.created = d.created)
    (hmonitors : d'.monitors = d.monitors) : Loaded (events ++ [event]) d' where
  listening := hlistening.trans h.listening
  directory := by
    rw [loaded_append_none events hevent]
    exact h.directory
  created := by
    rw [loaded_append_none events hevent, hcreated]
    exact h.created
  monitors := by
    rw [loaded_append_none events hevent, hmonitors]
    exact h.monitors

/-- A file is loaded. -/
theorem Loaded.withMonitor {events : List (Dispatcher.Event ε)} {d : Dispatcher σ}
    (h : Loaded events d) {name : List UInt8} (hfile : FileName name) (hascii : isAscii name)
    (sourceAddress : String) (type : MonitorType) (ctx ctx' : Context) (onInitThrows : Bool) :
    Loaded (events ++ [.datagram (.init ("/home/arild/WallMon/modules/bin/" ++ stdString name)
      sourceAddress (.created type ctx onInitThrows))])
      (d.withMonitor M ("/home/arild/WallMon/modules/bin/" ++ stdString name) type ctx') where
  listening := h.listening
  directory path hpath := by
    rw [loaded_append_some events rfl] at hpath
    obtain hpath | hpath := List.mem_append.mp hpath
    · exact h.directory path hpath
    · exact ⟨name, hfile, hascii, List.mem_singleton.mp hpath⟩
  created := by
    rw [loaded_append_some events rfl, List.length_append, List.length_singleton, ← h.created]
    rfl
  monitors path k := by
    rw [loaded_append_some events rfl, lastAt_append_singleton]
    split
    · rename_i heq
      subst heq
      rw [Dispatcher.withMonitor, AList.lookup_insert, Option.some_inj, ← h.created]
      exact eq_comm
    · rename_i hne
      rw [Dispatcher.withMonitor, AList.lookup_insert_ne hne]
      exact h.monitors path k

/-- A datagram, or a round of the manager's thread. -/
theorem Loaded.step {events : List (Dispatcher.Event ε)} {event : Dispatcher.Event ε}
    {d d' : Dispatcher σ} (h : Loaded events d) (hstep : Dispatcher.Step M d event d')
    (hinit : ∀ datagram, event = .datagram datagram →
      ∃ (name : List UInt8) (sourceAddress : String) (outcome : LoadOutcome),
        FileName name ∧ isAscii name ∧
        datagram = .init ("/home/arild/WallMon/modules/bin/" ++ stdString name) sourceAddress
          outcome) :
    Loaded (events ++ [event]) d' := by
  cases hstep with
  | datagram hlistening hlisten =>
    obtain ⟨name, sourceAddress, outcome, hfile, hascii, rfl⟩ := hinit _ rfl
    cases outcome with
    | noFunction => cases hlisten
    | createThrows =>
      cases hlisten
      exact h.of_none rfl rfl rfl rfl
    | createsNull => cases hlisten
    | created type ctx onInitThrows =>
      cases hlisten
      exact h.withMonitor hfile hascii sourceAddress type ctx _ onInitThrows
  | round hround => exact h.of_none rfl rfl rfl rfl

/-- A datagram of the script is handled exactly if loading its file makes a monitor or throws. -/
theorem exists_step_iff (d : Dispatcher σ) (hlistening : d.listening = true)
    (filePath sourceAddress : String) (outcome : LoadOutcome) :
    (∃ d', Dispatcher.Step M d (.datagram (.init filePath sourceAddress outcome)) d') ↔
      outcome ≠ .noFunction ∧ outcome ≠ .createsNull := by
  cases outcome with
  | noFunction =>
    refine iff_of_false ?_ fun h => h.1 rfl
    rintro ⟨d', hstep⟩
    cases hstep with
    | datagram _ hlisten => cases hlisten
  | createThrows =>
    refine iff_of_true ⟨d, .datagram hlistening rfl⟩ ⟨?_, ?_⟩
    · intro h
      cases h
    · intro h
      cases h
  | createsNull =>
    refine iff_of_false ?_ fun h => h.2 rfl
    rintro ⟨d', hstep⟩
    cases hstep with
    | datagram _ hlisten => cases hlisten
  | created type ctx onInitThrows =>
    refine iff_of_true ⟨_, .datagram hlistening rfl⟩ ⟨?_, ?_⟩
    · intro h
      cases h
    · intro h
      cases h

/-- **What is dispatched is loaded, and stays**: a dispatcher that only the script sends datagrams
to, any of them in any order, goes on listening. It has loaded files in the directory of the
script, one for each that was delivered and could be loaded; it lists each path with the monitor
that was made of it last, and removes none. What ends the process is a file that cannot be opened,
that has no `create` function, or whose function makes nothing. -/
theorem dispatched {parseFromArray : List UInt8 → Option MonitorDispatcherMessage}
    (hreads : Reads parseFromArray)
    {events : List (Dispatcher.Event ε)} {d : Dispatcher σ}
    (hrun : (Dispatcher.system M).Run (Dispatcher.initial M) events d)
    (hscript : ∀ datagram, Dispatcher.Event.datagram datagram ∈ events →
      FromScript parseFromArray M.multicastListenPort datagram) :
    Loaded events d ∧ ∀ datagram, FromScript parseFromArray M.multicastListenPort datagram →
      ∃ filePath sourceAddress outcome, datagram = .init filePath sourceAddress outcome ∧
        ((∃ d', Dispatcher.Step M d (.datagram datagram) d') ↔
          outcome ≠ .noFunction ∧ outcome ≠ .createsNull) := by
  have hloaded : Loaded events d := by
    induction hrun with
    | nil => exact .initial
    | snoc _ hstep ih =>
      refine (ih fun datagram h => hscript datagram (List.mem_append_left _ h)).step hstep ?_
      rintro datagram rfl
      exact (hscript datagram (List.mem_append_right _ (List.mem_singleton_self _))).exists_init
        hreads
  refine ⟨hloaded, fun datagram hdatagram => ?_⟩
  obtain ⟨name, sourceAddress, outcome, -, -, rfl⟩ := hdatagram.exists_init hreads
  exact ⟨_, sourceAddress, outcome, rfl, exists_step_iff d hloaded.listening _ _ _⟩

/-- A reader that reads what Python does, and checks the type -/
def checkedParse (bytes : List UInt8) : Option MonitorDispatcherMessage :=
  match MonitorDispatcherMessage.new.mergeFromString 900 bytes with
  | .error _ => none
  | .ok msg =>
    if msg.type = some MonitorDispatcherMessage.init ∨
        msg.type = some MonitorDispatcherMessage.stop ∨
        msg.type = some MonitorDispatcherMessage.event then some msg
    else none

theorem reads_checkedParse : Reads checkedParse := by
  intro m hm hjoined htype
  rw [checkedParse, hm.mergeFromString_serialized, MonitorDispatcherMessage.new_mergeFrom, hjoined]
  exact if_pos htype

theorem dispatched_one_file :
    @Loaded DataRouter RoutedMessage
      [.datagram (.init ("/home/arild/WallMon/modules/bin/" ++ stdString (str "CPU.so")) "host"
        (.created .plain ⟨"CPU", [], 1000, false⟩ false))]
      ((Dispatcher.initial DataRouter.manager).withMonitor DataRouter.manager
        ("/home/arild/WallMon/modules/bin/" ++ stdString (str "CPU.so")) .plain
        ⟨"CPU", [], 1000, false⟩) := by
  have hfile : FileName (str "CPU.so") := ⟨by decide, by decide⟩
  refine (dispatched reads_checkedParse
    (.snoc .nil (Dispatcher.init_step _ _ _ _ _ _ rfl)) fun datagram hdatagram => ?_).1
  obtain rfl := Dispatcher.Event.datagram.inj (List.mem_singleton.mp hdatagram)
  refine ⟨[str "main.py", str "init"], [str "CPU.so"], ⟨serverMulticastListenPort,
    (initMessage (join monitorsPath (str "CPU.so"))).serializePartialToString⟩, _, _, false,
    ?_, ?_, rfl, (received_initMessage reads_checkedParse hfile (by decide) _ _ _).symm⟩
  · intro name hname
    obtain rfl := List.mem_singleton.mp hname
    exact hfile
  · rw [main_init_sent _ _ _ (List.prefix_refl _)]
    have hascii : [join monitorsPath (str "CPU.so")].takeWhile isAscii =
        [join monitorsPath (str "CPU.so")] := by decide
    refine List.mem_flatMap.mpr ⟨join monitorsPath (str "CPU.so"), ?_, List.mem_cons_self⟩
    rw [listdirFullpath, List.map_singleton, hascii]
    exact List.mem_singleton_self _

end Dispatching

end WallMon
