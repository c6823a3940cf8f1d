import WallMon.TableRows
import WallMon.Transition

/-!
# A tile of the display

Each tile keeps the two tables by itself. The items arrive there in an order of its own,
and what is tapped on the master's tile arrives as a message with a row number. The
history `handled` has, for each state message that a tile worked off, the states before
and after; in every run it is true to what the code did, and the messages of each table
are worked off in the order in which they arrive (`inv_of_reachable`).
-/

namespace WallMon

/-! ## What the master sends -/

/-- The conversion of a number to `int`, towards zero. -/
def truncate (q : ℚ) : ℤ := if 0 ≤ q then ⌊q⌋ else ⌈q⌉

/-- `fmod` -/
def fmod (x y : ℚ) : ℚ := x - truncate (x / y) * y

/-- `TABLE_TOP` -/
def tableTop : ℚ := 85

/-- `TABLE_BOTTOM` -/
def tableBottom : ℚ := 15

namespace Table

variable {ι : Type}

/-- `_itemHeight` -/
def itemHeight (t : Table ι) : ℚ := if t.isTopLevelTable then 6 else 15

/-- `_CurrentPixelToItemIndex` -/
def currentPixelToItemIndex (t : Table ι) : ℤ := truncate (t.currentPixelIndex / t.itemHeight)

/-- `_RelativePixelToItemIndex` -/
def relativePixelToItemIndex (t : Table ι) (relativeY : ℚ) : ℤ :=
  let offset := fmod t.currentPixelIndex t.itemHeight
  truncate ((tableTop - relativeY + offset) / t.itemHeight) + t.currentPixelToItemIndex

/-- The message of `_SynchronizeState`, called without swipes. -/
def synchronizeState (t : Table ι) (pixelIndex : ℚ) (selectedIndex : ℤ) : TableStateMessage where
  isTopTable := t.isTopLevelTable
  pixelIndex := some pixelIndex
  selectedIndex := if selectedIndex ≥ 0 then some selectedIndex else none
  swipeLeft := none
  swipeRight := none

/-- `Table::Tap` on the master: the message that is multicast, if any. -/
def tap (t : Table ι) (y : ℚ) : Option TableStateMessage :=
  if y > tableTop ∨ y < tableBottom then none
  else some (t.synchronizeState t.currentPixelIndex (t.relativePixelToItemIndex y))

end Table

/-- A message that says nothing of a swipe. -/
def TableStateMessage.IsTouch (msg : TableStateMessage) : Prop :=
  msg.swipeLeft = none ∧ msg.swipeRight = none

/-- The messages of taps are touches. -/
theorem Table.isTouch_of_tap {ι : Type} {t : Table ι} {y : ℚ} {msg : TableStateMessage}
    (h : t.tap y = some msg) : msg.IsTouch := by
  rw [tap] at h
  split at h
  · cases h
  · obtain rfl := Option.some.inj h
    exact ⟨rfl, rfl⟩

/-! ## A tile -/

/-- A state message that was worked off. -/
structure Handled (ι : Type) where
  /-- the message -/
  msg : TableStateMessage
  /-- the state of the table it is for, before -/
  before : LoopState ι
  /-- the state of the table it is for, after -/
  after : LoopState ι
  /-- the top-level table before -/
  topBefore : Table ι
  /-- the top-level table after -/
  topAfter : Table ι

/-- A tile: the items and the two tables. -/
structure Tile (ι : Type) where
  /-- the items -/
  heap : ι → TableItem
  /-- the top-level table -/
  top : Table ι
  /-- the sub-table -/
  sub : Table ι
  /-- history: the state messages that arrived -/
  received : List TableStateMessage
  /-- history: the state messages that were worked off -/
  handled : List (Handled ι)

/-- What happens at a tile. -/
inductive TileEvent (ι : Type) where
  /-- a process appears or ends -/
  | call (call : TableCall ι)
  /-- a multicast message arrives -/
  | receive (msg : TableStateMessage)
  /-- the values of an item change -/
  | write (item : ι) (score : ℚ) (hostName pid : String)
  /-- a frame of the top-level table -/
  | topFrame (o : FrameInput ι)
  /-- a frame of the sub-table -/
  | subFrame (o : FrameInput ι)

/-- The message of an event. -/
def TileEvent.message {ι : Type} : TileEvent ι → Option TableStateMessage
  | .receive msg => some msg
  | _ => none

namespace LoopState

variable {ι : Type} [DecidableEq ι]

/-- The messages that the loop works off, each with the states before and after. -/
def history (S : StdSort) (stray : List (List ι) → ℤ → Option ι) :
    List TableStateMessage → LoopState ι → List (TableStateMessage × LoopState ι × LoopState ι)
  | [], _ => []
  | msg :: queue, s =>
    match (s.pop queue).handleMessage S stray msg with
    | (s', true) => [(msg, s.pop queue, s')]
    | (s', false) => (msg, s.pop queue, s') :: history S stray queue s'

end LoopState

namespace Tile

variable {ι : Type} [DecidableEq ι]

/-- The state that a frame of a table starts from. -/
def loopState (heap : ι → TableItem) (t : Table ι) : LoopState ι :=
  { heap := heap, table := t, subCalls := [], terminated := [] }

/-- `_ListenForever` of the synchronizer: a message goes to the queue of its table. -/
def receive (d : Tile ι) (msg : TableStateMessage) : Tile ι :=
  let d := { d with received := d.received ++ [msg] }
  if msg.isTopTable then { d with top := d.top.receive msg }
  else { d with sub := d.sub.receive msg }

/-- What a frame of the top-level table records. -/
def topRecords (S : StdSort) (d : Tile ι) (o : FrameInput ι) : List (Handled ι) :=
  (LoopState.history S o.stray d.top.stateQueue (loopState d.heap d.top)).map
    fun (msg, before, after) =>
      { msg, before, after, topBefore := before.table, topAfter := after.table }

/-- A frame of the top-level table, whose calls go to the sub-table. -/
def topFrame (S : StdSort) (d : Tile ι) (o : FrameInput ι) : Tile ι :=
  let s := d.top.onLoop S d.heap o
  { d with
    heap := s.heap
    top := s.table
    sub := s.subCalls.foldl Table.call d.sub
    handled := d.handled ++ d.topRecords S o }

/-- What a frame of the sub-table records. -/
def subRecords (S : StdSort) (d : Tile ι) (o : FrameInput ι) : List (Handled ι) :=
  (LoopState.history S o.stray d.sub.stateQueue (loopState d.heap d.sub)).map
    fun (msg, before, after) =>
      { msg, before, after, topBefore := d.top, topAfter := d.top }

/-- A frame of the sub-table. -/
def subFrame (S : StdSort) (d : Tile ι) (o : FrameInput ι) : Tile ι :=
  let s := d.sub.onLoop S d.heap o
  { d with
    heap := s.heap
    sub := s.table
    handled := d.handled ++ d.subRecords S o }

/-- The handler of process messages sets values of an item. -/
def write (d : Tile ι) (item : ι) (score : ℚ) (hostName pid : String) : Tile ι :=
  { d with heap := Function.update d.heap item { d.heap item with score, hostName, pid } }

/-- The state after an event. -/
def next (S : StdSort) (d : Tile ι) : TileEvent ι → Tile ι
  | .call call => { d with top := d.top.call call }
  | .receive msg => d.receive msg
  | .write item score hostName pid => d.write item score hostName pid
  | .topFrame o => d.topFrame S o
  | .subFrame o => d.subFrame S o

/-- A tile that starts with the given items, of which none is shown yet. -/
def initial (heap : ι → TableItem) (now : ℚ) : Tile ι where
  heap := heap
  top := Table.new true now
  sub := Table.new false now
  received := []
  handled := []

/-- The transition system of a tile. -/
def system (S : StdSort) : TransitionSystem (Tile ι) (TileEvent ι) where
  init d := ∃ heap now, d = initial heap now
  step d e d' := d' = d.next S e

end Tile

/-! ## The history and the messages -/

namespace LoopState

variable {ι : Type} [DecidableEq ι] {S : StdSort} {stray : List (List ι) → ℤ → Option ι}

/-- The messages worked off and those that still wait are the messages that waited. -/
theorem history_append_stateQueue (S : StdSort) (stray : List (List ι) → ℤ → Option ι)
    {queue : List TableStateMessage} {s : LoopState ι} (hqueue : s.table.stateQueue = queue) :
    (history S stray queue s).map (·.1) ++
      (processMessages S stray queue s).1.table.stateQueue = queue := by
  induction queue generalizing s with
  | nil => exact hqueue
  | cons msg queue ih =>
    rw [history, processMessages]
    have hhandled := (handleMessage_rearranges S stray (s.pop queue) msg).stateQueue
    cases hresult : (s.pop queue).handleMessage S stray msg with
    | mk s' returns =>
      rw [hresult] at hhandled
      cases returns with
      | true => exact congrArg (msg :: ·) hhandled
      | false => exact congrArg (msg :: ·) (ih hhandled)

/-- What is recorded of a message: it waited, the rows before are those of the beginning
up to their order, and the state after is what handling the message made of it. -/
theorem mem_history {queue : List TableStateMessage} {s before after : LoopState ι}
    {msg : TableStateMessage} (h : (msg, before, after) ∈ history S stray queue s) :
    msg ∈ queue ∧ SameItems s before ∧ after = (before.handleMessage S stray msg).1 := by
  induction queue generalizing s with
  | nil => cases h
  | cons first queue ih =>
    rw [history] at h
    have hpopped := pop_sameItems s queue
    have hhandled := hpopped.trans
      (handleMessage_rearranges S stray (s.pop queue) first).toSameItems
    cases hresult : (s.pop queue).handleMessage S stray first with
    | mk s' returns =>
      rw [hresult] at h hhandled
      cases returns with
      | true =>
        obtain ⟨rfl, hstates⟩ := Prod.mk.inj (List.mem_singleton.mp h)
        obtain ⟨rfl, rfl⟩ := Prod.mk.inj hstates
        exact ⟨List.mem_cons_self .., hpopped, by rw [hresult]⟩
      | false =>
        rcases List.mem_cons.mp h with heq | hlater
        · obtain ⟨rfl, hstates⟩ := Prod.mk.inj heq
          obtain ⟨rfl, rfl⟩ := Prod.mk.inj hstates
          exact ⟨List.mem_cons_self .., hpopped, by rw [hresult]⟩
        · obtain ⟨hmem, hitems, hafter⟩ := ih hlater
          exact ⟨List.mem_cons_of_mem _ hmem, hhandled.trans hitems, hafter⟩

/-- What one message keeps where a condition holds of it and of the state before, the loop over
the messages keeps where the condition holds of all that is recorded. -/
theorem processMessages_preserves_of_history {I : LoopState ι → Prop}
    {C : TableStateMessage → LoopState ι → Prop} (hpop : ∀ s queue, I s → I (s.pop queue))
    (hhandle : ∀ s msg, I s → C msg s → I (s.handleMessage S stray msg).1) {s : LoopState ι}
    (h : I s) {queue : List TableStateMessage} (hC : ∀ p ∈ history S stray queue s, C p.1 p.2.1) :
    I (processMessages S stray queue s).1 := by
  induction queue generalizing s with
  | nil => exact h
  | cons msg queue ih =>
    have hhandled := hhandle _ msg (hpop s queue h)
    rw [history] at hC
    rw [processMessages]
    cases hresult : (s.pop queue).handleMessage S stray msg with
    | mk s' returns =>
      rw [hresult] at hhandled hC
      cases returns with
      | true => exact hhandled (hC (msg, s.pop queue, s') (List.mem_singleton_self _))
      | false =>
        obtain ⟨hfirst, hrest⟩ := List.forall_mem_cons.mp hC
        exact ih (hhandled hfirst) hrest

end LoopState

/-! ## A tile in a run -/

/-- What the history of a frame says. -/
theorem Tile.of_mem_history {ι : Type} [DecidableEq ι] {S : StdSort} {t : Table ι}
    {heap : ι → TableItem} {o : FrameInput ι} (hgroups : [] ∉ t.items)
    {msg : TableStateMessage} {before after : LoopState ι}
    (h : (msg, before, after) ∈ LoopState.history S o.stray t.stateQueue (loopState heap t)) :
    msg ∈ t.stateQueue ∧ [] ∉ before.table.items ∧
      before.table.isTopLevelTable = t.isTopLevelTable ∧
      ∃ stray, after = (before.handleMessage S stray msg).1 := by
  obtain ⟨hwaits, hitems, hafter⟩ := LoopState.mem_history h
  exact ⟨hwaits, fun hnil => hgroups (hitems.rows.mem_iff.mp hnil), hitems.isTopLevelTable,
    o.stray, hafter⟩

/-- The messages of a longer history, if the new records are for one table. -/
theorem Tile.filter_records {ι : Type} {handled records : List (Handled ι)} {forTop : Bool}
    (h : ∀ r ∈ records, r.msg.isTopTable = forTop) (isTopTable : Bool) :
    ((handled ++ records).filter (·.msg.isTopTable = isTopTable)).map (·.msg) =
      (handled.filter (·.msg.isTopTable = isTopTable)).map (·.msg) ++
        if isTopTable = forTop then records.map (·.msg) else [] := by
  rw [List.filter_append, List.map_append]
  split
  · next heq =>
    have hall : records.filter (·.msg.isTopTable = isTopTable) = records :=
      List.filter_eq_self.mpr fun r hr => by simp [h r hr, heq]
    rw [hall]
  · next hne =>
    have hnone : records.filter (·.msg.isTopTable = isTopTable) = [] :=
      List.filter_eq_nil_iff.mpr fun r hr => by simp [h r hr, Ne.symm hne]
    rw [hnone, List.map_nil]

/-- Calls leave all but the two queues of calls. -/
theorem Table.foldl_call {ι : Type} (calls : List (TableCall ι)) (t : Table ι) :
    (calls.foldl Table.call t).isTopLevelTable = t.isTopLevelTable ∧
      (calls.foldl Table.call t).items = t.items ∧
      (calls.foldl Table.call t).stateQueue = t.stateQueue := by
  induction calls generalizing t with
  | nil => exact ⟨rfl, rfl, rfl⟩
  | cons call calls ih =>
    obtain ⟨htop, hitems, hqueue⟩ := ih (t.call call)
    cases call with
    | add => exact ⟨htop, hitems, hqueue⟩
    | remove => exact ⟨htop, hitems, hqueue⟩
    | clear => exact ⟨htop, hitems, hqueue⟩

namespace Tile

variable {ι : Type} [DecidableEq ι] {S : StdSort} {d : Tile ι}

/-- A record of a state message says what the code did with it. -/
structure WorkedOff (S : StdSort) (h : Handled ι) : Prop where
  /-- no group was empty -/
  groups : [] ∉ h.before.table.items
  /-- the table is the one the message is for -/
  isTopLevelTable : h.before.table.isTopLevelTable = h.msg.isTopTable
  /-- the message was handled -/
  after : ∃ stray, h.after = (h.before.handleMessage S stray h.msg).1
  /-- a message for the top-level table -/
  top : h.msg.isTopTable = true → h.topBefore = h.before.table ∧ h.topAfter = h.after.table
  /-- a message for the sub-table -/
  sub : h.msg.isTopTable = false → h.topAfter = h.topBefore

/-- The messages for one of the two tables that were worked off, and that wait. -/
def messages (d : Tile ι) (isTopTable : Bool) : List TableStateMessage :=
  (d.handled.filter (·.msg.isTopTable = isTopTable)).map (·.msg) ++
    (if isTopTable then d.top else d.sub).stateQueue

/-- What holds at a tile in every run. -/
structure Inv (S : StdSort) (d : Tile ι) : Prop where
  /-- the top-level table is one -/
  top : d.top.isTopLevelTable = true
  /-- the sub-table is none -/
  sub : d.sub.isTopLevelTable = false
  /-- its groups are not empty -/
  topGroups : [] ∉ d.top.items
  /-- its groups are not empty -/
  subGroups : [] ∉ d.sub.items
  /-- messages are for their table -/
  topQueue : ∀ msg ∈ d.top.stateQueue, msg.isTopTable = true
  /-- messages are for their table -/
  subQueue : ∀ msg ∈ d.sub.stateQueue, msg.isTopTable = false
  /-- messages are worked off in the order in which they arrive -/
  messages : ∀ isTopTable,
    d.messages isTopTable = d.received.filter (·.isTopTable = isTopTable)
  /-- records are true -/
  handled : ∀ h ∈ d.handled, WorkedOff S h

/-! ## The invariant -/

/-- A frame in terms of the state that it starts from. -/
theorem onLoop_eq (t : Table ι) (heap : ι → TableItem) (o : FrameInput ι) :
    t.onLoop S heap o =
      match LoopState.processMessages S o.stray t.stateQueue (loopState heap t) with
      | (s, true) => s
      | (s, false) => s.drain.startupSort S o :=
  rfl

/-- What a frame leaves of the state messages, and of what a table is. -/
theorem onLoop_keeps (t : Table ι) (heap : ι → TableItem) (o : FrameInput ι) :
    (t.onLoop S heap o).table.isTopLevelTable = t.isTopLevelTable ∧
      ([] ∉ t.items → [] ∉ (t.onLoop S heap o).table.items) ∧
      (LoopState.history S o.stray t.stateQueue (loopState heap t)).map (·.1) ++
        (t.onLoop S heap o).table.stateQueue = t.stateQueue := by
  have hitems := LoopState.processMessages_sameItems S o.stray t.stateQueue (loopState heap t)
  have hqueue : _ ++ (LoopState.processMessages S o.stray t.stateQueue
      (loopState heap t)).1.table.stateQueue = t.stateQueue :=
    LoopState.history_append_stateQueue S o.stray rfl
  have hgroups : [] ∉ t.items → [] ∉ (LoopState.processMessages S o.stray t.stateQueue
      (loopState heap t)).1.table.items := fun h hmem => h (hitems.rows.mem_iff.mp hmem)
  rw [onLoop_eq]
  generalize LoopState.processMessages S o.stray t.stateQueue (loopState heap t) = result
    at hitems hqueue hgroups
  obtain ⟨s, returns⟩ := result
  cases returns with
  | true => exact ⟨hitems.isTopLevelTable, hgroups, hqueue⟩
  | false =>
    have hkeeps := (LoopState.drain_keepsGroups s).trans
      (LoopState.startupSort_rearranges (S := S) o s.drain).keepsGroups
    refine ⟨hkeeps.isTopLevelTable.trans hitems.isTopLevelTable,
      fun h => hkeeps.groups (hgroups h), ?_⟩
    dsimp only
    rw [hkeeps.stateQueue]
    exact hqueue

theorem inv_initial (heap : ι → TableItem) (now : ℚ) : Inv S (initial heap now) where
  top := rfl
  sub := rfl
  topGroups := List.not_mem_nil
  subGroups := List.not_mem_nil
  topQueue := fun _ hmem => absurd hmem List.not_mem_nil
  subQueue := fun _ hmem => absurd hmem List.not_mem_nil
  messages := fun isTopTable => by cases isTopTable <;> rfl
  handled := fun _ hmem => absurd hmem List.not_mem_nil

/-- A call of the interface. -/
theorem Inv.call (h : Inv S d) (call : TableCall ι) :
    Inv S { d with top := d.top.call call } := by
  obtain ⟨htop, hitems, hqueue⟩ := Table.foldl_call [call] d.top
  refine
    { h with
      top := htop.trans h.top
      topGroups := fun hnil => h.topGroups (hitems ▸ hnil)
      topQueue := fun m hm => h.topQueue m (hqueue ▸ hm)
      messages := fun isTopTable => ?_ }
  rw [← h.messages isTopTable]
  cases isTopTable with
  | true => exact congrArg (_ ++ ·) hqueue
  | false => rfl

/-- A message arrives. -/
theorem Inv.receive (h : Inv S d) (msg : TableStateMessage) : Inv S (d.receive msg) := by
  rw [Tile.receive]
  dsimp only
  split
  · next htop =>
    refine
      { h with
        topQueue := List.forall_mem_append.mpr ⟨h.topQueue, List.forall_mem_singleton.mpr htop⟩
        messages := ?_ }
    · intro isTopTable
      cases isTopTable with
      | true =>
        rw [List.filter_append, ← h.messages true]
        simp [Tile.messages, Table.receive, htop]
      | false =>
        rw [List.filter_append, ← h.messages false]
        simp [Tile.messages, htop]
  · next htop =>
    have hsub : msg.isTopTable = false := by simpa using htop
    refine
      { h with
        subQueue := List.forall_mem_append.mpr ⟨h.subQueue, List.forall_mem_singleton.mpr hsub⟩
        messages := ?_ }
    · intro isTopTable
      cases isTopTable with
      | true =>
        rw [List.filter_append, ← h.messages true]
        simp [Tile.messages, htop]
      | false =>
        rw [List.filter_append, ← h.messages false]
        simp [Tile.messages, Table.receive, htop]

theorem Inv.topRecords (h : Inv S d) (o : FrameInput ι) :
    ∀ r ∈ d.topRecords S o, WorkedOff S r ∧ r.msg.isTopTable = true := by
  intro r hr
  obtain ⟨⟨msg, before, after⟩, hmem, rfl⟩ := List.mem_map.mp hr
  obtain ⟨hwaits, hbefore, hkind, hafter⟩ := of_mem_history h.topGroups hmem
  have hfor := h.topQueue msg hwaits
  exact
    ⟨{ groups := hbefore
       isTopLevelTable := (hkind.trans h.top).trans hfor.symm
       after := hafter
       top := fun _ => ⟨rfl, rfl⟩
       sub := fun hsub => absurd (hfor.symm.trans hsub) (by simp) }, hfor⟩

theorem Inv.subRecords (h : Inv S d) (o : FrameInput ι) :
    ∀ r ∈ d.subRecords S o, WorkedOff S r ∧ r.msg.isTopTable = false := by
  intro r hr
  obtain ⟨⟨msg, before, after⟩, hmem, rfl⟩ := List.mem_map.mp hr
  obtain ⟨hwaits, hbefore, hkind, hafter⟩ := of_mem_history h.subGroups hmem
  have hfor := h.subQueue msg hwaits
  exact
    ⟨{ groups := hbefore
       isTopLevelTable := (hkind.trans h.sub).trans hfor.symm
       after := hafter
       top := fun htop => absurd (htop.symm.trans hfor) (by simp)
       sub := fun _ => rfl }, hfor⟩

/-- A frame of the top-level table. -/
theorem Inv.topFrame (h : Inv S d) (o : FrameInput ι) : Inv S (d.topFrame S o) := by
  obtain ⟨htop, hgroups, hqueue⟩ := onLoop_keeps (S := S) d.top d.heap o
  obtain ⟨hsub, hsubItems, hsubQueue⟩ :=
    Table.foldl_call (d.top.onLoop S d.heap o).subCalls d.sub
  have hrecords := h.topRecords o
  refine
    { top := htop.trans h.top
      sub := hsub.trans h.sub
      topGroups := hgroups h.topGroups
      subGroups := fun hnil => h.subGroups (hsubItems ▸ hnil)
      topQueue := fun m hm => h.topQueue m (hqueue ▸ List.mem_append_right _ hm)
      subQueue := fun m hm => h.subQueue m (hsubQueue ▸ hm)
      messages := ?_
      handled := List.forall_mem_append.mpr ⟨h.handled, fun r hr => (hrecords r hr).1⟩ }
  intro isTopTable
  have hold := h.messages isTopTable
  rw [Tile.messages] at hold ⊢
  rw [Tile.topFrame]
  dsimp only
  rw [filter_records fun r hr => (hrecords r hr).2, ← hold]
  cases isTopTable with
  | true =>
    -- what was taken from the queue moves to the records
    rw [if_pos rfl, List.append_assoc, Tile.topRecords, List.map_map]
    exact congrArg (_ ++ ·) hqueue
  | false => simp [hsubQueue]

/-- A frame of the sub-table. -/
theorem Inv.subFrame (h : Inv S d) (o : FrameInput ι) : Inv S (d.subFrame S o) := by
  obtain ⟨hsub, hgroups, hqueue⟩ := onLoop_keeps (S := S) d.sub d.heap o
  have hrecords := h.subRecords o
  refine
    { h with
      sub := hsub.trans h.sub
      subGroups := hgroups h.subGroups
      subQueue := fun m hm => h.subQueue m (hqueue ▸ List.mem_append_right _ hm)
      messages := ?_
      handled := List.forall_mem_append.mpr ⟨h.handled, fun r hr => (hrecords r hr).1⟩ }
  intro isTopTable
  have hold := h.messages isTopTable
  rw [Tile.messages] at hold ⊢
  rw [Tile.subFrame]
  dsimp only
  rw [filter_records fun r hr => (hrecords r hr).2, ← hold]
  cases isTopTable with
  | true => simp
  | false =>
    rw [if_pos rfl, List.append_assoc, Tile.subRecords, List.map_map]
    exact congrArg (_ ++ ·) hqueue

/-- **One step keeps the invariant.** -/
theorem Inv.next (h : Inv S d) (e : TileEvent ι) : Inv S (d.next S e) := by
  cases e with
  | call call => exact h.call call
  | receive msg => exact h.receive msg
  | write => exact { h with }
  | topFrame o => exact h.topFrame o
  | subFrame o => exact h.subFrame o

/-- **The invariant** holds in every run. -/
theorem inv_of_reachable (h : (system S).Reachable d) : Inv S d := by
  refine h.invariant ?_ ?_
  · rintro _ ⟨heap, now, rfl⟩
    exact inv_initial heap now
  · rintro d e _ - hinv rfl
    exact hinv.next e

end Tile

end WallMon
