import Mathlib.Algebra.Order.Floor.Ring
import WallMon.Gestures
import WallMon.Tile

/-!
# Scrolling the tables of all tiles

Only the master's tables answer gestures. They do not move by themselves: `_SynchronizeState`
multicasts where the list should start, and the master moves when it receives its own message,
as the other tiles do. Datagrams may be lost, delayed, doubled, and overtake each other, for
each tile in its own way.

In spite of this no list is ever pulled further than its ends (`positions_within_list`), and a
tile that has worked off a message is where the master meant it to be, whatever it has missed
before (`position_of_last_message`).
-/

namespace WallMon

namespace Table

variable {ι : Type}

/-- `numItems` in `ScrollDown`; `none` where it returns: "No items present in sub-table". -/
def numItems (t : Table ι) : Option ℕ :=
  if t.isTopLevelTable then some t.items.length else t.items.head?.map List.length

/-- `maxPixelIndex` for rows of a height, "Allow half an item to fade on top" -/
def maxPixelIndex (itemHeight : ℚ) (numItems : ℕ) : ℤ :=
  let numItems := max numItems 2
  truncate (numItems * itemHeight - itemHeight * (3 / 2))

/-- `Table::ScrollDown` on the master -/
def scrollDown (t : Table ι) (speed : ℚ) : Option TableStateMessage :=
  t.numItems.map fun numItems =>
    let currentPixelIndex := t.currentPixelIndex + speed
    t.synchronizeState (min currentPixelIndex (maxPixelIndex t.itemHeight numItems)) (-1)

/-- `Table::ScrollUp` on the master -/
def scrollUp (t : Table ι) (speed : ℚ) : TableStateMessage :=
  let currentPixelIndex := t.currentPixelIndex - speed
  t.synchronizeState (max currentPixelIndex (-15)) (-1)

/-- `Table::SwipeLeft` on the master -/
def swipeLeft (t : Table ι) (speed : ℚ) : TableStateMessage :=
  { t.synchronizeState t.currentPixelIndex (-1) with
    swipeLeft := if speed > 0 then some speed else none }

/-- `Table::SwipeRight` on the master -/
def swipeRight (t : Table ι) (speed : ℚ) : TableStateMessage :=
  { t.synchronizeState t.currentPixelIndex (-1) with
    swipeRight := if speed > 0 then some speed else none }

/-- The message that a gesture over the master's table multicasts, if any. A clap goes to the
control panel. -/
def gesture (t : Table ι) : Gesture → Option TableStateMessage
  | .tap _ y => t.tap y
  | .scrollDown speed => t.scrollDown speed
  | .scrollUp speed => some (t.scrollUp speed)
  | .swipeLeft speed => some (t.swipeLeft speed)
  | .swipeRight speed => some (t.swipeRight speed)
  | .clap => none

/-- What the constructor of a table makes of its entity. -/
structure Touchable (isTopTable : Bool) (e : EntityEvent) : Prop where
  /-- `EntityEvent::EntityEvent` -/
  constructed : e.Constructed
  /-- `width` -/
  width : e.width = 50
  /-- `height`: `TABLE_TOP`, or 100 -/
  height : e.height = if isTopTable then tableTop else 100
  /-- `SetTapEventInterval(1.1)` -/
  tap : e.tapEvent.seconds = 11 / 10
  /-- no interval for scrolls -/
  scroll : e.scrollEvent.seconds = -1
  /-- `SetSwipeEventInterval(0.75)` -/
  swipe : e.swipeEvent.seconds = 75 / 100
  /-- the memory of the limits -/
  minSpeed : 0 ≤ e.minSpeed
  /-- the memory of the limits -/
  maxSpeed : 0 ≤ e.maxSpeed

end Table

/-- All tiles, of which one is the master. -/
structure Wall (κ ι : Type) where
  /-- the tiles -/
  tiles : κ → Tile ι
  /-- the master's two tables, as far as they are touched -/
  entities : Bool → EntityEvent
  /-- history: the messages multicast -/
  sent : List TableStateMessage

/-- What happens. -/
inductive WallEvent (κ ι : Type) where
  /-- something at a tile; messages come from the network -/
  | tile (k : κ) (e : TileEvent ι)
  /-- a touch on a table of the master, or its callbacks -/
  | touch (isTopTable : Bool) (input : EntityEvent.Input)

namespace Wall

variable {κ ι : Type} [DecidableEq κ] [DecidableEq ι]

/-- One of the master's tables. -/
def masterTable (w : Wall κ ι) (master : κ) (isTopTable : Bool) : Table ι :=
  if isTopTable then (w.tiles master).top else (w.tiles master).sub

/-- A touch on a table of the master, or its callbacks. -/
def touch (w : Wall κ ι) (master : κ) (isTopTable : Bool) (input : EntityEvent.Input) :
    Wall κ ι :=
  { w with
    entities := Function.update w.entities isTopTable ((w.entities isTopTable).react input).1
    sent := w.sent ++ ((w.entities isTopTable).react input).2.filterMap
      (w.masterTable master isTopTable).gesture }

/-- The state after an event. -/
def next (S : StdSort) (master : κ) (w : Wall κ ι) : WallEvent κ ι → Wall κ ι
  | .tile k e => { w with tiles := Function.update w.tiles k ((w.tiles k).next S e) }
  | .touch isTopTable input => w.touch master isTopTable input

/-- The network delivers what was sent; the top-level table is never cleared. -/
def Delivers (w : Wall κ ι) : WallEvent κ ι → Prop
  | .tile _ (.receive msg) => msg ∈ w.sent
  | .tile _ (.call .clear) => False
  | _ => True

/-- The transition system of a wall. -/
def system (S : StdSort) (master : κ) : TransitionSystem (Wall κ ι) (WallEvent κ ι) where
  init w := (∀ k, ∃ heap now, w.tiles k = Tile.initial heap now) ∧
    (∀ isTopTable, Table.Touchable isTopTable (w.entities isTopTable)) ∧ w.sent = []
  step w e w' := w' = w.next S master e ∧ w.Delivers e

/-- The master's lists have at most as many rows. -/
def RowsWithin (master : κ) (rows : Bool → ℕ) (w : Wall κ ι) (_ : WallEvent κ ι) : Prop :=
  ∀ isTopTable, ∀ n ∈ (w.masterTable master isTopTable).numItems, n ≤ rows isTopTable

end Wall

/-! ## The position after a frame -/

/-- The position that a message asks for, as `OnLoop` reads it. -/
def TableStateMessage.place (msg : TableStateMessage) : ℚ := msg.pixelIndex.getD 0

/-- The position after messages. -/
def lastPlace (msgs : List TableStateMessage) (before : ℚ) : ℚ :=
  (msgs.getLast?.map TableStateMessage.place).getD before

@[simp] theorem lastPlace_nil (before : ℚ) : lastPlace [] before = before := rfl

theorem lastPlace_cons (msg : TableStateMessage) (msgs : List TableStateMessage) (before : ℚ) :
    lastPlace (msg :: msgs) before = lastPlace msgs msg.place := by
  rw [lastPlace, lastPlace, List.getLast?_cons]
  cases msgs.getLast? <;> rfl

theorem lastPlace_append (msgs msgs' : List TableStateMessage) (before : ℚ) :
    lastPlace (msgs ++ msgs') before = lastPlace msgs' (lastPlace msgs before) := by
  induction msgs generalizing before with
  | nil => rfl
  | cons msg msgs ih => rw [List.cons_append, lastPlace_cons, lastPlace_cons, ih]

namespace LoopState

variable {ι : Type} [DecidableEq ι] {S : StdSort} {stray : List (List ι) → ℤ → Option ι}
  {s s' : LoopState ι}

omit [DecidableEq ι] in
theorem selectRow_position {idx : ℤ} (h : s.selectRow idx = some s') :
    s'.table.currentPixelIndex = s.table.currentPixelIndex := by
  cases selectsRow_of_selectRow h with
  | deselect => rfl
  | select => rfl
  | terminate => rfl

@[simp] theorem sortTable_position (compare : List ι → List ι → Bool) (s : LoopState ι) :
    (s.sortTable S stray compare).table.currentPixelIndex = s.table.currentPixelIndex := by
  rw [sortTable]
  split <;> rfl

@[simp] theorem lowerKeys_position (s : LoopState ι) :
    s.lowerKeys.table.currentPixelIndex = s.table.currentPixelIndex := by
  rw [lowerKeys]
  split <;> rfl

@[simp] theorem swipeTop_position (s : LoopState ι) (msg : TableStateMessage) :
    (s.swipeTop S stray msg).table.currentPixelIndex = s.table.currentPixelIndex :=
  swipeTop_preserves (I := fun s' => s'.table.currentPixelIndex = s.table.currentPixelIndex)
    (fun s' h => (lowerKeys_position s').trans h)
    (fun s' compare _ h => (sortTable_position compare s').trans h) rfl msg

theorem swipeSub_position {msg : TableStateMessage} (h : s.swipeSub msg = some s') :
    s'.table.currentPixelIndex = s.table.currentPixelIndex := by
  rw [swipeSub] at h
  split at h
  · split at h
    · cases h
    · split at h <;> exact Option.some.inj h ▸ rfl
  · exact Option.some.inj h ▸ rfl

/-- **A message moves the list** to where it says, whatever else it does. -/
theorem handleMessage_position (S : StdSort) (stray : List (List ι) → ℤ → Option ι)
    (s : LoopState ι) (msg : TableStateMessage) :
    (s.handleMessage S stray msg).1.table.currentPixelIndex = msg.place := by
  rw [handleMessage]
  dsimp only
  split
  · rfl
  · next s₂ hselect =>
    have hselected : s₂.table.currentPixelIndex = msg.place := by
      split at hselect
      · exact (selectRow_position hselect).trans rfl
      · exact Option.some.inj hselect ▸ rfl
    split
    · exact (swipeTop_position s₂ msg).trans hselected
    · split
      · exact hselected
      · next s₃ hswipe => exact (swipeSub_position hswipe).trans hselected

/-- The last message worked off decides. -/
theorem processMessages_position (S : StdSort) (stray : List (List ι) → ℤ → Option ι)
    (queue : List TableStateMessage) (s : LoopState ι) :
    (processMessages S stray queue s).1.table.currentPixelIndex =
      lastPlace ((history S stray queue s).map (·.1)) s.table.currentPixelIndex := by
  induction queue generalizing s with
  | nil => rfl
  | cons msg queue ih =>
    have hposition := handleMessage_position S stray (s.pop queue) msg
    rw [processMessages, history]
    cases hresult : (s.pop queue).handleMessage S stray msg with
    | mk s' returns =>
      rw [hresult] at hposition
      cases returns with
      | true => exact hposition
      | false =>
        dsimp only at hposition ⊢
        rw [ih, hposition, List.map_cons, lastPlace_cons]

/-- Removals move the list only if all items are removed, and leave what waits. -/
theorem removal_position (s : LoopState ι) (removal : Option ι) :
    (s.removal removal).table.currentPixelIndex =
        (if removal = none then 0 else s.table.currentPixelIndex) ∧
      (s.removal removal).table.removeQueue = s.table.removeQueue := by
  cases removal with
  | none => exact ⟨rfl, by simp [LoopState.removal]⟩
  | some item => exact ⟨rfl, rfl⟩

theorem foldl_removal_position (removals : List (Option ι)) (s : LoopState ι) :
    (removals.foldl LoopState.removal s).table.currentPixelIndex =
        (if none ∈ removals then 0 else s.table.currentPixelIndex) ∧
      (removals.foldl LoopState.removal s).table.removeQueue = s.table.removeQueue := by
  induction removals generalizing s with
  | nil => exact ⟨rfl, rfl⟩
  | cons removal removals ih =>
    obtain ⟨hposition, hqueue⟩ := ih (s.removal removal)
    obtain ⟨hfirst, hsame⟩ := removal_position s removal
    refine ⟨?_, hqueue.trans hsame⟩
    rw [List.foldl_cons, hposition, hfirst]
    cases removal with
    | none => simp
    | some item => simp

omit [DecidableEq ι] in
theorem foldl_addition_position (items : List ι) (s : LoopState ι) :
    (items.foldl addition s).table.currentPixelIndex = s.table.currentPixelIndex ∧
      (items.foldl addition s).table.removeQueue = s.table.removeQueue := by
  induction items generalizing s with
  | nil => exact ⟨rfl, rfl⟩
  | cons item items ih => exact ih (s.addition item)

theorem drain_position (s : LoopState ι) :
    s.drain.table.currentPixelIndex =
        (if none ∈ s.table.removeQueue then 0 else s.table.currentPixelIndex) ∧
      s.drain.table.removeQueue = [] := by
  obtain ⟨hremoved, hempty⟩ := foldl_removal_position s.table.removeQueue
    { s with table := { s.table with removeQueue := [] } }
  rw [drain]
  dsimp only
  obtain ⟨hadded, hsame⟩ := foldl_addition_position
    (s.table.removeQueue.foldl LoopState.removal
      { s with table := { s.table with removeQueue := [] } }).table.addQueue
    { s.table.removeQueue.foldl LoopState.removal
        { s with table := { s.table with removeQueue := [] } } with
      table := { (s.table.removeQueue.foldl LoopState.removal
        { s with table := { s.table with removeQueue := [] } }).table with addQueue := [] } }
  exact ⟨hadded.trans hremoved, hsame.trans hempty⟩

theorem startupSort_position (o : FrameInput ι) (s : LoopState ι) :
    (s.startupSort S o).table.currentPixelIndex = s.table.currentPixelIndex := by
  rw [startupSort]
  split
  · exact sortTable_position _ _
  · rfl

end LoopState

namespace Tile

variable {ι : Type} [DecidableEq ι] {S : StdSort}

/-- **The position after a frame** is the one that the last message worked off asks for, unless
all items were removed. What waits to be removed afterwards waited before. -/
theorem onLoop_position (t : Table ι) (heap : ι → TableItem) (o : FrameInput ι) :
    ((t.onLoop S heap o).table.currentPixelIndex =
        lastPlace ((LoopState.history S o.stray t.stateQueue (loopState heap t)).map (·.1))
          t.currentPixelIndex ∨
      none ∈ t.removeQueue ∧ (t.onLoop S heap o).table.currentPixelIndex = 0) ∧
    ∀ r ∈ (t.onLoop S heap o).table.removeQueue, r ∈ t.removeQueue := by
  have hposition := LoopState.processMessages_position S o.stray t.stateQueue (loopState heap t)
  have hqueue := (LoopState.processMessages_sameItems S o.stray t.stateQueue
    (loopState heap t)).removeQueue
  rw [onLoop_eq]
  generalize LoopState.processMessages S o.stray t.stateQueue (loopState heap t) = result
    at hposition hqueue
  obtain ⟨s, returns⟩ := result
  dsimp only at hposition hqueue
  cases returns with
  | true => exact ⟨.inl hposition, fun r hr => hqueue ▸ hr⟩
  | false =>
    obtain ⟨hdrained, hempty⟩ := LoopState.drain_position s
    have hsort := LoopState.startupSort_rearranges (S := S) o s.drain
    rw [hqueue] at hdrained
    refine ⟨?_, fun r hr => ?_⟩
    · dsimp only
      rw [LoopState.startupSort_position, hdrained]
      by_cases hclear : none ∈ t.removeQueue
      · exact .inr ⟨hclear, if_pos hclear⟩
      · exact .inl ((if_neg hclear).trans hposition)
    · rw [hsort.removeQueue, hempty] at hr
      cases hr

end Tile

/-! ## Within the list -/

namespace Table

variable {ι : Type}

theorem truncate_mono_of_nonneg {x y : ℚ} (hx : 0 ≤ x) (hxy : x ≤ y) : truncate x ≤ truncate y := by
  rw [truncate, truncate, if_pos hx, if_pos (hx.trans hxy)]
  exact Int.floor_mono hxy

/-- The list ends at half an item at least. -/
theorem end_nonneg {h : ℚ} (hh : 0 ≤ h) (n : ℕ) : 0 ≤ (max n 2 : ℕ) * h - h * (3 / 2) := by
  have htwo : (2 : ℚ) ≤ (max n 2 : ℕ) := by exact_mod_cast le_max_right n 2
  nlinarith

theorem maxPixelIndex_nonneg {h : ℚ} (hh : 0 ≤ h) (n : ℕ) : 0 ≤ maxPixelIndex h n := by
  rw [maxPixelIndex, truncate, if_pos (end_nonneg hh n)]
  exact Int.floor_nonneg.mpr (end_nonneg hh n)

theorem maxPixelIndex_mono {h : ℚ} (hh : 0 ≤ h) {n m : ℕ} (hnm : n ≤ m) :
    maxPixelIndex h n ≤ maxPixelIndex h m := by
  have hmax : ((max n 2 : ℕ) : ℚ) ≤ (max m 2 : ℕ) := by exact_mod_cast max_le_max_right 2 hnm
  exact truncate_mono_of_nonneg (end_nonneg hh n)
    (sub_le_sub_right (mul_le_mul_of_nonneg_right hmax hh) _)

/-- A position between the two ends of a list of as many rows: pulled down by 15 at most, and
up until half an item is left. -/
def WithinList (rows : ℕ) (isTopTable : Bool) (p : ℚ) : Prop :=
  -15 ≤ p ∧ p ≤ maxPixelIndex (if isTopTable then 6 else 15) rows

theorem withinList_zero (rows : ℕ) (isTopTable : Bool) : WithinList rows isTopTable 0 := by
  refine ⟨by norm_num, ?_⟩
  exact_mod_cast maxPixelIndex_nonneg (by split <;> norm_num) rows

/-- A gesture asks for a position within the list, from one within the list. -/
theorem withinList_gesture {t : Table ι} {g : Gesture} {msg : TableStateMessage} {rows : ℕ}
    (hmsg : t.gesture g = some msg) (hspeed : ∀ v ∈ g.speed, 0 ≤ v)
    (hrows : ∀ n ∈ t.numItems, n ≤ rows)
    (h : WithinList rows t.isTopLevelTable t.currentPixelIndex) :
    msg.isTopTable = t.isTopLevelTable ∧
      ∃ p, msg.pixelIndex = some p ∧ WithinList rows t.isTopLevelTable p := by
  cases g with
  | tap x y =>
    rw [gesture, tap] at hmsg
    split at hmsg
    · cases hmsg
    · obtain rfl := Option.some.inj hmsg
      exact ⟨rfl, _, rfl, h⟩
  | scrollDown speed =>
    obtain ⟨n, hn, rfl⟩ := Option.map_eq_some_iff.mp hmsg
    have hpos := hspeed speed rfl
    have hheight : (0 : ℚ) ≤ t.itemHeight := by
      rw [itemHeight]
      split <;> norm_num
    have hend : (maxPixelIndex t.itemHeight n : ℚ) ≤ maxPixelIndex t.itemHeight rows := by
      exact_mod_cast maxPixelIndex_mono hheight (hrows n hn)
    have hlow : (0 : ℚ) ≤ maxPixelIndex t.itemHeight n := by
      exact_mod_cast maxPixelIndex_nonneg hheight n
    obtain ⟨hlo, hhi⟩ := h
    exact ⟨rfl, _, rfl, le_min (by linarith) (by linarith), (min_le_right _ _).trans hend⟩
  | scrollUp speed =>
    obtain rfl := Option.some.inj hmsg
    have hpos := hspeed speed rfl
    obtain ⟨hlo, hhi⟩ := h
    exact ⟨rfl, _, rfl, le_max_right _ _, max_le (by linarith) (hlo.trans hhi)⟩
  | swipeLeft speed =>
    obtain rfl := Option.some.inj hmsg
    exact ⟨rfl, _, rfl, h⟩
  | swipeRight speed =>
    obtain rfl := Option.some.inj hmsg
    exact ⟨rfl, _, rfl, h⟩
  | clap => cases hmsg

theorem foldl_call_position (calls : List (TableCall ι)) (t : Table ι) :
    (calls.foldl Table.call t).currentPixelIndex = t.currentPixelIndex := by
  induction calls generalizing t with
  | nil => rfl
  | cons call calls ih =>
    rw [List.foldl_cons, ih]
    cases call <;> rfl

end Table

/-- The message asks for a position within the list of its table. -/
def TableStateMessage.WithinList (rows : Bool → ℕ) (msg : TableStateMessage) : Prop :=
  ∃ p, msg.pixelIndex = some p ∧ Table.WithinList (rows msg.isTopTable) msg.isTopTable p

namespace Tile

variable {ι : Type} [DecidableEq ι] {S : StdSort} {rows : Bool → ℕ} {d : Tile ι}

/-- Both lists of a tile are within their ends, and will be. -/
structure WithinLists (rows : Bool → ℕ) (d : Tile ι) : Prop where
  /-- the top-level table -/
  top : Table.WithinList (rows true) true d.top.currentPixelIndex
  /-- the sub-table -/
  sub : Table.WithinList (rows false) false d.sub.currentPixelIndex
  /-- what waits for the one -/
  topQueue : ∀ msg ∈ d.top.stateQueue, msg.WithinList rows
  /-- what waits for the other -/
  subQueue : ∀ msg ∈ d.sub.stateQueue, msg.WithinList rows

/-- Messages within the list lead to positions within it. -/
theorem withinList_lastPlace {msgs : List TableStateMessage} {isTopTable : Bool} {p : ℚ}
    (hmsgs : ∀ msg ∈ msgs, msg.WithinList rows ∧ msg.isTopTable = isTopTable)
    (hp : Table.WithinList (rows isTopTable) isTopTable p) :
    Table.WithinList (rows isTopTable) isTopTable (lastPlace msgs p) := by
  induction msgs generalizing p with
  | nil => exact hp
  | cons msg msgs ih =>
    obtain ⟨⟨⟨q, hq, hwithin⟩, rfl⟩, hrest⟩ := List.forall_mem_cons.mp hmsgs
    rw [lastPlace_cons]
    refine ih hrest ?_
    rwa [TableStateMessage.place, hq, Option.getD_some]

/-- One frame of a table. -/
theorem withinList_onLoop {t : Table ι} {isTopTable : Bool} (heap : ι → TableItem)
    (o : FrameInput ι) (hqueue : ∀ msg ∈ t.stateQueue, msg.WithinList rows)
    (hfor : ∀ msg ∈ t.stateQueue, msg.isTopTable = isTopTable)
    (h : Table.WithinList (rows isTopTable) isTopTable t.currentPixelIndex) :
    Table.WithinList (rows isTopTable) isTopTable (t.onLoop S heap o).table.currentPixelIndex ∧
      ∀ msg ∈ (t.onLoop S heap o).table.stateQueue, msg.WithinList rows := by
  obtain ⟨-, -, hsplit⟩ := onLoop_keeps (S := S) t heap o
  refine ⟨?_, fun msg hmsg => hqueue msg (hsplit ▸ List.mem_append_right _ hmsg)⟩
  rcases (onLoop_position (S := S) t heap o).1 with hlast | ⟨-, hzero⟩
  · rw [hlast]
    refine withinList_lastPlace (fun msg hmsg => ?_) h
    have hwaits : msg ∈ t.stateQueue := hsplit ▸ List.mem_append_left _ hmsg
    exact ⟨hqueue msg hwaits, hfor msg hwaits⟩
  · rw [hzero]
    exact Table.withinList_zero _ _

/-- An event at a tile, where a message that arrives is within its list. -/
theorem WithinLists.next (h : WithinLists rows d) (hinv : Inv S d) {e : TileEvent ι}
    (he : ∀ msg ∈ e.message, msg.WithinList rows) : WithinLists rows (d.next S e) := by
  cases e with
  | call call =>
    obtain ⟨-, -, hqueue⟩ := Table.foldl_call [call] d.top
    exact
      { h with
        top := by
          have hposition := Table.foldl_call_position [call] d.top
          exact hposition.symm ▸ h.top
        topQueue := fun msg hmsg => h.topQueue msg (hqueue ▸ hmsg) }
  | receive msg =>
    have hmsg := he msg rfl
    rw [Tile.next, Tile.receive]
    dsimp only
    split
    · exact
        { h with
          topQueue := List.forall_mem_append.mpr ⟨h.topQueue, List.forall_mem_singleton.mpr hmsg⟩ }
    · exact
        { h with
          subQueue := List.forall_mem_append.mpr ⟨h.subQueue, List.forall_mem_singleton.mpr hmsg⟩ }
  | write => exact { h with }
  | topFrame o =>
    obtain ⟨hposition, hqueue⟩ := withinList_onLoop (S := S) d.heap o h.topQueue hinv.topQueue h.top
    obtain ⟨-, -, hsubQueue⟩ := Table.foldl_call (d.top.onLoop S d.heap o).subCalls d.sub
    have hsub := Table.foldl_call_position (d.top.onLoop S d.heap o).subCalls d.sub
    exact ⟨hposition, hsub.symm ▸ h.sub, hqueue, fun msg hmsg => h.subQueue msg (hsubQueue ▸ hmsg)⟩
  | subFrame o =>
    obtain ⟨hposition, hqueue⟩ := withinList_onLoop (S := S) d.heap o h.subQueue hinv.subQueue h.sub
    exact { h with sub := hposition, subQueue := hqueue }

end Tile

namespace Wall

variable {κ ι : Type} {master : κ} {w : Wall κ ι} {e : WallEvent κ ι}

/-- What holds of the master's gestures in every run: their speeds are within the limits. -/
def Limited (w : Wall κ ι) : Prop :=
  ∀ isTopTable, ∃ height, 0 ≤ height ∧ EntityEvent.WithinLimits height (w.entities isTopTable)

/-- The message of an event at a tile was sent. -/
theorem Delivers.mem_sent {k : κ} {e : TileEvent ι} (h : w.Delivers (.tile k e)) :
    ∀ msg ∈ e.message, msg ∈ w.sent := by
  intro msg hmsg
  cases e with
  | receive msg' =>
    obtain rfl := Option.some.inj hmsg
    exact h
  | call => cases hmsg
  | write => cases hmsg
  | topFrame => cases hmsg
  | subFrame => cases hmsg

/-- Gestures have speeds that are not negative. -/
theorem Limited.nonneg_speed (h : w.Limited) {isTopTable : Bool} {input : EntityEvent.Input}
    {g : Gesture} (hg : g ∈ ((w.entities isTopTable).react input).2) : ∀ v ∈ g.speed, 0 ≤ v := by
  obtain ⟨height, hheight, hlimits⟩ := h isTopTable
  intro v hv
  have hspeed := (hlimits.speedWithin_react input g hg v hv).1
  linarith

/-- **The invariant of scrolling.** -/
structure Scrolled (rows : Bool → ℕ) (w : Wall κ ι) : Prop where
  /-- what was sent -/
  sent : ∀ msg ∈ w.sent, msg.WithinList rows
  /-- what the tiles show -/
  tiles : ∀ k, (w.tiles k).WithinLists rows

theorem Scrolled.masterTable {rows : Bool → ℕ} (h : w.Scrolled rows) (isTopTable : Bool) :
    Table.WithinList (rows isTopTable) isTopTable
      (w.masterTable master isTopTable).currentPixelIndex := by
  cases isTopTable with
  | true => exact (h.tiles master).top
  | false => exact (h.tiles master).sub

variable [DecidableEq ι] {S : StdSort}

/-- The tiles by themselves. -/
def TileInv (S : StdSort) (w : Wall κ ι) : Prop := ∀ k, Tile.Inv S (w.tiles k)

/-- The kind of a master's table. -/
theorem TileInv.masterTable (h : w.TileInv S) (isTopTable : Bool) :
    (w.masterTable master isTopTable).isTopLevelTable = isTopTable := by
  cases isTopTable with
  | true => exact (h master).top
  | false => exact (h master).sub

variable [DecidableEq κ]

theorem limited_of_init (h : (system S master).init w) : w.Limited := by
  intro isTopTable
  have htouch := h.2.1 isTopTable
  refine ⟨_, ?_, Gesturing.withinLimits_of_constructed htouch.constructed htouch.minSpeed
    htouch.maxSpeed⟩
  rw [htouch.height]
  split
  · rw [tableTop]
    norm_num
  · norm_num

theorem tileInv_of_init (h : (system S master).init w) : w.TileInv S := by
  intro k
  obtain ⟨heap, now, heq⟩ := h.1 k
  exact heq ▸ Tile.inv_initial heap now

theorem Limited.next (h : w.Limited) (e : WallEvent κ ι) : (w.next S master e).Limited := by
  cases e with
  | tile k e => exact h
  | touch isTopTable input =>
    intro isTopTable'
    rw [Wall.next, touch]
    dsimp only
    by_cases hsame : isTopTable' = isTopTable
    · subst hsame
      obtain ⟨height, hheight, hlimits⟩ := h isTopTable'
      rw [Function.update_self]
      exact ⟨height, hheight, hlimits.react hheight input⟩
    · rw [Function.update_of_ne hsame]
      exact h isTopTable'

theorem TileInv.next (h : w.TileInv S) (e : WallEvent κ ι) : (w.next S master e).TileInv S := by
  cases e with
  | tile k e =>
    intro k'
    rw [Wall.next]
    dsimp only
    by_cases hsame : k' = k
    · subst hsame
      rw [Function.update_self]
      exact (h k').next e
    · rw [Function.update_of_ne hsame]
      exact h k'
  | touch isTopTable input => exact h

theorem Scrolled.next {rows : Bool → ℕ} (h : w.Scrolled rows) (hlimited : w.Limited)
    (hinv : w.TileInv S) (hdelivers : w.Delivers e) (hrows : RowsWithin master rows w e) :
    (w.next S master e).Scrolled rows := by
  cases e with
  | tile k e =>
    refine ⟨h.sent, fun k' => ?_⟩
    rw [Wall.next]
    dsimp only
    by_cases hsame : k' = k
    · subst hsame
      rw [Function.update_self]
      exact (h.tiles k').next (hinv k') fun msg hmsg => h.sent msg (hdelivers.mem_sent msg hmsg)
    · rw [Function.update_of_ne hsame]
      exact h.tiles k'
  | touch isTopTable input =>
    refine ⟨List.forall_mem_append.mpr ⟨h.sent, fun msg hmsg => ?_⟩, h.tiles⟩
    obtain ⟨g, hg, hgesture⟩ := List.mem_filterMap.mp hmsg
    have hkind : (w.masterTable master isTopTable).isTopLevelTable = isTopTable :=
      hinv.masterTable isTopTable
    have hnow : Table.WithinList (rows isTopTable) isTopTable
        (w.masterTable master isTopTable).currentPixelIndex := h.masterTable isTopTable
    obtain ⟨hfor, p, hp, hwithin⟩ := Table.withinList_gesture hgesture (hlimited.nonneg_speed hg)
      (hrows isTopTable) (hkind.symm ▸ hnow)
    rw [hkind] at hfor hwithin
    exact ⟨p, hp, hfor.symm ▸ hwithin⟩

/-- **Lists stay within their ends.** While the master's tables have at most so many rows, no
message of the master and no tile places a list beyond its ends, whatever is touched and in
whichever order messages arrive, if they do. -/
theorem positions_within_list {rows : Bool → ℕ}
    (h : ((system S master).guarded (RowsWithin master rows)).Reachable w) :
    (∀ msg ∈ w.sent, msg.WithinList rows) ∧
      ∀ k, Table.WithinList (rows true) true (w.tiles k).top.currentPixelIndex ∧
        Table.WithinList (rows false) false (w.tiles k).sub.currentPixelIndex := by
  have hall : w.Scrolled rows ∧ w.Limited ∧ w.TileInv S := by
    refine h.invariant (I := fun w => w.Scrolled rows ∧ w.Limited ∧ w.TileInv S) ?_ ?_
    · intro w hinit
      have hsystem : (system S master).init w := hinit
      refine ⟨⟨?_, fun k => ?_⟩, limited_of_init hsystem, tileInv_of_init hsystem⟩
      · rw [hinit.2.2]
        exact List.forall_mem_nil _
      · obtain ⟨heap, now, heq⟩ := hinit.1 k
        rw [heq]
        exact ⟨Table.withinList_zero _ _, Table.withinList_zero _ _, List.forall_mem_nil _,
          List.forall_mem_nil _⟩
    · rintro w e _ - ⟨hscrolled, hlimited, hinv⟩ ⟨⟨rfl, hdelivers⟩, hrows⟩
      exact ⟨hscrolled.next hlimited hinv hdelivers hrows, hlimited.next e, hinv.next e⟩
  exact ⟨hall.1.sent, fun k => ⟨(hall.1.tiles k).top, (hall.1.tiles k).sub⟩⟩

end Wall

/-! ## The last message -/

namespace Tile

variable {ι : Type}

/-- The messages for one of the two tables that were worked off. -/
def workedOff (d : Tile ι) (isTopTable : Bool) : List TableStateMessage :=
  (d.handled.filter (·.msg.isTopTable = isTopTable)).map (·.msg)

/-- The last message worked off has placed the top-level table. -/
structure Placed (d : Tile ι) : Prop where
  /-- it is not cleared -/
  notCleared : none ∉ d.top.removeQueue
  /-- where it is -/
  position : d.top.currentPixelIndex = lastPlace (d.workedOff true) 0

variable [DecidableEq ι] {S : StdSort} {d : Tile ι}

theorem Placed.next (h : Placed d) (hinv : Inv S d) {e : TileEvent ι} (he : e ≠ .call .clear) :
    Placed (d.next S e) := by
  cases e with
  | call call =>
    cases call with
    | add item => exact ⟨h.notCleared, h.position⟩
    | remove item =>
      refine ⟨fun hmem => ?_, h.position⟩
      rcases List.mem_append.mp hmem with hold | hnew
      · exact h.notCleared hold
      · cases List.mem_singleton.mp hnew
    | clear => exact absurd rfl he
  | receive msg =>
    rw [Tile.next, Tile.receive]
    dsimp only
    split <;> exact ⟨h.notCleared, h.position⟩
  | write => exact ⟨h.notCleared, h.position⟩
  | topFrame o =>
    obtain ⟨hposition, hqueue⟩ := onLoop_position (S := S) d.top d.heap o
    have hrecords := @filter_records ι d.handled _ _
      (fun r hr => (hinv.topRecords o r hr).2) true
    refine ⟨fun hmem => h.notCleared (hqueue none hmem), ?_⟩
    rcases hposition with hlast | ⟨hclear, -⟩
    · rw [workedOff]
      refine hlast.trans ?_
      rw [Tile.next, topFrame]
      dsimp only
      rw [hrecords, if_pos rfl, lastPlace_append, topRecords, List.map_map, h.position]
      rfl
    · exact absurd hclear h.notCleared
  | subFrame o =>
    have hrecords := @filter_records ι d.handled _ _
      (fun r hr => (hinv.subRecords o r hr).2) true
    refine ⟨h.notCleared, ?_⟩
    rw [workedOff, Tile.next, subFrame]
    dsimp only
    rw [hrecords, if_neg (by decide), List.append_nil]
    exact h.position

/-- What was worked off has arrived. -/
theorem Inv.mem_received (h : Inv S d) {msg : TableStateMessage} {isTopTable : Bool}
    (hmsg : msg ∈ d.workedOff isTopTable) : msg ∈ d.received := by
  have hmessages := h.messages isTopTable
  have hmem : msg ∈ d.messages isTopTable := List.mem_append_left _ hmsg
  rw [hmessages] at hmem
  exact List.mem_of_mem_filter hmem

/-- Only messages that arrive are received. -/
theorem mem_received_next {e : TileEvent ι} {msg : TableStateMessage}
    (h : msg ∈ (d.next S e).received) : msg ∈ d.received ∨ msg ∈ e.message := by
  cases e with
  | call => exact .inl h
  | receive msg' =>
    rw [Tile.next, Tile.receive] at h
    dsimp only at h
    have hmem : msg ∈ d.received ++ [msg'] := by
      split at h <;> exact h
    rcases List.mem_append.mp hmem with hold | hnew
    · exact .inl hold
    · exact .inr (List.mem_singleton.mp hnew ▸ rfl)
  | write => exact .inl h
  | topFrame => exact .inl h
  | subFrame => exact .inl h

end Tile

/-- Each message of a gesture says where the list should start. -/
theorem Table.isSome_pixelIndex {ι : Type} {t : Table ι} {g : Gesture} {msg : TableStateMessage}
    (h : t.gesture g = some msg) : msg.pixelIndex.isSome = true := by
  cases g with
  | tap x y =>
    rw [gesture, tap] at h
    split at h
    · cases h
    · exact Option.some.inj h ▸ rfl
  | scrollDown speed =>
    obtain ⟨_, -, rfl⟩ := Option.map_eq_some_iff.mp h
    rfl
  | scrollUp speed => exact Option.some.inj h ▸ rfl
  | swipeLeft speed => exact Option.some.inj h ▸ rfl
  | swipeRight speed => exact Option.some.inj h ▸ rfl
  | clap => cases h

namespace Wall

variable {κ ι : Type} [DecidableEq ι] [DecidableEq κ] {S : StdSort} {master : κ} {w : Wall κ ι}
  {e : WallEvent κ ι}

/-- **The invariant of the last message.** -/
structure LastPlaced (w : Wall κ ι) : Prop where
  /-- every message sent has a position -/
  sent : ∀ msg ∈ w.sent, msg.pixelIndex.isSome = true
  /-- what arrives was sent -/
  received : ∀ k, ∀ msg ∈ (w.tiles k).received, msg ∈ w.sent
  /-- the last message worked off has placed the table -/
  placed : ∀ k, (w.tiles k).Placed

theorem LastPlaced.next (h : w.LastPlaced) (hinv : w.TileInv S) (hdelivers : w.Delivers e) :
    (w.next S master e).LastPlaced := by
  cases e with
  | tile k e =>
    refine ⟨h.sent, fun k' => ?_, fun k' => ?_⟩
    · rw [Wall.next]
      dsimp only
      by_cases hsame : k' = k
      · subst hsame
        rw [Function.update_self]
        intro msg hmsg
        exact (Tile.mem_received_next hmsg).elim (h.received k' msg) (hdelivers.mem_sent msg)
      · rw [Function.update_of_ne hsame]
        exact h.received k'
    · rw [Wall.next]
      dsimp only
      by_cases hsame : k' = k
      · subst hsame
        rw [Function.update_self]
        exact (h.placed k').next (hinv k') fun hclear => by
          subst hclear
          exact hdelivers
      · rw [Function.update_of_ne hsame]
        exact h.placed k'
  | touch isTopTable input =>
    refine ⟨List.forall_mem_append.mpr ⟨h.sent, fun msg hmsg => ?_⟩, fun k msg hmsg => ?_,
      h.placed⟩
    · obtain ⟨g, -, hgesture⟩ := List.mem_filterMap.mp hmsg
      exact Table.isSome_pixelIndex hgesture
    · exact List.mem_append_left _ (h.received k msg hmsg)

/-- **The last message decides.** Whatever messages were lost, doubled or late for a tile: its
top-level table is where the last message that it worked off says, which is one that the master
has sent; or it has worked off none, and is where it began. -/
theorem position_of_last_message (h : (system S master).Reachable w) (k : κ) :
    ((w.tiles k).workedOff true = [] ∧ (w.tiles k).top.currentPixelIndex = 0) ∨
      ∃ msg ∈ w.sent, ((w.tiles k).workedOff true).getLast? = some msg ∧
        msg.pixelIndex = some (w.tiles k).top.currentPixelIndex := by
  obtain ⟨hlast, hinv⟩ : w.LastPlaced ∧ w.TileInv S := by
    refine h.invariant (I := fun w => w.LastPlaced ∧ w.TileInv S) ?_ ?_
    · intro w hinit
      refine ⟨⟨?_, fun k => ?_, fun k => ?_⟩, tileInv_of_init hinit⟩
      · rw [hinit.2.2]
        exact List.forall_mem_nil _
      · obtain ⟨heap, now, heq⟩ := hinit.1 k
        rw [heq]
        exact List.forall_mem_nil _
      · obtain ⟨heap, now, heq⟩ := hinit.1 k
        rw [heq]
        exact ⟨List.not_mem_nil, rfl⟩
    · rintro w e _ - ⟨hlast, hinv⟩ ⟨rfl, hdelivers⟩
      exact ⟨hlast.next hinv hdelivers, hinv.next e⟩
  have hposition := (hlast.placed k).position
  rw [lastPlace] at hposition
  cases hworked : ((w.tiles k).workedOff true).getLast? with
  | none =>
    rw [hworked] at hposition
    exact .inl ⟨List.getLast?_eq_none_iff.mp hworked, hposition⟩
  | some msg =>
    rw [hworked, Option.map_some, Option.getD_some] at hposition
    have hsent := hlast.received k msg ((hinv k).mem_received (List.mem_of_getLast? hworked))
    obtain ⟨p, hp⟩ := Option.isSome_iff_exists.mp (hlast.sent msg hsent)
    refine .inr ⟨msg, hsent, rfl, ?_⟩
    rw [hposition, TableStateMessage.place, hp, Option.getD_some]

/-! ## A touch that reaches another tile -/

/-- A table of the master that was just made. -/
def tableEntity (isTopTable : Bool) : EntityEvent :=
  { Gesturing.hundred with
    height := if isTopTable then tableTop else 100
    swipeEvent.seconds := 75 / 100 }

/-- Two tiles. -/
def twoTiles : Wall Bool ℕ where
  tiles _ := Tile.initial (fun _ =>
    { name := "a", key := "a", score := 1, hostName := "h", pid := "1", highlightNumber := -1,
      boids := [] }) 0
  entities := tableEntity
  sent := []

instance (w : Wall Bool ℕ) : DecidablePred w.Delivers
  | .tile _ (.receive msg) => inferInstanceAs (Decidable (msg ∈ w.sent))
  | .tile _ (.call .clear) => .isFalse id
  | .tile _ (.call (.add _)) => .isTrue trivial
  | .tile _ (.call (.remove _)) => .isTrue trivial
  | .tile _ (.write _ _ _ _) => .isTrue trivial
  | .tile _ (.topFrame _) => .isTrue trivial
  | .tile _ (.subFrame _) => .isTrue trivial
  | .touch _ _ => .isTrue trivial

instance (w : Wall Bool ℕ) (e : WallEvent Bool ℕ) :
    Decidable (RowsWithin true (fun _ => 2) w e) :=
  inferInstanceAs (Decidable (∀ isTopTable, ∀ n ∈ (w.masterTable true isTopTable).numItems, n ≤ 2))

/-- A touch moves over the master's top-level table, and the other tile hears of it. -/
def oneScroll : List (WallEvent Bool ℕ) :=
  [.touch true (.hit (Gesturing.touched 5 9 false)), .touch true .callbacks,
    .tile false (.receive
      { isTopTable := true, pixelIndex := some (51 / 20), selectedIndex := none, swipeLeft := none,
        swipeRight := none }),
    .tile false (.topFrame { now := 1, stray := fun _ _ => none })]

theorem reachable_oneScroll :
    ((system .insertion true).guarded (RowsWithin true fun _ => 2)).Reachable
      (oneScroll.foldl (next .insertion true) twoTiles) := by
  have hmeets : TransitionSystem.Meets (next .insertion true)
      (fun w e => w.Delivers e ∧ RowsWithin true (fun _ => 2) w e) twoTiles oneScroll := by
    decide +kernel
  have hstart : ((system .insertion true).guarded (RowsWithin true fun _ => 2)).Reachable
      twoTiles := by
    refine .start ⟨fun _ => ⟨_, _, rfl⟩, fun isTopTable => ?_, rfl⟩
    exact ⟨⟨rfl, rfl, rfl, rfl, rfl, rfl⟩, rfl, rfl, rfl, rfl, rfl, le_rfl, le_rfl⟩
  exact hstart.foldl hmeets fun _ _ hok => ⟨⟨rfl, hok.1⟩, hok.2⟩

theorem positions_within_list_oneScroll :
    ∃ w : Wall Bool ℕ, w.sent.length = 1 ∧ (w.tiles false).top.currentPixelIndex = 51 / 20 ∧
      Table.WithinList 2 true (w.tiles false).top.currentPixelIndex :=
  ⟨_, by decide +kernel, by decide +kernel,
    ((positions_within_list reachable_oneScroll).2 false).1⟩

theorem position_of_last_message_oneScroll :
    ∃ w : Wall Bool ℕ, ((w.tiles false).workedOff true).length = 1 ∧
      (((w.tiles false).workedOff true = [] ∧ (w.tiles false).top.currentPixelIndex = 0) ∨
        ∃ msg ∈ w.sent, ((w.tiles false).workedOff true).getLast? = some msg ∧
          msg.pixelIndex = some (w.tiles false).top.currentPixelIndex) :=
  ⟨_, by decide +kernel, position_of_last_message reachable_oneScroll.of_guarded false⟩

end Wall

end WallMon
