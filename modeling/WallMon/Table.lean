import Mathlib.Algebra.Order.Field.Rat
import Mathlib.Algebra.Order.Floor.Defs
import Mathlib.Data.Char
import Mathlib.Data.Int.Basic
import Mathlib.Data.List.Lex
import Mathlib.Data.List.Sort
import Mathlib.Data.Rat.Floor
import Mathlib.Logic.Function.Basic

/-!
# The process table: `Table::OnLoop`

A display shows processes in two tables: the top-level table has a group of items for
each process name, the sub-table the items of the group selected there. Calls of `Add`,
`Remove` and `Clear` wait in two queues, and messages about touches in a third; a frame
(`OnLoop`) works off the messages, then the removals, then the additions. A message that
names a row that is not there makes `OnLoop` return at once.

`ι` is the type of pointers to table items; `heap` holds the items. Floating-point
numbers are rational here. A read of a group that is not there yields a pointer given
from outside, and the size of such a group is 0. `std::sort` is the parameter `StdSort`.
-/

namespace WallMon

/-! ## Sorting -/

/-- A strict weak order, as `std::sort` asks for. -/
structure StrictWeak {α : Type} (lt : α → α → Bool) : Prop where
  /-- nothing is below itself -/
  irrefl : ∀ a, lt a a = false
  /-- being below is transitive -/
  trans : ∀ {a b c}, lt a b = true → lt b c = true → lt a c = true
  /-- not being above is transitive -/
  incomp : ∀ {a b c}, lt b a = false → lt c b = false → lt c a = false

/-- Comparing by a value is a strict weak order. -/
theorem strictWeak_of_value {α β : Type} [LinearOrder β] (value : α → β) {lt : α → α → Bool}
    (hlt : ∀ a b, lt a b = true ↔ value a < value b) : StrictWeak lt where
  irrefl a := by simp [Bool.eq_false_iff, hlt]
  trans hab hbc := by
    rw [hlt] at hab hbc ⊢
    exact hab.trans hbc
  incomp hab hbc := by
    rw [Bool.eq_false_iff, ne_eq, hlt, not_lt] at hab hbc ⊢
    exact hab.trans hbc

/-- The order the other way round -/
theorem StrictWeak.flip {α : Type} {lt : α → α → Bool} (h : StrictWeak lt) :
    StrictWeak fun a b => lt b a where
  irrefl := h.irrefl
  trans hab hbc := h.trans hbc hab
  incomp hab hbc := h.incomp hbc hab

/-- `std::sort`: a sorted permutation; what happens to equal elements is not said. -/
structure StdSort where
  /-- sort by a comparison -/
  sort : {α : Type} → (α → α → Bool) → List α → List α
  /-- the elements are the same -/
  perm : ∀ {α : Type} {lt : α → α → Bool}, StrictWeak lt → ∀ l : List α, (sort lt l).Perm l
  /-- the result is sorted -/
  sorted : ∀ {α : Type} {lt : α → α → Bool}, StrictWeak lt → ∀ l : List α,
    (sort lt l).Pairwise fun a b => lt b a = false

/-- Insertion sort is a `std::sort`. -/
def StdSort.insertion : StdSort where
  sort lt l := l.insertionSort fun a b => lt b a = false
  perm _ l := List.perm_insertionSort _ l
  sorted := by
    intro α lt h l
    have : Std.Total fun a b : α => lt b a = false := by
      refine ⟨fun a b => ?_⟩
      cases hab : lt a b with
      | false => exact .inr rfl
      | true =>
        cases hba : lt b a with
        | false => exact .inl rfl
        | true => exact absurd (h.trans hab hba) (by simp [h.irrefl])
    have : IsTrans α fun a b => lt b a = false := ⟨fun _ _ _ hab hbc => h.incomp hab hbc⟩
    exact List.pairwise_insertionSort _ l

/-! ## Data -/

/-- The fields of a `BoidSharedContext` that the table changes. -/
structure BoidSharedContext where
  /-- `_isHighlighted` -/
  isHighlighted : Bool
  /-- `_highlightNumber` -/
  highlightNumber : ℤ

/-- `BoidSharedContext::EnableHighlight` -/
def BoidSharedContext.enableHighlight (number : ℤ) (_ : BoidSharedContext) : BoidSharedContext :=
  { isHighlighted := true, highlightNumber := number }

/-- `BoidSharedContext::DisableHighlight` -/
def BoidSharedContext.disableHighlight (boid : BoidSharedContext) : BoidSharedContext :=
  { boid with isHighlighted := false }

/-- An item: a process, as far as the table uses it. -/
structure TableItem where
  /-- history: the process name that it was made with -/
  name : String
  /-- `key`: at first its name, later maybe in lower case -/
  key : String
  /-- `_score` -/
  score : ℚ
  /-- `_hostName` -/
  hostName : String
  /-- `_pid` -/
  pid : String
  /-- `highlightNumber` -/
  highlightNumber : ℤ
  /-- `_boids` -/
  boids : List BoidSharedContext

/-- What tiles tell each other about touches. -/
structure TableStateMessage where
  /-- which of the two tables was touched -/
  isTopTable : Bool
  /-- where its list starts -/
  pixelIndex : Option ℚ
  /-- the row that was tapped -/
  selectedIndex : Option ℤ
  /-- the speed of a swipe -/
  swipeLeft : Option ℚ
  /-- the speed of a swipe -/
  swipeRight : Option ℚ
  deriving DecidableEq

/-- A call of a table's interface by another part of the program. -/
inductive TableCall (ι : Type) where
  /-- `Add` -/
  | add (item : ι)
  /-- `Remove` -/
  | remove (item : ι)
  /-- `Clear` -/
  | clear
  deriving DecidableEq

/-- A table. -/
structure Table (ι : Type) where
  /-- `_isTopLevelTable` -/
  isTopLevelTable : Bool
  /-- `_items`: the groups of items -/
  items : List (List ι)
  /-- `_currentPixelIndex` -/
  currentPixelIndex : ℚ
  /-- `_selectedItemIndex` -/
  selectedItemIndex : ℤ
  /-- `_processTerminationIndex` -/
  processTerminationIndex : ℤ
  /-- `_isHighlighted` -/
  isHighlighted : Bool
  /-- `_addQueue` -/
  addQueue : List ι
  /-- `_removeQueue`; `none` is the null pointer that stands for all items -/
  removeQueue : List (Option ι)
  /-- the queue of the synchronizer for this table -/
  stateQueue : List TableStateMessage
  /-- `_startTimestamp` -/
  startTimestamp : ℚ
  /-- `_startupSortDone` -/
  startupSortDone : Bool

/-- What a frame finds outside of the table. -/
structure FrameInput (ι : Type) where
  /-- the time in seconds -/
  now : ℚ
  /-- what reading the first item of a group that is not there yields -/
  stray : List (List ι) → ℤ → Option ι

/-- The state within a frame. -/
structure LoopState (ι : Type) where
  /-- the items -/
  heap : ι → TableItem
  /-- the table -/
  table : Table ι
  /-- the calls made to the sub-table so far -/
  subCalls : List (TableCall ι)
  /-- host and pid in the calls of `_TerminateProcess` so far -/
  terminated : List (String × String)

namespace Table

variable {ι : Type}

/-- `Table::Table`; the fields that only one kind of table initialises are set here for
both. -/
def new (isTopLevelTable : Bool) (now : ℚ) : Table ι where
  isTopLevelTable := isTopLevelTable
  items := []
  currentPixelIndex := 0
  selectedItemIndex := -1
  processTerminationIndex := -1
  isHighlighted := false
  addQueue := []
  removeQueue := []
  stateQueue := []
  startTimestamp := now
  startupSortDone := false

/-- `Table::Add`, `Table::Remove` and `Table::Clear` -/
def call (t : Table ι) : TableCall ι → Table ι
  | .add item => { t with addQueue := t.addQueue ++ [item] }
  | .remove item => { t with removeQueue := t.removeQueue ++ [some item] }
  | .clear => { t with removeQueue := t.removeQueue ++ [none] }

/-- A message for this table arrives from the synchronizer. -/
def receive (t : Table ι) (msg : TableStateMessage) : Table ι :=
  { t with stateQueue := t.stateQueue ++ [msg] }

/-! ## Rows -/

/-- `_TableItemToIndex` -/
def tableItemToIndex [DecidableEq ι] (items : List (List ι)) : Option ι → ℤ
  | none => 0
  | some item => (items.findIdx? (·.head? = some item)).getD 0

/-- `_LookupItemGroup` -/
def lookupItemGroup (heap : ι → TableItem) (items : List (List ι)) (itemKey : String) : Option ℕ :=
  items.findIdx? fun group => group.head?.any fun item => (heap item).key = itemKey

/-- Taking a new item in: to the group with its key, else as a group of its own. -/
def addItem (heap : ι → TableItem) (item : ι) (items : List (List ι)) : List (List ι) :=
  match lookupItemGroup heap items (heap item).key with
  -- keys that a sort by name turned to lower case match no new item in upper case
  | none => items ++ [[item]]
  | some i => items.modify i (· ++ [item])

/-- Erasing `_items[i][j]`, and the group with it if it was the last of its group. -/
def eraseAt (items : List (List ι)) (i j : ℕ) : List (List ι) :=
  let group := (items.getD i []).eraseIdx j
  if group = [] then items.eraseIdx i else items.set i group

/-- The inner removal loop: `j` counts on, also over what took the place of what was
erased, up to the size that `_items[i]` has then. -/
def removeInGroup [DecidableEq ι] (item : ι) (i : ℕ) : ℕ → ℕ → List (List ι) → List (List ι)
  | 0, _, items => items
  | fuel + 1, j, items =>
    match (items.getD i [])[j]? with
    | none => items
    | some x =>
      -- when the group itself was erased, `_items[i]` is the next group from here on
      removeInGroup item i fuel (j + 1) (if item = x then eraseAt items i j else items)

/-- The outer removal loop. No group has more items than there are. -/
def removeFrom [DecidableEq ι] (item : ι) : ℕ → ℕ → List (List ι) → List (List ι)
  | 0, _, items => items
  | fuel + 1, i, items =>
    if i < items.length then
      removeFrom item fuel (i + 1) (removeInGroup item i items.flatten.length 0 items)
    else items

/-- Removing an item. There are no more rounds than groups. -/
def removeItem [DecidableEq ι] (item : ι) (items : List (List ι)) : List (List ι) :=
  removeFrom item items.length 0 items

/-! ## Comparing groups -/

/-- The key of a group's first item. -/
def groupKey (heap : ι → TableItem) (group : List ι) : String :=
  (group.head?.map fun item => (heap item).key).getD ""

/-- `TableGroupCompareAlphabetically::ToLower`: `tolower` of each character -/
def toLower (s : String) : String :=
  String.ofList (s.toList.map Char.toLower)

/-- `TableGroupCompareAlphabetically`, once the keys are in lower case. -/
def compareAlphabetically (heap : ι → TableItem) (a b : List ι) : Bool :=
  decide ((groupKey heap a).toList < (groupKey heap b).toList)

/-- The score that `TableGroupCompareUtilization` gives a group: the average of its
items, and 3% of it for each item. -/
def groupScore (heap : ι → TableItem) (group : List ι) : ℚ :=
  let score := (group.map fun item => (heap item).score).sum / group.length
  score + score * (3 / 100) * group.length

/-- `TableGroupCompareUtilization` -/
def compareUtilization (heap : ι → TableItem) (a b : List ι) : Bool :=
  decide (groupScore heap b < groupScore heap a)

end Table

namespace LoopState

variable {ι : Type} [DecidableEq ι]

/-- `_HighlightBoids` -/
def highlightBoids (s : LoopState ι) (group : List ι) : LoopState ι :=
  { s with
    heap := group.zipIdx.foldl (fun heap (item, i) => Function.update heap item
      { heap item with
        highlightNumber := i
        boids := (heap item).boids.map (·.enableHighlight i) }) s.heap }

/-- `_UnHighlightBoids` -/
def unHighlightBoids (s : LoopState ι) (group : List ι) : LoopState ι :=
  { s with
    heap := group.foldl (fun heap item => Function.update heap item
      { heap item with
        highlightNumber := -1
        boids := (heap item).boids.map (·.disableHighlight) }) s.heap }

/-- What `TableGroupCompareAlphabetically` does to the items: sorting two groups or
more compares each, and comparing changes the keys of the first items to lower case. -/
def lowerKeys (s : LoopState ι) : LoopState ι :=
  if s.table.items.length < 2 then s
  else { s with
    heap := (s.table.items.filterMap List.head?).foldl (fun heap item => Function.update heap item
      { heap item with key := Table.toLower (heap item).key }) s.heap }

/-- What the two sorting functions share: sort the groups, and keep the group selected
whose first item was the first item of the group selected before. -/
def sortTable (S : StdSort) (stray : List (List ι) → ℤ → Option ι)
    (compare : List ι → List ι → Bool) (s : LoopState ι) : LoopState ι :=
  let t := s.table
  let items := S.sort compare t.items
  if t.selectedItemIndex > -1 then
    let selected := match t.items[t.selectedItemIndex.toNat]? with
      | some group => group.head?
      | none => stray t.items t.selectedItemIndex
    { s with table := { t with
        items := items
        selectedItemIndex := Table.tableItemToIndex items selected } }
  else { s with table := { t with items := items } }

/-- `_SortTableAlphabetically` -/
def sortTableAlphabetically (S : StdSort) (stray : List (List ι) → ℤ → Option ι)
    (s : LoopState ι) : LoopState ι :=
  s.lowerKeys.sortTable S stray (Table.compareAlphabetically s.lowerKeys.heap)

/-- `_SortTableScore` -/
def sortTableScore (S : StdSort) (stray : List (List ι) → ℤ → Option ι)
    (s : LoopState ι) : LoopState ι :=
  s.sortTable S stray (Table.compareUtilization s.heap)

/-! ## State messages -/

/-- A row was tapped; `none` where `OnLoop` returns. -/
def selectRow (s : LoopState ι) (idx : ℤ) : Option (LoopState ι) :=
  if s.table.isTopLevelTable then
    if idx < 0 then none
    else match s.table.items[idx.toNat]? with
      | none => none
      | some group =>
        if idx = s.table.selectedItemIndex then
          -- a second tap ends the selection
          some { s with
            table := { s.table with selectedItemIndex := -1 }
            subCalls := s.subCalls ++ [.clear] }
        else
          some { s with
            table := { s.table with selectedItemIndex := idx }
            subCalls := s.subCalls ++ .clear :: group.map .add }
  else
    match s.table.items with
    | [] => none
    | group :: _ =>
      if idx < 0 then none
      else match group[idx.toNat]? with
        | none => none
        | some item =>
          some { s with
            table := { s.table with processTerminationIndex := idx }
            terminated := s.terminated ++ [((s.heap item).hostName, (s.heap item).pid)] }

/-- A swipe over the top-level table sorts it. -/
def swipeTop (S : StdSort) (stray : List (List ι) → ℤ → Option ι) (s : LoopState ι)
    (msg : TableStateMessage) : LoopState ι :=
  let s := if msg.swipeLeft.isSome then s.sortTableAlphabetically S stray else s
  if msg.swipeRight.isSome then s.sortTableScore S stray else s

/-- A swipe over the sub-table highlights its items or ends that; `none` where `OnLoop`
returns. -/
def swipeSub (s : LoopState ι) (msg : TableStateMessage) : Option (LoopState ι) :=
  if msg.swipeLeft.isSome || msg.swipeRight.isSome then
    match s.table.items with
    | [] => none
    | group :: _ =>
      if s.table.isHighlighted then
        let s := s.unHighlightBoids group
        some { s with table := { s.table with isHighlighted := false } }
      else
        let s := s.highlightBoids group
        some { s with table := { s.table with isHighlighted := true } }
  else some s

/-- One state message, and whether `OnLoop` returns at it. -/
def handleMessage (S : StdSort) (stray : List (List ι) → ℤ → Option ι) (s : LoopState ι)
    (msg : TableStateMessage) : LoopState ι × Bool :=
  let s := { s with table := { s.table with currentPixelIndex := msg.pixelIndex.getD 0 } }
  -- a row that is not there makes `OnLoop` return before the swipes and the queues
  match (match msg.selectedIndex with
    | some idx => s.selectRow idx
    | none => some s) with
  | none => (s, true)
  | some s =>
    if s.table.isTopLevelTable then (s.swipeTop S stray msg, false)
    else match s.swipeSub msg with
      | none => (s, true)
      | some s => (s, false)

/-- A state message was taken from the queue, where these are left. -/
def pop (s : LoopState ι) (queue : List TableStateMessage) : LoopState ι :=
  { s with table := { s.table with stateQueue := queue } }

/-- The loop over the state messages. -/
def processMessages (S : StdSort) (stray : List (List ι) → ℤ → Option ι) :
    List TableStateMessage → LoopState ι → LoopState ι × Bool
  | [], s => (s, false)
  | msg :: queue, s =>
    match (s.pop queue).handleMessage S stray msg with
    | (s, true) => (s, true)
    | (s, false) => processMessages S stray queue s

/-! ## Removals and additions -/

/-- One removal: of all items or of one. -/
def removal (s : LoopState ι) : Option ι → LoopState ι
  | none =>
    let s := s.table.items.foldl unHighlightBoids s
    { s with table := { s.table with
        items := []
        currentPixelIndex := 0
        selectedItemIndex := -1
        processTerminationIndex := -1 } }
  | some item => { s with table := { s.table with items := Table.removeItem item s.table.items } }

/-- One addition. -/
def addition (s : LoopState ι) (item : ι) : LoopState ι :=
  { s with table := { s.table with items := Table.addItem s.heap item s.table.items } }

/-- The loops that empty the two queues. -/
def drain (s : LoopState ι) : LoopState ι :=
  let s := s.table.removeQueue.foldl removal
    { s with table := { s.table with removeQueue := [] } }
  s.table.addQueue.foldl addition { s with table := { s.table with addQueue := [] } }

/-- The score sort once the display has run for two seconds. -/
def startupSort (S : StdSort) (o : FrameInput ι) (s : LoopState ι) : LoopState ι :=
  if s.table.startupSortDone = false ∧ o.now - s.table.startTimestamp > 2 then
    sortTableScore S o.stray { s with table := { s.table with startupSortDone := true } }
  else s

end LoopState

/-- `Table::OnLoop` -/
def Table.onLoop {ι : Type} [DecidableEq ι] (S : StdSort) (heap : ι → TableItem) (t : Table ι)
    (o : FrameInput ι) : LoopState ι :=
  match LoopState.processMessages S o.stray t.stateQueue
    { heap := heap, table := t, subCalls := [], terminated := [] } with
  | (s, true) => s
  | (s, false) => s.drain.startupSort S o

end WallMon
