import WallMon.Grouping
import WallMon.Replicas
import WallMon.TableCalls

/-!
# The groups of a table

A table keeps the items of one process name in one group. A new item finds its group by
the key of the group's first item, and a sort by name turns these keys to lower case. So
the groups stay apart exactly as long as each new item whose name a group has already
finds the key of that group's first item as it is itself (`onLoop_separated_iff`,
`grouped_of_additionsLand`).
-/

namespace WallMon

/-! ## A new item -/

namespace Table

variable {ι : Type} {heap : ι → TableItem} {item : ι} {items : List (List ι)}

/-- The first item of a group has a key. -/
def hasKey (heap : ι → TableItem) (itemKey : String) (group : List ι) : Bool :=
  group.head?.any fun item => (heap item).key = itemKey

/-- If a group has the name of a new item, then its first item has the key of the new one,
and that of no group before it has. -/
def Lands (heap : ι → TableItem) (items : List (List ι)) (item : ι) : Prop :=
  ∀ i, (∃ x ∈ items.getD i [], (heap x).name = (heap item).name) →
    hasKey heap (heap item).key (items.getD i []) = true ∧
      ∀ j < i, hasKey heap (heap item).key (items.getD j []) = false

instance : Decidable (Lands heap items item) :=
  decidable_of_iff (∀ i < items.length,
    (∃ x ∈ items.getD i [], (heap x).name = (heap item).name) →
      hasKey heap (heap item).key (items.getD i []) = true ∧
        ∀ j < i, hasKey heap (heap item).key (items.getD j []) = false) <| by
    refine forall_congr' fun i => ⟨fun h hi => ?_, fun h _ => h⟩
    exact h (lt_of_mem_getD hi.choose_spec.1) hi

/-- Only a group that is there has a key. -/
theorem lt_of_hasKey {itemKey : String} {i : ℕ} (h : hasKey heap itemKey (items.getD i []) = true) :
    i < items.length := by
  by_contra hge
  rw [List.getD_eq_default _ _ (not_lt.mp hge)] at h
  cases h

/-- What is found for a key. -/
theorem lookupItemGroup_eq_some {itemKey : String} {i : ℕ}
    (h : lookupItemGroup heap items itemKey = some i) :
    i < items.length ∧ hasKey heap itemKey (items.getD i []) = true ∧
      ∀ j < i, hasKey heap itemKey (items.getD j []) = false := by
  obtain ⟨hi, hkey, hbefore⟩ := List.findIdx?_eq_some_iff_getElem.mp h
  refine ⟨hi, by rwa [List.getD_eq_getElem _ _ hi], fun j hj => ?_⟩
  rw [List.getD_eq_getElem _ _ (hj.trans hi)]
  exact Bool.eq_false_iff.mpr (hbefore j hj)

theorem lookupItemGroup_eq_none {itemKey : String}
    (h : lookupItemGroup heap items itemKey = none) (i : ℕ) :
    hasKey heap itemKey (items.getD i []) = false := by
  refine Bool.eq_false_iff.mpr fun hkey => ?_
  have hi := lt_of_hasKey hkey
  rw [List.getD_eq_getElem _ _ hi] at hkey
  exact absurd hkey (Bool.eq_false_iff.mp (List.findIdx?_eq_none_iff.mp h _ (List.getElem_mem hi)))

/-- **A new item** keeps the groups apart exactly if it lands in the group of its name. -/
theorem separated_addItem_iff :
    Separated (fun x => (heap x).name) (addItem heap item items) ↔
      Separated (fun x => (heap x).name) items ∧ Lands heap items item := by
  rw [addItem]
  cases hlookup : lookupItemGroup heap items (heap item).key with
  | none =>
    rw [separated_snoc_iff]
    refine and_congr_right fun _ => ⟨fun hnew i hi => ?_, fun hlands i x hx heq => ?_⟩
    · obtain ⟨x, hx, heq⟩ := hi
      exact absurd heq (hnew i x hx)
    · have hkey := (hlands i ⟨x, hx, heq⟩).1
      rw [lookupItemGroup_eq_none hlookup i] at hkey
      cases hkey
  | some k =>
    obtain ⟨hk, hkey, hbefore⟩ := lookupItemGroup_eq_some hlookup
    dsimp only
    rw [separated_modify_iff hk]
    refine and_congr_right fun _ => ⟨fun hnew i hi => ?_, fun hlands i x hx heq => ?_⟩
    · obtain ⟨x, hx, heq⟩ := hi
      obtain rfl := hnew i x hx heq
      exact ⟨hkey, hbefore⟩
    · -- both are the first group with the key
      obtain ⟨hkey', hbefore'⟩ := hlands i ⟨x, hx, heq⟩
      rcases Nat.lt_trichotomy i k with hik | hik | hik
      · exact absurd hkey' (Bool.eq_false_iff.mp (hbefore i hik))
      · exact hik
      · exact absurd hkey (Bool.eq_false_iff.mp (hbefore' k hik))

/-- Erasing keeps groups apart. -/
theorem separated_eraseAt {κ : Type} {name : ι → κ} (h : Separated name items) (i j : ℕ) :
    Separated name (eraseAt items i j) := by
  rw [eraseAt]
  split
  · exact h.sublist (List.eraseIdx_sublist ..)
  · exact h.set fun x hx => List.mem_of_mem_eraseIdx hx

/-- **Removing an item** keeps groups apart. -/
theorem separated_removeItem [DecidableEq ι] {κ : Type} {name : ι → κ} (h : Separated name items)
    (item : ι) : Separated name (removeItem item items) :=
  removeItem_preserves (fun _ i j _ hitems => separated_eraseAt hitems i j) h

end Table

/-! ## What a frame writes to the items -/

namespace LoopState

variable {ι : Type} [DecidableEq ι] {s s' : LoopState ι} {P : (ι → TableItem) → Prop}

/-- What the writes of a table to the items keep. -/
structure KeptByWrites (P : (ι → TableItem) → Prop) : Prop where
  /-- highlighting or its end -/
  highlight : ∀ heap item highlightNumber boids, P heap →
    P (Function.update heap item { heap item with highlightNumber, boids })
  /-- a key is turned to lower case -/
  lowerKey : ∀ heap item, P heap →
    P (Function.update heap item { heap item with key := Table.toLower (heap item).key })

/-- What is read of the other fields stays. -/
theorem keptByWrites_field {α : Type} (field : TableItem → α)
    (hhighlight : ∀ item highlightNumber boids,
      field { item with highlightNumber, boids } = field item)
    (hkey : ∀ item key, field { item with key } = field item) (value : ι → α) :
    KeptByWrites fun heap : ι → TableItem => ∀ x, field (heap x) = value x where
  highlight heap item highlightNumber boids h x := by
    rw [Function.update_apply]
    split
    · next heq => rw [hhighlight, h item, heq]
    · exact h x
  lowerKey heap item h x := by
    rw [Function.update_apply]
    split
    · next heq => rw [hkey, h item, heq]
    · exact h x

/-- The names of the items stay. -/
theorem keptByWrites_names (name : ι → String) :
    KeptByWrites fun heap : ι → TableItem => ∀ x, (heap x).name = name x :=
  keptByWrites_field (·.name) (fun _ _ _ => rfl) (fun _ _ => rfl) name

namespace KeptByWrites

theorem highlightBoids (hP : KeptByWrites P) (group : List ι) (h : P s.heap) :
    P (s.highlightBoids group).heap :=
  List.foldlRecOn _ _ h fun heap hheap _ _ => hP.highlight heap _ _ _ hheap

theorem unHighlightBoids (hP : KeptByWrites P) (group : List ι) (h : P s.heap) :
    P (s.unHighlightBoids group).heap :=
  List.foldlRecOn _ _ h fun heap hheap _ _ => hP.highlight heap _ _ _ hheap

theorem sortTable {S : StdSort} {stray : List (List ι) → ℤ → Option ι}
    {compare : List ι → List ι → Bool} (h : P s.heap) : P (s.sortTable S stray compare).heap := by
  rw [LoopState.sortTable]
  split <;> exact h

theorem lowerKeys (hP : KeptByWrites P) (h : P s.heap) : P s.lowerKeys.heap := by
  rw [LoopState.lowerKeys]
  split
  · exact h
  · exact List.foldlRecOn _ _ h fun heap hheap _ _ => hP.lowerKey heap _ hheap

omit [DecidableEq ι] in
theorem selectRow {idx : ℤ} (h : P s.heap) (hselect : s.selectRow idx = some s') : P s'.heap := by
  cases LoopState.selectsRow_of_selectRow hselect with
  | deselect => exact h
  | select => exact h
  | terminate => exact h

theorem swipeTop (hP : KeptByWrites P) {S : StdSort} {stray : List (List ι) → ℤ → Option ι}
    (msg : TableStateMessage) (h : P s.heap) : P (s.swipeTop S stray msg).heap :=
  swipeTop_preserves (I := fun s => P s.heap) (fun _ => hP.lowerKeys) (fun _ _ _ => sortTable) h
    msg

theorem swipeSub (hP : KeptByWrites P) {msg : TableStateMessage} (h : P s.heap)
    (hswipe : s.swipeSub msg = some s') : P s'.heap := by
  rw [LoopState.swipeSub] at hswipe
  split at hswipe
  · split at hswipe
    · cases hswipe
    · split at hswipe
      · obtain rfl := Option.some.inj hswipe
        exact hP.unHighlightBoids _ h
      · obtain rfl := Option.some.inj hswipe
        exact hP.highlightBoids _ h
  · obtain rfl := Option.some.inj hswipe
    exact h

theorem handleMessage (hP : KeptByWrites P) (S : StdSort)
    (stray : List (List ι) → ℤ → Option ι) (msg : TableStateMessage) (h : P s.heap) :
    P (s.handleMessage S stray msg).1.heap :=
  handleMessage_preserves (I := fun s => P s.heap) (fun _ _ => id) (fun _ _ _ => selectRow)
    (fun _ msg => hP.swipeTop msg) (fun _ _ _ => hP.swipeSub) h msg

theorem processMessages (hP : KeptByWrites P) (S : StdSort)
    (stray : List (List ι) → ℤ → Option ι) (queue : List TableStateMessage) (h : P s.heap) :
    P (processMessages S stray queue s).1.heap :=
  processMessages_preserves (I := fun s => P s.heap) (fun _ _ => id)
    (fun _ msg => hP.handleMessage S stray msg) h queue

theorem removal (hP : KeptByWrites P) (removal : Option ι) (h : P s.heap) :
    P (s.removal removal).heap := by
  cases removal with
  | none =>
    refine List.foldlRecOn (motive := fun s : LoopState ι => P s.heap) s.table.items _ h ?_
    exact fun s hs group _ => hP.unHighlightBoids group hs
  | some item => exact h

theorem startupSort {S : StdSort} {o : FrameInput ι} (h : P s.heap) :
    P (s.startupSort S o).heap := by
  rw [LoopState.startupSort]
  split
  · exact sortTable h
  · exact h

end KeptByWrites

/-! ## Emptying the queues -/

/-- The loop over the removals, and the queue of additions taken out. -/
def removals (s : LoopState ι) : LoopState ι :=
  let s := s.table.removeQueue.foldl removal
    { s with table := { s.table with removeQueue := [] } }
  { s with table := { s.table with addQueue := [] } }

/-- The loop over the additions: each item with the state before it comes in. -/
def additions : List ι → LoopState ι → List (LoopState ι × ι)
  | [], _ => []
  | item :: queue, s => (s, item) :: additions queue (s.addition item)

/-- Removals leave the calls that wait. -/
theorem foldl_removal_queues (removals : List (Option ι)) (s : LoopState ι) :
    (removals.foldl removal s).table.addQueue = s.table.addQueue ∧
      (removals.foldl removal s).table.removeQueue = s.table.removeQueue := by
  induction removals generalizing s with
  | nil => exact ⟨rfl, rfl⟩
  | cons r removals ih =>
    obtain ⟨hadd, hremove⟩ := removal_queues s r
    exact ⟨(ih _).1.trans hadd, (ih _).2.trans hremove⟩

/-- Emptying the queues: first the removals, then the additions. -/
theorem drain_eq (s : LoopState ι) : s.drain = s.table.addQueue.foldl addition s.removals := by
  have hqueue := (foldl_removal_queues s.table.removeQueue
    { s with table := { s.table with removeQueue := [] } }).1
  rw [drain, removals]
  dsimp only at hqueue ⊢
  rw [hqueue]

/-- What every removal keeps, removals keep. -/
theorem removals_preserves {P : LoopState ι → Prop}
    (hqueues : ∀ s addQueue removeQueue, P s →
      P { s with table := { s.table with addQueue, removeQueue } })
    (hremoval : ∀ s removal, P s → P (s.removal removal)) {s : LoopState ι} (h : P s) :
    P s.removals := by
  have hloop : ∀ (removals : List (Option ι)) s, P s → P (removals.foldl removal s) := by
    intro removals
    induction removals with
    | nil => exact fun _ => id
    | cons r removals ih => exact fun s hs => ih _ (hremoval s r hs)
  exact hqueues _ _ _ (hloop _ _ (hqueues s _ _ h))

/-- And what every addition keeps too, emptying the queues keeps. -/
theorem drain_preserves {P : LoopState ι → Prop}
    (hqueues : ∀ s addQueue removeQueue, P s →
      P { s with table := { s.table with addQueue, removeQueue } })
    (hremoval : ∀ s removal, P s → P (s.removal removal))
    (haddition : ∀ s item, P s → P (s.addition item)) {s : LoopState ι} (h : P s) :
    P s.drain := by
  rw [drain_eq]
  refine List.foldlRecOn _ addition (removals_preserves hqueues hremoval h) ?_
  exact fun s' hs' item _ => haddition s' item hs'

theorem KeptByWrites.drain (hP : KeptByWrites P) (h : P s.heap) : P s.drain.heap :=
  drain_preserves (P := fun s => P s.heap) (fun _ _ _ => id) (fun _ r hs => hP.removal r hs)
    (fun _ _ => id) h

/-- **A frame** keeps of the items what its writes keep. -/
theorem KeptByWrites.onLoop (hP : KeptByWrites P) {S : StdSort} {heap : ι → TableItem} (h : P heap)
    (t : Table ι) (o : FrameInput ι) : P (t.onLoop S heap o).heap := by
  have hmessages := hP.processMessages S o.stray t.stateQueue (s := Tile.loopState heap t) h
  rw [Tile.onLoop_eq]
  split
  · next s heq =>
    rw [heq] at hmessages
    exact hmessages
  · next s heq =>
    rw [heq] at hmessages
    exact startupSort (hP.drain hmessages)

/-- Removals keep groups apart. -/
theorem separated_removals {κ : Type} {name : ι → κ} (h : Separated name s.table.items) :
    Separated name s.removals.table.items := by
  refine removals_preserves (P := fun s' => Separated name s'.table.items) (fun _ _ _ => id)
    (fun s' removal h' => ?_) h
  cases removal with
  | none => exact separated_nil
  | some item => exact Table.separated_removeItem h' item

omit [DecidableEq ι] in
/-- **The loop over the additions** keeps the groups apart exactly if each new item lands
in the group of its name. -/
theorem separated_foldl_addition_iff (items : List ι) {s : LoopState ι} {name : ι → String}
    (hname : ∀ x, (s.heap x).name = name x) :
    Separated name (items.foldl addition s).table.items ↔ Separated name s.table.items ∧
      ∀ p ∈ additions items s, Table.Lands p.1.heap p.1.table.items p.2 := by
  obtain rfl : name = fun x => (s.heap x).name := funext fun x => (hname x).symm
  induction items generalizing s with
  | nil => simp [additions]
  | cons item items ih =>
    have hfirst : Separated (fun x => (s.heap x).name) (s.addition item).table.items ↔
        Separated (fun x => (s.heap x).name) s.table.items ∧
          Table.Lands s.heap s.table.items item := Table.separated_addItem_iff
    have hrest : Separated (fun x => (s.heap x).name)
        ((item :: items).foldl addition s).table.items ↔ _ := ih (s := s.addition item) hname
    rw [hrest, additions, List.forall_mem_cons, ← and_assoc]
    exact and_congr_left fun _ => hfirst

end LoopState

namespace Table

variable {ι : Type} [DecidableEq ι]

/-- The additions of a frame, each item with the state before it comes in. -/
def frameAdditions (S : StdSort) (heap : ι → TableItem) (t : Table ι) (o : FrameInput ι) :
    List (LoopState ι × ι) :=
  match LoopState.processMessages S o.stray t.stateQueue (Tile.loopState heap t) with
  | (_, true) => []
  | (s, false) => LoopState.additions s.table.addQueue s.removals

/-- **A frame** keeps the groups apart exactly if each new item lands in the group of its
name. -/
theorem onLoop_separated_iff {S : StdSort} {heap : ι → TableItem} {t : Table ι}
    {name : ι → String} (hname : ∀ x, (heap x).name = name x) (h : Separated name t.items)
    (o : FrameInput ι) :
    Separated name (t.onLoop S heap o).table.items ↔
      ∀ p ∈ t.frameAdditions S heap o, Lands p.1.heap p.1.table.items p.2 := by
  have hnames := (LoopState.keptByWrites_names name).processMessages S o.stray t.stateQueue
    (s := Tile.loopState heap t) hname
  have hrows := (LoopState.processMessages_sameItems S o.stray t.stateQueue
    (Tile.loopState heap t)).rows
  rw [Tile.onLoop_eq, frameAdditions]
  generalize LoopState.processMessages S o.stray t.stateQueue (Tile.loopState heap t) = result
    at hnames hrows
  obtain ⟨s, returns⟩ := result
  have hs : Separated name s.table.items := h.perm hrows
  cases returns with
  | true => simpa using hs
  | false =>
    have hsorted := (LoopState.startupSort_rearranges (S := S) o s.drain).rows
    have hremovals : ∀ x, (s.removals.heap x).name = name x :=
      LoopState.removals_preserves (P := fun s => ∀ x, (s.heap x).name = name x)
        (fun _ _ _ => id) (fun _ r hs' => (LoopState.keptByWrites_names name).removal r hs') hnames
    have hdrain := LoopState.separated_foldl_addition_iff s.table.addQueue hremovals
    rw [← LoopState.drain_eq] at hdrain
    dsimp only
    refine ⟨?_, ?_⟩
    · exact fun hafter => (hdrain.mp (hafter.perm hsorted.symm)).2
    · exact fun hlands => (hdrain.mpr ⟨LoopState.separated_removals hs, hlands⟩).perm hsorted

/-- The groups of a table are in order: none is empty, and all items of one name are in
one group. -/
structure Grouped (name : ι → String) (t : Table ι) : Prop where
  /-- no group is empty -/
  groups : [] ∉ t.items
  /-- items of one name are in one group -/
  name : ∀ i j x y, x ∈ t.items.getD i [] → y ∈ t.items.getD j [] → name x = name y → i = j

end Table

/-! ## Runs -/

namespace Tile

variable {ι : Type} [DecidableEq ι] {S : StdSort} {d : Tile ι}

/-- In a frame, each new item lands in the group of its name. -/
def AdditionsLand (S : StdSort) (d : Tile ι) : TileEvent ι → Prop
  | .topFrame o => ∀ p ∈ d.top.frameAdditions S d.heap o, Table.Lands p.1.heap p.1.table.items p.2
  | .subFrame o => ∀ p ∈ d.sub.frameAdditions S d.heap o, Table.Lands p.1.heap p.1.table.items p.2
  | .call _ => True
  | .receive _ => True
  | .write .. => True

instance (d : Tile ι) : ∀ e : TileEvent ι, Decidable (d.AdditionsLand S e)
  | .topFrame o => inferInstanceAs (Decidable (∀ p ∈ d.top.frameAdditions S d.heap o, _))
  | .subFrame o => inferInstanceAs (Decidable (∀ p ∈ d.sub.frameAdditions S d.heap o, _))
  | .call _ => .isTrue trivial
  | .receive _ => .isTrue trivial
  | .write _ _ _ _ => .isTrue trivial

/-- The names of the items. -/
def names (d : Tile ι) (item : ι) : String := (d.heap item).name

/-- No event changes a name. -/
theorem names_next (d : Tile ι) (e : TileEvent ι) : (d.next S e).names = d.names := by
  have hkept := LoopState.keptByWrites_names (ι := ι) d.names
  funext x
  cases e with
  | call => rfl
  | receive msg =>
    rw [next, receive]
    dsimp only
    split <;> rfl
  | write item score hostName pid =>
    rw [next, write, names]
    dsimp only
    rw [Function.update_apply]
    split
    · next heq => rw [heq, names]
    · rfl
  | topFrame o => exact hkept.onLoop (fun _ => rfl) d.top o x
  | subFrame o => exact hkept.onLoop (fun _ => rfl) d.sub o x

/-- **One step keeps the groups apart**, if new items land in the groups of their names. -/
theorem separated_next {e : TileEvent ι} (hok : d.AdditionsLand S e)
    (h : Separated d.names d.top.items ∧ Separated d.names d.sub.items) :
    Separated (d.next S e).names (d.next S e).top.items ∧
      Separated (d.next S e).names (d.next S e).sub.items := by
  rw [names_next]
  cases e with
  | call call =>
    have hitems : (d.top.call call).items = d.top.items := (Table.foldl_call [call] d.top).2.1
    exact ⟨hitems ▸ h.1, h.2⟩
  | receive msg =>
    rw [next, receive]
    dsimp only
    split <;> exact h
  | write => exact h
  | topFrame o =>
    have hitems := (Table.foldl_call (d.top.onLoop S d.heap o).subCalls d.sub).2.1
    refine ⟨(Table.onLoop_separated_iff (fun _ => rfl) h.1 o).mpr hok, ?_⟩
    rw [next, topFrame]
    dsimp only
    rw [hitems]
    exact h.2
  | subFrame o => exact ⟨h.1, (Table.onLoop_separated_iff (fun _ => rfl) h.2 o).mpr hok⟩

/-- **When the groups are in order**: in every run in which each new item whose name a group
has already finds the key of that group's first item unchanged, and that of no group before
it. -/
theorem grouped_of_additionsLand (h : ((system S).guarded (AdditionsLand S)).Reachable d) :
    d.top.Grouped d.names ∧ d.sub.Grouped d.names := by
  have hinv := inv_of_reachable h.of_guarded
  have hseparated : Separated d.names d.top.items ∧ Separated d.names d.sub.items := by
    refine h.invariant
      (I := fun d => Separated d.names d.top.items ∧ Separated d.names d.sub.items) ?_ ?_
    · rintro _ ⟨heap, now, rfl⟩
      exact ⟨separated_nil, separated_nil⟩
    · rintro d e _ - hold ⟨rfl, hok⟩
      exact separated_next hok hold
  exact
    ⟨{ groups := hinv.topGroups, name := separated_iff.mp hseparated.1 },
      { groups := hinv.subGroups, name := separated_iff.mp hseparated.2 }⟩

/-! ## Groups after a sort by name -/

/-- A swipe over the top-level table that sorts it by name. -/
def swipeByName : TableStateMessage where
  isTopTable := true
  pixelIndex := some 0
  selectedIndex := none
  swipeLeft := some 1
  swipeRight := none

/-- A process `vim`, and processes of another name. -/
def shells (name : String) : ℕ → TableItem
  | 1 => process "vim" "11" 2
  | n => process name (toString n) 1

/-- Two processes appear, the groups are sorted by name, and a third appears. -/
def sortedBetween : List (TileEvent ℕ) :=
  appear 0 1 ++ [.receive swipeByName, .topFrame early, .call (.add 2), .topFrame early]

/-- With a name in lower case the third process comes to its group. -/
theorem grouped_of_additionsLand_lowerCase :
    ∃ d, ((system .insertion).guarded (AdditionsLand .insertion)).Reachable d ∧
      d.top.items = [[0, 2], [1]] ∧ d.top.Grouped d.names := by
  have hmeets : TransitionSystem.Meets (next .insertion) (AdditionsLand .insertion)
      (initial (shells "bash") 0) sortedBetween := by decide +kernel
  have hstart : ((system .insertion).guarded (AdditionsLand .insertion)).Reachable
      (initial (shells "bash") 0) := .start ⟨shells "bash", 0, rfl⟩
  have hreach := hstart.foldl hmeets fun _ _ hok => ⟨rfl, hok⟩
  exact ⟨_, hreach, by decide +kernel, (grouped_of_additionsLand hreach).1⟩

/-- With a name in upper case it starts a second group of its name. -/
theorem upperCase_name_in_two_groups :
    ∃ d, (system .insertion).Reachable d ∧ d.top.items = [[0], [1], [2]] ∧
      (∀ x, (shells "Bash" x).key = (shells "Bash" x).name) ∧
      d.names 0 = "Bash" ∧ d.names 2 = "Bash" ∧ ¬d.top.Grouped d.names := by
  refine ⟨run (shells "Bash") sortedBetween, run_reachable _ _, by decide +kernel, ?_,
    by decide +kernel, by decide +kernel, fun hgrouped => ?_⟩
  · intro x
    rw [shells.eq_def]
    split <;> rfl
  · have hname : (run (shells "Bash") sortedBetween).names 0 =
        (run (shells "Bash") sortedBetween).names 2 := by decide +kernel
    have heq := hgrouped.name 0 2 0 2 (by decide +kernel) (by decide +kernel) hname
    cases heq

end Tile

end WallMon
