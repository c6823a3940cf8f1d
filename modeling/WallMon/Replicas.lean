import Mathlib.Data.List.Basic
import WallMon.Tile

/-!
# Tiles as replicas of one display

All tiles of the wall get the same state messages, and each is to act on the same
process as the others. But a tap is multicast as the number of a row, so a tile acts on
what it has in that row itself. Two tiles act on the same processes at all taps that
both have worked off if and only if these rows agree (`agree_iff_sameRow`).
-/

namespace WallMon

/-- A message that a tap on the master makes. -/
def TableStateMessage.IsTap (msg : TableStateMessage) : Prop :=
  ∃ (ι : Type) (t : Table ι) (y : ℚ), t.tap y = some msg

/-- A tap is a touch. -/
theorem TableStateMessage.IsTap.isTouch {msg : TableStateMessage} (h : msg.IsTap) :
    msg.IsTouch := by
  obtain ⟨ι, t, y, htap⟩ := h
  exact Table.isTouch_of_tap htap

/-! ## What a message does -/

namespace Handled

variable {ι : Type}

/-- The process name of a group, which the table shows: the one of its first item. -/
def groupName (heap : ι → TableItem) (group : List ι) : Option String :=
  group.head?.map fun item => (heap item).name

/-- The process name of the group selected in the top-level table. -/
def selectedName (heap : ι → TableItem) (t : Table ι) : Option String :=
  if t.selectedItemIndex > -1 then
    t.items[t.selectedItemIndex.toNat]?.bind (groupName heap)
  else none

/-- The group selected before. -/
def selectedBefore (h : Handled ι) : Option String :=
  selectedName h.before.heap h.topBefore

/-- The group selected after. -/
def selectedAfter (h : Handled ι) : Option String :=
  selectedName h.after.heap h.topAfter

/-- The calls of `_TerminateProcess`: host and pid. -/
def terminated (h : Handled ι) : List (String × String) :=
  h.after.terminated.drop h.before.terminated.length

/-- The group in the row tapped, before the message. -/
def row (h : Handled ι) : Option (List ι) :=
  h.msg.selectedIndex.bind fun idx =>
    if idx < 0 then none else h.before.table.items[idx.toNat]?

/-- The row tapped is selected before the message. -/
def IsSelected (h : Handled ι) : Prop :=
  h.msg.selectedIndex = some h.before.table.selectedItemIndex

instance (h : Handled ι) : Decidable h.IsSelected :=
  inferInstanceAs (Decidable (_ = _))

/-- The process in the row tapped of the sub-table, before the message: host and pid. -/
def entry (h : Handled ι) : Option (String × String) :=
  h.msg.selectedIndex.bind fun idx =>
    if idx < 0 then none
    else (h.before.table.items.head?.bind (·[idx.toNat]?)).map fun item =>
      ((h.before.heap item).hostName, (h.before.heap item).pid)

end Handled

/-! ## Touches

Without a swipe a message does no more than `selectRow`.
-/

namespace LoopState

variable {ι : Type} {s : LoopState ι}

/-- The list starts where the message says. -/
def scroll (s : LoopState ι) (msg : TableStateMessage) : LoopState ι :=
  { s with table := { s.table with currentPixelIndex := msg.pixelIndex.getD 0 } }

/-- A tap in the top-level table selects the row if it is there, and ends the selection
if it is this row already. -/
theorem selectRow_top (htop : s.table.isTopLevelTable = true) {idx : ℤ} (hidx : ¬idx < 0)
    {group : List ι} (hgroup : s.table.items[idx.toNat]? = some group) :
    ∃ s', s.selectRow idx = some s' ∧ s'.heap = s.heap ∧ s'.table =
      { s.table with
        selectedItemIndex := if idx = s.table.selectedItemIndex then -1 else idx } := by
  rw [selectRow, if_pos htop, if_neg hidx, hgroup]
  dsimp only
  split
  · exact ⟨_, rfl, rfl, rfl⟩
  · exact ⟨_, rfl, rfl, rfl⟩

/-- A tap in the sub-table terminates the process in the row if it is there. -/
theorem selectRow_sub (htop : s.table.isTopLevelTable = false) (idx : ℤ) :
    ((s.selectRow idx).getD s).heap = s.heap ∧
      ((s.selectRow idx).getD s).terminated = s.terminated ++
        ((if idx < 0 then none
          else (s.table.items.head?.bind (·[idx.toNat]?)).map fun item =>
            ((s.heap item).hostName, (s.heap item).pid))).toList := by
  rw [selectRow, if_neg (by simp [htop])]
  cases s.table.items with
  | nil => simp
  | cons group items =>
    dsimp only
    by_cases hneg : idx < 0
    · simp [hneg]
    · rw [if_neg hneg, if_neg hneg, List.head?_cons, Option.bind_some]
      cases hitem : group[idx.toNat]? with
      | none => simp
      | some item => exact ⟨rfl, rfl⟩

variable [DecidableEq ι] {S : StdSort} {stray : List (List ι) → ℤ → Option ι}

/-- What a touch does. -/
theorem handleMessage_touch {msg : TableStateMessage} (h : msg.IsTouch) :
    (s.handleMessage S stray msg).1 =
      (msg.selectedIndex.bind (s.scroll msg).selectRow).getD (s.scroll msg) := by
  obtain ⟨hleft, hright⟩ := h
  have htop : ∀ s' : LoopState ι, s'.swipeTop S stray msg = s' := by
    intro s'
    simp [swipeTop, hleft, hright]
  have hsub : ∀ s' : LoopState ι, s'.swipeSub msg = some s' := by
    intro s'
    simp [swipeSub, hleft, hright]
  simp only [handleMessage, htop, hsub, ite_self]
  cases msg.selectedIndex with
  | none => rfl
  | some idx =>
    dsimp only [Option.bind_some]
    rw [← scroll]
    cases (s.scroll msg).selectRow idx with
    | none => rfl
    | some s' => rfl

end LoopState

namespace Handled

variable {ι : Type} [DecidableEq ι] {S : StdSort} {h : Handled ι}

/-- A tap in the top-level table. -/
theorem selectedAfter_top (hworked : Tile.WorkedOff S h) (htouch : h.msg.IsTouch)
    (htop : h.msg.isTopTable = true) :
    h.selectedAfter =
      match h.row with
      | none => h.selectedBefore
      | some group => if h.IsSelected then none else groupName h.before.heap group := by
  obtain ⟨stray, hafter⟩ := hworked.after
  obtain ⟨hbefore, hafter'⟩ := hworked.top htop
  have hkind := hworked.isTopLevelTable.trans htop
  rw [selectedAfter, hafter', hafter, LoopState.handleMessage_touch htouch, selectedBefore,
    hbefore, row]
  cases hidx : h.msg.selectedIndex with
  | none => rfl
  | some idx =>
    dsimp only [Option.bind_some]
    by_cases hneg : idx < 0
    · rw [if_pos hneg]
      simp [LoopState.selectRow, LoopState.scroll, hkind, hneg, selectedName]
    · rw [if_neg hneg]
      cases hgroup : h.before.table.items[idx.toNat]? with
      | none => simp [LoopState.selectRow, LoopState.scroll, hkind, hneg, hgroup, selectedName]
      | some group =>
        obtain ⟨s', hs', hheap, htable⟩ :=
          LoopState.selectRow_top (s := h.before.scroll h.msg) hkind hneg hgroup
        rw [hs']
        dsimp only [Option.getD_some]
        rw [hheap, htable, selectedName]
        by_cases hsel : idx = h.before.table.selectedItemIndex
        · simp [LoopState.scroll, IsSelected, hidx, hsel]
        · have hpos : idx > -1 := by omega
          simp [LoopState.scroll, IsSelected, hidx, hsel, hpos, hgroup]

/-- A tap in the sub-table. -/
theorem selectedAfter_sub (hworked : Tile.WorkedOff S h) (htouch : h.msg.IsTouch)
    (hsub : h.msg.isTopTable = false) :
    h.selectedAfter = h.selectedBefore ∧ h.terminated = h.entry.toList := by
  obtain ⟨stray, hafter⟩ := hworked.after
  have hkind := hworked.isTopLevelTable.trans hsub
  rw [LoopState.handleMessage_touch htouch] at hafter
  rw [selectedAfter, hworked.sub hsub, terminated, hafter, selectedBefore, entry]
  cases hidx : h.msg.selectedIndex with
  | none => simp [LoopState.scroll]
  | some idx =>
    obtain ⟨hheap, hterminated⟩ :=
      LoopState.selectRow_sub (s := h.before.scroll h.msg) hkind idx
    dsimp only [Option.bind_some]
    rw [hheap, hterminated]
    simp [LoopState.scroll]

end Handled

/-! ## Two tiles -/

namespace Handled

variable {ι κ : Type}

/-- Two tiles that worked off one message act alike: the same group is selected, and a
message for the sub-table terminates the same process. -/
def Agree (x : Handled ι) (y : Handled κ) : Prop :=
  x.selectedAfter = y.selectedAfter ∧ (x.msg.isTopTable = false → x.terminated = y.terminated)

instance (x : Handled ι) (y : Handled κ) : Decidable (Agree x y) :=
  inferInstanceAs (Decidable (x.selectedAfter = y.selectedAfter ∧
    (x.msg.isTopTable = false → x.terminated = y.terminated)))

/-- The row tapped in the top-level table is the same in both tiles: the same process
name, selected in both or in none. Where one tile does not have the row, it has
selected already what the other is about to select. -/
def SameGroup (x : Handled ι) (y : Handled κ) : Prop :=
  match x.row, y.row with
  | some group, some group' =>
    (x.IsSelected ↔ y.IsSelected) ∧
      (¬x.IsSelected → groupName x.before.heap group = groupName y.before.heap group')
  | some group, none =>
    y.selectedBefore = if x.IsSelected then none else groupName x.before.heap group
  | none, some group' =>
    x.selectedBefore = if y.IsSelected then none else groupName y.before.heap group'
  | none, none => x.selectedBefore = y.selectedBefore

/-- Before a message the row tapped is the same in both tiles. In the sub-table it is the
same process that is there, and the same group is selected in the other table. -/
def SameRow (x : Handled ι) (y : Handled κ) : Prop :=
  if x.msg.isTopTable then SameGroup x y
  else x.selectedBefore = y.selectedBefore ∧ x.entry = y.entry

instance (x : Handled ι) (y : Handled κ) : Decidable (SameGroup x y) := by
  unfold SameGroup
  exact match x.row, y.row with
    | some _, some _ => inferInstance
    | some _, none => inferInstance
    | none, some _ => inferInstance
    | none, none => inferInstance

instance (x : Handled ι) (y : Handled κ) : Decidable (SameRow x y) :=
  inferInstanceAs (Decidable (if x.msg.isTopTable then SameGroup x y
    else x.selectedBefore = y.selectedBefore ∧ x.entry = y.entry))

variable [DecidableEq ι] [DecidableEq κ] {S S' : StdSort} {x : Handled ι} {y : Handled κ}

/-- A row that is there has a name. -/
theorem groupName_ne_none (hworked : Tile.WorkedOff S x) {group : List ι}
    (hrow : x.row = some group) : groupName x.before.heap group ≠ none := by
  rw [row] at hrow
  obtain ⟨idx, -, hidx⟩ := Option.bind_eq_some_iff.mp hrow
  split at hidx
  · cases hidx
  · cases group with
    | nil => exact absurd (List.mem_of_getElem? hidx) hworked.groups
    | cons => exact Option.some_ne_none _

/-- **One tap**: two tiles act alike if and only if their rows agree. -/
theorem agree_iff (hx : Tile.WorkedOff S x) (hy : Tile.WorkedOff S' y) (hmsg : x.msg = y.msg)
    (htouch : x.msg.IsTouch) : Agree x y ↔ SameRow x y := by
  have htouch' : y.msg.IsTouch := hmsg ▸ htouch
  cases htop : x.msg.isTopTable with
  | false =>
    obtain ⟨hselected, hterminated⟩ := selectedAfter_sub hx htouch htop
    obtain ⟨hselected', hterminated'⟩ := selectedAfter_sub hy htouch' (hmsg ▸ htop)
    have hentry : x.terminated = y.terminated ↔ x.entry = y.entry := by
      rw [hterminated, hterminated']
      cases x.entry with
      | none => cases y.entry <;> simp
      | some => cases y.entry <;> simp
    simp [Agree, SameRow, htop, hselected, hselected', hentry]
  | true =>
    simp only [Agree, SameRow, htop, Bool.true_eq_false, false_implies, and_true, if_true]
    rw [selectedAfter_top hx htouch htop, selectedAfter_top hy htouch' (hmsg ▸ htop), SameGroup]
    -- a row that is missing leaves the selection as it is
    cases hrow : x.row with
    | none =>
      cases hrow' : y.row with
      | none => rfl
      | some group' => rfl
    | some group =>
      -- ending a selection and selecting a row never come to the same
      have hname := groupName_ne_none hx hrow
      cases hrow' : y.row with
      | none => exact eq_comm
      | some group' =>
        have hname' := groupName_ne_none hy hrow'
        by_cases hsel : x.IsSelected
        · by_cases hsel' : y.IsSelected
          · simp [hsel, hsel']
          · simp [hsel, hsel', hname'.symm]
        · by_cases hsel' : y.IsSelected
          · simp [hsel, hsel', hname]
          · simp [hsel, hsel']

end Handled

namespace Tile

variable {ι κ : Type}

/-- What two tiles did with each message that both have worked off. The messages of each
table are worked off one after another. -/
def pairs (a : Tile ι) (b : Tile κ) : List (Handled ι × Handled κ) :=
  [true, false].flatMap fun isTopTable =>
    (a.handled.filter (·.msg.isTopTable = isTopTable)).zip
      (b.handled.filter (·.msg.isTopTable = isTopTable))

/-- What stands at one place in lists that run alike. -/
theorem eq_of_mem_zip {α β γ : Type} {f : α → γ} {g : β → γ} {l : List α} {l' : List β}
    {m : List γ} (h : l.map f <+: m) (h' : l'.map g <+: m) {p : α × β} (hp : p ∈ l.zip l') :
    f p.1 = g p.2 := by
  obtain ⟨i, hi, rfl⟩ := List.getElem_of_mem hp
  rw [List.length_zip] at hi
  rw [List.getElem_zip]
  have hleft := h.getElem (i := i) (by simpa using (lt_min_iff.mp hi).1)
  have hright := h'.getElem (i := i) (by simpa using (lt_min_iff.mp hi).2)
  rw [List.getElem_map] at hleft hright
  exact hleft.trans hright.symm

variable [DecidableEq ι] [DecidableEq κ] {S S' : StdSort} {a : Tile ι} {b : Tile κ}

/-- The two records of a pair are true and of one message. -/
theorem of_mem_pairs {msgs : List TableStateMessage}
    (ha : (system S).Reachable a) (hb : (system S').Reachable b)
    (hmsgs : a.received <+: msgs) (hmsgs' : b.received <+: msgs)
    {p : Handled ι × Handled κ} (hp : p ∈ pairs a b) :
    WorkedOff S p.1 ∧ WorkedOff S' p.2 ∧ p.1.msg = p.2.msg := by
  have hinv := inv_of_reachable ha
  have hinv' := inv_of_reachable hb
  obtain ⟨isTopTable, -, hzip⟩ := List.mem_flatMap.mp hp
  obtain ⟨hmem, hmem'⟩ := List.of_mem_zip hzip
  refine ⟨hinv.handled _ (List.mem_of_mem_filter hmem),
    hinv'.handled _ (List.mem_of_mem_filter hmem'), ?_⟩
  have hworked : (a.handled.filter (·.msg.isTopTable = isTopTable)).map (·.msg) <+:
      msgs.filter (·.isTopTable = isTopTable) :=
    (hinv.messages isTopTable ▸ List.prefix_append _ _ :
      _ <+: a.received.filter (·.isTopTable = isTopTable)).trans (hmsgs.filter _)
  have hworked' : (b.handled.filter (·.msg.isTopTable = isTopTable)).map (·.msg) <+:
      msgs.filter (·.isTopTable = isTopTable) :=
    (hinv'.messages isTopTable ▸ List.prefix_append _ _ :
      _ <+: b.received.filter (·.isTopTable = isTopTable)).trans (hmsgs'.filter _)
  exact eq_of_mem_zip hworked hworked' hzip

/-- **Tiles as replicas**: in all runs of two tiles that get the same messages, they act
alike on every tap that both have worked off if and only if the rows tapped agree. -/
theorem agree_iff_sameRow {msgs : List TableStateMessage}
    (ha : (system S).Reachable a) (hb : (system S').Reachable b)
    (hmsgs : a.received <+: msgs) (hmsgs' : b.received <+: msgs) :
    (∀ p ∈ pairs a b, p.1.msg.IsTap → p.1.Agree p.2) ↔
      ∀ p ∈ pairs a b, p.1.msg.IsTap → p.1.SameRow p.2 := by
  refine forall₂_congr fun p hp => imp_congr_right fun htap => ?_
  obtain ⟨hx, hy, hmsg⟩ := of_mem_pairs ha hb hmsgs hmsgs' hp
  exact Handled.agree_iff hx hy hmsg htap.isTouch

/-! ## Two orders of arrival -/

/-- A process. -/
def process (name pid : String) (score : ℚ) : TableItem where
  name := name
  key := name
  score := score
  hostName := "tile-0-0"
  pid := pid
  highlightNumber := -1
  boids := []

/-- Two processes with two names. -/
def twoNames : ℕ → TableItem
  | 0 => process "bash" "10" 1
  | _ => process "vim" "11" 2

/-- Two processes with one name. -/
def oneName : ℕ → TableItem
  | 0 => process "bash" "10" 1
  | _ => process "bash" "11" 2

/-- A frame in the first two seconds. -/
def early : FrameInput ℕ := { now := 1, stray := fun _ _ => none }

/-- A tap on the first row. -/
def tapFirst (isTopTable : Bool) : TableStateMessage where
  isTopTable := isTopTable
  pixelIndex := some 0
  selectedIndex := some 0
  swipeLeft := none
  swipeRight := none

/-- A swipe over the top-level table that sorts it by score. -/
def swipe : TableStateMessage where
  isTopTable := true
  pixelIndex := some 0
  selectedIndex := none
  swipeLeft := none
  swipeRight := some 1

/-- A run of a new tile. -/
def run (heap : ℕ → TableItem) (events : List (TileEvent ℕ)) : Tile ℕ :=
  events.foldl (next .insertion) (initial heap 0)

theorem foldl_next_reachable (events : List (TileEvent ι)) (ha : (system S).Reachable a) :
    (system S).Reachable (events.foldl (next S) a) := by
  induction events generalizing a with
  | nil => exact ha
  | cons e events ih => exact ih (ha.next rfl)

/-- The messages of a run. -/
theorem foldl_next_received (events : List (TileEvent ι)) :
    (events.foldl (next S) a).received = a.received ++ events.filterMap TileEvent.message := by
  induction events generalizing a with
  | nil => simp
  | cons e events ih =>
    have hfirst : (a.next S e).received = a.received ++ e.message.toList := by
      cases e with
      | receive msg =>
        rw [next, Tile.receive]
        dsimp only
        split <;> rfl
      | call | write | topFrame | subFrame => exact (List.append_nil _).symm
    rw [List.foldl_cons, ih, hfirst, List.append_assoc]
    cases hmsg : e.message with
    | none => simp [hmsg]
    | some msg => simp [hmsg]

theorem run_reachable (heap : ℕ → TableItem) (events : List (TileEvent ℕ)) :
    (system .insertion).Reachable (run heap events) :=
  foldl_next_reachable events (.start ⟨heap, 0, rfl⟩)

/-- Two processes appear. -/
def appear (first second : ℕ) : List (TileEvent ℕ) :=
  [.call (.add first), .call (.add second), .topFrame early]

/-- The first row of the top-level table is tapped. -/
def tapTop : List (TileEvent ℕ) :=
  [.receive (tapFirst true), .topFrame early, .subFrame early]

/-- The first row of the sub-table is tapped. -/
def tapSub : List (TileEvent ℕ) :=
  [.receive (tapFirst false), .subFrame early]

theorem isTap_tapFirst (isTopTable : Bool) : (tapFirst isTopTable).IsTap := by
  refine ⟨ℕ, Table.new isTopTable 0, 80, ?_⟩
  cases isTopTable with
  | true => decide +kernel
  | false => decide +kernel

/-- Two tiles in which the processes appear in different order, but which are sorted
before the tap, act alike. -/
theorem agree_iff_sameRow_sorted :
    ∃ a b : Tile ℕ, (∃ p ∈ pairs a b, p.1.msg = tapFirst true) ∧
      ∀ p ∈ pairs a b, p.1.msg.IsTap → p.1.Agree p.2 := by
  let events := appear 0 1 ++ .receive swipe :: tapTop
  let events' := appear 1 0 ++ .receive swipe :: tapTop
  have hsame : ∀ p ∈ pairs (run twoNames events) (run twoNames events'), p.1.SameRow p.2 := by
    decide +kernel
  have hreceived : (run twoNames events).received <+: [swipe, tapFirst true] := by
    decide +kernel
  have hreceived' : (run twoNames events').received <+: [swipe, tapFirst true] := by
    decide +kernel
  refine ⟨run twoNames events, run twoNames events', by decide +kernel, ?_⟩
  exact (agree_iff_sameRow (run_reachable _ _) (run_reachable _ _) hreceived hreceived').mpr
    fun p hp _ => hsame p hp

/-- Two tiles in which the same processes appear in different order act differently: a
tap selects two different groups, or terminates two different processes of one group. -/
theorem orders_disagree :
    ∃ events events' : List (TileEvent ℕ), events.Perm events' ∧
      (∀ heap, (system .insertion).Reachable (run heap events) ∧
        (system .insertion).Reachable (run heap events') ∧
        (run heap events).received = (run heap events').received) ∧
      (∃ p ∈ pairs (run twoNames events) (run twoNames events'),
        p.1.msg.IsTap ∧ p.1.msg.isTopTable = true ∧ ¬p.1.Agree p.2) ∧
      ∃ p ∈ pairs (run oneName events) (run oneName events'),
        p.1.msg.IsTap ∧ p.1.msg.isTopTable = false ∧ ¬p.1.Agree p.2 := by
  let events := appear 0 1 ++ tapTop ++ tapSub
  let events' := appear 1 0 ++ tapTop ++ tapSub
  have hgroups : ∃ p ∈ pairs (run twoNames events) (run twoNames events'),
      p.1.msg = tapFirst true ∧ ¬p.1.Agree p.2 := by
    decide +kernel
  have hprocesses : ∃ p ∈ pairs (run oneName events) (run oneName events'),
      p.1.msg = tapFirst false ∧ ¬p.1.Agree p.2 := by
    decide +kernel
  refine ⟨events, events', .swap .., fun heap => ⟨run_reachable heap _, run_reachable heap _, ?_⟩,
    ?_, ?_⟩
  · rw [run, run, foldl_next_received, foldl_next_received]
    rfl
  · obtain ⟨p, hp, hmsg, hdisagree⟩ := hgroups
    exact ⟨p, hp, hmsg ▸ isTap_tapFirst true, by rw [hmsg]; rfl, hdisagree⟩
  · obtain ⟨p, hp, hmsg, hdisagree⟩ := hprocesses
    exact ⟨p, hp, hmsg ▸ isTap_tapFirst false, by rw [hmsg]; rfl, hdisagree⟩

end Tile

end WallMon
