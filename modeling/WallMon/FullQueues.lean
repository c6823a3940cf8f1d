import WallMon.Queue
import WallMon.SubTable

/-!
# Frames that block on themselves

The queues of a table are bounded: `Push` waits while its queue is full. The top-level table
pushes onto the queues of the sub-table within its own frame, one null pointer for each tap on
a row and the items of the row for each tap that selects it, and it is the sub-table's frame
on the same thread that would empty them. A push that finds its queue full is never woken. A
frame goes through exactly if all its taps together fit (`goesThrough_iff`).
-/

namespace WallMon

/-- A call that goes to `_addQueue`. -/
def TableCall.isAdd {ι : Type} : TableCall ι → Bool
  | .add _ => true
  | .remove _ => false
  | .clear => false

namespace Table

variable {ι : Type}

/-- The capacity of `_addQueue`. -/
def addQueueCapacity : ℕ := 25000

/-- The capacity of `_removeQueue`. -/
def removeQueueCapacity : ℕ := 300

/-- `Table::Add`, `Table::Remove` and `Table::Clear` on the bounded queues; `none` where
`Push` waits. -/
def pushCall (t : Table ι) : TableCall ι → Option (Table ι)
  | .add item =>
    (Queue.push addQueueCapacity item t.addQueue).map fun r => { t with addQueue := r.1 }
  | .remove item =>
    (Queue.push removeQueueCapacity (some item) t.removeQueue).map fun r =>
      { t with removeQueue := r.1 }
  | .clear =>
    (Queue.push removeQueueCapacity none t.removeQueue).map fun r =>
      { t with removeQueue := r.1 }

/-- The queues hold no more than they may. -/
structure WithinCapacity (t : Table ι) : Prop where
  /-- additions -/
  addQueue : t.addQueue.length ≤ addQueueCapacity
  /-- removals -/
  removeQueue : t.removeQueue.length ≤ removeQueueCapacity

/-- The queues have room for these calls. -/
def Room (t : Table ι) (calls : List (TableCall ι)) : Prop :=
  t.addQueue.length + calls.countP TableCall.isAdd ≤ addQueueCapacity ∧
    t.removeQueue.length + calls.countP (!·.isAdd) ≤ removeQueueCapacity

/-- **One push** goes through exactly if there is room, and is then the call. -/
theorem pushCall_eq (t : Table ι) (c : TableCall ι) :
    t.pushCall c = if (if c.isAdd then t.addQueue.length < addQueueCapacity
      else t.removeQueue.length < removeQueueCapacity) then some (t.call c) else none := by
  cases c <;> simp only [pushCall, Queue.push, TableCall.isAdd, call] <;> split <;> simp_all

/-- A call makes one of the queues longer. -/
theorem length_call (t : Table ι) (c : TableCall ι) :
    (t.call c).addQueue.length = t.addQueue.length + (if c.isAdd then 1 else 0) ∧
      (t.call c).removeQueue.length = t.removeQueue.length + (if !c.isAdd then 1 else 0) := by
  cases c <;> simp [call, TableCall.isAdd]

/-- **A sequence of pushes** goes through exactly if there is room for all of them. -/
theorem pushCalls_isSome_iff {t : Table ι} (h : t.WithinCapacity) (calls : List (TableCall ι)) :
    (calls.foldlM pushCall t).isSome = true ↔ t.Room calls := by
  induction calls generalizing t with
  | nil => exact iff_of_true rfl ⟨h.addQueue, h.removeQueue⟩
  | cons c calls ih =>
    obtain ⟨hadd, hremove⟩ := t.length_call c
    have hcapacity := h.addQueue
    have hcapacity' := h.removeQueue
    rw [List.foldlM_cons, pushCall_eq, Room, List.countP_cons, List.countP_cons]
    by_cases hroom : if c.isAdd then t.addQueue.length < addQueueCapacity
      else t.removeQueue.length < removeQueueCapacity
    · have hcalled : (t.call c).WithinCapacity := by
        refine ⟨?_, ?_⟩ <;> cases hc : c.isAdd <;> simp [hc] at hroom hadd hremove <;> omega
      rw [if_pos hroom]
      refine (ih hcalled).trans ?_
      rw [Room, hadd, hremove]
      omega
    · rw [if_neg hroom]
      refine iff_of_false (fun hsome => nomatch hsome) ?_
      cases hc : c.isAdd <;> simp [hc] at hroom ⊢ <;> omega

end Table

namespace LoopState

variable {ι : Type}

/-- The items that a tap in a message has the sub-table show: none at all if there is no tap or
no row, and an empty list if it ends the selection. -/
def tapped (s : LoopState ι) (msg : TableStateMessage) : Option (List ι) :=
  msg.selectedIndex.bind fun idx =>
    if idx < 0 then none
    else s.table.items[idx.toNat]?.map fun group =>
      if idx = s.table.selectedItemIndex then [] else group

/-- The calls for a tap. -/
def tapCalls (items : List ι) : List (TableCall ι) := .clear :: items.map .add

/-- **A tap** on the top-level table: its calls, if it finds its row. -/
theorem selectRow_tapped {s : LoopState ι} (htop : s.table.isTopLevelTable = true) {idx : ℤ}
    {msg : TableStateMessage} (hmsg : msg.selectedIndex = some idx) :
    (s.selectRow idx = none ∧ s.tapped msg = none) ∨
      ∃ s' items, s.selectRow idx = some s' ∧ s.tapped msg = some items ∧
        s'.table.isTopLevelTable = true ∧ s'.subCalls = s.subCalls ++ tapCalls items := by
  rw [selectRow, if_pos htop, tapped, hmsg, Option.bind_some]
  split
  · exact .inl ⟨rfl, rfl⟩
  · cases hgroup : s.table.items[idx.toNat]? with
    | none => exact .inl ⟨rfl, rfl⟩
    | some group =>
      right
      dsimp only
      split
      · exact ⟨_, [], rfl, rfl, htop, rfl⟩
      · exact ⟨_, group, rfl, rfl, htop, rfl⟩

variable [DecidableEq ι] {S : StdSort} {stray : List (List ι) → ℤ → Option ι}

/-- Swipes make no calls. -/
theorem subCalls_swipeTop (s : LoopState ι) (msg : TableStateMessage) :
    (s.swipeTop S stray msg).subCalls = s.subCalls := by
  refine swipeTop_preserves (I := fun s' => s'.subCalls = s.subCalls) (fun s' h => ?_)
    (fun s' compare _ h => (subCalls_sortTable s' compare).trans h) rfl msg
  rw [lowerKeys]
  split <;> exact h

variable (S stray) in
/-- **A message** to the top-level table makes the calls of its tap. -/
theorem subCalls_handleMessage {s : LoopState ι} (htop : s.table.isTopLevelTable = true)
    (msg : TableStateMessage) :
    (s.handleMessage S stray msg).1.subCalls =
      s.subCalls ++ (s.tapped msg).toList.flatMap tapCalls := by
  rw [handleMessage]
  dsimp only
  cases hmsg : msg.selectedIndex with
  | none =>
    have htapped : s.tapped msg = none := by rw [tapped, hmsg, Option.bind_none]
    dsimp only
    rw [if_pos htop, subCalls_swipeTop, htapped]
    exact (List.append_nil _).symm
  | some idx =>
    dsimp only
    rcases selectRow_tapped (s := { s with table := { s.table with
      currentPixelIndex := msg.pixelIndex.getD 0 } }) htop hmsg with
      ⟨hselect, htapped⟩ | ⟨s', items, hselect, htapped, htop', hcalls⟩
    · rw [hselect, show s.tapped msg = none from htapped]
      exact (List.append_nil _).symm
    · rw [hselect, show s.tapped msg = some items from htapped]
      dsimp only
      rw [if_pos htop', subCalls_swipeTop, hcalls, Option.toList_some, List.flatMap_singleton]

/-- The items that the taps of a frame have the sub-table show, tap by tap. -/
def taps (S : StdSort) (stray : List (List ι) → ℤ → Option ι) (queue : List TableStateMessage)
    (s : LoopState ι) : List (List ι) :=
  (history S stray queue s).flatMap fun (msg, before, _) => (before.tapped msg).toList

variable (S stray) in
/-- **The loop over the messages** makes the calls of its taps. -/
theorem subCalls_processMessages (queue : List TableStateMessage) {s : LoopState ι}
    (htop : s.table.isTopLevelTable = true) :
    (processMessages S stray queue s).1.subCalls =
      s.subCalls ++ (taps S stray queue s).flatMap tapCalls := by
  induction queue generalizing s with
  | nil => exact (List.append_nil _).symm
  | cons msg queue ih =>
    have hcalls := subCalls_handleMessage S stray (s := s.pop queue) htop msg
    have hkind := (handleMessage_rearranges S stray (s.pop queue) msg).isTopLevelTable
    rw [processMessages, taps, history]
    cases hresult : (s.pop queue).handleMessage S stray msg with
    | mk s' returns =>
      rw [hresult] at hcalls hkind
      cases returns with
      | true =>
        rw [List.flatMap_singleton]
        exact hcalls
      | false =>
        refine (ih (hkind.trans htop)).trans ?_
        rw [hcalls, List.flatMap_cons, List.flatMap_append, ← List.append_assoc]
        rfl

theorem subCalls_drain (s : LoopState ι) : s.drain.subCalls = s.subCalls :=
  drain_preserves (P := fun s' => s'.subCalls = s.subCalls) (fun _ _ _ => id)
    (fun s' r h => (removal_calls s' r).1.trans h) (fun _ _ => id) rfl

theorem subCalls_startupSort (o : FrameInput ι) (s : LoopState ι) :
    (s.startupSort S o).subCalls = s.subCalls := by
  rw [startupSort]
  split
  · exact subCalls_sortTable _ _
  · rfl

end LoopState

namespace Table

variable {ι : Type} [DecidableEq ι] {S : StdSort}

/-- The taps of a frame. -/
def frameTaps (S : StdSort) (heap : ι → TableItem) (t : Table ι) (o : FrameInput ι) :
    List (List ι) :=
  LoopState.taps S o.stray t.stateQueue (Tile.loopState heap t)

/-- **The calls of a frame** are those of its taps. -/
theorem subCalls_onLoop {heap : ι → TableItem} {t : Table ι} (htop : t.isTopLevelTable = true)
    (o : FrameInput ι) :
    (t.onLoop S heap o).subCalls = (frameTaps S heap t o).flatMap LoopState.tapCalls := by
  have hcalls := LoopState.subCalls_processMessages S o.stray t.stateQueue
    (s := Tile.loopState heap t) htop
  rw [Tile.onLoop_eq, frameTaps]
  generalize LoopState.processMessages S o.stray t.stateQueue (Tile.loopState heap t) = result
    at hcalls
  obtain ⟨s, returns⟩ := result
  cases returns with
  | true => exact hcalls
  | false =>
    refine (LoopState.subCalls_startupSort o s.drain).trans ?_
    rw [LoopState.subCalls_drain]
    exact hcalls

/-- A frame of the top-level table goes through: none of its pushes waits. -/
def GoesThrough (S : StdSort) (heap : ι → TableItem) (t sub : Table ι) (o : FrameInput ι) : Prop :=
  ((t.onLoop S heap o).subCalls.foldlM pushCall sub).isSome = true

instance (S : StdSort) (heap : ι → TableItem) (t sub : Table ι) (o : FrameInput ι) :
    Decidable (GoesThrough S heap t sub o) := inferInstanceAs (Decidable (_ = true))

omit [DecidableEq ι] in
theorem countP_tapCalls (items : List ι) :
    (LoopState.tapCalls items).countP TableCall.isAdd = items.length ∧
      (LoopState.tapCalls items).countP (!·.isAdd) = 1 := by
  have hadd : TableCall.isAdd ∘ TableCall.add = fun _ : ι => true := rfl
  have hother : (fun c : TableCall ι => !c.isAdd) ∘ TableCall.add = fun _ => false := rfl
  refine ⟨?_, ?_⟩
  · rw [LoopState.tapCalls, List.countP_cons_of_neg Bool.false_ne_true, List.countP_map, hadd,
      List.countP_true]
  · rw [LoopState.tapCalls, List.countP_cons_of_pos rfl, List.countP_map, hother,
      List.countP_false]
    rfl

omit [DecidableEq ι] in
/-- The calls of taps, counted. -/
theorem countP_flatMap_tapCalls (taps : List (List ι)) :
    (taps.flatMap LoopState.tapCalls).countP TableCall.isAdd = (taps.map List.length).sum ∧
      (taps.flatMap LoopState.tapCalls).countP (!·.isAdd) = taps.length := by
  induction taps with
  | nil => exact ⟨rfl, rfl⟩
  | cons items taps ih =>
    obtain ⟨hadd, hclear⟩ := countP_tapCalls items
    rw [List.flatMap_cons, List.countP_append, List.countP_append, ih.1, ih.2, hadd, hclear,
      List.map_cons, List.sum_cons, List.length_cons, Nat.add_comm 1]
    exact ⟨rfl, rfl⟩

/-- **A frame that does not block on itself**: exactly if there is room in the sub-table's
queues for a null pointer for each tap of the frame on a row, and for the items of the rows
that are selected. -/
theorem goesThrough_iff (heap : ι → TableItem) {t : Table ι} (htop : t.isTopLevelTable = true)
    {sub : Table ι} (hsub : sub.WithinCapacity) (o : FrameInput ι) :
    GoesThrough S heap t sub o ↔
      sub.removeQueue.length + (frameTaps S heap t o).length ≤ 300 ∧
      sub.addQueue.length + ((frameTaps S heap t o).map List.length).sum ≤ 25000 := by
  obtain ⟨hadd, hclear⟩ := countP_flatMap_tapCalls (frameTaps S heap t o)
  rw [GoesThrough, pushCalls_isSome_iff hsub, subCalls_onLoop htop, Room, hadd, hclear]
  exact and_comm

/-- A tap on the first row. -/
def tapFirst : TableStateMessage := ⟨true, none, some 0, none, none⟩

/-- A top-level table with one process, and waiting taps on its row. -/
def tappedTable (taps : ℕ) : Table ℕ :=
  { new true 0 with items := [[7]], stateQueue := List.replicate taps tapFirst }

/-- A process. -/
def someProcess (_ : ℕ) : TableItem := ⟨"vi", "vi", 0, "tile-0-0", "100", -1, []⟩

/-- A moment in a display's first seconds, and nothing out of range. -/
def firstSecond : FrameInput ℕ := ⟨1, fun _ _ => none⟩

theorem withinCapacity_new : (new false 0 : Table ℕ).WithinCapacity := by
  constructor <;> decide

/-- Two taps are no problem. -/
theorem goesThrough_two_taps :
    GoesThrough .insertion someProcess (tappedTable 2) (new false 0) firstSecond :=
  (goesThrough_iff someProcess rfl withinCapacity_new firstSecond).mpr (by decide)

/-- With 301 taps waiting the frame blocks. -/
theorem not_goesThrough_many_taps :
    ¬GoesThrough .insertion someProcess (tappedTable 301) (new false 0) firstSecond := by
  decide +kernel

end Table

end WallMon
