import Mathlib.Data.Finset.Basic
import Mathlib.Data.Finset.Lattice.Lemmas
import WallMon.TableRows
import WallMon.Transition

/-!
# The calls of a table, in order and in batches

A table's interface is meant as a set of items: `Add` adds one, `Remove` removes one,
`Clear` removes all. The calls wait in two queues, and a frame does all waiting removals
before all waiting additions. So the items held are those of the calls made one after
another as long as no item is removed while its addition waits
(`contents_eq_applyCalls`): a process that starts and ends between two frames stays in
the table.
-/

namespace WallMon

/-! ## The purpose of the interface -/

namespace TableCall

variable {ι : Type} [DecidableEq ι]

/-- What a call is to do to the set of items. -/
def apply (items : Finset ι) : TableCall ι → Finset ι
  | .add item => insert item items
  | .remove item => items.erase item
  | .clear => ∅

/-- The calls one after another. -/
def applyCalls (calls : List (TableCall ι)) : Finset ι := calls.foldl apply ∅

@[simp] theorem applyCalls_snoc (calls : List (TableCall ι)) (call : TableCall ι) :
    applyCalls (calls ++ [call]) = apply (applyCalls calls) call := by
  simp [applyCalls]

/-- The removal that waits in the queue: of one item, or of all. -/
def ofRemoval : Option ι → TableCall ι
  | some item => .remove item
  | none => .clear

end TableCall

open TableCall

/-! ## A frame on sets of items -/

namespace Table

variable {ι : Type} [DecidableEq ι] {t : Table ι}

/-- The set of items that a table holds. -/
def contents (t : Table ι) : Finset ι := t.items.flatten.toFinset

/-- What is left of a set of items after waiting removals. -/
def afterRemovals (removals : List (Option ι)) (items : Finset ι) : Finset ι :=
  (removals.map ofRemoval).foldl apply items

/-- What waits at a table: its items are listed once, and so are waiting additions, which
are of items that the waiting removals leave no trace of. -/
structure Waiting (t : Table ι) : Prop where
  /-- items are listed once -/
  items : t.items.flatten.Nodup
  /-- additions are listed once -/
  addQueue : t.addQueue.Nodup
  /-- additions are of items that will not be there -/
  fresh : ∀ item ∈ t.addQueue, item ∉ afterRemovals t.removeQueue t.contents

/-- The items that a table is to hold once its queues are empty. -/
def settled (t : Table ι) : Finset ι :=
  afterRemovals t.removeQueue t.contents ∪ t.addQueue.toFinset

theorem settled_of_empty (hadd : t.addQueue = []) (hremove : t.removeQueue = []) :
    t.settled = t.contents := by
  simp [settled, hadd, hremove, afterRemovals]

end Table

namespace LoopState

variable {ι : Type} [DecidableEq ι] {s s' : LoopState ι}

theorem SameItems.contents (h : SameItems s s') : s'.table.contents = s.table.contents :=
  List.toFinset_eq_of_perm _ _ h.rows.flatten

theorem SameItems.settled (h : SameItems s s') : s'.table.settled = s.table.settled := by
  rw [Table.settled, Table.settled, h.contents, h.addQueue, h.removeQueue]

theorem SameItems.waiting (h : SameItems s s') (hs : s.table.Waiting) : s'.table.Waiting := by
  refine ⟨h.rows.flatten.nodup_iff.mpr hs.items, ?_, ?_⟩
  · rw [h.addQueue]
    exact hs.addQueue
  · rw [h.addQueue, h.removeQueue, h.contents]
    exact hs.fresh

/-- A removal leaves the calls that wait. -/
theorem removal_queues (s : LoopState ι) (removal : Option ι) :
    (s.removal removal).table.addQueue = s.table.addQueue ∧
      (s.removal removal).table.removeQueue = s.table.removeQueue := by
  cases removal with
  | none => simp [LoopState.removal]
  | some item => exact ⟨rfl, rfl⟩

/-- A removal does to the items what the call for it is to do. -/
theorem removal_contents (h : s.table.items.flatten.Nodup) (removal : Option ι) :
    (s.removal removal).table.items.flatten.Nodup ∧
      (s.removal removal).table.contents = apply s.table.contents (ofRemoval removal) := by
  cases removal with
  | none => exact ⟨List.nodup_nil, rfl⟩
  | some item =>
    have hflatten : (s.removal (some item)).table.items.flatten =
        s.table.items.flatten.erase item := Table.flatten_removeItem h
    refine ⟨hflatten ▸ h.erase item, ?_⟩
    rw [Table.contents, hflatten]
    ext x
    simp [ofRemoval, apply, Table.contents, h.mem_erase_iff]

/-- **The loop over the removals** does one after another. -/
theorem foldl_removal (removals : List (Option ι)) {s : LoopState ι}
    (h : s.table.items.flatten.Nodup) :
    (removals.foldl removal s).table.items.flatten.Nodup ∧
      (removals.foldl removal s).table.contents =
        Table.afterRemovals removals s.table.contents ∧
      (removals.foldl removal s).table.addQueue = s.table.addQueue ∧
      (removals.foldl removal s).table.removeQueue = s.table.removeQueue := by
  induction removals generalizing s with
  | nil => exact ⟨h, rfl, rfl, rfl⟩
  | cons removal removals ih =>
    obtain ⟨hnodup, hcontents⟩ := removal_contents h removal
    obtain ⟨hadd, hremove⟩ := removal_queues s removal
    obtain ⟨hnodup', hcontents', hadd', hremove'⟩ := ih hnodup
    refine ⟨hnodup', hcontents'.trans ?_, hadd'.trans hadd, hremove'.trans hremove⟩
    rw [hcontents]
    rfl

/-- An addition adds the item. -/
theorem addition_contents (s : LoopState ι) (item : ι) :
    (s.addition item).table.contents = insert item s.table.contents := by
  rw [Table.contents, addition, List.toFinset_eq_of_perm _ _ (Table.flatten_addItem ..),
    List.toFinset_cons]
  rfl

theorem addition_nodup (h : s.table.items.flatten.Nodup) {item : ι}
    (hitem : item ∉ s.table.contents) : (s.addition item).table.items.flatten.Nodup := by
  rw [Table.contents, List.mem_toFinset] at hitem
  exact (Table.flatten_addItem ..).nodup_iff.mpr (List.nodup_cons.mpr ⟨hitem, h⟩)

/-- **The loop over the additions** adds items that are not there yet. -/
theorem foldl_addition {items : List ι} (hitems : items.Nodup) {s : LoopState ι}
    (h : s.table.items.flatten.Nodup) (hfresh : ∀ item ∈ items, item ∉ s.table.contents) :
    (items.foldl addition s).table.items.flatten.Nodup ∧
      (items.foldl addition s).table.contents = s.table.contents ∪ items.toFinset ∧
      (items.foldl addition s).table.addQueue = s.table.addQueue ∧
      (items.foldl addition s).table.removeQueue = s.table.removeQueue := by
  induction items generalizing s with
  | nil => simpa using h
  | cons item items ih =>
    obtain ⟨hitem, hitems⟩ := List.nodup_cons.mp hitems
    obtain ⟨hnew, hfresh⟩ := List.forall_mem_cons.mp hfresh
    have hfresh' : ∀ item' ∈ items, item' ∉ (s.addition item).table.contents := by
      intro item' hmem hcontents
      rw [addition_contents] at hcontents
      rcases Finset.mem_insert.mp hcontents with rfl | hold
      · exact hitem hmem
      · exact hfresh item' hmem hold
    obtain ⟨hnodup, hcontents, hadd, hremove⟩ := ih hitems (addition_nodup h hnew) hfresh'
    refine ⟨hnodup, hcontents.trans ?_, hadd, hremove⟩
    rw [addition_contents, List.toFinset_cons, Finset.insert_union, Finset.union_insert]

/-- **Emptying the queues** leaves the items that the table was to hold. -/
theorem drain_contents (h : s.table.Waiting) :
    s.drain.table.items.flatten.Nodup ∧ s.drain.table.contents = s.table.settled ∧
      s.drain.table.addQueue = [] ∧ s.drain.table.removeQueue = [] := by
  rw [drain]
  dsimp only
  generalize hs₁ : s.table.removeQueue.foldl removal
    { s with table := { s.table with removeQueue := [] } } = s₁
  obtain ⟨hnodup, hcontents, hadd, hremove⟩ := foldl_removal s.table.removeQueue
    (s := { s with table := { s.table with removeQueue := [] } }) h.items
  rw [hs₁] at hnodup hcontents hadd hremove
  have hadd' : s₁.table.addQueue = s.table.addQueue := hadd
  have hcontents' : s₁.table.contents =
      Table.afterRemovals s.table.removeQueue s.table.contents := hcontents
  rw [hadd']
  obtain ⟨hnodup', hcontents'', hadd'', hremove'⟩ := foldl_addition h.addQueue
    (s := { s₁ with table := { s₁.table with addQueue := [] } }) hnodup
    (fun item hmem hitem => h.fresh item hmem (hcontents' ▸ hitem))
  -- the additions come to what the removals left
  refine ⟨hnodup', hcontents''.trans ?_, hadd'', hremove'.trans hremove⟩
  rw [Table.settled, ← hcontents']
  rfl

end LoopState

namespace Table

variable {ι : Type} [DecidableEq ι] {S : StdSort} {t : Table ι}

theorem afterRemovals_snoc (removals : List (Option ι)) (removal : Option ι)
    (items : Finset ι) :
    afterRemovals (removals ++ [removal]) items =
      apply (afterRemovals removals items) (ofRemoval removal) := by
  simp [afterRemovals]

/-- A removal that waits leaves no more. -/
theorem mem_of_mem_afterRemovals_snoc {removals : List (Option ι)} {removal : Option ι}
    {items : Finset ι} {item : ι} (h : item ∈ afterRemovals (removals ++ [removal]) items) :
    item ∈ afterRemovals removals items := by
  rw [afterRemovals_snoc] at h
  cases removal with
  | none => exact absurd h (Finset.notMem_empty item)
  | some removed => exact Finset.mem_of_mem_erase h

/-- **A call** waits in order, if an item is added only when the table is not to hold it. -/
theorem Waiting.call (h : t.Waiting) (call : TableCall ι)
    (hnew : ∀ item, call = .add item → item ∉ t.settled) : (t.call call).Waiting := by
  cases call with
  | add item =>
    have hitem := hnew item rfl
    rw [settled, Finset.mem_union, not_or, List.mem_toFinset] at hitem
    obtain ⟨hremoved, hwaits⟩ := hitem
    refine ⟨h.items, ?_, List.forall_mem_append.mpr
      ⟨h.fresh, List.forall_mem_singleton.mpr hremoved⟩⟩
    exact h.addQueue.append (List.nodup_singleton item) (List.disjoint_singleton.mpr hwaits)
  | remove item =>
    exact ⟨h.items, h.addQueue, fun x hx hmem =>
      h.fresh x hx (mem_of_mem_afterRemovals_snoc hmem)⟩
  | clear =>
    exact ⟨h.items, h.addQueue, fun x hx hmem =>
      h.fresh x hx (mem_of_mem_afterRemovals_snoc hmem)⟩

/-- **A frame** leaves the items that the table is to hold in the end, and what waits
stays in order. -/
theorem onLoop_settled (h : t.Waiting) (heap : ι → TableItem) (o : FrameInput ι) :
    (t.onLoop S heap o).table.Waiting ∧ (t.onLoop S heap o).table.settled = t.settled := by
  rw [onLoop]
  have hprocessed := LoopState.processMessages_sameItems S o.stray t.stateQueue
    { heap := heap, table := t, subCalls := [], terminated := [] }
  split
  · next s heq =>
    rw [heq] at hprocessed
    exact ⟨hprocessed.waiting h, hprocessed.settled⟩
  · next s heq =>
    rw [heq] at hprocessed
    obtain ⟨hnodup, hcontents, hadd, hremove⟩ :=
      LoopState.drain_contents (hprocessed.waiting h)
    have hdrained : s.drain.table.Waiting := by
      refine ⟨hnodup, ?_, ?_⟩
      · rw [hadd]
        exact List.nodup_nil
      · rw [hadd]
        exact fun item hmem => absurd hmem List.not_mem_nil
    have hsorted := (LoopState.startupSort_rearranges (S := S) o s.drain).toSameItems
    refine ⟨hsorted.waiting hdrained, hsorted.settled.trans ?_⟩
    rw [settled_of_empty hadd hremove, hcontents, hprocessed.settled]

end Table

/-! ## Runs -/

/-- A table, the items, and the calls made. -/
structure TableRun (ι : Type) where
  /-- the items -/
  heap : ι → TableItem
  /-- the table -/
  table : Table ι
  /-- history: the calls of the interface -/
  calls : List (TableCall ι)

/-- What happens at a table. -/
inductive TableEvent (ι : Type) where
  /-- a call of the interface -/
  | call (call : TableCall ι)
  /-- a state message arrives -/
  | receive (msg : TableStateMessage)
  /-- another part of the program changes an item -/
  | write (item : ι) (value : TableItem)
  /-- a frame -/
  | frame (o : FrameInput ι)

namespace TableRun

variable {ι : Type} [DecidableEq ι] {S : StdSort} {r r' : TableRun ι}

/-- One step at a table. An item is added again only after it was removed. -/
inductive Step (S : StdSort) : TableRun ι → TableEvent ι → TableRun ι → Prop where
  /-- a call -/
  | call {r : TableRun ι} {call : TableCall ι} :
      (∀ item, call = .add item → item ∉ applyCalls r.calls) →
      Step S r (.call call) { r with table := r.table.call call, calls := r.calls ++ [call] }
  /-- a message -/
  | receive {r : TableRun ι} {msg : TableStateMessage} :
      Step S r (.receive msg) { r with table := r.table.receive msg }
  /-- an item changes -/
  | write {r : TableRun ι} {item : ι} {value : TableItem} :
      Step S r (.write item value) { r with heap := Function.update r.heap item value }
  /-- a frame -/
  | frame {r : TableRun ι} {o : FrameInput ι} :
      Step S r (.frame o)
        { r with
          heap := (r.table.onLoop S r.heap o).heap
          table := (r.table.onLoop S r.heap o).table }

/-- A call of the interface. -/
theorem call_step (S : StdSort) (r : TableRun ι) (call : TableCall ι)
    (hnew : ∀ item, call = .add item → item ∉ applyCalls r.calls) :
    Step S r (.call call) { r with table := r.table.call call, calls := r.calls ++ [call] } :=
  .call hnew

/-- A frame. -/
theorem frame_step (S : StdSort) (r : TableRun ι) (o : FrameInput ι) :
    Step S r (.frame o)
      { r with
        heap := (r.table.onLoop S r.heap o).heap
        table := (r.table.onLoop S r.heap o).table } :=
  .frame

/-- A new table. -/
def Started (r : TableRun ι) : Prop :=
  (∃ isTopLevelTable now, r.table = Table.new isTopLevelTable now) ∧ r.calls = []

/-- The transition system of a table. -/
def system (S : StdSort) : TransitionSystem (TableRun ι) (TableEvent ι) where
  init := Started
  step := Step S

/-- Nothing is removed while its addition waits. -/
def RemovesSettled (r : TableRun ι) : TableEvent ι → Prop
  | .call (.remove item) => item ∉ r.table.addQueue
  | .call .clear => r.table.addQueue = []
  | _ => True

instance (r : TableRun ι) (e : TableEvent ι) : Decidable (RemovesSettled r e) :=
  match e with
  | .call (.remove item) => inferInstanceAs (Decidable (item ∉ r.table.addQueue))
  | .call .clear => inferInstanceAs (Decidable (r.table.addQueue = []))
  | .call (.add _) => .isTrue trivial
  | .receive _ => .isTrue trivial
  | .write _ _ => .isTrue trivial
  | .frame _ => .isTrue trivial

/-- The table is to hold what the calls say. -/
structure InOrder (r : TableRun ι) : Prop where
  /-- what waits is in order -/
  waiting : r.table.Waiting
  /-- the items in the end -/
  settled : r.table.settled = applyCalls r.calls

/-- An addition waits. -/
theorem InOrder.add (h : InOrder r) {item : ι} (hitem : item ∉ applyCalls r.calls) :
    InOrder { r with
      table := r.table.call (.add item)
      calls := r.calls ++ [.add item] } := by
  rw [← h.settled] at hitem
  refine ⟨h.waiting.call _ fun _ heq => TableCall.add.inj heq ▸ hitem, ?_⟩
  rw [applyCalls_snoc, ← h.settled]
  simp [Table.settled, Table.call, Table.contents, apply, Finset.union_insert]

/-- A removal waits of an item whose addition does not. -/
theorem InOrder.remove (h : InOrder r) {item : ι} (hitem : item ∉ r.table.addQueue) :
    InOrder { r with
      table := r.table.call (.remove item)
      calls := r.calls ++ [.remove item] } := by
  refine ⟨h.waiting.call (.remove item) nofun, ?_⟩
  have hafter : Table.afterRemovals (r.table.removeQueue ++ [some item]) r.table.contents =
      (Table.afterRemovals r.table.removeQueue r.table.contents).erase item :=
    Table.afterRemovals_snoc ..
  rw [applyCalls_snoc, ← h.settled]
  change Table.afterRemovals (r.table.removeQueue ++ [some item]) r.table.contents ∪
    r.table.addQueue.toFinset = Finset.erase _ item
  rw [hafter, Table.settled, Finset.erase_union_distrib,
    Finset.erase_eq_of_notMem (s := r.table.addQueue.toFinset) (by simpa using hitem)]

/-- The removal of all items waits, and no addition does. -/
theorem InOrder.clear (h : InOrder r) (hadd : r.table.addQueue = []) :
    InOrder { r with
      table := r.table.call .clear
      calls := r.calls ++ [.clear] } := by
  refine ⟨h.waiting.call .clear nofun, ?_⟩
  have hafter : Table.afterRemovals (r.table.removeQueue ++ [none]) r.table.contents = ∅ :=
    Table.afterRemovals_snoc ..
  have hempty : r.table.addQueue.toFinset = ∅ := by rw [hadd, List.toFinset_nil]
  rw [applyCalls_snoc]
  change Table.afterRemovals (r.table.removeQueue ++ [none]) r.table.contents ∪
    r.table.addQueue.toFinset = ∅
  rw [hafter, hempty, Finset.union_empty]

/-- **One step keeps the table in order**, if nothing is removed while its addition
waits. -/
theorem InOrder.step (h : InOrder r) {e : TableEvent ι} (hok : RemovesSettled r e)
    (hstep : Step S r e r') : InOrder r' := by
  cases hstep with
  | @call call hnew =>
    cases call with
    | add item => exact h.add (hnew item rfl)
    | remove item => exact h.remove hok
    | clear => exact h.clear hok
  | receive => exact ⟨⟨h.waiting.items, h.waiting.addQueue, h.waiting.fresh⟩, h.settled⟩
  | write => exact ⟨h.waiting, h.settled⟩
  | frame =>
    obtain ⟨hwaiting, hsettled⟩ := Table.onLoop_settled h.waiting r.heap _
    exact ⟨hwaiting, hsettled.trans h.settled⟩

/-- **The calls take effect in order**: in every run in which nothing is removed while
its addition waits, a table without waiting calls holds the items that the calls made
so far, one after another, leave. -/
theorem contents_eq_applyCalls (h : ((system S).guarded RemovesSettled).Reachable r)
    (hadd : r.table.addQueue = []) (hremove : r.table.removeQueue = []) :
    r.table.contents = applyCalls r.calls := by
  have hinv : InOrder r := by
    refine h.invariant ?_ fun _ _ _ _ hr hstep => hr.step hstep.2 hstep.1
    rintro r ⟨⟨top, now, htable⟩, hcalls⟩
    refine ⟨?_, ?_⟩
    · rw [htable]
      exact ⟨List.nodup_nil, List.nodup_nil, fun _ hmem => absurd hmem List.not_mem_nil⟩
    · rw [htable, hcalls]
      rfl
  rw [← hinv.settled, Table.settled_of_empty hadd hremove]

/-- Processes that all have one name. -/
def sameName (_ : ℕ) : TableItem where
  name := "bash"
  key := "bash"
  score := 0
  hostName := "tile-0-0"
  pid := "1"
  highlightNumber := -1
  boids := []

/-- A new top-level table. -/
def startedRun : TableRun ℕ := { heap := sameName, table := Table.new true 0, calls := [] }

/-- An early frame. -/
def earlyFrame : FrameInput ℕ := { now := 1, stray := fun _ _ => none }

/-- A process that is removed after a frame is gone after the next one. -/
theorem contents_eq_applyCalls_frames :
    ∃ r, ((system StdSort.insertion).guarded RemovesSettled).Reachable r ∧
      r.calls = [.add 7, .remove 7] ∧ r.table.contents = ∅ := by
  have hstart : ((system StdSort.insertion).guarded RemovesSettled).Reachable startedRun :=
    .start ⟨⟨true, 0, rfl⟩, rfl⟩
  have hadded := hstart.next ⟨call_step _ _ (.add 7) (by simp [startedRun, applyCalls]), trivial⟩
  have hshown := hadded.next ⟨frame_step _ _ earlyFrame, trivial⟩
  have hcalled := hshown.next ⟨call_step _ _ (.remove 7) (by simp), by decide +kernel⟩
  have hremoved := hcalled.next ⟨frame_step _ _ earlyFrame, trivial⟩
  exact ⟨_, hremoved, rfl,
    contents_eq_applyCalls hremoved (by decide +kernel) (by decide +kernel)⟩

/-- A process that starts and ends between two frames stays in the table. -/
theorem removed_before_frame_stays :
    ∃ r : TableRun ℕ, (system StdSort.insertion).Reachable r ∧ r.calls = [.add 7, .remove 7] ∧
      r.table.addQueue = [] ∧ r.table.removeQueue = [] ∧ r.table.contents = {7} ∧
      r.table.contents ≠ applyCalls r.calls := by
  have hstart : (system StdSort.insertion).Reachable startedRun := .start ⟨⟨true, 0, rfl⟩, rfl⟩
  have hadded := hstart.next (call_step _ _ (.add 7) (by simp [startedRun, applyCalls]))
  have hcalled := hadded.next (call_step _ _ (.remove 7) (by simp))
  have hremoved := hcalled.next (frame_step _ _ earlyFrame)
  exact ⟨_, hremoved, rfl, by decide +kernel, by decide +kernel, by decide +kernel,
    by decide +kernel⟩

end TableRun

end WallMon
