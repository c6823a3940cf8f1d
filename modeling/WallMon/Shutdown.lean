import WallMon.StreamItem
import WallMon.DataSink
import WallMon.Transition

/-!
# `Streamer::Stop` and `DataRouter::Stop`

Both components are a thread that takes items from a bounded queue for ever, and both are
stopped in the same way: `Stop` clears `_running`, pushes a dummy item that lies on its own
stack, and joins the thread. The thread looks at `_running` after each `Pop`, and leaves its
loop without looking at the item.

The dummy is never worked on, nor deleted, whatever else is in the queue (`served_items`). But
it is not always needed either: the thread also stops at any other item that it holds at the
time, and then nobody takes from the queue any more. `Stop` hangs if the queue is full by then,
and exactly in this case (`stop_returns_iff`).

The critical sections of the queue are single steps here (see `Queue`).
-/

namespace WallMon

/-- What the queue holds. -/
inductive Entry (α : Type) where
  /-- an item that was queued to be worked on -/
  | item (x : α)
  /-- the dummy of `Stop` -/
  | dummy
  deriving DecidableEq

/-- Where the thread is. -/
inductive WorkerThread (α : Type) where
  /-- before `Pop` -/
  | popping
  /-- before the test of `_running` -/
  | testing (e : Entry α)
  /-- in the rest of the loop -/
  | serving (e : Entry α)
  /-- after the loop -/
  | stopped (e : Entry α)
  deriving DecidableEq

/-- Where the call of `Stop` is. -/
inductive StopThread where
  /-- it was not made -/
  | none
  /-- before `Push` -/
  | flagged
  /-- before `join` -/
  | queued
  /-- it has returned -/
  | returned
  deriving DecidableEq

/-- The queue, the thread and the call of `Stop`. -/
structure Shutdown (α : Type) where
  /-- `_queue` -/
  queue : List (Entry α)
  /-- `_running` -/
  running : Bool
  /-- the thread -/
  worker : WorkerThread α
  /-- the call of `Stop` -/
  stop : StopThread
  /-- history: the items that were queued -/
  pushed : List α
  /-- history: what the thread has worked on -/
  served : List (Entry α)

/-- What happens next. -/
inductive ShutdownEvent (α : Type) where
  /-- another thread pushes an item -/
  | push (x : α)
  /-- the thread pops -/
  | pop
  /-- it tests `_running` -/
  | test
  /-- it works on the item -/
  | serve
  /-- `Stop` clears `_running` -/
  | flag
  /-- it pushes the dummy -/
  | pushDummy
  /-- it joins the thread -/
  | join

namespace Shutdown

variable {α : Type}

/-- One step, with a queue of the given capacity. -/
inductive Step (capacity : ℕ) : Shutdown α → ShutdownEvent α → Shutdown α → Prop where
  /-- `Push`, when there is room -/
  | push {s : Shutdown α} {x : α} : s.queue.length < capacity →
      Step capacity s (.push x) { s with queue := s.queue ++ [.item x], pushed := s.pushed ++ [x] }
  /-- `Pop`, when there is an item -/
  | pop {s : Shutdown α} {e : Entry α} {queue : List (Entry α)} :
      s.worker = .popping → s.queue = e :: queue →
      Step capacity s .pop { s with queue, worker := .testing e }
  /-- `if (_running == false) break` -/
  | test {s : Shutdown α} {e : Entry α} : s.worker = .testing e →
      Step capacity s .test
        { s with worker := if s.running = false then .stopped e else .serving e }
  /-- the rest of the loop, with `delete item` at its end -/
  | serve {s : Shutdown α} {e : Entry α} : s.worker = .serving e →
      Step capacity s .serve { s with worker := .popping, served := s.served ++ [e] }
  /-- `_running = false` -/
  | flag {s : Shutdown α} : s.stop = .none →
      Step capacity s .flag { s with running := false, stop := .flagged }
  /-- `_queue->Push(&item)`, when there is room -/
  | pushDummy {s : Shutdown α} : s.stop = .flagged → s.queue.length < capacity →
      Step capacity s .pushDummy { s with queue := s.queue ++ [.dummy], stop := .queued }
  /-- `_thread.join()`, when the thread has left its loop -/
  | join {s : Shutdown α} {e : Entry α} : s.stop = .queued → s.worker = .stopped e →
      Step capacity s .join { s with stop := .returned }

/-- After `Start`. -/
def initial (α : Type) : Shutdown α where
  queue := []
  running := true
  worker := .popping
  stop := .none
  pushed := []
  served := []

/-- The component with a queue of the given capacity. -/
def system (α : Type) (capacity : ℕ) : TransitionSystem (Shutdown α) (ShutdownEvent α) where
  init s := s = initial α
  step := Step capacity

/-- The items among what the queue held. -/
def items (es : List (Entry α)) : List α :=
  es.filterMap fun
    | .item x => some x
    | .dummy => none

/-- What the thread holds. -/
def held : WorkerThread α → List (Entry α)
  | .popping => []
  | .testing e => [e]
  | .serving e => [e]
  | .stopped e => [e]

@[simp] theorem items_append (es es' : List (Entry α)) :
    items (es ++ es') = items es ++ items es' :=
  List.filterMap_append

@[simp] theorem items_nil : items ([] : List (Entry α)) = [] := rfl

@[simp] theorem items_item (x : α) : items [Entry.item x] = [x] := rfl

@[simp] theorem items_dummy : items [Entry.dummy (α := α)] = [] := rfl

/-- Without the dummy, all are items. -/
theorem eq_map_items {es : List (Entry α)} (h : .dummy ∉ es) : es = (items es).map .item := by
  induction es with
  | nil => rfl
  | cons e es ih =>
    obtain ⟨hne, hes⟩ := not_or.mp (mt List.mem_cons.mpr h)
    cases e with
    | item x => exact congrArg (Entry.item x :: ·) (ih hes)
    | dummy => exact absurd rfl hne

/-- What holds in every reachable state. -/
structure Inv (capacity : ℕ) (s : Shutdown α) : Prop where
  /-- the queue is bounded -/
  bounded : s.queue.length ≤ capacity
  /-- every item was worked on, is held, or waits -/
  accounted : s.pushed = items s.served ++ items (held s.worker) ++ items s.queue
  /-- `_running` is cleared by `Stop` -/
  running_iff : s.running = true ↔ s.stop = .none
  /-- there is no dummy before it is pushed -/
  no_dummy : s.stop = .none ∨ s.stop = .flagged → .dummy ∉ held s.worker ++ s.queue
  /-- and it is not lost -/
  dummy : s.stop = .queued ∨ s.stop = .returned → .dummy ∈ held s.worker ++ s.queue
  /-- the thread does not work on it -/
  serving : ∀ e, s.worker = .serving e → e ≠ .dummy
  /-- and never did -/
  served : .dummy ∉ s.served
  /-- the thread leaves its loop on account of `Stop` -/
  stopped : ∀ e, s.worker = .stopped e → s.running = false
  /-- `Stop` returns after that -/
  returned : s.stop = .returned → ∃ e, s.worker = .stopped e

namespace Inv

variable {capacity : ℕ} {s s' : Shutdown α} {e : ShutdownEvent α}

theorem initial : Inv capacity (Shutdown.initial α) where
  bounded := Nat.zero_le _
  accounted := rfl
  running_iff := iff_of_true rfl rfl
  no_dummy _ := List.not_mem_nil
  dummy h := h.elim nofun nofun
  serving := nofun
  served := List.not_mem_nil
  stopped := nofun
  returned := nofun

theorem push (h : Inv capacity s) {x : α} (hroom : s.queue.length < capacity) :
    Inv capacity { s with queue := s.queue ++ [.item x], pushed := s.pushed ++ [x] } := by
  have hmem : ∀ {es : List (Entry α)}, Entry.dummy ∈ es ++ (s.queue ++ [.item x]) ↔
      Entry.dummy ∈ es ++ s.queue := by
    intro es
    simp
  refine ⟨?_, ?_, h.running_iff, ?_, ?_, h.serving, h.served, h.stopped, h.returned⟩
  · rw [List.length_append, List.length_singleton]
    exact hroom
  · dsimp only
    rw [h.accounted, items_append, items_item, List.append_assoc]
  · exact fun hstop hdummy => h.no_dummy hstop (hmem.mp hdummy)
  · exact fun hstop => hmem.mpr (h.dummy hstop)

theorem pop (h : Inv capacity s) {x : Entry α} {queue : List (Entry α)}
    (hworker : s.worker = .popping) (hqueue : s.queue = x :: queue) :
    Inv capacity { s with queue, worker := .testing x } := by
  have hsame : held s.worker ++ s.queue = held (.testing x) ++ queue := by
    rw [hworker, hqueue]
    rfl
  have hbounded := h.bounded
  rw [hqueue, List.length_cons] at hbounded
  refine ⟨by dsimp only; omega, ?_, h.running_iff, ?_, ?_, nofun, h.served, nofun, ?_⟩
  · have haccounted := h.accounted
    rw [List.append_assoc, ← items_append, hsame, items_append, ← List.append_assoc] at haccounted
    exact haccounted
  · exact hsame ▸ h.no_dummy
  · exact hsame ▸ h.dummy
  · intro hstop
    obtain ⟨e, he⟩ := h.returned hstop
    cases hworker.symm.trans he

theorem test (h : Inv capacity s) {x : Entry α} (hworker : s.worker = .testing x) :
    Inv capacity
      { s with worker := if s.running = false then .stopped x else .serving x } := by
  have hheld : held (if s.running = false then .stopped x else .serving x) = held s.worker := by
    rw [hworker]
    split <;> rfl
  refine ⟨h.bounded, ?_, h.running_iff, ?_, ?_, ?_, h.served, ?_, ?_⟩
  · dsimp only
    rw [hheld]
    exact h.accounted
  · dsimp only
    rw [hheld]
    exact h.no_dummy
  · dsimp only
    rw [hheld]
    exact h.dummy
  · -- as long as `_running` is set there is no dummy
    rintro y hy rfl
    dsimp only at hy
    split at hy
    · cases hy
    · next hrunning =>
      obtain rfl := WorkerThread.serving.inj hy
      have hnone := h.running_iff.mp (by simpa using hrunning)
      refine h.no_dummy (.inl hnone) ?_
      rw [hworker]
      exact List.mem_cons_self ..
  · intro y hy
    dsimp only at hy ⊢
    split at hy
    · assumption
    · cases hy
  · intro hstop
    obtain ⟨y, hy⟩ := h.returned hstop
    cases hworker.symm.trans hy

theorem serve (h : Inv capacity s) {x : Entry α} (hworker : s.worker = .serving x) :
    Inv capacity { s with worker := .popping, served := s.served ++ [x] } := by
  have hx := h.serving x hworker
  have haccounted := h.accounted
  have hdummy : ∀ {queue : List (Entry α)}, Entry.dummy ∈ held s.worker ++ queue ↔
      Entry.dummy ∈ held (.popping (α := α)) ++ queue := by
    intro queue
    rw [hworker]
    simp [held, hx.symm]
  refine ⟨h.bounded, ?_, h.running_iff, ?_, ?_, nofun, ?_, nofun, ?_⟩
  · rw [hworker] at haccounted
    simpa [held] using haccounted
  · exact fun hstop hmem => h.no_dummy hstop (hdummy.mpr hmem)
  · exact fun hstop => hdummy.mp (h.dummy hstop)
  · intro hmem
    rcases List.mem_append.mp hmem with hold | hnew
    · exact h.served hold
    · exact hx (List.mem_singleton.mp hnew).symm
  · intro hstop
    obtain ⟨y, hy⟩ := h.returned hstop
    cases hworker.symm.trans hy

theorem flag (h : Inv capacity s) (hstop : s.stop = .none) :
    Inv capacity { s with running := false, stop := .flagged } where
  bounded := h.bounded
  accounted := h.accounted
  running_iff := iff_of_false nofun nofun
  no_dummy _ := h.no_dummy (.inl hstop)
  dummy h := h.elim nofun nofun
  serving := h.serving
  served := h.served
  stopped _ _ := rfl
  returned := nofun

theorem pushDummy (h : Inv capacity s) (hstop : s.stop = .flagged)
    (hroom : s.queue.length < capacity) :
    Inv capacity { s with queue := s.queue ++ [.dummy], stop := .queued } := by
  have hrunning : s.running ≠ true := by
    rw [Ne, h.running_iff, hstop]
    exact nofun
  refine ⟨?_, ?_, iff_of_false hrunning nofun, ?_, ?_, h.serving, h.served, h.stopped, nofun⟩
  · rw [List.length_append, List.length_singleton]
    exact hroom
  · dsimp only
    rw [items_append, items_dummy, List.append_nil]
    exact h.accounted
  · exact fun h => h.elim nofun nofun
  · intro _
    simp

theorem join (h : Inv capacity s) {x : Entry α} (hstop : s.stop = .queued)
    (hworker : s.worker = .stopped x) : Inv capacity { s with stop := .returned } := by
  have hrunning : s.running ≠ true := by
    rw [Ne, h.running_iff, hstop]
    exact nofun
  exact ⟨h.bounded, h.accounted, iff_of_false hrunning nofun, fun h => h.elim nofun nofun,
    fun _ => h.dummy (.inl hstop), h.serving, h.served, h.stopped, fun _ => ⟨x, hworker⟩⟩

theorem step (h : Inv capacity s) (hstep : Step capacity s e s') : Inv capacity s' := by
  cases hstep with
  | push hroom => exact h.push hroom
  | pop hworker hqueue => exact h.pop hworker hqueue
  | test hworker => exact h.test hworker
  | serve hworker => exact h.serve hworker
  | flag hstop => exact h.flag hstop
  | pushDummy hstop hroom => exact h.pushDummy hstop hroom
  | join hstop hworker => exact h.join hstop hworker

theorem reachable (h : (system α capacity).Reachable s) : Inv capacity s := by
  refine h.invariant (I := Inv capacity) ?_ fun _ _ _ _ hs hstep => hs.step hstep
  rintro _ rfl
  exact initial

/-- `_running` stays cleared. -/
theorem running_step (h : s.running = false) (hstep : Step capacity s e s') :
    s'.running = false := by
  cases hstep with
  | flag => rfl
  | _ => exact h

/-- Once `_running` is cleared, the thread works on no item but the one it is at. -/
theorem served_step (hrunning : s.running = false) (hstep : Step capacity s e s') :
    s'.served = s.served ∧ (∀ x, s'.worker = .serving x → s.worker = .serving x) ∨
      (∃ x, s'.served = s.served ++ [x] ∧ s.worker = .serving x) ∧
        ∀ x, s'.worker ≠ .serving x := by
  cases hstep with
  | push | flag | pushDummy | join => exact .inl ⟨rfl, fun x hx => hx⟩
  | pop => exact .inl ⟨rfl, nofun⟩
  | test =>
    refine .inl ⟨rfl, fun x hx => ?_⟩
    rw [if_pos hrunning] at hx
    cases hx
  | serve hworker => exact .inr ⟨⟨_, rfl, hworker⟩, nofun⟩

end Inv

variable {capacity : ℕ} {s s' : Shutdown α}

/-- Once `_running` is cleared, at most one more item is worked on. -/
theorem served_run (hrunning : s.running = false) {es : List (ShutdownEvent α)}
    (hrun : (system α capacity).Run s es s') :
    ∃ xs, s'.served = s.served ++ xs ∧ xs.length ≤ 1 ∧
      (xs ≠ [] → ∀ x, s'.worker ≠ .serving x) ∧ s'.running = false := by
  induction hrun with
  | nil => exact ⟨[], (List.append_nil _).symm, Nat.zero_le 1, fun h => absurd rfl h, hrunning⟩
  | @snoc _ t u e _ hstep ih =>
    obtain ⟨xs, hserved, hlength, hdone, ht⟩ := ih
    have hu := Inv.running_step ht hstep
    rcases Inv.served_step ht hstep with ⟨hsame, hworker⟩ | ⟨⟨x, hnew, hserving⟩, hnot⟩
    · exact ⟨xs, hsame.trans hserved, hlength, fun hne x hx => hdone hne x (hworker x hx), hu⟩
    · have hnil : xs = [] := by
        by_contra hne
        exact hdone hne x hserving
      subst hnil
      refine ⟨[x], ?_, le_refl 1, fun _ => hnot, hu⟩
      rw [hnew, hserved, List.append_nil]

/-- **The dummy is harmless**: whatever the threads do, the loop works on items only, on those
that were queued first, in their order; and after `Stop` was called on one more at most. -/
theorem served_items (h : (system α capacity).Reachable s) :
    (∃ xs, s.served = xs.map .item ∧ xs <+: s.pushed) ∧ s.worker ≠ .serving .dummy ∧
      (s.stop ≠ .none → ∀ es s', (system α capacity).Run s es s' →
        ∃ more, s'.served = s.served ++ more ∧ more.length ≤ 1) := by
  have hinv := Inv.reachable h
  refine ⟨⟨items s.served, eq_map_items hinv.served, ?_⟩,
    fun hserving => hinv.serving _ hserving rfl, ?_⟩
  · rw [hinv.accounted, List.append_assoc]
    exact List.prefix_append _ _
  · intro hstop es s' hrun
    have hrunning : s.running = false := by simpa using mt hinv.running_iff.mp hstop
    obtain ⟨more, hmore, hlength, -⟩ := served_run hrunning hrun
    exact ⟨more, hmore, hlength⟩

/-! ## When `Stop` returns -/

/-- No other thread pushes. -/
def Quiet : ShutdownEvent α → Prop
  | .push _ => False
  | _ => True

/-- Nothing more happens, unless another thread pushes. -/
def Final (capacity : ℕ) (s : Shutdown α) : Prop :=
  ∀ e s', Quiet e → ¬Step capacity s e s'

/-- The queue is full, `Stop` has the dummy still to push, and the thread takes no item any
more. -/
def Hangs (capacity : ℕ) (s : Shutdown α) : Prop :=
  s.stop = .flagged ∧ capacity ≤ s.queue.length ∧
    ((∃ e, s.worker = .testing e) ∨ ∃ e, s.worker = .stopped e)

/-- The steps that the thread has left. -/
def workLeft : WorkerThread α → ℕ
  | .popping => 2
  | .testing _ => 1
  | .serving _ => 3
  | .stopped _ => 0

/-- The steps that `Stop` has left. -/
def stopLeft : StopThread → ℕ
  | .none => 3
  | .flagged => 2
  | .queued => 1
  | .returned => 0

/-- Every step brings the end nearer. -/
theorem left_step {e : ShutdownEvent α} (hrunning : s.running = false) (hquiet : Quiet e)
    (hstep : Step capacity s e s') :
    workLeft s'.worker + stopLeft s'.stop + 1 = workLeft s.worker + stopLeft s.stop := by
  cases hstep with
  | push => exact absurd hquiet id
  | pop hworker | serve hworker =>
    dsimp only
    rw [hworker, workLeft, workLeft]
    omega
  | test hworker =>
    dsimp only
    rw [if_pos hrunning, hworker, workLeft, workLeft]
    omega
  | flag hstop | pushDummy hstop | join hstop =>
    dsimp only
    rw [hstop, stopLeft, stopLeft]

theorem left_run (hrunning : s.running = false) {es : List (ShutdownEvent α)}
    (hquiet : ∀ e ∈ es, Quiet e) (hrun : (system α capacity).Run s es s') :
    es.length ≤ workLeft s.worker + stopLeft s.stop ∧
      es.length + (workLeft s'.worker + stopLeft s'.stop) = workLeft s.worker + stopLeft s.stop ∧
      s'.running = false := by
  induction hrun with
  | nil => exact ⟨Nat.zero_le _, by rw [List.length_nil, Nat.zero_add], hrunning⟩
  | snoc _ hstep ih =>
    obtain ⟨hbefore, he⟩ := List.forall_mem_append.mp hquiet
    obtain ⟨-, hsum, ht⟩ := ih hbefore
    have hleft := left_step ht (he _ (List.mem_singleton_self _)) hstep
    rw [List.length_append, List.length_singleton]
    exact ⟨by omega, by omega, Inv.running_step ht hstep⟩

/-- A `Stop` that does not hang will not. -/
theorem not_hangs_step {e : ShutdownEvent α} (hnot : ¬Hangs capacity s)
    (hrunning : s.running = false) (hs : Inv capacity s) (hquiet : Quiet e)
    (hstep : Step capacity s e s') : ¬Hangs capacity s' := by
  rintro ⟨hstop', hfull, hworker'⟩
  cases hstep with
  | push => exact absurd hquiet id
  | pop hworker hqueue =>
    have hbounded := hs.bounded
    rw [hqueue, List.length_cons] at hbounded
    dsimp only at hfull
    omega
  | test hworker => exact hnot ⟨hstop', hfull, .inl ⟨_, hworker⟩⟩
  | serve => exact hworker'.elim nofun nofun
  | flag hstop =>
    have hcontra := hs.running_iff.mpr hstop
    rw [hrunning] at hcontra
    cases hcontra
  | pushDummy | join => cases hstop'

/-- Where it ends. -/
theorem returned_of_final (hpos : 0 < capacity) (hs : Inv capacity s)
    (hrunning : s.running = false) (hnot : ¬Hangs capacity s) (hfinal : Final capacity s) :
    s.stop = .returned := by
  cases hworker : s.worker with
  | testing e => exact absurd (.test hworker) (hfinal .test _ trivial)
  | serving e => exact absurd (.serve hworker) (hfinal .serve _ trivial)
  | popping =>
    -- the queue is empty, so the dummy can be pushed, and was not
    have hempty : s.queue = [] := by
      cases hqueue : s.queue with
      | nil => rfl
      | cons e queue => exact absurd (.pop hworker hqueue) (hfinal .pop _ trivial)
    have hnone : Entry.dummy ∉ held s.worker ++ s.queue := by
      rw [hworker, hempty]
      exact List.not_mem_nil
    cases hstop : s.stop with
    | none =>
      have hcontra := hs.running_iff.mpr hstop
      rw [hrunning] at hcontra
      cases hcontra
    | flagged =>
      refine absurd (.pushDummy hstop ?_) (hfinal .pushDummy _ trivial)
      rw [hempty]
      exact hpos
    | queued => exact absurd (hs.dummy (.inl hstop)) hnone
    | returned => rfl
  | stopped e =>
    cases hstop : s.stop with
    | none =>
      have hcontra := hs.running_iff.mpr hstop
      rw [hrunning] at hcontra
      cases hcontra
    | flagged =>
      have hroom : s.queue.length < capacity := by
        by_contra hfull
        exact hnot ⟨hstop, Nat.not_lt.mp hfull, .inr ⟨e, hworker⟩⟩
      exact absurd (.pushDummy hstop hroom) (hfinal .pushDummy _ trivial)
    | queued => exact absurd (.join hstop hworker) (hfinal .join _ trivial)
    | returned => rfl

/-- A `Stop` that hangs ends without having returned. -/
theorem exists_stuck (h : Hangs capacity s) (hrunning : s.running = false) :
    ∃ es s', (∀ e ∈ es, Quiet e) ∧ (system α capacity).Run s es s' ∧ Final capacity s' ∧
      s'.stop = .flagged := by
  obtain ⟨hstop, hfull, hworker⟩ := h
  have hfinal : ∀ {s : Shutdown α} {x : Entry α}, s.stop = .flagged →
      capacity ≤ s.queue.length → s.worker = .stopped x → Final capacity s := by
    intro s x hstop hfull hworker e s' hquiet hstep
    cases hstep with
    | push => exact hquiet
    | pop hworker' | test hworker' | serve hworker' => cases hworker.symm.trans hworker'
    | flag hstop' | join hstop' => cases hstop.symm.trans hstop'
    | pushDummy _ hroom => omega
  rcases hworker with ⟨x, hworker⟩ | ⟨x, hworker⟩
  · refine ⟨[.test], _, List.forall_mem_singleton.mpr trivial,
      TransitionSystem.Run.nil.snoc (.test hworker), hfinal (x := x) hstop hfull ?_, hstop⟩
    exact if_pos hrunning
  · exact ⟨[], s, List.forall_mem_nil _, .nil, hfinal hstop hfull hworker, hstop⟩

/-- **When `Stop` returns.** After it has cleared `_running`, and unless another thread pushes,
everything comes to an end within five steps. In the end `Stop` has returned, in every run,
exactly if it is not the case that it has still to push the dummy, while the queue is full and
the thread holds an item of which it has not yet decided whether to work on it. -/
theorem stop_returns_iff (hpos : 0 < capacity) (h : (system α capacity).Reachable s)
    (hrunning : s.running = false) :
    (∀ es s', (∀ e ∈ es, Quiet e) → (system α capacity).Run s es s' → es.length ≤ 5) ∧
    ((∀ es s', (∀ e ∈ es, Quiet e) → (system α capacity).Run s es s' → Final capacity s' →
      s'.stop = .returned) ↔ ¬Hangs capacity s) := by
  have hinv := Inv.reachable h
  refine ⟨?_, ?_, ?_⟩
  · intro es s' hquiet hrun
    have hwork : workLeft s.worker ≤ 3 := by
      cases s.worker <;> simp [workLeft]
    have hstop : stopLeft s.stop ≤ 2 := by
      cases hstop : s.stop with
      | none =>
        have hcontra := hinv.running_iff.mpr hstop
        rw [hrunning] at hcontra
        cases hcontra
      | flagged | queued | returned => decide
    have hlength := (left_run hrunning hquiet hrun).1
    omega
  · intro hall hhangs
    obtain ⟨es, s', hquiet, hrun, hfinal, hstop⟩ := exists_stuck hhangs hrunning
    cases hstop.symm.trans (hall es s' hquiet hrun hfinal)
  · intro hnot es s' hquiet hrun hfinal
    have hkeeps : Inv capacity s' ∧ s'.running = false ∧ ¬Hangs capacity s' := by
      clear hfinal
      induction hrun with
      | nil => exact ⟨hinv, hrunning, hnot⟩
      | snoc _ hstep ih =>
        obtain ⟨hbefore, he⟩ := List.forall_mem_append.mp hquiet
        obtain ⟨ht, hrunning', hnot'⟩ := ih hbefore
        exact ⟨ht.step hstep, Inv.running_step hrunning' hstep,
          not_hangs_step hnot' hrunning' ht (he _ (List.mem_singleton_self _)) hstep⟩
    exact returned_of_final hpos hkeeps.1 hkeeps.2.1 hkeeps.2.2 hfinal

/-! ## The streamer and the router -/

/-- Items can be pushed until the queue is full. -/
theorem exists_queued (x : α) {n : ℕ} (hn : n ≤ capacity) :
    ∃ s, (system α capacity).Reachable s ∧ s.queue.length = n ∧ s.worker = .popping ∧
      s.stop = .none := by
  induction n with
  | zero => exact ⟨initial α, .start rfl, rfl, rfl, rfl⟩
  | succ n ih =>
    obtain ⟨s, hs, hlength, hworker, hstop⟩ := ih (Nat.le_of_succ_le hn)
    refine ⟨_, hs.next (.push (x := x) (by omega)), ?_, hworker, hstop⟩
    dsimp only
    rw [List.length_append, List.length_singleton, hlength]

/-- **`Stop` can hang**, whatever the capacity: the queue is full, the thread takes an item,
another takes its place, and only then is `_running` cleared. -/
theorem exists_hangs (hpos : 0 < capacity) (x : α) :
    ∃ s, (system α capacity).Reachable s ∧ s.running = false ∧ Hangs capacity s := by
  obtain ⟨s, hs, hlength, hworker, hstop⟩ := exists_queued x (le_refl capacity)
  obtain ⟨e, queue, hqueue⟩ : ∃ e queue, s.queue = e :: queue :=
    List.exists_cons_of_length_pos (by omega)
  rw [hqueue, List.length_cons] at hlength
  have hpop := hs.next (.pop hworker hqueue)
  have hpush := hpop.next (.push (x := x) (by dsimp only; omega))
  have hflag := hpush.next (.flag hstop)
  refine ⟨_, hflag, rfl, rfl, ?_, .inl ⟨e, rfl⟩⟩
  dsimp only
  rw [List.length_append, List.length_singleton]
  omega

end Shutdown

/-- The `Streamer`, its thread, and `Streamer::Stop`. -/
def Streamer.stopping : TransitionSystem (Shutdown StreamItem) (ShutdownEvent StreamItem) :=
  Shutdown.system StreamItem 100

/-- The `DataRouter`, its thread, and `DataRouter::Stop`. -/
def DataRouter.stopping : TransitionSystem (Shutdown RouterItem) (ShutdownEvent RouterItem) :=
  Shutdown.system RouterItem 100

namespace Shutdown

/-- An item is sent; `Stop` is called while another one waits, and the thread stops at that. -/
theorem served_items_two_items :
    ∃ s, Streamer.stopping.Reachable s ∧
      (∃ xs, s.served = xs.map .item ∧ xs <+: s.pushed) ∧ s.worker ≠ .serving .dummy := by
  have hstart : Streamer.stopping.Reachable (initial StreamItem) := .start rfl
  have hpush := hstart.next (.push (x := .ofPayload [7]) (by decide))
  have hpush' := hpush.next (.push (x := .ofPayload [8]) (by decide))
  have hpop := hpush'.next (.pop rfl rfl)
  have htest := hpop.next (.test rfl)
  have hserve := htest.next (.serve rfl)
  have hflag := hserve.next (.flag rfl)
  have hall := served_items hflag
  exact ⟨_, hflag, hall.1, hall.2.1⟩

/-- The router's `Stop` does not always return. -/
theorem stop_returns_iff_full_queue :
    ∃ s, DataRouter.stopping.Reachable s ∧
      ¬∀ es s', (∀ e ∈ es, Quiet e) → DataRouter.stopping.Run s es s' → Final 100 s' →
        s'.stop = .returned := by
  obtain ⟨s, hs, hrunning, hhangs⟩ :=
    exists_hangs (show 0 < 100 by decide) (RouterItem.mk 1 [7])
  refine ⟨s, hs, fun hall => ?_⟩
  exact (stop_returns_iff (by decide) hs hrunning).2.mp hall hhangs

end Shutdown

end WallMon
