import WallMon.Monitor

/-!
# `Queue`

The bounded queue between the threads of a process: `Push`, `Pop` and `GetSize` are
critical sections of one mutex, and producers and consumers wait on the same
condition. It is a monitor, with the items it holds as its state.

Its history is read off the finished calls: `pushed` are the items whose `Push` has
taken effect, `popped` those a `Pop` has returned, in this order.
-/

namespace WallMon

/-- The calls of a `Queue<T>`. -/
inductive QueueCall (α : Type) where
  /-- `Push(item)` -/
  | push (item : α)
  /-- `Pop()` -/
  | pop
  /-- `GetSize()` -/
  | getSize

/-- What the calls return. -/
inductive QueueResult (α : Type) where
  /-- `Push` returns nothing -/
  | done
  /-- the item from the front -/
  | item (x : α)
  /-- the number of items -/
  | size (n : ℕ)

/-- The item a call adds. -/
def QueueCall.added {α : Type} : QueueCall α → Option α
  | .push item => some item
  | .pop => none
  | .getSize => none

/-- The item a call took. -/
def QueueResult.taken {α : Type} : QueueResult α → Option α
  | .done => none
  | .item x => some x
  | .size _ => none

namespace Queue

variable {α ι : Type}

/-- `Queue::Push`, from acquiring the mutex: wait while the queue is full. -/
def push (capacity : ℕ) (item : α) (queue : List α) : Option (List α × QueueResult α) :=
  if queue.length ≥ capacity then none else some (queue ++ [item], .done)

/-- `Queue::Pop`: wait while the queue is empty. -/
def pop : List α → Option (List α × QueueResult α)
  | [] => none
  | item :: queue => some (queue, .item item)

/-- `Queue::GetSize`: never waits. -/
def getSize (queue : List α) : Option (List α × QueueResult α) :=
  some (queue, .size queue.length)

/-- The queue as a monitor: `Push` and `Pop` end with `notify_one`. -/
def monitor (α : Type) (capacity : ℕ) : Monitor (List α) (QueueCall α) (QueueResult α) where
  attempt
    | .push item => push capacity item
    | .pop => pop
    | .getSize => getSize
  notifies
    | .push _ => true
    | .pop => true
    | .getSize => false

/-- A queue of the given capacity, empty at first, whose threads may make the calls
`may` says. -/
def system [DecidableEq ι] (α : Type) (capacity : ℕ) (may : ι → QueueCall α → Prop) :
    TransitionSystem (Monitor.Config ι (List α) (QueueCall α) (QueueResult α))
      (Monitor.Event ι (QueueCall α)) :=
  (monitor α capacity).system may []

/-! ## First in, first out -/

/-- The items pushed, in the order in which their pushes took effect. -/
def pushed (log : List (ι × QueueCall α × QueueResult α)) : List α :=
  log.filterMap (·.2.1.added)

/-- The items popped, in the order in which the pops happened. -/
def popped (log : List (ι × QueueCall α × QueueResult α)) : List α :=
  log.filterMap (·.2.2.taken)

/-- What one finished call does to the contents. -/
theorem attempt_fifo {capacity : ℕ} {c : QueueCall α} {q q' : List α} {r : QueueResult α}
    (h : (monitor α capacity).attempt c q = some (q', r)) :
    q ++ c.added.toList = r.taken.toList ++ q' ∧
      (q.length ≤ capacity → q'.length ≤ capacity) := by
  cases c with
  | push item =>
    change push capacity item q = some (q', r) at h
    rw [push] at h
    split at h
    · cases h
    · next hroom =>
      cases h
      refine ⟨rfl, fun _ => ?_⟩
      rw [List.length_append, List.length_singleton]
      exact Nat.lt_of_not_le hroom
  | pop =>
    cases q with
    | nil => cases h
    | cons item q =>
      cases h
      exact ⟨List.append_nil _, fun hle => le_trans (Nat.le_succ _) hle⟩
  | getSize =>
    cases h
    exact ⟨List.append_nil _, id⟩

/-- **The sequential queue is a bounded FIFO.** -/
theorem replays_fifo {capacity : ℕ} {log : List (ι × QueueCall α × QueueResult α)}
    {q q' : List α} (h : (monitor α capacity).Replays q log q') :
    q ++ pushed log = popped log ++ q' ∧ (q.length ≤ capacity → q'.length ≤ capacity) := by
  induction log generalizing q with
  | nil =>
    obtain rfl : q = q' := h
    exact ⟨List.append_nil _, id⟩
  | cons e log ih =>
    obtain ⟨i, c, r⟩ := e
    obtain ⟨u, hattempt, hlog⟩ := h
    obtain ⟨hitems, hlen⟩ := attempt_fifo hattempt
    obtain ⟨ihitems, ihlen⟩ := ih hlog
    refine ⟨?_, fun hle => ihlen (hlen hle)⟩
    calc q ++ pushed ((i, c, r) :: log)
        = (q ++ c.added.toList) ++ pushed log := by
          cases c <;> simp [pushed, QueueCall.added]
      _ = r.taken.toList ++ (u ++ pushed log) := by rw [hitems, List.append_assoc]
      _ = popped ((i, c, r) :: log) ++ q' := by
          rw [ihitems]
          cases r <;> simp [popped, QueueResult.taken]

/-- Only `Pop` returns an item. -/
theorem eq_pop_of_item {capacity : ℕ} {c : QueueCall α} {q q' : List α} {r : QueueResult α}
    (h : (monitor α capacity).attempt c q = some (q', r)) (hr : r.taken ≠ none) : c = .pop := by
  cases c with
  | push item =>
    change push capacity item q = some (q', r) at h
    rw [push] at h
    split at h
    · cases h
    · cases h
      exact absurd rfl hr
  | pop => rfl
  | getSize =>
    cases h
    exact absurd rfl hr

theorem eq_pop_of_mem {capacity : ℕ} {log : List (ι × QueueCall α × QueueResult α)}
    {q q' : List α} (h : (monitor α capacity).Replays q log q') {i : ι} {c : QueueCall α}
    {r : QueueResult α} (hmem : (i, c, r) ∈ log) (hr : r.taken ≠ none) : c = .pop := by
  obtain ⟨l₁, l₂, rfl⟩ := List.append_of_mem hmem
  obtain ⟨u, -, v, hattempt, -⟩ := Monitor.replays_append.mp h
  exact eq_pop_of_item hattempt hr

section Runs

variable [DecidableEq ι] {N : ℕ} {may : ι → QueueCall α → Prop}
  {cfg : Monitor.Config ι (List α) (QueueCall α) (QueueResult α)}

/-- The items a thread has passed to `Push`, in order. -/
def sent (cfg : Monitor.Config ι (List α) (QueueCall α) (QueueResult α)) (i : ι) : List α :=
  (Monitor.issuedBy cfg i).filterMap QueueCall.added

/-- The item a thread is still trying to push. -/
def unfinished (cfg : Monitor.Config ι (List α) (QueueCall α) (QueueResult α)) (i : ι) : List α :=
  (cfg.status i).pending.filterMap QueueCall.added

/-- The items a thread has got from `Pop`, in order. -/
def received (cfg : Monitor.Config ι (List α) (QueueCall α) (QueueResult α)) (i : ι) : List α :=
  (Monitor.finishedBy cfg i).filterMap (·.2.taken)

/-- With one consumer, what was popped is what it received. -/
theorem popped_eq_received (h : (system α N may).Reachable cfg) {i : ι}
    (honly : ∀ j, may j .pop → j = i) : popped cfg.finished = received cfg i := by
  rw [received, Monitor.finishedBy, Monitor.filterMap_entriesOf]
  · rfl
  · rintro ⟨j, c, r⟩ hmem hr
    obtain rfl := eq_pop_of_mem (Monitor.replays_of_reachable h) hmem hr
    exact honly j (Monitor.may_of_finished h hmem)

/-- With one producer, what it sent is what was pushed and what it is still pushing. -/
theorem sent_eq_pushed (h : (system α N may).Reachable cfg) {i : ι}
    (honly : ∀ j x, may j (.push x) → j = i) :
    sent cfg i = pushed cfg.finished ++ unfinished cfg i := by
  have hpushed : pushed cfg.finished = (Monitor.finishedBy cfg i).filterMap (·.1.added) := by
    rw [Monitor.finishedBy, Monitor.filterMap_entriesOf]
    · rfl
    · rintro ⟨j, c, r⟩ hmem hadded
      cases c with
      | push x => exact honly j x (Monitor.may_of_finished h hmem)
      | pop => exact absurd rfl hadded
      | getSize => exact absurd rfl hadded
  rw [sent, Monitor.issuedBy_of_reachable h i, List.filterMap_append, List.filterMap_map, hpushed,
    unfinished]
  rfl

/-- **`Queue` is a lossless bounded FIFO**, whichever threads use it and however they
are scheduled: the items popped and the contents are the items pushed, in order;
the contents fit; `GetSize` tells the number of items at that point of the history;
and a single consumer receives what a single producer sent. -/
theorem popped_append_contents (h : (system α N may).Reachable cfg) :
    popped cfg.finished ++ cfg.shared = pushed cfg.finished ∧
    cfg.shared.length ≤ N ∧
    (∀ earlier i r later, cfg.finished = earlier ++ (i, .getSize, r) :: later →
      ∃ contents, popped earlier ++ contents = pushed earlier ∧ r = .size contents.length) ∧
    (∀ producer consumer, (∀ j x, may j (.push x) → j = producer) →
      (∀ j, may j .pop → j = consumer) →
      received cfg consumer ++ cfg.shared ++ unfinished cfg producer = sent cfg producer) := by
  have hreplays := Monitor.replays_of_reachable h
  obtain ⟨hitems, hlen⟩ := replays_fifo hreplays
  refine ⟨hitems.symm, hlen (Nat.zero_le N), ?_, ?_⟩
  · intro earlier i r later heq
    rw [heq] at hreplays
    obtain ⟨contents, hearlier, _, hattempt, -⟩ := Monitor.replays_append.mp hreplays
    refine ⟨contents, (replays_fifo hearlier).1.symm, ?_⟩
    cases hattempt
    rfl
  · intro producer consumer hproducer hconsumer
    rw [sent_eq_pushed h hproducer, ← popped_eq_received h hconsumer]
    exact congrArg (· ++ unfinished cfg producer) hitems.symm

/-- Two producers and a consumer of a queue for one item. The consumer waits for the first item,
and the second producer for it to be taken; at the end the consumer asks for the size. -/
theorem popped_append_contents_two_producers :
    ∃ cfg, (system ℕ 1 fun (_ : Fin 3) _ => True).Reachable cfg ∧ cfg.shared = [6] ∧
      popped cfg.finished ++ cfg.shared = [5, 6] ∧ sent cfg 0 = [5] ∧ sent cfg 1 = [6] ∧
      received cfg 2 = [5] ∧ (2, .getSize, .size 1) ∈ cfg.finished := by
  have hstart : (system ℕ 1 fun (_ : Fin 3) _ => True).Reachable
      (Monitor.initial (Fin 3) (QueueCall ℕ) (QueueResult ℕ) []) := .start rfl
  have hwait := (hstart.next (.call (i := 2) (c := .pop) rfl trivial)).next
    (.block (i := 2) (c := .pop) rfl rfl)
  have hfirst := (hwait.next (.call (i := 0) (c := .push 5) rfl trivial)).next
    (.finish (i := 0) (c := .push 5) (s := [5]) (r := .done) rfl rfl rfl
      (.one (j := 2) (c := .pop) rfl))
  have hfull := (hfirst.next (.call (i := 1) (c := .push 6) rfl trivial)).next
    (.block (i := 1) (c := .push 6) rfl rfl)
  have hpop := hfull.next
    (.finish (i := 2) (c := .pop) (s := []) (r := .item 5) rfl rfl rfl
      (.one (j := 1) (c := .push 6) rfl))
  have hsecond := hpop.next
    (.finish (i := 1) (c := .push 6) (s := [6]) (r := .done) rfl rfl rfl (.nobody ?_))
  · have hsize := (hsecond.next (.call (i := 2) (c := .getSize) rfl trivial)).next
      (.finishQuietly (i := 2) (c := .getSize) (s := [6]) (r := .size 1) rfl rfl rfl)
    exact ⟨_, hsize, rfl, (popped_append_contents hsize).1, rfl, rfl, rfl,
      List.mem_append_right _ (List.mem_singleton_self _)⟩
  · -- nobody waits when the second item is pushed
    intro j c
    match j with
    | 0 => exact fun h => nomatch h
    | 1 => exact fun h => nomatch h
    | 2 => exact fun h => nomatch h

/-! ## Wake-ups -/

/-- A thread that is a producer or a consumer: it makes the calls of its side. -/
def Plays (kind : ι → Monitor.Side) (i : ι) : QueueCall α → Prop
  | .push _ => kind i = .giving
  | .pop => kind i = .taking
  | .getSize => True

/-- Free places are available to producers, items to consumers. -/
def twoSided (α : Type) (N : ℕ) : (monitor α N).TwoSided N where
  side
    | .push _ => some .giving
    | .pop => some .taking
    | .getSize => none
  avail
    | .giving, queue => N - queue.length
    | .taking, queue => queue.length
  blocked := by
    intro c queue h
    cases c with
    | push item =>
      refine ⟨.giving, rfl, ?_⟩
      change push N item queue = none at h
      rw [push] at h
      split at h
      · next hfull =>
        show (N : ℤ) - queue.length ≤ 0
        omega
      · cases h
    | pop =>
      cases queue with
      | nil => exact ⟨.taking, rfl, le_refl _⟩
      | cons item queue => cases h
    | getSize => cases h
  passed := by
    intro c queue queue' r k h hk
    cases c with
    | push item =>
      cases hk
      change push N item queue = some (queue', r) at h
      rw [push] at h
      split at h
      · cases h
      · next hroom =>
        obtain ⟨rfl, rfl⟩ := Prod.mk.inj (Option.some.inj h)
        show (0 : ℤ) < N - queue.length ∧
          (N : ℤ) - (queue ++ [item]).length = N - queue.length - 1 ∧
          ((queue ++ [item]).length : ℤ) = queue.length + 1
        rw [List.length_append, List.length_singleton]
        omega
    | pop =>
      cases hk
      cases queue with
      | nil => cases h
      | cons item queue =>
        cases h
        show (0 : ℤ) < (item :: queue').length ∧ (queue'.length : ℤ) = (item :: queue').length - 1 ∧
          (N : ℤ) - queue'.length = N - (item :: queue').length + 1
        rw [List.length_cons]
        omega
    | getSize => cases hk
  kept := by
    intro c queue queue' r h hc k
    cases c with
    | push item => cases hc
    | pop => cases hc
    | getSize =>
      cases h
      rfl
  notifies := by
    intro c k hk
    cases c with
    | push item => rfl
    | pop => rfl
    | getSize => cases hk

/-- **No wake-up is lost**: with at most `N` producers and at most `N` consumers, when
every thread with an unfinished call waits, a waiting consumer finds the queue
empty and a waiting producer finds it full. -/
theorem no_lost_wakeup [Fintype ι] {kind : ι → Monitor.Side}
    (hproducers : (Finset.univ.filter fun i => kind i = .giving).card ≤ N)
    (hconsumers : (Finset.univ.filter fun i => kind i = .taking).card ≤ N)
    (h : (system α N (Plays kind)).Reachable cfg) (hall : ∀ i c, cfg.status i ≠ .ready c) :
    (∀ i, cfg.status i = .waiting .pop → cfg.shared = []) ∧
    (∀ i x, cfg.status i = .waiting (.push x) → N ≤ cfg.shared.length) := by
  have hkind : ∀ i c k, Plays kind i c → (twoSided α N).side c = some k → kind i = k := by
    intro i c k hplays hk
    cases c with
    | push item =>
      cases hk
      exact hplays
    | pop =>
      cases hk
      exact hplays
    | getSize => cases hk
  have hcard : ∀ k, (Finset.univ.filter fun i => kind i = k).card ≤ N := by
    intro k
    cases k with
    | giving => exact hproducers
    | taking => exact hconsumers
  have hstart : ∀ k, (twoSided α N).avail k [] + (twoSided α N).avail k.other [] = N ∧
      0 ≤ (twoSided α N).avail k [] := by
    intro k
    cases k with
    | giving => simp [twoSided, Monitor.Side.other]
    | taking => simp [twoSided, Monitor.Side.other]
  refine ⟨?_, ?_⟩
  · intro i hi
    have hle : (cfg.shared.length : ℤ) ≤ 0 :=
      (twoSided α N).avail_of_all_waiting hkind hcard hstart h hall hi rfl
    exact List.length_eq_zero_iff.mp (by omega)
  · intro i x hi
    have hle : (N : ℤ) - cfg.shared.length ≤ 0 :=
      (twoSided α N).avail_of_all_waiting hkind hcard hstart h hall hi rfl
    omega

/-- A producer that waits with its second item, and a consumer that does nothing. -/
theorem no_lost_wakeup_full :
    ∃ cfg, (system ℕ 1 (Plays fun b : Bool => if b then .giving else .taking)).Reachable cfg ∧
      cfg.status true = .waiting (.push 6) ∧ 1 ≤ cfg.shared.length := by
  have hstart : (system ℕ 1 (Plays fun b : Bool => if b then .giving else .taking)).Reachable
      (Monitor.initial Bool (QueueCall ℕ) (QueueResult ℕ) []) := .start rfl
  have hcall := hstart.next (.call (i := true) (c := .push 5) rfl (by rfl))
  have hpush := hcall.next
    (.finish (i := true) (c := .push 5) (s := [5]) (r := .done) rfl rfl rfl (.nobody ?_))
  · have hcall' := hpush.next (.call (i := true) (c := .push 6) rfl (by rfl))
    have hblock := hcall'.next (.block (i := true) (c := .push 6) rfl rfl)
    refine ⟨_, hblock, rfl, ?_⟩
    refine (no_lost_wakeup (by decide) (by decide) hblock ?_).2 true 6 rfl
    intro b c
    cases b with
    | true => exact nofun
    | false => exact nofun
  · intro b c
    cases b with
    | true => exact nofun
    | false => exact nofun

end Runs

end Queue

end WallMon
