import Mathlib.Data.Fintype.Basic
import Mathlib.Data.Finset.Card
import Mathlib.Data.Fintype.Card
import WallMon.Transition

/-!
# Monitors

An object guarded by one mutex and one condition variable, used by a family of
threads. A call runs its critical section; when the condition it needs does not
hold, the thread joins the wait set, and tries again after it has been woken. A
finished call may notify one waiter, which the implementation chooses; waiters
may also wake up for no reason.

Three facts hold of every monitor:

* the critical sections, in the order they ended, are a sequential run of the
  object (`replays_of_reachable`);
* each thread's calls end in the order in which it made them
  (`issuedBy_of_reachable`);
* when the calls fall into two sides that hand each other units of a fixed total,
  and neither side has more threads than there are units, no wake-up is lost
  (`TwoSided.avail_of_all_waiting`).
-/

namespace WallMon

/-- What a thread is doing. -/
inductive Status (κ : Type) where
  /-- nothing with the monitor -/
  | idle
  /-- it has a call to finish and can run -/
  | ready (c : κ)
  /-- it has a call to finish and is in the wait set -/
  | waiting (c : κ)

/-- The call a thread has not finished. -/
def Status.pending {κ : Type} : Status κ → List κ
  | .idle => []
  | .ready c => [c]
  | .waiting c => [c]

/-- An object of state `S` with calls `κ` and results `ρ`. -/
structure Monitor (S κ ρ : Type) where
  /-- one attempt at a call's critical section; `none` when it has to wait -/
  attempt : κ → S → Option (S × ρ)
  /-- the critical section ends with `notify_one` -/
  notifies : κ → Bool

namespace Monitor

variable {ι S κ ρ : Type}

/-- The object and its threads. -/
structure Config (ι S κ ρ : Type) where
  /-- the state of the object -/
  shared : S
  /-- what the threads are doing -/
  status : ι → Status κ
  /-- history: the calls made, by whom -/
  issued : List (ι × κ)
  /-- history: the calls that ended, by whom and with which result -/
  finished : List (ι × κ × ρ)

/-- What happens at a monitor. -/
inductive Event (ι κ : Type) where
  /-- a thread makes a call -/
  | call (i : ι) (c : κ)
  /-- a thread joins the wait set -/
  | block (i : ι)
  /-- a thread ends its call and wakes another -/
  | finish (i : ι) (woken : Option ι)
  /-- a thread leaves the wait set unnotified -/
  | spurious (i : ι)

variable [DecidableEq ι]

/-- `notify_one`: one waiter, if there is any, becomes runnable. -/
inductive NotifyOne (status : ι → Status κ) : Option ι → (ι → Status κ) → Prop where
  /-- the wait set is empty -/
  | nobody : (∀ j c, status j ≠ .waiting c) → NotifyOne status none status
  /-- some waiter -/
  | one {j : ι} {c : κ} : status j = .waiting c →
      NotifyOne status (some j) (Function.update status j (.ready c))

/-- One step of a monitor whose threads may make the calls `may` says. -/
inductive Step (M : Monitor S κ ρ) (may : ι → κ → Prop) :
    Config ι S κ ρ → Event ι κ → Config ι S κ ρ → Prop where
  /-- a thread makes a call -/
  | call {cfg : Config ι S κ ρ} {i : ι} {c : κ} : cfg.status i = .idle → may i c →
      Step M may cfg (.call i c)
        { shared := cfg.shared, status := Function.update cfg.status i (.ready c),
          issued := cfg.issued ++ [(i, c)], finished := cfg.finished }
  /-- its condition does not hold -/
  | block {cfg : Config ι S κ ρ} {i : ι} {c : κ} : cfg.status i = .ready c →
      M.attempt c cfg.shared = none →
      Step M may cfg (.block i)
        { cfg with status := Function.update cfg.status i (.waiting c) }
  /-- it does, and a waiter is notified -/
  | finish {cfg : Config ι S κ ρ} {i : ι} {c : κ} {s : S} {r : ρ} {woken : Option ι}
      {status : ι → Status κ} : cfg.status i = .ready c →
      M.attempt c cfg.shared = some (s, r) → M.notifies c = true →
      NotifyOne (Function.update cfg.status i .idle) woken status →
      Step M may cfg (.finish i woken)
        { shared := s, status, issued := cfg.issued, finished := cfg.finished ++ [(i, c, r)] }
  /-- it does, and the call notifies nobody -/
  | finishQuietly {cfg : Config ι S κ ρ} {i : ι} {c : κ} {s : S} {r : ρ} :
      cfg.status i = .ready c → M.attempt c cfg.shared = some (s, r) → M.notifies c = false →
      Step M may cfg (.finish i none)
        { shared := s, status := Function.update cfg.status i .idle, issued := cfg.issued,
          finished := cfg.finished ++ [(i, c, r)] }
  /-- a spurious wake-up -/
  | spurious {cfg : Config ι S κ ρ} {i : ι} {c : κ} : cfg.status i = .waiting c →
      Step M may cfg (.spurious i)
        { cfg with status := Function.update cfg.status i (.ready c) }

/-- A monitor whose object starts in `s`, before any call. -/
def initial (ι κ ρ : Type) (s : S) : Config ι S κ ρ where
  shared := s
  status _ := .idle
  issued := []
  finished := []

/-- The transition system of a monitor. -/
def system (M : Monitor S κ ρ) (may : ι → κ → Prop) (s : S) :
    TransitionSystem (Config ι S κ ρ) (Event ι κ) where
  init cfg := cfg = initial ι κ ρ s
  step := Step M may

variable {M : Monitor S κ ρ} {may : ι → κ → Prop} {s₀ : S} {cfg : Config ι S κ ρ}

/-! ## The sequential run -/

omit [DecidableEq ι] in
/-- Running the finished critical sections one after the other, with the results
they had, leads from `s` to `t`. -/
def Replays (M : Monitor S κ ρ) : S → List (ι × κ × ρ) → S → Prop
  | s, [], t => s = t
  | s, (_, c, r) :: log, t => ∃ u, M.attempt c s = some (u, r) ∧ Replays M u log t

omit [DecidableEq ι] in
theorem replays_append {s t : S} {l₁ l₂ : List (ι × κ × ρ)} :
    M.Replays s (l₁ ++ l₂) t ↔ ∃ u, M.Replays s l₁ u ∧ M.Replays u l₂ t := by
  induction l₁ generalizing s with
  | nil =>
    refine ⟨fun h => ?_, ?_⟩
    · exact ⟨s, rfl, h⟩
    · rintro ⟨u, rfl, h⟩
      exact h
  | cons e l₁ ih =>
    obtain ⟨i, c, r⟩ := e
    refine ⟨?_, ?_⟩
    · rintro ⟨u, hattempt, h⟩
      obtain ⟨v, h₁, h₂⟩ := ih.mp h
      exact ⟨v, ⟨u, hattempt, h₁⟩, h₂⟩
    · rintro ⟨v, ⟨u, hattempt, h₁⟩, h₂⟩
      exact ⟨u, hattempt, ih.mpr ⟨v, h₁, h₂⟩⟩

omit [DecidableEq ι] in
/-- One more critical section at the end. -/
theorem Replays.snoc {s t u : S} {log : List (ι × κ × ρ)} {i : ι} {c : κ} {r : ρ}
    (h : M.Replays s log t) (hattempt : M.attempt c t = some (u, r)) :
    M.Replays s (log ++ [(i, c, r)]) u :=
  replays_append.mpr ⟨t, h, u, hattempt, rfl⟩

/-- **Critical sections are serialized**: the state of the object is that of the
sequential run of the finished calls. -/
theorem replays_of_reachable (h : (M.system may s₀).Reachable cfg) :
    M.Replays s₀ cfg.finished cfg.shared := by
  refine h.invariant (I := fun cfg => M.Replays s₀ cfg.finished cfg.shared) ?_ ?_
  · rintro cfg rfl
    exact rfl
  · intro cfg l cfg' _ ih hstep
    cases hstep with
    | call _ _ => exact ih
    | block _ _ => exact ih
    | finish _ hattempt _ _ => exact ih.snoc hattempt
    | finishQuietly _ hattempt _ => exact ih.snoc hattempt
    | spurious _ => exact ih

/-! ## Program order -/

/-- The entries of a log that belong to a thread. -/
def entriesOf {β : Type} (log : List (ι × β)) (i : ι) : List β :=
  (log.filter (·.1 = i)).map (·.2)

theorem entriesOf_snoc_self {β : Type} (log : List (ι × β)) (i : ι) (b : β) :
    entriesOf (log ++ [(i, b)]) i = entriesOf log i ++ [b] := by
  simp [entriesOf]

theorem entriesOf_snoc_ne {β : Type} (log : List (ι × β)) {i j : ι} (h : j ≠ i) (b : β) :
    entriesOf (log ++ [(j, b)]) i = entriesOf log i := by
  simp [entriesOf, h]

/-- A part of a log that all belongs to one thread can be read off that thread's
entries. -/
theorem filterMap_entriesOf {β γ : Type} {f : β → Option γ} {log : List (ι × β)} {i : ι}
    (h : ∀ e ∈ log, f e.2 ≠ none → e.1 = i) :
    (entriesOf log i).filterMap f = log.filterMap fun e => f e.2 := by
  rw [entriesOf, List.filterMap_map, List.filterMap_filter]
  refine List.filterMap_congr fun e he => ?_
  by_cases hi : e.1 = i
  · simp [hi]
  · have hnone : f e.2 = none := by
      by_contra hf
      exact hi (h e he hf)
    simp [hi, hnone]

/-- The calls a thread made, in order. -/
def issuedBy (cfg : Config ι S κ ρ) (i : ι) : List κ := entriesOf cfg.issued i

/-- The calls of a thread that ended, in the order they ended. -/
def finishedBy (cfg : Config ι S κ ρ) (i : ι) : List (κ × ρ) := entriesOf cfg.finished i

/-- Changing how a thread stands to its call changes no thread's call. -/
theorem pending_update {status : ι → Status κ} {j : ι} {x : Status κ}
    (h : x.pending = (status j).pending) (i : ι) :
    (Function.update status j x i).pending = (status i).pending := by
  by_cases hij : i = j
  · subst hij
    rw [Function.update_self, h]
  · rw [Function.update_of_ne hij]

theorem NotifyOne.pending_eq {status status' : ι → Status κ} {woken : Option ι}
    (h : NotifyOne status woken status') (i : ι) : (status' i).pending = (status i).pending := by
  cases h with
  | nobody _ => rfl
  | one hj => exact pending_update (by rw [hj]; rfl) i

/-- Ending its call and waking a waiter, seen from one thread. -/
theorem finish_order {i j : ι} {c : κ} {r : ρ} {status : ι → Status κ}
    (hj : cfg.status j = .ready c)
    (hpending : (status i).pending = (Function.update cfg.status j .idle i).pending)
    (ih : issuedBy cfg i = (finishedBy cfg i).map (·.1) ++ (cfg.status i).pending) :
    issuedBy cfg i =
      (entriesOf (cfg.finished ++ [(j, c, r)]) i).map (·.1) ++ (status i).pending := by
  rw [hpending, ih]
  by_cases hij : i = j
  · subst hij
    rw [entriesOf_snoc_self, Function.update_self, hj, List.map_append, List.append_assoc]
    rfl
  · rw [entriesOf_snoc_ne _ (Ne.symm hij), Function.update_of_ne hij]
    rfl

/-- **Program order**: the calls a thread made are those it finished, then the one
it has not. -/
theorem issuedBy_of_reachable (h : (M.system may s₀).Reachable cfg) (i : ι) :
    issuedBy cfg i = (finishedBy cfg i).map (·.1) ++ (cfg.status i).pending := by
  refine h.invariant
    (I := fun cfg => issuedBy cfg i = (finishedBy cfg i).map (·.1) ++ (cfg.status i).pending) ?_ ?_
  · rintro cfg rfl
    rfl
  · intro cfg l cfg' _ ih hstep
    cases hstep with
    | @call j c hj _ =>
      change entriesOf (cfg.issued ++ [(j, c)]) i =
        (finishedBy cfg i).map (·.1) ++ (Function.update cfg.status j (.ready c) i).pending
      by_cases hij : i = j
      · subst hij
        rw [hj, issuedBy] at ih
        rw [entriesOf_snoc_self, Function.update_self, ih]
        simp [Status.pending]
      · rw [entriesOf_snoc_ne _ (Ne.symm hij), Function.update_of_ne hij]
        exact ih
    | @block j c hj _ =>
      have hsame : (Function.update cfg.status j (.waiting c) i).pending =
          (cfg.status i).pending := pending_update (by rw [hj]; rfl) i
      rw [← hsame] at ih
      exact ih
    | finish hj _ _ hnotify => exact finish_order hj (hnotify.pending_eq i) ih
    | finishQuietly hj _ _ => exact finish_order hj rfl ih
    | @spurious j c hj =>
      have hsame : (Function.update cfg.status j (.ready c) i).pending =
          (cfg.status i).pending := pending_update (by rw [hj]; rfl) i
      rw [← hsame] at ih
      exact ih

/-- Threads only made calls they may make. -/
theorem may_of_issuedBy (h : (M.system may s₀).Reachable cfg) {i : ι} {c : κ}
    (hc : c ∈ issuedBy cfg i) : may i c := by
  have hissued : ∀ e ∈ cfg.issued, may e.1 e.2 := by
    refine h.invariant (I := fun cfg => ∀ e ∈ cfg.issued, may e.1 e.2) ?_ ?_
    · rintro cfg rfl e he
      exact absurd he List.not_mem_nil
    · intro cfg l cfg' _ ih hstep
      cases hstep with
      | call _ hmay =>
        intro e he
        rcases List.mem_append.mp he with hold | hnew
        · exact ih e hold
        · obtain rfl := List.mem_singleton.mp hnew
          exact hmay
      | block _ _ => exact ih
      | finish _ _ _ _ => exact ih
      | finishQuietly _ _ _ => exact ih
      | spurious _ => exact ih
  obtain ⟨⟨j, d⟩, hown, rfl⟩ := List.mem_map.mp hc
  obtain ⟨hentry, hj⟩ := List.mem_filter.mp hown
  obtain rfl : j = i := of_decide_eq_true hj
  exact hissued _ hentry

theorem may_of_pending (h : (M.system may s₀).Reachable cfg) {i : ι} {c : κ}
    (hc : c ∈ (cfg.status i).pending) : may i c := by
  apply may_of_issuedBy h
  rw [issuedBy_of_reachable h i]
  exact List.mem_append_right _ hc

theorem may_of_finished (h : (M.system may s₀).Reachable cfg) {i : ι} {c : κ} {r : ρ}
    (hc : (i, c, r) ∈ cfg.finished) : may i c := by
  apply may_of_issuedBy h
  rw [issuedBy_of_reachable h i]
  refine List.mem_append_left _ (List.mem_map.mpr ⟨(c, r), ?_, rfl⟩)
  exact List.mem_map.mpr ⟨(i, c, r), List.mem_filter.mpr ⟨hc, decide_eq_true rfl⟩, rfl⟩

/-! ## Two sides -/

/-- The two sides of a hand-over. -/
inductive Side where
  /-- those who give -/
  | giving
  /-- those who take -/
  | taking
  deriving DecidableEq

/-- The opposite side. -/
def Side.other : Side → Side
  | .giving => .taking
  | .taking => .giving

theorem Side.some_ne_other (k : Side) : some k ≠ some k.other := by
  cases k with
  | giving => decide
  | taking => decide

/-- A monitor over a total of `total` units, each of which is available to one side
or the other. A call belongs to a side, waits while nothing is available to that
side, and else makes one unit available to the other side; or it belongs to no
side and changes nothing. -/
structure TwoSided (M : Monitor S κ ρ) (total : ℕ) where
  /-- the side a call belongs to -/
  side : κ → Option Side
  /-- the units available to a side -/
  avail : Side → S → ℤ
  /-- a call that waits found nothing available -/
  blocked : ∀ {c s}, M.attempt c s = none → ∃ k, side c = some k ∧ avail k s ≤ 0
  /-- a call that does not wait passes one unit to the other side -/
  passed : ∀ {c s s' r k}, M.attempt c s = some (s', r) → side c = some k →
    0 < avail k s ∧ avail k s' = avail k s - 1 ∧ avail k.other s' = avail k.other s + 1
  /-- other calls change nothing -/
  kept : ∀ {c s s' r}, M.attempt c s = some (s', r) → side c = none →
    ∀ k, avail k s' = avail k s
  /-- passing a unit on is notified -/
  notifies : ∀ {c k}, side c = some k → M.notifies c = true

namespace TwoSided

/-! ### Counting threads -/

section Counting

variable [Fintype ι]

omit [DecidableEq ι] in
/-- How many threads have a status of a kind. -/
def countWhere (P : Status κ → Bool) (status : ι → Status κ) : ℕ :=
  (Finset.univ.filter fun i => P (status i) = true).card

/-- One thread changes its status. -/
theorem countWhere_update (P : Status κ → Bool) (status : ι → Status κ) (j : ι)
    (x : Status κ) :
    countWhere P (Function.update status j x) + (P (status j)).toNat =
      countWhere P status + (P x).toNat := by
  have hsplit : ∀ st : ι → Status κ, countWhere P st =
      ((Finset.univ.erase j).filter fun i => P (st i) = true).card + (P (st j)).toNat := by
    intro st
    rw [countWhere, ← Finset.insert_erase (Finset.mem_univ j), Finset.filter_insert]
    cases hj : P (st j) with
    | true => simp
    | false => simp
  have hother : (Finset.univ.erase j).filter (fun i => P (Function.update status j x i) = true) =
      (Finset.univ.erase j).filter fun i => P (status i) = true := by
    refine Finset.filter_congr fun i hi => ?_
    rw [Function.update_of_ne (Finset.ne_of_mem_erase hi)]
  rw [hsplit, hsplit status, hother, Function.update_self]
  omega

omit [DecidableEq ι] in
theorem countWhere_pos {P : Status κ → Bool} {status : ι → Status κ} {i : ι}
    (h : P (status i) = true) : 0 < countWhere P status :=
  Finset.card_pos.mpr ⟨i, Finset.mem_filter.mpr ⟨Finset.mem_univ i, h⟩⟩

omit [DecidableEq ι] in
theorem countWhere_eq_zero {P : Status κ → Bool} {status : ι → Status κ}
    (h : ∀ i, P (status i) = false) : countWhere P status = 0 := by
  rw [countWhere, Finset.card_eq_zero, Finset.filter_eq_empty_iff]
  intro i _
  rw [h i]
  exact Bool.false_ne_true

end Counting

/-! ### The counting invariant -/

/-- The threads of each side that wait and that can run, against the units available:
nobody waits whom the other side's units would not cover, the sides never wait at
the same time, and every unit available to a waiting side has a runnable thread
coming for it. -/
structure Balanced (total : ℕ) (avail : Side → ℤ) (waiting ready : Side → ℕ) : Prop where
  /-- the total is kept -/
  total_eq : ∀ k, avail k + avail k.other = total
  /-- the waiters of a side are covered by what the other side has -/
  waiting_le : ∀ k, (waiting k : ℤ) ≤ avail k.other
  /-- the other side does not wait -/
  alone : ∀ k, 0 < waiting k → waiting k.other = 0
  /-- what is available will be taken -/
  covered : ∀ k, 0 < waiting k → avail k ≤ ready k

/-- What a notification does to the counts: nothing if nobody waits, else a waiter of
some side becomes runnable. -/
def Notified (waiting ready waiting' ready' : Side → ℕ) : Prop :=
  ((∀ k, waiting k = 0) ∧ waiting' = waiting ∧ ready' = ready) ∨
  ∃ k, waiting k = waiting' k + 1 ∧ ready' k = ready k + 1 ∧
    waiting' k.other = waiting k.other ∧ ready' k.other = ready k.other

/-- More runnable threads and fewer waiters do no harm. -/
theorem Balanced.mono {total : ℕ} {avail : Side → ℤ} {waiting ready waiting' ready' : Side → ℕ}
    (h : Balanced total avail waiting ready) (hw : ∀ k, waiting' k ≤ waiting k)
    (hr : ∀ k, ready k ≤ ready' k) : Balanced total avail waiting' ready' where
  total_eq := h.total_eq
  waiting_le k := le_trans (Int.ofNat_le.mpr (hw k)) (h.waiting_le k)
  alone k hk := by
    have hother := h.alone k (lt_of_lt_of_le hk (hw k))
    have hle := hw k.other
    omega
  covered k hk :=
    le_trans (h.covered k (lt_of_lt_of_le hk (hw k))) (Int.ofNat_le.mpr (hr k))

/-- A thread joins the wait set: nothing is available to its side, so the other side
has all units and no waiter. -/
theorem Balanced.block {total : ℕ} {avail : Side → ℤ} {waiting ready waiting' ready' : Side → ℕ}
    (h : Balanced total avail waiting ready) {k : Side} (hk : avail k ≤ 0)
    (hbound : waiting' k ≤ total) (hw : waiting' k.other = waiting k.other) :
    Balanced total avail waiting' ready' := by
  have htotal := h.total_eq k
  have hnone : waiting k.other = 0 := by
    have hle := h.waiting_le k.other
    cases k <;> simp only [Side.other] at hle ⊢ <;> omega
  have hpos : 0 ≤ avail k := by
    have hle := h.waiting_le k.other
    cases k <;> simp only [Side.other] at hle ⊢ <;> omega
  refine ⟨h.total_eq, ?_, ?_, ?_⟩
  all_goals
    intro l
    cases k <;> cases l <;> simp only [Side.other] at * <;> omega

/-- A thread passes a unit to the other side and notifies a waiter. -/
theorem Balanced.pass {total : ℕ} {avail avail' : Side → ℤ}
    {waiting ready ready₁ waiting' ready' : Side → ℕ} (h : Balanced total avail waiting ready)
    {k : Side} (hk : 0 < avail k) (havail : avail' k = avail k - 1)
    (hother : avail' k.other = avail k.other + 1) (hready : ready k = ready₁ k + 1)
    (hready' : ready k.other = ready₁ k.other)
    (hnotify : Notified waiting ready₁ waiting' ready') :
    Balanced total avail' waiting' ready' := by
  have htotal := h.total_eq k
  have hle := h.waiting_le k
  have hle' := h.waiting_le k.other
  have halone := h.alone k
  have halone' := h.alone k.other
  have hcovered := h.covered k
  have hcovered' := h.covered k.other
  rcases hnotify with ⟨hnone, rfl, rfl⟩ | ⟨m, hw, hr, hw', hr'⟩
  · -- nobody waits, so only the units moved
    have hk₀ := hnone k
    have hother₀ := hnone k.other
    refine ⟨?_, ?_, ?_, ?_⟩
    all_goals
      intro l
      cases k <;> cases l <;> simp only [Side.other] at * <;> omega
  · -- the waiter comes from the one side that has any
    refine ⟨?_, ?_, ?_, ?_⟩
    all_goals
      intro l
      cases k <;> cases l <;> cases m <;> simp only [Side.other] at * <;> omega

/-! ### Every wake-up counts -/

variable {total : ℕ} (T : M.TwoSided total)

/-- In the wait set with a call of a side. -/
def isWaiting (k : Side) : Status κ → Bool
  | .waiting c => T.side c = some k
  | _ => false

/-- Runnable with a call of a side. -/
def isReady (k : Side) : Status κ → Bool
  | .ready c => T.side c = some k
  | _ => false

variable [Fintype ι]

/-- The threads of a side in the wait set. -/
def waiting (status : ι → Status κ) (k : Side) : ℕ := countWhere (T.isWaiting k) status

/-- The runnable threads of a side. -/
def ready (status : ι → Status κ) (k : Side) : ℕ := countWhere (T.isReady k) status

/-- What holds of the threads and the units in every reachable state. -/
structure Inv (cfg : Config ι S κ ρ) : Prop where
  /-- only calls of a side wait -/
  sided : ∀ i c, cfg.status i = .waiting c → T.side c ≠ none
  /-- the counting invariant -/
  balanced : Balanced total (fun k => T.avail k cfg.shared) (T.waiting cfg.status)
    (T.ready cfg.status)

/-- A change of one thread's status, in counts of waiters. -/
theorem waiting_update (status : ι → Status κ) (j : ι) (x : Status κ) (k : Side) :
    T.waiting (Function.update status j x) k + (T.isWaiting k (status j)).toNat =
      T.waiting status k + (T.isWaiting k x).toNat :=
  countWhere_update _ _ _ _

/-- A change of one thread's status, in counts of runnable threads. -/
theorem ready_update (status : ι → Status κ) (j : ι) (x : Status κ) (k : Side) :
    T.ready (Function.update status j x) k + (T.isReady k (status j)).toNat =
      T.ready status k + (T.isReady k x).toNat :=
  countWhere_update _ _ _ _

theorem notified_of_notifyOne {status status' : ι → Status κ} {woken : Option ι}
    (hsided : ∀ i c, status i = .waiting c → T.side c ≠ none)
    (h : NotifyOne status woken status') :
    Notified (T.waiting status) (T.ready status) (T.waiting status') (T.ready status') := by
  cases h with
  | nobody hnone =>
    refine .inl ⟨fun k => countWhere_eq_zero fun i => ?_, rfl, rfl⟩
    cases hi : status i with
    | idle => rfl
    | ready c => rfl
    | waiting c => exact absurd hi (hnone i c)
  | @one j c hj =>
    obtain ⟨k, hk⟩ := Option.ne_none_iff_exists'.mp (hsided j c hj)
    have hw := T.waiting_update status j (.ready c) k
    have hr := T.ready_update status j (.ready c) k
    have hw' := T.waiting_update status j (.ready c) k.other
    have hr' := T.ready_update status j (.ready c) k.other
    simp only [hj, isWaiting, isReady, hk, k.some_ne_other] at hw hr hw' hr'
    simp only [decide_true, decide_false, Bool.toNat_true, Bool.toNat_false, Nat.add_zero]
      at hw hr hw' hr'
    exact .inr ⟨k, hw.symm, hr, hw', hr'⟩

/-- A notification only turns waiters into runnable threads. -/
theorem Notified.mono {waiting ready waiting' ready' : Side → ℕ}
    (h : Notified waiting ready waiting' ready') (k : Side) :
    waiting' k ≤ waiting k ∧ ready k ≤ ready' k := by
  rcases h with ⟨-, rfl, rfl⟩ | ⟨l, hw, hr, hw', hr'⟩
  · exact ⟨le_refl _, le_refl _⟩
  · cases k <;> cases l <;> simp only [Side.other] at * <;> omega

omit [Fintype ι] in
/-- A thread that does not join the wait set leaves its members with calls of a side. -/
theorem sided_update {status : ι → Status κ} {j : ι} {x : Status κ}
    (hsided : ∀ i c, status i = .waiting c → T.side c ≠ none)
    (hx : ∀ c, x = .waiting c → T.side c ≠ none) (i : ι) (c : κ)
    (hi : Function.update status j x i = .waiting c) : T.side c ≠ none := by
  by_cases hij : i = j
  · subst hij
    rw [Function.update_self] at hi
    exact hx c hi
  · rw [Function.update_of_ne hij] at hi
    exact hsided i c hi

/-- A side never has more waiters than threads. -/
theorem waiting_le_card {kind : ι → Side}
    (hkind : ∀ i c k, may i c → T.side c = some k → kind i = k)
    (h : (M.system may s₀).Reachable cfg) (k : Side) :
    T.waiting cfg.status k ≤ (Finset.univ.filter fun i => kind i = k).card := by
  refine Finset.card_le_card fun i hi => ?_
  rw [Finset.mem_filter] at hi ⊢
  refine ⟨Finset.mem_univ i, ?_⟩
  cases hstatus : cfg.status i with
  | idle => simp [hstatus, isWaiting] at hi
  | ready c => simp [hstatus, isWaiting] at hi
  | waiting c =>
    have hside : T.side c = some k := by simpa [hstatus, isWaiting] using hi.2
    refine hkind i c k (may_of_pending h ?_) hside
    rw [hstatus]
    exact List.mem_singleton_self c

omit [Fintype ι] in
theorem NotifyOne.sided {status status' : ι → Status κ} {woken : Option ι}
    (hsided : ∀ i c, status i = .waiting c → T.side c ≠ none)
    (h : NotifyOne status woken status') : ∀ i c, status' i = .waiting c → T.side c ≠ none := by
  cases h with
  | nobody _ => exact hsided
  | one _ => exact T.sided_update hsided nofun

omit [DecidableEq ι] in
/-- Before any call nobody waits. -/
theorem Inv.initial (hstart : ∀ k, T.avail k s₀ + T.avail k.other s₀ = total ∧ 0 ≤ T.avail k s₀) :
    T.Inv (initial ι κ ρ s₀) := by
  have hnone : ∀ k, T.waiting (Monitor.initial ι κ ρ s₀).status k = 0 :=
    fun k => countWhere_eq_zero fun i => rfl
  refine ⟨nofun, fun k => (hstart k).1, ?_, ?_, ?_⟩
  · intro k
    rw [hnone]
    exact (hstart k.other).2
  · intro k hk
    exact absurd hk (by rw [hnone]; exact lt_irrefl 0)
  · intro k hk
    exact absurd hk (by rw [hnone]; exact lt_irrefl 0)

/-- A thread that becomes idle was no waiter. -/
theorem waiting_idle {status : ι → Status κ} {i : ι} {c : κ} (hi : status i = .ready c) (k : Side) :
    T.waiting (Function.update status i .idle) k = T.waiting status k := by
  have hupdate := T.waiting_update status i .idle k
  simpa only [hi, isWaiting, Bool.toNat_false, Nat.add_zero] using hupdate

/-- A thread that becomes idle was a runnable one of its call's side. -/
theorem ready_idle {status : ι → Status κ} {i : ι} {c : κ} (hi : status i = .ready c) (k : Side) :
    T.ready (Function.update status i .idle) k + (decide (T.side c = some k)).toNat =
      T.ready status k := by
  have hupdate := T.ready_update status i .idle k
  simpa only [hi, isReady, Bool.toNat_false, Nat.add_zero] using hupdate

/-- A thread gets ready that was not, because of a new call or a wake-up without a
notification. -/
theorem Inv.ready {i : ι} {c : κ} {issued : List (ι × κ)} (h : T.Inv cfg)
    (hi : cfg.status i = .idle ∨ cfg.status i = .waiting c) :
    T.Inv { shared := cfg.shared, status := Function.update cfg.status i (.ready c),
            issued, finished := cfg.finished } := by
  refine ⟨T.sided_update h.sided nofun, h.balanced.mono ?_ ?_⟩
  · intro k
    have hw := T.waiting_update cfg.status i (.ready c) k
    simp only [isWaiting, Bool.toNat_false] at hw
    exact le_of_le_of_eq (Nat.le_add_right _ _) hw
  · intro k
    have hnot : T.isReady k (cfg.status i) = false := by
      rcases hi with hi | hi
      · simp [hi, isReady]
      · simp [hi, isReady]
    have hr := T.ready_update cfg.status i (.ready c) k
    simp only [hnot, Bool.toNat_false] at hr
    exact le_of_le_of_eq (Nat.le_add_right _ _) hr.symm

/-- A call of neither side ends: the units stay where they are. -/
theorem Inv.finish_none {i : ι} {c : κ} {s : S} {r : ρ} {status : ι → Status κ}
    {finished : List (ι × κ × ρ)} (h : T.Inv cfg) (hi : cfg.status i = .ready c)
    (hattempt : M.attempt c cfg.shared = some (s, r)) (hside : T.side c = none)
    (hsided : ∀ j d, status j = .waiting d → T.side d ≠ none)
    (hcounts : ∀ k, T.waiting status k ≤ T.waiting (Function.update cfg.status i .idle) k ∧
      T.ready (Function.update cfg.status i .idle) k ≤ T.ready status k) :
    T.Inv { shared := s, status, issued := cfg.issued, finished } := by
  refine ⟨hsided, ?_⟩
  have hkept : (fun k => T.avail k s) = fun k => T.avail k cfg.shared :=
    funext fun k => T.kept hattempt hside k
  rw [hkept]
  refine h.balanced.mono ?_ ?_
  · intro k
    rw [← T.waiting_idle hi k]
    exact (hcounts k).1
  · intro k
    have hr := T.ready_idle hi k
    simp only [hside, reduceCtorEq, decide_false, Bool.toNat_false] at hr
    rw [← hr]
    exact (hcounts k).2

/-- A call of a side ends, and a waiter is notified. -/
theorem Inv.finish_some {i : ι} {c : κ} {s : S} {r : ρ} {status : ι → Status κ}
    {finished : List (ι × κ × ρ)} {k : Side} {woken : Option ι} (h : T.Inv cfg)
    (hi : cfg.status i = .ready c) (hattempt : M.attempt c cfg.shared = some (s, r))
    (hside : T.side c = some k)
    (hnotify : NotifyOne (Function.update cfg.status i .idle) woken status) :
    T.Inv { shared := s, status, issued := cfg.issued, finished } := by
  have hidle : ∀ j d, Function.update cfg.status i .idle j = .waiting d → T.side d ≠ none :=
    T.sided_update h.sided nofun
  refine ⟨NotifyOne.sided T hidle hnotify, ?_⟩
  obtain ⟨hpos, havail, hother⟩ := T.passed hattempt hside
  have hcounts := T.notified_of_notifyOne hidle hnotify
  rw [funext (T.waiting_idle hi)] at hcounts
  have hr := T.ready_idle hi k
  have hr' := T.ready_idle hi k.other
  simp only [hside, k.some_ne_other, decide_true, decide_false, Bool.toNat_true,
    Bool.toNat_false] at hr hr'
  exact h.balanced.pass hpos havail hother hr.symm hr'.symm hcounts

/-- A call ends; if it belongs to a side, a waiter is notified. -/
theorem Inv.finish {i : ι} {c : κ} {s : S} {r : ρ} {status : ι → Status κ}
    (h : T.Inv cfg) (hi : cfg.status i = .ready c) (hattempt : M.attempt c cfg.shared = some (s, r))
    (hnotify : (∃ woken, NotifyOne (Function.update cfg.status i .idle) woken status) ∨
      T.side c = none ∧ status = Function.update cfg.status i .idle) :
    T.Inv { shared := s, status, issued := cfg.issued,
            finished := cfg.finished ++ [(i, c, r)] } := by
  have hidle : ∀ j d, Function.update cfg.status i .idle j = .waiting d → T.side d ≠ none :=
    T.sided_update h.sided nofun
  rcases hnotify with ⟨woken, hnotify⟩ | ⟨hnone, rfl⟩
  · cases hside : T.side c with
    | none =>
      exact Inv.finish_none T h hi hattempt hside (NotifyOne.sided T hidle hnotify)
        (T.notified_of_notifyOne hidle hnotify).mono
    | some k => exact Inv.finish_some T h hi hattempt hside hnotify
  · exact Inv.finish_none T h hi hattempt hnone hidle fun k => ⟨le_refl _, le_refl _⟩

/-- **The counting invariant** holds in every reachable state. -/
theorem inv_of_reachable {kind : ι → Side}
    (hkind : ∀ i c k, may i c → T.side c = some k → kind i = k)
    (hcard : ∀ k, (Finset.univ.filter fun i => kind i = k).card ≤ total)
    (hstart : ∀ k, T.avail k s₀ + T.avail k.other s₀ = total ∧ 0 ≤ T.avail k s₀)
    (h : (M.system may s₀).Reachable cfg) : T.Inv cfg := by
  refine h.invariant (I := T.Inv) ?_ ?_
  · rintro cfg rfl
    exact Inv.initial T hstart
  · intro cfg l cfg' hreach hinv hstep
    have hreach' := hreach.next hstep
    -- only `block` needs the bounds on the threads, and only `finish` moves a unit
    cases hstep with
    | call hi _ => exact Inv.ready T hinv (.inl hi)
    | @block i c hi hattempt =>
      obtain ⟨k, hk, hle⟩ := T.blocked hattempt
      refine ⟨T.sided_update hinv.sided ?_, hinv.balanced.block hle ?_ ?_⟩
      · rintro d hd
        obtain rfl := Status.waiting.inj hd
        rw [hk]
        exact Option.some_ne_none k
      · exact le_trans (T.waiting_le_card hkind hreach' k) (hcard k)
      · have hw := T.waiting_update cfg.status i (.waiting c) k.other
        simp only [hi, isWaiting, hk, k.some_ne_other, decide_false, Bool.toNat_false] at hw
        exact hw
    | finish hi hattempt _ hnotify => exact Inv.finish T hinv hi hattempt (.inl ⟨_, hnotify⟩)
    | @finishQuietly i c s r hi hattempt hquiet =>
      refine Inv.finish T hinv hi hattempt (.inr ⟨?_, rfl⟩)
      cases hside : T.side c with
      | none => rfl
      | some k =>
        rw [T.notifies hside] at hquiet
        cases hquiet
    | spurious hi => exact Inv.ready T hinv (.inr hi)

/-- **No lost wake-up**: when every thread with an unfinished call waits, nothing is
available to the sides they belong to. -/
theorem avail_of_all_waiting {kind : ι → Side}
    (hkind : ∀ i c k, may i c → T.side c = some k → kind i = k)
    (hcard : ∀ k, (Finset.univ.filter fun i => kind i = k).card ≤ total)
    (hstart : ∀ k, T.avail k s₀ + T.avail k.other s₀ = total ∧ 0 ≤ T.avail k s₀)
    (h : (M.system may s₀).Reachable cfg) (hall : ∀ i c, cfg.status i ≠ .ready c)
    {i : ι} {c : κ} {k : Side} (hi : cfg.status i = .waiting c) (hk : T.side c = some k) :
    T.avail k cfg.shared ≤ 0 := by
  have hpos : 0 < T.waiting cfg.status k := by
    apply countWhere_pos (i := i)
    simp only [hi, isWaiting, hk, decide_true]
  have hzero : T.ready cfg.status k = 0 := by
    refine countWhere_eq_zero fun j => ?_
    cases hj : cfg.status j with
    | idle => rfl
    | ready d => exact absurd hj (hall j d)
    | waiting d => rfl
  have hle := (T.inv_of_reachable hkind hcard hstart h).balanced.covered k hpos
  rw [hzero] at hle
  exact hle

end TwoSided

end Monitor

end WallMon
