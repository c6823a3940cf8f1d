import Mathlib.Data.List.Induction
import Mathlib.Logic.Relation

/-!
# Labelled transition systems

The common shape of every concurrent argument below: a component is a set of
initial states and a step relation whose labels name what happened (a datagram,
a timer, a thread's critical section, a choice of the operating system). Runs
are finite, and an invariant is proved once per step.

`guarded` is the restriction of a system to the steps that meet a condition. A
statement about "every run whose steps all meet the condition" is a statement
about the reachable states of the guarded system.
-/

namespace WallMon

universe u v

/-- A labelled transition system: where runs start, and what one action does. -/
structure TransitionSystem (S : Type u) (L : Type v) where
  /-- the states a run may start in -/
  init : S → Prop
  /-- `step s l t`: the action `l` leads from `s` to `t` -/
  step : S → L → S → Prop

namespace TransitionSystem

variable {S : Type u} {L : Type v} {M : TransitionSystem S L}

/-- `M.Run s ls t`: performing the actions `ls`, in this order, leads from `s`
to `t`. -/
inductive Run (M : TransitionSystem S L) (s : S) : List L → S → Prop where
  /-- no action at all -/
  | nil : Run M s [] s
  /-- one more action at the end -/
  | snoc {ls : List L} {t u : S} {l : L} :
      Run M s ls t → M.step t l u → Run M s (ls ++ [l]) u

/-- A state some run from an initial state ends in. -/
inductive Reachable (M : TransitionSystem S L) : S → Prop where
  /-- initial states are reachable -/
  | start {s : S} : M.init s → Reachable M s
  /-- reachability is closed under steps -/
  | next {s t : S} {l : L} : Reachable M s → M.step s l t → Reachable M t

/-- **Invariant rule**: what holds initially and is kept by every step from a
reachable state holds of every reachable state. -/
theorem Reachable.invariant {I : S → Prop} (hinit : ∀ s, M.init s → I s)
    (hstep : ∀ s l t, M.Reachable s → I s → M.step s l t → I t) {t : S}
    (ht : M.Reachable t) : I t := by
  induction ht with
  | start h => exact hinit _ h
  | next hr h ih => exact hstep _ _ _ hr ih h

/-- **Run rule**: what every step keeps is kept by every run. -/
theorem Run.preserves {I : S → Prop} (hstep : ∀ s l t, I s → M.step s l t → I t)
    {s t : S} {ls : List L} (hr : M.Run s ls t) (hs : I s) : I t := by
  induction hr with
  | nil => exact hs
  | snoc _ h ih => exact hstep _ _ _ ih h

/-- One run after another. -/
theorem Run.append {s t u : S} {ls ms : List L} (h : M.Run s ls t) (h' : M.Run t ms u) :
    M.Run s (ls ++ ms) u := by
  induction h' with
  | nil =>
    rw [List.append_nil]
    exact h
  | snoc _ hstep ih =>
    rw [← List.append_assoc]
    exact ih.snoc hstep

/-- A run from a reachable state ends in one. -/
theorem Reachable.run {s t : S} {ls : List L} (hs : M.Reachable s) (h : M.Run s ls t) :
    M.Reachable t := by
  induction h with
  | nil => exact hs
  | snoc _ hstep ih => exact ih.next hstep

/-- The system with only the steps that meet the condition `ok`, which may look
at the state before the step and at its label. -/
def guarded (M : TransitionSystem S L) (ok : S → L → Prop) : TransitionSystem S L where
  init := M.init
  step s l t := M.step s l t ∧ ok s l

/-- Without a condition there are more runs. -/
theorem Reachable.of_guarded {ok : S → L → Prop} {s : S} (h : (M.guarded ok).Reachable s) :
    M.Reachable s := by
  induction h with
  | start h => exact .start h
  | next _ h ih => exact ih.next h.1

/-- A weaker condition admits more runs. -/
theorem Reachable.guarded_mono {ok ok' : S → L → Prop} (himp : ∀ s l, ok s l → ok' s l) {s : S}
    (h : (M.guarded ok).Reachable s) : (M.guarded ok').Reachable s := by
  induction h with
  | start h => exact .start h
  | next _ h ih => exact ih.next ⟨h.1, himp _ _ h.2⟩

/-- What holds of each action of a run, where a function says what an action does. -/
def Meets (f : S → L → S) (ok : S → L → Prop) : S → List L → Prop
  | _, [] => True
  | s, l :: ls => ok s l ∧ Meets f ok (f s l) ls

instance decidableMeets (f : S → L → S) (ok : S → L → Prop) [∀ s l, Decidable (ok s l)] :
    ∀ (s : S) (ls : List L), Decidable (Meets f ok s ls)
  | _, [] => .isTrue trivial
  | s, l :: ls =>
    have := decidableMeets f ok (f s l) ls
    inferInstanceAs (Decidable (ok s l ∧ Meets f ok (f s l) ls))

theorem meets_append_singleton (f : S → L → S) (ok : S → L → Prop) (s : S) (ls : List L) (l : L) :
    Meets f ok s (ls ++ [l]) ↔ Meets f ok s ls ∧ ok (ls.foldl f s) l := by
  induction ls generalizing s with
  | nil => simp [Meets]
  | cons l' ls ih =>
    rw [List.cons_append, Meets, Meets, ih, and_assoc]
    rfl

/-- What a run meets, the runs before it have met. -/
theorem Meets.of_isPrefix {f : S → L → S} {ok : S → L → Prop} {s : S} {ls ms : List L}
    (h : Meets f ok s ms) (hpre : ls <+: ms) : Meets f ok s ls := by
  induction ls generalizing s ms with
  | nil => trivial
  | cons l ls ih =>
    obtain ⟨rest, rfl⟩ := hpre
    exact ⟨h.1, ih h.2 (List.prefix_append ls rest)⟩

/-- A condition on the actions alone. -/
theorem meets_iff_forall_mem (f : S → L → S) (ok : L → Prop) (s : S) (ls : List L) :
    Meets f (fun _ l => ok l) s ls ↔ ∀ l ∈ ls, ok l := by
  induction ls generalizing s with
  | nil => simp [Meets]
  | cons l ls ih => rw [Meets, ih, List.forall_mem_cons]

/-- Two conditions are met when each is. -/
theorem meets_and (f : S → L → S) (ok ok' : S → L → Prop) (s : S) (ls : List L) :
    Meets f (fun s l => ok s l ∧ ok' s l) s ls ↔ Meets f ok s ls ∧ Meets f ok' s ls := by
  induction ls generalizing s with
  | nil => simp [Meets]
  | cons l ls ih => rw [Meets, Meets, Meets, ih, and_and_and_comm]

/-- **Exchange rule**: conditions that agree wherever an invariant holds, which steps that
meet them keep, agree on runs. -/
theorem meets_congr {f : S → L → S} {ok ok' : S → L → Prop} {I : S → Prop}
    (hiff : ∀ s l, I s → (ok s l ↔ ok' s l)) (hkeep : ∀ s l, I s → ok' s l → I (f s l)) {s : S}
    (hs : I s) (ls : List L) : Meets f ok s ls ↔ Meets f ok' s ls := by
  induction ls generalizing s with
  | nil => exact Iff.rfl
  | cons l ls ih =>
    rw [Meets, Meets, hiff s l hs]
    exact and_congr_right fun hl => ih (hkeep s l hs hl)

/-- **Countdown rule**: what each action brings nearer by one is there after as many actions,
and stays. -/
theorem countdown {f : S → L → S} {within : ℕ → S → Prop}
    (hstep : ∀ k s l, within k s → within (k - 1) (f s l)) {k : ℕ} {s : S} (hs : within k s)
    (ls : List L) : within (k - ls.length) (ls.foldl f s) := by
  induction ls generalizing k s with
  | nil => exact hs
  | cons l ls ih =>
    have hrest := ih (hstep k s l hs)
    rwa [Nat.sub_sub, Nat.add_comm] at hrest

/-- **Law rule**: a law about what has happened so far, that one more action keeps exactly
if the action meets a condition, holds all along exactly if all actions meet it. -/
theorem forall_prefix_iff_meets {f : S → L → S} {ok : S → L → Prop} {s : S} {law : List L → Prop}
    (hnil : law [])
    (hstep : ∀ ls l, law ls → (law (ls ++ [l]) ↔ ok (ls.foldl f s) l)) (ls : List L) :
    (∀ p, p <+: ls → law p) ↔ Meets f ok s ls := by
  induction ls using List.reverseRecOn with
  | nil => simp [Meets, hnil]
  | append_singleton ls l ih =>
    rw [meets_append_singleton, ← ih]
    refine ⟨fun hall => ?_, ?_⟩
    · have hbefore : ∀ p, p <+: ls → law p := fun p hp => hall p (hp.trans (List.prefix_append ..))
      exact ⟨hbefore, (hstep ls l (hbefore ls (List.prefix_refl ls))).mp
        (hall _ (List.prefix_refl _))⟩
    · rintro ⟨hbefore, hok⟩ p hp
      rcases List.prefix_concat_iff.mp hp with rfl | hp
      · exact (hstep ls l (hbefore ls (List.prefix_refl ls))).mpr hok
      · exact hbefore p hp

/-- **Fault rule**: actions that fault exactly where they do not meet a condition go through
exactly if all of them meet it. -/
theorem foldlM_eq_ok_iff {E : Type} {g : S → L → Except E S} {f : S → L → S} {ok : S → L → Prop}
    {I : S → Prop} (hok : ∀ s l, I s → ok s l → g s l = .ok (f s l) ∧ I (f s l))
    (hfault : ∀ s l, I s → ¬ok s l → ∃ e, g s l = .error e) {s : S} (hs : I s) (ls : List L) :
    ls.foldlM g s = .ok (ls.foldl f s) ↔ Meets f ok s ls := by
  induction ls generalizing s with
  | nil => exact iff_of_true rfl trivial
  | cons l ls ih =>
    rw [List.foldlM_cons, List.foldl_cons, Meets]
    by_cases hl : ok s l
    · obtain ⟨heq, hnext⟩ := hok s l hs hl
      rw [heq, and_iff_right hl, ← ih hnext]
      rfl
    · obtain ⟨e, heq⟩ := hfault s l hs hl
      rw [heq]
      exact iff_of_false (fun h => nomatch h) fun h => hl h.1

/-- A run of a function is one of the system, if its actions are steps. -/
theorem Reachable.foldl {f : S → L → S} {ok : S → L → Prop} {s : S} {ls : List L}
    (hs : M.Reachable s) (hmeets : Meets f ok s ls)
    (hstep : ∀ s l, ok s l → M.step s l (f s l)) : M.Reachable (ls.foldl f s) := by
  induction ls generalizing s with
  | nil => exact hs
  | cons l ls ih => exact ih (hs.next (hstep s l hmeets.1)) hmeets.2

end TransitionSystem

end WallMon
