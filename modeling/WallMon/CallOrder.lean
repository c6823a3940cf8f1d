import Mathlib.Data.List.Count

/-!
# The order of calls on objects with a life

An object's life begins with a call of `onInit` and ends with a call of `onStop`;
in between it may be given work. `Lawful` says of a record of calls, in the order in
which they were made, that no object is given work outside of its life and none ends
twice. One rule for each kind of call says when it may come next.
-/

namespace WallMon

universe u

/-- A call of a method of an object. -/
inductive Call (ι : Type u) where
  /-- the beginning of its life -/
  | onInit (object : ι)
  /-- something the object is for -/
  | work (object : ι)
  /-- the end of its life -/
  | onStop (object : ι)
  deriving DecidableEq

namespace Call

/-- An element of a list with one more element at the end is the last one, or one of
those before. -/
theorem snoc_eq_append_cons {α : Type u} {l before after : List α} {last x : α}
    (h : l ++ [last] = before ++ x :: after) :
    l = before ∧ last = x ∨ ∃ after', l = before ++ x :: after' := by
  rcases List.eq_nil_or_concat after with rfl | ⟨after, last', rfl⟩
  · obtain ⟨hl, hlast⟩ := List.append_inj' h rfl
    exact .inl ⟨hl, List.singleton_inj.mp hlast⟩
  · rw [List.concat_eq_append, ← List.cons_append, ← List.append_assoc] at h
    exact .inr ⟨after, (List.append_inj' h rfl).1⟩

variable {ι : Type u} [DecidableEq ι] {calls : List (Call ι)} {object : ι}

/-- Objects are given work only after `onInit` and before `onStop`, and `onStop` is
called at most once. -/
structure Lawful (calls : List (Call ι)) : Prop where
  /-- work comes between the two other calls -/
  work : ∀ {object before after}, calls = before ++ .work object :: after →
    .onInit object ∈ before ∧ .onStop object ∉ before
  /-- no object ends twice -/
  onStop : ∀ object, calls.count (.onStop object) ≤ 1

theorem Lawful.nil : Lawful ([] : List (Call ι)) := by
  refine ⟨?_, fun object => by simp⟩
  intro object before after h
  simp at h

/-- One more call that is not work leaves the order of work as it is. -/
theorem Lawful.work_snoc (h : Lawful calls) {last : Call ι} (hlast : ∀ object, last ≠ .work object)
    {before after : List (Call ι)} (heq : calls ++ [last] = before ++ .work object :: after) :
    .onInit object ∈ before ∧ .onStop object ∉ before := by
  rcases snoc_eq_append_cons heq with ⟨-, hwork⟩ | ⟨after, hcalls⟩
  · exact absurd hwork (hlast object)
  · exact h.work hcalls

/-- Any object may begin. -/
theorem Lawful.snoc_onInit (h : Lawful calls) (object : ι) :
    Lawful (calls ++ [.onInit object]) := by
  refine ⟨fun heq => h.work_snoc (by simp) heq, fun object' => ?_⟩
  simpa using h.onStop object'

/-- An object that began and did not end may be given work. -/
theorem Lawful.snoc_work (h : Lawful calls) (hinit : .onInit object ∈ calls)
    (hstop : .onStop object ∉ calls) : Lawful (calls ++ [.work object]) := by
  refine ⟨?_, fun object' => by simpa using h.onStop object'⟩
  intro object' before after heq
  rcases snoc_eq_append_cons heq with ⟨rfl, hwork⟩ | ⟨after, hcalls⟩
  · obtain rfl : object = object' := by simpa using hwork
    exact ⟨hinit, hstop⟩
  · exact h.work hcalls

/-- An object that did not end may end. -/
theorem Lawful.snoc_onStop (h : Lawful calls) (hstop : .onStop object ∉ calls) :
    Lawful (calls ++ [.onStop object]) := by
  refine ⟨fun heq => h.work_snoc (by simp) heq, fun object' => ?_⟩
  rw [List.count_append]
  by_cases heq : object' = object
  · subst heq
    rw [List.count_eq_zero.mpr hstop]
    simp
  · have hne : Call.onStop object' ≠ .onStop object := by simpa using heq
    simpa [List.count_singleton, hne.symm] using h.onStop object'

end Call

/-! ## What is still on record -/

section Since

variable {α : Type u} {P Q : α → Prop} {record : List α} {last : α}

/-- Something of the kind `P` is on record, and nothing of the kind `Q` after it. -/
def Since (P Q : α → Prop) (record : List α) : Prop :=
  ∃ before e after, record = before ++ e :: after ∧ P e ∧ ∀ e' ∈ after, ¬Q e'

theorem not_since_nil : ¬Since P Q [] := by
  rintro ⟨before, e, after, h, -⟩
  simp at h

/-- One more entry: it is of the kind, or it leaves what was there. -/
theorem since_append_singleton :
    Since P Q (record ++ [last]) ↔ P last ∨ Since P Q record ∧ ¬Q last := by
  refine ⟨?_, ?_⟩
  · rintro ⟨before, e, after, h, hP, hQ⟩
    rcases Call.snoc_eq_append_cons h with ⟨-, rfl⟩ | ⟨after', rfl⟩
    · exact .inl hP
    · have hafter : after = after' ++ [last] := by simpa using h.symm
      subst hafter
      obtain ⟨hafter, hlast⟩ := List.forall_mem_append.mp hQ
      exact .inr ⟨⟨before, e, after', rfl, hP, hafter⟩, hlast last (List.mem_singleton_self _)⟩
  · rintro (hP | ⟨⟨before, e, after, rfl, hP, hQ⟩, hlast⟩)
    · exact ⟨record, last, [], rfl, hP, fun _ h => absurd h List.not_mem_nil⟩
    · refine ⟨before, e, after ++ [last], by simp, hP, ?_⟩
      exact List.forall_mem_append.mpr ⟨hQ, fun _ h => List.mem_singleton.mp h ▸ hlast⟩

end Since

end WallMon
