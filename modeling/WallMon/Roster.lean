import Mathlib.Data.List.Basic
import Mathlib.Data.List.Induction
import Mathlib.Logic.Function.Basic
import Mathlib.Order.Basic

/-!
# Rosters

A roster gives each key an entry of its own the first time that it is asked for, and
forgets the entry when the key ends. Asked for keys by their codes, it does the same as
long as no key is asked for whose code is that of another key with an entry, and no longer
(`outcomes_encode_iff`).
-/

namespace WallMon

/-- The entries of the keys; entries are numbered. -/
@[ext]
structure Roster (K : Type) where
  /-- which entry a key has -/
  entry : K → Option ℕ
  /-- how many entries were made -/
  created : ℕ

namespace Roster

/-- A roster without entries. -/
def empty {K : Type} : Roster K := { entry := fun _ => none, created := 0 }

/-- What comes of a request. -/
inductive Outcome where
  /-- the key has a new entry -/
  | created (entry : ℕ)
  /-- the key had an entry -/
  | found (entry : ℕ)
  /-- the key had an entry, which was forgotten -/
  | removed (entry : ℕ)
  /-- a key without entry ends -/
  | absent
  deriving DecidableEq

/-- The entry that a request yields. -/
def Outcome.yields : Outcome → Option ℕ
  | created entry => some entry
  | found entry => some entry
  | removed _ => none
  | absent => none

section Requests

variable {K : Type} [DecidableEq K]

/-- A request: of a key, which ends or not. -/
def request (r : Roster K) (k : K) (ends : Bool) : Roster K × Outcome :=
  match r.entry k, ends with
  | some v, true => ({ r with entry := Function.update r.entry k none }, .removed v)
  | none, true => (r, .absent)
  | some v, false => (r, .found v)
  | none, false =>
    ({ entry := Function.update r.entry k (some r.created), created := r.created + 1 },
      .created r.created)

/-- The outcomes of requests, one after another. -/
def outcomes : Roster K → List (K × Bool) → List Outcome
  | _, [] => []
  | r, (k, ends) :: requests =>
    (r.request k ends).2 :: outcomes (r.request k ends).1 requests

@[simp] theorem length_outcomes (r : Roster K) (requests : List (K × Bool)) :
    (r.outcomes requests).length = requests.length := by
  induction requests generalizing r with
  | nil => rfl
  | cons first requests ih => simp [outcomes, ih]

/-- The roster after requests. -/
def after (r : Roster K) (requests : List (K × Bool)) : Roster K :=
  requests.foldl (fun r (k, ends) => (r.request k ends).1) r

/-- No two keys have one entry, and entries are counted. -/
structure Proper (r : Roster K) : Prop where
  /-- entries are counted -/
  lt : ∀ k v, r.entry k = some v → v < r.created
  /-- an entry is of one key -/
  inj : ∀ k k' v, r.entry k = some v → r.entry k' = some v → k = k'

variable {r : Roster K} {k k' : K} {v : ℕ} {ends : Bool}

omit [DecidableEq K] in
theorem proper_empty : (empty : Roster K).Proper :=
  ⟨nofun, nofun⟩

/-- What a request leaves of the entries of other keys. -/
theorem entry_request_of_ne (h : k' ≠ k) : (r.request k ends).1.entry k' = r.entry k' := by
  cases hentry : r.entry k <;> cases ends <;> simp [request, hentry, Function.update_of_ne h]

/-- What a request leaves of the entry of its key. -/
theorem entry_request_self :
    (r.request k ends).1.entry k = if ends then none else some ((r.entry k).getD r.created) := by
  cases hentry : r.entry k <;> cases ends <;> simp [request, hentry]

theorem created_le_request : r.created ≤ (r.request k ends).1.created := by
  cases hentry : r.entry k <;> cases ends <;> simp [request, hentry]

/-- **A request keeps entries of different keys apart.** -/
theorem Proper.request (h : r.Proper) (k : K) (ends : Bool) : (r.request k ends).1.Proper := by
  have hself : ∀ v, (r.request k ends).1.entry k = some v →
      r.entry k = some v ∨ v = r.created ∧ r.created < (r.request k ends).1.created := by
    intro v hv
    cases hentry : r.entry k <;> cases ends <;> simp_all [Roster.request]
  refine ⟨fun k' v hv => ?_, ?_⟩
  · by_cases heq : k' = k
    · subst heq
      rcases hself v hv with hold | ⟨rfl, hlt⟩
      · exact Nat.lt_of_lt_of_le (h.lt _ v hold) created_le_request
      · exact hlt
    · rw [entry_request_of_ne heq] at hv
      exact Nat.lt_of_lt_of_le (h.lt k' v hv) created_le_request
  · have hother : ∀ k' v, k' ≠ k → (r.request k ends).1.entry k = some v →
        (r.request k ends).1.entry k' = some v → False := by
      intro k' v hne hk hk'
      rw [entry_request_of_ne hne] at hk'
      rcases hself v hk with hold | ⟨rfl, -⟩
      · exact hne (h.inj _ _ v hk' hold)
      · exact absurd (h.lt k' _ hk') (Nat.lt_irrefl _)
    intro k₁ k₂ v h₁ h₂
    by_cases heq₁ : k₁ = k <;> by_cases heq₂ : k₂ = k
    · rw [heq₁, heq₂]
    · exact (hother k₂ v heq₂ (heq₁ ▸ h₁) h₂).elim
    · exact (hother k₁ v heq₁ (heq₂ ▸ h₂) h₁).elim
    · rw [entry_request_of_ne heq₁] at h₁
      rw [entry_request_of_ne heq₂] at h₂
      exact h.inj k₁ k₂ v h₁ h₂

/-! ## Entries are not shared -/

/-- An entry from before is yielded to its key only. -/
theorem entry_of_mem_outcomes {requests : List (K × Bool)} {p : (K × Bool) × Outcome}
    (hp : p ∈ requests.zip (r.outcomes requests)) (hyields : p.2.yields = some v)
    (hlt : v < r.created) : r.entry p.1.1 = some v := by
  induction requests generalizing r with
  | nil => cases hp
  | cons first requests ih =>
    obtain ⟨k, ends⟩ := first
    rw [outcomes, List.zip_cons_cons] at hp
    rcases List.mem_cons.mp hp with rfl | hlater
    · cases hentry : r.entry k <;> cases ends <;>
        simp_all [Roster.request, Outcome.yields]
    · have hold := ih hlater (Nat.lt_of_lt_of_le hlt created_le_request)
      by_cases heq : p.1.1 = k
      · rw [heq, entry_request_self] at hold
        cases ends with
        | true => cases hold
        | false =>
          rw [heq]
          cases hentry : r.entry k with
          | some w => simpa [hentry] using hold
          | none =>
            -- the entry made now has a later number
            simp only [hentry, Option.getD_none, Bool.false_eq_true, if_false,
              Option.some.injEq] at hold
            omega
      · rwa [entry_request_of_ne heq] at hold

/-- **An entry is yielded to one key only**, in all requests. -/
theorem outcomes_apart (h : r.Proper) (requests : List (K × Bool)) :
    (requests.zip (r.outcomes requests)).Pairwise fun p q =>
      ∀ v, p.2.yields = some v → q.2.yields = some v → p.1.1 = q.1.1 := by
  induction requests generalizing r with
  | nil => exact .nil
  | cons first requests ih =>
    obtain ⟨k, ends⟩ := first
    have hnext := h.request k ends
    refine List.pairwise_cons.mpr ⟨fun q hq v hfirst hlater => ?_, ih hnext⟩
    have hkey : (r.request k ends).1.entry k = some v := by
      cases hentry : r.entry k <;> cases ends <;>
        simp_all [Roster.request, Outcome.yields]
    have hentry := entry_of_mem_outcomes hq hlater (hnext.lt k v hkey)
    exact hnext.inj _ _ v hkey hentry

/-! ## Which keys have an entry -/

/-- A key was asked for and did not end since. -/
def Live (requests : List (K × Bool)) (k : K) : Prop :=
  ∃ pre post, requests = pre ++ (k, false) :: post ∧ (k, true) ∉ post

theorem after_snoc (r : Roster K) (requests : List (K × Bool)) (k : K) (ends : Bool) :
    r.after (requests ++ [(k, ends)]) = ((r.after requests).request k ends).1 := by
  simp [after]

omit [DecidableEq K] in
theorem live_snoc_iff {requests : List (K × Bool)} {x : K × Bool} :
    Live (requests ++ [x]) k ↔ x = (k, false) ∨ Live requests k ∧ x ≠ (k, true) := by
  refine ⟨?_, ?_⟩
  · rintro ⟨pre, post, heq, hpost⟩
    rcases List.eq_nil_or_concat post with rfl | ⟨post, last, rfl⟩
    · obtain ⟨-, hlast⟩ := List.append_inj' heq rfl
      exact .inl (List.singleton_inj.mp hlast)
    · rw [List.concat_eq_append] at heq hpost
      rw [← List.cons_append, ← List.append_assoc] at heq
      obtain ⟨hinit, hlast⟩ := List.append_inj' heq rfl
      obtain rfl := List.singleton_inj.mp hlast
      refine .inr ⟨⟨pre, post, hinit, fun hmem => hpost (List.mem_append_left _ hmem)⟩, ?_⟩
      rintro rfl
      exact hpost (List.mem_append_right _ (List.mem_singleton_self _))
  · rintro (rfl | ⟨⟨pre, post, rfl, hpost⟩, hne⟩)
    · exact ⟨requests, [], rfl, List.not_mem_nil⟩
    · refine ⟨pre, post ++ [x], by simp, fun hmem => ?_⟩
      rcases List.mem_append.mp hmem with hold | hlast
      · exact hpost hold
      · exact hne (List.mem_singleton.mp hlast).symm

/-- **The keys with an entry** are those asked for that did not end since. -/
theorem isSome_entry_iff (requests : List (K × Bool)) :
    ((empty.after requests).entry k).isSome ↔ Live requests k := by
  induction requests using List.reverseRecOn with
  | nil =>
    refine ⟨nofun, ?_⟩
    rintro ⟨pre, post, heq, -⟩
    cases pre <;> cases heq
  | append_singleton requests x ih =>
    obtain ⟨k', ends⟩ := x
    rw [after_snoc, live_snoc_iff, ← ih]
    by_cases heq : k = k'
    · subst heq
      rw [entry_request_self]
      cases ends <;> simp
    · rw [entry_request_of_ne heq]
      have hne : k' ≠ k := Ne.symm heq
      simp [hne]

end Requests

/-! ## Keys by their codes -/

section Codes

variable {K E : Type} [DecidableEq K] [DecidableEq E] {encode : K → E} {c : Roster E}
  {a : Roster K} {k : K} {ends : Bool}

/-- The requests by code. -/
def encodeRequests (encode : K → E) (requests : List (K × Bool)) : List (E × Bool) :=
  requests.map fun (k, ends) => (encode k, ends)

/-- The entries of the codes are those of the keys. -/
structure Represents (encode : K → E) (c : Roster E) (a : Roster K) : Prop where
  /-- as many entries were made -/
  created : c.created = a.created
  /-- the entries -/
  entry : ∀ e v, c.entry e = some v ↔ ∃ k, a.entry k = some v ∧ encode k = e

/-- No other key with an entry has the code of this one. -/
def NoClash (encode : K → E) (a : Roster K) (k : K) : Prop :=
  ∀ k', (a.entry k').isSome → encode k' = encode k → k' = k

omit [DecidableEq K] [DecidableEq E] in
theorem represents_empty : Represents encode empty (empty : Roster K) :=
  ⟨rfl, fun _ _ => ⟨nofun, fun ⟨_, h, _⟩ => nomatch h⟩⟩

omit [DecidableEq K] [DecidableEq E] in
/-- Without a clash, the code has the entry of the key. -/
theorem Represents.entry_eq (h : Represents encode c a) (hclash : NoClash encode a k) :
    c.entry (encode k) = a.entry k := by
  cases hentry : a.entry k with
  | some v => exact (h.entry _ v).mpr ⟨k, hentry, rfl⟩
  | none =>
    refine Option.eq_none_iff_forall_ne_some.mpr fun v hv => ?_
    obtain ⟨k', hk', hcode⟩ := (h.entry _ v).mp hv
    obtain rfl := hclash k' (by rw [hk']; rfl) hcode
    rw [hentry] at hk'
    cases hk'

/-- **A request without a clash** has the same outcome, and the codes still have the entries
of the keys. -/
theorem Represents.request (h : Represents encode c a) (hclash : NoClash encode a k) (ends : Bool) :
    (c.request (encode k) ends).2 = (a.request k ends).2 ∧
      Represents encode (c.request (encode k) ends).1 (a.request k ends).1 := by
  have hsame := h.entry_eq hclash
  have hcreated := h.created
  have hoperation : (c.request (encode k) ends).2 = (a.request k ends).2 ∧
      (c.request (encode k) ends).1.created = (a.request k ends).1.created := by
    cases hentry : a.entry k <;> cases ends <;> simp [Roster.request, hsame, hentry, hcreated]
  refine ⟨hoperation.1, hoperation.2, fun e v => ?_⟩
  by_cases he : e = encode k
  · subst he
    rw [entry_request_self, hsame, hcreated, ← entry_request_self]
    refine ⟨?_, ?_⟩
    · exact fun hv => ⟨k, hv, rfl⟩
    · rintro ⟨k', hk', hcode⟩
      by_cases heq : k' = k
      · rwa [heq] at hk'
      · rw [entry_request_of_ne heq] at hk'
        exact absurd (hclash k' (by rw [hk']; rfl) hcode) heq
  · rw [entry_request_of_ne he, h.entry]
    refine exists_congr fun k' => and_congr_left fun hcode => ?_
    have hne : k' ≠ k := fun heq => he (hcode ▸ heq ▸ rfl)
    rw [entry_request_of_ne hne]

/-- **A request with a clash** has another outcome. -/
theorem Represents.request_ne (h : Represents encode c a) (hproper : a.Proper)
    (hclash : ¬NoClash encode a k) (ends : Bool) :
    (c.request (encode k) ends).2 ≠ (a.request k ends).2 := by
  simp only [NoClash, not_forall] at hclash
  obtain ⟨k', hentry, hcode, hne⟩ := hclash
  obtain ⟨v, hv⟩ := Option.isSome_iff_exists.mp hentry
  have hc : c.entry (encode k) = some v := (h.entry _ v).mpr ⟨k', hv, hcode⟩
  cases ha : a.entry k with
  | none => cases ends <;> simp [Roster.request, hc, ha]
  | some w =>
    -- the code would have the entries of both keys
    have hw : c.entry (encode k) = some w := (h.entry _ w).mpr ⟨k, ha, rfl⟩
    obtain rfl : v = w := Option.some.inj (hc.symm.trans hw)
    exact absurd (hproper.inj _ _ v hv ha) hne

/-- No request is of a key whose code is that of another key that was asked for and did not
end since. -/
def Clear (encode : K → E) (requests : List (K × Bool)) : Prop :=
  ∀ pre k ends post, requests = pre ++ (k, ends) :: post →
    ∀ k', Live pre k' → encode k' = encode k → k' = k

theorem outcomes_encode_iff_noClash (h : Represents encode c a) (hproper : a.Proper)
    (requests : List (K × Bool)) :
    c.outcomes (encodeRequests encode requests) = a.outcomes requests ↔
      ∀ pre k ends post, requests = pre ++ (k, ends) :: post → NoClash encode (a.after pre) k := by
  induction requests generalizing c a with
  | nil =>
    refine ⟨fun _ pre k ends post heq => ?_, fun _ => rfl⟩
    cases pre <;> cases heq
  | cons first requests ih =>
    obtain ⟨k, ends⟩ := first
    have hsplit : (∀ pre k' ends' post, (k, ends) :: requests = pre ++ (k', ends') :: post →
        NoClash encode (a.after pre) k') ↔ NoClash encode a k ∧
        ∀ pre k' ends' post, requests = pre ++ (k', ends') :: post →
          NoClash encode ((a.request k ends).1.after pre) k' := by
      refine ⟨fun hall => ?_, ?_⟩
      · exact ⟨hall [] k ends requests rfl, fun pre k' ends' post heq =>
          hall ((k, ends) :: pre) k' ends' post (congrArg _ heq)⟩
      · rintro ⟨hfirst, hrest⟩ pre k' ends' post heq
        cases pre with
        | nil =>
          obtain ⟨rfl, rfl⟩ := Prod.mk.inj (List.cons.inj heq).1
          exact hfirst
        | cons x pre =>
          obtain ⟨rfl, htail⟩ := List.cons.inj heq
          exact hrest pre k' ends' post htail
    rw [hsplit]
    by_cases hclash : NoClash encode a k
    · obtain ⟨houtcome, hnext⟩ := h.request hclash ends
      rw [← ih hnext (hproper.request k ends)]
      simp [encodeRequests, outcomes, houtcome, hclash]
    · have hne := h.request_ne hproper hclash ends
      simp [encodeRequests, outcomes, hne, hclash]

/-- **Requests by code** have the outcomes of the requests exactly if no code clashes. -/
theorem outcomes_encode_iff (requests : List (K × Bool)) :
    (empty : Roster E).outcomes (encodeRequests encode requests) =
      (empty : Roster K).outcomes requests ↔ Clear encode requests := by
  rw [outcomes_encode_iff_noClash represents_empty proper_empty]
  simp only [NoClash, isSome_entry_iff, Clear]

end Codes

end Roster

end WallMon
