import Mathlib.Data.List.Count
import Mathlib.Data.List.Nodup
import Mathlib.Data.List.Perm.Basic
import Mathlib.Logic.Function.Basic
import WallMon.Transition

/-!
# Entities of a scene

A scene has two lists of entities. What is added waits in `entityListInit` until the next
`Run`, which calls `OnInit` and moves it to `entityList`. `RemoveEntity` looks into
`entityList` only. So an entity that is removed while it waits is called all the same, from
the next `Run` on (`onInit_of_removed_waiting`). If no entity is removed while it waits, and
none is added after its removal, then entities live as they should (`lifecycle`).

`Run` calls methods of entities, which add entities in turn. What they add is given with
each `Run`, by call.
-/

namespace WallMon

/-- A call of a method of an entity. -/
inductive EntityCall (E : Type) where
  /-- `OnInit` -/
  | onInit (e : E)
  /-- `OnLoop` -/
  | onLoop (e : E)
  /-- `OnRender` -/
  | onRender (e : E)
  deriving DecidableEq

/-- Whose method is called. -/
def EntityCall.entity {E : Type} : EntityCall E → E
  | onInit e => e
  | onLoop e => e
  | onRender e => e

/-- `OnInit` of an entity is called before its other methods. -/
def InitFirst {E : Type} (calls : List (EntityCall E)) : Prop :=
  ∀ pre c post, calls = pre ++ c :: post → c = .onInit c.entity ∨ .onInit c.entity ∈ pre

/-- A scene. -/
structure Scene (E : Type) where
  /-- `entityList` -/
  entityList : List E
  /-- `entityListInit` -/
  entityListInit : List E
  /-- history: the entities added -/
  added : List E
  /-- history: the entities that `RemoveEntity` was called with -/
  removed : List E
  /-- history: the calls of `Run` -/
  calls : List (EntityCall E)
  deriving DecidableEq

/-- The loop of `RemoveEntity`, which goes on behind the entity that moved up to the place of
an entity that it erases. -/
def eraseLoop {E : Type} [DecidableEq E] (entity : E) : List E → List E
  | [] => []
  | [e] => if e = entity then [] else [e]
  | e :: e' :: es =>
    if e = entity then e' :: eraseLoop entity es else e :: eraseLoop entity (e' :: es)

namespace Scene

variable {E : Type}

/-- A new scene. -/
def new : Scene E :=
  { entityList := [], entityListInit := [], added := [], removed := [], calls := [] }

/-- `Scene::AddEntity` -/
def addEntity (s : Scene E) (entity : E) : Scene E :=
  { s with entityListInit := s.entityListInit ++ [entity], added := s.added ++ [entity] }

/-- Entities are added, one after another. -/
def addEntities (s : Scene E) (entities : List E) : Scene E := entities.foldl addEntity s

/-- `Scene::RemoveEntity` -/
def removeEntity [DecidableEq E] (s : Scene E) (entity : E) : Scene E :=
  { s with entityList := eraseLoop entity s.entityList, removed := s.removed ++ [entity] }

/-- A method is called. -/
def call (s : Scene E) (c : EntityCall E) : Scene E := { s with calls := s.calls ++ [c] }

/-- The last entity of `entityListInit` is moved to `entityList`, and `OnInit` called. -/
def initEntity (s : Scene E) (e : E) : Scene E :=
  { s with
    entityListInit := s.entityListInit.dropLast
    entityList := s.entityList ++ [e] }.call (.onInit e)

/-- The first loop of `Scene::Run`. `inits` is what each `OnInit` adds, in the order of the
calls; without a value, these are not the calls of the loop. -/
def initLoop : List (List E) → Scene E → Option (Scene E)
  | [], s => if s.entityListInit.isEmpty then some s else none
  | adds :: inits, s =>
    match s.entityListInit.getLast? with
    | none => none
    | some e => initLoop inits ((s.initEntity e).addEntities adds)

/-- The loop of `Scene::Run` with `OnLoop`. `loops` is what each `OnLoop` adds. -/
def loopAll (s : Scene E) (loops : List (List E)) : Scene E :=
  (s.entityList.zip loops).foldl (fun s (e, adds) => (s.call (.onLoop e)).addEntities adds) s

/-- The loop of `Scene::Run` with `OnRender`. -/
def renderAll (s : Scene E) : Scene E :=
  s.entityList.foldl (fun s e => s.call (.onRender e)) s

/-- `Scene::Run`. Entities added by the methods are added to this scene, the current one. -/
def run (s : Scene E) (inits loops : List (List E)) : Option (Scene E) :=
  (s.initLoop inits).bind fun s =>
    if loops.length = s.entityList.length then some (s.loopAll loops).renderAll else none

/-! ## What the operations do -/

theorem addEntities_eq (s : Scene E) (entities : List E) :
    s.addEntities entities = { s with
      entityListInit := s.entityListInit ++ entities
      added := s.added ++ entities } := by
  induction entities generalizing s with
  | nil => simp [addEntities]
  | cons e entities ih =>
    rw [addEntities, List.foldl_cons, ← addEntities, ih]
    simp [addEntity]

/-- **What the first loop of `Run` does**: it calls `OnInit` of the entities that waited and
of those that were added meanwhile. -/
theorem initLoop_eq_some {s t : Scene E} {inits : List (List E)} (h : s.initLoop inits = some t) :
    ∃ opened : List E, opened.Perm (s.entityListInit ++ inits.flatten) ∧
      t = { s with
        entityList := s.entityList ++ opened
        entityListInit := []
        added := s.added ++ inits.flatten
        calls := s.calls ++ opened.map .onInit } := by
  induction inits generalizing s with
  | nil =>
    cases hwaiting : s.entityListInit with
    | nil =>
      simp only [initLoop, hwaiting, List.isEmpty_nil, if_true, Option.some.injEq] at h
      obtain ⟨entityList, entityListInit, added, removed, calls⟩ := s
      obtain rfl : entityListInit = [] := hwaiting
      exact ⟨[], by simp, by simp [← h]⟩
    | cons e waiting => simp [initLoop, hwaiting] at h
  | cons adds inits ih =>
    rcases List.eq_nil_or_concat s.entityListInit with hwaiting | ⟨waiting, e, hwaiting⟩
    · simp [initLoop, hwaiting] at h
    · rw [List.concat_eq_append] at hwaiting
      simp only [initLoop, hwaiting, List.getLast?_concat] at h
      obtain ⟨opened, hperm, rfl⟩ := ih h
      refine ⟨e :: opened, ?_, ?_⟩
      · simp only [addEntities_eq, initEntity, call, hwaiting, List.dropLast_concat] at hperm
        rw [hwaiting, List.flatten_cons, List.append_assoc, List.singleton_append]
        rw [List.append_assoc] at hperm
        exact (hperm.cons e).trans List.perm_middle.symm
      · simp [addEntities_eq, initEntity, call]

theorem loopAll_eq (s : Scene E) (loops : List (List E))
    (hlength : loops.length = s.entityList.length) :
    s.loopAll loops = { s with
      entityListInit := s.entityListInit ++ loops.flatten
      added := s.added ++ loops.flatten
      calls := s.calls ++ s.entityList.map .onLoop } := by
  have hloop : ∀ (es : List E) (loops : List (List E)) (s : Scene E), loops.length = es.length →
      (es.zip loops).foldl (fun s (e, adds) => (s.call (.onLoop e)).addEntities adds) s = { s with
        entityListInit := s.entityListInit ++ loops.flatten
        added := s.added ++ loops.flatten
        calls := s.calls ++ es.map .onLoop } := by
    intro es
    induction es with
    | nil =>
      intro loops s hlength
      simp [List.length_eq_zero_iff.mp hlength]
    | cons e es ih =>
      intro loops s hlength
      obtain ⟨adds, loops, rfl⟩ := List.exists_cons_of_length_eq_add_one hlength
      rw [List.zip_cons_cons, List.foldl_cons, ih loops _ (Nat.succ.inj hlength)]
      simp [addEntities_eq, call]
  exact hloop s.entityList loops s hlength

theorem renderAll_eq (s : Scene E) :
    s.renderAll = { s with calls := s.calls ++ s.entityList.map .onRender } := by
  have hloop : ∀ (es : List E) (s : Scene E), es.foldl (fun s e => s.call (.onRender e)) s =
      { s with calls := s.calls ++ es.map .onRender } := by
    intro es
    induction es with
    | nil => simp
    | cons e es ih =>
      intro s
      rw [List.foldl_cons, ih]
      simp [call]
  exact hloop s.entityList s

/-- The calls of a `Run` that opens entities, after which there are entities `es`. -/
def runCalls (opened es : List E) : List (EntityCall E) :=
  opened.map .onInit ++ (es.map .onLoop ++ es.map .onRender)

/-- **What `Run` does**: `OnInit` of the entities that waited and of those that were added
meanwhile, then `OnLoop` of all entities, then `OnRender`. -/
theorem run_eq_some {s t : Scene E} {inits loops : List (List E)} (h : s.run inits loops = some t) :
    ∃ opened : List E, opened.Perm (s.entityListInit ++ inits.flatten) ∧
      t = { s with
        entityList := s.entityList ++ opened
        entityListInit := loops.flatten
        added := s.added ++ (inits ++ loops).flatten
        calls := s.calls ++ runCalls opened (s.entityList ++ opened) } := by
  obtain ⟨s', hinit, hrest⟩ := Option.bind_eq_some_iff.mp h
  obtain ⟨opened, hperm, rfl⟩ := initLoop_eq_some hinit
  refine ⟨opened, hperm, ?_⟩
  split_ifs at hrest with hlength
  rw [← Option.some.inj hrest, loopAll_eq _ _ hlength, renderAll_eq]
  simp [runCalls]

theorem onInit_mem_runCalls {e : E} {opened es : List E} :
    .onInit e ∈ runCalls opened es ↔ e ∈ opened := by
  simp [runCalls]

/-- Whose methods a `Run` calls. -/
theorem mem_runCalls {c : EntityCall E} {opened es : List E} (hc : c ∈ runCalls opened es) :
    c = .onInit c.entity ∧ c.entity ∈ opened ∨ c.entity ∈ es := by
  simp only [runCalls, List.mem_append, List.mem_map] at hc
  rcases hc with ⟨x, hx, rfl⟩ | ⟨x, hx, rfl⟩ | ⟨x, hx, rfl⟩
  · exact .inl ⟨rfl, hx⟩
  · exact .inr hx
  · exact .inr hx

/-! ## What is known of a scene -/

variable [DecidableEq E]

/-- How often a `Run` calls the methods of an entity. -/
theorem count_runCalls (e : E) (opened es : List E) :
    (runCalls opened es).count (.onInit e) = opened.count e ∧
      (runCalls opened es).count (.onLoop e) = es.count e ∧
      (runCalls opened es).count (.onRender e) = es.count e := by
  have hinit :=
    opened.count_map_of_injective EntityCall.onInit (fun _ _ h => EntityCall.onInit.inj h) e
  have hloop :=
    es.count_map_of_injective EntityCall.onLoop (fun _ _ h => EntityCall.onLoop.inj h) e
  have hrender :=
    es.count_map_of_injective EntityCall.onRender (fun _ _ h => EntityCall.onRender.inj h) e
  have hzero : ∀ (f : E → EntityCall E) (c : EntityCall E) (l : List E), (∀ x, f x ≠ c) →
      (l.map f).count c = 0 := by
    intro f c l hne
    refine List.count_eq_zero.mpr fun hmem => ?_
    obtain ⟨x, -, heq⟩ := List.mem_map.mp hmem
    exact hne x heq
  simp [runCalls, hinit, hloop, hrender, hzero .onInit, hzero .onLoop, hzero .onRender]

theorem eraseLoop_eq_erase {e : E} {es : List E} (h : es.Nodup) : eraseLoop e es = es.erase e := by
  fun_induction eraseLoop e es with
  | case1 => rfl
  | case2 => simp
  | case3 e' hne => simp [hne]
  | case4 e' es ih =>
    have hnotMem : e ∉ e' :: es := (List.nodup_cons.mp h).1
    rw [ih (List.nodup_cons.mp (List.nodup_cons.mp h).2).2]
    rw [List.erase_cons_head, List.erase_of_not_mem fun hmem => hnotMem (.tail _ hmem)]
  | case5 x e' es hne ih =>
    rw [List.erase_cons_tail (by simpa using hne), ih (List.nodup_cons.mp h).2]

omit [DecidableEq E] in
/-- More calls, of entities whose `OnInit` was called. -/
theorem InitFirst.append {calls calls' : List (EntityCall E)} (h : InitFirst calls)
    (hnew : ∀ c ∈ calls', c = .onInit c.entity ∨ .onInit c.entity ∈ calls) :
    InitFirst (calls ++ calls') := by
  intro pre c post heq
  rcases List.append_eq_append_iff.mp heq with ⟨mid, hpre, hcalls'⟩ | ⟨mid, hcalls, hcons⟩
  · have hc := hnew c (hcalls' ▸ List.mem_append_right mid List.mem_cons_self)
    exact hc.imp_right fun hmem => hpre ▸ List.mem_append_left mid hmem
  · cases mid with
    | nil =>
      rw [List.append_nil] at hcalls
      have hc := hnew c (by simp only [List.nil_append] at hcons; exact hcons ▸ List.mem_cons_self)
      exact hc.imp_right fun hmem => hcalls ▸ hmem
    | cons c' mid =>
      obtain ⟨rfl, -⟩ := List.cons.inj hcons
      exact h pre c mid hcalls

omit [DecidableEq E] in
theorem InitFirst.runCalls {calls : List (EntityCall E)} {opened es : List E}
    (h : InitFirst calls) (hes : ∀ e ∈ es, .onInit e ∈ calls ∨ e ∈ opened) :
    InitFirst (calls ++ runCalls opened es) := by
  rw [Scene.runCalls, ← List.append_assoc]
  refine InitFirst.append (InitFirst.append h fun c hc => ?_) fun c hc => .inr ?_
  · obtain ⟨x, -, rfl⟩ := List.mem_map.mp hc
    exact .inl rfl
  · have hentity : c.entity ∈ es := by
      rcases List.mem_append.mp hc with hloop | hrender
      · obtain ⟨x, hx, rfl⟩ := List.mem_map.mp hloop
        exact hx
      · obtain ⟨x, hx, rfl⟩ := List.mem_map.mp hrender
        exact hx
    rcases hes c.entity hentity with hcall | hopened
    · exact List.mem_append_left _ hcall
    · exact List.mem_append_right _ (List.mem_map_of_mem hopened)

/-- What is known of a scene. -/
structure Settled (s : Scene E) : Prop where
  /-- no entity is there twice -/
  nodup : (s.entityList ++ s.entityListInit).Nodup
  /-- the entities there are those added and not removed -/
  mem_iff : ∀ e, e ∈ s.entityList ++ s.entityListInit ↔ e ∈ s.added ∧ e ∉ s.removed
  /-- `OnInit` was called once at most -/
  once : ∀ e, s.calls.count (.onInit e) ≤ 1
  /-- `OnInit` was called for entities that were added and do not wait -/
  opened : ∀ e, .onInit e ∈ s.calls → e ∈ s.added ∧ e ∉ s.entityListInit
  /-- `OnInit` was called for each of `entityList` -/
  listed : ∀ e ∈ s.entityList, .onInit e ∈ s.calls
  /-- `OnInit` was called first -/
  first : InitFirst s.calls

theorem settled_new : (new : Scene E).Settled where
  nodup := .nil
  mem_iff := by simp [new]
  once := by simp [new]
  opened := by simp [new]
  listed := by simp [new]
  first pre c post h := by cases pre <;> cases h

variable {s t : Scene E} {e : E} {inits loops : List (List E)}

/-- An entity is added that was neither added nor removed before. -/
theorem Settled.addEntity (h : s.Settled) (hnew : e ∉ s.added) (hlive : e ∉ s.removed) :
    (s.addEntity e).Settled where
  nodup := by
    have hnotMem : e ∉ s.entityList ++ s.entityListInit := fun hmem =>
      hnew ((h.mem_iff e).mp hmem).1
    simp only [Scene.addEntity]
    rw [← List.append_assoc]
    exact List.nodup_append.mpr ⟨h.nodup, List.nodup_singleton e, by
      rintro x hx y hy rfl
      exact hnotMem (List.mem_singleton.mp hy ▸ hx)⟩
  mem_iff x := by
    have hx := h.mem_iff x
    by_cases heq : x = e
    · subst heq
      simp [Scene.addEntity, hlive]
    · simpa [Scene.addEntity, heq] using hx
  once := h.once
  opened x hx := by
    obtain ⟨hadded, hwaiting⟩ := h.opened x hx
    have hne : x ≠ e := fun heq => hnew (heq ▸ hadded)
    simp [Scene.addEntity, hadded, hwaiting, hne]
  listed := h.listed
  first := h.first

/-- An entity is removed that does not wait. -/
theorem Settled.removeEntity (h : s.Settled) (hwaiting : e ∉ s.entityListInit) :
    (s.removeEntity e).Settled := by
  have hlist : s.entityList.Nodup := (List.nodup_append.mp h.nodup).1
  have hsub : ∀ x, x ∈ s.entityList.erase e → x ∈ s.entityList := fun x => List.mem_of_mem_erase
  refine ⟨?_, fun x => ?_, ?_, ?_, fun x hx => ?_, ?_⟩
  · simp only [Scene.removeEntity, eraseLoop_eq_erase hlist]
    exact h.nodup.sublist ((List.erase_sublist).append_right _)
  · have hx := h.mem_iff x
    simp only [Scene.removeEntity, eraseLoop_eq_erase hlist, List.mem_append,
      hlist.mem_erase_iff, List.mem_singleton, not_or] at hx ⊢
    refine ⟨?_, ?_⟩
    · rintro (⟨hne, hmem⟩ | hmem)
      · exact ⟨(hx.mp (.inl hmem)).1, (hx.mp (.inl hmem)).2, hne⟩
      · exact ⟨(hx.mp (.inr hmem)).1, (hx.mp (.inr hmem)).2, fun heq => hwaiting (heq ▸ hmem)⟩
    · rintro ⟨hadded, hlive, hne⟩
      exact (hx.mpr ⟨hadded, hlive⟩).imp_left fun hmem => ⟨hne, hmem⟩
  · exact h.once
  · exact h.opened
  · simp only [Scene.removeEntity, eraseLoop_eq_erase hlist] at hx
    exact h.listed x (hsub x hx)
  · exact h.first

section Run

variable {opened : List E} (h : s.Settled) (hperm : opened.Perm (s.entityListInit ++ inits.flatten))
  (hnew : (s.added ++ (inits ++ loops).flatten).Nodup)

omit [DecidableEq E] in
include hperm in
/-- What is there after a `Run` was there, or was added by it. -/
theorem perm_run :
    (s.entityList ++ opened ++ loops.flatten).Perm
      (s.entityList ++ s.entityListInit ++ (inits ++ loops).flatten) := by
  rw [List.flatten_append, List.append_assoc, List.append_assoc,
    ← List.append_assoc _ inits.flatten]
  exact (hperm.append_right _).append_left _

include h hperm hnew

theorem Settled.nodup_run : (s.entityList ++ opened ++ loops.flatten).Nodup := by
  obtain ⟨-, hadds, hdisjoint⟩ := List.nodup_append.mp hnew
  refine (perm_run hperm).nodup_iff.mpr (List.nodup_append.mpr ⟨h.nodup, hadds, ?_⟩)
  intro x hx y hy
  exact hdisjoint x ((h.mem_iff x).mp hx).1 y hy

/-- The entities that `Run` opens were not opened before. -/
theorem Settled.notMem_calls (he : e ∈ opened) : .onInit e ∉ s.calls := by
  intro hcall
  obtain ⟨hadded, hwaiting⟩ := h.opened e hcall
  rcases List.mem_append.mp (hperm.mem_iff.mp he) with hmem | hmem
  · exact hwaiting hmem
  · refine (List.nodup_append.mp hnew).2.2 e hadded e ?_ rfl
    rw [List.flatten_append]
    exact List.mem_append_left _ hmem

/-- `OnInit` is called once at most after a `Run`, too. -/
theorem Settled.once_run (x : E) :
    (s.calls ++ runCalls opened (s.entityList ++ opened)).count (.onInit x) ≤ 1 := by
  rw [List.count_append, (count_runCalls x _ _).1]
  by_cases hx : x ∈ opened
  · have hnodup := (List.nodup_append.mp (List.nodup_append.mp (h.nodup_run hperm hnew)).1).2.1
    rw [List.count_eq_zero.mpr (h.notMem_calls hperm hnew hx), Nat.zero_add]
    exact List.nodup_iff_count_le_one.mp hnodup x
  · rw [List.count_eq_zero.mpr hx]
    exact h.once x

/-- An entity that is open after a `Run` does not wait. -/
theorem Settled.opened_run {x : E} (hx : .onInit x ∈ s.calls ∨ x ∈ opened) :
    x ∈ s.added ++ (inits ++ loops).flatten ∧ x ∉ loops.flatten := by
  rcases hx with hcall | hmem
  · have hadded := (h.opened x hcall).1
    refine ⟨List.mem_append_left _ hadded, fun hloops => ?_⟩
    exact (List.nodup_append.mp hnew).2.2 x hadded x (by simp [hloops]) rfl
  · refine ⟨?_, fun hloops => ?_⟩
    · rcases List.mem_append.mp (hperm.mem_iff.mp hmem) with hwaiting | hinit
      · exact List.mem_append_left _ ((h.mem_iff x).mp (List.mem_append_right _ hwaiting)).1
      · rw [List.flatten_append]
        exact List.mem_append_right _ (List.mem_append_left _ hinit)
    · exact (List.nodup_append.mp (h.nodup_run hperm hnew)).2.2 x
        (List.mem_append_right _ hmem) x hloops rfl

end Run

/-- `Run` is called, and its methods add entities that were neither added nor removed. -/
theorem Settled.run (h : s.Settled) (hrun : s.run inits loops = some t)
    (hnew : (s.added ++ (inits ++ loops).flatten).Nodup)
    (hlive : ∀ e ∈ (inits ++ loops).flatten, e ∉ s.removed) : t.Settled := by
  obtain ⟨opened, hperm, rfl⟩ := run_eq_some hrun
  refine ⟨?_, fun x => ?_, ?_, fun x hx => ?_, fun x hx => ?_, ?_⟩
  · exact h.nodup_run hperm hnew
  · simp only
    rw [(perm_run hperm).mem_iff, List.mem_append, h.mem_iff, List.mem_append]
    refine ⟨?_, ?_⟩
    · rintro (⟨hadded, hremoved⟩ | hmem)
      · exact ⟨.inl hadded, hremoved⟩
      · exact ⟨.inr hmem, hlive x hmem⟩
    · rintro ⟨hadded | hmem, hremoved⟩
      · exact .inl ⟨hadded, hremoved⟩
      · exact .inr hmem
  · exact h.once_run hperm hnew
  · rw [List.mem_append, onInit_mem_runCalls] at hx
    exact h.opened_run hperm hnew hx
  · rw [List.mem_append, onInit_mem_runCalls]
    exact (List.mem_append.mp hx).imp_left (h.listed x)
  · exact InitFirst.runCalls h.first fun x hx => (List.mem_append.mp hx).imp_left (h.listed x)

/-! ## The law -/

/-- The calls since an earlier state. -/
def callsSince (s t : Scene E) : List (EntityCall E) := t.calls.drop s.calls.length

/-- **What a `Run` is to call**: `OnLoop` and `OnRender` of each entity that was added and
not removed, once, and no method of an entity that was removed. -/
structure RunLaw (s t : Scene E) : Prop where
  /-- `OnLoop` -/
  loop : ∀ e ∈ s.added, e ∉ s.removed → (s.callsSince t).count (.onLoop e) = 1
  /-- `OnRender` -/
  render : ∀ e ∈ s.added, e ∉ s.removed → (s.callsSince t).count (.onRender e) = 1
  /-- no entity that was removed -/
  removed : ∀ c ∈ s.callsSince t, c.entity ∉ s.removed

/-- **A `Run` from a settled scene** calls what it is to call. -/
theorem Settled.runLaw (h : s.Settled) (hrun : s.run inits loops = some t)
    (hnew : (s.added ++ (inits ++ loops).flatten).Nodup)
    (hlive : ∀ e ∈ (inits ++ loops).flatten, e ∉ s.removed) : s.RunLaw t := by
  have ht := h.run hrun hnew hlive
  obtain ⟨opened, hperm, rfl⟩ := run_eq_some hrun
  have hlist : (s.entityList ++ opened).Nodup := (List.nodup_append.mp ht.nodup).1
  have hsince : s.callsSince { s with
      entityList := s.entityList ++ opened
      entityListInit := loops.flatten
      added := s.added ++ (inits ++ loops).flatten
      calls := s.calls ++ runCalls opened (s.entityList ++ opened) } =
        runCalls opened (s.entityList ++ opened) := List.drop_left
  have hone : ∀ e ∈ s.added, e ∉ s.removed → (s.entityList ++ opened).count e = 1 := by
    intro e hadded hremoved
    refine List.count_eq_one_of_mem hlist (List.mem_append.mpr ?_)
    rcases List.mem_append.mp ((h.mem_iff e).mpr ⟨hadded, hremoved⟩) with hmem | hwaiting
    · exact .inl hmem
    · exact .inr (hperm.mem_iff.mpr (List.mem_append_left _ hwaiting))
  refine ⟨fun e hadded hremoved => ?_, fun e hadded hremoved => ?_, fun c hc => ?_⟩
  · rw [hsince, (count_runCalls e _ _).2.1, hone e hadded hremoved]
  · rw [hsince, (count_runCalls e _ _).2.2, hone e hadded hremoved]
  · rw [hsince] at hc
    have hentity : c.entity ∈ s.entityList ++ opened := by
      rcases mem_runCalls hc with ⟨-, hmem⟩ | hmem
      · exact List.mem_append_right _ hmem
      · exact hmem
    exact ((ht.mem_iff c.entity).mp (List.mem_append_left _ hentity)).2

end Scene

/-- The scenes. -/
structure Scenes (ι E : Type) where
  /-- the scenes -/
  scene : ι → Scene E
  /-- `Scene::current` -/
  current : Option ι

/-- What is done to scenes. -/
inductive SceneStep (ι E : Type) where
  /-- `current` is assigned -/
  | setCurrent (i : ι)
  /-- `AddEntity` -/
  | addEntity (i : ι) (e : E)
  /-- `AddEntityCurrent` -/
  | addEntityCurrent (e : E)
  /-- `RemoveEntity` -/
  | removeEntity (i : ι) (e : E)
  /-- `Run`, and what each `OnInit` and each `OnLoop` adds to the scene -/
  | run (i : ι) (inits loops : List (List E))

/-- The entities that a step adds. -/
def SceneStep.additions {ι E : Type} : SceneStep ι E → List E
  | addEntity _ e => [e]
  | addEntityCurrent e => [e]
  | run _ inits loops => (inits ++ loops).flatten
  | _ => []

namespace Scenes

variable {ι E : Type} [DecidableEq ι] [DecidableEq E]

/-- New scenes. -/
def new : Scenes ι E := { scene := fun _ => .new, current := none }

/-- Something is done to one scene. -/
def modify (σ : Scenes ι E) (i : ι) (f : Scene E → Scene E) : Scenes ι E :=
  { σ with scene := Function.update σ.scene i (f (σ.scene i)) }

/-- What a step does. -/
def step (σ : Scenes ι E) : SceneStep ι E → Option (Scenes ι E)
  | .setCurrent i => some { σ with current := some i }
  | .addEntity i e => some (σ.modify i (·.addEntity e))
  | .addEntityCurrent e =>
    match σ.current with
    | none => some σ
    | some i => some (σ.modify i (·.addEntity e))
  | .removeEntity i e => some (σ.modify i (·.removeEntity e))
  | .run i inits loops =>
    ((σ.scene i).run inits loops).map fun s => { σ.modify i fun _ => s with current := some i }

/-- The scene that a step adds entities to. -/
def target (σ : Scenes ι E) : SceneStep ι E → Option ι
  | .addEntity i _ => some i
  | .addEntityCurrent _ => σ.current
  | .run i _ _ => some i
  | _ => none

/-- Each entity is added once. -/
def AddsOnce (σ : Scenes ι E) (l : SceneStep ι E) : Prop :=
  ∀ i ∈ σ.target l, ((σ.scene i).added ++ l.additions).Nodup

/-- No entity is removed while it waits, and none is added after its removal. -/
def RemovesOpened (σ : Scenes ι E) (l : SceneStep ι E) : Prop :=
  (∀ i ∈ σ.target l, ∀ e ∈ l.additions, e ∉ (σ.scene i).removed) ∧
    ∀ i e, l = .removeEntity i e → e ∉ (σ.scene i).entityListInit

/-- Scenes, in any order of the steps. -/
def system : TransitionSystem (Scenes ι E) (SceneStep ι E) where
  init σ := σ = new
  step σ l τ := σ.step l = some τ ∧ σ.AddsOnce l

/-- **The life of entities**: `OnInit` is called once at most, and before the other methods,
and each `Run` calls what it is to call. -/
structure Lifecycle (M : TransitionSystem (Scenes ι E) (SceneStep ι E)) (σ : Scenes ι E) :
    Prop where
  /-- `OnInit` is called once at most -/
  once : ∀ i e, (σ.scene i).calls.count (.onInit e) ≤ 1
  /-- `OnInit` is called first -/
  first : ∀ i, InitFirst (σ.scene i).calls
  /-- the next `Run` -/
  run : ∀ i inits loops τ, M.step σ (.run i inits loops) τ → (σ.scene i).RunLaw (τ.scene i)

/-- Only the scene of a step changes. -/
theorem settled_modify {σ : Scenes ι E} (h : ∀ i, (σ.scene i).Settled) {i : ι}
    {f : Scene E → Scene E} (hf : (f (σ.scene i)).Settled) (j : ι) :
    ((σ.modify i f).scene j).Settled := by
  by_cases hj : j = i
  · subst hj
    simpa [modify] using hf
  · simpa [modify, hj] using h j

/-- **A step leaves scenes settled**, if no entity is removed while it waits. -/
theorem settled_step {σ τ : Scenes ι E} {l : SceneStep ι E} (h : ∀ i, (σ.scene i).Settled)
    (hstep : σ.step l = some τ) (hadds : σ.AddsOnce l) (hremoves : σ.RemovesOpened l) (j : ι) :
    (τ.scene j).Settled := by
  obtain ⟨hlive, hwaiting⟩ := hremoves
  have hadd : ∀ i e, σ.target l = some i → l.additions = [e] →
      ((σ.scene i).addEntity e).Settled := by
    intro i e htarget hadditions
    have hnew := hadds i htarget
    have hremoved := hlive i htarget e (by simp [hadditions])
    rw [hadditions] at hnew
    refine (h i).addEntity (fun hmem => ?_) hremoved
    exact (List.nodup_append.mp hnew).2.2 e hmem e (List.mem_singleton_self e) rfl
  cases l with
  | setCurrent i =>
    obtain rfl := Option.some.inj hstep
    exact h j
  | addEntity i e =>
    obtain rfl := Option.some.inj hstep
    exact settled_modify h (hadd i e rfl rfl) j
  | addEntityCurrent e =>
    cases hcurrent : σ.current with
    | none =>
      simp only [step, hcurrent, Option.some.injEq] at hstep
      exact hstep ▸ h j
    | some i =>
      simp only [step, hcurrent, Option.some.injEq] at hstep
      rw [← hstep]
      exact settled_modify h (hadd i e hcurrent rfl) j
  | removeEntity i e =>
    obtain rfl := Option.some.inj hstep
    exact settled_modify h ((h i).removeEntity (hwaiting i e rfl)) j
  | run i inits loops =>
    obtain ⟨s, hrun, rfl⟩ := Option.map_eq_some_iff.mp hstep
    have hs : s.Settled := (h i).run hrun (hadds i rfl) (hlive i rfl)
    exact settled_modify (f := fun _ => s) h hs j

theorem settled_of_reachable {σ : Scenes ι E}
    (h : (system.guarded RemovesOpened).Reachable σ) (i : ι) : (σ.scene i).Settled := by
  refine h.invariant (I := fun σ => ∀ i, (σ.scene i).Settled) ?_ ?_ i
  · rintro σ rfl j
    exact Scene.settled_new
  · rintro σ l τ - ih ⟨⟨hstep, hadds⟩, hremoves⟩
    exact settled_step ih hstep hadds hremoves

/-- **Entities live as they should** in every run in which no entity is removed while it
waits, or added after its removal. -/
theorem lifecycle {σ : Scenes ι E} (h : (system.guarded RemovesOpened).Reachable σ) :
    Lifecycle (system.guarded RemovesOpened) σ where
  once i e := (settled_of_reachable h i).once e
  first i := (settled_of_reachable h i).first
  run := by
    rintro i inits loops τ ⟨⟨hstep, hadds⟩, hlive, -⟩
    obtain ⟨s, hrun, rfl⟩ := Option.map_eq_some_iff.mp hstep
    simpa [modify] using
      (settled_of_reachable h i).runLaw hrun (hadds i rfl) (hlive i rfl)

/-- An entity that is removed after a `Run`. -/
theorem lifecycle_removed_opened :
    Lifecycle (system.guarded RemovesOpened)
      (({ ((new : Scenes Unit ℕ).modify () (·.addEntity 0)).modify () fun _ =>
          { entityList := [0], entityListInit := [], added := [0], removed := []
            calls := [.onInit 0, .onLoop 0, .onRender 0] } with
        current := some () } : Scenes Unit ℕ).modify () (·.removeEntity 0)) := by
  have hstart : (system.guarded RemovesOpened).Reachable (new : Scenes Unit ℕ) := .start rfl
  have hadd := hstart.next (l := .addEntity () 0)
    ⟨⟨rfl, fun () _ => by decide⟩, fun () _ => by decide, nofun⟩
  have hrun := hadd.next (l := .run () [[]] [[]])
    ⟨⟨rfl, fun () _ => by decide⟩, fun () _ => by decide, nofun⟩
  refine lifecycle (hrun.next (l := .removeEntity () 0) ⟨⟨rfl, nofun⟩, nofun, ?_⟩)
  rintro ⟨⟩ e ⟨⟩
  decide

/-- **An entity that is removed while it waits** is called by the next `Run`. -/
theorem onInit_of_removed_waiting {s t : Scene E} {e : E} {inits loops : List (List E)}
    (hwaiting : e ∈ s.entityListInit) (hrun : (s.removeEntity e).run inits loops = some t) :
    .onInit e ∈ (s.removeEntity e).callsSince t := by
  obtain ⟨opened, hperm, rfl⟩ := Scene.run_eq_some hrun
  have hopened : e ∈ opened := hperm.mem_iff.mpr (List.mem_append_left _ hwaiting)
  simp [Scene.callsSince, Scene.runCalls, hopened]

/-- An entity is removed while it waits, and the next `Run` calls its methods. -/
theorem not_lifecycle : ¬∀ σ : Scenes Unit ℕ, system.Reachable σ → Lifecycle system σ := by
  intro hall
  have hstart : system.Reachable (new : Scenes Unit ℕ) := .start rfl
  have hadd := hstart.next (l := .addEntity () 0) ⟨rfl, fun () _ => by decide⟩
  have hremove := hadd.next (l := .removeEntity () 0) ⟨rfl, nofun⟩
  have hrun := (hall _ hremove).run () [[]] [[]] _ ⟨rfl, fun () _ => by decide⟩
  exact hrun.removed (.onInit 0) (by decide) (by decide)

end Scenes

end WallMon
