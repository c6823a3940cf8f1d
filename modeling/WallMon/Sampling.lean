import WallMon.ProcessCollector

/-!
# The loop of `Sample`

A monitor whose `Update` fails is erased at its index, and the loop goes on with the next
index all the same. The monitor that has moved up to the erased one's place is passed over:
it has no message in this tick, and if its process is gone too, it stays. So the loop is
complete exactly if no monitor but the last one fails (`sampleLoop_complete_iff`).
-/

namespace WallMon

namespace ProcessCollector

/-- The loop of `Sample` from index `i` on: whether the `Update` of a monitor succeeds, and the
values it has for its message. -/
def sampleLoop (update : LinuxProcessMonitorLight → Bool)
    (values : LinuxProcessMonitorLight → ProcessMessage) (c : ProcessCollector) (i : ℕ) :
    ProcessCollector :=
  match _h : c.monitors[i]? with
  | none => c
  | some monitor =>
    sampleLoop update values (c.sampleMonitor i (update monitor) (values monitor)) (i + 1)
termination_by c.monitors.length - i
decreasing_by
  obtain ⟨hlt, -⟩ := List.getElem?_eq_some_iff.mp _h
  have hle : (c.sampleMonitor i (update monitor) (values monitor)).monitors.length ≤
      c.monitors.length := by
    simp only [sampleMonitor, _h]
    split
    · exact le_rfl
    · exact List.length_eraseIdx_le ..
  omega

section Sweep

variable {α : Type} (update : α → Bool)

/-- The elements that the loop visits: after one that fails the next one is passed over. -/
def visited : List α → List α
  | [] => []
  | [m] => [m]
  | m :: n :: l => if update m then m :: visited (n :: l) else m :: visited l

/-- The elements that the loop leaves. -/
def remaining : List α → List α
  | [] => []
  | [m] => if update m then [m] else []
  | m :: n :: l => if update m then m :: remaining (n :: l) else n :: remaining l

theorem length_visited_le (l : List α) : (visited update l).length ≤ l.length := by
  fun_induction visited update l with
  | case1 => exact le_rfl
  | case2 => exact le_rfl
  | case3 m n l hupdate ih => simpa using ih
  | case4 m n l hupdate ih =>
    simp only [List.length_cons]
    omega

/-- All elements are visited if none but the last one fails, and only then. -/
theorem length_visited_iff (l : List α) :
    (visited update l).length = l.length ↔ ∀ m ∈ l.dropLast, update m = true := by
  fun_induction visited update l with
  | case1 => simp
  | case2 => simp
  | case3 m n l hupdate ih =>
    rw [List.dropLast_cons_cons, List.forall_mem_cons, ← ih]
    simp [hupdate]
  | case4 m n l hupdate ih =>
    have hle := length_visited_le update l
    refine iff_of_false (fun heq => ?_) fun hall => hupdate (hall m (by simp))
    simp only [List.length_cons] at heq
    omega

/-- If none but the last one fails, then the loop visits all and leaves those that do not
fail. -/
theorem visited_eq_remaining_eq {l : List α} (h : ∀ m ∈ l.dropLast, update m = true) :
    visited update l = l ∧ remaining update l = l.filter update := by
  fun_induction visited update l with
  | case1 => exact ⟨rfl, rfl⟩
  | case2 m => exact ⟨rfl, by cases hm : update m <;> simp [remaining, hm]⟩
  | case3 m n l hupdate ih =>
    obtain ⟨hvisited, hremaining⟩ := ih fun m' hm' => h m' (by simp [hm'])
    refine ⟨by rw [hvisited], ?_⟩
    rw [remaining, if_pos hupdate, hremaining, List.filter_cons_of_pos hupdate]
  | case4 m n l hupdate ih => exact absurd (h m (by simp)) hupdate

end Sweep

variable {update : LinuxProcessMonitorLight → Bool}
  {values : LinuxProcessMonitorLight → ProcessMessage}

/-- The message about a monitor. -/
def message (update : LinuxProcessMonitorLight → Bool)
    (values : LinuxProcessMonitorLight → ProcessMessage) (monitor : LinuxProcessMonitorLight) :
    ℕ × ProcessMessage :=
  (monitor.number, { values monitor with isTerminated := !update monitor })

/-- The loop ends behind the last monitor. -/
theorem sampleLoop_done {c : ProcessCollector} {i : ℕ} (hi : c.monitors.length ≤ i) :
    sampleLoop update values c i = c := by
  rw [sampleLoop]
  split
  · rfl
  · next monitor hget =>
    rw [List.getElem?_eq_none hi] at hget
    cases hget

/-- **One round** of the loop. -/
theorem sampleLoop_round {c : ProcessCollector} {before after : List LinuxProcessMonitorLight}
    {m : LinuxProcessMonitorLight} (hmonitors : c.monitors = before ++ m :: after) :
    sampleLoop update values c before.length =
      sampleLoop update values
        { c with
          monitors := if update m then before ++ m :: after else before ++ after
          processesMsg := c.processesMsg ++ [message update values m] } (before.length + 1) := by
  have hget : c.monitors[before.length]? = some m := by simp [hmonitors]
  have herase : c.monitors.eraseIdx before.length = before ++ after := by
    rw [hmonitors, List.eraseIdx_append_of_length_le le_rfl]
    simp
  rw [sampleLoop]
  split
  · next hnone =>
    rw [hget] at hnone
    cases hnone
  · next monitor hmonitor =>
    obtain rfl := Option.some.inj (hget.symm.trans hmonitor)
    rw [sampleMonitor, hget]
    dsimp only
    rw [herase, ← hmonitors]
    rfl

/-- **What the loop does** to the monitors from its index on. -/
theorem sampleLoop_eq (c : ProcessCollector) (before after : List LinuxProcessMonitorLight)
    (hmonitors : c.monitors = before ++ after) :
    sampleLoop update values c before.length =
      { c with
        monitors := before ++ remaining update after
        processesMsg := c.processesMsg ++ (visited update after).map (message update values) } := by
  fun_induction visited update after generalizing c before with
  | case1 =>
    rw [sampleLoop_done (by simp [hmonitors])]
    simp [remaining, ← hmonitors]
  | case2 m =>
    rw [sampleLoop_round hmonitors, sampleLoop_done]
    · cases hm : update m <;> simp [remaining, hm]
    · dsimp only
      split <;> simp
  | case3 m n l hupdate ih =>
    rw [sampleLoop_round hmonitors, if_pos hupdate]
    have hrest := ih { c with
      monitors := before ++ m :: n :: l
      processesMsg := c.processesMsg ++ [message update values m] } (before ++ [m]) (by simp)
    rw [List.length_append, List.length_singleton] at hrest
    rw [hrest, remaining, if_pos hupdate]
    simp
  | case4 m n l hupdate ih =>
    rw [sampleLoop_round hmonitors, if_neg hupdate]
    have hrest := ih { c with
      monitors := before ++ n :: l
      processesMsg := c.processesMsg ++ [message update values m] } (before ++ [n]) (by simp)
    rw [List.length_append, List.length_singleton] at hrest
    rw [hrest, remaining, if_neg hupdate]
    simp

/-- **The whole loop.** -/
theorem sampleLoop_zero (update : LinuxProcessMonitorLight → Bool)
    (values : LinuxProcessMonitorLight → ProcessMessage) (c : ProcessCollector) :
    sampleLoop update values c 0 =
      { c with
        monitors := remaining update c.monitors
        processesMsg :=
          c.processesMsg ++ (visited update c.monitors).map (message update values) } := by
  have hloop := @sampleLoop_eq update values c [] c.monitors rfl
  rwa [List.length_nil] at hloop

/-- **Sampling is complete**: each monitor has its message, and those whose `Update` failed, and
only those, are gone. -/
structure Complete (update : LinuxProcessMonitorLight → Bool)
    (values : LinuxProcessMonitorLight → ProcessMessage) (c c' : ProcessCollector) : Prop where
  /-- the messages -/
  messages : c'.processesMsg = c.processesMsg ++ c.monitors.map (message update values)
  /-- the monitors -/
  monitors : c'.monitors = c.monitors.filter update

/-- **The loop is complete** exactly if the `Update` of every monitor but the last one
succeeds. -/
theorem sampleLoop_complete_iff (update : LinuxProcessMonitorLight → Bool)
    (values : LinuxProcessMonitorLight → ProcessMessage) (c : ProcessCollector) :
    Complete update values c (sampleLoop update values c 0) ↔
      ∀ monitor ∈ c.monitors.dropLast, update monitor = true := by
  rw [sampleLoop_zero]
  refine ⟨fun h => ?_, fun h => ?_⟩
  · have hlength := congrArg List.length h.messages
    rw [← length_visited_iff]
    simpa using hlength
  · obtain ⟨hvisited, hremaining⟩ := visited_eq_remaining_eq update h
    exact ⟨by rw [hvisited], hremaining⟩

/-- A collector with monitors of three processes. -/
def ofThree : ProcessCollector where
  pidMonitor := .empty
  monitors := [⟨⟨11, 0⟩, 0⟩, ⟨⟨12, 1⟩, 1⟩, ⟨⟨13, 2⟩, 2⟩]
  processesMsg := []
  created := 3

/-- A message without values. -/
def noValues (_ : LinuxProcessMonitorLight) : ProcessMessage where
  hostname := none
  processname := none
  pid := none
  isTerminated := false
  statistics := []

/-- The first process ends: the second one has no message. Both end: the second one's monitor
stays. -/
theorem not_complete_ofThree :
    ((sampleLoop (fun m => m.number != 0) noValues ofThree 0).processesMsg.map (·.1) = [0, 2] ∧
      ¬Complete (fun m => m.number != 0) noValues ofThree
        (sampleLoop (fun m => m.number != 0) noValues ofThree 0)) ∧
    ((sampleLoop (fun m => m.number == 2) noValues ofThree 0).monitors.map (·.number) = [1, 2] ∧
      ¬Complete (fun m => m.number == 2) noValues ofThree
        (sampleLoop (fun m => m.number == 2) noValues ofThree 0)) := by
  rw [sampleLoop_zero, sampleLoop_zero]
  refine ⟨⟨by decide, fun h => ?_⟩, by decide, fun h => ?_⟩
  · exact absurd (congrArg List.length h.messages) (by decide)
  · exact absurd (congrArg List.length h.monitors) (by decide)

end ProcessCollector

end WallMon
