import WallMon.Coverage

/-!
# What becomes of the notices of dead processes

The loop of `Sample` takes a monitor whose process is dead out of `_monitors` and sets
`isTerminated` in its message. Nothing else remembers that monitor. If the messages of the
tick do not fit into the buffer, they are cleared, and the notice with them. So every
notice is handed back if the ticks with a dead process have messages that fit
(`noticesHanded_of_noticeFits`), and a notice in a tick whose messages do not fit is not
handed back in any later tick (`lost_of_not_noticeFits`).
-/

namespace WallMon

/-! ## Notices -/

/-- The monitors that messages report as terminated. -/
def noticeNumbers (data : List (ℕ × ProcessMessage)) : List ℕ :=
  (data.filter (·.2.isTerminated)).map (·.1)

theorem mem_noticeNumbers {data : List (ℕ × ProcessMessage)} {n : ℕ} :
    n ∈ noticeNumbers data ↔ ∃ msg, (n, msg) ∈ data ∧ msg.isTerminated := by
  simp [noticeNumbers]

theorem noticeNumbers_append (data data' : List (ℕ × ProcessMessage)) :
    noticeNumbers (data ++ data') = noticeNumbers data ++ noticeNumbers data' := by
  simp [noticeNumbers]

theorem noticeNumbers_singleton (n : ℕ) (msg : ProcessMessage) :
    noticeNumbers [(n, msg)] = if msg.isTerminated then [n] else [] := by
  cases h : msg.isTerminated with
  | true => simp [noticeNumbers, h]
  | false => simp [noticeNumbers, h]

/-- How long messages are at least. -/
theorem le_batchByteSize {b : ℕ} {msgs : List ProcessMessage}
    (h : ∀ msg ∈ msgs, b ≤ msg.statistics.length) : msgs.length * (b + 2) ≤ batchByteSize msgs := by
  induction msgs with
  | nil => simp
  | cons msg msgs ih =>
    obtain ⟨hmsg, hmsgs⟩ := List.forall_mem_cons.mp h
    have hsize : b ≤ msg.byteSize := hmsg.trans (Nat.le_add_left _ _)
    have htail := ih hmsgs
    simp only [batchByteSize, varintSize, List.length_cons, List.map_cons, List.sum_cons,
      Nat.add_one_mul] at htail ⊢
    omega

namespace CollectorRun

variable {C : CollectorConfig} {r r' : CollectorRun} {e : CollectorEvent} {n : ℕ}

/-- The notices that were handed back or wait in `_processesMsg`. -/
def notices (r : CollectorRun) : List ℕ :=
  noticeNumbers r.handed.flatten ++ noticeNumbers r.collector.processesMsg

/-- Every monitor taken out of `_monitors` has a message with `isTerminated` in data that
was handed back. -/
def NoticesHanded (r : CollectorRun) : Prop :=
  ∀ n ∈ r.removed, ∃ data ∈ r.handed, ∃ msg, (n, msg) ∈ data ∧ msg.isTerminated

theorem noticesHanded_iff :
    r.NoticesHanded ↔ ∀ n ∈ r.removed, n ∈ noticeNumbers r.handed.flatten := by
  simp only [NoticesHanded, mem_noticeNumbers, List.mem_flatten]
  refine forall₂_congr fun n _ => ?_
  refine ⟨?_, ?_⟩
  · rintro ⟨data, hdata, msg, hmsg, hterminated⟩
    exact ⟨msg, ⟨data, hdata, hmsg⟩, hterminated⟩
  · rintro ⟨msg, ⟨data, hdata, hmsg⟩, hterminated⟩
    exact ⟨data, hdata, msg, hmsg, hterminated⟩

/-- If a monitor was taken out in this tick, then the messages of the tick fit into the
buffer. -/
def NoticeFits (r : CollectorRun) : CollectorEvent → Prop
  | .finish => (∃ m ∈ r.collector.processesMsg, m.2.isTerminated) → r.collector.Fits
  | _ => True

/-! ## What is known of the numbers -/

/-- What is known of the monitors and notices. -/
structure Noticed (r : CollectorRun) : Prop where
  /-- monitors have different numbers -/
  nodup : (r.collector.monitors.map (·.number)).Nodup
  /-- monitors are counted -/
  lt : ∀ m ∈ r.collector.monitors, m.number < r.collector.created
  /-- also those taken out -/
  removed_lt : ∀ n ∈ r.removed, n < r.collector.created
  /-- what is taken out is not in `_monitors` -/
  removed_notMem : ∀ m ∈ r.collector.monitors, m.number ∉ r.removed
  /-- each monitor has at most one notice -/
  nodup_notices : r.notices.Nodup
  /-- notices are about monitors taken out -/
  of_notices : ∀ n ∈ r.notices, n ∈ r.removed
  /-- messages wait only in the loop of `Sample` -/
  waiting : (∀ i, r.phase ≠ .sampling i) → r.collector.processesMsg = []

theorem Noticed.start (host : Host) : Noticed (start host) where
  nodup := .nil
  lt := fun _ hm => absurd hm List.not_mem_nil
  removed_lt := fun _ hn => absurd hn List.not_mem_nil
  removed_notMem := fun _ hm => absurd hm List.not_mem_nil
  nodup_notices := .nil
  of_notices := fun _ hn => absurd hn List.not_mem_nil
  waiting := fun _ => rfl

/-- A monitor is made for a process, or not. -/
theorem Noticed.add (h : Noticed r) {pid : ℤ} {pids : List ℤ} {inSample readable : Bool}
    (hphase : r.phase = .adding (pid :: pids) inSample) :
    Noticed (r.add C pid pids inSample readable) := by
  obtain ⟨monitors, created, refused, heq, hcases⟩ := add_cases C r pid pids inSample readable
  rw [heq]
  have hwaiting : r.collector.processesMsg = [] :=
    h.waiting fun i hi => by rw [hphase] at hi; cases hi
  rcases hcases with ⟨birth, -, rfl, rfl, -⟩ | ⟨rfl, rfl, -, -⟩
  · have hnew : r.collector.created ∉ r.collector.monitors.map (·.number) := by
      intro hmem
      obtain ⟨m, hm, hnumber⟩ := List.mem_map.mp hmem
      exact absurd hnumber (h.lt m hm).ne
    refine
      { nodup := ?_
        lt := List.forall_mem_append.mpr
          ⟨fun m hm => (h.lt m hm).trans (Nat.lt_succ_self _), by simp⟩
        removed_lt := fun n hn => (h.removed_lt n hn).trans (Nat.lt_succ_self _)
        removed_notMem := List.forall_mem_append.mpr
          ⟨h.removed_notMem, List.forall_mem_singleton.mpr fun hmem => ?_⟩
        nodup_notices := h.nodup_notices
        of_notices := h.of_notices
        waiting := fun _ => hwaiting }
    · rw [List.map_append, List.map_singleton]
      exact h.nodup.append (List.nodup_singleton _) (List.disjoint_singleton.mpr hnew)
    · exact absurd (h.removed_lt _ hmem) (lt_irrefl _)
  · exact { h with waiting := fun _ => hwaiting }

/-- A monitor is sampled: it stays, or it is taken out and its message is a notice. -/
theorem update_notices (r : CollectorRun) {i : ℕ} {monitor : LinuxProcessMonitorLight}
    (readable : Bool) (values : ProcessMessage)
    (hmonitor : r.collector.monitors[i]? = some monitor) :
    (r.update i monitor readable values).collector.created = r.collector.created ∧
      ((r.update i monitor readable values).collector.monitors = r.collector.monitors ∧
          (r.update i monitor readable values).removed = r.removed ∧
          (r.update i monitor readable values).notices = r.notices ∨
        (r.update i monitor readable values).collector.monitors =
            r.collector.monitors.eraseIdx i ∧
          (r.update i monitor readable values).removed = r.removed ++ [monitor.number] ∧
          (r.update i monitor readable values).notices = r.notices ++ [monitor.number]) := by
  obtain ⟨update, hcollector, hremoved, -, -⟩ := update_cases r readable values hmonitor
  have hhanded : (r.update i monitor readable values).handed = r.handed := rfl
  refine ⟨by rw [hcollector], ?_⟩
  rw [hremoved, notices, hhanded, hcollector, noticeNumbers_append, noticeNumbers_singleton,
    ← List.append_assoc]
  cases update with
  | true => exact .inl (by simp [notices])
  | false => exact .inr (by simp [notices])

/-- A monitor is sampled: the numbers stay in order. -/
theorem Noticed.update (h : Noticed r) {i : ℕ} {monitor : LinuxProcessMonitorLight}
    (readable : Bool) (values : ProcessMessage)
    (hmonitor : r.collector.monitors[i]? = some monitor) :
    Noticed (r.update i monitor readable values) := by
  have hwaiting : (∀ j, (r.update i monitor readable values).phase ≠ .sampling j) →
      (r.update i monitor readable values).collector.processesMsg = [] :=
    fun hphase => absurd rfl (hphase (i + 1))
  obtain ⟨hcreated, ⟨hmonitors, hremoved, hnotices⟩ | ⟨hmonitors, hremoved, hnotices⟩⟩ :=
    update_notices r readable values hmonitor
  · exact
      { nodup := by rw [hmonitors]; exact h.nodup
        lt := by rw [hmonitors, hcreated]; exact h.lt
        removed_lt := by rw [hremoved, hcreated]; exact h.removed_lt
        removed_notMem := by rw [hmonitors, hremoved]; exact h.removed_notMem
        nodup_notices := by rw [hnotices]; exact h.nodup_notices
        of_notices := by rw [hnotices, hremoved]; exact h.of_notices
        waiting := hwaiting }
  · have hmem : monitor ∈ r.collector.monitors := List.mem_of_getElem? hmonitor
    have hsublist := List.eraseIdx_sublist r.collector.monitors i
    have hgone : ∀ m ∈ r.collector.monitors.eraseIdx i, m.number ≠ monitor.number := by
      intro m hm hnumber
      obtain ⟨j, hne, hj⟩ := List.mem_eraseIdx_iff_getElem?.mp hm
      -- two indices of one number
      have hnumbers : (r.collector.monitors.map (·.number))[j]? =
          (r.collector.monitors.map (·.number))[i]? := by
        rw [List.getElem?_map, List.getElem?_map, hj, hmonitor, Option.map_some, Option.map_some,
          hnumber]
      have hlt : j < (r.collector.monitors.map (·.number)).length := by
        rw [List.length_map]
        exact (List.getElem?_eq_some_iff.mp hj).1
      exact hne ((List.getElem?_inj hlt h.nodup).mp hnumbers)
    refine
      { nodup := by rw [hmonitors]; exact h.nodup.sublist (hsublist.map _)
        lt := by rw [hmonitors, hcreated]; exact fun m hm => h.lt m (hsublist.mem hm)
        removed_lt := ?_
        removed_notMem := ?_
        nodup_notices := ?_
        of_notices := ?_
        waiting := hwaiting }
    · rw [hremoved, hcreated]
      exact List.forall_mem_append.mpr
        ⟨h.removed_lt, List.forall_mem_singleton.mpr (h.lt monitor hmem)⟩
    · rw [hmonitors, hremoved]
      intro m hm hnumber
      rcases List.mem_append.mp hnumber with hold | hnew
      · exact h.removed_notMem m (hsublist.mem hm) hold
      · exact hgone m hm (List.mem_singleton.mp hnew)
    · rw [hnotices]
      refine h.nodup_notices.append (List.nodup_singleton _) (List.disjoint_singleton.mpr ?_)
      exact fun hold => h.removed_notMem monitor hmem (h.of_notices _ hold)
    · rw [hnotices, hremoved]
      exact List.forall_mem_append.mpr
        ⟨fun n hn => List.mem_append_left _ (h.of_notices n hn),
          fun n hn => List.mem_append_right _ hn⟩

/-- What the end of `Sample` does: the messages are handed back if they fit, and cleared. -/
theorem finish_notices (r : CollectorRun) :
    r.finish.collector.processesMsg = [] ∧
      r.finish.notices = noticeNumbers r.handed.flatten ++
        if r.collector.Fits then noticeNumbers r.collector.processesMsg else [] := by
  refine ⟨rfl, ?_⟩
  have hnone : noticeNumbers [] = [] := rfl
  by_cases hfits : r.collector.Fits
  · simp [notices, finish, ProcessCollector.serialize, hfits, noticeNumbers_append, hnone]
  · simp [notices, finish, ProcessCollector.serialize, hfits, hnone]

/-- **One step** keeps the numbers in order. -/
theorem Noticed.step (h : Noticed r) (hstep : Step C r e r') : Noticed r' := by
  cases hstep with
  | birth => exact { h with }
  | death => exact { h with }
  | @snapshot pids inSample _ hbegins =>
    refine { h with waiting := fun _ => h.waiting fun i hi => ?_ }
    rw [hi] at hbegins
    cases hbegins
  | defined _ hphase =>
    exact { h with waiting := fun _ => h.waiting fun i hi => by rw [hphase] at hi; cases hi }
  | sample _ hphase =>
    exact { h with waiting := fun _ => h.waiting fun i hi => by rw [hphase] at hi; cases hi }
  | add hphase => exact h.add hphase
  | added hphase =>
    exact { h with waiting := fun _ => h.waiting fun i hi => by rw [hphase] at hi; cases hi }
  | update _ hmonitor => exact h.update _ _ hmonitor
  | finish =>
    have hsublist : r.finish.notices.Sublist r.notices := by
      rw [(finish_notices r).2, notices]
      refine (List.Sublist.refl _).append ?_
      split
      · exact .refl _
      · exact List.nil_sublist _
    exact
      { h with
        nodup_notices := h.nodup_notices.sublist hsublist
        of_notices := fun n hn => h.of_notices n (hsublist.mem hn)
        waiting := fun _ => rfl }

theorem Noticed.of_reachable (h : (system C).Reachable r) : Noticed r := by
  refine h.invariant ?_ fun _ _ _ _ hr hstep => hr.step hstep
  rintro _ ⟨host, -, rfl⟩
  exact .start host

/-! ## Ticks whose messages fit -/

/-- Every monitor taken out of `_monitors` has a notice. -/
def Told (r : CollectorRun) : Prop := ∀ n ∈ r.removed, n ∈ r.notices

/-- **One step keeps the notices**, if those of a tick fit into the buffer. -/
theorem Told.step (h : Told r) (hstep : Step C r e r') (hok : NoticeFits r e) : Told r' := by
  cases hstep with
  | birth => exact h
  | death => exact h
  | snapshot => exact h
  | defined => exact h
  | sample => exact h
  | @add pid pids inSample readable =>
    obtain ⟨_, _, _, heq, -⟩ := add_cases C r pid pids inSample readable
    rw [heq]
    exact h
  | added => exact h
  | @update i monitor readable values _ hmonitor =>
    obtain ⟨-, ⟨-, hremoved, hnotices⟩ | ⟨-, hremoved, hnotices⟩⟩ :=
      update_notices r readable values hmonitor
    · rw [Told, hremoved, hnotices]
      exact h
    · rw [Told, hremoved, hnotices]
      exact List.forall_mem_append.mpr
        ⟨fun n hn => List.mem_append_left _ (h n hn), fun n hn => List.mem_append_right _ hn⟩
  | finish =>
    intro n hn
    have hnotice := h n hn
    rw [(finish_notices r).2]
    rw [notices] at hnotice
    rcases List.mem_append.mp hnotice with hhanded | hwaiting
    · exact List.mem_append_left _ hhanded
    · obtain ⟨msg, hmsg, hterminated⟩ := mem_noticeNumbers.mp hwaiting
      rw [if_pos (hok ⟨_, hmsg, hterminated⟩)]
      exact List.mem_append_right _ hwaiting

/-- **When no notice is lost**: in every run in which the messages of each tick in which a
monitor is taken out fit into the buffer, all notices were handed back when `Sample` is
over. -/
theorem noticesHanded_of_noticeFits (h : ((system C).guarded NoticeFits).Reachable r)
    (hphase : ∀ i, r.phase ≠ .sampling i) : r.NoticesHanded := by
  have htold : Told r := by
    refine h.invariant ?_ fun _ _ _ _ hr hstep => hr.step hstep.1 hstep.2
    rintro _ ⟨host, -, rfl⟩
    exact fun _ hn => absurd hn List.not_mem_nil
  refine noticesHanded_iff.mpr fun n hn => ?_
  have hnotice := htold n hn
  rw [notices, (Noticed.of_reachable h.of_guarded).waiting hphase] at hnotice
  rcases List.mem_append.mp hnotice with hhanded | hnone
  · exact hhanded
  · exact absurd hnone List.not_mem_nil

/-! ## A tick whose messages do not fit -/

/-- A monitor was taken out, and there is no notice of it. -/
structure Lost (n : ℕ) (r : CollectorRun) : Prop where
  /-- it was taken out -/
  removed : n ∈ r.removed
  /-- no other monitor gets its number -/
  lt : n < r.collector.created
  /-- it is not in `_monitors` -/
  monitors : ∀ m ∈ r.collector.monitors, m.number ≠ n
  /-- its notice is nowhere -/
  notices : n ∉ r.notices

/-- What is lost was not handed back. -/
theorem Lost.not_noticesHanded (h : Lost n r) : ¬r.NoticesHanded := fun hhanded =>
  h.notices (List.mem_append_left _ (noticesHanded_iff.mp hhanded n h.removed))

/-- **What is lost stays lost.** -/
theorem Lost.step (h : Lost n r) (hstep : Step C r e r') : Lost n r' := by
  cases hstep with
  | birth => exact { h with }
  | death => exact { h with }
  | snapshot => exact { h with }
  | defined => exact { h with }
  | sample => exact { h with }
  | @add pid pids inSample readable =>
    obtain ⟨_, _, _, heq, hcases⟩ := add_cases C r pid pids inSample readable
    rw [heq]
    rcases hcases with ⟨birth, -, rfl, rfl, -⟩ | ⟨rfl, rfl, -, -⟩
    · exact
        { h with
          lt := h.lt.trans (Nat.lt_succ_self _)
          monitors := List.forall_mem_append.mpr
            ⟨h.monitors, List.forall_mem_singleton.mpr h.lt.ne'⟩ }
    · exact { h with }
  | added => exact { h with }
  | @update i monitor readable values _ hmonitor =>
    obtain ⟨hcreated, ⟨hmonitors, hremoved, hnotices⟩ | ⟨hmonitors, hremoved, hnotices⟩⟩ :=
      update_notices r readable values hmonitor
    · exact
        { removed := by rw [hremoved]; exact h.removed
          lt := by rw [hcreated]; exact h.lt
          monitors := by rw [hmonitors]; exact h.monitors
          notices := by rw [hnotices]; exact h.notices }
    · have hne : n ≠ monitor.number := (h.monitors monitor (List.mem_of_getElem? hmonitor)).symm
      exact
        { removed := by rw [hremoved]; exact List.mem_append_left _ h.removed
          lt := by rw [hcreated]; exact h.lt
          monitors := by
            rw [hmonitors]
            exact fun m hm => h.monitors m (List.mem_of_mem_eraseIdx hm)
          notices := by rw [hnotices]; simp [h.notices, hne] }
  | finish =>
    refine { h with notices := fun hn => h.notices ?_ }
    rw [(finish_notices r).2] at hn
    rcases List.mem_append.mp hn with hhanded | hwaiting
    · exact List.mem_append_left _ hhanded
    · split at hwaiting
      · exact List.mem_append_right _ hwaiting
      · exact absurd hwaiting List.not_mem_nil

/-- **When a notice is lost**: if the messages of a tick in which a monitor was taken out
do not fit, then no later state has all notices handed back. -/
theorem lost_of_not_noticeFits (hr : (system C).Reachable r) (hok : ¬NoticeFits r .finish)
    {es : List CollectorEvent} (hrun : (system C).Run r.finish es r') : ¬r'.NoticesHanded := by
  rw [NoticeFits, Classical.not_imp] at hok
  obtain ⟨⟨⟨n, msg⟩, hmsg, hterminated⟩, hfits⟩ := hok
  have hwaiting : n ∈ noticeNumbers r.collector.processesMsg :=
    mem_noticeNumbers.mpr ⟨msg, hmsg, hterminated⟩
  have hnoticed := Noticed.of_reachable hr
  have hremoved : n ∈ r.removed := hnoticed.of_notices n (List.mem_append_right _ hwaiting)
  have hlost : Lost n r.finish :=
    { removed := hremoved
      lt := hnoticed.removed_lt n hremoved
      monitors := fun m hm heq => hnoticed.removed_notMem m hm (heq ▸ hremoved)
      notices := by
        rw [(finish_notices r).2, if_neg hfits, List.append_nil]
        intro hhanded
        exact List.disjoint_of_nodup_append hnoticed.nodup_notices hhanded hwaiting }
  have hlater : Lost n r' := hrun.preserves (fun _ _ _ h hstep => h.step hstep) hlost
  exact hlater.not_noticesHanded

/-- The only process dies in a tick, and its notice is handed back. -/
theorem noticesHanded_of_one_death :
    ∃ r, ((system (.allProcesses 1)).guarded NoticeFits).Reachable r ∧ r.removed = [0] ∧
      r.NoticesHanded := by
  have hinit : ((system (.allProcesses 1)).guarded NoticeFits).Reachable initialised :=
    reachable_initialised _ trivial (fun _ => trivial) fun _ => trivial
  have hlisted := hinit.next ⟨snapshot_step _ _ (some [7]) true rfl rfl lists_soloHost, trivial⟩
  have hsampling := hlisted.next ⟨added_step _ _ true rfl, trivial⟩
  have hdead := hsampling.next ⟨(.death : Step _ _ (.death 7) _), trivial⟩
  have hsampled := hdead.next ⟨update_step _ _ true noValues rfl rfl, trivial⟩
  have hidle := hsampled.next ⟨finish_step _ _ rfl (by decide), fun _ => by decide⟩
  exact ⟨_, hidle, by decide, noticesHanded_of_noticeFits hidle fun _ hphase => nomatch hphase⟩

/-! ## A tick with many processes -/

/-- Adding a process that runs. -/
theorem add_of_runs {pid : ℤ} {birth : ℕ} (hpid : 0 < pid) (hruns : r.host.Runs ⟨pid, birth⟩)
    (pids : List ℤ) (inSample : Bool) :
    r.add C pid pids inSample true =
      { r with
        collector :=
          { r.collector with
            monitors := r.collector.monitors ++ [⟨⟨pid, birth⟩, r.collector.created⟩]
            created := r.collector.created + 1 }
        phase := .adding pids inSample
        dealt := Function.update r.dealt pid r.host.births } := by
  have hrunning : r.host.running pid = some birth := hruns
  simp [add, openPid_of_pos C hpid, hrunning, ProcessCollector.addProcess]

/-- **Adding processes that run**: each gets a monitor. -/
theorem reachable_added {pids : List ℤ} {inSample : Bool} (hr : (system C).Reachable r)
    (hphase : r.phase = .adding pids inSample)
    (hpids : ∀ pid ∈ pids, 0 < pid ∧ ∃ birth, r.host.Runs ⟨pid, birth⟩) :
    ∃ monitors created dealt,
      (system C).Reachable
        { r with
          collector := { r.collector with monitors, created }
          phase := .adding [] inSample
          dealt } ∧
      monitors.map (·.process.pid) = r.collector.monitors.map (·.process.pid) ++ pids ∧
      ∀ m ∈ monitors, m ∈ r.collector.monitors ∨ r.host.Runs m.process := by
  induction pids generalizing r with
  | nil =>
    refine ⟨r.collector.monitors, r.collector.created, r.dealt, ?_, by simp, fun m hm => .inl hm⟩
    rw [← hphase]
    exact hr
  | cons pid pids ih =>
    obtain ⟨⟨hpid, birth, hruns⟩, hrest⟩ := List.forall_mem_cons.mp hpids
    have hadded := hr.next (add_step C r pid true hphase)
    rw [add_of_runs hpid hruns] at hadded
    obtain ⟨monitors, created, dealt, hreach, hmap, hmonitors⟩ := ih hadded rfl hrest
    refine ⟨monitors, created, dealt, hreach, by rw [hmap]; simp, fun m hm => ?_⟩
    rcases hmonitors m hm with hold | hruns'
    · rcases List.mem_append.mp hold with hold | hnew
      · exact .inl hold
      · obtain rfl := List.mem_singleton.mp hnew
        exact .inr hruns
    · exact .inr hruns'

/-- Sampling a monitor whose process runs. -/
theorem update_of_runs {monitor : LinuxProcessMonitorLight} {i : ℕ}
    (hmonitor : r.collector.monitors[i]? = some monitor) (hruns : r.host.Runs monitor.process)
    (values : ProcessMessage) :
    r.update i monitor true values =
      { r with
        collector :=
          { r.collector with
            processesMsg := r.collector.processesMsg ++
              [(monitor.number, { values with isTerminated := false })] }
        phase := .sampling (i + 1) } := by
  simp [update, ProcessCollector.sampleMonitor, hmonitor, hruns]

/-- Sampling a monitor whose process is dead. -/
theorem update_of_dead {monitor : LinuxProcessMonitorLight} {i : ℕ}
    (hmonitor : r.collector.monitors[i]? = some monitor) (hdead : ¬r.host.Runs monitor.process)
    (values : ProcessMessage) :
    r.update i monitor true values =
      { r with
        collector :=
          { r.collector with
            monitors := r.collector.monitors.eraseIdx i
            processesMsg := r.collector.processesMsg ++
              [(monitor.number, { values with isTerminated := true })] }
        phase := .sampling (i + 1)
        removed := r.removed ++ [monitor.number] } := by
  simp [update, ProcessCollector.sampleMonitor, hmonitor, hdead]

/-- **Sampling processes that run**: each gets a message. -/
theorem reachable_sampled (values : ProcessMessage) {i k : ℕ} (hr : (system C).Reachable r)
    (hphase : r.phase = .sampling i) (hk : i + k = r.collector.monitors.length)
    (hruns : ∀ m ∈ r.collector.monitors.drop i, r.host.Runs m.process) :
    ∃ msgs : List (ℕ × ProcessMessage),
      (system C).Reachable
        { r with
          collector := { r.collector with processesMsg := r.collector.processesMsg ++ msgs }
          phase := .sampling (i + k) } ∧
      msgs.length = k ∧ ∀ m ∈ msgs, m.2.statistics = values.statistics := by
  induction k generalizing r i with
  | zero =>
    refine ⟨[], ?_, rfl, fun _ hm => absurd hm List.not_mem_nil⟩
    rw [List.append_nil, Nat.add_zero, ← hphase]
    exact hr
  | succ k ih =>
    have hlt : i < r.collector.monitors.length := by omega
    rw [List.drop_eq_getElem_cons hlt] at hruns
    obtain ⟨hfirst, hrest⟩ := List.forall_mem_cons.mp hruns
    have hmonitor := List.getElem?_eq_getElem hlt
    have hsampled := hr.next (update_step C r true values hphase hmonitor)
    rw [update_of_runs hmonitor hfirst] at hsampled
    have hk' : i + 1 + k = r.collector.monitors.length := by omega
    obtain ⟨msgs, hreach, hlength, hvalues⟩ := ih hsampled rfl hk' hrest
    refine ⟨(r.collector.monitors[i].number, { values with isTerminated := false }) :: msgs, ?_,
      congrArg (· + 1) hlength, List.forall_mem_cons.mpr ⟨rfl, hvalues⟩⟩
    rw [List.append_cons, Nat.add_comm k 1, ← Nat.add_assoc]
    exact hreach

/-- Processes with the pids up to `n`. -/
def crowd (n : ℕ) : Host where
  running pid := if 0 < pid ∧ pid ≤ n then some (pid.toNat - 1) else none
  births := n

theorem runs_crowd {n : ℕ} {p : Process} :
    (crowd n).Runs p ↔ (0 < p.pid ∧ p.pid ≤ n) ∧ p.pid.toNat - 1 = p.birth := by
  simp [Host.Runs, crowd]

theorem crowd_wellFormed (n : ℕ) : (crowd n).WellFormed := by
  refine ⟨fun p hp => (runs_crowd.mp hp).1.1, fun p hp => ?_⟩
  obtain ⟨⟨hpos, hle⟩, hbirth⟩ := runs_crowd.mp hp
  have hbirths : (crowd n).births = n := rfl
  omega

/-- The pids up to `n`. -/
def crowdPids (n : ℕ) : List ℤ := (List.range n).map fun i : ℕ => (i : ℤ) + 1

theorem mem_crowdPids {n : ℕ} {pid : ℤ} : pid ∈ crowdPids n ↔ 0 < pid ∧ pid ≤ n := by
  rw [crowdPids, List.mem_map]
  refine ⟨?_, ?_⟩
  · rintro ⟨i, hi, rfl⟩
    have hlt := List.mem_range.mp hi
    omega
  · rintro ⟨hpos, hle⟩
    exact ⟨pid.toNat - 1, List.mem_range.mpr (by omega), by omega⟩

theorem lists_crowd (n : ℕ) : (crowd n).Lists (some (crowdPids n)) := by
  intro pids hpids
  obtain rfl := Option.some.inj hpids
  refine ⟨List.nodup_range.map fun i j hij => by omega, fun pid => ?_⟩
  rw [mem_crowdPids, Option.isSome_iff_exists]
  simp [crowd]

/-- The pids that are new in the first snapshot are all pids. -/
theorem crowd_new (n : ℕ) :
    ((PidMonitor.empty.update (some (crowdPids n))).getDifference).Perm (crowdPids n) := by
  have hsorted := PidMonitor.sorted_empty.update (lists_crowd n).nodup
  refine (List.perm_ext_iff_of_nodup (PidMonitor.nodup_getDifference hsorted)
    (lists_crowd n).nodup).mpr fun pid => ?_
  rw [PidMonitor.mem_getDifference hsorted, PidMonitor.mem_update]
  exact and_iff_left List.not_mem_nil

/-- No pids are new in the second. -/
theorem crowd_nothing_new (n : ℕ) :
    ((PidMonitor.empty.update (some (crowdPids n))).update (some (crowdPids n))).getDifference =
      [] := by
  have hsorted :=
    (PidMonitor.sorted_empty.update (lists_crowd n).nodup).update (lists_crowd n).nodup
  refine List.eq_nil_iff_forall_not_mem.mpr fun pid hmem => ?_
  rw [PidMonitor.mem_getDifference hsorted, PidMonitor.mem_update] at hmem
  have hold : pid ∈ (PidMonitor.empty.update (some (crowdPids n))).newPids :=
    PidMonitor.mem_update.mpr hmem.1
  exact hmem.2 hold

/-- A message with 53 bytes of statistics. -/
def fullValues : ProcessMessage := { noValues with statistics := List.replicate 53 0 }

/-- After `OnInit` finds many processes, one dies in the next tick: what is left when the
others were sampled. -/
theorem reachable_crowd (n : ℕ) (hn : 2 ≤ n) :
    ∃ r pid, (system (.allProcesses 1)).Reachable r ∧ r.host = (crowd n).death pid ∧
      r.phase = .sampling r.collector.monitors.length ∧
      (∃ m ∈ r.collector.processesMsg, m.2.isTerminated) ∧
      r.collector.processesMsg.length = n - 1 ∧
      ∀ m ∈ r.collector.processesMsg, m.2.statistics = fullValues.statistics := by
  have hstart : (system (.allProcesses 1)).Reachable (start (crowd n)) :=
    .start ⟨crowd n, crowd_wellFormed _, rfl⟩
  have hlisted := hstart.next (snapshot_step _ _ _ false rfl rfl (lists_crowd n))
  have hnew := crowd_new n
  obtain ⟨monitors, created, dealt, hadded, hpids, hmonitors⟩ :=
    reachable_added hlisted rfl fun pid hpid => by
      have hmem := mem_crowdPids.mp (hnew.mem_iff.mp hpid)
      exact ⟨hmem.1, pid.toNat - 1, runs_crowd.mpr ⟨hmem, rfl⟩⟩
  have hidle := hadded.next (added_step _ _ false rfl)
  have htick := hidle.next (snapshot_step _ _ _ true rfl rfl (lists_crowd n))
  have hsampling := htick.next
    (added_step _ _ true (congrArg (Phase.adding · true) (crowd_nothing_new n)))
  have hall : monitors.map (·.process.pid) =
      (PidMonitor.empty.update (some (crowdPids n))).getDifference := hpids
  have hlength : monitors.length = n := by
    rw [← List.length_map (f := (·.process.pid)), hall, hnew.length_eq, crowdPids,
      List.length_map, List.length_range]
  have hdistinct : (monitors.map (·.process.pid)).Nodup := by
    rw [hall]
    exact hnew.nodup_iff.mpr (lists_crowd n).nodup
  obtain _ | ⟨first, rest⟩ := monitors
  · rw [List.length_nil] at hlength
    omega
  rw [List.map_cons, List.nodup_cons] at hdistinct
  rw [List.length_cons] at hlength
  have hdead := hsampling.next (.death : Step _ _ (.death first.process.pid) _)
  have hremoved := hdead.next (update_step _ _ true fullValues rfl rfl)
  rw [update_of_dead rfl fun hruns => (Host.runs_death.mp hruns).2 rfl] at hremoved
  have hothers : ∀ m ∈ rest, ((crowd n).death first.process.pid).Runs m.process := by
    intro m hm
    refine Host.runs_death.mpr ⟨?_, fun heq => ?_⟩
    · exact (hmonitors m (List.mem_cons_of_mem _ hm)).resolve_left List.not_mem_nil
    · exact hdistinct.1 (heq ▸ List.mem_map_of_mem hm)
  have hcount : 1 + (n - 2) = rest.length := by omega
  obtain ⟨msgs, hsampled, hmsgs, hvalues⟩ := reachable_sampled fullValues hremoved rfl hcount
    fun m hm => hothers m (List.mem_of_mem_drop hm)
  refine ⟨_, first.process.pid, hsampled, rfl, congrArg Phase.sampling hcount,
    ⟨_, List.mem_cons_self .., rfl⟩, ?_, List.forall_mem_cons.mpr ⟨rfl, hvalues⟩⟩
  change msgs.length + 1 = n - 1
  omega

/-- One of 20000 processes dies, with 53 bytes of statistics for each: its notice is never
handed back. -/
theorem oversized_notice_lost :
    ∃ r, (system (.allProcesses 1)).Reachable r ∧ r.phase = .idle ∧
      (∃ pid, r.host = (crowd 20000).death pid) ∧
      ∀ es r', (system (.allProcesses 1)).Run r es r' → ¬r'.NoticesHanded := by
  obtain ⟨r, pid, hr, hhost, hphase, hnotice, hlength, hvalues⟩ :=
    reachable_crowd 20000 (by decide)
  have hfits : ¬r.collector.Fits := by
    have hlong : ∀ msg ∈ r.collector.processesMsg.map (·.2), 53 ≤ msg.statistics.length := by
      intro msg hmsg
      obtain ⟨m, hm, rfl⟩ := List.mem_map.mp hmsg
      rw [hvalues m hm, fullValues, List.length_replicate]
    have hsize := le_batchByteSize hlong
    rw [List.length_map, hlength] at hsize
    rw [ProcessCollector.Fits, messageBufSize]
    omega
  have hok : ¬NoticeFits r .finish := fun hok => hfits (hok hnotice)
  exact ⟨_, hr.next (finish_step _ _ hphase le_rfl), rfl, ⟨pid, hhost⟩,
    fun es r' hrun => lost_of_not_noticeFits hr hok hrun⟩

end CollectorRun

end WallMon
