import WallMon.ProcessCollector

/-!
# Which processes have a monitor

Each process that runs should have one monitor. The collector learns of processes only by
pids that the previous snapshot did not list. A pid that passed on to another process
meanwhile is no such pid, and its new process is not found (`covered_of_noneLate`); after
a snapshot that failed every pid is one, and all processes are found again
(`monitors_distinct`).
-/

namespace WallMon

namespace CollectorRun

variable {ownPid : ℤ} {r r' : CollectorRun} {e : CollectorEvent}

/-! ## The snapshots -/

/-- The snapshots are in order, and with them the pids still to add. -/
structure Listed (r : CollectorRun) : Prop where
  /-- the host -/
  host : r.host.WellFormed
  /-- both snapshots are sorted -/
  sorted : r.collector.pidMonitor.Sorted
  /-- no pid is added twice -/
  nodup : r.phase.pending.Nodup
  /-- pids that are added are listed -/
  pending : ∀ pid ∈ r.phase.pending, pid ∈ r.collector.pidMonitor.newPids
  /-- pids that are listed are positive -/
  pos : ∀ pid ∈ r.collector.pidMonitor.newPids, 0 < pid

/-- Opening the files of a positive pid opens those of that pid. -/
theorem openPid_of_pos (C : CollectorConfig) {pid : ℤ} (h : 0 < pid) : openPid C pid = pid := by
  rw [openPid, if_neg (by omega)]

/-- Where a call begins, nothing is left to add. -/
theorem pending_of_begins {phase : Phase} {inSample : Bool} (h : phase.begins = some inSample) :
    phase.pending = [] := by
  cases phase with
  | adding => cases h
  | created => rfl
  | sampling => rfl
  | idle => rfl

theorem Listed.start {host : Host} (h : host.WellFormed) : Listed (start host) where
  host := h
  sorted := PidMonitor.sorted_empty
  nodup := .nil
  pending := fun _ hmem => absurd hmem List.not_mem_nil
  pos := fun _ hmem => absurd hmem List.not_mem_nil

/-- A snapshot. -/
theorem Listed.snapshot (h : Listed r) {pids : Option (List ℤ)} (inSample : Bool)
    (hlists : r.host.Lists pids) : Listed (r.findAllNewProcesses pids inSample) := by
  have hsorted := h.sorted.update hlists.nodup
  refine
    { host := h.host
      sorted := hsorted
      nodup := PidMonitor.nodup_getDifference hsorted
      pending := fun pid hpid => ((PidMonitor.mem_getDifference hsorted).mp hpid).1
      pos := ?_ }
  intro pid hpid
  cases pids with
  | none => cases hpid
  | some pids =>
    obtain ⟨birth, hruns⟩ := hlists.mem_iff.mp (PidMonitor.mem_update.mp hpid)
    exact h.host.pos _ hruns

/-- **One step keeps the snapshots in order.** -/
theorem Listed.step (h : Listed r) (hstep : Step (.allProcesses ownPid) r e r') : Listed r' := by
  have hhost := hstep.wellFormed h.host
  cases hstep with
  | birth => exact { h with host := hhost }
  | death => exact { h with host := hhost }
  | snapshot _ _ hlists => exact h.snapshot _ hlists
  | defined hnames => exact absurd rfl hnames
  | sample hnames => exact absurd rfl hnames
  | @add pid pids inSample readable hphase =>
    obtain ⟨_, _, _, heq, -⟩ := add_cases (.allProcesses ownPid) r pid pids inSample readable
    have hnodup := h.nodup
    have hpending := h.pending
    rw [hphase] at hnodup hpending
    rw [heq]
    exact
      { host := h.host
        sorted := h.sorted
        nodup := hnodup.of_cons
        pending := fun pid hpid => hpending pid (List.mem_cons_of_mem _ hpid)
        pos := h.pos }
  | @added inSample =>
    cases inSample with
    | true => exact { h with nodup := .nil, pending := fun _ hmem => absurd hmem List.not_mem_nil }
    | false => exact { h with nodup := .nil, pending := fun _ hmem => absurd hmem List.not_mem_nil }
  | @update i monitor readable values _ hmonitor =>
    obtain ⟨_, hcollector, -, -, -⟩ := update_cases r readable values hmonitor
    have hpids : (r.update i monitor readable values).collector.pidMonitor =
        r.collector.pidMonitor := by rw [hcollector]
    exact
      { host := h.host
        sorted := hpids ▸ h.sorted
        nodup := .nil
        pending := fun _ hmem => absurd hmem List.not_mem_nil
        pos := hpids ▸ h.pos }
  | finish =>
    exact
      { host := h.host
        sorted := h.sorted
        nodup := .nil
        pending := fun _ hmem => absurd hmem List.not_mem_nil
        pos := h.pos }

/-! ## Every process is monitored -/

/-- A process was running throughout the tick, and its files could be opened and read. -/
def Steady (r : CollectorRun) (p : Process) : Prop :=
  r.host.Runs p ∧ p.birth < r.snapped ∧ p ∉ r.refused

/-- The process has a monitor. -/
def Monitored (r : CollectorRun) (p : Process) : Prop :=
  ∃ m ∈ r.collector.monitors, m.process = p

/-- Snapshots succeed, and find no process that got a pid of the previous snapshot after
the collector had dealt with that pid. -/
def NoneLate (r : CollectorRun) : CollectorEvent → Prop
  | .snapshot pids => pids ≠ none ∧
      ∀ p, r.host.Runs p → p.pid ∈ r.collector.pidMonitor.newPids → p.birth < r.dealt p.pid
  | _ => True

/-- What is known of the processes that run. -/
structure Coverage (r : CollectorRun) : Prop extends Listed r where
  /-- a snapshot deals with all pids -/
  snapped_le : ∀ pid, r.snapped ≤ r.dealt pid
  /-- births are counted -/
  dealt_le : ∀ pid, r.dealt pid ≤ r.host.births
  /-- processes that were there at the snapshot are listed -/
  listed : ∀ p, r.host.Runs p → p.birth < r.snapped → p.pid ∈ r.collector.pidMonitor.newPids
  /-- a listed process has a monitor, or gets one, or came too late, or was refused -/
  covered : ∀ p, r.host.Runs p → p.pid ∈ r.collector.pidMonitor.newPids → p ∉ r.refused →
    r.Monitored p ∨ p.pid ∈ r.phase.pending ∨ r.dealt p.pid ≤ p.birth

theorem Coverage.start {host : Host} (h : host.WellFormed) : Coverage (start host) where
  toListed := .start h
  snapped_le := fun _ => le_rfl
  dealt_le := fun _ => Nat.zero_le _
  listed := fun _ _ hlt => absurd hlt (Nat.not_lt_zero _)
  covered := fun _ _ hmem => absurd hmem List.not_mem_nil

/-- If no pid is to be added, a listed process has a monitor or came too late. -/
theorem Coverage.covered_of_pending (h : Coverage r) (hpending : r.phase.pending = [])
    {p : Process} (hruns : r.host.Runs p) (hmem : p.pid ∈ r.collector.pidMonitor.newPids)
    (hrefused : p ∉ r.refused) : r.Monitored p ∨ r.dealt p.pid ≤ p.birth := by
  rcases h.covered p hruns hmem hrefused with hmonitored | hlisted | hle
  · exact .inl hmonitored
  · rw [hpending] at hlisted
    cases hlisted
  · exact .inr hle

/-- A process is born: it comes too late for the last snapshot. -/
theorem Coverage.birth (h : Coverage r) {pid : ℤ}
    (hlisted : Listed { r with host := r.host.birth pid }) :
    Coverage { r with host := r.host.birth pid } where
  toListed := hlisted
  snapped_le := h.snapped_le
  dealt_le := fun pid => (h.dealt_le pid).trans (Nat.le_succ _)
  listed := by
    intro p hruns hlt
    rcases Host.runs_birth.mp hruns with rfl | ⟨hold, -⟩
    · have hle := (h.snapped_le pid).trans (h.dealt_le pid)
      exact absurd (hlt.trans_le hle) (lt_irrefl _)
    · exact h.listed p hold hlt
  covered := by
    intro p hruns hmem hrefused
    rcases Host.runs_birth.mp hruns with rfl | ⟨hold, -⟩
    · exact .inr (.inr (h.dealt_le pid))
    · exact h.covered p hold hmem hrefused

/-- A snapshot: what it lists anew is to be added. -/
theorem Coverage.snapshot (h : Coverage r) {pids : List ℤ} {inSample : Bool}
    (hbegins : r.phase.begins = some inSample) (hlists : r.host.Lists (some pids))
    (hlate : ∀ p, r.host.Runs p → p.pid ∈ r.collector.pidMonitor.newPids →
      p.birth < r.dealt p.pid) :
    Coverage (r.findAllNewProcesses (some pids) inSample) where
  toListed := h.toListed.snapshot inSample hlists
  snapped_le := fun _ => le_rfl
  dealt_le := fun _ => le_rfl
  listed := fun p hruns _ => PidMonitor.mem_update.mpr (hlists.mem_iff.mpr ⟨p.birth, hruns⟩)
  covered := by
    intro p hruns hmem hrefused
    by_cases hold : p.pid ∈ r.collector.pidMonitor.newPids
    · have hdealt := h.covered_of_pending (pending_of_begins hbegins) hruns hold hrefused
      exact .inl (hdealt.resolve_right (not_le.mpr (hlate p hruns hold)))
    · have hsorted := (h.toListed.snapshot inSample hlists).sorted
      exact .inr (.inl ((PidMonitor.mem_getDifference hsorted).mpr ⟨hmem, hold⟩))

/-- A pid is dealt with: its process has a monitor or is refused. -/
theorem Coverage.add (h : Coverage r) {pid : ℤ} {pids : List ℤ} {inSample readable : Bool}
    (hphase : r.phase = .adding (pid :: pids) inSample)
    (hlisted : Listed (r.add (.allProcesses ownPid) pid pids inSample readable)) :
    Coverage (r.add (.allProcesses ownPid) pid pids inSample readable) := by
  obtain ⟨monitors, created, refused, heq, hcases⟩ :=
    add_cases (.allProcesses ownPid) r pid pids inSample readable
  have hpid : 0 < pid := h.pos pid (h.pending pid (by rw [hphase]; exact List.mem_cons_self ..))
  rw [openPid_of_pos _ hpid] at heq hcases
  rw [heq] at hlisted ⊢
  have hgrows : (∀ m ∈ r.collector.monitors, m ∈ monitors) ∧ ∀ p ∈ r.refused, p ∈ refused := by
    rcases hcases with ⟨birth, -, rfl, -, rfl⟩ | ⟨rfl, -, -, hrefused⟩
    · exact ⟨fun m hm => List.mem_append_left _ hm, fun _ => id⟩
    · exact ⟨fun _ => id, hrefused⟩
  refine
    { toListed := hlisted
      snapped_le := ?_
      dealt_le := ?_
      listed := h.listed
      covered := ?_ }
  · apply (Function.forall_update_iff r.dealt fun _ n => r.snapped ≤ n).mpr
    exact ⟨(h.snapped_le pid).trans (h.dealt_le pid), fun pid' _ => h.snapped_le pid'⟩
  · apply (Function.forall_update_iff r.dealt fun _ n => n ≤ r.host.births).mpr
    exact ⟨le_rfl, fun pid' _ => h.dealt_le pid'⟩
  · intro p hruns hmem hrefused
    by_cases heq' : p.pid = pid
    · -- its files were opened just now, if it runs
      obtain ⟨pid', birth⟩ := p
      obtain rfl : pid' = pid := heq'
      rcases hcases with ⟨birth', hruns', rfl, -, -⟩ | ⟨-, -, hnot, -⟩
      · obtain rfl : birth' = birth := Option.some.inj (hruns'.symm.trans hruns)
        exact .inl ⟨_, List.mem_append_right _ (List.mem_singleton_self _), rfl⟩
      · exact absurd (hnot birth hruns) hrefused
    · rcases h.covered p hruns hmem fun hp => hrefused (hgrows.2 p hp) with
        ⟨m, hm, hp⟩ | hpending | hle
      · exact .inl ⟨m, hgrows.1 m hm, hp⟩
      · rw [hphase] at hpending
        exact .inr (.inl ((List.mem_cons.mp hpending).resolve_left heq'))
      · refine .inr (.inr ?_)
        dsimp only
        rwa [Function.update_of_ne heq']

/-- A monitor is sampled: it stays, or its process does not run or is refused. -/
theorem Coverage.update (h : Coverage r) {i : ℕ} {monitor : LinuxProcessMonitorLight}
    {readable : Bool} {values : ProcessMessage} (hphase : r.phase = .sampling i)
    (hmonitor : r.collector.monitors[i]? = some monitor)
    (hlisted : Listed (r.update i monitor readable values)) :
    Coverage (r.update i monitor readable values) := by
  obtain ⟨update, hcollector, -, hrefused, hremoved⟩ := update_cases r readable values hmonitor
  refine
    { toListed := hlisted
      snapped_le := h.snapped_le
      dealt_le := h.dealt_le
      listed := by rw [hcollector]; exact h.listed
      covered := ?_ }
  intro p hruns hmem hnot
  rw [hcollector] at hmem
  have hpending : r.phase.pending = [] := by rw [hphase]; rfl
  rcases h.covered_of_pending hpending hruns hmem fun hp => hnot (hrefused p hp) with
    ⟨m, hm, rfl⟩ | hle
  · refine .inl ?_
    rw [Monitored, hcollector]
    cases update with
    | true => exact ⟨m, hm, rfl⟩
    | false =>
      obtain ⟨j, hj⟩ := List.mem_iff_getElem?.mp hm
      by_cases heq : j = i
      · subst heq
        obtain rfl : monitor = m := Option.some.inj (hmonitor.symm.trans hj)
        exact absurd (hremoved rfl hruns) hnot
      · exact ⟨m, List.mem_eraseIdx_iff_getElem?.mpr ⟨j, heq, hj⟩, rfl⟩
  · exact .inr (.inr hle)

/-- **One step keeps the coverage**, if no process comes too late for a snapshot. -/
theorem Coverage.step (h : Coverage r) (hstep : Step (.allProcesses ownPid) r e r')
    (hok : NoneLate r e) : Coverage r' := by
  have hlisted := h.toListed.step hstep
  cases hstep with
  | birth => exact h.birth hlisted
  | @death pid =>
    exact
      { toListed := hlisted
        snapped_le := h.snapped_le
        dealt_le := h.dealt_le
        listed := fun p hruns => h.listed p (Host.runs_death.mp hruns).1
        covered := fun p hruns => h.covered p (Host.runs_death.mp hruns).1 }
  | @snapshot pids _ _ hbegins hlists =>
    cases pids with
    | none => exact absurd rfl hok.1
    | some pids => exact h.snapshot hbegins hlists hok.2
  | defined hnames => exact absurd rfl hnames
  | sample hnames => exact absurd rfl hnames
  | add hphase => exact h.add hphase hlisted
  | @added inSample hphase =>
    have hpending : r.phase.pending = [] := by rw [hphase]; rfl
    exact { h with
      toListed := hlisted
      covered := fun p hruns hmem hrefused =>
        (h.covered_of_pending hpending hruns hmem hrefused).imp_right .inr }
  | update hphase hmonitor => exact h.update hphase hmonitor hlisted
  | finish hphase =>
    have hpending : r.phase.pending = [] := by rw [hphase]; rfl
    exact { h with
      toListed := hlisted
      covered := fun p hruns hmem hrefused =>
        (h.covered_of_pending hpending hruns hmem hrefused).imp_right .inr }

/-- **When every process is monitored**: in every run in which no snapshot fails or finds
a process that came too late for its pid, each process that ran throughout the tick and
whose files could be opened and read has a monitor after the loop of `Sample`. -/
theorem covered_of_noneLate
    (h : ((system (.allProcesses ownPid)).guarded NoneLate).Reachable r) {i : ℕ}
    (hphase : r.phase = .sampling i) {p : Process} (hp : r.Steady p) : r.Monitored p := by
  have hcoverage : Coverage r := by
    refine h.invariant ?_ fun _ _ _ _ hr hstep => hr.step hstep.1 hstep.2
    rintro _ ⟨host, hhost, rfl⟩
    exact .start hhost
  obtain ⟨hruns, hlt, hrefused⟩ := hp
  have hpending : r.phase.pending = [] := by rw [hphase]; rfl
  have hdealt :=
    hcoverage.covered_of_pending hpending hruns (hcoverage.listed p hruns hlt) hrefused
  exact hdealt.resolve_right (not_le.mpr (hlt.trans_le (hcoverage.snapped_le p.pid)))

/-- One process, born first on its host. -/
def soloHost (pid : ℤ) : Host where
  running := Function.update (fun _ => none) pid (some 0)
  births := 1

theorem runs_soloHost {pid : ℤ} {p : Process} : (soloHost pid).Runs p ↔ p = ⟨pid, 0⟩ := by
  obtain ⟨pid', birth⟩ := p
  by_cases heq : pid' = pid
  · subst heq
    simp [Host.Runs, soloHost, eq_comm]
  · simp [Host.Runs, soloHost, heq]

theorem soloHost_wellFormed {pid : ℤ} (hpid : 0 < pid) : (soloHost pid).WellFormed := by
  refine ⟨fun p hp => ?_, fun p hp => ?_⟩
  · rw [runs_soloHost.mp hp]
    exact hpid
  · rw [runs_soloHost.mp hp]
    exact Nat.one_pos

/-- The snapshot of a host on which only one pid is in use. -/
theorem lists_singleton {h : Host} {pid : ℤ} (hpid : ∃ birth, h.Runs ⟨pid, birth⟩)
    (honly : ∀ p, h.Runs p → p.pid = pid) : h.Lists (some [pid]) := by
  intro pids hpids
  obtain rfl := Option.some.inj hpids
  refine ⟨List.nodup_singleton pid, fun pid' => ?_⟩
  rw [List.mem_singleton, Option.isSome_iff_exists]
  refine ⟨?_, ?_⟩
  · rintro rfl
    exact hpid
  · rintro ⟨birth, hbirth⟩
    exact honly ⟨pid', birth⟩ hbirth

/-- The state after `OnInit` on a host with one process. -/
def initialised : CollectorRun where
  host := soloHost 7
  collector :=
    { pidMonitor := { newPids := [7], oldPids := [] }
      monitors := [⟨⟨7, 0⟩, 0⟩]
      processesMsg := []
      created := 1 }
  phase := .idle
  snapped := 1
  dealt := Function.update (fun _ => 1) 7 1
  refused := []
  removed := []
  handed := []

theorem lists_soloHost : (soloHost 7).Lists (some [7]) :=
  lists_singleton ⟨0, runs_soloHost.mpr rfl⟩ fun _ hp => congrArg Process.pid (runs_soloHost.mp hp)

/-- `OnInit` finds the process, whatever is asked of steps that nothing went before. -/
theorem reachable_initialised (ok : CollectorRun → CollectorEvent → Prop)
    (hsnapshot : ok (start (soloHost 7)) (.snapshot (some [7])))
    (hadd : ∀ r, ok r (.add true)) (hadded : ∀ r, ok r .added) :
    ((system (.allProcesses 1)).guarded ok).Reachable initialised := by
  have hstart : ((system (.allProcesses 1)).guarded ok).Reachable (start (soloHost 7)) :=
    .start ⟨soloHost 7, soloHost_wellFormed (by decide), rfl⟩
  have hlisted := hstart.next ⟨snapshot_step _ _ (some [7]) false rfl rfl lists_soloHost, hsnapshot⟩
  have hopened := hlisted.next ⟨add_step _ _ 7 true rfl, hadd _⟩
  exact hopened.next ⟨added_step _ _ false rfl, hadded _⟩

/-- A message without values. -/
def noValues : ProcessMessage where
  hostname := none
  processname := none
  pid := none
  isTerminated := false
  statistics := []

/-- A process that stays is monitored in the first tick. -/
theorem covered_of_noneLate_solo :
    ∃ r, ((system (.allProcesses 1)).guarded NoneLate).Reachable r ∧ r.phase = .sampling 0 ∧
      r.Monitored ⟨7, 0⟩ := by
  have hinit : ((system (.allProcesses 1)).guarded NoneLate).Reachable initialised :=
    reachable_initialised _ ⟨by simp, fun _ _ hmem => absurd hmem List.not_mem_nil⟩
      (fun _ => trivial) fun _ => trivial
  have hlate : NoneLate initialised (.snapshot (some [7])) := by
    refine ⟨by simp, fun p hp _ => ?_⟩
    rw [runs_soloHost.mp hp]
    decide
  have hlisted := hinit.next ⟨snapshot_step _ _ (some [7]) true rfl rfl lists_soloHost, hlate⟩
  have hsampling := hlisted.next ⟨added_step _ _ true rfl, trivial⟩
  refine ⟨_, hsampling, rfl, covered_of_noneLate hsampling rfl ⟨?_, ?_, ?_⟩⟩
  · exact runs_soloHost.mpr rfl
  · decide
  · exact List.not_mem_nil

/-- A process that dies between two ticks passes its pid on: the new process is not
monitored, though it runs throughout the second tick. -/
theorem reused_pid_not_covered :
    ∃ r, (system (.allProcesses 1)).Reachable r ∧ r.phase = .sampling 1 ∧
      r.collector.monitors = [] ∧ r.Steady ⟨7, 1⟩ ∧ ¬r.Monitored ⟨7, 1⟩ := by
  have hinit : (system (.allProcesses 1)).Reachable initialised :=
    (reachable_initialised (fun _ _ => True) trivial (fun _ => trivial)
      fun _ => trivial).of_guarded
  have hdead := hinit.next (.death : Step _ _ (.death 7) _)
  have hborn := hdead.next (.birth (by decide) rfl : Step _ _ (.birth 7) _)
  have hlists : ((initialised.host.death 7).birth 7).Lists (some [7]) := by
    refine lists_singleton ⟨1, rfl⟩ fun p hp => ?_
    rcases Host.runs_birth.mp hp with rfl | ⟨hold, hne⟩
    · rfl
    · rw [runs_soloHost.mp (Host.runs_death.mp hold).1]
  have hlisted := hborn.next (snapshot_step _ _ (some [7]) true rfl rfl hlists)
  have hsampling := hlisted.next (added_step _ _ true rfl)
  have hsampled := hsampling.next (update_step _ _ true noValues rfl rfl)
  refine ⟨_, hsampled, rfl, by decide, ⟨rfl, by decide, by decide⟩, ?_⟩
  rintro ⟨m, hm, -⟩
  cases hm

end CollectorRun

end WallMon
