import WallMon.Coverage

/-!
# No process has two monitors

The previous snapshot is all that the collector remembers of the processes it monitors
already. A snapshot that failed is remembered as an empty one, since its result is not
looked at; the next one makes every pid new. As long as a snapshot after an empty one
finds no monitored process running, each running process has one monitor
(`monitoredOnce_of_monitoredGone`).
-/

namespace WallMon

namespace CollectorRun

variable {ownPid : ℤ} {r r' : CollectorRun} {e : CollectorEvent}

/-- No two monitors have the files of one running process. -/
def MonitoredOnce (r : CollectorRun) : Prop :=
  r.collector.monitors.Pairwise fun m m' => m.process = m'.process → ¬r.host.Runs m.process

/-- When a snapshot succeeds after one that failed (or listed nothing), no process that is
monitored is running any more. -/
def MonitoredGone (r : CollectorRun) : CollectorEvent → Prop
  | .snapshot (some _) => r.collector.pidMonitor.newPids = [] →
      ∀ m ∈ r.collector.monitors, ¬r.host.Runs m.process
  | _ => True

/-- What is known of the monitors. -/
structure Single (r : CollectorRun) : Prop extends Listed r where
  /-- monitored processes were born -/
  births : ∀ m ∈ r.collector.monitors, m.process.birth < r.host.births
  /-- no running process has two monitors -/
  once : r.MonitoredOnce
  /-- unless nothing is listed, the pid of a monitored process that runs is listed, and
  not still to add -/
  settled : r.collector.pidMonitor.newPids = [] ∨
    ∀ m ∈ r.collector.monitors, r.host.Runs m.process →
      m.process.pid ∈ r.collector.pidMonitor.newPids ∧ m.process.pid ∉ r.phase.pending

theorem Single.start {host : Host} (h : host.WellFormed) : Single (start host) where
  toListed := .start h
  births := fun _ hmem => absurd hmem List.not_mem_nil
  once := .nil
  settled := .inl rfl

/-- If fewer processes run, or others, the monitored ones are in order. -/
theorem Single.withHost (h : Single r) {host : Host} (hlisted : Listed { r with host })
    (hbirths : r.host.births ≤ host.births)
    (hruns : ∀ m ∈ r.collector.monitors, host.Runs m.process → r.host.Runs m.process) :
    Single { r with host } where
  toListed := hlisted
  births := fun m hm => (h.births m hm).trans_le hbirths
  once := h.once.imp_of_mem fun hm _ honce heq hruns' => honce heq (hruns _ hm hruns')
  settled := h.settled.imp_right fun hsettled m hm hruns' => hsettled m hm (hruns m hm hruns')

/-- A snapshot: what is monitored and runs is not new. -/
theorem Single.snapshot (h : Single r) {pids : Option (List ℤ)} (inSample : Bool)
    (hlists : r.host.Lists pids) (hgone : MonitoredGone r (.snapshot pids)) :
    Single (r.findAllNewProcesses pids inSample) := by
  refine
    { toListed := h.toListed.snapshot inSample hlists
      births := h.births
      once := h.once
      settled := ?_ }
  cases pids with
  | none => exact .inl rfl
  | some pids =>
    refine .inr fun m hm hruns => ?_
    have hold : m.process.pid ∈ r.collector.pidMonitor.newPids := by
      rcases h.settled with hempty | hsettled
      · exact absurd hruns (hgone hempty m hm)
      · exact (hsettled m hm hruns).1
    have hsorted := (h.toListed.snapshot inSample hlists).sorted
    refine ⟨PidMonitor.mem_update.mpr (hlists.mem_iff.mpr ⟨m.process.birth, hruns⟩), ?_⟩
    exact fun hnew => ((PidMonitor.mem_getDifference hsorted).mp hnew).2 hold

/-- A process is added: it had no monitor. -/
theorem Single.add (h : Single r) {pid : ℤ} {pids : List ℤ} {inSample readable : Bool}
    (hphase : r.phase = .adding (pid :: pids) inSample)
    (hlisted : Listed (r.add (.allProcesses ownPid) pid pids inSample readable)) :
    Single (r.add (.allProcesses ownPid) pid pids inSample readable) := by
  obtain ⟨monitors, created, refused, heq, hcases⟩ :=
    add_cases (.allProcesses ownPid) r pid pids inSample readable
  have hnew : pid ∈ r.collector.pidMonitor.newPids :=
    h.pending pid (by rw [hphase]; exact List.mem_cons_self ..)
  have hnodup := h.nodup
  rw [hphase] at hnodup
  have hsettled : ∀ m ∈ r.collector.monitors, r.host.Runs m.process →
      m.process.pid ∈ r.collector.pidMonitor.newPids ∧ m.process.pid ∉ pid :: pids := by
    rcases h.settled with hempty | hsettled
    · rw [hempty] at hnew
      exact absurd hnew List.not_mem_nil
    · rw [hphase] at hsettled
      exact hsettled
  have hkept : ∀ m ∈ r.collector.monitors, r.host.Runs m.process →
      m.process.pid ∈ r.collector.pidMonitor.newPids ∧ m.process.pid ∉ pids :=
    fun m hm hruns => (hsettled m hm hruns).imp_right fun hnot hmem =>
      hnot (List.mem_cons_of_mem _ hmem)
  rw [openPid_of_pos _ (h.pos pid hnew)] at heq hcases
  rw [heq] at hlisted ⊢
  rcases hcases with ⟨birth, hruns, rfl, -, -⟩ | ⟨rfl, -, -, -⟩
  · refine
      { toListed := hlisted
        births := List.forall_mem_append.mpr
          ⟨h.births, List.forall_mem_singleton.mpr (h.toListed.host.lt _ hruns)⟩
        once := ?_
        settled := .inr (List.forall_mem_append.mpr
          ⟨hkept, List.forall_mem_singleton.mpr fun _ => ⟨hnew, hnodup.notMem⟩⟩) }
    refine List.pairwise_append.mpr ⟨h.once, List.pairwise_singleton _ _, ?_⟩
    rintro m hm _ hm' hsame hruns'
    obtain rfl := List.mem_singleton.mp hm'
    -- its pid would not be among those still to add
    have hpid : m.process.pid = pid := congrArg Process.pid hsame
    exact (hsettled m hm hruns').2 (hpid ▸ List.mem_cons_self ..)
  · exact
      { toListed := hlisted
        births := h.births
        once := h.once
        settled := .inr hkept }

/-- A monitor is sampled: at most it is taken out. -/
theorem Single.update (h : Single r) {i : ℕ} {monitor : LinuxProcessMonitorLight}
    {readable : Bool} {values : ProcessMessage}
    (hmonitor : r.collector.monitors[i]? = some monitor)
    (hlisted : Listed (r.update i monitor readable values)) :
    Single (r.update i monitor readable values) := by
  obtain ⟨update, hcollector, -, -, -⟩ := update_cases r readable values hmonitor
  have hsublist : (r.update i monitor readable values).collector.monitors.Sublist
      r.collector.monitors := by
    rw [hcollector]
    cases update with
    | true => exact .refl _
    | false => exact List.eraseIdx_sublist ..
  have hpids : (r.update i monitor readable values).collector.pidMonitor =
      r.collector.pidMonitor := by rw [hcollector]
  refine
    { toListed := hlisted
      births := fun m hm => h.births m (hsublist.mem hm)
      once := h.once.sublist hsublist
      settled := ?_ }
  rw [hpids]
  refine h.settled.imp_right fun hsettled m hm hruns => ?_
  exact ⟨(hsettled m (hsublist.mem hm) hruns).1, List.not_mem_nil⟩

/-- **One step keeps the monitors in order**, if no snapshot after an empty one finds a
monitored process. -/
theorem Single.step (h : Single r) (hstep : Step (.allProcesses ownPid) r e r')
    (hok : MonitoredGone r e) : Single r' := by
  have hlisted := h.toListed.step hstep
  cases hstep with
  | @birth pid =>
    refine h.withHost hlisted (Nat.le_succ _) fun m hm hruns => ?_
    rcases Host.runs_birth.mp hruns with heq | ⟨hold, -⟩
    · have hlt := h.births m hm
      rw [heq] at hlt
      exact absurd hlt (lt_irrefl _)
    · exact hold
  | death => exact h.withHost hlisted le_rfl fun m _ hruns => (Host.runs_death.mp hruns).1
  | snapshot _ _ hlists => exact h.snapshot _ hlists hok
  | defined hnames => exact absurd rfl hnames
  | sample hnames => exact absurd rfl hnames
  | add hphase => exact h.add hphase hlisted
  | @added inSample =>
    refine { h with toListed := hlisted, settled := ?_ }
    refine h.settled.imp_right fun hsettled m hm hruns => ⟨(hsettled m hm hruns).1, ?_⟩
    cases inSample with
    | true => exact List.not_mem_nil
    | false => exact List.not_mem_nil
  | update _ hmonitor => exact h.update hmonitor hlisted
  | finish =>
    refine { h with toListed := hlisted, settled := ?_ }
    exact h.settled.imp_right fun hsettled m hm hruns =>
      ⟨(hsettled m hm hruns).1, List.not_mem_nil⟩

/-- **When no process is monitored twice**: in every run in which no snapshot that follows
a failed one finds a monitored process still running. -/
theorem monitoredOnce_of_monitoredGone
    (h : ((system (.allProcesses ownPid)).guarded MonitoredGone).Reachable r) :
    r.MonitoredOnce := by
  have hsingle : Single r := by
    refine h.invariant ?_ fun _ _ _ _ hr hstep => hr.step hstep.1 hstep.2
    rintro _ ⟨host, hhost, rfl⟩
    exact .start hhost
  exact hsingle.once

/-- A snapshot fails after the only monitored process died. -/
theorem monitoredOnce_after_death :
    ∃ r, ((system (.allProcesses 1)).guarded MonitoredGone).Reachable r ∧
      r.collector.pidMonitor.newPids = [] ∧ r.MonitoredOnce := by
  have hinit : ((system (.allProcesses 1)).guarded MonitoredGone).Reachable initialised :=
    reachable_initialised _ (fun _ _ hmem => absurd hmem List.not_mem_nil) (fun _ => trivial)
      fun _ => trivial
  have hdead := hinit.next ⟨(.death : Step _ _ (.death 7) _), trivial⟩
  have hfailed := hdead.next ⟨snapshot_step _ _ none true rfl rfl (Host.lists_none _), trivial⟩
  exact ⟨_, hfailed, rfl, monitoredOnce_of_monitoredGone hfailed⟩

/-- A snapshot fails, and the next one succeeds: the process is monitored twice. -/
theorem failed_snapshot_monitored_twice :
    ∃ r, (system (.allProcesses 1)).Reachable r ∧ r.host.Runs ⟨7, 0⟩ ∧
      r.collector.monitors.map (·.process) = [⟨7, 0⟩, ⟨7, 0⟩] ∧ ¬r.MonitoredOnce := by
  have hinit : (system (.allProcesses 1)).Reachable initialised :=
    (reachable_initialised (fun _ _ => True) trivial (fun _ => trivial)
      fun _ => trivial).of_guarded
  have hfailed := hinit.next (snapshot_step _ _ none true rfl rfl (Host.lists_none _))
  have hsampling := hfailed.next (added_step _ _ true rfl)
  have hsampled := hsampling.next (update_step _ _ true noValues rfl rfl)
  have hidle := hsampled.next (finish_step _ _ rfl le_rfl)
  have hlisted := hidle.next (snapshot_step _ _ (some [7]) true rfl rfl lists_soloHost)
  have hadded := hlisted.next (add_step _ _ 7 true rfl)
  refine ⟨_, hadded, rfl, by decide, fun honce => ?_⟩
  obtain ⟨hfirst, -⟩ := List.pairwise_cons.mp honce
  exact hfirst _ (List.mem_cons_self ..) rfl rfl

end CollectorRun

end WallMon
