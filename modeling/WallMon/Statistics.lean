import Mathlib.Data.List.Chain
import Mathlib.Tactic.Linarith
import Mathlib.Tactic.Ring
import WallMon.MessageRouter

/-!
# The statistics of `_TimerCallback`

If its `Context` asks for statistics, a collector's messages are numbered, and tell when they
were made, how far that is from the schedule, and about once a second how many of them there
were since this was told last. The state for this is kept in the `CollectorTimerEvent` of the
timer.

The numbers are consecutive, so that a gap means a lost message (`sequence_numbers`). The
drifts add up: with the intervals asked for, they give the time from the first message to the
last (`drifts_telescope`). And the counts of `actualhz` never exceed what was sent, leave
nothing out as long as the frequency stays, and are then more than a second apart
(`actualHz_account`).

Times are exact rationals here, where the code has doubles.
-/

namespace WallMon

/-- `CollectorTimerEvent`, without the collector and its context. -/
structure CollectorTimerEvent where
  /-- `scheduleDurationSec` -/
  scheduleDurationSec : ℚ
  /-- `previousTsBeforeSampleSec` -/
  previousTsBeforeSampleSec : ℚ
  /-- `numSamples` -/
  numSamples : UInt32
  /-- `numSamplesLastSecond` -/
  numSamplesLastSecond : UInt32
  /-- `tsNumSamplesPerSecond` -/
  tsNumSamplesPerSecond : ℚ
  deriving DecidableEq

/-- The constructor, which reads `ev_time()`. -/
def CollectorTimerEvent.new (now : ℚ) : CollectorTimerEvent where
  scheduleDurationSec := -1
  previousTsBeforeSampleSec := -1
  numSamples := 0
  numSamplesLastSecond := 0
  tsNumSamplesPerSecond := now

/-- What a callback finds outside. -/
structure TimerTick where
  /-- `tsBeforeSampleSec`: `ev_now(loop)` -/
  tsBeforeSampleSec : ℚ
  /-- `tsAfterSampleSec`: `ev_time()` after `Sample` -/
  tsAfterSampleSec : ℚ
  /-- `ev_time()` once the message is queued -/
  tsAfterStreamSec : ℚ
  /-- `key` in the context -/
  key : String
  /-- what `Sample` leaves as `data` -/
  data : Option (List UInt8)
  /-- what it leaves as `sampleFrequencyMsec` in the context -/
  sampleFrequencyMsec : ℚ
  /-- what it leaves as `includeStatistics` in the context -/
  includeStatistics : Bool
  /-- `System::GetHostname()` -/
  hostname : String
  /-- `GetNumPendingItems()` of the streamer -/
  numPendingItems : UInt32
  /-- its `GetNumServerConnections()` -/
  numServerConnections : UInt32

/-- A collector's timer between two callbacks, with the messages it has composed. -/
structure Collecting where
  /-- `timer->data` -/
  event : CollectorTimerEvent
  /-- `sampleFrequencyMsec` in the context -/
  sampleFrequencyMsec : ℚ
  /-- history: the messages, with the callbacks that composed them -/
  messages : List (TimerTick × WallmonMessage)

namespace Collecting

/-- The frequency that a callback leaves. -/
def frequency (c : TimerTick) : ℚ := if c.sampleFrequencyMsec < 0 then 0 else c.sampleFrequencyMsec

/-- "Reset hz tracker" -/
def resetHz (event : CollectorTimerEvent) (c : TimerTick) : CollectorTimerEvent :=
  { event with numSamplesLastSecond := 0, tsNumSamplesPerSecond := c.tsAfterSampleSec }

/-- The branch of `_TimerCallback` for a changed frequency: what it does to the event. -/
def rescheduled (s : Collecting) (c : TimerTick) : CollectorTimerEvent :=
  if frequency c ≠ s.sampleFrequencyMsec ∧ c.includeStatistics then resetHz s.event c else s.event

/-- More than a second has passed since the count was told. -/
def HzDue (event : CollectorTimerEvent) (c : TimerTick) : Prop :=
  c.tsAfterSampleSec - event.tsNumSamplesPerSecond > 1

instance (event : CollectorTimerEvent) (c : TimerTick) : Decidable (HzDue event c) :=
  inferInstanceAs (Decidable (_ > _))

/-- The message with statistics. -/
def withStatistics (event : CollectorTimerEvent) (oldSampleFrequencyMsec : ℚ) (c : TimerTick)
    (msg : WallmonMessage) : WallmonMessage :=
  { msg with
    collectorSequenceNumber := some event.numSamples
    daemonTimestampMsec := some (c.tsBeforeSampleSec * 1000)
    hostname := some c.hostname
    sampleFrequencyMsec := some oldSampleFrequencyMsec
    sampleDurationMsec := some ((c.tsAfterSampleSec - c.tsBeforeSampleSec) * 1000)
    scheduleDriftMsec :=
      if event.previousTsBeforeSampleSec > 0 then
        some ((c.tsBeforeSampleSec - event.previousTsBeforeSampleSec) * 1000 -
          oldSampleFrequencyMsec)
      else msg.scheduleDriftMsec
    scheduleDurationMsec :=
      if event.scheduleDurationSec > 0 then some (event.scheduleDurationSec * 1000)
      else msg.scheduleDurationMsec
    actualHz :=
      if HzDue event c then some (event.numSamplesLastSecond + 1) else msg.actualHz
    daemonQueueSize := some c.numPendingItems
    daemonNumServerConnections :=
      if c.numServerConnections > 0 then some c.numServerConnections
      else msg.daemonNumServerConnections }

/-- The event after a message with statistics. -/
def counted (event : CollectorTimerEvent) (c : TimerTick) : CollectorTimerEvent where
  numSamples := event.numSamples + 1
  numSamplesLastSecond := if HzDue event c then 0 else event.numSamplesLastSecond + 1
  tsNumSamplesPerSecond :=
    if HzDue event c then c.tsAfterSampleSec else event.tsNumSamplesPerSecond
  previousTsBeforeSampleSec := c.tsBeforeSampleSec
  scheduleDurationSec := c.tsAfterStreamSec - c.tsBeforeSampleSec

/-- `Scheduler::_TimerCallback`: the message and the statistics. -/
def timerCallback (s : Collecting) (c : TimerTick) : Collecting :=
  let event := s.rescheduled c
  match c.data with
  | none =>
    -- "data field not present in collector messsage"
    { s with event, sampleFrequencyMsec := frequency c }
  | some data =>
    let msg : WallmonMessage := { key := c.key, data }
    if c.includeStatistics then
      { event := counted event c
        sampleFrequencyMsec := frequency c
        messages := s.messages ++ [(c, withStatistics event s.sampleFrequencyMsec c msg)] }
    else
      { event, sampleFrequencyMsec := frequency c, messages := s.messages ++ [(c, msg)] }

/-- A collector that was registered at a time, with a frequency. -/
def registered (now sampleFrequencyMsec : ℚ) : Collecting where
  event := .new now
  sampleFrequencyMsec := sampleFrequencyMsec
  messages := []

/-- The callbacks of a timer, one after the other. -/
def run (s : Collecting) (cs : List TimerTick) : Collecting := cs.foldl timerCallback s

/-- The messages with statistics. -/
def numbered (s : Collecting) : List (TimerTick × WallmonMessage) :=
  s.messages.filter (·.1.includeStatistics)

/-! ## One callback -/

/-- What a callback can do: compose a message with statistics, or leave the statistics as they
are but for the count that a changed frequency discards. -/
theorem timerCallback_cases (s : Collecting) (c : TimerTick) :
    (∃ data, c.includeStatistics = true ∧ c.data = some data ∧
      (s.timerCallback c).event = counted (s.rescheduled c) c ∧
      (s.timerCallback c).numbered = s.numbered ++
        [(c, withStatistics (s.rescheduled c) s.sampleFrequencyMsec c { key := c.key, data })]) ∨
    (s.timerCallback c).event = s.rescheduled c ∧ (s.timerCallback c).numbered = s.numbered := by
  rw [timerCallback]
  cases hdata : c.data with
  | none => exact .inr ⟨rfl, rfl⟩
  | some data =>
    by_cases hstat : c.includeStatistics = true
    · refine .inl ⟨data, hstat, rfl, ?_, ?_⟩
      · dsimp only
        rw [if_pos hstat]
      · dsimp only
        rw [if_pos hstat, numbered, List.filter_append, numbered]
        simp [hstat]
    · refine .inr ⟨?_, ?_⟩
      · dsimp only
        rw [if_neg hstat]
      · dsimp only
        rw [if_neg hstat, numbered, List.filter_append, numbered]
        simp [hstat]

@[simp] theorem rescheduled_numSamples (s : Collecting) (c : TimerTick) :
    (s.rescheduled c).numSamples = s.event.numSamples := by
  rw [rescheduled]
  split <;> rfl

@[simp] theorem rescheduled_previousTs (s : Collecting) (c : TimerTick) :
    (s.rescheduled c).previousTsBeforeSampleSec = s.event.previousTsBeforeSampleSec := by
  rw [rescheduled]
  split <;> rfl

/-- **Run rule** for callbacks. -/
theorem run_preserves {I : Collecting → Prop} {ok : Collecting → TimerTick → Prop}
    (hstep : ∀ s c, I s → ok s c → I (s.timerCallback c)) {s : Collecting} (hs : I s)
    {cs : List TimerTick} (hcs : TransitionSystem.Meets timerCallback ok s cs) : I (s.run cs) := by
  induction cs generalizing s with
  | nil => exact hs
  | cons c cs ih => exact ih (hstep s c hs hcs.1) hcs.2

/-! ## Numbers -/

/-- The next number is the count of the messages with statistics. -/
structure Numbered (s : Collecting) : Prop where
  /-- what comes next -/
  next : s.event.numSamples = UInt32.ofNat s.numbered.length
  /-- what has come -/
  numbers : s.numbered.map (·.2.collectorSequenceNumber) =
    (List.range s.numbered.length).map fun n => some (UInt32.ofNat n)

theorem Numbered.timerCallback {s : Collecting} (h : Numbered s) (c : TimerTick) :
    Numbered (s.timerCallback c) := by
  rcases timerCallback_cases s c with ⟨data, -, -, hevent, hmessages⟩ | ⟨hevent, hmessages⟩
  · refine ⟨?_, ?_⟩
    · rw [hevent, hmessages, List.length_append, List.length_singleton, counted,
        rescheduled_numSamples, h.next, UInt32.ofNat_add]
      rfl
    · rw [hmessages, List.map_append, h.numbers, List.length_append, List.length_singleton,
        List.range_succ, List.map_append, List.map_singleton, List.map_singleton, withStatistics,
        rescheduled_numSamples, h.next]
  · refine ⟨?_, ?_⟩
    · rw [hevent, hmessages, rescheduled_numSamples, h.next]
    · rw [hmessages, h.numbers]

theorem Numbered.run (now f : ℚ) (cs : List TimerTick) : Numbered ((registered now f).run cs) := by
  refine @run_preserves Numbered (fun _ _ => True) ?_ _ ⟨rfl, rfl⟩ cs ?_
  · exact fun s c hs _ => hs.timerCallback c
  · exact (TransitionSystem.meets_iff_forall_mem Collecting.timerCallback (fun _ => True) _ cs).mpr
      fun _ _ => trivial

/-- What a message without statistics is. -/
def Plain (m : TimerTick × WallmonMessage) : Prop :=
  m.1.data = some m.2.data ∧ m.2.key = m.1.key ∧
    (m.1.includeStatistics = false → m.2.collectorSequenceNumber = none)

/-- A callback with data adds its message. -/
theorem timerCallback_messages (s : Collecting) (c : TimerTick) :
    ∃ ms, (s.timerCallback c).messages = s.messages ++ ms ∧
      ms.map Prod.fst = [c].filter (·.data.isSome) ∧ ∀ m ∈ ms, Plain m := by
  rw [timerCallback]
  cases hdata : c.data with
  | none => exact ⟨[], (List.append_nil _).symm, by simp [hdata], List.forall_mem_nil _⟩
  | some data =>
    by_cases hstat : c.includeStatistics = true
    · dsimp only
      rw [if_pos hstat]
      refine ⟨_, rfl, by simp [hdata], List.forall_mem_singleton.mpr ⟨hdata, rfl, fun h => ?_⟩⟩
      cases hstat.symm.trans h
    · dsimp only
      rw [if_neg hstat]
      exact ⟨_, rfl, by simp [hdata], List.forall_mem_singleton.mpr ⟨hdata, rfl, fun _ => rfl⟩⟩

/-- Every callback with data adds its message. -/
theorem run_messages (s : Collecting) (cs : List TimerTick) :
    ∃ ms, (s.run cs).messages = s.messages ++ ms ∧
      ms.map Prod.fst = cs.filter (·.data.isSome) ∧ ∀ m ∈ ms, Plain m := by
  induction cs generalizing s with
  | nil => exact ⟨[], (List.append_nil _).symm, rfl, List.forall_mem_nil _⟩
  | cons c cs ih =>
    obtain ⟨ms, hms, hticks, hplain⟩ := timerCallback_messages s c
    obtain ⟨ms', hms', hticks', hplain'⟩ := ih (s.timerCallback c)
    refine ⟨ms ++ ms', ?_, ?_, List.forall_mem_append.mpr ⟨hplain, hplain'⟩⟩
    · rw [← List.append_assoc, ← hms]
      exact hms'
    · rw [List.map_append, hticks, hticks', ← List.filter_append, List.singleton_append]

/-- **Messages and their numbers.** Whatever `Sample` does, and however the frequency changes:
there is one message for each callback with data, in their order, with the data and the key;
those with statistics are numbered 0, 1, 2 and so on, modulo `2^32`, and the others are not. -/
theorem sequence_numbers (now f : ℚ) (cs : List TimerTick) :
    ((registered now f).run cs).messages.map Prod.fst = cs.filter (·.data.isSome) ∧
    (∀ m ∈ ((registered now f).run cs).messages, Plain m) ∧
    ((registered now f).run cs).numbered.map (·.2.collectorSequenceNumber) =
      (List.range (cs.countP fun c => c.data.isSome && c.includeStatistics)).map
        fun n => some (UInt32.ofNat n) := by
  obtain ⟨ms, hms, hticks, hplain⟩ := run_messages (registered now f) cs
  have hall : ((registered now f).run cs).messages = ms := hms
  have hcount : ((registered now f).run cs).numbered.length =
      cs.countP fun c => c.data.isSome && c.includeStatistics := by
    calc ((registered now f).run cs).numbered.length
        = (ms.map Prod.fst).countP (·.includeStatistics) := by
          rw [numbered, hall, List.countP_map, List.countP_eq_length_filter]
          rfl
      _ = cs.countP fun c => c.data.isSome && c.includeStatistics := by
          rw [hticks, List.countP_filter]
          exact List.countP_congr fun c _ => by simp [and_comm]
  refine ⟨hall ▸ hticks, hall ▸ hplain, ?_⟩
  rw [← hcount]
  exact (Numbered.run now f cs).numbers

/-! ## Drifts -/

/-- The interval that a message accounts for: what was asked for, and the drift. -/
def interval (m : TimerTick × WallmonMessage) : ℚ :=
  m.2.scheduleDriftMsec.getD 0 + m.2.sampleFrequencyMsec.getD 0

/-- The message tells when it was made, as measured from the one before. -/
def Follows (m m' : TimerTick × WallmonMessage) : Prop :=
  m'.2.scheduleDriftMsec.isSome = true ∧
    interval m' = m'.1.tsBeforeSampleSec * 1000 - m.1.tsBeforeSampleSec * 1000

/-- Differences along a chain add up to that of its ends. -/
theorem sum_of_isChain {β : Type} {f g : β → ℚ} {first : β} {rest : List β}
    (h : (first :: rest).IsChain fun x y => g y = f y - f x) :
    (rest.map g).sum = f ((first :: rest).getLast (List.cons_ne_nil _ _)) - f first := by
  induction rest generalizing first with
  | nil => simp
  | cons x rest ih =>
    obtain ⟨hx, hrest⟩ := List.isChain_cons_cons.mp h
    rw [List.map_cons, List.sum_cons, ih hrest, hx, List.getLast_cons (List.cons_ne_nil _ _)]
    ring

/-- The event knows the time of the last message with statistics. -/
structure Drifting (s : Collecting) : Prop where
  /-- each follows the one before -/
  chain : s.numbered.IsChain Follows
  /-- the first has no drift -/
  first : ∀ m ∈ s.numbered.head?, m.2.scheduleDriftMsec = none
  /-- the time of the last -/
  previous : ∀ m ∈ s.numbered.getLast?,
    s.event.previousTsBeforeSampleSec = m.1.tsBeforeSampleSec ∧ 0 < m.1.tsBeforeSampleSec
  /-- or of none -/
  none_yet : s.numbered = [] → s.event.previousTsBeforeSampleSec = -1

theorem Drifting.timerCallback {s : Collecting} (h : Drifting s) {c : TimerTick}
    (hpos : 0 < c.tsBeforeSampleSec) : Drifting (s.timerCallback c) := by
  rcases timerCallback_cases s c with ⟨data, -, -, hevent, hmessages⟩ | ⟨hevent, hmessages⟩
  · refine ⟨?_, ?_, ?_, ?_⟩
    · rw [hmessages, List.isChain_append]
      refine ⟨h.chain, List.isChain_singleton _, ?_⟩
      intro m hm m' hm'
      obtain rfl := Option.some.inj hm'
      obtain ⟨hprevious, hlast⟩ := h.previous m hm
      have hdrift : (s.rescheduled c).previousTsBeforeSampleSec > 0 := by
        rw [rescheduled_previousTs, hprevious]
        exact hlast
      rw [Follows, interval, withStatistics]
      dsimp only
      rw [if_pos hdrift, rescheduled_previousTs, hprevious, Option.getD_some, Option.getD_some]
      refine ⟨rfl, ?_⟩
      ring
    · rw [hmessages]
      cases hnumbered : s.numbered with
      | nil =>
        intro m hm
        obtain rfl := Option.some.inj hm
        have hnone : ¬(s.rescheduled c).previousTsBeforeSampleSec > 0 := by
          rw [rescheduled_previousTs, h.none_yet hnumbered]
          decide
        rw [withStatistics]
        exact if_neg hnone
      | cons m ms =>
        intro m' hm'
        exact h.first m' (by rw [hnumbered]; exact hm')
    · intro m hm
      rw [hmessages, List.getLast?_concat] at hm
      obtain rfl := Option.some.inj hm
      rw [hevent]
      exact ⟨rfl, hpos⟩
    · intro hnil
      rw [hmessages] at hnil
      exact absurd hnil (List.append_ne_nil_of_right_ne_nil _ (List.cons_ne_nil _ _))
  · have hprevious : (s.timerCallback c).event.previousTsBeforeSampleSec =
        s.event.previousTsBeforeSampleSec := by
      rw [hevent, rescheduled_previousTs]
    refine ⟨?_, ?_, ?_, ?_⟩
    · rw [hmessages]
      exact h.chain
    · rw [hmessages]
      exact h.first
    · rw [hmessages, hprevious]
      exact h.previous
    · rw [hmessages, hprevious]
      exact h.none_yet

theorem Drifting.run (now f : ℚ) {cs : List TimerTick}
    (hpos : ∀ c ∈ cs, 0 < c.tsBeforeSampleSec) : Drifting ((registered now f).run cs) := by
  refine @run_preserves Drifting (fun _ c => 0 < c.tsBeforeSampleSec)
    (fun s c hs hc => hs.timerCallback hc) _ ⟨.nil, ?_, ?_, fun _ => rfl⟩ cs ?_
  · rintro _ ⟨⟩
  · rintro _ ⟨⟩
  · rw [TransitionSystem.meets_iff_forall_mem _ (fun c : TimerTick => 0 < c.tsBeforeSampleSec)]
    exact hpos

/-- In a chain each element but the first has one before it. -/
theorem exists_of_isChain_cons {β : Type} {R : β → β → Prop} {first : β} {rest : List β}
    (h : (first :: rest).IsChain R) : ∀ y ∈ rest, ∃ x, R x y := by
  induction rest generalizing first with
  | nil => exact List.forall_mem_nil _
  | cons x rest ih =>
    obtain ⟨hx, hrest⟩ := List.isChain_cons_cons.mp h
    exact List.forall_mem_cons.mpr ⟨⟨first, hx⟩, ih hrest⟩

/-- **Drifts add up.** The first message with statistics has no drift; all others have, and
with the intervals that were asked for the drifts give, over exact rationals, the time from the
first message to the last. -/
theorem drifts_telescope (now f : ℚ) {cs : List TimerTick}
    (hpos : ∀ c ∈ cs, 0 < c.tsBeforeSampleSec) {first : TimerTick × WallmonMessage}
    {rest : List (TimerTick × WallmonMessage)}
    (hnumbered : ((registered now f).run cs).numbered = first :: rest) :
    first.2.scheduleDriftMsec = none ∧ (∀ m ∈ rest, m.2.scheduleDriftMsec.isSome = true) ∧
    (rest.map interval).sum =
      ((first :: rest).getLast (List.cons_ne_nil _ _)).1.tsBeforeSampleSec * 1000 -
        first.1.tsBeforeSampleSec * 1000 := by
  have hdrifting := Drifting.run now f hpos
  have hchain := hdrifting.chain
  have hfirst := hdrifting.first
  rw [hnumbered] at hchain hfirst
  refine ⟨hfirst first rfl, ?_, ?_⟩
  · intro m hm
    obtain ⟨_, hfollows⟩ := exists_of_isChain_cons hchain m hm
    exact hfollows.1
  · exact sum_of_isChain (f := fun m => m.1.tsBeforeSampleSec * 1000) (hchain.imp fun _ _ h => h.2)

/-! ## Counts -/

/-- The counts that the messages tell. -/
def told (s : Collecting) : List ℕ := s.numbered.filterMap fun m => m.2.actualHz.map UInt32.toNat

/-- The messages that tell one. -/
def telling (s : Collecting) : List (TimerTick × WallmonMessage) :=
  s.numbered.filter (·.2.actualHz.isSome)

/-- What was told, and what is to be told. -/
def account (s : Collecting) : ℕ := s.told.sum + s.event.numSamplesLastSecond.toNat

/-- A changed frequency can only discard. -/
theorem rescheduled_numSamplesLastSecond_le (s : Collecting) (c : TimerTick) :
    (s.rescheduled c).numSamplesLastSecond.toNat ≤ s.event.numSamplesLastSecond.toNat := by
  rw [rescheduled]
  split
  · exact Nat.zero_le _
  · exact le_rfl

theorem rescheduled_of_frequency_eq {s : Collecting} {c : TimerTick}
    (h : frequency c = s.sampleFrequencyMsec) : s.rescheduled c = s.event :=
  if_neg fun hchanged => hchanged.1 h

@[simp] theorem timerCallback_sampleFrequencyMsec (s : Collecting) (c : TimerTick) :
    (s.timerCallback c).sampleFrequencyMsec = frequency c := by
  rw [timerCallback]
  split
  · rfl
  · dsimp only
    split <;> rfl

theorem length_numbered_timerCallback_le (s : Collecting) (c : TimerTick) :
    (s.timerCallback c).numbered.length ≤ s.numbered.length + 1 := by
  rcases timerCallback_cases s c with ⟨data, -, -, -, hmessages⟩ | ⟨-, hmessages⟩
  · rw [hmessages, List.length_append, List.length_singleton]
  · rw [hmessages]
    exact Nat.le_succ _

/-- A callback accounts for its message, from what a changed frequency has left. -/
theorem account_timerCallback (s : Collecting) (c : TimerTick)
    (hbound : s.event.numSamplesLastSecond.toNat + 1 < 2 ^ 32) :
    (s.timerCallback c).account + s.numbered.length =
      s.told.sum + (s.rescheduled c).numSamplesLastSecond.toNat +
        (s.timerCallback c).numbered.length := by
  have hle := rescheduled_numSamplesLastSecond_le s c
  have hsucc : ((s.rescheduled c).numSamplesLastSecond + 1).toNat =
      (s.rescheduled c).numSamplesLastSecond.toNat + 1 := by
    rw [UInt32.toNat_add]
    exact Nat.mod_eq_of_lt (by simp only [UInt32.reduceToNat]; omega)
  rcases timerCallback_cases s c with ⟨data, -, -, hevent, hmessages⟩ | ⟨hevent, hmessages⟩
  · rw [account, told, hevent, hmessages, List.filterMap_append, List.sum_append,
      List.length_append, List.length_singleton, counted, ← told]
    by_cases hdue : HzDue (s.rescheduled c) c
    · simp only [withStatistics, if_pos hdue, List.filterMap_cons, Option.map_some,
        List.filterMap_nil, List.sum_singleton, hsucc, UInt32.toNat_zero]
      omega
    · simp only [withStatistics, if_neg hdue, List.filterMap_cons, Option.map_none,
        List.filterMap_nil, List.sum_nil, hsucc]
      omega
  · rw [account, told, hevent, hmessages, ← told]

/-- There are at most as many messages with statistics as there are callbacks. -/
theorem meets_length {s : Collecting} {cs : List TimerTick} {n : ℕ}
    (h : s.numbered.length + cs.length < n) :
    TransitionSystem.Meets timerCallback (fun s _ => s.numbered.length + 1 < n) s cs := by
  induction cs generalizing s with
  | nil => trivial
  | cons c cs ih =>
    rw [List.length_cons] at h
    have hstep := length_numbered_timerCallback_le s c
    exact ⟨by omega, ih (by omega)⟩

/-- What was told and what is to be told are never more than there is. -/
theorem account_timerCallback_le {s : Collecting} {c : TimerTick}
    (h : s.account ≤ s.numbered.length) (hbound : s.numbered.length + 1 < 2 ^ 32) :
    (s.timerCallback c).account ≤ (s.timerCallback c).numbered.length := by
  have hle := rescheduled_numSamplesLastSecond_le s c
  rw [account] at h
  have hcallback := account_timerCallback s c (by omega)
  omega

/-- As long as the frequency stays they are not less either. -/
theorem account_timerCallback_eq {s : Collecting} {c : TimerTick}
    (h : s.account = s.numbered.length) (hbound : s.numbered.length + 1 < 2 ^ 32)
    (hfrequency : frequency c = s.sampleFrequencyMsec) :
    (s.timerCallback c).account = (s.timerCallback c).numbered.length := by
  rw [account] at h
  have hcallback := account_timerCallback s c (by omega)
  rw [rescheduled_of_frequency_eq hfrequency] at hcallback
  omega

/-- With statistics the clock of the count only advances. -/
structure Separated (s : Collecting) : Prop where
  /-- more than a second apart -/
  chain : s.telling.IsChain fun m m' => m'.1.tsAfterSampleSec - m.1.tsAfterSampleSec > 1
  /-- the count began after the last -/
  began : ∀ m ∈ s.telling.getLast?, m.1.tsAfterSampleSec ≤ s.event.tsNumSamplesPerSecond

/-- A changed frequency can only move the count's beginning to now. -/
theorem rescheduled_tsNumSamplesPerSecond (s : Collecting) (c : TimerTick) :
    (s.rescheduled c).tsNumSamplesPerSecond = s.event.tsNumSamplesPerSecond ∨
      (s.rescheduled c).tsNumSamplesPerSecond = c.tsAfterSampleSec := by
  rw [rescheduled]
  split
  · exact .inr rfl
  · exact .inl rfl

theorem timerCallback_tsNumSamplesPerSecond (s : Collecting) (c : TimerTick) :
    (s.timerCallback c).event.tsNumSamplesPerSecond = s.event.tsNumSamplesPerSecond ∨
      (s.timerCallback c).event.tsNumSamplesPerSecond = c.tsAfterSampleSec := by
  have hrescheduled := rescheduled_tsNumSamplesPerSecond s c
  rcases timerCallback_cases s c with ⟨data, -, -, hevent, -⟩ | ⟨hevent, -⟩
  · rw [hevent, counted]
    split
    · exact .inr rfl
    · exact hrescheduled
  · rwa [hevent]

theorem Separated.timerCallback {s : Collecting} (h : Separated s) {c : TimerTick}
    (hclock : s.event.tsNumSamplesPerSecond ≤ c.tsAfterSampleSec) :
    Separated (s.timerCallback c) := by
  have hbegan : ∀ m ∈ s.telling.getLast?,
      m.1.tsAfterSampleSec ≤ (s.rescheduled c).tsNumSamplesPerSecond := by
    intro m hm
    rcases rescheduled_tsNumSamplesPerSecond s c with hts | hts
    · exact hts ▸ h.began m hm
    · exact hts ▸ (h.began m hm).trans hclock
  rcases timerCallback_cases s c with ⟨data, -, -, hevent, hmessages⟩ | ⟨hevent, hmessages⟩
  · by_cases hdue : HzDue (s.rescheduled c) c
    · have htelling : (s.timerCallback c).telling = s.telling ++
          [(c, withStatistics (s.rescheduled c) s.sampleFrequencyMsec c
            { key := c.key, data })] := by
        rw [telling, hmessages, List.filter_append, ← telling]
        simp [withStatistics, if_pos hdue]
      refine ⟨?_, ?_⟩
      · rw [htelling, List.isChain_append]
        refine ⟨h.chain, List.isChain_singleton _, ?_⟩
        intro m hm m' hm'
        obtain rfl := Option.some.inj hm'
        have hlast := hbegan m hm
        rw [HzDue] at hdue
        dsimp only
        linarith
      · intro m hm
        rw [htelling, List.getLast?_concat] at hm
        obtain rfl := Option.some.inj hm
        rw [hevent, counted]
        exact (if_pos hdue).ge
    · have htelling : (s.timerCallback c).telling = s.telling := by
        rw [telling, hmessages, List.filter_append, ← telling]
        simp [withStatistics, if_neg hdue]
      refine ⟨htelling ▸ h.chain, ?_⟩
      intro m hm
      rw [htelling] at hm
      rw [hevent, counted]
      exact (hbegan m hm).trans (if_neg hdue).ge
  · have htelling : (s.timerCallback c).telling = s.telling := by
      rw [telling, hmessages, telling]
    refine ⟨htelling ▸ h.chain, ?_⟩
    rw [htelling, hevent]
    exact hbegan

/-- The count begins at a time that has been. -/
theorem meets_clock {s : Collecting} {cs : List TimerTick}
    (h : (s.event.tsNumSamplesPerSecond :: cs.map (·.tsAfterSampleSec)).Pairwise (· ≤ ·)) :
    TransitionSystem.Meets timerCallback
      (fun s c => s.event.tsNumSamplesPerSecond ≤ c.tsAfterSampleSec) s cs := by
  induction cs generalizing s with
  | nil => trivial
  | cons c cs ih =>
    rw [List.map_cons, List.pairwise_cons, List.forall_mem_cons] at h
    obtain ⟨⟨hc, hall⟩, htail⟩ := h
    refine ⟨hc, ih ?_⟩
    rcases timerCallback_tsNumSamplesPerSecond s c with hts | hts
    · rw [hts]
      exact List.pairwise_cons.mpr ⟨hall, (List.pairwise_cons.mp htail).2⟩
    · rw [hts]
      exact htail

/-- **Counts account for the messages.** What was told and what is to be told are not more than
there are messages with statistics, and not less as long as the frequency stays; and what tells
it is, on a clock that does not go back, more than a second apart. -/
theorem actualHz_account (now f : ℚ) {cs : List TimerTick} (hlength : cs.length < 2 ^ 32)
    (hclock : (now :: cs.map (·.tsAfterSampleSec)).Pairwise (· ≤ ·)) :
    ((registered now f).run cs).account ≤ ((registered now f).run cs).numbered.length ∧
    ((∀ c ∈ cs, frequency c = f) →
      ((registered now f).run cs).account = ((registered now f).run cs).numbered.length) ∧
    ((registered now f).run cs).telling.IsChain
      fun m m' => m'.1.tsAfterSampleSec - m.1.tsAfterSampleSec > 1 := by
  have hmeets : TransitionSystem.Meets timerCallback
      (fun s _ => s.numbered.length + 1 < 2 ^ 32) (registered now f) cs := by
    refine meets_length ?_
    rwa [show (registered now f).numbered = [] from rfl, List.length_nil, Nat.zero_add]
  refine ⟨?_, fun hfrequency => ?_, ?_⟩
  · exact run_preserves (I := fun s => s.account ≤ s.numbered.length)
      (fun s c hs hc => account_timerCallback_le hs hc) le_rfl hmeets
  · refine (run_preserves (I := fun s => s.account = s.numbered.length ∧ s.sampleFrequencyMsec = f)
      ?_ ⟨rfl, rfl⟩ ((TransitionSystem.meets_and _ _ (fun _ c => frequency c = f) _ cs).mpr
        ⟨hmeets, (TransitionSystem.meets_iff_forall_mem _ _ _ cs).mpr hfrequency⟩)).1
    rintro s c ⟨hs, hf⟩ ⟨hc, hcf⟩
    exact ⟨account_timerCallback_eq hs hc (hcf.trans hf.symm), by simp [hcf]⟩
  · refine (run_preserves (fun s c hs hc => Separated.timerCallback hs hc)
      ⟨.nil, ?_⟩ (meets_clock hclock)).chain
    rintro _ ⟨⟩

/-! ## Three callbacks -/

/-- A callback at a time, with data and statistics. -/
def oneTick (t : ℚ) : TimerTick where
  tsBeforeSampleSec := t
  tsAfterSampleSec := t
  tsAfterStreamSec := t
  key := "ps"
  data := some [1]
  sampleFrequencyMsec := 500
  includeStatistics := true
  hostname := "rocksvv"
  numPendingItems := 1
  numServerConnections := 1

theorem drifts_telescope_three :
    ∃ first, ∃ rest : List (TimerTick × WallmonMessage), rest.length = 2 ∧
      (rest.map interval).sum = ((first :: rest).getLast (List.cons_ne_nil _ _)).1.tsBeforeSampleSec
        * 1000 - first.1.tsBeforeSampleSec * 1000 :=
  ⟨_, _, rfl, (drifts_telescope 0 500
    (show ∀ c ∈ [oneTick 1, oneTick 2, oneTick 3], 0 < c.tsBeforeSampleSec by simp [oneTick])
    rfl).2.2⟩

theorem actualHz_account_three :
    ((registered 0 500).run [oneTick 1, oneTick 2, oneTick 3]).told = [2] ∧
    ((registered 0 500).run [oneTick 1, oneTick 2, oneTick 3]).account = 3 :=
  ⟨by decide +kernel, (actualHz_account 0 500
    (show [oneTick 1, oneTick 2, oneTick 3].length < 2 ^ 32 by decide)
    (by norm_num [oneTick])).2.1 (by simp [oneTick, frequency])⟩

end Collecting

end WallMon
