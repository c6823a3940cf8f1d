import WallMon.MessageFormat
import WallMon.Statistics

/-!
# Sequence numbers at the server

A collector numbers its messages, and a handler is to see from the numbers whether a message
is missing. On their way the messages of a collector are mixed with those of others, and the
same message can come twice on a connection. But the numbers that a handler gets from a
connection never go back, and a number that comes again is the same message again
(`numbers_in_order`).
-/

namespace WallMon

/-- The sequence number in a string, if it is a message for the key. -/
def sequenceNumber (P : Protobuf) (key : String) (bytes : List UInt8) : Option ℕ :=
  let msg := (P.parseFromArray {} bytes).1
  if msg.key = key then msg.collectorSequenceNumber.map UInt32.toNat else none

/-- The second has a greater number, if both have one. -/
def Later {α : Type} (number : α → Option ℕ) (x y : α) : Prop :=
  ∀ a ∈ number x, ∀ b ∈ number y, a < b

namespace Collecting

/-- The number of a message. -/
def numberOf (m : TimerTick × WallmonMessage) : Option ℕ :=
  m.2.collectorSequenceNumber.map UInt32.toNat

/-- Among the messages with statistics each has a greater number than those before. -/
theorem Numbered.pairwise_later {s : Collecting} (h : Numbered s)
    (hcount : s.numbered.length ≤ 2 ^ 32) : s.numbered.Pairwise (Later numberOf) := by
  have hrange : ((List.range s.numbered.length).map fun n => some (UInt32.ofNat n)).Pairwise
      (Later fun n : Option UInt32 => n.map UInt32.toNat) := by
    refine List.pairwise_map.mpr (List.pairwise_lt_range.imp_of_mem fun {i j} hi hj hlt => ?_)
    have htoNat : ∀ k ∈ List.range s.numbered.length, (UInt32.ofNat k).toNat = k := fun k hk => by
      have hlength := List.mem_range.mp hk
      exact UInt32.toNat_ofNat_of_lt' (by rw [UInt32.size]; omega)
    rintro a ha b hb
    obtain rfl := Option.some.inj ha
    obtain rfl := Option.some.inj hb
    rwa [htoNat i hi, htoNat j hj]
  rw [← h.numbers, List.pairwise_map] at hrange
  exact hrange

/-- The numbers of a collector's messages go up. -/
theorem pairwise_later_messages (now f : ℚ) (cs : List TimerTick)
    (hcount : (cs.countP fun c => c.data.isSome && c.includeStatistics) ≤ 2 ^ 32) :
    ((registered now f).run cs).messages.Pairwise (Later numberOf) := by
  obtain ⟨ms, hms, hticks, hplain⟩ := run_messages (registered now f) cs
  have hall : ((registered now f).run cs).messages = ms := hms
  have hlength : ((registered now f).run cs).numbered.length ≤ 2 ^ 32 := by
    refine le_trans (le_of_eq ?_) hcount
    rw [numbered, hall, ← List.countP_eq_length_filter]
    calc ms.countP (·.1.includeStatistics)
        = (ms.map Prod.fst).countP (·.includeStatistics) := by
          rw [List.countP_map]
          rfl
      _ = cs.countP fun c => c.data.isSome && c.includeStatistics := by
          rw [hticks, List.countP_filter]
          exact List.countP_congr fun c _ => by simp [and_comm]
  have hpair := (Numbered.run now f cs).pairwise_later hlength
  rw [numbered, List.pairwise_filter, hall] at hpair
  rw [hall]
  -- messages without statistics have no number
  have hnumber : ∀ m ∈ ms, ∀ a ∈ numberOf m, m.1.includeStatistics = true := by
    intro m hm a ha
    by_contra hstat
    rw [numberOf, (hplain m hm).2.2 (Bool.eq_false_iff.mpr hstat)] at ha
    cases ha
  exact hpair.imp_of_mem fun hm hm' hlater a ha b hb =>
    hlater (hnumber _ hm a ha) (hnumber _ hm' b hb) a ha b hb

end Collecting

namespace Pipeline

open Producer

variable {δ : Type} [DecidableEq δ] {K : δ → DaemonConfig} {s : Pipeline δ}

/-- What the collector of a daemon queues are messages it composed, and no other collector of
the daemon uses its key. -/
structure Queues (P : Protobuf) (S : Serializer P) (key : String) (collector : ℕ)
    (messages : List (TimerTick × WallmonMessage)) (streamed : List (ℕ × List UInt8)) : Prop where
  /-- messages that the format can hold -/
  holds : ∀ m ∈ messages, S.Holds m.2
  /-- in their order -/
  own : ((streamed.filter fun entry => entry.1 = collector).map Prod.snd).Sublist
    (messages.map fun m => S.serialize m.2)
  /-- the others' -/
  other : ∀ entry ∈ streamed, entry.1 ≠ collector →
    (P.parseFromArray {} entry.2).1.key ≠ key

/-- The numbers in what is queued go up. -/
theorem Queues.pairwise_later {P : Protobuf} {S : Serializer P} {key : String} {collector : ℕ}
    {messages : List (TimerTick × WallmonMessage)} {streamed : List (ℕ × List UInt8)}
    (h : Queues P S key collector messages streamed)
    (hmessages : messages.Pairwise (Later Collecting.numberOf)) :
    streamed.Pairwise (Later fun entry => sequenceNumber P key entry.2) := by
  have hserialized : (messages.map fun m => S.serialize m.2).Pairwise
      (Later (sequenceNumber P key)) := by
    have hnumber : ∀ m ∈ messages, ∀ a ∈ sequenceNumber P key (S.serialize m.2),
        a ∈ Collecting.numberOf m := by
      intro m hm a ha
      rw [sequenceNumber, S.parse_serialize (h.holds m hm)] at ha
      dsimp only at ha
      split at ha
      · exact ha
      · cases ha
    refine List.pairwise_map.mpr (hmessages.imp_of_mem fun hm hm' hlater a ha b hb => ?_)
    exact hlater a (hnumber _ hm a ha) b (hnumber _ hm' b hb)
  have hown := hserialized.sublist h.own
  rw [List.pairwise_map, List.pairwise_filter] at hown
  have hcollector : ∀ entry ∈ streamed, ∀ a ∈ sequenceNumber P key entry.2,
      entry.1 = collector := by
    intro entry hentry a ha
    by_contra hne
    rw [sequenceNumber, if_neg (h.other entry hentry hne)] at ha
    cases ha
  exact hown.imp_of_mem fun he he' hlater a ha b hb =>
    hlater (decide_eq_true (hcollector _ he a ha)) (decide_eq_true (hcollector _ he' b hb))
      a ha b hb

/-- A number is that of a message. -/
theorem Queues.exists_message {P : Protobuf} {S : Serializer P} {key : String} {collector : ℕ}
    {messages : List (TimerTick × WallmonMessage)} {streamed : List (ℕ × List UInt8)}
    (h : Queues P S key collector messages streamed) {entry : ℕ × List UInt8}
    (hentry : entry ∈ streamed) {n : ℕ} (hn : n ∈ sequenceNumber P key entry.2) :
    ∃ m ∈ messages, S.serialize m.2 = entry.2 ∧ n ∈ Collecting.numberOf m := by
  have hcollector : entry.1 = collector := by
    by_contra hne
    rw [sequenceNumber, if_neg (h.other entry hentry hne)] at hn
    cases hn
  have hmem := h.own.subset (List.mem_map_of_mem
    (List.mem_filter.mpr ⟨hentry, decide_eq_true hcollector⟩))
  obtain ⟨m, hm, heq⟩ := List.mem_map.mp hmem
  refine ⟨m, hm, heq, ?_⟩
  rw [← heq, sequenceNumber, S.parse_serialize (h.holds m hm)] at hn
  dsimp only at hn
  split at hn
  · exact hn
  · cases hn

/-- What is in order has its numbers in order. -/
theorem pairwise_of_inOrder {number : List UInt8 → Option ℕ} {streamed : List (ℕ × List UInt8)}
    (hstreamed : streamed.Pairwise (Later fun entry => number entry.2)) {ps : List (List UInt8)}
    (h : InOrder streamed ps) : ps.Pairwise fun x y => Later number x y ∨ x = y := by
  obtain ⟨ns, hsorted, hmatch⟩ := h
  have hlength := hmatch.length_eq
  rw [List.pairwise_iff_getElem]
  intro i j hi hj hlt
  obtain ⟨collector, hx⟩ := hmatch.get (hlength ▸ hi) hi
  obtain ⟨collector', hy⟩ := hmatch.get (hlength ▸ hj) hj
  have hle := List.pairwise_iff_getElem.mp hsorted i j (hlength ▸ hi) (hlength ▸ hj) hlt
  simp only [List.get_eq_getElem] at hx hy
  rcases Nat.lt_or_eq_of_le hle with hbefore | hsame
  · obtain ⟨hxlt, hxeq⟩ := List.getElem?_eq_some_iff.mp hx
    obtain ⟨hylt, hyeq⟩ := List.getElem?_eq_some_iff.mp hy
    have hlater := List.pairwise_iff_getElem.mp hstreamed _ _ hxlt hylt hbefore
    rw [hxeq, hyeq] at hlater
    exact .inl hlater
  · rw [hsame, hy] at hx
    exact .inr (congrArg Prod.snd (Option.some.inj hx)).symm

/-- **Sequence numbers never go back**: of the strings that the router thread gets from a
connection, each has a greater number than those before, or is one of them; and a string with
a number is the message that the collector gave this number. -/
theorem numbers_in_order {P : Protobuf} {S : Serializer P}
    (h : ((system K).guarded (Composing Sized)).Reachable s) (c : δ × ℕ) (collector : ℕ)
    (key : String) (now f : ℚ) (cs : List TimerTick)
    (hcount : (cs.countP fun c => c.data.isSome && c.includeStatistics) ≤ 2 ^ 32)
    (hqueues : Queues P S key collector ((Collecting.registered now f).run cs).messages
      (s.producers c.1).streamed) :
    (s.handled c).Pairwise (fun x y => Later (sequenceNumber P key) x y ∨ x = y) ∧
    ∀ x ∈ s.handled c, ∀ n ∈ sequenceNumber P key x,
      ∃ m ∈ ((Collecting.registered now f).run cs).messages,
        S.serialize m.2 = x ∧ n ∈ Collecting.numberOf m := by
  have horder := (Inv.reachable h).handled_inOrder c
  refine ⟨pairwise_of_inOrder ?_ horder, fun x hx n hn => ?_⟩
  · exact hqueues.pairwise_later (Collecting.pairwise_later_messages now f cs hcount)
  · obtain ⟨collector', hentry⟩ := horder.exists_mem hx
    exact hqueues.exists_message hentry hn

/-! ### Two numbered messages -/

open MessageFormat

/-- A callback of a collector with statistics -/
def numberedTick (sec : ℚ) : TimerTick where
  tsBeforeSampleSec := sec
  tsAfterSampleSec := sec
  tsAfterStreamSec := sec
  key := "k"
  data := some [7]
  sampleFrequencyMsec := 1000
  includeStatistics := true
  hostname := "tile"
  numPendingItems := 0
  numServerConnections := 1

/-- The message of the first callback -/
def firstMessage : WallmonMessage where
  key := "k"
  data := [7]
  daemonTimestampMsec := some 1000
  hostname := some "tile"
  sampleFrequencyMsec := some 1000
  sampleDurationMsec := some 0
  daemonQueueSize := some 0
  daemonNumServerConnections := some 1
  collectorSequenceNumber := some 0

/-- The message of the second, with a drift and a count -/
def secondMessage : WallmonMessage :=
  { firstMessage with
    daemonTimestampMsec := some 2000
    scheduleDriftMsec := some 0
    actualHz := some 2
    collectorSequenceNumber := some 1 }

theorem messages_numberedTick :
    ((Collecting.registered 0 1000).run [numberedTick 1, numberedTick 2]).messages.map Prod.snd =
      [firstMessage, secondMessage] := by decide +kernel

theorem holds_numbered : ∀ msg ∈ [firstMessage, secondMessage],
    wallmonProto.parseFromArray {} (serialize msg) = (msg, true) := by decide +kernel

theorem numbers_in_order_two_messages :
    ∃ s, ((system oneDaemon).guarded (Composing Sized)).Reachable s ∧
      s.handled ((), 0) = [serialize firstMessage, serialize secondMessage] ∧
      (s.handled ((), 0)).map (sequenceNumber wallmonProto "k") = [some 0, some 1] ∧
      (s.handled ((), 0)).Pairwise (fun x y =>
        Later (sequenceNumber wallmonProto "k") x y ∨ x = y) := by
  have hsized : Sized (serialize firstMessage) ∧ Sized (serialize secondMessage) :=
    ⟨⟨by decide +kernel, by decide +kernel⟩, by decide +kernel, by decide +kernel⟩
  obtain ⟨s, hs, hstreamed, hsent, -⟩ := reachable_sent hsized.1 hsized.2 (by decide +kernel)
  obtain ⟨s', hlead, hhandled⟩ := (Inv.reachable hs).exists_handled (K := oneDaemon)
  have hs' := hlead.guarded hs
  have hqueues : Queues wallmonProto wallmonSerializer "k" 0
      ((Collecting.registered 0 1000).run [numberedTick 1, numberedTick 2]).messages
      (s'.producers ()).streamed := by
    obtain ⟨-, -, -, hsame⟩ := hlead
    rw [hsame, hstreamed]
    refine ⟨fun m hm => holds_numbered m.2 ?_, ?_, ?_⟩
    · rw [← messages_numberedTick]
      exact List.mem_map_of_mem hm
    · have hmessages := congrArg (List.map serialize) messages_numberedTick
      rw [List.map_map] at hmessages
      show List.Sublist _ (List.map (serialize ∘ Prod.snd) _)
      rw [hmessages, List.map_cons, List.map_singleton]
      generalize serialize firstMessage = first
      generalize serialize secondMessage = second
      exact List.Sublist.refl _
    · intro entry hentry hne
      rcases List.mem_cons.mp hentry with rfl | hentry
      · exact absurd rfl hne
      · obtain rfl := List.mem_singleton.mp hentry
        exact absurd rfl hne
  have hnumbers := hsent ▸ hhandled ((), 0)
  refine ⟨s', hs', hnumbers, ?_, ?_⟩
  · rw [hnumbers]
    decide +kernel
  · exact (numbers_in_order hs' ((), 0) 0 "k" 0 1000 [numberedTick 1, numberedTick 2] (by decide)
      hqueues).1

end Pipeline

end WallMon
