import WallMon.DataSink
import WallMon.Transition

/-!
# Hostile streams

One connection that receives arbitrary bytes in arbitrary chunks, headers of any
value included. A run ends with the callback that faults; the outcome of that
callback is its last state.

The header is an unsigned 32-bit number that the loop of `_ReadCallback` takes for
an `int` and compares with the bytes available. `sound_iff_headerSafe` tells
exactly which callbacks this leads astray: those that leave behind a header of
`2^31` or more, which is negative as an `int`, and those that have to double a
capacity of `2^30` or more.
-/

namespace WallMon

namespace DataSink

variable {ι : Type}

/-- How a callback ended. -/
abbrev Outcome (ι : Type) := EStateM.Result Fault (SinkState ι) Connection

/-- A connection before its first byte. -/
def Fresh (s : SinkState ι) : Prop :=
  ByteBuffer.new receiveBufStartSize = .ok s.buf ∧ s.calls = []

/-- A chunk `recv` may return: at least one byte, at most the length it was
offered. -/
def Receivable (s : SinkState ι) (bs : List UInt8) : Prop :=
  1 ≤ bs.length ∧ ∃ len, offered s.buf = .ok len ∧ (bs.length : ℤ) ≤ len

/-- One connection under arbitrary input. -/
def hostile (w : ι) : TransitionSystem (Outcome ι) (List UInt8) where
  init r := ∃ s, Fresh s ∧ r = .ok .kept s
  step r bs r' := ∃ s, r = .ok .kept s ∧ Receivable s bs ∧
    r' = readCallback w false (.bytes bs) s

/-- The indices are in order, and `Route` was called with lengths that are there. -/
structure InOrder (s : SinkState ι) : Prop where
  /-- `0 <= _tail` -/
  tail_nonneg : 0 ≤ s.buf.tail
  /-- `_tail <= _head` -/
  tail_le_head : s.buf.tail ≤ s.buf.head
  /-- `_head <= _capacity` -/
  head_le_capacity : s.buf.head ≤ s.buf.capacity
  /-- `_size = _head - _tail` -/
  size_eq : s.buf.size = s.buf.head - s.buf.tail
  /-- lengths handed to `Route` -/
  calls : ∀ c ∈ s.calls, 0 ≤ c.length ∧ c.length ≤ c.buffered

/-- What a callback should achieve whatever it receives. -/
def Sound : Outcome ι → Prop
  | .ok _ s => InOrder s
  | .error e s => e ≠ .overflow ∧ InOrder s

/-- The header the chunk leaves behind is one the loop can handle; see `HeaderSafe`. -/
def ChunkSafe : Outcome ι → List UInt8 → Prop
  | .ok _ s, bs => HeaderSafe s.buf.capacity.toNat (wire.rest (s.buf.contents ++ bs))
  | .error _ _, _ => True

/-- A connection between two callbacks: its buffer is a FIFO with room left, and
what was routed is in order. -/
structure BetweenCallbacks (s : SinkState ι) (f : ByteFifo) : Prop where
  /-- the buffer is well formed -/
  represents : s.buf.Represents f
  /-- there is room -/
  room : f.pending.length < f.capacity
  /-- more than a header fits -/
  capacity_gt : 4 < f.capacity
  /-- lengths handed to `Route` -/
  calls : ∀ c ∈ s.calls, 0 ≤ c.length ∧ c.length ≤ c.buffered

theorem BetweenCallbacks.inOrder {s : SinkState ι} {f : ByteFifo} (h : BetweenCallbacks s f) :
    InOrder s :=
  have hwf := h.represents.wellFormed
  ⟨hwf.tail_nonneg, hwf.tail_le, hwf.head_le, hwf.size_eq, h.calls⟩

theorem BetweenCallbacks.of_fresh {s : SinkState ι} (h : Fresh s) :
    BetweenCallbacks s (.empty 102400) := by
  obtain ⟨hnew, hcalls⟩ := h
  obtain ⟨b, hb, hrep, -⟩ := ByteBuffer.new_represents (n := 102400) (by omega) (by omega)
  obtain rfl : b = s.buf := Except.ok.inj (hb.symm.trans hnew)
  refine ⟨hrep, by decide, by decide, ?_⟩
  rw [hcalls]
  exact fun c hc => absurd hc List.not_mem_nil

/-- A chunk that can be received is not empty and fits. -/
theorem BetweenCallbacks.receivable {s : SinkState ι} {f : ByteFifo} {bs : List UInt8}
    (h : BetweenCallbacks s f) (hbs : Receivable s bs) :
    bs ≠ [] ∧ f.pending.length + bs.length ≤ f.capacity := by
  obtain ⟨hpos, len, hoffered, hle⟩ := hbs
  obtain rfl := Except.ok.inj ((offered_eq h.represents).symm.trans hoffered)
  refine ⟨?_, by omega⟩
  rintro rfl
  exact absurd hpos (by decide)

/-- The condition on a chunk, in terms of the FIFO. -/
theorem BetweenCallbacks.chunkSafe_iff {s : SinkState ι} {f : ByteFifo} {bs : List UInt8}
    (h : BetweenCallbacks s f) (k : Connection) :
    ChunkSafe (.ok k s) bs ↔ HeaderSafe f.capacity (wire.rest (f.pending ++ bs)) := by
  rw [ChunkSafe, h.represents.contents_eq, h.represents.capacity_eq, Int.toNat_natCast]

/-- **A callback on a safe chunk** returns, with the connection in order. -/
theorem BetweenCallbacks.safe {s : SinkState ι} {f : ByteFifo} {bs : List UInt8} (w : ι)
    (h : BetweenCallbacks s f) (hbs : Receivable s bs)
    (hsafe : HeaderSafe f.capacity (wire.rest (f.pending ++ bs))) :
    ∃ s' f', readCallback w false (.bytes bs) s = .ok .kept s' ∧ BetweenCallbacks s' f' ∧
      f'.pending = wire.rest (f.pending ++ bs) := by
  obtain ⟨hne, hfit⟩ := h.receivable hbs
  have hcap := h.capacity_gt
  obtain ⟨s', f', cs, hrun, hrep, hpending, hcap', hcalls, -, -, -, hgood⟩ :=
    readCallback_safe (w := w) h.represents hne hfit hsafe
  refine ⟨s', f', hrun, ⟨hrep, ?_, ?_, ?_⟩, hpending⟩
  · rw [hpending, hcap']
    exact room_after hcap (by rwa [List.length_append])
  · rw [hcap']
    exact lt_of_lt_of_le hcap (le_capacityAfter _ _)
  · intro c hc
    rw [hcalls] at hc
    rcases List.mem_append.mp hc with hold | hnew
    · exact h.calls c hold
    · obtain ⟨-, hlen, hle⟩ := hgood c hnew
      exact ⟨by omega, hle⟩

/-- **A callback on any other chunk** goes astray. -/
theorem BetweenCallbacks.not_sound {s : SinkState ι} {f : ByteFifo} {bs : List UInt8} (w : ι)
    (h : BetweenCallbacks s f) (hbs : Receivable s bs)
    (hrisky : ¬ HeaderSafe f.capacity (wire.rest (f.pending ++ bs))) :
    ¬ Sound (readCallback w false (.bytes bs) s) := by
  obtain ⟨hne, hfit⟩ := h.receivable hbs
  obtain ⟨e, s', hrun, hbad⟩ :=
    readCallback_faults (w := w) h.represents hne hfit h.capacity_gt hrisky
  rw [hrun]
  rintro ⟨hoverflow, horder⟩
  -- the capacity could not be doubled, or a negative length was routed
  rcases hbad with ⟨-, heq⟩ | ⟨hint, c, hc, hlen⟩
  · exact hoverflow heq
  · have hneg := CInt.ofUnsigned_neg hint (ntohl_lt _)
    have hnonneg := (horder.calls c hc).1
    omega

/-- States of runs all of whose chunks are safe. -/
theorem BetweenCallbacks.reachable {w : ι} {r : Outcome ι}
    (h : ((hostile w).guarded ChunkSafe).Reachable r) :
    ∃ s f, r = .ok .kept s ∧ BetweenCallbacks s f := by
  refine h.invariant (I := fun r => ∃ s f, r = .ok .kept s ∧ BetweenCallbacks s f) ?_ ?_
  · rintro r ⟨s, hfresh, rfl⟩
    exact ⟨s, _, rfl, .of_fresh hfresh⟩
  · rintro r bs r' - ⟨s, f, rfl, hs⟩ ⟨⟨s₁, heq, hbs, rfl⟩, hsafe⟩
    obtain ⟨-, rfl⟩ := EStateM.Result.ok.inj heq
    rw [hs.chunkSafe_iff] at hsafe
    obtain ⟨s', f', hrun, hs', -⟩ := hs.safe w hbs hsafe
    exact ⟨s', f', hrun, hs'⟩

/-- **When hostile input does no harm**: as long as every chunk of a run is safe, the
connection stays in order; and in each state of such a run, the next callback is
sound exactly if its chunk is safe. -/
theorem sound_iff_headerSafe (w : ι) :
    (∀ r, ((hostile w).guarded ChunkSafe).Reachable r → Sound r) ∧
    (∀ r bs r', ((hostile w).guarded ChunkSafe).Reachable r → (hostile w).step r bs r' →
      (Sound r' ↔ ChunkSafe r bs)) := by
  refine ⟨?_, ?_⟩
  · intro r hr
    obtain ⟨s, f, rfl, hs⟩ := BetweenCallbacks.reachable hr
    exact hs.inOrder
  · rintro r bs r' hr ⟨s, rfl, hbs, rfl⟩
    obtain ⟨s₁, f, heq, hs⟩ := BetweenCallbacks.reachable hr
    obtain ⟨-, rfl⟩ := EStateM.Result.ok.inj heq
    rw [hs.chunkSafe_iff]
    refine ⟨?_, ?_⟩
    · intro hsound
      by_contra hrisky
      exact hs.not_sound w hbs hrisky hsound
    · intro hsafe
      obtain ⟨s', f', hrun, hs', -⟩ := hs.safe w hbs hsafe
      rw [hrun]
      exact hs'.inOrder

/-- There is a connection before its first byte. -/
theorem exists_fresh : ∃ s : SinkState Unit, Fresh s := by
  obtain ⟨b, hb, -, -⟩ := ByteBuffer.new_represents (n := 102400) (by omega) (by omega)
  exact ⟨⟨b, [], [], []⟩, hb, rfl⟩

/-- A fresh connection can receive any few bytes. -/
theorem Fresh.receivable {s : SinkState ι} (h : Fresh s) {bs : List UInt8}
    (hpos : 1 ≤ bs.length) (hle : bs.length ≤ 102400) : Receivable s bs := by
  refine ⟨hpos, _, offered_eq (BetweenCallbacks.of_fresh h).represents, ?_⟩
  have hempty : (ByteFifo.empty 102400).pending.length = 0 := rfl
  have hcap : (ByteFifo.empty 102400).capacity = 102400 := rfl
  rw [hempty, hcap]
  omega

/-- A message of one byte does no harm. -/
theorem sound_one_byte_message :
    ∃ r, ((hostile ()).guarded ChunkSafe).Reachable r ∧
      ∃ r', (hostile ()).step r [0, 0, 0, 1, 9] r' ∧ Sound r' := by
  obtain ⟨s, hfresh⟩ := exists_fresh
  have hs := BetweenCallbacks.of_fresh hfresh
  have hstart : ((hostile ()).guarded ChunkSafe).Reachable (.ok .kept s) :=
    .start ⟨s, hfresh, rfl⟩
  have hstep : (hostile ()).step (.ok .kept s) [0, 0, 0, 1, 9] _ :=
    ⟨s, rfl, hfresh.receivable (by decide) (by decide), rfl⟩
  refine ⟨_, hstart, _, hstep, ((sound_iff_headerSafe ()).2 _ _ _ hstart hstep).mpr ?_⟩
  have hempty : (ByteFifo.empty 102400).pending = [] := rfl
  rw [hs.chunkSafe_iff, hempty, wire.rest_of_ready (by decide), wire.rest_of_not_ready (by decide)]
  exact fun hlong => absurd hlong (by decide)

/-- Four bytes `0xFF` and one more: `Route` is called with the length `-1`. -/
theorem negative_length_routed :
    ∃ r e s, (hostile ()).init r ∧
      (hostile ()).Run r [[255, 255, 255, 255, 0]] (.error e s) ∧
      (∃ c ∈ s.calls, c.length = -1) ∧ ¬ Sound (.error e s) := by
  obtain ⟨s, hfresh⟩ := exists_fresh
  have hs := BetweenCallbacks.of_fresh hfresh
  have hempty : (ByteFifo.empty 102400).pending = [] := rfl
  have hbs : Receivable s [255, 255, 255, 255, 0] :=
    hfresh.receivable (by decide) (by decide)
  obtain ⟨hne, hfit⟩ := hs.receivable hbs
  have hrest : wire.rest ((ByteFifo.empty 102400).pending ++ [255, 255, 255, 255, 0]) =
      [255, 255, 255, 255, 0] := by
    rw [hempty, wire.rest_of_not_ready (by decide)]
    rfl
  obtain ⟨e, s', hrun, ⟨hint, -⟩ | ⟨-, c, hc, hlen⟩⟩ :=
    readCallback_faults (w := ()) hs.represents hne hfit hs.capacity_gt (by
      rw [hrest]
      exact fun hsafe => absurd (hsafe (by decide)).1 (by decide))
  · rw [hrest] at hint
    exact absurd hint (by decide)
  · rw [hrest] at hlen
    have hneg : c.length = -1 := by
      rw [hlen]
      decide
    refine ⟨.ok .kept s, e, s', ⟨s, hfresh, rfl⟩, ?_, ⟨c, hc, hneg⟩, ?_⟩
    · exact .snoc .nil ⟨s, rfl, hbs, hrun.symm⟩
    · rintro ⟨-, horder⟩
      have hnonneg := (horder.calls c hc).1
      omega

end DataSink

end WallMon
