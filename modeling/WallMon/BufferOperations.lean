import Mathlib.Algebra.GroupWithZero.Nat
import WallMon.ByteBuffer

/-!
# Sequences of operations on a `ByteBuffer`

Used as its members say it may be used, a `ByteBuffer` is a byte FIFO, whatever the order of
writes, reads, defragmentations and resizes (`fifo_of_admissible`). Used otherwise, it is up
to the assertions: each must fail or leave the indices in order. `Resize` does that for every
argument, `BytesRead` for those that do not go back before the array, and `BytesWritten`, whose
assertion is about the argument and not about the head, for those that fit behind the head or
not even in the array (`bytesWritten_guarded_iff`).
-/

namespace WallMon

namespace ByteBuffer

/-- `ByteBuffer::GetBytesLeft` -/
def getBytesLeft (b : ByteBuffer) : Except Fault ℤ := CInt.sub b.capacity b.size

/-- What is done with a buffer. -/
inductive Operation where
  /-- bytes are copied to the write reference, then `BytesWritten` -/
  | write (bytes : List UInt8)
  /-- `BytesRead` -/
  | read (k : ℕ)
  /-- `Defragment` -/
  | defragment
  /-- `Resize` -/
  | resize (newBufferCapacity : ℤ)

namespace Operation

/-- An operation on a buffer. -/
def perform (b : ByteBuffer) : Operation → Except Fault ByteBuffer
  | write bytes => do
    let b ← b.store bytes
    b.bytesWritten bytes.length
  | read k => b.bytesRead k
  | defragment => b.defragment
  | resize newBufferCapacity => b.resize newBufferCapacity

/-- What the members ask of their callers; sizes are `int`s. -/
def Admissible (b : ByteBuffer) : Operation → Prop
  | write bytes => ∃ left, b.getContinuousBytesLeft = .ok left ∧ bytes.length ≤ left
  | read k => k ≤ b.getBytesAvailable
  | defragment => True
  | resize newBufferCapacity => 0 < newBufferCapacity ∧ CInt.InRange newBufferCapacity ∧
      b.getBytesAvailable ≤ newBufferCapacity

/-- The bytes it writes. -/
def written : Operation → List UInt8
  | write bytes => bytes
  | _ => []

/-- How many bytes it reads. -/
def consumed : Operation → ℕ
  | read k => k
  | _ => 0

/-- It moves the bytes to the beginning of the array. -/
def Compacts : Operation → Prop
  | defragment => True
  | resize _ => True
  | _ => False

end Operation

/-- Each operation is admissible where it is performed. -/
def AllAdmissible : ByteBuffer → List Operation → Prop
  | _, [] => True
  | b, op :: ops => op.Admissible b ∧ ∀ b', op.perform b = .ok b' → AllAdmissible b' ops

/-- A sequence of operations. -/
def performAll (b : ByteBuffer) (ops : List Operation) : Except Fault ByteBuffer :=
  ops.foldlM Operation.perform b

/-- The bytes at the read reference are those written and not yet read, in order, and the
indices are in order. -/
structure IsFifo (b : ByteBuffer) (written : List UInt8) (consumed : ℕ) : Prop where
  /-- the bytes -/
  bytes_eq : b.getReadReference.take b.getBytesAvailable.toNat = written.drop consumed
  /-- their number -/
  available_eq : b.getBytesAvailable = written.length - consumed
  /-- the indices -/
  wellFormed : b.WellFormed

theorem WellFormed.getBytesLeft {b : ByteBuffer} (h : b.WellFormed) :
    b.getBytesLeft = .ok (b.capacity - b.size) := by
  obtain ⟨h0, h1, h2, h3, -, h5⟩ := h
  exact CInt.sub_ok ⟨by omega, by omega⟩

/-- **One operation**: it goes through, and the FIFO has what it should. -/
theorem perform_represents {b : ByteBuffer} {f : ByteFifo} (h : b.Represents f) {op : Operation}
    (hop : op.Admissible b) :
    ∃ b' f', op.perform b = .ok b' ∧ b'.Represents f' ∧
      f'.pending = (f.pending ++ op.written).drop op.consumed ∧
      op.consumed ≤ f.pending.length ∧ (op.Compacts → b'.tail = 0) := by
  have hsize := h.size_eq
  cases op with
  | write bytes =>
    obtain ⟨left, hleft, hle⟩ := hop
    rw [h.wellFormed.getContinuousBytesLeft] at hleft
    obtain rfl := Except.ok.inj hleft
    have hcapacity := h.capacity_eq
    have hwf := h.wellFormed
    obtain ⟨b₁, b₂, hstore, hrun, hrep, -⟩ := write_represents h bytes (by omega)
      (by have := hwf.tail_nonneg; have := hwf.size_eq; omega)
    refine ⟨b₂, _, ?_, hrep, rfl, Nat.zero_le _, fun hcompacts => hcompacts.elim⟩
    rw [Operation.perform, hstore]
    exact hrun
  | read k =>
    have hk : k ≤ f.pending.length := by
      have hle : (k : ℤ) ≤ b.size := hop
      omega
    obtain ⟨b', hrun, hrep, -⟩ := bytesRead_represents h hk
    refine ⟨b', _, hrun, hrep, ?_, hk, fun hcompacts => hcompacts.elim⟩
    show f.pending.drop k = (f.pending ++ []).drop k
    rw [List.append_nil]
  | defragment =>
    obtain ⟨b', hrun, hrep, htail⟩ := defragment_represents h
    exact ⟨b', f, hrun, hrep, (List.append_nil _).symm, Nat.zero_le _, fun _ => htail⟩
  | resize newBufferCapacity =>
    obtain ⟨hpos, hrange, hle⟩ := hop
    obtain ⟨n, rfl⟩ := Int.eq_ofNat_of_zero_le hpos.le
    have hn : f.pending.length ≤ n := by
      have hle : b.size ≤ n := hle
      omega
    obtain ⟨b', hrun, hrep, htail⟩ :=
      resize_represents h (Int.natCast_pos.mp hpos) (Int.ofNat_le.mp hrange.2) hn
    exact ⟨b', _, hrun, hrep, (List.append_nil _).symm, Nat.zero_le _, fun _ => htail⟩

/-- **A sequence of operations**: it goes through, the FIFO has what was in it and what was
written, less what was read, and after `Defragment` and `Resize` it starts at the beginning. -/
theorem performAll_represents {ops : List Operation} {b : ByteBuffer} {f : ByteFifo}
    (h : b.Represents f) (hops : b.AllAdmissible ops) :
    ∃ b' f', b.performAll ops = .ok b' ∧ b'.Represents f' ∧
      f'.pending = (f.pending ++ ops.flatMap Operation.written).drop
        (ops.map Operation.consumed).sum ∧
      (ops.map Operation.consumed).sum ≤ f.pending.length +
        (ops.flatMap Operation.written).length ∧
      ∀ op, ops.getLast? = some op → op.Compacts → b'.tail = 0 := by
  induction ops generalizing b f with
  | nil =>
    exact ⟨b, f, rfl, h, (List.append_nil _).symm, Nat.zero_le _, fun _ hlast => nomatch hlast⟩
  | cons op ops ih =>
    obtain ⟨b₁, f₁, hrun, hrep, hpending, hconsumed, htail⟩ := perform_represents h hops.1
    obtain ⟨b', f', hruns, hrep', hpending', hconsumed', htail'⟩ := ih hrep (hops.2 b₁ hrun)
    refine ⟨b', f', ?_, hrep', ?_, ?_, ?_⟩
    · rw [performAll, List.foldlM_cons, hrun]
      exact hruns
    · have hle : op.consumed ≤ (f.pending ++ op.written).length := by
        rw [List.length_append]
        exact Nat.le_add_right_of_le hconsumed
      rw [hpending', hpending, List.flatMap_cons, List.map_cons, List.sum_cons, ← List.drop_drop,
        ← List.append_assoc, List.drop_append_of_le_length hle]
    · rw [hpending, List.length_drop, List.length_append] at hconsumed'
      rw [List.flatMap_cons, List.map_cons, List.sum_cons, List.length_append]
      omega
    · intro last hlast hcompacts
      cases ops with
      | nil =>
        obtain rfl := Option.some.inj hlast
        obtain rfl := Except.ok.inj hruns
        exact htail hcompacts
      | cons op' ops =>
        rw [List.getLast?_cons_cons] at hlast
        exact htail' last hlast hcompacts

/-- **A byte FIFO**: from a new buffer, every sequence of operations that are admissible where
they come goes through, with the bytes written and not yet read at the read reference; and
after `Defragment` and `Resize` all the room is behind the head. -/
theorem fifo_of_admissible (capacity : ℤ) (hpos : 0 < capacity) (hint : CInt.InRange capacity) :
    ∃ b₀, new capacity = .ok b₀ ∧ ∀ ops, b₀.AllAdmissible ops →
      ∃ b, b₀.performAll ops = .ok b ∧
        b.IsFifo (ops.flatMap Operation.written) (ops.map Operation.consumed).sum ∧
        ∀ op, ops.getLast? = some op → op.Compacts →
          b.getContinuousBytesLeft = b.getBytesLeft := by
  obtain ⟨n, rfl⟩ := Int.eq_ofNat_of_zero_le hpos.le
  obtain ⟨b₀, hnew, hrep₀, -⟩ :=
    new_represents (Int.natCast_pos.mp hpos) (Int.ofNat_le.mp hint.2)
  refine ⟨b₀, hnew, fun ops hops => ?_⟩
  obtain ⟨b, f, hrun, hrep, hpending, hconsumed, htail⟩ := performAll_represents hrep₀ hops
  have hempty : (ByteFifo.empty n).pending = [] := rfl
  rw [hempty, List.nil_append] at hpending
  rw [hempty, List.length_nil, Nat.zero_add] at hconsumed
  have hsize := hrep.size_eq
  refine ⟨b, hrun, ⟨?_, ?_, hrep.wellFormed⟩, fun op hlast hcompacts => ?_⟩
  · rw [← hpending, ← hrep.contents_eq]
    rfl
  · rw [getBytesAvailable, hsize, hpending, List.length_drop]
    omega
  · have htail := htail op hlast hcompacts
    have hused := hrep.wellFormed.size_eq
    rw [hrep.wellFormed.getContinuousBytesLeft, hrep.wellFormed.getBytesLeft, hused, htail,
      Int.sub_zero]

/-- Bytes are written, read in part, moved to the beginning, and more are written. -/
theorem fifo_of_admissible_four : ∃ b₀ b, new 4 = .ok b₀ ∧
    b₀.performAll [.write [1, 2, 3], .read 2, .defragment, .write [4, 5, 6]] = .ok b ∧
      b.IsFifo [1, 2, 3, 4, 5, 6] 2 := by
  obtain ⟨b₀, hnew, hall⟩ := fifo_of_admissible 4 (by decide) (by decide)
  obtain ⟨b, hrun, hfifo, -⟩ :=
    hall [.write [1, 2, 3], .read 2, .defragment, .write [4, 5, 6]] (by
      obtain rfl := Except.ok.inj hnew
      refine ⟨⟨4, rfl, by decide⟩, fun b hb => ?_⟩
      obtain rfl := Except.ok.inj hb
      refine ⟨show (2 : ℤ) ≤ 3 by decide, fun b hb => ?_⟩
      obtain rfl := Except.ok.inj hb
      refine ⟨trivial, fun b hb => ?_⟩
      obtain rfl := Except.ok.inj hb
      exact ⟨⟨3, rfl, by decide⟩, fun _ _ => trivial⟩)
  exact ⟨b₀, b, hnew, hrun, hfifo⟩

/-! ## The assertions -/

/-- The call ends in a failed assertion, or leaves the indices in order. -/
def Guarded (call : Except Fault ByteBuffer) : Prop :=
  call = .error .assertion ∨ ∃ b, call = .ok b ∧ b.WellFormed

@[simp] theorem guarded_ok {b : ByteBuffer} : Guarded (.ok b) ↔ b.WellFormed := by
  simp [Guarded]

@[simp] theorem guarded_assertion : Guarded (.error .assertion) := .inl rfl

@[simp] theorem not_guarded_overflow : ¬Guarded (.error .overflow) := by
  simp [Guarded]

variable {b : ByteBuffer}

/-- `Resize`, with its two assertions on the argument first. -/
theorem resize_assertion {newBufferCapacity : ℤ}
    (h : newBufferCapacity < b.size ∨ newBufferCapacity ≤ 0 ∧ 0 ≤ newBufferCapacity) :
    b.resize newBufferCapacity = .error .assertion := by
  rw [resize]
  by_cases hsize : newBufferCapacity ≥ b.size
  · have hzero := h.resolve_left (by omega)
    rw [cassert_ok hsize, ok_bind, CArray.alloc_ok hzero.2, ok_bind, cassert_failed (by omega)]
    rfl
  · rw [cassert_failed hsize]
    rfl

/-- `Resize` is guarded for every argument. -/
theorem resize_guarded (h : b.WellFormed) {newBufferCapacity : ℤ}
    (hint : CInt.InRange newBufferCapacity) : Guarded (b.resize newBufferCapacity) := by
  have hlength := length_contents h
  obtain ⟨htail, hle, hcap, hused, hcapacity, -⟩ := id h
  by_cases hargument : b.size ≤ newBufferCapacity ∧ 0 < newBufferCapacity
  · obtain ⟨n, rfl⟩ := Int.eq_ofNat_of_zero_le hargument.2.le
    have hrep : b.Represents ⟨b.contents, b.buffer.length, by omega⟩ := ⟨h, rfl, hcapacity.symm⟩
    obtain ⟨b', hrun, hrep', -⟩ := resize_represents hrep (Int.natCast_pos.mp hargument.2)
      (Int.ofNat_le.mp hint.2) (by dsimp only; omega)
    exact .inr ⟨b', hrun, hrep'.wellFormed⟩
  · rw [resize_assertion (by omega)]
    exact guarded_assertion

/-- `BytesWritten`, with its assertion on the argument after the additions. -/
theorem bytesWritten_eq (b : ByteBuffer) (size : ℤ) :
    b.bytesWritten size =
      if ¬CInt.InRange (b.size + size) ∨ ¬CInt.InRange (b.head + size) then .error .overflow
      else if size ≤ b.capacity ∧ b.size + size ≥ 0 then
        .ok { b with size := b.size + size, head := b.head + size }
      else .error .assertion := by
  by_cases hsize : CInt.InRange (b.size + size)
  · by_cases hhead : CInt.InRange (b.head + size)
    · rw [if_neg (by simp [hsize, hhead]), bytesWritten, CInt.add_ok hsize, ok_bind,
        CInt.add_ok hhead, ok_bind]
      by_cases hassert : size ≤ b.capacity ∧ b.size + size ≥ 0
      · rw [if_pos hassert, cassert_ok hassert]
        rfl
      · rw [if_neg hassert, cassert_failed hassert]
        rfl
    · rw [if_pos (.inr hhead), bytesWritten, CInt.add_ok hsize, ok_bind, CInt.add_overflow hhead]
      rfl
  · rw [if_pos (.inl hsize), bytesWritten, CInt.add_overflow hsize]
    rfl

/-- `BytesRead`, with its assertion after the updates. -/
theorem bytesRead_eq (b : ByteBuffer) (size : ℤ) :
    b.bytesRead size =
      if ¬CInt.InRange (b.size - size) ∨ ¬CInt.InRange (b.tail + size) then .error .overflow
      else if b.size - size ≥ 0 ∧ size ≤ b.capacity ∧ b.tail + size ≤ b.head then
        .ok { b with size := b.size - size, tail := b.tail + size }
      else .error .assertion := by
  by_cases hsize : CInt.InRange (b.size - size)
  · by_cases htail : CInt.InRange (b.tail + size)
    · rw [if_neg (by simp [hsize, htail]), bytesRead, CInt.sub_ok hsize, ok_bind,
        CInt.add_ok htail, ok_bind]
      by_cases hassert : b.size - size ≥ 0 ∧ size ≤ b.capacity ∧ b.tail + size ≤ b.head
      · rw [if_pos hassert, cassert_ok hassert]
        rfl
      · rw [if_neg hassert, cassert_failed hassert]
        rfl
    · rw [if_pos (.inr htail), bytesRead, CInt.sub_ok hsize, ok_bind, CInt.add_overflow htail]
      rfl
  · rw [if_pos (.inl hsize), bytesRead, CInt.sub_overflow hsize]
    rfl

/-- The indices after an update. -/
theorem WellFormed.update_iff (h : b.WellFormed) {size head tail : ℤ} :
    ({ b with size, head, tail } : ByteBuffer).WellFormed ↔
      0 ≤ tail ∧ tail ≤ head ∧ head ≤ b.capacity ∧ size = head - tail :=
  ⟨fun h' => ⟨h'.tail_nonneg, h'.tail_le, h'.head_le, h'.size_eq⟩,
    fun ⟨h0, h1, h2, h3⟩ => ⟨h0, h1, h2, h3, h.length_eq, h.capacity_le⟩⟩

/-- `BytesWritten` is guarded exactly if the bytes fit behind the head, or are more than the
whole array holds. -/
theorem bytesWritten_guarded_iff (h : b.WellFormed) {size : ℤ} (hint : CInt.InRange size) :
    Guarded (b.bytesWritten size) ↔
      b.head + size ≤ b.capacity ∨ b.capacity < size ∧ b.head + size ≤ 2147483647 := by
  obtain ⟨htail, hle, hcap, hused, -, hmax⟩ := id h
  obtain ⟨hmin, -⟩ := hint
  rw [bytesWritten_eq]
  split
  · next hoverflow =>
    simp only [CInt.InRange] at hoverflow
    exact iff_of_false not_guarded_overflow (by omega)
  · next hrange =>
    simp only [CInt.InRange] at hrange
    split
    · rw [guarded_ok, h.update_iff]
      omega
    · exact iff_of_true guarded_assertion (by omega)

/-- `BytesRead` is guarded exactly if the tail stays in the array's `int`s. -/
theorem bytesRead_guarded_iff (h : b.WellFormed) {size : ℤ} (hint : CInt.InRange size) :
    Guarded (b.bytesRead size) ↔ 0 ≤ b.tail + size ∧ b.tail + size ≤ 2147483647 := by
  obtain ⟨htail, hle, hcap, hused, -, hmax⟩ := id h
  obtain ⟨hmin, hmax'⟩ := hint
  rw [bytesRead_eq]
  split
  · next hoverflow =>
    simp only [CInt.InRange] at hoverflow
    exact iff_of_false not_guarded_overflow (by omega)
  · next hrange =>
    simp only [CInt.InRange] at hrange
    split
    · rw [guarded_ok, h.update_iff]
      omega
    · exact iff_of_true guarded_assertion (by omega)

/-- **The assertions**: those of `Resize` guard the indices against every argument, those of
`BytesWritten` and `BytesRead` against these. -/
theorem guarded_iff (h : b.WellFormed) (size : ℤ) (hint : CInt.InRange size) :
    Guarded (b.resize size) ∧
    (Guarded (b.bytesWritten size) ↔
      b.head + size ≤ b.capacity ∨ b.capacity < size ∧ b.head + size ≤ 2147483647) ∧
    (Guarded (b.bytesRead size) ↔ 0 ≤ b.tail + size ∧ b.tail + size ≤ 2147483647) :=
  ⟨resize_guarded h hint, bytesWritten_guarded_iff h hint, bytesRead_guarded_iff h hint⟩

/-- A buffer of four bytes with two of them used. -/
def halfFull : ByteBuffer where
  buffer := [1, 2, 3, 4]
  capacity := 4
  size := 2
  head := 3
  tail := 1

theorem halfFull_wellFormed : halfFull.WellFormed := by
  constructor <;> decide

/-- One byte fits behind the head, and one can be read. -/
theorem guarded_halfFull :
    Guarded (halfFull.bytesWritten 1) ∧ Guarded (halfFull.bytesRead 1) := by
  have hguarded := guarded_iff halfFull_wellFormed 1 (by decide)
  exact ⟨hguarded.2.1.mpr (by decide), hguarded.2.2.mpr (by decide)⟩

/-- Two bytes do not fit, and the assertion lets them through; nor does it stop a read that
goes back before the array. -/
theorem not_guarded_halfFull :
    halfFull.WellFormed ∧ ¬Guarded (halfFull.bytesWritten 2) ∧
      ¬Guarded (halfFull.bytesRead (-2)) := by
  refine ⟨halfFull_wellFormed, fun hwritten => ?_, fun hread => ?_⟩
  · exact absurd (guarded_ok.mp hwritten).head_le (by decide)
  · exact absurd (guarded_ok.mp hread).tail_nonneg (by decide)

end ByteBuffer

end WallMon
