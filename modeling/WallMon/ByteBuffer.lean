import WallMon.CArray
import Mathlib.Order.Nat

/-!
# `ByteBuffer`: the receive buffer of a connection

`ByteBuffer` keeps the bytes received and not yet consumed in a contiguous
region `[tail, head)` of an array of `capacity` bytes. The first part of the
module is the class as written; the second states what it is for, a bounded byte
FIFO (`ByteFifo`), and proves that every operation refines its counterpart
there (`Represents`).

The member functions return `Except Fault`: assertions, `int` arithmetic and
array accesses are all checked.
-/

namespace WallMon

/-- The data members of the class. -/
structure ByteBuffer where
  /-- `_buffer`, an array of `_capacity` bytes -/
  buffer : List UInt8
  /-- `_capacity` -/
  capacity : ℤ
  /-- `_size`, the number of bytes available -/
  size : ℤ
  /-- `_head`, where the next byte is written -/
  head : ℤ
  /-- `_tail`, where the next byte is read -/
  tail : ℤ
  deriving DecidableEq, Repr

namespace ByteBuffer

/-! ## The class -/

/-- `ByteBuffer::ByteBuffer` -/
def new (bufferSize : ℤ) : Except Fault ByteBuffer := do
  let buffer ← CArray.alloc bufferSize
  cassert (bufferSize > 0)
  return { buffer, capacity := bufferSize, size := 0, head := 0, tail := 0 }

/-- `ByteBuffer::Resize` -/
def resize (b : ByteBuffer) (newBufferCapacity : ℤ) : Except Fault ByteBuffer := do
  cassert (newBufferCapacity ≥ b.size)
  let newBuf ← CArray.alloc newBufferCapacity
  cassert (newBufferCapacity > 0)
  -- effectively a defragmentation
  let bytes ← CArray.slice b.buffer b.tail b.size
  let newBuf ← CArray.write newBuf 0 bytes
  return { buffer := newBuf, capacity := newBufferCapacity, size := b.size, head := b.size,
           tail := 0 }

/-- The loop of `Defragment`, from index `i` on for `n` more bytes:
`_buffer[i] = _buffer[_tail + i]`. -/
def copyDown (tail : ℤ) : ℕ → ℕ → List UInt8 → Except Fault (List UInt8)
  | 0, _, buffer => return buffer
  | n + 1, i, buffer => do
    let x ← CArray.get buffer (tail + i)
    let buffer ← CArray.set buffer i x
    copyDown tail n (i + 1) buffer

/-- `ByteBuffer::Defragment` -/
def defragment (b : ByteBuffer) : Except Fault ByteBuffer := do
  let used ← CInt.sub b.head b.tail
  cassert (b.size = used)
  if b.tail = 0 ∨ b.size = b.capacity then
    -- already defragmented or full
    return b
  let buffer ← copyDown b.tail b.size.toNat 0 b.buffer
  return { b with buffer, tail := 0, head := b.size }

/-- `ByteBuffer::GetReadReference`: the memory from the tail on. -/
def getReadReference (b : ByteBuffer) : List UInt8 := b.buffer.drop b.tail.toNat

/-- `ByteBuffer::GetCapacity` -/
def getCapacity (b : ByteBuffer) : ℤ := b.capacity

/-- `ByteBuffer::GetBytesAvailable` -/
def getBytesAvailable (b : ByteBuffer) : ℤ := b.size

/-- `ByteBuffer::GetContinuousBytesLeft` -/
def getContinuousBytesLeft (b : ByteBuffer) : Except Fault ℤ := CInt.sub b.capacity b.head

/-- Bytes stored at `GetWriteReference()`, by a `recv` or a `memcpy`. -/
def store (b : ByteBuffer) (bytes : List UInt8) : Except Fault ByteBuffer := do
  let buffer ← CArray.write b.buffer b.head bytes
  return { b with buffer }

/-- `ByteBuffer::BytesWritten` -/
def bytesWritten (b : ByteBuffer) (size : ℤ) : Except Fault ByteBuffer := do
  let size' ← CInt.add b.size size
  let head' ← CInt.add b.head size
  cassert (size ≤ b.capacity ∧ size' ≥ 0)
  return { b with size := size', head := head' }

/-- `ByteBuffer::BytesRead` -/
def bytesRead (b : ByteBuffer) (size : ℤ) : Except Fault ByteBuffer := do
  let size' ← CInt.sub b.size size
  let tail' ← CInt.add b.tail size
  cassert (size' ≥ 0 ∧ size ≤ b.capacity ∧ tail' ≤ b.head)
  return { b with size := size', tail := tail' }

/-! ## Well-formed buffers -/

/-- The representation invariant: the used region lies in the array. -/
structure WellFormed (b : ByteBuffer) : Prop where
  /-- the region starts in the array -/
  tail_nonneg : 0 ≤ b.tail
  /-- the region is a region -/
  tail_le : b.tail ≤ b.head
  /-- the region ends in the array -/
  head_le : b.head ≤ b.capacity
  /-- its size is tracked -/
  size_eq : b.size = b.head - b.tail
  /-- the array has `_capacity` bytes -/
  length_eq : (b.buffer.length : ℤ) = b.capacity
  /-- `_capacity` is an `int` -/
  capacity_le : b.capacity ≤ 2147483647

/-- The room behind the head. -/
theorem WellFormed.getContinuousBytesLeft {b : ByteBuffer} (h : b.WellFormed) :
    b.getContinuousBytesLeft = .ok (b.capacity - b.head) := by
  obtain ⟨h0, h1, h2, -, -, h5⟩ := h
  exact CInt.sub_ok ⟨by omega, by omega⟩

/-- The bytes received and not yet consumed. -/
def contents (b : ByteBuffer) : List UInt8 :=
  (b.buffer.drop b.tail.toNat).take b.size.toNat

theorem length_contents {b : ByteBuffer} (h : b.WellFormed) :
    (b.contents.length : ℤ) = b.size := by
  obtain ⟨h0, h1, h2, h3, h4, -⟩ := h
  rw [contents, List.length_take, List.length_drop]
  omega

/-- Reading at the read reference sees the contents first. -/
theorem take_getReadReference {b : ByteBuffer} {n : ℕ} (h : (n : ℤ) ≤ b.size) :
    b.getReadReference.take n = b.contents.take n := by
  rw [getReadReference, contents, List.take_take, Nat.min_eq_left (by omega)]

end ByteBuffer

/-! ## What the buffer is for -/

/-- A byte FIFO of bounded capacity: bytes are appended at one end and taken off
at the other. -/
structure ByteFifo where
  /-- the bytes in the FIFO, oldest first -/
  pending : List UInt8
  /-- how many bytes fit -/
  capacity : ℕ
  /-- the bytes fit -/
  fits : pending.length ≤ capacity

namespace ByteFifo

/-- The empty FIFO. -/
def empty (n : ℕ) : ByteFifo := ⟨[], n, Nat.zero_le n⟩

/-- Append bytes for which there is room. -/
def write (f : ByteFifo) (bytes : List UInt8) (h : f.pending.length + bytes.length ≤ f.capacity) :
    ByteFifo where
  pending := f.pending ++ bytes
  capacity := f.capacity
  fits := by rwa [List.length_append]

/-- Take `k` bytes off. -/
def read (f : ByteFifo) (k : ℕ) : ByteFifo where
  pending := f.pending.drop k
  capacity := f.capacity
  fits := by
    rw [List.length_drop]
    exact le_trans (Nat.sub_le _ _) f.fits

/-- Change the capacity, keeping the bytes. -/
def resize (f : ByteFifo) (n : ℕ) (h : f.pending.length ≤ n) : ByteFifo where
  pending := f.pending
  capacity := n
  fits := h

end ByteFifo

namespace ByteBuffer

/-- `b` is a well-formed buffer holding the bytes of the FIFO `f`. -/
structure Represents (b : ByteBuffer) (f : ByteFifo) : Prop where
  /-- the representation invariant -/
  wellFormed : b.WellFormed
  /-- the bytes -/
  contents_eq : b.contents = f.pending
  /-- the capacity -/
  capacity_eq : b.capacity = f.capacity

theorem Represents.size_eq {b : ByteBuffer} {f : ByteFifo} (h : b.Represents f) :
    b.size = f.pending.length := by
  rw [← length_contents h.wellFormed, h.contents_eq]

/-- The bytes of the FIFO lie at the read reference. -/
theorem Represents.take_eq {b : ByteBuffer} {f : ByteFifo} (h : b.Represents f) :
    b.getReadReference.take f.pending.length = f.pending := by
  have hlen : f.pending.length = b.size.toNat := by rw [h.size_eq, Int.toNat_natCast]
  rw [hlen]
  exact h.contents_eq

/-- Buffers with the same fields but for the array, whose used region agrees,
represent the same FIFO. -/
theorem Represents.of_fields {b : ByteBuffer} {f : ByteFifo} (htail : 0 ≤ b.tail)
    (hhead : b.head = b.tail + f.pending.length) (hle : b.head ≤ b.capacity)
    (hsize : b.size = f.pending.length) (hlen : (b.buffer.length : ℤ) = b.capacity)
    (hcap : b.capacity = f.capacity) (hmax : b.capacity ≤ 2147483647)
    (hbytes : (b.buffer.drop b.tail.toNat).take f.pending.length = f.pending) :
    b.Represents f := by
  refine ⟨⟨htail, by omega, hle, by omega, hlen, hmax⟩, ?_, hcap⟩
  rw [contents, hsize, Int.toNat_natCast]
  exact hbytes

/-- **A new buffer is an empty FIFO.** -/
theorem new_represents {n : ℕ} (h : 0 < n) (hmax : n ≤ 2147483647) :
    ∃ b, new n = .ok b ∧ b.Represents (.empty n) ∧ b.tail = 0 := by
  refine ⟨⟨List.replicate n 0, n, 0, 0, 0⟩, ?_, ?_, rfl⟩
  · rw [new, CArray.alloc_ok (by omega), ok_bind, cassert_ok (by omega), ok_bind,
      Int.toNat_natCast]
    rfl
  · exact .of_fields (le_refl _) rfl (by show (0 : ℤ) ≤ n; omega) rfl
      (by rw [List.length_replicate]) rfl (by show (n : ℤ) ≤ 2147483647; omega) rfl

/-- **Storing bytes and accounting for them appends them to the FIFO.** -/
theorem write_represents {b : ByteBuffer} {f : ByteFifo} (h : b.Represents f)
    (bytes : List UInt8) (hroom : b.head + bytes.length ≤ b.capacity)
    (hfit : f.pending.length + bytes.length ≤ f.capacity) :
    ∃ b₁ b₂, b.store bytes = .ok b₁ ∧ b₁.bytesWritten bytes.length = .ok b₂ ∧
      b₂.Represents (f.write bytes hfit) ∧ b₂.tail = b.tail := by
  have hwf := h.wellFormed
  have hsize := h.size_eq
  obtain ⟨h0, h1, h2, h3, h4, h5⟩ := hwf
  have hstore : CArray.write b.buffer b.head bytes = .ok (b.buffer.take b.head.toNat ++ bytes ++
      b.buffer.drop (b.head.toNat + bytes.length)) := CArray.write_ok (by omega) (by omega)
  have hlen := CArray.length_write hstore
  generalize hbuffer : b.buffer.take b.head.toNat ++ bytes ++
    b.buffer.drop (b.head.toNat + bytes.length) = buffer' at hstore hlen
  refine ⟨{ b with buffer := buffer' },
    ⟨buffer', b.capacity, b.size + bytes.length, b.head + bytes.length, b.tail⟩,
    ?_, ?_, ?_, rfl⟩
  · rw [store, hstore, ok_bind]
    rfl
  · rw [bytesWritten, CInt.add_ok ⟨by dsimp only; omega, by dsimp only; omega⟩,
      ok_bind, CInt.add_ok ⟨by dsimp only; omega, by dsimp only; omega⟩, ok_bind,
      cassert_ok ⟨by dsimp only; omega, by dsimp only; omega⟩, ok_bind]
    rfl
  · refine .of_fields h0 ?_ hroom ?_ ?_ h.capacity_eq h5 ?_
    · rw [ByteFifo.write, List.length_append]
      dsimp only
      omega
    · rw [ByteFifo.write, List.length_append]
      dsimp only
      omega
    · dsimp only
      omega
    · -- the old bytes end at the head, where the new ones start
      have hold : (b.buffer.take b.head.toNat).drop b.tail.toNat = f.pending := by
        rw [← h.contents_eq, contents, List.drop_take]
        congr 1
        omega
      have hlt : (b.buffer.take b.head.toNat).length = b.head.toNat := by
        rw [List.length_take]
        omega
      rw [← hbuffer, ByteFifo.write, List.append_assoc,
        List.drop_append_of_le_length (by dsimp only; omega)]
      dsimp only
      rw [hold, ← List.append_assoc, List.take_append_of_le_length (le_refl _),
        List.take_of_length_le (le_refl _)]

/-- **`BytesRead(k)` takes `k` bytes off the FIFO.** -/
theorem bytesRead_represents {b : ByteBuffer} {f : ByteFifo} (h : b.Represents f) {k : ℕ}
    (hk : k ≤ f.pending.length) :
    ∃ b', b.bytesRead k = .ok b' ∧ b'.Represents (f.read k) ∧ b'.buffer = b.buffer := by
  have hsize := h.size_eq
  obtain ⟨h0, h1, h2, h3, h4, h5⟩ := h.wellFormed
  refine ⟨⟨b.buffer, b.capacity, b.size - k, b.head, b.tail + k⟩, ?_, ?_, rfl⟩
  · rw [bytesRead, CInt.sub_ok ⟨by omega, by omega⟩, ok_bind,
      CInt.add_ok ⟨by omega, by omega⟩, ok_bind,
      cassert_ok ⟨by omega, by omega, by omega⟩, ok_bind]
    rfl
  · refine .of_fields (by dsimp only; omega) ?_ h2 ?_ h4 h.capacity_eq h5 ?_
    · rw [ByteFifo.read, List.length_drop]
      dsimp only
      omega
    · rw [ByteFifo.read, List.length_drop]
      dsimp only
      omega
    · have htail : (b.tail + k).toNat = b.tail.toNat + k := by omega
      rw [ByteFifo.read, List.length_drop]
      dsimp only
      rw [htail, ← List.drop_drop, ← List.drop_take]
      exact congrArg (List.drop k) h.take_eq

/-- The `Defragment` loop is a forward move: afterwards the bytes `i .. i+n` are
the old bytes `tail+i .. tail+i+n`, and nothing else changed. -/
theorem copyDown_ok {t : ℕ} (ht : 0 < t) (n : ℕ) :
    ∀ (i : ℕ) (buffer : List UInt8), t + i + n ≤ buffer.length →
      ∃ buffer', copyDown t n i buffer = .ok buffer' ∧ buffer'.length = buffer.length ∧
        ∀ j, buffer'[j]? = if i ≤ j ∧ j < i + n then buffer[t + j]? else buffer[j]? := by
  induction n with
  | zero =>
    intro i buffer _
    refine ⟨buffer, rfl, rfl, fun j => ?_⟩
    rw [if_neg (by omega)]
  | succ n ih =>
    intro i buffer hlen
    have hread : t + i < buffer.length := by omega
    obtain ⟨buffer', hrun, hlen', hget⟩ := ih (i + 1) (buffer.set i buffer[t + i])
      (by rw [List.length_set]; omega)
    refine ⟨buffer', ?_, by rw [hlen', List.length_set], fun j => ?_⟩
    · rw [copyDown, ← Int.natCast_add, CArray.get_ok hread, ok_bind,
        CArray.set_ok _ (by omega), ok_bind]
      exact hrun
    · rw [hget j]
      by_cases hj : j = i
      · -- the byte just copied is not touched again
        subst hj
        rw [if_neg (by omega), if_pos (by omega), List.getElem?_set_self (by omega),
          List.getElem?_eq_getElem hread]
      · by_cases hin : i + 1 ≤ j ∧ j < i + 1 + n
        · rw [if_pos hin, if_pos (by omega), List.getElem?_set_ne (by omega)]
        · rw [if_neg hin, if_neg (by omega), List.getElem?_set_ne (Ne.symm hj)]

/-- **`Defragment` keeps the FIFO**, and moves its bytes to the start. -/
theorem defragment_represents {b : ByteBuffer} {f : ByteFifo} (h : b.Represents f) :
    ∃ b', b.defragment = .ok b' ∧ b'.Represents f ∧ b'.tail = 0 := by
  have hsize := h.size_eq
  obtain ⟨h0, h1, h2, h3, h4, h5⟩ := h.wellFormed
  have hused : CInt.sub b.head b.tail = .ok (b.head - b.tail) :=
    CInt.sub_ok ⟨by omega, by omega⟩
  by_cases hstay : b.tail = 0 ∨ b.size = b.capacity
  · refine ⟨b, ?_, h, ?_⟩
    · rw [defragment, hused, ok_bind, cassert_ok h3, ok_bind, if_pos hstay]
      rfl
    · rcases hstay with ht | hfull
      · exact ht
      · omega
  · have htpos : 0 < b.tail.toNat := by omega
    obtain ⟨buffer', hrun, hlen', hget⟩ :=
      copyDown_ok htpos b.size.toNat 0 b.buffer (by omega)
    have htail : (b.tail.toNat : ℤ) = b.tail := by omega
    refine ⟨{ b with buffer := buffer', tail := 0, head := b.size }, ?_, ?_, rfl⟩
    · rw [defragment, hused, ok_bind, cassert_ok h3, ok_bind, if_neg hstay, ← htail, hrun,
        ok_bind]
      rfl
    · refine .of_fields (le_refl _) (by dsimp only; omega) (by dsimp only; omega) hsize
        (by dsimp only; omega) h.capacity_eq h5 ?_
      rw [← h.contents_eq, contents]
      dsimp only
      apply List.ext_getElem?
      intro j
      rw [List.getElem?_take, List.getElem?_take, List.getElem?_drop, List.getElem?_drop, hget]
      have hn : (List.take b.size.toNat (List.drop b.tail.toNat b.buffer)).length =
          b.size.toNat := by
        rw [List.length_take, List.length_drop]
        omega
      rw [hn]
      by_cases hj : j < b.size.toNat
      · rw [if_pos hj, if_pos hj, if_pos (by omega)]
        simp
      · rw [if_neg hj, if_neg hj]

/-- **`Resize(n)` keeps the bytes** and sets the capacity. -/
theorem resize_represents {b : ByteBuffer} {f : ByteFifo} (h : b.Represents f) {n : ℕ}
    (hpos : 0 < n) (hmax : n ≤ 2147483647) (hn : f.pending.length ≤ n) :
    ∃ b', b.resize n = .ok b' ∧ b'.Represents (f.resize n hn) ∧ b'.tail = 0 := by
  have hsize := h.size_eq
  obtain ⟨h0, h1, h2, h3, h4, h5⟩ := h.wellFormed
  have hslice : CArray.slice b.buffer b.tail b.size = .ok f.pending := by
    rw [CArray.slice_ok h0 (by omega) (by omega), ← h.contents_eq]
    rfl
  have hwrite : CArray.write (List.replicate n 0) 0 f.pending =
      .ok (f.pending ++ List.replicate (n - f.pending.length) 0) := by
    rw [CArray.write_ok (le_refl _) (by rw [List.length_replicate]; omega)]
    simp
  refine ⟨⟨f.pending ++ List.replicate (n - f.pending.length) 0, n, b.size, b.size, 0⟩,
    ?_, ?_, rfl⟩
  · rw [resize, cassert_ok (by omega), ok_bind, CArray.alloc_ok (by omega), ok_bind,
      cassert_ok (by omega), ok_bind, hslice, ok_bind, Int.toNat_natCast, hwrite, ok_bind]
    rfl
  · refine .of_fields (le_refl _) (by dsimp only [ByteFifo.resize]; omega)
      (by dsimp only; omega) hsize ?_ rfl (by dsimp only; omega) ?_
    · simp only [List.length_append, List.length_replicate]
      omega
    · simp [ByteFifo.resize]

end ByteBuffer

end WallMon
