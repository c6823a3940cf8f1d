import WallMon.ByteBuffer
import WallMon.StreamItem

/-!
# `DataSink::_ReadCallback` and `DataRouter::Route`

The server keeps one `ByteBuffer` per client connection. Whenever a socket is
readable, `_ReadCallback` receives into the buffer and routes every message that
is complete in it. The first part is the callback as written; the second gives
its meaning on the FIFO the buffer represents: the messages routed are those the
one-shot decoder of the wire format finds, provided no header lies outside what
the `int` arithmetic of the loop can handle (`HeadersSafe`).

`calls` is a history variable: the calls made to `DataRouter::Route`, with what
the argument pointer and the length were and how many bytes were buffered behind
the header at that moment. So is `resizes`: the calls of `ByteBuffer::Resize`, each
with the number of calls of `Route` before it.
-/

namespace WallMon

/-- A copy of a message on its way to the router thread. -/
structure RouterItem where
  /-- `length` -/
  length : ℤ
  /-- `message`, an array of `length` bytes -/
  message : List UInt8

/-- The constructor of `RouterItem`. -/
def RouterItem.new (messageLength : ℤ) : Except Fault RouterItem := do
  let message ← CArray.alloc messageLength
  return { length := messageLength, message }

/-- One call of `DataRouter::Route`. -/
structure RouteCall (ι : Type) where
  /-- the connection the call was made for -/
  watcher : ι
  /-- the memory from the pointer argument on -/
  message : List UInt8
  /-- the length argument -/
  length : ℤ
  /-- the bytes buffered behind the header when the call was made -/
  buffered : ℤ

/-- The payload a call hands over. -/
def RouteCall.payload {ι : Type} (c : RouteCall ι) : List UInt8 :=
  c.message.take c.length.toNat

/-- The items the router's queue gets for a call: a copy of the payload, and
nothing for an empty one. -/
def RouteCall.items {ι : Type} (c : RouteCall ι) : List RouterItem :=
  if c.length = 0 then [] else [⟨c.length, c.payload⟩]

/-- What the callback reads and writes: the buffer in `watcher.data` and the
router. -/
structure SinkState (ι : Type) where
  /-- the `ByteBuffer` of the connection -/
  buf : ByteBuffer
  /-- the items in the router's queue -/
  queue : List RouterItem
  /-- history: the calls of `DataRouter::Route` -/
  calls : List (RouteCall ι)
  /-- history: the calls of `Resize`, each with the number of calls of `Route` before it -/
  resizes : List ℕ

/-- Computations of the callback. A fault keeps the state it happened in. -/
abbrev SinkM (ι α : Type) := EStateM Fault (SinkState ι) α

/-- The outcome of `recv`. -/
inductive RecvResult where
  /-- these bytes were received -/
  | bytes (bs : List UInt8)
  /-- the peer closed the connection -/
  | closed
  /-- `-1` -/
  | error
  deriving DecidableEq, Repr

/-- `recv`'s result after its conversion to `unsigned int`. -/
def RecvResult.numBytesReceived : RecvResult → ℕ
  | .bytes bs => bs.length
  | .closed => 0
  | .error => 4294967295

/-- What `recv` stored in the buffer. -/
def RecvResult.stored : RecvResult → List UInt8
  | .bytes bs => bs
  | .closed => []
  | .error => []

/-- What the callback did with the connection. -/
inductive Connection where
  /-- it stays open -/
  | kept
  /-- `_DeleteAndCleanupWatcher` closed it -/
  | deleted
  deriving DecidableEq, Repr

namespace DataSink

variable {ι : Type}

/-- `RECEIVE_BUF_START_SIZE` -/
def receiveBufStartSize : ℕ := 1024 * 100

/-- Run a member function of the buffer. -/
def onBuf (f : ByteBuffer → Except Fault ByteBuffer) : SinkM ι Unit := fun s =>
  match f s.buf with
  | .ok buf => .ok () { s with buf }
  | .error e => .error e s

/-- Evaluate an `int` expression. -/
def eval (e : Except Fault ℤ) : SinkM ι ℤ := fun s =>
  match e with
  | .ok z => .ok z s
  | .error e => .error e s

/-- `DataRouter::Route(buf->GetReadReference(), length)`, called for `watcher`. -/
def route (watcher : ι) (length : ℤ) : SinkM ι Unit := fun s =>
  let message := s.buf.getReadReference
  let s := { s with calls := s.calls ++ [⟨watcher, message, length, s.buf.getBytesAvailable⟩] }
  if length = 0 then
    -- "invalid message"
    .ok () s
  else
    let item : Except Fault RouterItem := do
      let item ← RouterItem.new length
      let bytes ← CArray.slice message 0 length
      let copy ← CArray.write item.message 0 bytes
      return { item with message := copy }
    match item with
    | .ok item => .ok () { s with queue := s.queue ++ [item] }
    | .error e => .error e s

/-- `buf->Resize(n)` -/
def resize (n : ℤ) : SinkM ι Unit := do
  modify fun s => { s with resizes := s.resizes ++ [s.calls.length] }
  onBuf (·.resize n)

/-- The current buffer is too small: double the capacity at a minimum, and wait
until the next read on the socket. -/
def growBuffer (messageLength : ℤ) : SinkM ι Unit := do
  let doubled ← eval (CInt.mul (← get).buf.getCapacity 2)
  if messageLength > doubled then
    resize messageLength
  else
    resize doubled

/-- `int messageLength = ntohl(*((unsigned int *) buf->GetReadReference()))` -/
def messageLength (buf : ByteBuffer) : ℤ := CInt.ofUnsigned (ntohl buf.getReadReference)

/-- One evaluation of the loop condition and, if it holds, of the loop body.
`true` means that the loop goes round again. -/
def readStep (watcher : ι) : SinkM ι Bool := do
  let buf := (← get).buf
  if buf.getBytesAvailable ≤ 4 then
    return false
  else
    let limit ← eval (CInt.sub buf.getCapacity 4)
    if messageLength buf > limit then
      -- the message may be here in part; its header is read again next time
      growBuffer (messageLength buf)
      return false
    else
      let behindHeader ← eval (CInt.sub buf.getBytesAvailable 4)
      if behindHeader < messageLength buf then
        -- fragmented packet, wait until next event
        return false
      else
        onBuf (·.bytesRead 4)
        route watcher (messageLength buf)
        onBuf (·.bytesRead (messageLength buf))
        return true

/-- The `while` loop, with fuel. -/
def readLoop (watcher : ι) : ℕ → SinkM ι Unit
  | 0 => throw .outOfFuel
  | fuel + 1 => do
    if ← readStep watcher then
      readLoop watcher fuel

/-- `DataSink::_ReadCallback`. `evError` is `EV_ERROR & revents`; `received` is
what `recv`, offered the contiguous space left, did. Every round of the loop
takes at least a header off, so the bytes available bound the rounds. -/
def readCallback (watcher : ι) (evError : Bool) (received : RecvResult) :
    SinkM ι Connection := do
  if evError then
    return .kept
  onBuf (·.defragment)
  let _len ← eval ((← get).buf.getContinuousBytesLeft)
  onBuf (·.store received.stored)
  let numBytesReceived := received.numBytesReceived
  onBuf (·.bytesWritten (CInt.ofUnsigned numBytesReceived))
  if numBytesReceived < 0 then
    -- never: `numBytesReceived` is unsigned
    return .kept
  if numBytesReceived ≤ 0 then
    return .deleted
  readLoop watcher ((← get).buf.getBytesAvailable.toNat + 1)
  return .kept

/-! ### Running the callback -/

/-- Sequencing after a computation that returned. -/
theorem bind_ok {α β : Type} {x : SinkM ι α} {f : α → SinkM ι β} {s s' : SinkState ι} {a : α}
    (h : x s = .ok a s') : (x >>= f) s = f a s' := by
  change EStateM.bind x f s = _
  rw [EStateM.bind, h]

/-- Sequencing after a computation that faulted. -/
theorem bind_error {α β : Type} {x : SinkM ι α} {f : α → SinkM ι β} {s s' : SinkState ι}
    {e : Fault} (h : x s = .error e s') : (x >>= f) s = .error e s' := by
  change EStateM.bind x f s = _
  rw [EStateM.bind, h]

@[simp] theorem get_bind {β : Type} (f : SinkState ι → SinkM ι β) (s : SinkState ι) :
    (get >>= f) s = f s s := rfl

theorem onBuf_ok {f : ByteBuffer → Except Fault ByteBuffer} {s : SinkState ι} {b : ByteBuffer}
    (h : f s.buf = .ok b) : onBuf f s = .ok () { s with buf := b } := by
  rw [onBuf, h]

/-- A call of `Resize` that returns, with its record in the history. -/
theorem resize_ok {n : ℤ} {s : SinkState ι} {b : ByteBuffer} (h : s.buf.resize n = .ok b) :
    resize n s = .ok () { s with buf := b, resizes := s.resizes ++ [s.calls.length] } := by
  have hnote : (modify fun s => { s with resizes := s.resizes ++ [s.calls.length] } :
      SinkM ι Unit) s = .ok () { s with resizes := s.resizes ++ [s.calls.length] } := rfl
  rw [resize, bind_ok hnote]
  exact onBuf_ok h

theorem eval_ok {e : Except Fault ℤ} {z : ℤ} (h : e = .ok z) (s : SinkState ι) :
    eval e s = .ok z s := by
  rw [h]
  rfl

theorem eval_error {e : Except Fault ℤ} {f : Fault} (h : e = .error f) (s : SinkState ι) :
    eval e s = .error f s := by
  rw [h]
  rfl

/-- Nothing but a header, or less: the loop ends. -/
theorem readStep_short {w : ι} {s : SinkState ι} (h : s.buf.getBytesAvailable ≤ 4) :
    readStep w s = .ok false s := by
  rw [readStep, get_bind, if_pos h]
  rfl

/-- A message that does not fit: the buffer is to grow. -/
theorem readStep_big {w : ι} {s : SinkState ι} (h : ¬ s.buf.getBytesAvailable ≤ 4)
    (hcap : CInt.InRange (s.buf.getCapacity - 4))
    (hbig : messageLength s.buf > s.buf.getCapacity - 4) :
    readStep w s = (growBuffer (messageLength s.buf) >>= fun _ => pure false) s := by
  rw [readStep, get_bind, if_neg h, bind_ok (eval_ok (CInt.sub_ok hcap) s), if_pos hbig]

/-- A message that fits the buffer and is not complete: the loop ends. -/
theorem readStep_fragment {w : ι} {s : SinkState ι} (h : ¬ s.buf.getBytesAvailable ≤ 4)
    (hcap : CInt.InRange (s.buf.getCapacity - 4))
    (hsize : CInt.InRange (s.buf.getBytesAvailable - 4))
    (hbig : ¬ messageLength s.buf > s.buf.getCapacity - 4)
    (hfrag : s.buf.getBytesAvailable - 4 < messageLength s.buf) :
    readStep w s = .ok false s := by
  rw [readStep, get_bind, if_neg h, bind_ok (eval_ok (CInt.sub_ok hcap) s), if_neg hbig,
    bind_ok (eval_ok (CInt.sub_ok hsize) s), if_pos hfrag]
  rfl

/-- A message taken for complete: its header is read, and it is routed. -/
theorem readStep_complete {w : ι} {s : SinkState ι} (h : ¬ s.buf.getBytesAvailable ≤ 4)
    (hcap : CInt.InRange (s.buf.getCapacity - 4))
    (hsize : CInt.InRange (s.buf.getBytesAvailable - 4))
    (hbig : ¬ messageLength s.buf > s.buf.getCapacity - 4)
    (hfrag : ¬ s.buf.getBytesAvailable - 4 < messageLength s.buf) {b : ByteBuffer}
    (hread : s.buf.bytesRead 4 = .ok b) :
    readStep w s =
      (route w (messageLength s.buf) >>= fun _ =>
        onBuf (·.bytesRead (messageLength s.buf)) >>= fun _ => pure true)
        { s with buf := b } := by
  rw [readStep, get_bind, if_neg h, bind_ok (eval_ok (CInt.sub_ok hcap) s), if_neg hbig,
    bind_ok (eval_ok (CInt.sub_ok hsize) s), if_neg hfrag, bind_ok (onBuf_ok hread)]

/-! ### The loop on the FIFO the buffer represents -/

/-- The record of a call of `Route` made now. -/
def callNow (w : ι) (s : SinkState ι) (length : ℤ) : RouteCall ι :=
  ⟨w, s.buf.getReadReference, length, s.buf.getBytesAvailable⟩

theorem route_ok {w : ι} {s : SinkState ι} {n : ℕ} (h : n ≤ s.buf.getReadReference.length) :
    route w n s =
      .ok () { s with calls := s.calls ++ [callNow w s n],
                      queue := s.queue ++ (callNow w s n).items } := by
  rw [route]
  dsimp only
  by_cases hn : (n : ℤ) = 0
  · rw [if_pos hn, RouteCall.items, callNow, if_pos hn, List.append_nil]
  · have hslice : CArray.slice s.buf.getReadReference 0 n =
        .ok (s.buf.getReadReference.take n) := by
      rw [CArray.slice_ok (le_refl _) (by omega) (by omega)]
      rfl
    have hwrite : CArray.write (List.replicate n 0) 0 (s.buf.getReadReference.take n) =
        .ok (s.buf.getReadReference.take n) := by
      rw [CArray.write_ok (le_refl _) (by rw [List.length_replicate, List.length_take]; omega)]
      simp [Nat.min_eq_left h]
    rw [if_neg hn, RouterItem.new, CArray.alloc_ok (by omega), ok_bind, Int.toNat_natCast]
    simp only [pure, Except.pure, ok_bind, hslice, hwrite]
    rw [RouteCall.items, callNow, if_neg hn, RouteCall.payload, Int.toNat_natCast]

/-- `Route` with a negative length: `new char[length]` throws. -/
theorem route_neg {w : ι} {s : SinkState ι} {z : ℤ} (h : z < 0) :
    route w z s = .error .badAlloc { s with calls := s.calls ++ [callNow w s z] } := by
  rw [route]
  dsimp only
  rw [if_neg (by omega), RouterItem.new, CArray.alloc_neg h, error_bind, error_bind]
  rfl

variable {w : ι} {s : SinkState ι} {f : ByteFifo}

/-- With a header buffered, the loop reads the length the wire format announces,
as an `int`. -/
theorem messageLength_eq {b : ByteBuffer} (h : b.Represents f) (hlen : 4 ≤ f.pending.length) :
    messageLength b = CInt.ofUnsigned (ntohl f.pending) := by
  have hsize := h.size_eq
  have htake : b.getReadReference.take 4 = f.pending.take 4 := by
    rw [ByteBuffer.take_getReadReference (by omega), h.contents_eq]
  rw [messageLength, ← ntohl_take b.getReadReference, htake, ntohl_take]

/-- A header below `2^31` is the length that the loop reads. -/
theorem messageLength_small {b : ByteBuffer} (h : b.Represents f) (hlen : 4 ≤ f.pending.length)
    (hint : ntohl f.pending < 2147483648) : messageLength b = ntohl f.pending := by
  rw [messageLength_eq h hlen, CInt.ofUnsigned_small hint]

/-- The bounds the loop's arithmetic needs: the buffer is larger than a header. -/
theorem loop_inRange {b : ByteBuffer} (h : b.Represents f) (hcap : 4 < f.capacity) :
    CInt.InRange (b.getCapacity - 4) ∧ CInt.InRange (b.getBytesAvailable - 4) := by
  have hsize := h.size_eq
  have hc := h.capacity_eq
  have hfit := f.fits
  have hmax := h.wellFormed.capacity_le
  refine ⟨⟨?_, ?_⟩, ⟨?_, ?_⟩⟩ <;>
    simp only [ByteBuffer.getCapacity, ByteBuffer.getBytesAvailable] <;> omega

/-- Waiting for the rest of a message that fits. -/
theorem readStep_wait (h : s.buf.Represents f) (hlong : 4 < f.pending.length)
    (hfits : ntohl f.pending + 4 ≤ f.capacity)
    (hpart : f.pending.length < ntohl f.pending + 4) : readStep w s = .ok false s := by
  have hsize := h.size_eq
  have hc := h.capacity_eq
  have hmax := h.wellFormed.capacity_le
  obtain ⟨hr₁, hr₂⟩ := loop_inRange h (by omega)
  have hlen := messageLength_small h (by omega) (by omega)
  refine readStep_fragment ?_ hr₁ hr₂ ?_ ?_ <;>
    simp only [ByteBuffer.getCapacity, ByteBuffer.getBytesAvailable, hlen] <;> omega

/-- The capacity after growing for a message of `n` bytes. -/
def grown (capacity n : ℕ) : ℕ := if n > capacity * 2 then n else capacity * 2

theorem le_grown (capacity n : ℕ) : capacity * 2 ≤ grown capacity n := by
  unfold grown
  split <;> omega

/-- Growing for a message that does not fit. -/
theorem readStep_resize (h : s.buf.Represents f) (hlong : 4 < f.pending.length)
    (hbig : f.capacity < ntohl f.pending + 4) (hint : ntohl f.pending < 2147483648)
    (hdouble : f.capacity < 1073741824) :
    ∃ b, readStep w s =
        .ok false { s with buf := b, resizes := s.resizes ++ [s.calls.length] } ∧
      b.Represents (f.resize (grown f.capacity (ntohl f.pending))
        (by have := f.fits; have := le_grown f.capacity (ntohl f.pending); omega)) := by
  have hsize := h.size_eq
  have hc := h.capacity_eq
  have hfit := f.fits
  obtain ⟨hr₁, hr₂⟩ := loop_inRange h (by omega)
  have hlen := messageLength_small h (by omega) (by omega)
  have hmul : CInt.mul s.buf.getCapacity 2 = .ok (f.capacity * 2) := by
    rw [ByteBuffer.getCapacity, hc, CInt.mul_ok ⟨by omega, by omega⟩]
  have hgrown : grown f.capacity (ntohl f.pending) ≤ 2147483647 := by
    unfold grown
    split <;> omega
  obtain ⟨b, hresize, hrep, -⟩ := ByteBuffer.resize_represents h
    (n := grown f.capacity (ntohl f.pending))
    (by have := le_grown f.capacity (ntohl f.pending); omega) hgrown
    (by have := le_grown f.capacity (ntohl f.pending); omega)
  refine ⟨b, ?_, hrep⟩
  have hgrow : growBuffer (messageLength s.buf) s =
      .ok () { s with buf := b, resizes := s.resizes ++ [s.calls.length] } := by
    rw [growBuffer, get_bind, bind_ok (eval_ok hmul s), hlen]
    by_cases hn : ntohl f.pending > f.capacity * 2
    · rw [grown, if_pos hn] at hresize
      rw [if_pos (by omega)]
      exact resize_ok hresize
    · rw [grown, if_neg hn, Int.natCast_mul] at hresize
      rw [if_neg (by omega)]
      exact resize_ok hresize
  rw [readStep_big _ hr₁, bind_ok hgrow]
  · rfl
  · rw [hlen, ByteBuffer.getCapacity]
    omega
  · rw [ByteBuffer.getBytesAvailable]
    omega

/-- Growing when the capacity cannot be doubled any more. -/
theorem readStep_overflow (h : s.buf.Represents f) (hlong : 4 < f.pending.length)
    (hbig : f.capacity < ntohl f.pending + 4) (hint : ntohl f.pending < 2147483648)
    (hdouble : 1073741824 ≤ f.capacity) : readStep w s = .error .overflow s := by
  have hsize := h.size_eq
  have hc := h.capacity_eq
  obtain ⟨hr₁, hr₂⟩ := loop_inRange h (by omega)
  have hlen := messageLength_small h (by omega) (by omega)
  have hmul : CInt.mul s.buf.getCapacity 2 = .error .overflow := by
    rw [ByteBuffer.getCapacity, hc, CInt.mul_overflow]
    rintro ⟨-, hle⟩
    omega
  rw [readStep_big _ hr₁, bind_error]
  · rw [growBuffer, get_bind, bind_error (eval_error hmul s)]
  · rw [hlen, ByteBuffer.getCapacity]
    omega
  · rw [ByteBuffer.getBytesAvailable]
    omega

/-- A header of `2^31` or more: the loop takes it for a negative length, finds the
message complete, and routes it. -/
theorem readStep_negative (h : s.buf.Represents f) (hlong : 4 < f.pending.length)
    (hcap : 4 < f.capacity) (hint : 2147483648 ≤ ntohl f.pending) :
    ∃ s' c, readStep w s = .error .badAlloc s' ∧ s'.calls = s.calls ++ [c] ∧
      c.length = CInt.ofUnsigned (ntohl f.pending) := by
  have hsize := h.size_eq
  have hc := h.capacity_eq
  obtain ⟨hr₁, hr₂⟩ := loop_inRange h hcap
  have hlength := messageLength_eq h (by omega)
  have hneg : messageLength s.buf < 0 := by
    rw [hlength]
    exact CInt.ofUnsigned_neg hint (ntohl_lt _)
  obtain ⟨b, hread, -, -⟩ := ByteBuffer.bytesRead_represents h (k := 4) (by omega)
  obtain ⟨c, hroute, hlen⟩ : ∃ c : RouteCall ι, route w (messageLength s.buf) { s with buf := b } =
      .error .badAlloc { s with buf := b, calls := s.calls ++ [c] } ∧
      c.length = messageLength s.buf := ⟨_, route_neg hneg, rfl⟩
  refine ⟨{ s with buf := b, calls := s.calls ++ [c] }, c, ?_, rfl, hlen.trans hlength⟩
  rw [readStep_complete _ hr₁ hr₂ _ _ hread, bind_error hroute]
  all_goals
    simp only [ByteBuffer.getCapacity, ByteBuffer.getBytesAvailable]
    omega

/-- What one connection's callback adds to the history: calls for that
connection, whose length is that of the payload and lies within what is buffered. -/
structure GoodCall (w : ι) (c : RouteCall ι) : Prop where
  /-- the connection -/
  watcher_eq : c.watcher = w
  /-- the payload is there in full -/
  length_eq : c.length = c.payload.length
  /-- so it is part of what is buffered behind the header -/
  length_le : c.length ≤ c.buffered

/-- Routing a complete message: the FIFO's first message goes to the router and
is taken off the FIFO. -/
theorem readStep_route (h : s.buf.Represents f) (hready : wire.Ready f.pending) :
    ∃ b c, readStep w s = .ok true { s with buf := b, queue := s.queue ++ c.items,
                                            calls := s.calls ++ [c] } ∧
      b.Represents (f.read (4 + ntohl f.pending)) ∧
      GoodCall w c ∧ c.payload = wire.first f.pending := by
  have hfirst := wire.length_first hready
  obtain ⟨hlong, hcomplete⟩ := hready
  rw [wire_width] at hlong hcomplete
  rw [announced_wire] at hcomplete hfirst
  have hsize := h.size_eq
  have hc := h.capacity_eq
  have hmax := h.wellFormed.capacity_le
  have hfit := f.fits
  obtain ⟨hr₁, hr₂⟩ := loop_inRange h (by omega)
  have hlen := messageLength_small h (by omega) (by omega)
  obtain ⟨b₁, hread₁, hrep₁, -⟩ := ByteBuffer.bytesRead_represents h (k := 4) (by omega)
  have hlen₁ : (f.read 4).pending.length = f.pending.length - 4 := List.length_drop ..
  have hsize₁ := hrep₁.size_eq
  obtain ⟨b₂, hread₂, hrep₂, -⟩ := ByteBuffer.bytesRead_represents hrep₁
    (k := ntohl f.pending) (by omega)
  have hpayload : b₁.getReadReference.take (ntohl f.pending) = wire.first f.pending := by
    rw [ByteBuffer.take_getReadReference (by omega), hrep₁.contents_eq, Framing.first,
      announced_wire]
    rfl
  have hmem : ntohl f.pending ≤ b₁.getReadReference.length := by
    have htake := congrArg List.length hrep₁.take_eq
    rw [List.length_take] at htake
    omega
  refine ⟨b₂, callNow w { s with buf := b₁ } (ntohl f.pending), ?_, ?_, ⟨rfl, ?_, ?_⟩, hpayload⟩
  · rw [readStep_complete _ hr₁ hr₂ _ _ hread₁, hlen,
      bind_ok (route_ok (s := { s with buf := b₁ }) hmem), bind_ok (onBuf_ok hread₂)]
    · rfl
    all_goals
      simp only [ByteBuffer.getCapacity, ByteBuffer.getBytesAvailable, hlen]
      omega
  · have heq : (f.read 4).read (ntohl f.pending) = f.read (4 + ntohl f.pending) := by
      simp only [ByteFifo.read, List.drop_drop]
    rw [← heq]
    exact hrep₂
  · rw [RouteCall.payload]
    simp only [callNow, Int.toNat_natCast, hpayload, hfirst]
  · simp only [callNow, ByteBuffer.getBytesAvailable]
    omega

/-- What the rounds of the loop that route a message do, all of them together:
`frames` goes to the router and `rest` stays. The loop then stands before a round
that routes nothing. -/
theorem readLoop_drain (n : ℕ) :
    ∀ (s : SinkState ι) (f : ByteFifo), s.buf.Represents f → f.pending.length < n →
      ∃ (k : ℕ) (s' : SinkState ι) (f' : ByteFifo) (cs : List (RouteCall ι)),
        readLoop w n s = readLoop w (k + 1) s' ∧ s'.buf.Represents f' ∧
        f'.pending = wire.rest f.pending ∧ f'.capacity = f.capacity ∧
        s'.calls = s.calls ++ cs ∧ s'.queue = s.queue ++ cs.flatMap RouteCall.items ∧
        s'.resizes = s.resizes ∧
        cs.map RouteCall.payload = wire.frames f.pending ∧ ∀ c ∈ cs, GoodCall w c := by
  -- each round that routes a message takes its header off the FIFO, so `n` is enough fuel
  induction n with
  | zero => exact fun _ _ _ hlt => absurd hlt (Nat.not_lt_zero _)
  | succ n ih =>
    intro s f h hlt
    by_cases hready : wire.Ready f.pending
    · obtain ⟨b, c, hstep, hrep, hgood, hpayload⟩ := readStep_route (w := w) h hready
      have hskip : (f.read (4 + ntohl f.pending)).pending = wire.skip f.pending := by
        rw [Framing.skip, announced_wire]
        rfl
      have hshort := wire.length_skip_lt hready
      obtain ⟨k, s', f', cs, hloop, hrep', hrest, hcap, hcalls, hqueue, hresizes, hframes,
        hgoods⟩ :=
        ih { s with buf := b, queue := s.queue ++ c.items, calls := s.calls ++ [c] } _ hrep
          (by rw [hskip]; omega)
      refine ⟨k, s', f', c :: cs, ?_, hrep', ?_, hcap, ?_, ?_, hresizes, ?_, ?_⟩
      · rw [readLoop, bind_ok hstep, if_pos rfl, hloop]
      · rw [hrest, hskip, wire.rest_of_ready hready]
      · rw [hcalls, List.append_assoc, List.singleton_append]
      · rw [hqueue, List.append_assoc, List.flatMap_cons]
      · rw [List.map_cons, hframes, hskip, hpayload, wire.frames_of_ready hready]
      · intro c' hc'
        rcases List.mem_cons.mp hc' with rfl | hc'
        · exact hgood
        · exact hgoods c' hc'
    · refine ⟨n, s, f, [], rfl, h, ?_, rfl, ?_, ?_, rfl, ?_, ?_⟩
      · rw [wire.rest_of_not_ready hready]
      · rw [List.append_nil]
      · rw [List.flatMap_nil, List.append_nil]
      · rw [List.map_nil, wire.frames_of_not_ready hready]
      · exact fun c hc => absurd hc List.not_mem_nil

/-- The header of the message that is still incomplete, if a byte of that message
is there too, is one the loop's `int` arithmetic can handle: it is not negative
as an `int`, and if the buffer has to grow for it, the capacity can be doubled. -/
def HeaderSafe (capacity : ℕ) (rest : List UInt8) : Prop :=
  4 < rest.length → ntohl rest < 2147483648 ∧
    (capacity < ntohl rest + 4 → capacity < 1073741824)

/-- The message at the front does not fit: its header and a byte of it are there. -/
def Outgrown (capacity : ℕ) (rest : List UInt8) : Prop :=
  4 < rest.length ∧ capacity < ntohl rest + 4

instance (capacity : ℕ) (rest : List UInt8) : Decidable (Outgrown capacity rest) :=
  inferInstanceAs (Decidable (_ ∧ _))

/-- The capacity after a callback that left `rest` in the buffer. -/
def capacityAfter (capacity : ℕ) (rest : List UInt8) : ℕ :=
  if Outgrown capacity rest then grown capacity (ntohl rest) else capacity

theorem le_capacityAfter (capacity : ℕ) (rest : List UInt8) :
    capacity ≤ capacityAfter capacity rest := by
  have hle := le_grown capacity (ntohl rest)
  rw [capacityAfter]
  split
  · exact le_trans (Nat.le_mul_of_pos_right _ (by decide)) hle
  · exact le_refl _

/-- **The loop on a safe header** ends, having routed what the decoder finds, and having
resized the buffer once if the message left over does not fit, and else not at all. -/
theorem readLoop_safe {n : ℕ} (h : s.buf.Represents f) (hlt : f.pending.length < n)
    (hsafe : HeaderSafe f.capacity (wire.rest f.pending)) :
    ∃ s' f' cs, readLoop w n s = .ok () s' ∧ s'.buf.Represents f' ∧
      f'.pending = wire.rest f.pending ∧
      f'.capacity = capacityAfter f.capacity (wire.rest f.pending) ∧
      s'.calls = s.calls ++ cs ∧ s'.queue = s.queue ++ cs.flatMap RouteCall.items ∧
      s'.resizes = s.resizes ++
        (if Outgrown f.capacity (wire.rest f.pending) then [s'.calls.length] else []) ∧
      cs.map RouteCall.payload = wire.frames f.pending ∧ ∀ c ∈ cs, GoodCall w c := by
  obtain ⟨k, s', f', cs, hloop, hrep, hrest, hcap, hcalls, hqueue, hresizes, hframes, hgoods⟩ :=
    readLoop_drain (w := w) n s f h hlt
  have hnot : ¬ wire.Ready f'.pending := by
    rw [hrest]
    exact wire.not_ready_rest _
  rw [← hrest, ← hcap] at hsafe ⊢
  rw [← hresizes]
  -- how the last round leaves the loop
  have hlast : ∃ b f'' new, readStep w s' =
        .ok false { s' with buf := b, resizes := s'.resizes ++ new } ∧ b.Represents f'' ∧
      f''.pending = f'.pending ∧ f''.capacity = capacityAfter f'.capacity f'.pending ∧
      new = if Outgrown f'.capacity f'.pending then [s'.calls.length] else [] := by
    by_cases hlong : 4 < f'.pending.length
    · obtain ⟨hint, hdouble⟩ := hsafe hlong
      by_cases hbig : f'.capacity < ntohl f'.pending + 4
      · obtain ⟨b, hstep, hrep'⟩ := readStep_resize (w := w) hrep hlong hbig hint (hdouble hbig)
        refine ⟨b, _, _, hstep, hrep', rfl, ?_, ?_⟩
        · rw [capacityAfter, if_pos ⟨hlong, hbig⟩]
          rfl
        · rw [if_pos ⟨hlong, hbig⟩]
      · refine ⟨s'.buf, f', [], ?_, hrep, rfl, ?_, ?_⟩
        · rw [List.append_nil]
          refine readStep_wait hrep hlong (not_lt.mp hbig) ?_
          rw [Framing.Ready, announced_wire, wire_width] at hnot
          omega
        · rw [capacityAfter, if_neg fun hand => hbig hand.2]
        · rw [if_neg fun hand => hbig hand.2]
    · refine ⟨s'.buf, f', [], ?_, hrep, rfl, ?_, ?_⟩
      · rw [List.append_nil]
        apply readStep_short
        rw [ByteBuffer.getBytesAvailable, hrep.size_eq]
        omega
      · rw [capacityAfter, if_neg fun hand => hlong hand.1]
      · rw [if_neg fun hand => hlong hand.1]
  obtain ⟨b, f'', new, hstep, hrep'', hpending, hcap'', hnew⟩ := hlast
  refine ⟨{ s' with buf := b, resizes := s'.resizes ++ new }, f'', cs, ?_, hrep'', hpending,
    hcap'', hcalls, hqueue, congrArg _ hnew, hframes, hgoods⟩
  rw [hloop, readLoop, bind_ok hstep]
  rfl

/-- **The loop on an unsafe header** ends in a fault: doubling the capacity
overflows, or the header is routed as a negative length. -/
theorem readLoop_faults {n : ℕ} (h : s.buf.Represents f) (hlt : f.pending.length < n)
    (hcap4 : 4 < f.capacity) (hrisky : ¬ HeaderSafe f.capacity (wire.rest f.pending)) :
    ∃ e s', readLoop w n s = .error e s' ∧
      (ntohl (wire.rest f.pending) < 2147483648 ∧ e = .overflow ∨
        2147483648 ≤ ntohl (wire.rest f.pending) ∧
          ∃ c ∈ s'.calls, c.length = CInt.ofUnsigned (ntohl (wire.rest f.pending))) := by
  obtain ⟨k, s', f', cs, hloop, hrep, hrest, hcap, -, -, -, -, -⟩ :=
    readLoop_drain (w := w) n s f h hlt
  rw [← hrest, ← hcap] at hrisky
  rw [← hrest]
  unfold HeaderSafe at hrisky
  push Not at hrisky
  obtain ⟨hlong, hbad⟩ := hrisky
  by_cases hint : ntohl f'.pending < 2147483648
  · obtain ⟨hbig, hdouble⟩ := hbad hint
    refine ⟨.overflow, s', ?_, .inl ⟨hint, rfl⟩⟩
    rw [hloop, readLoop, bind_error (readStep_overflow hrep hlong hbig hint hdouble)]
  · obtain ⟨s'', c, hstep, hcalls, hlen⟩ := readStep_negative (w := w) hrep hlong
      (by omega) (not_lt.mp hint)
    refine ⟨.badAlloc, s'', ?_, .inr ⟨not_lt.mp hint, c, ?_, hlen⟩⟩
    · rw [hloop, readLoop, bind_error hstep]
    · rw [hcalls]
      exact List.mem_append_right _ (List.mem_singleton_self c)

/-! ### The callback -/

/-- The length `recv` is offered: the contiguous space after defragmenting. -/
def offered (buf : ByteBuffer) : Except Fault ℤ := do
  let buf ← buf.defragment
  buf.getContinuousBytesLeft

/-- `recv` is offered all the room there is. -/
theorem offered_eq {b : ByteBuffer} (h : b.Represents f) :
    offered b = .ok (f.capacity - f.pending.length) := by
  obtain ⟨b', hdefrag, hrep, htail⟩ := ByteBuffer.defragment_represents h
  have hsize := hrep.size_eq
  have hcap := hrep.capacity_eq
  have hwf := hrep.wellFormed
  have h3 := hwf.size_eq
  rw [offered, hdefrag, ok_bind, hwf.getContinuousBytesLeft]
  congr 1
  omega

/-- The callback up to the test of what was received. -/
def receive (received : RecvResult) : SinkM ι Unit := do
  onBuf (·.defragment)
  let _len ← eval ((← get).buf.getContinuousBytesLeft)
  onBuf (·.store received.stored)
  onBuf (·.bytesWritten (CInt.ofUnsigned received.numBytesReceived))

/-- The callback from there on. -/
theorem readCallback_of_receive {bs : List UInt8} (hne : bs ≠ []) {b : ByteBuffer}
    (h : receive (.bytes bs) s = .ok () { s with buf := b }) :
    readCallback w false (.bytes bs) s =
      (readLoop w (b.getBytesAvailable.toNat + 1) >>= fun _ => pure .kept) { s with buf := b } := by
  have hpos : ¬ (RecvResult.bytes bs).numBytesReceived ≤ 0 := by
    rw [Nat.le_zero, RecvResult.numBytesReceived, List.length_eq_zero_iff]
    exact hne
  have hsplit : readCallback w false (.bytes bs) s = (receive (.bytes bs) >>= fun _ => do
      readLoop w ((← get).buf.getBytesAvailable.toNat + 1)
      return .kept) s := by
    simp only [readCallback, receive, bind_assoc, if_neg Bool.false_ne_true,
      if_neg (Nat.not_lt_zero _), if_neg hpos]
  rw [hsplit, bind_ok h, get_bind]

/-- Received bytes that fit are appended to the FIFO. -/
theorem receive_ok (h : s.buf.Represents f) {bs : List UInt8}
    (hfit : f.pending.length + bs.length ≤ f.capacity) :
    ∃ b, receive (.bytes bs) s = .ok () { s with buf := b } ∧ b.Represents (f.write bs hfit) := by
  obtain ⟨b, hdefrag, hrep, htail⟩ := ByteBuffer.defragment_represents h
  have hsize := hrep.size_eq
  have hcap := hrep.capacity_eq
  have hwf := hrep.wellFormed
  have h1 := hwf.tail_le
  have h2 := hwf.head_le
  have h3 := hwf.size_eq
  have h5 := hwf.capacity_le
  obtain ⟨b₁, b₂, hstore, hwritten, hrep₂, -⟩ :=
    ByteBuffer.write_represents hrep bs (by omega) hfit
  have hleft := hwf.getContinuousBytesLeft
  have hcount : b₁.bytesWritten (CInt.ofUnsigned (RecvResult.bytes bs).numBytesReceived) =
      .ok b₂ := by
    rw [RecvResult.numBytesReceived, CInt.ofUnsigned_small (by omega)]
    exact hwritten
  refine ⟨b₂, ?_, hrep₂⟩
  rw [receive, bind_ok (onBuf_ok hdefrag), get_bind, bind_ok (eval_ok hleft _),
    bind_ok (onBuf_ok hstore)]
  exact onBuf_ok hcount

/-- The callback up to its loop, for received bytes that fit: they are appended
to the FIFO. -/
theorem readCallback_received (h : s.buf.Represents f) {bs : List UInt8} (hne : bs ≠ [])
    (hfit : f.pending.length + bs.length ≤ f.capacity) :
    ∃ b n, readCallback w false (.bytes bs) s =
        (readLoop w n >>= fun _ => pure .kept) { s with buf := b } ∧
      b.Represents (f.write bs hfit) ∧ (f.write bs hfit).pending.length < n := by
  obtain ⟨b, hreceive, hrep⟩ := receive_ok h hfit
  refine ⟨b, b.getBytesAvailable.toNat + 1, readCallback_of_receive hne hreceive, hrep, ?_⟩
  rw [ByteBuffer.getBytesAvailable, hrep.size_eq]
  omega

/-- **What a callback on received bytes does**, when the header left at the end is
safe: it returns, the messages routed are those the decoder finds in the old and
new bytes, and what the decoder leaves over stays buffered. -/
theorem readCallback_safe (h : s.buf.Represents f) {bs : List UInt8} (hne : bs ≠ [])
    (hfit : f.pending.length + bs.length ≤ f.capacity)
    (hsafe : HeaderSafe f.capacity (wire.rest (f.pending ++ bs))) :
    ∃ s' f' cs, readCallback w false (.bytes bs) s = .ok .kept s' ∧ s'.buf.Represents f' ∧
      f'.pending = wire.rest (f.pending ++ bs) ∧
      f'.capacity = capacityAfter f.capacity (wire.rest (f.pending ++ bs)) ∧
      s'.calls = s.calls ++ cs ∧ s'.queue = s.queue ++ cs.flatMap RouteCall.items ∧
      s'.resizes = s.resizes ++
        (if Outgrown f.capacity (wire.rest (f.pending ++ bs)) then [s'.calls.length] else []) ∧
      cs.map RouteCall.payload = wire.frames (f.pending ++ bs) ∧ ∀ c ∈ cs, GoodCall w c := by
  obtain ⟨b, n, hrun, hrep, hlt⟩ := readCallback_received (w := w) h hne hfit
  obtain ⟨s', f', cs, hloop, hrest⟩ :=
    readLoop_safe (w := w) (s := { s with buf := b }) hrep hlt hsafe
  refine ⟨s', f', cs, ?_, hrest⟩
  rw [hrun, bind_ok hloop]
  rfl

/-- **A callback whose last header is unsafe** faults: it overflows while doubling the
capacity, or routes the header as a negative length. -/
theorem readCallback_faults (h : s.buf.Represents f) {bs : List UInt8} (hne : bs ≠ [])
    (hfit : f.pending.length + bs.length ≤ f.capacity) (hcap4 : 4 < f.capacity)
    (hrisky : ¬ HeaderSafe f.capacity (wire.rest (f.pending ++ bs))) :
    ∃ e s', readCallback w false (.bytes bs) s = .error e s' ∧
      (ntohl (wire.rest (f.pending ++ bs)) < 2147483648 ∧ e = .overflow ∨
        2147483648 ≤ ntohl (wire.rest (f.pending ++ bs)) ∧
          ∃ c ∈ s'.calls, c.length = CInt.ofUnsigned (ntohl (wire.rest (f.pending ++ bs)))) := by
  obtain ⟨b, n, hrun, hrep, hlt⟩ := readCallback_received (w := w) h hne hfit
  obtain ⟨e, s', hloop, hbad⟩ :=
    readLoop_faults (w := w) (s := { s with buf := b }) hrep hlt hcap4 hrisky
  refine ⟨e, s', ?_, hbad⟩
  rw [hrun, bind_error hloop]

/-- After a callback there is room for at least one more byte: what is left is an
incomplete message that fits the buffer. -/
theorem room_after {cap : ℕ} {bs : List UInt8} (hcap : 4 < cap) (hfit : bs.length ≤ cap) :
    (wire.rest bs).length < capacityAfter cap (wire.rest bs) := by
  have hnot := wire.not_ready_rest bs
  have hle : (wire.rest bs).length ≤ bs.length := wire.length_rest_le bs
  rw [Framing.Ready, announced_wire, wire_width] at hnot
  have hgrown := le_grown cap (ntohl (wire.rest bs))
  rw [capacityAfter]
  split
  · omega
  · next hstay =>
    rw [Outgrown] at hstay
    omega

end DataSink

end WallMon
