import WallMon.CArray
import WallMon.Framing

/-!
# `StreamItem`: header and payload in one message

The daemon prefixes every serialised message with its length, a 32-bit number in
network byte order, and the server's `DataSink` reads that header back. The wire
format is an instance of the length-prefixed framing: `wire`.
-/

namespace WallMon

/-- The four bytes `htonl` leaves in memory: most significant first. -/
def htonl (n : ℕ) : List UInt8 :=
  [UInt8.ofNat (n / 16777216), UInt8.ofNat (n / 65536), UInt8.ofNat (n / 256), UInt8.ofNat n]

/-- `ntohl` of the four bytes at the start of a memory region. -/
def ntohl : List UInt8 → ℕ
  | a :: b :: c :: d :: _ =>
    a.toNat * 16777216 + b.toNat * 65536 + c.toNat * 256 + d.toNat
  | _ => 0

@[simp] theorem length_htonl (n : ℕ) : (htonl n).length = 4 := rfl

theorem ntohl_htonl {n : ℕ} (h : n < 4294967296) (bs : List UInt8) :
    ntohl (htonl n ++ bs) = n := by
  simp only [htonl, ntohl, List.cons_append, UInt8.toNat_ofNat']
  omega

/-- `ntohl` reads four bytes and no more. -/
theorem ntohl_take (bs : List UInt8) : ntohl (bs.take 4) = ntohl bs := by
  match bs with
  | [] | [_] | [_, _] | [_, _, _] => rfl
  | _ :: _ :: _ :: _ :: _ => rfl

theorem ntohl_lt (bs : List UInt8) : ntohl bs < 4294967296 := by
  match bs with
  | [] | [_] | [_, _] | [_, _, _] => simp [ntohl]
  | a :: b :: c :: d :: _ =>
    have ha := a.toNat_lt
    have hb := b.toNat_lt
    have hc := c.toNat_lt
    have hd := d.toNat_lt
    rw [ntohl]
    omega

/-- The wire format: a four-byte length in network order, then the payload. -/
def wire : Framing UInt8 where
  width := 4
  maxLength := 4294967295
  header := htonl
  lengthOf := ntohl
  width_pos := by decide
  length_header := length_htonl
  lengthOf_header n hn := by
    rw [← List.append_nil (htonl n)]
    exact ntohl_htonl (by omega) []

@[simp] theorem wire_width : wire.width = 4 := rfl

@[simp] theorem wire_maxLength : wire.maxLength = 4294967295 := rfl

/-- What a header announces is the number its first four bytes hold. -/
theorem announced_wire (bs : List UInt8) : wire.announced bs = ntohl bs := ntohl_take bs

/-- A message with the descriptors it is to be sent to. -/
structure StreamItem where
  /-- start of the message (header and payload) -/
  message : List UInt8
  /-- accounts for header and payload -/
  messageLength : ℤ
  /-- the sockets the message goes to -/
  serversSockFd : List ℕ
  deriving DecidableEq, Repr

namespace StreamItem

/-- The constructor: allocates memory for header and payload, and inserts the
header. `payloadLength + sizeof(int)` is computed in `size_t` and narrowed. -/
def new (payloadLength : ℤ) : Except Fault StreamItem := do
  let messageLength := CInt.ofUnsigned (payloadLength + 4).toNat
  let message ← CArray.alloc messageLength
  let messageLengthNetworkByteOrder := htonl payloadLength.toNat
  let message ← CArray.write message 0 messageLengthNetworkByteOrder
  return { message, messageLength, serversSockFd := [] }

/-- Serialising a payload to `GetPayloadStartReference()`, four bytes into the
message. -/
def setPayload (item : StreamItem) (payload : List UInt8) : Except Fault StreamItem := do
  let message ← CArray.write item.message 4 payload
  return { item with message }

/-- How the scheduler composes a network message: `ByteSize()` bytes of payload
are serialised behind the header. -/
def compose (payload : List UInt8) : Except Fault StreamItem := do
  let item ← new payload.length
  item.setPayload payload

/-- The item that encodes a payload, without destinations. -/
def ofPayload (payload : List UInt8) : StreamItem where
  message := wire.encode payload
  messageLength := payload.length + 4
  serversSockFd := []

/-- **A composed item is the encoding of its payload.** -/
theorem compose_ok {payload : List UInt8} (h : payload.length ≤ 2147483643) :
    compose payload = .ok (ofPayload payload) := by
  have hlen : CInt.ofUnsigned (payload.length + 4) = payload.length + 4 := by
    rw [CInt.ofUnsigned_small (by omega)]
    omega
  have hnat : ((payload.length : ℤ) + 4).toNat = payload.length + 4 := by omega
  have hheader : CArray.write (List.replicate (payload.length + 4) 0) 0 (htonl payload.length) =
      .ok (htonl payload.length ++ List.replicate payload.length 0) := by
    rw [CArray.write_ok (le_refl _) (by rw [List.length_replicate, length_htonl]; omega)]
    simp
  have hpayload : CArray.write (htonl payload.length ++ List.replicate payload.length 0) 4
      payload = .ok (wire.encode payload) := by
    rw [CArray.write_ok (by omega)
      (by rw [List.length_append, List.length_replicate, length_htonl]; omega)]
    simp [Framing.encode, wire, htonl]
    omega
  have hnew : new payload.length =
      .ok { message := htonl payload.length ++ List.replicate payload.length 0,
            messageLength := payload.length + 4, serversSockFd := [] } := by
    simp only [new, hnat, hlen, CArray.alloc_ok (show (0 : ℤ) ≤ payload.length + 4 by omega),
      Int.toNat_natCast, hheader, ok_bind]
    rfl
  simp only [compose, hnew, ok_bind, setPayload, hpayload]
  rfl

/-- Composing succeeds only for payloads whose length, header included, is an `int`. -/
theorem compose_eq_ok {payload : List UInt8} {item : StreamItem} (h : compose payload = .ok item) :
    payload.length ≤ 2147483643 ∧ item = ofPayload payload := by
  obtain ⟨item₀, hnew, hset⟩ := bind_eq_ok h
  obtain ⟨allocated, halloc, hinsert⟩ := bind_eq_ok hnew
  obtain ⟨message, hheader, hitem₀⟩ := bind_eq_ok hinsert
  obtain ⟨message', hpayload, -⟩ := bind_eq_ok hset
  obtain rfl := Except.ok.inj hitem₀
  obtain ⟨hnonneg, rfl⟩ := CArray.alloc_eq_ok halloc
  have hfits := CArray.write_fits hpayload
  rw [CArray.length_write hheader, List.length_replicate] at hfits
  have hlt : CInt.ofUnsigned (payload.length + 4 : ℤ).toNat < 2147483648 :=
    Int.lt_add_one_of_le (CInt.inRange_ofUnsigned _).2
  have hle : payload.length ≤ 2147483643 := by omega
  exact ⟨hle, Except.ok.inj (h.symm.trans (compose_ok hle))⟩

/-- The bytes a client puts on its connection for a payload: those of the item
composed for it. -/
def bytes (payload : List UInt8) : List UInt8 :=
  match compose payload with
  | .ok item => item.message
  | .error _ => []

/-- The bytes of an item are the encoding of its payload. -/
theorem bytes_eq {payload : List UInt8} (h : payload.length ≤ 2147483643) :
    bytes payload = wire.encode payload := by
  rw [bytes, compose_ok h]
  rfl

end StreamItem

/-- The byte stream of a connection: the items, one after the other. -/
def clientStream (ps : List (List UInt8)) : List UInt8 := ps.flatMap StreamItem.bytes

/-- What clients send is a stream of the wire format. -/
theorem clientStream_eq {ps : List (List UInt8)} (h : ∀ p ∈ ps, p.length ≤ 2147483643) :
    clientStream ps = wire.stream ps := by
  rw [clientStream, Framing.stream]
  exact List.flatMap_congr fun p hp => StreamItem.bytes_eq (h p hp)

end WallMon
