import WallMon.Delivery
import WallMon.WireFormat

/-!
# The format of `Wallmon.proto`

An instance of what is relied on of protobuf that has all fields of a message: strings of
characters of one byte, integers, and numbers that a double can hold. Strings that do not parse
leave nothing in the message here.
-/

namespace WallMon

namespace MessageFormat

open WireFormat

/-! ## Values -/

/-- The text of a string -/
def text (bytes : List UInt8) : String := String.ofList (bytes.map fun b => Char.ofNat b.toNat)

/-- The string of a text -/
def textBytes (value : String) : List UInt8 := value.toList.map fun c => UInt8.ofNat c.toNat

/-- The number of a double with these bits -/
def ofBits (bits : ℕ) : ℚ :=
  let exponent : ℕ := bits / 2 ^ 52 % 2 ^ 11
  let fraction : ℕ := bits % 2 ^ 52
  let magnitude :=
    if exponent = 0 then mkRat (fraction : ℕ) (2 ^ 1074)
    else mkRat ((2 ^ 52 + fraction) * 2 ^ (exponent - 1075) : ℕ) (2 ^ (1075 - exponent))
  if bits / 2 ^ 63 = 1 then -magnitude else magnitude

/-- The bits of a double that is this number, if there is one that is normal -/
def toBits (value : ℚ) : ℕ :=
  let numerator := value.num.natAbs
  let up := Nat.log2 numerator - Nat.log2 value.den
  let down := Nat.log2 value.den - Nat.log2 numerator
  if value = 0 then 0
  else (if value < 0 then 2 ^ 63 else 0) + (1022 + up - down) * 2 ^ 52 +
    numerator * 2 ^ (52 + down) / (value.den * 2 ^ up)

/-- The eight bytes of a double -/
def doubleBytes (value : ℚ) : List UInt8 :=
  (List.range 8).map fun i => UInt8.ofNat (toBits value / 256 ^ i)

/-- A double of eight bytes -/
def double (bytes : List UInt8) : ℚ := ofBits (bytes.foldr (fun b bits => b.toNat + 256 * bits) 0)

/-! ## Fields -/

/-- A field of a number -/
def doubleEncoder (fieldNumber : ℕ) (value : Option ℚ) : List UInt8 :=
  (value.map fun value => tagBytes fieldNumber .fixed64 ++ doubleBytes value).getD []

/-- A field of an integer -/
def uintEncoder (fieldNumber : ℕ) (value : Option ℕ) : List UInt8 :=
  (value.map fun value => tagBytes fieldNumber .varint ++ encodeVarint value).getD []

/-- `SerializeToArray` -/
def serialize (msg : WallmonMessage) : List UInt8 :=
  bytesEncoder 1 (textBytes msg.key) ++
  bytesEncoder 2 msg.data ++
  doubleEncoder 3 msg.daemonTimestampMsec ++
  (msg.hostname.map fun hostname => bytesEncoder 4 (textBytes hostname)).getD [] ++
  doubleEncoder 5 msg.sampleFrequencyMsec ++
  doubleEncoder 6 msg.sampleDurationMsec ++
  doubleEncoder 7 msg.scheduleDriftMsec ++
  doubleEncoder 8 msg.scheduleDurationMsec ++
  uintEncoder 9 (msg.actualHz.map UInt32.toNat) ++
  uintEncoder 10 (msg.networkMessageSizeBytes.map UInt32.toNat) ++
  uintEncoder 11 (msg.serverSequenceNumber.map UInt32.toNat) ++
  uintEncoder 12 (msg.daemonQueueSize.map UInt32.toNat) ++
  uintEncoder 13 (msg.serverQueueSize.map UInt32.toNat) ++
  uintEncoder 14 (msg.daemonNumServerConnections.map UInt32.toNat) ++
  doubleEncoder 15 msg.serverTimestampMsec ++
  uintEncoder 16 (msg.serverNumBytesPerSecNetworkReceive.map UInt64.toNat) ++
  doubleEncoder 17 msg.previousHandlerExecutionTimeMsec ++
  uintEncoder 18 (msg.collectorSequenceNumber.map UInt32.toNat)

/-- A message that is being parsed -/
structure Parsing where
  /-- the fields so far -/
  msg : WallmonMessage
  /-- `has_key` -/
  hasKey : Bool
  /-- `has_data` -/
  hasData : Bool

/-- The value of a number is set. -/
def doubleDecoder (set : Option ℚ → WallmonMessage → WallmonMessage) : FieldDecoder Parsing :=
  fun p buffer => do
    let rest ← advance 8 buffer
    return ({ p with msg := set (some (double (buffer.take 8))) p.msg }, rest)

/-- The value of an integer is set. -/
def uintDecoder (set : ℕ → WallmonMessage → WallmonMessage) : FieldDecoder Parsing :=
  fun p buffer => do
    let (value, buffer) ← decodeVarint buffer
    return ({ p with msg := set value p.msg }, buffer)

/-- The fields with their tags -/
def decoders : List (List UInt8 × FieldDecoder Parsing) :=
  [(tagBytes 1 .lengthDelimited, bytesDecoder fun value p =>
      { p with msg := { p.msg with key := text value }, hasKey := true }),
    (tagBytes 2 .lengthDelimited, bytesDecoder fun data p =>
      { p with msg := { p.msg with data }, hasData := true }),
    (tagBytes 3 .fixed64, doubleDecoder fun value msg => { msg with daemonTimestampMsec := value }),
    (tagBytes 4 .lengthDelimited, bytesDecoder fun value p =>
      { p with msg := { p.msg with hostname := some (text value) } }),
    (tagBytes 5 .fixed64, doubleDecoder fun value msg => { msg with sampleFrequencyMsec := value }),
    (tagBytes 6 .fixed64, doubleDecoder fun value msg => { msg with sampleDurationMsec := value }),
    (tagBytes 7 .fixed64, doubleDecoder fun value msg => { msg with scheduleDriftMsec := value }),
    (tagBytes 8 .fixed64, doubleDecoder fun value msg =>
      { msg with scheduleDurationMsec := value }),
    (tagBytes 9 .varint, uintDecoder fun value msg => { msg with actualHz := some (.ofNat value) }),
    (tagBytes 10 .varint, uintDecoder fun value msg =>
      { msg with networkMessageSizeBytes := some (.ofNat value) }),
    (tagBytes 11 .varint, uintDecoder fun value msg =>
      { msg with serverSequenceNumber := some (.ofNat value) }),
    (tagBytes 12 .varint, uintDecoder fun value msg =>
      { msg with daemonQueueSize := some (.ofNat value) }),
    (tagBytes 13 .varint, uintDecoder fun value msg =>
      { msg with serverQueueSize := some (.ofNat value) }),
    (tagBytes 14 .varint, uintDecoder fun value msg =>
      { msg with daemonNumServerConnections := some (.ofNat value) }),
    (tagBytes 15 .fixed64, doubleDecoder fun value msg =>
      { msg with serverTimestampMsec := value }),
    (tagBytes 16 .varint, uintDecoder fun value msg =>
      { msg with serverNumBytesPerSecNetworkReceive := some (.ofNat value) }),
    (tagBytes 17 .fixed64, doubleDecoder fun value msg =>
      { msg with previousHandlerExecutionTimeMsec := value }),
    (tagBytes 18 .varint, uintDecoder fun value msg =>
      { msg with collectorSequenceNumber := some (.ofNat value) })]

/-- `ParseFromArray` -/
def parseFromArray (bytes : List UInt8) : WallmonMessage × Bool :=
  match mergeFromString (fun tag => decoders.lookup tag) 100 ⟨{}, false, false⟩ bytes with
  | .error _ => ({}, false)
  | .ok p => (p.msg, p.hasKey && p.hasData)

/-- Protobuf, for messages of these fields -/
def wallmonProto : Protobuf where
  parseFromArray _ bytes := parseFromArray bytes
  clears _ _ _ := rfl
  required _ := rfl

/-- Serialisation of messages whose values fit -/
def wallmonSerializer : Serializer wallmonProto where
  serialize := serialize
  Holds msg := wallmonProto.parseFromArray {} (serialize msg) = (msg, true)
  parse_serialize := id

/-- A fraction is read as it was written. -/
example : parseFromArray (serialize { key := "k", scheduleDriftMsec := some (-5 / 4) }) =
    ({ key := "k", scheduleDriftMsec := some (-5 / 4) }, true) := by decide +kernel

end MessageFormat

end WallMon
