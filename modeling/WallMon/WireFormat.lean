import Mathlib.Data.Nat.Bitwise
import Mathlib.Tactic.Positivity
import Mathlib.Tactic.Ring
import WallMon.Utf8

/-!
# The wire format of protocol buffers

The Python implementation that comes with the dispatcher: varints, tags, fields that are skipped,
and the loop of `_InternalParse`, over any message class. A class is given by its decoders; a
position in the buffer is the rest of the buffer, and the end of the message is that of the buffer.
An exception takes the message with it.

Groups are skipped by two functions that call each other, so it depends on Python's recursion limit
how deep they may be. Any field needs three frames on the stack besides that of `_InternalParse`:
`spare` is how many more fit.

What is parsed of fields, one after another, is what they do one after another
(`mergeFromString_fields`): known ones by their decoders, and the others, groups among them that
are not too deep, not at all.
-/

namespace WallMon

namespace WireFormat

/-- Why a message is not parsed -/
inductive DecodeError where
  /-- `IndexError`, or "Truncated message." -/
  | truncated
  /-- "Too many bytes when decoding varint." -/
  | tooManyBytes
  /-- "Tag had invalid wire type." -/
  | invalidWireType
  /-- "Unexpected end-group tag." -/
  | endGroup
  /-- a string is not UTF-8 -/
  | unicode
  /-- "maximum recursion depth exceeded" -/
  | recursion
  /-- a loop was given too little fuel -/
  | outOfFuel
  deriving DecidableEq

/-! ## Encoding -/

/-- `_EncodeVarint` -/
def encodeVarint (value : ℕ) : List UInt8 :=
  if value < 128 then [UInt8.ofNat value]
  else UInt8.ofNat (value % 128 + 128) :: encodeVarint (value / 128)
termination_by value
decreasing_by omega

/-- `_EncodeSignedVarint` -/
def encodeSignedVarint (value : ℤ) : List UInt8 :=
  encodeVarint (if value < 0 then value + 2 ^ 64 else value).toNat

/-- The wire types -/
inductive WireType where
  /-- `WIRETYPE_VARINT` -/
  | varint
  /-- `WIRETYPE_FIXED64` -/
  | fixed64
  /-- `WIRETYPE_LENGTH_DELIMITED` -/
  | lengthDelimited
  /-- `WIRETYPE_START_GROUP` -/
  | startGroup
  /-- `WIRETYPE_END_GROUP` -/
  | endGroup
  /-- `WIRETYPE_FIXED32` -/
  | fixed32
  deriving DecidableEq

/-- The number of a wire type -/
def WireType.toNat : WireType → ℕ
  | .varint => 0
  | .fixed64 => 1
  | .lengthDelimited => 2
  | .startGroup => 3
  | .endGroup => 4
  | .fixed32 => 5

/-- `TagBytes` -/
def tagBytes (fieldNumber : ℕ) (wireType : WireType) : List UInt8 :=
  encodeVarint (fieldNumber * 8 + wireType.toNat)

/-! ## Decoding -/

/-- The loop of `DecodeVarint`, before the mask. The bits of a byte are not set in the result
yet. -/
def decodeVarintFrom (shift : ℕ) : List UInt8 → Except DecodeError (ℕ × List UInt8)
  | [] => .error .truncated
  | b :: buffer =>
    let bits := b.toNat % 128 * 2 ^ shift
    if b < 128 then .ok (bits, buffer)
    else if shift + 7 ≥ 64 then .error .tooManyBytes
    else do
      let (result, buffer) ← decodeVarintFrom (shift + 7) buffer
      return (bits + result, buffer)

/-- `_DecodeVarint` -/
def decodeVarint (buffer : List UInt8) : Except DecodeError (ℕ × List UInt8) := do
  let (result, buffer) ← decodeVarintFrom 0 buffer
  return (result % 2 ^ 64, buffer)

/-- `_DecodeSignedVarint32`: of a negative number the low 32 bits are kept. -/
def decodeSignedVarint32 (buffer : List UInt8) : Except DecodeError (ℤ × List UInt8) := do
  let (result, buffer) ← decodeVarintFrom 0 buffer
  if result > 0x7fffffffffffffff then return (result % 2 ^ 32 - 2 ^ 32, buffer)
  else return (result % 2 ^ 32, buffer)

/-- `ReadTag` -/
def readTag : List UInt8 → Except DecodeError (List UInt8 × List UInt8)
  | [] => .error .truncated
  | b :: buffer =>
    if b < 128 then .ok ([b], buffer)
    else do
      let (tag, buffer) ← readTag buffer
      return (b :: tag, buffer)

/-- Goes some bytes ahead, unless the message is truncated. -/
def advance (size : ℕ) (buffer : List UInt8) : Except DecodeError (List UInt8) :=
  if size ≤ buffer.length then .ok (buffer.drop size) else .error .truncated

/-- A call of a function, when so many frames fit on the stack; its body is left one less. -/
def call {α : Type} (frames : ℕ) (body : ℕ → Except DecodeError α) : Except DecodeError α :=
  match frames with
  | 0 => .error .recursion
  | frames + 1 => body frames

/-- `_SkipVarint` -/
def skipVarint (frames : ℕ) (buffer : List UInt8) : Except DecodeError (List UInt8) :=
  call frames fun _ => do
    -- the loop is that of `ReadTag`
    let (_, buffer) ← readTag buffer
    return buffer

/-- `_SkipFixed64` and `_SkipFixed32` -/
def skipFixed (size frames : ℕ) (buffer : List UInt8) : Except DecodeError (List UInt8) :=
  call frames fun _ => advance size buffer

/-- `_SkipLengthDelimited` -/
def skipLengthDelimited (frames : ℕ) (buffer : List UInt8) : Except DecodeError (List UInt8) :=
  call frames fun frames => do
    let (size, buffer) ← call frames fun _ => decodeVarint buffer
    advance size buffer

/-- `SkipField`, with what skips a group; `none` for an end-group tag -/
def skipField (skipGroup : ℕ → List UInt8 → Except DecodeError (List UInt8)) (frames : ℕ)
    (tagBytes buffer : List UInt8) : Except DecodeError (Option (List UInt8)) :=
  call frames fun frames =>
    match (tagBytes.headD 0).toNat % 8 with
    | 0 => some <$> skipVarint frames buffer
    | 1 => some <$> skipFixed 8 frames buffer
    | 2 => some <$> skipLengthDelimited frames buffer
    | 3 => some <$> skipGroup frames buffer
    -- `_EndGroup`
    | 4 => call frames fun _ => .ok none
    | 5 => some <$> skipFixed 4 frames buffer
    -- `_RaiseInvalidWireType`
    | _ => call frames fun _ => .error .invalidWireType

/-- `_SkipGroup`; each round is in the frame of the first. -/
def skipGroup : ℕ → ℕ → List UInt8 → Except DecodeError (List UInt8)
  | 0, _, _ => .error .outOfFuel
  | fuel + 1, frames, buffer =>
    call frames fun frames' => do
      let (tagBytes, buffer) ← call frames' fun _ => readTag buffer
      match ← skipField (skipGroup fuel) frames' tagBytes buffer with
      | none => return buffer
      | some buffer => skipGroup fuel frames buffer

variable {σ : Type}

/-- The decoder of a field, of a class with fields `σ` -/
abbrev FieldDecoder (σ : Type) := σ → List UInt8 → Except DecodeError (σ × List UInt8)

/-- `_decoders_by_tag` -/
abbrev DecodersByTag (σ : Type) := List UInt8 → Option (FieldDecoder σ)

/-- A round of the loop of `_InternalParse`; `none` for an end-group tag -/
def parseField (decodersByTag : DecodersByTag σ) (spare fuel : ℕ) (fields : σ)
    (buffer : List UInt8) : Except DecodeError (Option (σ × List UInt8)) := do
  let (tagBytes, buffer) ← readTag buffer
  match decodersByTag tagBytes with
  | none => return (← skipField (skipGroup fuel) (spare + 3) tagBytes buffer).map (fields, ·)
  | some fieldDecoder => some <$> fieldDecoder fields buffer

/-- `_InternalParse` -/
def internalParse (decodersByTag : DecodersByTag σ) (spare : ℕ) :
    ℕ → σ → List UInt8 → Except DecodeError (σ × List UInt8)
  | 0, _, _ => .error .outOfFuel
  | fuel + 1, fields, buffer =>
    if buffer = [] then .ok (fields, [])
    else do
      match ← parseField decodersByTag spare fuel fields buffer with
      | none => return (fields, buffer)
      | some (fields, buffer) => internalParse decodersByTag spare fuel fields buffer

/-- `EncodeField` of `EnumEncoder` -/
def enumEncoder (fieldNumber : ℕ) (value : ℤ) : List UInt8 :=
  tagBytes fieldNumber .varint ++ encodeSignedVarint value

/-- `DecodeField` of `EnumDecoder`, with what sets the field -/
def enumDecoder (set : ℤ → σ → σ) : FieldDecoder σ := fun fields buffer => do
  let (value, buffer) ← decodeSignedVarint32 buffer
  return (set value fields, buffer)

/-- `EncodeField` of `BytesEncoder` -/
def bytesEncoder (fieldNumber : ℕ) (value : List UInt8) : List UInt8 :=
  tagBytes fieldNumber .lengthDelimited ++ encodeVarint value.length ++ value

/-- `DecodeField` of `BytesDecoder` -/
def bytesDecoder (set : List UInt8 → σ → σ) : FieldDecoder σ := fun fields buffer => do
  let (size, buffer) ← decodeVarint buffer
  let rest ← advance size buffer
  return (set (buffer.take size) fields, rest)

/-- `EncodeField` of `StringEncoder` -/
def stringEncoder (fieldNumber : ℕ) (value : Unicode) : List UInt8 :=
  let encoded := value.encode
  tagBytes fieldNumber .lengthDelimited ++ encodeVarint encoded.length ++ encoded

/-- `DecodeField` of `StringDecoder` -/
def stringDecoder (set : Unicode → σ → σ) : FieldDecoder σ := fun fields buffer => do
  let (size, buffer) ← decodeVarint buffer
  let rest ← advance size buffer
  match Unicode.decode (buffer.take size) with
  | none => .error .unicode
  | some value => return (set value fields, rest)

/-- `MergeFromString` -/
def mergeFromString (decodersByTag : DecodersByTag σ) (spare : ℕ) (fields : σ)
    (serialized : List UInt8) : Except DecodeError σ := do
  let (fields, buffer) ←
    internalParse decodersByTag spare (serialized.length + 1) fields serialized
  if buffer = [] then return fields else .error .endGroup

/-! ## What is written is read -/

@[simp] theorem ok_bind {α β : Type} (a : α) (f : α → Except DecodeError β) :
    (.ok a : Except DecodeError α) >>= f = f a := rfl

theorem toNat_byte {n : ℕ} (h : n < 256) : (UInt8.ofNat n).toNat = n :=
  UInt8.toNat_ofNat_of_lt' h

theorem encodeVarint_ne_nil (value : ℕ) : encodeVarint value ≠ [] := by
  rw [encodeVarint]
  split <;> exact List.cons_ne_nil _ _

/-- The last byte of a varint is below 128. -/
theorem byte_lt {value : ℕ} (h : value < 128) : UInt8.ofNat value < 128 := by
  rw [UInt8.lt_iff_toNat_lt, toNat_byte (by omega)]
  exact h

/-- The others are not. -/
theorem not_byte_lt (value : ℕ) : ¬UInt8.ofNat (value % 128 + 128) < 128 := by
  rw [UInt8.lt_iff_toNat_lt, toNat_byte (by omega)]
  have hbyte : (128 : UInt8).toNat = 128 := rfl
  omega

/-- **A varint** is read back, if it fits. -/
theorem decodeVarintFrom_encodeVarint {value shift : ℕ} (h : value * 2 ^ shift < 2 ^ 64)
    (rest : List UInt8) :
    decodeVarintFrom shift (encodeVarint value ++ rest) = .ok (value * 2 ^ shift, rest) := by
  induction value using encodeVarint.induct generalizing shift with
  | case1 value hlt =>
    rw [encodeVarint, if_pos hlt, List.singleton_append, decodeVarintFrom, if_pos (byte_lt hlt),
      toNat_byte (by omega), Nat.mod_eq_of_lt hlt]
  | case2 value hge ih =>
    have hpow : 2 ^ (shift + 7) = 2 ^ shift * 128 := by
      rw [pow_add]
      norm_num
    have hpos : 0 < 2 ^ shift := by positivity
    have hsplit : value % 128 * 2 ^ shift + value / 128 * 2 ^ (shift + 7) = value * 2 ^ shift := by
      rw [hpow]
      calc value % 128 * 2 ^ shift + value / 128 * (2 ^ shift * 128)
          = (value % 128 + 128 * (value / 128)) * 2 ^ shift := by ring
        _ = value * 2 ^ shift := by rw [Nat.mod_add_div]
    have hshift : ¬shift + 7 ≥ 64 := by
      intro hle
      have hbig : 2 ^ 64 ≤ 2 ^ (shift + 7) := Nat.pow_le_pow_right (by decide) hle
      have hmul : 128 * 2 ^ shift ≤ value * 2 ^ shift := Nat.mul_le_mul_right _ (not_lt.mp hge)
      omega
    rw [encodeVarint, if_neg hge, List.cons_append, decodeVarintFrom, if_neg (not_byte_lt value),
      if_neg hshift, ih (by omega), ok_bind, toNat_byte (by omega), Nat.add_mod_right, Nat.mod_mod]
    dsimp only
    rw [hsplit]
    rfl

theorem decodeVarint_encodeVarint {value : ℕ} (h : value < 2 ^ 64) (rest : List UInt8) :
    decodeVarint (encodeVarint value ++ rest) = .ok (value, rest) := by
  have hread : decodeVarintFrom 0 (encodeVarint value ++ rest) = .ok (value * 2 ^ 0, rest) :=
    decodeVarintFrom_encodeVarint (by omega) rest
  rw [pow_zero, Nat.mul_one] at hread
  rw [decodeVarint, hread, ok_bind]
  dsimp only
  rw [Nat.mod_eq_of_lt h]
  rfl

/-- **A signed varint** is read back: of 32 bits, or what is kept of a longer one. -/
theorem decodeSignedVarint32_encodeSignedVarint {value : ℤ} (hlow : -2 ^ 32 ≤ value)
    (hhigh : value < 2 ^ 32) (rest : List UInt8) :
    decodeSignedVarint32 (encodeSignedVarint value ++ rest) = .ok (value, rest) := by
  have hfits : (if value < 0 then value + 2 ^ 64 else value).toNat * 2 ^ 0 < 2 ^ 64 := by
    split <;> omega
  rw [decodeSignedVarint32, encodeSignedVarint, decodeVarintFrom_encodeVarint hfits, ok_bind,
    pow_zero, Nat.mul_one]
  dsimp only
  by_cases hneg : value < 0
  · rw [if_pos hneg, if_pos (by omega)]
    have heq : ((value + 2 ^ 64).toNat : ℤ) % 2 ^ 32 - 2 ^ 32 = value := by omega
    rw [heq]
    rfl
  · rw [if_neg hneg, if_neg (by omega)]
    have heq : (value.toNat : ℤ) % 2 ^ 32 = value := by omega
    rw [heq]
    rfl

theorem readTag_encodeVarint (value : ℕ) (rest : List UInt8) :
    readTag (encodeVarint value ++ rest) = .ok (encodeVarint value, rest) := by
  induction value using encodeVarint.induct with
  | case1 value hlt =>
    rw [encodeVarint, if_pos hlt, List.singleton_append, readTag, if_pos (byte_lt hlt)]
  | case2 value hge ih =>
    rw [encodeVarint, if_neg hge, List.cons_append, readTag, if_neg (not_byte_lt value), ih]
    rfl

/-- **A tag** is read as its bytes. -/
theorem readTag_tagBytes (fieldNumber : ℕ) (wireType : WireType) (rest : List UInt8) :
    readTag (tagBytes fieldNumber wireType ++ rest) = .ok (tagBytes fieldNumber wireType, rest) :=
  readTag_encodeVarint _ rest

theorem tagBytes_length_pos (fieldNumber : ℕ) (wireType : WireType) :
    0 < (tagBytes fieldNumber wireType).length :=
  List.length_pos_iff.mpr (encodeVarint_ne_nil _)

/-- The wire type is in the first byte. -/
theorem headD_tagBytes (fieldNumber : ℕ) (wireType : WireType) :
    ((tagBytes fieldNumber wireType).headD 0).toNat % 8 = wireType.toNat := by
  have hlt : wireType.toNat < 8 := by cases wireType <;> decide
  rw [tagBytes, encodeVarint]
  split
  · rw [List.headD_cons, toNat_byte (by omega)]
    omega
  · rw [List.headD_cons, toNat_byte (by omega)]
    omega

theorem advance_append (bytes rest : List UInt8) :
    advance bytes.length (bytes ++ rest) = .ok rest := by
  rw [advance, if_pos (by rw [List.length_append]; exact Nat.le_add_right _ _), List.drop_left]

/-- The value of an enum field is read back. -/
theorem enumDecoder_encodeSignedVarint (set : ℤ → σ → σ) {value : ℤ} (hlow : -2 ^ 32 ≤ value)
    (hhigh : value < 2 ^ 32) (fields : σ) (rest : List UInt8) :
    enumDecoder set fields (encodeSignedVarint value ++ rest) = .ok (set value fields, rest) := by
  rw [enumDecoder, decodeSignedVarint32_encodeSignedVarint hlow hhigh]
  rfl

/-- The value of a bytes field is read back. -/
theorem bytesDecoder_encodeVarint (set : List UInt8 → σ → σ) {value : List UInt8}
    (hlength : value.length < 2 ^ 64) (fields : σ) (rest : List UInt8) :
    bytesDecoder set fields (encodeVarint value.length ++ value ++ rest) =
      .ok (set value fields, rest) := by
  rw [List.append_assoc, bytesDecoder, decodeVarint_encodeVarint hlength, ok_bind]
  dsimp only
  rw [advance_append, ok_bind, List.take_left]
  rfl

/-- The value of a string field is read. -/
theorem stringDecoder_encodeVarint (set : Unicode → σ → σ) {bytes : List UInt8} {value : Unicode}
    (hvalue : Unicode.decode bytes = some value) (hlength : bytes.length < 2 ^ 64) (fields : σ)
    (rest : List UInt8) :
    stringDecoder set fields (encodeVarint bytes.length ++ bytes ++ rest) =
      .ok (set value fields, rest) := by
  rw [List.append_assoc, stringDecoder, decodeVarint_encodeVarint hlength, ok_bind]
  dsimp only
  rw [advance_append, ok_bind, List.take_left, hvalue]
  rfl

/-! ## Fields that are skipped -/

/-- The tag and the value of a field that can be skipped in so many frames: a value of any type, or
a group of fields that can be skipped in two frames less -/
inductive Skips : ℕ → List UInt8 → List UInt8 → Prop where
  /-- an integer -/
  | varint (frames fieldNumber value : ℕ) :
      Skips (frames + 2) (tagBytes fieldNumber .varint) (encodeVarint value)
  /-- 8 bytes -/
  | fixed64 (frames fieldNumber : ℕ) {bytes : List UInt8} :
      bytes.length = 8 → Skips (frames + 2) (tagBytes fieldNumber .fixed64) bytes
  /-- bytes after their number -/
  | lengthDelimited (frames fieldNumber : ℕ) {bytes : List UInt8} : bytes.length < 2 ^ 64 →
      Skips (frames + 3) (tagBytes fieldNumber .lengthDelimited)
        (encodeVarint bytes.length ++ bytes)
  /-- fields up to an end-group tag -/
  | group (frames fieldNumber endNumber : ℕ) {fields : List (List UInt8 × List UInt8)} :
      (∀ field ∈ fields, Skips (frames + 2) field.1 field.2) →
      Skips (frames + 4) (tagBytes fieldNumber .startGroup)
        (fields.flatMap (fun field => field.1 ++ field.2) ++ tagBytes endNumber .endGroup)
  /-- 4 bytes -/
  | fixed32 (frames fieldNumber : ℕ) {bytes : List UInt8} :
      bytes.length = 4 → Skips (frames + 2) (tagBytes fieldNumber .fixed32) bytes

/-- A tag that can be skipped is a tag. -/
theorem Skips.exists_tagBytes {frames : ℕ} {tag value : List UInt8} (h : Skips frames tag value) :
    ∃ fieldNumber wireType, tag = tagBytes fieldNumber wireType := by
  cases h <;> exact ⟨_, _, rfl⟩

/-- Skipping by the wire type. -/
theorem skipField_tagBytes (group : ℕ → List UInt8 → Except DecodeError (List UInt8))
    (frames fieldNumber : ℕ) (wireType : WireType) (buffer : List UInt8) :
    skipField group (frames + 1) (tagBytes fieldNumber wireType) buffer =
      match wireType with
      | .varint => some <$> skipVarint frames buffer
      | .fixed64 => some <$> skipFixed 8 frames buffer
      | .lengthDelimited => some <$> skipLengthDelimited frames buffer
      | .startGroup => some <$> group frames buffer
      | .endGroup => call frames fun _ => .ok none
      | .fixed32 => some <$> skipFixed 4 frames buffer := by
  rw [skipField, call, headD_tagBytes]
  cases wireType <;> rfl

/-- Fields of a group are skipped up to its end. -/
theorem skipGroup_fields {frames : ℕ} {fields : List (List UInt8 × List UInt8)}
    (hfields : ∀ field ∈ fields, Skips (frames + 2) field.1 field.2 ∧
      ∀ fuel rest, field.2.length ≤ fuel →
        skipField (skipGroup fuel) (frames + 2) field.1 (field.2 ++ rest) = .ok (some rest))
    (endNumber : ℕ) (rest : List UInt8) {fuel : ℕ}
    (hfuel : (fields.flatMap (fun field => field.1 ++ field.2) ++
      tagBytes endNumber .endGroup).length ≤ fuel) :
    skipGroup fuel (frames + 3) (fields.flatMap (fun field => field.1 ++ field.2) ++
      tagBytes endNumber .endGroup ++ rest) = .ok rest := by
  have hend := tagBytes_length_pos endNumber .endGroup
  induction fields generalizing fuel with
  | nil =>
    obtain ⟨fuel, rfl⟩ : ∃ k, fuel = k + 1 := ⟨fuel - 1, by simp at hfuel; omega⟩
    rw [List.flatMap_nil, List.nil_append, skipGroup, call, call, readTag_tagBytes, ok_bind]
    dsimp only
    rw [skipField_tagBytes]
    rfl
  | cons field fields ih =>
    obtain ⟨⟨hskips, hskip⟩, hrest⟩ := List.forall_mem_cons.mp hfields
    obtain ⟨fieldNumber, wireType, htag⟩ := hskips.exists_tagBytes
    have hpos := tagBytes_length_pos fieldNumber wireType
    rw [List.flatMap_cons, List.append_assoc, List.append_assoc, List.length_append,
      List.length_append, htag] at hfuel
    obtain ⟨fuel, rfl⟩ : ∃ k, fuel = k + 1 := ⟨fuel - 1, by omega⟩
    rw [List.flatMap_cons, List.append_assoc, List.append_assoc, List.append_assoc, skipGroup,
      call, call, htag, readTag_tagBytes, ok_bind]
    dsimp only
    rw [← htag, hskip fuel _ (by omega), ok_bind]
    dsimp only
    rw [← List.append_assoc]
    exact ih hrest (by omega)

/-- **A field is skipped**, whatever it is. -/
theorem Skips.skipField {frames : ℕ} {tag value : List UInt8} (h : Skips frames tag value)
    (fuel : ℕ) (rest : List UInt8) (hfuel : value.length ≤ fuel) :
    skipField (skipGroup fuel) frames tag (value ++ rest) = .ok (some rest) := by
  induction h generalizing fuel rest with
  | varint frames fieldNumber value =>
    rw [skipField_tagBytes, skipVarint, call, readTag_encodeVarint]
    rfl
  | fixed64 frames fieldNumber hlength =>
    rw [skipField_tagBytes]
    dsimp only
    rw [skipFixed, call, ← hlength, advance_append]
    rfl
  | lengthDelimited frames fieldNumber hlength =>
    rw [skipField_tagBytes, List.append_assoc]
    dsimp only
    rw [skipLengthDelimited, call, call, decodeVarint_encodeVarint hlength, ok_bind]
    dsimp only
    rw [advance_append]
    rfl
  | group frames fieldNumber endNumber hfields ih =>
    rw [skipField_tagBytes]
    dsimp only
    rw [skipGroup_fields (fun field hfield => ⟨hfields field hfield, ih field hfield⟩) _ _ hfuel]
    rfl
  | fixed32 frames fieldNumber hlength =>
    rw [skipField_tagBytes]
    dsimp only
    rw [skipFixed, call, ← hlength, advance_append]
    rfl

/-! ## Messages -/

/-- A field in a message of a class: its bytes, and what becomes of the fields that are set when
it is parsed -/
structure Field (decodersByTag : DecodersByTag σ) (spare : ℕ) where
  /-- tag and value -/
  bytes : List UInt8
  /-- what is set -/
  effect : σ → σ
  /-- there is a tag -/
  bytes_length_pos : 0 < bytes.length
  /-- it is parsed -/
  parseField_bytes (fuel : ℕ) (fields : σ) (rest : List UInt8) : bytes.length ≤ fuel + 1 →
    parseField decodersByTag spare fuel fields (bytes ++ rest) = .ok (some (effect fields, rest))

variable {decodersByTag : DecodersByTag σ} {spare : ℕ}

/-- A field that the class has -/
def Field.known {fieldNumber : ℕ} {wireType : WireType}
    {decoder : FieldDecoder σ} (value : List UInt8)
    (effect : σ → σ)
    (hdecoder : decodersByTag (tagBytes fieldNumber wireType) = some decoder)
    (heffect : ∀ fields rest, decoder fields (value ++ rest) = .ok (effect fields, rest)) :
    Field decodersByTag spare where
  bytes := tagBytes fieldNumber wireType ++ value
  effect := effect
  bytes_length_pos := by
    have hpos := tagBytes_length_pos fieldNumber wireType
    rw [List.length_append]
    omega
  parseField_bytes fuel fields rest _ := by
    rw [List.append_assoc, parseField, readTag_tagBytes, ok_bind]
    dsimp only
    rw [hdecoder]
    dsimp only
    rw [heffect]
    rfl

/-- A field that the class does not have -/
def Field.unknown {tag value : List UInt8} (hskips : Skips (spare + 3) tag value)
    (hdecoder : decodersByTag tag = none) : Field decodersByTag spare where
  bytes := tag ++ value
  effect := id
  bytes_length_pos := by
    obtain ⟨fieldNumber, wireType, rfl⟩ := hskips.exists_tagBytes
    have hpos := tagBytes_length_pos fieldNumber wireType
    rw [List.length_append]
    omega
  parseField_bytes fuel fields rest hfuel := by
    have hskip := hskips.skipField fuel rest
    obtain ⟨fieldNumber, wireType, rfl⟩ := hskips.exists_tagBytes
    have hpos := tagBytes_length_pos fieldNumber wireType
    rw [List.length_append] at hfuel
    rw [List.append_assoc, parseField, readTag_tagBytes, ok_bind]
    dsimp only
    rw [hdecoder]
    dsimp only
    rw [hskip (by omega)]
    rfl

/-- The fields are parsed one after another. -/
theorem internalParse_fields (items : List (Field decodersByTag spare)) (fields : σ) {fuel : ℕ}
    (hfuel : (items.flatMap (·.bytes)).length < fuel) :
    internalParse decodersByTag spare fuel fields (items.flatMap (·.bytes)) =
      .ok (items.foldl (fun fields item => item.effect fields) fields, []) := by
  induction items generalizing fields fuel with
  | nil =>
    obtain ⟨fuel, rfl⟩ : ∃ k, fuel = k + 1 := ⟨fuel - 1, by omega⟩
    rw [List.flatMap_nil, internalParse, if_pos rfl, List.foldl_nil]
  | cons item items ih =>
    have hpos := item.bytes_length_pos
    rw [List.flatMap_cons, List.length_append] at hfuel
    obtain ⟨fuel, rfl⟩ : ∃ k, fuel = k + 1 := ⟨fuel - 1, by omega⟩
    have hne : item.bytes ++ items.flatMap (·.bytes) ≠ [] :=
      List.append_ne_nil_of_left_ne_nil (List.length_pos_iff.mp hpos) _
    rw [List.flatMap_cons, internalParse, if_neg hne, item.parseField_bytes _ _ _ (by omega),
      ok_bind]
    dsimp only
    rw [ih _ (by omega), List.foldl_cons]

/-- **A message** is parsed as what its fields do one after another. -/
theorem mergeFromString_fields (items : List (Field decodersByTag spare)) (fields : σ) :
    mergeFromString decodersByTag spare fields (items.flatMap (·.bytes)) =
      .ok (items.foldl (fun fields item => item.effect fields) fields) := by
  rw [mergeFromString, internalParse_fields items fields (Nat.lt_succ_self _), ok_bind]
  rfl

end WireFormat

end WallMon
