import WallMon.WireParsing

/-!
# `MonitorDispatcherMessage` in Python

The class that the dispatcher makes its datagrams with: what its setters check, and how it is
serialized, parsed and merged. `Made` has the messages a program can come by, from setters and
from bytes.

The fields of a serialized message may come in any order and more than once, with fields of other
versions of the class among them: the last value counts (`parsed_in_order`). And a message that is
made is read back as it is, but for pairs of surrogates in its path (`read_back`).
-/

namespace WallMon

open WireFormat

/-- What Python raises, of the calls that the dispatcher makes -/
inductive PythonError where
  /-- an index that is not in a list -/
  | indexError
  /-- a directory cannot be listed -/
  | osError
  /-- a value is not one of the field's -/
  | valueError
  /-- "Message is missing required fields" -/
  | encodeError
  deriving DecidableEq

/-- A value for a string field -/
inductive Text where
  /-- a `str` -/
  | str (bytes : List UInt8)
  /-- a `unicode` -/
  | unicode (value : Unicode)

/-- A `str` is 7-bit ASCII. -/
def isAscii (bytes : List UInt8) : Bool :=
  bytes.all (· < 128)

/-- The text of a `str` in 7-bit ASCII -/
def ofAscii (bytes : List UInt8) : Unicode where
  chars := bytes.map UInt8.toNat
  lt ch hch := by
    obtain ⟨b, -, rfl⟩ := List.mem_map.mp hch
    exact lt_trans b.toNat_lt (by decide)

/-- `UnicodeValueChecker.CheckValue`, with the text of the value: a `str` is 7-bit ASCII. -/
def Text.checkValue : Text → Except PythonError Unicode
  | str bytes => if isAscii bytes then .ok (ofAscii bytes) else .error .valueError
  | unicode value => .ok value

theorem toNat_lt_of_isAscii {bytes : List UInt8} (h : isAscii bytes) {b : UInt8}
    (hb : b ∈ bytes) : b.toNat < 128 :=
  UInt8.lt_iff_toNat_lt.mp (of_decide_eq_true (List.all_eq_true.mp h b hb))

/-- There are no surrogates in ASCII. -/
theorem joined_ofAscii {bytes : List UInt8} (h : isAscii bytes) :
    Utf8.Joined (ofAscii bytes).chars := by
  refine (List.pairwise_of_forall_mem_list fun ch hch ch₂ _ hpair => ?_).isChain
  obtain ⟨b, hb, rfl⟩ := List.mem_map.mp hch
  have hhigh := hpair.1.1
  have hlt := toNat_lt_of_isAscii h hb
  omega

/-- The UTF-8 of ASCII is that ASCII. -/
theorem encode_ofAscii {bytes : List UInt8} (h : isAscii bytes) :
    (ofAscii bytes).encode = bytes := by
  have hchars : (bytes.map UInt8.toNat).flatMap Utf8.encodeChar = bytes := by
    rw [List.flatMap_map]
    calc bytes.flatMap (fun b => Utf8.encodeChar b.toNat)
        = bytes.flatMap fun b => [b] := List.flatMap_congr fun b hb => by
          rw [Utf8.encodeChar, if_pos (toNat_lt_of_isAscii h hb), UInt8.ofNat_toNat]
      _ = bytes := List.flatMap_singleton' bytes
  rw [Unicode.encode, Utf8.encode_eq, (Utf8.join_eq_self_iff _).mpr (joined_ofAscii h)]
  exact hchars

/-- `MonitorDispatcherMessage`: the fields that are set -/
@[ext] structure MonitorDispatcherMessage where
  /-- `type`, by its number -/
  type : Option ℤ
  /-- `filePath` -/
  filePath : Option Unicode
  /-- `eventData` -/
  eventData : Option (List UInt8)
  deriving DecidableEq

namespace MonitorDispatcherMessage

/-- `INIT` -/
def init : ℤ := 0

/-- `STOP` -/
def stop : ℤ := 1

/-- `EVENT` -/
def event : ℤ := 2

/-- A new message -/
def new : MonitorDispatcherMessage where
  type := none
  filePath := none
  eventData := none

/-- The setter of `type`: any number of 32 bits -/
def setType (value : ℤ) (m : MonitorDispatcherMessage) :
    Except PythonError MonitorDispatcherMessage :=
  if -2147483648 ≤ value ∧ value ≤ 2147483647 then .ok { m with type := some value }
  else .error .valueError

/-- The setter of `filePath` -/
def setFilePath (value : Text) (m : MonitorDispatcherMessage) :
    Except PythonError MonitorDispatcherMessage := do
  let filePath ← value.checkValue
  return { m with filePath := some filePath }

/-- The setter of `eventData` -/
def setEventData (value : List UInt8) (m : MonitorDispatcherMessage) : MonitorDispatcherMessage :=
  { m with eventData := some value }

/-- `SerializePartialToString`: the fields that are set, by their numbers -/
def serializePartialToString (m : MonitorDispatcherMessage) : List UInt8 :=
  (m.type.map (enumEncoder 3)).getD [] ++ (m.filePath.map (stringEncoder 4)).getD [] ++
    (m.eventData.map (bytesEncoder 5)).getD []

/-- `SerializeToString`: `type` is required. -/
def serializeToString (m : MonitorDispatcherMessage) : Except PythonError (List UInt8) :=
  if m.type = none then .error .encodeError else .ok m.serializePartialToString

/-- `_decoders_by_tag` -/
def decodersByTag : DecodersByTag MonitorDispatcherMessage := fun tag =>
  if tag = tagBytes 3 .varint then
    some (enumDecoder fun value m => { m with type := some value })
  else if tag = tagBytes 4 .lengthDelimited then
    some (stringDecoder fun value m => { m with filePath := some value })
  else if tag = tagBytes 5 .lengthDelimited then
    some (bytesDecoder fun value m => { m with eventData := some value })
  else none

/-- `MergeFromString` -/
def mergeFromString (spare : ℕ) (m : MonitorDispatcherMessage) (serialized : List UInt8) :
    Except DecodeError MonitorDispatcherMessage :=
  WireFormat.mergeFromString decodersByTag spare m serialized

/-- `MergeFrom` -/
def mergeFrom (m msg : MonitorDispatcherMessage) : MonitorDispatcherMessage where
  type := msg.type.or m.type
  filePath := msg.filePath.or m.filePath
  eventData := msg.eventData.or m.eventData

/-! ## Messages of any writer -/

/-- A field in a serialized message, when so many frames are spare -/
inductive Item (spare : ℕ) where
  /-- `type`: of 32 bits, or what is kept of a longer number -/
  | type (value : ℤ) (range : -2 ^ 32 ≤ value ∧ value < 2 ^ 32)
  /-- `filePath`: a string that can be decoded -/
  | filePath (encoded : List UInt8) (value : Unicode)
      (decoded : Unicode.decode encoded = some value) (length : encoded.length < 2 ^ 64)
  /-- `eventData` -/
  | eventData (value : List UInt8) (length : value.length < 2 ^ 64)
  /-- a field that the class does not have -/
  | unknown (tag value : List UInt8) (skips : Skips (spare + 3) tag value)
      (decoder : decodersByTag tag = none)

variable {spare : ℕ}

/-- The bytes of a field -/
def Item.bytes : Item spare → List UInt8
  | type value _ => enumEncoder 3 value
  | filePath encoded _ _ _ => bytesEncoder 4 encoded
  | eventData value _ => bytesEncoder 5 value
  | unknown tag value _ _ => tag ++ value

/-- What a field sets -/
def Item.set : Item spare → MonitorDispatcherMessage → MonitorDispatcherMessage
  | type value _, m => { m with type := some value }
  | filePath _ value _ _, m => { m with filePath := some value }
  | eventData value _, m => { m with eventData := some value }
  | unknown _ _ _ _, m => m

/-- The tags of the class are one byte. -/
theorem tagBytes_of_lt {fieldNumber : ℕ} {wireType : WireType}
    (h : fieldNumber * 8 + wireType.toNat < 128) :
    tagBytes fieldNumber wireType = [UInt8.ofNat (fieldNumber * 8 + wireType.toNat)] := by
  rw [tagBytes, encodeVarint, if_pos h]

theorem decodersByTag_type :
    decodersByTag (tagBytes 3 .varint) =
      some (enumDecoder fun value m => { m with type := some value }) :=
  if_pos rfl

theorem decodersByTag_filePath :
    decodersByTag (tagBytes 4 .lengthDelimited) =
      some (stringDecoder fun value m => { m with filePath := some value }) := by
  have htype : tagBytes 4 .lengthDelimited ≠ tagBytes 3 .varint := by
    rw [tagBytes_of_lt (by decide), tagBytes_of_lt (by decide)]
    decide
  rw [decodersByTag, if_neg htype, if_pos rfl]

theorem decodersByTag_eventData :
    decodersByTag (tagBytes 5 .lengthDelimited) =
      some (bytesDecoder fun value m => { m with eventData := some value }) := by
  have htype : tagBytes 5 .lengthDelimited ≠ tagBytes 3 .varint := by
    rw [tagBytes_of_lt (by decide), tagBytes_of_lt (by decide)]
    decide
  have hfilePath : tagBytes 5 .lengthDelimited ≠ tagBytes 4 .lengthDelimited := by
    rw [tagBytes_of_lt (by decide), tagBytes_of_lt (by decide)]
    decide
  rw [decodersByTag, if_neg htype, if_neg hfilePath, if_pos rfl]

/-- A decoder of the class is one of the three. -/
theorem decodersByTag_cases {tag : List UInt8} {decoder : FieldDecoder MonitorDispatcherMessage}
    (h : decodersByTag tag = some decoder) :
    (decoder = enumDecoder fun value m => { m with type := some value }) ∨
    (decoder = stringDecoder fun value m => { m with filePath := some value }) ∨
    (decoder = bytesDecoder fun value m => { m with eventData := some value }) := by
  rw [decodersByTag] at h
  split at h
  · exact .inl (Option.some.inj h).symm
  split at h
  · exact .inr (.inl (Option.some.inj h).symm)
  split at h
  · exact .inr (.inr (Option.some.inj h).symm)
  · cases h

/-- A field, as the parser meets it -/
def Item.field : Item spare → Field decodersByTag spare
  | type value range =>
    .known (encodeSignedVarint value) (fun m => { m with type := some value }) decodersByTag_type
      (enumDecoder_encodeSignedVarint _ range.1 range.2)
  | filePath encoded value decoded length =>
    .known (encodeVarint encoded.length ++ encoded) (fun m => { m with filePath := some value })
      decodersByTag_filePath (stringDecoder_encodeVarint _ decoded length)
  | eventData value length =>
    .known (encodeVarint value.length ++ value) (fun m => { m with eventData := some value })
      decodersByTag_eventData (bytesDecoder_encodeVarint _ length)
  | unknown _ _ skips decoder => .unknown skips decoder

theorem Item.field_bytes (item : Item spare) : item.field.bytes = item.bytes := by
  cases item with
  | type value range => rfl
  | filePath encoded value decoded length => exact (List.append_assoc _ _ _).symm
  | eventData value length => exact (List.append_assoc _ _ _).symm
  | unknown tag value skips decoder => rfl

theorem Item.field_effect (item : Item spare) : item.field.effect = item.set := by
  cases item <;> rfl

theorem decodersByTag_leaves {tag : List UInt8} {decoder : FieldDecoder MonitorDispatcherMessage}
    (h : decodersByTag tag = some decoder) (m : MonitorDispatcherMessage) (buffer : List UInt8) :
    Leaves Prod.snd (buffer.length + 1) (decoder m buffer) := by
  obtain rfl | rfl | rfl := decodersByTag_cases h
  · exact enumDecoder_leaves _ m buffer
  · exact stringDecoder_leaves _ m buffer
  · exact bytesDecoder_leaves _ m buffer

/-- The fields of a message are set in their order. -/
theorem mergeFromString_items (items : List (Item spare)) (m : MonitorDispatcherMessage) :
    m.mergeFromString spare (items.flatMap Item.bytes) =
      .ok (items.foldl (fun m item => item.set m) m) := by
  have hparse := mergeFromString_fields (items.map Item.field) m
  rw [List.flatMap_map, List.foldl_map] at hparse
  simp only [Item.field_bytes, Item.field_effect] at hparse
  exact hparse

/-- **Any message is parsed**: fields in any order, any number of times and with others among them
that fit on the stack are set one after another, and no bytes keep the parser from ending. -/
theorem parsed_in_order (spare : ℕ) (m : MonitorDispatcherMessage) :
    (∀ items : List (Item spare), m.mergeFromString spare (items.flatMap Item.bytes) =
      .ok (items.foldl (fun m item => item.set m) m)) ∧
    ∀ serialized : List UInt8, m.mergeFromString spare serialized ≠ .error .outOfFuel :=
  ⟨fun items => mergeFromString_items items m,
    mergeFromString_ne_outOfFuel (fun _ _ hdecoder => decodersByTag_leaves hdecoder) m⟩

/-! ## Messages that are made -/

/-- The values of a message fit in their fields. -/
structure WellFormed (m : MonitorDispatcherMessage) : Prop where
  /-- `type` -/
  type : ∀ value, m.type = some value → -2 ^ 32 ≤ value ∧ value < 2 ^ 32
  /-- `filePath` -/
  filePath : ∀ value, m.filePath = some value → value.encode.length < 2 ^ 64
  /-- `eventData` -/
  eventData : ∀ value, m.eventData = some value → value.length < 2 ^ 64

/-- What a program can have, of setters, bytes and other messages. A string is less than 2 ^ 63
bytes. -/
inductive Made : MonitorDispatcherMessage → Prop where
  /-- a new message -/
  | new : Made new
  /-- `type` is set -/
  | setType {m m' : MonitorDispatcherMessage} {value : ℤ} :
      Made m → m.setType value = .ok m' → Made m'
  /-- `filePath` is set -/
  | setFilePath {m m' : MonitorDispatcherMessage} {value : Text} {filePath : Unicode} :
      Made m → value.checkValue = .ok filePath → filePath.encode.length < 2 ^ 63 →
      m.setFilePath value = .ok m' → Made m'
  /-- `eventData` is set -/
  | setEventData {m : MonitorDispatcherMessage} {value : List UInt8} :
      Made m → value.length < 2 ^ 63 → Made (m.setEventData value)
  /-- bytes are parsed, whatever they are -/
  | mergeFromString {m m' : MonitorDispatcherMessage} {spare : ℕ} {serialized : List UInt8} :
      Made m → m.mergeFromString spare serialized = .ok m' → Made m'
  /-- another message is merged -/
  | mergeFrom {m msg : MonitorDispatcherMessage} : Made m → Made msg → Made (m.mergeFrom msg)

theorem WellFormed.new : WellFormed new where
  type _ h := by cases h
  filePath _ h := by cases h
  eventData _ h := by cases h

theorem WellFormed.withType {m : MonitorDispatcherMessage} (hm : WellFormed m) {value : ℤ}
    (hlow : -2 ^ 32 ≤ value) (hhigh : value < 2 ^ 32) :
    WellFormed { m with type := some value } where
  type value' h := by
    obtain rfl := Option.some.inj h
    exact ⟨hlow, hhigh⟩
  filePath := hm.filePath
  eventData := hm.eventData

theorem WellFormed.withFilePath {m : MonitorDispatcherMessage} (hm : WellFormed m) {value : Unicode}
    (hlength : value.encode.length < 2 ^ 64) : WellFormed { m with filePath := some value } where
  type := hm.type
  filePath value' h := by
    obtain rfl := Option.some.inj h
    exact hlength
  eventData := hm.eventData

theorem WellFormed.withEventData {m : MonitorDispatcherMessage} (hm : WellFormed m)
    {value : List UInt8} (hlength : value.length < 2 ^ 64) :
    WellFormed { m with eventData := some value } where
  type := hm.type
  filePath := hm.filePath
  eventData value' h := by
    obtain rfl := Option.some.inj h
    exact hlength

/-- What is parsed fits. -/
theorem WellFormed.mergeFromString {m m' : MonitorDispatcherMessage} {serialized : List UInt8}
    (hm : WellFormed m) (h : m.mergeFromString spare serialized = .ok m') : WellFormed m' := by
  refine mergeFromString_invariant ?_ hm h
  intro tag decoder hdecoder fields buffer parsed hfields hparsed
  obtain rfl | rfl | rfl := decodersByTag_cases hdecoder
  · obtain ⟨value, hlow, hhigh, hset⟩ := enumDecoder_eq_ok hparsed
    rw [hset]
    exact hfields.withType hlow hhigh
  · obtain ⟨value, hlength, hset⟩ := stringDecoder_eq_ok hparsed
    rw [hset]
    exact hfields.withFilePath hlength
  · obtain ⟨value, hlength, hset⟩ := bytesDecoder_eq_ok hparsed
    rw [hset]
    exact hfields.withEventData hlength

/-- What is merged fits. -/
theorem WellFormed.mergeFrom {m msg : MonitorDispatcherMessage} (hm : WellFormed m)
    (hmsg : WellFormed msg) : WellFormed (m.mergeFrom msg) where
  type value h := (Option.or_eq_some_iff.mp h).elim (hmsg.type value) fun h => hm.type value h.2
  filePath value h :=
    (Option.or_eq_some_iff.mp h).elim (hmsg.filePath value) fun h => hm.filePath value h.2
  eventData value h :=
    (Option.or_eq_some_iff.mp h).elim (hmsg.eventData value) fun h => hm.eventData value h.2

/-- **What is made fits.** -/
theorem Made.wellFormed {m : MonitorDispatcherMessage} (h : Made m) : WellFormed m := by
  induction h with
  | new => exact .new
  | @setType m m' value _ hset ih =>
    rw [MonitorDispatcherMessage.setType] at hset
    split at hset
    · cases hset
      exact ih.withType (by omega) (by omega)
    · cases hset
  | @setFilePath m m' value filePath _ hvalue hlength hset ih =>
    rw [MonitorDispatcherMessage.setFilePath, hvalue] at hset
    cases hset
    exact ih.withFilePath (by omega)
  | setEventData _ hlength ih => exact ih.withEventData (by omega)
  | mergeFromString _ hparse ih => exact ih.mergeFromString hparse
  | mergeFrom _ _ ih ihmsg => exact ih.mergeFrom ihmsg

/-- The message with the pairs of surrogates in its path joined -/
def joined (m : MonitorDispatcherMessage) : MonitorDispatcherMessage :=
  { m with filePath := m.filePath.map Unicode.join }

/-- It is the message itself if there are none. -/
theorem joined_eq_self_iff (m : MonitorDispatcherMessage) :
    m.joined = m ↔ ∀ value, m.filePath = some value → Utf8.Joined value.chars := by
  obtain ⟨type, filePath, eventData⟩ := m
  rw [joined, mk.injEq]
  cases filePath with
  | none => exact iff_of_true ⟨rfl, rfl, rfl⟩ fun value h => by cases h
  | some value =>
    rw [Option.map_some, Option.some_inj, Unicode.join_eq_self_iff]
    constructor
    · rintro ⟨-, hjoined, -⟩ value' heq
      obtain rfl := Option.some.inj heq
      exact hjoined
    · exact fun h => ⟨rfl, h value rfl, rfl⟩

/-- `type`, if it is set -/
theorem WellFormed.exists_type {m : MonitorDispatcherMessage} (hm : WellFormed m) :
    ∃ items : List (Item spare), items.flatMap Item.bytes = (m.type.map (enumEncoder 3)).getD [] ∧
      ∀ start, items.foldl (fun m item => item.set m) start =
        { start with type := m.type.or start.type } := by
  cases htype : m.type with
  | none => exact ⟨[], rfl, fun start => rfl⟩
  | some value => exact ⟨[.type value (hm.type value htype)], List.flatMap_singleton _ _,
      fun start => rfl⟩

/-- `filePath`, if it is set -/
theorem WellFormed.exists_filePath {m : MonitorDispatcherMessage} (hm : WellFormed m) :
    ∃ items : List (Item spare),
      items.flatMap Item.bytes = (m.filePath.map (stringEncoder 4)).getD [] ∧
      ∀ start, items.foldl (fun m item => item.set m) start =
        { start with filePath := (m.filePath.map Unicode.join).or start.filePath } := by
  cases hfilePath : m.filePath with
  | none => exact ⟨[], rfl, fun start => rfl⟩
  | some value =>
    exact ⟨[.filePath value.encode value.join value.decode_encode (hm.filePath value hfilePath)],
      List.flatMap_singleton _ _, fun start => rfl⟩

/-- `eventData`, if it is set -/
theorem WellFormed.exists_eventData {m : MonitorDispatcherMessage} (hm : WellFormed m) :
    ∃ items : List (Item spare),
      items.flatMap Item.bytes = (m.eventData.map (bytesEncoder 5)).getD [] ∧
      ∀ start, items.foldl (fun m item => item.set m) start =
        { start with eventData := m.eventData.or start.eventData } := by
  cases heventData : m.eventData with
  | none => exact ⟨[], rfl, fun start => rfl⟩
  | some value => exact ⟨[.eventData value (hm.eventData value heventData)],
      List.flatMap_singleton _ _, fun start => rfl⟩

/-- The fields of a message, as they are serialized -/
theorem WellFormed.exists_items {m : MonitorDispatcherMessage} (hm : WellFormed m) :
    ∃ items : List (Item spare), items.flatMap Item.bytes = m.serializePartialToString ∧
      ∀ start, items.foldl (fun m item => item.set m) start = start.mergeFrom m.joined := by
  obtain ⟨types, htypes, hsetType⟩ := hm.exists_type
  obtain ⟨filePaths, hfilePaths, hsetFilePath⟩ := hm.exists_filePath
  obtain ⟨eventDatas, heventDatas, hsetEventData⟩ := hm.exists_eventData
  refine ⟨types ++ filePaths ++ eventDatas, ?_, fun start => ?_⟩
  · rw [List.flatMap_append, List.flatMap_append, htypes, hfilePaths, heventDatas]
    rfl
  · rw [List.foldl_append, List.foldl_append, hsetType, hsetFilePath, hsetEventData]
    rfl

/-- What is serialized of a well-formed message is merged when it is parsed. -/
theorem WellFormed.mergeFromString_serialized {m : MonitorDispatcherMessage} (hm : WellFormed m)
    (spare : ℕ) (start : MonitorDispatcherMessage) :
    start.mergeFromString spare m.serializePartialToString = .ok (start.mergeFrom m.joined) := by
  obtain ⟨items, hbytes, hset⟩ := hm.exists_items
  rw [← hbytes, mergeFromString_items, hset]

theorem new_mergeFrom (m : MonitorDispatcherMessage) : new.mergeFrom m = m := by
  ext1 <;> exact Option.or_none

/-- **A message is read back**: what a program made and serialized, of setters, of other messages
and of bytes that came from anywhere, is when it is parsed that message with the pairs of
surrogates in its path joined, which is the same message if there are none; and is merged as such
into a message that it is parsed into. -/
theorem read_back {m : MonitorDispatcherMessage} (hmade : Made m) (htype : m.type ≠ none)
    (spare : ℕ) :
    ∃ serialized, m.serializeToString = .ok serialized ∧
      new.mergeFromString spare serialized = .ok m.joined ∧
      (m.joined = m ↔ ∀ value, m.filePath = some value → Utf8.Joined value.chars) ∧
      ∀ start : MonitorDispatcherMessage,
        start.mergeFromString spare serialized = .ok (start.mergeFrom m.joined) := by
  have hread := hmade.wellFormed.mergeFromString_serialized spare
  refine ⟨m.serializePartialToString, if_neg htype, ?_, m.joined_eq_self_iff, hread⟩
  rw [hread, new_mergeFrom]

/-- A path with two surrogates -/
def pairPath : Unicode := ⟨[0x2F, 0xD800, 0xDC00], by decide⟩

theorem read_back_pairPath :
    ∃ (m : MonitorDispatcherMessage) (serialized : List UInt8),
      m.filePath = some pairPath ∧ m.serializeToString = .ok serialized ∧
      new.mergeFromString 900 serialized = .ok m.joined ∧ m.joined ≠ m := by
  have hmade : Made { type := some init, filePath := some pairPath, eventData := none } :=
    .setFilePath (.setType .new (show setType init new = .ok _ from rfl))
      (show (Text.unicode pairPath).checkValue = .ok pairPath from rfl) (by decide) rfl
  obtain ⟨serialized, hserialized, hread, hjoined, -⟩ := read_back hmade (by decide) 900
  refine ⟨_, serialized, rfl, hserialized, hread, fun heq => ?_⟩
  have hpair := (List.isChain_cons_cons.mp (List.isChain_cons_cons.mp (hjoined.mp heq _ rfl)).2).1
  exact hpair (by decide)

end MonitorDispatcherMessage

end WallMon
