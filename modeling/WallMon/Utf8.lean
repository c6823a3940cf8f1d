import Mathlib.Algebra.Order.Group.Nat
import Mathlib.Data.List.Chain
import Mathlib.Data.List.Flatten
import Mathlib.Tactic.NormNum

/-!
# UTF-8 in Python 2

How `unicode(s, 'utf-8')` and `encode('utf-8')` work in a build whose `unicode` has a character for
each code point. Surrogates are decoded like any other character; but when a high surrogate comes
directly before a low one, the two are encoded as the one character that they stand for.

What is decoded is known by its bytes (`decode_eq_some`). So what is encoded is decoded to itself,
but for such pairs, which are joined (`decode_encode`).
-/

namespace WallMon

namespace Utf8

/-! ## Single characters -/

/-- The bytes of a character -/
def encodeChar (ch : ℕ) : List UInt8 :=
  if ch < 0x80 then [.ofNat ch]
  else if ch < 0x800 then [.ofNat (0xC0 + ch / 64), .ofNat (0x80 + ch % 64)]
  else if ch < 0x10000 then
    [.ofNat (0xE0 + ch / 4096), .ofNat (0x80 + ch / 64 % 64), .ofNat (0x80 + ch % 64)]
  else
    [.ofNat (0xF0 + ch / 262144), .ofNat (0x80 + ch / 4096 % 64), .ofNat (0x80 + ch / 64 % 64),
      .ofNat (0x80 + ch % 64)]

/-- The six bits of a continuation byte -/
def continuation : List UInt8 → Option (ℕ × List UInt8)
  | [] => none
  | b :: bytes => if b.toNat / 64 = 2 then some (b.toNat % 64, bytes) else none

/-- The first character of a string, and the bytes after it -/
def decodeChar : List UInt8 → Option (ℕ × List UInt8)
  | [] => none
  | b :: bytes =>
    if b.toNat < 0x80 then some (b.toNat, bytes)
    -- "invalid start byte"
    else if b.toNat < 0xC2 then none
    else if b.toNat < 0xE0 then do
      let (s₁, bytes) ← continuation bytes
      return (b.toNat % 32 * 64 + s₁, bytes)
    else if b.toNat < 0xF0 then do
      let (s₁, bytes) ← continuation bytes
      let (s₂, bytes) ← continuation bytes
      -- shorter ones have two bytes
      if b.toNat = 0xE0 ∧ s₁ < 0x20 then none
      else return (b.toNat % 16 * 4096 + s₁ * 64 + s₂, bytes)
    else if b.toNat < 0xF5 then do
      let (s₁, bytes) ← continuation bytes
      let (s₂, bytes) ← continuation bytes
      let (s₃, bytes) ← continuation bytes
      -- shorter ones have three bytes, and there is nothing from `0x110000` on
      if b.toNat = 0xF0 ∧ s₁ < 0x10 ∨ b.toNat = 0xF4 ∧ 0x0F < s₁ then none
      else return (b.toNat % 8 * 262144 + s₁ * 4096 + s₂ * 64 + s₃, bytes)
    else none

theorem byte_eq {b : UInt8} {n : ℕ} (h : b.toNat = n) : b = .ofNat n := by
  rw [← h, UInt8.ofNat_toNat]

theorem toNat_byte {n : ℕ} (h : n < 256) : (UInt8.ofNat n).toNat = n :=
  UInt8.toNat_ofNat_of_lt' h

theorem continuation_eq_some {bytes rest : List UInt8} {n : ℕ} :
    continuation bytes = some (n, rest) ↔ n < 64 ∧ bytes = .ofNat (0x80 + n) :: rest := by
  constructor
  · intro h
    cases bytes with
    | nil => cases h
    | cons b bytes =>
      rw [continuation] at h
      split at h
      · next hb =>
        cases h
        exact ⟨Nat.mod_lt _ (by decide), by rw [← byte_eq (b := b) (by omega)]⟩
      · cases h
  · rintro ⟨hn, rfl⟩
    have hbits : (0x80 + n) % 64 = n := by omega
    rw [continuation, toNat_byte (by omega), if_pos (by omega), hbits]

theorem continuation_cons {n : ℕ} (h : n < 64) (rest : List UInt8) :
    continuation (.ofNat (0x80 + n) :: rest) = some (n, rest) :=
  continuation_eq_some.mpr ⟨h, rfl⟩

/-- A character is known by its bytes. -/
theorem decodeChar_encodeChar {ch : ℕ} (h : ch < 0x110000) (rest : List UInt8) :
    decodeChar (encodeChar ch ++ rest) = some (ch, rest) := by
  rw [encodeChar]
  split
  · rw [List.singleton_append, decodeChar, toNat_byte (by omega), if_pos (by omega)]
  split
  · rw [List.cons_append, decodeChar, toNat_byte (by omega), if_neg (by omega), if_neg (by omega),
      if_pos (by omega), List.singleton_append, continuation_cons (by omega)]
    show some (_, rest) = _
    congr 2
    omega
  split
  · rw [List.cons_append, decodeChar, toNat_byte (by omega), if_neg (by omega), if_neg (by omega),
      if_neg (by omega), if_pos (by omega), List.cons_append, continuation_cons (by omega)]
    show Option.bind (continuation _) _ = _
    rw [List.singleton_append, continuation_cons (by omega)]
    show ite _ _ _ = _
    rw [if_neg (by omega)]
    show some (_, rest) = _
    congr 2
    omega
  · rw [List.cons_append, decodeChar, toNat_byte (by omega), if_neg (by omega), if_neg (by omega),
      if_neg (by omega), if_neg (by omega), if_pos (by omega), List.cons_append,
      continuation_cons (by omega)]
    show Option.bind (continuation _) _ = _
    rw [List.cons_append, continuation_cons (by omega)]
    show Option.bind (continuation _) _ = _
    rw [List.singleton_append, continuation_cons (by omega)]
    show ite _ _ _ = _
    rw [if_neg (by omega)]
    show some (_, rest) = _
    congr 2
    omega

/-- A continuation byte was read. -/
theorem exists_of_continuation {α : Type} {bytes : List UInt8} {f : ℕ × List UInt8 → Option α}
    {a : α} (h : continuation bytes >>= f = some a) :
    ∃ n rest, n < 64 ∧ bytes = .ofNat (0x80 + n) :: rest ∧ f (n, rest) = some a := by
  obtain ⟨⟨n, rest⟩, hread, hf⟩ := Option.bind_eq_some_iff.mp h
  obtain ⟨hn, hbytes⟩ := continuation_eq_some.mp hread
  exact ⟨n, rest, hn, hbytes, hf⟩

/-- **A decoded character** has the bytes that were decoded. -/
theorem decodeChar_eq_some {bytes rest : List UInt8} {ch : ℕ}
    (h : decodeChar bytes = some (ch, rest)) : ch < 0x110000 ∧ bytes = encodeChar ch ++ rest := by
  cases bytes with
  | nil => cases h
  | cons b bytes =>
    obtain ⟨n, hn, rfl⟩ : ∃ n, n < 256 ∧ b = .ofNat n := ⟨b.toNat, b.toNat_lt, byte_eq rfl⟩
    rw [decodeChar, toNat_byte hn] at h
    split at h
    · next hlt =>
      cases h
      exact ⟨by omega, by rw [encodeChar, if_pos hlt, List.singleton_append]⟩
    split at h
    · cases h
    split at h
    · -- two bytes
      obtain ⟨s₁, bytes₁, hs₁, rfl, hread⟩ := exists_of_continuation h
      cases hread
      have hfirst : 0xC0 + (n % 32 * 64 + s₁) / 64 = n := by omega
      have hsecond : (n % 32 * 64 + s₁) % 64 = s₁ := by omega
      refine ⟨by omega, ?_⟩
      rw [encodeChar, if_neg (by omega), if_pos (by omega), hfirst, hsecond]
      rfl
    split at h
    · -- three bytes
      obtain ⟨s₁, bytes₁, hs₁, rfl, hread₁⟩ := exists_of_continuation h
      obtain ⟨s₂, bytes₂, hs₂, rfl, hread⟩ := exists_of_continuation hread₁
      dsimp only at hread
      split at hread
      · cases hread
      cases hread
      have hfirst : 0xE0 + (n % 16 * 4096 + s₁ * 64 + s₂) / 4096 = n := by omega
      have hsecond : (n % 16 * 4096 + s₁ * 64 + s₂) / 64 % 64 = s₁ := by omega
      have hthird : (n % 16 * 4096 + s₁ * 64 + s₂) % 64 = s₂ := by omega
      refine ⟨by omega, ?_⟩
      rw [encodeChar, if_neg (by omega), if_neg (by omega), if_pos (by omega), hfirst, hsecond,
        hthird]
      rfl
    split at h
    · -- four bytes
      obtain ⟨s₁, bytes₁, hs₁, rfl, hread₁⟩ := exists_of_continuation h
      obtain ⟨s₂, bytes₂, hs₂, rfl, hread₂⟩ := exists_of_continuation hread₁
      obtain ⟨s₃, bytes₃, hs₃, rfl, hread⟩ := exists_of_continuation hread₂
      dsimp only at hread
      split at hread
      · cases hread
      cases hread
      have hfirst : 0xF0 + (n % 8 * 262144 + s₁ * 4096 + s₂ * 64 + s₃) / 262144 = n := by omega
      have hsecond : (n % 8 * 262144 + s₁ * 4096 + s₂ * 64 + s₃) / 4096 % 64 = s₁ := by omega
      have hthird : (n % 8 * 262144 + s₁ * 4096 + s₂ * 64 + s₃) / 64 % 64 = s₂ := by omega
      have hfourth : (n % 8 * 262144 + s₁ * 4096 + s₂ * 64 + s₃) % 64 = s₃ := by omega
      refine ⟨by omega, ?_⟩
      rw [encodeChar, if_neg (by omega), if_neg (by omega), if_neg (by omega), hfirst, hsecond,
        hthird, hfourth]
      rfl
    · cases h

/-! ## Strings -/

/-- `0xD800 <= ch && ch <= 0xDBFF` -/
def IsHigh (ch : ℕ) : Prop := 0xD800 ≤ ch ∧ ch ≤ 0xDBFF

/-- `0xDC00 <= ch2 && ch2 <= 0xDFFF` -/
def IsLow (ch : ℕ) : Prop := 0xDC00 ≤ ch ∧ ch ≤ 0xDFFF

instance (ch : ℕ) : Decidable (IsHigh ch) := inferInstanceAs (Decidable (_ ∧ _))

instance (ch : ℕ) : Decidable (IsLow ch) := inferInstanceAs (Decidable (_ ∧ _))

/-- The character that a pair of surrogates stands for -/
def combine (ch ch₂ : ℕ) : ℕ := (ch - 0xD800) * 1024 + (ch₂ - 0xDC00) + 0x10000

/-- `encode('utf-8')` -/
def encode : List ℕ → List UInt8
  | [] => []
  | [ch] => encodeChar ch
  | ch :: ch₂ :: s =>
    if IsHigh ch ∧ IsLow ch₂ then encodeChar (combine ch ch₂) ++ encode s
    else encodeChar ch ++ encode (ch₂ :: s)

/-- `unicode(s, 'utf-8')`, one character after another; each has a byte at least. -/
def decodeFrom : ℕ → List UInt8 → Option (List ℕ)
  | _, [] => some []
  | 0, _ => none
  | fuel + 1, bytes => do
    let (ch, bytes) ← decodeChar bytes
    return ch :: (← decodeFrom fuel bytes)

/-- `unicode(s, 'utf-8')` -/
def decode (bytes : List UInt8) : Option (List ℕ) := decodeFrom bytes.length bytes

theorem encodeChar_ne_nil (ch : ℕ) : encodeChar ch ≠ [] := by
  rw [encodeChar]
  split
  · exact List.cons_ne_nil _ _
  split
  · exact List.cons_ne_nil _ _
  split <;> exact List.cons_ne_nil _ _

/-- A string is decoded from the bytes of its characters. -/
theorem decodeFrom_flatMap {s : List ℕ} (hs : ∀ ch ∈ s, ch < 0x110000) {fuel : ℕ}
    (hfuel : (s.flatMap encodeChar).length ≤ fuel) :
    decodeFrom fuel (s.flatMap encodeChar) = some s := by
  induction s generalizing fuel with
  | nil => cases fuel <;> rfl
  | cons ch s ih =>
    obtain ⟨hch, hs⟩ := List.forall_mem_cons.mp hs
    have hne := encodeChar_ne_nil ch
    have hpos := List.length_pos_iff.mpr hne
    rw [List.flatMap_cons, List.length_append] at hfuel
    obtain ⟨fuel, rfl⟩ : ∃ k, fuel = k + 1 := ⟨fuel - 1, by omega⟩
    rw [List.flatMap_cons, decodeFrom, decodeChar_encodeChar hch]
    · show Option.bind (decodeFrom _ _) _ = _
      rw [ih hs (by omega)]
      rfl
    · exact fun hnil => hne (List.append_eq_nil_iff.mp hnil).1

/-- A string that was decoded has the bytes it was decoded from. -/
theorem decodeFrom_eq_some {bytes : List UInt8} {s : List ℕ} {fuel : ℕ}
    (h : decodeFrom fuel bytes = some s) :
    (∀ ch ∈ s, ch < 0x110000) ∧ bytes = s.flatMap encodeChar := by
  induction fuel generalizing bytes s with
  | zero =>
    cases bytes with
    | nil =>
      obtain rfl := Option.some.inj h
      exact ⟨List.forall_mem_nil _, rfl⟩
    | cons b bytes => cases h
  | succ fuel ih =>
    cases bytes with
    | nil =>
      obtain rfl := Option.some.inj h
      exact ⟨List.forall_mem_nil _, rfl⟩
    | cons b bytes =>
      obtain ⟨⟨ch, rest⟩, hchar, h⟩ := Option.bind_eq_some_iff.mp h
      obtain ⟨s', hrest, h⟩ := Option.bind_eq_some_iff.mp h
      obtain rfl := Option.some.inj h
      obtain ⟨hch, hbytes⟩ := decodeChar_eq_some hchar
      obtain ⟨hs', rfl⟩ := ih hrest
      exact ⟨List.forall_mem_cons.mpr ⟨hch, hs'⟩, hbytes⟩

/-- **What is decoded is known by its bytes.** -/
theorem decode_eq_some {bytes : List UInt8} {s : List ℕ} :
    decode bytes = some s ↔ (∀ ch ∈ s, ch < 0x110000) ∧ bytes = s.flatMap encodeChar := by
  refine ⟨decodeFrom_eq_some, ?_⟩
  rintro ⟨hs, rfl⟩
  exact decodeFrom_flatMap hs le_rfl

/-! ## Pairs of surrogates -/

/-- Each pair is one character. -/
def join : List ℕ → List ℕ
  | [] => []
  | [ch] => [ch]
  | ch :: ch₂ :: s =>
    if IsHigh ch ∧ IsLow ch₂ then combine ch ch₂ :: join s else ch :: join (ch₂ :: s)

/-- There is no pair. -/
def Joined (s : List ℕ) : Prop := s.IsChain fun ch ch₂ => ¬(IsHigh ch ∧ IsLow ch₂)

/-- Pairs are joined when they are encoded. -/
theorem encode_eq (s : List ℕ) : encode s = (join s).flatMap encodeChar := by
  induction s using join.induct with
  | case1 => rfl
  | case2 ch => exact (List.flatMap_singleton _ _).symm
  | case3 ch ch₂ s hpair ih =>
    rw [encode, if_pos hpair, join, if_pos hpair, List.flatMap_cons, ih]
  | case4 ch ch₂ s hpair ih =>
    rw [encode, if_neg hpair, join, if_neg hpair, List.flatMap_cons, ih]

/-- They stand for characters. -/
theorem join_lt {s : List ℕ} (hs : ∀ ch ∈ s, ch < 0x110000) : ∀ ch ∈ join s, ch < 0x110000 := by
  induction s using join.induct with
  | case1 => exact hs
  | case2 ch => exact hs
  | case3 ch ch₂ s hpair ih =>
    rw [join, if_pos hpair]
    obtain ⟨-, hs⟩ := List.forall_mem_cons.mp hs
    obtain ⟨⟨hlow, hhigh⟩, hlow₂, hhigh₂⟩ := hpair
    refine List.forall_mem_cons.mpr ⟨?_, ih (List.forall_mem_cons.mp hs).2⟩
    rw [combine]
    omega
  | case4 ch ch₂ s hpair ih =>
    rw [join, if_neg hpair]
    obtain ⟨hch, hs⟩ := List.forall_mem_cons.mp hs
    exact List.forall_mem_cons.mpr ⟨hch, ih hs⟩

theorem length_join_le (s : List ℕ) : (join s).length ≤ s.length := by
  induction s using join.induct with
  | case1 => exact le_rfl
  | case2 ch => exact le_rfl
  | case3 ch ch₂ s hpair ih =>
    rw [join, if_pos hpair, List.length_cons, List.length_cons, List.length_cons]
    omega
  | case4 ch ch₂ s hpair ih =>
    rw [join, if_neg hpair, List.length_cons, List.length_cons]
    omega

/-- A string stays as it is exactly if it has no pair. -/
theorem join_eq_self_iff (s : List ℕ) : join s = s ↔ Joined s := by
  induction s using join.induct with
  | case1 => exact iff_of_true rfl .nil
  | case2 ch => exact iff_of_true rfl (.singleton ch)
  | case3 ch ch₂ s hpair ih =>
    rw [join, if_pos hpair]
    refine iff_of_false (fun heq => ?_) fun hjoined => (List.isChain_cons_cons.mp hjoined).1 hpair
    have hlength := congrArg List.length heq
    have hle := length_join_le s
    rw [List.length_cons, List.length_cons, List.length_cons] at hlength
    omega
  | case4 ch ch₂ s hpair ih =>
    rw [join, if_neg hpair, List.cons_eq_cons, ih, Joined, Joined, List.isChain_cons_cons]
    exact ⟨fun h => ⟨hpair, h.2⟩, fun h => ⟨rfl, h.2⟩⟩

/-- **What is encoded is decoded** with its pairs joined. -/
theorem decode_encode {s : List ℕ} (hs : ∀ ch ∈ s, ch < 0x110000) :
    decode (encode s) = some (join s) :=
  decode_eq_some.mpr ⟨join_lt hs, encode_eq s⟩

/-- Encoding takes no more bytes than its characters. -/
theorem length_encode_le (s : List ℕ) : (encode s).length ≤ (s.flatMap encodeChar).length := by
  induction s using join.induct with
  | case1 => exact le_rfl
  | case2 ch => exact (congrArg List.length (List.flatMap_singleton _ _)).ge
  | case3 ch ch₂ s hpair ih =>
    rw [encode, if_pos hpair, List.flatMap_cons, List.flatMap_cons, List.length_append,
      List.length_append, List.length_append]
    obtain ⟨⟨hlow, hhigh⟩, hlow₂, hhigh₂⟩ := hpair
    have hfirst : (encodeChar ch).length = 3 := by
      rw [encodeChar, if_neg (by omega), if_neg (by omega), if_pos (by omega)]
      rfl
    have hsecond : (encodeChar ch₂).length = 3 := by
      rw [encodeChar, if_neg (by omega), if_neg (by omega), if_pos (by omega)]
      rfl
    have hcombined : (encodeChar (combine ch ch₂)).length = 4 := by
      rw [combine, encodeChar, if_neg (by omega), if_neg (by omega), if_neg (by omega)]
      rfl
    omega
  | case4 ch ch₂ s hpair ih =>
    rw [encode, if_neg hpair, List.flatMap_cons, List.length_append, List.length_append]
    omega

/-- Two surrogates are six bytes, and four when they are written again. -/
example : decode [0xED, 0xA0, 0x80, 0xED, 0xB0, 0x80] = some [0xD800, 0xDC00] ∧
    encode [0xD800, 0xDC00] = [0xF0, 0x90, 0x80, 0x80] := by decide

end Utf8

open Utf8

/-- A `unicode` -/
structure Unicode where
  /-- its characters -/
  chars : List ℕ
  /-- they are code points -/
  lt : ∀ ch ∈ chars, ch < 0x110000
  deriving DecidableEq

namespace Unicode

/-- `encode('utf-8')` -/
def encode (u : Unicode) : List UInt8 := Utf8.encode u.chars

/-- `unicode(s, 'utf-8')` -/
def decode (bytes : List UInt8) : Option Unicode :=
  match h : Utf8.decode bytes with
  | none => none
  | some chars => some ⟨chars, (decode_eq_some.mp h).1⟩

/-- Its pairs of surrogates are joined. -/
def join (u : Unicode) : Unicode := ⟨Utf8.join u.chars, join_lt u.lt⟩

/-- What is decoded is known by its bytes. -/
theorem decode_eq_some {bytes : List UInt8} {u : Unicode} :
    decode bytes = some u ↔ bytes = u.chars.flatMap encodeChar := by
  have hchars : Utf8.decode bytes = some u.chars ↔ bytes = u.chars.flatMap encodeChar := by
    rw [Utf8.decode_eq_some, and_iff_right u.lt]
  rw [← hchars, decode]
  split
  · next hnone =>
    refine iff_of_false (fun heq => by cases heq) fun heq => ?_
    cases hnone.symm.trans heq
  · next chars hsome =>
    have hinj : Utf8.decode bytes = some u.chars ↔ chars = u.chars := by
      rw [hsome, Option.some_inj]
    rw [hinj, Option.some_inj, Unicode.mk.injEq]

/-- **A `unicode` is decoded** from its bytes with its pairs joined. -/
theorem decode_encode (u : Unicode) : decode u.encode = some u.join :=
  decode_eq_some.mpr (encode_eq u.chars)

theorem join_eq_self_iff (u : Unicode) : u.join = u ↔ Joined u.chars := by
  rw [← Utf8.join_eq_self_iff, join, Unicode.mk.injEq]

/-- What was decoded takes no more bytes. -/
theorem length_encode_le {bytes : List UInt8} {u : Unicode} (h : decode bytes = some u) :
    u.encode.length ≤ bytes.length := by
  rw [decode_eq_some.mp h]
  exact Utf8.length_encode_le u.chars

end Unicode

end WallMon
