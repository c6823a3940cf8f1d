import Mathlib.Data.List.TakeWhile
import Mathlib.Data.Nat.Digits.Lemmas

/-!
# Formatted input

`sscanf` on bytes: the directives of a format, and what each of them takes from the text. A
text of fields with white space after each of them is read back field by field, whatever
comes behind them (`scan_fields`).

Numbers are unbounded here. What becomes of a number that does not fit its variable is left
to the one who stores it; in C that is undefined.
-/

namespace WallMon

namespace Scan

/-! ## Directives -/

/-- `isspace` -/
def isSpace (b : UInt8) : Bool := b == 32 || (9 ≤ b && b ≤ 13)

/-- `isdigit` -/
def isDigit (b : UInt8) : Bool := 48 ≤ b && b ≤ 57

/-- A C string: the bytes before the first zero. -/
def cString (bytes : List UInt8) : List UInt8 := bytes.takeWhile (· != 0)

/-- What a directive converts to. -/
inductive Conversion where
  /-- `%d` and `%u` -/
  | decimal
  /-- `%c` -/
  | char
  /-- `%s` -/
  | string
  deriving DecidableEq

/-- What a conversion results in. -/
inductive Value where
  /-- a number -/
  | int (n : ℤ)
  /-- a character -/
  | char (b : UInt8)
  /-- a string -/
  | string (bytes : List UInt8)
  deriving DecidableEq

/-- A directive of a format. -/
inductive Directive where
  /-- white space, as much as there is -/
  | space
  /-- a character that is matched -/
  | literal (b : UInt8)
  /-- a conversion; its value is dropped after a `*` -/
  | convert (conversion : Conversion) (assign : Bool)
  deriving DecidableEq

/-- The conversion of a letter: `c`, `s`, or one of `d` and `u`. -/
def conversion : Char → Conversion
  | 'c' => .char
  | 's' => .string
  | _ => .decimal

/-- The directives of a format. An `l` before the letter is about the variable. -/
def directives : List Char → List Directive
  | '%' :: '*' :: 'l' :: c :: cs => .convert (conversion c) false :: directives cs
  | '%' :: '*' :: c :: cs => .convert (conversion c) false :: directives cs
  | '%' :: 'l' :: c :: cs => .convert (conversion c) true :: directives cs
  | '%' :: c :: cs => .convert (conversion c) true :: directives cs
  | ' ' :: cs => .space :: directives cs
  | c :: cs => .literal (UInt8.ofNat c.toNat) :: directives cs
  | [] => []

/-- The number that digits denote. -/
def digitsValue (digits : List UInt8) : ℕ := digits.foldl (fun n b => n * 10 + (b.toNat - 48)) 0

/-- An optional sign: whether it is a minus, and what comes after it. -/
def sign : List UInt8 → Bool × List UInt8
  | [] => (false, [])
  | b :: s => if b = 45 then (true, s) else if b = 43 then (false, s) else (false, b :: s)

/-- What a conversion takes from the text, and what it leaves. All but `%c` skip white space. -/
def Conversion.read : Conversion → List UInt8 → Option (Value × List UInt8)
  | .decimal, s =>
    let signed := sign (s.dropWhile isSpace)
    let digits := signed.2.takeWhile isDigit
    if digits = [] then none
    else
      let n : ℤ := digitsValue digits
      some (.int (if signed.1 then -n else n), signed.2.dropWhile isDigit)
  | .char, [] => none
  | .char, b :: s => some (.char b, s)
  | .string, s =>
    let s := s.dropWhile isSpace
    let word := s.takeWhile (!isSpace ·)
    if word = [] then none else some (.string word, s.dropWhile (!isSpace ·))

/-- The values that are assigned, up to the first directive that fails. -/
def scan : List Directive → List UInt8 → List Value
  | [], _ => []
  | .space :: ds, s => scan ds (s.dropWhile isSpace)
  | .literal _ :: _, [] => []
  | .literal b :: ds, b' :: s => if b = b' then scan ds s else []
  | .convert c assign :: ds, s =>
    match c.read s with
    | none => []
    | some (value, s) => if assign then value :: scan ds s else scan ds s

/-- `sscanf`: the values that it assigns, in the order of its arguments. -/
def sscanf (buf : List UInt8) (format : String) : List Value :=
  scan (directives format.toList) (cString buf)

/-- Stores values through the arguments of `sscanf`; arguments without a value are left. -/
def store {σ : Type} (targets : List (Value → σ → σ)) (values : List Value) (s : σ) : σ :=
  (targets.zip values).foldl (fun s (target, value) => target value s) s

/-! ## Numerals -/

/-- The decimal digits of a number. -/
def natText (n : ℕ) : List UInt8 :=
  if n = 0 then [48] else (Nat.digits 10 n).reverse.map fun d => UInt8.ofNat (48 + d)

/-- A number in decimal. -/
def intText (n : ℤ) : List UInt8 := if n < 0 then 45 :: natText n.natAbs else natText n.natAbs

theorem natText_ne_nil (n : ℕ) : natText n ≠ [] := by
  rw [natText]
  split
  · simp
  · next hzero => simpa using Nat.digits_ne_nil_iff_ne_zero.mpr hzero

/-- The digit of a number below ten. -/
theorem toNat_digit {d : ℕ} (hd : d < 10) : (UInt8.ofNat (48 + d)).toNat = 48 + d := by
  rw [UInt8.toNat_ofNat']
  omega

theorem isDigit_iff {b : UInt8} : isDigit b = true ↔ 48 ≤ b.toNat ∧ b.toNat ≤ 57 := by
  simp [isDigit, UInt8.le_iff_toNat_le]

theorem isDigit_natText {n : ℕ} : ∀ b ∈ natText n, isDigit b = true := by
  intro b hb
  rw [natText] at hb
  split at hb
  · obtain rfl := List.mem_singleton.mp hb
    decide
  · obtain ⟨d, hd, rfl⟩ := List.mem_map.mp hb
    have hlt : d < 10 := Nat.digits_lt_base (by decide) (List.mem_reverse.mp hd)
    rw [isDigit_iff, toNat_digit hlt]
    omega

/-- Digits, last first, are those of the number that they denote. -/
theorem digitsValue_reverse {ds : List ℕ} (hds : ∀ d ∈ ds, d < 10) :
    digitsValue (ds.reverse.map fun d => UInt8.ofNat (48 + d)) = Nat.ofDigits 10 ds := by
  induction ds with
  | nil => rfl
  | cons d ds ih =>
    have hd := toNat_digit (hds d (by simp))
    have hrest := ih fun d hmem => hds d (by simp [hmem])
    rw [digitsValue] at hrest
    rw [Nat.ofDigits_cons, List.reverse_cons, List.map_append, digitsValue, List.foldl_append,
      hrest, List.map_singleton, List.foldl_cons, List.foldl_nil, hd]
    omega

theorem digitsValue_natText (n : ℕ) : digitsValue (natText n) = n := by
  rw [natText]
  split
  · next hzero => simp [digitsValue, hzero]
  · rw [digitsValue_reverse fun d => Nat.digits_lt_base (by decide), Nat.ofDigits_digits]

theorem length_natText {n k : ℕ} (hk : 0 < k) (hn : n < 10 ^ k) : (natText n).length ≤ k := by
  rw [natText]
  split
  · exact hk
  · simpa using (Nat.digits_length_le_iff (by decide) n).mpr hn

theorem isSpace_of_isDigit {b : UInt8} (h : isDigit b = true) : isSpace b = false := by
  have hrange := isDigit_iff.mp h
  rw [Bool.eq_false_iff]
  intro hspace
  simp only [isSpace, Bool.or_eq_true, Bool.and_eq_true, decide_eq_true_eq, beq_iff_eq,
    UInt8.le_iff_toNat_le] at hspace
  rcases hspace with rfl | ⟨-, hle⟩
  · exact absurd hrange.1 (by decide)
  · have hthirteen : (13 : UInt8).toNat = 13 := rfl
    omega

/-! ## Reading fields back -/

/-- A conversion takes exactly this text, as this value, if white space comes next; and the
text does not begin with white space. -/
structure Reads (c : Conversion) (text : List UInt8) (value : Value) : Prop where
  /-- the text has a first byte -/
  first : ∃ b s, text = b :: s ∧ isSpace b = false
  /-- the text is taken -/
  read : ∀ b s, isSpace b = true → c.read (text ++ b :: s) = some (value, b :: s)

theorem reads_char {b : UInt8} (hb : isSpace b = false) : Reads .char [b] (.char b) :=
  ⟨⟨b, [], rfl, hb⟩, fun _ _ _ => rfl⟩

/-- A text that does not begin with white space is not touched by its skipping. -/
theorem dropWhile_isSpace {b : UInt8} {s : List UInt8} (hb : isSpace b = false) :
    (b :: s).dropWhile isSpace = b :: s :=
  List.dropWhile_cons_of_neg (by simp [hb])

theorem reads_string {word : List UInt8} (hne : word ≠ [])
    (hword : ∀ b ∈ word, isSpace b = false) : Reads .string word (.string word) := by
  obtain ⟨b, s, rfl⟩ := List.exists_cons_of_ne_nil hne
  have hfirst := hword b (by simp)
  have hall : ∀ b' ∈ b :: s, (!isSpace b') = true := fun b' hmem => by simp [hword b' hmem]
  refine ⟨⟨b, s, rfl, hfirst⟩, fun space rest hspace => ?_⟩
  simp only [Conversion.read, List.cons_append, dropWhile_isSpace hfirst]
  rw [← List.cons_append, List.takeWhile_append_of_pos hall, List.dropWhile_append_of_pos hall]
  simp [hspace]

/-- The digits in front of white space are all taken. -/
theorem takeWhile_isDigit {digits : List UInt8} (hdigits : ∀ b ∈ digits, isDigit b = true)
    {b : UInt8} {s : List UInt8} (hb : isSpace b = true) :
    (digits ++ b :: s).takeWhile isDigit = digits ∧
      (digits ++ b :: s).dropWhile isDigit = b :: s := by
  have hnot : isDigit b = false := by
    by_contra hdigit
    rw [isSpace_of_isDigit (by simpa using hdigit)] at hb
    cases hb
  rw [List.takeWhile_append_of_pos hdigits, List.dropWhile_append_of_pos hdigits]
  simp [hnot]

/-- A digit is no sign. -/
theorem sign_of_isDigit {d : UInt8} (hd : isDigit d = true) {s : List UInt8} :
    sign (d :: s) = (false, d :: s) := by
  have hrange := isDigit_iff.mp hd
  have hminus : d ≠ 45 := by
    rintro rfl
    exact absurd hrange.1 (by decide)
  have hplus : d ≠ 43 := by
    rintro rfl
    exact absurd hrange.1 (by decide)
  simp [sign, hminus, hplus]

/-- A number is read back. -/
theorem reads_intText (n : ℤ) : Reads .decimal (intText n) (.int n) := by
  have hdigits := isDigit_natText (n := n.natAbs)
  obtain ⟨d, ds, hcons⟩ := List.exists_cons_of_ne_nil (natText_ne_nil n.natAbs)
  have hd : isDigit d = true := hdigits d (by simp [hcons])
  have hvalue := digitsValue_natText n.natAbs
  by_cases hneg : n < 0
  · rw [intText, if_pos hneg]
    refine ⟨⟨45, _, rfl, by decide⟩, fun b s hb => ?_⟩
    obtain ⟨htake, hdrop⟩ := takeWhile_isDigit hdigits (s := s) hb
    have hsign : sign (((45 :: natText n.natAbs) ++ b :: s).dropWhile isSpace) =
        (true, natText n.natAbs ++ b :: s) := by
      rw [List.cons_append, dropWhile_isSpace (by decide)]
      rfl
    simp only [Conversion.read, hsign, htake, hdrop, natText_ne_nil, hvalue, if_true, if_false]
    rw [show -(n.natAbs : ℤ) = n by omega]
  · rw [intText, if_neg hneg]
    refine ⟨⟨d, ds, hcons, isSpace_of_isDigit hd⟩, fun b s hb => ?_⟩
    obtain ⟨htake, hdrop⟩ := takeWhile_isDigit hdigits (s := s) hb
    have hsign : sign ((natText n.natAbs ++ b :: s).dropWhile isSpace) =
        (false, natText n.natAbs ++ b :: s) := by
      rw [hcons, List.cons_append, dropWhile_isSpace (isSpace_of_isDigit hd)]
      exact sign_of_isDigit hd
    simp only [Conversion.read, hsign, htake, hdrop, natText_ne_nil, hvalue, if_false]
    rw [show (n.natAbs : ℤ) = n by omega]
    rfl

/-- A number is read to the end of the text. -/
theorem decimal_read_natText (n : ℕ) : Conversion.decimal.read (natText n) = some (.int n, []) := by
  have hdigits := isDigit_natText (n := n)
  obtain ⟨d, ds, hcons⟩ := List.exists_cons_of_ne_nil (natText_ne_nil n)
  have hd : isDigit d = true := hdigits d (by simp [hcons])
  have hsign : sign ((natText n).dropWhile isSpace) = (false, natText n) := by
    rw [hcons, dropWhile_isSpace (isSpace_of_isDigit hd)]
    exact sign_of_isDigit hd
  have htake : (natText n).takeWhile isDigit = natText n := List.takeWhile_eq_self_iff.mpr hdigits
  have hdrop : (natText n).dropWhile isDigit = [] := List.dropWhile_eq_nil_iff.mpr hdigits
  simp only [Conversion.read, hsign, htake, hdrop, natText_ne_nil, digitsValue_natText, if_false]
  rfl

/-- A field of a text, with the white space after it. -/
structure Field where
  /-- the text -/
  text : List UInt8
  /-- the white space after it -/
  gap : List UInt8
  /-- the conversion that reads it -/
  conversion : Conversion
  /-- the value is assigned -/
  assign : Bool
  /-- the value -/
  value : Value
  /-- the text is read -/
  reads : Reads conversion text value
  /-- there is white space -/
  gap_ne_nil : gap ≠ []
  /-- and nothing else in between -/
  gap_space : ∀ b ∈ gap, isSpace b = true

/-- One space is a gap. -/
theorem space_ne_nil : ([32] : List UInt8) ≠ [] := List.cons_ne_nil _ _

theorem isSpace_space : ∀ b ∈ ([32] : List UInt8), isSpace b = true :=
  List.forall_mem_singleton.mpr rfl

namespace Field

/-- The bytes of a field. -/
def bytes (f : Field) : List UInt8 := f.text ++ f.gap

/-- The directives for a field. -/
def format (f : Field) : List Directive := [.convert f.conversion f.assign, .space]

/-- The value of a field, if it is assigned. -/
def assigned (f : Field) : Option Value := if f.assign then some f.value else none

end Field

/-- White space at the end of a format does nothing. -/
theorem scan_append_space (ds : List Directive) (s : List UInt8) :
    scan (ds ++ [.space]) s = scan ds s := by
  induction ds generalizing s with
  | nil => rfl
  | cons d ds ih =>
    cases d with
    | space => exact ih _
    | literal b =>
      cases s with
      | nil => rfl
      | cons b' s => simp only [List.cons_append, scan, ih]
    | convert c assign => simp only [List.cons_append, scan, ih]

/-- **One field**: it is read, and the white space after it is skipped. -/
theorem scan_field (f : Field) (ds : List Directive) (s : List UInt8) :
    scan (f.format ++ ds) (f.bytes ++ s) =
      f.assigned.toList ++ scan ds (s.dropWhile isSpace) := by
  obtain ⟨b, gap, hgap⟩ := List.exists_cons_of_ne_nil f.gap_ne_nil
  have hread : f.conversion.read (f.bytes ++ s) = some (f.value, f.gap ++ s) := by
    rw [Field.bytes, List.append_assoc, hgap]
    exact f.reads.read _ _ (f.gap_space _ (by simp [hgap]))
  have hskip : (f.gap ++ s).dropWhile isSpace = s.dropWhile isSpace :=
    List.dropWhile_append_of_pos f.gap_space
  simp only [Field.format, List.cons_append, List.nil_append, scan, hread, hskip, Field.assigned]
  cases f.assign <;> rfl

/-- **A text of fields** is read back, whatever comes after it. -/
theorem scan_fields (fields : List Field) (rest : List UInt8) :
    scan (fields.flatMap Field.format) (fields.flatMap Field.bytes ++ rest) =
      fields.filterMap Field.assigned := by
  induction fields with
  | nil => rfl
  | cons f fields ih =>
    rw [List.flatMap_cons, List.flatMap_cons, List.append_assoc, scan_field]
    have hnext : scan (fields.flatMap Field.format)
        ((fields.flatMap Field.bytes ++ rest).dropWhile isSpace) =
          fields.filterMap Field.assigned := by
      cases fields with
      | nil => rfl
      | cons f' fields =>
        obtain ⟨b, s, htext, hb⟩ := f'.reads.first
        rw [← ih]
        simp only [List.flatMap_cons, Field.bytes, htext, List.cons_append, dropWhile_isSpace hb]
    rw [hnext]
    cases hassigned : f.assigned <;> simp [hassigned]

/-- Bytes without zero are all of the string. -/
theorem cString_append {bytes : List UInt8} (h : 0 ∉ bytes) (s : List UInt8) :
    cString (bytes ++ s) = bytes ++ cString s := by
  refine List.takeWhile_append_of_pos fun b hb => ?_
  have hne : b ≠ 0 := by
    rintro rfl
    exact h hb
  simpa using hne

/-- What no target changes is as it was before. -/
theorem store_preserves {σ α : Type} {p : σ → α} {targets : List (Value → σ → σ)}
    (h : ∀ target ∈ targets, ∀ value s, p (target value s) = p s) (values : List Value) (s : σ) :
    p (store targets values s) = p s := by
  induction targets generalizing values s with
  | nil => rfl
  | cons target targets ih =>
    cases values with
    | nil => rfl
    | cons value values =>
      calc p (store targets values (target value s))
          = p (target value s) := ih (fun t ht => h t (by simp [ht])) _ _
        _ = p s := h target (by simp) value s

/-- A numeral has no zero byte. -/
theorem zero_notMem_intText (n : ℤ) : 0 ∉ intText n := by
  have hdigits : 0 ∉ natText n.natAbs := fun hmem => absurd (isDigit_natText 0 hmem) (by decide)
  rw [intText]
  split <;> simp [hdigits]

/-- **`sscanf`** reads back the fields of its format. -/
theorem sscanf_fields {format : String} {fields : List Field}
    (hformat : directives format.toList ++ [.space] = fields.flatMap Field.format)
    (hzero : 0 ∉ fields.flatMap Field.bytes) (rest : List UInt8) :
    sscanf (fields.flatMap Field.bytes ++ rest) format = fields.filterMap Field.assigned := by
  rw [sscanf, ← scan_append_space, hformat, cString_append hzero, scan_fields]

end Scan

end WallMon
