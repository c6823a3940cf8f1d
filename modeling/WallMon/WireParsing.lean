import WallMon.WireFormat

/-!
# Parsing any bytes

What can be said of a parser when nothing is known of the bytes: it ends, as every round of its
loops leaves less of them (`mergeFromString_ne_outOfFuel`), and keeps what the decoders of the
class keep (`mergeFromString_invariant`).
-/

namespace WallMon

namespace WireFormat

variable {σ : Type} {decodersByTag : DecodersByTag σ} {spare : ℕ}

/-! ## Parsing ends -/

/-- A reader has enough fuel, and leaves less than `n` bytes. -/
def Leaves {α : Type} (rest : α → List UInt8) (n : ℕ) : Except DecodeError α → Prop
  | .ok a => (rest a).length < n
  | .error e => e ≠ .outOfFuel

theorem Leaves.mono {α : Type} {rest : α → List UInt8} {n m : ℕ} {read : Except DecodeError α}
    (h : Leaves rest n read) (hnm : n ≤ m) : Leaves rest m read := by
  cases read with
  | ok a => exact lt_of_lt_of_le h hnm
  | error e => exact h

/-- One reader after another. -/
theorem Leaves.bind {α β : Type} {rest : α → List UInt8} {rest' : β → List UInt8} {n m : ℕ}
    {read : Except DecodeError α} {next : α → Except DecodeError β} (h : Leaves rest n read)
    (hnext : ∀ a, (rest a).length < n → Leaves rest' m (next a)) :
    Leaves rest' m (read >>= next) := by
  cases read with
  | ok a => exact hnext a h
  | error e => exact h

theorem Leaves.some {n : ℕ} {read : Except DecodeError (List UInt8)} (h : Leaves id n read) :
    Leaves (·.getD []) n (Option.some <$> read) := by
  cases read with
  | ok rest => exact h
  | error e => exact h

/-- A call that does not fit on the stack fails. -/
theorem Leaves.call {α : Type} {rest : α → List UInt8} {n frames : ℕ}
    {body : ℕ → Except DecodeError α} (h : ∀ frames, Leaves rest n (body frames)) :
    Leaves rest n (WireFormat.call frames body) := by
  cases frames with
  | zero => exact DecodeError.noConfusion
  | succ frames => exact h frames

theorem readTag_leaves (buffer : List UInt8) : Leaves Prod.snd buffer.length (readTag buffer) := by
  induction buffer with
  | nil => exact DecodeError.noConfusion
  | cons b buffer ih =>
    rw [readTag]
    split
    · exact Nat.lt_succ_self _
    · exact ih.bind fun _ hlt => Nat.lt_succ_of_lt hlt

theorem decodeVarintFrom_leaves (shift : ℕ) (buffer : List UInt8) :
    Leaves Prod.snd buffer.length (decodeVarintFrom shift buffer) := by
  induction buffer generalizing shift with
  | nil => exact DecodeError.noConfusion
  | cons b buffer ih =>
    rw [decodeVarintFrom]
    dsimp only
    split
    · exact Nat.lt_succ_self _
    split
    · exact DecodeError.noConfusion
    · exact (ih (shift + 7)).bind fun _ hlt => Nat.lt_succ_of_lt hlt

theorem decodeVarint_leaves (buffer : List UInt8) :
    Leaves Prod.snd buffer.length (decodeVarint buffer) :=
  (decodeVarintFrom_leaves 0 buffer).bind fun _ hlt => hlt

theorem decodeSignedVarint32_leaves (buffer : List UInt8) :
    Leaves Prod.snd buffer.length (decodeSignedVarint32 buffer) := by
  refine (decodeVarintFrom_leaves 0 buffer).bind fun _ hlt => ?_
  dsimp only
  split <;> exact hlt

theorem advance_leaves (size : ℕ) (buffer : List UInt8) :
    Leaves id (buffer.length + 1) (advance size buffer) := by
  rw [advance]
  split
  · refine Nat.lt_succ_of_le ?_
    rw [id, List.length_drop]
    exact Nat.sub_le _ _
  · exact DecodeError.noConfusion

theorem skipVarint_leaves (frames : ℕ) (buffer : List UInt8) :
    Leaves id (buffer.length + 1) (skipVarint frames buffer) :=
  .call fun _ => (readTag_leaves buffer).bind fun _ hlt => Nat.lt_succ_of_lt hlt

theorem skipFixed_leaves (size frames : ℕ) (buffer : List UInt8) :
    Leaves id (buffer.length + 1) (skipFixed size frames buffer) :=
  .call fun _ => advance_leaves size buffer

theorem skipLengthDelimited_leaves (frames : ℕ) (buffer : List UInt8) :
    Leaves id (buffer.length + 1) (skipLengthDelimited frames buffer) := by
  refine .call fun frames => (Leaves.call fun _ => decodeVarint_leaves buffer).bind
    fun sized hlt => ?_
  exact (advance_leaves sized.1 sized.2).mono (Nat.succ_le_succ hlt.le)

theorem enumDecoder_leaves (set : ℤ → σ → σ) (fields : σ) (buffer : List UInt8) :
    Leaves Prod.snd (buffer.length + 1) (enumDecoder set fields buffer) :=
  (decodeSignedVarint32_leaves buffer).bind fun _ hlt => Nat.lt_succ_of_lt hlt

theorem bytesDecoder_leaves (set : List UInt8 → σ → σ) (fields : σ) (buffer : List UInt8) :
    Leaves Prod.snd (buffer.length + 1) (bytesDecoder set fields buffer) := by
  refine (decodeVarint_leaves buffer).bind fun sized hlt => ?_
  refine (advance_leaves sized.1 sized.2).bind fun rest hrest => ?_
  exact lt_of_lt_of_le hrest (Nat.succ_le_succ hlt.le)

theorem stringDecoder_leaves (set : Unicode → σ → σ) (fields : σ) (buffer : List UInt8) :
    Leaves Prod.snd (buffer.length + 1) (stringDecoder set fields buffer) := by
  refine (decodeVarint_leaves buffer).bind fun sized hlt => ?_
  refine (advance_leaves sized.1 sized.2).bind fun rest hrest => ?_
  split
  · exact DecodeError.noConfusion
  · exact lt_of_lt_of_le hrest (Nat.succ_le_succ hlt.le)

/-- A field is skipped, if there is enough fuel for groups. -/
theorem skipField_leaves {group : ℕ → List UInt8 → Except DecodeError (List UInt8)} (frames : ℕ)
    (tagBytes buffer : List UInt8)
    (hgroup : ∀ frames, Leaves id (buffer.length + 1) (group frames buffer)) :
    Leaves (·.getD []) (buffer.length + 1) (skipField group frames tagBytes buffer) := by
  refine .call fun frames => ?_
  split
  · exact (skipVarint_leaves frames buffer).some
  · exact (skipFixed_leaves 8 frames buffer).some
  · exact (skipLengthDelimited_leaves frames buffer).some
  · exact (hgroup frames).some
  · exact .call fun _ => Nat.succ_pos _
  · exact (skipFixed_leaves 4 frames buffer).some
  · exact .call fun _ => DecodeError.noConfusion

/-- A group takes a byte of the buffer for each round. -/
theorem skipGroup_leaves {fuel : ℕ} (frames : ℕ) {buffer : List UInt8}
    (hfuel : buffer.length < fuel) :
    Leaves id (buffer.length + 1) (skipGroup fuel frames buffer) := by
  induction fuel generalizing frames buffer with
  | zero => omega
  | succ fuel ih =>
    rw [skipGroup]
    refine .call fun frames' => (Leaves.call fun _ => readTag_leaves buffer).bind
      fun tagged hlt => ?_
    dsimp only
    refine (skipField_leaves frames' tagged.1 tagged.2 fun frames => ih frames (by omega)).bind
      fun skipped hskipped => ?_
    cases skipped with
    | none => exact Nat.lt_succ_of_lt hlt
    | some rest =>
      exact (ih frames (by simp at hskipped; omega)).mono (by simp at hskipped; omega)

/-- A round leaves less than there was. -/
theorem parseField_leaves
    (hdecoders : ∀ tag decoder, decodersByTag tag = some decoder → ∀ fields buffer,
      Leaves Prod.snd (buffer.length + 1) (decoder fields buffer))
    {fuel : ℕ} (fields : σ) {buffer : List UInt8} (hfuel : buffer.length ≤ fuel) :
    Leaves (fun parsed => (parsed.map Prod.snd).getD []) buffer.length
      (parseField decodersByTag spare fuel fields buffer) := by
  refine (readTag_leaves buffer).bind fun tagged hlt => ?_
  dsimp only
  split
  · refine (skipField_leaves _ tagged.1 tagged.2 fun frames =>
      skipGroup_leaves frames (by omega)).bind fun skipped hskipped => ?_
    cases skipped with
    | none => exact lt_of_le_of_lt (Nat.zero_le _) hlt
    | some rest => exact lt_of_lt_of_le hskipped hlt
  · rename_i decoder hdecoder
    have hdecode := hdecoders _ _ hdecoder fields tagged.2
    revert hdecode
    cases decoder fields tagged.2 with
    | ok decoded => exact fun hdecode => lt_of_lt_of_le hdecode hlt
    | error e => exact id

/-- **Parsing ends**, whatever the bytes are, if the decoders of the class do. -/
theorem internalParse_leaves
    (hdecoders : ∀ tag decoder, decodersByTag tag = some decoder → ∀ fields buffer,
      Leaves Prod.snd (buffer.length + 1) (decoder fields buffer))
    {fuel : ℕ} (fields : σ) {buffer : List UInt8} (hfuel : buffer.length < fuel) :
    Leaves Prod.snd (buffer.length + 1) (internalParse decodersByTag spare fuel fields buffer) := by
  induction fuel generalizing fields buffer with
  | zero => omega
  | succ fuel ih =>
    rw [internalParse]
    split
    · exact Nat.succ_pos _
    · refine (parseField_leaves hdecoders fields (by omega)).bind fun parsed hlt => ?_
      cases parsed with
      | none => exact Nat.lt_succ_self _
      | some parsed =>
        have hless : parsed.2.length < buffer.length := hlt
        exact (ih parsed.1 (by omega)).mono (by omega)

/-- The loops have enough fuel. -/
theorem mergeFromString_ne_outOfFuel
    (hdecoders : ∀ tag decoder, decodersByTag tag = some decoder → ∀ fields buffer,
      Leaves Prod.snd (buffer.length + 1) (decoder fields buffer))
    (fields : σ) (serialized : List UInt8) :
    mergeFromString decodersByTag spare fields serialized ≠ .error .outOfFuel := by
  have hparse : Leaves Prod.snd (serialized.length + 1)
      (internalParse decodersByTag spare (serialized.length + 1) fields serialized) :=
    internalParse_leaves hdecoders fields (Nat.lt_succ_self serialized.length)
  rw [mergeFromString]
  revert hparse
  cases internalParse decodersByTag spare (serialized.length + 1) fields serialized with
  | error e => exact fun hne heq => hne (Except.error.inj heq)
  | ok parsed =>
    intro _
    rw [ok_bind]
    dsimp only
    split <;> (intro heq; cases heq)

/-! ## What is parsed -/

/-- From what a computation results in, back to its first part -/
theorem exists_of_bind_eq_ok {α β : Type} {read : Except DecodeError α}
    {next : α → Except DecodeError β} {b : β} (h : read >>= next = .ok b) :
    ∃ a, read = .ok a ∧ next a = .ok b := by
  cases read with
  | ok a => exact ⟨a, rfl, h⟩
  | error e => cases h

/-- What an enum field can be set to. -/
theorem enumDecoder_eq_ok {set : ℤ → σ → σ} {fields : σ} {buffer : List UInt8}
    {parsed : σ × List UInt8} (h : enumDecoder set fields buffer = .ok parsed) :
    ∃ value, -2 ^ 32 ≤ value ∧ value < 2 ^ 32 ∧ parsed.1 = set value fields := by
  obtain ⟨⟨value, rest⟩, hvalue, hset⟩ := exists_of_bind_eq_ok h
  cases hset
  obtain ⟨⟨result, rest'⟩, -, hresult⟩ := exists_of_bind_eq_ok hvalue
  refine ⟨value, ?_, ?_, rfl⟩
  all_goals
    dsimp only at hresult
    split at hresult <;> cases hresult <;> omega

/-- The size before bytes -/
theorem decodeVarint_lt {buffer : List UInt8} {sized : ℕ × List UInt8}
    (h : decodeVarint buffer = .ok sized) : sized.1 < 2 ^ 64 := by
  obtain ⟨⟨result, rest⟩, -, hresult⟩ := exists_of_bind_eq_ok h
  cases hresult
  exact Nat.mod_lt _ (by positivity)

/-- What a bytes field can be set to. -/
theorem bytesDecoder_eq_ok {set : List UInt8 → σ → σ} {fields : σ} {buffer : List UInt8}
    {parsed : σ × List UInt8} (h : bytesDecoder set fields buffer = .ok parsed) :
    ∃ value : List UInt8, value.length < 2 ^ 64 ∧ parsed.1 = set value fields := by
  obtain ⟨⟨size, sized⟩, hsize, hbytes⟩ := exists_of_bind_eq_ok h
  obtain ⟨rest, -, hset⟩ := exists_of_bind_eq_ok hbytes
  cases hset
  exact ⟨sized.take size, lt_of_le_of_lt (List.length_take_le _ _) (decodeVarint_lt hsize), rfl⟩

/-- What a string field can be set to. -/
theorem stringDecoder_eq_ok {set : Unicode → σ → σ} {fields : σ} {buffer : List UInt8}
    {parsed : σ × List UInt8} (h : stringDecoder set fields buffer = .ok parsed) :
    ∃ value : Unicode, value.encode.length < 2 ^ 64 ∧ parsed.1 = set value fields := by
  obtain ⟨⟨size, sized⟩, hsize, hbytes⟩ := exists_of_bind_eq_ok h
  obtain ⟨rest, -, hstring⟩ := exists_of_bind_eq_ok hbytes
  split at hstring
  · cases hstring
  · rename_i value hvalue
    cases hstring
    refine ⟨value, ?_, rfl⟩
    calc value.encode.length ≤ (sized.take size).length := Unicode.length_encode_le hvalue
      _ ≤ size := List.length_take_le _ _
      _ < 2 ^ 64 := decodeVarint_lt hsize

/-- What every decoder keeps, a parser keeps. -/
theorem internalParse_invariant {P : σ → Prop}
    (hdecoders : ∀ tag decoder, decodersByTag tag = some decoder → ∀ fields buffer parsed,
      P fields → decoder fields buffer = .ok parsed → P parsed.1)
    {fuel : ℕ} {fields : σ} {buffer : List UInt8} {parsed : σ × List UInt8} (hfields : P fields)
    (h : internalParse decodersByTag spare fuel fields buffer = .ok parsed) : P parsed.1 := by
  induction fuel generalizing fields buffer with
  | zero => cases h
  | succ fuel ih =>
    rw [internalParse] at h
    split at h
    · cases h
      exact hfields
    obtain ⟨round, hround, hrest⟩ := exists_of_bind_eq_ok h
    obtain ⟨⟨tag, buffer'⟩, -, hfield⟩ := exists_of_bind_eq_ok hround
    dsimp only at hfield
    split at hfield
    · -- the field is skipped
      obtain ⟨skipped, -, hskipped⟩ := exists_of_bind_eq_ok hfield
      cases hskipped
      cases skipped with
      | none =>
        cases hrest
        exact hfields
      | some rest => exact ih hfields hrest
    · rename_i decoder hdecoder
      cases hdecode : decoder fields buffer' with
      | error e =>
        rw [hdecode] at hfield
        cases hfield
      | ok decoded =>
        rw [hdecode] at hfield
        cases hfield
        exact ih (hdecoders _ _ hdecoder _ _ _ hfields hdecode) hrest

/-- **What every decoder keeps** is kept. -/
theorem mergeFromString_invariant {P : σ → Prop}
    (hdecoders : ∀ tag decoder, decodersByTag tag = some decoder → ∀ fields buffer parsed,
      P fields → decoder fields buffer = .ok parsed → P parsed.1)
    {fields fields' : σ} {serialized : List UInt8} (hfields : P fields)
    (h : mergeFromString decodersByTag spare fields serialized = .ok fields') : P fields' := by
  obtain ⟨parsed, hparse, hrest⟩ := exists_of_bind_eq_ok h
  have hparsed := internalParse_invariant hdecoders hfields hparse
  dsimp only at hrest
  split at hrest
  · cases hrest
    exact hparsed
  · cases hrest

end WireFormat

end WallMon
