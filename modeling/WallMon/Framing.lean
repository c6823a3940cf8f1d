import Mathlib.Order.Nat
import Mathlib.Data.List.Basic
import Mathlib.Tactic.Common

/-!
# Length-prefixed framing

A stream of messages in which each message is preceded by a header of fixed
width that tells its length. The module is about the format alone: what a whole
stream is, how a one-shot decoder splits a byte sequence into the messages that
are complete in it (`frames`) and the bytes left over (`rest`), and why feeding
the decoder piece by piece gives the same messages (`frames_append`,
`rest_append`).

A message is only taken off when at least one byte follows its header: a reader
that waits for a *strictly* longer buffer than a header never acts on a bare
header.
-/

namespace WallMon

universe u

/-- A framing over the byte type `α`: headers of `width` bytes which tell the
length of any message of at most `maxLength` bytes. -/
structure Framing (α : Type u) where
  /-- the number of bytes of a header -/
  width : ℕ
  /-- the longest message a header can announce -/
  maxLength : ℕ
  /-- the header announcing a length -/
  header : ℕ → List α
  /-- the length a header announces -/
  lengthOf : List α → ℕ
  /-- there is a header -/
  width_pos : 0 < width
  /-- headers have the announced width -/
  length_header : ∀ n, (header n).length = width
  /-- a header tells the length it was made for -/
  lengthOf_header : ∀ n, n ≤ maxLength → lengthOf (header n) = n

namespace Framing

variable {α : Type u} (F : Framing α)

/-- One message on the wire: its header, then its bytes. -/
def encode (p : List α) : List α := F.header p.length ++ p

/-- A sequence of messages on the wire. -/
def stream (ps : List (List α)) : List α := ps.flatMap F.encode

/-- The length announced by the first bytes of `bs`. -/
def announced (bs : List α) : ℕ := F.lengthOf (bs.take F.width)

/-- The first message of `bs` is complete. -/
def Ready (bs : List α) : Prop :=
  F.width < bs.length ∧ F.announced bs ≤ bs.length - F.width

instance (bs : List α) : Decidable (F.Ready bs) :=
  inferInstanceAs (Decidable (_ ∧ _))

/-- The bytes of the first message of `bs`. -/
def first (bs : List α) : List α := (bs.drop F.width).take (F.announced bs)

/-- What follows the first message of `bs`. -/
def skip (bs : List α) : List α := bs.drop (F.width + F.announced bs)

theorem length_skip_lt {bs : List α} (h : F.Ready bs) :
    (F.skip bs).length < bs.length := by
  have hw := F.width_pos
  have hr := h.1
  rw [skip, List.length_drop]
  omega

theorem length_first {bs : List α} (h : F.Ready bs) :
    (F.first bs).length = F.announced bs := by
  rw [first, List.length_take, List.length_drop]
  exact Nat.min_eq_left h.2

/-- One-shot decoding: the complete messages at the front of `bs`. -/
def frames (bs : List α) : List (List α) :=
  if _h : F.Ready bs then F.first bs :: frames (F.skip bs) else []
termination_by bs.length
decreasing_by exact F.length_skip_lt _h

/-- One-shot decoding: the bytes after the complete messages. -/
def rest (bs : List α) : List α :=
  if _h : F.Ready bs then rest (F.skip bs) else bs
termination_by bs.length
decreasing_by exact F.length_skip_lt _h

/-! ### Equation lemmas -/

theorem frames_of_ready {bs : List α} (h : F.Ready bs) :
    F.frames bs = F.first bs :: F.frames (F.skip bs) := by
  rw [frames, dif_pos h]

theorem frames_of_not_ready {bs : List α} (h : ¬ F.Ready bs) : F.frames bs = [] := by
  rw [frames, dif_neg h]

theorem rest_of_ready {bs : List α} (h : F.Ready bs) :
    F.rest bs = F.rest (F.skip bs) := by
  rw [rest, dif_pos h]

theorem rest_of_not_ready {bs : List α} (h : ¬ F.Ready bs) : F.rest bs = bs := by
  rw [rest, dif_neg h]

/-- Induction along the decoder: a sequence without a complete message, or one
whose first message is split off. -/
theorem decodeInduction {motive : List α → Prop}
    (stop : ∀ bs, ¬ F.Ready bs → motive bs)
    (step : ∀ bs, F.Ready bs → motive (F.skip bs) → motive bs) (bs : List α) :
    motive bs := by
  induction hn : bs.length using Nat.strongRecOn generalizing bs with
  | ind n ih =>
    by_cases h : F.Ready bs
    · refine step bs h (ih _ ?_ _ rfl)
      rw [← hn]
      exact F.length_skip_lt h
    · exact stop bs h

/-! ### Incremental decoding

A message that is complete stays complete and stays the same when more bytes
arrive, so decoding what is left over together with the new bytes yields exactly
the messages that one-shot decoding finds beyond the old ones. -/

theorem announced_append {bs : List α} (cs : List α) (h : F.width ≤ bs.length) :
    F.announced (bs ++ cs) = F.announced bs := by
  rw [announced, announced, List.take_append_of_le_length h]

theorem Ready.append {bs : List α} (h : F.Ready bs) (cs : List α) :
    F.Ready (bs ++ cs) := by
  obtain ⟨hw, hl⟩ := h
  refine ⟨?_, ?_⟩
  · rw [List.length_append]
    omega
  · rw [F.announced_append cs (by omega), List.length_append]
    omega

theorem first_append {bs : List α} (h : F.Ready bs) (cs : List α) :
    F.first (bs ++ cs) = F.first bs := by
  obtain ⟨hw, hl⟩ := h
  rw [first, first, F.announced_append cs (by omega),
    List.drop_append_of_le_length (by omega), List.take_append_of_le_length]
  rw [List.length_drop]
  exact hl

theorem skip_append {bs : List α} (h : F.Ready bs) (cs : List α) :
    F.skip (bs ++ cs) = F.skip bs ++ cs := by
  obtain ⟨hw, hl⟩ := h
  rw [skip, skip, F.announced_append cs (by omega), List.drop_append_of_le_length]
  omega

/-- **Incremental decoding finds the same messages.** -/
theorem frames_append (bs cs : List α) :
    F.frames (bs ++ cs) = F.frames bs ++ F.frames (F.rest bs ++ cs) := by
  induction bs using F.decodeInduction with
  | stop bs h => rw [F.frames_of_not_ready h, F.rest_of_not_ready h, List.nil_append]
  | step bs h ih =>
    rw [F.frames_of_ready (h.append F cs), F.first_append h, F.skip_append h, ih,
      F.frames_of_ready h, F.rest_of_ready h, List.cons_append]

/-- **Incremental decoding leaves the same bytes over.** -/
theorem rest_append (bs cs : List α) :
    F.rest (bs ++ cs) = F.rest (F.rest bs ++ cs) := by
  induction bs using F.decodeInduction with
  | stop bs h => rw [F.rest_of_not_ready h]
  | step bs h ih =>
    rw [F.rest_of_ready (h.append F cs), F.skip_append h, ih, F.rest_of_ready h]

/-- What is left over holds no complete message. -/
theorem not_ready_rest (bs : List α) : ¬ F.Ready (F.rest bs) := by
  induction bs using F.decodeInduction with
  | stop bs h => rwa [F.rest_of_not_ready h]
  | step bs h ih => rwa [F.rest_of_ready h]

theorem length_rest_le (bs : List α) : (F.rest bs).length ≤ bs.length := by
  induction bs using F.decodeInduction with
  | stop bs h => rw [F.rest_of_not_ready h]
  | step bs h ih =>
    rw [F.rest_of_ready h]
    exact le_trans ih (le_of_lt (F.length_skip_lt h))

/-! ### Encoded streams -/

/-- The messages of a stream that are complete in its first `n` bytes: those
whose last byte is among them. -/
def completed : List (List α) → ℕ → List (List α)
  | [], _ => []
  | p :: ps, n =>
    if (F.encode p).length ≤ n then p :: completed ps (n - (F.encode p).length) else []

/-- Messages this framing can carry: not empty, and short enough for a header. -/
def Sendable (p : List α) : Prop := 1 ≤ p.length ∧ p.length ≤ F.maxLength

@[simp] theorem length_encode (p : List α) :
    (F.encode p).length = F.width + p.length := by
  rw [encode, List.length_append, F.length_header]

@[simp] theorem stream_nil : F.stream [] = [] := rfl

theorem stream_cons (p : List α) (ps : List (List α)) :
    F.stream (p :: ps) = F.encode p ++ F.stream ps := by
  rw [stream, stream, List.flatMap_cons]

/-- Nothing is complete before the first byte. -/
theorem completed_zero (ps : List (List α)) : F.completed ps 0 = [] := by
  cases ps with
  | nil => rfl
  | cons p ps =>
    have hw := F.width_pos
    rw [completed, if_neg]
    rw [F.length_encode]
    omega

/-- The messages that are complete are the first ones. -/
theorem completed_isPrefix (ps : List (List α)) (n : ℕ) : F.completed ps n <+: ps := by
  induction ps generalizing n with
  | nil => exact List.prefix_refl _
  | cons p ps ih =>
    rw [completed]
    split
    · exact (List.cons_prefix_cons).mpr ⟨rfl, ih _⟩
    · exact List.nil_prefix

/-- More bytes complete more messages. -/
theorem completed_mono (ps : List (List α)) {n m : ℕ} (h : n ≤ m) :
    F.completed ps n <+: F.completed ps m := by
  induction ps generalizing n m with
  | nil => exact List.prefix_refl _
  | cons p ps ih =>
    rw [completed, completed]
    by_cases hn : (F.encode p).length ≤ n
    · rw [if_pos hn, if_pos (hn.trans h)]
      exact (List.cons_prefix_cons).mpr ⟨rfl, ih (Nat.sub_le_sub_right h _)⟩
    · rw [if_neg hn]
      exact List.nil_prefix

/-- What the first bytes of an encoded message announce, once its header is in:
its own length. -/
theorem announced_take_encode {p : List α} (hp : p.length ≤ F.maxLength) (bs : List α)
    {n : ℕ} (hn : F.width ≤ n) :
    F.announced ((F.encode p ++ bs).take n) = p.length := by
  have htake : ((F.encode p ++ bs).take n).take F.width = F.header p.length := by
    rw [List.take_take, Nat.min_eq_left hn, encode, List.append_assoc,
      List.take_append_of_le_length (F.length_header _).ge,
      List.take_of_length_le (F.length_header _).le]
  rw [announced, htake, F.lengthOf_header _ hp]

/-- A prefix of a stream is ready exactly when it holds the first message. -/
theorem ready_take_stream {p : List α} {ps : List (List α)} (hp : F.Sendable p) (n : ℕ) :
    F.Ready ((F.stream (p :: ps)).take n) ↔ (F.encode p).length ≤ n := by
  have hlen : ((F.stream (p :: ps)).take n).length =
      min n (F.width + p.length + (F.stream ps).length) := by
    rw [F.stream_cons, List.length_take, List.length_append, F.length_encode]
  rw [Ready, hlen, F.length_encode]
  refine ⟨?_, fun hn => ?_⟩
  · rintro ⟨hw, hl⟩
    rw [F.stream_cons, F.announced_take_encode hp.2 _ (by omega)] at hl
    omega
  · have hp1 := hp.1
    refine ⟨by omega, ?_⟩
    rw [F.stream_cons, F.announced_take_encode hp.2 _ (by omega)]
    omega

/-- The first message of a long enough prefix of a stream. -/
theorem first_take_stream {p : List α} {ps : List (List α)} (hp : F.Sendable p) {n : ℕ}
    (hn : (F.encode p).length ≤ n) : F.first ((F.stream (p :: ps)).take n) = p := by
  rw [F.length_encode] at hn
  rw [first, F.stream_cons, F.announced_take_encode hp.2 _ (by omega), List.drop_take,
    List.take_take, encode, List.append_assoc,
    List.drop_append_of_le_length (F.length_header _).ge,
    List.drop_of_length_le (F.length_header _).le, List.nil_append,
    Nat.min_eq_left (by omega), List.take_append_of_le_length (le_refl _),
    List.take_of_length_le (le_refl _)]

/-- Skipping the first message of a prefix of a stream. -/
theorem skip_take_stream {p : List α} {ps : List (List α)} (hp : F.Sendable p) {n : ℕ}
    (hn : (F.encode p).length ≤ n) :
    F.skip ((F.stream (p :: ps)).take n) =
      (F.stream ps).take (n - (F.encode p).length) := by
  have hlen := F.length_encode p
  rw [skip, F.stream_cons, F.announced_take_encode hp.2 _ (by omega), List.drop_take,
    ← hlen, List.drop_append_of_le_length (le_refl _), List.drop_of_length_le (le_refl _),
    List.nil_append]

/-- **Decoding a prefix of a stream yields the messages complete in it.** -/
theorem frames_take_stream {ps : List (List α)} (hps : ∀ p ∈ ps, F.Sendable p) (n : ℕ) :
    F.frames ((F.stream ps).take n) = F.completed ps n := by
  induction ps generalizing n with
  | nil =>
    rw [stream_nil, List.take_nil, completed, F.frames_of_not_ready]
    rintro ⟨hw, -⟩
    simp at hw
  | cons p ps ih =>
    have hp : F.Sendable p := hps p (List.mem_cons_self ..)
    rw [completed]
    by_cases hn : (F.encode p).length ≤ n
    · rw [if_pos hn, F.frames_of_ready ((F.ready_take_stream hp n).mpr hn),
        F.first_take_stream hp hn, F.skip_take_stream hp hn,
        ih fun q hq => hps q (List.mem_cons_of_mem _ hq)]
    · rw [if_neg hn, F.frames_of_not_ready fun h => hn ((F.ready_take_stream hp n).mp h)]

/-- Streams that begin alike have the same complete messages there. -/
theorem completed_congr {ps qs : List (List α)} (hps : ∀ p ∈ ps, F.Sendable p)
    (hqs : ∀ q ∈ qs, F.Sendable q) {n : ℕ}
    (h : (F.stream ps).take n = (F.stream qs).take n) : F.completed ps n = F.completed qs n := by
  rw [← F.frames_take_stream hps, ← F.frames_take_stream hqs, h]

/-- What is left of a prefix of a stream, if it holds more than a header, announces
a message of that stream. -/
theorem announced_rest_take_stream {ps : List (List α)} (hps : ∀ p ∈ ps, F.Sendable p)
    (n : ℕ) (hlong : F.width < (F.rest ((F.stream ps).take n)).length) :
    ∃ p ∈ ps, F.announced (F.rest ((F.stream ps).take n)) = p.length := by
  induction ps generalizing n with
  | nil =>
    have hle := F.length_rest_le ((F.stream []).take n)
    rw [stream_nil, List.take_nil, List.length_nil] at hle
    rw [stream_nil, List.take_nil] at hlong
    omega
  | cons p ps ih =>
    have hp : F.Sendable p := hps p (List.mem_cons_self ..)
    by_cases hn : (F.encode p).length ≤ n
    · rw [F.rest_of_ready ((F.ready_take_stream hp n).mpr hn), F.skip_take_stream hp hn]
        at hlong ⊢
      obtain ⟨q, hq, heq⟩ := ih (fun q hq => hps q (List.mem_cons_of_mem _ hq)) _ hlong
      exact ⟨q, List.mem_cons_of_mem _ hq, heq⟩
    · rw [F.rest_of_not_ready fun h => hn ((F.ready_take_stream hp n).mp h)] at hlong ⊢
      refine ⟨p, List.mem_cons_self .., ?_⟩
      rw [List.length_take] at hlong
      rw [F.stream_cons, F.announced_take_encode hp.2 _ (by omega)]

end Framing

end WallMon
