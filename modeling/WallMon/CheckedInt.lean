import Mathlib.Data.Int.Order.Basic

/-!
# Checked machine arithmetic

C++ `int` is 32 bits wide and its overflow is undefined behaviour. A model value
is a mathematical integer; every arithmetic operation of the source goes through
`CInt.add`, `CInt.sub` or `CInt.mul`, which stop with a `Fault` instead of
leaving the range. Conversions from unsigned values wrap, as they do on the
machines the program runs on.

`Fault` is what can end a call other than by returning: a failed `assert`, a
signed overflow, an array allocation that throws, an access outside an array,
and (for loops that are run with fuel) running out of fuel.
-/

namespace WallMon

/-- Why a call did not return. -/
inductive Fault where
  /-- an `assert` failed -/
  | assertion
  /-- a signed 32-bit computation left its range -/
  | overflow
  /-- `new char[n]` with a negative `n` threw -/
  | badAlloc
  /-- an access outside an array -/
  | outOfBounds
  /-- a loop was given too little fuel -/
  | outOfFuel
  deriving DecidableEq, Repr

/-- `assert(p)`. -/
def cassert (p : Prop) [Decidable p] : Except Fault Unit :=
  if p then .ok () else .error .assertion

theorem cassert_ok {p : Prop} [Decidable p] (h : p) : cassert p = .ok () := if_pos h

theorem cassert_failed {p : Prop} [Decidable p] (h : ¬p) : cassert p = .error .assertion :=
  if_neg h

/-- A call that returned hands its value on. -/
@[simp] theorem ok_bind {α β : Type} (a : α) (f : α → Except Fault β) :
    (.ok a : Except Fault α) >>= f = f a := rfl

/-- A call that faulted ends the sequence. -/
@[simp] theorem error_bind {α β : Type} (e : Fault) (f : α → Except Fault β) :
    (.error e : Except Fault α) >>= f = .error e := rfl

/-- Inversion for a sequence of two calls: both returned. -/
theorem bind_eq_ok {α β : Type} {x : Except Fault α} {f : α → Except Fault β} {b : β}
    (h : x >>= f = .ok b) : ∃ a, x = .ok a ∧ f a = .ok b := by
  cases x with
  | error e => cases h
  | ok a => exact ⟨a, rfl, h⟩

namespace CInt

/-- The values an `int` can hold: `INT_MIN` to `INT_MAX`. -/
def InRange (z : ℤ) : Prop := -2147483648 ≤ z ∧ z ≤ 2147483647

instance (z : ℤ) : Decidable (InRange z) := inferInstanceAs (Decidable (_ ∧ _))

/-- The result of a signed computation whose mathematical value is `z`. -/
def checked (z : ℤ) : Except Fault ℤ := if InRange z then .ok z else .error .overflow

theorem checked_ok {z : ℤ} (h : InRange z) : checked z = .ok z := if_pos h

/-- `a + b` -/
def add (a b : ℤ) : Except Fault ℤ := checked (a + b)

/-- `a - b` -/
def sub (a b : ℤ) : Except Fault ℤ := checked (a - b)

/-- `a * b` -/
def mul (a b : ℤ) : Except Fault ℤ := checked (a * b)

theorem add_ok {a b : ℤ} (h : InRange (a + b)) : add a b = .ok (a + b) := checked_ok h

theorem sub_ok {a b : ℤ} (h : InRange (a - b)) : sub a b = .ok (a - b) := checked_ok h

theorem mul_ok {a b : ℤ} (h : InRange (a * b)) : mul a b = .ok (a * b) := checked_ok h

theorem add_overflow {a b : ℤ} (h : ¬ InRange (a + b)) : add a b = .error .overflow :=
  if_neg h

theorem sub_overflow {a b : ℤ} (h : ¬ InRange (a - b)) : sub a b = .error .overflow :=
  if_neg h

theorem mul_overflow {a b : ℤ} (h : ¬ InRange (a * b)) : mul a b = .error .overflow :=
  if_neg h

/-- Conversion of an `unsigned int` to `int`: the bit pattern is kept. -/
def ofUnsigned (n : ℕ) : ℤ :=
  if n % 4294967296 < 2147483648 then n % 4294967296 else n % 4294967296 - 4294967296

theorem ofUnsigned_small {n : ℕ} (h : n < 2147483648) : ofUnsigned n = n := by
  have hm : (n : ℤ) % 4294967296 = n := by omega
  rw [ofUnsigned, if_pos (by omega), hm]

theorem ofUnsigned_neg {n : ℕ} (h : 2147483648 ≤ n) (h' : n < 4294967296) :
    ofUnsigned n < 0 := by
  rw [ofUnsigned, if_neg (by omega)]
  omega

theorem inRange_ofUnsigned (n : ℕ) : InRange (ofUnsigned n) := by
  unfold ofUnsigned InRange
  split <;> omega

end CInt

end WallMon
