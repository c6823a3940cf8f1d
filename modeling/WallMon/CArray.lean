import WallMon.CheckedInt
import Mathlib.Data.List.Basic
import Mathlib.Tactic.Common

/-!
# Byte arrays with checked accesses

`char` arrays as the source uses them: `new char[n]`, reading and writing one
element, and `memcpy`. Indices and lengths are `int` values, so they may be
negative; any access outside the array is a `Fault`.

The bytes of a fresh array are indeterminate in C++. The model fills it with
zeros; what is proved about contents only ever concerns bytes written before.
-/

namespace WallMon

namespace CArray

/-- `new char[n]` -/
def alloc (n : ℤ) : Except Fault (List UInt8) :=
  if n < 0 then .error .badAlloc else .ok (List.replicate n.toNat 0)

/-- `a[i]` -/
def get (a : List UInt8) (i : ℤ) : Except Fault UInt8 :=
  if 0 ≤ i then
    match a[i.toNat]? with
    | some x => .ok x
    | none => .error .outOfBounds
  else .error .outOfBounds

/-- `a[i] = x` -/
def set (a : List UInt8) (i : ℤ) (x : UInt8) : Except Fault (List UInt8) :=
  if 0 ≤ i ∧ i < a.length then .ok (a.set i.toNat x) else .error .outOfBounds

/-- The `n` bytes of `a` from index `i` on: the source of a `memcpy`. -/
def slice (a : List UInt8) (i n : ℤ) : Except Fault (List UInt8) :=
  if 0 ≤ i ∧ 0 ≤ n ∧ i + n ≤ a.length then .ok ((a.drop i.toNat).take n.toNat)
  else .error .outOfBounds

/-- Copying `xs` to `a` from index `i` on: the destination of a `memcpy` or of a
`recv`. -/
def write (a : List UInt8) (i : ℤ) (xs : List UInt8) : Except Fault (List UInt8) :=
  if 0 ≤ i ∧ i + xs.length ≤ a.length then
    .ok (a.take i.toNat ++ xs ++ a.drop (i.toNat + xs.length))
  else .error .outOfBounds

theorem alloc_ok {n : ℤ} (h : 0 ≤ n) : alloc n = .ok (List.replicate n.toNat 0) :=
  if_neg (by omega)

theorem alloc_neg {n : ℤ} (h : n < 0) : alloc n = .error .badAlloc := if_pos h

theorem alloc_eq_ok {n : ℤ} {a : List UInt8} (h : alloc n = .ok a) :
    0 ≤ n ∧ a = List.replicate n.toNat 0 := by
  rw [alloc] at h
  split at h
  · cases h
  · next hn => exact ⟨not_lt.mp hn, (Except.ok.inj h).symm⟩

theorem get_ok {a : List UInt8} {i : ℕ} (h : i < a.length) :
    get a (i : ℤ) = .ok (a[i]) := by
  rw [get, if_pos (by omega), Int.toNat_natCast, List.getElem?_eq_getElem h]

theorem set_ok {a : List UInt8} {i : ℕ} (x : UInt8) (h : i < a.length) :
    set a (i : ℤ) x = .ok (a.set i x) := by
  rw [set, if_pos ⟨by omega, by omega⟩, Int.toNat_natCast]

theorem slice_ok {a : List UInt8} {i n : ℤ} (hi : 0 ≤ i) (hn : 0 ≤ n)
    (h : i + n ≤ a.length) : slice a i n = .ok ((a.drop i.toNat).take n.toNat) :=
  if_pos ⟨hi, hn, h⟩

theorem write_ok {a xs : List UInt8} {i : ℤ} (hi : 0 ≤ i) (h : i + xs.length ≤ a.length) :
    write a i xs = .ok (a.take i.toNat ++ xs ++ a.drop (i.toNat + xs.length)) :=
  if_pos ⟨hi, h⟩

/-- What is written lies in the array. -/
theorem write_fits {a xs b : List UInt8} {i : ℤ} (h : write a i xs = .ok b) :
    i + xs.length ≤ a.length := by
  rw [write] at h
  split at h
  · next hb => exact hb.2
  · cases h

/-- Writing keeps the length of an array. -/
theorem length_write {a xs b : List UInt8} {i : ℤ} (h : write a i xs = .ok b) :
    b.length = a.length := by
  rw [write] at h
  split at h
  · next hb =>
    obtain rfl := Except.ok.inj h
    simp only [List.length_append, List.length_take, List.length_drop]
    omega
  · cases h

end CArray

end WallMon
