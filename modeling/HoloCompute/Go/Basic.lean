import Mathlib.Data.List.AList
import Mathlib.Algebra.Group.Nat.Basic

/-!
# Go's machine integers, call outcomes and slice expressions

The DSM code runs on 64-bit targets, where Go's `int` and `int64` are 64-bit two's
complement. `GoInt` keeps such a value as its signed mathematical integer, with the range as
fields, so no out-of-range value can be built; `+`, `-` and `*` wrap exactly as the Go operators
do, and `/` truncates toward zero.
`wrap64` is written with literal moduli so that `omega` decides every overflow question.

A Go call that returns `(T, error)` and may panic is an `Outcome`: a value, a non-nil `error`,
or a run-time panic. `goSlice` is the slice expression `s[lo:hi]`, which panics unless
`0 ≤ lo ≤ hi ≤ len(s)` (every slice here is made by `make`, so its capacity is its length).
-/

namespace HoloCompute.Go
set_option autoImplicit false

/-- Reduce a mathematical integer into `[-2^63, 2^63)`, as 64-bit two's complement does. -/
def wrap64 (x : Int) : Int :=
  (x + 9223372036854775808) % 18446744073709551616 - 9223372036854775808

theorem wrap64_ge (x : Int) : -9223372036854775808 ≤ wrap64 x := by
  unfold wrap64; omega

theorem wrap64_lt (x : Int) : wrap64 x < 9223372036854775808 := by
  unfold wrap64; omega

/-- In range, the wraparound is the identity. -/
theorem wrap64_of_mem {x : Int} (lo : -9223372036854775808 ≤ x) (hi : x < 9223372036854775808) :
    wrap64 x = x := by
  unfold wrap64; omega

/-- A Go `int` (equivalently `int64`) on a 64-bit target. -/
structure GoInt where
  val : Int
  ge : -9223372036854775808 ≤ val
  lt : val < 9223372036854775808
  deriving DecidableEq

namespace GoInt

/-- The Go conversion `int64(x)` of an integer constant or of a `uint64` bit pattern. -/
def ofInt (x : Int) : GoInt := ⟨wrap64 x, wrap64_ge x, wrap64_lt x⟩

instance : Add GoInt := ⟨fun a b => ofInt (a.val + b.val)⟩
instance : Sub GoInt := ⟨fun a b => ofInt (a.val - b.val)⟩
instance : Mul GoInt := ⟨fun a b => ofInt (a.val * b.val)⟩
/-- Go's `/` on integers truncates toward zero; `MinInt64 / -1` wraps to `MinInt64`. Division
by zero, which panics, does not occur in the modelled code. -/
instance : Div GoInt := ⟨fun a b => ofInt (a.val.tdiv b.val)⟩
instance (n : Nat) : OfNat GoInt n := ⟨ofInt n⟩

@[simp] theorem val_ofInt (x : Int) : (ofInt x).val = wrap64 x := rfl
@[simp] theorem val_add (a b : GoInt) : (a + b).val = wrap64 (a.val + b.val) := rfl
@[simp] theorem val_sub (a b : GoInt) : (a - b).val = wrap64 (a.val - b.val) := rfl
@[simp] theorem val_mul (a b : GoInt) : (a * b).val = wrap64 (a.val * b.val) := rfl
@[simp] theorem val_div (a b : GoInt) : (a / b).val = wrap64 (a.val.tdiv b.val) := rfl
@[simp] theorem val_four : (4 : GoInt).val = 4 := rfl
@[simp] theorem val_eight : (8 : GoInt).val = 8 := rfl

@[ext] theorem ext {a b : GoInt} (h : a.val = b.val) : a = b := by
  cases a; cases b; cases h; rfl

/-- A sum that stays in range does not wrap. -/
theorem val_add_of_mem {a b : GoInt} (lo : -9223372036854775808 ≤ a.val + b.val)
    (hi : a.val + b.val < 9223372036854775808) : (a + b).val = a.val + b.val :=
  wrap64_of_mem lo hi

/-- A product that stays in range does not wrap. -/
theorem val_mul_of_mem {a b : GoInt} (lo : -9223372036854775808 ≤ a.val * b.val)
    (hi : a.val * b.val < 9223372036854775808) : (a * b).val = a.val * b.val :=
  wrap64_of_mem lo hi

theorem ofInt_val (a : GoInt) : ofInt a.val = a :=
  ext (wrap64_of_mem a.ge a.lt)

/-- `uint64(x)`: the 64-bit pattern of `x`, as a natural number below `2^64`. -/
def toUint64 (a : GoInt) : Nat := (a.val % 18446744073709551616).toNat

theorem toUint64_lt (a : GoInt) : a.toUint64 < 18446744073709551616 := by
  unfold toUint64; omega

/-- `int64(uint64(x)) = x`: the two conversions are inverse bit reinterpretations. -/
@[simp] theorem ofInt_toUint64 (a : GoInt) : ofInt a.toUint64 = a := by
  have := a.ge; have := a.lt
  ext; simp only [val_ofInt, toUint64, wrap64]; omega

end GoInt

/-- The outcome of a Go call returning `(T, error)`: a value, a non-nil `error`, or a
run-time panic. -/
inductive Outcome (ε α : Type) where
  | ok (a : α)
  | error (e : ε)
  | panic
  deriving DecidableEq, Repr

namespace Outcome

variable {ε α β : Type}

/-- Apply `f` to a successful result; errors and panics pass through. -/
def map (f : α → β) : Outcome ε α → Outcome ε β
  | ok a => ok (f a)
  | error e => error e
  | panic => panic

@[simp] theorem map_ok (f : α → β) (a : α) : (ok a : Outcome ε α).map f = ok (f a) := rfl
@[simp] theorem map_error (f : α → β) (e : ε) : (error e : Outcome ε α).map f = error e := rfl
@[simp] theorem map_panic (f : α → β) : (panic : Outcome ε α).map f = panic := rfl

end Outcome

/-- The bytes `s[lo:hi]` of a slice expression; `none` is the run-time panic
"slice bounds out of range". -/
def goSlice {α : Type} (s : List α) (lo hi : Int) : Option (List α) :=
  if 0 ≤ lo ∧ lo ≤ hi ∧ hi ≤ s.length then some ((s.drop lo.toNat).take (hi - lo).toNat)
  else none

theorem goSlice_of_mem {α : Type} {s : List α} {lo hi : Int} (h0 : 0 ≤ lo) (h1 : lo ≤ hi)
    (h2 : hi ≤ s.length) : goSlice s lo hi = some ((s.drop lo.toNat).take (hi - lo).toNat) :=
  if_pos ⟨h0, h1, h2⟩

theorem goSlice_of_not_mem {α : Type} {s : List α} {lo hi : Int}
    (h : ¬ (0 ≤ lo ∧ lo ≤ hi ∧ hi ≤ s.length)) : goSlice s lo hi = none :=
  if_neg h

end HoloCompute.Go
