import HoloCompute.Go.Basic

/-!
# `float32` values and Go's conversions to and from `uint32`

A `float32` is kept as its IEEE-754 binary32 bit pattern: the sign in bit 31, the biased
exponent in bits 23–30, the fraction in bits 0–22. Two `float32` values are bit-identical
exactly when their patterns are equal. `f32Mag` is the magnitude of a finite value scaled by
`2^149`, the inverse of the least subnormal. It is always a natural number, and the value is a
whole number exactly when `2^149` divides it.

Go's `uint32(f)` and `float32(u)` are value conversions, not bit casts. `uint32(f)` discards the
fraction, truncating toward zero. Where the truncated value is not a `uint32`, the result is
implementation-dependent; `uint32OfFloat32` takes that result as its parameter `beyond`.
`float32(u)` rounds `u` to 24 significant bits, to nearest with ties to even, and packs the
pattern `(k + 126)·2^23 + q` from the leading-bit position `k` and the rounded significand `q`.
The pattern absorbs a carry of `q` to `2^24` into the exponent.

Every `float32(u)` is a non-negative, finite whole number (`whole_float32OfUint32`).
-/

namespace HoloCompute.Go
set_option autoImplicit false

/-- The sign bit of a `float32`. -/
def f32Sign (x : BitVec 32) : Bool := decide (2147483648 ≤ x.toNat)

/-- The biased exponent field of a `float32`; 255 marks infinities and NaNs. -/
def f32Exp (x : BitVec 32) : Nat := x.toNat / 8388608 % 256

/-- The fraction field of a `float32`. -/
def f32Frac (x : BitVec 32) : Nat := x.toNat % 8388608

/-- `|x| · 2^149` for a finite `float32` `x`: the significand, with the hidden bit of a normal
value, shifted by the exponent. -/
def f32Mag (x : BitVec 32) : Nat :=
  if f32Exp x = 0 then f32Frac x else (f32Frac x + 8388608) * 2 ^ (f32Exp x - 1)

/-- A `float32` that is finite, a whole number, and `+0` or positive. -/
def IsWholeNonneg (x : BitVec 32) : Prop :=
  f32Sign x = false ∧ f32Exp x ≠ 255 ∧ 2 ^ 149 ∣ f32Mag x

/-- `uint32(f)`: the value truncated toward zero when that is a `uint32` (`-1 < f < 2^32`),
and the implementation's result `beyond f` otherwise. -/
def uint32OfFloat32 (beyond : BitVec 32 → BitVec 32) (x : BitVec 32) : BitVec 32 :=
  let t := f32Mag x / 2 ^ 149
  if f32Exp x ≠ 255 ∧ (if f32Sign x then t = 0 else t < 4294967296) then BitVec.ofNat 32 t
  else beyond x

/-- `n / 2^s` rounded to nearest, ties to even. -/
def roundToEven (n s : Nat) : Nat :=
  let q := n / 2 ^ s
  let r := n % 2 ^ s
  if 2 ^ s < 2 * r ∨ (2 * r = 2 ^ s ∧ q % 2 = 1) then q + 1 else q

/-- The 24-bit significand of a non-zero `n` whose leading bit is bit `k`, rounded. -/
def significand (n k : Nat) : Nat :=
  if k ≤ 23 then n * 2 ^ (23 - k) else roundToEven n (k - 23)

/-- `float32(u)`. -/
def float32OfUint32 (u : BitVec 32) : BitVec 32 :=
  if u.toNat = 0 then 0
  else BitVec.ofNat 32 ((u.toNat.log2 + 126) * 8388608 + significand u.toNat u.toNat.log2)

/-! ## The significand -/

section Significand

variable {n : Nat}

theorem log2_le_of_lt (hn : n < 4294967296) (h0 : n ≠ 0) : n.log2 ≤ 31 :=
  Nat.le_of_lt_succ ((Nat.log2_lt h0).2 hn)

theorem roundToEven_bounds (n s : Nat) :
    n / 2 ^ s ≤ roundToEven n s ∧ roundToEven n s ≤ n / 2 ^ s + 1 := by
  unfold roundToEven
  dsimp only
  split <;> omega

/-- The rounded significand has 24 bits, or is `2^24` after a carry. -/
theorem significand_bounds (h0 : n ≠ 0) :
    8388608 ≤ significand n n.log2 ∧ significand n n.log2 ≤ 16777216 := by
  have hlo := Nat.log2_self_le h0
  have hhi : n < 2 ^ (n.log2 + 1) := Nat.lt_log2_self
  unfold significand
  split <;> rename_i hk
  · have hpow : 2 ^ n.log2 * 2 ^ (23 - n.log2) = 8388608 := by
      rw [← Nat.pow_add, Nat.add_sub_cancel' hk]
    have hpow' : 2 ^ (n.log2 + 1) * 2 ^ (23 - n.log2) = 16777216 := by
      rw [← Nat.pow_add, show n.log2 + 1 + (23 - n.log2) = 24 by omega]
    have h1 := Nat.mul_le_mul_right (2 ^ (23 - n.log2)) hlo
    have h2 := Nat.mul_lt_mul_of_pos_right hhi (Nat.two_pow_pos (23 - n.log2))
    omega
  · have hpow : 2 ^ n.log2 = 8388608 * 2 ^ (n.log2 - 23) := by
      rw [show n.log2 = 23 + (n.log2 - 23) by omega, Nat.pow_add, Nat.add_sub_cancel_left]
    have hq₁ : 8388608 ≤ n / 2 ^ (n.log2 - 23) :=
      (Nat.le_div_iff_mul_le (Nat.two_pow_pos _)).2 (hpow ▸ hlo)
    have hq₂ : n / 2 ^ (n.log2 - 23) < 16777216 := by
      refine (Nat.div_lt_iff_lt_mul (Nat.two_pow_pos _)).2 ?_
      rw [Nat.pow_succ, hpow] at hhi
      omega
    have := roundToEven_bounds n (n.log2 - 23)
    omega

/-- The significand times `2^(k+126)` is a multiple of `2^149`: the value is whole. -/
theorem dvd_significand_mul (n : Nat) :
    2 ^ 149 ∣ significand n n.log2 * 2 ^ (n.log2 + 126) := by
  unfold significand
  split <;> rename_i hk
  · refine ⟨n, ?_⟩
    rw [Nat.mul_assoc, ← Nat.pow_add, show 23 - n.log2 + (n.log2 + 126) = 149 by omega,
      Nat.mul_comm]
  · exact Nat.dvd_trans (Nat.pow_dvd_pow 2 (by omega)) (Nat.dvd_mul_left _ _)

end Significand

/-! ## Decoding a packed normal value -/

section Pack

variable {k q : Nat}

/-- The pattern `float32(u)` packs, read back field by field. -/
theorem fields_pack (hk : k ≤ 31) (hq₁ : 8388608 ≤ q) (hq₂ : q ≤ 16777216) :
    let x := BitVec.ofNat 32 ((k + 126) * 8388608 + q)
    f32Sign x = false ∧ f32Exp x = k + 126 + q / 8388608 ∧ f32Frac x = q % 8388608 := by
  have hlt : (k + 126) * 8388608 + q < 2147483648 := by omega
  simp only [f32Sign, f32Exp, f32Frac, BitVec.toNat_ofNat, decide_eq_false_iff_not, Nat.not_le,
    Nat.mod_eq_of_lt (show (k + 126) * 8388608 + q < 2 ^ 32 by omega)]
  omega

/-- A packed pattern is finite, with magnitude `q · 2^(k+126)`. -/
theorem mag_pack (hk : k ≤ 31) (hq₁ : 8388608 ≤ q) (hq₂ : q ≤ 16777216) :
    let x := BitVec.ofNat 32 ((k + 126) * 8388608 + q)
    f32Exp x ≠ 255 ∧ f32Mag x = q * 2 ^ (k + 126) := by
  obtain ⟨-, hexp, hfrac⟩ := fields_pack hk hq₁ hq₂
  refine ⟨by omega, ?_⟩
  rw [f32Mag, if_neg (by omega), hexp, hfrac]
  by_cases hq : q < 16777216
  · rw [show k + 126 + q / 8388608 - 1 = k + 126 by omega, show q % 8388608 + 8388608 = q by omega]
  · rw [show k + 126 + q / 8388608 - 1 = k + 126 + 1 by omega, Nat.pow_succ,
      show q = 16777216 by omega]
    omega

end Pack

/-- Every result of `float32(u)` is `+0` or a positive, finite whole number. -/
theorem whole_float32OfUint32 (u : BitVec 32) : IsWholeNonneg (float32OfUint32 u) := by
  unfold float32OfUint32
  split <;> rename_i h0
  · exact ⟨rfl, by decide, by simp [f32Mag, f32Frac, f32Exp]⟩
  · have hk := log2_le_of_lt u.isLt h0
    obtain ⟨hq₁, hq₂⟩ := significand_bounds h0
    obtain ⟨hsign, -, -⟩ := fields_pack hk hq₁ hq₂
    obtain ⟨hexp, hmag⟩ := mag_pack hk hq₁ hq₂
    refine ⟨hsign, hexp, ?_⟩
    rw [hmag]
    exact dvd_significand_mul _

end HoloCompute.Go
