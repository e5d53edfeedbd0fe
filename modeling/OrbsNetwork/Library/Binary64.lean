import Mathlib

/-! Nonnegative binary64 arithmetic on integral values, rounded to nearest with ties to even, and
the ceiling of a rounded quotient. Overflow to infinity and subnormal quotients are left out. -/

namespace Binary64

/-- `n / d` rounded to the nearest natural number, a tie to the even one. -/
def roundHalfEven (n d : Nat) : Nat :=
  if 2 * (n % d) < d then n / d
  else if d < 2 * (n % d) then n / d + 1
  else if n / d % 2 = 0 then n / d else n / d + 1

/-- The binary64 value nearest `n`: `n` itself below `2^53`, otherwise `n` rounded to its 53
leading bits. -/
def ofNat (n : Nat) : Nat :=
  if n < 2 ^ 53 then n else roundHalfEven n (2 ^ (n.log2 - 52)) * 2 ^ (n.log2 - 52)

/-- The product of two integral binary64 values. -/
def mul (x y : Nat) : Nat :=
  ofNat (x * y)

/-- For positive `x` and `y`, the `shift` with `2 ^ (x.log2 - shift) ≤ x / y < 2 ^ (x.log2 - shift + 1)`. -/
def quotientShift (x y : Nat) : Nat :=
  if y * 2 ^ x.log2 ≤ x * 2 ^ y.log2 then y.log2 else y.log2 + 1

/-- The ceiling of the binary64 quotient `x / y` of two integral values: the quotient rounded to 53
significant bits, to nearest with ties to even, then rounded up to an integer. -/
def ceilDiv (x y : Nat) : Nat :=
  let shift := quotientShift x y
  if shift + 52 ≤ x.log2 then
    -- a quotient of at least `2^52` is integral, its last bit worth `2 ^ down`
    let down := x.log2 - shift - 52
    roundHalfEven x (y * 2 ^ down) * 2 ^ down
  else
    let up := shift + 52 - x.log2
    (roundHalfEven (x * 2 ^ up) y + 2 ^ up - 1) / 2 ^ up

section Lemmas

variable {n d x y k : Nat}

theorem div_le_roundHalfEven : n / d ≤ roundHalfEven n d := by
  unfold roundHalfEven
  split_ifs <;> omega

theorem roundHalfEven_le : roundHalfEven n d ≤ n / d + 1 := by
  unfold roundHalfEven
  split_ifs <;> omega

theorem roundHalfEven_of_mod_eq_zero (hd : 0 < d) (exact : n % d = 0) : roundHalfEven n d = n / d := by
  rw [roundHalfEven, if_pos (by omega)]

theorem roundHalfEven_of_half_lt (above : d < 2 * (n % d)) : roundHalfEven n d = n / d + 1 := by
  rw [roundHalfEven, if_neg (by omega), if_pos above]

theorem ofNat_of_lt (small : n < 2 ^ 53) : ofNat n = n :=
  if_pos small

theorem mul_of_lt (small : x * y < 2 ^ 53) : mul x y = x * y :=
  ofNat_of_lt small

/-- Scaled by `P` with `y < 2 * P`, a quotient `q` with a remainder `0 < r < y` rounds into
`(q * P, q * P + P]`: the scaled remainder stays above half of `y` or leaves a positive quotient. -/
theorem roundHalfEven_mul_mem {P q r : Nat} (hy : 0 < y) (yLt : y < 2 * P) (positive : 0 < r) (rLt : r < y) :
    q * P < roundHalfEven ((y * q + r) * P) y ∧ roundHalfEven ((y * q + r) * P) y ≤ q * P + P := by
  have scaled : (y * q + r) * P = y * (q * P) + r * P := by ring
  have quotient : (y * q + r) * P / y = q * P + r * P / y := by rw [scaled, Nat.mul_add_div hy]
  have below : r * P / y < P := Nat.div_lt_of_lt_mul (Nat.mul_lt_mul_of_pos_right rLt (by omega))
  constructor
  · rcases Nat.eq_zero_or_pos (r * P / y) with small | large
    · have half : y < 2 * ((y * q + r) * P % y) := by
        rw [scaled, Nat.mul_add_mod, Nat.mod_eq_of_lt (Nat.lt_of_div_eq_zero hy small)]
        have := Nat.mul_le_mul_right P positive
        omega
      rw [roundHalfEven_of_half_lt half, quotient]
      omega
    · exact lt_of_lt_of_le (by omega) (quotient ▸ div_le_roundHalfEven)
  · have := quotient ▸ (roundHalfEven_le (n := (y * q + r) * P) (d := y))
    omega

/-- A remainder that is no multiple of `y` stays above the integer below once shifted by `k`
bits, when `y < 2 ^ (k + 1)`: rounding `x * 2 ^ k / y` keeps the ceiling of `x / y`. -/
theorem ceil_roundHalfEven_mul_pow (hy : 0 < y) (one : 1 ≤ k) (yLt : y < 2 ^ (k + 1)) :
    (roundHalfEven (x * 2 ^ k) y + 2 ^ k - 1) / 2 ^ k = (x + y - 1) / y := by
  have twoLe : 2 ≤ 2 ^ k := Nat.pow_le_pow_right (n := 2) (by norm_num) one
  set P := 2 ^ k with hP
  have yLt' : y < 2 * P := by rw [hP, ← Nat.pow_succ']; exact yLt
  obtain ⟨q, r, rLt, rfl⟩ : ∃ q r, r < y ∧ x = y * q + r := ⟨x / y, x % y, Nat.mod_lt x hy, (Nat.div_add_mod x y).symm⟩
  have ceiling : (y * q + r + y - 1) / y = q + (r + y - 1) / y := by
    rw [show y * q + r + y - 1 = y * q + (r + y - 1) by omega, Nat.mul_add_div hy]
  rw [ceiling]
  rcases Nat.eq_zero_or_pos r with rfl | positive
  · -- a multiple of `y` is its own ceiling, and the shifted quotient is exact
    have rounded : roundHalfEven ((y * q + 0) * P) y = q * P := by
      rw [roundHalfEven_of_mod_eq_zero hy (by simp [Nat.mul_assoc]), Nat.add_zero, Nat.mul_assoc, Nat.mul_div_cancel_left _ hy]
    rw [rounded, show q * P + P - 1 = P * q + (P - 1) by rw [Nat.mul_comm]; omega, Nat.mul_add_div (by omega),
      Nat.div_eq_of_lt (by omega), show (0 + y - 1) / y = 0 from Nat.div_eq_of_lt (by omega)]
  · -- otherwise the rounded quotient lies in `(q * P, (q + 1) * P]`, whose ceiling is `q + 1`
    obtain ⟨above, within⟩ := roundHalfEven_mul_mem (q := q) hy yLt' positive rLt
    have next : (q + 1) * P = q * P + P := by ring
    have afterNext : (q + 1 + 1) * P = q * P + P + P := by ring
    have one : (r + y - 1) / y = 1 := Nat.div_eq_of_lt_le (by omega) (by omega)
    rw [one]
    exact Nat.div_eq_of_lt_le (by omega) (by omega)

/-- Below `2^53` a rounded quotient never reaches the integer below the exact one, so its ceiling
is the exact ceiling. -/
theorem ceilDiv_of_lt (hy : 0 < y) (small : x < 2 ^ 53) : ceilDiv x y = (x + y - 1) / y := by
  have logLe : x.log2 ≤ 52 := by
    rcases Nat.eq_zero_or_pos x with rfl | positive
    · simp
    · exact Nat.lt_succ_iff.mp ((Nat.log2_lt positive.ne').mpr small)
  have shiftGe : y.log2 ≤ quotientShift x y := by
    unfold quotientShift
    split_ifs <;> omega
  have yLt : y < 2 ^ (quotientShift x y + 1) :=
    Nat.lt_log2_self.trans_le (Nat.pow_le_pow_right (by norm_num) (by omega))
  unfold ceilDiv
  dsimp only
  split_ifs with large
  · -- only `y = 1` has a quotient of `2^52` or more below `2^53`
    have shiftZero : quotientShift x y = 0 := by omega
    have yOne : y = 1 := by
      rw [shiftZero] at yLt
      omega
    subst yOne
    rw [shiftZero, show x.log2 - 0 - 52 = 0 by omega]
    simp [roundHalfEven, Nat.mod_one]
  · exact ceil_roundHalfEven_mul_pow hy (by omega) (yLt.trans_le (Nat.pow_le_pow_right (by norm_num) (by omega)))

/-- From `2^53` on the rounding can lose a unit: `2^53 + 9` is rounded to the even `2^53 + 8`,
a multiple of 100, whose quotient is then exact. -/
example : ceilDiv (ofNat (2 ^ 53 + 9)) 100 + 1 = (2 ^ 53 + 9 + 100 - 1) / 100 := by
  decide

end Lemmas

end Binary64
