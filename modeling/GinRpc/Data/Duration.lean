import Mathlib.Algebra.Ring.Int.Defs
import Mathlib.Algebra.GroupWithZero.Nat
import Mathlib.Data.Int.Basic

/-!
# Durations

A point of time is a number of nanoseconds, a duration a 64-bit number of them.  The difference of
two points of time is saturated (`Time.Sub`), the product of a number and a duration wraps around.
-/

namespace GinRpc

namespace Duration

def millisecond : ℤ := 10 ^ 6

def second : ℤ := 10 ^ 9

def minute : ℤ := 60 * second

/-- The longest duration. -/
def longest : ℤ := 2 ^ 63 - 1

/-- `t.Sub(u)` -/
def sub (t u : ℤ) : ℤ := max (-2 ^ 63) (min (t - u) longest)

/-- The 64-bit number that a product is stored as. -/
def wrap (n : ℤ) : ℤ := n.bmod (2 ^ 64)

theorem sub_mono {t t' : ℤ} (u : ℤ) (h : t ≤ t') : sub t u ≤ sub t' u := by
  unfold sub
  omega

theorem lt_of_lt_sub {d t u : ℤ} (hd : -2 ^ 63 ≤ d) (h : d < sub t u) : d < t - u := by
  unfold sub at h
  omega

/-- Only the longest duration hides that more time has passed. -/
theorem sub_le_of_sub_le {d t u : ℤ} (hd : d < longest) (h : sub t u ≤ d) : t - u ≤ d := by
  unfold sub longest at *
  omega

theorem wrap_spec (n : ℤ) : ∃ q, n = wrap n + 2 ^ 64 * q ∧ -2 ^ 63 ≤ wrap n ∧ wrap n < 2 ^ 63 := by
  have hle := Int.le_bmod (x := n) (m := 2 ^ 64) (by decide)
  have hlt := Int.bmod_lt (x := n) (m := 2 ^ 64) (by decide)
  obtain ⟨q, hq⟩ := Int.dvd_bmod_sub_self (x := n) (m := 2 ^ 64)
  refine ⟨-q, ?_, ?_, ?_⟩ <;> unfold wrap <;> omega

theorem wrap_le {n : ℤ} (h : -2 ^ 63 ≤ n) : wrap n ≤ n := by
  obtain ⟨q, hn, -, hlt⟩ := wrap_spec n
  omega

theorem wrap_of_lt {n : ℤ} (h : -2 ^ 63 ≤ n) (h' : n < 2 ^ 63) : wrap n = n :=
  Int.bmod_eq_of_le (by omega) (by omega)

theorem wrap_wrap_add (n m : ℤ) : wrap (wrap n + m) = wrap (n + m) := Int.bmod_add_bmod

/-- A sum that is added up in 64 bits wraps around once. -/
theorem foldl_wrap {α : Type*} (f : α → ℤ) (l : List α) (n : ℤ) :
    l.foldl (fun total a => wrap (total + f a)) (wrap n) = wrap (n + (l.map f).sum) := by
  induction l generalizing n with
  | nil => exact congrArg _ (Int.add_zero n).symm
  | cons a l ih =>
    rw [List.foldl_cons, wrap_wrap_add, ih, List.map_cons, List.sum_cons, Int.add_assoc]

end Duration

end GinRpc
