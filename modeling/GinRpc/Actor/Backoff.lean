import GinRpc.Actor.System
import GinRpc.Data.Duration

/-!
# The delay before a restart

What `backoffFor` in `plugins/actor/supervision.go` returns, compared with the sequence that its
documentation names: the initial delay, doubled with every attempt, up to the maximum.

The loop compares with the maximum after a doubling, which is one of 64-bit numbers.

* `Supervision.backoffFor_iff` : the delays are those of the documentation if and only if the
  initial delay is at most the maximum, and some doubling reaches the maximum without an overflow.
* `Supervision.backoff_astray` : neither is so in general.
-/

namespace GinRpc

namespace Actor

namespace Supervision

/-- The initial delay, and its default -/
def initialDelay (sv : Supervision) : Int64 :=
  if sv.backoffInitial ≤ 0 then 100000000 else sv.backoffInitial

/-- The longest delay, and its default -/
def maxDelay (sv : Supervision) : Int64 :=
  if sv.backoffMax ≤ 0 then 5000000000 else sv.backoffMax

/-- The documented delay: `initial * 2^(n-1)`, at most `max` -/
def documentedDelay (sv : Supervision) (attempt : ℕ) : ℤ :=
  min (sv.initialDelay.toInt * 2 ^ (attempt - 1)) sv.maxDelay.toInt

/-- A doubling reaches `max` within 64 bits. -/
def Reaches (d max : ℤ) : Prop := ∃ k : ℕ, max ≤ d * 2 ^ (k + 1) ∧ d * 2 ^ (k + 1) < 2 ^ 63

variable {d max : Int64}

theorem toInt_pos_of_default {x y : Int64} (hy : 0 < y.toInt) :
    0 < (if x ≤ 0 then y else x).toInt := by
  split_ifs with h
  · exact hy
  · rw [Int64.le_iff_toInt_le, Int64.toInt_zero] at h
    omega

theorem initialDelay_pos (sv : Supervision) : 0 < sv.initialDelay.toInt :=
  toInt_pos_of_default (by decide)

theorem maxDelay_pos (sv : Supervision) : 0 < sv.maxDelay.toInt :=
  toInt_pos_of_default (by decide)

theorem toInt_double (d : Int64) : (d * 2).toInt = Duration.wrap (d.toInt * 2) :=
  Int64.toInt_mul d 2

theorem toInt_double_of_lt (hd : 0 < d.toInt) (h : d.toInt * 2 < 2 ^ 63) :
    (d * 2).toInt = d.toInt * 2 := by
  rw [toInt_double]
  exact Duration.wrap_of_lt (by omega) h

theorem toInt_double_neg (h : 2 ^ 63 ≤ d.toInt * 2) : (d * 2).toInt < 0 := by
  have hlt := d.toInt_lt
  obtain ⟨q, hq, hge, hlt'⟩ := Duration.wrap_spec (d.toInt * 2)
  rw [toInt_double]
  omega

/-- With a doubling that reaches the maximum, the loop computes the power, capped. -/
theorem backoffLoop_of_reaches (hd : 0 < d.toInt) (hle : d.toInt ≤ max.toInt)
    (h : Reaches d.toInt max.toInt) (n : ℕ) :
    (backoffLoop max n d).toInt = min (d.toInt * 2 ^ n) max.toInt := by
  induction n generalizing d with
  | zero => rw [backoffLoop, pow_zero, mul_one, min_eq_left hle]
  | succ n ih =>
    rcases h with ⟨k, hmax, hlt⟩
    rw [pow_succ', ← mul_assoc] at hmax hlt ⊢
    have hk : (1 : ℤ) ≤ 2 ^ k := one_le_pow₀ (by norm_num)
    have hdouble := toInt_double_of_lt hd (by nlinarith)
    unfold backoffLoop
    split_ifs with hreached
    · rw [ge_iff_le, Int64.le_iff_toInt_le, hdouble] at hreached
      have hn : (1 : ℤ) ≤ 2 ^ n := one_le_pow₀ (by norm_num)
      rw [min_eq_right (by nlinarith)]
    · rw [ge_iff_le, Int64.le_iff_toInt_le, hdouble] at hreached
      rw [← hdouble] at hmax hlt ⊢
      refine ih (by omega) (by omega) ?_
      -- the maximum is not reached yet, so that one doubling is left
      cases k with
      | zero =>
        rw [pow_zero, mul_one] at hmax
        omega
      | succ k => exact ⟨k, hmax, hlt⟩

theorem backoffLoop_neg (hmax : 0 < max.toInt) (h : 2 ^ 63 ≤ d.toInt * 2) :
    (backoffLoop max 1 d).toInt < 0 := by
  have hneg := toInt_double_neg h
  have hbelow : ¬ d * 2 ≥ max := by
    rw [ge_iff_le, Int64.le_iff_toInt_le]
    omega
  rwa [backoffLoop, if_neg hbelow]

/-- Without one, some doubling overflows before the maximum is reached. -/
theorem exists_backoffLoop_neg (hd : 0 < d.toInt) (hmax : 0 < max.toInt)
    (h : ¬ Reaches d.toInt max.toInt) : ∃ n, (backoffLoop max n d).toInt < 0 := by
  have hover : ∃ k : ℕ, 2 ^ 63 ≤ d.toInt * 2 ^ (k + 1) := ⟨62, by omega⟩
  rcases hover with ⟨k, hk⟩
  -- by induction on the number of the doubling that overflows
  induction k generalizing d with
  | zero => exact ⟨1, backoffLoop_neg hmax (by simpa using hk)⟩
  | succ k ih =>
    by_cases hlt : d.toInt * 2 < 2 ^ 63
    · have hdouble := toInt_double_of_lt hd hlt
      rw [pow_succ' (2 : ℤ) (k + 1), ← mul_assoc, ← hdouble] at hk
      have hnot : ¬ Reaches (d * 2).toInt max.toInt := by
        rintro ⟨j, hj⟩
        rw [hdouble, mul_assoc, ← pow_succ'] at hj
        exact h ⟨j + 1, hj⟩
      have hbelow : ¬ d * 2 ≥ max := by
        rw [ge_iff_le, Int64.le_iff_toInt_le, hdouble]
        intro hreached
        exact h ⟨0, by simpa using hreached, by simpa using hlt⟩
      obtain ⟨n, hn⟩ := ih (by omega) hnot hk
      exact ⟨n + 1, by rwa [backoffLoop, if_neg hbelow]⟩
    · exact ⟨1, backoffLoop_neg hmax (not_lt.1 hlt)⟩

theorem documentedDelay_pos (sv : Supervision) (attempt : ℕ) : 0 < sv.documentedDelay attempt :=
  lt_min (mul_pos sv.initialDelay_pos (by positivity)) sv.maxDelay_pos

theorem documentedDelay_mono (sv : Supervision) : Monotone sv.documentedDelay := by
  intro n m h
  have hpos := sv.initialDelay_pos
  unfold documentedDelay
  gcongr
  norm_num

/-- **When the delays are the documented ones**: for every attempt if and only if the initial delay
is at most the maximum, and some doubling reaches the maximum without an overflow.  The documented
delays are positive and do not decrease. -/
theorem backoffFor_iff (sv : Supervision) :
    ((∀ attempt ≥ 1, (sv.backoffFor attempt).toInt = sv.documentedDelay attempt) ↔
      sv.initialDelay ≤ sv.maxDelay ∧ Reaches sv.initialDelay.toInt sv.maxDelay.toInt) ∧
    (∀ attempt, 0 < sv.documentedDelay attempt) ∧ Monotone sv.documentedDelay := by
  have hpos := sv.initialDelay_pos
  have hloop : ∀ n, sv.backoffFor (n + 1) = backoffLoop sv.maxDelay n sv.initialDelay :=
    fun _ => rfl
  refine ⟨⟨fun h => ⟨?_, ?_⟩, ?_⟩, sv.documentedDelay_pos, sv.documentedDelay_mono⟩
  · have hfirst := h 1 le_rfl
    rw [hloop 0, backoffLoop, documentedDelay, Nat.sub_self, pow_zero, mul_one] at hfirst
    rw [Int64.le_iff_toInt_le, hfirst]
    exact min_le_right _ _
  · by_contra hnot
    obtain ⟨n, hn⟩ := exists_backoffLoop_neg hpos sv.maxDelay_pos hnot
    have hdoc := h (n + 1) (Nat.le_add_left 1 n)
    rw [hloop n] at hdoc
    have := sv.documentedDelay_pos (n + 1)
    omega
  · rintro ⟨hle, hreaches⟩ attempt hattempt
    obtain ⟨n, rfl⟩ := Nat.exists_eq_add_of_le' hattempt
    rw [Int64.le_iff_toInt_le] at hle
    rw [hloop n, backoffLoop_of_reaches hpos hle hreaches, documentedDelay, Nat.add_sub_cancel]

/-- A supervision with the given delays -/
def withDelays (initial max : Int64) : Supervision where
  strategy := .backoff
  maxConsecutiveRestarts := 0
  backoffInitial := initial
  backoffMax := max
  onPanic := false
  onGiveUp := false

/-- **Delays that are not documented**: the first one is longer than the maximum, and one whose
doubling overflows is negative. -/
theorem backoff_astray :
    (withDelays 2 1).backoffFor 1 = 2 ∧ (withDelays 2 1).documentedDelay 1 = 1 ∧
    ((withDelays (2 ^ 62) (2 ^ 63 - 1)).backoffFor 2).toInt = -2 ^ 63 ∧
    (withDelays (2 ^ 62) (2 ^ 63 - 1)).documentedDelay 2 = 2 ^ 63 - 1 := by
  decide +kernel

end Supervision

end Actor

end GinRpc
