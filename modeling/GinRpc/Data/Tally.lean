import Mathlib.Data.Int.CardIntervalMod

/-!
# How often a number is taken

Two ways to distribute draws over the positions of a list.

* A counter that wraps around at `size` is divided by the number of positions.  `count_cycle` counts
  the draws of a position, `count_cycle_le` compares two positions: they differ by one for each
  round of the counter that has been begun.
* `pick ws r` is the position at which the sum of the weights `ws` exceeds `r`.  `count_pick` : a
  position is picked for as many draws as its weight.
-/

namespace GinRpc

namespace Tally

variable {n r s size : ℕ}

theorem count_congr {p q : ℕ → Prop} [DecidablePred p] [DecidablePred q] {b : ℕ}
    (h : ∀ k < b, p k ↔ q k) : Nat.count p b = Nat.count q b := by
  rw [Nat.count_eq_card_filter_range, Nat.count_eq_card_filter_range]
  exact congrArg Finset.card (Finset.filter_congr fun k hk => h k (Finset.mem_range.1 hk))

/-! ### Remainders of a counter -/

theorem count_mod (hr : r < n) (b : ℕ) :
    Nat.count (fun k => k % n = r) b = b / n + if r < b % n then 1 else 0 := by
  have hcard := Nat.count_modEq_card b (show 0 < n by omega) r
  rw [Nat.mod_eq_of_lt hr] at hcard
  rw [← hcard]
  refine count_congr fun k _ => ?_
  rw [Nat.ModEq, Nat.mod_eq_of_lt hr]

/-- A counter that has gone around `q` times. -/
theorem count_wrapped (q : ℕ) {y : ℕ} (hy : y ≤ size) :
    Nat.count (fun k => k % size % n = r) (q * size + y) =
      q * Nat.count (fun k => k % n = r) size + Nat.count (fun k => k % n = r) y := by
  have hround : ∀ y ≤ size,
      Nat.count (fun k => k % size % n = r) y = Nat.count (fun k => k % n = r) y := by
    intro y hy
    refine count_congr fun k hk => ?_
    rw [Nat.mod_eq_of_lt (show k < size by omega)]
  induction q with
  | zero => rw [Nat.zero_mul, Nat.zero_add, Nat.zero_mul, Nat.zero_add, hround y hy]
  | succ q ih =>
    have hshift : Nat.count (fun k => (size + k) % size % n = r) (q * size + y) =
        Nat.count (fun k => k % size % n = r) (q * size + y) :=
      count_congr fun k _ => by rw [Nat.add_mod_left]
    rw [show (q + 1) * size + y = size + (q * size + y) by ring, Nat.count_add, hshift, ih,
      hround size le_rfl]
    ring

variable {a m w b : ℕ}

/-- The draws of a counter from `a` on, which ends in the round `w`. -/
theorem count_cycle (ha : a ≤ size) (hend : a + m = w * size + b) (hb : b ≤ size) :
    Nat.count (fun k => (a + k) % size % n = r) m + Nat.count (fun k => k % n = r) a =
      w * Nat.count (fun k => k % n = r) size + Nat.count (fun k => k % n = r) b := by
  have hstart := count_wrapped (n := n) (r := r) 0 ha
  rw [Nat.zero_mul, Nat.zero_add, Nat.zero_mul, Nat.zero_add] at hstart
  rw [← count_wrapped w hb, ← hend, Nat.count_add, hstart, Nat.add_comm]

theorem count_cycle_le (ha : a ≤ size) (hend : a + m = w * size + b) (hb : b ≤ size) (hr : r < n)
    (hs : s < n) :
    Nat.count (fun k => (a + k) % size % n = r) m ≤
      Nat.count (fun k => (a + k) % size % n = s) m + (w + 1) := by
  have hcr := count_cycle (n := n) (r := r) ha hend hb
  have hcs := count_cycle (n := n) (r := s) ha hend hb
  simp only [count_mod hr, count_mod hs, Nat.mul_add] at hcr hcs
  -- a smaller remainder is never behind, and ahead by at most one
  split_ifs at hcr hcs <;> simp only [Nat.mul_one, Nat.mul_zero] at hcr hcs <;> omega

/-- Without a wrap all positions are drawn equally often. -/
theorem count_cycle_eq {k : ℕ} (hend : a + k * n ≤ size) (hr : r < n) :
    Nat.count (fun i => (a + i) % size % n = r) (k * n) = k := by
  have hcr := count_cycle (n := n) (r := r) (show a ≤ size by omega)
    (show a + k * n = 0 * size + (a + k * n) by omega) hend
  simp only [count_mod hr] at hcr
  rw [Nat.add_mul_mod_self_right, Nat.add_mul_div_right _ _ (by omega)] at hcr
  omega

/-! ### Shares of a total weight -/

/-- The position at which the sum of the weights exceeds `r`. -/
def pick : List ℕ → ℕ → ℕ
  | [], _ => 0
  | w :: ws, r => if r < w then 0 else pick ws (r - w) + 1

theorem pick_lt {ws : List ℕ} {r : ℕ} (h : r < ws.sum) : pick ws r < ws.length := by
  induction ws generalizing r with
  | nil => cases h
  | cons w ws ih =>
    rw [pick]
    split_ifs with hr
    · exact Nat.succ_pos _
    · rw [List.sum_cons] at h
      exact Nat.succ_lt_succ (ih (by omega))

theorem count_pick (ws : List ℕ) (i : ℕ) :
    Nat.count (fun r => pick ws r = i) ws.sum = ws.getD i 0 := by
  induction ws generalizing i with
  | nil => rfl
  | cons w ws ih =>
    have hfirst : Nat.count (fun r => pick (w :: ws) r = i) w = Nat.count (fun _ => 0 = i) w :=
      count_congr fun r hr => by rw [pick, if_pos hr]
    have hrest : Nat.count (fun r => pick (w :: ws) (w + r) = i) ws.sum =
        Nat.count (fun r => pick ws r + 1 = i) ws.sum :=
      count_congr fun r _ => by rw [pick, if_neg (by omega), Nat.add_sub_cancel_left]
    rw [List.sum_cons, Nat.count_add, hfirst, hrest]
    cases i with
    | zero => simp
    | succ i => simpa using ih i

end Tally

end GinRpc
