import GinRpc.Data.Duration
import GinRpc.LTS.Machine

/-!
# The sliding window rate limiter

Model of `SlidingWindowRateLimiter` in `plugins/ratelimit/ratelimiter/ratelimiter.go`.  The limiter
keeps the times of the admitted units and forgets, at each call, those that have left the window.

* `sliding_window_exact` : no window ever holds more units than the limit, a call is rejected only
  if its units would be too many for the window that ends with it, and an admitted `AllowN` does
  the same as that many calls of `Allow`.
-/

namespace GinRpc

namespace RateLimit

structure SlidingWindow where
  tokens : List ℤ
  limit : ℤ
  window : ℤ
  deriving DecidableEq

/-- `NewSlidingWindowRateLimiter`, for a rate that has been truncated to an integer. -/
def newSlidingWindow (rate window : ℤ) : SlidingWindow where
  tokens := []
  limit := if rate < 0 then 0 else rate
  window := window

/-- `Allow` or `AllowN`, and when it is called. -/
inductive Request where
  | allow (now : ℤ)
  | allowN (now n : ℤ)
  deriving DecidableEq

namespace Request

def now : Request → ℤ
  | .allow now | .allowN now _ => now

/-- How many units are asked for. -/
def units : Request → ℤ
  | .allow _ => 1
  | .allowN _ n => n

end Request

namespace SlidingWindow

variable (r : SlidingWindow)

/-- Remove the tokens that have left the window. -/
def cleanup (now : ℤ) : SlidingWindow :=
  { r with tokens := r.tokens.filter fun token => decide (now - r.window < token) }

def allow (now : ℤ) : SlidingWindow × Bool :=
  let r := r.cleanup now
  if r.limit ≤ r.tokens.length then (r, false) else ({ r with tokens := r.tokens ++ [now] }, true)

/-- `for i := 0; i < n; i++ { r.tokens = append(r.tokens, now) }` -/
def appendN (now : ℤ) : ℕ → SlidingWindow → SlidingWindow
  | 0, r => r
  | n + 1, r => appendN now n { r with tokens := r.tokens ++ [now] }

def allowN (now n : ℤ) : SlidingWindow × Bool :=
  -- nothing is cleaned up for a count that is not positive
  if n ≤ 0 then (r, n == 0)
  else
    let r := r.cleanup now
    if r.limit < Duration.wrap (r.tokens.length + n) then (r, false)
    else (appendN now n.toNat r, true)

def machine : Machine SlidingWindow Request Bool where
  step r
    | .allow now => r.allow now
    | .allowN now n => r.allowN now n

end SlidingWindow

/-! ### What is asked of a limiter -/

/-- The times of the admitted units. -/
def admitted (log : List (Request × Bool)) : List ℤ :=
  log.flatMap fun p => if p.2 then List.replicate p.1.units.toNat p.1.now else []

/-- How many of the units lie in the window that ends at `t`. -/
def unitsIn (window t : ℤ) (units : List ℤ) : ℕ :=
  units.countP fun u => decide (t - window < u ∧ u ≤ t)

/-- The count of a call plus the units that it asks for is an `int`. -/
def NoOverflow (r : SlidingWindow) (calls : List Request) : Prop :=
  ∀ past c, past ++ [c] <+: calls →
    (((SlidingWindow.machine.after r past).cleanup c.now).tokens.length : ℤ) + c.units < 2 ^ 63

/-! ### Repeated calls -/

namespace SlidingWindow

variable {r : SlidingWindow} {now n : ℤ}

theorem appendN_tokens (k : ℕ) (r : SlidingWindow) :
    appendN now k r = { r with tokens := r.tokens ++ List.replicate k now } := by
  induction k generalizing r with
  | zero => simp [appendN]
  | succ k ih => simp [appendN, ih, List.replicate_succ]

/-- A later cleanup removes what an earlier one does. -/
theorem cleanup_cleanup {t : ℤ} (h : t ≤ now) : (r.cleanup t).cleanup now = r.cleanup now := by
  simp only [cleanup, List.filter_filter]
  congr 1
  refine List.filter_congr fun u _ => ?_
  by_cases hu : now - r.window < u
  · have hu' : t - r.window < u := by omega
    simp [hu, hu']
  · simp [hu]

theorem cleanup_append (hw : 0 < r.window) (h : r.cleanup now = r) :
    ({ r with tokens := r.tokens ++ [now] } : SlidingWindow).cleanup now =
      { r with tokens := r.tokens ++ [now] } := by
  have htokens : r.tokens.filter (fun token => decide (now - r.window < token)) = r.tokens :=
    congrArg tokens h
  have hnow : now - r.window < now := by omega
  simp [cleanup, List.filter_append, htokens, hnow]

/-- `k` calls of `Allow` at the same time, when there is room for them. -/
theorem iterate_allow (hw : 0 < r.window) (hclean : r.cleanup now = r) (k : ℕ)
    (hroom : r.tokens.length + k ≤ r.limit) :
    (fun r => (allow r now).1)^[k] r = appendN now k r := by
  induction k generalizing r with
  | zero => rfl
  | succ k ih =>
    have hallow : (r.allow now).1 = { r with tokens := r.tokens ++ [now] } := by
      unfold allow
      simp only [hclean]
      rw [if_neg (by push_cast at hroom; omega)]
    rw [Function.iterate_succ_apply, hallow, appendN]
    refine ih (r := { r with tokens := r.tokens ++ [now] }) hw (cleanup_append hw hclean) ?_
    simp only [List.length_append, List.length_singleton]
    push_cast at hroom ⊢
    omega

/-- The first of several calls cleans up for all of them. -/
theorem iterate_allow_cleanup (k : ℕ) (hk : 0 < k) :
    (fun r => (allow r now).1)^[k] r = (fun r => (allow r now).1)^[k] (r.cleanup now) := by
  obtain ⟨k, rfl⟩ := Nat.exists_eq_succ_of_ne_zero hk.ne'
  rw [Function.iterate_succ_apply, Function.iterate_succ_apply]
  simp only [allow, cleanup_cleanup (Int.le_refl _)]

/-- An admitted `AllowN` does the same as `n` calls of `Allow` at the same time. -/
theorem allowN_eq_iterate (hw : 0 < r.window)
    (hfit : ((r.cleanup now).tokens.length : ℤ) + n < 2 ^ 63) (h : (r.allowN now n).2 = true) :
    (r.allowN now n).1 = (fun r => (allow r now).1)^[n.toNat] r := by
  unfold allowN at h ⊢
  by_cases hn : n ≤ 0
  · rw [if_pos hn] at h ⊢
    have hzero : n = 0 := by simpa using h
    rw [hzero]
    rfl
  · rw [if_neg hn] at h ⊢
    have hwrap : Duration.wrap ((r.cleanup now).tokens.length + n) =
        (r.cleanup now).tokens.length + n := Duration.wrap_of_lt (by omega) hfit
    simp only [hwrap] at h ⊢
    split_ifs at h ⊢ with hfull
    rw [iterate_allow_cleanup _ (by omega), iterate_allow (r := r.cleanup now) hw
      (cleanup_cleanup (Int.le_refl _))]
    have hlim : (r.cleanup now).limit = r.limit := rfl
    omega

/-! ### The tokens against the history -/

/-- `Allow` and `AllowN` in one: nothing happens if nothing is asked for, and otherwise the units
are added if they fit into the window. -/
theorem step_eq {c : Request}
    (hfit : ((r.cleanup c.now).tokens.length : ℤ) + c.units < 2 ^ 63) :
    machine.step r c =
      if c.units ≤ 0 then (r, c.units == 0)
      else if r.limit < (r.cleanup c.now).tokens.length + c.units then (r.cleanup c.now, false)
      else ({ r.cleanup c.now with
        tokens := (r.cleanup c.now).tokens ++ List.replicate c.units.toNat c.now }, true) := by
  cases c with
  | allow now =>
    have hlim : (r.cleanup now).limit = r.limit := rfl
    simp only [machine, allow, Request.units, Request.now, hlim]
    by_cases hfull : r.limit ≤ (r.cleanup now).tokens.length
    · rw [if_pos hfull, if_neg (by decide), if_pos (by omega)]
    · rw [if_neg hfull, if_neg (by decide), if_neg (by omega)]
      rfl
  | allowN now n =>
    change ((r.cleanup now).tokens.length : ℤ) + n < 2 ^ 63 at hfit
    change r.allowN now n =
      if n ≤ 0 then (r, n == 0)
      else if r.limit < (r.cleanup now).tokens.length + n then (r.cleanup now, false)
      else ({ r.cleanup now with
        tokens := (r.cleanup now).tokens ++ List.replicate n.toNat now }, true)
    unfold allowN
    by_cases hn : n ≤ 0
    · rw [if_pos hn, if_pos hn]
    · have hlim : (r.cleanup now).limit = r.limit := rfl
      rw [if_neg hn, if_neg hn]
      simp only [Duration.wrap_of_lt (by omega) hfit, appendN_tokens, hlim]

/-- The limiter after some calls: it has kept, for every window that ends now or later, the units
that have been admitted in it. -/
structure Tracks (r₀ : SlidingWindow) (log : List (Request × Bool)) (r : SlidingWindow) :
    Prop where
  window : r.window = r₀.window
  limit : r.limit = r₀.limit
  tokens : ∀ now, (∀ p ∈ log, p.1.now ≤ now) →
    (r.cleanup now).tokens = (admitted log).filter fun u => decide (now - r₀.window < u)
  bound : ∀ t, (unitsIn r₀.window t (admitted log) : ℤ) ≤ r₀.limit

end SlidingWindow

theorem exists_of_mem_admitted {log : List (Request × Bool)} {u : ℤ} (h : u ∈ admitted log) :
    ∃ p ∈ log, p.1.now = u := by
  obtain ⟨p, hp, hu⟩ := List.mem_flatMap.1 h
  split_ifs at hu
  · exact ⟨p, hp, (List.eq_of_mem_replicate hu).symm⟩
  · cases hu

/-- The window that ends with the last call holds the units after its beginning. -/
theorem unitsIn_eq_length {log : List (Request × Bool)} {now w : ℤ}
    (h : ∀ p ∈ log, p.1.now ≤ now) :
    unitsIn w now (admitted log) =
      ((admitted log).filter fun u => decide (now - w < u)).length := by
  rw [unitsIn, List.countP_eq_length_filter]
  congr 1
  refine List.filter_congr fun u hu => ?_
  obtain ⟨p, hp, rfl⟩ := exists_of_mem_admitted hu
  simp [h p hp]

theorem admitted_concat (log : List (Request × Bool)) (c : Request) (ok : Bool) :
    admitted (log ++ [(c, ok)]) =
      admitted log ++ if ok then List.replicate c.units.toNat c.now else [] := by
  simp [admitted]

/-- More units at the end of a window that has room for them. -/
theorem unitsIn_append_replicate_le {log : List (Request × Bool)} {now w : ℤ} {k : ℕ} {m : ℕ}
    (hpast : ∀ p ∈ log, p.1.now ≤ now) (hbound : ∀ t, unitsIn w t (admitted log) ≤ m)
    (hroom : unitsIn w now (admitted log) + k ≤ m) (t : ℤ) :
    unitsIn w t (admitted log ++ List.replicate k now) ≤ m := by
  rw [unitsIn, List.countP_append]
  by_cases hin : t - w < now ∧ now ≤ t
  · -- the units of this window are also units of the window that ends now
    have hle : (admitted log).countP (fun u => decide (t - w < u ∧ u ≤ t)) ≤
        unitsIn w now (admitted log) := by
      refine List.countP_mono_left fun u hu hut => ?_
      obtain ⟨p, hp, rfl⟩ := exists_of_mem_admitted hu
      have := hpast p hp
      simp only [decide_eq_true_eq] at hut ⊢
      omega
    have hnew : (List.replicate k now).countP (fun u => decide (t - w < u ∧ u ≤ t)) ≤ k :=
      List.countP_le_length.trans (List.length_replicate ..).le
    omega
  · have hnew : (List.replicate k now).countP (fun u => decide (t - w < u ∧ u ≤ t)) = 0 := by
      rw [List.countP_eq_zero]
      intro u hu
      rw [List.eq_of_mem_replicate hu]
      simpa using hin
    rw [hnew]
    exact hbound t

namespace SlidingWindow

variable {r₀ r : SlidingWindow} {log : List (Request × Bool)} {c : Request}

/-- Before a call, the tokens are the units of the window that ends with it. -/
theorem Tracks.length_eq (h : Tracks r₀ log r) (hpast : ∀ p ∈ log, p.1.now ≤ c.now) :
    (r.cleanup c.now).tokens.length = unitsIn r₀.window c.now (admitted log) := by
  rw [h.tokens c.now hpast, unitsIn_eq_length hpast]

theorem Tracks.step (h : Tracks r₀ log r) (hpast : ∀ p ∈ log, p.1.now ≤ c.now)
    (hfit : ((r.cleanup c.now).tokens.length : ℤ) + c.units < 2 ^ 63) :
    Tracks r₀ (log ++ [(c, (machine.step r c).2)]) (machine.step r c).1 := by
  have hbefore : ∀ now, (∀ p ∈ log ++ [(c, (machine.step r c).2)], p.1.now ≤ now) →
      (∀ p ∈ log, p.1.now ≤ now) ∧ c.now ≤ now := fun now hnow =>
    ⟨fun p hp => hnow p (List.mem_append_left _ hp), hnow _ (List.mem_append_right _
      (List.mem_singleton_self _))⟩
  rw [step_eq hfit] at hbefore ⊢
  split_ifs at hbefore ⊢ with hunits hfull
  · -- nothing is asked for
    have hnone : admitted (log ++ [(c, c.units == 0)]) = admitted log := by
      rw [admitted_concat, Int.toNat_of_nonpos hunits]
      simp
    refine ⟨h.window, h.limit, fun now hnow => ?_, by rw [hnone]; exact h.bound⟩
    rw [hnone]
    exact h.tokens now (hbefore now hnow).1
  · -- too much is asked for
    have hnone : admitted (log ++ [(c, false)]) = admitted log := by
      rw [admitted_concat]
      simp
    refine ⟨h.window, h.limit, fun now hnow => ?_, by rw [hnone]; exact h.bound⟩
    rw [hnone, cleanup_cleanup (hbefore now hnow).2]
    exact h.tokens now (hbefore now hnow).1
  · have hsome : admitted (log ++ [(c, true)]) =
        admitted log ++ List.replicate c.units.toNat c.now := by
      rw [admitted_concat]
      simp
    refine ⟨h.window, h.limit, fun now hnow => ?_, fun t => ?_⟩
    · obtain ⟨hlog, hle⟩ := hbefore now hnow
      have hold := congrArg SlidingWindow.tokens (cleanup_cleanup (r := r) hle)
      rw [h.tokens now hlog] at hold
      rw [hsome, List.filter_append, ← hold, ← h.window]
      exact List.filter_append ..
    · have hlen := h.length_eq hpast
      have hroom : unitsIn r₀.window c.now (admitted log) + c.units.toNat ≤ r₀.limit.toNat := by
        rw [h.limit] at hfull
        omega
      have hall := unitsIn_append_replicate_le hpast (fun t => ?_) hroom t
      · rw [hsome]
        rw [h.limit] at hfull
        omega
      · have := h.bound t
        omega

/-- At every moment of a sequence of calls, the limiter has kept what was admitted. -/
theorem tracks_log {past calls : List Request} (hlimit : 0 ≤ r₀.limit) (htokens : r₀.tokens = [])
    (hsorted : calls.Pairwise fun c d => c.now ≤ d.now) (hfit : NoOverflow r₀ calls)
    (hpre : past <+: calls) : Tracks r₀ (machine.log r₀ past) (machine.after r₀ past) := by
  induction past using List.reverseRecOn with
  | nil => exact ⟨rfl, rfl, fun now _ => by simp [cleanup, htokens, admitted],
      fun t => by simpa [admitted, unitsIn] using hlimit⟩
  | append_singleton past c ih =>
    rw [Machine.log_concat, Machine.after_concat]
    exact (ih ((List.prefix_append ..).trans hpre)).step (Machine.rel_of_mem_log hsorted hpre)
      (hfit past c hpre)

/-- A rejected call asks for more than its window has room for. -/
theorem Tracks.lt_of_rejected (h : Tracks r₀ log r) (hpast : ∀ p ∈ log, p.1.now ≤ c.now)
    (hfit : ((r.cleanup c.now).tokens.length : ℤ) + c.units < 2 ^ 63) (hunits : 0 < c.units)
    (hno : (machine.step r c).2 = false) :
    r₀.limit < unitsIn r₀.window c.now (admitted log) + c.units := by
  rw [step_eq hfit, if_neg (by omega)] at hno
  split_ifs at hno with hfull
  rw [← h.length_eq hpast, ← h.limit]
  exact hfull

end SlidingWindow

theorem newSlidingWindow_limit_nonneg (rate w : ℤ) : 0 ≤ (newSlidingWindow rate w).limit := by
  unfold newSlidingWindow
  split_ifs with h
  · exact Int.le_refl 0
  · exact Int.not_lt.1 h

open SlidingWindow in
/-- The limiter is exact.  Of the calls, made at times that do not decrease, no window of length
`w` admits more units than the limit, a call for a positive number of units is rejected only if its
window has no room for them, and an admitted `AllowN` leaves the limiter as that many calls of
`Allow` at the same instant would. -/
theorem sliding_window_exact (rate w : ℤ) (calls : List Request) (hw : 0 < w)
    (hsorted : calls.Pairwise fun c d => c.now ≤ d.now)
    (hfit : NoOverflow (newSlidingWindow rate w) calls) :
    (∀ t, (unitsIn w t (admitted (machine.log (newSlidingWindow rate w) calls)) : ℤ) ≤
      (newSlidingWindow rate w).limit) ∧
    (∀ past c, past ++ [c] <+: calls → 0 < c.units →
      (machine.step (machine.after (newSlidingWindow rate w) past) c).2 = false →
      (newSlidingWindow rate w).limit <
        unitsIn w c.now (admitted (machine.log (newSlidingWindow rate w) past)) + c.units) ∧
    (∀ past now n, past ++ [.allowN now n] <+: calls →
      ((machine.after (newSlidingWindow rate w) past).allowN now n).2 = true →
      ((machine.after (newSlidingWindow rate w) past).allowN now n).1 =
        (fun r => (allow r now).1)^[n.toNat] (machine.after (newSlidingWindow rate w) past)) := by
  have htracks {past} (hpre : past <+: calls) :=
    tracks_log (newSlidingWindow_limit_nonneg rate w) rfl hsorted hfit hpre
  refine ⟨(htracks List.prefix_rfl).bound, fun past c hpre hunits hno => ?_,
    fun past now n hpre hyes => ?_⟩
  · have h := htracks ((List.prefix_append ..).trans hpre)
    exact h.lt_of_rejected (Machine.rel_of_mem_log hsorted hpre) (hfit past c hpre) hunits hno
  · have h := htracks ((List.prefix_append ..).trans hpre)
    have hcount := hfit past (.allowN now n) hpre
    change (((machine.after _ past).cleanup now).tokens.length : ℤ) + n < 2 ^ 63 at hcount
    refine allowN_eq_iterate ?_ hcount hyes
    rw [h.window]
    exact hw

open SlidingWindow in
/-- Two units every ten seconds: two at once, one more five seconds later, two more after twelve. -/
theorem sliding_window_exact_two_every_ten :
    machine.log (newSlidingWindow 2 10) [.allowN 0 2, .allow 5, .allowN 12 2] =
      [(.allowN 0 2, true), (.allow 5, false), (.allowN 12 2, true)] ∧
    NoOverflow (newSlidingWindow 2 10) [.allowN 0 2, .allow 5, .allowN 12 2] ∧
    ∀ t, (unitsIn 10 t (admitted (machine.log (newSlidingWindow 2 10)
      [.allowN 0 2, .allow 5, .allowN 12 2])) : ℤ) ≤ 2 := by
  have hfit : NoOverflow (newSlidingWindow 2 10) [.allowN 0 2, .allow 5, .allowN 12 2] := by
    intro past c hpre
    have hmem := (List.mem_inits _ _).2 hpre
    rcases past with _ | ⟨p, _ | ⟨q, _ | ⟨q', past⟩⟩⟩
    all_goals simp_all
    all_goals decide
  exact ⟨by decide, hfit, (sliding_window_exact 2 10 _ (by decide) (by decide) hfit).1⟩

end RateLimit

end GinRpc
