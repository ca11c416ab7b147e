import GinRpc.RateLimit.SlidingWindow
import Mathlib.Algebra.Order.Group.Int

/-!
# The fixed window rate limiter, and reservations

Model of `FixedWindowRateLimiter` in `plugins/ratelimit/ratelimiter/ratelimiter.go`, and of
`ReserveN` of this limiter and of the one with a sliding window.

`AllowN` adds a number of the caller to the count in 64 bits.  `ReserveN` makes a call of `AllowN`
and, if that is refused, computes a delay under the lock that it has released in between.

* `fixed_window_iff` : the count stays between zero and the limit if and only if no addition
  overflows, and then no window admits more than the limit.
* `reserve_spec` : what comes after the delay of a refused reservation.
* `count_overflows`, `reserve_astray` : an overflow admits everything, and a delay can be too short.
-/

namespace GinRpc

namespace RateLimit

structure FixedWindowRateLimiter where
  count : ℤ
  limit : ℤ
  window : ℤ
  lastReset : ℤ
  deriving DecidableEq

/-- `NewFixedWindowRateLimiter`, for a rate that has been truncated to an integer. -/
def newFixedWindowRateLimiter (rate window now : ℤ) : FixedWindowRateLimiter where
  count := 0
  limit := if rate < 0 then 0 else rate
  window := window
  lastReset := now

namespace FixedWindowRateLimiter

variable (r : FixedWindowRateLimiter)

/-- A new window begins if the last one has ended. -/
def refresh (now : ℤ) : FixedWindowRateLimiter :=
  if r.window ≤ Duration.sub now r.lastReset then { r with count := 0, lastReset := now } else r

def allow (now : ℤ) : FixedWindowRateLimiter × Bool :=
  let r := r.refresh now
  if r.limit ≤ r.count then (r, false)
  else ({ r with count := Duration.wrap (r.count + 1) }, true)

def allowN (now n : ℤ) : FixedWindowRateLimiter × Bool :=
  -- a window is not even begun for a count that is not positive
  if n ≤ 0 then (r, n == 0)
  else
    let r := r.refresh now
    if r.limit < Duration.wrap (r.count + n) then (r, false)
    else ({ r with count := Duration.wrap (r.count + n) }, true)

def machine : Machine FixedWindowRateLimiter Request Bool where
  step r
    | .allow now => r.allow now
    | .allowN now n => r.allowN now n

/-- The call begins a new window. -/
def Resets (c : Request) : Prop := 0 < c.units ∧ r.window ≤ Duration.sub c.now r.lastReset

instance (c : Request) : Decidable (r.Resets c) := inferInstanceAs (Decidable (_ ∧ _))

/-- The sum of the count and the units of an `AllowN` is an `int`. -/
def Fits : Request → Prop
  | .allow _ => True
  | .allowN now n => 0 < n → (r.refresh now).count + n < 2 ^ 63

/-- The count is between zero and the limit. -/
def Within : Prop := 0 ≤ r.count ∧ r.count ≤ r.limit

instance : Decidable r.Within := inferInstanceAs (Decidable (_ ∧ _))

/-! ### One call -/

variable {r} {c : Request} {now n : ℤ}

theorem refresh_cases (r : FixedWindowRateLimiter) (now : ℤ) :
    r.refresh now = r ∨ r.refresh now = { r with count := 0, lastReset := now } := by
  unfold refresh
  split_ifs
  · exact .inr rfl
  · exact .inl rfl

/-- What a call can do to the limiter. -/
theorem step_cases (r : FixedWindowRateLimiter) (c : Request) :
    (machine.step r c).1 = r ∨ (machine.step r c).1 = r.refresh c.now ∨
      ((machine.step r c).2 = true ∧
        ∃ k, (machine.step r c).1 = { r.refresh c.now with count := k }) := by
  cases c with
  | allow now =>
    simp only [machine, allow]
    split_ifs
    · exact .inr (.inl rfl)
    · exact .inr (.inr ⟨rfl, _, rfl⟩)
  | allowN now n =>
    simp only [machine, allowN]
    split_ifs
    · exact .inl rfl
    · exact .inr (.inl rfl)
    · exact .inr (.inr ⟨rfl, _, rfl⟩)

theorem limit_refresh : (r.refresh now).limit = r.limit := by
  rcases refresh_cases r now with h | h <;> rw [h]

theorem Within.refresh (h : r.Within) (now : ℤ) : (r.refresh now).Within := by
  have hzero : 0 ≤ r.limit := h.1.trans h.2
  unfold FixedWindowRateLimiter.refresh
  split_ifs
  · exact ⟨le_rfl, hzero⟩
  · exact h

theorem count_refresh (hunits : 0 < c.units) :
    (r.refresh c.now).count = if r.Resets c then 0 else r.count := by
  unfold refresh Resets
  simp only [hunits, true_and]
  split_ifs <;> rfl

/-- `Allow` and `AllowN` in one: nothing happens if nothing is asked for, and otherwise the units
are added if they fit into the window. -/
theorem step_eq (h : r.Within) (hlimit : r.limit < 2 ^ 63) (hfit : r.Fits c) :
    machine.step r c =
      if c.units ≤ 0 then (r, c.units == 0)
      else if r.limit < (r.refresh c.now).count + c.units then (r.refresh c.now, false)
      else ({ r.refresh c.now with count := (r.refresh c.now).count + c.units }, true) := by
  have hrefresh := h.refresh c.now
  rw [Within, limit_refresh] at hrefresh
  cases c with
  | allow now =>
    simp only [machine, allow, Request.units, Request.now, limit_refresh] at hrefresh ⊢
    by_cases hfull : r.limit ≤ (r.refresh now).count
    · rw [if_pos hfull, if_neg (by decide), if_pos (by omega)]
    · rw [if_neg hfull, if_neg (by decide), if_neg (by omega),
        Duration.wrap_of_lt (by omega) (by omega)]
  | allowN now n =>
    simp only [machine, allowN, Request.units, Request.now, limit_refresh] at hrefresh ⊢
    by_cases hn : n ≤ 0
    · rw [if_pos hn, if_pos hn]
    · rw [if_neg hn, if_neg hn, Duration.wrap_of_lt (by omega) (hfit (not_le.1 hn))]

theorem limit_step : (machine.step r c).1.limit = r.limit := by
  rcases step_cases r c with h | h | ⟨-, k, h⟩
  · rw [h]
  · rw [h, limit_refresh]
  · rw [h]
    exact limit_refresh

/-- A call adds its units to the count of its window if it is admitted. -/
theorem count_step (h : r.Within) (hlimit : r.limit < 2 ^ 63) (hfit : r.Fits c) :
    (machine.step r c).1.count = (if r.Resets c then 0 else r.count) +
        (if (machine.step r c).2 then c.units.toNat else 0 : ℕ) ∧
      (machine.step r c).1.count ≤ r.limit := by
  rw [step_eq h hlimit hfit]
  by_cases hunits : c.units ≤ 0
  · have hnot : ¬ r.Resets c := fun hr => absurd hr.1 (not_lt.2 hunits)
    rw [if_pos hunits, if_neg hnot, Int.toNat_of_nonpos hunits]
    simpa using h.2
  · have hrefresh := h.refresh c.now
    rw [Within, limit_refresh] at hrefresh
    rw [if_neg hunits, ← count_refresh (not_le.1 hunits)]
    split_ifs with hfull hfalse hfalse
    · cases hfalse
    · exact ⟨by simp, hrefresh.2⟩
    · refine ⟨?_, not_lt.1 hfull⟩
      dsimp only
      omega
    · exact absurd rfl hfalse

/-- An addition that overflows is admitted, and leaves a negative count. -/
theorem count_overflow (h : r.Within) (hn : n < 2 ^ 63) (hlimit : r.limit < 2 ^ 63)
    (hover : ¬ r.Fits (.allowN now n)) : (r.allowN now n).1.count < 0 := by
  have hrefresh := h.refresh now
  rw [Within, limit_refresh] at hrefresh
  simp only [Fits, not_forall, not_lt] at hover
  obtain ⟨hpos, hge⟩ := hover
  obtain ⟨q, hq, hlow, hhigh⟩ := Duration.wrap_spec ((r.refresh now).count + n)
  have hneg : Duration.wrap ((r.refresh now).count + n) < 0 := by omega
  have hadmit : ¬ (r.refresh now).limit < Duration.wrap ((r.refresh now).count + n) := by
    rw [limit_refresh]
    omega
  rw [allowN, if_neg (not_le.2 hpos)]
  dsimp only
  rwa [if_neg hadmit]

/-! ### A sequence of calls -/

variable {calls past mid : List Request}

/-- No addition overflows. -/
def NoneOverflows (r : FixedWindowRateLimiter) (calls : List Request) : Prop :=
  ∀ past c, past ++ [c] <+: calls → (machine.after r past).Fits c

theorem limit_after (past : List Request) : (machine.after r past).limit = r.limit := by
  induction past using List.reverseRecOn with
  | nil => rfl
  | append_singleton past c ih => rw [Machine.after_concat, limit_step, ih]

theorem within_after (h : r.Within) (hlimit : r.limit < 2 ^ 63) (hfit : NoneOverflows r calls)
    (hpre : past <+: calls) : (machine.after r past).Within := by
  induction past using List.reverseRecOn with
  | nil => exact h
  | append_singleton past c ih =>
    have hwithin := ih ((List.prefix_append ..).trans hpre)
    have hl : (machine.after r past).limit = r.limit := limit_after past
    obtain ⟨hcount, hle⟩ := count_step hwithin (hl ▸ hlimit) (hfit past c hpre)
    rw [Machine.after_concat, Within, limit_step]
    refine ⟨?_, hle⟩
    rw [hcount]
    have := hwithin.1
    split_ifs <;> omega

theorem noneOverflows_iff (h : r.Within) (hlimit : r.limit < 2 ^ 63)
    (hcalls : ∀ c ∈ calls, c.units < 2 ^ 63) :
    (∀ past, past <+: calls → (machine.after r past).Within) ↔ NoneOverflows r calls := by
  constructor
  · intro hall past c hpre
    by_contra hover
    have hpast : past <+: calls := (List.prefix_append ..).trans hpre
    have hl : (machine.after r past).limit = r.limit := limit_after past
    cases c with
    | allow now => exact hover trivial
    | allowN now n =>
      have hn : n < 2 ^ 63 := hcalls _ (Machine.mem_of_prefix hpre)
      have hneg := count_overflow (hall past hpast) hn (hl ▸ hlimit) hover
      have hnext := (hall _ hpre).1
      rw [Machine.after_concat] at hnext
      exact absurd hnext (not_le.2 hneg)
  · exact fun hfit past hpre => within_after h hlimit hfit hpre

/-- Of calls of which only the first one may begin a window, the admitted units are counted. -/
theorem admitted_le_count (h : r.Within) (hlimit : r.limit < 2 ^ 63)
    (hfit : NoneOverflows r calls) (hpre : past ++ mid <+: calls)
    (hmid : ∀ early c, early ++ [c] <+: mid → early ≠ [] →
      ¬ (machine.after r (past ++ early)).Resets c) :
    ((admitted (machine.log (machine.after r past) mid)).length : ℤ) ≤
      (machine.after r (past ++ mid)).count := by
  induction mid using List.reverseRecOn with
  | nil =>
    rw [List.append_nil] at hpre ⊢
    exact (within_after h hlimit hfit hpre).1
  | append_singleton mid c ih =>
    rw [← List.append_assoc] at hpre ⊢
    have hpre' : past ++ mid <+: calls := (List.prefix_append ..).trans hpre
    have hold := ih hpre' fun early d hearly => hmid early d (hearly.trans (List.prefix_append ..))
    have hwithin := within_after h hlimit hfit hpre'
    have hl : (machine.after r (past ++ mid)).limit = r.limit := limit_after _
    have hcount := (count_step hwithin (hl ▸ hlimit) (hfit _ c hpre)).1
    have hbase : ((admitted (machine.log (machine.after r past) mid)).length : ℤ) ≤
        if (machine.after r (past ++ mid)).Resets c then 0
        else (machine.after r (past ++ mid)).count := by
      split_ifs with hreset
      · -- only the first call may begin a window
        have hnil : mid = [] := by_contra fun hne => hmid mid c List.prefix_rfl hne hreset
        rw [hnil]
        rfl
      · exact hold
    rw [Machine.log_concat, admitted_concat, ← Machine.after_append, Machine.after_concat,
      List.length_append, hcount, Int.natCast_add]
    refine add_le_add hbase ?_
    split_ifs
    · rw [List.length_replicate]
    · rfl

end FixedWindowRateLimiter

theorem newFixedWindowRateLimiter_within (rate window now : ℤ) :
    (newFixedWindowRateLimiter rate window now).Within := by
  unfold newFixedWindowRateLimiter FixedWindowRateLimiter.Within
  dsimp only
  split_ifs <;> omega

open FixedWindowRateLimiter in
/-- **The count is exact as long as it is an `int`**: it stays between zero and the limit if and
only if no addition overflows.  Then the calls between two windows, the one that begins the first
of them included, are admitted no more units than the limit. -/
theorem fixed_window_iff {rate : ℤ} (hrate : rate < 2 ^ 63) (window start : ℤ)
    {calls : List Request} (hcalls : ∀ c ∈ calls, c.units < 2 ^ 63) :
    let r := newFixedWindowRateLimiter rate window start
    ((∀ past, past <+: calls → (machine.after r past).Within) ↔ NoneOverflows r calls) ∧
    (NoneOverflows r calls → ∀ past mid, past ++ mid <+: calls →
      (∀ early c, early ++ [c] <+: mid → early ≠ [] →
        ¬ (machine.after r (past ++ early)).Resets c) →
      ((admitted (machine.log (machine.after r past) mid)).length : ℤ) ≤ r.limit) := by
  intro r
  have hwithin : r.Within := newFixedWindowRateLimiter_within rate window start
  have hlimit : r.limit < 2 ^ 63 := by
    show (if rate < 0 then 0 else rate) < 2 ^ 63
    split_ifs <;> omega
  refine ⟨noneOverflows_iff hwithin hlimit hcalls, fun hfit past mid hpre hmid => ?_⟩
  have hcount := admitted_le_count hwithin hlimit hfit hpre hmid
  have hle := (within_after hwithin hlimit hfit hpre).2
  rw [limit_after] at hle
  exact hcount.trans hle

open FixedWindowRateLimiter in
theorem fixed_window_iff_two_calls :
    NoneOverflows (newFixedWindowRateLimiter 10 60 0) [.allow 1, .allowN 2 10] ∧
    ((admitted (machine.log (newFixedWindowRateLimiter 10 60 0)
      [.allow 1, .allowN 2 10])).length : ℤ) ≤ 10 := by
  have hfit : NoneOverflows (newFixedWindowRateLimiter 10 60 0) [.allow 1, .allowN 2 10] := by
    rw [← (fixed_window_iff (by decide) 60 0 (by decide)).1]
    intro past hpre
    rw [← List.mem_inits] at hpre
    revert past
    decide
  refine ⟨hfit, (fixed_window_iff (by decide) 60 0 (by decide)).2 hfit [] _ List.prefix_rfl ?_⟩
  intro early c hpre hne
  rcases early with _ | ⟨a, _ | ⟨b, rest⟩⟩
  · exact absurd rfl hne
  · simp only [List.cons_append, List.nil_append, List.cons_prefix_cons] at hpre
    rw [hpre.1, hpre.2.1]
    decide
  · simp [List.cons_prefix_cons] at hpre

open FixedWindowRateLimiter in
/-- **An overflow admits everything**: of a limit of ten, one unit and 2^63 - 1 more are admitted,
and the count is negative. -/
theorem count_overflows :
    machine.log (newFixedWindowRateLimiter 10 60 0) [.allow 1, .allowN 2 (2 ^ 63 - 1)] =
      [(.allow 1, true), (.allowN 2 (2 ^ 63 - 1), true)] ∧
    (machine.after (newFixedWindowRateLimiter 10 60 0)
      [.allow 1, .allowN 2 (2 ^ 63 - 1)]).count = -2 ^ 63 := by
  decide

/-! ### Reservations -/

/-- A reservation, granted or with the delay after which to come back -/
structure Reservation where
  ok : Bool
  delay : ℤ
  deriving DecidableEq

namespace FixedWindowRateLimiter

variable (r : FixedWindowRateLimiter)

def timeUntilNextWindow (now : ℤ) : ℤ := Duration.sub (r.lastReset + r.window) now

/-- `ReserveN`, which makes its call of `AllowN` at one time and asks for the next window at a later
one; other calls are made in between. -/
def reserveN (now n : ℤ) (between : List Request) (later : ℤ) :
    FixedWindowRateLimiter × Reservation :=
  let (r, ok) := r.allowN now n
  if ok then (r, ⟨true, 0⟩)
  else
    let r := machine.after r between
    (r, ⟨false, r.timeUntilNextWindow later⟩)

end FixedWindowRateLimiter

namespace SlidingWindow

variable (r : SlidingWindow)

/-- `timeUntilNextWindow`, which panics for a limiter that is full without a token. -/
def timeUntilNextWindow (now : ℤ) : Option ℤ :=
  if (r.tokens.length : ℤ) < r.limit then some 0
  else match r.tokens with
    | [] => none
    | oldest :: _ => some (Duration.sub (oldest + r.window) now)

def reserveN (now n : ℤ) (between : List Request) (later : ℤ) :
    SlidingWindow × Option Reservation :=
  let (r, ok) := r.allowN now n
  if ok then (r, some ⟨true, 0⟩)
  else
    let r := machine.after r between
    (r, (r.timeUntilNextWindow later).map (⟨false, ·⟩))

end SlidingWindow

/-- No call has been admitted. -/
def Refused (log : List (Request × Bool)) : Prop := ∀ p ∈ log, p.2 = false

/-- What refused calls keep holds after them. -/
theorem Refused.invariant {S : Type*} {M : Machine S Request Bool} {s : S} {P : S → Prop}
    {quiet : List Request} (h : Refused (M.log s quiet)) (h₀ : P s)
    (hstep : ∀ s c, P s → (M.step s c).2 = false → P (M.step s c).1) : P (M.after s quiet) := by
  refine Machine.invariant (P := fun log s => Refused log → P s) (fun _ => h₀) ?_ h
  intro log s c _ hold hno
  exact hstep s c (hold fun p hp => hno p (List.mem_append_left _ hp))
    (hno _ (List.mem_append_right _ (List.mem_singleton_self _)))

theorem delay_le {at_ window now : ℤ} (hat : at_ ≤ now) (hwindow : window < 2 ^ 63) {t : ℤ}
    (ht : now ≤ t) (hdelay : now + Duration.sub (at_ + window) now ≤ t) : at_ + window ≤ t := by
  unfold Duration.sub Duration.longest at hdelay
  omega

namespace FixedWindowRateLimiter

variable {r r₀ : FixedWindowRateLimiter} {c : Request} {now n T : ℤ}

/-- Refused calls leave the limiter as it is, or begin a window in which nothing is counted. -/
theorem after_refused {quiet : List Request} (h : Refused (machine.log r quiet)) :
    machine.after r quiet = r ∨ (machine.after r quiet).count = 0 := by
  refine h.invariant (P := fun r' => r' = r ∨ r'.count = 0) (.inl rfl) fun r' c hold hno => ?_
  rcases step_cases r' c with hs | hs | ⟨hyes, -⟩
  · rwa [hs]
  · rw [hs]
    rcases refresh_cases r' c.now with hr | hr
    · rwa [hr]
    · exact .inr (by rw [hr])
  · cases hno.symm.trans hyes

theorem window_lastReset_after {calls : List Request} (hstart : r.lastReset ≤ T)
    (hcalls : ∀ c ∈ calls, c.now ≤ T) :
    (machine.after r calls).window = r.window ∧ (machine.after r calls).lastReset ≤ T := by
  induction calls using List.reverseRecOn with
  | nil => exact ⟨rfl, hstart⟩
  | append_singleton calls c ih =>
    obtain ⟨hw, hl⟩ := ih fun d hd => hcalls d (List.mem_append_left _ hd)
    have hc := hcalls c (List.mem_append_right _ (List.mem_singleton_self _))
    have hrefresh : ((machine.after r calls).refresh c.now).window = r.window ∧
        ((machine.after r calls).refresh c.now).lastReset ≤ T := by
      rcases refresh_cases (machine.after r calls) c.now with h | h
      · rw [h]
        exact ⟨hw, hl⟩
      · rw [h]
        exact ⟨hw, hc⟩
    rw [Machine.after_concat]
    rcases step_cases (machine.after r calls) c with h | h | ⟨-, k, h⟩
    · rw [h]
      exact ⟨hw, hl⟩
    · rwa [h]
    · rwa [h]

/-- An empty window has room for as many units as the limit. -/
theorem allowN_of_empty (hcount : (r.refresh now).count = 0) (hn : 0 < n) (hle : n ≤ r.limit)
    (hlimit : r.limit < 2 ^ 63) : (r.allowN now n).2 = true := by
  have hroom : ¬ (r.refresh now).limit < Duration.wrap ((r.refresh now).count + n) := by
    rw [hcount, limit_refresh, zero_add, Duration.wrap_of_lt (by omega) (by omega)]
    omega
  rw [allowN, if_neg (by omega)]
  dsimp only
  rw [if_neg hroom]

/-- After the delay, and without other units, a positive number of units is admitted. -/
theorem allowN_after_delay {quiet : List Request} (hlast : r.lastReset ≤ now)
    (hwindow : r.window < 2 ^ 63) (hlimit : r.limit < 2 ^ 63)
    (hquiet : Refused (machine.log r quiet)) {t : ℤ} (ht : now ≤ t)
    (hdelay : now + r.timeUntilNextWindow now ≤ t) (hle : n ≤ r.limit) (hn : 0 < n) :
    ((machine.after r quiet).allowN t n).2 = true := by
  have hend : r.lastReset + r.window ≤ t := delay_le hlast hwindow ht hdelay
  have hl : (machine.after r quiet).limit = r.limit := limit_after quiet
  refine allowN_of_empty ?_ hn (hl ▸ hle) (hl ▸ hlimit)
  rcases after_refused hquiet with h | h
  · have hover : r.window ≤ Duration.sub t r.lastReset := by
      unfold Duration.sub Duration.longest
      omega
    rw [h, refresh, if_pos hover]
  · rcases refresh_cases (machine.after r quiet) t with hr | hr
    · rw [hr, h]
    · rw [hr]

theorem reserveN_refused {between : List Request} {later : ℤ}
    (h : (r.reserveN now n between later).2.ok = false) :
    r.reserveN now n between later = (machine.after r (.allowN now n :: between),
      ⟨false, (machine.after r (.allowN now n :: between)).timeUntilNextWindow later⟩) := by
  unfold reserveN at h ⊢
  dsimp only at h ⊢
  split_ifs at h ⊢
  rfl

/-- What is refused by a reservation is admitted after its delay, if it is anything. -/
theorem admitted_after_reserveN {between quiet : List Request} {later t : ℤ}
    (hlast : r.lastReset ≤ later) (hwindow : r.window < 2 ^ 63) (hlimit : r.limit < 2 ^ 63)
    (htimes : ∀ c ∈ .allowN now n :: between, c.now ≤ later) (ht : later ≤ t)
    (hno : (r.reserveN now n between later).2.ok = false) (hn : n ≤ r.limit)
    (hquiet : Refused (machine.log (r.reserveN now n between later).1 quiet))
    (hdelay : later + (r.reserveN now n between later).2.delay ≤ t) :
    ((machine.after (r.reserveN now n between later).1 quiet).allowN t n).2 = true ↔ 0 < n := by
  obtain ⟨hw, hlast'⟩ := window_lastReset_after hlast htimes
  have hl : (machine.after r (.allowN now n :: between)).limit = r.limit := limit_after _
  have hzero : n ≠ 0 := by
    rintro rfl
    cases hno
  rw [reserveN_refused hno] at hquiet hdelay ⊢
  refine ⟨fun hyes => ?_, allowN_after_delay hlast' (hw ▸ hwindow) (hl ▸ hlimit) hquiet ht hdelay
    (hl ▸ hn)⟩
  by_contra hneg
  rw [allowN, if_pos (by omega)] at hyes
  exact hzero (by simpa using hyes)

end FixedWindowRateLimiter

namespace SlidingWindow

variable {r r₀ : SlidingWindow} {c : Request} {now n T : ℤ}

/-- The limiter after some calls until `T`: it has no more units than the limit, all of the past. -/
structure Sane (r₀ : SlidingWindow) (T : ℤ) (r : SlidingWindow) : Prop where
  limit : r.limit = r₀.limit
  window : r.window = r₀.window
  length_le : (r.tokens.length : ℤ) ≤ r₀.limit
  le_of_mem : ∀ token ∈ r.tokens, token ≤ T

theorem Sane.sublist {tokens : List ℤ} (h : Sane r₀ T r) (hsub : tokens.Sublist r.tokens) :
    Sane r₀ T { r with tokens := tokens } where
  limit := h.limit
  window := h.window
  length_le := le_trans (Int.ofNat_le.2 hsub.length_le) h.length_le
  le_of_mem token htoken := h.le_of_mem token (hsub.subset htoken)

theorem Sane.cleanup (h : Sane r₀ T r) (now : ℤ) : Sane r₀ T (r.cleanup now) :=
  h.sublist List.filter_sublist

theorem Sane.step (h : Sane r₀ T r) (hc : c.now ≤ T)
    (hfit : ((r.cleanup c.now).tokens.length : ℤ) + c.units < 2 ^ 63) :
    Sane r₀ T (machine.step r c).1 := by
  rw [step_eq hfit]
  split_ifs with hunits hfull
  · exact h
  · exact h.cleanup c.now
  · have hclean := h.cleanup c.now
    refine ⟨h.limit, h.window, ?_, fun token htoken => ?_⟩
    · dsimp only
      rw [List.length_append, List.length_replicate, ← h.limit]
      omega
    · rcases List.mem_append.1 htoken with hold | hnew
      · exact hclean.le_of_mem token hold
      · rw [List.eq_of_mem_replicate hnew]
        exact hc

theorem sane_after {calls : List Request} (h : Sane r₀ T r) (hcalls : ∀ c ∈ calls, c.now ≤ T)
    (hfit : NoOverflow r calls) : Sane r₀ T (machine.after r calls) := by
  suffices ∀ past, past <+: calls → Sane r₀ T (machine.after r past) from this _ List.prefix_rfl
  intro past hpre
  induction past using List.reverseRecOn with
  | nil => exact h
  | append_singleton past c ih =>
    rw [Machine.after_concat]
    exact (ih ((List.prefix_append ..).trans hpre)).step (hcalls c (Machine.mem_of_prefix hpre))
      (hfit past c hpre)

theorem noOverflow_append {past calls : List Request} (h : NoOverflow r (past ++ calls)) :
    NoOverflow r past ∧ NoOverflow (machine.after r past) calls := by
  refine ⟨fun early c hpre => h early c (hpre.trans (List.prefix_append ..)), ?_⟩
  intro early c hpre
  have hwhole : past ++ early ++ [c] <+: past ++ calls := by
    rw [List.append_assoc]
    exact (List.prefix_append_right_inj past).2 hpre
  have hsum := h (past ++ early) c hwhole
  rwa [Machine.after_append] at hsum

/-- Refused calls only remove tokens. -/
theorem after_refused {quiet : List Request} (h : Refused (machine.log r quiet)) :
    ∃ tokens, tokens.Sublist r.tokens ∧ machine.after r quiet = { r with tokens := tokens } := by
  refine h.invariant
    (P := fun r' => ∃ tokens, tokens.Sublist r.tokens ∧ r' = { r with tokens := tokens })
    ⟨r.tokens, List.Sublist.refl _, rfl⟩ fun r' c hold hno => ?_
  obtain ⟨tokens, hsub, rfl⟩ := hold
  have hclean : ({ r with tokens := tokens } : SlidingWindow).cleanup c.now =
      { r with tokens := tokens.filter fun token => decide (c.now - r.window < token) } := rfl
  have hfilter := List.filter_sublist (p := fun token => decide (c.now - r.window < token))
    (l := tokens)
  cases c with
  | allow now =>
    simp only [machine, allow] at hno ⊢
    split_ifs at hno ⊢
    exact ⟨_, hfilter.trans hsub, hclean⟩
  | allowN now n =>
    simp only [machine, allowN] at hno ⊢
    split_ifs at hno ⊢
    · exact ⟨_, hsub, rfl⟩
    · exact ⟨_, hfilter.trans hsub, hclean⟩

/-- The units that a caller has to wait for leave the window together: there is room for all of
them, or the window is full and its `n` oldest units are of one time. -/
def Frees (r : SlidingWindow) (n : ℤ) : Prop :=
  if (r.tokens.length : ℤ) < r.limit then r.tokens.length + n ≤ r.limit
  else ∀ oldest ∈ r.tokens.head?, ∀ token ∈ r.tokens.take n.toNat, token ≤ oldest

theorem frees_one (r : SlidingWindow) : r.Frees 1 := by
  unfold Frees
  split_ifs with h
  · omega
  · intro oldest holdest token htoken
    cases htokens : r.tokens with
    | nil => simp [htokens] at holdest
    | cons first rest => simp_all

/-- The delay is computed unless the limit is zero. -/
theorem timeUntilNextWindow_eq_none (h : Sane r₀ T r) :
    r.timeUntilNextWindow now = none ↔ r₀.limit = 0 := by
  have hle := h.length_le
  have hl := h.limit
  unfold timeUntilNextWindow
  cases htokens : r.tokens with
  | nil =>
    rw [htokens] at hle
    simp only [List.length_nil] at hle ⊢
    split_ifs <;> simp <;> omega
  | cons oldest rest =>
    rw [htokens] at hle
    simp only [List.length_cons] at hle ⊢
    split_ifs <;> simp <;> omega

/-- The units that remain in the window when the delay is over leave room for the others. -/
theorem Frees.length_add_le (hfrees : r.Frees n) (h : Sane r₀ now r) (hwindow : r₀.window < 2 ^ 63)
    {t delay : ℤ} (hdelay : r.timeUntilNextWindow now = some delay) (ht : now ≤ t)
    (hlate : now + delay ≤ t) (hn : 0 < n) (hle : n ≤ r₀.limit) :
    ((r.cleanup t).tokens.length : ℤ) + n ≤ r₀.limit := by
  have hclean : (r.cleanup t).tokens.length ≤ r.tokens.length := List.length_filter_le ..
  have hl := h.limit
  unfold timeUntilNextWindow at hdelay
  unfold Frees at hfrees
  split_ifs at hdelay hfrees with hroom
  · omega
  · cases htokens : r.tokens with
    | nil => simp [htokens] at hdelay
    | cons oldest rest =>
      simp only [htokens, Option.some.injEq] at hdelay
      have holdest : oldest ≤ now := h.le_of_mem oldest (by simp [htokens])
      have hend : oldest + r.window ≤ t :=
        delay_le holdest (h.window ▸ hwindow) ht (hdelay ▸ hlate)
      -- none of the first `n` units is left
      have hgone : (r.tokens.take n.toNat).filter
          (fun token => decide (t - r.window < token)) = [] := by
        rw [List.filter_eq_nil_iff]
        intro token htoken
        have hold := hfrees oldest (by simp [htokens]) token htoken
        simp only [decide_eq_true_eq]
        omega
      have hrest : (r.cleanup t).tokens.length ≤ r.tokens.length - n.toNat := by
        unfold cleanup
        dsimp only
        rw [← List.take_append_drop n.toNat r.tokens, List.filter_append, hgone, List.nil_append,
          List.take_append_drop, ← List.length_drop]
        exact List.length_filter_le ..
      have hlen := h.length_le
      omega

theorem allowN_after_delay {quiet : List Request} (h : Sane r₀ now r) (hwindow : r₀.window < 2 ^ 63)
    (hlimit : r₀.limit < 2 ^ 63) (hquiet : Refused (machine.log r quiet)) {t delay : ℤ}
    (hdelay : r.timeUntilNextWindow now = some delay) (ht : now ≤ t) (hlate : now + delay ≤ t)
    (hn : 0 < n) (hle : n ≤ r₀.limit) (hfrees : r.Frees n) :
    ((machine.after r quiet).allowN t n).2 = true := by
  obtain ⟨tokens, hsub, hafter⟩ := after_refused hquiet
  have hfewer : ((machine.after r quiet).cleanup t).tokens.length ≤
      (r.cleanup t).tokens.length := by
    rw [hafter]
    exact (hsub.filter _).length_le
  have hroom := hfrees.length_add_le h hwindow hdelay ht hlate hn hle
  have hl : ((machine.after r quiet).cleanup t).limit = r₀.limit := by
    rw [hafter]
    exact h.limit
  have hadmit : ¬ ((machine.after r quiet).cleanup t).limit < Duration.wrap
      (((machine.after r quiet).cleanup t).tokens.length + n) := by
    rw [Duration.wrap_of_lt (by omega) (by omega)]
    omega
  rw [allowN, if_neg (by omega)]
  dsimp only
  rw [if_neg hadmit]

theorem reserveN_eq {between : List Request} {later : ℤ} :
    r.reserveN now n between later =
      if (r.allowN now n).2 then ((r.allowN now n).1, some ⟨true, 0⟩)
      else (machine.after r (.allowN now n :: between),
        ((machine.after r (.allowN now n :: between)).timeUntilNextWindow later).map
          (⟨false, ·⟩)) := rfl

theorem ne_zero_of_refused (h : (r.allowN now n).2 = false) : n ≠ 0 := by
  rintro rfl
  cases h

/-- A limiter with the limit zero admits nothing. -/
theorem Sane.refused_of_limit (h : Sane r₀ T r)
    (hfit : ((r.cleanup c.now).tokens.length : ℤ) + c.units < 2 ^ 63) (hlimit : r₀.limit = 0)
    (hc : c.units ≠ 0) : (machine.step r c).2 = false := by
  have hl := h.limit
  rw [step_eq hfit]
  split_ifs with hunits hfull
  · simpa using hc
  · rfl
  · have hlen : 0 ≤ ((r.cleanup c.now).tokens.length : ℤ) := Int.natCast_nonneg _
    omega

section Reserve

variable {between quiet : List Request} {later : ℤ} (h : Sane r₀ later r)
  (htimes : ∀ c ∈ .allowN now n :: between, c.now ≤ later)
  (hfit : NoOverflow r (.allowN now n :: between))

include h htimes hfit

/-- A reservation panics if the limit is zero and something is asked for. -/
theorem reserveN_eq_none :
    (r.reserveN now n between later).2 = none ↔ r₀.limit = 0 ∧ n ≠ 0 := by
  rw [reserveN_eq]
  split_ifs with hyes
  · constructor
    · intro hnone
      cases hnone
    · rintro ⟨hlimit, hn⟩
      have hno : (r.allowN now n).2 = false :=
        h.refused_of_limit (hfit [] _ (List.prefix_append [_] between)) hlimit hn
      cases hno.symm.trans hyes
  · have hzero := ne_zero_of_refused (Bool.not_eq_true _ ▸ hyes)
    rw [Option.map_eq_none_iff, timeUntilNextWindow_eq_none (sane_after h htimes hfit)]
    exact (and_iff_left hzero).symm

theorem admitted_after_reserveN {delay t : ℤ} (hwindow : r₀.window < 2 ^ 63)
    (hlimit : r₀.limit < 2 ^ 63) (ht : later ≤ t)
    (hp : (r.reserveN now n between later).2 = some ⟨false, delay⟩) (hn : n ≤ r₀.limit)
    (hpos : 0 < n) (hfrees : (r.reserveN now n between later).1.Frees n)
    (hquiet : Refused (machine.log (r.reserveN now n between later).1 quiet))
    (hlate : later + delay ≤ t) :
    ((machine.after (r.reserveN now n between later).1 quiet).allowN t n).2 = true := by
  rw [reserveN_eq] at hp hfrees hquiet ⊢
  split_ifs at hp hfrees hquiet ⊢ with hyes
  · cases hp
  · obtain ⟨d, hd, heq⟩ := Option.map_eq_some_iff.1 hp
    cases heq
    exact allowN_after_delay (sane_after h htimes hfit) hwindow hlimit hquiet hd ht hlate hpos hn
      hfrees

end Reserve

end SlidingWindow

theorem newSlidingWindow_sane (rate window T : ℤ) :
    (newSlidingWindow rate window).Sane T (newSlidingWindow rate window) where
  limit := rfl
  window := rfl
  length_le := by
    show 0 ≤ if rate < 0 then 0 else rate
    split_ifs <;> omega
  le_of_mem token htoken := by cases htoken

/-- **What a refused reservation promises**, of a number of units that is not above the limit: the
calls of the history, of the reservation and between its two critical sections are made until
`later`, and no call is admitted afterwards until `t'`, when the delay is over.

With a fixed window these units are admitted at `t'` if and only if there are any.  With a sliding
window a reservation panics if and only if the limit is zero and something is asked for, and the
units are admitted if those they have to wait for leave the window together. -/
theorem reserve_spec {rate window start t n later t' : ℤ} (hrate : rate < 2 ^ 63)
    (hwindow : window < 2 ^ 63) {history between quiet : List Request} (hstart : start ≤ later)
    (htimes : ∀ c ∈ history ++ .allowN t n :: between, c.now ≤ later) (ht' : later ≤ t') :
    (let r := newFixedWindowRateLimiter rate window start
      let p := (FixedWindowRateLimiter.machine.after r history).reserveN t n between later
      p.2.ok = false → n ≤ r.limit → Refused (FixedWindowRateLimiter.machine.log p.1 quiet) →
        later + p.2.delay ≤ t' →
        (((FixedWindowRateLimiter.machine.after p.1 quiet).allowN t' n).2 = true ↔ 0 < n)) ∧
    (let r := newSlidingWindow rate window
      let p := (SlidingWindow.machine.after r history).reserveN t n between later
      NoOverflow r (history ++ .allowN t n :: between) →
        (p.2 = none ↔ r.limit = 0 ∧ n ≠ 0) ∧
        ∀ delay, p.2 = some ⟨false, delay⟩ → n ≤ r.limit → 0 < n → p.1.Frees n →
          Refused (SlidingWindow.machine.log p.1 quiet) → later + delay ≤ t' →
          ((SlidingWindow.machine.after p.1 quiet).allowN t' n).2 = true) := by
  have hlimit : (newSlidingWindow rate window).limit < 2 ^ 63 := by
    show (if rate < 0 then 0 else rate) < 2 ^ 63
    split_ifs <;> omega
  have hhistory : ∀ c ∈ history, c.now ≤ later := fun c hc => htimes c (List.mem_append_left _ hc)
  have hcalls : ∀ c ∈ .allowN t n :: between, c.now ≤ later :=
    fun c hc => htimes c (List.mem_append_right _ hc)
  refine ⟨?_, ?_⟩
  · intro r p hno hn hquiet hdelay
    obtain ⟨hw, hlast⟩ := FixedWindowRateLimiter.window_lastReset_after (r := r) hstart hhistory
    have hl : (FixedWindowRateLimiter.machine.after r history).limit = r.limit :=
      FixedWindowRateLimiter.limit_after history
    exact FixedWindowRateLimiter.admitted_after_reserveN hlast (hw ▸ hwindow) (hl ▸ hlimit) hcalls
      ht' hno (hl ▸ hn) hquiet hdelay
  · intro r p hfit
    obtain ⟨hpast, hrest⟩ := SlidingWindow.noOverflow_append hfit
    have hnew : SlidingWindow.Sane r later r := newSlidingWindow_sane rate window later
    have hsane := SlidingWindow.sane_after hnew hhistory hpast
    refine ⟨SlidingWindow.reserveN_eq_none hsane hcalls hrest, fun delay hp hn hpos => ?_⟩
    intro hfrees hquiet hlate
    exact SlidingWindow.admitted_after_reserveN hsane hcalls hrest hwindow hlimit ht' hp hn hpos
      hfrees hquiet hlate

/-- A unit of a limit of one is reserved at time 5, when the one of time 1 is in the window; it is
admitted at time 61. -/
theorem reserve_spec_one :
    ((FixedWindowRateLimiter.machine.after (newFixedWindowRateLimiter 1 60 0)
      [.allow 1, .allowN 5 1]).allowN 61 1).2 = true ∧
    ((SlidingWindow.machine.after (newSlidingWindow 1 60)
      [.allow 1, .allowN 5 1]).allowN 61 1).2 = true := by
  have h := @reserve_spec 1 60 0 5 1 5 61 (by decide) (by decide) [.allow 1] [] [] (by decide)
    (by decide) (by decide)
  have hfit : NoOverflow (newSlidingWindow 1 60) [.allow 1, .allowN 5 1] := by
    intro past c hpre
    rcases past with _ | ⟨a, _ | ⟨b, past⟩⟩
    · simp only [List.nil_append, List.cons_prefix_cons] at hpre
      rw [hpre.1]
      decide
    · simp only [List.cons_append, List.nil_append, List.cons_prefix_cons] at hpre
      rw [hpre.1, hpre.2.1]
      decide
    · simp [List.cons_prefix_cons] at hpre
  have hnone : Refused [] := fun p hp => by cases hp
  exact ⟨(h.1 rfl (by decide) hnone (by decide)).2 (by decide),
    (h.2 hfit).2 56 rfl (by decide) (by decide) (SlidingWindow.frees_one _) hnone (by decide)⟩

/-- **A delay can be too short**: with a sliding window and the limit two, one unit of which is in
the window, a reservation of two units has the delay zero and is refused again; with the limit zero
a reservation panics.  A negative number is never admitted. -/
theorem reserve_astray :
    (let p := (SlidingWindow.machine.after (newSlidingWindow 2 60) [.allow 1]).reserveN 5 2 [] 5
     p.2 = some ⟨false, 0⟩ ∧ (p.1.allowN 5 2).2 = false) ∧
    ((newSlidingWindow 0 60).reserveN 5 1 [] 5).2 = none ∧
    (let p := (newFixedWindowRateLimiter 2 60 0).reserveN 5 (-1) [] 5
     p.2 = ⟨false, 55⟩ ∧ (p.1.allowN 60 (-1)).2 = false) := by
  decide

end RateLimit

end GinRpc
