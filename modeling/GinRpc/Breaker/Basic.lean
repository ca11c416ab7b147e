import Mathlib.Tactic

/-!
# The circuit breaker

Model of `plugins/circuitbreaker/circuitbreaker.go`.  A breaker is a mutable record guarded by
one mutex; every method body below runs with the mutex held, so a method is a function of the
record and of the clock reading `now` it takes.

* `Settings` : the configuration after `NewCircuitBreaker` has replaced its zero values.
* `CircuitBreaker.beforeRequest`, `CircuitBreaker.afterRequest` : the two critical sections of
  `Execute`.
* `CircuitBreaker.afterRequest_stale`, `CircuitBreaker.afterRequest_current` : the two things
  `afterRequest` can do.

The five counters are `uint32` and wrap around as in the source.  `generation` is a `uint64`
that is bumped once per state change or expired interval; it is modelled by a natural number.
The zero `time.Time` of `expiry` is `none`.  The `onStateChange` observer is left out.
-/

namespace GinRpc

namespace Breaker

/-- The state of the breaker. -/
inductive State where
  | closed
  | opened
  | halfOpen
  deriving DecidableEq, Repr

/-- The counters of one generation. -/
structure Counts where
  requests : UInt32 := 0
  totalSuccesses : UInt32 := 0
  totalFailures : UInt32 := 0
  consecutiveSuccesses : UInt32 := 0
  consecutiveFailures : UInt32 := 0
  deriving DecidableEq, Repr

/-- The fields of `Config` that the breaker reads; durations and times are in nanoseconds. -/
structure Config where
  maxRequests : UInt32
  interval : ℤ
  timeout : ℤ
  readyToTrip : Counts → Bool

/-- A minute, the default of `Interval` and `Timeout`. -/
def minute : ℤ := 60000000000

/-- The settings of a constructed breaker: none of the three bounds is zero. -/
structure Settings where
  maxRequests : UInt32
  interval : ℤ
  timeout : ℤ
  readyToTrip : Counts → Bool
  maxRequests_pos : 0 < maxRequests.toNat
  interval_pos : 0 < interval
  timeout_pos : 0 < timeout

/-- The defaulting done by `NewCircuitBreaker`. -/
def Config.settings (c : Config) : Settings where
  maxRequests := if c.maxRequests = 0 then 1 else c.maxRequests
  interval := if c.interval ≤ 0 then minute else c.interval
  timeout := if c.timeout ≤ 0 then minute else c.timeout
  readyToTrip := c.readyToTrip
  maxRequests_pos := by
    split_ifs with h
    · decide
    · exact Nat.pos_of_ne_zero fun h0 => h (UInt32.toNat_inj.1 h0)
  interval_pos := by split_ifs with h <;> [decide; omega]
  timeout_pos := by split_ifs with h <;> [decide; omega]

/-- The mutable part of a breaker. -/
structure CircuitBreaker where
  state : State
  generation : ℕ
  counts : Counts
  expiry : Option ℤ
  deriving DecidableEq, Repr

/-- Why `beforeRequest` rejects a request. -/
inductive Rejection where
  /-- `ErrCircuitBreakerOpen` -/
  | circuitBreakerOpen
  /-- `ErrTooManyRequests` -/
  | tooManyRequests
  deriving DecidableEq, Repr

/-- The message of the error. -/
def Rejection.error : Rejection → String
  | .circuitBreakerOpen => "circuit breaker is open"
  | .tooManyRequests => "too many requests in half-open state"

/-- `expiry.Before(now)`; the zero time is before every clock reading. -/
def expired (expiry : Option ℤ) (now : ℤ) : Bool :=
  match expiry with
  | none => true
  | some t => decide (t < now)

namespace CircuitBreaker

variable (σ : Settings)

/-- Start a new generation: fresh counters, and the deadline of the current state. -/
def toNewGeneration (cb : CircuitBreaker) (now : ℤ) : CircuitBreaker :=
  { cb with
    generation := cb.generation + 1
    counts := {}
    expiry := match cb.state with
      | .closed => if σ.interval = 0 then none else some (now + σ.interval)
      | .opened => some (now + σ.timeout)
      | .halfOpen => none }

/-- The breaker made by `NewCircuitBreaker` at time `now`. -/
def newCircuitBreaker (now : ℤ) : CircuitBreaker :=
  toNewGeneration σ ⟨.closed, 0, {}, none⟩ now

/-- Change the state, which starts a new generation. -/
def setState (cb : CircuitBreaker) (state : State) (now : ℤ) : CircuitBreaker :=
  if cb.state = state then cb else toNewGeneration σ { cb with state := state } now

/-- Let an elapsed deadline take effect. -/
def currentState (cb : CircuitBreaker) (now : ℤ) : CircuitBreaker :=
  match cb.state with
  | .closed =>
    if cb.expiry.isSome && expired cb.expiry now then toNewGeneration σ cb now else cb
  | .opened => if expired cb.expiry now then setState σ cb .halfOpen now else cb
  | .halfOpen => cb

/-- First critical section of `Execute`: admit the request and return its generation, or
reject it. -/
def beforeRequest (cb : CircuitBreaker) (now : ℤ) : CircuitBreaker × Except Rejection ℕ :=
  let cb := currentState σ cb now
  if cb.state = .opened then (cb, .error .circuitBreakerOpen)
  else if cb.state = .halfOpen ∧ σ.maxRequests ≤ cb.counts.requests then
    (cb, .error .tooManyRequests)
  else
    ({ cb with counts := { cb.counts with requests := cb.counts.requests + 1 } },
      .ok cb.generation)

/-- Count a success; enough of them in a row close a half-open breaker. -/
def onSuccess (cb : CircuitBreaker) (now : ℤ) : CircuitBreaker :=
  let cb' := { cb with counts := { cb.counts with
    totalSuccesses := cb.counts.totalSuccesses + 1
    consecutiveSuccesses := cb.counts.consecutiveSuccesses + 1
    consecutiveFailures := 0 } }
  match cb.state with
  | .halfOpen =>
    if σ.maxRequests ≤ cb'.counts.consecutiveSuccesses then setState σ cb' .closed now else cb'
  | _ => cb'

/-- Count a failure; it opens a half-open breaker, and a closed one when `readyToTrip` says so. -/
def onFailure (cb : CircuitBreaker) (now : ℤ) : CircuitBreaker :=
  let cb' := { cb with counts := { cb.counts with
    totalFailures := cb.counts.totalFailures + 1
    consecutiveFailures := cb.counts.consecutiveFailures + 1
    consecutiveSuccesses := 0 } }
  match cb.state with
  | .closed => if σ.readyToTrip cb'.counts then setState σ cb' .opened now else cb'
  | .halfOpen => setState σ cb' .opened now
  | .opened => cb'

/-- Second critical section of `Execute`: record the outcome of a request admitted in generation
`before`, unless that generation is over. -/
def afterRequest (cb : CircuitBreaker) (before : ℕ) (success : Bool) (now : ℤ) : CircuitBreaker :=
  let cb := currentState σ cb now
  if cb.generation ≠ before then cb
  else if success then onSuccess σ cb now
  else onFailure σ cb now

/-! ### What the critical sections do -/

variable {σ} {cb : CircuitBreaker} {now : ℤ}

@[simp] theorem toNewGeneration_state : (toNewGeneration σ cb now).state = cb.state := rfl

@[simp] theorem toNewGeneration_generation :
    (toNewGeneration σ cb now).generation = cb.generation + 1 := rfl

@[simp] theorem toNewGeneration_counts : (toNewGeneration σ cb now).counts = {} := rfl

theorem setState_of_ne {st : State} (h : cb.state ≠ st) :
    setState σ cb st now = toNewGeneration σ { cb with state := st } now := by
  simp [setState, h]

/-- The passage of time leaves a breaker alone, renews a closed one, or half-opens an open one. -/
theorem currentState_cases (σ : Settings) (cb : CircuitBreaker) (now : ℤ) :
    currentState σ cb now = cb ∨
    (cb.state = .closed ∧ currentState σ cb now = toNewGeneration σ cb now) ∨
    (cb.state = .opened ∧
      currentState σ cb now = toNewGeneration σ { cb with state := .halfOpen } now) := by
  unfold currentState
  cases hst : cb.state with
  | closed =>
    dsimp only
    split_ifs
    · exact .inr (.inl ⟨rfl, rfl⟩)
    · exact .inl rfl
  | opened =>
    dsimp only
    split_ifs
    · exact .inr (.inr ⟨rfl, setState_of_ne (by simp [hst])⟩)
    · exact .inl rfl
  | halfOpen => exact .inl rfl

/-- Only a new generation makes `currentState` visible. -/
theorem currentState_eq_self (h : (currentState σ cb now).generation ≤ cb.generation) :
    currentState σ cb now = cb := by
  rcases currentState_cases σ cb now with h' | ⟨-, h'⟩ | ⟨-, h'⟩
  · exact h'
  · rw [h'] at h; simp at h
  · rw [h'] at h; simp at h

/-- A half-open breaker has no deadline. -/
theorem currentState_halfOpen (h : cb.state = .halfOpen) : currentState σ cb now = cb := by
  simp [currentState, h]

/-- An admission counts one request, and is made only in the closed state or below the half-open
limit. -/
theorem beforeRequest_ok {cb' : CircuitBreaker} {g : ℕ}
    (h : beforeRequest σ cb now = (cb', .ok g)) :
    g = (currentState σ cb now).generation ∧ (currentState σ cb now).state ≠ .opened ∧
    ((currentState σ cb now).state = .halfOpen →
      (currentState σ cb now).counts.requests < σ.maxRequests) ∧
    cb' = { currentState σ cb now with counts := { (currentState σ cb now).counts with
      requests := (currentState σ cb now).counts.requests + 1 } } := by
  unfold beforeRequest at h
  simp only at h
  split_ifs at h with h1 h2
  all_goals simp only [Prod.mk.injEq, Except.ok.injEq, reduceCtorEq, and_false] at h
  refine ⟨h.2.symm, h1, fun hh => ?_, h.1.symm⟩
  rw [not_and, UInt32.not_le] at h2
  exact h2 hh

/-- A rejection changes nothing beyond the passage of time. -/
theorem beforeRequest_error {cb' : CircuitBreaker} {e : Rejection}
    (h : beforeRequest σ cb now = (cb', .error e)) : cb' = currentState σ cb now := by
  unfold beforeRequest at h
  simp only at h
  split_ifs at h
  all_goals simp only [Prod.mk.injEq, reduceCtorEq, and_false] at h
  all_goals exact h.1.symm

/-- A half-open breaker below its limit admits. -/
theorem beforeRequest_halfOpen (h : cb.state = .halfOpen)
    (hlt : cb.counts.requests < σ.maxRequests) :
    (beforeRequest σ cb now).2 = .ok cb.generation := by
  have hc : currentState σ cb now = cb := currentState_halfOpen h
  simp [beforeRequest, hc, h, UInt32.not_le.2 hlt]

/-- The outcome of a request of another generation is dropped. -/
theorem afterRequest_stale {before : ℕ} {success : Bool}
    (h : (currentState σ cb now).generation ≠ before) :
    afterRequest σ cb before success now = currentState σ cb now := by
  simp [afterRequest, h]

/-- The outcome of a request of the current generation is counted, on an unchanged breaker. -/
theorem afterRequest_current {before : ℕ} (success : Bool) (hle : before ≤ cb.generation)
    (h : (currentState σ cb now).generation = before) :
    before = cb.generation ∧
    afterRequest σ cb before success now =
      if success then onSuccess σ cb now else onFailure σ cb now := by
  have hc : currentState σ cb now = cb := currentState_eq_self (h.trans_le hle)
  rw [hc] at h
  simp [afterRequest, hc, h]

/-- A recorded success: the counters move, or the last missing success closes the breaker. -/
theorem onSuccess_cases (σ : Settings) (now : ℤ) (hst : cb.state ≠ .opened) :
    (onSuccess σ cb now = { cb with counts := { cb.counts with
        totalSuccesses := cb.counts.totalSuccesses + 1
        consecutiveSuccesses := cb.counts.consecutiveSuccesses + 1
        consecutiveFailures := 0 } } ∧
      (cb.state = .halfOpen → cb.counts.consecutiveSuccesses + 1 < σ.maxRequests)) ∨
    (cb.state = .halfOpen ∧ ∃ cs, onSuccess σ cb now =
      toNewGeneration σ { cb with state := .closed, counts := cs } now) := by
  unfold onSuccess
  cases h : cb.state with
  | opened => exact absurd h hst
  | closed => exact .inl ⟨by simp, by simp⟩
  | halfOpen =>
    dsimp only
    split_ifs with hm
    · exact .inr ⟨rfl, _, setState_of_ne (by simp)⟩
    · exact .inl ⟨rfl, fun _ => UInt32.not_le.1 hm⟩

/-- A recorded failure: the counters of a closed breaker move, or the breaker opens. -/
theorem onFailure_cases (σ : Settings) (now : ℤ) (hst : cb.state ≠ .opened) :
    (cb.state = .closed ∧ onFailure σ cb now = { cb with counts := { cb.counts with
        totalFailures := cb.counts.totalFailures + 1
        consecutiveFailures := cb.counts.consecutiveFailures + 1
        consecutiveSuccesses := 0 } }) ∨
    ∃ cs,
      onFailure σ cb now = toNewGeneration σ { cb with state := .opened, counts := cs } now := by
  unfold onFailure
  cases h : cb.state with
  | opened => exact absurd h hst
  | closed =>
    dsimp only
    split_ifs
    · exact .inr ⟨_, setState_of_ne (by simp)⟩
    · exact .inl ⟨rfl, rfl⟩
  | halfOpen => exact .inr ⟨_, setState_of_ne (by simp)⟩

end CircuitBreaker

end Breaker

end GinRpc
