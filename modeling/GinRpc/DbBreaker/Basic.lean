import GinRpc.LTS.Basic
import Mathlib.Tactic

/-!
# The database circuit breaker

Model of `plugins/db/circuitbreaker/breaker.go`.  The breaker has no mutex: its fields are read and
written by atomic operations, and every goroutine may be stopped between two of them.  A goroutine
is a program counter that names the atomic operation it does next; `CircuitBreaker.exec` is that
operation.

* `Pc` : the places between two atomic operations of `Execute`, `ForceOpen` and `ForceClosed`.
* `CircuitBreaker.exec` : one atomic operation.
* `Sys.step` : one operation of one goroutine, or the passing of time.  Next to the breaker a
  system keeps when the circuit was opened, how often it became half-open, and all admissions.

The clock has nanoseconds, counters are `uint32`.  `ExecuteWithResult` takes the same steps as
`Execute`.  Logging and `GetStats` are left out.
-/

namespace GinRpc

namespace DbBreaker

/-- The state of the breaker. -/
inductive State where
  | closed
  | opened
  | halfOpen
  deriving DecidableEq, Repr

structure Config where
  maxFailures : UInt32
  resetTimeout : ℤ
  halfOpenMaxRequests : UInt32
  successThreshold : UInt32
  deriving DecidableEq, Repr

def defaultConfig : Config where
  maxFailures := 5
  resetTimeout := 30000000000
  halfOpenMaxRequests := 3
  successThreshold := 2

/-- The configuration of a constructed breaker: no threshold is zero. -/
structure Settings extends Config where
  maxFailures_pos : 0 < maxFailures.toNat
  halfOpenMaxRequests_pos : 0 < halfOpenMaxRequests.toNat
  successThreshold_pos : 0 < successThreshold.toNat

theorem toNat_ite_pos (n m : UInt32) (hm : 0 < m.toNat) : 0 < (if n = 0 then m else n).toNat := by
  split_ifs with h
  · exact hm
  · exact Nat.pos_of_ne_zero fun h0 => h (UInt32.toNat_inj.1 h0)

/-- The defaulting done by `New`. -/
def Config.settings (c : Config) : Settings where
  maxFailures := if c.maxFailures = 0 then defaultConfig.maxFailures else c.maxFailures
  resetTimeout := if c.resetTimeout = 0 then defaultConfig.resetTimeout else c.resetTimeout
  halfOpenMaxRequests :=
    if c.halfOpenMaxRequests = 0 then defaultConfig.halfOpenMaxRequests else c.halfOpenMaxRequests
  successThreshold :=
    if c.successThreshold = 0 then defaultConfig.successThreshold else c.successThreshold
  maxFailures_pos := toNat_ite_pos _ _ (by decide)
  halfOpenMaxRequests_pos := toNat_ite_pos _ _ (by decide)
  successThreshold_pos := toNat_ite_pos _ _ (by decide)

/-- The atomic fields. -/
structure CircuitBreaker where
  state : State := .closed
  failures : UInt32 := 0
  successes : UInt32 := 0
  requests : UInt32 := 0
  lastFailureTime : ℤ := 0
  deriving DecidableEq, Repr

/-- The next atomic operation of a goroutine. -/
inductive Pc where
  /-- before a call; the first operation of `Execute` is `state := cb.State()` in `canExecute` -/
  | idle
  /-- `canExecute`, open: `atomic.LoadInt64(&cb.lastFailureTime)` -/
  | loadTime
  /-- `canExecute`, open: the clock is read and compared -/
  | checkTime (lastFailure : ℤ)
  /-- `toHalfOpen`: the compare-and-swap -/
  | casHalfOpen
  /-- `toHalfOpen`: `atomic.StoreUint32(&cb.successes, 0)` -/
  | halfOpenSuccesses
  /-- `toHalfOpen`: `atomic.StoreUint32(&cb.requests, 0)` -/
  | halfOpenRequests
  /-- `canExecute`, open: `cb.State() == StateHalfOpen` after a lost compare-and-swap -/
  | recheck
  /-- `canExecute`, half-open: `atomic.AddUint32(&cb.requests, 1)` -/
  | addRequest
  /-- `canExecute`, half-open: `atomic.AddUint32(&cb.requests, ^uint32(0))` -/
  | subRequest
  /-- admitted, `fn` is running -/
  | running
  /-- `recordResult`: `state := cb.State()` -/
  | record (failed : Bool)
  /-- `onFailure`, closed: `atomic.AddUint32(&cb.failures, 1)` -/
  | addFailure
  /-- `toOpen`: the compare-and-swap from closed -/
  | casOpen
  /-- `toOpen`: `atomic.StoreInt64(&cb.lastFailureTime, time.Now().UnixNano())` -/
  | openTime
  /-- `toOpen`: `atomic.StoreUint32(&cb.failures, 0)` -/
  | openFailures
  /-- `toOpen`: the compare-and-swap from half-open -/
  | casReopen
  /-- `onSuccess`, closed: `atomic.StoreUint32(&cb.failures, 0)` -/
  | resetFailures
  /-- `onSuccess`, half-open: `atomic.AddUint32(&cb.successes, 1)` -/
  | addSuccess
  /-- `toClosed`: the compare-and-swap -/
  | casClosed
  /-- `toClosed` and `ForceClosed`: `atomic.StoreUint32(&cb.failures, 0)` -/
  | closedFailures
  /-- `toClosed` and `ForceClosed`: `atomic.StoreUint32(&cb.successes, 0)` -/
  | closedSuccesses
  /-- `toClosed` and `ForceClosed`: `atomic.StoreUint32(&cb.requests, 0)` -/
  | closedRequests
  /-- `ForceOpen`: `atomic.StoreInt64(&cb.lastFailureTime, time.Now().UnixNano())` -/
  | forceTime
  /-- the call has returned -/
  | done
  deriving DecidableEq, Repr

namespace CircuitBreaker

/-- One atomic operation at time `now`, and what comes after it.  A goroutine that has returned, or
runs `fn`, has none. -/
def exec (σ : Settings) (now : ℤ) (cb : CircuitBreaker) : Pc → Option (CircuitBreaker × Pc)
  | .idle =>
    match cb.state with
    | .closed => some (cb, .running)
    | .opened => some (cb, .loadTime)
    | .halfOpen => some (cb, .addRequest)
  | .loadTime => some (cb, .checkTime cb.lastFailureTime)
  | .checkTime lastFailure =>
    if now - lastFailure ≥ σ.resetTimeout then some (cb, .casHalfOpen) else some (cb, .done)
  | .casHalfOpen =>
    if cb.state = .opened then some ({ cb with state := .halfOpen }, .halfOpenSuccesses)
    else some (cb, .recheck)
  | .halfOpenSuccesses => some ({ cb with successes := 0 }, .halfOpenRequests)
  | .halfOpenRequests => some ({ cb with requests := 0 }, .running)
  | .recheck => if cb.state = .halfOpen then some (cb, .running) else some (cb, .done)
  | .addRequest =>
    let requests := cb.requests + 1
    if requests > σ.halfOpenMaxRequests then some ({ cb with requests := requests }, .subRequest)
    else some ({ cb with requests := requests }, .running)
  | .subRequest => some ({ cb with requests := cb.requests - 1 }, .done)
  | .running => none
  | .record true =>
    match cb.state with
    | .closed => some (cb, .addFailure)
    | .opened => some (cb, .done)
    | .halfOpen => some (cb, .casOpen)
  | .record false =>
    match cb.state with
    | .closed => some (cb, .resetFailures)
    | .opened => some (cb, .done)
    | .halfOpen => some (cb, .addSuccess)
  | .addFailure =>
    let failures := cb.failures + 1
    if failures ≥ σ.maxFailures then some ({ cb with failures := failures }, .casOpen)
    else some ({ cb with failures := failures }, .done)
  | .casOpen =>
    if cb.state = .closed then some ({ cb with state := .opened }, .openTime)
    else some (cb, .casReopen)
  | .openTime => some ({ cb with lastFailureTime := now }, .openFailures)
  | .openFailures => some ({ cb with failures := 0 }, .done)
  | .casReopen =>
    if cb.state = .halfOpen then some ({ cb with state := .opened }, .done) else some (cb, .done)
  | .resetFailures => some ({ cb with failures := 0 }, .done)
  | .addSuccess =>
    let successes := cb.successes + 1
    if successes ≥ σ.successThreshold then some ({ cb with successes := successes }, .casClosed)
    else some ({ cb with successes := successes }, .done)
  | .casClosed =>
    if cb.state = .halfOpen then some ({ cb with state := .closed }, .closedFailures)
    else some (cb, .done)
  | .closedFailures => some ({ cb with failures := 0 }, .closedSuccesses)
  | .closedSuccesses => some ({ cb with successes := 0 }, .closedRequests)
  | .closedRequests => some ({ cb with requests := 0 }, .done)
  | .forceTime => some ({ cb with lastFailureTime := now }, .done)
  | .done => none

end CircuitBreaker

/-- The request has been admitted and has not returned. -/
def Pc.inFlight : Pc → Bool
  | .halfOpenSuccesses | .halfOpenRequests | .running | .record _ | .addFailure | .casOpen
  | .openTime | .openFailures | .casReopen | .resetFailures | .addSuccess | .casClosed
  | .closedFailures | .closedSuccesses | .closedRequests => true
  | _ => false

/-- An admission. -/
structure Admission where
  goroutine : ℕ
  time : ℤ
  /-- When the circuit was opened last, unless it was forced to close since. -/
  openedAt : Option ℤ
  /-- How often the circuit had become half-open. -/
  period : ℕ
  deriving DecidableEq, Repr

/-- A breaker and its goroutines. -/
structure Sys where
  cb : CircuitBreaker := {}
  now : ℤ
  pc : ℕ → Pc := fun _ => .idle
  openedAt : Option ℤ := none
  period : ℕ := 0
  admissions : List Admission := []

/-- A step of the system. -/
inductive Act where
  /-- the next atomic operation of a goroutine -/
  | step (i : ℕ)
  /-- `fn` returns -/
  | returned (i : ℕ) (failed : Bool)
  /-- `ForceOpen` begins with `atomic.StoreInt32(&cb.state, int32(StateOpen))` -/
  | forceOpen (i : ℕ)
  /-- `ForceClosed` begins with `atomic.StoreInt32(&cb.state, int32(StateClosed))` -/
  | forceClosed (i : ℕ)
  | tick (d : ℕ)
  deriving DecidableEq, Repr

namespace Sys

variable (σ : Settings) (s : Sys)

/-- Goroutine `i` has left the breaker in `cb` and goes on at `pc`. -/
def move (i : ℕ) (cb : CircuitBreaker) (pc : Pc) : Sys :=
  let period := if s.cb.state ≠ .halfOpen ∧ cb.state = .halfOpen then s.period + 1 else s.period
  { cb := cb
    now := s.now
    pc := Function.update s.pc i pc
    openedAt := if s.cb.state ≠ .opened ∧ cb.state = .opened then some s.now else s.openedAt
    period := period
    admissions :=
      if (s.pc i).inFlight = false ∧ pc.inFlight = true then
        ⟨i, s.now, s.openedAt, period⟩ :: s.admissions
      else s.admissions }

variable {s} in
/-- The goroutine's own program counter or another one's. -/
theorem pc_move {i j : ℕ} {cb : CircuitBreaker} {pc : Pc} :
    (s.move i cb pc).pc j = if j = i then pc else s.pc j := by
  simp only [move, Function.update_apply]

variable {s} in
/-- An admission is new only if the goroutine comes to be in flight. -/
theorem mem_admissions_move {i : ℕ} {cb : CircuitBreaker} {pc : Pc} {a : Admission}
    (h : a ∈ (s.move i cb pc).admissions) :
    a ∈ s.admissions ∨ ((s.pc i).inFlight = false ∧ pc.inFlight = true ∧
      a = ⟨i, s.now, s.openedAt, (s.move i cb pc).period⟩) := by
  by_cases hadm : (s.pc i).inFlight = false ∧ pc.inFlight = true
  · rw [move, if_pos hadm] at h
    obtain h | h := List.mem_cons.1 h
    · exact .inr ⟨hadm.1, hadm.2, h⟩
    · exact .inl h
  · rw [move, if_neg hadm] at h
    exact .inl h

/-- One step, if it is possible. -/
def step : Act → Option Sys
  | .step i => (s.cb.exec σ s.now (s.pc i)).map fun r => s.move i r.1 r.2
  | .returned i failed =>
    if s.pc i = .running then some { s with pc := Function.update s.pc i (.record failed) }
    else none
  | .forceOpen i =>
    if s.pc i = .idle then some (s.move i { s.cb with state := .opened } .forceTime) else none
  | .forceClosed i =>
    if s.pc i = .idle then
      some { s with
        cb := { s.cb with state := .closed }
        pc := Function.update s.pc i .closedFailures
        openedAt := none }
    else none
  | .tick d => some { s with now := s.now + d }

/-- All interleavings on a breaker constructed at some time. -/
def lts : LTS Sys Act where
  init s := ∃ now, s = { now := now }
  step s a s' := s.step σ a = some s'

end Sys

end DbBreaker

end GinRpc
