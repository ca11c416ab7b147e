import GinRpc.DbBreaker.Basic

/-!
# A call of the breaker that nobody interrupts

`canExecute` and `recordResult` of one goroutine while no other one uses the breaker: the atomic
operations of `CircuitBreaker.exec` one after another.

* `solo` : these operations; no call has more than six of them.
* `canExecute_closed`, `canExecute_state`, `recordResult_closed` : what callers need to know.
-/

namespace GinRpc

namespace DbBreaker

namespace CircuitBreaker

variable (σ : Settings) (now : ℤ)

/-- The operations from a place on, until `fn` is to be run or the call has returned. -/
def solo : ℕ → CircuitBreaker → Pc → CircuitBreaker × Pc
  | 0, cb, pc => (cb, pc)
  | n + 1, cb, pc =>
    match cb.exec σ now pc with
    | none => (cb, pc)
    | some r => solo n r.1 r.2

/-- `canExecute`, and whether it returns no error. -/
def canExecute (cb : CircuitBreaker) : CircuitBreaker × Bool :=
  let r := solo σ now 6 cb .idle
  (r.1, decide (r.2 = .running))

/-- `recordResult` -/
def recordResult (cb : CircuitBreaker) (failed : Bool) : CircuitBreaker :=
  (solo σ now 6 cb (.record failed)).1

variable {σ now} {cb : CircuitBreaker}

attribute [local simp] solo exec

/-- A closed breaker admits and stays as it is. -/
theorem canExecute_closed (hs : cb.state = .closed) : cb.canExecute σ now = (cb, true) := by
  simp [canExecute, hs]

/-- After an admission the breaker is not open. -/
theorem canExecute_state (h : (cb.canExecute σ now).2 = true) :
    (cb.canExecute σ now).1.state ≠ .opened := by
  cases hs : cb.state with
  | closed => simp [canExecute_closed hs, hs]
  | opened =>
    by_cases ht : now - cb.lastFailureTime ≥ σ.resetTimeout
    · simp [canExecute, hs, ht]
    · simp [canExecute, hs, ht] at h
  | halfOpen =>
    by_cases hr : cb.requests + 1 > σ.halfOpenMaxRequests
    · simp [canExecute, hs, hr] at h
    · simp [canExecute, hs, hr]

/-- A success keeps a closed breaker closed. -/
theorem recordResult_closed (hs : cb.state = .closed) :
    (cb.recordResult σ now false).state = .closed := by
  simp [recordResult, hs]

end CircuitBreaker

end DbBreaker

end GinRpc
