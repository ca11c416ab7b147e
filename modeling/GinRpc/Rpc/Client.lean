import GinRpc.Data.AList
import GinRpc.LTS.Basic
import GinRpc.Text.Basic

/-!
# The RPC clients

Model of `GRPCClient` and `JSONRPCClient` in `plugins/rpc/client.go`: how they find a target, how
often they transmit a call, and what they remember about targets that fail.  Calls of one client
follow each other.

What comes from outside is an argument of a call: the answers of the discovery, the results of the
transmissions, and the time that passes, sleeping between attempts included.  `Client.log` has every
transmission.  One `Invoke` of a connection and one `Do` of the HTTP client are one transmission;
what gRPC and `net/http` do below that (redirects, for example) is left out, as are authentication,
the observer and the log.
-/

namespace GinRpc

namespace RpcClient

/-! ### Configuration -/

inductive ClientType where
  | grpc
  | jsonrpc
  deriving DecidableEq, Repr

/-- The errors that a retry looks at: gRPC status codes, and errors without one. -/
inductive Code where
  | unavailable
  | deadlineExceeded
  | resourceExhausted
  | aborted
  | other
  | plain
  deriving DecidableEq, Repr

/-- Times are in nanoseconds. -/
structure ClientConfig where
  type : ClientType
  host : Text
  port : ℤ
  enableTLS : Bool
  serviceName : Text
  /-- a discovery resolver was set -/
  discovery : Bool
  loadBalance : Text
  retryCount : ℤ
  idempotentMethods : List Text
  maxRetryElapsedTime : ℤ
  discoveryCacheTTL : ℤ
  failoverThreshold : ℤ
  failoverCooldown : ℤ

namespace ClientConfig

variable (cfg : ClientConfig)

def attempts : ℕ := if cfg.retryCount ≤ 0 then 1 else cfg.retryCount.toNat

def threshold : ℕ := if cfg.failoverThreshold ≤ 0 then 3 else cfg.failoverThreshold.toNat

def cooldown : ℤ := if cfg.failoverCooldown ≤ 0 then 30 * 10 ^ 9 else cfg.failoverCooldown

def cacheTTL : ℤ := if cfg.discoveryCacheTTL ≤ 0 then 5 * 10 ^ 9 else cfg.discoveryCacheTTL

/-- `isIdempotentMethod` -/
def isIdempotentMethod (method : Text) : Bool :=
  cfg.idempotentMethods.isEmpty || cfg.idempotentMethods.any fun candidate => candidate = method

/-- `shouldRetryGRPC` for an error -/
def shouldRetryGRPC (method : Text) (e : Code) : Bool :=
  cfg.isIdempotentMethod method && match e with
    | .plain | .unavailable | .deadlineExceeded | .resourceExhausted | .aborted => true
    | .other => false

end ClientConfig

/-- `fmt.Sprintf("%s:%d", address, port)` -/
def hostPort (address : Text) (port : ℤ) : Text := address ++ ':' :: Text.itoa port

/-- `URL.Host` of a base URL -/
def urlHost (url : Text) : Text :=
  let rest : Text :=
    if ("https://" : Text).isPrefixOf url then url.drop 8
    else if ("http://" : Text).isPrefixOf url then url.drop 7 else url
  rest.takeWhile fun c => c ≠ '/' ∧ c ≠ '?' ∧ c ≠ '#'

/-! ### The state -/

/-- `targetHealthState`; the zero time is `none`. -/
structure TargetHealth where
  failures : ℕ
  ejectedUntil : Option ℤ
  deriving DecidableEq, Repr

/-- One transmission -/
structure Use where
  target : Text
  /-- the targets that were discovered last -/
  discovered : List Text
  began : ℤ
  /-- `selectHealthyTarget` has chosen the target for this transmission -/
  filtered : Bool
  ok : Bool
  ended : ℤ
  /-- the name under which the outcome is recorded -/
  recordedAs : Text
  deriving DecidableEq, Repr

structure Client where
  now : ℤ := 0
  failover : AList fun _ : Text => TargetHealth := ∅
  cached : List Text := []
  expiresAt : ℤ := 0
  counter : ℕ := 0
  /-- the target of the gRPC connection -/
  conn : Option Text := none
  baseURL : Text
  discovered : List Text := []
  log : List Use := []

/-- What happens during one attempt. -/
structure Attempt where
  /-- the time that passes before the attempt -/
  wait : ℕ := 0
  /-- the random number of the target selector -/
  pick : ℕ := 0
  /-- what the discovery answers, as addresses and ports -/
  instances : Except Code (List (Text × ℤ)) := .ok []
  /-- the error of `grpc.NewClient` -/
  dial : Option Code := none
  /-- the error of the transmission -/
  outcome : Option Code := none
  /-- the time that the transmission takes -/
  took : ℕ := 0

/-- What happens during a call. -/
structure CallInput where
  /-- the rate limiter allows it -/
  allowed : Bool := true
  /-- the degradation manager allows it -/
  permitted : Bool := true
  /-- the fallback of the method, if there is one, returns `nil` -/
  fallback : Option Bool := none
  /-- the response can be decoded and holds no error -/
  decodes : Bool := true
  attempt : ℕ → Attempt

namespace Client

/-- `NewGRPCClient`, `NewJSONRPCClient` -/
def newClient (cfg : ClientConfig) : Client where
  baseURL := (if cfg.enableTLS then "https://" else "http://" : Text) ++ hostPort cfg.host cfg.port

variable (cfg : ClientConfig) (c : Client)

/-! ### Targets -/

/-- `Select` -/
def select (pick : ℕ) (targets : List Text) : Option (Text × Client) :=
  if cfg.loadBalance = ("random" : Text) then
    (targets[pick % targets.length]?).map fun target => (target, c)
  else
    (targets[c.counter % targets.length]?).map fun target =>
      (target, { c with counter := (c.counter + 1) % 2 ^ 64 })

/-- `getCachedTarget` -/
def getCachedTarget (pick : ℕ) : Option (Text × Client) :=
  if c.cached.isEmpty || c.expiresAt < c.now then none else c.select cfg pick c.cached

/-- `storeTargets` -/
def storeTargets (targets : List Text) : Client :=
  { c with cached := targets, expiresAt := c.now + cfg.cacheTTL, discovered := targets }

/-- `invalidateTargets` -/
def invalidateTargets : Client := { c with cached := [], expiresAt := 0 }

/-- The target is ejected. -/
def ejected (target : Text) : Bool :=
  match c.failover.lookup target with
  | some ⟨_, some until_⟩ => c.now < until_
  | _ => false

/-- `filterAvailable` -/
def filterAvailable (targets : List Text) : List Text := targets.filter fun t => !c.ejected t

/-- `selectHealthyTarget` -/
def selectHealthyTarget (pick : ℕ) (targets : List Text) : Option (Text × Client) :=
  let filtered := c.filterAvailable targets
  c.select cfg pick (if filtered.isEmpty then targets else filtered)

/-- `recordTargetSuccess` -/
def recordSuccess (target : Text) : Client :=
  if target = [] then c else { c with failover := c.failover.erase target }

/-- `recordTargetFailure` -/
def recordFailure (target : Text) : Client :=
  if target = [] then c
  else
    let state := (c.failover.lookup target).getD ⟨0, none⟩
    let state : TargetHealth :=
      if cfg.threshold ≤ state.failures + 1 then ⟨0, some (c.now + cfg.cooldown)⟩
      else ⟨state.failures + 1, state.ejectedUntil⟩
    { c with failover := c.failover.insert target state }

/-- The target of a call, and whether `selectHealthyTarget` has chosen it: a cached one, one that is
discovered, or the static one. -/
def resolve (a : Attempt) (format : Text × ℤ → Text) (static : Text) :
    Client × Except Code (Text × Bool) :=
  match c.getCachedTarget cfg a.pick with
  | some (target, c₁) => (c₁, .ok (target, false))
  | none =>
    if !cfg.discovery || cfg.serviceName.isEmpty then (c, .ok (static, true))
    else match a.instances with
      | .error e => (c, .error e)
      | .ok [] => (c, .error .plain)
      | .ok (i :: rest) =>
        let targets := (i :: rest).map format
        let c₁ := c.storeTargets cfg targets
        match c₁.selectHealthyTarget cfg a.pick targets with
        | some (target, c₂) => (c₂, .ok (target, true))
        | none => (c₁, .error .plain)

def use (target : Text) (filtered : Bool) (recordedAs : Text) (a : Attempt) : Use where
  target := target
  discovered := c.discovered
  began := c.now
  filtered := filtered
  ok := a.outcome.isNone
  ended := c.now + a.took
  recordedAs := recordedAs

/-- A transmission, and the record of its outcome -/
def transmit (target : Text) (filtered : Bool) (recordedAs : Text) (a : Attempt) : Client :=
  let c₁ := { c with
    now := c.now + a.took
    log := c.log ++ [c.use target filtered recordedAs a] }
  if a.outcome.isNone then c₁.recordSuccess recordedAs else c₁.recordFailure cfg recordedAs

/-! ### gRPC -/

/-- `Connect` -/
def connect (a : Attempt) : Client × Except Code (Text × Bool) :=
  match c.resolve cfg a (fun i => hostPort i.1 i.2) (hostPort cfg.host cfg.port) with
  | (c₁, .error e) => (c₁, .error e)
  | (c₁, .ok (target, filtered)) =>
    match a.dial with
    | some e => (c₁.invalidateTargets, .error e)
    | none => ({ c₁ with conn := some target }, .ok (target, filtered))

/-- The connection of an attempt, with the name under which its outcome is recorded: an old
connection has none. -/
def connection (a : Attempt) : Client × Except Code (Text × Bool × Text) :=
  match c.conn with
  | some target => (c, .ok (target, false, []))
  | none =>
    match c.connect cfg a with
    | (c₁, .error e) => (c₁, .error e)
    | (c₁, .ok (target, filtered)) => (c₁, .ok (target, filtered, target))

/-- One attempt of `Invoke`, and its error -/
def invokeOnce (a : Attempt) : Client × Option Code :=
  match c.connection cfg a with
  | (c₁, .error e) => (c₁, some e)
  | (c₁, .ok (target, filtered, recordedAs)) =>
    (c₁.transmit cfg target filtered recordedAs a, a.outcome)

/-- The connection is closed and the cache is emptied before a retry. -/
def reset : Client := { c.invalidateTargets with conn := none }

/-- The loop of `Invoke`, with the attempts that are left and the last error -/
def invokeLoop (method : Text) (start : ℤ) (attempt : ℕ → Attempt) :
    ℕ → ℕ → Client → Option Code → Client × Option Code
  | 0, _, c, lastErr => (c, lastErr)
  | n + 1, k, c, lastErr =>
    let c₁ := { c with now := c.now + (attempt k).wait }
    if 0 < cfg.maxRetryElapsedTime ∧ cfg.maxRetryElapsedTime ≤ c₁.now - start then (c₁, lastErr)
    else
      match c₁.invokeOnce cfg (attempt k) with
      | (c₂, none) => (c₂, none)
      | (c₂, some e) =>
        if cfg.shouldRetryGRPC method e then
          invokeLoop method start attempt n (k + 1) c₂.reset (some e)
        else (c₂, some e)

/-- `Invoke` -/
def invoke (method : Text) (attempt : ℕ → Attempt) : Client × Option Code :=
  invokeLoop cfg method c.now attempt cfg.attempts 0 c none

/-! ### JSON-RPC -/

/-- `refreshJSONRPCBaseURL` -/
def refreshBaseURL (a : Attempt) : Client × Except Code Bool :=
  let scheme : Text := if cfg.enableTLS then "https" else "http"
  match c.resolve cfg a (fun i => scheme ++ ("://" : Text) ++ hostPort i.1 i.2) c.baseURL with
  | (c₁, .error e) => (c₁, .error e)
  | (c₁, .ok (target, filtered)) => ({ c₁ with baseURL := target }, .ok filtered)

/-- The loop of `doJSONRPCRequestWithRetry`, with the attempts that are left and the last error -/
def requestLoop (url : Text) (filtered : Bool) (attempt : ℕ → Attempt) :
    ℕ → ℕ → Client → Option Code → Client × Option Code
  | 0, _, c, lastErr => (c, lastErr)
  | n + 1, k, c, _ =>
    let c₁ := c.transmit cfg url (filtered && k = 0) (urlHost url) (attempt k)
    match (attempt k).outcome with
    | none => (c₁, none)
    | some e =>
      let c₂ := { c₁.invalidateTargets with now := c₁.now + (attempt (k + 1)).wait }
      requestLoop url filtered attempt n (k + 1) c₂ (some e)

/-- `doJSONRPCRequestWithRetry` after `refreshJSONRPCBaseURL`; the error, if there is one -/
def request (attempt : ℕ → Attempt) : Client × Option Code :=
  match c.refreshBaseURL cfg (attempt 0) with
  | (c₁, .error e) => (c₁, some e)
  | (c₁, .ok filtered) =>
    requestLoop cfg c₁.baseURL filtered attempt cfg.attempts 0 c₁ none

/-! ### Calls -/

/-- `Call`, and whether it returns `nil` -/
def call (method : Text) (inp : CallInput) : Client × Bool :=
  if !inp.allowed then (c, false)
  else
    match cfg.type with
    | .grpc =>
      if !inp.permitted then (c, false)
      else
        let r := c.invoke cfg method inp.attempt
        (r.1, r.2.isNone)
    | .jsonrpc =>
      if !inp.permitted then (c, inp.fallback = some true)
      else
        let r := c.request cfg inp.attempt
        (r.1, r.2.isNone && inp.decodes)

end Client

inductive Act where
  | call (method : Text) (inp : CallInput)
  | wait (d : ℕ)

namespace Client

def step (cfg : ClientConfig) (c : Client) : Act → Client
  | .call method inp => (c.call cfg method inp).1
  | .wait d => { c with now := c.now + d }

def lts (cfg : ClientConfig) : LTS Client Act where
  init c := c = newClient cfg
  step c a c' := c.step cfg a = c'

/-! ### What a search for a target changes -/

section Frames

variable {cfg : ClientConfig} {c c' : Client} {pick : ℕ} {targets : List Text} {target : Text}

theorem select_spec (h : c.select cfg pick targets = some (target, c')) :
    target ∈ targets ∧ ∃ n, c' = { c with counter := n } := by
  unfold select at h
  split_ifs at h
  · obtain ⟨t, ht, heq⟩ := Option.map_eq_some_iff.1 h
    cases heq
    exact ⟨List.mem_of_getElem? ht, _, rfl⟩
  · obtain ⟨t, ht, heq⟩ := Option.map_eq_some_iff.1 h
    cases heq
    exact ⟨List.mem_of_getElem? ht, _, rfl⟩

theorem getCachedTarget_spec (h : c.getCachedTarget cfg pick = some (target, c')) :
    ∃ n, c' = { c with counter := n } := by
  unfold getCachedTarget at h
  split_ifs at h
  exact (select_spec h).2

end Frames

end Client

end RpcClient

end GinRpc
