import GinRpc.DbBreaker.Execute
import GinRpc.DbPool.Pool
import GinRpc.Sql.Conns

/-!
# The pool behind a circuit breaker

Model of `plugins/db/poolcb/pool.go`: a pool of clients, a breaker around `Acquire`, protected
clients that run every operation in the breaker once more, and `SQLPoolWithBreaker`, which acquires
a client, runs the operation of the protected client inside of the breaker, and closes the client.

* `execute` : `CircuitBreaker.Execute` around a function.
* `ProtectedClient` : the methods of an acquired client.
* `SQLPoolWithBreaker` : the methods of the pool.
* `lts` : all sequences of calls, with health checks, reconnections and the passing of time in
  between.

Next to the state of the program, `PoolWithBreaker` keeps the operations that were issued on the
clients, with the results that the breaker has counted for them.  An operation on a closed client
fails.  The function given to `Transaction` of an acquired client makes calls of such clients, and
it may panic; elsewhere it does neither.
-/

namespace GinRpc

namespace PoolCb

open DbBreaker (CircuitBreaker)

variable {Name Key Cfg α : Type*}

structure Settings (Key Cfg : Type*) where
  pool : DbPool.Settings Key Cfg
  breaker : DbBreaker.Settings
  /-- The clients of the configuration are of type `db.SQLClient`. -/
  isSql : Cfg → Bool

inductive Err where
  /-- `ErrCircuitOpen` -/
  | circuitOpen
  /-- `failed to acquire connection` -/
  | acquire
  /-- `client is not SQLClient` -/
  | notSqlClient
  /-- an error of the pool or of a client -/
  | client
  /-- no error: the call has panicked -/
  | panicked
  deriving DecidableEq, Repr

/-- How the database answers an operation. -/
structure Outcome where
  ok : Bool
  /-- in nanoseconds -/
  took : ℕ := 0
  deriving DecidableEq, Repr

/-- An operation that was issued on a client. -/
structure Issued where
  client : ℕ
  /-- The client was open. -/
  onOpen : Bool
  failed : Bool
  /-- The results that the breaker has counted for it. -/
  counted : List Bool := []
  /-- It belongs to a call inside of a transaction that has returned. -/
  sealed : Bool := false
  deriving DecidableEq, Repr

structure PoolWithBreaker (Name Key Cfg : Type*) where
  pool : DbPool.Store Name Key Cfg
  breaker : CircuitBreaker := {}
  /-- in nanoseconds -/
  now : ℤ := 0
  conns : Sql.Conns ℕ := {}
  /-- The number of calls of `Execute` that have been admitted and have not returned. -/
  depth : ℕ := 0
  issued : List Issued := []
  /-- How often `Execute` has been refused inside of an admitted call. -/
  nestedRejections : ℕ := 0
  /-- The clients that `Acquire` has returned. -/
  handles : List ℕ := []
  /-- The calls of `SQLPoolWithBreaker` with an error result, and whether they succeeded. -/
  results : List Bool := []

/-- A call. -/
abbrev Call (Name Key Cfg α : Type*) :=
  PoolWithBreaker Name Key Cfg → PoolWithBreaker Name Key Cfg × Except Err α

/-- Whether a result is an error. -/
def isErr : Except Err α → Bool
  | .error _ => true
  | .ok _ => false

def panicked : Except Err α → Bool
  | .error .panicked => true
  | _ => false

namespace PoolWithBreaker

variable (s : PoolWithBreaker Name Key Cfg)

/-- Time passes. -/
def elapse (d : ℕ) : PoolWithBreaker Name Key Cfg :=
  { s with
    now := s.now + d
    pool := { s.pool with now := (s.now + d) / Duration.second } }

/-- The pool has changed; handles that are closed now have closed their idle connections. -/
def setPool (pool : DbPool.Store Name Key Cfg) : PoolWithBreaker Name Key Cfg :=
  { s with pool := pool, conns := s.conns.closeIdle pool.factory.isOpen }

/-- `client.Close()` -/
def closeClient (client : ℕ) : PoolWithBreaker Name Key Cfg :=
  s.setPool { s.pool with factory := s.pool.factory.close client }

/-- The client is of type `db.SQLClient`. -/
def isSql (σ : Settings Key Cfg) (client : ℕ) : Bool :=
  (s.pool.factory.madeFrom client).any σ.isSql

end PoolWithBreaker

/-- The breaker counts a result for the operations from the `n`-th on. -/
def count (n : ℕ) (failed : Bool) (ops : List Issued) : List Issued :=
  ops.take n ++ (ops.drop n).map fun op =>
    if op.sealed then op else { op with counted := op.counted ++ [failed] }

/-- After `canExecute` has admitted a call. -/
def PoolWithBreaker.admitted (σ : Settings Key Cfg) (s : PoolWithBreaker Name Key Cfg) :
    PoolWithBreaker Name Key Cfg :=
  { s with breaker := (s.breaker.canExecute σ.breaker s.now).1, depth := s.depth + 1 }

/-- `CircuitBreaker.Execute`.  A result that comes when the breaker is open is not counted, and
nothing is recorded if the function panics. -/
def execute (σ : Settings Key Cfg) (fn : Call Name Key Cfg α) : Call Name Key Cfg α := fun s =>
  let r := s.breaker.canExecute σ.breaker s.now
  if r.2 then
    let q := fn (s.admitted σ)
    if panicked q.2 then ({ q.1 with depth := s.depth }, q.2)
    else
      ({ q.1 with
        breaker := q.1.breaker.recordResult σ.breaker q.1.now (isErr q.2)
        depth := s.depth
        issued :=
          if q.1.breaker.state = .opened then q.1.issued
          else count s.issued.length (isErr q.2) q.1.issued }, q.2)
  else
    ({ s with
        breaker := r.1
        nestedRejections :=
          if 0 < s.depth then s.nestedRejections + 1 else s.nestedRejections },
      .error .circuitOpen)

/-! ### Clients -/

inductive Stmt where
  | ping
  | query
  | queryRow
  | exec
  | begin
  | transaction
  deriving DecidableEq, Repr

/-- The result keeps its connection: the rows of `Query`, the row of `QueryRow`, the transaction of
`Begin`. -/
def Stmt.keepsConn : Stmt → Bool
  | .query | .queryRow | .begin => true
  | _ => false

/-- An operation of a client. -/
def issue (stmt : Stmt) (client : ℕ) (o : Outcome) : Call Name Key Cfg Unit := fun s =>
  let isOpen := s.pool.factory.isOpen client
  let s := s.elapse o.took
  if o.ok && isOpen then
    ({ s with
        issued := s.issued ++ [{ client := client, onOpen := isOpen, failed := false }]
        conns := if stmt.keepsConn then s.conns.query client else s.conns.exec client }, .ok ())
  else
    ({ s with issued := s.issued ++ [{ client := client, onOpen := isOpen, failed := true }] },
      .error .client)

namespace ProtectedClient

variable (σ : Settings Key Cfg) (client : ℕ) (o : Outcome)

/-- A method that asks for a `db.SQLClient`. -/
def withSql (call : Call Name Key Cfg Unit) : Call Name Key Cfg Unit := fun s =>
  if s.isSql σ client then call s else (s, .error .notSqlClient)

def ping : Call Name Key Cfg Unit := execute σ (issue .ping client o)

def query : Call Name Key Cfg Unit := withSql σ client (execute σ (issue .query client o))

/-- Outside of the breaker. -/
def queryRow : Call Name Key Cfg Unit := withSql σ client (issue .queryRow client o)

def exec : Call Name Key Cfg Unit := withSql σ client (execute σ (issue .exec client o))

/-- Outside of the breaker. -/
def begin : Call Name Key Cfg Unit := withSql σ client (issue .begin client o)

def transaction : Call Name Key Cfg Unit :=
  withSql σ client (execute σ (issue .transaction client o))

/-- The method of an operation. -/
def call : Stmt → Call Name Key Cfg Unit
  | .ping => ping σ client o
  | .query => query σ client o
  | .queryRow => queryRow σ client o
  | .exec => exec σ client o
  | .begin => begin σ client o
  | .transaction => transaction σ client o

/-- What the function given to `Transaction` does: methods of acquired clients, and a panic -/
structure Fn where
  calls : List (Stmt × ℕ × Outcome) := []
  panics : Bool := false
  deriving DecidableEq, Repr

/-- The calls of the function -/
def runFn (fn : Fn) (s : PoolWithBreaker Name Key Cfg) : PoolWithBreaker Name Key Cfg :=
  let s' := fn.calls.foldl
    (fun s c => if c.2.1 ∈ s.handles then (call σ c.2.1 c.2.2 c.1 s).1 else s) s
  { s' with
    issued := s'.issued.take s.issued.length ++
      (s'.issued.drop s.issued.length).map fun op => { op with sealed := true } }

/-- `Transaction` with a function: it is run if the transaction begins, and its panic is passed on
after the rollback. -/
def transactionOf (fn : Fn) : Call Name Key Cfg Unit :=
  withSql σ client (execute σ fun s =>
    let s := if s.pool.factory.isOpen client then runFn σ fn s else s
    let r := issue .transaction client { o with ok := o.ok && !fn.panics } s
    (r.1, if fn.panics && s.pool.factory.isOpen client then .error .panicked else r.2))

end ProtectedClient

/-! ### The pool -/

section

variable [DecidableEq Name] [DecidableEq Key]

/-- `Pool.Acquire` of one goroutine; without slots, `acquireOrCreate` runs into its timeout. -/
def poolAcquire (σ : DbPool.Settings Key Cfg) (s : DbPool.Store Name Key Cfg) (name : Name)
    (ok : Bool) : Option (DbPool.Store Name Key Cfg × ℕ) :=
  let acquireOrCreate := if σ.maxSize = 0 then none else s.acquireLocked σ name ok
  match s.clients.lookup name with
  | some ptr =>
    if (s.entries ptr).state = .connected then some (s.markUsed ptr, (s.entries ptr).client)
    else acquireOrCreate
  | none => acquireOrCreate

variable (σ : Settings Key Cfg) (name : Name) (ok : Bool) (o : Outcome)

/-- The function that `Acquire` gives to the breaker. -/
def acquireClient : Call Name Key Cfg ℕ := fun s =>
  match poolAcquire σ.pool s.pool name ok with
  | some (pool, client) => (s.setPool pool, .ok client)
  | none => (s, .error .client)

/-- `PoolWithBreaker.Acquire` -/
def acquire : Call Name Key Cfg ℕ := fun s =>
  let r := execute σ (acquireClient σ name ok) s
  (r.1, r.2.mapError fun _ => .acquire)

namespace SQLPoolWithBreaker

/-- Acquire a client, use it, and close it. -/
def withClient (use : ℕ → Call Name Key Cfg Unit) : Call Name Key Cfg Unit := fun s =>
  let r := acquire σ name ok s
  match r.2 with
  | .error e => (r.1, .error e)
  | .ok client =>
    let q := use client r.1
    (q.1.closeClient client, q.2)

def query : Call Name Key Cfg Unit :=
  withClient σ name ok fun client => execute σ (ProtectedClient.query σ client o)

/-- Not in the breaker a second time. -/
def queryRow : Call Name Key Cfg Unit :=
  withClient σ name ok fun client => ProtectedClient.queryRow σ client o

def exec : Call Name Key Cfg Unit :=
  withClient σ name ok fun client => execute σ (ProtectedClient.exec σ client o)

def transaction : Call Name Key Cfg Unit :=
  withClient σ name ok fun client => execute σ (ProtectedClient.transaction σ client o)

end SQLPoolWithBreaker

end

/-! ### Sequences of calls -/

/-- The calls of `SQLPoolWithBreaker` with an error result. -/
inductive SqlStmt where
  | query
  | exec
  | transaction
  deriving DecidableEq, Repr

inductive Act (Name Cfg : Type*) where
  | register (name : Name) (cfg : Cfg) (ok : Bool)
  | unregister (name : Name) (closeErr : Bool)
  /-- the entries in some order, and whether their databases answer -/
  | checkHealth (checks : List (Name × Bool))
  /-- a goroutine of `reconnect` runs -/
  | reconnect (i : ℕ) (ok : Bool)
  | tick (d : ℕ)
  | forceOpen
  | forceClosed
  | acquire (name : Name) (ok : Bool)
  /-- a method of an acquired client -/
  | client (stmt : Stmt) (client : ℕ) (o : Outcome)
  /-- `Transaction` of an acquired client, with a function -/
  | transaction (client : ℕ) (fn : ProtectedClient.Fn) (o : Outcome)
  | closeClient (client : ℕ)
  | sql (stmt : SqlStmt) (name : Name) (ok : Bool) (o : Outcome)
  | sqlRow (name : Name) (ok : Bool) (o : Outcome)
  /-- the caller closes rows -/
  | closeRows (i : ℕ)
  deriving DecidableEq, Repr

section

variable [DecidableEq Name] [DecidableEq Key] (σ : Settings Key Cfg)

def sqlCall (stmt : SqlStmt) (name : Name) (ok : Bool) (o : Outcome) : Call Name Key Cfg Unit :=
  match stmt with
  | .query => SQLPoolWithBreaker.query σ name ok o
  | .exec => SQLPoolWithBreaker.exec σ name ok o
  | .transaction => SQLPoolWithBreaker.transaction σ name ok o

variable (s : PoolWithBreaker Name Key Cfg)

/-- One call, if it is possible. -/
def step : Act Name Cfg → Option (PoolWithBreaker Name Key Cfg)
  | .register name cfg ok => some (s.setPool (s.pool.register σ.pool name cfg ok))
  | .unregister name closeErr => some (s.setPool (s.pool.unregister name closeErr))
  | .checkHealth checks =>
    if (checks.map Prod.fst).Perm s.pool.clients.keys then
      some (s.setPool (checks.foldl
        (fun p c => p.checkEntry σ.pool s.pool.now c.1 c.2) s.pool))
    else none
  | .reconnect i ok =>
    match s.pool.reconnects[i]? with
    | some (name, cfg) =>
      some (s.setPool { s.pool.reconnect σ.pool name cfg ok with
        reconnects := s.pool.reconnects.eraseIdx i })
    | none => none
  | .tick d => some (s.elapse d)
  | .forceOpen =>
    some { s with breaker := { s.breaker with state := .opened, lastFailureTime := s.now } }
  | .forceClosed =>
    some { s with
      breaker := { s.breaker with state := .closed, failures := 0, successes := 0, requests := 0 } }
  | .acquire name ok =>
    let r := acquire σ name ok s
    match r.2 with
    | .ok client => some { r.1 with handles := client :: r.1.handles }
    | .error _ => some r.1
  | .client stmt client o =>
    if client ∈ s.handles then some (ProtectedClient.call σ client o stmt s).1 else none
  | .transaction client fn o =>
    if client ∈ s.handles then some (ProtectedClient.transactionOf σ client o fn s).1 else none
  | .closeClient client => if client ∈ s.handles then some (s.closeClient client) else none
  | .sql stmt name ok o =>
    let r := sqlCall σ stmt name ok o s
    some { r.1 with results := (!isErr r.2) :: r.1.results }
  | .sqlRow name ok o => some (SQLPoolWithBreaker.queryRow σ name ok o s).1
  | .closeRows i => some { s with conns := s.conns.closeRows s.pool.factory.isOpen i }

/-- The calls that concern the pool only. -/
def Act.onPool : Act Name Cfg → Bool
  | .register _ _ _ | .unregister _ _ | .checkHealth _ | .reconnect _ _ | .closeClient _ => true
  | _ => false

variable {σ s} in
theorem exists_setPool {s' : PoolWithBreaker Name Key Cfg} {a : Act Name Cfg}
    (ha : a.onPool = true) (h : step σ s a = some s') : ∃ pool, s' = s.setPool pool := by
  cases a with
  | register name cfg ok => exact ⟨_, (Option.some.inj h).symm⟩
  | unregister name closeErr => exact ⟨_, (Option.some.inj h).symm⟩
  | checkHealth checks =>
    simp only [step] at h
    split_ifs at h
    exact ⟨_, (Option.some.inj h).symm⟩
  | reconnect i ok =>
    simp only [step] at h
    cases hi : s.pool.reconnects[i]? with
    | none =>
      rw [hi] at h
      cases h
    | some r =>
      rw [hi] at h
      exact ⟨_, (Option.some.inj h).symm⟩
  | closeClient client =>
    simp only [step] at h
    split_ifs at h
    exact ⟨_, (Option.some.inj h).symm⟩
  | _ => cases ha

/-- A new pool. -/
def init : PoolWithBreaker Name Key Cfg where
  pool := { entries := fun _ => ⟨0, σ.pool.fallback, .disconnected, 0, 0⟩ }

/-- All sequences of calls on a new pool. -/
def lts : LTS (PoolWithBreaker Name Key Cfg) (Act Name Cfg) where
  init s := s = init σ
  step s a s' := step σ s a = some s'

end

end PoolCb

end GinRpc
