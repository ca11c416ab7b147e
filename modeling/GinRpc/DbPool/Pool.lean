import GinRpc.Data.AList
import GinRpc.Data.Duration

/-!
# The database pool

Model of `plugins/db/pool/pool.go` and of `Factory.Create` in `plugins/db/factory.go`.

The factory keeps every client that it has made under a key computed from its configuration, and
answers with the same client when it is asked again, closed or not.  The pool has a map of names to
entries; an entry (`PooledClient`) is shared by reference, so that a goroutine in `Acquire` may hold
one that has left the map.

`Store` is the factory, the map, the entries, and what is left to the goroutines of `reconnect`.
Its functions are the bodies of the methods under the pool's mutex.

`Close` of a client closes it, also if it returns an error, and a closed client does not answer
`Ping`.  Times are in seconds, durations in nanoseconds.  Statistics are left out.
-/

namespace GinRpc

namespace DbPool

variable {Name Key Cfg : Type*}

inductive State where
  | disconnected
  | connecting
  | connected
  | failed
  deriving DecidableEq, Repr

/-- An entry of the pool. -/
structure PooledClient (Cfg : Type*) where
  client : ℕ
  config : Cfg
  state : State := .connected
  /-- Unix time in seconds. -/
  lastUsed : ℤ
  failCount : ℤ := 0
  deriving DecidableEq, Repr

structure Config where
  maxSize : ℕ
  maxIdleTime : ℤ
  maxFailures : ℤ
  deriving DecidableEq, Repr

/-- A pool's configuration and its environment. -/
structure Settings (Key Cfg : Type*) extends Config where
  /-- The key of a configuration in the factory, `createKey`. -/
  key : Cfg → Key
  /-- `db.Config{Type: db.TypeMySQL}` -/
  fallback : Cfg

/-! ### The factory -/

/-- A factory.  Clients are numbered as they are made. -/
structure Factory (Key Cfg : Type*) where
  clients : AList fun _ : Key => ℕ := ∅
  count : ℕ := 0
  madeFrom : ℕ → Option Cfg := fun _ => none
  isOpen : ℕ → Bool := fun _ => false

namespace Factory

variable [DecidableEq Key] (f : Factory Key Cfg)

/-- `Create`, where `ok` says whether a new client can be made. -/
def create (key : Cfg → Key) (cfg : Cfg) (ok : Bool) : Option (Factory Key Cfg × ℕ) :=
  match f.clients.lookup (key cfg) with
  | some client => some (f, client)
  | none =>
    if ok then
      some
        ({ clients := f.clients.insert (key cfg) f.count
           count := f.count + 1
           madeFrom := Function.update f.madeFrom f.count (some cfg)
           isOpen := Function.update f.isOpen f.count true }, f.count)
    else none

omit [DecidableEq Key] in
/-- `client.Close()` -/
def close (client : ℕ) : Factory Key Cfg :=
  { f with isOpen := Function.update f.isOpen client false }

end Factory

/-! ### The store -/

structure Store (Name Key Cfg : Type*) where
  factory : Factory Key Cfg := {}
  /-- `p.clients` -/
  clients : AList fun _ : Name => ℕ := ∅
  entries : ℕ → PooledClient Cfg
  /-- The number of entries. -/
  size : ℕ := 0
  /-- The goroutines that were started with `go p.reconnect(name, cfg)` and have not run. -/
  reconnects : List (Name × Cfg) := []
  now : ℤ := 0
  /-- The configuration of the last successful `Register`, unless the name was unregistered. -/
  registered : Name → Option Cfg := fun _ => none

namespace Store

variable [DecidableEq Name] [DecidableEq Key] (σ : Settings Key Cfg) (s : Store Name Key Cfg)

omit [DecidableEq Name] [DecidableEq Key] in
/-- Write to an entry. -/
def modify (ptr : ℕ) (f : PooledClient Cfg → PooledClient Cfg) : Store Name Key Cfg :=
  { s with entries := Function.update s.entries ptr (f (s.entries ptr)) }

omit [DecidableEq Name] [DecidableEq Key] in
/-- Close the client of an entry. -/
def closeEntry (ptr : ℕ) : Store Name Key Cfg :=
  { s with factory := s.factory.close (s.entries ptr).client }

omit [DecidableEq Key] in
/-- A new entry for a name. -/
def install (name : Name) (cfg : Cfg) (client : ℕ) : Store Name Key Cfg :=
  { s with
    clients := s.clients.insert name s.size
    entries := Function.update s.entries s.size
      { client := client, config := cfg, lastUsed := s.now }
    size := s.size + 1 }

/-- `Register` -/
def register (name : Name) (cfg : Cfg) (ok : Bool) : Store Name Key Cfg :=
  if name ∈ s.clients then s
  else
    match s.factory.create σ.key cfg ok with
    | none => s
    | some (factory, client) =>
      { ({ s with factory := factory } : Store Name Key Cfg).install name cfg client with
        registered := Function.update s.registered name (some cfg) }

omit [DecidableEq Key] in
/-- `Unregister`, where `closeErr` says whether `Close` returns an error. -/
def unregister (name : Name) (closeErr : Bool) : Store Name Key Cfg :=
  match s.clients.lookup name with
  | none => s
  | some ptr =>
    let s := s.closeEntry ptr
    if closeErr then s
    else
      { s with
        clients := s.clients.erase name
        registered := Function.update s.registered name none }

/-- `createClientLocked` -/
def createClientLocked (name : Name) (ok : Bool) : Option (Store Name Key Cfg × ℕ) :=
  match s.factory.create σ.key σ.fallback ok with
  | none => none
  | some (factory, client) =>
    some (({ s with factory := factory } : Store Name Key Cfg).install name σ.fallback client,
      client)

omit [DecidableEq Name] [DecidableEq Key] in
/-- `markUsed` -/
def markUsed (ptr : ℕ) : Store Name Key Cfg :=
  s.modify ptr fun e => { e with lastUsed := s.now, failCount := 0 }

/-- The part of `acquireOrCreate` under the mutex. -/
def acquireLocked (name : Name) (ok : Bool) : Option (Store Name Key Cfg × ℕ) :=
  match s.clients.lookup name with
  | some ptr =>
    if (s.entries ptr).state = .connected then some (s.markUsed ptr, (s.entries ptr).client)
    else s.createClientLocked σ name ok
  | none => s.createClientLocked σ name ok

omit [DecidableEq Key] in
/-- The body of the loop of a `checkHealth` that began at `now`, where `alive` says whether the
database answers. -/
def checkEntry (now : ℤ) (name : Name) (alive : Bool) : Store Name Key Cfg :=
  match s.clients.lookup name with
  | none => s
  | some ptr =>
    let e := s.entries ptr
    if Duration.wrap ((now - e.lastUsed) * Duration.second) > σ.maxIdleTime then
      (s.closeEntry ptr).modify ptr fun e => { e with state := .disconnected }
    else if (alive && s.factory.isOpen e.client) = false then
      -- `markFailed`
      let s := s.modify ptr fun e => { e with failCount := e.failCount + 1 }
      if e.failCount + 1 ≥ σ.maxFailures then
        { (s.closeEntry ptr).modify ptr fun e => { e with state := .failed } with
          reconnects := s.reconnects ++ [(name, e.config)] }
      else s
    else s.modify ptr fun e => { e with state := .connected, failCount := 0 }

/-- `reconnect` -/
def reconnect (name : Name) (cfg : Cfg) (ok : Bool) : Store Name Key Cfg :=
  match s.clients.lookup name with
  | none => s
  | some ptr =>
    if (s.entries ptr).state ≠ .failed then s
    else
      match s.factory.create σ.key cfg ok with
      -- the state was `connecting` meanwhile
      | none => s
      | some (factory, client) =>
        (({ s with factory := factory } : Store Name Key Cfg).closeEntry ptr).modify ptr fun e =>
          { e with client := client, lastUsed := s.now, state := .connected, failCount := 0 }

end Store

end DbPool

end GinRpc
