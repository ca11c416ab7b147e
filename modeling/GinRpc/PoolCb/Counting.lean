import GinRpc.PoolCb.Basic

/-!
# What the breaker counts

Every operation on the database should be counted once by the breaker that guards it, as a success
or as a failure, and be admitted by it once.

* `Counted.execute` : an operation that runs in one call of `Execute` is counted once.
* `counted_once` : so are all operations of protected clients, except `QueryRow`, `Begin`, and
  `Transaction` with a function that panics or makes calls through the breaker.
* `counted_twice` : `SQLPoolWithBreaker.Query` runs the method of a protected client inside of
  `Execute`, so that its operation is counted twice, and refused if half-open admits only one.
-/

namespace GinRpc

namespace PoolCb

variable {Name Key Cfg α : Type*} {σ : Settings Key Cfg} {s : PoolWithBreaker Name Key Cfg}

/-- The operations of all calls that have returned are counted. -/
structure Counted (s : PoolWithBreaker Name Key Cfg) : Prop where
  issued : ∀ op ∈ s.issued, op.counted = [op.failed]
  nested : s.nestedRejections = 0
  depth : s.depth = 0

/-- A function does not use the breaker, and its operations fail if it does. -/
structure Unguarded (fn : Call Name Key Cfg α) (s : PoolWithBreaker Name Key Cfg) : Prop where
  breaker : (fn s).1.breaker = s.breaker
  nested : (fn s).1.nestedRejections = s.nestedRejections
  returns : panicked (fn s).2 = false
  issued : ∃ ops, (fn s).1.issued = s.issued ++ ops ∧
    ∀ op ∈ ops, op.counted = [] ∧ op.failed = isErr (fn s).2 ∧ op.sealed = false

theorem count_append {failed : Bool} {l l' : List Issued} :
    count l.length failed (l ++ l') =
      l ++ l'.map fun op =>
        if op.sealed then op else { op with counted := op.counted ++ [failed] } := by
  rw [count, List.take_left, List.drop_left]

/-- Around a function that does not use the breaker, `Execute` counts its operations. -/
theorem Counted.execute {fn : Call Name Key Cfg α} (h : Counted s)
    (hfn : ∀ s, Unguarded fn s) : Counted (execute σ fn s).1 := by
  unfold PoolCb.execute
  dsimp only
  split_ifs with hadm hpanic hopened
  · rw [(hfn _).returns] at hpanic
    cases hpanic
  · -- the breaker was not open when it admitted the call
    rw [(hfn _).breaker] at hopened
    exact absurd hopened (DbBreaker.CircuitBreaker.canExecute_state hadm)
  · obtain ⟨ops, hops, hres⟩ := (hfn (s.admitted σ)).issued
    refine ⟨fun op hop => ?_, (hfn _).nested.trans h.nested, h.depth⟩
    change (fn (s.admitted σ)).1.issued = s.issued ++ ops at hops
    dsimp only at hop
    rw [hops, count_append] at hop
    rcases List.mem_append.1 hop with hop | hop
    · exact h.issued op hop
    · obtain ⟨op', hop', rfl⟩ := List.mem_map.1 hop
      obtain ⟨hcounted, hfailed, hsealed⟩ := hres op' hop'
      rw [hsealed, if_neg Bool.false_ne_true]
      dsimp only
      rw [hcounted, List.nil_append, hfailed]
  · rename_i hpos
    rw [h.depth] at hpos
    exact absurd hpos (lt_irrefl 0)
  · exact ⟨h.issued, h.nested, h.depth⟩

theorem unguarded_issue {stmt : Stmt} {client : ℕ} {o : Outcome} :
    Unguarded (issue stmt client o) s := by
  unfold issue
  constructor
  · dsimp only
    split_ifs <;> rfl
  · dsimp only
    split_ifs <;> rfl
  · dsimp only
    split_ifs <;> rfl
  · dsimp only
    split_ifs
    all_goals
      refine ⟨_, rfl, fun op hop => ?_⟩
      obtain rfl := List.mem_singleton.1 hop
      exact ⟨rfl, rfl, rfl⟩

theorem Counted.setPool {pool : DbPool.Store Name Key Cfg} (h : Counted s) :
    Counted (s.setPool pool) :=
  ⟨h.issued, h.nested, h.depth⟩

theorem Counted.call {stmt : Stmt} {client : ℕ} {o : Outcome} (h : Counted s)
    (hrow : stmt ≠ .queryRow) (hbegin : stmt ≠ .begin) :
    Counted (ProtectedClient.call σ client o stmt s).1 := by
  have hissue : ∀ stmt, Counted (PoolCb.execute σ (issue stmt client o) s).1 :=
    fun stmt => h.execute fun _ => unguarded_issue
  cases stmt with
  | ping => exact hissue .ping
  | queryRow => exact absurd rfl hrow
  | begin => exact absurd rfl hbegin
  | query | exec | transaction =>
    simp only [ProtectedClient.call, ProtectedClient.query, ProtectedClient.exec,
      ProtectedClient.transaction, ProtectedClient.withSql]
    split_ifs
    · exact hissue _
    · exact h

/-- A function that does nothing -/
theorem transactionOf_empty {client : ℕ} {o : Outcome} :
    ProtectedClient.transactionOf σ client o {} s =
      ProtectedClient.call σ client o .transaction s := by
  have hrun (s : PoolWithBreaker Name Key Cfg) : ProtectedClient.runFn σ {} s = s := by
    simp [ProtectedClient.runFn]
  simp only [ProtectedClient.transactionOf, ProtectedClient.call, ProtectedClient.transaction,
    hrun, ite_self, Bool.not_false, Bool.and_true, Bool.false_and, Bool.false_eq_true, if_false]

section

variable [DecidableEq Name] [DecidableEq Key]

theorem unguarded_acquireClient {name : Name} {ok : Bool} :
    Unguarded (acquireClient σ name ok) s := by
  unfold acquireClient
  cases hp : poolAcquire σ.pool s.pool name ok with
  | none =>
    constructor
    · rw [hp]
    · rw [hp]
    · rw [hp]
      rfl
    · exact ⟨[], by rw [hp, List.append_nil], fun op hop => by cases hop⟩
  | some r =>
    constructor
    · rw [hp]
      rfl
    · rw [hp]
      rfl
    · rw [hp]
      rfl
    · refine ⟨[], ?_, fun op hop => by cases hop⟩
      rw [hp, List.append_nil]
      rfl

theorem Counted.acquire {name : Name} {ok : Bool} (h : Counted s) :
    Counted (acquire σ name ok s).1 :=
  h.execute fun _ => unguarded_acquireClient

/-- The sequences of calls on protected clients, with operations that are in the breaker. -/
def Direct (_ : PoolWithBreaker Name Key Cfg) : Act Name Cfg → Prop
  | .client stmt _ _ => stmt ≠ .queryRow ∧ stmt ≠ .begin
  | .transaction _ fn _ => fn = {}
  | .sql _ _ _ _ | .sqlRow _ _ _ => False
  | _ => True

theorem Counted.step {s' : PoolWithBreaker Name Key Cfg} {a : Act Name Cfg} (h : Counted s)
    (hok : Direct s a) (hst : step σ s a = some s') : Counted s' := by
  cases a with
  | register name cfg ok | unregister name closeErr | checkHealth checks | reconnect i ok
  | closeClient client =>
    obtain ⟨pool, rfl⟩ := exists_setPool rfl hst
    exact h.setPool
  | tick d | forceOpen | forceClosed | closeRows i =>
    cases hst
    exact ⟨h.issued, h.nested, h.depth⟩
  | acquire name ok =>
    have ha : Counted (PoolCb.acquire σ name ok s).1 := h.acquire
    simp only [PoolCb.step] at hst
    cases hr : (PoolCb.acquire σ name ok s).2 with
    | error e =>
      rw [hr] at hst
      cases hst
      exact ha
    | ok client =>
      rw [hr] at hst
      cases hst
      exact ⟨ha.issued, ha.nested, ha.depth⟩
  | client stmt client o =>
    simp only [PoolCb.step] at hst
    split_ifs at hst
    cases hst
    exact h.call hok.1 hok.2
  | transaction client fn o =>
    simp only [PoolCb.step] at hst
    split_ifs at hst
    cases hst
    obtain rfl : fn = {} := hok
    rw [transactionOf_empty]
    exact h.call (by decide) (by decide)
  | sql stmt name ok o => exact hok.elim
  | sqlRow name ok o => exact hok.elim

/-- Every operation of a protected client is counted once with its result, and admitted once. -/
theorem counted_once {tr : List (Act Name Cfg)} {s : PoolWithBreaker Name Key Cfg}
    (hr : (lts σ).Run Direct tr s) :
    (∀ op ∈ s.issued, op.counted = [op.failed]) ∧ s.nestedRejections = 0 := by
  have hs : Counted s := hr.invariant (fun s h => h ▸ ⟨fun op hop => (by cases hop), rfl, rfl⟩)
    fun s a s' hs hok hst => hs.step hok hst
  exact ⟨hs.issued, hs.nested⟩

end

/-- One configuration, and a breaker that admits one request when it is half-open. -/
def strict : Settings Unit Unit where
  pool := { maxSize := 1, maxIdleTime := 1800 * Duration.second, maxFailures := 3
            key := id, fallback := () }
  breaker := DbBreaker.Config.settings ⟨5, 10, 1, 2⟩
  isSql _ := true

/-- A protected client is acquired and used. -/
def acquiredAndUsed : List (Act Unit Unit) :=
  [.register () () true, .acquire () true, .client .query 0 ⟨true, 0⟩, .client .exec 0 ⟨false, 0⟩]

theorem counted_once_used : ∃ s, (lts strict).Run Direct acquiredAndUsed s ∧
    s.issued.length = 2 ∧ ∀ op ∈ s.issued, op.counted = [op.failed] := by
  have h₀ : (lts strict).Run Direct ([] : List (Act Unit Unit)) (init strict) := .nil rfl
  have hr := (((h₀.extend (.register () () true) trivial rfl).extend (.acquire () true) trivial
    rfl).extend (.client .query 0 ⟨true, 0⟩) ⟨by decide, by decide⟩ rfl).extend
    (.client .exec 0 ⟨false, 0⟩) ⟨by decide, by decide⟩ rfl
  exact ⟨_, hr, by decide, (counted_once hr).1⟩

/-- A query through the pool. -/
def queried : List (Act Unit Unit) := [.register () () true, .sql .query () true ⟨true, 0⟩]

/-- A query through the pool when the breaker becomes half-open. -/
def probed : List (Act Unit Unit) :=
  [.register () () true, .forceOpen, .tick 10, .sql .query () true ⟨true, 0⟩]

/-- The successful query is counted twice; the one of the half-open breaker is admitted and then
refused. -/
theorem counted_twice :
    (∃ s, (lts strict).Run LTS.anyStep queried s ∧
      s.issued = [⟨0, true, false, [false, false], false⟩]) ∧
    ∃ s, (lts strict).Run LTS.anyStep probed s ∧ s.issued = [] ∧ s.nestedRejections = 1 := by
  constructor
  · exact LTS.exists_run_of_exec (f := step strict) (fun _ _ _ => id) rfl _ (by decide)
      fun _ _ h => h
  · exact LTS.exists_run_of_exec (f := step strict) (fun _ _ _ => id) rfl _ (by decide)
      fun _ _ h => h

end PoolCb

end GinRpc
