import GinRpc.Data.Checks
import GinRpc.PoolCb.Basic

/-!
# The clients behind the calls of `SQLPoolWithBreaker`

`Query`, `Exec` and `Transaction` close the client that they have acquired, and this client is the
one that the pool gives to everyone who asks for its name.

* `Sound` : no operation was issued on a closed client, and the rows that the callers have not
  closed can be read.
* `Fresh` : the calls find an open client.
* `sql_calls_sound` : then they are sound, and succeed if the database always does.
* `second_query_on_closed` : the second of two queries finds a closed client.
-/

namespace GinRpc

namespace PoolCb

variable {Name Key Cfg α : Type*} {σ : Settings Key Cfg} {s : PoolWithBreaker Name Key Cfg}

structure Sound (s : PoolWithBreaker Name Key Cfg) : Prop where
  onOpen : ∀ op ∈ s.issued, op.onOpen = true
  rows : s.conns.Held

theorem Sound.setPool {pool : DbPool.Store Name Key Cfg} (h : Sound s) : Sound (s.setPool pool) :=
  ⟨h.onOpen, h.rows.closeIdle _⟩

theorem onOpen_count {n : ℕ} {failed : Bool} {l : List Issued} (h : ∀ op ∈ l, op.onOpen = true) :
    ∀ op ∈ count n failed l, op.onOpen = true := by
  intro op hop
  rcases List.mem_append.1 hop with hop | hop
  · exact h op (List.mem_of_mem_take hop)
  · obtain ⟨op', hop', rfl⟩ := List.mem_map.1 hop
    rw [apply_ite Issued.onOpen, ite_self]
    exact h op' (List.mem_of_mem_drop hop')

theorem isErr_mapError {r : Except Err α} {f : Err → Err} : isErr (r.mapError f) = isErr r := by
  cases r <;> rfl

theorem isErr_of_panicked {r : Except Err α} (h : panicked r = true) : isErr r = true := by
  cases r with
  | ok a => cases h
  | error e => rfl

/-- What a call leaves behind: it was sound, it has kept the factory, and if it was to succeed, it
has and the breaker is closed. -/
structure Good (succeeds : Prop) (s : PoolWithBreaker Name Key Cfg)
    (r : PoolWithBreaker Name Key Cfg × Except Err α) : Prop where
  sound : Sound r.1
  factory : r.1.pool.factory = s.pool.factory
  closed : succeeds → r.1.breaker.state = .closed ∧ isErr r.2 = false
  results : r.1.results = s.results

theorem Good.execute {succeeds : Prop} {fn : Call Name Key Cfg α} (h : Sound s)
    (hclosed : succeeds → s.breaker.state = .closed)
    (hfn : ∀ s', Sound s' → s'.pool = s.pool → s'.results = s.results →
      (succeeds → s'.breaker.state = .closed) → Good succeeds s' (fn s')) :
    Good succeeds s (execute σ fn s) := by
  have hadm : succeeds → s.breaker.canExecute σ.breaker s.now = (s.breaker, true) :=
    fun hs => DbBreaker.CircuitBreaker.canExecute_closed (hclosed hs)
  have hq := hfn (s.admitted σ) ⟨h.onOpen, h.rows⟩ rfl rfl fun hs => by
    rw [PoolWithBreaker.admitted, hadm hs]
    exact hclosed hs
  unfold PoolCb.execute
  dsimp only
  split_ifs with hok hpanic hopened hdepth
  · refine ⟨⟨hq.sound.onOpen, hq.sound.rows⟩, hq.factory, fun hs => ?_, hq.results⟩
    cases (isErr_of_panicked hpanic).symm.trans (hq.closed hs).2
  · refine ⟨⟨hq.sound.onOpen, hq.sound.rows⟩, hq.factory, fun hs => ?_, hq.results⟩
    cases hopened.symm.trans (hq.closed hs).1
  · refine ⟨⟨onOpen_count hq.sound.onOpen, hq.sound.rows⟩, hq.factory, fun hs => ?_, hq.results⟩
    dsimp only
    rw [(hq.closed hs).2]
    exact ⟨DbBreaker.CircuitBreaker.recordResult_closed (hq.closed hs).1, rfl⟩
  all_goals
    refine ⟨⟨h.onOpen, h.rows⟩, rfl, fun hs => ?_, rfl⟩
    rw [hadm hs] at hok
    exact absurd rfl hok

theorem good_issue {succeeds : Prop} {stmt : Stmt} {client : ℕ} {o : Outcome}
    (ho : succeeds → o.ok = true) (h : Sound s) (hopen : s.pool.factory.isOpen client = true)
    (hclosed : succeeds → s.breaker.state = .closed) :
    Good succeeds s (issue stmt client o s) := by
  have honOpen : ∀ failed, ∀ op ∈ s.issued ++
      [{ client := client, onOpen := s.pool.factory.isOpen client, failed := failed }],
      op.onOpen = true := by
    intro failed op hop
    rcases List.mem_append.1 hop with hop | hop
    · exact h.onOpen op hop
    · obtain rfl := List.mem_singleton.1 hop
      exact hopen
  unfold issue
  dsimp only
  split_ifs with hok hkeeps
  · exact ⟨⟨honOpen false, h.rows.query⟩, rfl, fun hs => ⟨hclosed hs, rfl⟩, rfl⟩
  · exact ⟨⟨honOpen false, h.rows.exec⟩, rfl, fun hs => ⟨hclosed hs, rfl⟩, rfl⟩
  · refine ⟨⟨honOpen true, h.rows⟩, rfl, fun hs => ?_, rfl⟩
    rw [ho hs, hopen] at hok
    exact absurd rfl hok

/-- A method of a protected client, inside of the breaker. -/
theorem good_protected {succeeds : Prop} (stmt : Stmt) {client : ℕ} {o : Outcome}
    (ho : succeeds → o.ok = true) (h : Sound s) (hopen : s.pool.factory.isOpen client = true)
    (hsql : s.isSql σ client = true) (hclosed : succeeds → s.breaker.state = .closed) :
    Good succeeds s
      (execute σ (ProtectedClient.withSql σ client (execute σ (issue stmt client o))) s) := by
  refine Good.execute h hclosed fun s' h' hpool _ hclosed' => ?_
  have hopen' : s'.pool.factory.isOpen client = true := hpool ▸ hopen
  have hsql' : s'.isSql σ client = true := by
    rw [PoolWithBreaker.isSql, hpool]
    exact hsql
  rw [ProtectedClient.withSql, if_pos hsql']
  refine Good.execute h' hclosed' fun s'' h'' hpool' _ hclosed'' => ?_
  exact good_issue ho h'' (hpool' ▸ hopen') hclosed''

section

variable [DecidableEq Name] [DecidableEq Key]

/-- The pool has an open client for the name. -/
def Ready (σ : Settings Key Cfg) (s : PoolWithBreaker Name Key Cfg) (name : Name) : Prop :=
  ∃ ptr, s.pool.clients.lookup name = some ptr ∧ (s.pool.entries ptr).state = .connected ∧
    s.pool.factory.isOpen (s.pool.entries ptr).client = true ∧
    s.isSql σ (s.pool.entries ptr).client = true

omit [DecidableEq Name] [DecidableEq Key] in
theorem execute_eq_ok {fn : Call Name Key Cfg α} {a : α} (h : (execute σ fn s).2 = .ok a) :
    ∃ s', s'.pool = s.pool ∧ (fn s').2 = .ok a := by
  unfold execute at h
  dsimp only at h
  by_cases hadm : (s.breaker.canExecute σ.breaker s.now).2 = true
  · rw [if_pos hadm, apply_ite Prod.snd, ite_self] at h
    exact ⟨s.admitted σ, rfl, h⟩
  · rw [if_neg hadm] at h
    cases h

theorem good_acquire {succeeds : Prop} {name : Name} {ptr : ℕ} (h : Sound s)
    (hptr : s.pool.clients.lookup name = some ptr)
    (hstate : (s.pool.entries ptr).state = .connected)
    (hclosed : succeeds → s.breaker.state = .closed) (ok : Bool) :
    Good succeeds s (acquire σ name ok s) ∧
      ∀ client, (acquire σ name ok s).2 = .ok client → client = (s.pool.entries ptr).client := by
  have hacquire : poolAcquire σ.pool s.pool name ok =
      some (s.pool.markUsed ptr, (s.pool.entries ptr).client) := by
    unfold poolAcquire
    rw [hptr]
    dsimp only
    rw [if_pos hstate]
  constructor
  · have hgood : Good succeeds s (execute σ (acquireClient σ name ok) s) := by
      refine Good.execute h hclosed fun s' h' hpool _ hclosed' => ?_
      rw [acquireClient, hpool, hacquire]
      exact ⟨h'.setPool, by rw [hpool]; rfl, fun hs => ⟨hclosed' hs, rfl⟩, rfl⟩
    refine ⟨hgood.sound, hgood.factory, fun hs => ⟨(hgood.closed hs).1, ?_⟩, hgood.results⟩
    exact isErr_mapError.trans (hgood.closed hs).2
  · intro client hc
    obtain ⟨s', hpool, hs'⟩ := execute_eq_ok (mapError_eq_ok hc)
    rw [acquireClient, hpool, hacquire] at hs'
    exact (Except.ok.inj hs').symm

/-- A call of the pool that finds an open client. -/
theorem sound_withClient {succeeds : Prop} {stmt : Stmt} {name : Name} {ok : Bool} {o : Outcome}
    (ho : succeeds → o.ok = true) (h : Sound s) (hready : Ready σ s name)
    (hclosed : succeeds → s.breaker.state = .closed) :
    let r := SQLPoolWithBreaker.withClient σ name ok (fun client =>
      execute σ (ProtectedClient.withSql σ client (execute σ (issue stmt client o)))) s
    Sound r.1 ∧ (succeeds → r.1.breaker.state = .closed ∧ isErr r.2 = false) ∧
      r.1.results = s.results := by
  obtain ⟨ptr, hptr, hstate, hopen, hsql⟩ := hready
  obtain ⟨hgood, hclient⟩ := good_acquire (σ := σ) h hptr hstate hclosed ok
  unfold SQLPoolWithBreaker.withClient
  dsimp only
  cases hr : (acquire σ name ok s).2 with
  | error e =>
    refine ⟨hgood.sound, fun hs => ?_, hgood.results⟩
    have herr := (hgood.closed hs).2
    rw [hr] at herr
    cases herr
  | ok client =>
    obtain rfl := hclient client hr
    have hcall := good_protected (σ := σ) stmt ho hgood.sound
      (hgood.factory.symm ▸ hopen)
      (by rw [PoolWithBreaker.isSql, hgood.factory]; exact hsql) fun hs => (hgood.closed hs).1
    exact ⟨hcall.sound.setPool, hcall.closed, hcall.results.trans hgood.results⟩

theorem sound_sqlCall (succeeds : Prop) (stmt : SqlStmt) {name : Name} (ok : Bool) {o : Outcome}
    (ho : succeeds → o.ok = true) (h : Sound s) (hready : Ready σ s name)
    (hclosed : succeeds → s.breaker.state = .closed) :
    Sound (sqlCall σ stmt name ok o s).1 ∧
      (succeeds → (sqlCall σ stmt name ok o s).1.breaker.state = .closed ∧
        isErr (sqlCall σ stmt name ok o s).2 = false) ∧
      (sqlCall σ stmt name ok o s).1.results = s.results := by
  cases stmt with
  | query => exact sound_withClient ho h hready hclosed
  | exec => exact sound_withClient ho h hready hclosed
  | transaction => exact sound_withClient ho h hready hclosed

/-- The sequences of calls of `Query`, `Exec` and `Transaction` that find an open client. -/
def Fresh (σ : Settings Key Cfg) (s : PoolWithBreaker Name Key Cfg) : Act Name Cfg → Prop
  | .sql _ name _ _ => Ready σ s name
  | .forceOpen | .forceClosed | .acquire _ _ | .client _ _ _ | .transaction _ _ _
  | .closeClient _ | .sqlRow _ _ _ => False
  | _ => True

/-- The database does what it is asked. -/
def Act.succeeds : Act Name Cfg → Bool
  | .sql _ _ _ o => o.ok
  | _ => true

/-- All calls have succeeded. -/
structure Successful (s : PoolWithBreaker Name Key Cfg) : Prop where
  closed : s.breaker.state = .closed
  results : ∀ r ∈ s.results, r = true

theorem step_sound {s' : PoolWithBreaker Name Key Cfg} {a : Act Name Cfg} (h : Sound s)
    (hok : Fresh σ s a) (hst : step σ s a = some s') :
    Sound s' ∧ (a.succeeds = true → Successful s → Successful s') := by
  cases a with
  | register name cfg ok | unregister name closeErr | checkHealth checks | reconnect i ok =>
    obtain ⟨pool, rfl⟩ := exists_setPool rfl hst
    exact ⟨h.setPool, fun _ hs => ⟨hs.closed, hs.results⟩⟩
  | tick d =>
    cases hst
    exact ⟨⟨h.onOpen, h.rows⟩, fun _ hs => ⟨hs.closed, hs.results⟩⟩
  | sql stmt name ok o =>
    cases hst
    refine ⟨?_, fun hs hsucc => ?_⟩
    · -- whatever the database and the breaker do
      have hcall := (sound_sqlCall (o := o) False stmt ok False.elim h hok False.elim).1
      exact ⟨hcall.onOpen, hcall.rows⟩
    · obtain ⟨-, hsucceeds, hresults⟩ :=
        sound_sqlCall True stmt ok (fun _ => hs) h hok fun _ => hsucc.closed
      obtain ⟨hclosed, herr⟩ := hsucceeds trivial
      refine ⟨hclosed, fun r hr => ?_⟩
      rcases List.mem_cons.1 hr with rfl | hr
      · rw [herr]
        rfl
      · rw [hresults] at hr
        exact hsucc.results r hr
  | closeRows i =>
    cases hst
    exact ⟨⟨h.onOpen, h.rows.closeRows _ i⟩, fun _ hs => ⟨hs.closed, hs.results⟩⟩
  | forceOpen | forceClosed | acquire name ok | client stmt client o
  | transaction client fn o | closeClient client | sqlRow name ok o => exact hok.elim

/-- Calls that find an open client issue nothing on a closed one and leave the rows of their callers
alone, and with a database that always succeeds they all succeed. -/
theorem sql_calls_sound {tr : List (Act Name Cfg)} {s : PoolWithBreaker Name Key Cfg}
    (hr : (lts σ).Run (Fresh σ) tr s) :
    (∀ op ∈ s.issued, op.onOpen = true) ∧
      (∀ r ∈ s.conns.rows, r.closed = false → s.conns.Readable r) ∧
      ((∀ a ∈ tr, a.succeeds = true) → ∀ r ∈ s.results, r = true) := by
  have hs : Sound s ∧ ((∀ a ∈ tr, a.succeeds = true) → Successful s) := by
    refine hr.traced (I := fun tr s => Sound s ∧
      ((∀ a ∈ tr, a.succeeds = true) → Successful s)) ?_ ?_
    · rintro s rfl
      exact ⟨⟨fun op hop => (by cases hop), Sql.Conns.held_empty⟩,
        fun _ => ⟨rfl, fun r hr => by cases hr⟩⟩
    · rintro tr s a s' ⟨hsound, hsucc⟩ hok hst
      obtain ⟨hsound', hsucc'⟩ := step_sound hsound hok hst
      refine ⟨hsound', fun hall => ?_⟩
      have ha := hall a (List.mem_append_right _ (List.mem_singleton_self a))
      exact hsucc' ha (hsucc fun b hb => hall b (List.mem_append_left _ hb))
  refine ⟨hs.1.onOpen, fun r hr hopen => ?_, fun hall => (hs.2 hall).results⟩
  obtain ⟨i, hi⟩ := List.mem_iff_getElem?.1 hr
  exact hs.1.rows.readable i r hi hopen

end

/-- One configuration; the default breaker. -/
def plainSettings : Settings ℕ ℕ where
  pool := { maxSize := 10, maxIdleTime := 1800 * Duration.second, maxFailures := 3
            key := id, fallback := 0 }
  breaker := DbBreaker.Config.settings DbBreaker.defaultConfig
  isSql _ := true

/-- A query, and a second one after a new client has been registered. -/
def queriedAnew : List (Act String ℕ) :=
  [.register "orders" 7 true, .sql .query "orders" true ⟨true, 0⟩, .unregister "orders" false,
    .register "orders" 8 true, .sql .query "orders" true ⟨true, 0⟩]

theorem sql_calls_sound_anew : ∃ s, (lts plainSettings).Run (Fresh plainSettings) queriedAnew s ∧
    s.results.length = 2 ∧ ∀ r ∈ s.results, r = true := by
  have h₀ : (lts plainSettings).Run (Fresh plainSettings) ([] : List (Act String ℕ))
    (init plainSettings) := .nil rfl
  have h₁ := h₀.extend (.register "orders" 7 true) trivial rfl
  have h₂ := h₁.extend (.sql .query "orders" true ⟨true, 0⟩)
    ⟨0, by decide, by decide, by decide, by decide⟩ rfl
  have h₃ := (h₂.extend (.unregister "orders" false) trivial rfl).extend
    (.register "orders" 8 true) trivial rfl
  have h₄ := h₃.extend (.sql .query "orders" true ⟨true, 0⟩)
    ⟨1, by decide, by decide, by decide, by decide⟩ rfl
  exact ⟨_, h₄, by decide, (sql_calls_sound h₄).2.2 (by decide)⟩

/-- Two queries on one client. -/
def queriedTwice : List (Act String ℕ) :=
  [.register "orders" 7 true, .sql .query "orders" true ⟨true, 0⟩,
    .sql .query "orders" true ⟨true, 0⟩]

/-- The second one is issued on a closed client, and fails. -/
theorem second_query_on_closed : ∃ s, (lts plainSettings).Run LTS.anyStep queriedTwice s ∧
    s.issued.map (fun op => op.onOpen) = [true, false] ∧ s.results = [false, true] := by
  exact LTS.exists_run_of_exec (f := step plainSettings) (fun _ _ _ => id) rfl _ (by decide)
    fun _ _ h => h

end PoolCb

end GinRpc
