import GinRpc.Data.Duration
import GinRpc.Text.Basic

/-!
# The transaction manager

Model of `WithTransaction` in `plugins/db/orm/transaction_manager.go`, with
`executeTransactionOnce`, `updateMetrics` and the retry strategy.  What the database, the function,
the coordinator and the context do is given beforehand, attempt by attempt (`Outcomes`); the manager
leaves a log of what it did.  A `Commit` that returns an error has not committed.

* `giveUp`, `succeed` : the exits of the retry loop.
* `Reached` : an attempt is made.
* `with_transaction_sound` : the local transaction, the result, the coordinator and the metrics
  agree, if and only if no attempt that is made panics and the coordinator accepts `Begin` and,
  after a commit, `Commit`.
* `coordinator_commit_fails` : otherwise the result may say that the transaction failed, and the
  metrics that it succeeded, after it was committed.
-/

namespace GinRpc

namespace Orm

namespace Transactions

/-! ### Errors and their classification -/

inductive TxError where
  | plain (text : Text)
  /-- `fmt.Errorf("msg: %w", err)` -/
  | wrap (msg : Text) (err : TxError)
  /-- `errors.Join(err, err')` -/
  | join (err err' : TxError)
  deriving DecidableEq

/-- `err.Error()` -/
def TxError.text : TxError → Text
  | .plain t => t
  | .wrap msg err => msg ++ (": " : Text) ++ err.text
  | .join err err' => err.text ++ ("\n" : Text) ++ err'.text

/-- The parts occur one after the other, on the same line: a pattern `part.*part`. -/
def occur : List Text → Text → Bool
  | [], _ => true
  | part :: parts, t => t.tails.any fun s =>
      part.isPrefixOf s && occur parts ((s.drop part.length).takeWhile fun c => c != '\n')

/-- The patterns of `NewDefaultErrorClassifier` in the order in which `ClassifyError` tries them,
and whether the class is retryable. -/
def errorClasses : List (List (List Text) × Bool) :=
  [([["DEADLOCK"], ["LOCK WAIT TIMEOUT"], ["SERIALIZATION FAILURE"],
      ["COULD NOT SERIALIZE ACCESS"]], true),
    ([["TIMEOUT"], ["DEADLINE EXCEEDED"], ["CONTEXT", "CANCELED"]], true),
    ([["CONNECTION", "REFUSED"], ["CONNECTION", "RESET"], ["CONNECTION", "LOST"],
      ["TOO MANY CONNECTIONS"], ["CONNECTION POOL EXHAUSTED"]], true),
    ([["UNIQUE CONSTRAINT"], ["FOREIGN KEY CONSTRAINT"], ["CHECK CONSTRAINT"],
      ["NOT NULL CONSTRAINT"], ["DUPLICATE KEY"]], false),
    ([["PERMISSION DENIED"], ["ACCESS DENIED"], ["UNAUTHORIZED"]], false),
    ([["OUT OF MEMORY"], ["DISK FULL"], ["QUOTA EXCEEDED"]], false),
    ([["CONNECTION", "REFUSED"], ["CONNECTION", "RESET"], ["CONNECTION", "LOST"], ["DEADLOCK"],
      ["LOCK WAIT TIMEOUT"], ["SERIALIZATION FAILURE"], ["COULD NOT SERIALIZE ACCESS"],
      ["TIMEOUT"], ["TEMPORARY"], ["TOO MANY CONNECTIONS"], ["CONNECTION POOL EXHAUSTED"],
      ["NETWORK", "ERROR"], ["READ", "TIMEOUT"], ["WRITE", "TIMEOUT"]], true)]

/-- `IsRetryable` of the default classifier -/
def isRetryable (err : TxError) : Bool :=
  let t := err.text.map Text.capital
  match errorClasses.find? fun c => c.1.any fun pattern => occur pattern t with
  | some c => c.2
  | none => false

/-! ### The manager -/

structure TransactionConfig where
  maxRetries : ℤ
  enableMetrics : Bool
  enableDistributed : Bool
  deriving DecidableEq

structure TransactionMetrics where
  totalTransactions : ℤ := 0
  successfulTransactions : ℤ := 0
  failedTransactions : ℤ := 0
  retriedTransactions : ℤ := 0
  avgDuration : ℤ := 0
  maxDuration : ℤ := 0
  minDuration : ℤ := 0
  deriving DecidableEq

/-- The retry strategy has a configuration of its own, which `SetConfig` does not change. -/
structure TransactionManager where
  config : TransactionConfig
  retryConfig : TransactionConfig
  /-- there is a coordinator -/
  coordinator : Bool
  metrics : TransactionMetrics := {}
  deriving DecidableEq

/-- `NewTransactionManager` -/
def newTransactionManager (config : TransactionConfig) (coordinatorURL : Text) :
    TransactionManager :=
  let config := { config with maxRetries := if config.maxRetries = 0 then 3 else config.maxRetries }
  { config := config
    retryConfig := config
    coordinator := config.enableDistributed && !coordinatorURL.isEmpty }

namespace TransactionManager

def setConfig (tm : TransactionManager) (config : TransactionConfig) : TransactionManager :=
  { tm with config := config }

/-- `tm.config.EnableDistributed && tm.coordinator != nil` -/
def distributed (tm : TransactionManager) : Bool := tm.config.enableDistributed && tm.coordinator

/-- `ShouldRetry` -/
def shouldRetry (tm : TransactionManager) (attempt : ℤ) (err : TxError) : Bool :=
  if tm.retryConfig.maxRetries ≤ attempt then false else isRetryable err

end TransactionManager

structure RetryAttempt where
  attemptNumber : ℤ
  error : Option TxError
  duration : ℤ
  deriving DecidableEq

structure TransactionResult where
  success : Bool := false
  duration : ℤ := 0
  retries : ℤ := 0
  error : Option TxError := none
  retryAttempts : List RetryAttempt := []
  deriving DecidableEq

def updateMetrics (tm : TransactionManager) (result : TransactionResult) : TransactionManager :=
  if tm.config.enableMetrics then
    let m := tm.metrics
    let total := m.totalTransactions + 1
    { tm with metrics :=
      { totalTransactions := total
        successfulTransactions := m.successfulTransactions + if result.success then 1 else 0
        failedTransactions := m.failedTransactions + if result.success then 0 else 1
        retriedTransactions := m.retriedTransactions + if 0 < result.retries then 1 else 0
        minDuration :=
          if m.minDuration = 0 ∨ result.duration < m.minDuration then result.duration
          else m.minDuration
        maxDuration := if m.maxDuration < result.duration then result.duration else m.maxDuration
        avgDuration := (Duration.wrap (Duration.wrap (m.avgDuration * (total - 1)) +
          result.duration)).tdiv total } }
  else tm

/-! ### The outcomes and the log -/

/-- How a call of the function ends. -/
inductive Outcome where
  | ok
  | error (err : TxError)
  | panic
  deriving DecidableEq

/-- What happens to the calls of the manager; `none` is a nil error.  The result of `Rollback` is
not looked at. -/
structure Outcomes where
  /-- the database is a `*DBWrapper`; the type assertion panics if it is not -/
  wrapper : Bool := true
  coordinatorBegin : Option TxError
  begin : ℕ → Option TxError
  fn : ℕ → Outcome
  commit : ℕ → Option TxError
  /-- the context is done while the manager waits for the next attempt, with this error -/
  done : ℕ → Option TxError
  coordinatorCommit : Option TxError
  coordinatorRollback : Option TxError
  /-- `time.Since` at the exit -/
  duration : ℤ
  /-- `time.Since` after an attempt -/
  attemptDuration : ℕ → ℤ

/-- What an attempt does in the database. -/
inductive Action where
  | begin (ok : Bool)
  | call
  | commit (ok : Bool)
  | rollback
  deriving DecidableEq

inductive Verb where
  | begin | commit | rollback
  deriving DecidableEq

inductive Notice where
  | start
  | retry (attempt : ℤ)
  | commit
  | rollback
  deriving DecidableEq

/-- What the manager does: attempts, calls of the coordinator, notices to the monitor. -/
inductive Event where
  | attempt (actions : List Action)
  | coordinator (verb : Verb)
  | monitor (notice : Notice)
  deriving DecidableEq

/-- How an attempt ends. -/
inductive Attempt where
  | committed
  | failed (err : TxError)
  | panicked
  deriving DecidableEq

/-- `executeTransactionOnce`; unless the transaction has been committed, the deferred function rolls
it back, also if `fn` panics. -/
def executeTransactionOnce (o : Outcomes) (n : ℕ) : List Action × Attempt :=
  if !o.wrapper then ([], .panicked)
  else
    match o.begin n with
    | some err => ([.begin false], .failed err)
    | none =>
      match o.fn n with
      | .panic => ([.begin true, .call, .rollback], .panicked)
      | .error err => ([.begin true, .call, .rollback], .failed err)
      | .ok =>
        match o.commit n with
        | some err => ([.begin true, .call, .commit false, .rollback], .failed err)
        | none => ([.begin true, .call, .commit true], .committed)

/-- How `WithTransaction` ends: it returns a result and an error, or passes a panic on. -/
inductive Exit where
  | returned (result : TransactionResult) (err : Option TxError)
  | panicked
  deriving DecidableEq

structure Finish where
  manager : TransactionManager
  log : List Event
  exit : Exit
  deriving DecidableEq

/-! ### The retry loop -/

variable (tm : TransactionManager) (o : Outcomes)

/-- The error of a result after the distributed transaction has been rolled back. -/
def rollbackError (before : Option TxError) : Option TxError :=
  match (if tm.distributed then o.coordinatorRollback else none), before with
  | some err, some before => some (.join before (.wrap "rollback distributed transaction" err))
  | some err, none => some (.wrap "rollback distributed transaction" err)
  | none, before => before

/-- An exit with an error: roll the distributed transaction back, count the failure, tell the
monitor. -/
def giveUp (log : List Event) (result : TransactionResult) : Finish :=
  let told := if tm.distributed then [Event.coordinator .rollback] else []
  let result := { result with error := rollbackError tm o result.error }
  ⟨updateMetrics tm result, log ++ told ++ [.monitor .rollback], .returned result result.error⟩

/-- The exit after a local commit. -/
def succeed (log : List Event) (result : TransactionResult) : Finish :=
  -- the success is counted before the coordinator is asked
  let tm' := updateMetrics tm result
  if tm.distributed then
    match o.coordinatorCommit with
    | some err =>
      let result := { result with
        success := false
        error := some (.wrap "failed to commit distributed transaction" err) }
      ⟨tm', log ++ [.coordinator .commit, .monitor .rollback], .returned result (some err)⟩
    | none => ⟨tm', log ++ [.coordinator .commit, .monitor .commit], .returned result none⟩
  else ⟨tm', log ++ [.monitor .commit], .returned result none⟩

/-- The error after the last attempt. -/
def exhausted (lastErr : Option TxError) : TxError :=
  let msg := ("transaction failed after " : Text) ++ Text.itoa (tm.config.maxRetries + 1) ++
    (" attempts" : Text)
  match lastErr with
  | some err => .wrap msg err
  | none => .plain (msg ++ (": %!w(<nil>)" : Text))

/-- The loop from attempt `n` on, with the number of attempts that are left. -/
def attemptsFrom : ℕ → ℕ → List Event → List RetryAttempt → Option TxError → Finish
  | 0, _, log, tries, lastErr =>
    giveUp tm o log
      { duration := o.duration
        retries := tm.config.maxRetries
        error := some (exhausted tm lastErr)
        retryAttempts := tries }
  | left + 1, n, log, tries, _ =>
    let (actions, ended) := executeTransactionOnce o n
    let log := log ++ [.attempt actions]
    match ended with
    -- a panic passes by the coordinator, the metrics and the monitor
    | .panicked => ⟨tm, log, .panicked⟩
    | .committed =>
      succeed tm o log
        { success := true
          duration := o.duration
          retries := n
          retryAttempts := tries ++ [⟨n + 1, none, o.attemptDuration n⟩] }
    | .failed err =>
      let tries := tries ++ [⟨n + 1, some err, o.attemptDuration n⟩]
      if tm.shouldRetry n err then
        let log := log ++ [.monitor (.retry (n + 1))]
        -- `ShouldRetry` goes by the configuration of the constructor, this check by the current one
        if n < tm.config.maxRetries then
          match o.done n with
          | some ctxErr =>
            giveUp tm o log
              { duration := o.duration
                retries := n
                error := some ctxErr
                retryAttempts := tries }
          | none => attemptsFrom left (n + 1) log tries (some err)
        else attemptsFrom left (n + 1) log tries (some err)
      else
        giveUp tm o log
          { duration := o.duration
            retries := n
            error := some err
            retryAttempts := tries }

def withTransaction : Finish :=
  let asked := if tm.distributed then [Event.coordinator .begin] else []
  match (if tm.distributed then o.coordinatorBegin else none) with
  | some err =>
    ⟨tm, asked, .returned
      { duration := o.duration
        error := some (.wrap "failed to begin distributed transaction" err) } (some err)⟩
  | none =>
    attemptsFrom tm o (tm.config.maxRetries + 1).toNat 0 (asked ++ [.monitor .start]) [] none

/-! ### What is asked of the log -/

/-- The attempts of a log. -/
def attempts (log : List Event) : List (List Action) :=
  log.filterMap fun
    | .attempt actions => some actions
    | _ => none

/-- How often something was committed. -/
def commits (log : List Event) : ℕ := (attempts log).flatten.count (.commit true)

/-- How often the coordinator was told to commit or to roll back. -/
def told (verb : Verb) (log : List Event) : ℕ := log.count (.coordinator verb)

/-- A transaction that was begun has been ended, by one commit or by one rollback. -/
def Ended (actions : List Action) : Prop :=
  actions.count (.begin true) ≤ 1 ∧
    actions.count (.commit true) + actions.count .rollback = actions.count (.begin true)

section Log

variable {log log' : List Event} {verb v : Verb} {actions : List Action} {notice : Notice}

@[simp] theorem attempts_nil : attempts [] = [] := rfl

@[simp] theorem attempts_attempt : attempts (.attempt actions :: log) = actions :: attempts log :=
  rfl

@[simp] theorem attempts_coordinator : attempts (.coordinator verb :: log) = attempts log := rfl

@[simp] theorem attempts_monitor : attempts (.monitor notice :: log) = attempts log := rfl

@[simp] theorem attempts_append : attempts (log ++ log') = attempts log ++ attempts log' :=
  List.filterMap_append ..

@[simp] theorem commits_append : commits (log ++ log') = commits log + commits log' := by
  simp [commits]

@[simp] theorem told_nil : told verb [] = 0 := rfl

@[simp] theorem told_attempt : told verb (.attempt actions :: log) = told verb log := by
  simp [told]

@[simp] theorem told_monitor : told verb (.monitor notice :: log) = told verb log := by
  simp [told]

@[simp] theorem told_coordinator :
    told verb (.coordinator v :: log) = told verb log + if v = verb then 1 else 0 := by
  simp [told, List.count_cons]

@[simp] theorem told_append : told verb (log ++ log') = told verb log + told verb log' :=
  List.count_append ..

end Log

/-- Every path of an attempt ends the transaction, and commits it only if it says so. -/
theorem executeTransactionOnce_spec (n : ℕ) :
    Ended (executeTransactionOnce o n).1 ∧
      (executeTransactionOnce o n).1.count (.commit true) =
        if (executeTransactionOnce o n).2 = .committed then 1 else 0 := by
  unfold executeTransactionOnce
  cases o.wrapper with
  | false => simp [Ended]
  | true =>
    cases o.begin n with
    | some err => simp [Ended]
    | none =>
      cases o.fn n with
      | panic => simp [Ended]
      | error err => simp [Ended]
      | ok => cases o.commit n <;> simp [Ended]

/-- The log after `n` attempts without success. -/
structure Failing (n : ℕ) (log : List Event) : Prop where
  length : (attempts log).length = n
  ended : ∀ actions ∈ attempts log, Ended actions
  uncommitted : commits log = 0
  untold : told .commit log = 0 ∧ told .rollback log = 0

/-- The result, the log and the metrics agree. -/
@[mk_iff agrees_iff_and]
structure Agrees (tm : TransactionManager) (o : Outcomes) (f : Finish) (r : TransactionResult)
    (err : Option TxError) : Prop where
  exit : f.exit = .returned r err
  error : r.success = true ↔ err = none
  committed : commits f.log = if r.success then 1 else 0
  coordinated : tm.distributed = true → o.coordinatorBegin = none →
    told .commit f.log = (if r.success then 1 else 0) ∧
    told .rollback f.log = if r.success then 0 else 1
  metrics : tm.config.enableMetrics = true →
    f.manager.metrics.successfulTransactions =
      tm.metrics.successfulTransactions + (if r.success then 1 else 0) ∧
    f.manager.metrics.failedTransactions =
      tm.metrics.failedTransactions + if r.success then 0 else 1

section Exits

variable {tm : TransactionManager} {o : Outcomes} {n : ℕ} {log : List Event}
  {result : TransactionResult}

theorem updateMetrics_metrics (h : tm.config.enableMetrics = true) (result : TransactionResult) :
    (updateMetrics tm result).metrics.successfulTransactions =
      tm.metrics.successfulTransactions + (if result.success then 1 else 0) ∧
    (updateMetrics tm result).metrics.failedTransactions =
      tm.metrics.failedTransactions + if result.success then 0 else 1 := by
  simp [updateMetrics, h]

theorem attempts_giveUp : attempts (giveUp tm o log result).log = attempts log := by
  unfold giveUp
  cases tm.distributed <;> simp

theorem rollbackError_ne_none {before : Option TxError} (h : before ≠ none) :
    rollbackError tm o before ≠ none := by
  unfold rollbackError
  obtain ⟨err, rfl⟩ := Option.ne_none_iff_exists'.1 h
  split <;> simp_all

theorem Failing.giveUp (h : Failing n log) (hsuccess : result.success = false)
    (herror : result.error ≠ none) : ∃ r err, Agrees tm o (giveUp tm o log result) r err := by
  have hcommits : commits (Transactions.giveUp tm o log result).log = 0 := by
    rw [Transactions.commits, attempts_giveUp]
    exact h.uncommitted
  refine ⟨_, _, rfl, ?_, ?_, fun hd _ => ?_, fun hm => updateMetrics_metrics hm _⟩
  · simpa [hsuccess] using rollbackError_ne_none herror
  · simpa [hsuccess] using hcommits
  · simp [Transactions.giveUp, hd, h.untold, hsuccess]

theorem attempts_succeed : attempts (succeed tm o log result).log = attempts log := by
  unfold succeed
  cases tm.distributed <;> cases o.coordinatorCommit <;> simp

/-- A local commit is passed on if and only if the coordinator can commit. -/
theorem succeed_agrees_iff (hcommits : commits log = 1)
    (huntold : told .commit log = 0 ∧ told .rollback log = 0) (hsuccess : result.success = true) :
    (∃ r err, Agrees tm o (succeed tm o log result) r err) ↔
      (tm.distributed = true → o.coordinatorCommit = none) := by
  have hcommits' : commits (succeed tm o log result).log = 1 := by
    rw [Transactions.commits, attempts_succeed]
    exact hcommits
  constructor
  · rintro ⟨r, err, h⟩ hd
    by_contra hcommit
    obtain ⟨e, he⟩ := Option.ne_none_iff_exists'.1 hcommit
    have hexit := h.exit
    have hcount := h.committed
    simp only [succeed, hd, he, if_true] at hexit
    rw [hcommits'] at hcount
    cases hexit
    cases hcount
  · intro hcommit
    have hboth : (succeed tm o log result).exit = .returned result none ∧
        (succeed tm o log result).manager = updateMetrics tm result := by
      unfold succeed
      by_cases hd : tm.distributed = true
      · simp [hd, hcommit hd]
      · simp [hd]
    refine ⟨result, none, hboth.1, by simp [hsuccess], by simpa [hsuccess] using hcommits',
      fun hd _ => ?_, fun hm => ?_⟩
    · simp [succeed, hd, hcommit hd, huntold, hsuccess]
    · rw [hboth.2]
      exact updateMetrics_metrics hm result

theorem Failing.attempt (h : Failing n log)
    (hfailed : (executeTransactionOnce o n).2 ≠ .committed) :
    Failing (n + 1) (log ++ [.attempt (executeTransactionOnce o n).1]) := by
  obtain ⟨hended, hcount⟩ := executeTransactionOnce_spec o n
  rw [if_neg hfailed] at hcount
  refine ⟨by simp [h.length], ?_, ?_, by simp [h.untold]⟩
  · intro actions ha
    rw [attempts_append] at ha
    obtain ha | ha := List.mem_append.1 ha
    · exact h.ended actions ha
    · rw [List.mem_singleton.1 ha]
      exact hended
  · rw [commits_append, h.uncommitted]
    simpa [commits] using hcount

theorem Failing.notice (h : Failing n log) (notice : Notice) :
    Failing n (log ++ [.monitor notice]) :=
  ⟨by simp [h.length], by simpa using h.ended, by simpa [commits] using h.uncommitted,
    by simp [h.untold]⟩

end Exits

/-! ### The ends of the loop -/

section Runs

variable {tm : TransactionManager} {o : Outcomes}

/-- The attempt fails, with an error that is retried, and the context is not done while the manager
waits for the next attempt. -/
def Retried (tm : TransactionManager) (o : Outcomes) (n : ℕ) : Prop :=
  ∃ err, (executeTransactionOnce o n).2 = .failed err ∧ tm.shouldRetry n err = true ∧
    ((n : ℤ) < tm.config.maxRetries → o.done n = none)

/-- The attempt is made. -/
def Reached (tm : TransactionManager) (o : Outcomes) (n : ℕ) : Prop :=
  (n : ℤ) ≤ tm.config.maxRetries ∧ ∀ m < n, Retried tm o m

/-- The ways in which the loop can end. -/
inductive Ends (tm : TransactionManager) (o : Outcomes) : Finish → Prop where
  | gaveUp {m : ℕ} {log : List Event} {result : TransactionResult} :
    (m : ℤ) ≤ tm.config.maxRetries + 1 → Failing m log → result.success = false →
    result.error ≠ none →
    (∀ n, Reached tm o n → ∃ err, (executeTransactionOnce o n).2 = .failed err) →
    Ends tm o (giveUp tm o log result)
  | succeeded {m : ℕ} {log : List Event} {result : TransactionResult} :
    Reached tm o m → Failing m log → (executeTransactionOnce o m).2 = .committed →
    result.success = true →
    Ends tm o (succeed tm o (log ++ [.attempt (executeTransactionOnce o m).1]) result)
  | panicked {m : ℕ} {log : List Event} :
    Reached tm o m → Failing m log → (executeTransactionOnce o m).2 = .panicked →
    Ends tm o ⟨tm, log ++ [.attempt (executeTransactionOnce o m).1], .panicked⟩

/-- If an attempt fails and is not followed by another one, no other one is made that does not
fail. -/
theorem failed_of_last {n : ℕ} {err : TxError} (hprev : ∀ m < n, Retried tm o m)
    (hend : (executeTransactionOnce o n).2 = .failed err) (hlast : ¬ Retried tm o n) (k : ℕ)
    (hk : Reached tm o k) : ∃ err, (executeTransactionOnce o k).2 = .failed err := by
  obtain hlt | rfl | hgt := lt_trichotomy k n
  · obtain ⟨err, herr, -⟩ := hprev k hlt
    exact ⟨err, herr⟩
  · exact ⟨err, hend⟩
  · exact absurd (hk.2 n hgt) hlast

theorem attemptsFrom_ends (left n : ℕ) (log : List Event) (tries : List RetryAttempt)
    (lastErr : Option TxError) (h : Failing n log) (hprev : ∀ m < n, Retried tm o m)
    (hbound : (n + left : ℤ) = tm.config.maxRetries + 1) :
    Ends tm o (attemptsFrom tm o left n log tries lastErr) := by
  induction left generalizing n log tries lastErr with
  | zero =>
    refine .gaveUp (by omega) h rfl (Option.some_ne_none _) fun k hk => ?_
    obtain ⟨err, herr, -⟩ := hprev k (by have := hk.1; omega)
    exact ⟨err, herr⟩
  | succ left ih =>
    have hn : Reached tm o n := ⟨by omega, hprev⟩
    unfold attemptsFrom
    dsimp only
    cases hend : (executeTransactionOnce o n).2 with
    | panicked => exact .panicked hn h hend
    | committed => exact .succeeded hn h hend rfl
    | failed err =>
      have hlog := h.attempt (o := o) (by simp [hend])
      have hnext (hretry : tm.shouldRetry n err = true)
          (hdone : (n : ℤ) < tm.config.maxRetries → o.done n = none) :
          ∀ m < n + 1, Retried tm o m := by
        intro m hm
        obtain hm | rfl := Nat.lt_succ_iff_lt_or_eq.1 hm
        · exact hprev m hm
        · exact ⟨err, hend, hretry, hdone⟩
      dsimp only
      split_ifs with hretry hwait
      · cases hdone : o.done n with
        | some ctxErr =>
          refine .gaveUp (by omega) (hlog.notice _) rfl (Option.some_ne_none _)
            (failed_of_last hprev hend fun hretried => ?_)
          obtain ⟨_, -, -, hnone⟩ := hretried
          cases hdone.symm.trans (hnone hwait)
        | none => exact ih _ _ _ _ (hlog.notice _) (hnext hretry fun _ => hdone) (by omega)
      · exact ih _ _ _ _ (hlog.notice _) (hnext hretry fun hlt => absurd hlt hwait) (by omega)
      · refine .gaveUp (by omega) hlog rfl (Option.some_ne_none _)
          (failed_of_last hprev hend fun hretried => ?_)
        obtain ⟨err', herr', hretry', -⟩ := hretried
        cases hend.symm.trans herr'
        exact hretry hretry'

/-- However the loop ends, every transaction has been ended. -/
theorem Ends.ended {f : Finish} (h : Ends tm o f) :
    ((attempts f.log).length : ℤ) ≤ tm.config.maxRetries + 1 ∧
      ∀ actions ∈ attempts f.log, Ended actions := by
  have hone {m : ℕ} {log : List Event} (hm : Reached tm o m) (hfail : Failing m log) :
      ((attempts (log ++ [.attempt (executeTransactionOnce o m).1])).length : ℤ) ≤
          tm.config.maxRetries + 1 ∧
        ∀ actions ∈ attempts (log ++ [.attempt (executeTransactionOnce o m).1]),
          Ended actions := by
    refine ⟨by simpa [hfail.length] using hm.1, fun actions ha => ?_⟩
    rw [attempts_append] at ha
    obtain ha | ha := List.mem_append.1 ha
    · exact hfail.ended actions ha
    · rw [List.mem_singleton.1 ha]
      exact (executeTransactionOnce_spec o m).1
  cases h with
  | gaveUp hm hfail =>
    rw [attempts_giveUp, hfail.length]
    exact ⟨hm, hfail.ended⟩
  | succeeded hm hfail =>
    rw [attempts_succeed]
    exact hone hm hfail
  | panicked hm hfail => exact hone hm hfail

/-- An attempt that is made does not panic, and if it commits, a coordinator can commit too. -/
def Passes (tm : TransactionManager) (o : Outcomes) (n : ℕ) : Prop :=
  (executeTransactionOnce o n).2 ≠ .panicked ∧
    ((executeTransactionOnce o n).2 = .committed → tm.distributed = true →
      o.coordinatorCommit = none)

/-- An attempt without a retry is the last one, so it alone decides. -/
theorem forall_passes_iff {m : ℕ} (hm : Reached tm o m)
    (hend : ∀ err, (executeTransactionOnce o m).2 ≠ .failed err) :
    (∀ n, Reached tm o n → Passes tm o n) ↔ Passes tm o m := by
  refine ⟨fun h => h m hm, fun h n hn => ?_⟩
  obtain hlt | rfl | hgt := lt_trichotomy n m
  · obtain ⟨err, herr, -⟩ := hm.2 n hlt
    simp [Passes, herr]
  · exact h
  · obtain ⟨err, herr, -⟩ := hn.2 m hgt
    exact absurd herr (hend err)

theorem Ends.agrees_iff {f : Finish} (h : Ends tm o f) :
    (∃ r err, Agrees tm o f r err) ↔ ∀ n, Reached tm o n → Passes tm o n := by
  cases h with
  | gaveUp _ hfail hsuccess herror hall =>
    refine iff_of_true (hfail.giveUp hsuccess herror) fun n hn => ?_
    obtain ⟨err, herr⟩ := hall n hn
    simp [Passes, herr]
  | @succeeded m log result hm hfail hend hsuccess =>
    have hcount := (executeTransactionOnce_spec o m).2
    rw [if_pos hend] at hcount
    have hcommits : commits (log ++ [.attempt (executeTransactionOnce o m).1]) = 1 := by
      rw [commits_append, hfail.uncommitted]
      simpa [commits] using hcount
    rw [succeed_agrees_iff hcommits (by simp [hfail.untold]) hsuccess,
      forall_passes_iff hm (by simp [hend])]
    simp [Passes, hend]
  | @panicked m log hm hfail hend =>
    rw [forall_passes_iff hm (by simp [hend])]
    refine iff_of_false ?_ fun hpass => hpass.1 hend
    rintro ⟨r, err, hagrees⟩
    cases hagrees.exit

/-- A coordinator that does not accept the transaction ends it before the first attempt. -/
theorem agrees_refused_iff {e : TxError} (hrefused : tm.distributed = true)
    (he : o.coordinatorBegin = some e) :
    (∃ r err, Agrees tm o (withTransaction tm o) r err) ↔ tm.config.enableMetrics = false := by
  unfold withTransaction
  simp only [hrefused, he, if_true]
  constructor
  · rintro ⟨r, err, h⟩
    cases h.exit
    by_contra hm
    have hfailed := (h.metrics (by simpa using hm)).2
    simp at hfailed
  · intro hm
    refine ⟨_, _, rfl, by simp, rfl, fun _ hnone => ?_, fun hm' => ?_⟩
    · cases he.symm.trans hnone
    · cases hm.symm.trans hm'

/-- If a coordinator does not accept the transaction, the metrics are disabled; otherwise every
attempt that is made passes. -/
def Orderly (tm : TransactionManager) (o : Outcomes) : Prop :=
  if tm.distributed = true ∧ o.coordinatorBegin ≠ none then tm.config.enableMetrics = false
  else ∀ n, Reached tm o n → Passes tm o n

/-- At most `MaxRetries + 1` attempts are made, and each transaction that is begun is ended by one
commit or one rollback.  The result says success exactly if the error is nil, and exactly if the
function's effects were committed, once, a coordinator is told to commit if they were and to roll
back otherwise, and the metrics count what is returned, if and only if the outcomes are orderly. -/
theorem with_transaction_sound (tm : TransactionManager) (o : Outcomes)
    (hmax : 0 ≤ tm.config.maxRetries) :
    ((attempts (withTransaction tm o).log).length : ℤ) ≤ tm.config.maxRetries + 1 ∧
    (∀ actions ∈ attempts (withTransaction tm o).log, Ended actions) ∧
    ((∃ r err, (withTransaction tm o).exit = .returned r err ∧
      (r.success = true ↔ err = none) ∧
      commits (withTransaction tm o).log = (if r.success then 1 else 0) ∧
      (tm.distributed = true → o.coordinatorBegin = none →
        told .commit (withTransaction tm o).log = (if r.success then 1 else 0) ∧
        told .rollback (withTransaction tm o).log = if r.success then 0 else 1) ∧
      (tm.config.enableMetrics = true →
        (withTransaction tm o).manager.metrics.successfulTransactions =
          tm.metrics.successfulTransactions + (if r.success then 1 else 0) ∧
        (withTransaction tm o).manager.metrics.failedTransactions =
          tm.metrics.failedTransactions + if r.success then 0 else 1)) ↔ Orderly tm o) := by
  simp only [← agrees_iff_and, Orderly]
  split_ifs with hrefused
  · obtain ⟨hd, hbegin⟩ := hrefused
    obtain ⟨e, he⟩ := Option.ne_none_iff_exists'.1 hbegin
    refine ⟨?_, ?_, agrees_refused_iff hd he⟩ <;> simp [withTransaction, hd, he]
    omega
  · have hends : Ends tm o (withTransaction tm o) := by
      have haccepted : (if tm.distributed then o.coordinatorBegin else none) = none := by
        by_cases hd : tm.distributed = true
        · rw [if_pos hd]
          exact not_not.1 fun hbegin => hrefused ⟨hd, hbegin⟩
        · rw [if_neg hd]
      unfold withTransaction
      rw [haccepted]
      refine attemptsFrom_ends _ 0 _ _ _ ?_ (by simp) (by omega)
      cases tm.distributed <;> exact ⟨rfl, by simp, rfl, by simp⟩
    exact ⟨hends.ended.1, hends.ended.2, hends.agrees_iff⟩

/-- A deadlock at the first attempt, and a second one that is committed. -/
def deadlockOnce : Outcomes where
  coordinatorBegin := none
  begin _ := none
  fn n :=
    if n = 0 then .error (.plain "Error 1213: Deadlock found when trying to get lock") else .ok
  commit _ := none
  done _ := none
  coordinatorCommit := none
  coordinatorRollback := none
  duration := 5
  attemptDuration _ := 2

theorem with_transaction_sound_deadlockOnce :
    (withTransaction (newTransactionManager ⟨3, true, true⟩ "http://coordinator")
        deadlockOnce).log =
      [.coordinator .begin, .monitor .start, .attempt [.begin true, .call, .rollback],
        .monitor (.retry 1), .attempt [.begin true, .call, .commit true], .coordinator .commit,
        .monitor .commit] ∧
    Orderly (newTransactionManager ⟨3, true, true⟩ "http://coordinator") deadlockOnce := by
  refine ⟨by decide, ?_⟩
  exact (with_transaction_sound (newTransactionManager ⟨3, true, true⟩ "http://coordinator")
    deadlockOnce (by decide)).2.2.1 ⟨_, none, rfl, by decide, by decide, by decide, by decide⟩

/-- The coordinator cannot commit after the local commit: the result and the error say that the
transaction failed, and the metrics count a success. -/
theorem coordinator_commit_fails :
    ∃ f, f = withTransaction (newTransactionManager ⟨3, true, true⟩ "http://coordinator")
        { deadlockOnce with coordinatorCommit := some (.plain "status 500") } ∧
      commits f.log = 1 ∧
      (∃ r, f.exit = .returned r (some (.plain "status 500")) ∧ r.success = false) ∧
      f.manager.metrics.successfulTransactions = 1 ∧ f.manager.metrics.failedTransactions = 0 := by
  refine ⟨_, rfl, by decide, ⟨_, rfl, by decide⟩, by decide,
    by decide⟩

end Runs

end Transactions

end Orm

end GinRpc
