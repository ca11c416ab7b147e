import GinRpc.Sql.ContextTx

/-!
# The enhanced pool

Model of `Exec`, `Begin` and `Transaction` of `plugins/db/pool/enhanced_pool.go`.

`Begin` gives the transaction a context with a timeout and cancels it when it returns, so that the
context of every transaction is done before anything happens on it:

* `transaction_atomic_iff` : a transaction is atomic exactly if its function fails.

`Exec` repeats a statement after every error, also when the statement has taken effect:

* `exec_sound` : the statement is applied at most once exactly if no attempt that takes effect is
  made after another one; in any case the call succeeds exactly if some attempt was acknowledged.

Metrics and logging are left out.
-/

namespace GinRpc

namespace DbPool

namespace EnhancedPool

open Sql Text

variable {Stmt R : Type*}

/-! ### Transactions -/

/-- What happens next to the goroutine that calls `Transaction`. -/
structure Env where
  /-- The error of the context, if the caller has cancelled it or the timeout has passed when
  `BeginTx` looks at it. -/
  ended : Option Text := none
  /-- Whether the transaction's own goroutine runs before the `n`-th operation. -/
  awaits : ℕ → Bool := fun _ => false

/-- `Begin` on a database with the given changes. -/
def begin (env : Env) (durable : List Stmt) : Except Text (World Stmt) :=
  match env.ended with
  | some e => .error e
  | none =>
    let tx : World Stmt := { durable := durable }
    -- `defer cancel()`
    .ok { tx with ctxDone := true }

/-- `Transaction` : what is durable afterwards, and how it ends. -/
def transaction (env : Env) (durable : List Stmt) (fn : Prog Stmt) : List Stmt × Exit :=
  match begin env durable with
  | .error e => (durable, .returned (some e))
  | .ok w =>
    match fn.run env.awaits w with
    | (w, .panicked value) => ((w.next env.awaits).rollback.1.durable, .panicked value)
    | (w, .returned (some e)) => ((w.next env.awaits).rollback.1.durable, .returned (some e))
    | (w, .returned none) =>
      let r := (w.next env.awaits).commit
      (r.1.durable, .returned r.2)

/-- What an atomic transaction does: all statements of a function that returns no error are
durable, and none otherwise. -/
def Atomic (env : Env) (durable : List Stmt) (fn : Prog Stmt) : Prop :=
  match begin env durable with
  | .error e => transaction env durable fn = (durable, .returned (some e))
  | .ok w =>
    match fn.run env.awaits w with
    | (w, .returned none) => transaction env durable fn = (durable ++ w.executed, .returned none)
    | (_, .returned (some e)) => transaction env durable fn = (durable, .returned (some e))
    | (_, .panicked value) => transaction env durable fn = (durable, .panicked value)

theorem canceled_of_begin {env : Env} {durable : List Stmt} {w : World Stmt}
    (h : begin env durable = .ok w) : w.Canceled durable := by
  unfold begin at h
  cases he : env.ended with
  | none =>
    rw [he] at h
    cases h
    exact ⟨rfl, rfl⟩
  | some e =>
    rw [he] at h
    cases h

/-- **A transaction is atomic exactly if its function returns an error or panics.**  If the
function returns no error, `Commit` finds the context done. -/
theorem transaction_atomic_iff (env : Env) (durable : List Stmt) (fn : Prog Stmt) :
    Atomic env durable fn ↔
      ∀ w, begin env durable = .ok w → (fn.run env.awaits w).2 ≠ .returned none := by
  unfold Atomic transaction
  cases hb : begin env durable with
  | error e =>
    refine ⟨fun _ w h => ?_, fun _ => rfl⟩
    cases h
  | ok w =>
    have hw := fn.run_canceled env.awaits (canceled_of_begin hb)
    dsimp only
    cases hr : fn.run env.awaits w with
    | mk w' exit =>
      rw [hr] at hw
      have hroll := (hw.next env.awaits).rollback
      have hcommit := (hw.next env.awaits).commit
      cases exit with
      | panicked value =>
        refine ⟨fun _ w₁ h₁ => ?_, fun _ => Prod.ext hroll.2 rfl⟩
        cases h₁
        rw [hr]
        exact Exit.noConfusion
      | returned err =>
        cases err with
        | some e =>
          refine ⟨fun _ w₁ h₁ => ?_, fun _ => Prod.ext hroll.2 rfl⟩
          cases h₁
          rw [hr]
          exact fun h => Option.some_ne_none e (Exit.returned.inj h)
        | none =>
          constructor
          · exact fun h => absurd (Exit.returned.inj (congrArg Prod.snd h)) hcommit.2
          · exact fun h => absurd (congrArg Prod.snd hr) (h w rfl)

/-- One statement. -/
def insertRow : Prog Text := .exec "INSERT INTO t VALUES (1)" .ret

/-- A statement succeeds and the function returns no error, but `Transaction` returns one and
nothing is durable. -/
theorem transaction_not_committed :
    (∀ w, begin {} ([] : List Text) = .ok w →
      (insertRow.run (fun _ => false) w).2 = .returned none) ∧
    transaction {} [] insertRow = ([], .returned (some canceled)) := by
  refine ⟨fun w h => ?_, rfl⟩
  cases h
  rfl

/-! ### Statements -/

/-- What comes back from `db.ExecContext`. -/
inductive Reply (R : Type*) where
  | acknowledged (result : R)
  /-- an error, after the statement has taken effect or not -/
  | failed (applied : Bool) (err : Text)
  deriving DecidableEq, Repr

def Reply.isAcknowledged : Reply R → Bool
  | .acknowledged _ => true
  | .failed _ _ => false

/-- The statement has taken effect. -/
def Reply.isApplied : Reply R → Bool
  | .acknowledged _ => true
  | .failed applied _ => applied

/-- The answers to one call of `Exec`. -/
structure Answers (R : Type*) where
  /-- The reply to each attempt. -/
  reply : ℕ → Reply R
  /-- The error of the context, if it ends in the wait before the attempt. -/
  ended : ℕ → Option Text := fun _ => none

def isRetryableError (_err : Text) : Bool := true

/-- `%w` of the last error -/
def wrapped : Option Text → Text
  | none => "%!w(<nil>)"
  | some err => err

/-- The loop of `Exec` when `left` attempts are left: the replies it gets, and its result. -/
def execFrom (maxRetries : ℤ) (env : Answers R) (err : Option Text) :
    ℕ → ℕ → List (Reply R) × Except Text R
  | 0, _ => ([], .error ("exec failed after ".toList ++ itoa (maxRetries + 1) ++
      " attempts: ".toList ++ wrapped err))
  | left + 1, attempt =>
    match (if attempt > 0 then env.ended attempt else none) with
    | some e => ([], .error e)
    | none =>
      match env.reply attempt with
      | .acknowledged result => ([.acknowledged result], .ok result)
      | .failed applied e =>
        if isRetryableError e = false then ([.failed applied e], .error e)
        else
          let r := execFrom maxRetries env (some e) left (attempt + 1)
          (.failed applied e :: r.1, r.2)

/-- `Exec` -/
def exec (maxRetries : ℤ) (env : Answers R) : List (Reply R) × Except Text R :=
  execFrom maxRetries env none (maxRetries + 1).toNat 0

section

variable {maxRetries : ℤ} {env : Answers R}

/-- The loop succeeds exactly if it gets an acknowledgement. -/
theorem execFrom_isOk_iff (err : Option Text) (left attempt : ℕ) :
    (execFrom maxRetries env err left attempt).2.isOk = true ↔
      ∃ r ∈ (execFrom maxRetries env err left attempt).1, r.isAcknowledged = true := by
  induction left generalizing err attempt with
  | zero => simp [execFrom, Except.isOk, Except.toBool]
  | succ left ih =>
    rw [execFrom]
    cases (if attempt > 0 then env.ended attempt else none) with
    | some e => simp [Except.isOk, Except.toBool]
    | none =>
      cases env.reply attempt with
      | acknowledged result => simp [Reply.isAcknowledged, Except.isOk, Except.toBool]
      | failed applied e =>
        simp only [isRetryableError, Bool.true_eq_false, if_false]
        rw [ih (some e) (attempt + 1)]
        simp [Reply.isAcknowledged]

/-- The replies that the loop gets: those up to the first acknowledgement, as long as no wait is
cut short. -/
theorem getElem?_execFrom {r : Reply R} (err : Option Text) (left attempt j : ℕ) :
    (execFrom maxRetries env err left attempt).1[j]? = some r ↔
      env.reply (attempt + j) = r ∧ j < left ∧ (0 < attempt → env.ended attempt = none) ∧
      ∀ k < j, (env.reply (attempt + k)).isAcknowledged = false ∧
        env.ended (attempt + k + 1) = none := by
  induction left generalizing err attempt j with
  | zero => simp [execFrom]
  | succ left ih =>
    rw [execFrom]
    by_cases hwait : 0 < attempt → env.ended attempt = none
    · have hgo : (if attempt > 0 then env.ended attempt else none) = none := by
        split_ifs with hpos
        · exact hwait hpos
        · rfl
      rw [hgo, and_iff_right hwait]
      cases j with
      | zero => cases env.reply attempt <;> simp [isRetryableError]
      | succ j =>
        rw [Nat.forall_lt_succ_left, Nat.add_zero]
        cases hr : env.reply attempt with
        | acknowledged result => simp [Reply.isAcknowledged]
        | failed applied e =>
          have hno : (Reply.failed applied e : Reply R).isAcknowledged = false := rfl
          have hshift (k : ℕ) : attempt + 1 + k = attempt + (k + 1) := by omega
          simp only [isRetryableError, Bool.true_eq_false, if_false, List.getElem?_cons_succ, ih,
            hno, true_and, hshift, Nat.succ_pos, forall_const, Nat.add_lt_add_iff_right]
    · obtain ⟨hpos, hended⟩ := Classical.not_imp.1 hwait
      obtain ⟨e, he⟩ := Option.ne_none_iff_exists'.1 hended
      rw [if_pos hpos, he]
      simp [hpos]

end

/-- At most one element satisfies `p` if no two do. -/
theorem countP_le_one_iff {α : Type*} (p : α → Bool) (l : List α) :
    l.countP p ≤ 1 ↔ l.Pairwise fun a b => ¬ (p a = true ∧ p b = true) := by
  induction l with
  | nil => simp
  | cons a l ih =>
    rw [List.pairwise_cons, ← ih]
    by_cases ha : p a = true
    · have hrest : (l.countP p = 0) ↔ ∀ b ∈ l, ¬ (p a = true ∧ p b = true) := by
        simp [List.countP_eq_zero, ha]
      rw [List.countP_cons_of_pos ha, ← hrest]
      omega
    · rw [List.countP_cons_of_neg ha]
      simp [ha]

/-- The attempt is made: no earlier one was acknowledged, and the context did not end. -/
def Answers.Makes (env : Answers R) (maxRetries : ℤ) (j : ℕ) : Prop :=
  j ≤ maxRetries ∧ ∀ k < j, (env.reply k).isAcknowledged = false ∧ env.ended (k + 1) = none

/-- **When `Exec` applies its statement at most once**: exactly if no attempt that takes effect is
made after another one.  It succeeds exactly if some attempt was acknowledged. -/
theorem exec_sound (maxRetries : ℤ) (env : Answers R) :
    ((exec maxRetries env).1.countP Reply.isApplied ≤ 1 ∧
      ((exec maxRetries env).2.isOk = true ↔
        ∃ r ∈ (exec maxRetries env).1, r.isAcknowledged = true)) ↔
    ∀ i j, i < j → env.Makes maxRetries j →
      ¬ ((env.reply i).isApplied = true ∧ (env.reply j).isApplied = true) := by
  have hget (j : ℕ) (r : Reply R) : (exec maxRetries env).1[j]? = some r ↔
      env.reply j = r ∧ env.Makes maxRetries j := by
    have hleft : j < (maxRetries + 1).toNat ↔ (j : ℤ) ≤ maxRetries := by omega
    rw [exec, getElem?_execFrom, Answers.Makes, hleft]
    simp
  have hearlier {i j : ℕ} (hij : i < j) (h : env.Makes maxRetries j) : env.Makes maxRetries i :=
    ⟨(Int.ofNat_le.2 hij.le).trans h.1, fun k hk => h.2 k (hk.trans hij)⟩
  have hnil : (exec maxRetries env).2.isOk = true ↔
      ∃ r ∈ (exec maxRetries env).1, r.isAcknowledged = true := execFrom_isOk_iff none _ 0
  rw [and_iff_left hnil, countP_le_one_iff, List.pairwise_iff_getElem]
  constructor
  · rintro h i j hij hmakes ⟨hi, hj⟩
    obtain ⟨hlt, hreply⟩ := List.getElem?_eq_some_iff.1 ((hget i _).2 ⟨rfl, hearlier hij hmakes⟩)
    obtain ⟨hlt', hreply'⟩ := List.getElem?_eq_some_iff.1 ((hget j _).2 ⟨rfl, hmakes⟩)
    exact h i j hlt hlt' hij ⟨by rwa [hreply], by rwa [hreply']⟩
  · intro h i j hlt hlt' hij
    obtain ⟨hi, -⟩ := (hget i _).1 (List.getElem?_eq_getElem hlt)
    obtain ⟨hj, hmakes⟩ := (hget j _).1 (List.getElem?_eq_getElem hlt')
    rw [← hi, ← hj]
    exact h i j hij hmakes

/-- The acknowledgement of the first attempt is lost and the second attempt succeeds. -/
def lostAck : Answers Unit where
  reply n := if n = 0 then .failed true "timeout" else .acknowledged ()

/-- The statement is applied twice. -/
theorem exec_applies_twice : (exec 3 lostAck).1.countP Reply.isApplied = 2 ∧
    (exec 3 lostAck).2.isOk = true := by
  decide

end EnhancedPool

end DbPool

end GinRpc
