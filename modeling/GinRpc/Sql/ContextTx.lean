import GinRpc.Text.Basic

/-!
# Transactions that belong to a context

Transactions as in Go's `database/sql`.  `BeginTx` starts a goroutine that rolls the transaction
back when its context is done; that happens some time later, between two operations of the
goroutine that uses the transaction.  `Commit` asks the context first.

* `World` : what is durable in a database without faults, and one transaction.
* `Prog` : a function that uses the transaction, as a tree that branches on the errors it sees.
* `Prog.run` : its run.  `awaits n` says whether the background goroutine runs before the `n`-th
  operation.
* `Prog.run_canceled` : once the context is done, nothing becomes durable any more.
-/

namespace GinRpc

namespace Sql

variable {Stmt : Type*}

/-- A database and a transaction on it. -/
structure World (Stmt : Type*) where
  durable : List Stmt
  /-- The context of the transaction is done. -/
  ctxDone : Bool := false
  /-- The transaction was committed or rolled back. -/
  txDone : Bool := false
  /-- The changes of the transaction. -/
  written : List Stmt := []
  /-- All statements executed on the transaction. -/
  executed : List Stmt := []
  /-- The number of operations on the transaction. -/
  ops : ℕ := 0
  deriving DecidableEq, Repr

/-- `sql.ErrTxDone` -/
def errTxDone : Text := "sql: transaction has already been committed or rolled back"

/-- `context.Canceled` -/
def canceled : Text := "context canceled"

namespace World

/-- The goroutine that awaits the end of the context. -/
def awaitDone (w : World Stmt) : World Stmt :=
  if w.ctxDone = true ∧ w.txDone = false then { w with txDone := true, written := [] } else w

/-- What has happened when the next operation begins. -/
def next (awaits : ℕ → Bool) (w : World Stmt) : World Stmt :=
  { (if awaits w.ops then w.awaitDone else w) with ops := w.ops + 1 }

/-- `tx.ExecContext` -/
def exec (w : World Stmt) (stmt : Stmt) : World Stmt × Option Text :=
  if w.txDone then (w, some errTxDone)
  else ({ w with written := w.written ++ [stmt], executed := w.executed ++ [stmt] }, none)

/-- `tx.Commit` -/
def commit (w : World Stmt) : World Stmt × Option Text :=
  if w.ctxDone then (w, some (if w.txDone then errTxDone else canceled))
  else if w.txDone then (w, some errTxDone)
  else ({ w with durable := w.durable ++ w.written, written := [], txDone := true }, none)

/-- `tx.Rollback` -/
def rollback (w : World Stmt) : World Stmt × Option Text :=
  if w.txDone then (w, some errTxDone) else ({ w with written := [], txDone := true }, none)

end World

/-- A function that uses a transaction. -/
inductive Prog (Stmt : Type*) where
  | ret (err : Option Text)
  | raise (value : Text)
  | exec (stmt : Stmt) (k : Option Text → Prog Stmt)
  | commit (k : Option Text → Prog Stmt)
  | rollback (k : Option Text → Prog Stmt)

/-- How a function ends. -/
inductive Exit where
  | returned (err : Option Text)
  | panicked (value : Text)
  deriving DecidableEq, Repr

/-- The run of a function. -/
def Prog.run (awaits : ℕ → Bool) : Prog Stmt → World Stmt → World Stmt × Exit
  | .ret err, w => (w, .returned err)
  | .raise value, w => (w, .panicked value)
  | .exec stmt k, w =>
    let r := (w.next awaits).exec stmt
    (k r.2).run awaits r.1
  | .commit k, w =>
    let r := (w.next awaits).commit
    (k r.2).run awaits r.1
  | .rollback k, w =>
    let r := (w.next awaits).rollback
    (k r.2).run awaits r.1

/-! ### After the context is done -/

/-- The context is done and the durable changes are those of `l`. -/
def World.Canceled (l : List Stmt) (w : World Stmt) : Prop := w.ctxDone = true ∧ w.durable = l

namespace World

variable {l : List Stmt} {w : World Stmt}

theorem Canceled.next (awaits : ℕ → Bool) (h : w.Canceled l) : (w.next awaits).Canceled l := by
  unfold World.next World.awaitDone
  split_ifs
  · exact h
  · exact h
  · exact h

theorem Canceled.exec (stmt : Stmt) (h : w.Canceled l) : (w.exec stmt).1.Canceled l := by
  unfold World.exec
  split_ifs
  · exact h
  · exact h

theorem Canceled.rollback (h : w.Canceled l) : w.rollback.1.Canceled l := by
  unfold World.rollback
  split_ifs
  · exact h
  · exact h

/-- `Commit` fails and changes nothing. -/
theorem Canceled.commit (h : w.Canceled l) : w.commit.1.Canceled l ∧ w.commit.2 ≠ none := by
  rw [World.commit, if_pos h.1]
  exact ⟨h, Option.some_ne_none _⟩

end World

/-- **Once its context is done, a transaction leaves no change in the database.** -/
theorem Prog.run_canceled (awaits : ℕ → Bool) (fn : Prog Stmt) {l : List Stmt} {w : World Stmt}
    (h : w.Canceled l) : (fn.run awaits w).1.Canceled l := by
  induction fn generalizing w with
  | ret err => exact h
  | raise value => exact h
  | exec stmt k ih => exact ih _ ((h.next awaits).exec stmt)
  | commit k ih => exact ih _ (h.next awaits).commit.1
  | rollback k ih => exact ih _ (h.next awaits).rollback

end Sql

end GinRpc
