import GinRpc.Orm.Dialect

/-!
# Query builders

Model of the builders of `plugins/db/orm`: `WhereBuilder`, `JoinOnBuilder`, `SelectBuilder`,
`UpdateBuilder` and `DeleteBuilder`.  A builder method becomes a function that returns the new
builder.  The type `α` of the arguments stays abstract.

A sub-builder handed to `With`, `Union` and the like is kept as a value.  The source keeps a
pointer and builds it later; the value is what it points to when the outer builder is built.
Calls with a `nil` sub-builder do nothing and are left out, as are the database handle and the
list of applied scopes, which no text depends on.  The type `int` is unbounded here: no argument
list is long enough for the number of a placeholder to overflow, so `Atoi` does not fail on it.
-/

namespace GinRpc

namespace Orm

open Text Woven

variable {α : Type*}

/-! ### Placeholders in texts -/

/-- Renumber the placeholders of a PostgreSQL query that is put after `offset` arguments. -/
def shiftPlaceholdersIfNeeded (query : Text) (dialect : Dialect) (offset : ℕ) : Text :=
  if offset = 0 then query
  else if dialect.isPostgreSQL then bump offset query
  else query

/-- Replace the `?` of a condition by placeholders of the dialect, from `startIndex` on. -/
def replaceConditionPlaceholders (condition : Text) (dialect : Dialect) (startIndex : ℕ) : Text :=
  if condition = [] then condition
  else replaceLoop dialect.placeholder (condition.count '?') startIndex condition

/-! ### WHERE -/

/-- Conditions with their arguments. -/
structure WhereBuilder (α : Type*) where
  conditions : List Text
  args : List α
  dialect : Dialect
  deriving DecidableEq, Repr

def newWhereBuilder (dialect : Dialect) : WhereBuilder α := ⟨[], [], dialect⟩

/-- The comparison helpers. -/
inductive CompareOp where
  | eq | ne | gt | gte | lt | lte | like
  deriving DecidableEq, Repr

def CompareOp.text : CompareOp → Text
  | .eq => " = "
  | .ne => " != "
  | .gt => " > "
  | .gte => " >= "
  | .lt => " < "
  | .lte => " <= "
  | .like => " LIKE "

/-- The connectives that join conditions. -/
inductive Connective where
  | and | or
  deriving DecidableEq, Repr

def Connective.text : Connective → Text
  | .and => "AND"
  | .or => "OR"

namespace WhereBuilder

/-- Add a condition as it is; `WhereRaw` and `Raw` are the same. -/
def where_ (wb : WhereBuilder α) (condition : Text) (args : List α) : WhereBuilder α :=
  { wb with conditions := wb.conditions ++ [condition], args := wb.args ++ args }

/-- Add a condition after a connective, which the first condition does not get. -/
def connect (conn : Connective) (wb : WhereBuilder α) (condition : Text) (args : List α) :
    WhereBuilder α :=
  { wb with
    conditions := wb.conditions ++
      [if wb.conditions.length > 0 then conn.text ++ " " ++ condition else condition]
    args := wb.args ++ args }

/-- `And` and `AndRaw` -/
def and (wb : WhereBuilder α) : Text → List α → WhereBuilder α := connect .and wb

/-- `Or` and `OrRaw` -/
def or (wb : WhereBuilder α) : Text → List α → WhereBuilder α := connect .or wb

/-- Add the conditions of another builder in parentheses. -/
def group (conn : Connective) (wb subBuilder : WhereBuilder α) : WhereBuilder α :=
  if subBuilder.conditions.length > 0 then
    wb.connect conn ("(" ++ List.intercalate " " subBuilder.conditions ++ ")") subBuilder.args
  else wb

/-- `Group`, `AndGroup` and `AndWhere` -/
def andWhere (wb : WhereBuilder α) (fn : WhereBuilder α → WhereBuilder α) : WhereBuilder α :=
  wb.group .and (fn (newWhereBuilder wb.dialect))

/-- `OrGroup` and `OrWhere` -/
def orWhere (wb : WhereBuilder α) (fn : WhereBuilder α → WhereBuilder α) : WhereBuilder α :=
  wb.group .or (fn (newWhereBuilder wb.dialect))

/-- A comparison of a column with a value. -/
def compare (op : CompareOp) (wb : WhereBuilder α) (column : Text) (value : α) : WhereBuilder α :=
  wb.where_ (wb.dialect.quoteIdentifier column ++ op.text ++ wb.dialect.placeholder wb.args.length)
    [value]

def eq (wb : WhereBuilder α) : Text → α → WhereBuilder α := compare .eq wb
def ne (wb : WhereBuilder α) : Text → α → WhereBuilder α := compare .ne wb
def gt (wb : WhereBuilder α) : Text → α → WhereBuilder α := compare .gt wb
def gte (wb : WhereBuilder α) : Text → α → WhereBuilder α := compare .gte wb
def lt (wb : WhereBuilder α) : Text → α → WhereBuilder α := compare .lt wb
def lte (wb : WhereBuilder α) : Text → α → WhereBuilder α := compare .lte wb
def like (wb : WhereBuilder α) : Text → α → WhereBuilder α := compare .like wb

/-- A comparison that ignores case. -/
def iLike (wb : WhereBuilder α) (column : Text) (value : α) : WhereBuilder α :=
  let quoted := wb.dialect.quoteIdentifier column
  let ph := wb.dialect.placeholder wb.args.length
  if wb.dialect.isPostgreSQL then wb.where_ (quoted ++ " ILIKE " ++ ph) [value]
  else wb.where_ ("LOWER(" ++ quoted ++ ") LIKE LOWER(" ++ ph ++ ")") [value]

/-- The placeholders of a value list. -/
def placeholders (wb : WhereBuilder α) (values : List α) : Text :=
  List.intercalate ", "
    (values.mapIdx fun i _ => wb.dialect.placeholder (wb.args.length + i))

def in_ (wb : WhereBuilder α) (column : Text) (values : List α) : WhereBuilder α :=
  if values.length = 0 then wb.where_ "1=0" []
  else
    let condition := wb.dialect.quoteIdentifier column ++ " IN (" ++ wb.placeholders values ++ ")"
    { wb with args := wb.args ++ values }.where_ condition []

def notIn (wb : WhereBuilder α) (column : Text) (values : List α) : WhereBuilder α :=
  if values.length = 0 then wb.where_ "1=1" []
  else
    let condition :=
      wb.dialect.quoteIdentifier column ++ " NOT IN (" ++ wb.placeholders values ++ ")"
    { wb with args := wb.args ++ values }.where_ condition []

def isNull (wb : WhereBuilder α) (column : Text) : WhereBuilder α :=
  wb.where_ (wb.dialect.quoteIdentifier column ++ " IS NULL") []

def isNotNull (wb : WhereBuilder α) (column : Text) : WhereBuilder α :=
  wb.where_ (wb.dialect.quoteIdentifier column ++ " IS NOT NULL") []

/-- `Between` and `NotBetween`, which differ in the words `op` after the column. -/
def range (op : Text) (wb : WhereBuilder α) (column : Text) (start stop : α) : WhereBuilder α :=
  let condition := wb.dialect.quoteIdentifier column ++ op ++
    wb.dialect.placeholder wb.args.length ++ " AND " ++ wb.dialect.placeholder (wb.args.length + 1)
  { wb with args := wb.args ++ [start, stop] }.where_ condition []

def between (wb : WhereBuilder α) : Text → α → α → WhereBuilder α := range " BETWEEN " wb
def notBetween (wb : WhereBuilder α) : Text → α → α → WhereBuilder α := range " NOT BETWEEN " wb

/-- A condition on a subquery that is given as a text. -/
def exists_ (wb : WhereBuilder α) (subquery : Text) (args : List α) : WhereBuilder α :=
  { wb with args := wb.args ++ args }.where_ ("EXISTS (" ++ subquery ++ ")") []

def notExists (wb : WhereBuilder α) (subquery : Text) (args : List α) : WhereBuilder α :=
  { wb with args := wb.args ++ args }.where_ ("NOT EXISTS (" ++ subquery ++ ")") []

/-- Put a built subquery between two texts. -/
def subquery (before after : Text) (wb : WhereBuilder α) (sub : Text × List α) : WhereBuilder α :=
  let q := shiftPlaceholdersIfNeeded sub.1 wb.dialect wb.args.length
  { wb with
    args := wb.args ++ sub.2
    conditions := wb.conditions ++ [before ++ q ++ after] }

/-- Drop all conditions. -/
def reset (wb : WhereBuilder α) : WhereBuilder α := { wb with conditions := [], args := [] }

/-- Replace the `?` of the conditions, with one counter for all of them. -/
def replaceAll (dialect : Dialect) : ℕ → List Text → List Text
  | _, [] => []
  | argIndex, condition :: rest =>
    replaceLoop dialect.placeholder (condition.count '?') argIndex condition ::
      replaceAll dialect (argIndex + condition.count '?') rest

/-- The `WHERE` clause, when `startIndex` arguments come before it. -/
def buildWithOffset (wb : WhereBuilder α) (startIndex : ℕ) : Text × List α :=
  if wb.conditions.length = 0 then ([], [])
  else ("WHERE " ++ List.intercalate " " (replaceAll wb.dialect startIndex wb.conditions), wb.args)

def build (wb : WhereBuilder α) : Text × List α := wb.buildWithOffset 0

end WhereBuilder

/-! ### JOIN -/

/-- Conditions of a join. -/
structure JoinOnBuilder (α : Type*) where
  conditions : List Text
  args : List α
  dialect : Dialect
  deriving DecidableEq, Repr

def newJoinOnBuilder (dialect : Dialect) : JoinOnBuilder α := ⟨[], [], dialect⟩

namespace JoinOnBuilder

/-- Add a condition as it is; `Raw` is the same. -/
def on (jb : JoinOnBuilder α) (condition : Text) (args : List α) : JoinOnBuilder α :=
  { jb with conditions := jb.conditions ++ [condition], args := jb.args ++ args }

/-- `And` and `Or` -/
def connect (conn : Connective) (jb : JoinOnBuilder α) (condition : Text) (args : List α) :
    JoinOnBuilder α :=
  { jb with
    conditions := jb.conditions ++
      [if jb.conditions.length > 0 then conn.text ++ " " ++ condition else condition]
    args := jb.args ++ args }

def eq (jb : JoinOnBuilder α) (left right : Text) : JoinOnBuilder α :=
  jb.on (jb.dialect.quoteIdentifier left ++ " = " ++ jb.dialect.quoteIdentifier right) []

def eqValue (jb : JoinOnBuilder α) (column : Text) (value : α) : JoinOnBuilder α :=
  jb.on (jb.dialect.quoteIdentifier column ++ " = ?") [value]

def build (jb : JoinOnBuilder α) : Text × List α :=
  if jb.conditions.length = 0 then ([], [])
  else (List.intercalate " " jb.conditions, jb.args)

end JoinOnBuilder

/-- A `JOIN` clause. -/
structure Join (α : Type*) where
  type : Text
  table : Text
  rawTable : Bool := false
  tableArgs : List α := []
  condition : Text
  args : List α
  deriving DecidableEq, Repr

/-- Append one `JOIN` clause to a query and its arguments; the three builders share this code. -/
def appendJoin (dialect : Dialect) (acc : Text × List α) (join : Join α) : Text × List α :=
  let (query, allArgs) := acc
  let tableExpr :=
    if join.rawTable then shiftPlaceholdersIfNeeded join.table dialect allArgs.length
    else dialect.quoteIdentifier join.table
  let allArgs := if join.rawTable then allArgs ++ join.tableArgs else allArgs
  let cond := replaceConditionPlaceholders join.condition dialect allArgs.length
  (query ++ (" " ++ join.type ++ " JOIN " ++ tableExpr ++ " ON " ++ cond), allArgs ++ join.args)

/-- Append the `WHERE` clause. -/
def appendWhere (wb : WhereBuilder α) (acc : Text × List α) : Text × List α :=
  let (whereClause, whereArgs) := wb.buildWithOffset acc.2.length
  if whereClause ≠ [] then (acc.1 ++ (" " ++ whereClause), acc.2 ++ whereArgs) else acc

/-! ### SELECT -/

/-- A common table expression. -/
structure CteClause (Q : Type*) where
  name : Text
  query : Q
  recursive : Bool := false

/-- A query to unite with. -/
structure UnionClause (Q : Type*) where
  all : Bool
  query : Q

/-- The fields of a `SelectBuilder` that `buildSelectCore` reads. -/
structure SelectCore (α : Type*) where
  table : Text
  rawTable : Bool := false
  tableArgs : List α := []
  columns : List Text := ["*".toList]
  joins : List (Join α) := []
  where_ : WhereBuilder α
  groupBy : List Text := []
  having : WhereBuilder α
  orderBy : List Text := []
  limit : ℤ := 0
  offset : ℤ := 0
  lockMode : Text := []
  dialect : Dialect

/-- A `SELECT` query under construction. -/
structure SelectBuilder (α : Type*) extends SelectCore α where
  ctes : List (CteClause (SelectBuilder α)) := []
  unions : List (UnionClause (SelectBuilder α)) := []

def newSelectBuilderWithDialect (table : Text) (dialect : Dialect) : SelectBuilder α where
  table := table
  where_ := newWhereBuilder dialect
  having := newWhereBuilder dialect
  dialect := dialect

namespace SelectCore

/-- The column list. -/
def quotedColumns (sb : SelectCore α) : List Text :=
  sb.columns.map fun column =>
    if column = "*".toList ∨ "DISTINCT ".toList.isPrefixOf column then column
    else sb.dialect.quoteIdentifier column

/-- The `FROM` expression. -/
def fromExpr (sb : SelectCore α) : Text :=
  if sb.rawTable then sb.table else sb.dialect.quoteIdentifier sb.table

/-- Append the `HAVING` clause, written as a `WHERE` clause first. -/
def appendHaving (wb : WhereBuilder α) (acc : Text × List α) : Text × List α :=
  let (havingClause, havingArgs) := wb.buildWithOffset acc.2.length
  if havingClause ≠ [] then
    (acc.1 ++ (" " ++ replaceFirst "WHERE" "HAVING" havingClause), acc.2 ++ havingArgs)
  else acc

/-- The query without common table expressions and unions. -/
def buildSelectCore (sb : SelectCore α) : Text × List α :=
  let query := "SELECT " ++ List.intercalate ", " sb.quotedColumns ++ " FROM " ++ sb.fromExpr
  let acc := sb.joins.foldl (appendJoin sb.dialect) (query, sb.tableArgs)
  let acc := appendWhere sb.where_ acc
  let acc := if sb.groupBy.length > 0 then
      (acc.1 ++ (" GROUP BY " ++
        List.intercalate ", " (sb.groupBy.map sb.dialect.quoteIdentifier)), acc.2)
    else acc
  let acc := appendHaving sb.having acc
  let query := acc.1
  let query := if sb.orderBy.length > 0 then
    query ++ (" ORDER BY " ++ List.intercalate ", " sb.orderBy) else query
  let limitOffsetClause := sb.dialect.limitOffset sb.limit sb.offset
  let query := if limitOffsetClause ≠ [] then query ++ (" " ++ limitOffsetClause) else query
  let query := if sb.lockMode ≠ [] then query ++ (" " ++ sb.lockMode) else query
  (query, acc.2)

end SelectCore

mutual

/-- The query text and its arguments. -/
def SelectBuilder.build : SelectBuilder α → Text × List α
  | ⟨core, ctes, unions⟩ =>
    match ctes with
    | [] => appendUnions core.dialect unions core.buildSelectCore
    | c :: cs =>
      let (cteParts, allArgs) := buildCtes core.dialect (c :: cs) ([], [])
      let keyword : Text :=
        if (c :: cs).any fun c => c.recursive then "WITH RECURSIVE " else "WITH "
      let (mainQuery, mainArgs) := core.buildSelectCore
      let mainQuery := shiftPlaceholdersIfNeeded mainQuery core.dialect allArgs.length
      appendUnions core.dialect unions
        (keyword ++ List.intercalate ", " cteParts ++ " " ++ mainQuery, allArgs ++ mainArgs)

/-- The loop over the common table expressions. -/
def buildCtes (dialect : Dialect) :
    List (CteClause (SelectBuilder α)) → List Text × List α → List Text × List α
  | [], acc => acc
  | ⟨name, query, _⟩ :: rest, (cteParts, allArgs) =>
    let (q, args) := query.build
    let q := shiftPlaceholdersIfNeeded q dialect allArgs.length
    buildCtes dialect rest
      (cteParts ++ [dialect.quoteIdentifier name ++ " AS (" ++ q ++ ")"], allArgs ++ args)

/-- The loop over the unions. -/
def appendUnions (dialect : Dialect) :
    List (UnionClause (SelectBuilder α)) → Text × List α → Text × List α
  | [], acc => acc
  | ⟨all, query⟩ :: rest, (text, args) =>
    let (q, a) := query.build
    let q := shiftPlaceholdersIfNeeded q dialect args.length
    let keyword : Text := if all then " UNION ALL " else " UNION "
    appendUnions dialect rest (text ++ (keyword ++ q), args ++ a)

end

namespace WhereBuilder

def existsSubquery (wb : WhereBuilder α) (sub : SelectBuilder α) : WhereBuilder α :=
  wb.subquery "EXISTS (" ")" sub.build

def notExistsSubquery (wb : WhereBuilder α) (sub : SelectBuilder α) : WhereBuilder α :=
  wb.subquery "NOT EXISTS (" ")" sub.build

def inSubquery (wb : WhereBuilder α) (column : Text) (sub : SelectBuilder α) : WhereBuilder α :=
  wb.subquery (wb.dialect.quoteIdentifier column ++ " IN (") ")" sub.build

def notInSubquery (wb : WhereBuilder α) (column : Text) (sub : SelectBuilder α) : WhereBuilder α :=
  wb.subquery (wb.dialect.quoteIdentifier column ++ " NOT IN (") ")" sub.build

end WhereBuilder

namespace SelectBuilder

variable (sb : SelectBuilder α)

def fromRaw (tableExpr : Text) (args : List α) : SelectBuilder α :=
  { sb with table := tableExpr, rawTable := true, tableArgs := args }

def fromSubquery (sub : SelectBuilder α) (alias_ : Text) : SelectBuilder α :=
  let (q, args) := sub.build
  let q := shiftPlaceholdersIfNeeded q sb.dialect 0
  { sb with table := "(" ++ q ++ ") " ++ alias_, rawTable := true, tableArgs := args }

/-- `Table` -/
def setTable (table : Text) : SelectBuilder α :=
  { sb with table := table, rawTable := false, tableArgs := [] }

def with_ (name : Text) (q : SelectBuilder α) : SelectBuilder α :=
  let name := trimSpace name
  if name = [] then sb else { sb with ctes := sb.ctes ++ [{ name := name, query := q }] }

def union (q : SelectBuilder α) : SelectBuilder α :=
  { sb with unions := sb.unions ++ [{ all := false, query := q }] }

def unionAll (q : SelectBuilder α) : SelectBuilder α :=
  { sb with unions := sb.unions ++ [{ all := true, query := q }] }

/-- `Clone` copies every field. -/
def clone : SelectBuilder α := sb

def withRecursive (name : Text) (seed recursive : SelectBuilder α) : SelectBuilder α :=
  let name := trimSpace name
  if name = [] then sb
  else
    let combined := seed.clone.unionAll recursive
    { sb with ctes := sb.ctes ++ [{ name := name, query := combined, recursive := true }] }

/-- The alias of a derived table. -/
def aliasOrDefault (alias_ : Text) : Text :=
  let alias_ := trimSpace alias_
  if alias_ = [] then "t" else alias_

def asDerived (alias_ : Text) : SelectBuilder α :=
  let alias_ := aliasOrDefault alias_
  let (q, args) := sb.build
  (newSelectBuilderWithDialect "ignored" sb.dialect).fromRaw ("(" ++ q ++ ") " ++ alias_) args

/-- `JoinSubquery`, `LeftJoinSubquery` and `RightJoinSubquery` -/
def joinSubquery (type : Text) (sub : SelectBuilder α) (alias_ condition : Text) (args : List α) :
    SelectBuilder α :=
  let alias_ := aliasOrDefault alias_
  let (q, subArgs) := sub.build
  { sb with
    joins := sb.joins ++ [{ type := type, table := "(" ++ q ++ ") " ++ alias_, rawTable := true,
                            tableArgs := subArgs, condition := condition, args := args }] }

/-- `JoinOn`, `LeftJoinOn` and `RightJoinOn` -/
def joinOn (type table : Text) (fn : JoinOnBuilder α → JoinOnBuilder α) : SelectBuilder α :=
  let (cond, args) := (fn (newJoinOnBuilder sb.dialect)).build
  { sb with
      joins := sb.joins ++ [{ type := type, table := table, condition := cond, args := args }] }

/-- `JoinSubqueryOn` and `LeftJoinSubqueryOn` -/
def joinSubqueryOn (type : Text) (sub : SelectBuilder α) (alias_ : Text)
    (fn : JoinOnBuilder α → JoinOnBuilder α) : SelectBuilder α :=
  let (cond, args) := (fn (newJoinOnBuilder sb.dialect)).build
  sb.joinSubquery type sub alias_ cond args

/-- A join of a checked table; ignored if a check fails. -/
def joinWithType (joinType table condition : Text) (args : List α) : SelectBuilder α :=
  match normalizeJoinType joinType, validateJoinTableReference table with
  | .ok type, .ok () =>
    { sb with
      joins := sb.joins ++
        [{ type := type, table := table, condition := condition, args := args }] }
  | _, _ => sb

def joinWithTypeRaw (joinType table condition : Text) (args : List α) : SelectBuilder α :=
  { sb with
    joins := sb.joins ++ [{ type := joinType, table := table, rawTable := true,
                            condition := condition, args := args }] }

def join : Text → Text → List α → SelectBuilder α := sb.joinWithType "INNER"
def leftJoin : Text → Text → List α → SelectBuilder α := sb.joinWithType "LEFT"
def rightJoin : Text → Text → List α → SelectBuilder α := sb.joinWithType "RIGHT"

def fullOuterJoin (table condition : Text) (args : List α) : SelectBuilder α :=
  if sb.dialect.supportsFeature .fullOuterJoin then
    sb.joinWithType "FULL OUTER" table condition args
  else sb.joinWithType "LEFT" table condition args

/-- `Columns`, and `Select` -/
def setColumns (columns : List Text) : SelectBuilder α := { sb with columns := columns }

def column (column : Text) : SelectBuilder α := { sb with columns := sb.columns ++ [column] }

def distinct : SelectBuilder α := { sb with columns := "DISTINCT".toList :: sb.columns }

/-- Add the items that pass the check. -/
def orderByItems (order : List Text) : SelectBuilder α :=
  { sb with
    orderBy := sb.orderBy ++ order.filterMap fun item =>
      (buildSafeOrderByItem sb.dialect item).toOption }

def orderByRaw (order : List Text) : SelectBuilder α := { sb with orderBy := sb.orderBy ++ order }

/-- `OrderByAsc` and `OrderByDesc` -/
def orderByDirection (direction column : Text) : SelectBuilder α :=
  { sb with orderBy := sb.orderBy ++ [sb.dialect.quoteIdentifier column ++ direction] }

def orderByAsc : Text → SelectBuilder α := sb.orderByDirection " ASC"
def orderByDesc : Text → SelectBuilder α := sb.orderByDirection " DESC"

/-- `Limit` -/
def setLimit (limit : ℤ) : SelectBuilder α := { sb with limit := limit }

/-- `Offset` -/
def setOffset (offset : ℤ) : SelectBuilder α := { sb with offset := offset }

def forUpdate : SelectBuilder α := { sb with lockMode := sb.dialect.lockForUpdate }

/-- `ForUpdateNowait` and `ForUpdateSkipLocked` -/
def forUpdateWith (suffix : Text) : SelectBuilder α :=
  let lockMode := sb.dialect.lockForUpdate
  { sb with lockMode := if lockMode ≠ [] then lockMode ++ suffix else lockMode }

def forUpdateNowait : SelectBuilder α := sb.forUpdateWith " NOWAIT"
def forUpdateSkipLocked : SelectBuilder α := sb.forUpdateWith " SKIP LOCKED"

def lockInShareMode : SelectBuilder α := { sb with lockMode := sb.dialect.lockInShareMode }

def lock (lockMode : Text) : SelectBuilder α := { sb with lockMode := lockMode }

/-- `GroupBy` -/
def groupByColumns (columns : List Text) : SelectBuilder α :=
  { sb with groupBy := sb.groupBy ++ columns }

/-- A method of the `WHERE` builder. -/
def onWhere (f : WhereBuilder α → WhereBuilder α) : SelectBuilder α :=
  { sb with where_ := f sb.where_ }

/-- A method of the `HAVING` builder. -/
def onHaving (f : WhereBuilder α → WhereBuilder α) : SelectBuilder α :=
  { sb with having := f sb.having }

def count : SelectBuilder α := { sb.clone with columns := ["COUNT(*)".toList] }

/-- `CountColumn`, `Sum`, `Avg`, `Max` and `Min` -/
def aggregate (fn column : Text) : SelectBuilder α :=
  { sb.clone with columns := [fn ++ "(" ++ sb.dialect.quoteIdentifier column ++ ")"] }

def countColumn : Text → SelectBuilder α := sb.aggregate "COUNT"
def sum : Text → SelectBuilder α := sb.aggregate "SUM"
def avg : Text → SelectBuilder α := sb.aggregate "AVG"
def max : Text → SelectBuilder α := sb.aggregate "MAX"
def min : Text → SelectBuilder α := sb.aggregate "MIN"

/-- Everything but the table, the common table expressions and the unions is cleared. -/
def reset : SelectBuilder α :=
  { sb with
    columns := ["*".toList], joins := [], where_ := newWhereBuilder sb.dialect, groupBy := []
    having := newWhereBuilder sb.dialect, orderBy := [], limit := 0, offset := 0, lockMode := [] }

end SelectBuilder

/-! ### UPDATE and DELETE -/

/-- What a column is set to: a value, or a `SQLExpr`. -/
inductive SetValue (α : Type*) where
  | value (v : α)
  | expr (sql : Text) (args : List α)
  deriving DecidableEq, Repr

/-- An `UPDATE` statement under construction.  The map `data` is the list of its entries in the
order of their keys, in which `Build` visits them. -/
structure UpdateBuilder (α : Type*) where
  table : Text
  data : List (Text × SetValue α) := []
  where_ : WhereBuilder α
  joins : List (Join α) := []
  orderBy : List Text := []
  limit : ℤ := 0
  dialect : Dialect
  versionField : Text := "version"

/-- A `DELETE` statement under construction. -/
structure DeleteBuilder (α : Type*) where
  table : Text
  where_ : WhereBuilder α
  joins : List (Join α) := []
  orderBy : List Text := []
  limit : ℤ := 0
  dialect : Dialect

/-- `ORDER BY` and `LIMIT` of an `UPDATE` or `DELETE`. -/
def appendOrderLimit (dialect : Dialect) (orderBy : List Text) (limit : ℤ) (query : Text) : Text :=
  let query := if orderBy.length > 0 then
    query ++ (" ORDER BY " ++ List.intercalate ", " orderBy) else query
  if limit > 0 then
    let limitClause := dialect.limitOffset limit 0
    if limitClause ≠ [] then query ++ (" " ++ limitClause) else query
  else query

/-- `m[key] = v` for a map given by its sorted entries. -/
def mapSet (key : Text) (v : SetValue α) : List (Text × SetValue α) → List (Text × SetValue α)
  | [] => [(key, v)]
  | (k, w) :: rest =>
    if k = key then (key, v) :: rest
    else if less key k then (key, v) :: (k, w) :: rest
    else (k, w) :: mapSet key v rest

def newUpdateBuilderWithDialect (table : Text) (dialect : Dialect) : UpdateBuilder α where
  table := table
  where_ := newWhereBuilder dialect
  dialect := dialect

def newDeleteBuilderWithDialect (table : Text) (dialect : Dialect) : DeleteBuilder α where
  table := table
  where_ := newWhereBuilder dialect
  dialect := dialect

namespace UpdateBuilder

variable (ub : UpdateBuilder α)

/-- `Set` -/
def setColumn (column : Text) (value : α) : UpdateBuilder α :=
  { ub with data := mapSet column (.value value) ub.data }

def setExpr (column expr : Text) (args : List α) : UpdateBuilder α :=
  { ub with data := mapSet column (.expr expr args) ub.data }

def inc (column : Text) (amount : α) : UpdateBuilder α :=
  ub.setExpr column (ub.dialect.quoteIdentifier column ++ " + ?") [amount]

def dec (column : Text) (amount : α) : UpdateBuilder α :=
  ub.setExpr column (ub.dialect.quoteIdentifier column ++ " - ?") [amount]

/-- A method of the `WHERE` builder. -/
def onWhere (f : WhereBuilder α → WhereBuilder α) : UpdateBuilder α :=
  { ub with where_ := f ub.where_ }

/-- One assignment of the `SET` clause. -/
def appendSet (dialect : Dialect) (acc : List Text × List α) (entry : Text × SetValue α) :
    List Text × List α :=
  let (setParts, args) := acc
  let quotedKey := dialect.quoteIdentifier entry.1
  match entry.2 with
  | .expr sql exprArgs =>
    (setParts ++ [quotedKey ++ " = " ++ replaceConditionPlaceholders sql dialect args.length],
      args ++ exprArgs)
  | .value v => (setParts ++ [quotedKey ++ " = " ++ dialect.placeholder args.length], args ++ [v])

def build : Text × List α :=
  if ub.data.length = 0 then ([], [])
  else
    let (setParts, args) := ub.data.foldl (appendSet ub.dialect) ([], [])
    let query := "UPDATE " ++ ub.dialect.quoteIdentifier ub.table ++ " SET " ++
      List.intercalate ", " setParts
    let acc := ub.joins.foldl (appendJoin ub.dialect) (query, args)
    let acc := appendWhere ub.where_ acc
    (appendOrderLimit ub.dialect ub.orderBy ub.limit acc.1, acc.2)

end UpdateBuilder

namespace DeleteBuilder

variable (db : DeleteBuilder α)

/-- A method of the `WHERE` builder. -/
def onWhere (f : WhereBuilder α → WhereBuilder α) : DeleteBuilder α :=
  { db with where_ := f db.where_ }

def build : Text × List α :=
  let query : Text := "DELETE FROM " ++ db.dialect.quoteIdentifier db.table
  let acc := db.joins.foldl (appendJoin db.dialect) (query, [])
  let acc := appendWhere db.where_ acc
  (appendOrderLimit db.dialect db.orderBy db.limit acc.1, acc.2)

end DeleteBuilder

end Orm

end GinRpc
