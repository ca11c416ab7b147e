import GinRpc.Orm.Builders

/-!
# Sequences of builder calls

A use of a builder is a list of calls.  The methods of one family share a constructor, and the
sub-builders of a call have an arbitrary type `σ`, so that one list of calls can be run on the
builders (`SelectBuilder.call`) and interpreted in another way.

`Fits b` is what is asked of the texts handed to a call: a raw fragment has as many `?` as
arguments, other texts have none; if placeholders are numbered (`b`), moreover no digit follows a
`$` or a `?` in them.
-/

namespace GinRpc

namespace Orm

open Text Woven

variable {α σ : Type*}

/-! ### Calls -/

/-- A call of a method of `WhereBuilder` that adds a condition, or of `Reset`. -/
inductive WhereCall (α σ : Type*) where
  /-- `Where`, `WhereRaw`, `Raw` -/
  | raw (condition : Text) (args : List α)
  /-- `And`, `AndRaw`, `Or`, `OrRaw` -/
  | connect (conn : Connective) (condition : Text) (args : List α)
  /-- `Eq`, `Ne`, `Gt`, `Gte`, `Lt`, `Lte`, `Like` -/
  | compare (op : CompareOp) (column : Text) (value : α)
  | iLike (column : Text) (value : α)
  /-- `In`, `NotIn` -/
  | in_ (negated : Bool) (column : Text) (values : List α)
  /-- `IsNull`, `IsNotNull` -/
  | isNull (negated : Bool) (column : Text)
  /-- `Between`, `NotBetween` -/
  | between (negated : Bool) (column : Text) (start stop : α)
  /-- `Exists`, `NotExists` -/
  | exists_ (negated : Bool) (subquery : Text) (args : List α)
  /-- `ExistsSubquery`, `NotExistsSubquery` -/
  | existsSubquery (negated : Bool) (sub : σ)
  /-- `InSubquery`, `NotInSubquery` -/
  | inSubquery (negated : Bool) (column : Text) (sub : σ)
  /-- `Group`, `AndGroup`, `AndWhere`, `OrGroup`, `OrWhere` -/
  | group (conn : Connective) (calls : List (WhereCall α σ))
  | reset

/-- A call of a method of `JoinOnBuilder`. -/
inductive JoinCall (α : Type*) where
  /-- `On`, `Raw` -/
  | on (condition : Text) (args : List α)
  /-- `And`, `Or` -/
  | connect (conn : Connective) (condition : Text) (args : List α)
  | eq (left right : Text)
  | eqValue (column : Text) (value : α)
  deriving DecidableEq, Repr

/-- The kinds of joins that have methods of their own. -/
inductive Side where
  | inner | left | right
  deriving DecidableEq, Repr

def Side.text : Side → Text
  | .inner => "INNER"
  | .left => "LEFT"
  | .right => "RIGHT"

/-- The variants of `ForUpdate`. -/
inductive LockWait where
  | wait | nowait | skipLocked
  deriving DecidableEq, Repr

/-- The aggregate functions. -/
inductive AggregateFn where
  | count | sum | avg | max | min
  deriving DecidableEq, Repr

def AggregateFn.text : AggregateFn → Text
  | .count => "COUNT"
  | .sum => "SUM"
  | .avg => "AVG"
  | .max => "MAX"
  | .min => "MIN"

/-- A call of a method of `SelectBuilder` that returns the builder or a variant of it. -/
inductive SelectCall (α σ : Type*) where
  | fromRaw (tableExpr : Text) (args : List α)
  | fromSubquery (sub : σ) (alias_ : Text)
  | table (table : Text)
  | with_ (name : Text) (q : σ)
  | withRecursive (name : Text) (seed recursive : σ)
  /-- `Union`, `UnionAll` -/
  | union (all : Bool) (q : σ)
  /-- `JoinWithType`, `Join`, `LeftJoin`, `RightJoin` -/
  | join (joinType table condition : Text) (args : List α)
  | fullOuterJoin (table condition : Text) (args : List α)
  | joinRaw (joinType table condition : Text) (args : List α)
  /-- `JoinOn`, `LeftJoinOn`, `RightJoinOn` -/
  | joinOn (side : Side) (table : Text) (on : List (JoinCall α))
  /-- `JoinSubquery`, `LeftJoinSubquery`, `RightJoinSubquery` -/
  | joinSubquery (side : Side) (sub : σ) (alias_ condition : Text) (args : List α)
  /-- `JoinSubqueryOn`, `LeftJoinSubqueryOn` -/
  | joinSubqueryOn (side : Side) (sub : σ) (alias_ : Text) (on : List (JoinCall α))
  | columns (columns : List Text)
  | column (column : Text)
  | distinct
  | orderBy (order : List Text)
  | orderByRaw (order : List Text)
  /-- `OrderByAsc`, `OrderByDesc` -/
  | orderByDirection (descending : Bool) (column : Text)
  | limit (limit : ℤ)
  | offset (offset : ℤ)
  | forUpdate (mode : LockWait)
  | lockInShareMode
  | lock (lockMode : Text)
  | groupBy (columns : List Text)
  | where_ (c : WhereCall α σ)
  | having (c : WhereCall α σ)
  | count
  | aggregate (fn : AggregateFn) (column : Text)
  | reset

/-! ### Running calls on the builders -/

mutual

/-- One call on a `WhereBuilder`; `f` gives the sub-builders. -/
def WhereBuilder.call (f : σ → SelectBuilder α) : WhereCall α σ → WhereBuilder α → WhereBuilder α
  | .raw condition args, wb => wb.where_ condition args
  | .connect conn condition args, wb => wb.connect conn condition args
  | .compare op column value, wb => wb.compare op column value
  | .iLike column value, wb => wb.iLike column value
  | .in_ false column values, wb => wb.in_ column values
  | .in_ true column values, wb => wb.notIn column values
  | .isNull false column, wb => wb.isNull column
  | .isNull true column, wb => wb.isNotNull column
  | .between false column start stop, wb => wb.between column start stop
  | .between true column start stop, wb => wb.notBetween column start stop
  | .exists_ false subquery args, wb => wb.exists_ subquery args
  | .exists_ true subquery args, wb => wb.notExists subquery args
  | .existsSubquery false sub, wb => wb.existsSubquery (f sub)
  | .existsSubquery true sub, wb => wb.notExistsSubquery (f sub)
  | .inSubquery false column sub, wb => wb.inSubquery column (f sub)
  | .inSubquery true column sub, wb => wb.notInSubquery column (f sub)
  | .group .and calls, wb => wb.andWhere (WhereBuilder.callAll f calls)
  | .group .or calls, wb => wb.orWhere (WhereBuilder.callAll f calls)
  | .reset, wb => wb.reset

/-- A list of calls on a `WhereBuilder`. -/
def WhereBuilder.callAll (f : σ → SelectBuilder α) :
    List (WhereCall α σ) → WhereBuilder α → WhereBuilder α
  | [], wb => wb
  | c :: calls, wb => WhereBuilder.callAll f calls (WhereBuilder.call f c wb)

end

/-- One call on a `JoinOnBuilder`. -/
def JoinOnBuilder.call (jb : JoinOnBuilder α) : JoinCall α → JoinOnBuilder α
  | .on condition args => jb.on condition args
  | .connect conn condition args => jb.connect conn condition args
  | .eq left right => jb.eq left right
  | .eqValue column value => jb.eqValue column value

/-- A list of calls on a `JoinOnBuilder`. -/
def JoinOnBuilder.callAll (calls : List (JoinCall α)) (jb : JoinOnBuilder α) : JoinOnBuilder α :=
  calls.foldl JoinOnBuilder.call jb

/-- One call on a `SelectBuilder`; `f` gives the sub-builders. -/
def SelectBuilder.call (f : σ → SelectBuilder α) (sb : SelectBuilder α) :
    SelectCall α σ → SelectBuilder α
  | .fromRaw tableExpr args => sb.fromRaw tableExpr args
  | .fromSubquery sub alias_ => sb.fromSubquery (f sub) alias_
  | .table table => sb.setTable table
  | .with_ name q => sb.with_ name (f q)
  | .withRecursive name seed recursive => sb.withRecursive name (f seed) (f recursive)
  | .union false q => sb.union (f q)
  | .union true q => sb.unionAll (f q)
  | .join joinType table condition args => sb.joinWithType joinType table condition args
  | .fullOuterJoin table condition args => sb.fullOuterJoin table condition args
  | .joinRaw joinType table condition args => sb.joinWithTypeRaw joinType table condition args
  | .joinOn side table on => sb.joinOn side.text table (JoinOnBuilder.callAll on)
  | .joinSubquery side sub alias_ condition args =>
    sb.joinSubquery side.text (f sub) alias_ condition args
  | .joinSubqueryOn side sub alias_ on =>
    sb.joinSubqueryOn side.text (f sub) alias_ (JoinOnBuilder.callAll on)
  | .columns columns => sb.setColumns columns
  | .column column => sb.column column
  | .distinct => sb.distinct
  | .orderBy order => sb.orderByItems order
  | .orderByRaw order => sb.orderByRaw order
  | .orderByDirection false column => sb.orderByAsc column
  | .orderByDirection true column => sb.orderByDesc column
  | .limit limit => sb.setLimit limit
  | .offset offset => sb.setOffset offset
  | .forUpdate .wait => sb.forUpdate
  | .forUpdate .nowait => sb.forUpdateNowait
  | .forUpdate .skipLocked => sb.forUpdateSkipLocked
  | .lockInShareMode => sb.lockInShareMode
  | .lock lockMode => sb.lock lockMode
  | .groupBy columns => sb.groupByColumns columns
  | .where_ c => sb.onWhere (WhereBuilder.call f c)
  | .having c => sb.onHaving (WhereBuilder.call f c)
  | .count => sb.count
  | .aggregate fn column => sb.aggregate fn.text column
  | .reset => sb.reset

/-! ### Subqueries and texts of a call -/

mutual

/-- The sub-builders of a call. -/
def WhereCall.subs : WhereCall α σ → List σ
  | .existsSubquery _ sub => [sub]
  | .inSubquery _ _ sub => [sub]
  | .group _ calls => WhereCall.subsAll calls
  | _ => []

/-- The sub-builders of a list of calls. -/
def WhereCall.subsAll : List (WhereCall α σ) → List σ
  | [] => []
  | c :: calls => WhereCall.subs c ++ WhereCall.subsAll calls

end

/-- The sub-builders of a call. -/
def SelectCall.subs : SelectCall α σ → List σ
  | .fromSubquery sub _ => [sub]
  | .with_ _ q => [q]
  | .withRecursive _ seed recursive => [seed, recursive]
  | .union _ q => [q]
  | .joinSubquery _ sub _ _ _ => [sub]
  | .joinSubqueryOn _ sub _ _ => [sub]
  | .where_ c => c.subs
  | .having c => c.subs
  | _ => []

/-- A text that is no raw fragment. -/
def Quiet (b : Bool) (t : Text) : Prop := '?' ∉ t ∧ (b = true → Spaced t)

/-- A raw fragment with its arguments. -/
def Fragment (b : Bool) (t : Text) (args : List α) : Prop :=
  t.count '?' = args.length ∧ (b = true → Spaced t)

mutual

/-- The texts of a call are as they should be. -/
def WhereCall.Fits (b : Bool) : WhereCall α σ → Prop
  | .raw condition args => Fragment b condition args
  | .connect _ condition args => Fragment b condition args
  | .compare _ column _ => Quiet b column
  | .iLike column _ => Quiet b column
  | .in_ _ column _ => Quiet b column
  | .isNull _ column => Quiet b column
  | .between _ column _ _ => Quiet b column
  | .exists_ _ subquery args => Fragment b subquery args
  | .existsSubquery _ _ => True
  | .inSubquery _ column _ => Quiet b column
  | .group _ calls => WhereCall.FitsAll b calls
  | .reset => True

/-- The texts of a list of calls are as they should be. -/
def WhereCall.FitsAll (b : Bool) : List (WhereCall α σ) → Prop
  | [] => True
  | c :: calls => WhereCall.Fits b c ∧ WhereCall.FitsAll b calls

end

/-- The texts of a call are as they should be. -/
def JoinCall.Fits (b : Bool) : JoinCall α → Prop
  | .on condition args => Fragment b condition args
  | .connect _ condition args => Fragment b condition args
  | .eq left right => Quiet b left ∧ Quiet b right
  | .eqValue column _ => Quiet b column

/-- The texts of a call are as they should be. -/
def SelectCall.Fits (b : Bool) : SelectCall α σ → Prop
  | .fromRaw tableExpr args => Fragment b tableExpr args
  | .fromSubquery _ alias_ => Quiet b alias_
  | .table t => Quiet b t
  | .with_ name _ => Quiet b name
  | .withRecursive name _ _ => Quiet b name
  | .union _ _ => True
  | .join _ t condition args => Quiet b t ∧ Fragment b condition args
  | .fullOuterJoin t condition args => Quiet b t ∧ Fragment b condition args
  | .joinRaw joinType t condition args =>
    Quiet b joinType ∧ Quiet b t ∧ Fragment b condition args
  | .joinOn _ t on => Quiet b t ∧ ∀ c ∈ on, c.Fits b
  | .joinSubquery _ _ alias_ condition args => Quiet b alias_ ∧ Fragment b condition args
  | .joinSubqueryOn _ _ alias_ on => Quiet b alias_ ∧ ∀ c ∈ on, c.Fits b
  | .columns cs => ∀ c ∈ cs, Quiet b c
  | .column c => Quiet b c
  | .orderBy order => ∀ item ∈ order, Quiet b item
  | .orderByRaw order => ∀ item ∈ order, Quiet b item
  | .orderByDirection _ c => Quiet b c
  | .lock lockMode => Quiet b lockMode
  | .groupBy cs => ∀ c ∈ cs, Quiet b c
  | .where_ c => c.Fits b
  | .having c => c.Fits b
  | .aggregate _ c => Quiet b c
  | _ => True

end Orm

end GinRpc
