import GinRpc.Orm.Calls

/-!
# The builders as woven texts

The builders keep texts and arguments apart.  Here a query is one woven text (`Query.render`),
in which every placeholder carries the argument that was introduced together with it, and every
builder call has a woven counterpart (`weave`, `Query.call`).

* `Made b P sb q` : the builder `sb` and the query `q` come from the same calls, with fitting
  texts, in dialects that number their placeholders (`b = true`) or do not.
* `WhereRep.call` : a `WhereBuilder` keeps the texts and the arguments of the woven conditions.
-/

namespace GinRpc

namespace Orm

open Text Woven

variable {α σ : Type*}

/-! ### Woven conditions -/

/-- The number given to the placeholder of the argument with index `i`. -/
def Dialect.mark (d : Dialect) (i : ℕ) : Option ℕ := if d.isPostgreSQL then some (i + 1) else none

/-- Renumbering after `offset` arguments. -/
def Dialect.shiftWoven (d : Dialect) (offset : ℕ) (w : Woven α) : Woven α :=
  if d.isPostgreSQL then shift offset w else w

/-- The text and the arguments of a woven text. -/
def written (w : Woven α) : Text × List α := (ink w, holes w)

/-- The number of arguments of a list of conditions. -/
def argCount (cs : List (Woven α)) : ℕ := (cs.flatMap holes).length

/-- Add a condition after a connective, which the first condition does not get. -/
def connectWoven (conn : Connective) (cs : List (Woven α)) (w : Woven α) : List (Woven α) :=
  cs ++ [if cs.length > 0 then lits (conn.text ++ " ") ++ w else w]

/-- The placeholders of a value list, after `n` arguments. -/
def valueHoles (d : Dialect) (n : ℕ) (values : List α) : Woven α :=
  (lits ", ").intercalate (values.mapIdx fun i v => [Tok.hole v (d.mark (n + i))])

mutual

/-- One call on a list of conditions; `g` gives the subqueries. -/
def weave (d : Dialect) (g : σ → Woven α) : WhereCall α σ → List (Woven α) → List (Woven α)
  | .raw condition args, cs => cs ++ [thread condition args]
  | .connect conn condition args, cs => connectWoven conn cs (thread condition args)
  | .compare op column value, cs =>
    cs ++ [lits (d.quoteIdentifier column) ++ lits op.text ++ [.hole value (d.mark (argCount cs))]]
  | .iLike column value, cs =>
    cs ++ [if d.isPostgreSQL then
        lits (d.quoteIdentifier column) ++ lits " ILIKE " ++ [.hole value (d.mark (argCount cs))]
      else
        lits "LOWER(" ++ lits (d.quoteIdentifier column) ++ lits ") LIKE LOWER(" ++
          [.hole value (d.mark (argCount cs))] ++ lits ")"]
  | .in_ negated column values, cs =>
    cs ++ [if values.length = 0 then lits (if negated then "1=1" else "1=0")
      else
        lits (d.quoteIdentifier column) ++ lits (if negated then " NOT IN (" else " IN (") ++
          valueHoles d (argCount cs) values ++ lits ")"]
  | .isNull negated column, cs =>
    cs ++ [lits (d.quoteIdentifier column) ++
      lits (if negated then " IS NOT NULL" else " IS NULL")]
  | .between negated column start stop, cs =>
    cs ++ [lits (d.quoteIdentifier column) ++
      lits (if negated then " NOT BETWEEN " else " BETWEEN ") ++
      [.hole start (d.mark (argCount cs))] ++ lits " AND " ++
      [.hole stop (d.mark (argCount cs + 1))]]
  | .exists_ negated subquery args, cs =>
    cs ++
      [lits (if negated then "NOT EXISTS (" else "EXISTS (") ++ thread subquery args ++ lits ")"]
  | .existsSubquery negated sub, cs =>
    cs ++ [lits (if negated then "NOT EXISTS (" else "EXISTS (") ++
      d.shiftWoven (argCount cs) (g sub) ++ lits ")"]
  | .inSubquery negated column sub, cs =>
    cs ++ [lits (d.quoteIdentifier column) ++ lits (if negated then " NOT IN (" else " IN (") ++
      d.shiftWoven (argCount cs) (g sub) ++ lits ")"]
  | .group conn calls, cs =>
    let inner := weaveAll d g calls []
    if inner.length > 0 then
      connectWoven conn cs (lits "(" ++ (lits " ").intercalate inner ++ lits ")")
    else cs
  | .reset, _ => []

/-- A list of calls on a list of conditions. -/
def weaveAll (d : Dialect) (g : σ → Woven α) :
    List (WhereCall α σ) → List (Woven α) → List (Woven α)
  | [], cs => cs
  | c :: calls, cs => weaveAll d g calls (weave d g c cs)

end

/-- One call on the conditions of a join. -/
def weaveJoin (d : Dialect) (cs : List (Woven α)) : JoinCall α → List (Woven α)
  | .on condition args => cs ++ [thread condition args]
  | .connect conn condition args => connectWoven conn cs (thread condition args)
  | .eq left right =>
    cs ++ [lits (d.quoteIdentifier left) ++ lits " = " ++ lits (d.quoteIdentifier right)]
  | .eqValue column value =>
    cs ++ [lits (d.quoteIdentifier column) ++ lits " = " ++ [.hole value none]]

/-- The condition of a join. -/
def weaveOn (d : Dialect) (on : List (JoinCall α)) : Woven α :=
  (lits " ").intercalate (on.foldl (weaveJoin d) [])

/-! ### Woven queries -/

/-- A join: its table and its condition are woven texts. -/
structure WovenJoin (α : Type*) where
  type : Text
  table : Woven α
  condition : Woven α

/-- A `SELECT` query whose parts with arguments are woven texts. -/
structure Query (α : Type*) where
  dialect : Dialect
  table : Woven α
  columns : List Text := ["*".toList]
  joins : List (WovenJoin α) := []
  where_ : List (Woven α) := []
  groupBy : List Text := []
  having : List (Woven α) := []
  orderBy : List Text := []
  limit : ℤ := 0
  offset : ℤ := 0
  lockMode : Text := []
  ctes : List (CteClause (Woven α)) := []
  unions : List (UnionClause (Woven α)) := []

/-- A `WHERE` or `HAVING` clause after `n` arguments, with the blank before it. -/
def clause (keyword : Text) (d : Dialect) (n : ℕ) (cs : List (Woven α)) : Woven α :=
  if cs.length = 0 then []
  else lits keyword ++ fill d.mark n ((lits " ").intercalate cs)

/-- Append a join. -/
def renderJoin (d : Dialect) (w : Woven α) (j : WovenJoin α) : Woven α :=
  let w := w ++ lits " " ++ lits j.type ++ lits " JOIN " ++ d.shiftWoven (holes w).length j.table
  w ++ lits " ON " ++ fill d.mark (holes w).length j.condition

/-- A text with a separator before it, if it is not empty. -/
def optional (sep t : Text) : Woven α := if t ≠ [] then lits sep ++ lits t else []

/-- A list of texts with a separator before it, if there is one. -/
def optionalList (sep : Text) (ts : List Text) : Woven α :=
  if ts.length > 0 then lits sep ++ (lits ", ").intercalate (ts.map lits) else []

namespace Query

variable (q : Query α)

/-- The column list. -/
def quotedColumns : List Text :=
  q.columns.map fun column =>
    if column = "*".toList ∨ "DISTINCT ".toList.isPrefixOf column then column
    else q.dialect.quoteIdentifier column

/-- The query up to the `HAVING` clause. -/
def renderBody : Woven α :=
  let w := lits "SELECT " ++ (lits ", ").intercalate (q.quotedColumns.map lits) ++
    lits " FROM " ++ q.table
  let w := q.joins.foldl (renderJoin q.dialect) w
  let w := w ++ clause " WHERE " q.dialect (holes w).length q.where_
  let w := w ++ optionalList " GROUP BY " (q.groupBy.map q.dialect.quoteIdentifier)
  w ++ clause " HAVING " q.dialect (holes w).length q.having

/-- The query without common table expressions and unions. -/
def renderCore : Woven α :=
  q.renderBody ++ optionalList " ORDER BY " q.orderBy ++
    optional " " (q.dialect.limitOffset q.limit q.offset) ++ optional " " q.lockMode

/-- One common table expression after the ones in `w`. -/
def renderCte (d : Dialect) (w : Woven α) (c : CteClause (Woven α)) : Woven α :=
  lits (d.quoteIdentifier c.name) ++ lits " AS (" ++ d.shiftWoven (holes w).length c.query ++
    lits ")"

/-- The common table expressions, each after those before it. -/
def renderCtes (d : Dialect) (ctes : List (CteClause (Woven α))) : List (Woven α) :=
  ctes.foldl (fun parts c => parts ++ [renderCte d parts.flatten c]) []

/-- Append a union. -/
def renderUnion (d : Dialect) (w : Woven α) (u : UnionClause (Woven α)) : Woven α :=
  w ++ lits (if u.all then " UNION ALL " else " UNION ") ++ d.shiftWoven (holes w).length u.query

/-- The whole query. -/
def render : Woven α :=
  let main :=
    match q.ctes with
    | [] => q.renderCore
    | ctes =>
      let w := lits (if ctes.any fun c => c.recursive then "WITH RECURSIVE " else "WITH ") ++
        (lits ", ").intercalate (renderCtes q.dialect ctes)
      w ++ lits " " ++ q.dialect.shiftWoven (holes w).length q.renderCore
  q.unions.foldl (renderUnion q.dialect) main

/-- Add a join. -/
def addJoin (type : Text) (table condition : Woven α) : Query α :=
  { q with joins := q.joins ++ [⟨type, table, condition⟩] }

/-- A join of a checked table; ignored if a check fails. -/
def joinWithType (joinType table : Text) (condition : Woven α) : Query α :=
  match normalizeJoinType joinType, validateJoinTableReference table with
  | .ok type, .ok () => q.addJoin type (lits (q.dialect.quoteIdentifier table)) condition
  | _, _ => q

/-- A query in parentheses with an alias. -/
def derivedTable (w : Woven α) (alias_ : Text) : Woven α :=
  lits "(" ++ w ++ lits ") " ++ lits alias_

/-- Add a union. -/
def addUnion (all : Bool) (r : Query α) : Query α :=
  { q with unions := q.unions ++ [⟨all, r.render⟩] }

/-- A new query. -/
def new (table : Text) (d : Dialect) : Query α where
  dialect := d
  table := lits (d.quoteIdentifier table)

/-- The query as the table of a new one. -/
def asDerived (alias_ : Text) : Query α where
  dialect := q.dialect
  table := derivedTable q.render (SelectBuilder.aliasOrDefault alias_)

/-- One call on a query; `g` gives the subqueries. -/
def call (g : σ → Query α) : SelectCall α σ → Query α
  | .fromRaw tableExpr args => { q with table := thread tableExpr args }
  | .fromSubquery sub alias_ => { q with table := derivedTable (g sub).render alias_ }
  | .table table => { q with table := lits (q.dialect.quoteIdentifier table) }
  | .with_ name r =>
    if trimSpace name = [] then q
    else { q with ctes := q.ctes ++ [{ name := trimSpace name, query := (g r).render }] }
  | .withRecursive name seed recursive =>
    if trimSpace name = [] then q
    else
      { q with
        ctes := q.ctes ++ [{ name := trimSpace name, recursive := true
                             query := ((g seed).addUnion true (g recursive)).render }] }
  | .union all r => q.addUnion all (g r)
  | .join joinType table condition args => q.joinWithType joinType table (thread condition args)
  | .fullOuterJoin table condition args =>
    q.joinWithType (if q.dialect.supportsFeature .fullOuterJoin then "FULL OUTER" else "LEFT") table
      (thread condition args)
  | .joinRaw joinType table condition args =>
    q.addJoin joinType (lits table) (thread condition args)
  | .joinOn side table on =>
    q.addJoin side.text (lits (q.dialect.quoteIdentifier table)) (weaveOn q.dialect on)
  | .joinSubquery side sub alias_ condition args =>
    q.addJoin side.text (derivedTable (g sub).render (SelectBuilder.aliasOrDefault alias_))
      (thread condition args)
  | .joinSubqueryOn side sub alias_ on =>
    q.addJoin side.text (derivedTable (g sub).render (SelectBuilder.aliasOrDefault alias_))
      (weaveOn q.dialect on)
  | .columns columns => { q with columns := columns }
  | .column column => { q with columns := q.columns ++ [column] }
  | .distinct => { q with columns := "DISTINCT".toList :: q.columns }
  | .orderBy order =>
    { q with
      orderBy := q.orderBy ++ order.filterMap fun item =>
        (buildSafeOrderByItem q.dialect item).toOption }
  | .orderByRaw order => { q with orderBy := q.orderBy ++ order }
  | .orderByDirection descending column =>
    { q with
      orderBy := q.orderBy ++
        [q.dialect.quoteIdentifier column ++
          (if descending then " DESC".toList else " ASC".toList)] }
  | .limit limit => { q with limit := limit }
  | .offset offset => { q with offset := offset }
  | .forUpdate mode =>
    { q with
      lockMode :=
        if q.dialect.lockForUpdate = [] then []
        else q.dialect.lockForUpdate ++ match mode with
          | .wait => []
          | .nowait => " NOWAIT".toList
          | .skipLocked => " SKIP LOCKED".toList }
  | .lockInShareMode => { q with lockMode := q.dialect.lockInShareMode }
  | .lock lockMode => { q with lockMode := lockMode }
  | .groupBy columns => { q with groupBy := q.groupBy ++ columns }
  | .where_ c => { q with where_ := weave q.dialect (fun r => (g r).render) c q.where_ }
  | .having c => { q with having := weave q.dialect (fun r => (g r).render) c q.having }
  | .count => { q with columns := ["COUNT(*)".toList] }
  | .aggregate fn column =>
    { q with columns := [fn.text ++ "(" ++ q.dialect.quoteIdentifier column ++ ")"] }
  | .reset =>
    { q with
      columns := ["*".toList], joins := [], where_ := [], groupBy := [], having := [], orderBy := []
      limit := 0, offset := 0, lockMode := [] }

end Query

/-- The builder and the query come from the same calls.  All dialects number their placeholders
(`b = true`) or none does, the texts fit, and the calls satisfy `P`. -/
inductive Made (b : Bool) (P : SelectCall α (SelectBuilder α × Query α) → Prop) :
    SelectBuilder α → Query α → Prop
  | new (table : Text) (d : Dialect) : d.isPostgreSQL = b → Quiet b table →
      Made b P (newSelectBuilderWithDialect table d) (Query.new table d)
  | asDerived {sb : SelectBuilder α} {q : Query α} (alias_ : Text) : Made b P sb q →
      Quiet b alias_ → Made b P (sb.asDerived alias_) (q.asDerived alias_)
  | call {sb : SelectBuilder α} {q : Query α} (c : SelectCall α (SelectBuilder α × Query α)) :
      Made b P sb q → (∀ r ∈ c.subs, Made b P r.1 r.2) → c.Fits b → P c →
      Made b P (sb.call Prod.fst c) (q.call Prod.snd c)

/-! ### Texts of the dialect -/

section Dialect

variable {b : Bool} {d : Dialect} {w : Woven α} {t : Text}

theorem placeholder_eq (d : Dialect) (i : ℕ) : d.placeholder i = markInk (d.mark i) := by
  cases d <;> rfl

theorem mark_eq_none (h : d.isPostgreSQL = false) (i : ℕ) : d.mark i = none := by
  simp [Dialect.mark, h]

theorem tidy_mark (a : α) (i : ℕ) : Tidy d.isPostgreSQL [Tok.hole a (d.mark i)] :=
  tidy_hole a fun h => mark_eq_none h i

theorem shiftPlaceholdersIfNeeded_ink (h : Tidy d.isPostgreSQL w) (n : ℕ) :
    shiftPlaceholdersIfNeeded (ink w) d n = ink (d.shiftWoven n w) := by
  unfold shiftPlaceholdersIfNeeded Dialect.shiftWoven
  split_ifs with hn hd hd
  · rw [hn, shift_zero]
  · rfl
  · exact bump_ink (h.chain hd) n
  · rfl

@[simp] theorem holes_shiftWoven (d : Dialect) (n : ℕ) (w : Woven α) :
    holes (d.shiftWoven n w) = holes w := by
  unfold Dialect.shiftWoven
  split_ifs
  · exact holes_shift n w
  · rfl

theorem tidy_shiftWoven (h : Tidy b w) (d : Dialect) (n : ℕ) : Tidy b (d.shiftWoven n w) := by
  unfold Dialect.shiftWoven
  split_ifs
  · exact h.shift n
  · exact h

theorem tidy_fill (h : Tidy d.isPostgreSQL w) (n : ℕ) : Tidy d.isPostgreSQL (fill d.mark n w) :=
  h.fill mark_eq_none n

theorem replaceLoop_placeholder (h : Tidy b w) (i : ℕ) :
    replaceLoop d.placeholder ((ink w).count '?') i (ink w) = ink (fill d.mark i w) := by
  cases hd : d.isPostgreSQL with
  | true =>
    have hm : d.mark = fun i => some (i + 1) := by funext i; simp [Dialect.mark, hd]
    have hp : d.placeholder = fun i => markInk (some (i + 1)) := by
      funext i; rw [placeholder_eq, hm]
    rw [hm, hp]
    exact replaceLoop_ink (fun i => i + 1) h.quiet i
  | false =>
    have hp : d.placeholder = fun _ => ['?'] := by
      funext i; rw [placeholder_eq, mark_eq_none hd]; rfl
    rw [hp, replaceLoop_self, fill_unmarked (mark_eq_none hd)]

theorem replaceConditionPlaceholders_ink (h : Tidy b w) (i : ℕ) :
    replaceConditionPlaceholders (ink w) d i = ink (fill d.mark i w) := by
  unfold replaceConditionPlaceholders
  split_ifs with hnil
  · have := replaceLoop_placeholder (d := d) h i
    rw [hnil] at this ⊢
    exact this
  · exact replaceLoop_placeholder h i

/-- The loop over the conditions fills the joined conditions. -/
theorem replaceAll_ink {cs : List (Woven α)} (h : ∀ w ∈ cs, Tidy b w) (i : ℕ) :
    List.intercalate " " (WhereBuilder.replaceAll d i (cs.map ink)) =
      ink (fill d.mark i ((lits " ").intercalate cs)) := by
  induction cs generalizing i with
  | nil => rfl
  | cons w cs ih =>
    have hw := h w (by simp)
    have ih := ih fun x hx => h x (List.mem_cons_of_mem _ hx)
    cases cs with
    | nil => simpa [WhereBuilder.replaceAll] using replaceLoop_placeholder hw i
    | cons w' cs =>
      have hrest := ih (i + (ink w).count '?')
      simp only [List.map_cons, WhereBuilder.replaceAll, List.intercalate_cons_cons,
        replaceLoop_placeholder hw, fill_append, fill_lits, ink_append, ink_lits] at hrest ⊢
      rw [hrest, count_ink hw.quiet]
      simp

theorem notMem_quoteWord {c : Char} (hq : c ∉ "`".toList) (hd : c ≠ '.') (h : c ∉ t) :
    c ∉ Dialect.quoteWord t := by
  unfold Dialect.quoteWord
  split_ifs
  · intro hm
    obtain hm | ⟨u, hu, hm⟩ := mem_intercalate hm
    · exact hd (List.mem_singleton.1 hm)
    · obtain ⟨seg, hseg, rfl⟩ := List.mem_map.1 hu
      simp only [List.mem_append, hq, false_or, or_false] at hm
      exact h (mem_of_mem_splitOn hseg hm)
  · simp only [List.mem_append, hq, h, or_self, not_false_eq_true]

/-- Quoting with backticks brings in no characters but backticks, dots and blanks. -/
theorem notMem_quoteBackticks {c : Char} (hq : c ∉ "`".toList) (hd : c ≠ '.') (hs : c ≠ ' ')
    (h : c ∉ trimSpace t) : c ∉ Dialect.quoteBackticks t := by
  have hfield : ∀ u ∈ fields (trimSpace t), c ∉ u := fun u hu hm => h (mem_of_mem_fields hu hm)
  have hblank : c ∉ " ".toList := fun hm => hs (List.mem_singleton.1 hm)
  unfold Dialect.quoteBackticks
  dsimp only
  split_ifs
  · have hquotes : c ∉ "`".toList ++ "`".toList := by simp only [List.mem_append, hq, or_self,
      not_false_eq_true]
    exact hquotes
  · exact h
  · split
    · rename_i first second rest hf
      rw [hf] at hfield
      simp only [List.mem_append, not_or]
      refine ⟨⟨notMem_quoteWord hq hd (hfield first (by simp)), hblank⟩, fun hm => ?_⟩
      obtain hm | ⟨u, hu, hm⟩ := mem_intercalate hm
      · exact hblank hm
      · exact hfield u (List.mem_cons_of_mem _ hu) hm
    · exact h
  · exact notMem_quoteWord hq hd h

/-- Quoting a name brings in no placeholder. -/
theorem quiet_quoteIdentifier (h : Quiet d.isPostgreSQL t) :
    Quiet d.isPostgreSQL (d.quoteIdentifier t) := by
  obtain ⟨hq, hs⟩ := h
  refine ⟨?_, fun hd => ?_⟩
  · cases d
    case postgreSQL => simpa [Dialect.quoteIdentifier] using hq
    case sqlite => simpa [Dialect.quoteIdentifier] using hq
    all_goals
      exact notMem_quoteBackticks (by decide) (by decide) (by decide) fun hm =>
        hq (mem_of_mem_trimSpace hm)
  · cases d <;> cases hd
    -- a quotation mark before and after the name
    have ht := hs rfl
    refine List.isChain_append.2 ⟨List.isChain_append.2 ⟨.singleton _, ht, ?_⟩, .singleton _, ?_⟩
    · intro x hx y _ hxy
      obtain rfl : '"' = x := Option.some.inj hx
      exact absurd hxy (by decide)
    · intro x _ y hy _
      obtain rfl : '"' = y := Option.some.inj hy
      decide

theorem tidy_quiet (h : Quiet b t) : Tidy b (lits t : Woven α) := tidy_lits h.1 h.2

theorem tidy_fragment {args : List α} (h : Fragment b t args) : Tidy b (thread t args) :=
  tidy_thread h.1 h.2

theorem tidy_quoteIdentifier (h : Quiet d.isPostgreSQL t) :
    Tidy d.isPostgreSQL (lits (d.quoteIdentifier t) : Woven α) :=
  tidy_quiet (quiet_quoteIdentifier h)

end Dialect

/-! ### Conditions -/

/-- The `WhereBuilder` holds the texts and the arguments of the woven conditions. -/
structure WhereRep (wb : WhereBuilder α) (d : Dialect) (cs : List (Woven α)) : Prop where
  dialect : wb.dialect = d
  conditions : wb.conditions = cs.map ink
  args : wb.args = cs.flatMap holes
  tidy : ∀ w ∈ cs, Tidy d.isPostgreSQL w

section Where

variable {d : Dialect} {wb : WhereBuilder α} {cs : List (Woven α)} {w : Woven α} {t : Text}

theorem argCount_eq (h : WhereRep wb d cs) : wb.args.length = argCount cs := by
  rw [h.args, argCount]

theorem whereRep_new (d : Dialect) : WhereRep (newWhereBuilder d : WhereBuilder α) d [] where
  dialect := rfl
  conditions := rfl
  args := rfl
  tidy w hw := by cases hw

theorem WhereRep.snoc (h : WhereRep wb d cs) (hw : Tidy d.isPostgreSQL w)
    {wb' : WhereBuilder α} (hd : wb'.dialect = wb.dialect)
    (hc : wb'.conditions = wb.conditions ++ [ink w]) (ha : wb'.args = wb.args ++ holes w) :
    WhereRep wb' d (cs ++ [w]) where
  dialect := hd.trans h.dialect
  conditions := by rw [hc, h.conditions, List.map_append, List.map_singleton]
  args := by rw [ha, h.args, List.flatMap_append, List.flatMap_singleton]
  tidy x hx := by
    obtain hx | hx := List.mem_append.1 hx
    · exact h.tidy x hx
    · rwa [List.mem_singleton.1 hx]

theorem WhereRep.connect (h : WhereRep wb d cs) (conn : Connective)
    (hw : Tidy d.isPostgreSQL w) (hi : ink w = t) :
    WhereRep (wb.connect conn t (holes w)) d (connectWoven conn cs w) := by
  have hlen : wb.conditions.length = cs.length := by rw [h.conditions, List.length_map]
  refine h.snoc ?_ rfl ?_ ?_
  · split_ifs
    · exact hw.sep_left (by cases conn <;> decide)
    · exact hw
  · simp only [WhereBuilder.connect, hlen]
    split_ifs <;> simp [hi]
  · simp only [WhereBuilder.connect]
    split_ifs <;> simp

theorem WhereRep.subquery (h : WhereRep wb d cs) (before after : Text)
    (hb : ∀ {u : Woven α}, Tidy d.isPostgreSQL u →
      Tidy d.isPostgreSQL (lits before ++ u ++ lits after)) (hw : Tidy d.isPostgreSQL w) :
    WhereRep (wb.subquery before after (written w)) d
      (cs ++ [lits before ++ d.shiftWoven (argCount cs) w ++ lits after]) := by
  refine h.snoc (hb (tidy_shiftWoven hw d _)) rfl ?_ ?_
  · simp only [WhereBuilder.subquery, written, h.dialect, argCount_eq h,
      shiftPlaceholdersIfNeeded_ink hw]
    simp
  · simp [WhereBuilder.subquery, written]

theorem ink_valueHoles (d : Dialect) (n : ℕ) (values : List α) :
    ink (valueHoles d n values) =
      List.intercalate ", " (values.mapIdx fun i _ => d.placeholder (n + i)) := by
  rw [valueHoles, ink_intercalate]
  congr 1
  refine List.ext_getElem (by simp) fun i h₁ h₂ => ?_
  simp [placeholder_eq]

theorem holes_valueHoles (d : Dialect) (n : ℕ) (values : List α) :
    holes (valueHoles d n values) = values := by
  rw [valueHoles, holes_intercalate]
  induction values generalizing n with
  | nil => rfl
  | cons v values ih =>
    simp only [List.mapIdx_cons, List.flatMap_cons, holes_hole_cons, holes_nil, List.cons_append,
      List.nil_append]
    refine congrArg (v :: ·) ?_
    simpa [Nat.add_assoc, Nat.add_comm 1] using ih (n + 1)

theorem tidy_valueHoles (d : Dialect) (n : ℕ) (values : List α) :
    Tidy d.isPostgreSQL (valueHoles d n values) := by
  refine tidy_intercalate (by decide) fun w hw => ?_
  obtain ⟨i, hi, rfl⟩ := List.mem_mapIdx.1 hw
  exact tidy_mark _ _

theorem WhereRep.values (h : WhereRep wb d cs) (hq : Quiet d.isPostgreSQL t) {op : Text}
    (hop : isSep op = true) (values : List α) :
    WhereRep ({ wb with args := wb.args ++ values }.where_
        (wb.dialect.quoteIdentifier t ++ op ++ wb.placeholders values ++ ")") []) d
      (cs ++ [lits (d.quoteIdentifier t) ++ lits op ++ valueHoles d (argCount cs) values ++
        lits ")"]) := by
  refine h.snoc ?_ rfl ?_ ?_
  · exact ((tidy_quoteIdentifier hq).sep hop (tidy_valueHoles d _ values)).sep_right (by decide)
  · simp [WhereBuilder.where_, ink_valueHoles, WhereBuilder.placeholders, h.dialect, argCount_eq h]
  · simp [WhereBuilder.where_, holes_valueHoles]

theorem WhereRep.range (h : WhereRep wb d cs) (hq : Quiet d.isPostgreSQL t) {op : Text}
    (hop : isSep op = true) (start stop : α) :
    WhereRep (wb.range op t start stop) d
      (cs ++ [lits (d.quoteIdentifier t) ++ lits op ++ [.hole start (d.mark (argCount cs))] ++
        lits " AND " ++ [.hole stop (d.mark (argCount cs + 1))]]) := by
  refine h.snoc ?_ rfl ?_ ?_
  · exact ((tidy_quoteIdentifier hq).sep hop (tidy_mark start _)).sep (by decide)
      (tidy_mark stop _)
  · simp [WhereBuilder.range, WhereBuilder.where_, placeholder_eq, h.dialect, argCount_eq h]
  · simp [WhereBuilder.range, WhereBuilder.where_]

theorem WhereRep.columnSubquery (h : WhereRep wb d cs) (hq : Quiet d.isPostgreSQL t) {op : Text}
    (hop : isSep op = true) (hw : Tidy d.isPostgreSQL w) :
    WhereRep (wb.subquery (d.quoteIdentifier t ++ op) ")" (written w)) d
      (cs ++ [lits (d.quoteIdentifier t) ++ lits op ++ d.shiftWoven (argCount cs) w ++
        lits ")"]) := by
  have := h.subquery (d.quoteIdentifier t ++ op) ")" (fun hu => by
    rw [lits_append]
    exact ((tidy_quoteIdentifier hq).sep hop hu).sep_right (by decide)) hw
  rwa [lits_append] at this

/-- The conditions of another builder in parentheses. -/
theorem WhereRep.group (h : WhereRep wb d cs) (conn : Connective) {sub : WhereBuilder α}
    {inner : List (Woven α)} (hs : WhereRep sub d inner) :
    WhereRep (wb.group conn sub) d
      (if inner.length > 0 then
        connectWoven conn cs (lits "(" ++ (lits " ").intercalate inner ++ lits ")")
      else cs) := by
  have hlen : sub.conditions.length = inner.length := by rw [hs.conditions, List.length_map]
  unfold WhereBuilder.group
  rw [hlen]
  split_ifs
  · have htidy := ((tidy_intercalate (b := d.isPostgreSQL) (s := " ") (by decide)
      hs.tidy).sep_left (s := "(") (by decide)).sep_right (s := ")") (by decide)
    have := h.connect conn htidy rfl
    simpa [ink_intercalate, holes_intercalate, hs.conditions, hs.args] using this
  · exact h

mutual

/-- **Every call on a `WhereBuilder` does to texts and arguments what its woven counterpart does.**
-/
theorem WhereRep.call {f : σ → SelectBuilder α} {g : σ → Woven α} {d : Dialect} :
    ∀ (c : WhereCall α σ) {wb : WhereBuilder α} {cs : List (Woven α)}, WhereRep wb d cs →
      c.Fits d.isPostgreSQL →
      (∀ r ∈ c.subs, (f r).build = written (g r) ∧ Tidy d.isPostgreSQL (g r)) →
      WhereRep (wb.call f c) d (weave d g c cs)
  | .raw condition args, wb, cs, h, hf, _ => by
    obtain ⟨hi, hh, -⟩ := thread_spec hf.1
    rw [WhereBuilder.call, weave]
    exact h.snoc (tidy_fragment hf) rfl (by simp [WhereBuilder.where_, hi])
      (by simp [WhereBuilder.where_, hh])
  | .connect conn condition args, wb, cs, h, hf, _ => by
    obtain ⟨hi, hh, -⟩ := thread_spec hf.1
    rw [WhereBuilder.call, weave]
    have := h.connect conn (tidy_fragment hf) hi
    rwa [hh] at this
  | .compare op column value, wb, cs, h, hf, _ => by
    rw [WhereBuilder.call, weave]
    have hop : isSep op.text = true := by cases op <;> decide
    refine h.snoc ((tidy_quoteIdentifier hf).sep hop (tidy_mark value _)) rfl ?_ ?_
    · simp [WhereBuilder.compare, WhereBuilder.where_, h.dialect, argCount_eq h, placeholder_eq]
    · simp [WhereBuilder.compare, WhereBuilder.where_]
  | .iLike column value, wb, cs, h, hf, _ => by
    rw [WhereBuilder.call, weave, WhereBuilder.iLike, h.dialect, argCount_eq h]
    cases hd : d.isPostgreSQL with
    | true =>
      refine h.snoc ?_ rfl (by simp [WhereBuilder.where_, placeholder_eq])
        (by simp [WhereBuilder.where_])
      exact (tidy_quoteIdentifier hf).sep (by decide) (tidy_mark value _)
    | false =>
      refine h.snoc ?_ rfl (by simp [WhereBuilder.where_, placeholder_eq])
        (by simp [WhereBuilder.where_])
      exact (((tidy_quoteIdentifier hf).sep_left (by decide)).sep (by decide)
        (tidy_mark value _)).sep_right (by decide)
  | .in_ negated column values, wb, cs, h, hf, _ => by
    rw [WhereCall.Fits] at hf
    by_cases hv : values.length = 0
    · cases negated <;>
        simp only [WhereBuilder.call, weave, WhereBuilder.in_, WhereBuilder.notIn, if_pos hv]
      all_goals
        exact h.snoc (tidy_lits (by decide) fun _ => by decide) rfl (by simp [WhereBuilder.where_])
          (by simp [WhereBuilder.where_])
    · cases negated <;>
        simp only [WhereBuilder.call, weave, WhereBuilder.in_, WhereBuilder.notIn, if_neg hv]
      all_goals exact h.values hf (by decide) values
  | .isNull negated column, wb, cs, h, hf, _ => by
    cases negated <;>
      simp only [WhereBuilder.call, weave, WhereBuilder.isNull, WhereBuilder.isNotNull, h.dialect]
    all_goals
      exact h.snoc ((tidy_quoteIdentifier hf).sep_right (by decide)) rfl
        (by simp [WhereBuilder.where_]) (by simp [WhereBuilder.where_])
  | .between negated column start stop, wb, cs, h, hf, _ => by
    rw [WhereCall.Fits] at hf
    cases negated <;>
      simp only [WhereBuilder.call, weave, WhereBuilder.between, WhereBuilder.notBetween]
    all_goals exact h.range hf (by decide) start stop
  | .exists_ negated subquery args, wb, cs, h, hf, _ => by
    obtain ⟨hi, hh, -⟩ := thread_spec hf.1
    have htidy : ∀ {s : Text}, isSep s = true → Tidy d.isPostgreSQL
        (lits s ++ thread subquery args ++ lits ")") := fun hs =>
      ((tidy_fragment hf).sep_left hs).sep_right (by decide)
    cases negated <;>
      simp only [WhereBuilder.call, weave, WhereBuilder.exists_, WhereBuilder.notExists]
    all_goals
      refine h.snoc (htidy (by decide)) rfl ?_ ?_
      · simp [WhereBuilder.where_, hi]
      · simp [WhereBuilder.where_, hh]
  | .existsSubquery negated sub, wb, cs, h, _, hs => by
    obtain ⟨hb, ht⟩ := hs sub (by simp [WhereCall.subs])
    cases negated <;>
      simp only [WhereBuilder.call, weave, WhereBuilder.existsSubquery,
        WhereBuilder.notExistsSubquery, hb]
    all_goals
      exact h.subquery _ _ (fun hu => (hu.sep_left (by decide)).sep_right (by decide)) ht
  | .inSubquery negated column sub, wb, cs, h, hf, hs => by
    rw [WhereCall.Fits] at hf
    obtain ⟨hb, ht⟩ := hs sub (by simp [WhereCall.subs])
    cases negated <;>
      simp only [WhereBuilder.call, weave, WhereBuilder.inSubquery,
        WhereBuilder.notInSubquery, hb, h.dialect]
    all_goals exact h.columnSubquery hf (by decide) ht
  | .group conn calls, wb, cs, h, hf, hs => by
    rw [WhereCall.Fits] at hf
    rw [WhereCall.subs] at hs
    have hinner := WhereRep.callAll calls (whereRep_new d) hf hs
    cases conn <;>
      simp only [WhereBuilder.call, weave, WhereBuilder.andWhere, WhereBuilder.orWhere, h.dialect]
    all_goals exact h.group _ hinner
  | .reset, wb, cs, h, _, _ => by
    rw [WhereBuilder.call, weave]
    exact ⟨h.dialect, rfl, rfl, fun w hw => by cases hw⟩

theorem WhereRep.callAll {f : σ → SelectBuilder α} {g : σ → Woven α} {d : Dialect} :
    ∀ (calls : List (WhereCall α σ)) {wb : WhereBuilder α} {cs : List (Woven α)},
      WhereRep wb d cs → WhereCall.FitsAll d.isPostgreSQL calls →
      (∀ r ∈ WhereCall.subsAll calls,
        (f r).build = written (g r) ∧ Tidy d.isPostgreSQL (g r)) →
      WhereRep (wb.callAll f calls) d (weaveAll d g calls cs)
  | [], wb, cs, h, _, _ => by
    rwa [WhereBuilder.callAll, weaveAll]
  | c :: calls, wb, cs, h, hf, hs => by
    rw [WhereCall.FitsAll] at hf
    rw [WhereCall.subsAll] at hs
    rw [WhereBuilder.callAll, weaveAll]
    have hc := WhereRep.call (f := f) (g := g) c h hf.1 fun r hr =>
      hs r (List.mem_append_left _ hr)
    exact WhereRep.callAll calls hc hf.2 fun r hr => hs r (List.mem_append_right _ hr)

end

end Where

end Orm

end GinRpc
