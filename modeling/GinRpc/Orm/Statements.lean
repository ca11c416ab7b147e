import GinRpc.Orm.Rendering

/-!
# `UPDATE` and `DELETE` statements as woven texts

The two builders share the clauses after the head of the statement (`renderTail`).
`UpdateBuilder.build_eq` and `DeleteBuilder.build_eq` : they build the text and the arguments of
the woven statement, when their fields fit and their `WHERE` builder holds the woven conditions.
-/

namespace GinRpc

open Text Woven

namespace Orm

variable {α : Type*} {b : Bool} {d : Dialect}

/-! ### Woven parts -/

/-- The texts of a join are as they should be; the two builders put no arguments into its table. -/
structure Join.Fits (b : Bool) (j : Join α) : Prop where
  type : Quiet b j.type
  table : Quiet b j.table
  tableArgs : j.tableArgs = []
  condition : Fragment b j.condition j.args

/-- A join as a woven join. -/
def Join.weave (d : Dialect) (j : Join α) : WovenJoin α where
  type := j.type
  table := lits (if j.rawTable then j.table else d.quoteIdentifier j.table)
  condition := thread j.condition j.args

theorem Join.Fits.rep {j : Join α} (h : j.Fits d.isPostgreSQL) : JoinRep d j (j.weave d) where
  type := rfl
  table := by
    cases hr : j.rawTable with
    | true => simp [Join.weave, hr, h.tableArgs]
    | false => simp [Join.weave, hr]
  condition := (thread_spec h.condition.1).1.symm
  args := (thread_spec h.condition.1).2.1.symm
  quietType := h.type
  tidyTable := by
    unfold Join.weave
    split_ifs
    · exact tidy_quiet h.table
    · exact tidy_quoteIdentifier h.table
  tidyCondition := tidy_fragment h.condition

/-- The expression of a `SET` clause is as it should be. -/
def SetValue.Fits (b : Bool) : SetValue α → Prop
  | .value _ => True
  | .expr sql args => Fragment b sql args

/-- What a column is set to, after `n` arguments. -/
def SetValue.weave (d : Dialect) (n : ℕ) : SetValue α → Woven α
  | .value v => [.hole v (d.mark n)]
  | .expr sql args => fill d.mark n (thread sql args)

/-- One more assignment. -/
def renderSet (d : Dialect) (parts : List (Woven α)) (entry : Text × SetValue α) :
    List (Woven α) :=
  parts ++ [lits (d.quoteIdentifier entry.1) ++ lits " = " ++
    entry.2.weave d (holes parts.flatten).length]

/-- The clauses after the head `w` of a statement. -/
def renderTail (d : Dialect) (joins : List (WovenJoin α)) (cs : List (Woven α))
    (orderBy : List Text) (limit : ℤ) (w : Woven α) : Woven α :=
  let w := joins.foldl (renderJoin d) w
  w ++ clause " WHERE " d (holes w).length cs ++ optionalList " ORDER BY " orderBy ++
    optional " " (if limit > 0 then d.limitOffset limit 0 else [])

/-- The `SET` clause is built as it is rendered. -/
theorem foldl_appendSet {data : List (Text × SetValue α)}
    (h : ∀ e ∈ data, Quiet d.isPostgreSQL e.1 ∧ e.2.Fits d.isPostgreSQL) (parts : List (Woven α))
    (hp : ∀ w ∈ parts, Tidy d.isPostgreSQL w) :
    data.foldl (UpdateBuilder.appendSet d) (parts.map ink, holes parts.flatten) =
        ((data.foldl (renderSet d) parts).map ink, holes (data.foldl (renderSet d) parts).flatten) ∧
      ∀ w ∈ data.foldl (renderSet d) parts, Tidy d.isPostgreSQL w := by
  induction data generalizing parts with
  | nil => exact ⟨rfl, hp⟩
  | cons e data ih =>
    obtain ⟨hk, hv⟩ := h e List.mem_cons_self
    have hvalue : Tidy d.isPostgreSQL (e.2.weave d (holes parts.flatten).length) := by
      cases he : e.2 with
      | value v => exact tidy_mark v _
      | expr sql args =>
        rw [he] at hv
        exact tidy_fill (tidy_fragment hv) _
    have hone := (tidy_quoteIdentifier hk).sep (s := " = ") (by decide) hvalue
    have hstep : UpdateBuilder.appendSet d (parts.map ink, holes parts.flatten) e =
        ((renderSet d parts e).map ink, holes (renderSet d parts e).flatten) := by
      unfold UpdateBuilder.appendSet renderSet
      cases he : e.2 with
      | value v => simp [SetValue.weave, placeholder_eq]
      | expr sql args =>
        rw [he] at hv
        obtain ⟨hi, hh, -⟩ := thread_spec hv.1
        have hr := replaceConditionPlaceholders_ink (d := d) (tidy_fragment hv)
          (holes parts.flatten).length
        rw [hi] at hr
        simp [SetValue.weave, hr, holes_fill, hh]
    have hall : ∀ w ∈ renderSet d parts e, Tidy d.isPostgreSQL w := by
      intro w hw
      obtain hw | hw := List.mem_append.1 hw
      · exact hp w hw
      · rwa [List.mem_singleton.1 hw]
    rw [List.foldl_cons, hstep]
    exact ih (fun x hx => h x (List.mem_cons_of_mem _ hx)) _ hall

theorem ink_optional_limit (limit : ℤ) (t : Text) :
    ink (optional " " (if limit > 0 then t else []) : Woven α) =
      if limit > 0 then (if t ≠ [] then " " ++ t else []) else [] := by
  rw [ink_optional]
  split_ifs <;> simp_all

/-- The clauses after the head are built as they are rendered. -/
theorem build_tail {wb : WhereBuilder α} {cs : List (Woven α)} {joins : List (Join α)}
    {orderBy : List Text} {w : Woven α} (hw : Tidy d.isPostgreSQL w)
    (hj : ∀ j ∈ joins, j.Fits d.isPostgreSQL) (hwb : WhereRep wb d cs)
    (ho : ∀ t ∈ orderBy, Quiet d.isPostgreSQL t) (limit : ℤ) :
    (appendOrderLimit d orderBy limit
        (appendWhere wb (joins.foldl (appendJoin d) (written w))).1,
      (appendWhere wb (joins.foldl (appendJoin d) (written w))).2) =
        written (renderTail d (joins.map (Join.weave d)) cs orderBy limit w) ∧
      Tidy d.isPostgreSQL (renderTail d (joins.map (Join.weave d)) cs orderBy limit w) := by
  have hrep : List.Forall₂ (JoinRep d) joins (joins.map (Join.weave d)) := by
    rw [List.forall₂_map_right_iff, List.forall₂_same]
    exact fun j hm => (hj j hm).rep
  obtain ⟨hjoins, htidy⟩ := appendJoins hrep hw
  constructor
  · rw [hjoins, hwb.appendWhere]
    unfold renderTail written appendOrderLimit
    simp only [ink_append, holes_append, ink_optionalList, ink_optional_limit, holes_optional,
      holes_optionalList, List.append_nil, append_ite_nil]
  · refine tidy_optional (tidy_optionalList (hwb.tidy_clause (by decide) htidy _) (by decide) ho)
      (by decide) ?_
    split_ifs
    · exact quiet_limitOffset _ _
    · exact quiet_of_notMem List.not_mem_nil List.not_mem_nil

/-! ### Statements -/

/-- The fields of an `UPDATE` builder are as they should be, and some column is set. -/
structure UpdateBuilder.Fits (ub : UpdateBuilder α) : Prop where
  table : Quiet ub.dialect.isPostgreSQL ub.table
  data : ∀ e ∈ ub.data, Quiet ub.dialect.isPostgreSQL e.1 ∧ e.2.Fits ub.dialect.isPostgreSQL
  joins : ∀ j ∈ ub.joins, j.Fits ub.dialect.isPostgreSQL
  orderBy : ∀ t ∈ ub.orderBy, Quiet ub.dialect.isPostgreSQL t
  nonempty : ub.data ≠ []

/-- The statement with the conditions `cs`. -/
def UpdateBuilder.render (ub : UpdateBuilder α) (cs : List (Woven α)) : Woven α :=
  renderTail ub.dialect (ub.joins.map (Join.weave ub.dialect)) cs ub.orderBy ub.limit
    (lits "UPDATE " ++ lits (ub.dialect.quoteIdentifier ub.table) ++ lits " SET " ++
      (lits ", ").intercalate (ub.data.foldl (renderSet ub.dialect) []))

/-- **An `UPDATE` statement is built as it is rendered.** -/
theorem UpdateBuilder.build_eq {ub : UpdateBuilder α} (h : ub.Fits) {cs : List (Woven α)}
    (hw : WhereRep ub.where_ ub.dialect cs) :
    ub.build = written (ub.render cs) ∧ Tidy ub.dialect.isPostgreSQL (ub.render cs) := by
  obtain ⟨hset, htset⟩ := foldl_appendSet h.data [] (by simp)
  have hhead := ((tidy_quoteIdentifier h.table).sep_left (s := "UPDATE ") (by decide)).sep
    (s := " SET ") (by decide) (tidy_intercalate (s := ", ") (by decide) htset)
  obtain ⟨hb, ht⟩ := build_tail hhead h.joins hw h.orderBy ub.limit
  refine ⟨?_, ht⟩
  unfold UpdateBuilder.build UpdateBuilder.render
  rw [if_neg fun hlen => h.nonempty (List.length_eq_zero_iff.1 hlen), ← hb]
  change ub.data.foldl (UpdateBuilder.appendSet ub.dialect) ([], []) = _ at hset
  rw [hset]
  simp [written, ink_intercalate, holes_intercalate, holes_flatten]

/-- The fields of a `DELETE` builder are as they should be. -/
structure DeleteBuilder.Fits (db : DeleteBuilder α) : Prop where
  table : Quiet db.dialect.isPostgreSQL db.table
  joins : ∀ j ∈ db.joins, j.Fits db.dialect.isPostgreSQL
  orderBy : ∀ t ∈ db.orderBy, Quiet db.dialect.isPostgreSQL t

/-- The statement with the conditions `cs`. -/
def DeleteBuilder.render (db : DeleteBuilder α) (cs : List (Woven α)) : Woven α :=
  renderTail db.dialect (db.joins.map (Join.weave db.dialect)) cs db.orderBy db.limit
    (lits "DELETE FROM " ++ lits (db.dialect.quoteIdentifier db.table))

/-- **A `DELETE` statement is built as it is rendered.** -/
theorem DeleteBuilder.build_eq {db : DeleteBuilder α} (h : db.Fits) {cs : List (Woven α)}
    (hw : WhereRep db.where_ db.dialect cs) :
    db.build = written (db.render cs) ∧ Tidy db.dialect.isPostgreSQL (db.render cs) := by
  have hhead := (tidy_quoteIdentifier (α := α) h.table).sep_left (s := "DELETE FROM ") (by decide)
  obtain ⟨hb, ht⟩ := build_tail hhead h.joins hw h.orderBy db.limit
  refine ⟨?_, ht⟩
  unfold DeleteBuilder.build DeleteBuilder.render
  rw [← hb]
  simp [written]

end Orm

end GinRpc
