import GinRpc.Orm.Weaving

/-!
# Built texts are rendered queries

* `Rep b sb q` : the builder `sb` holds the texts and the arguments of the query `q`.
* `Rep.build` : then `Build` gives the text and the arguments of the woven text `q.render`.
* `Rep.call` : every call keeps the relation, so it holds for all builders that are `Made`.
-/

namespace GinRpc

open Text Woven

namespace Orm

variable {α σ : Type*} {b : Bool} {d : Dialect} {t : Text}

/-! ### Quiet texts -/

section Quiet

/-- A quiet text is a tidy text without placeholders. -/
theorem quiet_iff_tidy : Quiet b t ↔ Tidy b (lits t : Woven Unit) := by
  refine ⟨fun h => tidy_quiet h, fun h => ?_⟩
  have hq : '?' ∉ t := fun hm => h.quiet (List.mem_map_of_mem hm)
  refine ⟨hq, fun hb => ?_⟩
  have hchain := (List.isChain_map Tok.lit).1 (h.chain hb)
  refine hchain.imp_of_mem_imp fun c e hc _ hce ho => ?_
  obtain rfl | rfl := ho
  · exact hce rfl
  · exact absurd hc hq

theorem quiet_of_notMem (hd : '$' ∉ t) (hq : '?' ∉ t) : Quiet b t :=
  ⟨hq, fun _ => spaced_of_notMem hd hq⟩

theorem Quiet.sep_right (h : Quiet b t) {s : Text} (hs : isSep s = true) : Quiet b (t ++ s) := by
  rw [quiet_iff_tidy, lits_append]
  exact (quiet_iff_tidy.1 h).sep_right hs

theorem Quiet.sep_left (h : Quiet b t) {s : Text} (hs : isSep s = true) : Quiet b (s ++ t) := by
  rw [quiet_iff_tidy, lits_append]
  exact (quiet_iff_tidy.1 h).sep_left hs

theorem trimSpace_isInfix (t : Text) : trimSpace t <:+: t := by
  have h₁ := List.dropWhile_suffix isSpace (l := t)
  have h₂ := List.dropWhile_suffix isSpace (l := (t.dropWhile isSpace).reverse)
  have h₃ : trimSpace t <+: t.dropWhile isSpace := by
    rw [trimSpace, ← List.reverse_suffix, List.reverse_reverse]
    exact h₂
  exact h₃.isInfix.trans h₁.isInfix

theorem Quiet.trimSpace (h : Quiet b t) : Quiet b (trimSpace t) :=
  ⟨fun hm => h.1 (mem_of_mem_trimSpace hm),
    fun hb => List.IsChain.infix (h.2 hb) (trimSpace_isInfix t)⟩

theorem Quiet.aliasOrDefault (h : Quiet b t) : Quiet b (SelectBuilder.aliasOrDefault t) := by
  unfold SelectBuilder.aliasOrDefault
  dsimp only
  split_ifs
  · exact quiet_of_notMem (by decide) (by decide)
  · exact h.trimSpace

theorem notMem_itoa {n : ℤ} {c : Char} (hc : c.isDigit = false) (hm : c ≠ '-') : c ∉ itoa n := by
  unfold itoa
  split_ifs
  · rw [List.mem_cons, not_or]
    exact ⟨hm, notMem_decimal hc⟩
  · exact notMem_decimal hc

theorem quiet_limitOffset (limit offset : ℤ) : Quiet b (d.limitOffset limit offset) := by
  have key : ∀ c : Char, c.isDigit = false → c ∉ "-LIMIT OFFSET".toList →
      c ∉ d.limitOffset limit offset := by
    intro c hc hm
    have hword : ∀ word ⊆ "-LIMIT OFFSET".toList, c ∉ word := fun word h hmem => hm (h hmem)
    have hn : ∀ n, c ∉ itoa n := fun n => notMem_itoa hc fun h => hm (by simp [h])
    unfold Dialect.limitOffset
    split_ifs
    · exact List.not_mem_nil
    · exact List.not_mem_append (hword _ (by decide)) (hn limit)
    · exact List.not_mem_append (hword _ (by decide)) (hn offset)
    · have hlimit := List.not_mem_append (hword ("LIMIT " : Text) (by decide)) (hn limit)
      exact List.not_mem_append (List.not_mem_append hlimit (hword _ (by decide))) (hn offset)
  exact quiet_of_notMem (key '$' (by decide) (by decide)) (key '?' (by decide) (by decide))

theorem mem_of_isQualified {c : Char} (h : isQualified t = true) (hc : c ∈ t) :
    c = '.' ∨ isWordChar c = true := by
  rw [← @List.intercalate_splitOn Char t _ _ '.'] at hc
  obtain hc | ⟨p, hp, hc⟩ := mem_intercalate hc
  · exact .inl (List.mem_singleton.1 hc)
  · have hname := List.all_eq_true.1 h p hp
    cases p with
    | nil => cases hc
    | cons e p =>
      rw [isName, Bool.and_eq_true] at hname
      obtain rfl | hc := List.mem_cons.1 hc
      · exact .inr (by simp [isWordChar, Char.isAlphanum, hname.1])
      · exact .inr (List.all_eq_true.1 hname.2 c hc)

theorem quiet_of_isQualified (h : isQualified t = true) : Quiet b t := by
  refine quiet_of_notMem (fun hc => ?_) fun hc => ?_
  all_goals
    obtain hc | hc := mem_of_isQualified h hc
    · exact absurd hc (by decide)
    · exact absurd hc (by decide)

/-- An item that passed the check is a dotted name with an optional direction. -/
theorem buildSafeOrderByItem_ok {item : Text} (h : buildSafeOrderByItem d item = .ok t) :
    ∃ identifier, isQualified identifier = true ∧
      (t = identifier ∨ t = identifier ++ " ASC" ∨ t = identifier ++ " DESC") := by
  unfold buildSafeOrderByItem at h
  split at h
  · cases h
  · rename_i identifier dir hm
    unfold validateQualifiedIdentifier at h
    split_ifs at h with hnil hq
    · cases h
    · change (if _ then _ else if _ then _ else _) = Except.ok t at h
      split_ifs at h with hdir hempty
      · exact ⟨identifier, hq, .inl (Except.ok.inj h).symm⟩
      refine ⟨identifier, hq, .inr ?_⟩
      cases h
      simp only [not_and_or, not_not] at hdir
      obtain hdir | hdir | hdir := hdir
      · exact absurd hdir hempty
      · exact .inl (by simp [hdir])
      · exact .inr (by simp [hdir])
    · cases h

theorem quiet_buildSafeOrderByItem {item : Text} (h : buildSafeOrderByItem d item = .ok t) :
    Quiet b t := by
  obtain ⟨identifier, hq, rfl | rfl | rfl⟩ := buildSafeOrderByItem_ok h
  · exact quiet_of_isQualified hq
  · exact (quiet_of_isQualified hq).sep_right (by decide)
  · exact (quiet_of_isQualified hq).sep_right (by decide)

theorem quiet_normalizeJoinType {joinType : Text} (h : normalizeJoinType joinType = .ok t) :
    Quiet b t := by
  unfold normalizeJoinType at h
  dsimp only at h
  split_ifs at h with hm
  cases h
  have hall : ∀ s ∈ allowedJoinTypes, '$' ∉ s ∧ '?' ∉ s := by decide
  exact quiet_of_notMem (hall _ hm).1 (hall _ hm).2

end Quiet

/-! ### Clauses -/

/-- A join holds the texts and the arguments of a woven join. -/
structure JoinRep (d : Dialect) (j : Join α) (j' : WovenJoin α) : Prop where
  type : j.type = j'.type
  table : if j.rawTable then j.table = ink j'.table ∧ j.tableArgs = holes j'.table
    else j'.table = lits (d.quoteIdentifier j.table)
  condition : j.condition = ink j'.condition
  args : j.args = holes j'.condition
  quietType : Quiet d.isPostgreSQL j'.type
  tidyTable : Tidy d.isPostgreSQL j'.table
  tidyCondition : Tidy d.isPostgreSQL j'.condition

section Clauses

variable {wb : WhereBuilder α} {cs : List (Woven α)} {w : Woven α}

theorem shiftWoven_lits (d : Dialect) (n : ℕ) (t : Text) :
    d.shiftWoven n (lits t : Woven α) = lits t := by
  unfold Dialect.shiftWoven
  rw [shift_eq_self (by simp), ite_self]

theorem JoinRep.append {j : Join α} {j' : WovenJoin α} (h : JoinRep d j j')
    (hw : Tidy d.isPostgreSQL w) :
    appendJoin d (written w) j = written (renderJoin d w j') ∧
      Tidy d.isPostgreSQL (renderJoin d w j') := by
  constructor
  · have htable := h.table
    unfold appendJoin renderJoin written
    cases hr : j.rawTable with
    | true =>
      rw [hr, if_pos rfl] at htable
      simp [h.type, h.condition, h.args, htable, shiftPlaceholdersIfNeeded_ink h.tidyTable,
        replaceConditionPlaceholders_ink h.tidyCondition, holes_fill]
    | false =>
      rw [hr, if_neg (by decide)] at htable
      simp [h.type, h.condition, h.args, htable, shiftWoven_lits,
        replaceConditionPlaceholders_ink h.tidyCondition, holes_fill]
  · exact ((hw.sep (by decide) (tidy_quiet h.quietType)).sep (by decide)
      (tidy_shiftWoven h.tidyTable d _)).sep (by decide) (tidy_fill h.tidyCondition _)

theorem appendJoins {js : List (Join α)} {js' : List (WovenJoin α)}
    (h : List.Forall₂ (JoinRep d) js js') (hw : Tidy d.isPostgreSQL w) :
    js.foldl (appendJoin d) (written w) = written (js'.foldl (renderJoin d) w) ∧
      Tidy d.isPostgreSQL (js'.foldl (renderJoin d) w) := by
  induction h generalizing w with
  | nil => exact ⟨rfl, hw⟩
  | cons hj _ ih =>
    obtain ⟨heq, htidy⟩ := hj.append hw
    rw [List.foldl_cons, heq, List.foldl_cons]
    exact ih htidy

theorem WhereRep.buildWithOffset (h : WhereRep wb d cs) (n : ℕ) :
    wb.buildWithOffset n =
      if cs.length = 0 then ([], [])
      else
        ("WHERE ".toList ++ ink (fill d.mark n ((lits " ").intercalate cs)), cs.flatMap holes) := by
  unfold WhereBuilder.buildWithOffset
  rw [h.conditions, h.args, h.dialect, List.length_map, replaceAll_ink h.tidy]

theorem WhereRep.appendWhere (h : WhereRep wb d cs) (w : Woven α) :
    appendWhere wb (written w) = written (w ++ clause " WHERE " d (holes w).length cs) := by
  unfold GinRpc.Orm.appendWhere written clause
  rw [h.buildWithOffset]
  split_ifs
  · simp
  · simp [holes_fill, holes_intercalate]

theorem WhereRep.appendHaving (h : WhereRep wb d cs) (w : Woven α) :
    SelectCore.appendHaving wb (written w) =
      written (w ++ clause " HAVING " d (holes w).length cs) := by
  have hr : ∀ t : Text, replaceFirst "WHERE" "HAVING" ("WHERE " ++ t) = "HAVING " ++ t :=
    fun t => rfl
  unfold SelectCore.appendHaving written clause
  rw [h.buildWithOffset]
  split_ifs
  · simp
  · dsimp only
    rw [hr, if_pos (by simp)]
    simp [holes_fill, holes_intercalate]

theorem WhereRep.tidy_clause (h : WhereRep wb d cs) {keyword : Text} (hk : isSep keyword = true)
    (hw : Tidy d.isPostgreSQL w) (n : ℕ) : Tidy d.isPostgreSQL (w ++ clause keyword d n cs) := by
  unfold clause
  split_ifs
  · simpa using hw
  · rw [← List.append_assoc]
    exact hw.sep hk (tidy_fill (tidy_intercalate (by decide) h.tidy) n)

/-- The clause by itself is built as it is woven. -/
theorem WhereRep.build_clause (h : WhereRep wb d cs) (n : ℕ) :
    wb.buildWithOffset n = written (clause "WHERE " d n cs) ∧
      Tidy d.isPostgreSQL (clause "WHERE " d n cs) := by
  constructor
  · rw [h.buildWithOffset]
    unfold clause written
    split_ifs
    · rfl
    · simp [holes_fill, holes_intercalate]
  · simpa only [List.nil_append] using h.tidy_clause (by decide) tidy_nil n

theorem ink_optional (sep t : Text) :
    ink (optional sep t : Woven α) = if t ≠ [] then sep ++ t else [] := by
  unfold optional
  split_ifs <;> simp

theorem ink_optionalList (sep : Text) (ts : List Text) :
    ink (optionalList sep ts : Woven α) =
      if ts.length > 0 then sep ++ List.intercalate ", " ts else [] := by
  unfold optionalList
  split_ifs
  · have : ink ∘ (lits : Text → Woven α) = id := by
      funext t
      exact ink_lits t
    simp [ink_intercalate, this]
  · rfl

theorem append_ite_nil {p : Prop} [Decidable p] (s t : Text) :
    (s ++ if p then t else []) = if p then s ++ t else s := by
  split_ifs <;> simp

@[simp] theorem holes_optional (sep t : Text) : holes (optional sep t : Woven α) = [] := by
  unfold optional
  split_ifs <;> simp

@[simp] theorem holes_optionalList (sep : Text) (ts : List Text) :
    holes (optionalList sep ts : Woven α) = [] := by
  unfold optionalList
  split_ifs
  · simp [holes_intercalate]
  · rfl

/-- Appending a list of quoted names, if there is one. -/
theorem written_optionalList (w : Woven α) (sep : Text) (names : List Text) (quote : Text → Text) :
    (if names.length > 0 then
        ((written w).1 ++ (sep ++ List.intercalate ", " (names.map quote)), (written w).2)
      else written w) = written (w ++ optionalList sep (names.map quote)) := by
  unfold written
  rw [ink_append, ink_optionalList, append_ite_nil, List.length_map]
  split_ifs <;> simp

theorem tidy_optional (hw : Tidy b w) {sep : Text} (hs : isSep sep = true) (ht : Quiet b t) :
    Tidy b (w ++ optional sep t) := by
  unfold optional
  split_ifs
  · rw [← List.append_assoc]
    exact hw.sep hs (tidy_quiet ht)
  · simpa using hw

theorem tidy_optionalList (hw : Tidy b w) {sep : Text} (hs : isSep sep = true) {ts : List Text}
    (ht : ∀ t ∈ ts, Quiet b t) : Tidy b (w ++ optionalList sep ts) := by
  unfold optionalList
  split_ifs
  · rw [← List.append_assoc]
    refine hw.sep hs (tidy_intercalate (by decide) fun v hv => ?_)
    obtain ⟨t, hm, rfl⟩ := List.mem_map.1 hv
    exact tidy_quiet (ht t hm)
  · simpa using hw

end Clauses

/-! ### Queries -/

/-- A common table expression whose builder builds the woven query. -/
structure CteRep (b : Bool) (c : CteClause (SelectBuilder α)) (c' : CteClause (Woven α)) :
    Prop where
  name : c.name = c'.name
  recursive : c.recursive = c'.recursive
  query : c.query.build = written c'.query
  quiet : Quiet b c'.name
  tidy : Tidy b c'.query

/-- A union whose builder builds the woven query. -/
structure UnionRep (b : Bool) (u : UnionClause (SelectBuilder α)) (u' : UnionClause (Woven α)) :
    Prop where
  all : u.all = u'.all
  query : u.query.build = written u'.query
  tidy : Tidy b u'.query

/-- The builder holds the texts and the arguments of the query, and all its texts are tidy. -/
structure Rep (b : Bool) (sb : SelectBuilder α) (q : Query α) : Prop where
  numbered : q.dialect.isPostgreSQL = b
  dialect : sb.dialect = q.dialect
  table : sb.fromExpr = ink q.table
  tableArgs : sb.tableArgs = holes q.table
  columns : sb.columns = q.columns
  joins : List.Forall₂ (JoinRep q.dialect) sb.joins q.joins
  where_ : WhereRep sb.where_ q.dialect q.where_
  groupBy : sb.groupBy = q.groupBy
  having : WhereRep sb.having q.dialect q.having
  orderBy : sb.orderBy = q.orderBy
  limit : sb.limit = q.limit
  offset : sb.offset = q.offset
  lockMode : sb.lockMode = q.lockMode
  ctes : List.Forall₂ (CteRep b) sb.ctes q.ctes
  unions : List.Forall₂ (UnionRep b) sb.unions q.unions
  tidyTable : Tidy b q.table
  quietColumns : ∀ c ∈ q.columns, Quiet b c
  quietGroupBy : ∀ c ∈ q.groupBy, Quiet b c
  quietOrderBy : ∀ c ∈ q.orderBy, Quiet b c
  quietLockMode : Quiet b q.lockMode

namespace Rep

variable {sb : SelectBuilder α} {q : Query α}

theorem quotedColumns (h : Rep b sb q) : sb.quotedColumns = q.quotedColumns := by
  unfold SelectCore.quotedColumns Query.quotedColumns
  rw [h.columns, h.dialect]

theorem tidy_quotedColumns (h : Rep b sb q) :
    Tidy b ((lits ", ").intercalate (q.quotedColumns.map lits) : Woven α) := by
  obtain rfl := h.numbered
  refine tidy_intercalate (by decide) fun w hw => ?_
  obtain ⟨t, ht, rfl⟩ := List.mem_map.1 hw
  obtain ⟨c, hc, rfl⟩ := List.mem_map.1 ht
  split_ifs
  · exact tidy_quiet (h.quietColumns c hc)
  · exact tidy_quoteIdentifier (h.quietColumns c hc)

theorem written_from (h : Rep b sb q) :
    ("SELECT " ++ List.intercalate ", " sb.quotedColumns ++ " FROM " ++ sb.fromExpr, sb.tableArgs) =
      written (lits "SELECT " ++ (lits ", ").intercalate (q.quotedColumns.map lits) ++
        lits " FROM " ++ q.table) := by
  have hink : ink ∘ (lits : Text → Woven α) = id := by
    funext t
    exact ink_lits t
  simp [written, h.quotedColumns, h.table, h.tableArgs, ink_intercalate, holes_intercalate, hink]

/-- **The query without common table expressions and unions is built as it is rendered.** -/
theorem core (h : Rep b sb q) :
    sb.buildSelectCore = written q.renderCore ∧ Tidy b q.renderCore := by
  obtain rfl := h.numbered
  have hfrom := ((h.tidy_quotedColumns).sep_left (s := "SELECT ") (by decide)).sep
    (s := " FROM ") (by decide) h.tidyTable
  obtain ⟨hjoins, htidy⟩ := appendJoins h.joins hfrom
  constructor
  · unfold SelectCore.buildSelectCore
    dsimp only
    rw [h.written_from, h.dialect, hjoins, h.where_.appendWhere, written_optionalList,
      h.having.appendHaving, h.groupBy, h.orderBy, h.limit, h.offset, h.lockMode]
    unfold Query.renderCore Query.renderBody written
    simp only [ink_append, holes_append, ink_optional, ink_optionalList, holes_optional,
      holes_optionalList, List.append_nil, append_ite_nil]
  · have hgroup : ∀ t ∈ q.groupBy.map q.dialect.quoteIdentifier,
        Quiet q.dialect.isPostgreSQL t := by
      intro t ht
      obtain ⟨c, hc, rfl⟩ := List.mem_map.1 ht
      exact quiet_quoteIdentifier (h.quietGroupBy c hc)
    have hbody : Tidy q.dialect.isPostgreSQL q.renderBody :=
      h.having.tidy_clause (by decide) (tidy_optionalList
        (h.where_.tidy_clause (by decide) htidy _) (by decide) hgroup) _
    exact tidy_optional (tidy_optional (tidy_optionalList hbody (by decide) h.quietOrderBy)
      (by decide) (quiet_limitOffset _ _)) (by decide) h.quietLockMode

end Rep

/-! ### Common table expressions and unions -/

section Loops

variable {w : Woven α}

theorem holes_flatten (ws : List (Woven α)) : holes ws.flatten = ws.flatMap holes := by
  induction ws with
  | nil => rfl
  | cons w ws ih => simp [ih]

theorem buildCtes_cons (d : Dialect) (c : CteClause (SelectBuilder α))
    (rest : List (CteClause (SelectBuilder α))) (cteParts : List Text) (allArgs : List α) :
    buildCtes d (c :: rest) (cteParts, allArgs) =
      buildCtes d rest (cteParts ++ [d.quoteIdentifier c.name ++ " AS (" ++
        shiftPlaceholdersIfNeeded c.query.build.1 d allArgs.length ++ ")"],
          allArgs ++ c.query.build.2) := by
  obtain ⟨name, query, recursive⟩ := c
  rw [buildCtes]

theorem appendUnions_cons (d : Dialect) (u : UnionClause (SelectBuilder α))
    (rest : List (UnionClause (SelectBuilder α))) (text : Text) (args : List α) :
    appendUnions d (u :: rest) (text, args) =
      appendUnions d rest (text ++ ((if u.all then " UNION ALL ".toList else " UNION ".toList) ++
        shiftPlaceholdersIfNeeded u.query.build.1 d args.length), args ++ u.query.build.2) := by
  obtain ⟨all, query⟩ := u
  rw [appendUnions]

/-- The loop over the common table expressions, of which `parts` have been built. -/
theorem buildCtes_eq {ctes : List (CteClause (SelectBuilder α))}
    {ctes' : List (CteClause (Woven α))}
    (h : List.Forall₂ (CteRep d.isPostgreSQL) ctes ctes') (parts : List (Woven α))
    (hp : ∀ w ∈ parts, Tidy d.isPostgreSQL w) :
    let all := ctes'.foldl (fun parts c => parts ++ [Query.renderCte d parts.flatten c]) parts
    buildCtes d ctes (parts.map ink, holes parts.flatten) = (all.map ink, holes all.flatten) ∧
      ∀ w ∈ all, Tidy d.isPostgreSQL w := by
  induction h generalizing parts with
  | nil => exact ⟨by rw [buildCtes]; rfl, hp⟩
  | @cons c c' _ _ hc _ ih =>
    have hone : Tidy d.isPostgreSQL (Query.renderCte d parts.flatten c') :=
      ((tidy_quoteIdentifier hc.quiet).sep (by decide) (tidy_shiftWoven hc.tidy d _)).sep_right
        (by decide)
    have hall : ∀ w ∈ parts ++ [Query.renderCte d parts.flatten c'], Tidy d.isPostgreSQL w := by
      intro w hw
      obtain hw | hw := List.mem_append.1 hw
      · exact hp w hw
      · rwa [List.mem_singleton.1 hw]
    obtain ⟨hrest, htidy⟩ := ih _ hall
    refine ⟨?_, htidy⟩
    rw [List.foldl_cons, ← hrest, buildCtes_cons, hc.query, hc.name, written,
      shiftPlaceholdersIfNeeded_ink hc.tidy]
    simp [Query.renderCte]

theorem appendUnions_eq {unions : List (UnionClause (SelectBuilder α))}
    {unions' : List (UnionClause (Woven α))}
    (h : List.Forall₂ (UnionRep d.isPostgreSQL) unions unions') (hw : Tidy d.isPostgreSQL w) :
    appendUnions d unions (written w) = written (unions'.foldl (Query.renderUnion d) w) ∧
      Tidy d.isPostgreSQL (unions'.foldl (Query.renderUnion d) w) := by
  induction h generalizing w with
  | nil => exact ⟨by rw [appendUnions]; rfl, hw⟩
  | @cons u u' _ _ hu _ ih =>
    have hsep : ∀ all : Bool, isSep (if all then " UNION ALL " else " UNION ") = true := by decide
    have hone : Tidy d.isPostgreSQL (Query.renderUnion d w u') :=
      hw.sep (hsep _) (tidy_shiftWoven hu.tidy d _)
    obtain ⟨hrest, htidy⟩ := ih hone
    refine ⟨?_, htidy⟩
    rw [List.foldl_cons, ← hrest, written, appendUnions_cons, hu.query, hu.all, written,
      shiftPlaceholdersIfNeeded_ink hu.tidy]
    simp only [Query.renderUnion, written, ink_append, holes_append, ink_lits, holes_lits,
      holes_shiftWoven, List.append_assoc]
    split <;> rfl

end Loops

theorem recursive_eq {ctes : List (CteClause (SelectBuilder α))}
    {ctes' : List (CteClause (Woven α))} (h : List.Forall₂ (CteRep b) ctes ctes') :
    (ctes.any fun c => c.recursive) = ctes'.any fun c => c.recursive := by
  induction h with
  | nil => rfl
  | cons hc _ ih => rw [List.any_cons, List.any_cons, hc.recursive, ih]

/-- **`Build` gives the text and the arguments of the rendered query.** -/
theorem Rep.build {sb : SelectBuilder α} {q : Query α} (h : Rep b sb q) :
    sb.build = written q.render ∧ Tidy b q.render := by
  obtain rfl := h.numbered
  obtain ⟨hcore, htcore⟩ := h.core
  obtain ⟨core, ctes, unions⟩ := sb
  have hd : core.dialect = q.dialect := h.dialect
  have hctes : List.Forall₂ (CteRep _) ctes q.ctes := h.ctes
  unfold Query.render
  cases hq : q.ctes with
  | nil =>
    rw [hq] at hctes
    cases hctes
    rw [SelectBuilder.build, hd, hcore]
    exact appendUnions_eq h.unions htcore
  | cons c' cs' =>
    rw [hq] at hctes
    obtain ⟨hparts, htparts⟩ := buildCtes_eq hctes [] (by simp)
    change buildCtes _ _ ([], []) = ((Query.renderCtes q.dialect (c' :: cs')).map ink,
      holes (Query.renderCtes q.dialect (c' :: cs')).flatten) at hparts
    have hrec := recursive_eq hctes
    have hkey : ∀ r : Bool, isSep (if r then "WITH RECURSIVE " else "WITH ") = true := by decide
    obtain ⟨hunions, htidy⟩ := appendUnions_eq h.unions
      (((tidy_intercalate (s := ", ") (by decide) htparts).sep_left (hkey _)).sep (s := " ")
        (by decide) (tidy_shiftWoven htcore q.dialect _))
    refine ⟨Eq.trans ?_ hunions, htidy⟩
    change _ = appendUnions q.dialect unions _
    cases hctes
    rw [SelectBuilder.build, hd, hparts, hrec]
    dsimp only
    rw [hcore]
    refine congrArg (appendUnions q.dialect unions) ?_
    simp only [written, shiftPlaceholdersIfNeeded_ink htcore, ink_append, holes_append, ink_lits,
      holes_lits, ink_intercalate, holes_intercalate, holes_flatten, holes_shiftWoven,
      List.nil_append, List.append_nil]
    rfl

/-! ### Calls keep the relation -/

/-- The conditions of a join as those of a `WhereBuilder`. -/
def JoinOnBuilder.toWhere (jb : JoinOnBuilder α) : WhereBuilder α :=
  ⟨jb.conditions, jb.args, jb.dialect⟩

section JoinOn

variable {jb : JoinOnBuilder α} {cs : List (Woven α)}

theorem WhereRep.joinCall (h : WhereRep jb.toWhere d cs) (c : JoinCall α)
    (hf : c.Fits d.isPostgreSQL) : WhereRep (jb.call c).toWhere d (weaveJoin d cs c) := by
  have hd : jb.dialect = d := h.dialect
  cases c with
  | on condition args =>
    obtain ⟨hi, hh, -⟩ := thread_spec hf.1
    refine h.snoc (tidy_fragment hf) rfl ?_ ?_
    · rw [hi]; rfl
    · rw [hh]; rfl
  | connect conn condition args =>
    obtain ⟨hi, hh, -⟩ := thread_spec hf.1
    have := h.connect conn (tidy_fragment hf) hi
    rwa [hh] at this
  | eq left right =>
    refine h.snoc ((tidy_quoteIdentifier hf.1).sep (by decide) (tidy_quoteIdentifier hf.2)) rfl
      ?_ ?_
    · simp [JoinOnBuilder.call, JoinOnBuilder.toWhere, JoinOnBuilder.eq, JoinOnBuilder.on, hd]
    · simp [JoinOnBuilder.call, JoinOnBuilder.toWhere, JoinOnBuilder.eq, JoinOnBuilder.on]
  | eqValue column value =>
    refine h.snoc ((tidy_quoteIdentifier hf).sep (by decide) (tidy_hole value fun _ => rfl)) rfl
      ?_ ?_
    · simp [JoinOnBuilder.call, JoinOnBuilder.toWhere, JoinOnBuilder.eqValue, JoinOnBuilder.on,
        hd, markInk]
    · simp [JoinOnBuilder.call, JoinOnBuilder.toWhere, JoinOnBuilder.eqValue, JoinOnBuilder.on]

theorem WhereRep.joinCalls (h : WhereRep jb.toWhere d cs) {on : List (JoinCall α)}
    (hf : ∀ c ∈ on, c.Fits d.isPostgreSQL) :
    WhereRep (JoinOnBuilder.callAll on jb).toWhere d (on.foldl (weaveJoin d) cs) := by
  induction on generalizing jb cs with
  | nil => exact h
  | cons c on ih =>
    exact ih (h.joinCall c (hf c (by simp))) fun x hx => hf x (List.mem_cons_of_mem _ hx)

end JoinOn

namespace Rep

variable {sb : SelectBuilder α} {q : Query α}

theorem new (table : Text) (d : Dialect) (hq : Quiet d.isPostgreSQL table) :
    Rep d.isPostgreSQL (newSelectBuilderWithDialect table d : SelectBuilder α)
      (Query.new table d) where
  numbered := rfl
  dialect := rfl
  table := (ink_lits _).symm
  tableArgs := (holes_lits _).symm
  columns := rfl
  joins := .nil
  where_ := whereRep_new d
  groupBy := rfl
  having := whereRep_new d
  orderBy := rfl
  limit := rfl
  offset := rfl
  lockMode := rfl
  ctes := .nil
  unions := .nil
  tidyTable := tidy_quoteIdentifier hq
  quietColumns c hc := by
    rw [List.mem_singleton.1 hc]
    exact quiet_of_notMem (by decide) (by decide)
  quietGroupBy c hc := by cases hc
  quietOrderBy c hc := by cases hc
  quietLockMode := quiet_of_notMem List.not_mem_nil List.not_mem_nil

/-- Another table expression, given as a text. -/
theorem fromRaw (h : Rep b sb q) {w : Woven α} (hw : Tidy b w) :
    Rep b (sb.fromRaw (ink w) (holes w)) { q with table := w } :=
  { h with table := rfl, tableArgs := rfl, tidyTable := hw }

theorem setColumns (h : Rep b sb q) {columns columns' : List Text} (he : columns = columns')
    (hc : ∀ c ∈ columns', Quiet b c) :
    Rep b { sb with columns := columns } { q with columns := columns' } :=
  { h with columns := he, quietColumns := hc }

theorem addOrderBy (h : Rep b sb q) {items items' : List Text} (he : items = items')
    (hi : ∀ c ∈ items', Quiet b c) :
    Rep b { sb with orderBy := sb.orderBy ++ items } { q with orderBy := q.orderBy ++ items' } :=
  { h with
    orderBy := congrArg₂ (· ++ ·) h.orderBy he
    quietOrderBy := fun c hc => (List.mem_append.1 hc).elim (h.quietOrderBy c) (hi c) }

theorem setLockMode (h : Rep b sb q) {lockMode lockMode' : Text} (he : lockMode = lockMode')
    (hl : Quiet b lockMode') :
    Rep b { sb with lockMode := lockMode } { q with lockMode := lockMode' } :=
  { h with lockMode := he, quietLockMode := hl }

theorem addUnion (h : Rep b sb q) (all : Bool) {sub : SelectBuilder α} {r : Query α}
    (hr : Rep b sub r) :
    Rep b { sb with unions := sb.unions ++ [⟨all, sub⟩] } (q.addUnion all r) :=
  { h with
    unions := List.rel_append h.unions (.cons ⟨rfl, hr.build.1, hr.build.2⟩ .nil) }

theorem addCte (h : Rep b sb q) {name : Text} (hn : Quiet b name) (recursive : Bool)
    {sub : SelectBuilder α} {r : Query α} (hr : Rep b sub r) :
    Rep b { sb with ctes := sb.ctes ++ [⟨name, sub, recursive⟩] }
      { q with ctes := q.ctes ++ [⟨name, r.render, recursive⟩] } :=
  { h with
    ctes := List.rel_append h.ctes (.cons ⟨rfl, rfl, hr.build.1, hn, hr.build.2⟩ .nil) }

theorem addJoin (h : Rep b sb q) {j : Join α} {type : Text} {table condition : Woven α}
    (hj : JoinRep q.dialect j ⟨type, table, condition⟩) :
    Rep b { sb with joins := sb.joins ++ [j] } (q.addJoin type table condition) :=
  { h with joins := List.rel_append h.joins (.cons hj .nil) }

/-- The condition of a join is built as it is woven. -/
theorem joinOn_build (h : Rep b sb q) {on : List (JoinCall α)} (hf : ∀ c ∈ on, c.Fits b) :
    (JoinOnBuilder.callAll on (newJoinOnBuilder sb.dialect)).build =
        written (weaveOn q.dialect on) ∧ Tidy b (weaveOn q.dialect on) := by
  obtain rfl := h.numbered
  rw [h.dialect]
  have hnew : WhereRep (newJoinOnBuilder q.dialect : JoinOnBuilder α).toWhere q.dialect [] :=
    whereRep_new q.dialect
  have hon := hnew.joinCalls hf
  refine ⟨?_, tidy_intercalate (by decide) hon.tidy⟩
  have hc : (JoinOnBuilder.callAll on (newJoinOnBuilder q.dialect)).conditions = _ := hon.conditions
  have ha : (JoinOnBuilder.callAll on (newJoinOnBuilder q.dialect)).args = _ := hon.args
  unfold JoinOnBuilder.build weaveOn written
  rw [hc, ha, ink_intercalate, holes_intercalate]
  split_ifs with hlen
  · rw [List.length_map, List.length_eq_zero_iff] at hlen
    rw [hlen]
    rfl
  · rfl

theorem joinRep_quoted {type table : Text} {w : Woven α} (hty : Quiet d.isPostgreSQL type)
    (ht : Quiet d.isPostgreSQL table) (hw : Tidy d.isPostgreSQL w) :
    JoinRep d { type := type, table := table, condition := ink w, args := holes w }
      ⟨type, lits (d.quoteIdentifier table), w⟩ where
  type := rfl
  table := rfl
  condition := rfl
  args := rfl
  quietType := hty
  tidyTable := tidy_quoteIdentifier ht
  tidyCondition := hw

theorem quiet_side (side : Side) : Quiet b side.text := by
  cases side <;> exact quiet_of_notMem (by decide) (by decide)

theorem joinWithType (h : Rep b sb q) (joinType : Text) {table condition : Text} {args : List α}
    (ht : Quiet b table) (hc : Fragment b condition args) :
    Rep b (sb.joinWithType joinType table condition args)
      (q.joinWithType joinType table (thread condition args)) := by
  obtain rfl := h.numbered
  obtain ⟨hi, hh, -⟩ := thread_spec hc.1
  unfold SelectBuilder.joinWithType Query.joinWithType
  cases hn : normalizeJoinType joinType with
  | error e => exact h
  | ok type =>
    cases validateJoinTableReference table with
    | error e => exact h
    | ok u =>
      have := h.addJoin (joinRep_quoted (quiet_normalizeJoinType hn) ht (tidy_fragment hc))
      rwa [hi, hh] at this

theorem tidy_derivedTable {w : Woven α} (hw : Tidy b w) {alias_ : Text} (ha : Quiet b alias_) :
    Tidy b (Query.derivedTable w alias_) :=
  (hw.sep_left (by decide)).sep (by decide) (tidy_quiet ha)

theorem ink_derivedTable (w : Woven α) (alias_ : Text) :
    ink (Query.derivedTable w alias_) = "(" ++ ink w ++ ") " ++ alias_ := by
  simp [Query.derivedTable]

theorem holes_derivedTable (w : Woven α) (alias_ : Text) :
    holes (Query.derivedTable w alias_) = holes w := by
  simp [Query.derivedTable]

theorem fromDerived (h : Rep b sb q) {w : Woven α} (hw : Tidy b w) {alias_ : Text}
    (ha : Quiet b alias_) :
    Rep b (sb.fromRaw ("(" ++ (written w).1 ++ ") " ++ alias_) (written w).2)
      { q with table := Query.derivedTable w alias_ } := by
  have := h.fromRaw (tidy_derivedTable hw ha)
  rwa [ink_derivedTable, holes_derivedTable] at this

theorem fromSubquery (h : Rep b sb q) {sub : SelectBuilder α} {r : Query α} (hr : Rep b sub r)
    {alias_ : Text} (ha : Quiet b alias_) :
    Rep b (sb.fromSubquery sub alias_) { q with table := Query.derivedTable r.render alias_ } := by
  obtain ⟨hb, ht⟩ := hr.build
  unfold SelectBuilder.fromSubquery
  rw [hb]
  exact h.fromDerived ht ha

theorem asDerived (h : Rep b sb q) {alias_ : Text} (ha : Quiet b alias_) :
    Rep b (sb.asDerived alias_) (q.asDerived alias_) := by
  obtain rfl := h.numbered
  obtain ⟨hb, ht⟩ := h.build
  unfold SelectBuilder.asDerived
  rw [hb, h.dialect]
  exact (Rep.new "ignored" q.dialect
    (quiet_of_notMem (by decide) (by decide))).fromDerived ht ha.aliasOrDefault

theorem joinSubquery (h : Rep b sb q) {sub : SelectBuilder α} {r : Query α} (hr : Rep b sub r)
    (side : Side) {alias_ : Text} (ha : Quiet b alias_) {w : Woven α} (hw : Tidy b w) :
    Rep b (sb.joinSubquery side.text sub alias_ (ink w) (holes w))
      (q.addJoin side.text
        (Query.derivedTable r.render (SelectBuilder.aliasOrDefault alias_)) w) := by
  obtain rfl := h.numbered
  obtain ⟨hb, ht⟩ := hr.build
  unfold SelectBuilder.joinSubquery
  rw [hb]
  exact h.addJoin
    { type := rfl
      table := ⟨(ink_derivedTable _ _).symm, (holes_derivedTable _ _).symm⟩
      condition := rfl, args := rfl
      quietType := quiet_side side
      tidyTable := tidy_derivedTable ht ha.aliasOrDefault
      tidyCondition := hw }

theorem quiet_lockForUpdate (d : Dialect) : Quiet b d.lockForUpdate := by
  cases d <;> exact quiet_of_notMem (by decide) (by decide)

theorem quiet_lockInShareMode (d : Dialect) : Quiet b d.lockInShareMode := by
  cases d <;> exact quiet_of_notMem (by decide) (by decide)

theorem forUpdateWith (h : Rep b sb q) {suffix : Text} (hs : isSep suffix = true) :
    Rep b (sb.forUpdateWith suffix)
      { q with lockMode := if q.dialect.lockForUpdate = [] then []
        else q.dialect.lockForUpdate ++ suffix } := by
  refine h.setLockMode ?_ ?_
  · rw [h.dialect]
    by_cases hl : q.dialect.lockForUpdate = [] <;> simp [hl]
  · split_ifs
    · exact quiet_of_notMem List.not_mem_nil List.not_mem_nil
    · exact (quiet_lockForUpdate _).sep_right hs

/-- The calls on the `WHERE` and `HAVING` builders use subqueries as they are rendered. -/
theorem whereCall {f : σ → SelectBuilder α} {g : σ → Query α} {c : WhereCall α σ}
    {wb : WhereBuilder α} {cs : List (Woven α)} (h : WhereRep wb d cs) (hf : c.Fits d.isPostgreSQL)
    (hs : ∀ r ∈ c.subs, Rep d.isPostgreSQL (f r) (g r)) :
    WhereRep (wb.call f c) d (weave d (fun r => (g r).render) c cs) :=
  h.call c hf fun r hr => (hs r hr).build

/-- **Every call keeps the relation between builder and query.** -/
theorem call {f : σ → SelectBuilder α} {g : σ → Query α} (h : Rep b sb q) (c : SelectCall α σ)
    (hf : c.Fits b) (hs : ∀ r ∈ c.subs, Rep b (f r) (g r)) :
    Rep b (sb.call f c) (q.call g c) := by
  obtain rfl := h.numbered
  cases c with
  | fromRaw tableExpr args =>
    obtain ⟨hi, hh, -⟩ := thread_spec hf.1
    have := h.fromRaw (tidy_fragment hf)
    rwa [hi, hh] at this
  | fromSubquery sub alias_ => exact h.fromSubquery (hs sub (by simp [SelectCall.subs])) hf
  | table table =>
    refine { h with
      table := ?_, tableArgs := (holes_lits _).symm, tidyTable := tidy_quoteIdentifier hf }
    rw [Query.call, ink_lits, ← h.dialect]
    rfl
  | with_ name r =>
    have hr := hs r (by simp [SelectCall.subs])
    simp only [SelectBuilder.call, SelectBuilder.with_, Query.call]
    split_ifs
    · exact h
    · exact h.addCte hf.trimSpace false hr
  | withRecursive name seed recursive =>
    have hseed := hs seed (by simp [SelectCall.subs])
    have hrec := hs recursive (by simp [SelectCall.subs])
    simp only [SelectBuilder.call, SelectBuilder.withRecursive, Query.call]
    split_ifs
    · exact h
    · exact h.addCte hf.trimSpace true (hseed.addUnion true hrec)
  | union all r =>
    have hr := hs r (by simp [SelectCall.subs])
    cases all <;> exact h.addUnion _ hr
  | join joinType table condition args => exact h.joinWithType joinType hf.1 hf.2
  | fullOuterJoin table condition args =>
    simp only [SelectBuilder.call, SelectBuilder.fullOuterJoin, Query.call, h.dialect]
    split_ifs
    · exact h.joinWithType _ hf.1 hf.2
    · exact h.joinWithType _ hf.1 hf.2
  | joinRaw joinType table condition args =>
    obtain ⟨hi, hh, -⟩ := thread_spec hf.2.2.1
    exact h.addJoin
      { type := rfl, table := ⟨(ink_lits _).symm, (holes_lits _).symm⟩
        condition := hi.symm, args := hh.symm, quietType := hf.1
        tidyTable := tidy_quiet hf.2.1, tidyCondition := tidy_fragment hf.2.2 }
  | joinOn side table on =>
    obtain ⟨hb, ht⟩ := h.joinOn_build hf.2
    rw [SelectBuilder.call, SelectBuilder.joinOn, hb]
    exact h.addJoin (joinRep_quoted (quiet_side side) hf.1 ht)
  | joinSubquery side sub alias_ condition args =>
    obtain ⟨hi, hh, -⟩ := thread_spec hf.2.1
    have := h.joinSubquery (hs sub (by simp [SelectCall.subs])) side hf.1 (tidy_fragment hf.2)
    rwa [hi, hh] at this
  | joinSubqueryOn side sub alias_ on =>
    obtain ⟨hb, ht⟩ := h.joinOn_build hf.2
    rw [SelectBuilder.call, SelectBuilder.joinSubqueryOn, hb]
    exact h.joinSubquery (hs sub (by simp [SelectCall.subs])) side hf.1 ht
  | columns columns => exact h.setColumns rfl hf
  | column column =>
    refine h.setColumns (congrArg (· ++ [column]) h.columns) fun c hc => ?_
    obtain hc | hc := List.mem_append.1 hc
    · exact h.quietColumns c hc
    · exact List.mem_singleton.1 hc ▸ hf
  | distinct =>
    refine h.setColumns (congrArg ("DISTINCT".toList :: ·) h.columns) fun c hc => ?_
    obtain rfl | hc := List.mem_cons.1 hc
    · exact quiet_of_notMem (by decide) (by decide)
    · exact h.quietColumns c hc
  | orderBy order =>
    refine h.addOrderBy (by rw [h.dialect]) fun c hc => ?_
    obtain ⟨item, -, hi⟩ := List.mem_filterMap.1 hc
    cases hb : buildSafeOrderByItem q.dialect item with
    | error e => rw [hb] at hi; cases hi
    | ok t =>
      rw [hb] at hi
      cases hi
      exact quiet_buildSafeOrderByItem hb
  | orderByRaw order => exact h.addOrderBy rfl hf
  | orderByDirection descending column =>
    cases descending
    all_goals
      refine h.addOrderBy (by rw [h.dialect]; rfl) fun c hc => ?_
      rw [List.mem_singleton.1 hc]
      exact (quiet_quoteIdentifier hf).sep_right (by decide)
  | limit limit => exact { h with limit := rfl }
  | offset offset => exact { h with offset := rfl }
  | forUpdate mode =>
    cases mode with
    | wait =>
      refine h.setLockMode ?_ ?_
      · rw [h.dialect]
        split_ifs with hl
        · exact hl
        · exact (List.append_nil _).symm
      · split_ifs
        · exact quiet_of_notMem List.not_mem_nil List.not_mem_nil
        · rw [List.append_nil]
          exact quiet_lockForUpdate _
    | nowait => exact h.forUpdateWith (by decide)
    | skipLocked => exact h.forUpdateWith (by decide)
  | lockInShareMode => exact h.setLockMode (by rw [h.dialect]) (quiet_lockInShareMode _)
  | lock lockMode => exact h.setLockMode rfl hf
  | groupBy columns =>
    exact
      { h with
        groupBy := congrArg (· ++ columns) h.groupBy
        quietGroupBy := fun c hc => (List.mem_append.1 hc).elim (h.quietGroupBy c) (hf c) }
  | where_ c => exact { h with where_ := whereCall h.where_ hf hs }
  | having c => exact { h with having := whereCall h.having hf hs }
  | count =>
    refine h.setColumns rfl fun c hc => ?_
    rw [List.mem_singleton.1 hc]
    exact quiet_of_notMem (by decide) (by decide)
  | aggregate fn column =>
    refine h.setColumns (by rw [h.dialect]) fun c hc => ?_
    rw [List.mem_singleton.1 hc]
    have hfn : isSep (fn.text ++ "(") = true := by cases fn <;> decide
    exact ((quiet_quoteIdentifier hf).sep_left hfn).sep_right (by decide)
  | reset =>
    exact
      { h with
        columns := rfl, joins := .nil, where_ := h.dialect ▸ whereRep_new _, groupBy := rfl
        having := h.dialect ▸ whereRep_new _, orderBy := rfl, limit := rfl, offset := rfl
        lockMode := rfl
        quietColumns := fun c hc => by
          rw [List.mem_singleton.1 hc]
          exact quiet_of_notMem (by decide) (by decide)
        quietGroupBy := fun c hc => by cases hc
        quietOrderBy := fun c hc => by cases hc
        quietLockMode := quiet_of_notMem List.not_mem_nil List.not_mem_nil }

end Rep

/-! ### All builders -/

section Made

variable {P : SelectCall α (SelectBuilder α × Query α) → Prop} {sb : SelectBuilder α} {q : Query α}

theorem Made.rep (h : Made b P sb q) : Rep b sb q := by
  induction h with
  | new table d hd hq =>
    subst hd
    exact Rep.new table d hq
  | asDerived alias_ _ ha ih => exact ih.asDerived ha
  | call c _ _ hf _ ih ihs => exact ih.call c hf ihs

/-- **A builder and the query made by the same calls build and render the same.** -/
theorem Made.build (h : Made b P sb q) : sb.build = written q.render ∧ Tidy b q.render :=
  h.rep.build

end Made

end Orm

end GinRpc
