import GinRpc.Orm.Rendering

/-!
# Placeholders and arguments of a built query

* `build_questionMarks` : where placeholders are written `?`, the k-th one of the text is the one
  introduced with the k-th argument.
* `Query.Keeps cond frag` : the conditions of a query are numbered as `cond` says, its built parts
  as `frag` says; then so is the rendered query (`Query.Keeps.render`).
* `build_numbered` : a PostgreSQL query whose conditions are raw fragments has the placeholders
  `$1, $2, …` in the order of its arguments.
* `Made.atMostNext` : no PostgreSQL query has a placeholder number above its position.
-/

namespace GinRpc

open Text Woven

namespace Orm

variable {α σ : Type*}

/-! ### Question marks -/

/-- **The k-th `?` of a built text is the one introduced with the k-th argument.** -/
theorem build_questionMarks {sb : SelectBuilder α} {q : Query α}
    (h : Made false (fun _ => True) sb q) :
    sb.build = written q.render ∧ sb.build.1.count '?' = sb.build.2.length ∧
      ∀ x y, sb.build.1 = x ++ '?' :: y →
        ∃ u a v, q.render = u ++ .hole a none :: v ∧ ink u = x ∧ ink v = y ∧
          sb.build.2[x.count '?']? = some a := by
  obtain ⟨hb, ht⟩ := h.build
  have hm := ht.unmarked rfl
  refine ⟨hb, ?_, fun x y hxy => ?_⟩
  · rw [hb, written, count_ink ht.quiet, ← length_marks]
    exact List.count_eq_length.2 fun m hm' => (hm m hm').symm
  · rw [hb] at hxy ⊢
    obtain ⟨u, a, v, hw, rfl, rfl⟩ := exists_hole ht.quiet hm hxy
    refine ⟨u, a, v, hw, rfl, rfl, ?_⟩
    have hu : (ink u).count '?' = (holes u).length := by
      rw [hw] at ht hm
      rw [count_ink fun hq => ht.quiet (List.mem_append_left _ hq), ← length_marks]
      exact List.count_eq_length.2 fun m hm' => (hm m (by simp [hm'])).symm
    rw [hu, written, hw]
    simp

theorem build_questionMarks_cte :
    ∃ (sb : SelectBuilder ℕ) (q : Query ℕ), Made false (fun _ => True) sb q ∧
      sb.build = ("WITH `recent` AS (SELECT * FROM `orders` WHERE `state` = ?) ".toList ++
        "SELECT * FROM `users` WHERE age > ?".toList, [1, 18]) ∧
      sb.build.1.count '?' = sb.build.2.length := by
  have quiet : ∀ {t : Text}, '?' ∉ t → Quiet false t := fun h => ⟨h, fun hb => by cases hb⟩
  have orders : Made false (fun _ => True) _ _ :=
    .call (.where_ (.compare .eq "state" 1)) (.new "orders" .mySQL rfl (quiet (by decide)))
      (by simp [SelectCall.subs, WhereCall.subs]) (quiet (by decide)) trivial
  have users : Made false (fun _ => True) _ _ :=
    .call (.with_ "recent" (_, _))
      (.call (.where_ (.raw "age > ?" [18])) (.new "users" .mySQL rfl (quiet (by decide)))
        (by simp [SelectCall.subs, WhereCall.subs]) ⟨by decide, fun hb => by cases hb⟩ trivial)
      (by simpa [SelectCall.subs] using orders) (quiet (by decide)) trivial
  exact ⟨_, _, users, by decide +kernel, (build_questionMarks users).2.1⟩

/-! ### Numbering schemes -/

/-- What is known of the numbers in conditions (`cond`) and in built texts (`frag`) goes well with
shifting and filling and, if helpers are allowed (`own`), with their numbers. -/
structure Scheme (α : Type*) (own : Prop) (cond frag : ℕ → Option ℕ → Prop) : Prop where
  ofOpen : ∀ i, cond i none
  later : ∀ i n m, cond i m → cond (i + n) m
  onShift : ∀ {w : Woven α}, Marked frag 0 w → ∀ n, Marked frag n (shift n w)
  onFill : ∀ {w : Woven α}, Marked cond 0 w → ∀ n, Marked frag n (fill (fun i => some (i + 1)) n w)
  ownNext : own → ∀ i, cond i (some (i + 1))
  ownOpen : own → ∀ i, frag i none
  ownSub : own → ∀ i m, frag i m → cond i m

theorem scheme_next : Scheme α False IsOpen IsNext where
  ofOpen _ := rfl
  later _ _ _ h := h
  onShift h n := by simpa [Numbered] using Numbered.shift h n
  onFill h n := h.open_fill n
  ownNext h := h.elim
  ownOpen h := h.elim
  ownSub h := h.elim

theorem scheme_atMost : Scheme α True AtMostNext AtMostNext where
  ofOpen _ _ hn := by cases hn
  later i n m h k hk := by
    have := h k hk
    omega
  onShift h n := by simpa using h.atMost_shift n
  onFill h n := h.atMost_fill le_rfl (Nat.zero_le n)
  ownNext _ i n hn := by
    cases hn
    exact le_rfl
  ownOpen _ _ _ hn := by cases hn
  ownSub _ _ _ h := h

/-- The parts of a PostgreSQL query are numbered as the scheme says. -/
structure Query.Keeps (cond frag : ℕ → Option ℕ → Prop) (q : Query α) : Prop where
  dialect : q.dialect.isPostgreSQL = true
  table : Marked frag 0 q.table
  joins : ∀ j ∈ q.joins, Marked frag 0 j.table ∧ Marked cond 0 j.condition
  where_ : Marked cond 0 q.where_.flatten
  having : Marked cond 0 q.having.flatten
  ctes : ∀ c ∈ q.ctes, Marked frag 0 c.query
  unions : ∀ u ∈ q.unions, Marked frag 0 u.query

section Keeps

variable {own : Prop} {cond frag : ℕ → Option ℕ → Prop} {d : Dialect} {w v : Woven α}

theorem marked_thread (ho : ∀ i, cond i none) (t : Text) (args : List α) {i : ℕ} :
    Marked cond i (thread t args) :=
  marked_of_marks fun m hm i => by
    rw [marks_thread t args m hm]
    exact ho i

theorem marked_snoc_lits {R : ℕ → Option ℕ → Prop} {s : ℕ} (h : Marked R s w) (t : Text) :
    Marked R s (w ++ lits t) :=
  marked_append.2 ⟨h, marked_lits t⟩

theorem Scheme.append_shift (hs : Scheme α own cond frag) (hd : d.isPostgreSQL = true)
    (hw : Marked frag 0 w) (hv : Marked frag 0 v) {n : ℕ} (hn : n = (holes w).length) :
    Marked frag 0 (w ++ d.shiftWoven n v) := by
  subst hn
  unfold Dialect.shiftWoven
  rw [if_pos hd, marked_append, Nat.zero_add]
  exact ⟨hw, hs.onShift hv _⟩

theorem Scheme.append_fill (hs : Scheme α own cond frag) (hd : d.isPostgreSQL = true)
    (hw : Marked frag 0 w) (hv : Marked cond 0 v) {n : ℕ} (hn : n = (holes w).length) :
    Marked frag 0 (w ++ fill d.mark n v) := by
  subst hn
  have hm : d.mark = fun i => some (i + 1) := by
    funext i
    simp [Dialect.mark, hd]
  rw [hm, marked_append, Nat.zero_add]
  exact ⟨hw, hs.onFill hv _⟩

theorem Scheme.renderJoin (hs : Scheme α own cond frag) (hd : d.isPostgreSQL = true)
    (hw : Marked frag 0 w) {j : WovenJoin α}
    (hj : Marked frag 0 j.table ∧ Marked cond 0 j.condition) :
    Marked frag 0 (renderJoin d w j) := by
  have htable := hs.append_shift hd (marked_snoc_lits (marked_snoc_lits (marked_snoc_lits hw
    " ") j.type) " JOIN ") hj.1 rfl
  have hon := hs.append_fill hd (marked_snoc_lits htable " ON ") hj.2 rfl
  simpa [GinRpc.Orm.renderJoin] using hon

theorem Scheme.renderJoins (hs : Scheme α own cond frag) (hd : d.isPostgreSQL = true)
    {js : List (WovenJoin α)} (hj : ∀ j ∈ js, Marked frag 0 j.table ∧ Marked cond 0 j.condition)
    (hw : Marked frag 0 w) : Marked frag 0 (js.foldl (GinRpc.Orm.renderJoin d) w) := by
  induction js generalizing w with
  | nil => exact hw
  | cons j js ih =>
    exact ih (fun x hx => hj x (List.mem_cons_of_mem _ hx))
      (hs.renderJoin hd hw (hj j List.mem_cons_self))

theorem Scheme.append_clause (hs : Scheme α own cond frag) (hd : d.isPostgreSQL = true)
    (hw : Marked frag 0 w) {cs : List (Woven α)} (hc : Marked cond 0 cs.flatten) (keyword : Text) :
    Marked frag 0 (w ++ clause keyword d (holes w).length cs) := by
  unfold clause
  split_ifs
  · simpa using hw
  · rw [← List.append_assoc]
    exact hs.append_fill hd (marked_snoc_lits hw keyword) ((marked_intercalate _ _).2 hc) (by simp)

theorem marked_of_holes_nil {R : ℕ → Option ℕ → Prop} {s : ℕ} (h : holes w = []) :
    Marked R s w := by
  refine marked_of_marks fun m hm => ?_
  have : marks w = [] := List.length_eq_zero_iff.1 (by rw [length_marks, h]; rfl)
  rw [this] at hm
  cases hm

theorem marked_append_quiet {R : ℕ → Option ℕ → Prop} {s : ℕ} (hw : Marked R s w)
    (hv : holes v = []) : Marked R s (w ++ v) :=
  marked_append.2 ⟨hw, marked_of_holes_nil hv⟩

theorem Scheme.renderUnions (hs : Scheme α own cond frag) (hd : d.isPostgreSQL = true)
    {us : List (UnionClause (Woven α))} (hu : ∀ u ∈ us, Marked frag 0 u.query)
    (hw : Marked frag 0 w) : Marked frag 0 (us.foldl (Query.renderUnion d) w) := by
  induction us generalizing w with
  | nil => exact hw
  | cons u us ih =>
    refine ih (fun x hx => hu x (List.mem_cons_of_mem _ hx)) ?_
    refine hs.append_shift hd (marked_snoc_lits hw _) (hu u List.mem_cons_self) ?_
    rw [holes_append, holes_lits, List.append_nil]

theorem Scheme.renderCtes (hs : Scheme α own cond frag) (hd : d.isPostgreSQL = true)
    {ctes : List (CteClause (Woven α))} (hc : ∀ c ∈ ctes, Marked frag 0 c.query)
    (parts : List (Woven α)) (hp : Marked frag 0 parts.flatten) :
    Marked frag 0
      (ctes.foldl (fun parts c => parts ++ [Query.renderCte d parts.flatten c]) parts).flatten := by
  induction ctes generalizing parts with
  | nil => exact hp
  | cons c ctes ih =>
    refine ih (fun x hx => hc x (List.mem_cons_of_mem _ hx)) _ ?_
    rw [List.flatten_append, List.flatten_singleton]
    have hname := marked_snoc_lits (marked_snoc_lits hp (d.quoteIdentifier c.name)) " AS ("
    have hquery := hs.append_shift hd hname (hc c List.mem_cons_self) rfl
    simpa [Query.renderCte] using marked_snoc_lits hquery ")"

variable {q : Query α}

theorem Query.Keeps.renderCore (hs : Scheme α own cond frag) (h : q.Keeps cond frag) :
    Marked frag 0 q.renderCore := by
  have hfrom : Marked frag 0 (lits "SELECT " ++
      (lits ", ").intercalate (q.quotedColumns.map lits) ++ lits " FROM " ++ q.table) := by
    have hnone : holes (lits "SELECT " ++ (lits ", ").intercalate (q.quotedColumns.map lits) ++
        lits " FROM " : Woven α) = [] := by simp [holes_intercalate]
    refine marked_append.2 ⟨marked_of_holes_nil hnone, ?_⟩
    rw [hnone]
    exact h.table
  have hjoins := hs.renderJoins h.dialect h.joins hfrom
  have hgroup := marked_append_quiet (hs.append_clause h.dialect hjoins h.where_ " WHERE ")
    (holes_optionalList " GROUP BY " (q.groupBy.map q.dialect.quoteIdentifier))
  have hbody : Marked frag 0 q.renderBody :=
    hs.append_clause h.dialect hgroup h.having " HAVING "
  exact marked_append_quiet (marked_append_quiet (marked_append_quiet hbody
    (holes_optionalList _ _)) (holes_optional _ _)) (holes_optional _ _)

/-- **A query whose parts are numbered as the scheme says is rendered so.** -/
theorem Query.Keeps.render (hs : Scheme α own cond frag) (h : q.Keeps cond frag) :
    Marked frag 0 q.render := by
  have hcore := h.renderCore hs
  refine hs.renderUnions h.dialect h.unions ?_
  cases hq : q.ctes with
  | nil => exact hcore
  | cons c ctes =>
    have hparts := hs.renderCtes h.dialect (hq ▸ h.ctes) [] marked_nil
    refine hs.append_shift h.dialect (marked_snoc_lits (marked_append.2 ⟨marked_lits _, ?_⟩) _)
      hcore (by simp)
    rw [holes_lits]
    exact (marked_intercalate _ _).2 hparts

end Keeps

/-! ### Conditions under a scheme -/

mutual

/-- All placeholders come from raw fragments, unless helpers are allowed (`own`). -/
def WhereCall.Plain (own : Prop) : WhereCall α σ → Prop
  | .raw _ _ | .connect _ _ _ | .exists_ _ _ _ | .isNull _ _ | .reset => True
  | .group _ calls => WhereCall.PlainAll own calls
  | _ => own

/-- The same for all calls of a list. -/
def WhereCall.PlainAll (own : Prop) : List (WhereCall α σ) → Prop
  | [] => True
  | c :: calls => WhereCall.Plain own c ∧ WhereCall.PlainAll own calls

end

mutual

theorem WhereCall.plain_of_own {own : Prop} (h : own) : ∀ c : WhereCall α σ, c.Plain own
  | .raw _ _ | .connect _ _ _ | .exists_ _ _ _ | .isNull _ _ | .reset => trivial
  | .group _ calls => WhereCall.plainAll_of_own h calls
  | .compare _ _ _ | .iLike _ _ | .in_ _ _ _ | .between _ _ _ _ | .existsSubquery _ _
  | .inSubquery _ _ _ => h

theorem WhereCall.plainAll_of_own {own : Prop} (h : own) :
    ∀ calls : List (WhereCall α σ), WhereCall.PlainAll own calls
  | [] => trivial
  | c :: calls => ⟨WhereCall.plain_of_own h c, WhereCall.plainAll_of_own h calls⟩

end

section Conditions

variable {cond : ℕ → Option ℕ → Prop} {cs : List (Woven α)} {w : Woven α}

theorem length_holes_flatten (cs : List (Woven α)) : (holes cs.flatten).length = argCount cs := by
  rw [holes_flatten, argCount]

theorem marked_snoc (h : Marked cond 0 cs.flatten) (hw : Marked cond (argCount cs) w) :
    Marked cond 0 (cs ++ [w]).flatten := by
  rw [List.flatten_append, List.flatten_singleton, marked_append, length_holes_flatten,
    Nat.zero_add]
  exact ⟨h, hw⟩

theorem marked_connect (h : Marked cond 0 cs.flatten) (hw : Marked cond (argCount cs) w)
    (conn : Connective) : Marked cond 0 (connectWoven conn cs w).flatten := by
  refine marked_snoc h ?_
  split_ifs
  · exact marked_append.2 ⟨marked_lits _, by simpa using hw⟩
  · exact hw

theorem marked_after (s t : Text) {n : ℕ} (hw : Marked cond n w) :
    Marked cond n (lits s ++ lits t ++ w) :=
  marked_append.2 ⟨marked_snoc_lits (marked_lits s) t, by simpa using hw⟩

theorem marked_between (s t : Text) {n : ℕ} (hw : Marked cond n w) :
    Marked cond n (lits s ++ w ++ lits t) :=
  marked_snoc_lits (marked_append.2 ⟨marked_lits s, by simpa using hw⟩) t

variable {d : Dialect} {own : Prop} {g : σ → Woven α}

theorem marked_mark (hd : d.isPostgreSQL = true) (hn : ∀ i, cond i (some (i + 1))) (a : α)
    (n : ℕ) : Marked cond n [Tok.hole a (d.mark n)] := by
  rw [marked_hole, Dialect.mark, if_pos hd]
  exact hn n

theorem marked_valueHoles (hd : d.isPostgreSQL = true) (hn : ∀ i, cond i (some (i + 1))) (n : ℕ)
    (values : List α) : Marked cond n (valueHoles d n values) := by
  refine (marked_intercalate _ _).2 ?_
  induction values generalizing n with
  | nil => trivial
  | cons v values ih =>
    have hrest := ih (n + 1)
    simp only [List.mapIdx_cons, List.flatten_cons, List.cons_append, List.nil_append, Nat.add_zero]
    refine ⟨by simpa [Dialect.mark, hd] using hn n, ?_⟩
    simpa only [Nat.add_assoc, Nat.add_comm 1] using hrest

mutual

/-- A call keeps what holds by position of the placeholders of the conditions. -/
theorem marked_weave (hd : d.isPostgreSQL = true) (ho : ∀ i, cond i none)
    (hl : ∀ i n m, cond i m → cond (i + n) m) (hn : own → ∀ i, cond i (some (i + 1))) :
    ∀ (c : WhereCall α σ) {cs : List (Woven α)}, c.Plain own →
      (own → ∀ r ∈ c.subs, ∀ n, Marked cond n (d.shiftWoven n (g r))) →
      Marked cond 0 cs.flatten → Marked cond 0 (weave d g c cs).flatten
  | .raw condition args, cs, _, _, h => by
    rw [weave]
    exact marked_snoc h (marked_thread ho condition args)
  | .connect conn condition args, cs, _, _, h => by
    rw [weave]
    exact marked_connect h (marked_thread ho condition args) conn
  | .compare op column value, cs, hp, _, h => by
    rw [weave]
    refine marked_snoc h (marked_after _ _ ?_)
    exact marked_mark hd (hn hp) value _
  | .iLike column value, cs, hp, _, h => by
    rw [weave, if_pos hd]
    refine marked_snoc h (marked_after _ _ ?_)
    exact marked_mark hd (hn hp) value _
  | .in_ negated column values, cs, hp, _, h => by
    rw [weave]
    refine marked_snoc h ?_
    by_cases hv : values.length = 0
    · rw [if_pos hv]
      exact marked_lits _
    · rw [if_neg hv]
      exact marked_snoc_lits (marked_after _ _ (marked_valueHoles hd (hn hp) _ values)) _
  | .isNull negated column, cs, _, _, h => by
    rw [weave]
    exact marked_snoc h (marked_snoc_lits (marked_lits _) _)
  | .between negated column start stop, cs, hp, _, h => by
    rw [weave]
    refine marked_snoc h (marked_append.2 ⟨marked_snoc_lits (marked_after _ _ ?_) _, ?_⟩)
    · exact marked_mark hd (hn hp) start _
    · simp only [holes_append, holes_lits, holes_hole_cons, holes_nil, List.nil_append,
        List.append_nil, List.length_singleton]
      exact marked_mark hd (hn hp) stop _
  | .exists_ negated subquery args, cs, _, _, h => by
    rw [weave]
    exact marked_snoc h (marked_between _ _ (marked_thread ho subquery args))
  | .existsSubquery negated sub, cs, hp, hs, h => by
    rw [weave]
    exact marked_snoc h (marked_between _ _ (hs hp sub (by simp [WhereCall.subs]) _))
  | .inSubquery negated column sub, cs, hp, hs, h => by
    rw [weave]
    refine marked_snoc h (marked_snoc_lits (marked_after _ _ ?_) _)
    exact hs hp sub (by simp [WhereCall.subs]) _
  | .group conn calls, cs, hp, hs, h => by
    rw [WhereCall.Plain] at hp
    rw [WhereCall.subs] at hs
    have hinner : Marked cond 0 (weaveAll d g calls []).flatten :=
      marked_weaveAll hd ho hl hn calls hp hs marked_nil
    simp only [weave]
    split_ifs
    · refine marked_connect h (marked_between _ _ ((marked_intercalate _ _).2 ?_)) conn
      simpa using hinner.later hl (argCount cs)
    · exact h
  | .reset, cs, _, _, _ => by
    rw [weave]
    exact marked_nil

theorem marked_weaveAll (hd : d.isPostgreSQL = true) (ho : ∀ i, cond i none)
    (hl : ∀ i n m, cond i m → cond (i + n) m) (hn : own → ∀ i, cond i (some (i + 1))) :
    ∀ (calls : List (WhereCall α σ)) {cs : List (Woven α)}, WhereCall.PlainAll own calls →
      (own → ∀ r ∈ WhereCall.subsAll calls, ∀ n, Marked cond n (d.shiftWoven n (g r))) →
      Marked cond 0 cs.flatten → Marked cond 0 (weaveAll d g calls cs).flatten
  | [], cs, _, _, h => by
    rw [weaveAll]
    exact h
  | c :: calls, cs, hp, hs, h => by
    rw [WhereCall.PlainAll] at hp
    rw [WhereCall.subsAll] at hs
    rw [weaveAll]
    have hc := marked_weave hd ho hl hn c hp.1
      (fun ho r hr => hs ho r (List.mem_append_left _ hr)) h
    exact marked_weaveAll hd ho hl hn calls hp.2
      (fun ho r hr => hs ho r (List.mem_append_right _ hr)) hc

end

end Conditions

/-! ### All queries -/

section Made

variable {own : Prop} {cond frag : ℕ → Option ℕ → Prop} {q : Query α} {g : σ → Query α}

namespace Query.Keeps

theorem addJoin (h : q.Keeps cond frag) (type : Text) {table condition : Woven α}
    (ht : Marked frag 0 table) (hc : Marked cond 0 condition) :
    (q.addJoin type table condition).Keeps cond frag :=
  { h with
    joins := fun j hj => by
      obtain hj | hj := List.mem_append.1 hj
      · exact h.joins j hj
      · rw [List.mem_singleton.1 hj]
        exact ⟨ht, hc⟩ }

theorem joinWithType (h : q.Keeps cond frag) (joinType table : Text) {condition : Woven α}
    (hc : Marked cond 0 condition) : (q.joinWithType joinType table condition).Keeps cond frag := by
  unfold Query.joinWithType
  split
  · exact h.addJoin _ (marked_lits _) hc
  · exact h

theorem addUnion (h : q.Keeps cond frag) (all : Bool) {r : Query α} (hr : Marked frag 0 r.render) :
    (q.addUnion all r).Keeps cond frag :=
  { h with
    unions := fun u hu => by
      obtain hu | hu := List.mem_append.1 hu
      · exact h.unions u hu
      · rw [List.mem_singleton.1 hu]
        exact hr }

theorem addCte (h : q.Keeps cond frag) (c : CteClause (Woven α)) (hc : Marked frag 0 c.query) :
    { q with ctes := q.ctes ++ [c] }.Keeps cond frag :=
  { h with
    ctes := fun x hx => by
      obtain hx | hx := List.mem_append.1 hx
      · exact h.ctes x hx
      · rw [List.mem_singleton.1 hx]
        exact hc }

theorem new (table : Text) {d : Dialect} (hd : d.isPostgreSQL = true) :
    (Query.new table d : Query α).Keeps cond frag where
  dialect := hd
  table := marked_lits _
  joins j hj := by cases hj
  where_ := marked_nil
  having := marked_nil
  ctes c hc := by cases hc
  unions u hu := by cases hu

theorem marked_derivedTable {w : Woven α} (hw : Marked frag 0 w) (alias_ : Text) :
    Marked frag 0 (Query.derivedTable w alias_) :=
  marked_snoc_lits (marked_between _ _ hw) _

theorem asDerived (hs : Scheme α own cond frag) (h : q.Keeps cond frag) (alias_ : Text) :
    (q.asDerived alias_).Keeps cond frag where
  dialect := h.dialect
  table := marked_derivedTable (h.render hs) _
  joins j hj := by cases hj
  where_ := marked_nil
  having := marked_nil
  ctes c hc := by cases hc
  unions u hu := by cases hu

end Query.Keeps

theorem marked_weaveOn (ho : ∀ i, cond i none) (d : Dialect) (on : List (JoinCall α)) :
    Marked cond 0 (weaveOn d on) := by
  refine (marked_intercalate _ _).2 ?_
  suffices h : ∀ cs : List (Woven α), Marked cond 0 cs.flatten →
      Marked cond 0 (on.foldl (weaveJoin d) cs).flatten from h [] marked_nil
  induction on with
  | nil => exact fun cs h => h
  | cons c on ih =>
    intro cs h
    refine ih _ ?_
    cases c with
    | on condition args => exact marked_snoc h (marked_thread ho condition args)
    | connect conn condition args => exact marked_connect h (marked_thread ho condition args) conn
    | eq left right => exact marked_snoc h (marked_after _ _ (marked_lits _))
    | eqValue column value => exact marked_snoc h (marked_after _ _ (marked_hole.2 (ho _)))

/-- The conditions are raw fragments and the table expression has no arguments, unless helpers are
allowed. -/
def SelectCall.Plain (own : Prop) : SelectCall α σ → Prop
  | .fromRaw _ args => own ∨ args = []
  | .where_ c => c.Plain own
  | .having c => c.Plain own
  | _ => True

theorem Scheme.weave (hs : Scheme α own cond frag) {d : Dialect} (hd : d.isPostgreSQL = true)
    {c : WhereCall α σ} (hp : c.Plain own) (hr : ∀ r ∈ c.subs, Marked frag 0 (g r).render)
    {cs : List (Woven α)} (h : Marked cond 0 cs.flatten) :
    Marked cond 0 (weave d (fun r => (g r).render) c cs).flatten := by
  refine marked_weave hd hs.ofOpen hs.later hs.ownNext c hp (fun ho r hm n => ?_) h
  unfold Dialect.shiftWoven
  rw [if_pos hd]
  exact (hs.onShift (hr r hm) n).mono (hs.ownSub ho)

theorem Query.Keeps.call (hs : Scheme α own cond frag) (h : q.Keeps cond frag)
    (c : SelectCall α σ) (hp : c.Plain own) (hr : ∀ r ∈ c.subs, (g r).Keeps cond frag) :
    (q.call g c).Keeps cond frag := by
  have hthread : ∀ (t : Text) (args : List α), Marked cond 0 (thread t args) := fun t args =>
    marked_thread hs.ofOpen t args
  cases c with
  | fromRaw tableExpr args =>
    refine { h with table := ?_ }
    obtain ho | rfl := hp
    · exact marked_thread (hs.ownOpen ho) tableExpr args
    · rw [Query.call, thread_nil]
      exact marked_lits _
  | fromSubquery sub alias_ =>
    exact { h with table := marked_derivedTable ((hr sub (by simp [SelectCall.subs])).render hs) _ }
  | table table => exact { h with table := marked_lits _ }
  | with_ name r =>
    have hq := (hr r (by simp [SelectCall.subs])).render hs
    simp only [Query.call]
    split_ifs
    · exact h
    · exact h.addCte _ hq
  | withRecursive name seed recursive =>
    have hseed := hr seed (by simp [SelectCall.subs])
    have hrec := (hr recursive (by simp [SelectCall.subs])).render hs
    simp only [Query.call]
    split_ifs
    · exact h
    · exact h.addCte _ ((hseed.addUnion true hrec).render hs)
  | union all r => exact h.addUnion all ((hr r (by simp [SelectCall.subs])).render hs)
  | join joinType table condition args => exact h.joinWithType _ _ (hthread condition args)
  | fullOuterJoin table condition args => exact h.joinWithType _ _ (hthread condition args)
  | joinRaw joinType table condition args =>
    exact h.addJoin _ (marked_lits _) (hthread condition args)
  | joinOn side table on => exact h.addJoin _ (marked_lits _) (marked_weaveOn hs.ofOpen _ on)
  | joinSubquery side sub alias_ condition args =>
    exact h.addJoin _ (marked_derivedTable ((hr sub (by simp [SelectCall.subs])).render hs) _)
      (hthread condition args)
  | joinSubqueryOn side sub alias_ on =>
    exact h.addJoin _ (marked_derivedTable ((hr sub (by simp [SelectCall.subs])).render hs) _)
      (marked_weaveOn hs.ofOpen _ on)
  | where_ c =>
    exact { h with where_ := hs.weave h.dialect hp (fun r hm => (hr r hm).render hs) h.where_ }
  | having c =>
    exact { h with having := hs.weave h.dialect hp (fun r hm => (hr r hm).render hs) h.having }
  | reset =>
    exact
      { h with
        joins := fun j hj => absurd hj List.not_mem_nil
        where_ := marked_nil
        having := marked_nil }
  | _ => exact { h with }

variable {P : SelectCall α (SelectBuilder α × Query α) → Prop} {sb : SelectBuilder α}

/-- All queries made by calls that the scheme allows are numbered as it says. -/
theorem Made.keeps (hs : Scheme α own cond frag) (hP : ∀ c, P c → c.Plain own)
    (h : Made true P sb q) : q.Keeps cond frag := by
  induction h with
  | new table d hd _ => exact .new table hd
  | asDerived alias_ _ _ ih => exact ih.asDerived hs alias_
  | call c _ _ _ hp ih ihs => exact ih.call hs c (hP c hp) ihs

/-- No query has a number above the position of its placeholder. -/
theorem Made.atMostNext (h : Made true P sb q) : Marked AtMostNext 0 q.render := by
  refine (h.keeps scheme_atMost fun c _ => ?_).render scheme_atMost
  cases c with
  | fromRaw tableExpr args => exact .inl trivial
  | where_ c => exact c.plain_of_own trivial
  | having c => exact c.plain_of_own trivial
  | _ => trivial

end Made

/-! ### PostgreSQL -/

/-- A built text with its arguments is written as `w`, its placeholders are `$(s+1), $(s+2), …`,
one for each argument, and each stands where its argument was introduced. -/
structure Placed (s : ℕ) (built : Text × List α) (w : Woven α) : Prop where
  written : built = written w
  noQuestionMark : '?' ∉ built.1
  numbers : numbers built.1 = List.range' (s + 1) built.2.length
  places : ∀ u a m v, w = u ++ .hole a m :: v →
    m = some (s + (holes u).length + 1) ∧ built.2[(holes u).length]? = some a

theorem Placed.of_numbered {s : ℕ} {w : Woven α} (ht : Tidy true w) (h : Numbered s w) :
    Placed s (Orm.written w) w where
  written := rfl
  noQuestionMark := by
    rw [Orm.written, ← List.count_eq_zero, count_ink ht.quiet, numbered_iff.1 h,
      List.count_eq_zero]
    simp
  numbers := by
    rw [Orm.written, numbers_ink (ht.chain rfl), numbered_iff.1 h]
    exact List.filterMap_map.trans List.filterMap_some
  places u a m v hw := by
    rw [Numbered, hw, marked_append] at h
    exact ⟨h.2.1, by simp [Orm.written, hw]⟩

theorem Placed.numbered {s : ℕ} {built : Text × List α} {w : Woven α} (h : Placed s built w) :
    Numbered s w := by
  refine marked_of_splits fun u a m v hw => ?_
  exact (h.places u a m v hw).1

/-- **A query whose conditions are raw fragments has the placeholders `$1, $2, …` in the order of
its arguments.** -/
theorem build_numbered {sb : SelectBuilder α} {q : Query α}
    (h : Made true (SelectCall.Plain False) sb q) : Placed 0 sb.build q.render := by
  obtain ⟨hb, ht⟩ := h.build
  rw [hb]
  exact .of_numbered ht ((h.keeps scheme_next fun _ hc => hc).render scheme_next)

theorem build_numbered_union :
    ∃ (sb : SelectBuilder ℕ) (q : Query ℕ), Made true (SelectCall.Plain False) sb q ∧
      sb.build = ("SELECT * FROM \"users\" INNER JOIN ".toList ++
        "(SELECT * FROM \"orders\" WHERE state = $1) o ON o.uid = id AND kind = $2".toList ++
        " WHERE age > $3 UNION SELECT * FROM \"orders\" WHERE state = $4".toList, [1, 5, 18, 1]) ∧
      numbers sb.build.1 = List.range' 1 sb.build.2.length := by
  have quiet : ∀ {t : Text}, '?' ∉ t → '$' ∉ t → Quiet true t := fun h h' => quiet_of_notMem h' h
  have orders : Made true (SelectCall.Plain False) _ _ :=
    .call (.where_ (.raw "state = ?" [1]))
      (.new "orders" .postgreSQL rfl (quiet (by decide) (by decide)))
      (by simp [SelectCall.subs, WhereCall.subs]) ⟨by decide, fun _ => by decide⟩ trivial
  have users : Made true (SelectCall.Plain False) _ _ :=
    .call (.union false (_, _))
      (.call (.where_ (.raw "age > ?" [18]))
        (.call (.joinSubquery .inner (_, _) "o" "o.uid = id AND kind = ?" [5])
          (.new "users" .postgreSQL rfl (quiet (by decide) (by decide)))
          (by simpa [SelectCall.subs] using orders)
          ⟨quiet (by decide) (by decide), by decide, fun _ => by decide⟩ trivial)
        (by simp [SelectCall.subs, WhereCall.subs]) ⟨by decide, fun _ => by decide⟩ trivial)
      (by simpa [SelectCall.subs] using orders) trivial trivial
  exact ⟨_, _, users, by decide +kernel, (build_numbered users).numbers⟩

/-- A digit after a `?` becomes part of the number. -/
theorem build_digit_after_placeholder :
    "a = ?5".toList.count '?' = 1 ∧ numbers "a = ?5" = [] ∧
      ((newSelectBuilderWithDialect "t" .postgreSQL : SelectBuilder ℕ).onWhere fun wb =>
        wb.where_ "a = ?5" [7]).build = ("SELECT * FROM \"t\" WHERE a = $15".toList, [7]) ∧
      numbers "SELECT * FROM \"t\" WHERE a = $15" = [15] := by
  decide +kernel

end Orm

end GinRpc
