import GinRpc.Orm.Placeholders
import GinRpc.Orm.Statements

/-!
# Numbers in a PostgreSQL `WHERE` clause

The helpers (`Eq`, `In`, …) number their placeholders when they are called, by the arguments their
own builder has then; the `?` of raw fragments are numbered by `BuildWithOffset`, with a counter of
their own that starts at the offset.  Where the numbers come from is traced call by call
(`WhereCall.origins`).

* `numbered_clause_iff` : the numbers of the clause are consecutive iff the placeholders are
  *aligned*: first those of raw fragments, then those of helpers, the latter only without an
  offset and outside of groups that come after other arguments.
* `where_placed_iff` : so are the numbers of the statements the clause is part of.
-/

namespace GinRpc

open Text Woven

namespace Orm

variable {α σ : Type*}

/-! ### Origins -/

/-- Where the number of a placeholder comes from: the counter of `BuildWithOffset`, a helper of a
builder that is put after `base` other arguments, or a subquery that numbers it wrongly itself. -/
inductive Origin where
  | raw
  | own (base : ℕ)
  | wrong
  deriving DecidableEq, Repr

/-- The origins of the placeholders of a subquery, the first of which is its `k`-th one. -/
def subOrigins (base : ℕ) : ℕ → List (Option ℕ) → List Origin
  | _, [] => []
  | k, none :: ms => .raw :: subOrigins base (k + 1) ms
  | k, some n :: ms => (if n = k + 1 then .own base else .wrong) :: subOrigins base (k + 1) ms

mutual

/-- The origins of the placeholders after one more call on a builder that is put after `base`
arguments; `g` gives the subqueries. -/
def WhereCall.origins (g : σ → Woven α) (base : ℕ) : WhereCall α σ → List Origin → List Origin
  | .raw _ args, os => os ++ List.replicate args.length .raw
  | .connect _ _ args, os => os ++ List.replicate args.length .raw
  | .compare _ _ _, os => os ++ [.own base]
  | .iLike _ _, os => os ++ [.own base]
  | .in_ _ _ values, os => os ++ List.replicate values.length (.own base)
  | .isNull _ _, os => os
  | .between _ _ _ _, os => os ++ [.own base, .own base]
  | .exists_ _ _ args, os => os ++ List.replicate args.length .raw
  | .existsSubquery _ sub, os => os ++ subOrigins base 0 (marks (g sub))
  | .inSubquery _ _ sub, os => os ++ subOrigins base 0 (marks (g sub))
  | .group _ calls, os => os ++ WhereCall.originsAll g (base + os.length) calls []
  | .reset, _ => []

/-- The origins of the placeholders after a list of calls. -/
def WhereCall.originsAll (g : σ → Woven α) (base : ℕ) :
    List (WhereCall α σ) → List Origin → List Origin
  | [], os => os
  | c :: calls, os => WhereCall.originsAll g base calls (WhereCall.origins g base c os)

end

/-- Placeholders of raw fragments come first; others only if nothing comes before the clause and
their builder. -/
def Aligned (s : ℕ) (os : List Origin) : Prop :=
  ∀ o ∈ os.dropWhile fun o => o = .raw, o = .own 0 ∧ s = 0

instance (s : ℕ) (os : List Origin) : Decidable (Aligned s os) :=
  inferInstanceAs (Decidable (∀ o ∈ os.dropWhile fun o => o = .raw, o = .own 0 ∧ s = 0))

/-- What the origin says of the number of the placeholder at position `p`. -/
def Origin.Explains (p : ℕ) (m : Option ℕ) : Origin → Prop
  | .raw => m = none
  | .own base => base ≤ p ∧ m = some (p - base + 1)
  | .wrong => ∃ n ≤ p, m = some n

/-- The origins explain the numbers of the placeholders, the first of which has position `p`. -/
def Explained : ℕ → List Origin → List (Option ℕ) → Prop
  | _, os, [] => os = []
  | p, os, m :: ms => ∃ o os', os = o :: os' ∧ o.Explains p m ∧ Explained (p + 1) os' ms

section Explained

variable {p s : ℕ} {os os' : List Origin} {ms ms' : List (Option ℕ)} {w : Woven α}

theorem Explained.length (h : Explained p os ms) : os.length = ms.length := by
  induction ms generalizing p os with
  | nil =>
    obtain rfl : os = [] := h
    rfl
  | cons m ms ih =>
    obtain ⟨o, os, rfl, -, h⟩ := h
    rw [List.length_cons, ih h, List.length_cons]

theorem Explained.append (h : Explained p os ms) (h' : Explained (p + os.length) os' ms') :
    Explained p (os ++ os') (ms ++ ms') := by
  induction ms generalizing p os with
  | nil =>
    obtain rfl : os = [] := h
    exact h'
  | cons m ms ih =>
    obtain ⟨o, os, rfl, ho, h⟩ := h
    refine ⟨o, os ++ os', rfl, ho, ih h ?_⟩
    rwa [List.length_cons, ← Nat.add_assoc, Nat.add_right_comm] at h'

theorem explained_singleton {m : Option ℕ} {o : Origin} (h : o.Explains p m) :
    Explained p [o] [m] :=
  ⟨o, [], rfl, h, rfl⟩

theorem explained_raw (h : ∀ m ∈ ms, m = none) :
    Explained p (List.replicate ms.length .raw) ms := by
  induction ms generalizing p with
  | nil => rfl
  | cons m ms ih =>
    exact ⟨.raw, _, rfl, h m List.mem_cons_self, ih fun x hx => h x (List.mem_cons_of_mem _ hx)⟩

theorem Origin.Explains.eq_raw_iff {o : Origin} {m : Option ℕ} (h : o.Explains p m) :
    o = .raw ↔ m = none := by
  cases o with
  | raw => exact ⟨fun _ => h, fun _ => rfl⟩
  | own base => simp [h.2]
  | wrong =>
    obtain ⟨n, -, rfl⟩ := h
    simp

/-- A placeholder with a number has the right one iff its own builder and the clause come first. -/
theorem Origin.Explains.isNext_iff {o : Origin} {n : ℕ} (h : o.Explains p (some n)) :
    IsNext (s + p) (some n) ↔ o = .own 0 ∧ s = 0 := by
  unfold IsNext
  cases o with
  | raw => cases h
  | own base =>
    obtain ⟨hb, hn⟩ := h
    cases hn
    rw [Option.some.injEq, Origin.own.injEq]
    omega
  | wrong =>
    obtain ⟨k, hk, hn⟩ := h
    cases hn
    simp only [Option.some.injEq, reduceCtorEq, false_and, iff_false]
    omega

/-- The numbers that are there before the counter is used. -/
theorem Explained.numbered_iff (h : Explained p os (marks w)) :
    Numbered (s + p) w ↔ ∀ o ∈ os, o = .own 0 ∧ s = 0 := by
  induction w generalizing p os with
  | nil =>
    obtain rfl : os = [] := h
    simp [Numbered, Marked]
  | cons x w ih =>
    cases x with
    | lit c => exact ih h
    | hole a m =>
      obtain ⟨o, os, rfl, ho, h⟩ := h
      rw [List.forall_mem_cons, ← ih h]
      refine and_congr ?_ Iff.rfl
      cases m with
      | none =>
        obtain rfl := ho.eq_raw_iff.2 rfl
        simp [IsNext]
      | some n => exact ho.isNext_iff

/-- **Filling gives consecutive numbers iff the origins are aligned.** -/
theorem Explained.numbered_fill_iff (h : Explained p os (marks w)) :
    Numbered (s + p) (fill (fun i => some (i + 1)) (s + p) w) ↔ Aligned s os := by
  induction w generalizing p os with
  | nil =>
    obtain rfl : os = [] := h
    simp [Numbered, Marked, Aligned, fill]
  | cons x w ih =>
    rcases x with c | ⟨a, _ | n⟩
    · exact ih h
    · -- an open placeholder gets the next number of the counter
      obtain ⟨o, os, rfl, ho, h⟩ := h
      obtain rfl := ho.eq_raw_iff.2 rfl
      have hstep := ih h
      unfold Aligned at hstep ⊢
      rw [List.dropWhile_cons_of_pos (by simp), ← hstep]
      simp only [Numbered, fill, Marked, IsNext, true_and, Nat.add_assoc]
    · -- from here on the counter lags behind
      have hall := h.numbered_iff (s := s)
      obtain ⟨o, os, rfl, ho, h⟩ := h
      have hraw : o ≠ .raw := fun he => by cases ho.eq_raw_iff.1 he
      unfold Aligned
      rw [List.dropWhile_cons_of_neg (by simpa using hraw), ← hall]
      exact and_congr Iff.rfl (numbered_fill_of_lt (Nat.lt_succ_self _))

end Explained

/-! ### The origins explain the numbers -/

section Weave

variable {base : ℕ} {os os' : List Origin} {cs : List (Woven α)} {w : Woven α}

theorem marks_flatten (ws : List (Woven α)) : marks ws.flatten = ws.flatMap marks := by
  induction ws with
  | nil => rfl
  | cons w ws ih => rw [List.flatten_cons, marks_append, ih, List.flatMap_cons]

theorem Explained.argCount (h : Explained base os (marks cs.flatten)) :
    os.length = argCount cs := by
  rw [h.length, length_marks, length_holes_flatten]

theorem Explained.snoc (h : Explained base os (marks cs.flatten))
    (hw : Explained (base + os.length) os' (marks w)) :
    Explained base (os ++ os') (marks (cs ++ [w]).flatten) := by
  rw [List.flatten_append, List.flatten_singleton, marks_append]
  exact h.append hw

theorem Explained.connect (h : Explained base os (marks cs.flatten))
    (hw : Explained (base + os.length) os' (marks w)) (conn : Connective) :
    Explained base (os ++ os') (marks (connectWoven conn cs w).flatten) := by
  refine h.snoc ?_
  split_ifs
  · rwa [marks_append, marks_lits, List.nil_append]
  · exact hw

theorem explained_thread {t : Text} {args : List α} (h : t.count '?' = args.length) (p : ℕ) :
    Explained p (List.replicate args.length .raw) (marks (thread t args)) := by
  have hlen : args.length = (marks (thread t args)).length := by
    rw [length_marks, (thread_spec h).2.1]
  rw [hlen]
  exact explained_raw (marks_thread t args)

theorem explains_own (n : ℕ) :
    (Origin.own base).Explains (base + n) (Dialect.postgreSQL.mark n) := by
  refine ⟨Nat.le_add_right _ _, ?_⟩
  rw [Nat.add_sub_cancel_left]
  rfl

theorem explained_valueHoles (n : ℕ) (values : List α) :
    Explained (base + n) (List.replicate values.length (.own base))
      (marks (valueHoles .postgreSQL n values)) := by
  rw [valueHoles, marks_intercalate]
  induction values generalizing n with
  | nil => rfl
  | cons v values ih =>
    rw [List.mapIdx_cons, List.flatMap_cons, marks_hole_cons, marks_nil, List.singleton_append]
    refine ⟨.own base, _, rfl, explains_own n, ?_⟩
    have hrest := ih (n + 1)
    simpa only [Nat.add_assoc, Nat.add_comm 1] using hrest

/-- The numbers of a subquery after `n` arguments of its builder. -/
theorem explained_sub (n : ℕ) {k : ℕ} (hw : Marked AtMostNext k w) :
    Explained (base + n + k) (subOrigins base k (marks w)) (marks (shift n w)) := by
  induction w generalizing k with
  | nil => rfl
  | cons x w ih =>
    rcases x with c | ⟨a, _ | m⟩
    · exact ih hw
    · exact ⟨.raw, _, rfl, rfl, ih hw.2⟩
    · refine ⟨_, _, rfl, ?_, ih hw.2⟩
      have hle : m ≤ k + 1 := hw.1 m rfl
      split_ifs with hm
      · refine ⟨by omega, congrArg some ?_⟩
        dsimp only
        omega
      · exact ⟨m + n, by omega, rfl⟩

variable {g : σ → Woven α}

mutual

/-- **The origins explain the numbers of the conditions.** -/
theorem explained_weave :
    ∀ (c : WhereCall α σ) {base : ℕ} {os : List Origin} {cs : List (Woven α)}, c.Fits true →
      (∀ r ∈ c.subs, Marked AtMostNext 0 (g r)) → Explained base os (marks cs.flatten) →
      Explained base (c.origins g base os) (marks (weave .postgreSQL g c cs).flatten)
  | .raw condition args, base, os, cs, hf, _, h => by
    rw [WhereCall.origins, weave]
    exact h.snoc (explained_thread hf.1 _)
  | .connect conn condition args, base, os, cs, hf, _, h => by
    rw [WhereCall.origins, weave]
    exact h.connect (explained_thread hf.1 _) conn
  | .compare op column value, base, os, cs, _, _, h => by
    rw [WhereCall.origins, weave, ← h.argCount]
    refine h.snoc ?_
    rw [marks_append, marks_append, marks_lits, marks_lits]
    exact explained_singleton (explains_own _)
  | .iLike column value, base, os, cs, _, _, h => by
    rw [WhereCall.origins, weave, ← h.argCount]
    refine h.snoc ?_
    rw [if_pos (show Dialect.postgreSQL.isPostgreSQL = true from rfl), marks_append, marks_append,
      marks_lits, marks_lits]
    exact explained_singleton (explains_own _)
  | .in_ negated column values, base, os, cs, _, _, h => by
    rw [WhereCall.origins, weave, ← h.argCount]
    refine h.snoc ?_
    by_cases hv : values.length = 0
    · rw [if_pos hv, hv, marks_lits]
      rfl
    · rw [if_neg hv, marks_append, marks_append, marks_append, marks_lits, marks_lits, marks_lits,
        List.append_nil]
      exact explained_valueHoles _ values
  | .isNull negated column, base, os, cs, _, _, h => by
    rw [WhereCall.origins, weave, ← List.append_nil os]
    refine h.snoc ?_
    rw [marks_append, marks_lits, marks_lits]
    rfl
  | .between negated column start stop, base, os, cs, _, _, h => by
    rw [WhereCall.origins, weave, ← h.argCount]
    refine h.snoc ?_
    simp only [marks_append, marks_lits, marks_hole_cons, marks_nil, List.nil_append,
      List.append_nil, List.singleton_append]
    exact ⟨_, _, rfl, explains_own _, _, _, rfl, explains_own (os.length + 1), rfl⟩
  | .exists_ negated subquery args, base, os, cs, hf, _, h => by
    rw [WhereCall.origins, weave]
    refine h.snoc ?_
    rw [marks_append, marks_append, marks_lits, marks_lits, List.append_nil]
    exact explained_thread hf.1 _
  | .existsSubquery negated sub, base, os, cs, _, hs, h => by
    rw [WhereCall.origins, weave, ← h.argCount]
    refine h.snoc ?_
    rw [marks_append, marks_append, marks_lits, marks_lits, List.append_nil]
    exact explained_sub _ (hs sub (by simp [WhereCall.subs]))
  | .inSubquery negated column sub, base, os, cs, _, hs, h => by
    rw [WhereCall.origins, weave, ← h.argCount]
    refine h.snoc ?_
    rw [marks_append, marks_append, marks_append, marks_lits, marks_lits, marks_lits,
      List.append_nil]
    exact explained_sub _ (hs sub (by simp [WhereCall.subs]))
  | .group conn calls, base, os, cs, hf, hs, h => by
    rw [WhereCall.Fits] at hf
    rw [WhereCall.subs] at hs
    have hinner : Explained (base + os.length)
        (WhereCall.originsAll g (base + os.length) calls [])
        (marks (weaveAll .postgreSQL g calls []).flatten) := explained_weaveAll calls hf hs rfl
    simp only [WhereCall.origins, weave]
    split_ifs with hlen
    · refine h.connect ?_ conn
      rwa [marks_append, marks_append, marks_lits, marks_lits, List.append_nil,
        marks_intercalate, ← marks_flatten]
    · rw [List.length_eq_zero_iff.1 (Nat.eq_zero_of_not_pos hlen)] at hinner
      rw [show WhereCall.originsAll g (base + os.length) calls [] = [] from hinner, List.append_nil]
      exact h
  | .reset, base, os, cs, _, _, _ => by
    rw [WhereCall.origins, weave]
    rfl

theorem explained_weaveAll :
    ∀ (calls : List (WhereCall α σ)) {base : ℕ} {os : List Origin} {cs : List (Woven α)},
      WhereCall.FitsAll true calls → (∀ r ∈ WhereCall.subsAll calls, Marked AtMostNext 0 (g r)) →
      Explained base os (marks cs.flatten) →
      Explained base (WhereCall.originsAll g base calls os)
        (marks (weaveAll .postgreSQL g calls cs).flatten)
  | [], base, os, cs, _, _, h => by
    rwa [WhereCall.originsAll, weaveAll]
  | c :: calls, base, os, cs, hf, hs, h => by
    rw [WhereCall.FitsAll] at hf
    rw [WhereCall.subsAll] at hs
    rw [WhereCall.originsAll, weaveAll]
    have hc := explained_weave c hf.1 (fun r hr => hs r (List.mem_append_left _ hr)) h
    exact explained_weaveAll calls hf.2 (fun r hr => hs r (List.mem_append_right _ hr)) hc

end

/-- **The numbers of a clause are consecutive iff the origins are aligned.** -/
theorem numbered_clause_iff (h : Explained 0 os (marks cs.flatten)) (keyword : Text) (s : ℕ) :
    Numbered s (clause keyword .postgreSQL s cs) ↔ Aligned s os := by
  have hfill : Explained 0 os (marks ((lits " ").intercalate cs)) := by
    rwa [marks_intercalate, ← marks_flatten]
  rw [← hfill.numbered_fill_iff, Nat.add_zero]
  unfold clause
  split_ifs with hlen
  · rw [List.length_eq_zero_iff.1 hlen]
    exact Iff.rfl
  · unfold Numbered
    rw [marked_append, holes_lits]
    exact and_iff_right (marked_lits _)

end Weave

/-! ### Statements around the clause -/

section Statement

variable {u v w : Woven α} {s n : ℕ} {os : List Origin} {cs : List (Woven α)}

theorem numbered_append_left (hv : Numbered (s + (holes u).length) v) :
    Numbered s (u ++ v) ↔ Numbered s u := by
  unfold Numbered at hv ⊢
  rw [marked_append, and_iff_left hv]

theorem numbered_append_right (hu : Numbered s u) :
    Numbered s (u ++ v) ↔ Numbered (s + (holes u).length) v := by
  unfold Numbered at hu ⊢
  rw [marked_append, and_iff_right hu]

theorem numbered_append_quiet (hv : holes v = []) : Numbered s (u ++ v) ↔ Numbered s u :=
  numbered_append_left (marked_of_holes_nil hv)

theorem numbered_shift_iff : Numbered (s + n) (shift n w) ↔ Numbered s w := by
  unfold Numbered
  induction w generalizing s with
  | nil => exact Iff.rfl
  | cons x w ih =>
    cases x with
    | lit c => exact ih
    | hole a m =>
      have ih := ih (s := s + 1)
      rw [Nat.add_right_comm] at ih
      refine and_congr ?_ ih
      cases m with
      | none => simp [IsNext]
      | some k =>
        simp only [IsNext, Option.map_some, Option.some.injEq]
        omega

theorem holes_foldl_renderJoin (d : Dialect) (joins : List (WovenJoin α)) (w : Woven α) :
    holes (joins.foldl (renderJoin d) w) =
      holes w ++ joins.flatMap fun j => holes j.table ++ holes j.condition := by
  induction joins generalizing w with
  | nil => simp
  | cons j joins ih =>
    rw [List.foldl_cons, ih, List.flatMap_cons]
    simp [renderJoin, holes_fill]

theorem numbered_joins_clause_iff {joins : List (WovenJoin α)} (hw : Numbered 0 w)
    (hj : ∀ j ∈ joins, Numbered 0 j.table ∧ Marked IsOpen 0 j.condition)
    (h : Explained 0 os (marks cs.flatten)) (keyword : Text) :
    Numbered 0 (joins.foldl (renderJoin .postgreSQL) w ++ clause keyword .postgreSQL
        (holes (joins.foldl (renderJoin .postgreSQL) w)).length cs) ↔
      Aligned (holes w ++ joins.flatMap fun j => holes j.table ++ holes j.condition).length os := by
  have hjoins : Numbered 0 (joins.foldl (renderJoin .postgreSQL) w) :=
    scheme_next.renderJoins rfl hj hw
  rw [numbered_append_right hjoins, Nat.zero_add, numbered_clause_iff h, holes_foldl_renderJoin]

theorem numbered_renderTail_iff {joins : List (WovenJoin α)} (hw : Numbered 0 w)
    (hj : ∀ j ∈ joins, Numbered 0 j.table ∧ Marked IsOpen 0 j.condition)
    (h : Explained 0 os (marks cs.flatten)) (orderBy : List Text) (limit : ℤ) :
    Numbered 0 (renderTail .postgreSQL joins cs orderBy limit w) ↔
      Aligned (holes w ++ joins.flatMap fun j => holes j.table ++ holes j.condition).length os := by
  unfold renderTail
  rw [numbered_append_quiet (holes_optional _ _), numbered_append_quiet (holes_optionalList _ _)]
  exact numbered_joins_clause_iff hw hj h _

theorem Join.numbered_weave (d : Dialect) (j : Join α) :
    Numbered 0 (j.weave d).table ∧ Marked IsOpen 0 (j.weave d).condition :=
  ⟨marked_lits _, marked_thread (scheme_next (α := α)).ofOpen _ _⟩

/-- The arguments of an assignment. -/
def SetValue.args : SetValue α → List α
  | .value v => [v]
  | .expr _ args => args

/-- The assignments of a `SET` clause are numbered from left to right. -/
theorem numbered_set {data : List (Text × SetValue α)} (h : ∀ e ∈ data, e.2.Fits true)
    (parts : List (Woven α)) (hp : Numbered 0 parts.flatten) :
    Numbered 0 (data.foldl (renderSet .postgreSQL) parts).flatten ∧
      holes (data.foldl (renderSet .postgreSQL) parts).flatten =
        holes parts.flatten ++ data.flatMap fun e => e.2.args := by
  induction data generalizing parts with
  | nil => exact ⟨hp, by simp⟩
  | cons e data ih =>
    obtain ⟨key, value⟩ := e
    have hv : value.Fits true := h _ List.mem_cons_self
    have hvalue : Numbered (holes parts.flatten).length
        (value.weave .postgreSQL (holes parts.flatten).length) ∧
        holes (value.weave .postgreSQL (holes parts.flatten).length) = value.args := by
      cases value with
      | value v => exact ⟨marked_hole.2 rfl, rfl⟩
      | expr sql args =>
        refine ⟨scheme_next.onFill (marked_thread (scheme_next (α := α)).ofOpen sql args) _, ?_⟩
        rw [SetValue.weave, holes_fill, (thread_spec hv.1).2.1, SetValue.args]
    have hstep : Numbered 0 (renderSet .postgreSQL parts (key, value)).flatten := by
      rw [renderSet, List.flatten_append, List.flatten_singleton, numbered_append_right hp,
        Nat.zero_add]
      exact marked_after _ _ hvalue.1
    obtain ⟨hn, hh⟩ := ih (fun x hx => h x (List.mem_cons_of_mem _ hx)) _ hstep
    refine ⟨hn, ?_⟩
    rw [List.foldl_cons, hh, renderSet, List.flatten_append, List.flatten_singleton,
      List.flatMap_cons]
    simp [hvalue.2]

/-- The arguments before the `WHERE` clause of an `UPDATE` statement. -/
def UpdateBuilder.preceding (ub : UpdateBuilder α) : List α :=
  (ub.data.flatMap fun e => e.2.args) ++ ub.joins.flatMap fun j => j.args

theorem holes_joins {d : Dialect} {joins : List (Join α)}
    (hj : ∀ j ∈ joins, j.Fits d.isPostgreSQL) :
    ((joins.map (Join.weave d)).flatMap fun j => holes j.table ++ holes j.condition) =
      joins.flatMap fun j => j.args := by
  rw [List.flatMap_map]
  refine List.flatMap_congr fun j hm => ?_
  rw [Join.weave, holes_lits, (thread_spec (hj j hm).condition.1).2.1, List.nil_append]

theorem UpdateBuilder.numbered_render_iff {ub : UpdateBuilder α} (hf : ub.Fits)
    (hd : ub.dialect = .postgreSQL) (h : Explained 0 os (marks cs.flatten)) :
    Numbered 0 (ub.render cs) ↔ Aligned ub.preceding.length os := by
  have hdata := hf.data
  have hjoins := holes_joins hf.joins
  rw [hd] at hdata hjoins
  obtain ⟨hset, hholes⟩ := numbered_set (fun e he => (hdata e he).2) [] marked_nil
  have hhead : Numbered 0 (lits "UPDATE " ++ lits (ub.dialect.quoteIdentifier ub.table) ++
      lits " SET " ++ (lits ", ").intercalate (ub.data.foldl (renderSet .postgreSQL) [])) := by
    rw [List.append_assoc (lits "UPDATE ")]
    refine marked_append.2 ⟨marked_append.2 ⟨marked_lits _, ?_⟩, ?_⟩
    · exact marked_snoc_lits (marked_lits _) _
    · simpa using (marked_intercalate _ _).2 hset
  unfold UpdateBuilder.render UpdateBuilder.preceding
  rw [hd] at hhead ⊢
  rw [numbered_renderTail_iff hhead (fun j hj => ?_) h, hjoins, holes_append, holes_append,
    holes_append, holes_lits, holes_lits, holes_lits, holes_intercalate, ← holes_flatten, hholes]
  · rfl
  · obtain ⟨j, -, rfl⟩ := List.mem_map.1 hj
    exact j.numbered_weave _

/-- The arguments before the `WHERE` clause of a `DELETE` statement. -/
def DeleteBuilder.preceding (db : DeleteBuilder α) : List α := db.joins.flatMap fun j => j.args

theorem DeleteBuilder.numbered_render_iff {db : DeleteBuilder α} (hf : db.Fits)
    (hd : db.dialect = .postgreSQL) (h : Explained 0 os (marks cs.flatten)) :
    Numbered 0 (db.render cs) ↔ Aligned db.preceding.length os := by
  have hjoins := holes_joins hf.joins
  rw [hd] at hjoins
  unfold DeleteBuilder.render DeleteBuilder.preceding
  rw [hd, numbered_renderTail_iff (marked_snoc_lits (marked_lits _) _) (fun j hj => ?_) h, hjoins,
    holes_append, holes_lits, holes_lits]
  · rfl
  · obtain ⟨j, -, rfl⟩ := List.mem_map.1 hj
    exact j.numbered_weave _

/-- The arguments before the `WHERE` clause of a query. -/
def Query.preceding (q : Query α) : List α :=
  holes q.table ++ q.joins.flatMap fun j => holes j.table ++ holes j.condition

theorem numbered_unions_iff {us : List (UnionClause (Woven α))}
    (hu : ∀ u ∈ us, Numbered 0 u.query) :
    Numbered 0 (us.foldl (Query.renderUnion .postgreSQL) w) ↔ Numbered 0 w := by
  induction us generalizing w with
  | nil => exact Iff.rfl
  | cons u us ih =>
    rw [List.foldl_cons, ih fun x hx => hu x (List.mem_cons_of_mem _ hx)]
    have hn := numbered_shift_iff (n := (holes w).length).2 (hu u List.mem_cons_self)
    unfold Query.renderUnion
    rw [numbered_append_left, numbered_append_quiet (holes_lits _)]
    rwa [holes_append, holes_lits, List.append_nil]

theorem isPostgreSQL_iff {d : Dialect} : d.isPostgreSQL = true ↔ d = .postgreSQL := by
  cases d <;> simp [Dialect.isPostgreSQL]

theorem numbered_clause_of_open (h : Marked IsOpen 0 cs.flatten) (keyword : Text) (n : ℕ) :
    Numbered n (clause keyword .postgreSQL n cs) := by
  unfold clause
  split_ifs
  · exact marked_nil
  · rw [numbered_append_right (marked_lits _), holes_lits]
    exact scheme_next.onFill ((marked_intercalate _ _).2 h) n

variable {q : Query α}

/-- The body of a query all of whose other parts are numbered. -/
theorem Query.Keeps.numbered_core_iff (hk : q.Keeps IsOpen IsNext)
    (h : Explained 0 os (marks cs.flatten)) :
    Numbered 0 ({ q with where_ := cs } : Query α).renderCore ↔
      Aligned q.preceding.length os := by
  have hd : q.dialect = .postgreSQL := isPostgreSQL_iff.1 hk.dialect
  have hnone : holes (lits "SELECT " ++ (lits ", ").intercalate (q.quotedColumns.map lits) ++
      lits " FROM " : Woven α) = [] := by simp [holes_intercalate]
  have hfrom : Numbered 0 (lits "SELECT " ++ (lits ", ").intercalate (q.quotedColumns.map lits) ++
      lits " FROM " ++ q.table) := by
    rw [numbered_append_right (marked_of_holes_nil hnone), hnone]
    exact hk.table
  have hbody := numbered_joins_clause_iff hfrom hk.joins h " WHERE "
  unfold Query.renderCore Query.renderBody
  rw [numbered_append_quiet (holes_optional _ _), numbered_append_quiet (holes_optional _ _),
    numbered_append_quiet (holes_optionalList _ _)]
  rw [holes_append, hnone, ← hd] at hbody
  rw [numbered_append_left, numbered_append_quiet (holes_optionalList _ _)]
  · exact hbody
  · rw [hd, Nat.zero_add]
    exact numbered_clause_of_open hk.having _ _

/-- **A query all of whose other parts are numbered is numbered iff its `WHERE` clause is.** -/
theorem Query.Keeps.numbered_render_iff (hk : q.Keeps IsOpen IsNext)
    (h : Explained 0 os (marks cs.flatten)) :
    Numbered 0 ({ q with where_ := cs } : Query α).render ↔ Aligned q.preceding.length os := by
  have hd : q.dialect = .postgreSQL := isPostgreSQL_iff.1 hk.dialect
  rw [← hk.numbered_core_iff h]
  unfold Query.render
  dsimp only
  rw [hd, numbered_unions_iff hk.unions]
  cases hq : q.ctes with
  | nil => exact Iff.rfl
  | cons c ctes =>
    have hparts := scheme_next.renderCtes (d := .postgreSQL) rfl (hq ▸ hk.ctes) [] marked_nil
    have hwith : Numbered 0 (lits (if (c :: ctes).any fun c => c.recursive then "WITH RECURSIVE "
        else "WITH ") ++ (lits ", ").intercalate (Query.renderCtes .postgreSQL (c :: ctes))) := by
      rw [numbered_append_right (marked_lits _), holes_lits]
      exact (marked_intercalate _ _).2 hparts
    dsimp only
    rw [numbered_append_right (marked_snoc_lits hwith _), holes_append, holes_lits, List.append_nil]
    exact numbered_shift_iff

end Statement

/-! ### When the numbers are right -/

theorem placed_iff {s : ℕ} {built : Text × List α} {w : Woven α} (hb : built = written w)
    (ht : Tidy true w) : Placed s built w ↔ Numbered s w := by
  subst hb
  exact ⟨Placed.numbered, Placed.of_numbered ht⟩

/-- **The numbers of a clause, and of a statement that is numbered otherwise, are right iff the
placeholders of the clause are aligned.** -/
theorem where_placed_iff (calls : List (WhereCall α (SelectBuilder α × Query α)))
    (hf : WhereCall.FitsAll true calls)
    (hs : ∀ r ∈ WhereCall.subsAll calls, Made true (fun _ => True) r.1 r.2) :
    let wb := WhereBuilder.callAll Prod.fst calls (newWhereBuilder .postgreSQL)
    let cs := weaveAll .postgreSQL (fun r => r.2.render) calls []
    let os := WhereCall.originsAll (fun r => r.2.render) 0 calls []
    (∀ s, Placed s (wb.buildWithOffset s) (clause "WHERE " .postgreSQL s cs) ↔ Aligned s os) ∧
      (∀ ub : UpdateBuilder α, ub.Fits → ub.dialect = .postgreSQL → ub.where_ = wb →
        (Placed 0 ub.build (ub.render cs) ↔ Aligned ub.preceding.length os)) ∧
      (∀ db : DeleteBuilder α, db.Fits → db.dialect = .postgreSQL → db.where_ = wb →
        (Placed 0 db.build (db.render cs) ↔ Aligned db.preceding.length os)) ∧
      ∀ (sb : SelectBuilder α) (q : Query α), Made true (SelectCall.Plain False) sb q →
        q.where_ = [] →
        (Placed 0 (sb.onWhere (WhereBuilder.callAll Prod.fst calls)).build
          ({ q with where_ := cs } : Query α).render ↔ Aligned q.preceding.length os) := by
  intro wb cs os
  have hrep : ∀ {wb₀ : WhereBuilder α}, WhereRep wb₀ .postgreSQL [] →
      WhereRep (WhereBuilder.callAll Prod.fst calls wb₀) .postgreSQL cs := fun h =>
    h.callAll calls hf fun r hr => (hs r hr).build
  have hwb : WhereRep wb .postgreSQL cs := hrep (whereRep_new _)
  have hexp : Explained 0 os (marks cs.flatten) :=
    explained_weaveAll calls hf (fun r hr => (hs r hr).atMostNext) rfl
  refine ⟨fun s => ?_, fun ub hub hd hw => ?_, fun db hdb hd hw => ?_, fun sb q hq hnil => ?_⟩
  · obtain ⟨hb, ht⟩ := hwb.build_clause s
    rw [placed_iff hb ht, numbered_clause_iff hexp]
  · rw [← hd, ← hw] at hwb
    obtain ⟨hb, ht⟩ := UpdateBuilder.build_eq hub hwb
    rw [hd] at ht
    rw [placed_iff hb ht, UpdateBuilder.numbered_render_iff hub hd hexp]
  · rw [← hd, ← hw] at hwb
    obtain ⟨hb, ht⟩ := DeleteBuilder.build_eq hdb hwb
    rw [hd] at ht
    rw [placed_iff hb ht, DeleteBuilder.numbered_render_iff hdb hd hexp]
  · have hd : q.dialect = .postgreSQL := isPostgreSQL_iff.1 hq.rep.numbered
    have hwhere := hq.rep.where_
    rw [hd, hnil] at hwhere
    have hr : Rep true (sb.onWhere (WhereBuilder.callAll Prod.fst calls)) { q with where_ := cs } :=
      { hq.rep with where_ := by rw [hd]; exact hrep hwhere }
    obtain ⟨hb, ht⟩ := hr.build
    rw [placed_iff hb ht, (hq.keeps scheme_next fun _ hc => hc).numbered_render_iff hexp]

theorem where_placed_two_raw :
    Placed 3 ((((newWhereBuilder .postgreSQL : WhereBuilder ℕ).where_ "a = ?" [1]).or
        "b = ?" [2]).buildWithOffset 3)
      (clause "WHERE " .postgreSQL 3 [thread "a = ?" [1], lits "OR " ++ thread "b = ?" [2]]) := by
  have hfits : WhereCall.FitsAll true
      [WhereCall.raw (σ := SelectBuilder ℕ × Query ℕ) "a = ?" [1], .connect .or "b = ?" [2]] :=
    ⟨⟨by decide, fun _ => by decide⟩, ⟨by decide, fun _ => by decide⟩, trivial⟩
  exact ((where_placed_iff _ hfits (by simp [WhereCall.subsAll, WhereCall.subs])).1 3).2 (by decide)

/-- A helper before a raw fragment, and a helper after a `SET` clause, number a placeholder
twice. -/
theorem where_numbers_clash :
    (((newWhereBuilder .postgreSQL : WhereBuilder ℕ).eq "a" 7).and "b = ?" [8]).buildWithOffset 0 =
        ("WHERE \"a\" = $1 AND b = $1".toList, [7, 8]) ∧
      ((((newUpdateBuilderWithDialect "t" .postgreSQL : UpdateBuilder ℕ).setColumn "x" 9).onWhere
        fun wb => wb.eq "id" 1).build =
          ("UPDATE \"t\" SET \"x\" = $1 WHERE \"id\" = $1".toList, [9, 1])) ∧
      numbers "WHERE \"a\" = $1 AND b = $1" ≠ List.range' 1 2 ∧
      numbers "UPDATE \"t\" SET \"x\" = $1 WHERE \"id\" = $1" ≠ List.range' 1 2 := by
  decide

end Orm

end GinRpc
