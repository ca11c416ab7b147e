import Mathlib.Data.List.Basic

/-!
# The connections behind `database/sql`

A database handle (`sql.DB`) keeps the connections that nobody uses.  A query takes one of them, or
opens one, and its rows keep the connection until they are closed.  `DB.Close` closes the
connections that are not in use; one that is given back later is closed then.

* `Conns` : the connections and the rows of all handles.
* `Conns.Held` : rows that are not closed have a connection of their own, which is in use and open.
  This is kept by all operations, `DB.Close` included.

The number of connections is not limited.
-/

namespace GinRpc

namespace Sql

variable {C : Type*} [DecidableEq C]

/-- A connection of the handle `db`. -/
structure Conn (C : Type*) where
  db : C
  inUse : Bool
  closed : Bool
  deriving DecidableEq, Repr

/-- The result of a query. -/
structure Rows where
  conn : ℕ
  closed : Bool := false
  deriving DecidableEq, Repr

structure Conns (C : Type*) where
  conns : List (Conn C) := []
  rows : List Rows := []
  deriving DecidableEq, Repr

namespace Conns

variable (s : Conns C)

/-- The connection that a statement on a handle uses. -/
def take (db : C) : List (Conn C) × ℕ :=
  match s.conns.findIdx? fun k => k.db = db && !k.inUse && !k.closed with
  | some i => (s.conns.set i ⟨db, true, false⟩, i)
  | none => (s.conns ++ [⟨db, true, false⟩], s.conns.length)

/-- `DB.Query` that succeeds -/
def query (db : C) : Conns C where
  conns := (s.take db).1
  rows := s.rows ++ [{ conn := (s.take db).2 }]

/-- `DB.Exec` : the connection is given back at once. -/
def exec (db : C) : Conns C :=
  { s with conns := (s.take db).1.set (s.take db).2 ⟨db, false, false⟩ }

omit [DecidableEq C] in
/-- `Rows.Close` -/
def closeRows (isOpen : C → Bool) (i : ℕ) : Conns C :=
  match s.rows[i]? with
  | none => s
  | some r =>
    if r.closed then s
    else
      { conns := s.conns.modify r.conn fun k => { k with inUse := false, closed := !isOpen k.db }
        rows := s.rows.set i { r with closed := true } }

omit [DecidableEq C] in
/-- After some handles have been closed. -/
def closeIdle (isOpen : C → Bool) : Conns C :=
  { s with conns := s.conns.map fun k =>
    if k.inUse || isOpen k.db then k else { k with closed := true } }

omit [DecidableEq C] in
/-- The rows can be read. -/
def Readable (r : Rows) : Prop :=
  ∃ k, s.conns[r.conn]? = some k ∧ k.inUse = true ∧ k.closed = false

omit [DecidableEq C] in
/-- Rows have a connection of their own until they are closed. -/
structure Held : Prop where
  readable : ∀ (i : ℕ) (r : Rows), s.rows[i]? = some r → r.closed = false → s.Readable r
  own : ∀ (i j : ℕ) (r r' : Rows), s.rows[i]? = some r → s.rows[j]? = some r' → r.closed = false →
    r'.closed = false → r.conn = r'.conn → i = j

variable {s} {db : C}

theorem getElem?_take_self : (s.take db).1[(s.take db).2]? = some ⟨db, true, false⟩ := by
  unfold take
  cases hf : s.conns.findIdx? fun k => k.db = db && !k.inUse && !k.closed with
  | none => simp
  | some i =>
    obtain ⟨hi, -⟩ := List.findIdx?_eq_some_iff_getElem.1 hf
    simp [hi]

theorem getElem?_take_of_ne {j : ℕ} {k : Conn C} (hj : j ≠ (s.take db).2)
    (hk : s.conns[j]? = some k) : (s.take db).1[j]? = some k := by
  revert hj
  unfold take
  cases hf : s.conns.findIdx? fun k => k.db = db && !k.inUse && !k.closed with
  | none =>
    intro hj
    rw [List.getElem?_append_left (List.getElem?_eq_some_iff.1 hk).1, hk]
  | some i =>
    intro hj
    rw [List.getElem?_set_ne hj.symm, hk]

theorem inUse_take {k : Conn C} (hk : s.conns[(s.take db).2]? = some k) : k.inUse = false := by
  revert hk
  unfold take
  cases hf : s.conns.findIdx? fun k => k.db = db && !k.inUse && !k.closed with
  | none => simp
  | some i =>
    intro hk
    obtain ⟨hi, hidle, -⟩ := List.findIdx?_eq_some_iff_getElem.1 hf
    rw [List.getElem?_eq_getElem hi, Option.some.injEq] at hk
    subst hk
    simp only [Bool.and_eq_true, Bool.not_eq_true'] at hidle
    exact hidle.1.2

/-- Another statement leaves the connection of some rows alone. -/
theorem Readable.conn_ne {r : Rows} (h : s.Readable r) (db : C) : r.conn ≠ (s.take db).2 := by
  obtain ⟨k, hk, huse, -⟩ := h
  intro heq
  rw [heq] at hk
  rw [inUse_take hk] at huse
  cases huse

omit [DecidableEq C] in
theorem held_empty : (({} : Conns C)).Held where
  readable i r h := by cases h
  own i j r r' h := by cases h

theorem getElem?_rows_query {i : ℕ} {r : Rows} (h : (s.query db).rows[i]? = some r) :
    s.rows[i]? = some r ∨ i = s.rows.length ∧ r.conn = (s.take db).2 := by
  change (s.rows ++ [_])[i]? = some r at h
  rw [List.getElem?_append] at h
  split_ifs at h with hi
  · exact .inl h
  · rw [List.getElem?_singleton] at h
    split_ifs at h with h0
    exact .inr ⟨by omega, by rw [← Option.some.inj h]⟩

theorem Held.query (h : s.Held) : (s.query db).Held where
  readable i r hr hopen := by
    rcases getElem?_rows_query hr with hr | ⟨-, hconn⟩
    · have hne := (h.readable i r hr hopen).conn_ne db
      obtain ⟨k, hk, hlive⟩ := h.readable i r hr hopen
      exact ⟨k, getElem?_take_of_ne hne hk, hlive⟩
    · refine ⟨⟨db, true, false⟩, ?_, rfl, rfl⟩
      rw [hconn]
      exact getElem?_take_self
  own i j r r' hr hr' ho ho' hconn := by
    rcases getElem?_rows_query hr with hr | ⟨rfl, hc⟩
    · rcases getElem?_rows_query hr' with hr' | ⟨rfl, hc'⟩
      · exact h.own i j r r' hr hr' ho ho' hconn
      · exact absurd (hconn.trans hc') ((h.readable i r hr ho).conn_ne db)
    · rcases getElem?_rows_query hr' with hr' | ⟨rfl, -⟩
      · exact absurd (hconn.symm.trans hc) ((h.readable j r' hr' ho').conn_ne db)
      · rfl

theorem Held.exec (h : s.Held) : (s.exec db).Held where
  readable i r hr hopen := by
    have hne := (h.readable i r hr hopen).conn_ne db
    obtain ⟨k, hk, hlive⟩ := h.readable i r hr hopen
    refine ⟨k, ?_, hlive⟩
    change ((s.take db).1.set (s.take db).2 _)[r.conn]? = some k
    rw [List.getElem?_set_ne hne.symm]
    exact getElem?_take_of_ne hne hk
  own := h.own

omit [DecidableEq C] in
theorem Held.closeIdle (h : s.Held) (isOpen : C → Bool) : (s.closeIdle isOpen).Held where
  readable i r hr hopen := by
    obtain ⟨k, hk, huse, hclosed⟩ := h.readable i r hr hopen
    refine ⟨k, ?_, huse, hclosed⟩
    change (s.conns.map _)[r.conn]? = some k
    rw [List.getElem?_map, hk, Option.map_some, huse, Bool.true_or, if_pos rfl]
  own := h.own

omit [DecidableEq C] in
theorem Held.closeRows (h : s.Held) (isOpen : C → Bool) (n : ℕ) :
    (s.closeRows isOpen n).Held := by
  unfold Conns.closeRows
  cases hn : s.rows[n]? with
  | none => exact h
  | some q =>
    dsimp only
    split_ifs with hq
    · exact h
    rw [Bool.not_eq_true] at hq
    -- rows that are still open are others
    have hother : ∀ i r, (s.rows.set n { q with closed := true })[i]? = some r →
        r.closed = false → i ≠ n ∧ s.rows[i]? = some r := by
      intro i r hr hopen
      rw [List.getElem?_set] at hr
      split_ifs at hr with hi hlt
      · cases hr
        cases hopen
      · exact ⟨Ne.symm hi, hr⟩
    constructor
    · intro i r hr hopen
      obtain ⟨hi, hr⟩ := hother i r hr hopen
      obtain ⟨k, hk, hlive⟩ := h.readable i r hr hopen
      have hne : q.conn ≠ r.conn := fun heq => hi (h.own i n r q hr hn hopen hq heq.symm)
      refine ⟨k, ?_, hlive⟩
      dsimp only
      rw [List.getElem?_modify_ne _ _ hne, hk]
    · intro i j r r' hr hr' ho ho'
      exact h.own i j r r' (hother i r hr ho).2 (hother j r' hr' ho').2 ho ho'

end Conns

end Sql

end GinRpc
