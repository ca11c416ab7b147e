import GinRpc.Data.Duration
import GinRpc.Orm.ConsistentHash
import GinRpc.Order.SliceSort

/-!
# Queries over several shards

Model of `CrossShardQuery.Exec` in `plugins/db/orm/dynamic_sharding.go`.  The rows of all shards are
collected in the order in which they arrive, sorted by a column, and cut to a page.

The comparison looks at the type of its first argument, takes a second one of another type as the
zero of that type, and is negated for a descending order; so a row can come before itself.

* `CrossShardQuery.Comparable` : the rows for which the comparison is a strict weak order, which are
  not only those with values of one type.
* `CrossShardQuery.exec_spec` : the comparison is a strict weak order and the result a page of the
  sorted rows, if and only if the rows are comparable and the page has bounds.
-/

namespace GinRpc

namespace Orm

namespace CrossShard

/-- A `float64`; nothing is less or greater than NaN, which is `none`. -/
abbrev GoFloat := Option (WithBot (WithTop ℚ))

def GoFloat.less : GoFloat → GoFloat → Bool
  | some x, some y => decide (x < y)
  | _, _ => false

/-- A value of a row; `other` is nil and a value of any other type. -/
inductive Value where
  | int64 (n : ℤ)
  | float64 (x : GoFloat)
  | string (s : Bytes)
  | other

namespace Value

/-- `b, _ := v.(int64)` -/
def toInt64 : Value → ℤ
  | int64 n => n
  | _ => 0

/-- `b, _ := v.(float64)` -/
def toFloat64 : Value → GoFloat
  | float64 x => x
  | _ => some 0

/-- `b, _ := v.(string)` -/
def toBytes : Value → Bytes
  | string s => s
  | _ => []

end Value

/-- Strings are compared byte by byte. -/
def bytesKey (s : Bytes) : List ℕ := s.map UInt8.toNat

/-- `compare` -/
def compare (vi vj : Value) (desc : Bool) : Bool :=
  match vi with
  | .int64 a => negated (decide (a < vj.toInt64))
  | .float64 a => negated (a.less vj.toFloat64)
  | .string a => negated (decide (bytesKey a < bytesKey vj.toBytes))
  | .other => false
where
  negated (res : Bool) : Bool := if desc then !res else res

/-! ### Comparing values -/

inductive Kind where
  | int64
  | float64
  | string
  | other

namespace Value

def kind : Value → Kind
  | int64 _ => .int64
  | float64 _ => .float64
  | string _ => .string
  | other => .other

/-- A number below zero -/
def Negative : Value → Prop
  | int64 n => n < 0
  | float64 x => x.less (some 0) = true
  | _ => False

end Value

open Value

theorem GoFloat.less_iff {x y : GoFloat} :
    x.less y = true ↔ ∃ a b, x = some a ∧ y = some b ∧ a < b := by
  cases x <;> cases y <;> simp [GoFloat.less]

theorem eq_other_of_compare {v : Value} (h : compare v v true = false) : v = .other := by
  have hnot {b : Bool} (hb : (!b) = false) : b = true := by simpa using hb
  cases v with
  | int64 n => exact absurd (of_decide_eq_true (hnot h)) (lt_irrefl n)
  | float64 x =>
    obtain ⟨a, b, rfl, heq, hlt⟩ := GoFloat.less_iff.1 (hnot h)
    exact absurd hlt (Option.some.inj heq ▸ lt_irrefl a)
  | string s => exact absurd (of_decide_eq_true (hnot h)) (lt_irrefl (bytesKey s))
  | other => rfl

/-- A value of another type is taken as zero or as the empty string. -/
theorem compare_of_ne {v w : Value} (h : v.kind ≠ w.kind) :
    compare v w false = true ↔ v.Negative := by
  cases v <;> cases w <;> try exact absurd rfl h
  case int64.float64 | int64.string | int64.other => exact decide_eq_true_iff
  case float64.int64 | float64.string | float64.other => exact Iff.rfl
  case string.int64 | string.float64 | string.other =>
    exact iff_of_false (fun hlt => List.not_lt_nil _ (of_decide_eq_true hlt)) id
  all_goals exact iff_of_false Bool.false_ne_true id

theorem compare_asymm {v w : Value} (h : v.kind = w.kind) (hlt : compare v w false = true) :
    compare w v false = false := by
  rw [Bool.eq_false_iff]
  intro hgt
  cases v <;> cases w <;> try cases h
  case int64 => exact lt_asymm (of_decide_eq_true hlt) (of_decide_eq_true hgt)
  case float64 =>
    obtain ⟨a, b, rfl, rfl, hab⟩ := GoFloat.less_iff.1 hlt
    exact lt_asymm hab (of_decide_eq_true hgt)
  case string => exact lt_asymm (of_decide_eq_true hlt) (of_decide_eq_true hgt)
  case other => cases hlt

/-- Values of one type are in order as their keys are, NaN excepted. -/
theorem compare_or {r s t : Value} (hs : r.kind = s.kind) (ht : r.kind = t.kind)
    (hnan : t ≠ .float64 none) (hlt : compare r s false = true) :
    compare r t false = true ∨ compare t s false = true := by
  cases r <;> cases s <;> try cases hs
  case int64 n m =>
    cases t <;> try cases ht
    case int64 k =>
      exact ((lt_or_ge n k).imp_right fun h => h.trans_lt (of_decide_eq_true hlt)).imp
        decide_eq_true decide_eq_true
  case float64 x y =>
    cases t <;> try cases ht
    case float64 z =>
      obtain ⟨a, b, rfl, rfl, hab⟩ := GoFloat.less_iff.1 hlt
      cases z with
      | none => exact absurd rfl hnan
      | some c =>
        exact ((lt_or_ge a c).imp_right fun h => h.trans_lt hab).imp decide_eq_true decide_eq_true
  case string x y =>
    cases t <;> try cases ht
    case string z =>
      exact ((lt_or_ge (bytesKey x) (bytesKey z)).imp_right fun h =>
        h.trans_lt (of_decide_eq_true hlt)).imp decide_eq_true decide_eq_true
  case other => cases hlt

theorem negative_or {r t : Value} (hneg : r.Negative) (ht : r.kind = t.kind)
    (hnan : t ≠ .float64 none) : compare r t false = true ∨ t.Negative := by
  cases r with
  | int64 n =>
    cases t <;> try cases ht
    case int64 k => exact (lt_or_ge n k).imp decide_eq_true fun h => h.trans_lt hneg
  | float64 x =>
    cases t <;> try cases ht
    case float64 z => exact compare_or (s := .float64 (some 0)) rfl rfl hnan hneg
  | string s => exact hneg.elim
  | other => exact hneg.elim

theorem compare_nan {r : Value} (h : r.kind = .float64) :
    compare r (.float64 none) false = false := by
  cases r <;> try cases h
  case float64 x => cases x <;> rfl

/-- When a third value is in order with one of two that are in order -/
theorem compare_or_iff {r s t : Value} (hlt : compare r s false = true) :
    (compare r t false = true ∨ compare t s false = true) ↔
      (t = .float64 none → r.kind ≠ t.kind) ∧
        (r.kind = s.kind → r.kind = t.kind ∨ r.Negative ∨ t.Negative) := by
  by_cases ht : r.kind = t.kind
  · by_cases hnan : t = .float64 none
    · subst hnan
      refine iff_of_false ?_ fun h => h.1 rfl ht
      rw [compare_nan ht, or_iff_right Bool.false_ne_true]
      cases s <;> exact Bool.false_ne_true
    · refine iff_of_true ?_ ⟨fun h => absurd h hnan, fun _ => .inl ht⟩
      by_cases hs : r.kind = s.kind
      · exact compare_or hs ht hnan hlt
      · have hts : t.kind ≠ s.kind := fun h => hs (ht.trans h)
        rw [compare_of_ne hts]
        exact negative_or ((compare_of_ne hs).1 hlt) ht hnan
  · rw [compare_of_ne ht]
    by_cases hs : r.kind = s.kind
    · rw [compare_of_ne fun h => ht (hs.trans h.symm)]
      exact ⟨fun h => ⟨fun _ => ht, fun _ => .inr h⟩, fun h => (h.2 hs).resolve_left ht⟩
    · exact iff_of_true (.inl ((compare_of_ne hs).1 hlt)) ⟨fun _ => ht, fun h => absurd h hs⟩

abbrev Row := AList fun _ : Text => Value

/-- `row[col]`, nil if it is missing -/
def Row.value (row : Row) (col : Text) : Value := (row.lookup col).getD .other

/-- `applyPagination`; `none` if the bounds of the slice are violated -/
def applyPagination (data : List Row) (offset limit : ℤ) : Option (List Row) :=
  let start := offset
  if (data.length : ℤ) ≤ start then some []
  else
    let stop := Duration.wrap (start + limit)
    let stop := if limit ≤ 0 ∨ (data.length : ℤ) < stop then (data.length : ℤ) else stop
    if 0 ≤ start ∧ start ≤ stop then some ((data.take stop.toNat).drop start.toNat) else none

structure CrossShardQuery where
  orderBy : Text := []
  desc : Bool := false
  limit : ℤ := 0
  offset : ℤ := 0

/-- What `Exec` receives: the rows of a shard, an error, or the end of its context -/
inductive Arrival where
  | data (rows : List Row)
  | failed
  | ctxDone

inductive Outcome where
  | rows (rows : List Row)
  | cancelled
  | panicked

namespace CrossShardQuery

/-- The loop that collects the rows; `none` if the context ends -/
def collect : List Arrival → (all : List Row) → Option (List Row)
  | [], all => some all
  | .data rows :: rest, all => collect rest (all ++ rows)
  | .failed :: rest, all => collect rest all
  | .ctxDone :: _, _ => none

variable (q : CrossShardQuery)

/-- The comparison that `sort.Slice` is given -/
def less (r s : Row) : Bool := compare (r.value q.orderBy) (s.value q.orderBy) q.desc

/-- `Exec` for what arrives from the shards, in this order -/
def exec (σ : SliceSort Row) (arrivals : List Arrival) : Outcome :=
  match collect arrivals [] with
  | none => .cancelled
  | some all =>
    let all := if q.orderBy ≠ [] then σ.sort q.less all else all
    match applyPagination all q.offset q.limit with
    | none => .panicked
    | some page => .rows page

/-- Rows `offset` to `offset + limit`, all of them from `offset` on without a limit -/
def page (rows : List Row) : List Row :=
  let rows := rows.drop q.offset.toNat
  if q.limit ≤ 0 then rows else rows.take q.limit.toNat

/-- The rows whose comparison is a strict weak order -/
structure Comparable (rows : List Row) : Prop where
  ascending : q.desc = true → ∀ r ∈ rows, r.value q.orderBy = .other
  /-- numbers below zero are of one type -/
  negative : ∀ r ∈ rows, ∀ s ∈ rows, (r.value q.orderBy).Negative → (s.value q.orderBy).Negative →
    (r.value q.orderBy).kind = (s.value q.orderBy).kind
  /-- if two rows are in order, there is no NaN of the type of the first; and if they are of one
  type, a row of another type is in order with one of them -/
  between : ∀ r ∈ rows, ∀ s ∈ rows,
    compare (r.value q.orderBy) (s.value q.orderBy) false = true → ∀ t ∈ rows,
      (t.value q.orderBy = .float64 none →
        (r.value q.orderBy).kind ≠ (t.value q.orderBy).kind) ∧
      ((r.value q.orderBy).kind = (s.value q.orderBy).kind →
        (r.value q.orderBy).kind = (t.value q.orderBy).kind ∨ (r.value q.orderBy).Negative ∨
          (t.value q.orderBy).Negative)

/-- The offset is not negative, and it is behind the last of the rows or the end of the page is an
`int`. -/
structure HasBounds (rows : ℕ) : Prop where
  offset : 0 ≤ q.offset
  stop : (rows : ℤ) ≤ q.offset ∨ q.limit ≤ 0 ∨ q.offset + q.limit < 2 ^ 63

variable {q}

theorem strictWeakOn_less_iff {rows : List Row} :
    StrictWeakOn q.less rows ↔ q.Comparable rows := by
  cases hdesc : q.desc with
  | true =>
    constructor
    · intro h
      have hother : ∀ r ∈ rows, r.value q.orderBy = .other := by
        intro r hr
        have hirrefl := h.irrefl r hr
        rw [less, hdesc] at hirrefl
        exact eq_other_of_compare hirrefl
      refine ⟨fun _ => hother, fun r hr s hs hneg => ?_, fun r hr s hs hlt => ?_⟩
      · rw [hother r hr] at hneg
        exact hneg.elim
      · rw [hother r hr] at hlt
        cases hlt
    · intro h
      refine .of_key (fun _ => 0) fun r hr s _ => ?_
      rw [less, h.ascending hdesc r hr]
      rfl
  | false =>
    have hless (r s : Row) :
        q.less r s = compare (r.value q.orderBy) (s.value q.orderBy) false := by
      rw [less, hdesc]
    simp only [strictWeakOn_iff, hless]
    constructor
    · rintro ⟨hasymm, hsplit⟩
      refine ⟨fun h => ?_, fun r hr s hs hneg hneg' => ?_, fun r hr s hs hlt t ht => ?_⟩
      · rw [hdesc] at h
        cases h
      · by_contra hne
        have hgt := hasymm r hr s hs ((compare_of_ne hne).2 hneg)
        rw [(compare_of_ne (Ne.symm hne)).2 hneg'] at hgt
        cases hgt
      · exact (compare_or_iff hlt).1 (hsplit r hr s hs hlt t ht)
    · intro h
      refine ⟨fun r hr s hs hlt => ?_, fun r hr s hs hlt t ht => ?_⟩
      · by_cases hkind : (r.value q.orderBy).kind = (s.value q.orderBy).kind
        · exact compare_asymm hkind hlt
        · rw [Bool.eq_false_iff]
          intro hgt
          exact hkind (h.negative r hr s hs ((compare_of_ne hkind).1 hlt)
            ((compare_of_ne (Ne.symm hkind)).1 hgt))
      · exact (compare_or_iff hlt).2 (h.between r hr s hs hlt t ht)

theorem applyPagination_eq {rows : List Row} (h : q.HasBounds rows.length) :
    applyPagination rows q.offset q.limit = some (q.page rows) := by
  obtain ⟨hoffset, hstop⟩ := h
  rw [applyPagination]
  dsimp only
  by_cases hlen : (rows.length : ℤ) ≤ q.offset
  · have hnone : rows.drop q.offset.toNat = [] := List.drop_eq_nil_of_le (by omega)
    rw [if_pos hlen, page, hnone]
    simp
  · rw [if_neg hlen]
    by_cases hlimit : q.limit ≤ 0
    · have hpage : q.page rows = rows.drop q.offset.toNat := if_pos hlimit
      simp only [hlimit, true_or, if_true]
      rw [if_pos ⟨hoffset, by omega⟩, hpage, Int.toNat_natCast, List.take_length]
    · have hwrap : Duration.wrap (q.offset + q.limit) = q.offset + q.limit :=
        Duration.wrap_of_lt (by omega) ((hstop.resolve_left hlen).resolve_left hlimit)
      have hpage : q.page rows = (rows.drop q.offset.toNat).take q.limit.toNat := if_neg hlimit
      rw [hwrap, hpage]
      split_ifs with hall hbounds hbounds
      · rw [Int.toNat_natCast, List.take_length, List.take_of_length_le]
        rw [List.length_drop]
        omega
      · omega
      · rw [List.drop_take]
        congr 2
        omega
      · omega

/-- Otherwise a bound of the slice is violated. -/
theorem applyPagination_eq_none {rows : List Row} (h : ¬ q.HasBounds rows.length)
    (hoffset : q.offset < 2 ^ 63) (hlimit : q.limit < 2 ^ 63) :
    applyPagination rows q.offset q.limit = none := by
  have hcases : q.offset < 0 ∨ q.offset < rows.length ∧ 0 < q.limit ∧
      2 ^ 63 ≤ q.offset + q.limit := by
    by_contra hin
    exact h ⟨by omega, by omega⟩
  rw [applyPagination]
  dsimp only
  obtain hneg | ⟨hlen, hpos, hover⟩ := hcases
  · rw [if_neg (by omega), if_neg fun hstart => absurd hstart.1 (not_le.2 hneg)]
  · -- the sum wraps around to a negative number
    obtain ⟨n, hwrap, hlow, hhigh⟩ := Duration.wrap_spec (q.offset + q.limit)
    rw [if_neg (not_le.2 hlen), if_neg]
    rw [if_neg (by omega)]
    omega

/-- **When the result is a page of the sorted rows**, and the comparison a strict weak order on
them: exactly if the rows can be compared and the page has bounds. -/
theorem exec_spec (q : CrossShardQuery) (σ : SliceSort Row) {arrivals : List Arrival}
    {rows : List Row} (hoffset : q.offset < 2 ^ 63) (hlimit : q.limit < 2 ^ 63)
    (harrivals : collect arrivals [] = some rows) :
    ((q.orderBy ≠ [] → StrictWeakOn q.less rows) ∧
      ∃ sorted, sorted.Perm rows ∧
        (q.orderBy ≠ [] → sorted.Pairwise fun r s => q.less s r = false) ∧
        q.exec σ arrivals = .rows (q.page sorted)) ↔
      (q.orderBy ≠ [] → q.Comparable rows) ∧ q.HasBounds rows.length := by
  rw [← strictWeakOn_less_iff]
  refine and_congr_right fun hweak => ?_
  obtain ⟨sorted, hsorted⟩ :
      ∃ sorted, sorted = if q.orderBy ≠ [] then σ.sort q.less rows else rows := ⟨_, rfl⟩
  have hperm : sorted.Perm rows := by
    rw [hsorted]
    split_ifs
    · exact σ.perm q.less rows
    · exact .refl rows
  rw [exec, harrivals]
  dsimp only
  rw [← hsorted]
  constructor
  · rintro ⟨_, -, -, hexec⟩
    by_contra hbounds
    rw [← hperm.length_eq] at hbounds
    rw [applyPagination_eq_none hbounds hoffset hlimit] at hexec
    cases hexec
  · intro hbounds
    rw [← hperm.length_eq] at hbounds
    refine ⟨sorted, hperm, fun hcol => ?_, by rw [applyPagination_eq hbounds]⟩
    rw [hsorted, if_pos hcol]
    exact σ.sorted q.less rows (hweak hcol)

/-- A row with a number -/
def row (n : ℤ) : Row := AList.singleton ("id" : Text) (.int64 n)

/-- Two rows from two shards, one without the column, from the second one on -/
def fromSecond : CrossShardQuery where
  orderBy := "id"
  offset := 1

theorem exec_spec_fromSecond :
    ∃ sorted : List Row, sorted.Perm [row 2, ∅] ∧
      fromSecond.exec .insertion [.data [row 2], .failed, .data [∅]] =
        .rows (fromSecond.page sorted) := by
  have hrows : collect [.data [row 2], .failed, .data [∅]] [] = some [row 2, ∅] := rfl
  have hless : ∀ r ∈ [row 2, ∅], ∀ s ∈ [row 2, ∅],
      ¬ compare (r.value fromSecond.orderBy) (s.value fromSecond.orderBy) false = true := by
    decide
  have hneg : ∀ r ∈ [row 2, ∅], ¬ (r.value fromSecond.orderBy).Negative :=
    List.forall_mem_cons.2 ⟨show ¬ (2 : ℤ) < 0 by decide, List.forall_mem_singleton.2 id⟩
  obtain ⟨-, sorted, hperm, -, hexec⟩ := (exec_spec fromSecond .insertion (by decide) (by decide)
    hrows).2 ⟨fun _ => ⟨fun h => absurd h (by decide), fun r hr s hs h => absurd h (hneg r hr),
      fun r hr s hs h => absurd h (hless r hr s hs)⟩, ⟨by decide, .inr (.inl (by decide))⟩⟩
  exact ⟨sorted, hperm, hexec⟩

/-- **Rows are not in order**: in descending order a row comes before itself; rows without the
column are between no others; and a page may begin before the first row or end beyond the largest
`int`. -/
theorem exec_astray :
    less { orderBy := "id", desc := true } (row 1) (row 1) = true ∧
    ¬ StrictWeakOn (less { orderBy := "id" }) [row 0, ∅, row 1] ∧
    exec { offset := -1 } .insertion [.data [row 1]] = .panicked ∧
    exec { offset := 1, limit := 2 ^ 63 - 1 } .insertion [.data [row 1], .data [row 2]] =
      .panicked := by
  refine ⟨by decide, fun h => ?_, rfl, rfl⟩
  have := (h.incomp (row 0) (by simp) ∅ (by simp) (row 1) (by simp) (by decide) (by decide)
    (by decide) (by decide)).1
  revert this
  decide

end CrossShardQuery

end CrossShard

end Orm

end GinRpc
