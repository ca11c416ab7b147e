import GinRpc.Data.AList
import Mathlib.Tactic

/-!
# The AOI manager

Model of `Manager` in `plugins/gameserver/aoi/aoi.go`.  Coordinates and the size of a cell are
`float64` in the source; the model is over the operations that it uses on them, with an instance
for `Float` and one for the exact rationals.  Indices of cells are 64 bits wide, and a number that
is too large for them is converted to the smallest one, as amd64 does.

The manager keeps three maps: the cells, each a map from the entities in it, the entities, and the
cell of each entity.  The first two hold pointers to the same entities, and `moveLocked` changes an
entity in place; so the maps of the model hold addresses, and the entities are on a heap.  Every
method holds the lock throughout, so a run is a sequence of operations.

The maps are iterated in no particular order in the source, and in the order of a list here: only
statements up to a permutation are about the source.
-/

namespace GinRpc

namespace Aoi

/-- What the source does with coordinates. -/
class Coord (α : Type) extends Div α, Mul α where
  le : α → α → Bool
  lt : α → α → Bool
  /-- `a != b` -/
  ne : α → α → Bool
  /-- `float64(c)` -/
  ofInt : Int64 → α
  /-- `int(q)`, which drops the fraction -/
  toInt : α → Int64

instance : Coord Float where
  le a b := a ≤ b
  lt a b := a < b
  ne a b := a != b
  ofInt c := .ofModel (.ofInt64 c)
  toInt q :=
    if -9223372036854775808 ≤ q ∧ q < 9223372036854775808 then q.toModel.toInt64
    else Int64.minValue

instance : Coord ℚ where
  le a b := a ≤ b
  lt a b := a < b
  ne a b := a ≠ b
  ofInt c := c.toInt
  toInt q :=
    let c := q.num.tdiv q.den
    if -2 ^ 63 ≤ c ∧ c < 2 ^ 63 then Int64.ofInt c else Int64.minValue

structure Entity (α : Type) where
  id : Int64
  x : α
  y : α
  deriving DecidableEq, Repr

structure CellKey where
  cx : Int64
  cy : Int64
  deriving DecidableEq, Repr

/-- The entities of a cell, by ID. -/
abbrev Cell := AList fun _ : Int64 => ℕ

structure Manager (α : Type) where
  cellSize : α
  cells : AList fun _ : CellKey => Cell := ∅
  entities : AList fun _ : Int64 => ℕ := ∅
  entityCell : AList fun _ : Int64 => CellKey := ∅
  /-- The entities by address, and the first address that is free. -/
  heap : ℕ → Entity α
  free : ℕ := 0

section

variable {α : Type} [Coord α]

def floorDiv (v d : α) : Int64 :=
  let c := Coord.toInt (v / d)
  if Coord.lt v (Coord.ofInt 0) ∧ Coord.ne (Coord.ofInt c * d) v then c - 1 else c

def newManager (cellSize : α) : Manager α where
  cellSize := if Coord.le cellSize (Coord.ofInt 0) then Coord.ofInt 100 else cellSize
  heap := fun _ => ⟨0, Coord.ofInt 0, Coord.ofInt 0⟩

end

/-- The cells around a cell and itself, in the order of the loops of `aroundCellLocked`. -/
def CellKey.square (k : CellKey) : List CellKey :=
  [-1, 0, 1].flatMap fun dx => [-1, 0, 1].map fun dy => ⟨k.cx + dx, k.cy + dy⟩

namespace Manager

variable {α : Type} [Coord α] (m : Manager α)

def keyAt (x y : α) : CellKey := ⟨floorDiv x m.cellSize, floorDiv y m.cellSize⟩

/-- `m.cellAt(k)`, without the effect that an empty cell is stored. -/
def cellAt (k : CellKey) : Cell := (m.cells.lookup k).getD ∅

/-- `m.cellAt(k).entities[id] = e`. -/
def store (k : CellKey) (id : Int64) (e : ℕ) : Manager α :=
  { m with cells := m.cells.insert k ((m.cellAt k).insert id e) }

/-- `if c := m.cells[k]; c != nil { delete(c.entities, id) }`. -/
def discard (k : CellKey) (id : Int64) : Manager α :=
  match m.cells.lookup k with
  | some c => { m with cells := m.cells.insert k (c.erase id) }
  | none => m

/-- `e := &Entity{...}`. -/
def alloc (e : Entity α) : Manager α :=
  { m with heap := Function.update m.heap m.free e, free := m.free + 1 }

/-- `e.X, e.Y = x, y`. -/
def setPos (e : ℕ) (x y : α) : Manager α :=
  { m with heap := Function.update m.heap e { m.heap e with x := x, y := y } }

/-- The cell of an entity; the zero value if there is none. -/
def cellOf (id : Int64) : CellKey := (m.entityCell.lookup id).getD ⟨0, 0⟩

def moveLocked (id : Int64) (x y : α) : Manager α :=
  match m.entities.lookup id with
  | none => m
  | some e =>
    let nk := m.keyAt x y
    let ok2 := m.cellOf id
    let m := m.setPos e x y
    if ok2 ≠ nk then
      let m := (m.discard ok2 id).store nk id e
      { m with entityCell := m.entityCell.insert id nk }
    else m

def enter (id : Int64) (x y : α) : Manager α :=
  match m.entities.lookup id with
  | some _ => m.moveLocked id x y
  | none =>
    let e := m.free
    let k := m.keyAt x y
    let m := (m.alloc ⟨id, x, y⟩).store k id e
    { m with entities := m.entities.insert id e, entityCell := m.entityCell.insert id k }

def move (id : Int64) (x y : α) : Manager α := m.moveLocked id x y

def leave (id : Int64) : Manager α × Bool :=
  match m.entities.lookup id with
  | none => (m, false)
  | some e =>
    let m := m.discard (m.cellOf id) (m.heap e).id
    ({ m with entities := m.entities.erase id, entityCell := m.entityCell.erase id }, true)

def get (id : Int64) : Option (Entity α) := (m.entities.lookup id).map m.heap

def count : ℕ := m.entities.entries.length

def aroundCellLocked (k : CellKey) (excludeID : Int64) : List (Entity α) :=
  k.square.flatMap fun k =>
    match m.cells.lookup k with
    | none => []
    | some c => (c.entries.filter fun e => e.1 ≠ excludeID).map fun e => m.heap e.2

def around (id : Int64) : List (Entity α) :=
  match m.entityCell.lookup id with
  | none => []
  | some k => m.aroundCellLocked k id

def aroundPoint (x y : α) : List (Entity α) := m.aroundCellLocked (m.keyAt x y) (-1)

end Manager

/-- A call that changes the manager. -/
inductive Op (α : Type) where
  | enter (id : Int64) (x y : α)
  | move (id : Int64) (x y : α)
  | leave (id : Int64)
  deriving DecidableEq, Repr

namespace Manager

variable {α : Type} [Coord α] (m : Manager α)

def apply : Op α → Manager α
  | .enter id x y => m.enter id x y
  | .move id x y => m.move id x y
  | .leave id => (m.leave id).1

/-- A sequence of calls. -/
def run (ops : List (Op α)) : Manager α := ops.foldl apply m

end Manager

namespace Manager

/-! ### What the updates change -/

variable {α : Type} {m : Manager α} {k d : CellKey} {id i : Int64} {e f : ℕ}

theorem cellAt_store :
    (m.store k id e).cellAt d = if d = k then (m.cellAt k).insert id e else m.cellAt d := by
  rw [cellAt, store, AList.lookup_insert_apply]
  split_ifs
  · rfl
  · rfl

theorem discard_eq : m.discard k id = { m with cells := (m.discard k id).cells } := by
  rw [discard]
  split <;> rfl

theorem cellAt_discard :
    (m.discard k id).cellAt d = if d = k then (m.cellAt k).erase id else m.cellAt d := by
  rw [discard]
  split
  next c hc =>
    have : m.cellAt k = c := by rw [cellAt, hc, Option.getD_some]
    rw [cellAt, AList.lookup_insert_apply, this]
    split_ifs
    · rfl
    · rfl
  next hc =>
    split_ifs with h
    · -- an empty cell stays as it is
      have : m.cellAt k = ∅ := by rw [cellAt, hc, Option.getD_none]
      rw [h, this]
      exact AList.ext rfl
    · rfl

end Manager

/-! ### Division -/

/-- The index of a cell, and those of the cells around it, are 64 bits wide. -/
def Fits (i : ℤ) : Prop := -2 ^ 63 < i ∧ i + 1 < 2 ^ 63

instance (i : ℤ) : Decidable (Fits i) := inferInstanceAs (Decidable (_ ∧ _))

theorem tdiv_of_nonneg {q : ℚ} (h : 0 ≤ q) : q.num.tdiv q.den = ⌊q⌋ := by
  rw [Int.tdiv_eq_ediv_of_nonneg (Rat.num_nonneg.2 h), Rat.floor_def']

theorem tdiv_of_nonpos {q : ℚ} (h : q ≤ 0) : q.num.tdiv q.den = ⌈q⌉ := by
  have hneg := tdiv_of_nonneg (neg_nonneg.2 h)
  rw [Rat.num_neg_eq_neg_num, Rat.den_neg_eq_den, Int.neg_tdiv, Int.floor_neg] at hneg
  exact neg_injective hneg

/-- Dropping the fraction and the correction of `floorDiv` round down, for every dividend. -/
theorem floor_eq_tdiv {v d : ℚ} (hd : 0 < d) :
    ⌊v / d⌋ = if v < 0 ∧ ((v / d).num.tdiv (v / d).den : ℤ) * d ≠ v
      then (v / d).num.tdiv (v / d).den - 1 else (v / d).num.tdiv (v / d).den := by
  rcases lt_or_ge v 0 with hv | hv
  · rw [tdiv_of_nonpos (div_nonpos_of_nonpos_of_nonneg hv.le hd.le)]
    split_ifs with h
    · -- the quotient is no integer
      have hne : v / d ≠ ⌈v / d⌉ := fun heq => h.2 (by rw [← heq, div_mul_cancel₀ v hd.ne'])
      rw [Int.floor_eq_iff]
      push_cast
      exact ⟨by linarith [Int.ceil_lt_add_one (v / d)],
        by linarith [lt_of_le_of_ne (Int.le_ceil (v / d)) hne]⟩
    · have heq : (⌈v / d⌉ : ℚ) = v / d := by
        rw [eq_div_iff hd.ne']
        by_contra hne
        exact h ⟨hv, hne⟩
      rw [← heq, Int.floor_intCast, Int.ceil_intCast]
  · rw [if_neg fun h => absurd h.1 (not_lt.2 hv), tdiv_of_nonneg (div_nonneg hv hd.le)]

/-- `floorDiv` rounds down. -/
theorem toInt_floorDiv {v d : ℚ} (hd : 0 < d) (h : Fits ⌊v / d⌋) :
    (floorDiv v d).toInt = ⌊v / d⌋ := by
  have hfloor := floor_eq_tdiv hd (v := v)
  obtain ⟨hlow, hhigh⟩ := h
  set c := (v / d).num.tdiv (v / d).den
  have hrange : -2 ^ 63 ≤ c ∧ c < 2 ^ 63 := by
    split_ifs at hfloor <;> omega
  have htoInt : (Int64.ofInt c).toInt = c :=
    Int64.toInt_ofInt_of_le hrange.1 hrange.2
  have hdef : floorDiv v d =
      if v < 0 ∧ (c : ℚ) * d ≠ v then Int64.ofInt c - 1 else Int64.ofInt c := by
    have hc : Coord.toInt (v / d) = Int64.ofInt c := if_pos hrange
    rw [floorDiv, hc]
    simp only [Coord.lt, Coord.ne, Coord.ofInt, htoInt, decide_eq_true_eq]
    rfl
  rw [hdef, hfloor]
  split_ifs with hneg
  · rw [if_pos hneg] at hfloor
    have hone : Int64.toInt 1 = 1 := rfl
    rw [Int64.toInt_sub, htoInt, hone]
    exact Int.bmod_eq_of_le (by omega) (by omega)
  · exact htoInt

-- without the correction both sides of zero would share a cell
example : floorDiv (-1 / 2 : ℚ) 1 = -1 ∧ floorDiv (-1 : ℚ) 1 = -1 ∧ floorDiv 0.9 0.1 = 9 := by
  decide +kernel

end Aoi

end GinRpc
