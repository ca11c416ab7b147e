import GinRpc.Aoi.Manager

/-!
# What the AOI manager is for

A world is a map from the entities to their positions, and `Around` asks it for the entities whose
cells touch the cell of an entity.

* `World.neighbours` : the answer, computed from the positions alone.
* `Manager.Indexed` : the manager represents a world.  Each operation keeps this.
* `Manager.faithful_run` : after every sequence of operations, each entity is in the cell of its
  position and in no other, and `Around` gives the neighbours, if no index of a cell overflows.
* `aroundPoint_perm_iff` : `AroundPoint` gives all entities around a point, unless the one with the
  number -1 is among them or an index wraps around.
-/

namespace GinRpc

namespace Aoi

/-! ### Worlds -/

/-- The positions of the entities. -/
abbrev World (α : Type) := AList fun _ : Int64 => α × α

/-- The cell that the manager finds for a position. -/
def gridKey {α : Type} [Coord α] (cellSize : α) (p : α × α) : CellKey :=
  ⟨floorDiv p.1 cellSize, floorDiv p.2 cellSize⟩

def CellKey.index (k : CellKey) : ℤ × ℤ := (k.cx.toInt, k.cy.toInt)

/-- The cell of a position on the plane. -/
def floorKey (cellSize : ℚ) (p : ℚ × ℚ) : ℤ × ℤ := (⌊p.1 / cellSize⌋, ⌊p.2 / cellSize⌋)

/-- Two cells that differ by at most 1 in both axes. -/
def Touches (k d : ℤ × ℤ) : Prop := |d.1 - k.1| ≤ 1 ∧ |d.2 - k.2| ≤ 1

instance (k d : ℤ × ℤ) : Decidable (Touches k d) := inferInstanceAs (Decidable (_ ∧ _))

theorem Touches.symm {k d : ℤ × ℤ} (h : Touches k d) : Touches d k :=
  ⟨abs_sub_comm d.1 k.1 ▸ h.1, abs_sub_comm d.2 k.2 ▸ h.2⟩

def entityAt {α : Type} (id : Int64) (p : α × α) : Entity α := ⟨id, p.1, p.2⟩

namespace World

variable {α : Type} (w : World α)

def apply : Op α → World α
  | .enter id x y => w.insert id (x, y)
  | .move id x y => if id ∈ w then w.insert id (x, y) else w
  | .leave id => w.erase id

def run (ops : List (Op α)) : World α := ops.foldl apply w

/-- The other entities whose cell touches the cell of `id`. -/
def neighbours (cell : α × α → ℤ × ℤ) (id : Int64) : List (Entity α) :=
  match w.lookup id with
  | none => []
  | some p =>
    (w.entries.filter fun e => e.1 ≠ id ∧ Touches (cell p) (cell e.2)).map
      fun e => entityAt e.1 e.2

/-- The entities whose cell touches the cell of a point. -/
def nearPoint (cell : α × α → ℤ × ℤ) (p : α × α) : List (Entity α) :=
  (w.entries.filter fun e => Touches (cell p) (cell e.2)).map fun e => entityAt e.1 e.2

end World

theorem floor_div_le {c u v : ℚ} (hc : 0 < c) (h : |u - v| ≤ c) : |⌊u / c⌋ - ⌊v / c⌋| ≤ 1 := by
  -- one direction, for both orders
  have hle : ∀ {u v : ℚ}, u - v ≤ c → ⌊u / c⌋ ≤ ⌊v / c⌋ + 1 := by
    intro u v h
    rw [← Int.floor_add_one]
    refine Int.floor_le_floor ?_
    rw [div_add_one hc.ne', div_le_div_iff_of_pos_right hc]
    linarith
  obtain ⟨hlow, hhigh⟩ := abs_le.1 h
  have := hle hhigh
  have := hle (u := v) (v := u) (by linarith)
  rw [abs_le]
  omega

/-- Positions that are not further apart than the size of a cell are in cells that touch. -/
theorem touches_floorKey {c : ℚ} {p q : ℚ × ℚ} (hc : 0 < c) (hx : |p.1 - q.1| ≤ c)
    (hy : |p.2 - q.2| ≤ c) : Touches (floorKey c p) (floorKey c q) :=
  ⟨floor_div_le hc (abs_sub_comm p.1 q.1 ▸ hx), floor_div_le hc (abs_sub_comm p.2 q.2 ▸ hy)⟩

/-- The loop over an axis reaches the indices that differ by at most 1 -/
theorem exists_step {a b : Int64} (h : |b.toInt - a.toInt| ≤ 1) : ∃ i ∈ [-1, 0, 1], a + i = b := by
  refine ⟨b - a, ?_, by grind⟩
  have hsub : (b - a).toInt = b.toInt - a.toInt := by
    rw [Int64.toInt_sub]
    rw [abs_le] at h
    exact Int.bmod_eq_of_le (by omega) (by omega)
  have hcases : (b - a).toInt = -1 ∨ (b - a).toInt = 0 ∨ (b - a).toInt = 1 := by
    rw [hsub]
    rw [abs_le] at h
    omega
  simpa [← Int64.toInt_inj] using hcases

/-- and no others, unless it wraps around. -/
theorem abs_sub_le_of_step {a i : Int64} (ha : Fits a.toInt) (hi : i ∈ [-1, 0, 1]) :
    |(a + i).toInt - a.toInt| ≤ 1 := by
  have hcases : i.toInt = -1 ∨ i.toInt = 0 ∨ i.toInt = 1 := by
    simpa [← Int64.toInt_inj] using hi
  obtain ⟨hlow, hhigh⟩ := ha
  rw [Int64.toInt_add, Int.bmod_eq_of_le (by omega) (by omega), abs_le]
  omega

theorem CellKey.mem_square {k d : CellKey} : d ∈ k.square ↔
    (∃ i ∈ [-1, 0, 1], k.cx + i = d.cx) ∧ ∃ j ∈ [-1, 0, 1], k.cy + j = d.cy := by
  obtain ⟨cx, cy⟩ := k
  obtain ⟨dx, dy⟩ := d
  simp only [square, List.mem_flatMap, List.mem_map, CellKey.mk.injEq]
  constructor
  · rintro ⟨i, hi, j, hj, rfl, rfl⟩
    exact ⟨⟨i, hi, rfl⟩, j, hj, rfl⟩
  · rintro ⟨⟨i, hi, rfl⟩, j, hj, rfl⟩
    exact ⟨i, hi, j, hj, rfl, rfl⟩

theorem CellKey.mem_square_of_touches {k d : CellKey} (h : Touches k.index d.index) :
    d ∈ k.square :=
  mem_square.2 ⟨exists_step h.1, exists_step h.2⟩

theorem CellKey.mem_square_iff {k d : CellKey} (hx : Fits k.cx.toInt) (hy : Fits k.cy.toInt) :
    d ∈ k.square ↔ Touches k.index d.index := by
  refine ⟨fun h => ?_, mem_square_of_touches⟩
  obtain ⟨⟨i, hi, hcx⟩, j, hj, hcy⟩ := mem_square.1 h
  have hnx := abs_sub_le_of_step hx hi
  have hny := abs_sub_le_of_step hy hj
  rw [hcx] at hnx
  rw [hcy] at hny
  exact ⟨hnx, hny⟩

theorem CellKey.nodup_square (k : CellKey) : k.square.Nodup := by
  simp [square]

namespace Manager

variable {α : Type} [Coord α] {m : Manager α} {w : World α}

/-- The manager represents a world. -/
structure Indexed (m : Manager α) (w : World α) : Prop where
  live : ∀ id, m.get id = (w.lookup id).map (entityAt id)
  entityCell : ∀ id, m.entityCell.lookup id = (w.lookup id).map (gridKey m.cellSize)
  stored : ∀ k id e, (m.cellAt k).lookup id = some e ↔
    m.entities.lookup id = some e ∧ m.entityCell.lookup id = some k
  allocated : ∀ id e, m.entities.lookup id = some e → e < m.free

theorem indexed_newManager (cellSize : α) : (newManager cellSize).Indexed ∅ where
  live _ := rfl
  entityCell _ := rfl
  stored k id e := by simp [newManager, cellAt]
  allocated _ _ h := by cases h

theorem keyAt_eq (m : Manager α) (x y : α) : m.keyAt x y = gridKey m.cellSize (x, y) := rfl

/-- What is at the address of a live entity. -/
theorem Indexed.heap (h : m.Indexed w) {id : Int64} {e : ℕ}
    (he : m.entities.lookup id = some e) :
    ∃ p, w.lookup id = some p ∧ m.heap e = entityAt id p := by
  have := h.live id
  rw [get, he, Option.map_some, eq_comm, Option.map_eq_some_iff] at this
  obtain ⟨p, hp, heq⟩ := this
  exact ⟨p, hp, heq.symm⟩

theorem Indexed.lookup_eq_none (h : m.Indexed w) {id : Int64} :
    m.entities.lookup id = none ↔ w.lookup id = none := by
  rw [← Option.map_eq_none_iff (f := m.heap), ← get, h.live, Option.map_eq_none_iff]

theorem Indexed.mem_iff (h : m.Indexed w) {id : Int64} :
    id ∈ w ↔ ∃ e, m.entities.lookup id = some e := by
  rw [← AList.lookup_isSome, Option.isSome_iff_ne_none, ne_eq, ← h.lookup_eq_none, ← ne_eq,
    Option.ne_none_iff_exists']

/-- The address of an entity is its own. -/
theorem Indexed.eq_of_address (h : m.Indexed w) {i id : Int64} {e : ℕ}
    (hi : m.entities.lookup i = some e) (hid : m.entities.lookup id = some e) : i = id := by
  obtain ⟨p, -, hp⟩ := h.heap hi
  obtain ⟨q, -, hq⟩ := h.heap hid
  exact congrArg Entity.id (hp.symm.trans hq)

/-- What a cell says about a live entity. -/
theorem Indexed.lookup_cellAt (h : m.Indexed w) {id : Int64} {e : ℕ} {k : CellKey}
    (he : m.entities.lookup id = some e) (hk : m.entityCell.lookup id = some k) (d : CellKey) :
    (m.cellAt d).lookup id = if d = k then some e else none := by
  split_ifs with hd
  · rw [hd]
    exact (h.stored k id e).2 ⟨he, hk⟩
  · rw [Option.eq_none_iff_forall_ne_some]
    intro f hf
    exact hd (Option.some.inj (((h.stored d id f).1 hf).2.symm.trans hk))

/-- An entity that is put at position `p`, whether it is new or moved, and nothing else. -/
theorem Indexed.put (h : m.Indexed w) {m' : Manager α} {id : Int64} {e : ℕ} {p : α × α}
    (hsize : m'.cellSize = m.cellSize)
    (hent : ∀ i, m'.entities.lookup i = if i = id then some e else m.entities.lookup i)
    (hcell : ∀ i, m'.entityCell.lookup i =
      if i = id then some (gridKey m.cellSize p) else m.entityCell.lookup i)
    (hstored : ∀ d i, (m'.cellAt d).lookup i =
      if i = id then if d = gridKey m.cellSize p then some e else none
      else (m.cellAt d).lookup i)
    (hheap : ∀ f, m'.heap f = if f = e then entityAt id p else m.heap f)
    (hown : ∀ i, i ≠ id → m.entities.lookup i ≠ some e) (he : e < m'.free)
    (hfree : m.free ≤ m'.free) : m'.Indexed (w.insert id p) where
  live i := by
    rw [get, hent, AList.lookup_insert_apply]
    split_ifs with hi
    · rw [Option.map_some, Option.map_some, hheap, if_pos rfl, hi]
    · rw [← h.live i, get]
      refine Option.map_congr fun f hf => ?_
      rw [hheap, if_neg]
      rintro rfl
      exact hown i hi hf
  entityCell i := by
    rw [hcell, AList.lookup_insert_apply, hsize]
    split_ifs
    · rfl
    · exact h.entityCell i
  stored d i f := by
    rw [hstored, hent, hcell]
    split_ifs with hi hd
    · rw [hd]
      exact (and_iff_left rfl).symm
    · exact iff_of_false nofun fun hk => hd (Option.some.inj hk.2).symm
    · exact h.stored d i f
  allocated i f hf := by
    rw [hent] at hf
    split_ifs at hf
    · exact Option.some.inj hf ▸ he
    · exact (h.allocated i f hf).trans_le hfree

theorem Indexed.cellOf (h : m.Indexed w) {id : Int64} {e : ℕ}
    (he : m.entities.lookup id = some e) :
    m.entityCell.lookup id = some (m.cellOf id) := by
  obtain ⟨p, hp, -⟩ := h.heap he
  rw [Manager.cellOf, h.entityCell, hp]
  rfl

theorem Indexed.moveLocked (h : m.Indexed w) {id : Int64} {e : ℕ}
    (he : m.entities.lookup id = some e) (x y : α) :
    (m.moveLocked id x y).Indexed (w.insert id (x, y)) := by
  have hk := h.cellOf he
  have hheap : ∀ f, (m.setPos e x y).heap f =
      if f = e then entityAt id (x, y) else m.heap f := by
    intro f
    obtain ⟨p, -, hp⟩ := h.heap he
    rw [setPos, hp]
    exact Function.update_apply ..
  have hown : ∀ i, i ≠ id → m.entities.lookup i ≠ some e :=
    fun i hi hie => hi (h.eq_of_address hie he)
  have hent : ∀ i, m.entities.lookup i = if i = id then some e else m.entities.lookup i := by
    intro i
    split_ifs with hi
    · rw [hi, he]
    · rfl
  rw [Manager.moveLocked, he]
  dsimp only
  rw [keyAt_eq]
  split_ifs with hne
  · -- it leaves its cell and enters another one
    have hcells : ∀ d i, ((((m.setPos e x y).discard (m.cellOf id) id).store
        (gridKey m.cellSize (x, y)) id e).cellAt d).lookup i =
          if i = id then if d = gridKey m.cellSize (x, y) then some e else none
          else (m.cellAt d).lookup i := by
      intro d i
      have hold := h.lookup_cellAt he hk d
      rw [cellAt_store, cellAt_discard, cellAt_discard, if_neg (Ne.symm hne)]
      change AList.lookup i (if _ then AList.insert id e (m.cellAt _)
        else if _ then AList.erase id (m.cellAt _) else m.cellAt d) = _
      grind
    rw [discard_eq] at hcells ⊢
    refine h.put rfl hent (fun i => AList.lookup_insert_apply) hcells hheap hown
      (h.allocated id e he) le_rfl
  · rw [not_not] at hne
    refine h.put rfl hent (fun i => ?_) (fun d i => ?_) hheap hown (h.allocated id e he) le_rfl
    · split_ifs with hi
      · rw [← hne, hi]
        exact hk
      · rfl
    · split_ifs with hi hd
      · rw [hi, hd, ← hne]
        exact (h.lookup_cellAt he hk _).trans (if_pos rfl)
      · rw [hi]
        exact (h.lookup_cellAt he hk d).trans (if_neg fun hd' => hd (hd'.trans hne))
      · rfl

theorem Indexed.enter (h : m.Indexed w) (id : Int64) (x y : α) :
    (m.enter id x y).Indexed (w.insert id (x, y)) := by
  rw [Manager.enter]
  split
  next e he => exact h.moveLocked he x y
  next hnone =>
    have hnew : ∀ d, (m.cellAt d).lookup id = none := by
      intro d
      rw [Option.eq_none_iff_forall_ne_some]
      intro e he
      exact absurd (((h.stored d id e).1 he).1.symm.trans hnone) nofun
    dsimp only
    rw [keyAt_eq]
    refine h.put rfl (fun i => AList.lookup_insert_apply) (fun i => AList.lookup_insert_apply)
      (fun d i => ?_) (fun f => Function.update_apply ..) (fun i _ hi => ?_) (Nat.lt_succ_self _)
      (Nat.le_succ _)
    · change AList.lookup i (((m.alloc ⟨id, x, y⟩).store (gridKey m.cellSize (x, y)) id
        m.free).cellAt d) = _
      have hd := hnew d
      rw [cellAt_store]
      change AList.lookup i (if _ then AList.insert id _ (m.cellAt _) else m.cellAt d) = _
      grind
    · exact absurd (h.allocated i _ hi) (lt_irrefl _)

theorem Indexed.move (h : m.Indexed w) (id : Int64) (x y : α) :
    (m.move id x y).Indexed (w.apply (.move id x y)) := by
  rw [Manager.move, World.apply]
  split_ifs with hid
  · obtain ⟨e, he⟩ := h.mem_iff.1 hid
    exact h.moveLocked he x y
  · have hnone : m.entities.lookup id = none := by
      rw [Option.eq_none_iff_forall_ne_some]
      exact fun e he => hid (h.mem_iff.2 ⟨e, he⟩)
    rw [Manager.moveLocked, hnone]
    exact h

theorem Indexed.leave (h : m.Indexed w) (id : Int64) :
    ((m.leave id).1).Indexed (w.erase id) := by
  rw [Manager.leave]
  split
  next hnone =>
    -- nothing to erase
    have hw := h.lookup_eq_none.1 hnone
    have hsame : ∀ i, (w.erase id).lookup i = w.lookup i := by
      intro i
      rw [AList.lookup_erase_apply]
      split_ifs with hi
      · rw [hi, hw]
      · rfl
    exact ⟨fun i => hsame i ▸ h.live i, fun i => hsame i ▸ h.entityCell i, h.stored,
      h.allocated⟩
  next e he =>
    obtain ⟨p, -, hp⟩ := h.heap he
    have hk := h.cellOf he
    have hcells : ∀ d i, ((m.discard (m.cellOf id) id).cellAt d).lookup i =
        if i = id then none else (m.cellAt d).lookup i := by
      intro d i
      have hold := h.lookup_cellAt he hk d
      rw [cellAt_discard]
      grind
    dsimp only
    rw [show (m.heap e).id = id by rw [hp, entityAt]]
    rw [discard_eq] at hcells ⊢
    refine ⟨fun i => ?_, fun i => ?_, fun d i f => ?_, fun i f hf => ?_⟩
    · rw [get, AList.lookup_erase_apply, AList.lookup_erase_apply]
      split_ifs
      · rfl
      · exact h.live i
    · rw [AList.lookup_erase_apply, AList.lookup_erase_apply]
      split_ifs
      · rfl
      · exact h.entityCell i
    · rw [AList.lookup_erase_apply, AList.lookup_erase_apply]
      refine Eq.congr_left (hcells d i) |>.trans ?_
      split_ifs
      · exact iff_of_false nofun fun hf => nomatch hf.1
      · exact h.stored d i f
    · rw [AList.lookup_erase_apply] at hf
      split_ifs at hf
      exact h.allocated i f hf

theorem Indexed.apply (h : m.Indexed w) (op : Op α) : (m.apply op).Indexed (w.apply op) := by
  cases op with
  | enter id x y => exact h.enter id x y
  | move id x y => exact h.move id x y
  | leave id => exact h.leave id

theorem Indexed.run (h : m.Indexed w) (ops : List (Op α)) : (m.run ops).Indexed (w.run ops) := by
  induction ops generalizing m w with
  | nil => exact h
  | cons op ops ih => exact ih (h.apply op)

/-! ### The query -/

omit [Coord α] in
theorem aroundCellLocked_eq (m : Manager α) (k : CellKey) (excludeID : Int64) :
    m.aroundCellLocked k excludeID = k.square.flatMap fun k =>
      ((m.cellAt k).entries.filter fun e => e.1 ≠ excludeID).map fun e => m.heap e.2 := by
  rw [aroundCellLocked]
  congr 1
  funext k
  rw [cellAt]
  cases m.cells.lookup k <;> rfl

theorem Indexed.mem_cell (h : m.Indexed w) {k : CellKey} {x : Int64} {a : Entity α} :
    a ∈ ((m.cellAt k).entries.filter fun e => e.1 ≠ x).map (fun e => m.heap e.2) ↔
      ∃ i q, w.lookup i = some q ∧ i ≠ x ∧ k = gridKey m.cellSize q ∧ a = entityAt i q := by
  simp only [List.mem_map, List.mem_filter, decide_eq_true_eq]
  constructor
  · rintro ⟨⟨i, e⟩, ⟨hmem, hx⟩, rfl⟩
    obtain ⟨he, hk⟩ := (h.stored k i e).1 (AList.mem_lookup_iff.2 hmem)
    obtain ⟨q, hq, hheap⟩ := h.heap he
    rw [h.entityCell, hq] at hk
    exact ⟨i, q, hq, hx, (Option.some.inj hk).symm, hheap⟩
  · rintro ⟨i, q, hq, hx, rfl, rfl⟩
    obtain ⟨e, he⟩ := h.mem_iff.1 (AList.mem_iff_exists_lookup.2 ⟨q, hq⟩)
    obtain ⟨q', hq', hheap⟩ := h.heap he
    cases hq.symm.trans hq'
    refine ⟨⟨i, e⟩, ⟨AList.mem_lookup_iff.1 ?_, hx⟩, hheap⟩
    exact (h.stored _ i e).2 ⟨he, by rw [h.entityCell, hq]; rfl⟩

theorem Indexed.mem_aroundCellLocked (h : m.Indexed w) {k : CellKey} {x : Int64} {a : Entity α} :
    a ∈ m.aroundCellLocked k x ↔
      ∃ i q, w.lookup i = some q ∧ i ≠ x ∧ gridKey m.cellSize q ∈ k.square ∧
        a = entityAt i q := by
  rw [aroundCellLocked_eq, List.mem_flatMap]
  constructor
  · rintro ⟨d, hd, ha⟩
    obtain ⟨i, q, hq, hx, rfl, rfl⟩ := h.mem_cell.1 ha
    exact ⟨i, q, hq, hx, hd, rfl⟩
  · rintro ⟨i, q, hq, hx, hd, rfl⟩
    exact ⟨_, hd, h.mem_cell.2 ⟨i, q, hq, hx, rfl, rfl⟩⟩

/-- No entity is found twice. -/
theorem Indexed.nodup_aroundCellLocked (h : m.Indexed w) (k : CellKey) (x : Int64) :
    ((m.aroundCellLocked k x).map Entity.id).Nodup := by
  rw [aroundCellLocked_eq, List.map_flatMap, List.nodup_flatMap]
  refine ⟨fun d _ => ?_, k.nodup_square.imp fun {d d'} hne => ?_⟩
  · -- in one cell the IDs are the keys
    have hids : (((m.cellAt d).entries.filter fun e => e.1 ≠ x).map fun e => m.heap e.2).map
        Entity.id = ((m.cellAt d).entries.filter fun e => e.1 ≠ x).map Sigma.fst := by
      rw [List.map_map]
      refine List.map_congr_left fun e he => ?_
      obtain ⟨hent, -⟩ :=
        (h.stored d e.1 e.2).1 (AList.mem_lookup_iff.2 (List.mem_filter.1 he).1)
      obtain ⟨p, -, hp⟩ := h.heap hent
      exact congrArg Entity.id hp
    rw [hids]
    exact (m.cellAt d).nodupKeys.sublist List.filter_sublist
  · -- an entity in two cells would have two positions
    intro i hi hi'
    obtain ⟨a, ha, rfl⟩ := List.mem_map.1 hi
    obtain ⟨a', ha', heq⟩ := List.mem_map.1 hi'
    obtain ⟨i, q, hq, -, rfl, rfl⟩ := h.mem_cell.1 ha
    obtain ⟨i', q', hq', -, rfl, rfl⟩ := h.mem_cell.1 ha'
    obtain rfl : i' = i := heq
    exact hne (by rw [Option.some.inj (hq.symm.trans hq')])

theorem Indexed.mem_around (h : m.Indexed w) {id : Int64} {a : Entity α} :
    a ∈ m.around id ↔ ∃ p i q, w.lookup id = some p ∧ w.lookup i = some q ∧ i ≠ id ∧
      gridKey m.cellSize q ∈ (gridKey m.cellSize p).square ∧ a = entityAt i q := by
  rw [around, h.entityCell]
  cases hp : w.lookup id with
  | none => exact iff_of_false List.not_mem_nil fun ⟨_, _, _, h, _⟩ => nomatch h
  | some p =>
    refine h.mem_aroundCellLocked.trans ⟨?_, ?_⟩
    · rintro ⟨i, q, hq⟩
      exact ⟨p, i, q, rfl, hq⟩
    · rintro ⟨p', i, q, hp', hq⟩
      cases hp'
      exact ⟨i, q, hq⟩

theorem Indexed.nodup_around (h : m.Indexed w) (id : Int64) :
    ((m.around id).map Entity.id).Nodup := by
  rw [around]
  split
  · exact List.nodup_nil
  · exact h.nodup_aroundCellLocked _ _

end Manager

namespace World

variable {α : Type} {w : World α} {cell : α × α → ℤ × ℤ} {id : Int64} {a : Entity α}

theorem mem_neighbours : a ∈ w.neighbours cell id ↔ ∃ p i q, w.lookup id = some p ∧
    w.lookup i = some q ∧ i ≠ id ∧ Touches (cell p) (cell q) ∧ a = entityAt i q := by
  rw [neighbours]
  cases hp : w.lookup id with
  | none => exact iff_of_false List.not_mem_nil fun ⟨_, _, _, h, _⟩ => nomatch h
  | some p =>
    simp only [List.mem_map, List.mem_filter, decide_eq_true_eq]
    constructor
    · rintro ⟨⟨i, q⟩, ⟨hmem, hne, ht⟩, rfl⟩
      exact ⟨p, i, q, rfl, AList.mem_lookup_iff.2 hmem, hne, ht, rfl⟩
    · rintro ⟨p', i, q, hp', hq, hne, ht, rfl⟩
      cases hp'
      exact ⟨⟨i, q⟩, ⟨AList.mem_lookup_iff.1 hq, hne, ht⟩, rfl⟩

theorem nodup_neighbours (w : World α) (cell : α × α → ℤ × ℤ) (id : Int64) :
    (w.neighbours cell id).Nodup := by
  rw [neighbours]
  split
  · exact List.nodup_nil
  · refine List.Nodup.of_map Entity.id ?_
    rw [List.map_map]
    exact w.nodupKeys.sublist List.filter_sublist

theorem mem_nearPoint {p : α × α} : a ∈ w.nearPoint cell p ↔
    ∃ i q, w.lookup i = some q ∧ Touches (cell p) (cell q) ∧ a = entityAt i q := by
  simp only [nearPoint, List.mem_map, List.mem_filter, decide_eq_true_eq]
  constructor
  · rintro ⟨⟨i, q⟩, ⟨hmem, ht⟩, rfl⟩
    exact ⟨i, q, AList.mem_lookup_iff.2 hmem, ht, rfl⟩
  · rintro ⟨i, q, hq, ht, rfl⟩
    exact ⟨⟨i, q⟩, ⟨AList.mem_lookup_iff.1 hq, ht⟩, rfl⟩

theorem nodup_nearPoint (w : World α) (cell : α × α → ℤ × ℤ) (p : α × α) :
    (w.nearPoint cell p).Nodup := by
  refine List.Nodup.of_map Entity.id ?_
  rw [nearPoint, List.map_map]
  exact w.nodupKeys.sublist List.filter_sublist

end World

section

variable {α : Type} [Coord α]

theorem Manager.cellSize_moveLocked (m : Manager α) (id : Int64) (x y : α) :
    (m.moveLocked id x y).cellSize = m.cellSize := by
  rw [moveLocked]
  split
  · rfl
  · dsimp only
    split_ifs
    · rw [discard_eq]
      rfl
    · rfl

theorem Manager.cellSize_apply (m : Manager α) (op : Op α) :
    (m.apply op).cellSize = m.cellSize := by
  cases op with
  | enter id x y =>
    rw [apply, enter]
    split
    · exact m.cellSize_moveLocked id x y
    · rfl
  | move id x y => exact m.cellSize_moveLocked id x y
  | leave id =>
    rw [apply, leave]
    split
    · rfl
    · rw [discard_eq]

theorem Manager.cellSize_run (m : Manager α) (ops : List (Op α)) :
    (m.run ops).cellSize = m.cellSize := by
  induction ops generalizing m with
  | nil => rfl
  | cons op ops ih => exact (ih _).trans (m.cellSize_apply op)

end

/-! ### Exact coordinates -/

/-- The indices of the cell of a position and of those around it are 64 bits wide. -/
def Inside (c : ℚ) (p : ℚ × ℚ) : Prop := Fits (floorKey c p).1 ∧ Fits (floorKey c p).2

instance (c : ℚ) (p : ℚ × ℚ) : Decidable (Inside c p) := inferInstanceAs (Decidable (_ ∧ _))

theorem Inside.index_gridKey {c : ℚ} {p : ℚ × ℚ} (hc : 0 < c) (h : Inside c p) :
    (gridKey c p).index = floorKey c p :=
  Prod.ext (toInt_floorDiv hc h.1) (toInt_floorDiv hc h.2)

theorem Inside.mem_square_iff {c : ℚ} {p q : ℚ × ℚ} (hc : 0 < c) (hp : Inside c p)
    (hq : Inside c q) :
    gridKey c q ∈ (gridKey c p).square ↔ Touches (floorKey c p) (floorKey c q) := by
  have hindex := hp.index_gridKey hc
  rw [← hindex, ← hq.index_gridKey hc]
  unfold Inside at hp
  rw [← hindex] at hp
  exact CellKey.mem_square_iff hp.1 hp.2

theorem Inside.gridKey_eq_iff {c : ℚ} {p : ℚ × ℚ} (hc : 0 < c) (hp : Inside c p) {k : CellKey} :
    gridKey c p = k ↔ floorKey c p = k.index := by
  rw [← hp.index_gridKey hc]
  refine ⟨congrArg _, fun h => ?_⟩
  have hx := Int64.toInt_inj.1 (congrArg Prod.fst h)
  have hy := Int64.toInt_inj.1 (congrArg Prod.snd h)
  cases k
  exact CellKey.mk.injEq .. ▸ ⟨hx, hy⟩

theorem newManager_pos (cellSize : ℚ) : 0 < (newManager cellSize).cellSize := by
  change 0 < if decide (cellSize ≤ ((0 : ℤ) : ℚ)) = true then ((100 : ℤ) : ℚ) else cellSize
  split_ifs with h
  · norm_num
  · simpa using h

/-- What is promised for a manager with cells of size `c` whose entities have the positions of
`w`. -/
structure Faithful (c : ℚ) (m : Manager ℚ) (w : World ℚ) : Prop where
  /-- the entities are the ones of the world -/
  live : ∀ id, m.get id = (w.lookup id).map (entityAt id)
  /-- an entity is in the cell of its position only -/
  cell : ∀ k id e, (m.cellAt k).lookup id = some e ↔
    m.entities.lookup id = some e ∧ (w.lookup id).map (floorKey c) = some k.index
  around : ∀ id, (m.around id).Perm (w.neighbours (floorKey c) id)
  once : ∀ id, ((m.around id).map Entity.id).Nodup
  symm : ∀ id i, i ∈ (m.around id).map Entity.id ↔ id ∈ (m.around i).map Entity.id
  near : ∀ id i p q, w.lookup id = some p → w.lookup i = some q → i ≠ id →
    |p.1 - q.1| ≤ c → |p.2 - q.2| ≤ c → entityAt i q ∈ m.around id

/-- **After every sequence of calls, `Around` gives the entities that a search through all positions
would give**, if no index of a cell around a position overflows. -/
theorem faithful_run (cellSize : ℚ) (ops : List (Op ℚ))
    (hinside : ∀ id p, (World.run ∅ ops).lookup id = some p →
      Inside (newManager cellSize).cellSize p) :
    Faithful (newManager cellSize).cellSize ((newManager cellSize).run ops) (World.run ∅ ops) := by
  have h := (Manager.indexed_newManager cellSize).run ops
  have hc := newManager_pos cellSize
  rw [← Manager.cellSize_run _ ops] at hinside hc ⊢
  have hmem : ∀ {id a}, a ∈ ((newManager cellSize).run ops).around id ↔
      a ∈ (World.run ∅ ops).neighbours (floorKey ((newManager cellSize).run ops).cellSize) id := by
    intro id a
    rw [h.mem_around, World.mem_neighbours]
    refine exists₃_congr fun p i q => and_congr_right fun hp => and_congr_right fun hq =>
      and_congr_right fun _ => and_congr_left fun _ => ?_
    exact (hinside id p hp).mem_square_iff hc (hinside i q hq)
  have hsymm : ∀ {id i}, i ∈ (((newManager cellSize).run ops).around id).map Entity.id →
      id ∈ (((newManager cellSize).run ops).around i).map Entity.id := by
    intro id i hi
    obtain ⟨a, ha, rfl⟩ := List.mem_map.1 hi
    obtain ⟨p, i, q, hp, hq, hne, ht, rfl⟩ := World.mem_neighbours.1 (hmem.1 ha)
    exact List.mem_map.2 ⟨entityAt id p,
      hmem.2 (World.mem_neighbours.2 ⟨q, id, p, hq, hp, hne.symm, ht.symm, rfl⟩), rfl⟩
  constructor
  case live => exact h.live
  case cell =>
    intro k id e
    rw [h.stored, h.entityCell, Option.map_eq_some_iff, Option.map_eq_some_iff]
    refine and_congr_right fun _ => exists_congr fun p => and_congr_right fun hp => ?_
    exact (hinside id p hp).gridKey_eq_iff hc
  case around =>
    exact fun id => (List.perm_ext_iff_of_nodup (.of_map _ (h.nodup_around id))
      (World.nodup_neighbours _ _ _)).2 fun a => hmem
  case once => exact h.nodup_around
  case symm => exact fun id i => ⟨hsymm, hsymm⟩
  case near =>
    intro id i p q hp hq hne hx hy
    exact hmem.2 (World.mem_neighbours.2 ⟨p, i, q, hp, hq, hne, touches_floorKey hc hx hy, rfl⟩)

/-- Entities on both sides of zero -/
theorem faithful_run_zero :
    let ops : List (Op ℚ) := [.enter 1 (-10) (-10), .enter 2 (-20) 90, .enter 3 250 250,
      .enter 3 (-100) 0, .move 2 100 0]
    Faithful 100 ((newManager 100).run ops) (World.run ∅ ops) ∧
      (((newManager 100).run ops).around 1).map Entity.id = [3] := by
  intro ops
  have hinside : ∀ e ∈ (World.run ∅ ops).entries, Inside 100 e.2 := by
    decide +kernel
  refine ⟨faithful_run 100 ops fun id p hp => hinside ⟨id, p⟩ (AList.mem_lookup_iff.1 hp), ?_⟩
  decide +kernel

/-- Indices that are too large for 64 bits become one cell. -/
theorem far_together :
    (((newManager (1 : ℚ)).run [.enter 1 (10 ^ 19) 0, .enter 2 (3 * 10 ^ 19) 0]).around 1).map
        Entity.id = [2] ∧
      ¬ Touches (floorKey 1 (10 ^ 19, 0)) (floorKey 1 (3 * 10 ^ 19, 0)) := by
  decide +kernel

/-! ### Points -/

/-- **`AroundPoint` gives every entity around the point once**, after every sequence of calls, if
and only if the entity with the number -1 is not among them, and no other entity is in a cell that
the loops reach by wrapping around. -/
theorem aroundPoint_perm_iff (cellSize : Float) (ops : List (Op Float)) (p : Float × Float) :
    let c := (newManager cellSize).cellSize
    (((newManager cellSize).run ops).aroundPoint p.1 p.2).Perm
        ((World.run ∅ ops).nearPoint (fun q => (gridKey c q).index) p) ↔
      (∀ q, (World.run ∅ ops).lookup (-1) = some q →
        ¬ Touches (gridKey c p).index (gridKey c q).index) ∧
      ∀ id q, id ≠ -1 → (World.run ∅ ops).lookup id = some q →
        gridKey c q ∈ (gridKey c p).square → Touches (gridKey c p).index (gridKey c q).index := by
  have h := (Manager.indexed_newManager cellSize).run ops
  dsimp only
  rw [← Manager.cellSize_run _ ops, Manager.aroundPoint, Manager.keyAt_eq,
    List.perm_ext_iff_of_nodup (.of_map _ (h.nodup_aroundCellLocked _ _))
      (World.nodup_nearPoint _ _ _)]
  simp only [h.mem_aroundCellLocked, World.mem_nearPoint]
  constructor
  · refine fun hiff => ⟨fun q hq ht => ?_, fun id q hne hq hmem => ?_⟩
    · -- who is found is not the excluded entity
      obtain ⟨i, q', -, hne, -, heq⟩ := (hiff (entityAt (-1) q)).2 ⟨-1, q, hq, ht, rfl⟩
      exact hne (congrArg Entity.id heq).symm
    · obtain ⟨i, q', hq', ht, heq⟩ := (hiff (entityAt id q)).1 ⟨id, q, hq, hne, hmem, rfl⟩
      obtain rfl : id = i := congrArg Entity.id heq
      cases hq.symm.trans hq'
      exact ht
  · rintro ⟨hfar, hwrap⟩ a
    constructor
    · rintro ⟨i, q, hq, hne, hmem, rfl⟩
      exact ⟨i, q, hq, hwrap i q hne hq hmem, rfl⟩
    · rintro ⟨i, q, hq, ht, rfl⟩
      refine ⟨i, q, hq, ?_, CellKey.mem_square_of_touches ht, rfl⟩
      rintro rfl
      exact hfar q hq ht

/-- The entity with the number -1 is alive and at the point itself, and is not found. -/
theorem aroundPoint_misses :
    let m := (newManager (100 : Float)).run [.enter (-1) 0 0, .enter 2 0 0]
    m.get (-1) = some ⟨-1, 0, 0⟩ ∧ m.aroundPoint 0 0 = [⟨2, 0, 0⟩] := by
  decide +kernel

end Aoi

end GinRpc
