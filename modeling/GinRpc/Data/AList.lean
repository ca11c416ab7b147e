import Mathlib.Data.List.AList

/-!
# Association lists as maps

The lookups of a map after an update, at an arbitrary key.
-/

namespace AList

variable {α : Type*} {β : Type*} [DecidableEq α] {s : AList fun _ : α => β} {a d : α} {b : β}

@[grind =] theorem lookup_insert_apply :
    (s.insert a b).lookup d = if d = a then some b else s.lookup d := by
  split_ifs with h
  · rw [h]
    exact lookup_insert s
  · exact lookup_insert_ne h

@[grind =] theorem lookup_erase_apply :
    (s.erase a).lookup d = if d = a then none else s.lookup d := by
  split_ifs with h
  · rw [h]
    exact lookup_erase a s
  · exact lookup_erase_ne h

theorem lookup_foldl_erase (l : List α) :
    (l.foldl (fun m a => m.erase a) s).lookup d = if d ∈ l then none else s.lookup d := by
  induction l generalizing s with
  | nil => simp
  | cons a l ih =>
    rw [List.foldl_cons, ih, lookup_erase_apply]
    by_cases hl : d ∈ l <;> by_cases ha : d = a <;> simp [hl, ha]

theorem lookup_foldl_insert (l : List α) :
    (l.foldl (fun m a => m.insert a b) s).lookup d = if d ∈ l then some b else s.lookup d := by
  induction l generalizing s with
  | nil => simp
  | cons a l ih =>
    rw [List.foldl_cons, ih, lookup_insert_apply]
    by_cases hl : d ∈ l <;> by_cases ha : d = a <;> simp [hl, ha]

/-- What holds of all entries, and of a new one, holds of all afterwards. -/
theorem forall_lookup_insert {P : α → β → Prop} (h : ∀ k e, s.lookup k = some e → P k e)
    (hnew : P a b) : ∀ k e, (s.insert a b).lookup k = some e → P k e := by
  intro k e he
  rw [lookup_insert_apply] at he
  split_ifs at he with hk
  · rw [hk, ← Option.some.inj he]
    exact hnew
  · exact h k e he

theorem lookup_erase_eq_some :
    (s.erase a).lookup d = some b ↔ d ≠ a ∧ s.lookup d = some b := by
  rw [lookup_erase_apply]
  split_ifs with h
  · exact iff_of_false (fun he => by cases he) fun he => he.1 h
  · exact ⟨fun he => ⟨h, he⟩, And.right⟩

theorem forall_lookup_erase {P : α → β → Prop} (h : ∀ k e, s.lookup k = some e → P k e) :
    ∀ k e, (s.erase a).lookup k = some e → P k e := by
  exact fun k e he => h k e (lookup_erase_eq_some.1 he).2

theorem mem_iff_exists_lookup : a ∈ s ↔ ∃ b, s.lookup a = some b := by
  rw [← lookup_isSome, Option.isSome_iff_exists]

/-- A map is no larger than a list of what may be its keys. -/
theorem length_keys_le {l : List α} (h : ∀ k e, s.lookup k = some e → k ∈ l) :
    s.keys.length ≤ l.length := by
  refine (List.subperm_of_subset s.keys_nodup fun k hk => ?_).length_le
  obtain ⟨e, he⟩ := mem_iff_exists_lookup.1 (mem_keys.2 hk)
  exact h k e he

/-! ### Iteration -/

/-- The entries of a map in the order of an iteration over its keys. -/
def inOrder (s : AList fun _ : α => β) (order : List α) : List (α × β) :=
  order.filterMap fun k => (s.lookup k).map fun v => (k, v)

theorem mem_inOrder {order : List α} {e : α × β} :
    e ∈ s.inOrder order ↔ e.1 ∈ order ∧ s.lookup e.1 = some e.2 := by
  simp only [inOrder, List.mem_filterMap, Option.map_eq_some_iff]
  constructor
  · rintro ⟨k, hk, v, hv, rfl⟩
    exact ⟨hk, hv⟩
  · rintro ⟨hk, hv⟩
    exact ⟨e.1, hk, e.2, hv, rfl⟩

end AList
