import Mathlib.Data.List.Sort

/-!
# Sorting by a comparison

A function that sorts a slice by a comparison rearranges it, and sorts it if the comparison is a
strict weak order on its elements.  It need not be stable.

* `StrictWeakOn` : the comparison is a strict weak order on the elements of a list;
  `StrictWeakOn.of_key` : one that compares keys is; `strictWeakOn_iff` : when another one is.
* `SliceSort` : what such a function promises; `SliceSort.insertion` is one.
-/

namespace GinRpc

variable {α : Type*}

/-- `less` is irreflexive and transitive on the elements of a list, and so is being incomparable. -/
structure StrictWeakOn (less : α → α → Bool) (l : List α) : Prop where
  irrefl : ∀ a ∈ l, less a a = false
  trans : ∀ a ∈ l, ∀ b ∈ l, ∀ c ∈ l, less a b = true → less b c = true → less a c = true
  incomp : ∀ a ∈ l, ∀ b ∈ l, ∀ c ∈ l, less a b = false → less b a = false →
    less b c = false → less c b = false → less a c = false ∧ less c a = false

theorem StrictWeakOn.of_key {κ : Type*} [LinearOrder κ] {less : α → α → Bool} {l : List α}
    (key : α → κ) (h : ∀ a ∈ l, ∀ b ∈ l, less a b = decide (key a < key b)) :
    StrictWeakOn less l := by
  refine ⟨fun a ha => ?_, fun a ha b hb c hc => ?_, fun a ha b hb c hc => ?_⟩
  · rw [h a ha a ha, decide_eq_false (lt_irrefl _)]
  · rw [h a ha b hb, h b hb c hc, h a ha c hc]
    simp only [decide_eq_true_eq]
    exact lt_trans
  · rw [h a ha b hb, h b hb a ha, h b hb c hc, h c hc b hb, h a ha c hc, h c hc a ha]
    simp only [decide_eq_false_iff_not, not_lt]
    exact fun hba hab hcb hbc => ⟨hcb.trans hba, hab.trans hbc⟩

theorem StrictWeakOn.asymm {less : α → α → Bool} {l : List α} (h : StrictWeakOn less l) {a b : α}
    (ha : a ∈ l) (hb : b ∈ l) (hab : less a b = true) : less b a = false := by
  rw [Bool.eq_false_iff]
  intro hba
  have haa := h.trans a ha b hb a ha hab hba
  rw [h.irrefl a ha] at haa
  cases haa

/-- On the elements, not being greater is transitive. -/
theorem StrictWeakOn.not_less_trans {less : α → α → Bool} {l : List α} (h : StrictWeakOn less l)
    {a b c : α} (ha : a ∈ l) (hb : b ∈ l) (hc : c ∈ l) (hab : less b a = false)
    (hbc : less c b = false) : less c a = false := by
  by_contra hca
  rw [Bool.not_eq_false] at hca
  cases hab' : less a b with
  | true =>
    have := h.trans c hc a ha b hb hca hab'
    rw [hbc] at this
    cases this
  | false =>
    cases hbc' : less b c with
    | true =>
      have := h.trans b hb c hc a ha hbc' hca
      rw [hab] at this
      cases this
    | false =>
      rw [(h.incomp a ha b hb c hc hab' hab hbc' hbc).2] at hca
      cases hca

/-- A strict weak order is asymmetric, and an element is not between two that are in order without
being in order with one of them. -/
theorem strictWeakOn_iff {less : α → α → Bool} {l : List α} :
    StrictWeakOn less l ↔ (∀ a ∈ l, ∀ b ∈ l, less a b = true → less b a = false) ∧
      ∀ a ∈ l, ∀ b ∈ l, less a b = true → ∀ c ∈ l, less a c = true ∨ less c b = true := by
  constructor
  · intro h
    refine ⟨fun a ha b hb => h.asymm ha hb, fun a ha b hb hab c hc => ?_⟩
    by_contra hnone
    rw [not_or, Bool.not_eq_true, Bool.not_eq_true] at hnone
    rw [h.not_less_trans hb hc ha hnone.2 hnone.1] at hab
    cases hab
  · rintro ⟨hasymm, hsplit⟩
    refine ⟨fun a ha => ?_, fun a ha b hb c hc hab hbc => ?_, ?_⟩
    · grind
    · grind
    · grind

/-- A function that sorts a slice -/
structure SliceSort (α : Type*) where
  sort : (α → α → Bool) → List α → List α
  perm : ∀ less l, (sort less l).Perm l
  sorted : ∀ less l, StrictWeakOn less l → (sort less l).Pairwise fun a b => less b a = false

namespace SliceSort

theorem sorted_key {κ : Type*} [LinearOrder κ] (σ : SliceSort α) (key : α → κ) (l : List α) :
    (σ.sort (fun a b => decide (key a < key b)) l).Pairwise fun a b => key a ≤ key b :=
  (σ.sorted _ l (.of_key key fun _ _ _ _ => rfl)).imp fun h => not_lt.1 (of_decide_eq_false h)

/-- Insertion sort -/
def insertion : SliceSort α where
  sort less l :=
    (l.attach.insertionSort fun a b : { x // x ∈ l } => less b a = false).map Subtype.val
  perm less l := by
    have hperm := (List.perm_insertionSort (fun a b : { x // x ∈ l } => less b a = false)
      l.attach).map Subtype.val
    rwa [List.attach_map_subtype_val] at hperm
  sorted less l h := by
    -- the comparison is total and transitive on the elements
    have : Std.Total fun a b : { x // x ∈ l } => less b a = false := ⟨fun a b => by
      cases hab : less a b with
      | false => exact .inr rfl
      | true => exact .inl (h.asymm a.2 b.2 hab)⟩
    have : IsTrans { x // x ∈ l } fun a b => less b a = false :=
      ⟨fun a b c hab hbc => h.not_less_trans a.2 b.2 c.2 hab hbc⟩
    exact List.pairwise_map.2 (List.pairwise_insertionSort _ _)

end SliceSort

end GinRpc
