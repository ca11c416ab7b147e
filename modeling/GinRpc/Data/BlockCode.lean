import Mathlib.Data.List.Basic

/-!
# Block codes

A code that replaces every letter by a word of one fixed length.
-/

namespace List

variable {α β : Type*} {f : α → List β} {n : ℕ}

theorem length_flatMap_of_block (hlen : ∀ a, (f a).length = n) (l : List α) :
    (l.flatMap f).length = l.length * n := by
  induction l with
  | nil => rw [flatMap_nil, length_nil, length_nil, Nat.zero_mul]
  | cons a l ih =>
    rw [flatMap_cons, length_append, ih, hlen, length_cons, Nat.succ_mul, Nat.add_comm]

/-- A text can be read back from its code when a letter can. -/
theorem flatMap_injective_of_block (hn : 0 < n) (hlen : ∀ a, (f a).length = n)
    (hf : Function.Injective f) : Function.Injective (List.flatMap f) := by
  intro l m h
  have hlength : l.length = m.length := by
    have := congrArg length h
    rw [length_flatMap_of_block hlen, length_flatMap_of_block hlen] at this
    exact Nat.eq_of_mul_eq_mul_right hn this
  induction l generalizing m with
  | nil => exact (length_eq_zero_iff.1 hlength.symm).symm
  | cons a l ih =>
    cases m with
    | nil => cases hlength
    | cons b m =>
      rw [flatMap_cons, flatMap_cons] at h
      obtain ⟨hab, hlm⟩ := append_inj h ((hlen a).trans (hlen b).symm)
      rw [hf hab, ih hlm (Nat.succ.inj hlength)]

end List
