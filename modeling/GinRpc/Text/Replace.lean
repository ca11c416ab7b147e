import Mathlib.Data.List.Infix

/-!
# Replacing all occurrences

`replaceAll old new` is Go's `strings.ReplaceAll` for a pattern that is not empty: the occurrences
are found from the left and do not overlap.

* `replaceAll_singleton` : for a pattern of one letter every letter is replaced by itself.
-/

namespace GinRpc

namespace Text

variable {α : Type*} [DecidableEq α]

/-- Replace from the left, where the first letters belong to an occurrence already replaced. -/
def replaceFrom (old new : List α) : ℕ → List α → List α
  | _, [] => []
  | skip + 1, _ :: t => replaceFrom old new skip t
  | 0, c :: t =>
    if old.isPrefixOf (c :: t) then new ++ replaceFrom old new (old.length - 1) t
    else c :: replaceFrom old new 0 t

/-- Replace all occurrences, from the left and without overlaps. -/
def replaceAll (old new t : List α) : List α := replaceFrom old new 0 t

variable {old new t : List α} {c : α}

theorem replaceFrom_eq_drop (skip : ℕ) (t : List α) :
    replaceFrom old new skip t = replaceAll old new (t.drop skip) := by
  induction t generalizing skip with
  | nil => cases skip <;> rfl
  | cons c t ih =>
    cases skip with
    | zero => rfl
    | succ skip => exact ih skip

theorem replaceAll_append (h : old ≠ []) (t : List α) :
    replaceAll old new (old ++ t) = new ++ replaceAll old new t := by
  cases old with
  | nil => exact absurd rfl h
  | cons c old =>
    have hpre : (c :: old).isPrefixOf (c :: (old ++ t)) = true :=
      List.isPrefixOf_iff_prefix.2 (List.prefix_append (c :: old) t)
    rw [List.cons_append, replaceAll, replaceFrom, if_pos hpre, replaceFrom_eq_drop]
    simp

theorem replaceAll_cons (h : ¬ old <+: c :: t) :
    replaceAll old new (c :: t) = c :: replaceAll old new t := by
  rw [replaceAll, replaceFrom, if_neg fun hpre => h (List.isPrefixOf_iff_prefix.1 hpre)]
  rfl

omit [DecidableEq α] in
theorem not_prefix_of_notMem (h : old ≠ []) (hc : c ∉ old) : ¬ old <+: c :: t := by
  rintro ⟨rest, hrest⟩
  cases old with
  | nil => exact h rfl
  | cons d old =>
    obtain ⟨rfl, -⟩ := List.cons.inj hrest
    exact hc List.mem_cons_self

/-- Each letter is replaced by itself. -/
theorem replaceAll_singleton (q : α) (new t : List α) :
    replaceAll [q] new t = t.flatMap fun c => if c = q then new else [c] := by
  induction t with
  | nil => rfl
  | cons c t ih =>
    by_cases hc : c = q
    · rw [List.flatMap_cons, if_pos hc, ← ih, hc]
      exact replaceAll_append (List.cons_ne_nil _ _) t
    · rw [List.flatMap_cons, if_neg hc, ← ih]
      exact replaceAll_cons (not_prefix_of_notMem (List.cons_ne_nil _ _) (by simpa using hc))

end Text

end GinRpc
