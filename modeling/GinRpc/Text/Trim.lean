import GinRpc.Text.Basic

/-!
# Trimming

`trimSpace` takes away all white space at both ends, and nothing else.
-/

namespace GinRpc

namespace Text

variable {t pre mid post : Text}

theorem dropWhile_isSpace_append (hpre : ∀ c ∈ pre, isSpace c = true)
    (hmid : ∀ c ∈ mid.head?, isSpace c = false) : (pre ++ mid).dropWhile isSpace = mid := by
  induction pre with
  | nil =>
    cases mid with
    | nil => rfl
    | cons c mid => exact List.dropWhile_cons_of_neg (by simp [hmid c rfl])
  | cons c pre ih =>
    rw [List.cons_append, List.dropWhile_cons_of_pos (hpre c List.mem_cons_self)]
    exact ih fun d hd => hpre d (List.mem_cons_of_mem _ hd)

theorem trimSpace_append (hpre : ∀ c ∈ pre, isSpace c = true)
    (hhead : ∀ c ∈ (mid ++ post).head?, isSpace c = false)
    (hlast : ∀ c ∈ mid.getLast?, isSpace c = false) (hpost : ∀ c ∈ post, isSpace c = true) :
    trimSpace (pre ++ (mid ++ post)) = mid := by
  rw [trimSpace, dropWhile_isSpace_append hpre hhead, List.reverse_append,
    dropWhile_isSpace_append (fun c hc => hpost c (List.mem_reverse.1 hc)) (by
      rw [List.head?_reverse]
      exact hlast), List.reverse_reverse]

theorem exists_append_trimSpace (t : Text) : ∃ pre post, t = pre ++ (trimSpace t ++ post) ∧
    (∀ c ∈ pre, isSpace c = true) ∧ ∀ c ∈ post, isSpace c = true := by
  refine ⟨t.takeWhile isSpace, ((t.dropWhile isSpace).reverse.takeWhile isSpace).reverse, ?_,
    List.all_eq_true.1 List.all_takeWhile,
    fun c hc => List.all_eq_true.1 List.all_takeWhile c (List.mem_reverse.1 hc)⟩
  rw [trimSpace, ← List.reverse_append, List.takeWhile_append_dropWhile, List.reverse_reverse,
    List.takeWhile_append_dropWhile]

/-- The white space at the end of a text that is not blank. -/
theorem exists_append_space (h : ∃ c ∈ t, isSpace c = false) : ∃ u c post,
    t = u ++ c :: post ∧ isSpace c = false ∧ ∀ c ∈ post, isSpace c = true := by
  induction t with
  | nil =>
    obtain ⟨c, hc, -⟩ := h
    cases hc
  | cons d t ih =>
    by_cases ht : ∃ c ∈ t, isSpace c = false
    · obtain ⟨u, c, post, rfl, hc, hpost⟩ := ih ht
      exact ⟨d :: u, c, post, rfl, hc, hpost⟩
    · obtain ⟨c, hc, hs⟩ := h
      have hpost : ∀ c ∈ t, isSpace c = true := fun e he =>
        Bool.eq_true_of_not_eq_false fun hes => ht ⟨e, he, hes⟩
      obtain rfl | hc := List.mem_cons.1 hc
      · exact ⟨[], c, t, rfl, hs, hpost⟩
      · exact absurd ⟨c, hc, hs⟩ ht

end Text

end GinRpc
