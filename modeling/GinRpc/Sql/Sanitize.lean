import GinRpc.Text.Basic
import GinRpc.Text.Replace

/-!
# Patterns made harmless for SQL

Model of `EscapeLike` in `plugins/db/orm/util.go` and of `CleanLikePattern` in
`plugins/db/sqlprevention/validator.go`.

A pattern of `LIKE` is read with the backslash as the escape character.

* `like_escape_iff` : which texts an escaped pattern matches.
* `cleanLikePattern_astray` : `CleanLikePattern` does not escape the backslash.
-/

namespace GinRpc

namespace Sql

open Text

/-! ### Patterns -/

/-- An item of a pattern: a literal character, any character, or any text -/
inductive LikeItem where
  | lit (c : Char)
  | one
  | many
  deriving DecidableEq

def LikeItem.ofChar (c : Char) : LikeItem :=
  if c = '%' then .many else if c = '_' then .one else .lit c

/-- The items of a pattern; it must not end with the escape character. -/
def parseLike : Text → Option (List LikeItem)
  | [] => some []
  | [c] => if c = '\\' then none else some [.ofChar c]
  | c :: d :: p =>
    if c = '\\' then (parseLike p).map (.lit d :: ·)
    else (parseLike (d :: p)).map (.ofChar c :: ·)

def matchItems : List LikeItem → Text → Bool
  | [], x => x.isEmpty
  | .lit c :: items, x => x.head? == some c && matchItems items x.tail
  | .one :: items, x => !x.isEmpty && matchItems items x.tail
  | .many :: items, x => x.tails.any (matchItems items)

/-- `x LIKE p` -/
def like (p x : Text) : Bool := (parseLike p).any (matchItems · x)

/-- `EscapeLike` -/
def escapeLike (value : Text) : Text :=
  let value := replaceAll ['\\'] ['\\', '\\'] value
  let value := replaceAll ['%'] ['\\', '%'] value
  replaceAll ['_'] ['\\', '_'] value

/-- `CleanLikePattern` -/
def cleanLikePattern (pattern : Text) : Text :=
  let pattern := replaceAll ['%'] ['\\', '%'] pattern
  let pattern := replaceAll ['_'] ['\\', '_'] pattern
  let pattern := replaceAll ['['] ['\\', '['] pattern
  let pattern := replaceAll [']'] ['\\', ']'] pattern
  -- null bytes are removed
  replaceAll ['\x00'] [] pattern

/-- A backslash before each of some characters. -/
def escapeChars (chars s : Text) : Text :=
  s.flatMap fun c => if c ∈ chars then ['\\', c] else [c]

variable {chars s x : Text} {c : Char}

theorem parseLike_cons (hc : c ≠ '\\') (p : Text) :
    parseLike (c :: p) = (parseLike p).map (.ofChar c :: ·) := by
  cases p with
  | nil => simp [parseLike, hc]
  | cons d p => rw [parseLike, if_neg hc]

/-- If all special characters of the text are escaped, the pattern has no other item than its
characters. -/
theorem parseLike_escapeChars (hs : ∀ c ∈ s, c ∈ chars ∨ (c ≠ '\\' ∧ c ≠ '%' ∧ c ≠ '_')) :
    parseLike (escapeChars chars s) = some (s.map .lit) := by
  induction s with
  | nil => rfl
  | cons c s ih =>
    have htail := ih fun d hd => hs d (List.mem_cons_of_mem _ hd)
    unfold escapeChars at htail ⊢
    rw [List.flatMap_cons]
    split_ifs with hc
    · rw [List.cons_append, List.cons_append, List.nil_append, parseLike, if_pos rfl, htail]
      rfl
    · obtain ⟨hesc, hmany, hone⟩ := (hs c List.mem_cons_self).resolve_left hc
      rw [List.cons_append, List.nil_append, parseLike_cons hesc, htail, LikeItem.ofChar,
        if_neg hmany, if_neg hone]
      rfl

theorem matchItems_lit : matchItems (s.map .lit) x = true ↔ x = s := by
  induction s generalizing x with
  | nil => simp [matchItems]
  | cons c s ih =>
    cases x with
    | nil => simp [matchItems]
    | cons d x => simp [matchItems, ih]

/-- Items that match one text only are its characters: in the place of any other item something
else may stand. -/
theorem eq_map_lit_of_unique {items : List LikeItem}
    (h : ∀ x, matchItems items x = true ↔ x = s) : items = s.map .lit := by
  induction items generalizing s with
  | nil =>
    obtain rfl := (h []).1 rfl
    rfl
  | cons item items ih =>
    have hself := (h s).2 rfl
    cases item with
    | lit c =>
      obtain ⟨s, rfl⟩ : ∃ t, s = c :: t := by
        cases s with
        | nil => simp [matchItems] at hself
        | cons d t => exact ⟨t, by simp_all [matchItems]⟩
      rw [List.map_cons, ← ih fun x => ?_]
      simpa [matchItems] using h (c :: x)
    | one =>
      cases s with
      | nil => simp [matchItems] at hself
      | cons d s =>
        have hother (c : Char) : c :: s = d :: s := (h _).1 (by simpa [matchItems] using hself)
        cases (List.cons.inj (hother 'a')).1.trans (List.cons.inj (hother 'b')).1.symm
    | many =>
      have hlonger : 'a' :: s = s := (h _).1 (by simp_all [matchItems])
      simpa using congrArg List.length hlonger

theorem like_unique_iff {p : Text} :
    (∀ x, like p x = true ↔ x = s) ↔ parseLike p = some (s.map .lit) := by
  constructor
  · intro h
    cases hp : parseLike p with
    | none => simpa [like, hp] using (h s).2 rfl
    | some items =>
      have hitems : ∀ x, matchItems items x = true ↔ x = s := by simpa [like, hp] using h
      rw [eq_map_lit_of_unique hitems]
  · intro h x
    rw [like, h]
    exact matchItems_lit

/-- The characters before which `CleanLikePattern` puts a backslash. -/
def cleaned : Text := ['%', '_', '[', ']']

/-- Each backslash stands before a square bracket. -/
def Bracketed : Text → Prop
  | [] => True
  | c :: s => (c = '\\' → s.head? = some '[' ∨ s.head? = some ']') ∧ Bracketed s

instance decidableBracketed : (s : Text) → Decidable (Bracketed s)
  | [] => isTrue trivial
  | _ :: s => @instDecidableAnd _ _ inferInstance (decidableBracketed s)

theorem parseLike_cleaned_cons (hc : c ≠ '\\') (s : Text) :
    parseLike (escapeChars cleaned (c :: s)) =
      (parseLike (escapeChars cleaned s)).map (.lit c :: ·) := by
  rw [escapeChars, List.flatMap_cons]
  split_ifs with hmem
  · rw [List.cons_append, List.cons_append, List.nil_append, parseLike, if_pos rfl]
    rfl
  · rw [List.cons_append, List.nil_append, parseLike_cons hc, LikeItem.ofChar]
    simp only [cleaned, List.mem_cons, not_or] at hmem
    rw [if_neg hmem.1, if_neg hmem.2.1]
    rfl

/-- A backslash makes the next character literal, or the one that is put before it. -/
theorem parseLike_cleaned_backslash (d : Char) (s : Text) :
    parseLike (escapeChars cleaned ('\\' :: d :: s)) = (parseLike (escapeChars cleaned s)).map
      fun items => if d ∈ cleaned then .lit '\\' :: .ofChar d :: items else .lit d :: items := by
  have hfirst : escapeChars cleaned ('\\' :: d :: s) = '\\' :: escapeChars cleaned (d :: s) := rfl
  rw [hfirst, escapeChars, List.flatMap_cons]
  split_ifs with hmem
  · have hd : d ≠ '\\' := by
      rintro rfl
      exact absurd hmem (by decide)
    rw [List.cons_append, List.cons_append, List.nil_append, parseLike, if_pos rfl,
      parseLike_cons hd, Option.map_map]
    rfl
  · rw [List.cons_append, List.nil_append, parseLike, if_pos rfl]
    rfl

/-- There are not more items than characters. -/
theorem length_parseLike_cleaned {items : List LikeItem}
    (h : parseLike (escapeChars cleaned s) = some items) : items.length ≤ s.length := by
  induction hn : s.length using Nat.strong_induction_on generalizing s items with
  | _ n ih =>
    cases s with
    | nil =>
      obtain rfl := Option.some.inj h
      exact Nat.zero_le _
    | cons c s =>
      by_cases hc : c = '\\'
      · subst hc
        cases s with
        | nil => cases h
        | cons d s =>
          rw [parseLike_cleaned_backslash, Option.map_eq_some_iff] at h
          obtain ⟨rest, hrest, rfl⟩ := h
          simp only [List.length_cons] at hn
          have := ih s.length (by omega) hrest rfl
          split_ifs <;> simp only [List.length_cons] <;> omega
      · rw [parseLike_cleaned_cons hc, Option.map_eq_some_iff] at h
        obtain ⟨rest, hrest, rfl⟩ := h
        simp only [List.length_cons] at hn ⊢
        have := ih s.length (by omega) hrest rfl
        omega

theorem parseLike_cleaned_iff :
    parseLike (escapeChars cleaned s) = some (s.map .lit) ↔ Bracketed s := by
  induction hn : s.length using Nat.strong_induction_on generalizing s with
  | _ n ih =>
    cases s with
    | nil => exact ⟨fun _ => trivial, fun _ => rfl⟩
    | cons c s =>
      simp only [List.length_cons] at hn
      by_cases hc : c = '\\'
      · subst hc
        cases s with
        | nil => simp [escapeChars, cleaned, parseLike, Bracketed]
        | cons d s =>
          simp only [List.length_cons] at hn
          have htail := ih s.length (by omega) rfl
          rw [parseLike_cleaned_backslash, Option.map_eq_some_iff]
          by_cases hd : d = '[' ∨ d = ']'
          · have hmem : d ∈ cleaned ∧ LikeItem.ofChar d = .lit d ∧ d ≠ '\\' := by
              rcases hd with rfl | rfl <;> decide
            simp [Bracketed, hd, hmem, ← htail]
          · simp only [Bracketed, List.head?_cons, Option.some.injEq, hd, forall_const, false_and,
              iff_false, not_exists, not_and, List.map_cons]
            intro items hitems
            split_ifs with hmem
            · -- a wildcard, which is made literal no more
              have hwild : d = '%' ∨ d = '_' := by
                simp only [cleaned, List.mem_cons, List.not_mem_nil, or_false] at hmem
                tauto
              rcases hwild with rfl | rfl <;> simp [LikeItem.ofChar]
            · -- the backslash is lost
              intro heq
              have hlen := length_parseLike_cleaned hitems
              rw [(List.cons.inj heq).2, List.length_cons, List.length_map] at hlen
              omega
      · have htail := ih s.length (by omega) rfl
        simp only [Bracketed, hc, false_imp_iff, true_and]
        rw [parseLike_cleaned_cons hc, ← htail, Option.map_eq_some_iff]
        simp

theorem escapeLike_eq (s : Text) : escapeLike s = escapeChars ['\\', '%', '_'] s := by
  simp only [escapeLike, replaceAll_singleton, List.flatMap_assoc, escapeChars]
  refine List.flatMap_congr fun c _ => ?_
  by_cases hmem : c ∈ ['\\', '%', '_']
  · simp only [List.mem_cons, List.not_mem_nil, or_false] at hmem
    rcases hmem with rfl | rfl | rfl <;> rfl
  · simp only [List.mem_cons, List.not_mem_nil, or_false, not_or] at hmem
    simp [hmem]

theorem cleanLikePattern_eq (h : '\x00' ∉ s) :
    cleanLikePattern s = escapeChars cleaned s := by
  simp only [cleanLikePattern, replaceAll_singleton, List.flatMap_assoc, escapeChars]
  refine List.flatMap_congr fun c hc => ?_
  have hnul : c ≠ '\x00' := fun h' => h (h' ▸ hc)
  by_cases hmem : c ∈ cleaned
  · simp only [cleaned, List.mem_cons, List.not_mem_nil, or_false] at hmem
    rcases hmem with rfl | rfl | rfl | rfl <;> rfl
  · simp only [cleaned, List.mem_cons, List.not_mem_nil, or_false, not_or] at hmem
    simp [cleaned, hmem, hnul]

/-- **What an escaped pattern matches**: with `EscapeLike` the text itself and nothing else, and
with `CleanLikePattern` exactly if each backslash of the text stands before a square bracket. -/
theorem like_escape_iff (s : Text) :
    (∀ x, like (escapeLike s) x = true ↔ x = s) ∧
    ('\x00' ∉ s → ((∀ x, like (cleanLikePattern s) x = true ↔ x = s) ↔ Bracketed s)) := by
  constructor
  · rw [like_unique_iff, escapeLike_eq]
    refine parseLike_escapeChars fun c _ => ?_
    simp only [List.mem_cons, List.not_mem_nil, or_false]
    tauto
  · intro hnul
    rw [like_unique_iff, cleanLikePattern_eq hnul, parseLike_cleaned_iff]

/-- A backslash before a bracket, and one before a letter -/
theorem like_escape_iff_bracket :
    like (cleanLikePattern "50%\\[") "50%\\[" = true ∧
      ¬ ∀ x, like (cleanLikePattern "\\a") x = true ↔ x = ("\\a" : Text) := by
  refine ⟨(((like_escape_iff "50%\\[").2 (by decide)).2 (by decide) _).2 rfl, fun h => ?_⟩
  exact absurd (((like_escape_iff "\\a").2 (by decide)).1 h) (by decide)

/-- **The backslash is not escaped**: it makes the next character of the text literal, or it is made
literal itself, and then a percent sign is not. -/
theorem cleanLikePattern_astray :
    like (cleanLikePattern "\\a") "a" = true ∧ like (cleanLikePattern "\\a") "\\a" = false ∧
    like (cleanLikePattern "\\%") "\\b" = true := by
  decide

end Sql

end GinRpc
