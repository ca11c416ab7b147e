import GinRpc.Text.Basic
import Mathlib.Computability.RegularExpressions

/-!
# Regular expressions over characters

The parts of Go's regular expressions that queries are matched with, as regular expressions of
Mathlib: character classes, words without regard to case, alternatives, and a match at the beginning
of a text (`MatchString` with a leading `^`).
-/

namespace GinRpc

namespace Pattern

open RegularExpression

/-- A character class. -/
def oneOf (l : List Char) : RegularExpression Char := (l.map char).foldr (· + ·) 0

/-- One of several expressions. -/
def anyOf (l : List (RegularExpression Char)) : RegularExpression Char := l.foldr (· + ·) 0

/-- One or more times. -/
def oneOrMore (r : RegularExpression Char) : RegularExpression Char := r * r.star

/-- The class `\s`. -/
def blanks : List Char := ['\t', '\n', '\x0c', '\r', ' ']

/-- The characters that a capital letter stands for under `(?i)`: besides the two cases of the
letter these are the long s and the Kelvin sign. -/
def foldCases (c : Char) : List Char :=
  [c, c.toLower] ++ (if c = 'S' then ['ſ'] else []) ++ if c = 'K' then ['K'] else []

/-- A word in capital letters under `(?i)`. -/
def foldWord (w : Text) : RegularExpression Char :=
  (w.map fun c => oneOf (foldCases c)).foldr (· * ·) 1

/-- `MatchString` for an expression with a leading `^`. -/
def matchString (r : RegularExpression Char) (t : Text) : Bool := t.inits.any fun u => r.rmatch u

variable {r : RegularExpression Char} {l : List Char} {t w : Text}

theorem matchString_iff :
    matchString r t = true ↔ ∃ u v, t = u ++ v ∧ u ∈ r.matches' := by
  rw [matchString, List.any_eq_true]
  constructor
  · rintro ⟨u, hu, hmatch⟩
    obtain ⟨v, rfl⟩ := (List.mem_inits u t).1 hu
    exact ⟨u, v, rfl, (rmatch_iff_matches' r u).1 hmatch⟩
  · rintro ⟨u, v, rfl, hu⟩
    exact ⟨u, (List.mem_inits u _).2 (List.prefix_append u v), (rmatch_iff_matches' r u).2 hu⟩

theorem mem_oneOf_iff : t ∈ (oneOf l).matches' ↔ ∃ c ∈ l, t = [c] := by
  induction l with
  | nil => simp [oneOf, Language.notMem_zero]
  | cons d l ih =>
    have hcons : (oneOf (d :: l)).matches' = {[d]} + (oneOf l).matches' := rfl
    rw [hcons, Language.mem_add, ih, List.exists_mem_cons_iff]
    exact or_congr_left Iff.rfl

theorem mem_anyOf_iff {l : List (RegularExpression Char)} :
    t ∈ (anyOf l).matches' ↔ ∃ r ∈ l, t ∈ r.matches' := by
  induction l with
  | nil => simp [anyOf, Language.notMem_zero]
  | cons d l ih =>
    have hcons : (anyOf (d :: l)).matches' = d.matches' + (anyOf l).matches' := rfl
    rw [hcons, Language.mem_add, ih]
    simp

theorem mem_mul_iff {r₁ r₂ : RegularExpression Char} :
    t ∈ (r₁ * r₂).matches' ↔ ∃ u ∈ r₁.matches', ∃ v ∈ r₂.matches', u ++ v = t := by
  rw [matches'_mul, Language.mem_mul]

theorem mem_star_oneOf_iff : t ∈ (oneOf l).star.matches' ↔ ∀ c ∈ t, c ∈ l := by
  rw [matches'_star, Language.mem_kstar]
  constructor
  · rintro ⟨parts, rfl, hparts⟩ c hc
    obtain ⟨p, hp, hcp⟩ := List.mem_flatten.1 hc
    obtain ⟨d, hd, rfl⟩ := mem_oneOf_iff.1 (hparts p hp)
    exact List.mem_singleton.1 hcp ▸ hd
  · intro h
    refine ⟨t.map fun c => [c], ?_, fun p hp => ?_⟩
    · rw [← List.flatMap_def]
      exact (List.flatMap_singleton' t).symm
    · obtain ⟨c, hc, rfl⟩ := List.mem_map.1 hp
      exact mem_oneOf_iff.2 ⟨c, h c hc, rfl⟩

/-- A word is matched letter by letter. -/
theorem mem_foldWord_iff :
    t ∈ (foldWord w).matches' ↔ List.Forall₂ (fun c d => d ∈ foldCases c) w t := by
  induction w generalizing t with
  | nil =>
    have hnil : (foldWord []).matches' = 1 := rfl
    rw [hnil, Language.mem_one, List.forall₂_nil_left_iff]
  | cons c w ih =>
    have hcons : foldWord (c :: w) = oneOf (foldCases c) * foldWord w := rfl
    rw [hcons, mem_mul_iff, List.forall₂_cons_left_iff]
    constructor
    · rintro ⟨u, hu, v, hv, rfl⟩
      obtain ⟨d, hd, rfl⟩ := mem_oneOf_iff.1 hu
      exact ⟨d, v, hd, ih.1 hv, rfl⟩
    · rintro ⟨d, v, hd, hv, rfl⟩
      exact ⟨[d], mem_oneOf_iff.2 ⟨d, hd, rfl⟩, v, ih.2 hv, rfl⟩

/-- `^\s*(?i)(W₁|…|Wₙ)\s+` -/
def leading (words : List Text) : RegularExpression Char :=
  (oneOf blanks).star * (anyOf (words.map foldWord) * oneOrMore (oneOf blanks))

/-- One of some words at the beginning, with blanks around it. -/
theorem matchString_leading_iff {words : List Text} :
    matchString (leading words) t = true ↔
      ∃ b w c r, t = b ++ (w ++ c :: r) ∧ (∀ d ∈ b, d ∈ blanks) ∧ c ∈ blanks ∧
        ∃ k ∈ words, List.Forall₂ (fun c d => d ∈ foldCases c) k w := by
  rw [matchString_iff]
  constructor
  · rintro ⟨u, v, rfl, hu⟩
    obtain ⟨b, hb, u', hu', rfl⟩ := mem_mul_iff.1 hu
    obtain ⟨w, hw, s, hs, rfl⟩ := mem_mul_iff.1 hu'
    obtain ⟨s₁, hs₁, s₂, -, rfl⟩ := mem_mul_iff.1 hs
    obtain ⟨c, hc, rfl⟩ := mem_oneOf_iff.1 hs₁
    obtain ⟨_, hr, hw⟩ := mem_anyOf_iff.1 hw
    obtain ⟨k, hk, rfl⟩ := List.mem_map.1 hr
    refine ⟨b, w, c, s₂ ++ v, ?_, mem_star_oneOf_iff.1 hb, hc, k, hk, mem_foldWord_iff.1 hw⟩
    simp only [List.append_assoc, List.cons_append, List.nil_append]
  · rintro ⟨b, w, c, r, rfl, hb, hc, k, hk, hw⟩
    refine ⟨b ++ (w ++ ([c] ++ [])), r, by simp,
      mem_mul_iff.2 ⟨b, mem_star_oneOf_iff.2 hb, _, ?_, rfl⟩⟩
    refine mem_mul_iff.2 ⟨w, mem_anyOf_iff.2 ⟨_, List.mem_map_of_mem hk, mem_foldWord_iff.2 hw⟩,
      _, ?_, rfl⟩
    exact mem_mul_iff.2 ⟨[c], mem_oneOf_iff.2 ⟨c, hc, rfl⟩, [], mem_star_oneOf_iff.2 nofun, rfl⟩

end Pattern

end GinRpc
