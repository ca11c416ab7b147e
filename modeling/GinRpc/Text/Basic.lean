import Mathlib.Tactic

/-!
# Texts

A text is a list of characters; string literals are coerced.  The operations are those of Go's
`strings` package that query builders are written with: `trimSpace`, `fields`, `replaceFirst`
(`strings.Replace` with count one), and decimal numbers.

`segments` splits a text at the matches of the regular expression `\$(\d+)`, leftmost and longest
first; `bump` adds an offset to the numbers it finds (`ReplaceAllStringFunc`), `numbers` lists them.
-/

namespace GinRpc

/-- A text as a list of characters. -/
abbrev Text := List Char

instance : Coe String Text := ⟨String.toList⟩

namespace Text

/-! ### Spaces -/

/-- White space as in `unicode.IsSpace`. -/
def isSpace (c : Char) : Bool :=
  c.toNat ∈ [0x09, 0x0A, 0x0B, 0x0C, 0x0D, 0x20, 0x85, 0xA0, 0x1680, 0x2028, 0x2029, 0x202F,
    0x205F, 0x3000] || (decide (0x2000 ≤ c.toNat) && decide (c.toNat ≤ 0x200A))

/-- Drop leading and trailing white space. -/
def trimSpace (t : Text) : Text := ((t.dropWhile isSpace).reverse.dropWhile isSpace).reverse

/-- The words of `t`, where `word` has been read already. -/
def fieldsFrom (word : Text) : Text → List Text
  | [] => if word = [] then [] else [word]
  | c :: t =>
    if isSpace c then
      if word = [] then fieldsFrom [] t else word :: fieldsFrom [] t
    else fieldsFrom (word ++ [c]) t

/-- Split at runs of white space. -/
def fields (t : Text) : List Text := fieldsFrom [] t

/-- `unicode.ToUpper`, exact on the characters whose upper case is an ASCII letter: those of
ASCII, the dotless i and the long s. -/
def toUpper (c : Char) : Char :=
  if c.toNat = 0x131 then 'I' else if c.toNat = 0x17F then 'S' else c.toUpper

/-- The capital letter that a character stands for when case is ignored; the long s and the sign for
kelvin are cases of `S` and `K`. -/
def capital (c : Char) : Char :=
  if c.toNat = 0x17F then 'S' else if c.toNat = 0x212A then 'K' else c.toUpper

/-- Some character of `chars` occurs in `t`. -/
def containsAny (t chars : Text) : Bool := t.any fun c => chars.contains c

theorem mem_of_mem_trimSpace {t : Text} {c : Char} (h : c ∈ trimSpace t) : c ∈ t := by
  unfold trimSpace at h
  rw [List.mem_reverse] at h
  have h' := (List.dropWhile_sublist _).subset h
  rw [List.mem_reverse] at h'
  exact (List.dropWhile_sublist _).subset h'

theorem mem_of_mem_fieldsFrom {word t p : Text} {c : Char} (hp : p ∈ fieldsFrom word t)
    (hc : c ∈ p) : c ∈ word ∨ c ∈ t := by
  induction t generalizing word with
  | nil =>
    unfold fieldsFrom at hp
    split_ifs at hp
    · cases hp
    · exact .inl (List.mem_singleton.1 hp ▸ hc)
  | cons d t ih =>
    unfold fieldsFrom at hp
    split_ifs at hp with _ hw
    · obtain h | h := ih hp
      · cases h
      · exact .inr (List.mem_cons_of_mem _ h)
    · obtain rfl | hp := List.mem_cons.1 hp
      · exact .inl hc
      · obtain h | h := ih hp
        · cases h
        · exact .inr (List.mem_cons_of_mem _ h)
    · obtain h | h := ih hp
      · rw [List.mem_append, List.mem_singleton] at h
        obtain h | rfl := h
        · exact .inl h
        · exact .inr List.mem_cons_self
      · exact .inr (List.mem_cons_of_mem _ h)

theorem mem_of_mem_fields {t p : Text} {c : Char} (hp : p ∈ fields t) (hc : c ∈ p) : c ∈ t :=
  (mem_of_mem_fieldsFrom hp hc).resolve_left List.not_mem_nil

theorem isSpace_getLast_trimSpace {t : Text} {c : Char} (h : (trimSpace t).getLast? = some c) :
    isSpace c = false := by
  rw [trimSpace, List.getLast?_reverse] at h
  have hnot := List.head?_dropWhile_not isSpace (t.dropWhile isSpace).reverse
  rw [h] at hnot
  simpa using hnot

/-! ### Joining -/

theorem mem_intercalate {β : Type*} {x : β} {sep : List β} {ts : List (List β)}
    (h : x ∈ sep.intercalate ts) : x ∈ sep ∨ ∃ t ∈ ts, x ∈ t := by
  induction ts with
  | nil => simp at h
  | cons t ts ih =>
    cases ts with
    | nil => exact .inr ⟨t, by simp, by simpa using h⟩
    | cons t' ts =>
      simp only [List.intercalate_cons_cons, List.mem_append] at h
      obtain (h | h) | h := h
      · exact .inr ⟨t, by simp, h⟩
      · exact .inl h
      · obtain h | ⟨u, hu, hx⟩ := ih h
        · exact .inl h
        · exact .inr ⟨u, List.mem_cons_of_mem _ hu, hx⟩

theorem mem_intercalate_of_mem {β : Type*} {x : β} {sep t : List β} {ts : List (List β)}
    (ht : t ∈ ts) (hx : x ∈ t) : x ∈ sep.intercalate ts := by
  induction ts with
  | nil => cases ht
  | cons u ts ih =>
    cases ts with
    | nil => obtain rfl := List.mem_singleton.1 ht; simpa using hx
    | cons u' ts =>
      simp only [List.intercalate_cons_cons, List.mem_append]
      obtain rfl | ht := List.mem_cons.1 ht
      · exact .inl (.inl hx)
      · exact .inr (ih ht)

theorem mem_of_mem_splitOn {sep c : Char} {t p : Text} (hp : p ∈ t.splitOn sep) (hc : c ∈ p) :
    c ∈ t := by
  rw [← @List.intercalate_splitOn Char t _ _ sep]
  exact mem_intercalate_of_mem hp hc

/-- The order of `sort.Strings`: comparing code points agrees with comparing the bytes. -/
def less (s t : Text) : Bool := (s.map Char.toNat).lex (t.map Char.toNat) fun x y => decide (x < y)

/-! ### Replacing -/

/-- Replace the first occurrence of `old`. -/
def replaceFirst (old new : Text) : Text → Text
  | [] => if old = [] then new else []
  | c :: t =>
    if old.isPrefixOf (c :: t) then new ++ (c :: t).drop old.length
    else c :: replaceFirst old new t

theorem replaceFirst_char {q : Char} {new pre rest : Text} (h : q ∉ pre) :
    replaceFirst [q] new (pre ++ q :: rest) = pre ++ new ++ rest := by
  induction pre with
  | nil => simp [replaceFirst]
  | cons c pre ih =>
    rw [List.mem_cons, not_or] at h
    simp [replaceFirst, h.1, ih h.2]

theorem replaceFirst_self {q : Char} (t : Text) : replaceFirst [q] [q] t = t := by
  induction t with
  | nil => rfl
  | cons c t ih =>
    by_cases h : q = c
    · subst h; simp [replaceFirst]
    · simp [replaceFirst, h, ih]

/-! ### Decimal numbers -/

/-- The decimal digits of a number. -/
def decimal (n : ℕ) : Text := Nat.toDigits 10 n

/-- An integer in decimal notation. -/
def itoa (n : ℤ) : Text := if n < 0 then '-' :: decimal n.natAbs else decimal n.natAbs

/-- The number a text of digits stands for. -/
def atoi (digits : Text) : ℕ := Nat.ofDigitChars 10 digits 0

@[simp] theorem atoi_decimal (n : ℕ) : atoi (decimal n) = n :=
  Nat.ofDigitChars_toDigits (by decide) (by decide)

theorem decimal_ne_nil (n : ℕ) : decimal n ≠ [] := Nat.toDigits_ne_nil

theorem isDigit_of_mem_decimal {n : ℕ} {c : Char} (h : c ∈ decimal n) : c.isDigit = true :=
  Nat.isDigit_of_mem_toDigits (by decide) (by decide) h

theorem notMem_decimal {n : ℕ} {c : Char} (hc : c.isDigit = false) : c ∉ decimal n := by
  intro h
  rw [isDigit_of_mem_decimal h] at hc
  cases hc

/-- A piece of a text: a character outside all matches of the expression, or the digits of a
match. -/
inductive Segment where
  | char (c : Char)
  | match_ (digits : Text)
  deriving DecidableEq, Repr

/-- What has been read since the last `$`, if it may still become a match. -/
def Segment.ofPending (digits : Text) : Segment :=
  if digits = [] then .char '$' else .match_ digits

/-- The segments of a text.  The first argument holds the digits read since a `$`. -/
def segmentsFrom : Option Text → Text → List Segment
  | none, [] => []
  | some digits, [] => [.ofPending digits]
  | none, c :: t => if c = '$' then segmentsFrom (some []) t else .char c :: segmentsFrom none t
  | some digits, c :: t =>
    if c.isDigit then segmentsFrom (some (digits ++ [c])) t
    else .ofPending digits ::
      (if c = '$' then segmentsFrom (some []) t else .char c :: segmentsFrom none t)

/-- The segments of a text. -/
def segments (t : Text) : List Segment := segmentsFrom none t

/-- Add `offset` to every number that follows a `$`. -/
def bump (offset : ℕ) (t : Text) : Text :=
  (segments t).flatMap fun
    | .char c => [c]
    | .match_ digits => '$' :: decimal (atoi digits + offset)

/-- The numbers that follow a `$`, from left to right. -/
def numbers (t : Text) : List ℕ :=
  (segments t).filterMap fun
    | .char _ => none
    | .match_ digits => some (atoi digits)

theorem segmentsFrom_digits (ds digits rest : Text) (h : ∀ c ∈ ds, c.isDigit = true) :
    segmentsFrom (some digits) (ds ++ rest) = segmentsFrom (some (digits ++ ds)) rest := by
  induction ds generalizing digits with
  | nil => simp
  | cons c ds ih =>
    rw [List.cons_append, segmentsFrom, if_pos (h c List.mem_cons_self),
      ih _ fun d hd => h d (List.mem_cons_of_mem _ hd)]
    simp

/-- A pending match ends at the end of the text or at a character that is no digit. -/
theorem segmentsFrom_some {digits t : Text} (h : ∀ c ∈ t.head?, c.isDigit = false) :
    segmentsFrom (some digits) t = .ofPending digits :: segmentsFrom none t := by
  cases t with
  | nil => simp [segmentsFrom]
  | cons c t =>
    have hc : c.isDigit = false := h c rfl
    simp only [segmentsFrom, hc, Bool.false_eq_true, if_false]

end Text

end GinRpc
