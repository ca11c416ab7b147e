import GinRpc.Text.Basic
import Mathlib.Data.List.ReduceOption

/-!
# Woven texts

A *woven* text is a text in which every placeholder carries the argument it was introduced with.
`ink` forgets the arguments and gives the text as it is written, `holes` gives the arguments from
left to right: a text and an argument list that come from one woven text belong together.

A placeholder is written `?` or, when it has a number, `$n`.

* `fill` numbers the open placeholders from left to right, `shift` adds an offset to the numbers.
* `replaceLoop_ink` and `bump_ink` : replacing `?` one at a time and renumbering by the regular
  expression do just that on texts that come from tidy woven texts.
* `Marked R s w` : every placeholder satisfies `R` of its position and its number; an instance is
  `Numbered s w`, the placeholders are `$(s+1), $(s+2), …` from left to right.
-/

namespace GinRpc

open Text

/-- A character, or a placeholder with its argument and, if it has one, its number. -/
inductive Tok (α : Type*) where
  | lit (c : Char)
  | hole (a : α) (mark : Option ℕ)
  deriving DecidableEq, Repr

/-- A text whose placeholders carry their arguments. -/
abbrev Woven (α : Type*) := List (Tok α)

namespace Woven

variable {α : Type*}

/-- How a placeholder is written. -/
def markInk : Option ℕ → Text
  | none => ['?']
  | some n => '$' :: decimal n

/-- How a token is written. -/
def tokInk : Tok α → Text
  | .lit c => [c]
  | .hole _ mark => markInk mark

/-- The text as it is written. -/
def ink (w : Woven α) : Text := w.flatMap tokInk

/-- The arguments from left to right. -/
def holes (w : Woven α) : List α :=
  w.filterMap fun
    | .lit _ => none
    | .hole a _ => some a

/-- The numbers of the placeholders from left to right. -/
def marks (w : Woven α) : List (Option ℕ) :=
  w.filterMap fun
    | .lit _ => none
    | .hole _ mark => some mark

/-- A text without placeholders. -/
def lits (t : Text) : Woven α := t.map .lit

/-- Give the placeholders `?` of a text their arguments. -/
def thread : Text → List α → Woven α
  | [], _ => []
  | c :: t, [] => .lit c :: thread t []
  | c :: t, a :: args =>
    if c = '?' then .hole a none :: thread t args else .lit c :: thread t (a :: args)

/-- Number the open placeholders by `mark`, from index `i` on. -/
def fill (mark : ℕ → Option ℕ) : ℕ → Woven α → Woven α
  | _, [] => []
  | i, .lit c :: w => .lit c :: fill mark i w
  | i, .hole a none :: w => .hole a (mark i) :: fill mark (i + 1) w
  | i, .hole a (some n) :: w => .hole a (some n) :: fill mark i w

/-- Add an offset to all numbers. -/
def shift (offset : ℕ) (w : Woven α) : Woven α :=
  w.map fun
    | .lit c => .lit c
    | .hole a mark => .hole a (mark.map (· + offset))

/-! ### Ink, holes and marks of composed texts -/

@[simp] theorem ink_nil : ink ([] : Woven α) = [] := rfl

@[simp] theorem ink_append (u v : Woven α) : ink (u ++ v) = ink u ++ ink v := List.flatMap_append

@[simp] theorem ink_lits (t : Text) : ink (lits t : Woven α) = t := by
  induction t with
  | nil => rfl
  | cons c t ih => simpa [ink, lits, tokInk] using ih

@[simp] theorem ink_lit_cons (c : Char) (w : Woven α) : ink (.lit c :: w) = c :: ink w := rfl

@[simp] theorem ink_hole_cons (a : α) (m : Option ℕ) (w : Woven α) :
    ink (.hole a m :: w) = markInk m ++ ink w := rfl

@[simp] theorem holes_nil : holes ([] : Woven α) = [] := rfl

@[simp] theorem holes_append (u v : Woven α) : holes (u ++ v) = holes u ++ holes v :=
  List.filterMap_append

@[simp] theorem holes_lit_cons (c : Char) (w : Woven α) : holes (.lit c :: w) = holes w := rfl

@[simp] theorem holes_hole_cons (a : α) (m : Option ℕ) (w : Woven α) :
    holes (.hole a m :: w) = a :: holes w := rfl

@[simp] theorem holes_lits (t : Text) : holes (lits t : Woven α) = [] := by
  induction t with
  | nil => rfl
  | cons c t ih => exact ih

@[simp] theorem marks_nil : marks ([] : Woven α) = [] := rfl

@[simp] theorem marks_append (u v : Woven α) : marks (u ++ v) = marks u ++ marks v :=
  List.filterMap_append

@[simp] theorem marks_lit_cons (c : Char) (w : Woven α) : marks (.lit c :: w) = marks w := rfl

@[simp] theorem marks_hole_cons (a : α) (m : Option ℕ) (w : Woven α) :
    marks (.hole a m :: w) = m :: marks w := rfl

@[simp] theorem marks_lits (t : Text) : marks (lits t : Woven α) = [] := by
  induction t with
  | nil => rfl
  | cons c t ih => exact ih

@[simp] theorem lits_nil : (lits [] : Woven α) = [] := rfl

@[simp] theorem lits_append (s t : Text) : (lits (s ++ t) : Woven α) = lits s ++ lits t :=
  List.map_append

theorem length_marks (w : Woven α) : (marks w).length = (holes w).length := by
  induction w with
  | nil => rfl
  | cons t w ih => cases t <;> simp [ih]

theorem ink_intercalate (sep : Text) (ws : List (Woven α)) :
    ink ((lits sep).intercalate ws) = sep.intercalate (ws.map ink) := by
  induction ws with
  | nil => simp
  | cons w ws ih =>
    cases ws with
    | nil => simp
    | cons w' ws => simp only [List.intercalate_cons_cons, List.map_cons, ink_append, ink_lits,
        ih]

theorem filterMap_intercalate {β : Type*} {f : Tok α → Option β} {sep : Woven α}
    (h : sep.filterMap f = []) (ws : List (Woven α)) :
    (sep.intercalate ws).filterMap f = ws.flatMap (List.filterMap f) := by
  induction ws with
  | nil => simp
  | cons w ws ih =>
    cases ws with
    | nil => simp
    | cons w' ws => simp only [List.intercalate_cons_cons, List.filterMap_append, h, ih,
        List.append_nil, List.flatMap_cons]

theorem holes_intercalate (sep : Text) (ws : List (Woven α)) :
    holes ((lits sep).intercalate ws) = ws.flatMap holes :=
  filterMap_intercalate (holes_lits sep) ws

theorem marks_intercalate (sep : Text) (ws : List (Woven α)) :
    marks ((lits sep).intercalate ws) = ws.flatMap marks :=
  filterMap_intercalate (marks_lits sep) ws

/-! ### Tidy texts -/

/-- No digit follows a `$` or a `?`. -/
def Spaced (t : Text) : Prop :=
  t.IsChain fun c d => c = '$' ∨ c = '?' → d.isDigit = false

instance (t : Text) : Decidable (Spaced t) :=
  inferInstanceAs (Decidable (List.IsChain _ t))

/-- A digit written after the token could be read as part of a placeholder number. -/
def opens : Tok α → Bool
  | .lit c => c == '$'
  | .hole _ _ => true

/-- The token is a digit. -/
def isDigit : Tok α → Bool
  | .lit c => c.isDigit
  | .hole _ _ => false

/-- The second token may follow the first one. -/
def Compat (x y : Tok α) : Prop := opens x = true → isDigit y = false

/-- A woven text in which every `?` is a placeholder and, if placeholders are `numbered`, every
match of `\$(\d+)` is one; otherwise no placeholder has a number. -/
structure Tidy (numbered : Bool) (w : Woven α) : Prop where
  quiet : .lit '?' ∉ w
  chain : numbered = true → w.IsChain Compat
  unmarked : numbered = false → ∀ m ∈ marks w, m = none

/-- A text that may stand between any two tidy texts. -/
def isSep (s : Text) : Bool :=
  s.head?.any (fun c => !c.isDigit) && !s.contains '$' && !s.contains '?'

section Tidy

variable {b : Bool} {u v w : Woven α} {t s : Text}

theorem tidy_nil : Tidy b ([] : Woven α) where
  quiet := List.not_mem_nil
  chain _ := .nil
  unmarked _ m hm := by cases hm

theorem tidy_hole (a : α) {m : Option ℕ} (hm : b = false → m = none) :
    Tidy b ([.hole a m] : Woven α) where
  quiet := by simp
  chain _ := .singleton _
  unmarked hb m' hm' := by
    rw [marks_hole_cons, marks_nil, List.mem_singleton] at hm'
    rw [hm', hm hb]

theorem tidy_lits (hq : '?' ∉ t) (hs : b = true → Spaced t) : Tidy b (lits t : Woven α) where
  quiet h := by
    obtain ⟨c, hc, he⟩ := List.mem_map.1 h
    exact hq (Tok.lit.inj he ▸ hc)
  chain hb := by
    refine (List.isChain_map Tok.lit).2 ((hs hb).imp fun c d h ho => ?_)
    exact h (.inl (by simpa [opens] using ho))
  unmarked _ m hm := by simp at hm

theorem Tidy.append (hu : Tidy b u) (hv : Tidy b v)
    (hj : b = true → ∀ x ∈ u.getLast?, ∀ y ∈ v.head?, Compat x y) : Tidy b (u ++ v) where
  quiet h := (List.mem_append.1 h).elim hu.quiet hv.quiet
  chain hb := List.isChain_append.2 ⟨hu.chain hb, hv.chain hb, hj hb⟩
  unmarked hb m hm := by
    rw [marks_append, List.mem_append] at hm
    exact hm.elim (hu.unmarked hb m) (hv.unmarked hb m)

theorem spaced_of_notMem (hd : '$' ∉ t) (hq : '?' ∉ t) : Spaced t := by
  induction t with
  | nil => exact .nil
  | cons c t ih =>
    simp only [List.mem_cons, not_or] at hd hq
    refine (ih hd.2 hq.2).cons fun d _ hc => ?_
    obtain rfl | rfl := hc
    · exact absurd rfl hd.1
    · exact absurd rfl hq.1

theorem isSep_iff : isSep s = true ↔
    (∃ c r, s = c :: r ∧ c.isDigit = false) ∧ '$' ∉ s ∧ '?' ∉ s := by
  cases s with
  | nil => simp [isSep]
  | cons c r => simp [isSep, and_assoc]

theorem tidy_sep (hs : isSep s = true) : Tidy b (lits s : Woven α) := by
  obtain ⟨-, hd, hq⟩ := isSep_iff.1 hs
  exact tidy_lits hq fun _ => spaced_of_notMem hd hq

theorem Tidy.sep_left (hs : isSep s = true) (hv : Tidy b v) : Tidy b (lits s ++ v) := by
  refine (tidy_sep hs).append hv fun _ x hx y _ ho => ?_
  -- the last character of a separator is no `$`
  obtain ⟨-, hd, -⟩ := isSep_iff.1 hs
  obtain ⟨c, hc, rfl⟩ := List.mem_map.1 (List.mem_of_getLast? hx)
  rw [opens, beq_iff_eq] at ho
  exact absurd (ho ▸ hc) hd

/-- Two tidy texts with a separator between them. -/
theorem Tidy.sep (hu : Tidy b u) (hs : isSep s = true) (hv : Tidy b v) :
    Tidy b (u ++ lits s ++ v) := by
  rw [List.append_assoc]
  refine hu.append (hv.sep_left hs) fun _ x _ y hy _ => ?_
  -- and its first one is no digit
  obtain ⟨⟨c, r, rfl, hc⟩, -⟩ := isSep_iff.1 hs
  obtain rfl : Tok.lit c = y := by simpa [lits] using hy
  exact hc

theorem Tidy.sep_right (hu : Tidy b u) (hs : isSep s = true) : Tidy b (u ++ lits s) := by
  simpa using hu.sep hs tidy_nil

theorem tidy_intercalate (hs : isSep s = true) {ws : List (Woven α)}
    (h : ∀ w ∈ ws, Tidy b w) : Tidy b ((lits s).intercalate ws) := by
  induction ws with
  | nil => simpa using tidy_nil
  | cons w ws ih =>
    cases ws with
    | nil => simpa using h w
    | cons w' ws =>
      rw [List.intercalate_cons_cons]
      exact (h w (by simp)).sep hs (ih fun x hx => h x (List.mem_cons_of_mem _ hx))

/-- Threading a fragment that has as many `?` as arguments. -/
theorem thread_spec {args : List α} (h : t.count '?' = args.length) :
    ink (thread t args) = t ∧ holes (thread t args) = args ∧ .lit '?' ∉ thread t args := by
  induction t generalizing args with
  | nil =>
    obtain rfl := List.length_eq_zero_iff.1 h.symm
    exact ⟨rfl, rfl, List.not_mem_nil⟩
  | cons c t ih =>
    by_cases hc : c = '?'
    · subst hc
      rw [List.count_cons_self] at h
      cases args with
      | nil => simp at h
      | cons a args =>
        obtain ⟨h1, h2, h3⟩ := ih (Nat.succ.inj h)
        simp [thread, h1, h2, h3, markInk]
    · rw [List.count_cons_of_ne hc] at h
      obtain ⟨h1, h2, h3⟩ := ih h
      cases args <;> simp [thread, hc, h1, h2, h3, Ne.symm hc]

theorem thread_nil (t : Text) : thread t ([] : List α) = lits t := by
  induction t with
  | nil => rfl
  | cons c t ih => exact congrArg (Tok.lit c :: ·) ih

theorem marks_thread (t : Text) (args : List α) : ∀ m ∈ marks (thread t args), m = none := by
  induction t generalizing args with
  | nil => intro m hm; cases hm
  | cons c t ih =>
    cases args with
    | nil => exact ih []
    | cons a args =>
      rw [thread]
      split_ifs
      · intro m hm
        obtain rfl | hm := List.mem_cons.1 hm
        · rfl
        · exact ih _ m hm
      · exact ih _

/-- A threaded text begins with a digit only if the text does. -/
theorem head?_thread {args : List α} (h : ∀ c ∈ t.head?, c.isDigit = false) :
    ∀ y ∈ (thread t args).head?, isDigit y = false := by
  intro y hy
  cases t with
  | nil => simp [thread] at hy
  | cons c t =>
    have hc := h c rfl
    cases args with
    | nil => obtain rfl := Option.some.inj hy; exact hc
    | cons a args =>
      rw [thread] at hy
      split_ifs at hy
      · obtain rfl := Option.some.inj hy; rfl
      · obtain rfl := Option.some.inj hy; exact hc

theorem chain_thread (hs : Spaced t) (args : List α) : (thread t args).IsChain Compat := by
  induction t generalizing args with
  | nil => exact .nil
  | cons c t ih =>
    have hnext : ∀ args : List α, c = '$' ∨ c = '?' →
        ∀ y ∈ (thread t args).head?, isDigit y = false := fun args hc =>
      head?_thread fun d hd => hs.rel_head? hd hc
    cases args with
    | nil =>
      exact (ih hs.tail _).cons fun y hy ho => hnext _ (.inl (by simpa [opens] using ho)) y hy
    | cons a args =>
      rw [thread]
      split_ifs with hc
      · exact (ih hs.tail _).cons fun y hy _ => hnext _ (.inr hc) y hy
      · exact (ih hs.tail _).cons fun y hy ho => hnext _ (.inl (by simpa [opens] using ho)) y hy

theorem tidy_thread {args : List α} (h : t.count '?' = args.length)
    (hs : b = true → Spaced t) : Tidy b (thread t args) where
  quiet := (thread_spec h).2.2
  chain hb := chain_thread (hs hb) args
  unmarked _ := marks_thread t args

/-! ### Filling and shifting -/

theorem holes_fill (mark : ℕ → Option ℕ) (i : ℕ) (w : Woven α) :
    holes (fill mark i w) = holes w := by
  induction w generalizing i with
  | nil => rfl
  | cons x w ih => rcases x with c | ⟨a, _ | n⟩ <;> simp [fill, ih]

theorem holes_shift (offset : ℕ) (w : Woven α) : holes (shift offset w) = holes w := by
  induction w with
  | nil => rfl
  | cons x w ih => cases x <;> simpa [shift] using ih

theorem shift_zero (w : Woven α) : shift 0 w = w := by
  induction w with
  | nil => rfl
  | cons x w ih => cases x <;> simpa [shift] using ih

theorem shift_eq_self (h : ∀ m ∈ marks w, m = none) (offset : ℕ) : shift offset w = w := by
  induction w with
  | nil => rfl
  | cons x w ih =>
    cases x with
    | lit c => simpa [shift] using ih h
    | hole a m =>
      obtain rfl : m = none := h m (by simp)
      simpa [shift] using ih fun m hm => h m (List.mem_cons_of_mem _ hm)

theorem fill_append (mark : ℕ → Option ℕ) (i : ℕ) (u v : Woven α) :
    fill mark i (u ++ v) = fill mark i u ++ fill mark (i + (marks u).count none) v := by
  induction u generalizing i with
  | nil => simp [fill]
  | cons x u ih =>
    rcases x with c | ⟨a, _ | n⟩ <;> simp [fill, ih, Nat.add_assoc, Nat.add_comm 1]

theorem fill_lits (mark : ℕ → Option ℕ) (i : ℕ) (t : Text) :
    fill mark i (lits t : Woven α) = lits t := by
  induction t with
  | nil => rfl
  | cons c t ih => exact congrArg (Tok.lit c :: ·) ih

theorem quiet_fill (mark : ℕ → Option ℕ) (i : ℕ) (h : .lit '?' ∉ w) :
    .lit '?' ∉ fill mark i w := by
  induction w generalizing i with
  | nil => exact h
  | cons x w ih =>
    simp only [List.mem_cons, not_or] at h
    rcases x with c | ⟨a, _ | n⟩ <;> simp [fill, h.1, ih _ h.2]

theorem head?_fill (mark : ℕ → Option ℕ) (i : ℕ) {y : Tok α} (hy : y ∈ (fill mark i w).head?) :
    ∃ x ∈ w.head?, isDigit x = isDigit y := by
  rcases w with _ | ⟨c | ⟨a, _ | n⟩, w⟩
  · cases hy
  all_goals exact ⟨_, rfl, by obtain rfl := Option.some.inj hy; rfl⟩

theorem chain_fill (mark : ℕ → Option ℕ) (i : ℕ) (h : w.IsChain Compat) :
    (fill mark i w).IsChain Compat := by
  induction w generalizing i with
  | nil => exact .nil
  | cons x w ih =>
    have hnext : ∀ j, opens x = true → ∀ y ∈ (fill mark j w).head?, isDigit y = false := by
      intro j ho y hy
      obtain ⟨z, hz, he⟩ := head?_fill mark j hy
      rw [← he]
      exact h.rel_head? hz ho
    rcases x with c | ⟨a, _ | n⟩
    · exact (ih i h.tail).cons fun y hy ho => hnext i ho y hy
    · exact (ih (i + 1) h.tail).cons fun y hy _ => hnext (i + 1) rfl y hy
    · exact (ih i h.tail).cons fun y hy _ => hnext i rfl y hy

theorem fill_unmarked {mark : ℕ → Option ℕ} (hm : ∀ i, mark i = none) (i : ℕ) (w : Woven α) :
    fill mark i w = w := by
  induction w generalizing i with
  | nil => rfl
  | cons x w ih => rcases x with c | ⟨a, _ | n⟩ <;> simp [fill, hm, ih]

theorem Tidy.fill {mark : ℕ → Option ℕ} (hm : b = false → ∀ i, mark i = none) (i : ℕ)
    (h : Tidy b w) : Tidy b (fill mark i w) where
  quiet := quiet_fill mark i h.quiet
  chain hb := chain_fill mark i (h.chain hb)
  unmarked hb := by
    rw [fill_unmarked (hm hb)]
    exact h.unmarked hb

theorem Tidy.shift (offset : ℕ) (h : Tidy b w) : Tidy b (shift offset w) where
  quiet hm := by
    obtain ⟨x, hx, he⟩ := List.mem_map.1 hm
    cases x with
    | lit c => exact h.quiet (he ▸ hx)
    | hole a m => cases he
  chain hb := by
    refine (List.isChain_map _).2 ((h.chain hb).imp fun x y hxy ho => ?_)
    cases x <;> cases y <;> first | rfl | exact hxy ho
  unmarked hb := by
    rw [shift_eq_self (h.unmarked hb)]
    exact h.unmarked hb

/-! ### What the texts look like -/

theorem notMem_markInk_some (n : ℕ) : '?' ∉ markInk (some n) := by
  rw [markInk, List.mem_cons, not_or]
  refine ⟨by decide, fun h => ?_⟩
  have := isDigit_of_mem_decimal h
  revert this
  decide

/-- The `?` of the text are the open placeholders. -/
theorem count_ink (h : .lit '?' ∉ w) : (ink w).count '?' = (marks w).count none := by
  induction w with
  | nil => rfl
  | cons x w ih =>
    rw [List.mem_cons, not_or] at h
    rcases x with c | ⟨a, _ | n⟩
    · have hc : c ≠ '?' := fun he => h.1 (he ▸ rfl)
      rw [ink_lit_cons, List.count_cons_of_ne hc, ih h.2, marks_lit_cons]
    · simp [markInk, ih h.2]
    · rw [ink_hole_cons, List.count_append, List.count_eq_zero_of_not_mem (notMem_markInk_some n),
        ih h.2]
      simp

/-- Every `?` of a text without numbers is a placeholder. -/
theorem exists_hole {x y : Text} (hq : .lit '?' ∉ w) (hm : ∀ m ∈ marks w, m = none)
    (h : ink w = x ++ '?' :: y) :
    ∃ u a v, w = u ++ .hole a none :: v ∧ ink u = x ∧ ink v = y := by
  induction w generalizing x with
  | nil => simp at h
  | cons t w ih =>
    rw [List.mem_cons, not_or] at hq
    cases t with
    | lit c =>
      cases x with
      | nil =>
        obtain ⟨rfl, -⟩ := List.cons.inj h
        exact absurd rfl hq.1
      | cons d x =>
        obtain ⟨rfl, hw⟩ : c = d ∧ ink w = x ++ '?' :: y := List.cons.inj h
        obtain ⟨u, a, v, rfl, rfl, rfl⟩ := ih hq.2 hm hw
        exact ⟨.lit c :: u, a, v, rfl, rfl, rfl⟩
    | hole a m =>
      obtain rfl : m = none := hm m (by simp)
      have hm : ∀ m ∈ marks w, m = none := fun m h => hm m (List.mem_cons_of_mem _ h)
      cases x with
      | nil => exact ⟨[], a, w, rfl, rfl, (List.cons.inj h).2⟩
      | cons d x =>
        obtain ⟨rfl, hw⟩ : '?' = d ∧ ink w = x ++ '?' :: y := List.cons.inj h
        obtain ⟨u, b, v, rfl, rfl, rfl⟩ := ih hq.2 hm hw
        exact ⟨.hole a none :: u, b, v, rfl, rfl, rfl⟩

/-- Replace `?` by `ph i`, `ph (i + 1)`, …, one at a time. -/
def replaceLoop (ph : ℕ → Text) : ℕ → ℕ → Text → Text
  | 0, _, out => out
  | j + 1, i, out => replaceLoop ph j (i + 1) (replaceFirst ['?'] (ph i) out)

theorem replaceLoop_self (j i : ℕ) (t : Text) : replaceLoop (fun _ => ['?']) j i t = t := by
  induction j generalizing i with
  | zero => rfl
  | succ j ih => rw [replaceLoop, replaceFirst_self, ih]

/-- The loop on a text of which `done` has been dealt with. -/
theorem replaceLoop_append (number : ℕ → ℕ) (h : .lit '?' ∉ w) (i : ℕ) {done : Text}
    (hd : '?' ∉ done) :
    replaceLoop (fun i => markInk (some (number i))) ((marks w).count none) i (done ++ ink w) =
      done ++ ink (fill (fun i => some (number i)) i w) := by
  induction w generalizing i done with
  | nil => rfl
  | cons x w ih =>
    rw [List.mem_cons, not_or] at h
    rcases x with c | ⟨a, _ | n⟩
    · have hc : '?' ∉ done ++ [c] := by
        rw [List.mem_append, not_or, List.mem_singleton]
        exact ⟨hd, fun he => h.1 (he ▸ rfl)⟩
      simpa [fill] using ih h.2 i hc
    · have hn : '?' ∉ done ++ markInk (some (number i)) := by
        rw [List.mem_append, not_or]
        exact ⟨hd, notMem_markInk_some _⟩
      have hstep := ih h.2 (i + 1) hn
      rw [marks_hole_cons, List.count_cons_self, replaceLoop, ink_hole_cons]
      rw [show markInk none ++ ink w = '?' :: ink w from rfl, replaceFirst_char hd]
      simpa [fill] using hstep
    · have hn : '?' ∉ done ++ markInk (some n) := by
        rw [List.mem_append, not_or]
        exact ⟨hd, notMem_markInk_some _⟩
      simpa [fill] using ih h.2 i hn

/-- **Replacing the `?` one at a time numbers the open placeholders.** -/
theorem replaceLoop_ink (number : ℕ → ℕ) (h : .lit '?' ∉ w) (i : ℕ) :
    replaceLoop (fun i => markInk (some (number i))) ((ink w).count '?') i (ink w) =
      ink (fill (fun i => some (number i)) i w) := by
  rw [count_ink h]
  exact replaceLoop_append number h i List.not_mem_nil

/-- The segment a token is written as. -/
def tokSegment : Tok α → Segment
  | .lit c => .char c
  | .hole _ none => .char '?'
  | .hole _ (some n) => .match_ (decimal n)

theorem head?_ink (h : ∀ y ∈ w.head?, isDigit y = false) :
    ∀ c ∈ (ink w).head?, c.isDigit = false := by
  intro c hc
  rcases w with _ | ⟨d | ⟨a, _ | n⟩, w⟩
  · cases hc
  · cases hc
    exact h _ rfl
  all_goals obtain rfl := Option.some.inj hc; decide

theorem segments_ink (h : w.IsChain Compat) : segments (ink w) = w.map tokSegment := by
  unfold segments
  induction w with
  | nil => rfl
  | cons x w ih =>
    have ih := ih h.tail
    have hnext : opens x = true → ∀ c ∈ (ink w).head?, c.isDigit = false := fun ho =>
      head?_ink fun y hy => h.rel_head? hy ho
    rcases x with c | ⟨a, _ | n⟩
    · by_cases hc : c = '$'
      · subst hc
        rw [ink_lit_cons, segmentsFrom, if_pos rfl, segmentsFrom_some (hnext rfl), ih]
        rfl
      · rw [ink_lit_cons, segmentsFrom, if_neg hc, ih]
        rfl
    · rw [ink_hole_cons, show markInk none ++ ink w = '?' :: ink w from rfl, segmentsFrom,
        if_neg (by decide), ih]
      rfl
    · rw [ink_hole_cons, show markInk (some n) ++ ink w = '$' :: (decimal n ++ ink w) from rfl,
        segmentsFrom, if_pos rfl,
        segmentsFrom_digits _ _ _ fun c hc => isDigit_of_mem_decimal hc,
        segmentsFrom_some (hnext rfl), ih, List.map_cons, List.nil_append, Segment.ofPending,
        if_neg (decimal_ne_nil n)]
      rfl

/-- **Renumbering by the regular expression shifts the numbers of the placeholders.** -/
theorem bump_ink (h : w.IsChain Compat) (offset : ℕ) :
    bump offset (ink w) = ink (shift offset w) := by
  rw [bump, segments_ink h, shift, ink, List.flatMap_map, List.flatMap_map]
  refine List.flatMap_congr fun x _ => ?_
  rcases x with c | ⟨a, _ | n⟩ <;> simp [tokSegment, tokInk, markInk]

/-- The numbers in the text are those of the placeholders. -/
theorem numbers_ink (h : w.IsChain Compat) : numbers (ink w) = (marks w).reduceOption := by
  rw [numbers, segments_ink h]
  clear h
  induction w with
  | nil => rfl
  | cons x w ih => rcases x with c | ⟨a, _ | n⟩ <;> simpa [tokSegment] using ih

end Tidy

/-! ### Numbers by position -/

/-- Every placeholder satisfies `R` of its position and its number; the first one has position
`i`. -/
def Marked (R : ℕ → Option ℕ → Prop) : ℕ → Woven α → Prop
  | _, [] => True
  | i, .lit _ :: w => Marked R i w
  | i, .hole _ m :: w => R i m ∧ Marked R (i + 1) w

/-- The placeholder is open. -/
def IsOpen (_ : ℕ) (m : Option ℕ) : Prop := m = none

/-- The number of the placeholder is that of its position, counted from one. -/
def IsNext (i : ℕ) (m : Option ℕ) : Prop := m = some (i + 1)

/-- The number of the placeholder, if it has one, is not above its position, counted from one. -/
def AtMostNext (i : ℕ) (m : Option ℕ) : Prop := ∀ n ∈ m, n ≤ i + 1

/-- The placeholders are `$(s+1), $(s+2), …` from left to right. -/
def Numbered (s : ℕ) (w : Woven α) : Prop := Marked IsNext s w

section Marked

variable {R R' : ℕ → Option ℕ → Prop} {s : ℕ} {u v w : Woven α}

theorem marked_nil : Marked R s ([] : Woven α) := trivial

theorem marked_append :
    Marked R s (u ++ v) ↔ Marked R s u ∧ Marked R (s + (holes u).length) v := by
  induction u generalizing s with
  | nil => simp [Marked]
  | cons x u ih =>
    cases x with
    | lit c => simp [Marked, ih]
    | hole a m => simp [Marked, ih, and_assoc, Nat.add_assoc, Nat.add_comm 1]

theorem marked_lits (t : Text) : Marked R s (lits t : Woven α) := by
  induction t with
  | nil => trivial
  | cons c t ih => exact ih

theorem marked_hole {a : α} {m : Option ℕ} : Marked R s [Tok.hole a m] ↔ R s m := by
  simp [Marked]

theorem marked_of_marks (h : ∀ m ∈ marks w, ∀ i, R i m) : Marked R s w := by
  induction w generalizing s with
  | nil => trivial
  | cons x w ih =>
    cases x with
    | lit c => exact ih h
    | hole a m => exact ⟨h m (by simp) s, ih fun m hm => h m (List.mem_cons_of_mem _ hm)⟩

theorem marked_of_splits
    (h : ∀ u a m v, w = u ++ .hole a m :: v → R (s + (holes u).length) m) : Marked R s w := by
  induction w generalizing s with
  | nil => trivial
  | cons x w ih =>
    cases x with
    | lit c => exact ih fun u a m v hw => h (.lit c :: u) a m v (congrArg (Tok.lit c :: ·) hw)
    | hole a m =>
      refine ⟨h [] a m w rfl, ih fun u b n v hw => ?_⟩
      have := h (.hole a m :: u) b n v (congrArg (Tok.hole a m :: ·) hw)
      rwa [holes_hole_cons, List.length_cons, ← Nat.add_assoc, Nat.add_right_comm] at this

theorem Marked.mono (h : Marked R s w) (hR : ∀ i m, R i m → R' i m) : Marked R' s w := by
  induction w generalizing s with
  | nil => trivial
  | cons x w ih =>
    cases x with
    | lit c => exact ih h
    | hole a m => exact ⟨hR s m h.1, ih h.2⟩

theorem Marked.later (h : Marked R s w) (hR : ∀ i n m, R i m → R (i + n) m) (n : ℕ) :
    Marked R (s + n) w := by
  induction w generalizing s with
  | nil => trivial
  | cons x w ih =>
    cases x with
    | lit c => exact ih h
    | hole a m =>
      refine ⟨hR s n m h.1, ?_⟩
      have := ih h.2
      rwa [Nat.add_right_comm] at this

theorem marked_intercalate (sep : Text) (ws : List (Woven α)) :
    Marked R s ((lits sep).intercalate ws) ↔ Marked R s ws.flatten := by
  induction ws generalizing s with
  | nil => simp
  | cons w ws ih =>
    cases ws with
    | nil => simp
    | cons w' ws =>
      rw [List.intercalate_cons_cons, List.flatten_cons, marked_append, marked_append,
        marked_append, ih]
      simp [marked_lits]

theorem Marked.shift (offset : ℕ) (h : Marked R s w)
    (hR : ∀ i m, R i m → R' (i + offset) (m.map (· + offset))) :
    Marked R' (s + offset) (shift offset w) := by
  induction w generalizing s with
  | nil => trivial
  | cons x w ih =>
    cases x with
    | lit c => exact ih h
    | hole a m =>
      refine ⟨hR s m h.1, ?_⟩
      have := ih h.2
      rwa [Nat.add_right_comm] at this

theorem Numbered.shift (h : Numbered s w) (offset : ℕ) :
    Numbered (s + offset) (Woven.shift offset w) := by
  refine Marked.shift offset h fun i m hm => ?_
  obtain rfl : m = some (i + 1) := hm
  exact congrArg some (Nat.add_right_comm i 1 offset)

theorem Marked.atMost_shift (h : Marked AtMostNext s w) (offset : ℕ) :
    Marked AtMostNext (s + offset) (Woven.shift offset w) := by
  refine Marked.shift offset h fun i m hm n hn => ?_
  obtain ⟨k, hk, rfl⟩ := Option.mem_map.1 hn
  have := hm k hk
  omega

/-- Filling open placeholders numbers them. -/
theorem Marked.open_fill (h : Marked IsOpen s w) (i : ℕ) :
    Numbered i (fill (fun i => some (i + 1)) i w) := by
  induction w generalizing s i with
  | nil => trivial
  | cons x w ih =>
    cases x with
    | lit c => exact ih h i
    | hole a m =>
      obtain ⟨rfl, h⟩ := h
      exact ⟨rfl, ih h (i + 1)⟩

/-- Filling starts with a number that is not too high. -/
theorem Marked.atMost_fill (h : Marked AtMostNext s w) {i j : ℕ} (hj : j ≤ i) (hs : s ≤ i) :
    Marked AtMostNext i (fill (fun i => some (i + 1)) j w) := by
  induction w generalizing s i j with
  | nil => trivial
  | cons x w ih =>
    rcases x with c | ⟨a, _ | n⟩
    · exact ih h hj hs
    · refine ⟨fun n hn => ?_, ih h.2 (by omega) (by omega)⟩
      cases hn
      omega
    · refine ⟨fun k hk => ?_, ih h.2 (by omega) (by omega)⟩
      have := h.1 k hk
      omega

theorem numbered_iff :
    Numbered s w ↔ marks w = (List.range' (s + 1) (holes w).length).map some := by
  unfold Numbered
  induction w generalizing s with
  | nil => simp [Marked]
  | cons x w ih =>
    cases x with
    | lit c => exact ih
    | hole a m => simp [Marked, IsNext, ih, List.range'_succ]

/-- Once an open placeholder follows a numbered one, the numbers are out of step. -/
theorem numbered_fill_of_lt {j : ℕ} (h : j < s) :
    Numbered s (fill (fun i => some (i + 1)) j w) ↔ Numbered s w := by
  unfold Numbered
  induction w generalizing s j with
  | nil => exact Iff.rfl
  | cons x w ih =>
    rcases x with c | ⟨a, _ | n⟩
    · exact ih h
    · simp only [fill, Marked, IsNext, Option.some.injEq, reduceCtorEq, false_and, iff_false]
      omega
    · simp only [fill, Marked, ih (Nat.lt_succ_of_lt h)]

end Marked

end Woven

end GinRpc
