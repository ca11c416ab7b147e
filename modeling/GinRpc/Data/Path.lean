import GinRpc.Text.Basic

/-!
# Slash-separated paths

A path is kept as `filepath.Clean` leaves it: whether it starts at the root, and its elements.
`Path.join` is `filepath.Join` of two texts.

* `Path.join_eq_child` : a text that is the name of a file is the last element of the joined path.
* `Path.text_join_iff` : a joined text stays below what it is joined to exactly if it climbs to no
  place from which it does not return.
-/

namespace GinRpc

/-- A cleaned path. -/
structure Path where
  rooted : Bool
  elems : List Text
  deriving DecidableEq

namespace Path

/-- `Clean` reads one more element. -/
def push (rooted : Bool) (elems : List Text) (e : Text) : List Text :=
  if e = "" ∨ e = "." then elems
  else if e = ".." then
    if elems.getLast?.any (fun last => last != (".." : Text)) then elems.dropLast
    else if rooted then elems
    else elems ++ [e]
  else elems ++ [e]

def clean (t : Text) : Path where
  rooted := t.head? == some '/'
  elems := (t.splitOn '/').foldl (push (t.head? == some '/')) []

def join (dir name : Text) : Path :=
  if dir = [] then clean name
  else if name = [] then clean dir
  else clean (dir ++ '/' :: name)

/-- The entry of a directory with the given name. -/
def child (p : Path) (name : Text) : Path := ⟨p.rooted, p.elems ++ [name]⟩

/-- The text names an entry of a directory. -/
structure IsName (t : Text) : Prop where
  noSlash : '/' ∉ t
  ne_empty : t ≠ ""
  ne_dot : t ≠ "."
  ne_dots : t ≠ ".."

theorem child_injective (p : Path) : Function.Injective p.child := by
  intro name name' h
  have h' : p.elems ++ [name] = p.elems ++ [name'] := congrArg elems h
  simpa using h'

theorem IsName.push {name : Text} (h : IsName name) (rooted : Bool) (elems : List Text) :
    push rooted elems name = elems ++ [name] := by
  rw [Path.push, if_neg (not_or.2 ⟨h.ne_empty, h.ne_dot⟩), if_neg h.ne_dots]

theorem IsName.splitOn {name : Text} (h : IsName name) : name.splitOn '/' = [name] := by
  have hparts : ∀ part ∈ [name], '/' ∉ part := by simpa using h.noSlash
  have h' := List.splitOn_intercalate '/' hparts (List.cons_ne_nil _ _)
  simpa [List.intercalate] using h'

theorem IsName.head?_ne {name : Text} (h : IsName name) : name.head? ≠ some '/' := fun hh =>
  h.noSlash (List.mem_of_mem_head? hh)

/-- The elements of the second text are read after those of the first. -/
theorem join_eq {dir name : Text} (hdir : dir ≠ []) (hname : name ≠ []) :
    join dir name = ⟨(clean dir).rooted,
      (name.splitOn '/').foldl (push (clean dir).rooted) (clean dir).elems⟩ := by
  obtain ⟨c, t, rfl⟩ := List.exists_cons_of_ne_nil hdir
  rw [join, if_neg hdir, if_neg hname, clean, List.splitOn_append_cons_self, List.foldl_append]
  rfl

theorem join_eq_child {name : Text} (h : IsName name) (dir : Text) :
    join dir name = (clean dir).child name := by
  by_cases hdir : dir = []
  · have hroot : (name.head? == some '/') = false := beq_false_of_ne h.head?_ne
    have hempty : (clean []).elems = [] := by decide
    rw [join, if_pos hdir, hdir, child, hempty, clean, h.splitOn, hroot, List.foldl_cons,
      List.foldl_nil, h.push]
    rfl
  · rw [join_eq hdir h.ne_empty, h.splitOn, List.foldl_cons, List.foldl_nil, h.push, child]

/-! ### Texts -/

/-- What `Clean` returns. -/
def text (p : Path) : Text :=
  if p.elems = [] then (if p.rooted then "/" else ".")
  else (if p.rooted then ['/'] else []) ++ ['/'].intercalate p.elems

theorem intercalate_append {sep : Text} {l l' : List Text} (hl : l ≠ []) (hl' : l' ≠ []) :
    sep.intercalate (l ++ l') = sep.intercalate l ++ (sep ++ sep.intercalate l') := by
  induction l with
  | nil => exact absurd rfl hl
  | cons t l ih =>
    rw [List.cons_append,
      List.intercalate_cons_of_ne_nil (List.append_ne_nil_of_right_ne_nil l hl')]
    by_cases hnil : l = []
    · rw [hnil, List.nil_append, List.intercalate_singleton, List.append_assoc]
    · rw [ih hnil, List.intercalate_cons_of_ne_nil hnil]
      simp only [List.append_assoc]

theorem text_append {p : Path} (hp : p.elems ≠ []) {l : List Text} (hl : l ≠ []) :
    text ⟨p.rooted, p.elems ++ l⟩ = p.text ++ '/' :: ['/'].intercalate l := by
  rw [text, text, if_neg hp, if_neg (List.append_ne_nil_of_left_ne_nil hp l),
    intercalate_append hp hl, List.append_assoc, List.singleton_append]

/-- Elements that `Clean` leaves as they are -/
structure Reduced (rooted : Bool) (elems : List Text) : Prop where
  noSlash : ∀ e ∈ elems, '/' ∉ e
  ne_empty : ∀ e ∈ elems, e ≠ []
  foldl_push : elems.foldl (push rooted) [] = elems

variable {rooted : Bool} {elems : List Text} {e : Text}

/-- Names, after steps up that lead above the start -/
def Tidy (rooted : Bool) (elems : List Text) : Prop :=
  ∃ (k : ℕ) (names : List Text), elems = List.replicate k (".." : Text) ++ names ∧
    (rooted = true → k = 0) ∧ ∀ e ∈ names, IsName e

theorem foldl_push_names (rooted : Bool) (base : List Text) {names : List Text}
    (h : ∀ e ∈ names, IsName e) : names.foldl (Path.push rooted) base = base ++ names := by
  induction names generalizing base with
  | nil => rw [List.foldl_nil, List.append_nil]
  | cons e names ih =>
    rw [List.foldl_cons, (h e List.mem_cons_self).push,
      ih _ fun e' he' => h e' (List.mem_cons_of_mem e he'), List.append_assoc,
      List.singleton_append]

/-- Without names the last element is a step up. -/
theorem getLast?_replicate_dots (k : ℕ) :
    ((List.replicate k (".." : Text)).getLast?.any fun last => last != (".." : Text)) = false := by
  rw [List.getLast?_replicate]
  split_ifs <;> simp

/-- `Clean` keeps elements tidy. -/
theorem Tidy.push (h : Tidy rooted elems) (he : '/' ∉ e) : Tidy rooted (push rooted elems e) := by
  obtain ⟨k, names, rfl, hk, hnames⟩ := h
  unfold Path.push
  split_ifs with hdot hdots hlast hroot
  · exact ⟨k, names, rfl, hk, hnames⟩
  · -- the last element is a name, and is taken away
    obtain rfl | ⟨init, last, rfl⟩ := List.eq_nil_or_concat names
    · rw [List.append_nil, getLast?_replicate_dots] at hlast
      cases hlast
    · rw [List.concat_eq_append] at hnames ⊢
      rw [← List.append_assoc, List.dropLast_concat]
      exact ⟨k, init, rfl, hk, fun e he => hnames e (List.mem_append_left _ he)⟩
  · exact ⟨k, names, rfl, hk, hnames⟩
  · -- there is no name yet
    obtain rfl | ⟨init, last, rfl⟩ := List.eq_nil_or_concat names
    · refine ⟨k + 1, [], ?_, fun h => absurd h hroot, hnames⟩
      rw [hdots, List.append_nil, List.append_nil, List.replicate_succ']
    · rw [List.concat_eq_append] at hnames hlast
      have hname := hnames last (List.mem_append_right _ List.mem_cons_self)
      rw [← List.append_assoc, List.getLast?_concat, Option.any_some, bne_iff_ne] at hlast
      exact absurd hname.ne_dots hlast
  · refine ⟨k, names ++ [e], List.append_assoc .., hk, ?_⟩
    rw [List.forall_mem_append, List.forall_mem_singleton]
    rw [not_or] at hdot
    exact ⟨hnames, he, hdot.1, hdot.2, hdots⟩

theorem Tidy.reduced (h : Tidy rooted elems) : Reduced rooted elems := by
  obtain ⟨k, names, rfl, hk, hnames⟩ := h
  have hmem {P : Text → Prop} (hdots : P "..") (hname : ∀ e, IsName e → P e) :
      ∀ e ∈ List.replicate k (".." : Text) ++ names, P e := by
    intro e he
    obtain he | he := List.mem_append.1 he
    · rw [List.eq_of_mem_replicate he]
      exact hdots
    · exact hname e (hnames e he)
  refine ⟨hmem (by decide) fun _ h => h.noSlash, hmem (by decide) fun _ h => h.ne_empty, ?_⟩
  have hups : (List.replicate k (".." : Text)).foldl (Path.push rooted) [] =
      List.replicate k (".." : Text) := by
    cases rooted with
    | true => rw [hk rfl]; rfl
    | false =>
      clear hmem
      induction k with
      | zero => rfl
      | succ k ih =>
        rw [List.replicate_succ', List.foldl_append, ih Bool.false_ne_true.elim, List.foldl_cons,
          List.foldl_nil, Path.push, if_neg (by decide), if_pos rfl, getLast?_replicate_dots]
        rfl
  rw [List.foldl_append, hups, foldl_push_names rooted _ hnames]

theorem not_mem_of_mem_splitOn {t : Text} {c : Char} (h : e ∈ t.splitOn c) : c ∉ e := by
  induction t generalizing e with
  | nil =>
    rw [List.splitOn_nil, List.mem_singleton] at h
    rw [h]
    exact List.not_mem_nil
  | cons d t ih =>
    rw [List.splitOn_cons_eq_if_modifyHead] at h
    split_ifs at h with hd
    · obtain rfl | h := List.mem_cons.1 h
      · exact List.not_mem_nil
      · exact ih h
    · obtain ⟨u, l, hl⟩ := List.exists_cons_of_ne_nil (List.splitOn_ne_nil c t)
      rw [hl] at h ih
      obtain rfl | h := List.mem_cons.1 h
      · rw [List.mem_cons]
        rintro (rfl | hc)
        · exact hd (beq_self_eq_true c)
        · exact ih List.mem_cons_self hc
      · exact ih (List.mem_cons_of_mem u h)

theorem tidy_clean (t : Text) : Tidy (clean t).rooted (clean t).elems := by
  refine List.foldlRecOn (motive := Tidy (clean t).rooted) _ _ ?_ fun elems h e he => ?_
  · exact ⟨0, [], rfl, fun _ => rfl, fun e he => by cases he⟩
  · exact h.push (not_mem_of_mem_splitOn he)

theorem tidy_join (dir name : Text) : Tidy (join dir name).rooted (join dir name).elems := by
  unfold join
  split_ifs
  · exact tidy_clean name
  · exact tidy_clean dir
  · exact tidy_clean _

theorem reduced_join (dir name : Text) :
    Reduced (join dir name).rooted (join dir name).elems :=
  (tidy_join dir name).reduced

variable {p q : Path}

theorem text_ne_nil (h : Reduced p.rooted p.elems) : p.text ≠ [] := by
  obtain ⟨rooted, elems⟩ := p
  cases elems with
  | nil => cases rooted <;> decide
  | cons e elems =>
    intro hnil
    rw [text, if_neg (List.cons_ne_nil e elems), List.append_eq_nil_iff] at hnil
    have hsplit := List.splitOn_intercalate '/' h.noSlash (List.cons_ne_nil e elems)
    rw [hnil.2, List.splitOn_nil, List.cons.injEq] at hsplit
    exact h.ne_empty e List.mem_cons_self hsplit.1.symm

theorem head?_text (h : Reduced p.rooted p.elems) : (p.text.head? == some '/') = p.rooted := by
  obtain ⟨rooted, elems⟩ := p
  by_cases hnil : elems = []
  · subst hnil
    cases rooted <;> decide
  · rw [text, if_neg hnil]
    cases rooted with
    | true => rfl
    | false =>
      refine beq_false_of_ne fun hslash => ?_
      have hsplit := List.splitOn_intercalate '/' h.noSlash hnil
      rw [if_neg Bool.false_ne_true, List.nil_append] at hslash
      obtain ⟨rest, hrest⟩ := List.head?_eq_some_iff.1 hslash
      rw [hrest, List.splitOn_cons_eq_if_modifyHead, if_pos (beq_self_eq_true '/')] at hsplit
      exact h.ne_empty [] (hsplit ▸ List.mem_cons_self) rfl

theorem splitOn_text (h : Reduced p.rooted p.elems) (hne : p.elems ≠ []) :
    p.text.splitOn '/' = (if p.rooted then [[]] else []) ++ p.elems := by
  obtain ⟨r, elems⟩ := p
  have hsplit : (['/'].intercalate elems).splitOn '/' = elems :=
    List.splitOn_intercalate '/' h.noSlash hne
  rw [text, if_neg hne]
  cases r with
  | true =>
    rw [if_pos rfl, List.singleton_append, List.splitOn_cons_eq_if_modifyHead,
      if_pos (beq_self_eq_true '/'), hsplit]
    rfl
  | false => exact hsplit

/-- Wherever they are read, the elements of the text are those of the path. -/
theorem foldl_push_text (h : Reduced p.rooted p.elems) (rooted : Bool) (base : List Text) :
    (p.text.splitOn '/').foldl (push rooted) base = p.elems.foldl (push rooted) base := by
  by_cases hnil : p.elems = []
  · obtain ⟨r, elems⟩ := p
    subst hnil
    cases r <;> rfl
  · rw [splitOn_text h hnil]
    split_ifs <;> rfl

/-- A cleaned path is clean. -/
theorem clean_text (h : Reduced p.rooted p.elems) : clean p.text = p := by
  rw [clean, head?_text h, foldl_push_text h, h.foldl_push]

theorem join_text (hp : Reduced p.rooted p.elems) (hq : Reduced q.rooted q.elems) :
    join p.text q.text = ⟨p.rooted, q.elems.foldl (push p.rooted) p.elems⟩ := by
  rw [join_eq (text_ne_nil hp) (text_ne_nil hq), clean_text hp, foldl_push_text hq]

/-- A text that does not begin with a step up has names only. -/
theorem Tidy.isName (h : Tidy p.rooted p.elems) (hdots : p.text ≠ "..")
    (hup : ¬ ("../" : Text) <+: p.text) : ∀ e ∈ p.elems, IsName e := by
  obtain ⟨rooted, elems⟩ := p
  obtain ⟨k, names, rfl, hk, hnames⟩ := h
  cases k with
  | zero => exact hnames
  | succ k =>
    cases rooted with
    | true => cases hk rfl
    | false =>
      rw [text, List.replicate_succ, List.cons_append, if_neg (List.cons_ne_nil _ _)] at hdots hup
      generalize List.replicate k (".." : Text) ++ names = rest at hdots hup
      cases rest with
      | nil => exact absurd rfl hdots
      | cons e rest => exact absurd ⟨['/'].intercalate (e :: rest), rfl⟩ hup

/-- Above a path with names there are, as texts, those that have its elements first. -/
theorem text_prefix_iff (hp : Reduced p.rooted p.elems) (hq : Reduced q.rooted q.elems)
    (hroot : q.rooted = p.rooted) (hne : p.elems ≠ []) :
    (q.text = p.text ∨ p.text ++ ['/'] <+: q.text) ↔ p.elems <+: q.elems := by
  constructor
  · rintro (heq | ⟨rest, hrest⟩)
    · rw [← clean_text hp, ← heq, clean_text hq]
    · have hlen := congrArg List.length hrest
      have hpos := List.length_pos_of_ne_nil (text_ne_nil hp)
      have hqne : q.elems ≠ [] := by
        intro hnil
        have hone : q.text.length = 1 := by
          rw [text, if_pos hnil]
          split_ifs <;> rfl
        rw [hone, List.length_append, List.length_append, List.length_singleton] at hlen
        omega
      have hsplit := congrArg (List.splitOn '/') hrest
      rw [List.append_assoc, List.singleton_append, List.splitOn_append_cons_self,
        splitOn_text hp hne, splitOn_text hq hqne, hroot, List.append_assoc] at hsplit
      exact ⟨_, List.append_cancel_left hsplit⟩
  · rintro ⟨l, hl⟩
    obtain ⟨rooted, elems⟩ := q
    obtain rfl : rooted = p.rooted := hroot
    obtain rfl : p.elems ++ l = elems := hl
    by_cases hnil : l = []
    · rw [hnil, List.append_nil]
      exact .inl rfl
    · rw [text_append hne hnil]
      refine .inr ⟨['/'].intercalate l, ?_⟩
      rw [List.append_assoc, List.singleton_append]

/-! ### Climbing -/

/-- The elements of a text that is read from an unknown place: steps up, and then names -/
def relative (t : Text) : List Text := (t.splitOn '/').foldl (push false) []

/-- A step up -/
def isUp (e : Text) : Bool := e = ".."

/-- After its steps up, a relative path goes back down to where it came from. -/
def Returns (base rel : List Text) : Prop :=
  base.drop (base.length - (rel.takeWhile isUp).length) <+: rel.dropWhile isUp

instance (base rel : List Text) : Decidable (Returns base rel) :=
  inferInstanceAs (Decidable (_ <+: _))

/-- One more element, read from an unknown place and from below the root. -/
theorem exists_push_eq {base names : List Text} (hbase : ∀ e ∈ base, e ≠ "..")
    (hnames : ∀ e ∈ names, e ≠ "..") (k : ℕ) (e : Text) :
    ∃ (k' : ℕ) (names' : List Text), (∀ e ∈ names', e ≠ "..") ∧
      push false (List.replicate k (".." : Text) ++ names) e =
        List.replicate k' (".." : Text) ++ names' ∧
      push true (base.take (base.length - k) ++ names) e =
        base.take (base.length - k') ++ names' := by
  have hlast (rooted : Bool) (pre : List Text) {x : Text} (hx : x ≠ "..") :
      push rooted (pre ++ [x]) ".." = pre := by
    rw [push, if_neg (by decide), if_pos rfl, List.getLast?_concat, Option.any_some,
      if_pos (bne_iff_ne.2 hx), List.dropLast_concat]
  by_cases hdots : e = ".."
  · subst hdots
    obtain rfl | ⟨init, x, rfl⟩ := List.eq_nil_or_concat names
    · -- a step up from where the names begin
      simp only [List.append_nil]
      refine ⟨k + 1, [], hnames, ?_, ?_⟩
      · rw [push, if_neg (by decide), if_pos rfl, getLast?_replicate_dots, List.replicate_succ',
          List.append_nil]
        rfl
      · rw [List.append_nil]
        by_cases hk : k < base.length
        · rw [show base.length - k = base.length - (k + 1) + 1 by omega,
            List.take_succ_eq_append_getElem (by omega)]
          exact hlast _ _ (hbase _ (List.getElem_mem _))
        · rw [Nat.sub_eq_zero_of_le (by omega), Nat.sub_eq_zero_of_le (by omega)]
          rfl
    · rw [List.concat_eq_append] at hnames ⊢
      have hx := hnames x (List.mem_append_right _ List.mem_cons_self)
      rw [← List.append_assoc, ← List.append_assoc, hlast _ _ hx, hlast _ _ hx]
      exact ⟨k, init, fun e he => hnames e (List.mem_append_left _ he), rfl, rfl⟩
  · unfold push
    simp only [if_neg hdots]
    by_cases hdot : e = "" ∨ e = "."
    · simp only [if_pos hdot]
      exact ⟨k, names, hnames, rfl, rfl⟩
    · simp only [if_neg hdot, List.append_assoc]
      refine ⟨k, names ++ [e], ?_, rfl, rfl⟩
      rw [List.forall_mem_append, List.forall_mem_singleton]
      exact ⟨hnames, hdots⟩

theorem exists_foldl_push_eq {base : List Text} (hbase : ∀ e ∈ base, e ≠ "..")
    (elems : List Text) {names : List Text} (hnames : ∀ e ∈ names, e ≠ "..") (k : ℕ) :
    ∃ (k' : ℕ) (names' : List Text), (∀ e ∈ names', e ≠ "..") ∧
      elems.foldl (push false) (List.replicate k (".." : Text) ++ names) =
        List.replicate k' (".." : Text) ++ names' ∧
      elems.foldl (push true) (base.take (base.length - k) ++ names) =
        base.take (base.length - k') ++ names' := by
  induction elems generalizing k names with
  | nil => exact ⟨k, names, hnames, rfl, rfl⟩
  | cons e elems ih =>
    obtain ⟨k₁, names₁, hnames₁, hrel, hroot⟩ := exists_push_eq hbase hnames k e
    rw [List.foldl_cons, List.foldl_cons, hrel, hroot]
    exact ih hnames₁ k₁

/-- Below the root, the elements of a text lead below `base` exactly if they return to it. -/
theorem prefix_foldl_push_iff {base : List Text} (hbase : ∀ e ∈ base, e ≠ "..") (t : Text) :
    base <+: (t.splitOn '/').foldl (push true) base ↔ Returns base (relative t) := by
  obtain ⟨k, names, hnames, hrel, hroot⟩ := exists_foldl_push_eq hbase (t.splitOn '/')
    (List.forall_mem_nil _) 0
  simp only [List.replicate_zero, Nat.sub_zero, List.take_length, List.append_nil] at hrel hroot
  have hsteps : ∀ e ∈ List.replicate k (".." : Text), isUp e = true := fun e he =>
    decide_eq_true (List.eq_of_mem_replicate he)
  have hnone : names.takeWhile isUp = [] ∧ names.dropWhile isUp = names := by
    cases names with
    | nil => exact ⟨rfl, rfl⟩
    | cons e names =>
      have hname : ¬ isUp e = true := by simpa [isUp] using hnames e List.mem_cons_self
      exact ⟨List.takeWhile_cons_of_neg hname, List.dropWhile_cons_of_neg hname⟩
  have hups : (relative t).takeWhile isUp = List.replicate k (".." : Text) := by
    rw [relative, hrel, List.takeWhile_append_of_pos hsteps, hnone.1, List.append_nil]
  have hdown : (relative t).dropWhile isUp = names := by
    rw [relative, hrel, List.dropWhile_append_of_pos hsteps, hnone.2]
  rw [Returns, hups, hdown, hroot, List.length_replicate]
  nth_rewrite 1 [← List.take_append_drop (base.length - k) base]
  exact List.prefix_append_right_inj _

/-- **A joined text stays below a directory exactly if it returns to it.** -/
theorem text_join_iff {dir name : Text} (hroot : dir.head? = some '/')
    (hdir : (clean dir).elems ≠ []) :
    ((join dir name).text = (clean dir).text ∨
      (clean dir).text ++ ['/'] <+: (join dir name).text) ↔
      Returns (clean dir).elems (relative name) := by
  have hrooted : (clean dir).rooted = true := beq_iff_eq.2 hroot
  have hne : dir ≠ [] := by
    rintro rfl
    cases hroot
  have htidy := tidy_clean dir
  have hnames : ∀ e ∈ (clean dir).elems, e ≠ ".." := by
    obtain ⟨k, names, heq, hk, hnames⟩ := htidy
    rw [heq, hk hrooted]
    exact fun e he => (hnames e he).ne_dots
  have hjoin : join dir name =
      ⟨true, (name.splitOn '/').foldl (push true) (clean dir).elems⟩ := by
    by_cases hname : name = []
    · rw [join, if_neg hne, if_pos hname, hname, ← hrooted]
      rfl
    · rw [join_eq hne hname, hrooted]
  have hreduced := reduced_join dir name
  rw [hjoin] at hreduced ⊢
  rw [text_prefix_iff htidy.reduced hreduced hrooted.symm hdir]
  exact prefix_foldl_push_iff hnames name

end Path

end GinRpc
