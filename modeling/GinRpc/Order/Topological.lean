import Mathlib.Tactic

/-!
# Topological orders of a dependency relation

`dep a b` says that `a` depends on `b`, over an arbitrary type.  A list is *grounded* when every
entry has its dependencies among the entries before it.

* `Sequenced P l` : every entry of `l` satisfies `P` of the entries before it; grounded and greedy
  lists are instances, and both grow by `Sequenced.snoc`.
* `Grounded.not_reachesCycle` : no cycle can be reached from an entry of a grounded list.
* `reachesCycle_of_blocked` : from a finite set in which everything depends on something of the
  set, every element reaches a cycle.
* `Greedy.eq_or_lex` : the list that always takes the available element of least rank is the
  lexicographically least grounded enumeration.
-/

namespace GinRpc

open Relation

variable {V : Type*}

/-! ### Properties of an entry and the entries before it -/

/-- Every entry of `l` satisfies `P` of the list of entries before it. -/
def Sequenced (P : List V → V → Prop) (l : List V) : Prop :=
  ∀ l₁ a l₂, l = l₁ ++ a :: l₂ → P l₁ a

namespace Sequenced

variable {P : List V → V → Prop} {l l' : List V} {a : V}

theorem nil : Sequenced P [] := by
  intro l₁ a l₂ h
  exact absurd h.symm (by simp)

theorem snoc (h : Sequenced P l) (ha : P l a) : Sequenced P (l ++ [a]) := by
  intro l₁ b l₂ he
  rcases List.eq_nil_or_concat l₂ with rfl | ⟨l₂', z, rfl⟩
  · obtain ⟨rfl, hb⟩ := List.append_inj' he rfl
    rw [← List.singleton_injective hb]
    exact ha
  · have he' : l ++ [a] = (l₁ ++ b :: l₂') ++ [z] := by simpa using he
    exact h l₁ b l₂' (List.append_inj' he' rfl).1

theorem of_prefix (h : Sequenced P l') (hp : l <+: l') : Sequenced P l := by
  obtain ⟨t, rfl⟩ := hp
  intro l₁ a l₂ he
  exact h l₁ a (l₂ ++ t) (by simp [he])

/-- The last entry of a beginning. -/
theorem of_snoc_prefix (h : Sequenced P l') (hp : l ++ [a] <+: l') : P l a := by
  obtain ⟨t, rfl⟩ := hp
  exact h l a t (by simp)

theorem mono {Q : List V → V → Prop} (h : Sequenced P l) (hPQ : ∀ l₁ a, P l₁ a → Q l₁ a) :
    Sequenced Q l :=
  fun l₁ a l₂ he => hPQ l₁ a (h l₁ a l₂ he)

end Sequenced

variable (dep : V → V → Prop)

/-- Every entry comes after everything it depends on. -/
def Grounded (l : List V) : Prop := Sequenced (fun l₁ a => ∀ b, dep a b → b ∈ l₁) l

/-- A cycle can be reached from `a` along dependencies. -/
def ReachesCycle (a : V) : Prop := ∃ c, ReflTransGen dep a c ∧ TransGen dep c c

/-- No element depends on itself, directly or through others. -/
def Acyclic : Prop := ∀ a, ¬ TransGen dep a a

/-- A topological order of `vs`: every element once, after its dependencies. -/
structure IsTopOrder (vs l : List V) : Prop where
  perm : l.Perm vs
  grounded : Grounded dep l

variable {dep}

theorem Grounded.mem_of_dep {l : List V} {a b : V} (h : Grounded dep l) (ha : a ∈ l)
    (hab : dep a b) : b ∈ l := by
  obtain ⟨l₁, l₂, rfl⟩ := List.append_of_mem ha
  exact List.mem_append_left _ (h l₁ a l₂ rfl b hab)

/-- If a cycle can be reached at all, it can be reached from a direct dependency. -/
theorem ReachesCycle.exists_dep {a : V} (h : ReachesCycle dep a) :
    ∃ b, dep a b ∧ ReachesCycle dep b := by
  obtain ⟨c, hac, hc⟩ := h
  rcases hac.cases_head with rfl | ⟨b, hab, hbc⟩
  · obtain ⟨b, hab, hba⟩ := TransGen.head'_iff.1 hc
    exact ⟨b, hab, a, hba, hc⟩
  · exact ⟨b, hab, c, hbc, hc⟩

/-- The entries of a grounded list do not reach a cycle. -/
theorem Grounded.not_reachesCycle {l : List V} (h : Grounded dep l) :
    ∀ a ∈ l, ¬ ReachesCycle dep a := by
  induction l using List.reverseRecOn with
  | nil => simp
  | append_singleton l x ih =>
    have hl : Grounded dep l := h.of_prefix (List.prefix_append _ _)
    intro a ha hc
    rcases List.mem_append.1 ha with ha | ha
    · exact ih hl a ha hc
    · obtain ⟨b, hab, hb⟩ := hc.exists_dep
      rw [List.mem_singleton.1 ha] at hab
      exact ih hl b (h l x [] rfl b hab) hb

/-- In a finite set whose elements all depend on elements of the set, every element reaches a
cycle. -/
theorem reachesCycle_of_blocked {R : Set V} (hfin : R.Finite)
    (hR : ∀ v ∈ R, ∃ w ∈ R, dep v w) {v : V} (hv : v ∈ R) : ReachesCycle dep v := by
  by_contra hno
  -- the elements reachable from `v` inside `R`, the further ones below
  let S := {x : V // x ∈ R ∧ ReflTransGen dep v x}
  have : Finite S := (hfin.subset fun x (hx : x ∈ {x | x ∈ R ∧ ReflTransGen dep v x}) => hx.1)
  let r : S → S → Prop := fun x y => TransGen dep y.1 x.1
  have : IsTrans S r := ⟨fun _ _ _ hxy hyz => TransGen.trans hyz hxy⟩
  have : Std.Irrefl r := ⟨fun x hx => hno ⟨x.1, x.2.2, hx⟩⟩
  have hwf : WellFounded r := Finite.wellFounded_of_trans_of_irrefl r
  obtain ⟨m, -, hm⟩ := hwf.has_min Set.univ ⟨⟨v, hv, .refl⟩, trivial⟩
  obtain ⟨w, hw, hmw⟩ := hR m.1 m.2.1
  exact hm ⟨w, hw, m.2.2.tail hmw⟩ trivial (.single hmw)

/-! ### Greedy enumerations -/

variable (dep)

/-- After `done`, the element `a` of `vs` may come next. -/
structure Available (vs done : List V) (a : V) : Prop where
  mem : a ∈ vs
  fresh : a ∉ done
  ready : ∀ b, dep a b → b ∈ done

/-- Every entry is an available element of least rank. -/
def Greedy (rank : V → ℕ) (vs l : List V) : Prop :=
  Sequenced (fun done a => Available dep vs done a ∧
    ∀ b, Available dep vs done b → rank a ≤ rank b) l

variable {dep} {rank : V → ℕ} {vs l : List V}

theorem Greedy.grounded (h : Greedy dep rank vs l) : Grounded dep l :=
  h.mono fun _ _ ha => ha.1.ready

theorem Greedy.subset (h : Greedy dep rank vs l) : l ⊆ vs := by
  intro a ha
  obtain ⟨l₁, l₂, rfl⟩ := List.append_of_mem ha
  exact (h l₁ a l₂ rfl).1.mem

/-- The next entry of a grounded enumeration is available. -/
theorem IsTopOrder.available {done t : List V} {a : V}
    (h : IsTopOrder dep vs (done ++ a :: t)) (hn : vs.Nodup) : Available dep vs done a where
  mem := h.perm.subset (by simp)
  fresh hm := by
    have hnd := h.perm.nodup_iff.2 hn
    exact (List.nodup_append.1 hnd).2.2 a hm a (by simp) rfl
  ready := h.grounded done a t rfl

/-- **The greedy enumeration is the lexicographically least one.** -/
theorem Greedy.eq_or_lex (h : Greedy dep rank vs l) (hn : vs.Nodup)
    (hinj : ∀ a ∈ vs, ∀ b ∈ vs, rank a = rank b → a = b) (hlen : l.length = vs.length)
    {other : List V} (ho : IsTopOrder dep vs other) :
    l = other ∨ List.Lex (· < ·) (l.map rank) (other.map rank) := by
  -- compare the two lists after a common beginning
  have key : ∀ (t t' pre : List V), Greedy dep rank vs (pre ++ t) →
      IsTopOrder dep vs (pre ++ t') → t.length = t'.length →
      t = t' ∨ List.Lex (· < ·) (t.map rank) (t'.map rank) := by
    intro t
    induction t with
    | nil =>
      intro t' pre _ _ hl
      exact .inl (List.eq_nil_of_length_eq_zero hl.symm).symm
    | cons a t ih =>
      intro t' pre hg ho hl
      cases t' with
      | nil => simp at hl
      | cons b t' =>
        obtain ⟨ha, hmin⟩ := hg pre a t rfl
        have hb := ho.available hn
        rcases (hmin b hb).lt_or_eq with hlt | heq
        · exact .inr (.rel hlt)
        · obtain rfl := hinj a ha.mem b hb.mem heq
          have hl' : t.length = t'.length := by simpa using hl
          rcases ih t' (pre ++ [a]) (by simpa using hg) (by simpa using ho) hl' with rfl | hlex
          · exact .inl rfl
          · exact .inr (.cons hlex)
  exact key l other [] h ho (hlen.trans ho.perm.length_eq.symm)

theorem Greedy.isTopOrder (h : Greedy dep rank vs l) (hl : l.Nodup)
    (hlen : l.length = vs.length) : IsTopOrder dep vs l :=
  ⟨(hl.subperm h.subset).perm_of_length_le hlen.ge, h.grounded⟩

/-- There is only one greedy enumeration. -/
theorem Greedy.unique (h : Greedy dep rank vs l) (hl : l.Nodup) (hlen : l.length = vs.length)
    (hn : vs.Nodup) (hinj : ∀ a ∈ vs, ∀ b ∈ vs, rank a = rank b → a = b) {l' : List V}
    (h' : Greedy dep rank vs l') (hl' : l'.Nodup) (hlen' : l'.length = vs.length) : l = l' := by
  rcases h.eq_or_lex hn hinj hlen (h'.isTopOrder hl' hlen') with heq | hlt
  · exact heq
  rcases h'.eq_or_lex hn hinj hlen' (h.isTopOrder hl hlen) with heq | hgt
  · exact heq.symm
  · exact absurd hgt (List.lt_asymm (α := ℕ) hlt)

/-- When nothing is available any more, what is left reaches a cycle, and nothing else does. -/
theorem Grounded.notMem_iff_reachesCycle (h : Grounded dep l)
    (hclosed : ∀ a b, dep a b → b ∈ vs) (hstuck : ∀ a, ¬ Available dep vs l a) {a : V}
    (ha : a ∈ vs) : a ∉ l ↔ ReachesCycle dep a := by
  constructor
  · intro hal
    refine reachesCycle_of_blocked (R := {x | x ∈ vs ∧ x ∉ l}) ?_ ?_ ⟨ha, hal⟩
    · exact (vs.finite_toSet).subset fun x hx => hx.1
    · rintro v ⟨hv, hvl⟩
      by_contra hno
      refine hstuck v ⟨hv, hvl, fun b hb => ?_⟩
      by_contra hbl
      exact hno ⟨b, ⟨hclosed v b hb, hbl⟩, hb⟩
  · intro hc hal
    exact h.not_reachesCycle a hal hc

end GinRpc
