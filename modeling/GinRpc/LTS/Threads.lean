import GinRpc.LTS.Basic
import Mathlib.Algebra.BigOperators.Group.Finset.Piecewise
import Mathlib.Tactic.Abel

/-!
# Goroutines

In a system of goroutines each one has a program counter.  `Quiet` says which goroutines have not
begun; then a condition on all goroutines can be checked on the others.

A *view* of a program counter is what it holds, if anything.  `Sole` says that no two goroutines
hold the same.  `sum_update_add` is about all that finitely many of them hold, and `countP_set_add`
about how many of a list of them are at certain places.
-/

namespace GinRpc

namespace LTS

variable {T P : Type*} [DecidableEq T] {idle p : P} {ts : List T} {pc : T → P} {t : T}

/-- The goroutines outside of a list have not begun. -/
def Quiet (idle : P) (ts : List T) (pc : T → P) : Prop := ∀ u, u ∉ ts → pc u = idle

omit [DecidableEq T] in
theorem Quiet.forall {Q : P → Prop} (h : Quiet idle ts pc) (hidle : Q idle)
    (hts : ∀ u ∈ ts, Q (pc u)) (u : T) : Q (pc u) := by
  by_cases hu : u ∈ ts
  · exact hts u hu
  · exact h u hu ▸ hidle

theorem Quiet.update (h : Quiet idle ts pc) (ht : t ∈ ts) :
    Quiet idle ts (Function.update pc t p) := by
  intro u hu
  have hne : u ≠ t := fun heq => hu (heq ▸ ht)
  rw [Function.update_of_ne hne]
  exact h u hu

section Views

variable {β : Type*} {view : P → Option β} {u : T} {x : β}

/-- What the goroutines hold after one of them has gone on. -/
theorem view_update (h : view (Function.update pc t p u) = some x) :
    (u = t ∧ view p = some x) ∨ (u ≠ t ∧ view (pc u) = some x) := by
  by_cases hu : u = t
  · subst hu
    rw [Function.update_self] at h
    exact .inl ⟨rfl, h⟩
  · rw [Function.update_of_ne hu] at h
    exact .inr ⟨hu, h⟩

theorem view_update_none (hp : view p = none) (h : view (Function.update pc t p u) = some x) :
    u ≠ t ∧ view (pc u) = some x := by
  obtain ⟨-, hx⟩ | h := view_update h
  · cases hp.symm.trans hx
  · exact h

/-- No two goroutines hold the same. -/
def Sole (view : P → Option β) (pc : T → P) : Prop :=
  ∀ u v x, view (pc u) = some x → view (pc v) = some x → u = v

theorem Sole.update (h : Sole view pc)
    (hnew : ∀ x, view p = some x → ∀ u, u ≠ t → view (pc u) ≠ some x) :
    Sole view (Function.update pc t p) := by
  intro u v x hu hv
  obtain ⟨hut, hx⟩ | ⟨hut, hu⟩ := view_update hu
  · obtain ⟨hvt, -⟩ | ⟨hvt, hv⟩ := view_update hv
    · exact hut.trans hvt.symm
    · exact absurd hv (hnew x hx v hvt)
  · obtain ⟨-, hx⟩ | ⟨-, hv⟩ := view_update hv
    · exact absurd hu (hnew x hx u hut)
    · exact h u v x hu hv

end Views

/-- What the goroutines of a finite set hold together, after one of them has gone on. -/
theorem sum_update_add {M : Type*} [AddCommMonoid M] {A : Finset T} (f : P → M) (pc : T → P)
    (p : P) (ht : t ∈ A) :
    (∑ u ∈ A, f (Function.update pc t p u)) + f (pc t) = (∑ u ∈ A, f (pc u)) + f p := by
  have hrest : ∀ u ∈ A.erase t, f (Function.update pc t p u) = f (pc u) := by
    intro u hu
    rw [Function.update_of_ne (Finset.ne_of_mem_erase hu)]
  rw [← Finset.add_sum_erase A _ ht, ← Finset.add_sum_erase A (fun u => f (pc u)) ht,
    Finset.sum_congr rfl hrest, Function.update_self]
  abel

/-- How many goroutines of a list are at certain places, after one of them has gone on. -/
theorem countP_set_add {P : Type*} (q : P → Bool) (p' : P) {pcs : List P} {i : ℕ} {p : P}
    (h : pcs[i]? = some p) :
    (pcs.set i p').countP q + (q p).toNat = pcs.countP q + (q p').toNat := by
  induction pcs generalizing i with
  | nil => cases h
  | cons first rest ih =>
    cases i with
    | zero =>
      obtain rfl := Option.some.inj h
      rw [List.set_cons_zero, List.countP_cons, List.countP_cons]
      cases q first <;> cases q p' <;> simp
    | succ i =>
      rw [List.set_cons_succ, List.countP_cons, List.countP_cons]
      have := ih h
      omega

end LTS

end GinRpc
