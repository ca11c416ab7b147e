import Mathlib.Data.List.Basic

/-!
# Labelled transition systems and guarded runs

The concurrent components of this development are transition systems: a set of initial states
and a relation `step s l s'`, where the label `l` says which party moved and what it saw.

A *guarded run* is a run all of whose steps satisfy a side condition `ok` on the state before
the step and its label.  With `ok` always true these are the runs of the system; a property that
holds only while some branch is not taken is stated over the runs whose guard excludes it.

* `LTS.Run` : the traces of a system under a guard, and the states they end in.
* `LTS.Run.invariant` : what holds initially and is kept by every guarded step holds at the end
  of every guarded run; `LTS.Run.traced` for what speaks about the trace as well.
* `LTS.Run.unguarded` : a guarded run is a run.
* `LTS.exec`, `LTS.exists_run_of_exec` : runs of a system whose steps are given by a function.
-/

namespace GinRpc

/-- A labelled transition system with states `S` and labels `L`. -/
structure LTS (S : Type*) (L : Type*) where
  /-- The states a run may start in. -/
  init : S → Prop
  /-- `step s l s'` : from `s` the system can perform `l` and be in `s'`. -/
  step : S → L → S → Prop

namespace LTS

variable {S L : Type*} (A : LTS S L)

/-- `A.Run ok tr s` : the trace `tr` leads from an initial state to `s`, and the guard `ok` held
at every step. -/
inductive Run (ok : S → L → Prop) : List L → S → Prop
  | nil {s : S} : A.init s → Run ok [] s
  | snoc {tr : List L} {s s' : S} {l : L} :
      Run ok tr s → ok s l → A.step s l s' → Run ok (tr ++ [l]) s'

/-- The guard that excludes nothing. -/
def anyStep : S → L → Prop := fun _ _ => True

variable {A} {ok : S → L → Prop} {tr : List L} {s : S}

/-- Invariant rule for guarded runs. -/
theorem Run.invariant {I : S → Prop} (h : A.Run ok tr s) (h₀ : ∀ s, A.init s → I s)
    (hstep : ∀ s l s', I s → ok s l → A.step s l s' → I s') : I s := by
  induction h with
  | nil hi => exact h₀ _ hi
  | snoc _ hok hst ih => exact hstep _ _ _ ih hok hst

/-- Invariant rule for guarded runs, with an invariant that may speak about the trace. -/
theorem Run.traced {I : List L → S → Prop} (h : A.Run ok tr s) (h₀ : ∀ s, A.init s → I [] s)
    (hstep : ∀ tr s l s', I tr s → ok s l → A.step s l s' → I (tr ++ [l]) s') : I tr s := by
  induction h with
  | nil hi => exact h₀ _ hi
  | snoc _ hok hst ih => exact hstep _ _ _ _ ih hok hst

theorem Run.extend (h : A.Run ok tr s) (l : L) {s' : S} (hok : ok s l) (hst : A.step s l s') :
    A.Run ok (tr ++ [l]) s' :=
  .snoc h hok hst

theorem Run.mono {ok' : S → L → Prop} (h : A.Run ok tr s) (himp : ∀ s l, ok s l → ok' s l) :
    A.Run ok' tr s := by
  induction h with
  | nil hi => exact .nil hi
  | snoc _ hok hst ih => exact .snoc ih (himp _ _ hok) hst

theorem Run.unguarded (h : A.Run ok tr s) : A.Run anyStep tr s :=
  h.mono fun _ _ _ => trivial

/-! ### Systems whose steps are a function -/

/-- The state after a list of labels, if every one of them is possible. -/
def exec (f : S → L → Option S) : S → List L → Option S
  | s, [] => some s
  | s, l :: tr => (f s l).bind fun s' => exec f s' tr

theorem exec_cons {f : S → L → Option S} {l : L} {s₁ s' : S} {tr : List L} (h : f s l = some s₁)
    (h' : exec f s₁ tr = some s') : exec f s (l :: tr) = some s' := by
  rw [exec, h, Option.bind_some, h']

/-- If every evaluated step from a state with `J` is a step of the system that meets the guard and
leads to a state with `J`, then evaluation continues guarded runs. -/
theorem Run.exec {f : S → L → Option S} {J : S → Prop}
    (hf : ∀ s l s', J s → f s l = some s' → ok s l ∧ A.step s l s' ∧ J s') {tr' : List L} {s' : S}
    (h : A.Run ok tr s) (hJ : J s) (he : exec f s tr' = some s') : A.Run ok (tr ++ tr') s' := by
  induction tr' generalizing tr s with
  | nil =>
    cases he
    rwa [List.append_nil]
  | cons l tr' ih =>
    obtain ⟨s₁, hs₁, he⟩ := Option.bind_eq_some_iff.1 he
    obtain ⟨hok, hst, hJ₁⟩ := hf s l s₁ hJ hs₁
    have := ih (h.snoc hok hst) hJ₁ he
    rwa [List.append_assoc, List.singleton_append] at this

variable {P Q : S → Prop} [DecidablePred P] {f : S → L → Option S} {c : S → L → Bool} {s₀ : S}

/-- A guarded run found by evaluation, where `c` checks the guard on states with `J`, and what
follows from what is seen at its end. -/
theorem exists_guarded_run {J : S → Prop}
    (hf : ∀ s l s', J s → c s l = true → f s l = some s' → ok s l ∧ A.step s l s' ∧ J s')
    (h₀ : A.init s₀) (hJ : J s₀) (tr : List L)
    (h : (LTS.exec (fun s l => if c s l then f s l else none) s₀ tr).any (P ·) = true)
    (hPQ : ∀ s, A.Run ok tr s → P s → Q s) : ∃ s, A.Run ok tr s ∧ Q s := by
  obtain ⟨s, he, hP⟩ := (Option.any_eq_true _ _).1 h
  have hrun : A.Run ok ([] ++ tr) s := by
    refine (Run.nil h₀).exec (fun s l s' hJ hs => ?_) hJ he
    split_ifs at hs with hc
    exact hf s l s' hJ hc hs
  exact ⟨s, hrun, hPQ s hrun (of_decide_eq_true hP)⟩

theorem exists_checked_run (hf : ∀ s l s', f s l = some s' → A.step s l s')
    (hok : ∀ s l, c s l = true → ok s l) (h₀ : A.init s₀) (tr : List L)
    (h : (LTS.exec (fun s l => if c s l then f s l else none) s₀ tr).any (P ·) = true)
    (hPQ : ∀ s, A.Run ok tr s → P s → Q s) : ∃ s, A.Run ok tr s ∧ Q s :=
  exists_guarded_run (J := fun _ => True)
    (fun s l s' _ hc hs => ⟨hok s l hc, hf s l s' hs, trivial⟩) h₀ trivial tr h hPQ

/-- When the guard can be decided. -/
theorem exists_decided_run (A : LTS S L) (ok : S → L → Prop) [∀ s l, Decidable (ok s l)]
    (hf : ∀ s l s', f s l = some s' → A.step s l s') (s₀ : S) (h₀ : A.init s₀) (tr : List L)
    (h : (LTS.exec (fun s l => if decide (ok s l) then f s l else none) s₀ tr).any (P ·) = true)
    (hPQ : ∀ s, A.Run ok tr s → P s → Q s) : ∃ s, A.Run ok tr s ∧ Q s :=
  exists_checked_run hf (fun _ _ => of_decide_eq_true) h₀ tr h hPQ

/-- A run found by evaluation, and what follows from what is seen at its end. -/
theorem exists_run_of_exec (hf : ∀ s l s', f s l = some s' → A.step s l s') (h₀ : A.init s₀)
    (tr : List L) (h : (LTS.exec f s₀ tr).any (P ·) = true)
    (hPQ : ∀ s, A.Run anyStep tr s → P s → Q s) : ∃ s, A.Run anyStep tr s ∧ Q s :=
  exists_checked_run (c := fun _ _ => true) hf (fun _ _ _ => trivial) h₀ tr h hPQ

end LTS

end GinRpc
