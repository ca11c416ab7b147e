import GinRpc.LTS.Basic
import Mathlib.Order.Basic

/-!
# Progress and fair executions

An *execution* is an infinite run in which nothing may happen for a while.  It is weakly fair if
every party that could always take a step from some time on does take one.

`Progress` is a ranking argument: as long as `P` holds and `Q` does not, one party can take a step,
no step raises the rank, and the step of that party lowers it.

* `Leads` : some guarded run leads from one state to another.
* `Progress.eventually` : in a weakly fair execution, `P` leads to `Q`.
-/

namespace GinRpc

namespace LTS

variable {S L T : Type*} (A : LTS S L) (ok : S → L → Prop) (actor : L → Option T)

/-- The system started in a given state. -/
def startIn (s : S) : LTS S L where
  init := (· = s)
  step := A.step

/-- A guarded run leads from one state to another. -/
def Leads (s s' : S) : Prop := ∃ tr, (A.startIn s).Run ok tr s'

namespace Leads

variable {A ok} {s s₁ s₂ : S}

theorem refl (s : S) : A.Leads ok s s := ⟨[], .nil rfl⟩

theorem snoc {l : L} (h : A.Leads ok s s₁) (hok : ok s₁ l) (hst : A.step s₁ l s₂) :
    A.Leads ok s s₂ := by
  obtain ⟨tr, hr⟩ := h
  exact ⟨tr ++ [l], hr.snoc hok hst⟩

theorem single {l : L} (hok : ok s l) (hst : A.step s l s₁) : A.Leads ok s s₁ :=
  (refl s).snoc hok hst

/-- What every guarded step keeps is kept on the way. -/
theorem invariant {I : S → Prop} (h : A.Leads ok s s₁) (h₀ : I s)
    (hstep : ∀ s l s', I s → ok s l → A.step s l s' → I s') : I s₁ := by
  obtain ⟨tr, hr⟩ := h
  exact hr.invariant (fun _ hi => hi ▸ h₀) hstep

end Leads

/-- A party can take a step that satisfies the guard. -/
def Enabled (t : T) (s : S) : Prop := ∃ l s', actor l = some t ∧ ok s l ∧ A.step s l s'

/-- An infinite run; where there is no label, nothing happens. -/
structure Execution where
  state : ℕ → S
  label : ℕ → Option L
  init : A.init (state 0)
  stutter : ∀ n, label n = none → state (n + 1) = state n
  step : ∀ n l, label n = some l → ok (state n) l ∧ A.step (state n) l (state (n + 1))

variable {A ok} in
/-- Whoever can always move from some time on moves at some later time. -/
def Execution.WeaklyFair (e : A.Execution ok) : Prop :=
  ∀ t n, (∀ m, n ≤ m → A.Enabled ok actor t (e.state m)) →
    ∃ m, n ≤ m ∧ ∃ l, e.label m = some l ∧ actor l = some t

/-- From `P` to `Q` with a rank and, in every state, a party whose step lowers it. -/
structure Progress (P Q : S → Prop) (rank : S → ℕ) (help : S → T) : Prop where
  enabled : ∀ s, P s → A.Enabled ok actor (help s) s
  step : ∀ s l s', P s → ok s l → A.step s l s' →
    Q s' ∨ P s' ∧ (rank s' < rank s ∨
      rank s' = rank s ∧ help s' = help s ∧ actor l ≠ some (help s))

namespace Progress

variable {A ok actor} {P Q : S → Prop} {rank : S → ℕ} {help : S → T}

theorem startIn (h : A.Progress ok actor P Q rank help) (s : S) :
    (A.startIn s).Progress ok actor P Q rank help :=
  ⟨h.enabled, h.step⟩

/-- The step of the helping party leads to `Q` or lowers the rank. -/
theorem step_help (h : A.Progress ok actor P Q rank help) {s s' : S} {l : L} (hP : P s)
    (hact : actor l = some (help s)) (hok : ok s l) (hst : A.step s l s') :
    Q s' ∨ P s' ∧ rank s' < rank s := by
  obtain hQ | ⟨hP', hlt | ⟨-, -, hne⟩⟩ := h.step s l s' hP hok hst
  · exact .inl hQ
  · exact .inr ⟨hP', hlt⟩
  · exact absurd hact hne

/-- While `Q` is not reached, either the rank falls at some time, or it stays and so does the
helping party, which does not move. -/
theorem stays (h : A.Progress ok actor P Q rank help) (e : A.Execution ok) {n : ℕ}
    (hP : P (e.state n)) (hQ : ∀ m, n ≤ m → ¬ Q (e.state m))
    (hrank : ∀ m, n ≤ m → P (e.state m) → rank (e.state n) ≤ rank (e.state m)) (k : ℕ) :
    P (e.state (n + k)) ∧ rank (e.state (n + k)) = rank (e.state n) ∧
      help (e.state (n + k)) = help (e.state n) := by
  induction k with
  | zero => exact ⟨hP, rfl, rfl⟩
  | succ k ih =>
    obtain ⟨hPk, hrk, hhk⟩ := ih
    cases hl : e.label (n + k) with
    | none =>
      rw [← Nat.add_assoc, e.stutter _ hl]
      exact ⟨hPk, hrk, hhk⟩
    | some l =>
      obtain ⟨hok, hst⟩ := e.step _ l hl
      obtain hQ' | ⟨hP', hr'⟩ := h.step _ l _ hPk hok hst
      · exact absurd hQ' (hQ _ (by omega))
      · have hle := hrank _ (by omega) hP'
        obtain hlt | ⟨heq, hhelp, -⟩ := hr'
        · omega
        · exact ⟨hP', heq.trans hrk, hhelp.trans hhk⟩

/-- **In a weakly fair execution `P` leads to `Q`.** -/
theorem eventually (h : A.Progress ok actor P Q rank help) (e : A.Execution ok)
    (hfair : e.WeaklyFair actor) {n : ℕ} (hP : P (e.state n)) : ∃ m, n ≤ m ∧ Q (e.state m) := by
  -- by induction on the rank; if it never fell, the helping party would always be enabled
  induction hr : rank (e.state n) using Nat.strongRecOn generalizing n with
  | _ r ih =>
    by_contra hnot
    have hQ : ∀ m, n ≤ m → ¬ Q (e.state m) := fun m hm hq => hnot ⟨m, hm, hq⟩
    have hrank : ∀ m, n ≤ m → P (e.state m) → rank (e.state n) ≤ rank (e.state m) := by
      intro m hm hPm
      by_contra hlt
      obtain ⟨m', hm', hq⟩ := ih _ (hr ▸ Nat.lt_of_not_le hlt) hPm rfl
      exact hQ m' (Nat.le_trans hm hm') hq
    have hstay : ∀ m, n ≤ m → P (e.state m) ∧ rank (e.state m) = rank (e.state n) ∧
        help (e.state m) = help (e.state n) := by
      intro m hm
      have := h.stays e hP hQ hrank (m - n)
      rwa [Nat.add_sub_cancel' hm] at this
    obtain ⟨m, hm, l, hl, hact⟩ := hfair (help (e.state n)) n fun m hm =>
      (hstay m hm).2.2 ▸ h.enabled _ (hstay m hm).1
    obtain ⟨hPm, hrm, hhm⟩ := hstay m hm
    obtain ⟨hok, hst⟩ := e.step m l hl
    obtain hq | ⟨-, hlt⟩ := h.step_help hPm (hhm ▸ hact) hok hst
    · exact hQ (m + 1) (by omega) hq
    · have := (hstay (m + 1) (by omega)).2.1
      omega

end Progress

end LTS

end GinRpc
