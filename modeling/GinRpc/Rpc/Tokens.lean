import GinRpc.LTS.Threads
import GinRpc.Rpc.Degradation

/-!
# Concurrency tokens

Model of `AcquireConcurrencyToken` and `ReleaseConcurrencyToken` in `plugins/rpc/degradation.go`.
An acquisition reads the level under its lock, adds one to the counter, and takes it back if the
result is above the limit of that level.  Comparing the result with the limit concerns no one else,
so the addition decides.

The counter is an integer without bounds: an overflow would take 2^63 acquisitions at a time.

* `State.tokens_bounded` : the counter has the tokens and the acquisitions to be taken back, a token
  is granted only below the limit, and refused only above it if no one else is acquiring.
-/

namespace GinRpc

namespace Degradation

/-- The limit that `AcquireConcurrencyToken` uses at a level -/
def Level.limit : Level → ℤ
  | .medium => 50
  | .heavy | .emergency => 20
  | .normal | .light => 100

namespace Tokens

/-- Where an acquisition is, or what has become of it -/
inductive Pc where
  /-- `dm.GetCurrentLevel()` -/
  | start
  /-- `atomic.AddInt64(&dm.activeRequests, 1)` -/
  | add (level : Level)
  /-- `atomic.AddInt64(&dm.activeRequests, -1)`, above the limit -/
  | undo
  | granted
  | refused
  | released
  deriving DecidableEq, Repr

/-- The call has not returned. -/
def Pc.acquiring : Pc → Bool
  | .start | .add _ | .undo => true
  | .granted | .refused | .released => false

structure State where
  currentLevel : Level := .normal
  activeRequests : ℤ := 0
  pcs : List Pc := []

inductive Act where
  | setLevel (level : Level)
  | acquire
  /-- the next step of an acquisition -/
  | step (i : ℕ)
  | release (i : ℕ)
  deriving DecidableEq, Repr

namespace State

variable (s : State)

/-- Acquisition `i` goes on, and the counter changes. -/
def goto (i : ℕ) (d : ℤ) (pc : Pc) : State :=
  { s with activeRequests := s.activeRequests + d, pcs := s.pcs.set i pc }

def step : Act → Option State
  | .setLevel level => some { s with currentLevel := level }
  | .acquire => some { s with pcs := s.pcs ++ [.start] }
  | .step i => match s.pcs[i]? with
    | some .start => some (s.goto i 0 (.add s.currentLevel))
    | some (.add level) =>
      if level.limit < s.activeRequests + 1 then some (s.goto i 1 .undo)
      else some (s.goto i 1 .granted)
    | some .undo => some (s.goto i (-1) .refused)
    | _ => none
  | .release i => match s.pcs[i]? with
    | some .granted => some (s.goto i (-1) .released)
    | _ => none

/-- The tokens that are granted and not released -/
def outstanding : ℕ := s.pcs.countP (· = .granted)

/-- The acquisitions that are counted and neither granted nor undone -/
def undecided : ℕ := s.pcs.countP (· = .undo)

end State

def lts : LTS State Act where
  init s := ∃ level, s = { currentLevel := level }
  step s a s' := s.step a = some s'

namespace State

variable {s s' : State} {a : Act} {i : ℕ}

/-- What a step does: nothing is counted, or one acquisition goes on. -/
inductive Moves (s : State) : Act → State → Prop
  | setLevel (level : Level) : Moves s (.setLevel level) { s with currentLevel := level }
  | acquire : Moves s .acquire { s with pcs := s.pcs ++ [.start] }
  | read {i : ℕ} (hi : s.pcs[i]? = some .start) :
      Moves s (.step i) (s.goto i 0 (.add s.currentLevel))
  | refuse {i : ℕ} {level : Level} (hi : s.pcs[i]? = some (.add level))
      (h : level.limit < s.activeRequests + 1) : Moves s (.step i) (s.goto i 1 .undo)
  | grant {i : ℕ} {level : Level} (hi : s.pcs[i]? = some (.add level))
      (h : s.activeRequests + 1 ≤ level.limit) : Moves s (.step i) (s.goto i 1 .granted)
  | undo {i : ℕ} (hi : s.pcs[i]? = some .undo) : Moves s (.step i) (s.goto i (-1) .refused)
  | release {i : ℕ} (hi : s.pcs[i]? = some .granted) :
      Moves s (.release i) (s.goto i (-1) .released)

theorem moves_of_step (h : s.step a = some s') : s.Moves a s' := by
  revert h
  fun_cases State.step s a <;> rintro ⟨⟩
  · exact .setLevel _
  · exact .acquire
  · exact .read ‹_›
  · exact .refuse ‹_› ‹_›
  · exact .grant ‹_› (not_lt.1 ‹_›)
  · exact .undo ‹_›
  · exact .release ‹_›

/-- The counter has every token, and every acquisition that is still to be undone. -/
def Counted (s : State) : Prop := s.activeRequests = s.outstanding + s.undecided

theorem Counted.goto {pc pc' : Pc} {d : ℤ} (h : s.Counted) (hi : s.pcs[i]? = some pc)
    (hd : d + (decide (pc = .granted)).toNat + (decide (pc = .undo)).toNat =
      (decide (pc' = .granted)).toNat + (decide (pc' = .undo)).toNat) :
    (s.goto i d pc').Counted := by
  have hgranted := LTS.countP_set_add (fun pc : Pc => decide (pc = .granted)) pc' hi
  have hundo := LTS.countP_set_add (fun pc : Pc => decide (pc = .undo)) pc' hi
  unfold Counted outstanding undecided State.goto at *
  dsimp only at *
  omega

theorem Counted.step (h : s.Counted) (hs : s.step a = some s') : s'.Counted := by
  cases moves_of_step hs with
  | setLevel => exact h
  | acquire =>
    unfold Counted outstanding undecided at *
    rw [h, List.countP_append, List.countP_append]
    rfl
  | read hi | refuse hi | grant hi | undo hi | release hi => exact h.goto hi rfl

theorem outstanding_grant {level : Level} (hi : s.pcs[i]? = some (.add level)) (d : ℤ) :
    (s.goto i d .granted).outstanding = s.outstanding + 1 :=
  LTS.countP_set_add (fun pc : Pc => decide (pc = .granted)) .granted hi

/-- **Tokens are bounded by the limits**: the counter is the number of outstanding tokens and of
acquisitions that are counted and neither granted nor undone; the outstanding tokens, with the new
one, are within the limit of the level that an acquisition has read when it is granted; and an
acquisition is refused with no other one in progress only if the limit is reached. -/
theorem tokens_bounded {tr : List Act} (h : lts.Run LTS.anyStep tr s) :
    s.activeRequests = s.outstanding + s.undecided ∧ 0 ≤ s.activeRequests ∧
    ∀ i level s', s.pcs[i]? = some (.add level) → s.step (.step i) = some s' →
      (s'.pcs[i]? = some .granted ∧ (s'.outstanding : ℤ) ≤ level.limit) ∨
      (s'.pcs[i]? = some .undo ∧
        ((∀ j pc, j ≠ i → s.pcs[j]? = some pc → pc.acquiring = false) →
          level.limit ≤ (s.outstanding : ℤ))) := by
  have hcounted : s.Counted := by
    refine h.invariant ?_ fun _ _ _ h _ hs => h.step hs
    rintro _ ⟨level, rfl⟩
    rfl
  have hcounted' : s.activeRequests = s.outstanding + s.undecided := hcounted
  refine ⟨hcounted, by omega, fun i level s' hi hs => ?_⟩
  have hself (d : ℤ) (pc : Pc) : (s.goto i d pc).pcs[i]? = some pc :=
    List.getElem?_set_self (List.getElem?_eq_some_iff.1 hi).1
  rw [State.step, hi] at hs
  dsimp only at hs
  split_ifs at hs with hlimit <;> cases hs
  · refine .inr ⟨hself 1 .undo, fun halone => ?_⟩
    -- nobody is about to take back an acquisition
    have hnone : s.undecided = 0 := by
      refine List.countP_eq_zero.2 fun pc hmem hpc => ?_
      obtain ⟨j, hj⟩ := List.mem_iff_getElem?.1 hmem
      have hpc := of_decide_eq_true hpc
      subst hpc
      by_cases hji : j = i
      · subst hji
        cases hi.symm.trans hj
      · cases halone j _ hji hj
    omega
  · refine .inl ⟨hself 1 .granted, ?_⟩
    have := outstanding_grant hi 1
    omega

/-- Two tokens are granted and one is released. -/
theorem tokens_bounded_once :
    ∃ s, lts.Run LTS.anyStep [.setLevel .heavy, .acquire, .step 0, .step 0, .acquire, .step 1,
        .step 1, .release 0] s ∧ s.outstanding = 1 ∧ s.activeRequests = 1 := by
  have hinit : lts.init {} := ⟨_, rfl⟩
  refine LTS.exists_run_of_exec (f := State.step) (fun _ _ _ h => h) hinit _
    (P := fun s => s.outstanding = 1 ∧ s.undecided = 0) (by decide) fun s hr hs => ?_
  refine ⟨hs.1, ?_⟩
  rw [(tokens_bounded hr).1, hs.1, hs.2]
  rfl

end State

end Tokens

end Degradation

end GinRpc
