import GinRpc.DbBreaker.Basic

/-!
# How long the database breaker stays open

Once the circuit is open, `canExecute` admits nobody until `ResetTimeout` has passed since
`lastFailureTime`.  The property is `Timely`: no admission comes earlier than that after the last
opening.  It rests on the time stamp, which is written after the state and only when the circuit
opens from closed.

* `Calm` : the steps that keep time stamp and state in agreement.
* `Sys.Orderly` : the invariant of calm runs.
* `timely_of_calm` : along every calm run all admissions are timely.
-/

namespace GinRpc

namespace DbBreaker

variable {σ : Settings}

/-- The goroutine will act on what it has read before. -/
def Pc.decided : Pc → Bool
  | .checkTime _ | .casHalfOpen | .addRequest => true
  | _ => false

/-- The circuit has been opened and the time is still to be written. -/
def Pc.stamping : Pc → Bool
  | .openTime | .forceTime => true
  | _ => false

/-! ### What one atomic operation can do -/

/-- An atomic operation at `pc`, and what comes after it. -/
structure Operation (σ : Settings) (now : ℤ) (cb : CircuitBreaker) (pc : Pc)
    (r : CircuitBreaker × Pc) : Prop where
  /-- The four compare-and-swaps change the state, nothing else does. -/
  state : r.1.state = cb.state ∨
    (pc = .casHalfOpen ∧ cb.state = .opened ∧ r.1.state = .halfOpen) ∨
    (pc = .casClosed ∧ cb.state = .halfOpen ∧ r.1.state = .closed) ∨
    (pc = .casOpen ∧ cb.state = .closed ∧ r.1.state = .opened ∧ r.2 = .openTime) ∨
    (pc = .casReopen ∧ cb.state = .halfOpen ∧ r.1.state = .opened)
  /-- The time is written by `toOpen` and `ForceOpen`. -/
  time : (pc.stamping = false ∧ r.1.lastFailureTime = cb.lastFailureTime) ∨
    (pc.stamping = true ∧ r.1.lastFailureTime = now)
  /-- How a goroutine comes to act on what it has read. -/
  decided : r.2.decided = true →
    (pc = .loadTime ∧ r.2 = .checkTime cb.lastFailureTime) ∨
    (∃ v, pc = .checkTime v ∧ now - v ≥ σ.resetTimeout ∧ r.2 = .casHalfOpen) ∨
    (pc = .idle ∧ cb.state = .halfOpen ∧ r.2 = .addRequest)
  /-- The four ways to be admitted. -/
  admitted : pc.inFlight = false → r.2.inFlight = true →
    (pc = .idle ∧ cb.state = .closed) ∨ (pc = .casHalfOpen ∧ cb.state = .opened) ∨
      (pc = .recheck ∧ cb.state = .halfOpen) ∨ pc = .addRequest

theorem operation_of_exec {cb : CircuitBreaker} {pc : Pc} {now : ℤ} {r : CircuitBreaker × Pc}
    (h : cb.exec σ now pc = some r) : Operation σ now cb pc r := by
  revert h
  fun_cases CircuitBreaker.exec σ now cb pc <;> intro h <;> cases h <;> constructor <;>
    simp_all [Pc.stamping, Pc.decided, Pc.inFlight]

namespace Sys

variable {s s' : Sys}

/-- No admission comes before the timeout has passed since the circuit was opened. -/
def Timely (σ : Settings) (s : Sys) : Prop :=
  ∀ a ∈ s.admissions, ∀ t, a.openedAt = some t → t + σ.resetTimeout ≤ a.time

/-- The circuit is not opened from half-open, and not while a goroutine acts on what it has read
before; the time of the last failure is not read before it is written. -/
def Calm (s : Sys) : Act → Prop
  | .step i =>
    (s.pc i = .casReopen → s.cb.state ≠ .halfOpen) ∧
    (s.pc i = .casOpen → s.cb.state = .closed → ∀ j, (s.pc j).decided = false) ∧
    (s.pc i = .loadTime → ∀ j, (s.pc j).stamping = false)
  | .forceOpen _ => s.cb.state ≠ .opened → ∀ j, (s.pc j).decided = false
  | _ => True

/-- The timeout has passed since the circuit was opened. -/
def Waited (σ : Settings) (s : Sys) : Prop :=
  ∀ t, s.openedAt = some t → t + σ.resetTimeout ≤ s.now

/-- The invariant of calm runs. -/
structure Orderly (σ : Settings) (s : Sys) : Prop where
  opened_le : ∀ t, s.openedAt = some t → t ≤ s.now
  stamped : ∀ t, s.openedAt = some t →
    t ≤ s.cb.lastFailureTime ∨ ∃ j, (s.pc j).stamping = true
  waited : s.cb.state ≠ .opened → s.Waited σ
  checking : ∀ j v, s.pc j = .checkTime v → ∀ t, s.openedAt = some t → t ≤ v
  deciding : ∀ j, s.pc j = .casHalfOpen ∨ s.pc j = .addRequest → s.Waited σ
  timely : s.Timely σ

/-- A circuit that is not known to have been opened. -/
theorem orderly_of_openedAt (ho : s.openedAt = none) (ht : s.Timely σ) : Orderly σ s := by
  have hno : ∀ t, s.openedAt ≠ some t := by
    rw [ho]
    rintro t ⟨⟩
  exact ⟨fun t h => absurd h (hno t), fun t h => absurd h (hno t),
    fun _ t h => absurd h (hno t), fun _ _ _ t h => absurd h (hno t),
    fun _ _ t h => absurd h (hno t), ht⟩

theorem orderly_init {now : ℤ} : Orderly σ { now := now } :=
  orderly_of_openedAt rfl (List.forall_mem_nil _)

/-- Opening the circuit: the time is written next, and nobody acts on old readings. -/
theorem Orderly.opens (h : Orderly σ s) {i : ℕ} {cb : CircuitBreaker} {pc : Pc}
    (hs : s.cb.state ≠ .opened) (hcb : cb.state = .opened) (hpc : pc.stamping = true)
    (hidle : ∀ j, (s.pc j).decided = false)
    (hadm : (s.pc i).inFlight = true ∨ pc.inFlight = false) : Orderly σ (s.move i cb pc) := by
  have hopen : (s.move i cb pc).openedAt = some s.now := if_pos ⟨hs, hcb⟩
  have hdec : ∀ j, ((s.move i cb pc).pc j).decided = false := by
    intro j
    rw [pc_move]
    split_ifs
    · cases pc <;> first | rfl | cases hpc
    · exact hidle j
  refine ⟨fun t ht => ?_, fun t _ => .inr ⟨i, ?_⟩, fun hne => absurd hcb hne, fun j v hj => ?_,
    fun j hj => ?_, ?_⟩
  · rw [hopen] at ht
    exact (Option.some.inj ht).symm.le
  · rw [pc_move, if_pos rfl]
    exact hpc
  · have := hdec j
    rw [hj] at this
    cases this
  · have := hdec j
    obtain hj | hj := hj <;> (rw [hj] at this; cases this)
  · intro a ha
    obtain ha | ⟨hi, hp, -⟩ := mem_admissions_move ha
    · exact h.timely a ha
    · rw [hi, hp] at hadm
      exact absurd hadm (by decide)

/-- A step of a goroutine that does not open the circuit. -/
theorem Orderly.keeps (h : Orderly σ s) {i : ℕ} {r : CircuitBreaker × Pc}
    (hex : s.cb.exec σ s.now (s.pc i) = some r) (hcalm : s.Calm (.step i))
    (hno : ¬ (s.cb.state ≠ .opened ∧ r.1.state = .opened)) : Orderly σ (s.move i r.1 r.2) := by
  have hopen : (s.move i r.1 r.2).openedAt = s.openedAt := if_neg hno
  -- the goroutine's new reading, if it has one
  have hcheck : ∀ v, r.2 = .checkTime v → ∀ t, s.openedAt = some t → t ≤ v := by
    intro v hv t ht
    obtain ⟨hpc, hr⟩ | ⟨_, _, _, hr⟩ | ⟨_, _, hr⟩ :=
      (operation_of_exec hex).decided (by rw [hv]; rfl)
    · obtain rfl : v = s.cb.lastFailureTime := Pc.checkTime.inj (hv.symm.trans hr)
      obtain hle | ⟨j, hj⟩ := h.stamped t ht
      · exact hle
      · have := hcalm.2.2 hpc j
        rw [hj] at this
        cases this
    · rw [hr] at hv
      cases hv
    · rw [hr] at hv
      cases hv
  have hdecide : r.2 = .casHalfOpen ∨ r.2 = .addRequest → s.Waited σ := by
    intro hr2
    have hd : r.2.decided = true := by
      obtain hr2 | hr2 := hr2 <;> (rw [hr2]; rfl)
    obtain ⟨_, hr⟩ | ⟨v, hpc, hv, _⟩ | ⟨_, hst, _⟩ := (operation_of_exec hex).decided hd
    · rw [hr] at hr2
      obtain hr2 | hr2 := hr2 <;> cases hr2
    · intro t ht
      have := h.checking i v hpc t ht
      omega
    · exact h.waited (by rw [hst]; decide)
  refine ⟨fun t ht => ?_, fun t ht => ?_, fun hne t ht => ?_, fun j v hj t ht => ?_,
    fun j hj t ht => ?_, ?_⟩
  · exact h.opened_le t (hopen ▸ ht)
  · rw [hopen] at ht
    obtain ⟨hst, htime⟩ | ⟨-, htime⟩ := (operation_of_exec hex).time
    · obtain hle | ⟨j, hj⟩ := h.stamped t ht
      · exact .inl (by change t ≤ r.1.lastFailureTime; rw [htime]; exact hle)
      · refine .inr ⟨j, ?_⟩
        rw [pc_move, if_neg]
        · exact hj
        · rintro rfl
          rw [hst] at hj
          cases hj
    · exact .inl (by change t ≤ r.1.lastFailureTime; rw [htime]; exact h.opened_le t ht)
  · rw [hopen] at ht
    change r.1.state ≠ .opened at hne
    obtain hst | ⟨hpc, -, -⟩ | ⟨-, hst, -⟩ | ⟨-, -, hst, -⟩ | ⟨-, -, hst⟩ :=
      (operation_of_exec hex).state
    · exact h.waited (hst ▸ hne) t ht
    · exact h.deciding i (.inl hpc) t ht
    · exact h.waited (by rw [hst]; decide) t ht
    · exact absurd hst hne
    · exact absurd hst hne
  · rw [hopen] at ht
    rw [pc_move] at hj
    split_ifs at hj
    · exact hcheck v hj t ht
    · exact h.checking j v hj t ht
  · rw [hopen] at ht
    rw [pc_move] at hj
    split_ifs at hj
    · exact hdecide hj t ht
    · exact h.deciding j hj t ht
  · intro a ha
    obtain ha | ⟨hi, hp, rfl⟩ := mem_admissions_move ha
    · exact h.timely a ha
    · obtain ⟨-, hst⟩ | ⟨hpc, -⟩ | ⟨-, hst⟩ | hpc := (operation_of_exec hex).admitted hi hp
      · exact h.waited (by rw [hst]; decide)
      · exact h.deciding i (.inl hpc)
      · exact h.waited (by rw [hst]; decide)
      · exact h.deciding i (.inr hpc)

/-- A change of one program counter that brings no reading and no time stamp to write. -/
theorem Orderly.setPc (h : Orderly σ s) {i : ℕ} {pc : Pc} (hd : pc.decided = false)
    (hi : (s.pc i).stamping = false) :
    Orderly σ { s with pc := Function.update s.pc i pc } := by
  have hpc : ∀ j q, q.decided = true → Function.update s.pc i pc j = q → s.pc j = q := by
    intro j q hq hj
    rw [Function.update_apply] at hj
    split_ifs at hj
    · rw [← hj, hd] at hq
      cases hq
    · exact hj
  refine ⟨h.opened_le, fun t ht => ?_, h.waited, fun j v hj => ?_, fun j hj => ?_, h.timely⟩
  · obtain hle | ⟨j, hj⟩ := h.stamped t ht
    · exact .inl hle
    · refine .inr ⟨j, ?_⟩
      change (Function.update s.pc i pc j).stamping = true
      rw [Function.update_of_ne]
      · exact hj
      · rintro rfl
        rw [hi] at hj
        cases hj
  · exact h.checking j v (hpc j _ rfl hj)
  · exact h.deciding j (hj.imp (hpc j _ rfl) (hpc j _ rfl))

/-- **A calm step keeps the invariant.** -/
theorem orderly_step (h : Orderly σ s) {a : Act} (hcalm : s.Calm a)
    (hst : s.step σ a = some s') : Orderly σ s' := by
  cases a with
  | step i =>
    obtain ⟨r, hex, rfl⟩ := Option.map_eq_some_iff.1 hst
    by_cases hno : s.cb.state ≠ .opened ∧ r.1.state = .opened
    · -- the circuit opens, and not from half-open
      obtain hs | ⟨-, -, hs⟩ | ⟨-, -, hs⟩ | ⟨hpc, hcl, hs, hr⟩ | ⟨hpc, hs, -⟩ :=
        (operation_of_exec hex).state
      · exact absurd (hs.symm.trans hno.2) hno.1
      · rw [hs] at hno
        exact absurd hno.2 (by decide)
      · rw [hs] at hno
        exact absurd hno.2 (by decide)
      · exact h.opens hno.1 hs (by rw [hr]; rfl) (hcalm.2.1 hpc hcl) (.inl (by rw [hpc]; rfl))
      · exact absurd hs (hcalm.1 hpc)
    · exact h.keeps hex hcalm hno
  | returned i failed =>
    rw [step] at hst
    split_ifs at hst with hi
    cases hst
    exact h.setPc rfl (by rw [hi]; rfl)
  | forceOpen i =>
    rw [step] at hst
    split_ifs at hst with hi
    cases hst
    by_cases hs : s.cb.state = .opened
    · have hcb : { s.cb with state := .opened } = s.cb := by rw [← hs]
      have hsame : s.move i { s.cb with state := .opened } .forceTime =
          { s with pc := Function.update s.pc i .forceTime } := by
        rw [hcb]
        simp [move, hs, Pc.inFlight]
      rw [hsame]
      exact h.setPc rfl (by rw [hi]; rfl)
    · exact h.opens hs rfl rfl (hcalm hs) (.inr rfl)
  | forceClosed i =>
    rw [step] at hst
    split_ifs at hst with hi
    cases hst
    exact orderly_of_openedAt rfl h.timely
  | tick d =>
    cases hst
    have hle : s.now ≤ s.now + d := by omega
    exact ⟨fun t ht => (h.opened_le t ht).trans hle, h.stamped,
      fun hne t ht => (h.waited hne t ht).trans hle, h.checking,
      fun j hj t ht => (h.deciding j hj t ht).trans hle, h.timely⟩

/-- **Along every calm run no admission comes before the timeout has passed.** -/
theorem timely_of_calm {tr : List Act} (hrun : (lts σ).Run Calm tr s) : s.Timely σ := by
  refine (hrun.invariant (I := Orderly σ) ?_ fun s a s' h hok hst => orderly_step h hok hst).timely
  rintro s ⟨now, rfl⟩
  exact orderly_init

/-- The circuit opens at the first failure and closes after one success. -/
def trip : Settings := Config.settings ⟨1, 10, 1, 1⟩

/-- A calm step of one of the goroutines 0 and 1, if the others have not begun. -/
def calm (s : Sys) : Act → Bool
  | .step i =>
    i < 2 ∧ (s.pc i = .casReopen → s.cb.state ≠ .halfOpen) ∧
      (s.pc i = .casOpen → (s.pc 0).decided = false ∧ (s.pc 1).decided = false) ∧
      (s.pc i = .loadTime → (s.pc 0).stamping = false ∧ (s.pc 1).stamping = false)
  | .returned i _ => i < 2
  | .tick _ => true
  | _ => false

theorem pc_cases {j : ℕ} (h : ∀ j, 2 ≤ j → s.pc j = .idle) {P : Pc → Prop} (hidle : P .idle)
    (h01 : P (s.pc 0) ∧ P (s.pc 1)) : P (s.pc j) := by
  match j with
  | 0 => exact h01.1
  | 1 => exact h01.2
  | j + 2 => rw [h (j + 2) (by omega)]; exact hidle

theorem calm_of_check {a : Act} (hJ : ∀ j, 2 ≤ j → s.pc j = .idle) (hc : s.calm a = true)
    (h : s.step trip a = some s') :
    s.Calm a ∧ s.step trip a = some s' ∧ ∀ j, 2 ≤ j → s'.pc j = .idle := by
  have hupd : ∀ {i : ℕ} {pc : Pc}, i < 2 → ∀ j, 2 ≤ j → Function.update s.pc i pc j = .idle := by
    intro i pc hi j hj
    rw [Function.update_of_ne (by omega)]
    exact hJ j hj
  cases a with
  | step i =>
    obtain ⟨hi, hre, hop, hld⟩ := of_decide_eq_true hc
    refine ⟨⟨hre, fun hp _ j => ?_, fun hp j => ?_⟩, h, ?_⟩
    · exact pc_cases (P := fun pc => pc.decided = false) hJ rfl (hop hp)
    · exact pc_cases (P := fun pc => pc.stamping = false) hJ rfl (hld hp)
    · obtain ⟨r, -, rfl⟩ := Option.map_eq_some_iff.1 h
      exact hupd hi
  | returned i failed =>
    refine ⟨trivial, h, ?_⟩
    rw [step] at h
    split_ifs at h
    cases h
    exact hupd (of_decide_eq_true hc)
  | tick d =>
    refine ⟨trivial, h, ?_⟩
    cases h
    exact hJ
  | forceOpen i => cases hc
  | forceClosed i => cases hc

theorem timely_after_trip :
    ∃ s, (lts trip).Run Calm [.step 0, .returned 0 true, .step 0, .step 0, .step 0, .step 0,
        .tick 10, .step 1, .step 1, .step 1, .step 1] s ∧
      s.admissions = [⟨1, 10, some 0, 1⟩, ⟨0, 0, none, 0⟩] ∧ s.Timely trip := by
  exact LTS.exists_guarded_run (A := lts trip) (fun _ _ _ => calm_of_check) ⟨0, rfl⟩
    (fun _ _ => rfl) _ (by decide) fun s hrun hs => ⟨hs, timely_of_calm hrun⟩

/-- The admissions that come too early. -/
def early (σ : Settings) (s : Sys) : Bool :=
  s.admissions.any fun a => a.openedAt.any fun t => decide (a.time < t + σ.resetTimeout)

theorem not_timely_of_early (h : s.early σ = true) : ¬ s.Timely σ := by
  intro ht
  obtain ⟨a, ha, hany⟩ := List.any_eq_true.1 h
  cases hopen : a.openedAt with
  | none =>
    rw [hopen] at hany
    cases hany
  | some t =>
    rw [hopen] at hany
    exact absurd (ht a ha t hopen) (not_le.2 (of_decide_eq_true hany))

/-- A probe that fails opens the circuit again at time 10, and the next request is admitted at
once. -/
theorem admitted_after_failed_probe :
    ∃ s, (lts trip).Run LTS.anyStep
      [.step 0, .returned 0 true, .step 0, .step 0, .step 0, .step 0, .step 0, .tick 10,
        -- the probe is admitted, and fails
        .step 1, .step 1, .step 1, .step 1, .step 1, .step 1, .returned 1 true, .step 1, .step 1,
        .step 1,
        .step 2, .step 2, .step 2, .step 2] s ∧ ¬ s.Timely trip := by
  exact LTS.exists_run_of_exec (A := lts trip) (f := fun s a => s.step trip a) (fun _ _ _ h => h)
    ⟨0, rfl⟩ _ (by decide) fun s _ hs => not_timely_of_early hs

end Sys

end DbBreaker

end GinRpc
