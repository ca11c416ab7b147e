import GinRpc.Breaker.Requests

/-!
# What the breaker guarantees

* `Sys.accounted_of_safe` : in every run in which no fallback of an admitted call panics and no
  request counter wraps, every admitted request is recorded at most once, the state moves along
  the four edges of the breaker, and late outcomes do not touch later generations.  A fallback
  that panics is caught by the same `recover` as `fn` and makes its call record a second, failed
  outcome (`Sys.fallback_panic_recorded_twice`).
* `Sys.halfOpen_admits` : the half-open state admits at most `maxRequests` requests, and does not
  reject for ever.
-/

namespace GinRpc

namespace Breaker

/-- The moves of the state: none, or along one of the four edges of the breaker. -/
inductive Move : State → State → Prop
  | stay (st : State) : Move st st
  | trip : Move .closed .opened
  | probe : Move .opened .halfOpen
  | retrip : Move .halfOpen .opened
  | recovered : Move .halfOpen .closed

/-- The call whose outcome an act brings, and the clock reading of its critical section. -/
def Act.outcome {ε : Type*} : Act ε → Option (Call × ℤ)
  | .returned c now _ => some (c, now)
  | .panicked c now => some (c, now)
  | .fallbackPanicked c now => some (c, now)
  | _ => none

namespace Sys

variable {ε : Type*} {E : Env ε} {s s' : Sys}

theorem move_currentState (σ : Settings) (cb : CircuitBreaker) (now : ℤ) :
    Move cb.state (cb.currentState σ now).state := by
  rcases CircuitBreaker.currentState_cases σ cb now with he | ⟨-, he⟩ | ⟨hst, he⟩ <;> rw [he]
  · exact .stay _
  · exact .stay _
  · rw [hst]; exact .probe

theorem move_afterRequest {c : Call} {success : Bool} {now : ℤ}
    (hw : Wf E.settings s.cb s.calls s.admitted) (hc : c ∈ s.calls) :
    Move s.cb.state (s.cb.afterRequest E.settings c.generation success now).state := by
  by_cases hg : (s.cb.currentState E.settings now).generation = c.generation
  · obtain ⟨hgen, he⟩ := CircuitBreaker.afterRequest_current success
      (hw.gen_le c hc) hg
    have hst := hw.not_opened c hc hgen
    rw [he]
    cases success with
    | true =>
      simp only [↓reduceIte]
      rcases CircuitBreaker.onSuccess_cases E.settings now hst with
        ⟨he', -⟩ | ⟨hh, cs, he'⟩ <;> rw [he']
      · exact .stay _
      · rw [hh]; exact .recovered
    | false =>
      simp only [Bool.false_eq_true, ↓reduceIte]
      rcases CircuitBreaker.onFailure_cases E.settings now hst with
        ⟨-, he'⟩ | ⟨cs, he'⟩ <;> rw [he']
      · exact .stay _
      · simp only [CircuitBreaker.toNewGeneration_state]
        cases hcb : s.cb.state with
        | closed => exact .trip
        | opened => exact absurd hcb hst
        | halfOpen => exact .retrip
  · rw [CircuitBreaker.afterRequest_stale hg]
    exact move_currentState ..

theorem move_step {a : Act ε} (hw : Wf E.settings s.cb s.calls s.admitted)
    (hst : s.step E a = some s') : Move s.cb.state s'.cb.state := by
  rcases step_cases hst with ⟨now, cb, g, -, hb, rfl⟩ | ⟨now, -, rfl⟩ |
    ⟨c, now, success, hc, -, rfl | rfl⟩ | ⟨c, -, -, -, rfl⟩ | ⟨c, now, hc, -, -, rfl⟩
  · obtain ⟨-, -, -, rfl⟩ := CircuitBreaker.beforeRequest_ok hb
    exact move_currentState ..
  · exact move_currentState ..
  · exact move_afterRequest hw hc
  · exact move_afterRequest hw hc
  · exact .stay _
  · exact move_afterRequest hw hc

/-- The outcome of a request of an earlier generation leaves the breaker as time alone does. -/
theorem stale_step {a : Act ε} {c : Call} {now : ℤ} (hst : s.step E a = some s')
    (ha : a.outcome = some (c, now))
    (hg : c.generation < (s.cb.currentState E.settings now).generation) :
    s'.cb = s.cb.currentState E.settings now := by
  have hrec : ∀ success, (s.record E c success now).cb = s.cb.currentState E.settings now :=
    fun success => CircuitBreaker.afterRequest_stale (Nat.ne_of_gt hg)
  cases a with
  | before now' => cases ha
  | fallbackReturned c' => cases ha
  | returned c' now' err =>
    cases ha
    simp only [step] at hst
    split_ifs at hst <;> simp only [Option.some.injEq] at hst <;> subst hst <;> exact hrec _
  | panicked c' now' =>
    cases ha
    simp only [step] at hst
    split_ifs at hst
    cases hst
    exact hrec _
  | fallbackPanicked c' now' =>
    cases ha
    simp only [step] at hst
    split_ifs at hst
    cases hst
    exact hrec _

variable (E) in
/-- The accounting contract of the breaker in one state of the system. -/
structure Accounted (s : Sys) : Prop where
  /-- No request has been recorded twice. -/
  once : s.recorded.Nodup
  /-- In the current generation no more outcomes than requests are counted. -/
  total : s.cb.counts.totalSuccesses.toNat + s.cb.counts.totalFailures.toNat ≤
    s.cb.counts.requests.toNat
  /-- The next step moves the state along an edge of the breaker. -/
  moves : ∀ (a : Act ε) (s' : Sys), s.step E a = some s' → Move s.cb.state s'.cb.state
  /-- An outcome from an earlier generation changes neither counts nor state. -/
  stale : ∀ (a : Act ε) (s' : Sys) (c : Call) (now : ℤ), s.step E a = some s' →
    a.outcome = some (c, now) →
    c.generation < (s.cb.currentState E.settings now).generation →
    s'.cb = s.cb.currentState E.settings now

/-- **The accounting contract holds along every safe run.** -/
theorem accounted_of_safe {tr : List (Act ε)} (h : (lts E).Run (Safe E) tr s) :
    Accounted E s := by
  have ht := tally_of_run h
  refine ⟨ht.recorded_nodup, ?_, fun a s' => move_step (wf_of_run h),
    fun a s' c now => stale_step⟩
  have hc := ht.counted
  unfold Counted at hc
  omega

/-- The default configuration, with a fallback. -/
def defaultEnv : Env Unit where
  settings := Config.settings ⟨1, minute, minute, fun c => decide (5 < c.consecutiveFailures)⟩
  isSuccessful := Option.isNone
  hasFallback := true

theorem accounted_after_failure :
    (lts defaultEnv).Run (Safe defaultEnv)
      [.before 0, .returned ⟨0, 1, .running⟩ 0 (some ())]
      ⟨⟨.closed, 1, ⟨1, 0, 1, 0, 1⟩, some minute⟩, 0, [⟨0, 1, .fallback⟩], [(1, .closed)], [0]⟩ ∧
    Accounted defaultEnv
      ⟨⟨.closed, 1, ⟨1, 0, 1, 0, 1⟩, some minute⟩, 0, [⟨0, 1, .fallback⟩], [(1, .closed)],
        [0]⟩ := by
  have h : (lts defaultEnv).Run (Safe defaultEnv)
      [.before 0, .returned ⟨0, 1, .running⟩ 0 (some ())]
      ⟨⟨.closed, 1, ⟨1, 0, 1, 0, 1⟩, some minute⟩, 0, [⟨0, 1, .fallback⟩], [(1, .closed)],
        [0]⟩ := by
    have h0 : (lts defaultEnv).Run (Safe defaultEnv) [] (initial defaultEnv 0) := .nil ⟨0, rfl⟩
    exact (h0.extend (.before 0) (fun _ => by decide) rfl).extend
      (.returned ⟨0, 1, .running⟩ 0 (some ())) trivial rfl
  exact ⟨h, accounted_of_safe h⟩

/-- A failed call whose fallback panics is recorded twice: one request, two failures. -/
theorem fallback_panic_recorded_twice :
    ¬ ∀ (tr : List (Act Unit)) (s : Sys),
      (lts defaultEnv).Run LTS.anyStep tr s → Accounted defaultEnv s := by
  intro h
  have hrun : (lts defaultEnv).Run LTS.anyStep
      [.before 0, .returned ⟨0, 1, .running⟩ 0 (some ()), .fallbackPanicked ⟨0, 1, .fallback⟩ 0]
      ⟨⟨.closed, 1, ⟨1, 0, 2, 0, 2⟩, some minute⟩, 0, [], [(1, .closed)], [0, 0]⟩ := by
    have h0 : (lts defaultEnv).Run LTS.anyStep [] (initial defaultEnv 0) := .nil ⟨0, rfl⟩
    exact ((h0.extend (.before 0) trivial rfl).extend
      (.returned ⟨0, 1, .running⟩ 0 (some ())) trivial rfl).extend
      (.fallbackPanicked ⟨0, 1, .fallback⟩ 0) trivial rfl
  exact absurd (h _ _ hrun).once (by decide)

/-- **The half-open state is bounded and no trap**, whatever panics: a half-open generation
admits at most `maxRequests` requests, and once none of its requests is running any more the
next `beforeRequest` admits. -/
theorem halfOpen_admits {tr : List (Act ε)} (h : (lts E).Run LTS.anyStep tr s) :
    (∀ g, s.admitted.count (g, .halfOpen) ≤ E.settings.maxRequests.toNat) ∧
    (s.cb.state = .halfOpen →
      (∀ c ∈ s.calls, c.generation = s.cb.generation → c.phase ≠ .running) →
      ∀ now, (s.cb.beforeRequest E.settings now).2 = .ok s.cb.generation) := by
  have hw := wf_of_run h
  refine ⟨hw.bound, fun hh hidle now => ?_⟩
  refine CircuitBreaker.beforeRequest_halfOpen hh (UInt32.lt_iff_toNat_lt.2 ?_)
  have hrun : runningIn s.calls s.cb.generation = 0 := by
    simp only [runningIn, List.countP_eq_zero, decide_eq_true_eq, not_and]
    exact fun c hc hph hg => hidle c hc hg hph
  have hr := hw.half_requests hh
  have hs := hw.half_successes hh
  omega

/-- A breaker that trips at the first failure and closes after two probes. -/
def probeEnv : Env Unit where
  settings := Config.settings ⟨2, 10, 10, fun _ => true⟩
  isSuccessful := Option.isNone
  hasFallback := false

theorem halfOpen_admits_after_probe :
    (lts probeEnv).Run LTS.anyStep
      [.before 0, .returned ⟨0, 1, .running⟩ 0 (some ()), .before 11,
        .returned ⟨1, 3, .running⟩ 12 none]
      ⟨⟨.halfOpen, 3, ⟨1, 1, 0, 1, 0⟩, none⟩, 12, [], [(1, .closed), (3, .halfOpen)], [0, 1]⟩ ∧
    ∀ now, (CircuitBreaker.beforeRequest probeEnv.settings
      ⟨.halfOpen, 3, ⟨1, 1, 0, 1, 0⟩, none⟩ now).2 = .ok 3 := by
  have h : (lts probeEnv).Run LTS.anyStep
      [.before 0, .returned ⟨0, 1, .running⟩ 0 (some ()), .before 11,
        .returned ⟨1, 3, .running⟩ 12 none]
      ⟨⟨.halfOpen, 3, ⟨1, 1, 0, 1, 0⟩, none⟩, 12, [], [(1, .closed), (3, .halfOpen)], [0, 1]⟩ := by
    have h0 : (lts probeEnv).Run LTS.anyStep [] (initial probeEnv 0) := .nil ⟨0, rfl⟩
    exact (((h0.extend (.before 0) trivial rfl).extend
      (.returned ⟨0, 1, .running⟩ 0 (some ())) trivial rfl).extend
      (.before 11) trivial rfl).extend (.returned ⟨1, 3, .running⟩ 12 none) trivial rfl
  exact ⟨h, (halfOpen_admits h).2 rfl (by simp)⟩

end Sys

end Breaker

end GinRpc
