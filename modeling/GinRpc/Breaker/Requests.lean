import GinRpc.LTS.Basic
import GinRpc.Breaker.Basic

/-!
# Overlapping requests on one breaker

`Execute` and `ExecuteContext` enter the mutex twice, in `beforeRequest` and in `afterRequest`,
and run `fn` and the fallback outside it.  Any number of calls overlap, so a run of the system
is an interleaving of

* `before` : a call enters `beforeRequest`, which admits or rejects it;
* `returned` : `fn` of an admitted call returns, its outcome is recorded, and the call either
  ends or goes on to the fallback;
* `panicked` : `fn` panics, the deferred `recover` records a failure and the panic goes on;
* `fallbackReturned`, `fallbackPanicked` : the fallback of an admitted call ends.  The deferred
  `recover` still guards it, so a panicking fallback makes the call record a second outcome.

A rejected call runs its fallback before the `defer` statement is reached, and so has no further
effect on the breaker.  Clock readings never decrease along a run.

* `Sys.Wf` : the invariant of all runs; in the half-open state it ties the admitted requests to
  the successes in a row and the calls still running.
* `Sys.Tally` : in the runs without a second recording and without a wrapped request counter,
  every request of the current generation is running or has been counted once.
-/

namespace GinRpc

namespace Breaker

/-- Where an admitted call stands. -/
inductive Phase where
  /-- `fn` has not returned yet. -/
  | running
  /-- The outcome has been recorded and the fallback is running. -/
  | fallback
  deriving DecidableEq, Repr

/-- An admitted call that has not returned. -/
structure Call where
  /-- Position in the order of admissions. -/
  id : ℕ
  generation : ℕ
  phase : Phase
  deriving DecidableEq, Repr

/-- The parameters of a system of calls; `ε` is the type of errors. -/
structure Env (ε : Type*) where
  settings : Settings
  isSuccessful : Option ε → Bool
  /-- `cb.fallback != nil` -/
  hasFallback : Bool

/-- A breaker with its calls.  `admitted` and `recorded` are history: the generation and state of
every admission, and the calls whose outcome was counted, both in order of time. -/
structure Sys where
  cb : CircuitBreaker
  now : ℤ
  calls : List Call
  admitted : List (ℕ × State)
  recorded : List ℕ
  deriving DecidableEq

/-- The steps of the system, with the clock reading of each critical section. -/
inductive Act (ε : Type*) where
  | before (now : ℤ)
  | returned (c : Call) (now : ℤ) (err : Option ε)
  | panicked (c : Call) (now : ℤ)
  | fallbackReturned (c : Call)
  | fallbackPanicked (c : Call) (now : ℤ)

namespace Sys

variable {ε : Type*} (E : Env ε)

/-- The second critical section of the call `c`. -/
def record (s : Sys) (c : Call) (success : Bool) (now : ℤ) : Sys :=
  { s with
    cb := s.cb.afterRequest E.settings c.generation success now
    now := now
    recorded := if (s.cb.currentState E.settings now).generation = c.generation
      then s.recorded ++ [c.id] else s.recorded }

/-- The call `c` returns. -/
def finish (s : Sys) (c : Call) : Sys := { s with calls := s.calls.erase c }

/-- The call `c` goes on to its fallback. -/
def toFallback (s : Sys) (c : Call) : Sys :=
  { s with calls := { c with phase := .fallback } :: s.calls.erase c }

/-- One step, if it is possible. -/
def step (s : Sys) : Act ε → Option Sys
  | .before now =>
    if now < s.now then none
    else match s.cb.beforeRequest E.settings now with
      | (cb, .error _) => some { s with cb := cb, now := now }
      | (cb, .ok g) => some { s with
          cb := cb
          now := now
          calls := ⟨s.admitted.length, g, .running⟩ :: s.calls
          admitted := s.admitted ++ [(g, cb.state)] }
  | .returned c now err =>
    if c ∈ s.calls ∧ c.phase = .running ∧ s.now ≤ now then
      let s' := s.record E c (E.isSuccessful err) now
      -- `if err != nil && cb.fallback != nil`
      some (if err.isSome && E.hasFallback then s'.toFallback c else s'.finish c)
    else none
  | .panicked c now =>
    if c ∈ s.calls ∧ c.phase = .running ∧ s.now ≤ now then
      some ((s.record E c false now).finish c)
    else none
  | .fallbackReturned c =>
    if c ∈ s.calls ∧ c.phase = .fallback then some (s.finish c) else none
  | .fallbackPanicked c now =>
    if c ∈ s.calls ∧ c.phase = .fallback ∧ s.now ≤ now then
      some ((s.record E c false now).finish c)
    else none

/-- A breaker constructed at time `now`, before any call. -/
def initial (now : ℤ) : Sys := ⟨.newCircuitBreaker E.settings now, now, [], [], []⟩

/-- The system of all interleavings. -/
def lts : LTS Sys (Act ε) where
  init s := ∃ now, s = initial E now
  step s a s' := s.step E a = some s'

/-- The calls admitted in generation `g` whose `fn` has not returned. -/
def runningIn (calls : List Call) (g : ℕ) : ℕ :=
  calls.countP fun c => decide (c.phase = .running ∧ c.generation = g)

variable {E} {s s' : Sys}

/-- What a step can do: admit a call, let time pass, record an outcome and move on, or end. -/
theorem step_cases {a : Act ε} (h : s.step E a = some s') :
    (∃ now cb g, a = .before now ∧ s.cb.beforeRequest E.settings now = (cb, .ok g) ∧
      s' = { s with
        cb := cb
        now := now
        calls := ⟨s.admitted.length, g, .running⟩ :: s.calls
        admitted := s.admitted ++ [(g, cb.state)] }) ∨
    (∃ now, a = .before now ∧ s' = { s with cb := s.cb.currentState E.settings now, now := now }) ∨
    (∃ c now success, c ∈ s.calls ∧ c.phase = .running ∧
      (s' = (s.record E c success now).finish c ∨ s' = (s.record E c success now).toFallback c)) ∨
    (∃ c, c ∈ s.calls ∧ c.phase = .fallback ∧ a = .fallbackReturned c ∧ s' = s.finish c) ∨
    (∃ c now, c ∈ s.calls ∧ c.phase = .fallback ∧ a = .fallbackPanicked c now ∧
      s' = (s.record E c false now).finish c) := by
  cases a with
  | before now =>
    simp only [step] at h
    split_ifs at h
    split at h
    · rename_i cb e heq
      cases h
      exact .inr (.inl ⟨now, rfl, by rw [CircuitBreaker.beforeRequest_error heq]⟩)
    · rename_i cb g heq
      cases h
      exact .inl ⟨now, cb, g, rfl, heq, rfl⟩
  | returned c now err =>
    simp only [step] at h
    split_ifs at h with hc hf
    all_goals simp only [Option.some.injEq] at h
    · exact .inr (.inr (.inl ⟨c, now, _, hc.1, hc.2.1, .inr h.symm⟩))
    · exact .inr (.inr (.inl ⟨c, now, _, hc.1, hc.2.1, .inl h.symm⟩))
  | panicked c now =>
    simp only [step] at h
    split_ifs at h with hc
    exact .inr (.inr (.inl ⟨c, now, false, hc.1, hc.2.1, .inl (Option.some.inj h).symm⟩))
  | fallbackReturned c =>
    simp only [step] at h
    split_ifs at h with hc
    exact .inr (.inr (.inr (.inl ⟨c, hc.1, hc.2, rfl, (Option.some.inj h).symm⟩)))
  | fallbackPanicked c now =>
    simp only [step] at h
    split_ifs at h with hc
    exact .inr (.inr (.inr (.inr ⟨c, now, hc.1, hc.2.1, rfl, (Option.some.inj h).symm⟩)))

/-! ### Settling a call -/

/-- The call `c` has left its phase: the remaining calls have the generations they had, and one
running call less if `c` was running. -/
structure Settles (c : Call) (calls calls' : List Call) : Prop where
  gens : ∀ d ∈ calls', ∃ d₀ ∈ calls, d.generation = d₀.generation
  running : ∀ g, runningIn calls' g + (if c.phase = .running ∧ c.generation = g then 1 else 0) =
    runningIn calls g
  ids : (calls'.map Call.id).Subperm (calls.map Call.id)
  rest : ∀ d ∈ calls', d.phase = .running → d ∈ calls.erase c

theorem runningIn_erase {c : Call} {calls : List Call} (hc : c ∈ calls) (g : ℕ) :
    runningIn (calls.erase c) g + (if c.phase = .running ∧ c.generation = g then 1 else 0) =
      runningIn calls g := by
  unfold runningIn
  rw [(List.perm_cons_erase hc).countP_eq, List.countP_cons]
  simp

theorem settles_finish {c : Call} {calls : List Call} (hc : c ∈ calls) :
    Settles c calls (calls.erase c) where
  gens d hd := ⟨d, List.mem_of_mem_erase hd, rfl⟩
  running := runningIn_erase hc
  ids := (List.erase_sublist.map _).subperm
  rest _ hd _ := hd

theorem settles_toFallback {c : Call} {calls : List Call} (hc : c ∈ calls) :
    Settles c calls ({ c with phase := .fallback } :: calls.erase c) where
  gens d hd := by
    rcases List.mem_cons.1 hd with rfl | hd
    · exact ⟨c, hc, rfl⟩
    · exact ⟨d, List.mem_of_mem_erase hd, rfl⟩
  running g := by
    rw [← runningIn_erase hc g]
    simp [runningIn]
  ids := by
    have hp := (List.perm_cons_erase hc).map Call.id
    exact hp.symm.subperm
  rest d hd hr := by
    rcases List.mem_cons.1 hd with rfl | hd
    · cases hr
    · exact hd

/-! ### The invariant of all runs -/

/-- The invariant of the breaker against its calls and the history of admissions. -/
structure Wf (σ : Settings) (cb : CircuitBreaker) (calls : List Call)
    (admitted : List (ℕ × State)) : Prop where
  gen_le : ∀ c ∈ calls, c.generation ≤ cb.generation
  not_opened : ∀ c ∈ calls, c.generation = cb.generation → cb.state ≠ .opened
  admitted_le : ∀ a ∈ admitted, a.1 ≤ cb.generation
  /-- Every half-open request is running or one of the successes in a row. -/
  half_requests : cb.state = .halfOpen → cb.counts.requests.toNat =
    cb.counts.consecutiveSuccesses.toNat + runningIn calls cb.generation
  half_successes : cb.state = .halfOpen →
    cb.counts.consecutiveSuccesses.toNat < σ.maxRequests.toNat
  half_admitted : cb.state = .halfOpen →
    admitted.count (cb.generation, .halfOpen) = cb.counts.requests.toNat
  bound : ∀ g, admitted.count (g, .halfOpen) ≤ σ.maxRequests.toNat

namespace Wf

variable {σ : Settings} {cb : CircuitBreaker} {calls calls' : List Call}
  {admitted : List (ℕ × State)} {now : ℤ}

theorem runningIn_succ (h : Wf σ cb calls admitted) :
    runningIn calls (cb.generation + 1) = 0 := by
  simp only [runningIn, List.countP_eq_zero, decide_eq_true_eq, not_and]
  intro c hc _ hg
  have := h.gen_le c hc
  omega

theorem count_succ (h : Wf σ cb calls admitted) (st : State) :
    admitted.count (cb.generation + 1, st) = 0 := by
  rw [List.count_eq_zero]
  intro hm
  have := h.admitted_le _ hm
  simp at this

/-- A new generation starts from nothing, whatever the state. -/
theorem newGeneration (h : Wf σ cb calls admitted) (st : State) (cs : Counts) (now : ℤ) :
    Wf σ (.toNewGeneration σ { cb with state := st, counts := cs } now) calls admitted where
  gen_le c hc := (h.gen_le c hc).trans (Nat.le_succ _)
  not_opened c hc hg := by
    have := h.gen_le c hc
    simp at hg; omega
  admitted_le a ha := (h.admitted_le a ha).trans (Nat.le_succ _)
  half_requests _ := by simp [h.runningIn_succ]
  half_successes _ := by simpa using σ.maxRequests_pos
  half_admitted _ := by simp [h.count_succ]
  bound := h.bound

theorem currentState (h : Wf σ cb calls admitted) (now : ℤ) :
    Wf σ (cb.currentState σ now) calls admitted := by
  rcases CircuitBreaker.currentState_cases σ cb now with he | ⟨-, he⟩ | ⟨-, he⟩ <;> rw [he]
  · exact h
  · exact h.newGeneration cb.state cb.counts now
  · exact h.newGeneration .halfOpen cb.counts now

/-- Admitting a request below the half-open limit. -/
theorem accept (h : Wf σ cb calls admitted) (hst : cb.state ≠ .opened)
    (hlt : cb.state = .halfOpen → cb.counts.requests < σ.maxRequests) (id : ℕ) :
    Wf σ { cb with counts := { cb.counts with requests := cb.counts.requests + 1 } }
      (⟨id, cb.generation, .running⟩ :: calls) (admitted ++ [(cb.generation, cb.state)]) := by
  -- below the limit the 32-bit counter does not wrap
  have hreq : cb.state = .halfOpen →
      (cb.counts.requests + 1).toNat = cb.counts.requests.toNat + 1 := by
    intro hh
    have h1 := UInt32.lt_iff_toNat_lt.1 (hlt hh)
    have h2 := σ.maxRequests.toNat_lt
    rw [UInt32.toNat_add, UInt32.toNat_one]
    omega
  refine ⟨?_, fun _ _ _ => hst, ?_, fun hh => ?_, h.half_successes, fun hh => ?_, fun g => ?_⟩
  · intro c hc
    rcases List.mem_cons.1 hc with rfl | hc
    · exact le_rfl
    · exact h.gen_le c hc
  · intro a ha
    rcases List.mem_append.1 ha with ha | ha
    · exact h.admitted_le a ha
    · simp only [List.mem_singleton] at ha
      rw [ha]
  · have hr := h.half_requests hh
    simp only [hreq hh, hr, runningIn, List.countP_cons]
    simp [Nat.add_assoc]
  · have ha := h.half_admitted hh
    change cb.state = .halfOpen at hh
    simp [List.count_append, ha, hh, hreq hh]
  · rw [List.count_append]
    by_cases hg : (g, State.halfOpen) = (cb.generation, cb.state)
    · obtain ⟨rfl, hh⟩ := Prod.mk.injEq .. ▸ hg
      have h1 := UInt32.lt_iff_toNat_lt.1 (hlt hh.symm)
      have ha := h.half_admitted hh.symm
      simp [← hh, ha]; omega
    · have hz : List.count (g, State.halfOpen) [(cb.generation, cb.state)] = 0 := by
        rw [List.count_eq_zero]
        simpa using hg
      rw [hz]; exact h.bound g

/-- Calls that do not run in the current half-open generation may come and go. -/
theorem of_calls (h : Wf σ cb calls admitted)
    (hg : ∀ d ∈ calls', ∃ d₀ ∈ calls, d.generation = d₀.generation)
    (hr : cb.state = .halfOpen → runningIn calls' cb.generation = runningIn calls cb.generation) :
    Wf σ cb calls' admitted where
  gen_le d hd := by
    obtain ⟨d₀, hd₀, he⟩ := hg d hd
    exact he ▸ h.gen_le d₀ hd₀
  not_opened d hd hgen := by
    obtain ⟨d₀, hd₀, he⟩ := hg d hd
    exact h.not_opened d₀ hd₀ (he ▸ hgen)
  admitted_le := h.admitted_le
  half_requests hh := by rw [hr hh]; exact h.half_requests hh
  half_successes := h.half_successes
  half_admitted := h.half_admitted
  bound := h.bound

/-- Outside the half-open state the counters are free. -/
theorem of_counts (h : Wf σ cb calls admitted) (hst : cb.state ≠ .halfOpen) (cs : Counts) :
    Wf σ { cb with counts := cs } calls admitted :=
  ⟨h.gen_le, h.not_opened, h.admitted_le, fun hh => absurd hh hst, fun hh => absurd hh hst,
    fun hh => absurd hh hst, h.bound⟩

theorem onFailure (h : Wf σ cb calls admitted) (hst : cb.state ≠ .opened) :
    Wf σ (cb.onFailure σ now) calls admitted := by
  rcases CircuitBreaker.onFailure_cases σ now hst with ⟨hc, he⟩ | ⟨cs, he⟩ <;> rw [he]
  · exact h.of_counts (by simp [hc]) _
  · exact h.newGeneration .opened cs now

/-- A success of a running call: one running call less, one success in a row more. -/
theorem onSuccess {c : Call} (h : Wf σ cb calls admitted) (hst : cb.state ≠ .opened)
    (hs : Settles c calls calls') (hrun : c.phase = .running)
    (hgen : c.generation = cb.generation) :
    Wf σ (cb.onSuccess σ now) calls' admitted := by
  rcases CircuitBreaker.onSuccess_cases σ now hst with ⟨he, hlt⟩ | ⟨hh, cs, he⟩
  · rw [he]
    by_cases hh : cb.state = .halfOpen
    · have hs1 := h.half_successes hh
      have hm := σ.maxRequests.toNat_lt
      have hcs : (cb.counts.consecutiveSuccesses + 1).toNat =
          cb.counts.consecutiveSuccesses.toNat + 1 := by
        rw [UInt32.toNat_add, UInt32.toNat_one]; omega
      have hr := hs.running cb.generation
      rw [if_pos ⟨hrun, hgen⟩] at hr
      have h0 := h.half_requests hh
      refine ⟨?_, fun _ _ _ => hst, h.admitted_le, fun _ => ?_, fun _ => ?_, h.half_admitted,
        h.bound⟩
      · intro d hd
        obtain ⟨d₀, hd₀, hde⟩ := hs.gens d hd
        exact hde ▸ h.gen_le d₀ hd₀
      · simp only [hcs]; omega
      · have := UInt32.lt_iff_toNat_lt.1 (hlt hh)
        simpa [hcs] using this
    · exact (h.of_counts hh _).of_calls hs.gens fun hh' => absurd hh' hh
  · rw [he]
    have hn := h.newGeneration .closed cs now
    exact hn.of_calls hs.gens fun hh' => by simp at hh'

/-- The second critical section of a call keeps the invariant. -/
theorem afterRequest {c : Call} {success : Bool} (h : Wf σ cb calls admitted) (hc : c ∈ calls)
    (hs : Settles c calls calls') (hrun : success = true → c.phase = .running) :
    Wf σ (cb.afterRequest σ c.generation success now) calls' admitted := by
  by_cases hg : (cb.currentState σ now).generation = c.generation
  · obtain ⟨hgen, he⟩ := CircuitBreaker.afterRequest_current success
      (h.gen_le c hc) hg
    have hst := h.not_opened c hc hgen
    rw [he]
    cases success with
    | true => exact h.onSuccess hst hs (hrun rfl) hgen
    | false =>
      have hf : Wf σ (cb.onFailure σ now) calls admitted := h.onFailure hst
      refine hf.of_calls hs.gens fun hh => ?_
      -- a failure never leaves the breaker half-open
      rcases CircuitBreaker.onFailure_cases σ now hst with ⟨hcl, he'⟩ | ⟨cs, he'⟩
      all_goals rw [he'] at hh
      · change cb.state = .halfOpen at hh
        rw [hcl] at hh; cases hh
      · simp at hh
  · rw [CircuitBreaker.afterRequest_stale hg]
    have hcur := h.currentState now
    refine hcur.of_calls hs.gens fun _ => ?_
    have hr := hs.running (cb.currentState σ now).generation
    rw [if_neg fun hh => hg hh.2.symm] at hr
    simpa using hr

end Wf

theorem wf_initial (now : ℤ) :
    Wf E.settings (initial E now).cb (initial E now).calls (initial E now).admitted := by
  constructor <;> simp [initial, CircuitBreaker.newCircuitBreaker]

theorem wf_step {a : Act ε} (hw : Wf E.settings s.cb s.calls s.admitted)
    (hst : s.step E a = some s') : Wf E.settings s'.cb s'.calls s'.admitted := by
  rcases step_cases hst with ⟨now, cb, g, -, hb, rfl⟩ | ⟨now, -, rfl⟩ |
    ⟨c, now, success, hc, hrun, rfl | rfl⟩ | ⟨c, hc, hph, -, rfl⟩ | ⟨c, now, hc, hph, -, rfl⟩
  · obtain ⟨rfl, hno, hlt, rfl⟩ := CircuitBreaker.beforeRequest_ok hb
    exact (hw.currentState now).accept hno hlt _
  · exact hw.currentState now
  · exact hw.afterRequest hc (settles_finish hc) fun _ => hrun
  · exact hw.afterRequest hc (settles_toFallback hc) fun _ => hrun
  · have hs := settles_finish hc
    refine hw.of_calls hs.gens fun _ => ?_
    have hr := hs.running s.cb.generation
    rwa [if_neg fun hh => by simp [hph] at hh, Nat.add_zero] at hr
  · exact hw.afterRequest hc (settles_finish hc) fun hh => by cases hh

/-- The invariant holds in every reachable state, whatever panics. -/
theorem wf_of_run {ok : Sys → Act ε → Prop} {tr : List (Act ε)} (h : (lts E).Run ok tr s) :
    Wf E.settings s.cb s.calls s.admitted := by
  refine h.invariant (I := fun s => Wf E.settings s.cb s.calls s.admitted) ?_ ?_
  · rintro s ⟨now, rfl⟩
    exact wf_initial now
  · exact fun _ _ _ hw _ hst => wf_step hw hst

/-! ### Counting every request once -/

variable (E) in
/-- A step that neither records a second outcome for a call nor wraps the request counter: no
fallback of an admitted call panics, and a closed generation admits fewer than `2 ^ 32`
requests. -/
def Safe (s : Sys) : Act ε → Prop
  | .before now => (s.cb.currentState E.settings now).state = .closed →
      (s.cb.currentState E.settings now).counts.requests.toNat + 1 < 2 ^ 32
  | .fallbackPanicked _ _ => False
  | _ => True

/-- Every request of the current generation is running or has been counted. -/
def Counted (cb : CircuitBreaker) (calls : List Call) : Prop :=
  cb.counts.totalSuccesses.toNat + cb.counts.totalFailures.toNat +
    runningIn calls cb.generation = cb.counts.requests.toNat

section Counted

variable {σ : Settings} {cb : CircuitBreaker} {calls calls' : List Call}
  {admitted : List (ℕ × State)} {now : ℤ}

theorem counted_newGeneration (hw : Wf σ cb calls admitted) (st : State) (cs : Counts) (now : ℤ) :
    Counted (.toNewGeneration σ { cb with state := st, counts := cs } now) calls := by
  simp [Counted, hw.runningIn_succ]

theorem counted_currentState (hw : Wf σ cb calls admitted) (h : Counted cb calls) (now : ℤ) :
    Counted (cb.currentState σ now) calls := by
  rcases CircuitBreaker.currentState_cases σ cb now with he | ⟨-, he⟩ | ⟨-, he⟩ <;> rw [he]
  · exact h
  · exact counted_newGeneration hw cb.state cb.counts now
  · exact counted_newGeneration hw .halfOpen cb.counts now

theorem counted_accept (h : Counted cb calls) (hlt : cb.counts.requests.toNat + 1 < 2 ^ 32)
    (id : ℕ) :
    Counted { cb with counts := { cb.counts with requests := cb.counts.requests + 1 } }
      (⟨id, cb.generation, .running⟩ :: calls) := by
  have hreq : (cb.counts.requests + 1).toNat = cb.counts.requests.toNat + 1 := by
    rw [UInt32.toNat_add, UInt32.toNat_one]; omega
  unfold Counted at h ⊢
  simp only [hreq, ← h, runningIn, List.countP_cons]
  simp [Nat.add_assoc]

theorem runningIn_congr_of_gens (hw : Wf σ cb calls admitted)
    (hg : ∀ d ∈ calls', ∃ d₀ ∈ calls, d.generation = d₀.generation) :
    runningIn calls' (cb.generation + 1) = 0 := by
  simp only [runningIn, List.countP_eq_zero, decide_eq_true_eq, not_and]
  intro d hd _ hdg
  obtain ⟨d₀, hd₀, he⟩ := hg d hd
  have := hw.gen_le d₀ hd₀
  omega

/-- The first outcome of a running call moves it from the running ones to the counted ones. -/
theorem counted_afterRequest {c : Call} {success : Bool} (hw : Wf σ cb calls admitted)
    (h : Counted cb calls) (hc : c ∈ calls) (hrun : c.phase = .running)
    (hs : Settles c calls calls') :
    Counted (cb.afterRequest σ c.generation success now) calls' := by
  have hnew : ∀ st cs, Counted
      (.toNewGeneration σ { cb with state := st, counts := cs } now) calls' := fun st cs => by
    simp [Counted, runningIn_congr_of_gens hw hs.gens]
  by_cases hg : (cb.currentState σ now).generation = c.generation
  · obtain ⟨hgen, he⟩ := CircuitBreaker.afterRequest_current success
      (hw.gen_le c hc) hg
    have hst := hw.not_opened c hc hgen
    have hr := hs.running cb.generation
    rw [if_pos ⟨hrun, hgen⟩] at hr
    have hlt := cb.counts.requests.toNat_lt
    rw [he]
    cases success with
    | true =>
      simp only [↓reduceIte]
      rcases CircuitBreaker.onSuccess_cases σ now hst with ⟨he', -⟩ | ⟨-, cs, he'⟩
      all_goals rw [he']
      · unfold Counted at h ⊢
        simp only [UInt32.toNat_add, UInt32.toNat_one]
        omega
      · exact hnew .closed cs
    | false =>
      simp only [Bool.false_eq_true, ↓reduceIte]
      rcases CircuitBreaker.onFailure_cases σ now hst with ⟨-, he'⟩ | ⟨cs, he'⟩
      all_goals rw [he']
      · unfold Counted at h ⊢
        simp only [UInt32.toNat_add, UInt32.toNat_one]
        omega
      · exact hnew .opened cs
  · rw [CircuitBreaker.afterRequest_stale hg]
    have hcur := counted_currentState hw h now
    have hr := hs.running (cb.currentState σ now).generation
    rw [if_neg fun hh => hg hh.2.symm, Nat.add_zero] at hr
    unfold Counted at hcur ⊢
    rwa [hr]

end Counted

/-- The bookkeeping of safe runs: the counters agree with the calls, and no call is recorded
while it is still running or twice. -/
structure Tally (s : Sys) : Prop where
  counted : Counted s.cb s.calls
  ids_lt : ∀ c ∈ s.calls, c.id < s.admitted.length
  ids_nodup : (s.calls.map Call.id).Nodup
  recorded_lt : ∀ i ∈ s.recorded, i < s.admitted.length
  recorded_nodup : s.recorded.Nodup
  fresh : ∀ c ∈ s.calls, c.phase = .running → c.id ∉ s.recorded

namespace Tally

theorem accept {now : ℤ} {cb : CircuitBreaker} {g : ℕ} (h : Tally s)
    (hw : Wf E.settings s.cb s.calls s.admitted) (hsafe : Safe E s (.before now))
    (hb : s.cb.beforeRequest E.settings now = (cb, .ok g)) :
    Tally { s with
      cb := cb
      now := now
      calls := ⟨s.admitted.length, g, .running⟩ :: s.calls
      admitted := s.admitted ++ [(g, cb.state)] } := by
  obtain ⟨rfl, hno, hlt, rfl⟩ := CircuitBreaker.beforeRequest_ok hb
  have hroom : (s.cb.currentState E.settings now).counts.requests.toNat + 1 < 2 ^ 32 := by
    cases hst : (s.cb.currentState E.settings now).state with
    | opened => exact absurd hst hno
    | closed => exact hsafe hst
    | halfOpen =>
      have h1 := UInt32.lt_iff_toNat_lt.1 (hlt hst)
      have h2 := E.settings.maxRequests.toNat_lt
      omega
  refine ⟨counted_accept (counted_currentState hw h.counted now) hroom _, ?_, ?_, ?_,
    h.recorded_nodup, ?_⟩
  · intro c hc
    simp only [List.length_append, List.length_singleton]
    rcases List.mem_cons.1 hc with rfl | hc
    · exact Nat.lt_succ_self _
    · exact Nat.lt_succ_of_lt (h.ids_lt c hc)
  · simp only [List.map_cons, List.nodup_cons]
    refine ⟨fun hm => ?_, h.ids_nodup⟩
    obtain ⟨c, hc, hid⟩ := List.mem_map.1 hm
    exact absurd (h.ids_lt c hc) (by omega)
  · intro i hi
    simp only [List.length_append, List.length_singleton]
    exact Nat.lt_succ_of_lt (h.recorded_lt i hi)
  · intro c hc hr hm
    rcases List.mem_cons.1 hc with rfl | hc
    · exact absurd (h.recorded_lt _ hm) (lt_irrefl _)
    · exact h.fresh c hc hr hm

/-- The ids of the other calls differ from the id of `c`. -/
theorem id_ne {c d : Call} (h : Tally s) (hc : c ∈ s.calls) (hd : d ∈ s.calls.erase c) :
    d.id ≠ c.id := by
  have hp := ((List.perm_cons_erase hc).map Call.id).nodup_iff.1 h.ids_nodup
  simp only [List.map_cons, List.nodup_cons] at hp
  exact fun he => hp.1 (he ▸ List.mem_map_of_mem hd)

theorem record {c : Call} {success : Bool} {now : ℤ} {calls' : List Call} (h : Tally s)
    (hw : Wf E.settings s.cb s.calls s.admitted) (hc : c ∈ s.calls) (hrun : c.phase = .running)
    (hs : Settles c s.calls calls') :
    Tally { s.record E c success now with calls := calls' } where
  counted := counted_afterRequest hw h.counted hc hrun hs
  ids_lt d hd := by
    obtain ⟨d₀, hd₀, he⟩ := List.mem_map.1 (hs.ids.subset (List.mem_map_of_mem hd))
    exact he ▸ h.ids_lt d₀ hd₀
  ids_nodup := by
    obtain ⟨l, hl, hsub⟩ := hs.ids
    exact hl.nodup_iff.1 (h.ids_nodup.sublist hsub)
  recorded_lt i hi := by
    simp only [Sys.record] at hi
    split_ifs at hi
    · rcases List.mem_append.1 hi with hi | hi
      · exact h.recorded_lt i hi
      · rw [List.mem_singleton.1 hi]; exact h.ids_lt c hc
    · exact h.recorded_lt i hi
  recorded_nodup := by
    simp only [Sys.record]
    split_ifs
    · rw [List.nodup_append]
      refine ⟨h.recorded_nodup, List.nodup_singleton _, fun i hi j hj => ?_⟩
      rintro rfl
      exact h.fresh c hc hrun (List.mem_singleton.1 hj ▸ hi)
    · exact h.recorded_nodup
  fresh d hd hr hm := by
    have hd' := hs.rest d hd hr
    simp only [Sys.record] at hm
    split_ifs at hm
    · rcases List.mem_append.1 hm with hm | hm
      · exact h.fresh d (List.mem_of_mem_erase hd') hr hm
      · exact h.id_ne hc hd' (List.mem_singleton.1 hm)
    · exact h.fresh d (List.mem_of_mem_erase hd') hr hm

theorem step {a : Act ε} (h : Tally s) (hw : Wf E.settings s.cb s.calls s.admitted)
    (hsafe : Safe E s a) (hst : s.step E a = some s') : Tally s' := by
  rcases step_cases hst with ⟨now, cb, g, rfl, hb, rfl⟩ | ⟨now, -, rfl⟩ |
    ⟨c, now, success, hc, hrun, rfl | rfl⟩ | ⟨c, hc, hph, -, rfl⟩ | ⟨c, now, hc, hph, rfl, rfl⟩
  · exact h.accept hw hsafe hb
  · exact ⟨counted_currentState hw h.counted now, h.ids_lt, h.ids_nodup, h.recorded_lt,
      h.recorded_nodup, h.fresh⟩
  · exact h.record hw hc hrun (settles_finish hc)
  · exact h.record hw hc hrun (settles_toFallback hc)
  · have hs := settles_finish hc
    have hr := hs.running s.cb.generation
    rw [if_neg fun hh => by simp [hph] at hh, Nat.add_zero] at hr
    refine ⟨?_, fun d hd => h.ids_lt d (List.mem_of_mem_erase hd),
      h.ids_nodup.sublist (List.erase_sublist.map _), h.recorded_lt, h.recorded_nodup,
      fun d hd => h.fresh d (List.mem_of_mem_erase hd)⟩
    have hcnt := h.counted
    unfold Counted at hcnt ⊢
    change _ + runningIn (s.calls.erase c) s.cb.generation = _
    rwa [hr]
  · exact hsafe.elim

end Tally

theorem tally_of_run {tr : List (Act ε)} (h : (lts E).Run (Safe E) tr s) : Tally s := by
  have := h.invariant
    (I := fun s => Wf E.settings s.cb s.calls s.admitted ∧ Tally s) ?_ ?_
  · exact this.2
  · rintro s ⟨now, rfl⟩
    refine ⟨wf_initial now, ?_⟩
    constructor <;> simp [initial, CircuitBreaker.newCircuitBreaker, Counted, runningIn]
  · exact fun _ _ _ ⟨hw, ht⟩ hok hst => ⟨wf_step hw hst, ht.step hw hok hst⟩

end Sys

end Breaker

end GinRpc
