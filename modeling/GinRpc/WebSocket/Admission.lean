import GinRpc.LTS.Threads
import Mathlib.Tactic

/-!
# The limit on connections

Model of the beginning and the end of `connAcceptor.serve` in `plugins/websocket/server.go`: the
limit is tested first, then the request is authenticated and upgraded, and only then the counter is
raised.  Each handshake is a goroutine with a program counter, and each access of the counter and
each call that can fail is one step.

* `active_sound` : the counter is the number of connections counted and not given back.
* `live_le_of_fits` : if a handshake passes the test only while the handshakes under way leave a
  place free, the limit is kept.
* `fits_of_alone` : so it is if no handshake is tested while another is under way.
* `two_pass` : two handshakes can both be tested before one of them is counted.
-/

namespace GinRpc

namespace Admission

structure Config where
  maxConnections : ℤ
  /-- there is an `Authenticator` -/
  authenticator : Bool
  requireAuth : Bool
  deriving DecidableEq, Repr

/-- What a call that `serve` makes returns -/
inductive Outcome where
  | failed
  | success
  /-- the authenticator returns no error and no result -/
  | anonymous
  deriving DecidableEq, Repr

/-- What a handshake does next; `result` says whether it has an authentication result. -/
inductive Pc where
  /-- test the limit -/
  | start
  /-- authenticate -/
  | tested
  /-- `nws.Accept` -/
  | authenticated (result : Bool)
  /-- `activeConns.Add(1)` -/
  | accepted (result : Bool)
  /-- check `RequireAuth` -/
  | counted (result : Bool)
  /-- `attachSession` -/
  | attaching
  /-- run the handler until the connection is closed -/
  | serving
  /-- `activeConns.Add(-1)` -/
  | closed
  | done
  deriving DecidableEq, Repr

/-- The handshake has passed the test and is not counted. -/
def Pc.underWay : Pc → Bool
  | .tested | .authenticated _ | .accepted _ => true
  | _ => false

/-- The handshake is counted. -/
def Pc.isCounted : Pc → Bool
  | .counted _ | .attaching | .serving | .closed => true
  | _ => false

/-- The connection is accepted and not closed. -/
def Pc.live : Pc → Bool
  | .accepted _ | .counted _ | .attaching | .serving => true
  | _ => false

/-- One step of `serve`, with the counter before and after it -/
def serve (cfg : Config) (active : ℤ) (outcome : Outcome) : Pc → Option (ℤ × Pc)
  | .start =>
    if 0 < cfg.maxConnections ∧ cfg.maxConnections ≤ active then some (active, .done)
    else some (active, .tested)
  | .tested =>
    if cfg.authenticator then
      match outcome with
      | .failed => some (active, .done)
      | .success => some (active, .authenticated true)
      | .anonymous => some (active, .authenticated false)
    else some (active, .authenticated false)
  | .authenticated result =>
    if outcome = .failed then some (active, .done) else some (active, .accepted result)
  | .accepted result => some (active + 1, .counted result)
  | .counted result =>
    if cfg.requireAuth && !result then some (active, .closed) else some (active, .attaching)
  | .attaching => if outcome = .failed then some (active, .closed) else some (active, .serving)
  | .serving => some (active, .closed)
  | .closed => some (active - 1, .done)
  | .done => none

structure State where
  /-- `activeConns` -/
  active : ℤ
  /-- one goroutine for each request that has arrived -/
  pcs : List Pc
  deriving DecidableEq, Repr

inductive Act where
  | arrive
  | step (i : ℕ) (outcome : Outcome)
  deriving DecidableEq, Repr

def State.step (cfg : Config) (s : State) : Act → Option State
  | .arrive => some { s with pcs := s.pcs ++ [.start] }
  | .step i outcome => s.pcs[i]?.bind fun pc =>
      (serve cfg s.active outcome pc).map fun r => ⟨r.1, s.pcs.set i r.2⟩

def lts (cfg : Config) : LTS State Act where
  init s := s = ⟨0, []⟩
  step s a s' := s.step cfg a = some s'

/-- How many handshakes are under way, counted and live -/
def State.underWay (s : State) : ℕ := s.pcs.countP Pc.underWay

def State.counted (s : State) : ℕ := s.pcs.countP Pc.isCounted

def State.live (s : State) : ℕ := s.pcs.countP Pc.live

/-- A handshake that passes the test leaves places for those that are under way. -/
def Fits (cfg : Config) (s : State) : Act → Prop
  | .step i _ => s.pcs[i]? = some .start → s.active < cfg.maxConnections →
      s.underWay + s.active < cfg.maxConnections
  | .arrive => True

/-- No handshake is tested while another one is under way. -/
def Alone (s : State) : Act → Prop
  | .step i _ => s.pcs[i]? = some .start → s.underWay = 0
  | .arrive => True

variable {cfg : Config} {s s' : State} {a : Act} {tr : List Act}

/-- The counter goes with the place of a handshake, and only a test that is passed gives it one. -/
theorem serve_change {active : ℤ} {outcome : Outcome} {pc : Pc} {r : ℤ × Pc}
    (h : serve cfg active outcome pc = some r) :
    r.1 + pc.isCounted.toNat = active + r.2.isCounted.toNat ∧
    (r.2.underWay.toNat + r.2.isCounted.toNat ≤ pc.underWay.toNat + pc.isCounted.toNat ∨
      pc = .start ∧ r.2 = .tested ∧ ¬ (0 < cfg.maxConnections ∧ cfg.maxConnections ≤ active)) := by
  revert h
  fun_cases serve cfg active outcome pc <;> intro h <;> cases h
  case case2 hfree => exact ⟨rfl, .inr ⟨rfl, rfl, hfree⟩⟩
  all_goals exact ⟨by simp [Pc.isCounted], .inl (by simp [Pc.isCounted, Pc.underWay])⟩

/-- What a step does to the counter and to the numbers of handshakes -/
theorem step_change (h : s.step cfg a = some s') :
    s'.active + s.counted = s.active + s'.counted ∧
    (s'.underWay + s'.counted ≤ s.underWay + s.counted ∨
      ∃ i outcome, a = .step i outcome ∧ s.pcs[i]? = some .start ∧
        ¬ (0 < cfg.maxConnections ∧ cfg.maxConnections ≤ s.active) ∧
        s'.underWay + s'.counted = s.underWay + s.counted + 1) := by
  cases a with
  | arrive =>
    cases h
    have hcounted : (s.pcs ++ [Pc.start]).countP Pc.isCounted = s.counted := by
      rw [List.countP_append]
      rfl
    have hunderWay : (s.pcs ++ [Pc.start]).countP Pc.underWay = s.underWay := by
      rw [List.countP_append]
      rfl
    refine ⟨?_, .inl ?_⟩
    · exact congrArg (fun n : ℕ => s.active + (n : ℤ)) hcounted.symm
    · exact (congrArg₂ (· + ·) hunderWay hcounted).le
  | step i outcome =>
    obtain ⟨pc, hpc, h⟩ := Option.bind_eq_some_iff.1 h
    obtain ⟨r, hr, rfl⟩ := Option.map_eq_some_iff.1 h
    obtain ⟨hactive, hplace⟩ := serve_change hr
    have hcounted := LTS.countP_set_add Pc.isCounted r.2 hpc
    have hunderWay := LTS.countP_set_add Pc.underWay r.2 hpc
    unfold State.counted State.underWay
    dsimp only
    refine ⟨by omega, ?_⟩
    obtain hle | ⟨rfl, heq, hfree⟩ := hplace
    · exact .inl (by omega)
    · refine .inr ⟨i, outcome, rfl, hpc, hfree, ?_⟩
      rw [heq] at hcounted hunderWay ⊢
      change _ + 0 = _ + 0 at hcounted
      change _ + 0 = _ + 1 at hunderWay
      omega

theorem live_le (s : State) : s.live ≤ s.underWay + s.counted := by
  unfold State.live State.underWay State.counted
  induction s.pcs with
  | nil => exact le_rfl
  | cons pc rest ih =>
    rw [List.countP_cons, List.countP_cons, List.countP_cons]
    cases pc <;> simp [Pc.live, Pc.underWay, Pc.isCounted] <;> omega

/-- **What `ActiveConnections` is worth**, in every interleaving: it is the number of connections
that have been counted, and it misses at most the handshakes under way. -/
theorem active_sound {ok : State → Act → Prop} (h : (lts cfg).Run ok tr s) :
    s.active = s.counted ∧ (s.live : ℤ) ≤ s.active + s.underWay := by
  have hactive : s.active = s.counted := by
    refine h.invariant (I := fun s => s.active = s.counted) ?_ fun s a s' hs _ hstep => ?_
    · rintro s rfl
      rfl
    · have := (step_change hstep).1
      omega
  have := live_le s
  exact ⟨hactive, by omega⟩

/-- If each handshake that passes the test fits in with those under way, there are never more live
connections than allowed. -/
theorem live_le_of_fits (hmax : 0 < cfg.maxConnections) (h : (lts cfg).Run (Fits cfg) tr s) :
    (s.live : ℤ) ≤ cfg.maxConnections := by
  suffices hinv : s.active = s.counted ∧ (s.underWay + s.counted : ℤ) ≤ cfg.maxConnections by
    have := live_le s
    omega
  refine h.invariant (I := fun s => s.active = s.counted ∧
    (s.underWay + s.counted : ℤ) ≤ cfg.maxConnections) ?_ fun s a s' hs hfits hstep => ?_
  · rintro s rfl
    exact ⟨rfl, hmax.le⟩
  · obtain ⟨hactive, hplaces⟩ := step_change hstep
    refine ⟨by omega, ?_⟩
    obtain hle | ⟨i, outcome, rfl, hpc, hfree, heq⟩ := hplaces
    · omega
    · have := hfits hpc (by omega)
      omega

/-- Handshakes that are tested one at a time fit. -/
theorem fits_of_alone (h : (lts cfg).Run Alone tr s) : (lts cfg).Run (Fits cfg) tr s := by
  induction h with
  | nil hi => exact .nil hi
  | @snoc _ s _ a _ halone hstep ih =>
    refine .snoc ih ?_ hstep
    cases a with
    | arrive => trivial
    | step i outcome =>
      intro hpc hlt
      rw [halone hpc]
      omega

/-- One connection is allowed. -/
def single : Config := ⟨1, false, false⟩

/-- The second handshake is tested after the first one is counted. -/
theorem live_le_of_fits_single :
    ∃ s tr, (lts single).Run (Fits single) tr s ∧ s.live = 1 ∧ s.pcs = [.counted false, .done] ∧
      (s.live : ℤ) ≤ 1 := by
  have h₀ : (lts single).Run (Fits single) [] ⟨0, []⟩ := .nil rfl
  have h := ((((h₀.extend .arrive trivial rfl).extend (.step 0 .success) (fun _ _ => by decide)
    rfl).extend (.step 0 .success) (fun h => by cases h) rfl).extend (.step 0 .success)
    (fun h => by cases h) rfl).extend (.step 0 .success) (fun h => by cases h) rfl
  have h' := (h.extend .arrive trivial rfl).extend (.step 1 .success) (fun _ h => by cases h) rfl
  exact ⟨_, _, h', rfl, rfl, live_le_of_fits (by decide) h'⟩

/-- Two handshakes are tested, and then both are upgraded. -/
theorem two_pass :
    ∃ s, (lts single).Run LTS.anyStep [.arrive, .arrive, .step 0 .success, .step 1 .success,
        .step 0 .success, .step 1 .success, .step 0 .success, .step 1 .success,
        .step 0 .success, .step 1 .success] s ∧
      decide (single.maxConnections = 1 ∧ s.active = 2 ∧ s.live = 2) = true :=
  LTS.exists_run_of_exec (fun _ _ _ h => h) rfl _ (by decide) fun _ _ h => h

/-- A connection is accepted and not yet counted. -/
theorem active_sound_accepted :
    ∃ tr s, (lts single).Run LTS.anyStep tr s ∧ s.live = 1 ∧ s.active = 0 ∧ 1 ≤ s.underWay := by
  have h₀ : (lts single).Run LTS.anyStep [] ⟨0, []⟩ := .nil rfl
  have h := (((h₀.extend .arrive trivial rfl).extend (.step 0 .success) trivial rfl).extend
    (.step 0 .success) trivial rfl).extend (.step 0 .success) trivial rfl
  exact ⟨_, _, h, rfl, rfl, Int.ofNat_le.1 (active_sound h).2⟩

end Admission

end GinRpc
