import GinRpc.LTS.Threads
import GinRpc.LoadBalancer.Basic
import Mathlib.Tactic

/-!
# The load balancer of the gateway

Model of `LoadBalancerAdapter` in `plugins/gateway/loadbalancer_adapter.go` over the balancers of
`plugins/loadbalancer`: `BaseLoadBalancer` and the four strategies.

All routes of a gateway share one adapter.  `Select` writes the targets of its route into the shared
balancer and then asks it to select one, and each critical section is a step of its own:

* `Pc` : the places between two steps of `Select`.
* `Sys.Isolated` : a call returns one of its own targets, and an error only if it has none or the
  balancer is closed.
* `Sys.isolated_of_undisturbed` : this holds along every run in which nobody writes other targets
  into the balancer while a call has written its own and not yet read them back, and no call without
  targets finds targets that another one has left.
* `Sys.misrouted` : otherwise a request goes to the backend of another route.
* `Sys.selectAlone` : the whole call, when no other goroutine takes a step.

The counters of connections are read one by one while other goroutines change them; a step is given
what it reads.
-/

namespace GinRpc

namespace Gateway

open LoadBalancer

inductive Strategy where
  | roundRobin
  | random
  | weighted
  | leastConnections
  deriving DecidableEq, Repr

/-- What a selection draws, and what it reads from the counters of the targets. -/
structure Draw where
  r : ℕ := 0
  seen : ℕ → Int32 := fun _ => 0

/-- The choice among healthy targets, the first of which is `t`. -/
def choose (strategy : Strategy) (current : UInt64) (t : Target) (rest : List Target) (d : Draw) :
    Target :=
  let targets := t :: rest
  let index :=
    match strategy with
    | .roundRobin => current.toNat % targets.length
    | .random => d.r % targets.length
    | .weighted =>
      let totalWeight := totalWeight targets
      if totalWeight = 0 then d.r % targets.length
      else (selectWeighted (d.r % totalWeight) targets 0 0).getD 0
    | .leastConnections => least d.seen 0 (List.range' 1 rest.length)
  targets.getD index t

/-- What `Select` returns. -/
inductive Result where
  | address (a : String)
  /-- `ErrLoadBalancerFailed` -/
  | failed
  deriving DecidableEq, Repr

/-- What a call of `Select` with the given targets does next. -/
inductive Pc where
  | idle
  /-- the stored targets are read -/
  | read (targets : List String)
  /-- `a.UpdateTargets` -/
  | store (targets : List String)
  /-- `a.lb.UpdateTargets` -/
  | push (targets current : List String)
  /-- `a.lb.Select`: `GetHealthyTargets` -/
  | get (targets : List String)
  /-- `a.lb.Select`: the choice -/
  | choose (targets : List String) (healthy : List Target)
  | done (targets : List String) (result : Result)
  deriving DecidableEq

/-- The adapter and the goroutines that call it. -/
structure Sys where
  targets : List String := []
  lb : BaseLoadBalancer := {}
  /-- the counter of round robin -/
  current : UInt64 := 0
  pc : ℕ → Pc := fun _ => .idle

inductive Act where
  /-- a request begins its call of `Select` -/
  | select (i : ℕ) (targets : List String)
  | step (i : ℕ) (d : Draw)
  /-- `UpdateTargets` is called from outside -/
  | updateTargets (targets : List String)
  | close

namespace Sys

variable (strategy : Strategy) (s : Sys)

def goto (i : ℕ) (pc : Pc) : Sys := { s with pc := Function.update s.pc i pc }

/-- `LoadBalancerAdapter.UpdateTargets`.  Its lock is held throughout, so nobody sees the stored
targets without those of the balancer. -/
def updateTargets (targets : List String) : Sys :=
  if targets = [] then s
  else
    match s.lb.updateTargets (targets.map newTarget) with
    | some lb => { s with targets := targets, lb := lb }
    | none => { s with targets := targets }

def exec (i : ℕ) (d : Draw) : Pc → Option Sys
  | .read targets =>
    if targets ≠ [] then some (s.goto i (.store targets))
    else if s.targets = [] then some (s.goto i (.done targets .failed))
    else some (s.goto i (.push targets s.targets))
  | .store targets => some ((s.updateTargets targets).goto i (.push targets targets))
  | .push targets current =>
    match s.lb.updateTargets (current.map newTarget) with
    | some lb => some ({ s with lb := lb }.goto i (.get targets))
    | none => some (s.goto i (.done targets .failed))
  | .get targets => some (s.goto i (.choose targets s.lb.getHealthyTargets))
  | .choose targets healthy =>
    match healthy with
    | [] => some (s.goto i (.done targets .failed))
    | t :: rest =>
      let current := if strategy = .roundRobin then s.current + 1 else s.current
      some ({ s with current := current }.goto i
        (.done targets (.address (Gateway.choose strategy s.current t rest d).address)))
  | .idle | .done _ _ => none

def step : Act → Option Sys
  | .select i targets =>
    match s.pc i with
    | .idle => some (s.goto i (.read targets))
    | _ => none
  | .step i d => s.exec strategy i d (s.pc i)
  | .updateTargets targets => some (s.updateTargets targets)
  | .close => some { s with lb := s.lb.close }

/-- All interleavings of the calls on a new adapter. -/
def lts : LTS Sys Act where
  init s := s = {}
  step s a s' := s.step strategy a = some s'

variable {strategy s}

theorem pc_goto {i j : ℕ} {pc : Pc} : (s.goto i pc).pc j = if j = i then pc else s.pc j :=
  Function.update_apply ..

end Sys

/-! ### The choice -/

theorem getD_mem (t : Target) (rest : List Target) (index : ℕ) :
    (t :: rest).getD index t ∈ t :: rest := by
  rw [List.getD_eq_getElem?_getD]
  cases h : (t :: rest)[index]? with
  | none => exact List.mem_cons_self
  | some a => exact List.mem_of_getElem? h

/-- Every strategy chooses one of the targets it is given. -/
theorem choose_mem (strategy : Strategy) (current : UInt64) (t : Target) (rest : List Target)
    (d : Draw) : choose strategy current t rest d ∈ t :: rest :=
  getD_mem ..

/-! ### Routes -/

namespace Sys

variable {strategy : Strategy} {s s' : Sys}

/-- A call returns one of its own targets, or has a reason to fail. -/
def Isolated (s : Sys) : Prop :=
  ∀ i targets result, s.pc i = .done targets result →
    match result with
    | .address a => a ∈ targets
    | .failed => targets = [] ∨ s.lb.closed = true

/-- The targets that a step writes into the balancer. -/
def writes (s : Sys) : Act → Option (List String)
  | .step i _ =>
    match s.pc i with
    | .store targets => some targets
    | .push _ current => some current
    | _ => none
  | .updateTargets targets => if targets = [] then none else some targets
  | _ => none

/-- Nobody writes other targets while a call has written its own and not yet read them, and a call
without targets finds none. -/
def Undisturbed (s : Sys) (a : Act) : Prop :=
  (∀ targets, s.writes a = some targets → ∀ j own, s.pc j = .get own → own = targets) ∧
    ∀ i d, a = .step i d → s.pc i = .read [] → s.targets = []

/-- What is true at each place of a call. -/
def Fits (lb : BaseLoadBalancer) : Pc → Prop
  | .idle | .read _ => True
  | .store targets => targets ≠ []
  | .push targets current => current = targets ∧ targets ≠ []
  | .get targets => targets ≠ [] ∧ (lb.closed = true ∨ lb.targets = targets.map newTarget)
  | .choose targets healthy =>
    lb.closed = true ∧ healthy = [] ∨ healthy = targets.map newTarget ∧ targets ≠ []
  | .done targets (.address a) => a ∈ targets
  | .done targets .failed => targets = [] ∨ lb.closed = true

/-- A balancer stays closed, and what a call has written stays. -/
theorem Fits.mono {lb lb' : BaseLoadBalancer} {pc : Pc} (h : Fits lb pc)
    (hclosed : lb.closed = true → lb'.closed = true)
    (hget : ∀ own, pc = .get own → lb'.closed = true ∨ lb'.targets = own.map newTarget) :
    Fits lb' pc := by
  cases pc with
  | get targets => exact ⟨h.1, hget targets rfl⟩
  | choose targets healthy => exact h.imp_left (And.imp_left hclosed)
  | done targets result =>
    cases result with
    | address a => exact h
    | failed => exact h.imp_right hclosed
  | _ => exact h

/-- The invariant of the calls. -/
structure Own (s : Sys) : Prop where
  fits : ∀ i, Fits s.lb (s.pc i)
  empty : s.lb.closed = true → s.lb.targets = []

theorem own_init : Own {} := ⟨fun _ => trivial, nofun⟩

/-- The state changes as `Fits.mono` wants it, and a goroutine goes on. -/
theorem Own.goto (h : s.Own) (t : Sys) (hpc : t.pc = s.pc)
    (hclosed : s.lb.closed = true → t.lb.closed = true)
    (hempty : t.lb.closed = true → t.lb.targets = [])
    (hget : ∀ j own, s.pc j = .get own → t.lb.closed = true ∨ t.lb.targets = own.map newTarget)
    {i : ℕ} {pc : Pc} (hfits : Fits t.lb pc) : (t.goto i pc).Own := by
  refine ⟨fun j => ?_, hempty⟩
  rw [pc_goto]
  split_ifs
  · exact hfits
  · rw [hpc]
    exact (h.fits j).mono hclosed (hget j)

theorem Own.get (h : s.Own) {j : ℕ} {own : List String} (hj : s.pc j = .get own) :
    s.lb.closed = true ∨ s.lb.targets = own.map newTarget := by
  have := h.fits j
  rw [hj] at this
  exact this.2

/-- A goroutine goes on and the balancer stays as it is. -/
theorem Own.goto_self (h : s.Own) {i : ℕ} {pc : Pc} (hfits : Fits s.lb pc) : (s.goto i pc).Own :=
  h.goto s rfl id h.empty (fun _ _ => h.get) hfits

/-- Targets are written that no call minds. -/
theorem Own.updateTargets (h : s.Own) {targets : List String}
    (hok : ∀ j own, s.pc j = .get own → own = targets) :
    (s.updateTargets targets).pc = s.pc ∧
      (s.lb.closed = true → (s.updateTargets targets).lb.closed = true) ∧
      ((s.updateTargets targets).lb.closed = true → (s.updateTargets targets).lb.targets = []) ∧
      ∀ j own, s.pc j = .get own → (s.updateTargets targets).lb.closed = true ∨
        (s.updateTargets targets).lb.targets = own.map newTarget := by
  rw [Sys.updateTargets, BaseLoadBalancer.updateTargets]
  split_ifs with hne hcl
  · exact ⟨rfl, id, h.empty, fun _ _ => h.get⟩
  · exact ⟨rfl, id, h.empty, fun _ _ => h.get⟩
  · exact ⟨rfl, fun hc => absurd hc hcl, fun hc => absurd hc hcl,
      fun j own hj => .inr (by rw [hok j own hj])⟩

theorem Own.exec (h : s.Own) {i : ℕ} {d : Draw} (hok : s.Undisturbed (.step i d))
    (hs : s.exec strategy i d (s.pc i) = some s') : s'.Own := by
  have hfit := h.fits i
  cases hpc : s.pc i with
  | read targets =>
    rw [hpc, Sys.exec] at hs
    split_ifs at hs with hne hempty
    · cases hs
      exact h.goto_self hne
    · cases hs
      exact h.goto_self (.inl (not_not.1 hne))
    · exact absurd (hok.2 i d rfl (by rw [hpc, not_not.1 hne])) hempty
  | store targets =>
    rw [hpc] at hs hfit
    cases hs
    obtain ⟨hpcs, hclosed, hempty, hget⟩ :=
      h.updateTargets (hok.1 targets (by rw [writes, hpc]))
    exact h.goto _ hpcs hclosed hempty hget ⟨rfl, hfit⟩
  | push targets current =>
    rw [hpc] at hfit
    obtain ⟨rfl, hne⟩ := hfit
    rw [hpc, Sys.exec, BaseLoadBalancer.updateTargets] at hs
    split_ifs at hs with hcl
    · cases hs
      exact h.goto_self (.inr hcl)
    · dsimp only at hs
      cases hs
      refine h.goto { s with lb := { s.lb with targets := current.map newTarget } } rfl
        (fun hc => absurd hc hcl) (fun hc => absurd hc hcl) (fun j own hj => ?_) ⟨hne, .inr rfl⟩
      rw [hok.1 current (by rw [writes, hpc]) j own hj]
      exact .inr rfl
  | get targets =>
    rw [hpc] at hs hfit
    cases hs
    refine h.goto_self ?_
    obtain hcl | heq := hfit.2
    · exact .inl ⟨hcl, BaseLoadBalancer.getHealthyTargets_of_new (l := []) (h.empty hcl)⟩
    · exact .inr ⟨BaseLoadBalancer.getHealthyTargets_of_new heq, hfit.1⟩
  | choose targets healthy =>
    rw [hpc] at hs hfit
    cases healthy with
    | nil =>
      cases hs
      refine h.goto_self ?_
      obtain ⟨hcl, -⟩ | ⟨heq, hne⟩ := hfit
      · exact .inr hcl
      · exact absurd (List.map_eq_nil_iff.1 heq.symm) hne
    | cons t rest =>
      rw [Sys.exec] at hs
      cases hs
      obtain ⟨-, hnil⟩ | ⟨heq, -⟩ := hfit
      · cases hnil
      · have hmem := choose_mem strategy s.current t rest d
        rw [heq] at hmem
        obtain ⟨a, ha, hta⟩ := List.mem_map.1 hmem
        have hown : (Gateway.choose strategy s.current t rest d).address ∈ targets := hta ▸ ha
        exact h.goto
          { s with current := if strategy = .roundRobin then s.current + 1 else s.current } rfl id
          h.empty (fun _ _ => h.get) hown
  | idle | done =>
    rw [hpc] at hs
    cases hs

theorem Own.step (h : s.Own) {a : Act} (hok : s.Undisturbed a) (hs : s.step strategy a = some s') :
    s'.Own := by
  cases a with
  | select i targets =>
    rw [Sys.step] at hs
    split at hs
    · cases hs
      exact h.goto_self trivial
    · cases hs
  | step i d => exact h.exec hok hs
  | updateTargets targets =>
    cases hs
    by_cases hne : targets = []
    · rw [Sys.updateTargets, if_pos hne]
      exact h
    · obtain ⟨hpcs, hclosed, hempty, hget⟩ := h.updateTargets (hok.1 targets (if_neg hne))
      refine ⟨fun j => ?_, hempty⟩
      rw [hpcs]
      exact (h.fits j).mono hclosed (hget j)
  | close =>
    cases hs
    exact ⟨fun j => (h.fits j).mono (fun _ => rfl) fun _ _ => .inl rfl, fun _ => rfl⟩

/-- **A request is sent to a backend of its own route**, along every run in which nobody writes
other targets between the two steps of a call and no call is made without targets. -/
theorem isolated_of_undisturbed {tr : List Act} (hrun : (lts strategy).Run Undisturbed tr s) :
    s.Isolated := by
  have h : s.Own := by
    refine hrun.invariant (I := Own) ?_ ?_
    · rintro _ rfl
      exact own_init
    · rintro s a s' h hok hs
      exact h.step hok hs
  intro i targets result hpc
  have hfit := h.fits i
  rw [hpc] at hfit
  cases result with
  | address a => exact hfit
  | failed => exact hfit

/-- An undisturbed step of the goroutines in a list, checked by evaluation. -/
def undisturbed (ts : List ℕ) (s : Sys) (a : Act) : Bool :=
  ((s.writes a).all fun targets => ts.all fun j =>
    match s.pc j with
    | .get own => decide (own = targets)
    | _ => true) &&
  match a with
  | .select i _ => decide (i ∈ ts)
  | .step i _ => decide (i ∈ ts ∧ (s.pc i = .read [] → s.targets = []))
  | _ => true

theorem pc_updateTargets (s : Sys) (targets : List String) :
    (s.updateTargets targets).pc = s.pc := by
  rw [updateTargets]
  split_ifs
  · rfl
  · split <;> rfl

theorem quiet_exec {ts : List ℕ} {i : ℕ} {d : Draw} {pc : Pc} (h : LTS.Quiet .idle ts s.pc)
    (hi : i ∈ ts) (hs : s.exec strategy i d pc = some s') : LTS.Quiet .idle ts s'.pc := by
  revert hs
  fun_cases Sys.exec strategy s i d pc <;> intro hs <;> cases hs
  case case4 =>
    rw [goto, pc_updateTargets]
    exact h.update hi
  all_goals exact h.update hi

theorem undisturbed_of_check {ts : List ℕ} {a : Act} (h : LTS.Quiet .idle ts s.pc)
    (hc : s.undisturbed ts a = true) (hs : s.step strategy a = some s') :
    s.Undisturbed a ∧ (lts strategy).step s a s' ∧ LTS.Quiet .idle ts s'.pc := by
  obtain ⟨hw, ha⟩ := Bool.and_eq_true_iff.1 hc
  have hwrites : ∀ targets, s.writes a = some targets →
      ∀ j own, s.pc j = .get own → own = targets := by
    intro targets ht j own hj
    rw [ht, Option.all_some] at hw
    refine h.forall (Q := fun pc => pc = .get own → own = targets) nofun (fun u hu hpc => ?_) j hj
    have := List.all_eq_true.1 hw u hu
    rw [hpc] at this
    exact of_decide_eq_true this
  cases a with
  | select i targets =>
    refine ⟨⟨hwrites, nofun⟩, hs, ?_⟩
    rw [step] at hs
    split at hs
    · cases hs
      exact h.update (of_decide_eq_true ha)
    · cases hs
  | step i d =>
    obtain ⟨hi, hread⟩ := of_decide_eq_true ha
    refine ⟨⟨hwrites, fun j e heq hj => ?_⟩, hs, quiet_exec h hi hs⟩
    cases heq
    exact hread hj
  | updateTargets targets =>
    refine ⟨⟨hwrites, nofun⟩, hs, ?_⟩
    cases hs
    rw [pc_updateTargets]
    exact h
  | close =>
    refine ⟨⟨hwrites, nofun⟩, hs, ?_⟩
    cases hs
    exact h

/-! ### One call alone -/

/-- The last two steps of `Select`: a choice from what the balancer has -/
def selectFrom (strategy : Strategy) (s : Sys) (d : Draw) : Sys × Result :=
  match s.lb.getHealthyTargets with
  | [] => (s, .failed)
  | t :: rest =>
    ({ s with current := if strategy = .roundRobin then s.current + 1 else s.current },
      .address (Gateway.choose strategy s.current t rest d).address)

/-- The steps of `Select` after the targets are known -/
def pushAlone (strategy : Strategy) (s : Sys) (current : List String) (d : Draw) : Sys × Result :=
  match s.lb.updateTargets (current.map newTarget) with
  | some lb => selectFrom strategy { s with lb := lb } d
  | none => (s, .failed)

/-- A call of `Select` that nobody interrupts -/
def selectAlone (strategy : Strategy) (s : Sys) (targets : List String) (d : Draw) :
    Sys × Result :=
  if targets ≠ [] then pushAlone strategy (s.updateTargets targets) targets d
  else if s.targets = [] then (s, .failed)
  else pushAlone strategy s s.targets d

/-- Such a call returns one of its own targets, if it has any or none are stored. -/
theorem mem_of_selectAlone {targets : List String} {d : Draw} {a : String}
    (hown : targets ≠ [] ∨ s.targets = [])
    (h : (selectAlone strategy s targets d).2 = .address a) : a ∈ targets := by
  have hne : targets ≠ [] := by
    rintro rfl
    simp [selectAlone, hown.resolve_left (not_not.2 rfl)] at h
  rw [selectAlone, if_pos hne, pushAlone] at h
  generalize s.updateTargets targets = s₁ at h
  rw [BaseLoadBalancer.updateTargets] at h
  by_cases hclosed : s₁.lb.closed = true
  · rw [if_pos hclosed] at h
    cases h
  · rw [if_neg hclosed] at h
    have hhealthy : (BaseLoadBalancer.getHealthyTargets { s₁.lb with
        targets := targets.map newTarget }) = targets.map newTarget :=
      BaseLoadBalancer.getHealthyTargets_of_new rfl
    dsimp only [selectFrom] at h
    rw [hhealthy] at h
    obtain ⟨b, rest, rfl⟩ := List.exists_cons_of_ne_nil hne
    have hmem := choose_mem strategy s₁.current (newTarget b) (rest.map newTarget) d
    rw [← List.map_cons] at hmem
    obtain ⟨c, hc, hcb⟩ := List.mem_map.1 hmem
    cases h
    rw [← hcb]
    exact hc

/-- The steps of one goroutine that lead to a state -/
def Alone (strategy : Strategy) (i : ℕ) (d : Draw) (s s' : Sys) : Prop :=
  ∃ n, LTS.exec (fun s a => s.step strategy a) s (List.replicate n (.step i d)) = some s'

variable {i : ℕ} {d : Draw} {targets current : List String} {pc pc' : Pc}

theorem Alone.refl : Alone strategy i d s s := ⟨0, rfl⟩

theorem Alone.step {s₁ : Sys} (hs : s.exec strategy i d pc = some s₁) (hpc : s.pc i = pc)
    (h : Alone strategy i d s₁ s') : Alone strategy i d s s' := by
  obtain ⟨n, hn⟩ := h
  refine ⟨n + 1, LTS.exec_cons ?_ hn⟩
  rw [Sys.step, hpc]
  exact hs

theorem goto_goto : (s.goto i pc).goto i pc' = s.goto i pc' := by
  rw [goto, goto, goto, Function.update_idem]

theorem pc_goto_self : (s.goto i pc).pc i = pc := Function.update_self ..

theorem updateTargets_goto :
    (s.goto i pc).updateTargets targets = (s.updateTargets targets).goto i pc := by
  unfold updateTargets
  split_ifs
  · rfl
  · rw [show (s.goto i pc).lb = s.lb from rfl]
    cases s.lb.updateTargets (targets.map newTarget) with
    | some lb => rfl
    | none => rfl

theorem alone_selectFrom : Alone strategy i d (s.goto i (.get targets))
    ((selectFrom strategy s d).1.goto i (.done targets (selectFrom strategy s d).2)) := by
  have hget : (s.goto i (.get targets)).exec strategy i d (.get targets) =
      some (s.goto i (.choose targets s.lb.getHealthyTargets)) := by
    rw [exec, goto_goto]
    rfl
  refine .step hget pc_goto_self (.step ?_ pc_goto_self .refl)
  rw [selectFrom]
  generalize s.lb.getHealthyTargets = healthy
  cases healthy with
  | nil => exact congrArg some goto_goto
  | cons t rest => simp [exec, goto]

theorem alone_pushAlone : Alone strategy i d (s.goto i (.push targets current))
    ((pushAlone strategy s current d).1.goto i
      (.done targets (pushAlone strategy s current d).2)) := by
  unfold pushAlone
  cases hlb : s.lb.updateTargets (current.map newTarget) with
  | none =>
    refine .step ?_ pc_goto_self .refl
    simp [exec, goto, hlb]
  | some lb =>
    have hpush : (s.goto i (.push targets current)).exec strategy i d (.push targets current) =
        some ({ s with lb := lb }.goto i (.get targets)) := by
      simp [exec, goto, hlb]
    exact .step hpush pc_goto_self alone_selectFrom

/-- `selectAlone` is what the steps of a goroutine do when no other one takes a step. -/
theorem alone_selectAlone : Alone strategy i d (s.goto i (.read targets))
    ((selectAlone strategy s targets d).1.goto i
      (.done targets (selectAlone strategy s targets d).2)) := by
  unfold selectAlone
  by_cases hne : targets ≠ []
  · rw [if_pos hne]
    have hread : (s.goto i (.read targets)).exec strategy i d (.read targets) =
        some (s.goto i (.store targets)) := by
      rw [exec, if_pos hne, goto_goto]
    have hstore : (s.goto i (.store targets)).exec strategy i d (.store targets) =
        some ((s.updateTargets targets).goto i (.push targets targets)) := by
      rw [exec, updateTargets_goto, goto_goto]
    exact .step hread pc_goto_self (.step hstore pc_goto_self alone_pushAlone)
  · rw [if_neg hne]
    split_ifs with hempty
    · refine .step ?_ pc_goto_self .refl
      rw [exec, if_neg hne, if_pos (show (s.goto i _).targets = [] from hempty), goto_goto]
    · refine .step ?_ pc_goto_self alone_pushAlone
      rw [exec, if_neg hne, if_neg (show ¬(s.goto i _).targets = [] from hempty), goto_goto]
      rfl

/-- Goroutine `i` takes `n` steps. -/
def steps (n i : ℕ) : List Act := List.replicate n (.step i {})

/-- A request on the first route is served after one on the second route. -/
def inTurn : List Act :=
  [.select 1 ["b"], .select 0 ["a1", "a2"]] ++ steps 5 1 ++ steps 5 0

/-- The second one writes its targets between the two steps of the first one. -/
def between : List Act :=
  [.select 0 ["a1", "a2"], .select 1 ["b"]] ++ steps 3 0 ++ steps 2 1 ++ steps 2 0

theorem isolated_in_turn :
    ∃ s, (lts .roundRobin).Run Undisturbed inTurn s ∧
      s.pc 0 = .done ["a1", "a2"] (.address "a2") ∧ s.Isolated := by
  exact LTS.exists_guarded_run (J := fun s => LTS.Quiet .idle [0, 1] s.pc)
    (fun _ _ _ => undisturbed_of_check) rfl (fun _ _ => rfl) _ (by decide)
    fun s hrun hpc => ⟨hpc, isolated_of_undisturbed hrun⟩

/-- A request on a route with the targets `a1` and `a2` is sent to `b`. -/
theorem misrouted :
    ∃ s, (lts .roundRobin).Run LTS.anyStep between s ∧
      s.pc 0 = .done ["a1", "a2"] (.address "b") ∧ ¬ s.Isolated := by
  refine LTS.exists_run_of_exec (f := fun s a => s.step .roundRobin a) (fun _ _ _ h => h) rfl _
    (P := fun s => s.pc 0 = .done ["a1", "a2"] (.address "b")) (by decide) fun s hrun hpc => ?_
  refine ⟨hpc, fun hiso => ?_⟩
  have : "b" ∈ ["a1", "a2"] := hiso 0 ["a1", "a2"] (.address "b") hpc
  exact absurd this (by decide)

end Sys

end Gateway

end GinRpc
