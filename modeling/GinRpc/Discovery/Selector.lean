import GinRpc.Discovery.LoadBalancer

/-!
# The service selector

Model of `SelectInstance` and `UpdateService` of `ServiceSelector` in
`plugins/discovery/loadbalancer.go`, over the registry of load balancers.

Balancers are objects, given by number.  Each access to the registry, to a balancer and to service
discovery is one step of a call, and the steps of all calls interleave; discovery answers with any
list of instances or with an error.  Other methods of the registry are left out.

* `State.UsesOne` : every call of a service, and every tracker it has returned, uses the balancer
  that is registered.
* `selector_spec` : this holds if no registration overwrites another one.  A call that fails because
  of discovery has always left a balancer behind.
* `selector_astray` : the balancer that is left behind has no instances and is not filled, and two
  first calls use two balancers.
-/

namespace GinRpc

namespace Discovery

namespace Selector

/-- How far a call is -/
inductive Call where
  | idle
  /-- `SelectInstance`, before `RegisterService` -/
  | registering (serviceName : String) (clientIP : Text)
  /-- before `GetService`, with a new balancer -/
  | fetching (serviceName : String) (clientIP : Text) (lb : ℕ)
  /-- before `UpdateInstances` -/
  | filling (serviceName : String) (clientIP : Text) (lb : ℕ) (instances : List ServiceInstance)
  /-- before `NextInstance` -/
  | selecting (serviceName : String) (clientIP : Text) (lb : ℕ)
  /-- before `NewConnectionTracker` -/
  | tracking (serviceName : String) (lb : ℕ) (inst : ServiceInstance)
  /-- an instance and a tracker on the balancer have been returned -/
  | returned (serviceName : String) (lb : ℕ) (inst : ServiceInstance)
  /-- "failed to get service instances" -/
  | undiscovered (serviceName err : String)
  /-- the error of `NextInstance` -/
  | refused (serviceName text : String)
  | panicked
  /-- `UpdateService`, before `GetService` -/
  | refetching (serviceName : String)
  /-- before the registry is read -/
  | refreshing (serviceName : String) (instances : List ServiceInstance)
  /-- before `UpdateInstances` -/
  | refilling (serviceName : String) (lb : ℕ) (instances : List ServiceInstance)
  | updated (err : Option String)
  deriving DecidableEq

structure State where
  defaultStrategy : Strategy
  /-- `loadBalancers` -/
  registry : String → Option ℕ
  /-- the objects -/
  balancer : ℕ → LoadBalancer
  /-- the number of the next object -/
  next : ℕ
  call : ℕ → Call

inductive Act where
  | selectInstance (i : ℕ) (serviceName : String) (clientIP : Text)
  | updateService (i : ℕ) (serviceName : String)
  | registerService (i : ℕ)
  | getService (i : ℕ) (result : Except String (List ServiceInstance))
  /-- the lookup in `UpdateServiceInstances` -/
  | getLoadBalancer (i : ℕ)
  | updateInstances (i : ℕ)
  | nextInstance (i r : ℕ)
  | newConnectionTracker (i : ℕ)

/-- The service and the balancer that a call uses -/
def Call.uses : Call → Option (String × ℕ)
  | .fetching serviceName _ lb | .filling serviceName _ lb _ | .selecting serviceName _ lb
  | .tracking serviceName lb _ | .returned serviceName lb _ | .refilling serviceName lb _ =>
    some (serviceName, lb)
  | _ => none

/-- The service and the balancer on which the tracker of a call is counted -/
def Call.tracker : Call → Option (String × ℕ)
  | .returned serviceName lb _ => some (serviceName, lb)
  | _ => none

namespace State

variable (s : State)

def move (i : ℕ) (call : Call) : State := { s with call := Function.update s.call i call }

def setBalancer (lb : ℕ) (balancer : LoadBalancer) : State :=
  { s with balancer := Function.update s.balancer lb balancer }

/-- `RegisterService`, which replaces the balancer that is registered -/
def registerService (i : ℕ) (serviceName : String) (clientIP : Text) : State where
  defaultStrategy := s.defaultStrategy
  registry := Function.update s.registry serviceName (some s.next)
  balancer := Function.update s.balancer s.next (newLoadBalancer s.defaultStrategy)
  next := s.next + 1
  call := Function.update s.call i (.fetching serviceName clientIP s.next)

def step : Act → Option State
  | .selectInstance i serviceName clientIP =>
    match s.call i with
    | .idle =>
      match s.registry serviceName with
      | some lb => some (s.move i (.selecting serviceName clientIP lb))
      | none => some (s.move i (.registering serviceName clientIP))
    | _ => none
  | .updateService i serviceName =>
    match s.call i with
    | .idle => some (s.move i (.refetching serviceName))
    | _ => none
  | .registerService i =>
    match s.call i with
    | .registering serviceName clientIP => some (s.registerService i serviceName clientIP)
    | _ => none
  | .getService i result =>
    match s.call i, result with
    | .fetching serviceName _ _, .error err => some (s.move i (.undiscovered serviceName err))
    | .fetching serviceName clientIP lb, .ok instances =>
      some (s.move i (.filling serviceName clientIP lb instances))
    | .refetching _, .error err => some (s.move i (.updated (some err)))
    | .refetching serviceName, .ok instances => some (s.move i (.refreshing serviceName instances))
    | _, _ => none
  | .getLoadBalancer i =>
    match s.call i with
    | .refreshing serviceName instances =>
      match s.registry serviceName with
      | some lb => some (s.move i (.refilling serviceName lb instances))
      | none => some (s.move i (.updated none))
    | _ => none
  | .updateInstances i =>
    match s.call i with
    | .filling serviceName clientIP lb instances =>
      some ((s.setBalancer lb ((s.balancer lb).updateInstances instances)).move i
        (.selecting serviceName clientIP lb))
    | .refilling _ lb instances =>
      some ((s.setBalancer lb ((s.balancer lb).updateInstances instances)).move i (.updated none))
    | _ => none
  | .nextInstance i r =>
    match s.call i with
    | .selecting serviceName clientIP lb =>
      let (balancer, outcome) := (s.balancer lb).nextInstance clientIP r
      let s := s.setBalancer lb balancer
      match outcome with
      | .err text => some (s.move i (.refused serviceName text))
      -- the ID of a nil instance is read
      | .panic | .ok none => some (s.move i .panicked)
      | .ok (some inst) => some (s.move i (.tracking serviceName lb inst))
    | _ => none
  | .newConnectionTracker i =>
    match s.call i with
    | .tracking serviceName lb inst =>
      some ((s.setBalancer lb ((s.balancer lb).incrementConnections inst.id)).move i
        (.returned serviceName lb inst))
    | _ => none

/-- Every call uses the balancer that is registered for its service. -/
def UsesOne : Prop :=
  ∀ i serviceName lb, (s.call i).uses = some (serviceName, lb) → s.registry serviceName = some lb

/-- No balancer is left behind by a call that has failed because of discovery. -/
def LeavesNone : Prop :=
  ∀ i serviceName err, s.call i = .undiscovered serviceName err → s.registry serviceName = none

/-- No registration overwrites another one. -/
def calm : Act → Bool
  | .registerService i =>
    match s.call i with
    | .registering serviceName _ => (s.registry serviceName).isNone
    | _ => true
  | _ => true

end State

/-- A new selector -/
def State.initial (strategy : Strategy) : State where
  defaultStrategy := strategy
  registry _ := none
  balancer _ := newLoadBalancer strategy
  next := 0
  call _ := .idle

def lts (strategy : Strategy) : LTS State Act where
  init s := s = .initial strategy
  step s a s' := s.step a = some s'

/-! ### One step -/

/-- What a step does to the registry and to the call that makes it. -/
inductive Moves (s s' : State) (a : Act) (i : ℕ) (c : Call) : Prop
  | quiet : s'.registry = s.registry →
      (∀ p, c.uses = some p → (s.call i).uses = some p ∨ s.registry p.1 = some p.2) →
      (∀ serviceName err, c = .undiscovered serviceName err →
        ∃ lb, (s.call i).uses = some (serviceName, lb)) →
      Moves s s' a i c
  | register (serviceName : String) (clientIP : Text) :
      s.call i = .registering serviceName clientIP → a = .registerService i →
      c = .fetching serviceName clientIP s.next →
      s'.registry = Function.update s.registry serviceName (some s.next) → Moves s s' a i c

variable {s s' : State} {a : Act}

theorem step_moves (h : s.step a = some s') :
    ∃ i c, s'.call = Function.update s.call i c ∧ Moves s s' a i c := by
  cases a with
  | selectInstance i serviceName clientIP =>
    simp only [State.step] at h
    split at h
    · split at h <;> cases h
      next lb hlb =>
        refine ⟨i, _, rfl, .quiet rfl ?_ (by simp)⟩
        rintro p ⟨⟩
        exact .inr hlb
      next => exact ⟨i, _, rfl, .quiet rfl (by simp [Call.uses]) (by simp)⟩
    · cases h
  | updateService i serviceName =>
    simp only [State.step] at h
    split at h <;> cases h
    exact ⟨i, _, rfl, .quiet rfl (by simp [Call.uses]) (by simp)⟩
  | registerService i =>
    simp only [State.step] at h
    split at h <;> cases h
    next serviceName clientIP hcall => exact ⟨i, _, rfl, .register _ _ hcall rfl rfl rfl⟩
  | getService i result =>
    simp only [State.step] at h
    split at h <;> cases h
    next serviceName clientIP lb err hcall =>
      refine ⟨i, _, rfl, .quiet rfl (by simp [Call.uses]) ?_⟩
      rintro _ _ ⟨⟩
      exact ⟨lb, by rw [hcall]; rfl⟩
    next serviceName clientIP lb instances hcall =>
      exact ⟨i, _, rfl, .quiet rfl (by simp [Call.uses, hcall]) (by simp)⟩
    next => exact ⟨i, _, rfl, .quiet rfl (by simp [Call.uses]) (by simp)⟩
    next => exact ⟨i, _, rfl, .quiet rfl (by simp [Call.uses]) (by simp)⟩
  | getLoadBalancer i =>
    simp only [State.step] at h
    split at h
    · split at h <;> cases h
      next lb hlb =>
        refine ⟨i, _, rfl, .quiet rfl ?_ (by simp)⟩
        rintro p ⟨⟩
        exact .inr hlb
      next => exact ⟨i, _, rfl, .quiet rfl (by simp [Call.uses]) (by simp)⟩
    · cases h
  | updateInstances i =>
    simp only [State.step] at h
    split at h <;> cases h
    next serviceName clientIP lb instances hcall =>
      exact ⟨i, _, rfl, .quiet rfl (by simp [Call.uses, hcall]) (by simp)⟩
    next => exact ⟨i, _, rfl, .quiet rfl (by simp [Call.uses]) (by simp)⟩
  | nextInstance i r =>
    simp only [State.step] at h
    split at h
    next serviceName clientIP lb hcall =>
      split at h <;> cases h
      · exact ⟨i, _, rfl, .quiet rfl (by simp [Call.uses]) (by simp)⟩
      · exact ⟨i, _, rfl, .quiet rfl (by simp [Call.uses]) (by simp)⟩
      · exact ⟨i, _, rfl, .quiet rfl (by simp [Call.uses]) (by simp)⟩
      · exact ⟨i, _, rfl, .quiet rfl (by simp [Call.uses, hcall]) (by simp)⟩
    · cases h
  | newConnectionTracker i =>
    simp only [State.step] at h
    split at h <;> cases h
    next serviceName lb inst hcall =>
      exact ⟨i, _, rfl, .quiet rfl (by simp [Call.uses, hcall]) (by simp)⟩

/-! ### Runs -/

/-- Every call that uses a balancer, or that has failed because of discovery, has its service
registered. -/
def State.Known (s : State) : Prop :=
  (∀ i serviceName lb, (s.call i).uses = some (serviceName, lb) → s.registry serviceName ≠ none) ∧
  ∀ i serviceName err, s.call i = .undiscovered serviceName err → s.registry serviceName ≠ none

theorem call_cases {i : ℕ} {c : Call} (hcall : s'.call = Function.update s.call i c) (j : ℕ) :
    (j = i ∧ s'.call j = c) ∨ s'.call j = s.call j := by
  rw [hcall]
  by_cases hij : j = i
  · subst hij
    exact .inl ⟨rfl, Function.update_self ..⟩
  · exact .inr (Function.update_of_ne hij ..)

/-- A service that is registered stays registered, whichever balancer it has. -/
theorem Moves.registered {i : ℕ} {c : Call} (h : Moves s s' a i c) {serviceName : String}
    (hname : s.registry serviceName ≠ none) : s'.registry serviceName ≠ none := by
  cases h with
  | quiet hregistry => rwa [hregistry]
  | register name clientIP _ _ _ hregistry =>
    rw [hregistry]
    by_cases h : serviceName = name
    · rw [h, Function.update_self]
      exact Option.some_ne_none _
    · rwa [Function.update_of_ne h]

theorem State.Known.step (h : s.Known) (hst : s.step a = some s') : s'.Known := by
  obtain ⟨i, c, hcall, hmoves⟩ := step_moves hst
  refine ⟨fun j serviceName lb hj => ?_, fun j serviceName err hj => ?_⟩
  · rcases call_cases hcall j with ⟨rfl, hnew⟩ | hold
    · rw [hnew] at hj
      cases hmoves with
      | quiet hregistry huses =>
        rw [hregistry]
        rcases huses _ hj with hold | hfound
        · exact h.1 j serviceName lb hold
        · rw [hfound]
          exact Option.some_ne_none lb
      | register name clientIP _ _ hc hregistry =>
        subst hc
        cases hj
        rw [hregistry, Function.update_self]
        exact Option.some_ne_none _
    · rw [hold] at hj
      exact hmoves.registered (h.1 j serviceName lb hj)
  · rcases call_cases hcall j with ⟨rfl, hnew⟩ | hold
    · rw [hnew] at hj
      cases hmoves with
      | quiet hregistry _ hfailed =>
        obtain ⟨lb, hold⟩ := hfailed serviceName err hj
        rw [hregistry]
        exact h.1 j serviceName lb hold
      | register name clientIP _ _ hc =>
        subst hc
        cases hj
    · rw [hold] at hj
      exact hmoves.registered (h.2 j serviceName err hj)

theorem State.UsesOne.step (h : s.UsesOne) (hok : s.calm a = true) (hst : s.step a = some s') :
    s'.UsesOne := by
  obtain ⟨i, c, hcall, hmoves⟩ := step_moves hst
  intro j serviceName lb hj
  cases hmoves with
  | quiet hregistry huses =>
    rw [hregistry]
    rcases call_cases hcall j with ⟨rfl, hnew⟩ | hold
    · rw [hnew] at hj
      exact (huses _ hj).elim (h j serviceName lb) id
    · rw [hold] at hj
      exact h j serviceName lb hj
  | register name clientIP hcalling ha hc hregistry =>
    rw [hregistry]
    rcases call_cases hcall j with ⟨rfl, hnew⟩ | hold
    · rw [hnew, hc] at hj
      cases hj
      exact Function.update_self ..
    · rw [hold] at hj
      -- the service of another call is registered already, so it is not this one
      have hfree : s.registry name = none := by
        rw [ha, State.calm, hcalling] at hok
        simpa using hok
      have hname : serviceName ≠ name := by
        rintro rfl
        rw [h j serviceName lb hj] at hfree
        cases hfree
      rw [Function.update_of_ne hname]
      exact h j serviceName lb hj

/-- **What a selector guarantees**: if no registration overwrites another one, all calls of a
service and all their trackers use the balancer that is registered.  No balancer is left behind by a
call that has failed because of discovery if and only if there is no such call. -/
theorem selector_spec {strategy : Strategy} {tr : List Act} {s : State}
    (h : (lts strategy).Run LTS.anyStep tr s) :
    (s.LeavesNone ↔ ∀ i serviceName err, s.call i ≠ .undiscovered serviceName err) ∧
    ((lts strategy).Run (fun s a => s.calm a = true) tr s → s.UsesOne) := by
  have hknown : s.Known := by
    refine h.invariant ?_ fun s a s' hs _ hst => hs.step hst
    rintro s rfl
    refine ⟨fun i serviceName lb hi => ?_, fun i serviceName err hi => ?_⟩
    · cases hi
    · cases hi
  refine ⟨⟨fun hnone i serviceName err hi => ?_, fun hno i serviceName err hi => ?_⟩,
    fun hcalm => ?_⟩
  · exact hknown.2 i serviceName err hi (hnone i serviceName err hi)
  · exact absurd hi (hno i serviceName err)
  · refine hcalm.invariant ?_ fun s a s' hs hok hst => hs.step hok hst
    rintro s rfl i serviceName lb hi
    cases hi

/-- One call, which finds one instance -/
theorem selector_spec_one :
    ∃ tr s, (lts .roundRobin).Run (fun s a => s.calm a = true) tr s ∧
      (s.call 0).tracker = some ("users", 0) ∧ s.registry "users" = some 0 ∧ s.UsesOne := by
  refine ⟨[.selectInstance 0 "users" [], .registerService 0, .getService 0 (.ok [.plain "a"]),
    .updateInstances 0, .nextInstance 0 0, .newConnectionTracker 0], ?_⟩
  refine LTS.exists_decided_run (lts .roundRobin) (fun s a => s.calm a = true)
    (f := State.step) (fun _ _ _ h => h) (.initial .roundRobin) rfl _
    (P := fun s => (s.call 0).tracker = some ("users", 0) ∧ s.registry "users" = some 0)
    (by decide +kernel) fun s hrun hs => ?_
  exact ⟨hs.1, hs.2, (selector_spec hrun.unguarded).2 hrun⟩

/-- **A balancer without instances stays, and a balancer can be replaced**: after a failed call the
next one finds no instances and does not ask discovery; of two first calls one has its tracker on a
balancer that is not registered. -/
theorem selector_astray :
    (∃ s, (lts .roundRobin).Run LTS.anyStep
      [.selectInstance 0 "users" [], .registerService 0, .getService 0 (.error "down"),
        .selectInstance 1 "users" [], .nextInstance 1 0] s ∧
      s.call 0 = .undiscovered "users" "down" ∧
      s.call 1 = .refused "users" "no available instances") ∧
    ∃ s, (lts .roundRobin).Run LTS.anyStep
      [.selectInstance 0 "users" [], .selectInstance 1 "users" [], .registerService 0,
        .registerService 1, .getService 0 (.ok [.plain "a"]), .updateInstances 0,
        .nextInstance 0 0, .newConnectionTracker 0] s ∧
      (s.call 0).tracker = some ("users", 0) ∧ s.registry "users" = some 1 := by
  have hinit : (lts .roundRobin).init (.initial .roundRobin) := rfl
  constructor
  · exact LTS.exists_run_of_exec (f := State.step) (fun _ _ _ h => h) hinit _ (by decide +kernel)
      fun _ _ h => h
  · exact LTS.exists_run_of_exec (f := State.step) (fun _ _ _ h => h) hinit _ (by decide +kernel)
      fun _ _ h => h

end Selector

end Discovery

end GinRpc
