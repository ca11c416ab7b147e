import GinRpc.Data.Duration

/-!
# The balancers of `plugins/loadbalancer`

The base that all balancers share, from `factory.go`, and the loops of their `Select` methods, from
`strategies.go`.  The logger is left out.
-/

namespace GinRpc

namespace LoadBalancer

structure Target where
  address : String
  weight : ℤ := 1
  healthy : Bool := true
  deriving DecidableEq, Repr

def newTarget (address : String) : Target := { address := address }

structure BaseLoadBalancer where
  enableHealthCheck : Bool := true
  targets : List Target := []
  closed : Bool := false

namespace BaseLoadBalancer

variable (lb : BaseLoadBalancer)

def updateTargets (targets : List Target) : Option BaseLoadBalancer :=
  if lb.closed then none else some { lb with targets := targets }

def close : BaseLoadBalancer := { lb with closed := true, targets := [] }

def getHealthyTargets : List Target :=
  if lb.enableHealthCheck then lb.targets.filter (·.healthy) else lb.targets

variable {lb}

/-- New targets are healthy. -/
theorem getHealthyTargets_of_new {l : List String} (h : lb.targets = l.map newTarget) :
    lb.getHealthyTargets = l.map newTarget := by
  rw [getHealthyTargets, h]
  split_ifs
  · exact List.filter_eq_self.2 (List.forall_mem_map.2 fun _ _ => rfl)
  · rfl

end BaseLoadBalancer

/-- The first loop of `WeightedLoadBalancer.Select`. -/
def totalWeight (targets : List Target) : ℤ :=
  targets.foldl (fun total target =>
    if 0 < target.weight then Duration.wrap (total + target.weight) else total) 0

/-- Its second loop, from the position `i` on. -/
def selectWeighted (random : ℤ) : List Target → (currentWeight : ℤ) → (i : ℕ) → Option ℕ
  | [], _, _ => none
  | target :: rest, currentWeight, i =>
    if target.weight ≤ 0 then selectWeighted random rest currentWeight (i + 1)
    else
      let currentWeight := Duration.wrap (currentWeight + target.weight)
      if random < currentWeight then some i else selectWeighted random rest currentWeight (i + 1)

/-- The loop of `LeastConnectionsLoadBalancer.Select`: the first one with the least number. -/
def least {α : Type} (connections : α → Int32) : α → List α → α
  | selected, [] => selected
  | selected, target :: rest =>
    if connections target < connections selected then least connections target rest
    else least connections selected rest

end LoadBalancer

end GinRpc
