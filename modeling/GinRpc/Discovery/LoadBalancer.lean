import GinRpc.Data.AList
import GinRpc.LTS.Basic
import GinRpc.Text.Number

/-!
# The load balancer of service discovery

Model of `LoadBalancer` in `plugins/discovery/loadbalancer.go`.

The balancer keeps the instances of a service, a cursor for round robin, and for each instance ID
the number of its connections.  All calls hold its lock, so a run is a sequence of calls.  Numbers
of type `int` are 64 bits wide and wrap; an index outside of the list and `rand.Intn` of a number
that is not positive panic.

The address of an instance and its name play no part in the selection and are left out, and no
instance is nil.
-/

namespace GinRpc

namespace Discovery

/-- A strategy by its name; a name that is not known stands for round robin. -/
inductive Strategy where
  | roundRobin
  | random
  | weightedRandom
  | leastConn
  | ipHash
  | other (name : String)
  deriving DecidableEq, Repr

structure ServiceInstance where
  id : String
  payload : AList fun _ : String => String := ∅
  deriving DecidableEq

/-- An instance without a payload. -/
def ServiceInstance.plain (id : String) : ServiceInstance := { id := id }

structure LoadBalancer where
  strategy : Strategy
  instances : List ServiceInstance := []
  currentIndex : ℕ := 0
  connections : AList fun _ : String => Int64 := ∅
  deriving DecidableEq

/-- What a selection comes to. -/
inductive Outcome where
  | panic
  | err (text : String)
  /-- the instance that is returned, or nil -/
  | ok (instance? : Option ServiceInstance)
  deriving DecidableEq

def newLoadBalancer (strategy : Strategy) : LoadBalancer := { strategy := strategy }

/-- `instances[i]`. -/
def index (instances : List ServiceInstance) (i : ℤ) : Outcome :=
  if 0 ≤ i ∧ i < instances.length then .ok instances[i.toNat]? else .panic

/-- `rand.Intn(n)`, where `r` is what the generator has drawn. -/
def intn (n : ℤ) (r : ℕ) : Option ℕ := if n ≤ 0 then none else some (r % n.toNat)

def instanceWeight (inst : ServiceInstance) : Int64 :=
  let (weight, err) := Text.parseInt ((inst.payload.lookup "weight").getD "")
  if err.isSome ∨ weight ≤ 0 then 1 else weight

/-- The first loop of `weightedRandom`. -/
def totalWeight (instances : List ServiceInstance) : Int64 :=
  instances.foldl (fun total inst => total + instanceWeight inst) 0

/-- The second loop of `weightedRandom`. -/
def draw : List ServiceInstance → Int64 → Option ServiceInstance
  | [], _ => none
  | inst :: rest, target =>
    let target := target - instanceWeight inst
    if target < 0 then some inst else draw rest target

/-- The hash of `ipHash`, before its sign is dropped. -/
def hashIP (clientIP : Text) : Int64 :=
  clientIP.foldl (fun hash c => hash * 31 + Int64.ofNat c.toNat) 0

namespace LoadBalancer

variable (lb : LoadBalancer)

/-- `lb.connections[id]`. -/
def count (id : String) : Int64 := (lb.connections.lookup id).getD 0

def updateInstances (instances : List ServiceInstance) : LoadBalancer :=
  -- an entry for each new instance
  let connections := instances.foldl (fun connections inst =>
    match connections.lookup inst.id with
    | some _ => connections
    | none => connections.insert inst.id 0) lb.connections
  -- no entry for an instance that is gone
  let connections := connections.keys.foldl (fun connections id =>
    if instances.any fun inst => inst.id = id then connections else connections.erase id)
    connections
  { lb with instances := instances, connections := connections }

def roundRobin : LoadBalancer × Outcome :=
  match index lb.instances lb.currentIndex with
  | .panic => (lb, .panic)
  | inst => ({ lb with currentIndex := (lb.currentIndex + 1) % lb.instances.length }, inst)

def random (r : ℕ) : Outcome :=
  match intn lb.instances.length r with
  | none => .panic
  | some i => index lb.instances i

def weightedRandom (r : ℕ) : Outcome :=
  match intn (totalWeight lb.instances).toInt r with
  | none => .panic
  | some target =>
    match draw lb.instances (Int64.ofNat target) with
    | some inst => .ok inst
    | none => index lb.instances (lb.instances.length - 1)

/-- One round of the loop of `leastConn`: the fewest connections so far, and the instance. -/
def leastStep (best : Int64 × Option ServiceInstance) (inst : ServiceInstance) :
    Int64 × Option ServiceInstance :=
  if lb.count inst.id < best.1 then (lb.count inst.id, some inst) else best

def leastConn : Outcome := .ok (lb.instances.foldl lb.leastStep (Int64.maxValue, none)).2

def ipHash (clientIP : Text) : Outcome :=
  if clientIP = [] then index lb.instances 0
  else
    let hash := hashIP clientIP
    let hash := if hash < 0 then -hash else hash
    index lb.instances (hash.toInt.tmod lb.instances.length)

def nextInstance (clientIP : Text) (r : ℕ) : LoadBalancer × Outcome :=
  if lb.instances = [] then (lb, .err "no available instances")
  else
    match lb.strategy with
    | .roundRobin => lb.roundRobin
    | .random => (lb, lb.random r)
    | .weightedRandom => (lb, lb.weightedRandom r)
    | .leastConn => (lb, lb.leastConn)
    | .ipHash => (lb, lb.ipHash clientIP)
    | .other _ => lb.roundRobin

def incrementConnections (id : String) : LoadBalancer :=
  { lb with connections := lb.connections.insert id (lb.count id + 1) }

def decrementConnections (id : String) : LoadBalancer :=
  if lb.count id > 0 then { lb with connections := lb.connections.insert id (lb.count id - 1) }
  else lb

def setStrategy (strategy : Strategy) : LoadBalancer :=
  { lb with strategy := strategy, currentIndex := 0 }

end LoadBalancer

/-- A call on the balancer. -/
inductive Call where
  | updateInstances (instances : List ServiceInstance)
  | setStrategy (strategy : Strategy)
  /-- with what the random generator draws -/
  | nextInstance (clientIP : Text) (r : ℕ)
  | incrementConnections (id : String)
  | decrementConnections (id : String)
  deriving DecidableEq

def LoadBalancer.apply (lb : LoadBalancer) : Call → LoadBalancer
  | .updateInstances instances => lb.updateInstances instances
  | .setStrategy strategy => lb.setStrategy strategy
  | .nextInstance clientIP r => (lb.nextInstance clientIP r).1
  | .incrementConnections id => lb.incrementConnections id
  | .decrementConnections id => lb.decrementConnections id

/-- All sequences of calls on a new balancer. -/
def LoadBalancer.lts : LTS LoadBalancer Call where
  init lb := ∃ strategy, lb = newLoadBalancer strategy
  step lb call lb' := lb.apply call = lb'

end Discovery

end GinRpc
