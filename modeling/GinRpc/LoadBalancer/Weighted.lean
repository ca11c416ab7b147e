import GinRpc.Data.Tally
import GinRpc.Discovery.LoadBalancer
import GinRpc.LoadBalancer.Basic

/-!
# Weighted selection

Model of `WeightedLoadBalancer.Select` in `plugins/loadbalancer/strategies.go`, and the shares of
the instances under `weightedRandom` of the balancer of service discovery.

A draw is a number below the total weight.  The first balancer adds up the weights until they exceed
the draw and skips those that are not positive; the other one subtracts the weights from the draw
until it is negative, where a weight that is not positive counts as one.

* `weighted_exact` : if the total weight is an `int`, every target is chosen for exactly as many
  draws as its weight, and no fallback is reached.
-/

namespace GinRpc

namespace LoadBalancer

/-- What `Select` comes to: an error, a panic, or the message that is logged and the position of the
target -/
inductive Selection where
  | err (text : String)
  | panic
  | ok (message : String) (i : ℕ)
  deriving DecidableEq

/-- `Select`, where the generator has drawn `r` -/
def BaseLoadBalancer.selectByWeight (lb : BaseLoadBalancer) (r : ℕ) : Selection :=
  let targets := lb.getHealthyTargets
  if targets = [] then .err "no targets available"
  else
    let totalWeight := totalWeight targets
    if totalWeight = 0 then .ok "Weighted fallback to random" (r % targets.length)
    else if totalWeight < 0 then .panic
    else
      match selectWeighted (r % totalWeight) targets 0 0 with
      | some i => .ok "Weighted selected target" i
      | none => .ok "Weighted fallback to first target" 0

/-- The weights of the targets; one that is not positive counts as zero. -/
def shares (targets : List Target) : List ℕ := targets.map fun target => target.weight.toNat

/-! ### The first balancer -/

variable {targets : List Target}

theorem foldl_totalWeight {total : ℕ} (h : total + (shares targets).sum < 2 ^ 63) :
    targets.foldl (fun total target =>
      if 0 < target.weight then Duration.wrap (total + target.weight) else total) (total : ℤ) =
      (total + (shares targets).sum : ℕ) := by
  induction targets generalizing total with
  | nil => rfl
  | cons target targets ih =>
    rw [shares, List.map_cons, List.sum_cons] at h ⊢
    have hnext : (if 0 < target.weight then Duration.wrap (total + target.weight) else
        (total : ℤ)) = (total + target.weight.toNat : ℕ) := by
      split_ifs with hpos
      · rw [Duration.wrap_of_lt (by omega) (by omega)]
        omega
      · omega
    rw [List.foldl_cons, hnext, ih (by unfold shares; omega), shares, Nat.add_assoc]

theorem totalWeight_eq (h : (shares targets).sum < 2 ^ 63) :
    totalWeight targets = (shares targets).sum := by
  have hfold := @foldl_totalWeight targets 0 (by omega)
  rwa [Nat.zero_add] at hfold

/-- The loop has passed weights of the sum `currentWeight`. -/
theorem selectWeighted_eq {currentWeight r : ℕ} (i : ℕ) (hr : r < (shares targets).sum)
    (h : currentWeight + (shares targets).sum < 2 ^ 63) :
    selectWeighted (currentWeight + r : ℕ) targets currentWeight i =
      some (i + Tally.pick (shares targets) r) := by
  induction targets generalizing currentWeight r i with
  | nil => cases hr
  | cons target targets ih =>
    rw [shares, List.map_cons, List.sum_cons] at h hr
    have hcons : shares (target :: targets) = target.weight.toNat :: shares targets := rfl
    rw [selectWeighted, hcons, Tally.pick]
    by_cases hweight : target.weight ≤ 0
    · have hzero : target.weight.toNat = 0 := by omega
      rw [if_pos hweight, hzero, if_neg (Nat.not_lt_zero _), Nat.sub_zero,
        ih (i + 1) (by unfold shares; omega) (by unfold shares; omega), Nat.add_right_comm,
        Nat.add_assoc]
    · have hnext : Duration.wrap (currentWeight + target.weight) =
          (currentWeight + target.weight.toNat : ℕ) := by
        rw [Duration.wrap_of_lt (by omega) (by omega)]
        omega
      rw [if_neg hweight, hnext]
      dsimp only
      by_cases hlt : r < target.weight.toNat
      · rw [if_pos (by omega), if_pos hlt, Nat.add_zero]
      · have hsplit : currentWeight + r =
            currentWeight + target.weight.toNat + (r - target.weight.toNat) := by omega
        rw [if_neg (by omega), if_neg hlt, hsplit,
          ih (i + 1) (by unfold shares; omega) (by unfold shares; omega), Nat.add_right_comm,
          Nat.add_assoc]

theorem selectByWeight_eq {lb : BaseLoadBalancer} {r : ℕ}
    (h : (shares lb.getHealthyTargets).sum < 2 ^ 63)
    (hr : r < (shares lb.getHealthyTargets).sum) :
    lb.selectByWeight r =
      .ok "Weighted selected target" (Tally.pick (shares lb.getHealthyTargets) r) := by
  have hne : lb.getHealthyTargets ≠ [] := by
    intro hnil
    rw [hnil] at hr
    cases hr
  have hloop : selectWeighted r lb.getHealthyTargets 0 0 =
      some (Tally.pick (shares lb.getHealthyTargets) r) := by
    simpa using @selectWeighted_eq lb.getHealthyTargets 0 r 0 hr (by omega)
  have hdraw : ((r : ℤ) % ((shares lb.getHealthyTargets).sum : ℤ)) = r :=
    Int.emod_eq_of_lt (by omega) (by omega)
  rw [BaseLoadBalancer.selectByWeight]
  dsimp only
  rw [if_neg hne, totalWeight_eq h, if_neg (by omega), if_neg (by omega), hdraw, hloop]

end LoadBalancer

namespace Discovery

/-! ### The balancer of service discovery -/

/-- The weights of the instances. -/
def weights (instances : List ServiceInstance) : List ℕ :=
  instances.map fun inst => (instanceWeight inst).toInt.toNat

/-- The weight in the payload of an instance, and whether it is no number -/
def ServiceInstance.payloadWeight (inst : ServiceInstance) : Int64 × Option Text.NumError :=
  Text.parseInt ((inst.payload.lookup "weight").getD "")

variable {instances : List ServiceInstance}

theorem instanceWeight_pos (inst : ServiceInstance) : 0 < (instanceWeight inst).toInt := by
  unfold instanceWeight
  dsimp only
  split_ifs with h
  · decide
  · rw [not_or, Int64.not_le, Int64.lt_iff_toInt_lt] at h
    exact h.2

theorem foldl_instanceWeight {total : Int64} (hpos : 0 ≤ total.toInt)
    (h : total.toInt + (weights instances).sum < 2 ^ 63) :
    (instances.foldl (fun total inst => total + instanceWeight inst) total).toInt =
      total.toInt + (weights instances).sum := by
  induction instances generalizing total with
  | nil => exact (Int.add_zero _).symm
  | cons inst instances ih =>
    have hweight := instanceWeight_pos inst
    rw [weights, List.map_cons, List.sum_cons] at h ⊢
    have hnext : (total + instanceWeight inst).toInt =
        total.toInt + (instanceWeight inst).toInt := by
      rw [Int64.toInt_add]
      exact Int.bmod_eq_of_le (by omega) (by omega)
    have hrest := @ih (total + instanceWeight inst) (by omega) (by unfold weights; omega)
    rw [List.foldl_cons, hrest, hnext, weights]
    omega

theorem totalWeight_eq (h : (weights instances).sum < 2 ^ 63) :
    (totalWeight instances).toInt = (weights instances).sum := by
  have hzero : (0 : Int64).toInt = 0 := rfl
  have hfold := @foldl_instanceWeight instances 0 hzero.ge (by rw [hzero]; omega)
  rw [hzero, Int.zero_add] at hfold
  exact hfold

theorem draw_eq {r : ℕ} (hr : r < (weights instances).sum) (h : (weights instances).sum < 2 ^ 63) :
    draw instances (Int64.ofNat r) = instances[Tally.pick (weights instances) r]? := by
  induction instances generalizing r with
  | nil => cases hr
  | cons inst instances ih =>
    have hweight := instanceWeight_pos inst
    rw [weights, List.map_cons, List.sum_cons] at h hr
    have hcons : weights (inst :: instances) =
        (instanceWeight inst).toInt.toNat :: weights instances := rfl
    have hleft : (Int64.ofNat r - instanceWeight inst).toInt = r - (instanceWeight inst).toInt := by
      rw [Int64.toInt_sub, Int64.toInt_ofNat_of_lt (by omega)]
      exact Int.bmod_eq_of_le (by omega) (by omega)
    have htest : Int64.ofNat r - instanceWeight inst < 0 ↔
        r < (instanceWeight inst).toInt.toNat := by
      rw [Int64.lt_iff_toInt_lt, hleft]
      show _ < (0 : ℤ) ↔ _
      omega
    rw [draw, hcons, Tally.pick]
    simp only [htest]
    split_ifs with hlt
    · rfl
    · have hrest : Int64.ofNat r - instanceWeight inst =
          Int64.ofNat (r - (instanceWeight inst).toInt.toNat) := by
        rw [← Int64.toInt_inj, hleft, Int64.toInt_ofNat_of_lt (by omega)]
        omega
      rw [hrest, ih (by unfold weights; omega) (by unfold weights; omega), List.getElem?_cons_succ]

theorem weightedRandom_eq {lb : LoadBalancer} {r : ℕ} (hr : r < (weights lb.instances).sum)
    (h : (weights lb.instances).sum < 2 ^ 63) :
    lb.weightedRandom r = .ok lb.instances[Tally.pick (weights lb.instances) r]? := by
  have hlt : Tally.pick (weights lb.instances) r < lb.instances.length := by
    simpa [weights] using Tally.pick_lt hr
  rw [LoadBalancer.weightedRandom, intn, totalWeight_eq h, if_neg (by omega)]
  dsimp only
  rw [Int.toNat_natCast, Nat.mod_eq_of_lt hr, draw_eq hr h, List.getElem?_eq_getElem hlt]

end Discovery

/-- **Every target has its share of the draws**, if the total weight is positive and an `int`: the
draws choose a target in the loop, and each position as often as its weight says.  A weight that is
not positive is a share of zero, and in service discovery a share of one, as is a text in the
payload that is no number. -/
theorem weighted_exact {lb : LoadBalancer.BaseLoadBalancer} {d : Discovery.LoadBalancer}
    (hlb : (LoadBalancer.shares lb.getHealthyTargets).sum < 2 ^ 63)
    (hd : (Discovery.weights d.instances).sum < 2 ^ 63) :
    ((∀ r < (LoadBalancer.shares lb.getHealthyTargets).sum, ∃ i < lb.getHealthyTargets.length,
        lb.selectByWeight r = .ok "Weighted selected target" i) ∧
      ∀ i (hi : i < lb.getHealthyTargets.length),
        Nat.count (fun r => lb.selectByWeight r = .ok "Weighted selected target" i)
          (LoadBalancer.shares lb.getHealthyTargets).sum = lb.getHealthyTargets[i].weight.toNat) ∧
    ∃ position : ℕ → ℕ,
      (∀ r < (Discovery.weights d.instances).sum, position r < d.instances.length ∧
        Discovery.draw d.instances (Int64.ofNat r) = d.instances[position r]? ∧
        d.weightedRandom r = .ok d.instances[position r]?) ∧
      ∀ i (hi : i < d.instances.length),
        Nat.count (fun r => position r = i) (Discovery.weights d.instances).sum =
          if d.instances[i].payloadWeight.2.isSome ∨ d.instances[i].payloadWeight.1 ≤ 0 then 1
          else d.instances[i].payloadWeight.1.toInt.toNat := by
  refine ⟨⟨fun r hr => ?_, fun i hi => ?_⟩,
    Tally.pick (Discovery.weights d.instances), fun r hr => ?_, fun i hi => ?_⟩
  · refine ⟨_, ?_, LoadBalancer.selectByWeight_eq hlb hr⟩
    simpa [LoadBalancer.shares] using Tally.pick_lt hr
  · have hcount := Tally.count_pick (LoadBalancer.shares lb.getHealthyTargets) i
    have hshare : (LoadBalancer.shares lb.getHealthyTargets).getD i 0 =
        lb.getHealthyTargets[i].weight.toNat := by simp [LoadBalancer.shares, hi]
    rw [← hshare, ← hcount]
    refine Tally.count_congr fun r hr => ?_
    rw [LoadBalancer.selectByWeight_eq hlb hr]
    simp
  · refine ⟨?_, Discovery.draw_eq hr hd, Discovery.weightedRandom_eq hr hd⟩
    simpa [Discovery.weights] using Tally.pick_lt hr
  · have hshare : (Discovery.weights d.instances).getD i 0 =
        (Discovery.instanceWeight d.instances[i]).toInt.toNat := by simp [Discovery.weights, hi]
    rw [Tally.count_pick, hshare]
    exact apply_ite (fun weight : Int64 => weight.toInt.toNat) ..

/-- Three targets with the weights 2, -1 and 3, and three instances with the weights 2 and -4 and
without a weight -/
theorem weighted_exact_three :
    let lb : LoadBalancer.BaseLoadBalancer :=
      { targets := [⟨"a", 2, true⟩, ⟨"b", -1, true⟩, ⟨"c", 3, true⟩] }
    let d : Discovery.LoadBalancer := ⟨.weightedRandom,
      [⟨"a", AList.insert "weight" "2" ∅⟩, ⟨"b", AList.insert "weight" "-4" ∅⟩, .plain "c"], 0, ∅⟩
    Nat.count (fun r => lb.selectByWeight r = .ok "Weighted selected target" 2) 5 = 3 ∧
      ∃ position : ℕ → ℕ, (∀ r < 4, d.weightedRandom r = .ok d.instances[position r]?) ∧
        Nat.count (fun r => position r = 0) 4 = 2 ∧ Nat.count (fun r => position r = 1) 4 = 1 := by
  intro lb d
  have hlb : (LoadBalancer.shares lb.getHealthyTargets).sum < 2 ^ 63 := by decide
  have hsum : (Discovery.weights d.instances).sum = 4 := by decide
  obtain ⟨⟨-, hfirst⟩, position, hdraw, hcount⟩ := weighted_exact hlb (d := d) (by omega)
  rw [hsum] at hdraw hcount
  exact ⟨hfirst 2 (by decide), position, fun r hr => (hdraw r hr).2.2,
    (hcount 0 (by decide)).trans (by decide), (hcount 1 (by decide)).trans (by decide)⟩

end GinRpc
