import GinRpc.Data.Tally
import GinRpc.LTS.Basic
import GinRpc.LoadBalancer.Basic
import GinRpc.RwProxy.Client

/-!
# Round robin with an atomic counter

Model of `RoundRobinLoadBalancer.Select` in `plugins/loadbalancer/factory.go` and of the choice of a
replica in `plugins/db/rwproxy/client.go`, for any number of concurrent calls.  A call reads the
list of targets, adds one to the counter, and indexes the list; between these steps other calls are
made.

The two selectors differ in the width of the counter and in whether the number before or after the
addition is divided.  The logger is left out.

* `Selector` : a counter of some width, and the number that is taken from it.
* `round_robin_fair` : no index is outside of the list, and two targets are chosen equally often, up
  to one for each wrap of the counter and one more.
-/

namespace GinRpc

namespace RoundRobin

open LoadBalancer

/-- An atomic counter that counts modulo `size`; the number that is divided by the number of targets
is `offset` ahead of the counter before the addition. -/
structure Selector (C : Type) where
  toNat : C → ℕ
  /-- add one, and the number that is taken -/
  draw : C → C × ℕ
  size : ℕ
  offset : ℕ
  one_lt_size : 1 < size
  toNat_lt : ∀ c, toNat c < size
  toNat_draw : ∀ c, toNat (draw c).1 = (toNat c + 1) % size
  number_draw : ∀ c, (draw c).2 = (toNat c + offset) % size
  offset_le : offset ≤ 1

/-- `atomic.AddUint64(&lb.current, 1) - 1` -/
def current : Selector UInt64 where
  toNat := UInt64.toNat
  draw c := (c + 1, (c + 1 - 1).toNat)
  size := 2 ^ 64
  offset := 0
  one_lt_size := by decide
  toNat_lt := UInt64.toNat_lt
  toNat_draw c := UInt64.toNat_add c 1
  number_draw c := by
    rw [UInt64.add_sub_cancel, Nat.add_zero, Nat.mod_eq_of_lt c.toNat_lt]
  offset_le := Nat.zero_le _

/-- `int(atomic.AddUint32(&c.roundRobin, 1))` -/
def replica : Selector UInt32 where
  toNat := UInt32.toNat
  draw c := (c + 1, (c + 1).toNat)
  size := 2 ^ 32
  offset := 1
  one_lt_size := by decide
  toNat_lt := UInt32.toNat_lt
  toNat_draw c := UInt32.toNat_add c 1
  number_draw c := UInt32.toNat_add c 1
  offset_le := le_rfl

/-- `selectReplica` draws from its counter and indexes the list of replicas. -/
theorem selectReplica_eq {DB : Type} {c : RwProxy.Client DB} (hne : c.config.replicas ≠ [])
    (hforce : c.config.forceMaster = false) :
    c.selectReplica = (c.config.replicas.getD
      ((replica.draw c.roundRobin).2 % c.config.replicas.length) none,
      { c with roundRobin := (replica.draw c.roundRobin).1 }) := by
  rw [RwProxy.Client.selectReplica, if_neg hne, if_neg (by simp [hforce])]
  cases c.config.strategy <;> rfl

/-- How far a call is -/
inductive Call (T : Type) where
  | idle
  | looked (targets : List T)
  | drawn (targets : List T) (index : ℕ)
  /-- what has been returned, or nothing if the index is outside of the list -/
  | returned (target : Option T)

structure State (C T : Type) where
  counter : C
  call : ℕ → Call T
  /-- the indices that have been chosen, in the order of the additions -/
  chosen : List ℕ := []
  /-- how often the counter has wrapped around -/
  wraps : ℕ := 0

inductive Act where
  | look (i : ℕ)
  | draw (i : ℕ)
  | index (i : ℕ)
  deriving DecidableEq

variable {C T : Type} (S : Selector C) (targets : List T)

def State.step (s : State C T) : Act → Option (State C T)
  | .look i =>
    match s.call i with
    | .idle => some { s with call := Function.update s.call i (.looked targets) }
    | _ => none
  | .draw i =>
    match s.call i with
    | .looked targets =>
      let (counter, number) := S.draw s.counter
      let index := number % targets.length
      some {
        counter := counter
        call := Function.update s.call i (.drawn targets index)
        chosen := s.chosen ++ [index]
        wraps := if S.toNat counter < S.toNat s.counter then s.wraps + 1 else s.wraps }
    | _ => none
  | .index i =>
    match s.call i with
    | .drawn targets index =>
      some { s with call := Function.update s.call i (.returned targets[index]?) }
    | _ => none

/-- The calls of a selector for a list of targets, from any value of the counter -/
def lts : LTS (State C T) Act where
  init s := (∀ i, s.call i = .idle) ∧ s.chosen = [] ∧ s.wraps = 0
  step s a s' := s.step S targets a = some s'

/-- Every index that has been returned is in the list, two targets have been chosen equally often up
to one for each wrap and one more, and exactly equally often after whole rounds without a wrap. -/
structure Fair (n : ℕ) (s : State C T) : Prop where
  returned : ∀ i t, s.call i = .returned t → t.isSome = true
  chosen_lt : ∀ index ∈ s.chosen, index < n
  count_le : ∀ j < n, ∀ k < n, s.chosen.count j ≤ s.chosen.count k + (s.wraps + 1)
  count_eq : ∀ k, s.wraps = 0 → s.chosen.length = k * n → ∀ j < n, s.chosen.count j = k

/-! ### The invariant -/

/-- What is known about a call. -/
def Call.Ok (targets : List T) : Call T → Prop
  | .idle => True
  | .looked l => l = targets
  | .drawn l index => l = targets ∧ index < targets.length
  | .returned t => t.isSome = true

/-- The indices have been drawn from the counter, beginning with the value `c₀`. -/
structure Drawn (c₀ : ℕ) (s : State C T) : Prop where
  lt : c₀ < S.size
  call : ∀ i, (s.call i).Ok targets
  counter : S.toNat s.counter = (c₀ + s.chosen.length) % S.size
  wraps : s.wraps = (c₀ + s.chosen.length) / S.size
  chosen : s.chosen = (List.range s.chosen.length).map fun k =>
    (c₀ + S.offset + k) % S.size % targets.length

variable {S targets} {c₀ : ℕ} {s s' : State C T} {a : Act}

theorem Drawn.ok_update (h : Drawn S targets c₀ s) (i : ℕ) {call : Call T} (hcall : call.Ok targets)
    (j : ℕ) : (Function.update s.call i call j).Ok targets := by
  by_cases hj : j = i
  · subst hj
    rwa [Function.update_self]
  · rw [Function.update_of_ne hj]
    exact h.call j

/-- An addition wraps if and only if it begins another round. -/
theorem Drawn.wraps_draw (h : Drawn S targets c₀ s) :
    (if S.toNat (S.draw s.counter).1 < S.toNat s.counter then s.wraps + 1 else s.wraps) =
      (c₀ + (s.chosen.length + 1)) / S.size := by
  have hone := S.one_lt_size
  have hlt := Nat.mod_lt (c₀ + s.chosen.length) (show 0 < S.size by omega)
  have hdiv := Nat.div_add_mod (c₀ + s.chosen.length) S.size
  rw [S.toNat_draw, h.counter, h.wraps, ← Nat.add_assoc]
  by_cases hlast : (c₀ + s.chosen.length) % S.size + 1 = S.size
  · have hnext : c₀ + s.chosen.length + 1 =
        S.size * ((c₀ + s.chosen.length) / S.size + 1) := by
      rw [Nat.mul_add]
      omega
    rw [hlast, Nat.mod_self, if_pos (by omega), hnext, Nat.mul_div_cancel_left _ (by omega)]
  · have hnext : c₀ + s.chosen.length + 1 = S.size * ((c₀ + s.chosen.length) / S.size) +
        ((c₀ + s.chosen.length) % S.size + 1) := by omega
    rw [Nat.mod_eq_of_lt (show (c₀ + s.chosen.length) % S.size + 1 < S.size by omega),
      if_neg (by omega), hnext, Nat.mul_add_div (by omega),
      Nat.div_eq_of_lt (show (c₀ + s.chosen.length) % S.size + 1 < S.size by omega), Nat.add_zero]

theorem Drawn.number (h : Drawn S targets c₀ s) :
    (S.draw s.counter).2 = (c₀ + S.offset + s.chosen.length) % S.size := by
  rw [S.number_draw, h.counter, Nat.mod_add_mod, Nat.add_right_comm]

theorem Drawn.step (hne : targets ≠ []) (h : Drawn S targets c₀ s)
    (hst : s.step S targets a = some s') : Drawn S targets c₀ s' := by
  have hpos : 0 < targets.length := List.length_pos_of_ne_nil hne
  cases a with
  | look i =>
    rw [State.step] at hst
    split at hst <;> cases hst
    exact { h with call := h.ok_update i rfl }
  | draw i =>
    rw [State.step] at hst
    split at hst <;> cases hst
    next l hl =>
      have hok := h.call i
      rw [hl] at hok
      obtain rfl : l = targets := hok
      refine ⟨h.lt, h.ok_update i ⟨rfl, Nat.mod_lt _ hpos⟩, ?_, ?_, ?_⟩
      · show S.toNat (S.draw s.counter).1 = (c₀ + (s.chosen ++ [_]).length) % S.size
        rw [S.toNat_draw, h.counter, Nat.mod_add_mod, List.length_append]
        rfl
      · show (if _ then _ else _) = (c₀ + (s.chosen ++ [_]).length) / S.size
        rw [h.wraps_draw, List.length_append]
        rfl
      · show s.chosen ++ [_] = (List.range (s.chosen ++ [_]).length).map _
        rw [List.length_append, List.length_singleton, List.range_succ, List.map_append, ← h.chosen,
          h.number]
        rfl
  | index i =>
    rw [State.step] at hst
    split at hst <;> cases hst
    next l index hl =>
      have hok := h.call i
      rw [hl] at hok
      obtain ⟨rfl, hlt⟩ := hok
      refine { h with call := h.ok_update i ?_ }
      simpa [Call.Ok] using hlt

theorem drawn_of_run {tr : List Act} (hne : targets ≠ [])
    (h : (lts S targets).Run LTS.anyStep tr s) : ∃ c₀, Drawn S targets c₀ s := by
  refine h.invariant (I := fun s => ∃ c₀, Drawn S targets c₀ s) ?_ ?_
  · rintro s ⟨hidle, hchosen, hwraps⟩
    have hlt := S.toNat_lt s.counter
    refine ⟨S.toNat s.counter, hlt, fun i => ?_, ?_, ?_, ?_⟩
    · rw [hidle i]
      trivial
    · rw [hchosen, List.length_nil, Nat.add_zero, Nat.mod_eq_of_lt hlt]
    · rw [hchosen, hwraps, List.length_nil, Nat.add_zero, Nat.div_eq_of_lt hlt]
    · rw [hchosen]
      rfl
  · rintro s a s' ⟨c₀, hs⟩ - hst
    exact ⟨c₀, hs.step hne hst⟩

/-! ### Fairness -/

theorem Drawn.count (h : Drawn S targets c₀ s) (j : ℕ) : s.chosen.count j = Nat.count
    (fun k => (c₀ + S.offset + k) % S.size % targets.length = j) s.chosen.length := by
  conv_lhs => rw [h.chosen]
  rw [Nat.count, List.count, List.countP_map]
  refine List.countP_congr fun k _ => ?_
  simp

theorem Drawn.fair (hne : targets ≠ []) (h : Drawn S targets c₀ s) : Fair targets.length s := by
  have hone := S.one_lt_size
  have hoffset := S.offset_le
  have hlt := h.lt
  have hmod := Nat.mod_lt (c₀ + s.chosen.length) (show 0 < S.size by omega)
  have hdiv := Nat.div_add_mod (c₀ + s.chosen.length) S.size
  rw [← h.wraps, Nat.mul_comm] at hdiv
  refine ⟨fun i t ht => ?_, fun index hindex => ?_, fun j hj k hk => ?_,
    fun k hwraps hlen j hj => ?_⟩
  · have hok := h.call i
    rwa [ht] at hok
  · rw [h.chosen, List.mem_map] at hindex
    obtain ⟨k, -, rfl⟩ := hindex
    exact Nat.mod_lt _ (List.length_pos_of_ne_nil hne)
  · rw [h.count, h.count]
    -- the numbers end `offset` later than the counter, within the same round
    exact Tally.count_cycle_le (b := (c₀ + s.chosen.length) % S.size + S.offset) (by omega)
      (by omega) (by omega) hj hk
  · rw [hwraps, Nat.zero_mul, Nat.zero_add] at hdiv
    rw [h.count, hlen]
    exact Tally.count_cycle_eq (by omega) hj

/-- **Round robin is fair**: for a list of targets that stays the same and is not empty, in every
interleaving of calls and from every value of the counter.  The steps of a choice of a replica,
taken together, are `selectReplica`. -/
theorem round_robin_fair {DB : Type} {lb : BaseLoadBalancer} {c : RwProxy.Client DB}
    (hlb : lb.getHealthyTargets ≠ []) (hc : c.config.replicas ≠ []) :
    (∀ tr s, (lts current lb.getHealthyTargets).Run LTS.anyStep tr s →
      Fair lb.getHealthyTargets.length s) ∧
    (∀ tr s, (lts replica c.config.replicas).Run LTS.anyStep tr s →
      Fair c.config.replicas.length s) ∧
    (c.config.forceMaster = false → c.selectReplica = (c.config.replicas.getD
      ((replica.draw c.roundRobin).2 % c.config.replicas.length) none,
      { c with roundRobin := (replica.draw c.roundRobin).1 })) := by
  refine ⟨fun tr s hrun => ?_, fun tr s hrun => ?_, selectReplica_eq hc⟩
  · obtain ⟨c₀, h⟩ := drawn_of_run hlb hrun
    exact h.fair hlb
  · obtain ⟨c₀, h⟩ := drawn_of_run hc hrun
    exact h.fair hc

/-- Two calls at two targets, the second of which adds to the counter before the first. -/
theorem round_robin_fair_two :
    let lb : BaseLoadBalancer := { targets := [newTarget "a", newTarget "b"] }
    ∃ s, (lts current lb.getHealthyTargets).Run LTS.anyStep
      [.look 0, .look 1, .draw 1, .draw 0, .index 0] s ∧ s.chosen = [0, 1] ∧ Fair 2 s := by
  intro lb
  let idle : State UInt64 Target := ⟨0, fun _ => .idle, [], 0⟩
  have hinit : (lts current lb.getHealthyTargets).init idle := ⟨fun _ => rfl, rfl, rfl⟩
  let c : RwProxy.Client Unit := ⟨⟨none, [some ()], .roundRobin, false⟩, 0⟩
  have hc : c.config.replicas ≠ [] := List.cons_ne_nil _ _
  have hlb : lb.getHealthyTargets ≠ [] := List.cons_ne_nil _ _
  exact LTS.exists_run_of_exec (f := State.step current lb.getHealthyTargets) (fun _ _ _ h => h)
    hinit _ (by decide) fun s hrun hchosen => ⟨hchosen, (round_robin_fair hlb hc).1 _ s hrun⟩

end RoundRobin

end GinRpc
