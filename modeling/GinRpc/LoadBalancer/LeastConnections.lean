import GinRpc.LTS.Basic
import GinRpc.LoadBalancer.Basic
import Mathlib.Tactic

/-!
# Least connections

Model of `LeastConnectionsLoadBalancer` in `plugins/loadbalancer/strategies.go` over the base in
`factory.go`.  The number of connections is a field of the target objects.  `UpdateTargets` replaces
the objects, with whatever numbers they have, and `ReleaseConnection` looks for the first current
object with the address, whether or not it is the one that was selected.

Objects are given by number.  A ghost field has the addresses of the selections that are not
released yet.  `Metadata`, `Weight`, the logger and `Close` are left out.

* `Honest` : every update passes objects with distinct addresses whose numbers are right.
* `State.counts_of_honest` : then all numbers stay right and the least is selected.
* `State.counts_lost` : fresh objects, as the adapter of the gateway makes them for every call, have
  lost their number.
-/

namespace GinRpc

namespace LeastConnections

open LoadBalancer (least)

structure Target where
  address : String
  healthy : Bool := true
  connectionCount : Int32 := 0
  deriving DecidableEq, Repr

structure State where
  enableHealthCheck : Bool
  /-- the objects -/
  target : ℕ → Target
  targets : List ℕ := []
  /-- the addresses of the selections that are not released -/
  unreleased : List String := []

inductive Act where
  | select
  | releaseConnection (targetAddress : String)
  | updateTargets (targets : List ℕ)
  /-- `SetHealthy` -/
  | setHealthy (p : ℕ) (healthy : Bool)
  deriving DecidableEq, Repr

namespace State

variable (s : State)

/-- `GetHealthyTargets` -/
def eligible : List ℕ :=
  if s.enableHealthCheck then s.targets.filter fun p => (s.target p).healthy else s.targets

/-- The object that `Select` returns, if there is one -/
def selected : Option ℕ :=
  match s.eligible with
  | [] => none
  | p :: rest => some (least (fun p => (s.target p).connectionCount) p rest)

/-- `atomic.AddInt32(&target.ConnectionCount, d)` -/
def addCount (p : ℕ) (d : Int32) : ℕ → Target :=
  Function.update s.target p
    { s.target p with connectionCount := (s.target p).connectionCount + d }

def select : State :=
  match s.selected with
  | none => s
  | some p => { s with
      target := s.addCount p 1
      unreleased := (s.target p).address :: s.unreleased }

/-- The object that `ReleaseConnection` finds -/
def released (targetAddress : String) : Option ℕ :=
  s.targets.find? fun p => decide ((s.target p).address = targetAddress)

def releaseConnection (targetAddress : String) : State :=
  { s with
    target := (s.released targetAddress).elim s.target fun p => s.addCount p (-1)
    unreleased := s.unreleased.erase targetAddress }

/-- The calls; a connection is released at most once for each selection. -/
def step : Act → Option State
  | .select => some s.select
  | .releaseConnection a => if a ∈ s.unreleased then some (s.releaseConnection a) else none
  | .updateTargets targets => some { s with targets := targets }
  | .setHealthy p healthy =>
    some { s with target := Function.update s.target p { s.target p with healthy := healthy } }

/-- The number of an object is the number of selections of its address. -/
def Right (p : ℕ) : Prop :=
  (s.target p).connectionCount.toInt = s.unreleased.count (s.target p).address

end State

/-- A new balancer, and objects with any numbers -/
def lts : LTS State Act where
  init s := s.targets = [] ∧ s.unreleased = []
  step s a s' := s.step a = some s'

/-- An update passes objects with distinct addresses whose numbers are right, and no number gets too
large. -/
def Honest (s : State) : Act → Prop
  | .updateTargets targets =>
    (targets.map fun p => (s.target p).address).Nodup ∧ ∀ p ∈ targets, s.Right p
  | .select => s.unreleased.length < 2 ^ 31 - 1
  | _ => True

instance (s : State) (a : Act) : Decidable (Honest s a) :=
  match a with
  | .updateTargets targets => inferInstanceAs (Decidable
      ((targets.map fun p => (s.target p).address).Nodup ∧ ∀ p ∈ targets,
        (s.target p).connectionCount.toInt = s.unreleased.count (s.target p).address))
  | .select => inferInstanceAs (Decidable (_ < _))
  | .releaseConnection _ | .setHealthy _ _ => inferInstanceAs (Decidable True)

/-! ### The choice -/

theorem least_spec (connections : ℕ → Int32) (p : ℕ) (rest : List ℕ) :
    least connections p rest ∈ p :: rest ∧
      ∀ q ∈ p :: rest, connections (least connections p rest) ≤ connections q := by
  induction rest generalizing p with
  | nil => simp [least]
  | cons q rest ih =>
    rw [least]
    split_ifs with hlt
    · obtain ⟨hmem, hle⟩ := ih q
      refine ⟨List.mem_cons_of_mem p hmem, fun r hr => ?_⟩
      obtain rfl | hr := List.mem_cons.1 hr
      · exact Int32.le_of_lt (Int32.lt_of_le_of_lt (hle q List.mem_cons_self) hlt)
      · exact hle r hr
    · obtain ⟨hmem, hle⟩ := ih p
      refine ⟨?_, fun r hr => ?_⟩
      · exact List.cons_subset_cons p (List.subset_cons_self q rest) hmem
      · obtain rfl | hr := List.mem_cons.1 hr
        · exact hle r List.mem_cons_self
        · obtain rfl | hr := List.mem_cons.1 hr
          · exact Int32.le_trans (hle p List.mem_cons_self) (Int32.not_lt.1 hlt)
          · exact hle r (List.mem_cons_of_mem p hr)

namespace State

variable {s s' : State} {a : Act} {p q : ℕ}

theorem eligible_subset : s.eligible ⊆ s.targets := by
  unfold eligible
  split_ifs
  · exact List.filter_subset_self _
  · exact List.Subset.refl _

theorem selected_spec (h : s.selected = some p) : p ∈ s.eligible ∧
    ∀ q ∈ s.eligible, (s.target p).connectionCount ≤ (s.target q).connectionCount := by
  unfold selected at h
  split at h
  · cases h
  · rename_i first rest heq
    cases h
    rw [heq]
    exact least_spec _ first rest

/-! ### Numbers -/

/-- The numbers of the current objects are right, and their addresses distinct. -/
structure Counted (s : State) : Prop where
  right : ∀ p ∈ s.targets, s.Right p
  distinct : (s.targets.map fun p => (s.target p).address).Nodup

theorem address_addCount (d : Int32) : (s.addCount p d q).address = (s.target q).address := by
  unfold addCount
  rw [Function.update_apply]
  split_ifs with h
  · rw [h]
  · rfl

/-- One number is changed, and so are the selections of its address. -/
theorem Counted.change (h : s.Counted) {d : Int32} {unreleased : List String}
    (hp : p ∈ s.targets)
    (hself : ((s.target p).connectionCount + d).toInt = unreleased.count (s.target p).address)
    (hother : ∀ a, a ≠ (s.target p).address → unreleased.count a = s.unreleased.count a) :
    Counted { s with target := s.addCount p d, unreleased := unreleased } := by
  refine ⟨fun q hq => ?_, ?_⟩
  · unfold Right
    dsimp only
    rw [address_addCount]
    by_cases hqp : q = p
    · subst hqp
      rw [addCount, Function.update_self]
      exact hself
    · have hne : (s.target q).address ≠ (s.target p).address := fun heq =>
        hqp (List.inj_on_of_nodup_map h.distinct hq hp heq)
      rw [addCount, Function.update_of_ne hqp, hother _ hne]
      exact h.right q hq
  · simp only [address_addCount]
    exact h.distinct

theorem toInt_add_one {n : Int32} (h : n.toInt < 2 ^ 31 - 1) : (n + 1).toInt = n.toInt + 1 := by
  have hle := Int32.le_toInt n
  rw [Int32.toInt_add]
  exact Int.bmod_eq_of_le (by change _ ≤ n.toInt + 1; omega) (by change n.toInt + 1 < _; omega)

theorem toInt_sub_one {n : Int32} (h : 0 < n.toInt) : (n + -1).toInt = n.toInt - 1 := by
  have hlt := Int32.toInt_lt n
  rw [Int32.toInt_add]
  exact Int.bmod_eq_of_le (by change _ ≤ n.toInt + -1; omega) (by change n.toInt + -1 < _; omega)

theorem Counted.select (h : s.Counted) (hlen : s.unreleased.length < 2 ^ 31 - 1) :
    s.select.Counted := by
  unfold State.select
  split
  · exact h
  · rename_i p hp
    have hmem := eligible_subset (selected_spec hp).1
    have hright : (s.target p).connectionCount.toInt = _ := h.right p hmem
    have hcount := List.count_le_length (a := (s.target p).address) (l := s.unreleased)
    refine h.change hmem ?_ fun a ha => List.count_cons_of_ne (Ne.symm ha)
    rw [toInt_add_one (by omega), hright, List.count_cons_self]
    push_cast
    rfl

theorem Counted.releaseConnection (h : s.Counted) {a : String} (ha : a ∈ s.unreleased) :
    (s.releaseConnection a).Counted := by
  unfold State.releaseConnection
  cases hp : s.released a with
  | none =>
    -- no current object has the address
    refine ⟨fun q hq => ?_, h.distinct⟩
    have hne : (s.target q).address ≠ a := by simpa using List.find?_eq_none.1 hp q hq
    have hright : (s.target q).connectionCount.toInt = _ := h.right q hq
    unfold Right
    dsimp only [Option.elim]
    rw [List.count_erase_of_ne hne, hright]
  | some p =>
    obtain rfl : (s.target p).address = a := by simpa using List.find?_some hp
    have hmem := List.mem_of_find?_eq_some hp
    have hright : (s.target p).connectionCount.toInt = _ := h.right p hmem
    have hpos := List.count_pos_iff.2 ha
    refine h.change hmem ?_ fun b hb => List.count_erase_of_ne hb
    rw [toInt_sub_one (by omega), hright, List.count_erase_self]
    omega

theorem Counted.step (h : s.Counted) (hok : Honest s a) (hs : s.step a = some s') :
    s'.Counted := by
  cases a with
  | select =>
    cases hs
    exact h.select hok
  | releaseConnection a =>
    rw [State.step] at hs
    split_ifs at hs with ha
    cases hs
    exact h.releaseConnection ha
  | updateTargets targets =>
    cases hs
    exact ⟨hok.2, hok.1⟩
  | setHealthy p healthy =>
    cases hs
    have hkeep (q : ℕ) :
        (Function.update s.target p { s.target p with healthy := healthy } q).address =
            (s.target q).address ∧
          (Function.update s.target p { s.target p with healthy := healthy } q).connectionCount =
            (s.target q).connectionCount := by
      rw [Function.update_apply]
      split_ifs with hq
      · exact ⟨by rw [hq], by rw [hq]⟩
      · exact ⟨rfl, rfl⟩
    refine ⟨fun q hq => ?_, ?_⟩
    · unfold Right
      dsimp only
      rw [(hkeep q).1, (hkeep q).2]
      exact h.right q hq
    · simp only [(hkeep _).1]
      exact h.distinct

/-- **The number of each current target is the number of its selections that are not released, and a
target with the least number is selected**, if every update passes objects with distinct addresses
whose numbers are right. -/
theorem counts_of_honest {tr : List Act} (h : lts.Run Honest tr s) :
    (∀ p ∈ s.targets, (s.target p).connectionCount.toInt =
      s.unreleased.count (s.target p).address) ∧
    ∀ p, s.selected = some p → p ∈ s.eligible ∧ ∀ q ∈ s.eligible,
      s.unreleased.count (s.target p).address ≤ s.unreleased.count (s.target q).address := by
  have hcounted : s.Counted := by
    refine h.invariant ?_ fun _ _ _ h hok hs => h.step hok hs
    rintro s ⟨htargets, -⟩
    refine ⟨fun p hp => ?_, ?_⟩
    · rw [htargets] at hp
      cases hp
    · rw [htargets]
      exact List.nodup_nil
  refine ⟨hcounted.right, fun p hp => ?_⟩
  obtain ⟨hmem, hle⟩ := selected_spec hp
  refine ⟨hmem, fun q hq => ?_⟩
  have hp' : (s.target p).connectionCount.toInt = _ := hcounted.right p (eligible_subset hmem)
  have hq' : (s.target q).connectionCount.toInt = _ := hcounted.right q (eligible_subset hq)
  have := Int32.le_iff_toInt_le.1 (hle q hq)
  omega

/-- Two addresses; even objects have the first -/
def fresh : State where
  enableHealthCheck := true
  target p := { address := if p % 2 = 0 then "a" else "b" }

/-- The target that is not busy stays when the other one is replaced. -/
theorem counts_of_honest_replaced :
    ∃ s, lts.Run Honest [.updateTargets [0, 1], .select, .updateTargets [0, 3], .select,
        .releaseConnection "a"] s ∧
      s.targets = [0, 3] ∧ s.unreleased = ["b"] ∧ (s.target 0).connectionCount.toInt = 0 ∧
      (s.target 3).connectionCount.toInt = 1 := by
  refine LTS.exists_decided_run lts Honest (f := State.step) (fun _ _ _ h => h) fresh ⟨rfl, rfl⟩ _
    (P := fun s => s.targets = [0, 3] ∧ s.unreleased = ["b"] ∧ (s.target 0).address = "a" ∧
      (s.target 3).address = "b") (by decide) fun s hr hs => ?_
  obtain ⟨htargets, hopen, h₀, h₃⟩ := hs
  have hcounts := (counts_of_honest hr).1
  rw [htargets, hopen] at hcounts
  refine ⟨htargets, hopen, ?_, ?_⟩
  · rw [hcounts 0 (by decide), h₀]
    rfl
  · rw [hcounts 3 (by decide), h₃]
    rfl

/-- A target is selected, and fresh objects are passed for the same addresses: the number is lost,
the busy target is selected again, and releasing both makes its number negative. -/
theorem counts_lost :
    (∃ s, lts.Run LTS.anyStep [.updateTargets [0, 1], .select, .updateTargets [2, 3]] s ∧
      s.unreleased = ["a"] ∧ (s.target 2).connectionCount = 0 ∧ s.selected = some 2 ∧
      3 ∈ s.eligible ∧ (s.target 2).address = "a" ∧ (s.target 3).address = "b") ∧
    ∃ s, lts.Run LTS.anyStep [.updateTargets [0, 1], .select, .updateTargets [2, 3],
        .releaseConnection "a"] s ∧ (s.target 2).connectionCount = -1 := by
  have hinit : lts.init fresh := ⟨rfl, rfl⟩
  constructor
  · exact LTS.exists_run_of_exec (f := State.step) (fun _ _ _ h => h) hinit _ (by decide)
      fun _ _ h => h
  · exact LTS.exists_run_of_exec (f := State.step) (fun _ _ _ h => h) hinit _ (by decide)
      fun _ _ h => h

end State

end LeastConnections

end GinRpc
