import GinRpc.Discovery.Selection

/-!
# Connection counts

A `ConnectionTracker` counts a connection when it is made and takes it back when it is closed.

* `Tracked` : a balancer and the trackers made on it.
* `Tracked.Exact` : for each instance of the list, the count is the number of open trackers.
* `Tracked.exact_of_lasting` : this holds along every run whose updates list each instance that has
  an open tracker, and which does not open more trackers than an `int` can count.
* `Tracked.forgotten` : an instance that leaves the list and returns has lost its count.
-/

namespace GinRpc

namespace Discovery

namespace LoadBalancer

variable {lb : LoadBalancer} {id i : String}

/-- The first loop of `UpdateInstances` adds zeros. -/
theorem getD_foldl_insert (l : List ServiceInstance) (c : AList fun _ : String => Int64) :
    ((l.foldl (fun c inst =>
      match c.lookup inst.id with
      | some _ => c
      | none => c.insert inst.id 0) c).lookup id).getD 0 = (c.lookup id).getD 0 := by
  induction l generalizing c with
  | nil => rfl
  | cons a l ih =>
    rw [List.foldl_cons, ih]
    split
    · rfl
    next hnone =>
      rw [AList.lookup_insert_apply]
      split_ifs with h
      · rw [h, hnone]
        rfl
      · rfl

/-- The second loop of `UpdateInstances` erases what is not listed. -/
theorem lookup_foldl_erase (p : String → Bool) (ids : List String)
    (c : AList fun _ : String => Int64) :
    (ids.foldl (fun c id => if p id then c else c.erase id) c).lookup id =
      if id ∈ ids ∧ p id = false then none else c.lookup id := by
  induction ids generalizing c with
  | nil => exact (if_neg fun h => nomatch h.1).symm
  | cons a ids ih =>
    rw [List.foldl_cons, ih]
    by_cases ha : p a = true
    · rw [if_pos ha]
      grind
    · rw [if_neg ha, AList.lookup_erase_apply]
      grind

theorem count_updateInstances (lb : LoadBalancer) (instances : List ServiceInstance) :
    (lb.updateInstances instances).count id =
      if instances.any fun inst => inst.id = id then lb.count id else 0 := by
  rw [count, updateInstances]
  dsimp only
  rw [lookup_foldl_erase]
  split_ifs with hgone hlisted hlisted
  · exact absurd (hgone.2.symm.trans hlisted) nofun
  · rfl
  · exact getD_foldl_insert _ _
  · -- it had no entry
    have hnone := mt (fun h => ⟨h, Bool.eq_false_iff.2 hlisted⟩) hgone
    rw [← AList.mem_keys, ← AList.lookup_eq_none] at hnone
    rw [hnone]
    rfl

theorem count_incrementConnections :
    (lb.incrementConnections id).count i = if i = id then lb.count id + 1 else lb.count i := by
  rw [count, incrementConnections, AList.lookup_insert_apply]
  split_ifs
  · rfl
  · rfl

theorem count_decrementConnections :
    (lb.decrementConnections id).count i =
      if i = id ∧ lb.count id > 0 then lb.count id - 1 else lb.count i := by
  rw [decrementConnections]
  split_ifs with hpos h h
  · rw [count, AList.lookup_insert_apply, if_pos h.1]
    rfl
  · rw [count, AList.lookup_insert_apply, if_neg fun hi => h ⟨hi, hpos⟩]
    rfl
  · exact absurd h.2 hpos
  · rfl

end LoadBalancer

/-- A balancer and its trackers: for which instance, and whether it is open. -/
structure Tracked where
  lb : LoadBalancer
  trackers : List (String × Bool) := []

inductive TrackerAct where
  | updateInstances (instances : List ServiceInstance)
  /-- `NewConnectionTracker` -/
  | create (id : String)
  /-- `Close`, of a tracker that is open -/
  | close (t : ℕ)

namespace Tracked

variable {s s' : Tracked} {id : String}

def step (s : Tracked) : TrackerAct → Option Tracked
  | .updateInstances instances => some { s with lb := s.lb.updateInstances instances }
  | .create id => some ⟨s.lb.incrementConnections id, s.trackers ++ [(id, true)]⟩
  | .close t =>
    match s.trackers[t]? with
    | some (id, true) => some ⟨s.lb.decrementConnections id, s.trackers.set t (id, false)⟩
    | _ => none

/-- All sequences of these calls on a new balancer. -/
def lts : LTS Tracked TrackerAct where
  init s := ∃ strategy, s = { lb := newLoadBalancer strategy }
  step s a s' := s.step a = some s'

/-- The number of open trackers of an instance. -/
def numOpen (s : Tracked) (id : String) : ℕ := s.trackers.count (id, true)

/-- The counts of the instances are right. -/
def Exact (s : Tracked) : Prop :=
  ∀ inst ∈ s.lb.instances, (s.lb.count inst.id).toInt = s.numOpen inst.id

/-- An instance with open trackers stays in the list, and the count does not overflow. -/
def Lasting (s : Tracked) : TrackerAct → Prop
  | .updateInstances instances => ∀ id, 0 < s.numOpen id → ∃ inst ∈ instances, inst.id = id
  | .create id => s.numOpen id + 1 < 2 ^ 63
  | .close _ => True

/-- What a tracker that is closed leaves. -/
theorem count_set {l : List (String × Bool)} {t : ℕ} (h : l[t]? = some (id, true)) (i : String) :
    (l.set t (id, false)).count (i, true) = l.count (i, true) - if i = id then 1 else 0 := by
  obtain ⟨hlt, hget⟩ := List.getElem?_eq_some_iff.1 h
  rw [List.count_set hlt, hget]
  by_cases hi : i = id
  · simp [hi]
  · simp [hi, Ne.symm hi]

/-- The counts of all instances, listed or not, are kept right. -/
theorem counted_step (h : ∀ id, (s.lb.count id).toInt = s.numOpen id) {a : TrackerAct}
    (hok : s.Lasting a) (hs : s.step a = some s') (i : String) :
    (s'.lb.count i).toInt = s'.numOpen i := by
  cases a with
  | updateInstances instances =>
    cases hs
    dsimp only
    rw [LoadBalancer.count_updateInstances]
    split_ifs with hlisted
    · exact h i
    · -- nobody holds a connection to it
      have hzero : s.numOpen i = 0 := by
        by_contra hpos
        obtain ⟨inst, hmem, hid⟩ := hok i (Nat.pos_of_ne_zero hpos)
        exact hlisted (List.any_eq_true.2 ⟨inst, hmem, decide_eq_true hid⟩)
      exact (congrArg Nat.cast hzero).symm
  | create id =>
    cases hs
    have hi := h i
    change _ < _ at hok
    rw [LoadBalancer.count_incrementConnections, numOpen, List.count_append]
    split_ifs with heq
    · subst heq
      rw [Int64.toInt_add, hi, Int64.toInt_one, Int.bmod_eq_of_le (by omega) (by omega)]
      simp [numOpen]
    · rw [hi]
      simp [numOpen, Ne.symm heq]
  | close t =>
    rw [step] at hs
    split at hs
    next id hget =>
      cases hs
      have hi := h i
      have hid := h id
      have hpos : 0 < s.numOpen id :=
        List.count_pos_iff.2 (List.mem_of_getElem? hget)
      have hlt := Int64.toInt_lt (s.lb.count id)
      rw [LoadBalancer.count_decrementConnections, numOpen, count_set hget]
      split_ifs with hdec heq heq
      · subst heq
        rw [Int64.toInt_sub, hi, Int64.toInt_one, Int.bmod_eq_of_le (by omega) (by omega)]
        simp only [numOpen] at *
        omega
      · exact absurd hdec.1 heq
      · refine absurd ⟨heq, ?_⟩ hdec
        rw [gt_iff_lt, Int64.lt_iff_toInt_lt, Int64.toInt_zero]
        omega
      · exact hi
    · cases hs

/-- **The count of an instance is the number of its open trackers**, along every run whose updates
list the instances with open trackers. -/
theorem exact_of_lasting {tr : List TrackerAct} (hrun : lts.Run Lasting tr s) : s.Exact := by
  have h : ∀ id, (s.lb.count id).toInt = s.numOpen id := by
    refine hrun.invariant (I := fun s => ∀ id, (s.lb.count id).toInt = s.numOpen id) ?_ ?_
    · rintro _ ⟨strategy, rfl⟩ id
      rfl
    · rintro s a s' h hok hs
      exact counted_step h hok hs
  exact fun inst _ => h inst.id

/-- A lasting step, checked by evaluation. -/
def lasting (s : Tracked) : TrackerAct → Bool
  | .updateInstances instances =>
    s.trackers.all fun t => !t.2 || instances.any fun inst => inst.id = t.1
  | .create id => decide (s.numOpen id + 1 < 2 ^ 63)
  | .close _ => true

theorem lasting_of_check {a : TrackerAct} (h : s.lasting a = true) : s.Lasting a := by
  cases a with
  | updateInstances instances =>
    intro id hpos
    have := List.all_eq_true.1 h _ (List.count_pos_iff.1 hpos)
    simpa using this
  | create id => exact of_decide_eq_true (p := s.numOpen id + 1 < 2 ^ 63) h
  | close t => trivial

/-- Two connections to `a`, of which one is closed, while `b` comes and goes. -/
def visits : List TrackerAct :=
  [.updateInstances [.plain "a"], .create "a", .create "a",
    .updateInstances [.plain "a", .plain "b"], .close 0, .updateInstances [.plain "a"]]

/-- A connection to `a` is open while `a` leaves the list and returns. -/
def absence : List TrackerAct :=
  [.updateInstances [.plain "a"], .create "a", .updateInstances [], .updateInstances [.plain "a"]]

theorem exact_after_visits :
    ∃ s, lts.Run Lasting visits s ∧ s.lb.instances.map ServiceInstance.id = ["a"] ∧
      s.numOpen "a" = 1 ∧ s.Exact := by
  refine LTS.exists_checked_run (A := lts) (fun _ _ _ h => h) (fun _ _ => lasting_of_check)
    ⟨.leastConn, rfl⟩ _
    (P := fun s => s.lb.instances.map ServiceInstance.id = ["a"] ∧ s.numOpen "a" = 1)
    (by decide) fun s hrun hs => ?_
  exact ⟨hs.1, hs.2, exact_of_lasting hrun⟩

/-- The count starts again at zero although the connection is still open. -/
theorem forgotten :
    ∃ s, lts.Run LTS.anyStep absence s ∧ s.lb.instances.map ServiceInstance.id = ["a"] ∧
      s.numOpen "a" = 1 ∧ s.lb.count "a" = 0 ∧ ¬ s.Exact := by
  refine LTS.exists_run_of_exec (A := lts) (f := step) (fun _ _ _ h => h) ⟨.leastConn, rfl⟩ _
    (P := fun s => s.lb.instances.map ServiceInstance.id = ["a"] ∧ s.numOpen "a" = 1 ∧
      s.lb.count "a" = 0) (by decide) fun s hrun hs => ?_
  obtain ⟨hids, hopen, hcount⟩ := hs
  refine ⟨hids, hopen, hcount, fun hex => ?_⟩
  obtain ⟨inst, hmem, hid⟩ := List.mem_map.1 (hids ▸ List.mem_singleton_self "a")
  have := hex inst hmem
  rw [hid, hopen, hcount] at this
  exact absurd this (by decide)

end Tracked

end Discovery

end GinRpc
