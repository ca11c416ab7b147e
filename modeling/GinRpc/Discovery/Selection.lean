import GinRpc.Discovery.LoadBalancer

/-!
# Selecting an instance

When does `NextInstance` return an instance of its list?

* `LoadBalancer.Selects` : whatever is drawn, it returns a member of the list.
* `LoadBalancer.Fits` : the arithmetic of the strategy stays inside of its limits.
* `LoadBalancer.selects_iff_fits` : on a list that is not empty these are the same, along every run
  whose `UpdateInstances` calls leave the cursor of round robin inside of the list.
* `LoadBalancer.panics_after_shrinking` : the cursor survives an update, and is used as it is.
-/

namespace GinRpc

namespace Discovery

theorem index_eq_ok {l : List ServiceInstance} {i : ℤ} (h₀ : 0 ≤ i) (h : i < l.length) :
    ∃ inst ∈ l, index l i = .ok (some inst) := by
  have hlt : i.toNat < l.length := by omega
  refine ⟨l[i.toNat], List.getElem_mem hlt, ?_⟩
  rw [index, if_pos ⟨h₀, h⟩, List.getElem?_eq_getElem hlt]

theorem index_eq_panic {l : List ServiceInstance} {i : ℤ} (h : ¬ (0 ≤ i ∧ i < l.length)) :
    index l i = .panic :=
  if_neg h

/-- The weighted draw returns an instance of the list, or none. -/
theorem mem_of_draw {l : List ServiceInstance} {target : Int64} {inst : ServiceInstance}
    (h : draw l target = some inst) : inst ∈ l := by
  induction l generalizing target with
  | nil => cases h
  | cons a l ih =>
    unfold draw at h
    dsimp only at h
    split_ifs at h
    · exact Option.some.inj h ▸ List.mem_cons_self
    · exact List.mem_cons_of_mem _ (ih h)

namespace LoadBalancer

variable {lb : LoadBalancer} {clientIP : Text}

/-- Whatever is drawn, the selection returns a member of the list. -/
def Selects (lb : LoadBalancer) (clientIP : Text) : Prop :=
  ∀ r, ∃ inst ∈ lb.instances, (lb.nextInstance clientIP r).2 = .ok (some inst)

/-- The arithmetic of the strategy stays inside of its limits: the sum of the weights is positive
after wrapping, an instance has fewer connections than the greatest `int`, and the hash of the
address has an absolute value (or its remainder is zero). -/
def Fits (lb : LoadBalancer) (clientIP : Text) : Prop :=
  match lb.strategy with
  | .weightedRandom => 0 < totalWeight lb.instances
  | .leastConn => ∃ inst ∈ lb.instances, lb.count inst.id < Int64.maxValue
  | .ipHash => hashIP clientIP ≠ Int64.minValue ∨ lb.instances.length ∣ 2 ^ 63
  | _ => True

/-! ### The strategies -/

theorem roundRobin_eq_ok (h : lb.currentIndex < lb.instances.length) :
    ∃ inst ∈ lb.instances, lb.roundRobin.2 = .ok (some inst) := by
  obtain ⟨inst, hmem, hok⟩ := index_eq_ok (i := lb.currentIndex) (Int.natCast_nonneg _)
    (Int.ofNat_lt.2 h)
  refine ⟨inst, hmem, ?_⟩
  rw [roundRobin, hok]

theorem random_eq_ok (hne : lb.instances ≠ []) (r : ℕ) :
    ∃ inst ∈ lb.instances, lb.random r = .ok (some inst) := by
  have hpos := List.length_pos_iff.2 hne
  rw [random, intn, if_neg (by omega)]
  refine index_eq_ok (Int.natCast_nonneg _) (Int.ofNat_lt.2 ?_)
  exact Nat.mod_lt _ hpos

/-- If the generator can draw, an instance is found. -/
theorem weightedRandom_eq_ok_iff (hne : lb.instances ≠ []) (r : ℕ) :
    (∃ inst ∈ lb.instances, lb.weightedRandom r = .ok (some inst)) ↔
      0 < totalWeight lb.instances := by
  have hpos := List.length_pos_iff.2 hne
  rw [weightedRandom, intn]
  split_ifs with hle
  · refine iff_of_false (fun ⟨_, _, h⟩ => nomatch h) fun hlt => ?_
    rw [Int64.lt_iff_toInt_lt] at hlt
    exact absurd hlt (not_lt.2 hle)
  · refine iff_of_true ?_ ?_
    · dsimp only
      split
      next inst h => exact ⟨inst, mem_of_draw h, rfl⟩
      · exact index_eq_ok (by omega) (by omega)
    · rw [Int64.lt_iff_toInt_lt]
      exact not_le.1 hle

/-- The loop of `leastConn` finds an instance if there is one with few enough connections. -/
theorem foldl_leastStep (lb : LoadBalancer) (l : List ServiceInstance)
    (best : Int64 × Option ServiceInstance) :
    (l.foldl lb.leastStep best).2 = best.2 ∧ (∀ inst ∈ l, ¬ lb.count inst.id < best.1) ∨
      ∃ inst ∈ l, (l.foldl lb.leastStep best).2 = some inst ∧
        ∃ inst ∈ l, lb.count inst.id < best.1 := by
  induction l generalizing best with
  | nil => exact .inl ⟨rfl, nofun⟩
  | cons a l ih =>
    rw [List.foldl_cons, leastStep]
    split_ifs with ha
    · refine .inr ?_
      obtain ⟨h, -⟩ | ⟨inst, hmem, h, -⟩ := ih (lb.count a.id, some a)
      · exact ⟨a, List.mem_cons_self, h, a, List.mem_cons_self, ha⟩
      · exact ⟨inst, List.mem_cons_of_mem _ hmem, h, a, List.mem_cons_self, ha⟩
    · obtain ⟨h, hall⟩ | ⟨inst, hmem, h, d, hd, hlt⟩ := ih best
      · exact .inl ⟨h, List.forall_mem_cons.2 ⟨ha, hall⟩⟩
      · exact .inr ⟨inst, List.mem_cons_of_mem _ hmem, h, d, List.mem_cons_of_mem _ hd, hlt⟩

theorem leastConn_eq_ok_iff :
    (∃ inst ∈ lb.instances, lb.leastConn = .ok (some inst)) ↔
      ∃ inst ∈ lb.instances, lb.count inst.id < Int64.maxValue := by
  rw [leastConn]
  obtain ⟨h, hall⟩ | ⟨inst, hmem, h, hex⟩ :=
    foldl_leastStep lb lb.instances (Int64.maxValue, none)
  · rw [h]
    exact iff_of_false (fun ⟨_, _, h⟩ => nomatch h) fun ⟨d, hd, hlt⟩ => hall d hd hlt
  · rw [h]
    exact iff_of_true ⟨inst, hmem, rfl⟩ hex

/-- The sign of a number can be dropped, except for the smallest one. -/
theorem toInt_abs_nonneg {h : Int64} (hne : h ≠ Int64.minValue) :
    0 ≤ (if h < 0 then -h else h).toInt := by
  have hmin : h.toInt ≠ -2 ^ 63 := fun heq =>
    hne (Int64.toInt_inj.1 (heq.trans Int64.toInt_minValue.symm))
  have hlow := Int64.le_toInt h
  have hhigh := Int64.toInt_lt h
  split_ifs with hneg
  · rw [Int64.lt_iff_toInt_lt, Int64.toInt_zero] at hneg
    rw [Int64.toInt_neg, Int.bmod_eq_of_le] <;> omega
  · rw [Int64.lt_iff_toInt_lt, Int64.toInt_zero] at hneg
    omega

theorem ipHash_eq_ok_iff (hne : lb.instances ≠ []) :
    (∃ inst ∈ lb.instances, lb.ipHash clientIP = .ok (some inst)) ↔
      hashIP clientIP ≠ Int64.minValue ∨ lb.instances.length ∣ 2 ^ 63 := by
  have hpos : 0 < (lb.instances.length : ℤ) := Int.ofNat_lt.2 (List.length_pos_iff.2 hne)
  rw [ipHash]
  split_ifs with hip
  · rw [hip]
    exact iff_of_true (index_eq_ok le_rfl hpos) (.inl (by decide))
  · dsimp only
    by_cases hmin : hashIP clientIP = Int64.minValue
    · -- `-hash` is the hash itself
      have hmod : (-2 ^ 63 : ℤ).tmod lb.instances.length = -(2 ^ 63 % lb.instances.length : ℕ) := by
        rw [Int.neg_tmod]
        rfl
      rw [hmin, if_pos (by decide), show (-Int64.minValue).toInt = -2 ^ 63 by decide, hmod,
        Nat.dvd_iff_mod_eq_zero]
      constructor
      · rintro ⟨inst, -, h⟩
        refine .inr ?_
        by_contra hmod
        rw [index_eq_panic (by omega)] at h
        cases h
      · rintro (h | h)
        · exact absurd rfl h
        · rw [h]
          exact index_eq_ok le_rfl hpos
    · have hnonneg := toInt_abs_nonneg hmin
      exact iff_of_true (index_eq_ok (Int.tmod_nonneg _ hnonneg) (Int.tmod_lt_of_pos _ hpos))
        (.inl hmin)

/-! ### Runs -/

/-- An update leaves the cursor inside of the list. -/
def Covers (lb : LoadBalancer) : Call → Prop
  | .updateInstances instances => instances ≠ [] → lb.currentIndex < instances.length
  | _ => True

/-- Where the cursor is. -/
def Inside (lb : LoadBalancer) : Prop :=
  lb.instances ≠ [] → lb.currentIndex < lb.instances.length

theorem Inside.roundRobin (h : lb.Inside) (hne : lb.instances ≠ []) : lb.roundRobin.1.Inside := by
  obtain ⟨inst, -, hok⟩ := index_eq_ok (l := lb.instances) (i := lb.currentIndex)
    (Int.natCast_nonneg _) (Int.ofNat_lt.2 (h hne))
  rw [LoadBalancer.roundRobin, hok]
  exact fun hne => Nat.mod_lt _ (List.length_pos_iff.2 hne)

theorem Inside.apply (h : lb.Inside) {call : Call} (hok : lb.Covers call) :
    (lb.apply call).Inside := by
  cases call with
  | updateInstances instances => exact hok
  | setStrategy strategy => exact fun hne => List.length_pos_iff.2 hne
  | incrementConnections id => exact h
  | decrementConnections id =>
    rw [LoadBalancer.apply, decrementConnections]
    split_ifs
    · exact h
    · exact h
  | nextInstance clientIP r =>
    rw [LoadBalancer.apply, nextInstance]
    split_ifs with hne
    · exact h
    · cases lb.strategy with
      | roundRobin => exact h.roundRobin hne
      | other name => exact h.roundRobin hne
      | _ => exact h

/-- **`NextInstance` returns a member of the list exactly if the arithmetic of its strategy stays
inside of its limits**, along every run whose updates leave the cursor inside of the list. -/
theorem selects_iff_fits {tr : List Call} (hrun : lts.Run Covers tr lb) (hne : lb.instances ≠ [])
    (clientIP : Text) : lb.Selects clientIP ↔ lb.Fits clientIP := by
  have hin : lb.Inside := by
    refine hrun.invariant (I := Inside) ?_ ?_
    · rintro _ ⟨strategy, rfl⟩ h
      exact absurd rfl h
    · rintro lb call _ h hok rfl
      exact h.apply hok
  have hrr := roundRobin_eq_ok (hin hne)
  simp only [Selects, Fits, nextInstance, if_neg hne]
  cases lb.strategy with
  | roundRobin | other => exact iff_of_true (fun _ => hrr) trivial
  | random => exact iff_of_true (random_eq_ok hne) trivial
  | weightedRandom => exact ⟨fun h => (weightedRandom_eq_ok_iff hne 0).1 (h 0),
      fun h r => (weightedRandom_eq_ok_iff hne r).2 h⟩
  | leastConn => exact ⟨fun h => leastConn_eq_ok_iff.1 (h 0), fun h _ => leastConn_eq_ok_iff.2 h⟩
  | ipHash => exact ⟨fun h => (ipHash_eq_ok_iff hne).1 (h 0),
      fun h _ => (ipHash_eq_ok_iff hne).2 h⟩

-- an address whose hash has no absolute value
example : hashIP "7jym9j95y10jf" = Int64.minValue := by decide

instance (lb : LoadBalancer) (call : Call) : Decidable (lb.Covers call) := by
  cases call with
  | updateInstances instances =>
    exact inferInstanceAs (Decidable (instances ≠ [] → lb.currentIndex < instances.length))
  | _ => exact .isTrue trivial

/-- Two of three instances have been selected, and the list shrinks to `rest`. -/
def shrinkTo (rest : List ServiceInstance) : List Call :=
  [.updateInstances [.plain "a", .plain "b", .plain "c"], .nextInstance [] 0, .nextInstance [] 0,
    .updateInstances rest]

theorem selects_after_shrinking :
    ∃ lb, lts.Run Covers (shrinkTo [.plain "c", .plain "b", .plain "a"]) lb ∧ lb.instances ≠ [] ∧
      ∀ clientIP, lb.Selects clientIP ↔ lb.Fits clientIP := by
  exact LTS.exists_decided_run lts Covers (f := fun lb call => some (lb.apply call))
    (fun _ _ _ h => Option.some.inj h) _ ⟨.roundRobin, rfl⟩ _ (by decide)
    fun lb hrun hne => ⟨hne, selects_iff_fits hrun hne⟩

/-- One instance is left, and round robin asks for the third one. -/
theorem panics_after_shrinking :
    ∃ lb, lts.Run LTS.anyStep (shrinkTo [.plain "a"]) lb ∧
      lb.instances.map ServiceInstance.id = ["a"] ∧
      (lb.nextInstance [] 0).2 = .panic ∧ ¬ lb.Selects [] := by
  refine LTS.exists_run_of_exec (A := lts) (f := fun lb call => some (lb.apply call))
    (fun _ _ _ h => Option.some.inj h) ⟨.roundRobin, rfl⟩ _
    (P := fun lb => lb.instances.map ServiceInstance.id = ["a"] ∧
      (lb.nextInstance [] 0).2 = .panic) (by decide) fun lb hrun h => ?_
  refine ⟨h.1, h.2, fun hsel => ?_⟩
  obtain ⟨inst, -, hok⟩ := hsel 0
  rw [h.2] at hok
  cases hok

end LoadBalancer

end Discovery

end GinRpc
