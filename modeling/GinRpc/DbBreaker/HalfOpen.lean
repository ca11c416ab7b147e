import GinRpc.DbBreaker.Basic

/-!
# The half-open state of the database breaker

`canExecute` counts the requests it admits in the half-open state, but not the one that makes the
circuit half-open, and nobody takes a returned request off the count.

* `Sys.Bounded` : at most `HalfOpenMaxRequests` requests of the current half-open period are in
  flight.
* `Sys.Recovers` : in the half-open state without a request in flight, the next one is admitted.
* `halfOpen_exceeds` : whatever the settings, some run admits one request more; and if the
  successes that are needed are more than the requests that are ever admitted, some run ends in a
  half-open state that rejects every request.
-/

namespace GinRpc

namespace DbBreaker

namespace Sys

variable {σ : Settings} {s s' : Sys} {i : ℕ}

/-- The request was admitted in the current half-open period. -/
def Admitted (s : Sys) (i : ℕ) : Prop := ∃ a ∈ s.admissions, a.goroutine = i ∧ a.period = s.period

/-- At most `HalfOpenMaxRequests` requests of a half-open period are in flight. -/
def Bounded (σ : Settings) (s : Sys) : Prop :=
  s.cb.state = .halfOpen →
    ∀ l : List ℕ, l.Nodup → (∀ i ∈ l, (s.pc i).inFlight = true ∧ s.Admitted i) →
      l.length ≤ σ.halfOpenMaxRequests.toNat

/-- Every goroutine is before or after its call. -/
def Quiet (s : Sys) : Prop := ∀ i, s.pc i = .idle ∨ s.pc i = .done

/-- In the half-open state without a request in flight the next `canExecute` admits. -/
def Recovers (σ : Settings) (s : Sys) : Prop :=
  s.cb.state = .halfOpen → s.Quiet → ∀ i, s.pc i = .idle →
    ∃ s', LTS.exec (fun s a => s.step σ a) s [.step i, .step i] = some s' ∧ s'.pc i = .running

/-- Only requests, and the passing of time. -/
def Requests (_ : Sys) : Act → Prop
  | .step _ | .returned _ _ | .tick _ => True
  | _ => False

/-- Some interleaving of requests ends here. -/
def Reaches (σ : Settings) (s : Sys) : Prop := ∃ tr, (lts σ).Run Requests tr s

theorem reaches_init : Reaches σ { now := 0 } := ⟨[], .nil ⟨0, rfl⟩⟩

theorem Reaches.step (h : Reaches σ s) {r : CircuitBreaker × Pc}
    (hex : s.cb.exec σ s.now (s.pc i) = some r) : Reaches σ (s.move i r.1 r.2) := by
  obtain ⟨tr, hrun⟩ := h
  refine ⟨_, hrun.extend (.step i) trivial ?_⟩
  change (s.cb.exec σ s.now (s.pc i)).map _ = _
  rw [hex]
  rfl

theorem Reaches.returned (h : Reaches σ s) (hi : s.pc i = .running) (failed : Bool) :
    Reaches σ { s with pc := Function.update s.pc i (.record failed) } := by
  obtain ⟨tr, hrun⟩ := h
  exact ⟨_, hrun.extend (.returned i failed) trivial (if_pos hi)⟩

theorem Reaches.tick (h : Reaches σ s) (d : ℕ) : Reaches σ { s with now := s.now + d } := by
  obtain ⟨tr, hrun⟩ := h
  exact ⟨_, hrun.extend (.tick d) trivial rfl⟩

/-- Some operations of one goroutine. -/
def Solo (σ : Settings) (now : ℤ) : CircuitBreaker × Pc → CircuitBreaker × Pc → Prop :=
  Relation.ReflTransGen fun r r' => r.1.exec σ now r.2 = some r'

/-- What a goroutine leaves as it was. -/
structure Frame (s s' : Sys) (i : ℕ) : Prop where
  now : s'.now = s.now
  others : ∀ j, j ≠ i → s'.pc j = s.pc j
  admissions : s.admissions ⊆ s'.admissions

theorem frame_move (s : Sys) (i : ℕ) (r : CircuitBreaker × Pc) : Frame s (s.move i r.1 r.2) i where
  now := rfl
  others j hj := by rw [pc_move, if_neg hj]
  admissions a ha := by
    unfold move
    dsimp only
    split_ifs
    all_goals first | exact ha | exact List.mem_cons_of_mem _ ha

theorem Frame.trans {s₁ s₂ s₃ : Sys} (h : Frame s₁ s₂ i) (h' : Frame s₂ s₃ i) : Frame s₁ s₃ i where
  now := h'.now.trans h.now
  others j hj := (h'.others j hj).trans (h.others j hj)
  admissions := List.Subset.trans h.admissions h'.admissions

theorem Reaches.solo (h : Reaches σ s) {r : CircuitBreaker × Pc}
    (hs : Solo σ s.now (s.cb, s.pc i) r) :
    ∃ s', Reaches σ s' ∧ s'.cb = r.1 ∧ s'.pc i = r.2 ∧ Frame s s' i := by
  induction hs with
  | refl => exact ⟨s, h, rfl, rfl, rfl, fun _ _ => rfl, List.Subset.refl _⟩
  | @tail r r' _ hex ih =>
    obtain ⟨s₁, h₁, hcb, hpc, hf⟩ := ih
    have hex' : s₁.cb.exec σ s₁.now (s₁.pc i) = some r' := by rw [hcb, hpc, hf.now, hex]
    refine ⟨_, h₁.step hex', rfl, ?_, hf.trans (frame_move s₁ i r')⟩
    rw [pc_move, if_pos rfl]

/-! ### Runs of any length -/

theorem toNat_ofNat {n : ℕ} {m : UInt32} (h : n ≤ m.toNat) : (UInt32.ofNat n).toNat = n :=
  UInt32.toNat_ofNat_of_lt' (lt_of_le_of_lt h m.toNat_lt)

theorem ofNat_succ (n : ℕ) : UInt32.ofNat n + 1 = UInt32.ofNat (n + 1) := by
  rw [UInt32.ofNat_add]
  rfl

theorem ofNat_le {n : ℕ} {m : UInt32} (h : n ≤ m.toNat) : ¬ UInt32.ofNat n > m := by
  rw [gt_iff_lt, UInt32.lt_iff_toNat_lt, toNat_ofNat h]
  omega

theorem not_le_ofNat {n : ℕ} {m : UInt32} (h : n < m.toNat) : ¬ UInt32.ofNat n ≥ m := by
  rw [ge_iff_le, UInt32.le_iff_toNat_le, toNat_ofNat h.le]
  omega

/-- `n` requests have failed, and the circuit is still closed. -/
structure Failing (σ : Settings) (n : ℕ) (s : Sys) : Prop where
  reaches : Reaches σ s
  cb : s.cb = { failures := UInt32.ofNat n }
  now : s.now = 0
  fresh : ∀ i, n ≤ i → s.pc i = .idle
  quiet : s.Quiet

/-- A request that fails in the closed state comes to count its failure. -/
theorem Failing.count {n : ℕ} (h : Failing σ n s) :
    ∃ s', Reaches σ s' ∧ s'.cb = s.cb ∧ s'.pc n = .addFailure ∧ Frame s s' n := by
  have hload : Solo σ s.now (s.cb, s.pc n) (s.cb, .running) := by
    refine .single ?_
    rw [h.fresh n le_rfl, h.cb]
    rfl
  obtain ⟨s₁, h₁, hcb₁, hpc₁, hf₁⟩ := h.reaches.solo hload
  have h₂ := h₁.returned hpc₁ true
  have hrecord : Solo σ s₁.now (s₁.cb, Function.update s₁.pc n (.record true) n)
      (s₁.cb, .addFailure) := by
    refine .single ?_
    rw [Function.update_self, hcb₁, h.cb]
    rfl
  obtain ⟨s₃, h₃, hcb₃, hpc₃, hf₃⟩ := h₂.solo hrecord
  refine ⟨s₃, h₃, hcb₃.trans hcb₁, hpc₃, hf₃.now.trans hf₁.now, fun j hj => ?_,
    List.Subset.trans hf₁.admissions hf₃.admissions⟩
  rw [hf₃.others j hj]
  change Function.update s₁.pc n _ j = _
  rw [Function.update_of_ne hj, hf₁.others j hj]

theorem Quiet.frame (h : s.Quiet) (hf : Frame s s' i) (hi : s'.pc i = .done) : s'.Quiet := by
  intro j
  by_cases hj : j = i
  · rw [hj]
    exact .inr hi
  · rw [hf.others j hj]
    exact h j

theorem exists_failing : ∀ n, n < σ.maxFailures.toNat → ∃ s, Failing σ n s
  | 0, _ => ⟨_, reaches_init, rfl, rfl, fun _ _ => rfl, fun _ => .inl rfl⟩
  | n + 1, hn => by
    obtain ⟨s, h⟩ := exists_failing n (by omega)
    obtain ⟨s₁, h₁, hcb₁, hpc₁, hf₁⟩ := h.count
    have hadd : Solo σ s₁.now (s₁.cb, s₁.pc n) ({ failures := UInt32.ofNat (n + 1) }, .done) := by
      refine .single ?_
      rw [hpc₁, hcb₁, h.cb, CircuitBreaker.exec]
      dsimp only
      rw [ofNat_succ, if_neg (not_le_ofNat hn)]
    obtain ⟨s₂, h₂, hcb₂, hpc₂, hf₂⟩ := h₁.solo hadd
    have hf := hf₁.trans hf₂
    exact ⟨s₂, h₂, hcb₂, hf.now.trans h.now, fun i hi => (hf.others i (by omega)).trans
      (h.fresh i (by omega)), h.quiet.frame hf hpc₂⟩

/-- The circuit has just been opened, and requests from `m` on have not begun. -/
theorem exists_opened : ∃ s m, Reaches σ s ∧ s.cb = { state := .opened } ∧ s.now = 0 ∧
    (∀ i, m ≤ i → s.pc i = .idle) ∧ s.Quiet := by
  have hpos := σ.maxFailures_pos
  obtain ⟨n, hn⟩ := Nat.exists_eq_succ_of_ne_zero hpos.ne'
  obtain ⟨s, h⟩ := exists_failing (σ := σ) n (by omega)
  obtain ⟨s₁, h₁, hcb₁, hpc₁, hf₁⟩ := h.count
  have hfull : UInt32.ofNat n + 1 ≥ σ.maxFailures := by
    rw [ofNat_succ, ge_iff_le, UInt32.le_iff_toNat_le, toNat_ofNat hn.ge]
    exact hn.le
  have hnow : s₁.now = 0 := hf₁.now.trans h.now
  have htrip : Solo σ s₁.now (s₁.cb, s₁.pc n) ({ state := .opened }, .done) := by
    rw [hpc₁, hcb₁, h.cb, hnow]
    refine .head (b := ({ failures := UInt32.ofNat n + 1 }, .casOpen)) ?_ <|
      .head (b := ({ state := .opened, failures := UInt32.ofNat n + 1 }, .openTime)) rfl <|
      .head (b := ({ state := .opened, failures := UInt32.ofNat n + 1 }, .openFailures)) rfl <|
      .single rfl
    exact if_pos hfull
  obtain ⟨s₂, h₂, hcb₂, hpc₂, hf₂⟩ := h₁.solo htrip
  have hf := hf₁.trans hf₂
  exact ⟨s₂, n + 1, h₂, hcb₂, hf.now.trans h.now, fun i hi => (hf.others i (by omega)).trans
    (h.fresh i (by omega)), h.quiet.frame hf hpc₂⟩

theorem period_move (hs : s.cb.state = .halfOpen) (cb : CircuitBreaker) (pc : Pc) :
    (s.move i cb pc).period = s.period :=
  if_neg fun h => h.1 hs

theorem admitted_move (r : CircuitBreaker × Pc) (hi : (s.pc i).inFlight = false)
    (hp : r.2.inFlight = true) : (s.move i r.1 r.2).Admitted i := by
  refine ⟨⟨i, s.now, s.openedAt, (s.move i r.1 r.2).period⟩, ?_, rfl, rfl⟩
  change _ ∈ if _ then _ else _
  rw [if_pos ⟨hi, hp⟩]
  exact List.mem_cons_self

theorem Admitted.frame {j : ℕ} (h : s.Admitted j) (hf : Frame s s' i)
    (hp : s'.period = s.period) : s'.Admitted j := by
  obtain ⟨a, ha, hg, hper⟩ := h
  exact ⟨a, hf.admissions ha, hg, hper.trans hp.symm⟩

/-- Some operations of one goroutine in the half-open state. -/
def SoloHalf (σ : Settings) (now : ℤ) : CircuitBreaker × Pc → CircuitBreaker × Pc → Prop :=
  Relation.ReflTransGen fun r r' => r.1.state = .halfOpen ∧ r.1.exec σ now r.2 = some r'

/-- One goroutine runs alone in the half-open state: the period stays, and if the goroutine comes
to be in flight it has been admitted. -/
theorem Reaches.soloHalf (h : Reaches σ s) {r : CircuitBreaker × Pc}
    (hs : SoloHalf σ s.now (s.cb, s.pc i) r) :
    ∃ s', Reaches σ s' ∧ s'.cb = r.1 ∧ s'.pc i = r.2 ∧ Frame s s' i ∧ s'.period = s.period ∧
      (r.2.inFlight = true → (s.pc i).inFlight = true ∨ s'.Admitted i) := by
  induction hs with
  | refl => exact ⟨s, h, rfl, rfl, ⟨rfl, fun _ _ => rfl, List.Subset.refl _⟩, rfl, .inl⟩
  | @tail r r' _ hex ih =>
    obtain ⟨s₁, h₁, hcb, hpc, hf, hper, hadm⟩ := ih
    have hex' : s₁.cb.exec σ s₁.now (s₁.pc i) = some r' := by rw [hcb, hpc, hf.now, hex.2]
    have hmove : (s₁.move i r'.1 r'.2).period = s₁.period :=
      period_move (by rw [hcb]; exact hex.1) _ _
    refine ⟨_, h₁.step hex', rfl, by rw [pc_move, if_pos rfl], hf.trans (frame_move s₁ i r'),
      hmove.trans hper, fun hr => ?_⟩
    cases hin : r.2.inFlight with
    | true => exact (hadm hin).imp_right fun ha => ha.frame (frame_move s₁ i r') hmove
    | false => exact .inr (admitted_move r' (by rw [hpc]; exact hin) hr)

/-- The request `m` has made the circuit half-open, and `k` more are running. -/
structure Probing (σ : Settings) (m k : ℕ) (s : Sys) : Prop where
  reaches : Reaches σ s
  cb : s.cb = { state := .halfOpen, requests := UInt32.ofNat k }
  running : ∀ j, j ≤ k → s.pc (m + j) = .running
  admitted : ∀ j, j ≤ k → s.Admitted (m + j)
  before : ∀ i, i < m → s.pc i = .idle ∨ s.pc i = .done
  fresh : ∀ i, m + k < i → s.pc i = .idle

/-- The request that makes the circuit half-open is not counted. -/
theorem exists_probing_zero : ∃ s m, Probing σ m 0 s := by
  obtain ⟨s₀, m, h₀, hcb₀, hnow₀, hfresh₀, hquiet₀⟩ := exists_opened (σ := σ)
  have h₁ := h₀.tick σ.resetTimeout.toNat
  have hdue : s₀.now + σ.resetTimeout.toNat - 0 ≥ σ.resetTimeout := by omega
  have hload : Solo σ (s₀.now + σ.resetTimeout.toNat) (s₀.cb, s₀.pc m) (s₀.cb, .casHalfOpen) := by
    rw [hfresh₀ m le_rfl, hcb₀]
    refine .head (b := ({ state := .opened }, .loadTime)) rfl <|
      .head (b := ({ state := .opened }, .checkTime 0)) rfl <| .single ?_
    exact if_pos hdue
  obtain ⟨s₂, h₂, hcb₂, hpc₂, hf₂⟩ := h₁.solo hload
  have hcas : s₂.cb.exec σ s₂.now (s₂.pc m) =
      some ({ state := .halfOpen }, .halfOpenSuccesses) := by
    rw [hpc₂, hcb₂.trans hcb₀]
    rfl
  have hadm := admitted_move (i := m) (s := s₂) ({ state := .halfOpen }, .halfOpenSuccesses)
    (by rw [hpc₂]; rfl) rfl
  have hf₃ := frame_move s₂ m ({ state := .halfOpen }, .halfOpenSuccesses)
  have hpc₃ : (s₂.move m { state := .halfOpen } .halfOpenSuccesses).pc m = .halfOpenSuccesses := by
    rw [pc_move, if_pos rfl]
  have hstores : SoloHalf σ s₂.now ({ state := .halfOpen },
      (s₂.move m { state := .halfOpen } .halfOpenSuccesses).pc m)
      ({ state := .halfOpen }, .running) := by
    rw [hpc₃]
    exact .head (b := ({ state := .halfOpen }, .halfOpenRequests)) ⟨rfl, rfl⟩ (.single ⟨rfl, rfl⟩)
  obtain ⟨s₄, h₄, hcb₄, hpc₄, hf₄, hper₄, -⟩ := (h₂.step hcas).soloHalf hstores
  have hothers : ∀ j, j ≠ m → s₄.pc j = s₀.pc j := fun j hj =>
    (hf₄.others j hj).trans ((hf₃.others j hj).trans (hf₂.others j hj))
  refine ⟨s₄, m, h₄, hcb₄, fun j hj => ?_, fun j hj => ?_, fun i hi => ?_, fun i hi => ?_⟩
  · obtain rfl : j = 0 := by omega
    exact hpc₄
  · obtain rfl : j = 0 := by omega
    exact hadm.frame hf₄ hper₄
  · rw [hothers i (by omega)]
    exact hquiet₀ i
  · rw [hothers i (by omega)]
    exact hfresh₀ i (by omega)

/-- One more request is admitted and counted. -/
theorem Probing.next {m k : ℕ} (h : Probing σ m k s) (hk : k < σ.halfOpenMaxRequests.toNat) :
    ∃ s', Probing σ m (k + 1) s' := by
  have hsolo : SoloHalf σ s.now (s.cb, s.pc (m + (k + 1)))
      ({ state := .halfOpen, requests := UInt32.ofNat (k + 1) }, .running) := by
    rw [h.fresh (m + (k + 1)) (by omega), h.cb]
    refine .head (b := ({ state := .halfOpen, requests := UInt32.ofNat k }, .addRequest))
      ⟨rfl, rfl⟩ (.single ⟨rfl, ?_⟩)
    rw [CircuitBreaker.exec]
    dsimp only
    rw [ofNat_succ, if_neg (ofNat_le hk)]
  obtain ⟨s', h', hcb, hpc, hf, hper, hadm⟩ := h.reaches.soloHalf hsolo
  refine ⟨s', h', hcb, fun j hj => ?_, fun j hj => ?_, fun i hi => ?_, fun i hi => ?_⟩
  · obtain rfl | hj := Nat.eq_or_lt_of_le hj
    · exact hpc
    · rw [hf.others _ (by omega)]
      exact h.running j (by omega)
  · obtain rfl | hj := Nat.eq_or_lt_of_le hj
    · refine (hadm rfl).resolve_left ?_
      rw [h.fresh _ (by omega)]
      decide
    · exact (h.admitted j (by omega)).frame hf hper
  · rw [hf.others i (by omega)]
    exact h.before i hi
  · rw [hf.others i (by omega)]
    exact h.fresh i (by omega)

theorem exists_probing : ∀ k, k ≤ σ.halfOpenMaxRequests.toNat → ∃ s m, Probing σ m k s
  | 0, _ => exists_probing_zero
  | k + 1, hk => by
    obtain ⟨s, m, h⟩ := exists_probing k (by omega)
    obtain ⟨s', h'⟩ := h.next (by omega)
    exact ⟨s', m, h'⟩

/-- One request too many is in flight. -/
theorem Probing.not_bounded {m : ℕ} (h : Probing σ m σ.halfOpenMaxRequests.toNat s) :
    ¬ s.Bounded σ := by
  intro hb
  have hlen := hb (by rw [h.cb]) (List.range' m (σ.halfOpenMaxRequests.toNat + 1))
    List.nodup_range' fun i hi => ?_
  · rw [List.length_range'] at hlen
    omega
  · obtain ⟨j, hj, rfl⟩ := List.mem_range'.1 hi
    rw [Nat.one_mul]
    exact ⟨by rw [h.running j (by omega)]; rfl, h.admitted j (by omega)⟩

/-- The half-open breaker with all requests and `j` successes counted. -/
def counted (σ : Settings) (j : ℕ) : CircuitBreaker where
  state := .halfOpen
  successes := UInt32.ofNat j
  requests := UInt32.ofNat σ.halfOpenMaxRequests.toNat

/-- All requests of the period are counted, and the first `j` have returned with success. -/
structure Draining (σ : Settings) (m j : ℕ) (s : Sys) : Prop where
  reaches : Reaches σ s
  cb : s.cb = counted σ j
  running : ∀ i, j ≤ i → i ≤ σ.halfOpenMaxRequests.toNat → s.pc (m + i) = .running
  returned : ∀ i, i < j → s.pc (m + i) = .done
  before : ∀ i, i < m → s.pc i = .idle ∨ s.pc i = .done
  fresh : ∀ i, m + σ.halfOpenMaxRequests.toNat < i → s.pc i = .idle

/-- One more request returns with success. -/
theorem Draining.next {m j : ℕ} (h : Draining σ m j s) (hj : j ≤ σ.halfOpenMaxRequests.toNat)
    (hlt : j + 1 < σ.successThreshold.toNat) : ∃ s', Draining σ m (j + 1) s' := by
  have h₁ := h.reaches.returned (h.running j le_rfl hj) false
  have hsolo : SoloHalf σ s.now (s.cb, Function.update s.pc (m + j) (.record false) (m + j))
      (counted σ (j + 1), .done) := by
    rw [Function.update_self, h.cb]
    refine .head (b := (counted σ j, .addSuccess)) ⟨rfl, rfl⟩ (.single ⟨rfl, ?_⟩)
    have hfew : ¬ UInt32.ofNat j + 1 ≥ σ.successThreshold := by
      rw [ofNat_succ]
      exact not_le_ofNat hlt
    have hsucc : counted σ (j + 1) =
        { counted σ j with successes := (counted σ j).successes + 1 } := by
      rw [counted, ← ofNat_succ]
      rfl
    rw [hsucc]
    exact if_neg hfew
  obtain ⟨s', h', hcb, hpc, hf, -, -⟩ := h₁.soloHalf hsolo
  have hothers : ∀ i, i ≠ m + j → s'.pc i = s.pc i := by
    intro i hi
    rw [hf.others i hi]
    change Function.update s.pc (m + j) _ i = _
    rw [Function.update_of_ne hi]
  refine ⟨s', h', hcb, fun i hi hm => ?_, fun i hi => ?_, fun i hi => ?_, fun i hi => ?_⟩
  · rw [hothers _ (by omega)]
    exact h.running i (by omega) hm
  · obtain rfl | hi := Nat.eq_or_lt_of_le (Nat.le_of_lt_succ hi)
    · exact hpc
    · rw [hothers _ (by omega)]
      exact h.returned i hi
  · rw [hothers _ (by omega)]
    exact h.before i hi
  · rw [hothers _ (by omega)]
    exact h.fresh i hi

theorem exists_draining (hσ : σ.halfOpenMaxRequests.toNat + 1 < σ.successThreshold.toNat) :
    ∀ j, j ≤ σ.halfOpenMaxRequests.toNat + 1 → ∃ s m, Draining σ m j s
  | 0, _ => by
    obtain ⟨s, m, h⟩ := exists_probing (σ := σ) _ le_rfl
    exact ⟨s, m, h.reaches, h.cb, fun i _ hi => h.running i hi, fun i hi => by omega, h.before,
      h.fresh⟩
  | j + 1, hj => by
    obtain ⟨s, m, h⟩ := exists_draining hσ j (by omega)
    obtain ⟨s', h'⟩ := h.next (by omega) (by omega)
    exact ⟨s', m, h'⟩

theorem Draining.quiet {m : ℕ} (h : Draining σ m (σ.halfOpenMaxRequests.toNat + 1) s) :
    s.Quiet := by
  intro i
  obtain hi | hi := Nat.lt_or_ge i m
  · exact h.before i hi
  · obtain ⟨j, rfl⟩ := Nat.exists_eq_add_of_le hi
    obtain hj | hj := Nat.lt_or_ge j (σ.halfOpenMaxRequests.toNat + 1)
    · exact .inr (h.returned j hj)
    · exact .inl (h.fresh _ (by omega))

/-- A request that comes when all have been counted is rejected, and the breaker is as before. -/
theorem rejected_of_full (hs : s.cb.state = .halfOpen) (hi : s.pc i = .idle)
    (hfull : s.cb.requests + 1 > σ.halfOpenMaxRequests) :
    (∃ s', LTS.exec (fun s a => s.step σ a) s [.step i, .step i] = some s' ∧
      s'.pc i = .subRequest) ∧
    ∃ s', LTS.exec (fun s a => s.step σ a) s [.step i, .step i, .step i] = some s' ∧
      s'.pc i = .done ∧ s'.cb = s.cb := by
  have hload : s.step σ (.step i) = some (s.move i s.cb .addRequest) := by
    rw [Sys.step, hi, CircuitBreaker.exec, hs]
    rfl
  have hadd : (s.move i s.cb .addRequest).step σ (.step i) =
      some ((s.move i s.cb .addRequest).move i { s.cb with requests := s.cb.requests + 1 }
        .subRequest) := by
    rw [Sys.step, pc_move, if_pos rfl, CircuitBreaker.exec]
    change Option.map _ (if s.cb.requests + 1 > σ.halfOpenMaxRequests then _ else _) = _
    rw [if_pos hfull]
    rfl
  constructor
  · refine ⟨_, by rw [LTS.exec, hload, Option.bind_some, LTS.exec, hadd]; rfl, ?_⟩
    rw [pc_move, if_pos rfl]
  · refine ⟨_, by rw [LTS.exec, hload, Option.bind_some, LTS.exec, hadd, Option.bind_some, LTS.exec,
      Sys.step, pc_move, if_pos rfl]; rfl, ?_, ?_⟩
    · rw [pc_move, if_pos rfl]
    · change { s.cb with requests := s.cb.requests + 1 - 1 } = s.cb
      rw [UInt32.add_sub_cancel]

end Sys

/-- **The half-open state admits too many, and may reject for ever.**  For all settings some
interleaving of requests has one request more than `HalfOpenMaxRequests` in flight.  If more
successes are needed than requests are admitted, some interleaving ends in a half-open state
without a request in flight in which every next request is rejected and changes nothing. -/
theorem halfOpen_exceeds (σ : Settings) :
    (∃ s : Sys, s.Reaches σ ∧ ¬ s.Bounded σ) ∧
    (σ.halfOpenMaxRequests.toNat + 1 < σ.successThreshold.toNat →
      ∃ s : Sys, s.Reaches σ ∧ s.cb.state = .halfOpen ∧ s.Quiet ∧ ¬ s.Recovers σ ∧
        ∀ i, s.pc i = .idle →
          ∃ s', LTS.exec (fun s a => s.step σ a) s [.step i, .step i, .step i] = some s' ∧
            s'.pc i = .done ∧ s'.cb = s.cb) := by
  constructor
  · obtain ⟨s, m, h⟩ := Sys.exists_probing (σ := σ) _ le_rfl
    exact ⟨s, h.reaches, h.not_bounded⟩
  · intro hσ
    obtain ⟨s, m, h⟩ := Sys.exists_draining hσ _ le_rfl
    have hstate : s.cb.state = .halfOpen := by rw [h.cb]; rfl
    have hfull : s.cb.requests + 1 > σ.halfOpenMaxRequests := by
      rw [h.cb]
      change UInt32.ofNat _ + 1 > _
      rw [Sys.ofNat_succ, gt_iff_lt, UInt32.lt_iff_toNat_lt,
        Sys.toNat_ofNat (m := σ.successThreshold) hσ.le]
      exact Nat.lt_succ_self _
    refine ⟨s, h.reaches, hstate, h.quiet, fun hrec => ?_, fun i hi =>
      (Sys.rejected_of_full hstate hi hfull).2⟩
    have hidle := h.fresh (m + σ.halfOpenMaxRequests.toNat + 1) (by omega)
    obtain ⟨s₁, hex₁, hpc₁⟩ := hrec hstate h.quiet _ hidle
    obtain ⟨⟨s₂, hex₂, hpc₂⟩, -⟩ := Sys.rejected_of_full hstate hidle hfull
    rw [hex₁] at hex₂
    cases hex₂
    rw [hpc₁] at hpc₂
    cases hpc₂

/-- One failure opens the circuit; one request is allowed half-open, three successes close it. -/
def narrow : Settings := Config.settings ⟨1, 10, 1, 3⟩

theorem halfOpen_exceeds_narrow :
    (∃ s : Sys, s.Reaches narrow ∧ ¬ s.Bounded narrow) ∧
      ∃ s : Sys, s.Reaches narrow ∧ s.cb.state = .halfOpen ∧ s.Quiet ∧ ¬ s.Recovers narrow := by
  obtain ⟨hexceeds, htrap⟩ := halfOpen_exceeds narrow
  obtain ⟨s, hr, hs, hq, hn, -⟩ := htrap (by decide)
  exact ⟨hexceeds, s, hr, hs, hq, hn⟩

/-- The probe and one more request are in flight where one is allowed. -/
theorem two_in_flight :
    ∃ s, (Sys.lts narrow).Run LTS.anyStep
      [.step 0, .returned 0 true, .step 0, .step 0, .step 0, .step 0, .step 0, .tick 10,
        .step 1, .step 1, .step 1, .step 1, .step 1, .step 1, .step 2, .step 2] s ∧
      ¬ s.Bounded narrow := by
  refine LTS.exists_run_of_exec (A := Sys.lts narrow) (f := fun s a => s.step narrow a)
    (fun _ _ _ h => h) ⟨0, rfl⟩ _
    (P := fun s => s.cb.state = .halfOpen ∧ s.pc 1 = .running ∧ s.pc 2 = .running ∧
      s.period = 1 ∧ s.admissions = [⟨2, 10, some 0, 1⟩, ⟨1, 10, some 0, 1⟩, ⟨0, 0, none, 0⟩])
    (by decide) fun s hrun hs hb => ?_
  obtain ⟨hstate, h1, h2, hper, hadm⟩ := hs
  refine absurd (hb hstate [1, 2] (by decide) fun i hi => ?_) (by decide)
  simp only [List.mem_cons, List.not_mem_nil, or_false] at hi
  obtain rfl | rfl := hi
  · exact ⟨by rw [h1]; rfl, ⟨1, 10, some 0, 1⟩, by simp [hadm], rfl, hper.symm⟩
  · exact ⟨by rw [h2]; rfl, ⟨2, 10, some 0, 1⟩, by simp [hadm], rfl, hper.symm⟩

end DbBreaker

end GinRpc
