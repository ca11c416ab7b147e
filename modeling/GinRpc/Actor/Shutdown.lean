import GinRpc.Actor.Restarts

/-!
# Shutting down

`Shutdown` stops the actors that are registered and waits for them.  An actor is registered until
it is stopped, and its goroutine goes on after that: it finishes its message and drains the mailbox.

* `Sys.Quiesced` : when a call of `Shutdown` has returned, the goroutines of all actors have ended.
* `Sys.quiesced_of_orderly` : this holds along every run in which an actor that is no longer
  registered has ended by the time `Shutdown` takes its snapshot, and a call of `Shutdown` that
  finds the system stopped is made after all actors have ended.
* `Sys.shut_while_processing` : an actor that was stopped before is not waited for.
-/

namespace GinRpc

namespace Actor

variable {M : Type}

/-- How far a call of `Shutdown` has come that has stopped the system. -/
def Pc.shutting : Pc M → Option (ℕ × List ℕ)
  | .launch i cells => some (i, cells)
  | .waitAll i => some (i, [])
  | _ => none

def Pc.snapshotting : Pc M → Bool
  | .snapshot _ => true
  | _ => false

/-- `Shutdown` has returned. -/
def Pc.isShut : Pc M → Bool
  | .shut => true
  | _ => false

def Pc.isShutdown : Pc M → Bool
  | .shutdown _ => true
  | _ => false

section Returns

variable {a : ℕ} {caller : Caller}

@[grind =] theorem shutting_resume : (caller.resume a : Pc M).shutting = none := by
  cases caller <;> rfl

@[grind =] theorem snapshotting_resume : (caller.resume a : Pc M).snapshotting = false := by
  cases caller <;> rfl

@[grind =] theorem isShut_resume : (caller.resume a : Pc M).isShut = false := by
  cases caller <;> rfl

end Returns

namespace System

variable {opts : Options} {s : System M} {t : Tid} {b : Branch} {pc : Pc M} {r : System M × Pc M}
  {a : ℕ}

/-- No cell is created after the system was stopped. -/
theorem exec_stopped (h : s.exec opts t b pc = some r) (hs : s.stopped = true) :
    r.1.stopped = true ∧ r.1.ncells = s.ncells := by
  refine exec_state (P := fun s' => s'.stopped = true ∧ s'.ncells = s.ncells) h ⟨hs, rfl⟩
    fun hw => ?_
  cases hw with
  | create hrun => cases hrun.symm.trans hs
  | shutdown => exact ⟨rfl, rfl⟩
  | _ => exact ⟨hs, rfl⟩

/-- The moves of `Shutdown` after it has stopped the system. -/
structure Shutting (s : System M) (pc : Pc M) (s' : System M) (pc' : Pc M) : Prop where
  snapshot : pc'.snapshotting = true → s'.stopped = true
  launch {i : ℕ} {cells : List ℕ} : pc'.shutting = some (i, cells) →
    (pc.snapshotting = true ∧ cells = s.all ∧ s' = s) ∨
      ∃ old, pc.shutting = some (i, old) ∧ ∀ a, a ∈ old → a ∈ cells ∨ a ∈ s'.wg i
  shut : pc'.isShut = true → s' = s ∧ ((pc.isShutdown = true ∧ s.stopped = true) ∨
    ∃ i, pc.shutting = some (i, []) ∧ s.wg i = [])

theorem exec_shutting (h : s.exec opts t b pc = some r) : Shutting s pc r.1 r.2 := by
  refine exec_leads h (fun hm => ?_) fun hw => ?_
  · cases hm <;> constructor <;>
      grind [Pc.snapshotting, Pc.shutting, Pc.isShut, Pc.isShutdown]
  · cases hw with
    | update hu => cases hu <;> constructor <;> grind [Pc.snapshotting, Pc.shutting, Pc.isShut]
    | _ => constructor <;> grind [Pc.snapshotting, Pc.shutting, Pc.isShut]

/-- A cell leaves a wait group when it has ended. -/
theorem exec_waited (h : s.exec opts t b pc = some r) {i : ℕ} (ha : a ∈ s.wg i) :
    a ∈ r.1.wg i ∨ (s.cell a).done = true := by
  refine exec_state (P := fun s' => a ∈ s'.wg i ∨ _) h (.inl ha) fun hw => ?_
  cases hw with
  | addWait =>
    rw [wg_addWait]
    split_ifs with hi
    · exact .inl (List.mem_cons_of_mem _ (hi ▸ ha))
    · exact .inl ha
  | @doneWait _ j d hdone =>
    rw [wg_doneWait]
    split_ifs with hi
    · by_cases had : a = d
      · exact .inr (had ▸ hdone)
      · exact .inl ((List.mem_erase_of_ne had).2 (hi ▸ ha))
    · exact .inl ha
  | _ => exact .inl ha

end System

namespace Sys

variable {opts : Options} {s s' : Sys M}

/-- When `Shutdown` has returned, all actors have ended. -/
def Quiesced (s : Sys M) : Prop :=
  ∀ i, s.pc (.user i) = .shut → ∀ a < s.system.ncells,
    (s.system.cell a).done = true ∧ ∀ t, (s.pc t).acting ≠ some a

/-- `Shutdown` finds every actor that has not ended, and is not called twice before that. -/
def Orderly (s : Sys M) : Act M → Prop
  | .step t _ =>
    ((s.pc t).snapshotting = true →
      ∀ a < s.system.ncells, a ∈ s.system.all ∨ (s.system.cell a).done = true) ∧
    ((s.pc t).isShutdown = true → s.system.stopped = true →
      ∀ a < s.system.ncells, (s.system.cell a).done = true)
  | _ => True

/-- The invariant of `Shutdown`. -/
structure Halting (s : Sys M) : Prop where
  snapshotting : ∀ t, (s.pc t).snapshotting = true → s.system.stopped = true
  /-- it is going to stop an actor, or waits for it -/
  shutting : ∀ t i cells, (s.pc t).shutting = some (i, cells) → s.system.stopped = true ∧
    ∀ a < s.system.ncells, a ∈ cells ∨ a ∈ s.system.wg i ∨ (s.system.cell a).done = true
  shut : ∀ t, (s.pc t).isShut = true → s.system.stopped = true ∧
    ∀ a < s.system.ncells, (s.system.cell a).done = true

theorem halting_init : Halting ({} : Sys M) := ⟨nofun, nofun, nofun⟩

theorem Halting.exec (h : s.Halting) {t : Tid} {b : Branch} {r : System M × Pc M}
    (hok : s.Orderly (.step t b)) (hr : s.system.exec opts t b (s.pc t) = some r) :
    (s.goto t r.1 r.2).Halting := by
  have hdone : ∀ {a}, a < s.system.ncells → (s.system.cell a).done = true →
      (r.1.cell a).done = true := System.exec_done_mono hr
  constructor
  case snapshotting =>
    intro u hu
    rw [pc_goto] at hu
    split_ifs at hu
    · exact (System.exec_shutting hr).snapshot hu
    · exact (System.exec_stopped hr (h.snapshotting u hu)).1
  case shutting =>
    intro u i cells hu
    -- what was true of `cells'` before is true of `cells` now
    have hnext : ∀ {cells' : List ℕ}, s.system.stopped = true →
        (∀ a < s.system.ncells, a ∈ cells' ∨ a ∈ s.system.wg i ∨ (s.system.cell a).done = true) →
        (∀ a ∈ cells', a ∈ cells ∨ a ∈ r.1.wg i) →
        r.1.stopped = true ∧
          ∀ a < r.1.ncells, a ∈ cells ∨ a ∈ r.1.wg i ∨ (r.1.cell a).done = true := by
      intro cells' hst hall hsub
      obtain ⟨hst', hn⟩ := System.exec_stopped hr hst
      refine ⟨hst', fun a ha => ?_⟩
      rw [hn] at ha
      obtain hmem | hwg | hd := hall a ha
      · exact (hsub a hmem).imp_right .inl
      · exact .inr ((System.exec_waited hr hwg).imp_right (hdone ha))
      · exact .inr (.inr (hdone ha hd))
    rw [pc_goto] at hu
    split_ifs at hu
    · obtain ⟨hsnap, hcells, -⟩ | ⟨old, hpc, hsub⟩ := (System.exec_shutting hr).launch hu
      · refine hnext (h.snapshotting t hsnap) (fun a ha => ?_) fun a => .inl
        rw [hcells]
        exact (hok.1 hsnap a ha).imp_right .inr
      · obtain ⟨hst, hall⟩ := h.shutting t i old hpc
        exact hnext hst hall hsub
    · obtain ⟨hst, hall⟩ := h.shutting u i cells hu
      exact hnext hst hall fun a => .inl
  case shut =>
    intro u hu
    have hnext : s.system.stopped = true →
        (∀ a < s.system.ncells, (s.system.cell a).done = true) →
        r.1.stopped = true ∧ ∀ a < r.1.ncells, (r.1.cell a).done = true := by
      intro hst hall
      obtain ⟨hst', hn⟩ := System.exec_stopped hr hst
      exact ⟨hst', fun a ha => hdone (hn ▸ ha) (hall a (hn ▸ ha))⟩
    rw [pc_goto] at hu
    split_ifs at hu
    · obtain ⟨-, ⟨hpc, hst⟩ | ⟨i, hpc, hwg⟩⟩ := (System.exec_shutting hr).shut hu
      · exact hnext hst (hok.2 hpc hst)
      · obtain ⟨hst, hall⟩ := h.shutting t i [] hpc
        refine hnext hst fun a ha => ?_
        rw [hwg] at hall
        exact (hall a ha).resolve_left List.not_mem_nil |>.resolve_left List.not_mem_nil
    · obtain ⟨hst, hall⟩ := h.shut u hu
      exact hnext hst hall

/-- A call does not begin inside of `Shutdown`. -/
theorem entry_shutdown {x : Act M} {pc : Pc M} (h : s.entry x = some pc) :
    pc.snapshotting = false ∧ pc.shutting = none ∧ pc.isShut = false := by
  cases x with
  | stopSelf i a =>
    unfold entry at h
    dsimp only at h
    split at h <;> cases h
    exact ⟨rfl, rfl, rfl⟩
  | step => cases h
  | _ =>
    cases h
    exact ⟨rfl, rfl, rfl⟩

theorem Halting.step (h : s.Halting) {x : Act M} (hok : s.Orderly x)
    (hx : s.step opts x = some s') : s'.Halting := by
  obtain ⟨t, b, r, rfl, hr, rfl⟩ | ⟨i, pc, -, hpc, rfl⟩ := step_cases hx
  · exact h.exec hok hr
  · obtain ⟨hsnap, hshutting, hshut⟩ := entry_shutdown hpc
    refine ⟨fun u hu => ?_, fun u j cells hu => ?_, fun u hu => ?_⟩ <;> rw [pc_goto] at hu <;>
      split_ifs at hu
    · exact absurd (hsnap.symm.trans hu) nofun
    · exact h.snapshotting u hu
    · exact absurd (hshutting.symm.trans hu) nofun
    · exact h.shutting u j cells hu
    · exact absurd (hshut.symm.trans hu) nofun
    · exact h.shut u hu

/-- **When `Shutdown` has returned, every actor has ended**, along every run in which it finds the
actors that have not ended. -/
theorem quiesced_of_orderly {tr : List (Act M)} (hrun : (lts opts).Run Orderly tr s) :
    s.Quiesced := by
  have hinv : s.Sound ∧ s.Halting := by
    refine hrun.invariant (I := fun s => s.Sound ∧ s.Halting) ?_ ?_
    · rintro _ rfl
      exact ⟨sound_init, halting_init⟩
    · rintro s x s' ⟨hs, hh⟩ hok hx
      exact ⟨hs.step hx, hh.step hok hx⟩
  obtain ⟨hs, hh⟩ := hinv
  intro i hi a ha
  have hdone := (hh.shut (.user i) (by rw [hi]; rfl)).2 a ha
  refine ⟨hdone, fun t ht => ?_⟩
  rw [hs.acting t a ht, hs.done a hdone] at ht
  cases ht

/-- An orderly step, checked by evaluation. -/
def orderly (s : Sys M) : Act M → Bool
  | .step t _ =>
    (!(s.pc t).snapshotting || (List.range s.system.ncells).all fun a =>
      decide (a ∈ s.system.all) || (s.system.cell a).done) &&
    (!(s.pc t).isShutdown || !s.system.stopped ||
      (List.range s.system.ncells).all fun a => (s.system.cell a).done)
  | _ => true

theorem orderly_of_check {x : Act M} (h : s.orderly x = true) : s.Orderly x := by
  cases x with
  | step t b =>
    obtain ⟨hsnap, hagain⟩ := Bool.and_eq_true_iff.1 h
    refine ⟨fun hpc a ha => ?_, fun hpc hst a ha => ?_⟩
    · rw [hpc, Bool.not_true, Bool.false_or] at hsnap
      have := List.all_eq_true.1 hsnap a (List.mem_range.2 ha)
      rwa [Bool.or_eq_true, decide_eq_true_iff] at this
    · rw [hpc, hst, Bool.not_true, Bool.or_false, Bool.false_or] at hagain
      exact List.all_eq_true.1 hagain a (List.mem_range.2 ha)
  | _ => trivial

/-- An actor is processing a message while `Shutdown` is called; then it returns, and both the
goroutine of the actor and `Shutdown` go on to their end. -/
def shutdownBusy : List (Act ℕ) :=
  spawnOne ++ sendNumber 1 ++ [Act.step (.actor 0) .plain, Act.shutdown 2] ++
    List.replicate 4 (Act.step (.user 2) .plain) ++
    List.replicate 5 (Act.step (.helper 2 0) .plain) ++
    [Act.step (.actor 0) .plain, Act.step (.actor 0) .stopped] ++
    List.replicate 4 (Act.step (.actor 0) .plain) ++
    [Act.step (.helper 2 0) .plain, Act.step (.user 2) .plain]

/-- The actor stops itself while it processes a message, and then `Shutdown` is called. -/
def shutdownAfterStopSelf : List (Act ℕ) :=
  spawnOne ++ sendNumber 1 ++ [Act.step (.actor 0) .plain, Act.stopSelf 3 0] ++
    List.replicate 4 (Act.step (.user 3) .plain) ++ [Act.shutdown 2] ++
    List.replicate 4 (Act.step (.user 2) .plain)

theorem quiesced_shutdown :
    ∃ s, (lts fragileOptions).Run Orderly shutdownBusy s ∧ s.pc (.user 2) = .shut ∧
      (s.system.cell 0).handled = [⟨"", 1⟩] ∧ s.Quiesced := by
  refine LTS.exists_checked_run (A := lts fragileOptions) (fun _ _ _ h => h)
    (fun _ _ => orderly_of_check) rfl _
    (P := fun s => s.pc (.user 2) = .shut ∧ (s.system.cell 0).handled = [⟨"", 1⟩])
    (by decide) fun s hrun hs => ?_
  exact ⟨hs.1, hs.2, quiesced_of_orderly hrun⟩

/-- `Shutdown` returns while an actor that was spawned is processing a message. -/
theorem shut_while_processing :
    ∃ s, (lts fragileOptions).Run LTS.anyStep shutdownAfterStopSelf s ∧
      s.pc (.user 0) = .spawned 0 ∧ s.pc (.user 2) = .shut ∧
      s.pc (.actor 0) = .receive 0 ⟨"", 1⟩ ∧ ¬ s.Quiesced := by
  refine LTS.exists_run_of_exec (f := fun s x => s.step fragileOptions x) (fun _ _ _ h => h) rfl _
    (P := fun s => s.pc (.user 0) = .spawned 0 ∧ s.pc (.user 2) = .shut ∧
      s.pc (.actor 0) = .receive 0 ⟨"", 1⟩ ∧ 0 < s.system.ncells) (by decide) fun s hrun hs => ?_
  obtain ⟨hspawned, hshut, hrec, hn⟩ := hs
  refine ⟨hspawned, hshut, hrec, fun h => ?_⟩
  exact (h 2 hshut 0 hn).2 (.actor 0) (by rw [hrec]; rfl)

end Sys

end Actor

end GinRpc
