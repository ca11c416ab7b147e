import GinRpc.WebSocket.Acceptor

/-!
# The outbound queue of a connection

`Conn.send` reads the `closed` flag, gives the lock back and then sends on the queue; `Conn.close`
sets the flag, gives the lock back and then closes the queue.  A goroutine that is between the two
operations of `send` when the queue is closed panics.

* `exec_pushing`, `exec_closed`, `exec_outClosed` : who comes to send on a queue, who closes it,
  and how the flag goes with it.
* `Sys.Patient` : the queue is closed only while nobody is about to send on it.
* `Sys.no_panic_of_patient` : along every such run nobody panics.
* `Sys.panics_of_impatient` : a step that is not patient leads to a state where a goroutine panics
  next.
-/

namespace GinRpc

namespace WebSocket

/-- The connection whose queue the goroutine is about to send on. -/
def Pc.pushing : Pc → Option ℕ
  | .ensure c _ _ | .enqueue c _ _ => some c
  | _ => none

/-- The connection whose `closed` flag the goroutine has set. -/
def Pc.closing : Pc → Option ℕ
  | .ensureOut c _ | .closeOut c _ | .drain c _ | .detach c _ | .hangUp c _ => some c
  | _ => none

/-- The connection whose queue the goroutine is about to close. -/
def Pc.shutting : Pc → Option ℕ
  | .closeOut c _ => some c
  | _ => none

/-- Where a goroutine goes on when a call of `send` or `close` has returned. -/
def Pc.returned : Pc → Bool
  | .done | .unlockSeq _ | .check _ _ _ | .flag _ _ | .attached _ | .replay _ _ => true
  | _ => false

section Returns

variable {c k : ℕ} {resumed : Bool} {frames : List Frame} {task : Task} {caller : Caller} {pc : Pc}

@[grind =] theorem returned_replayNext : (replayNext c k frames).returned = true := by
  cases frames <;> rfl

@[grind =] theorem returned_succeeded : (task.succeeded c).returned = true := by
  cases task with
  | replay k rest => exact returned_replayNext
  | _ => rfl

@[grind =] theorem returned_failed : (task.failed c).returned = true := by
  cases task <;> rfl

@[grind =] theorem returned_afterAttach : (afterAttach c k resumed).returned = true := by
  cases resumed <;> rfl

@[grind =] theorem returned_resume : (caller.resume c).returned = true := by
  cases caller with
  | send task => exact returned_failed
  | displace c k resumed => exact returned_afterAttach
  | _ => rfl

@[grind =] theorem pushing_of_returned (h : pc.returned = true) : pc.pushing = none := by
  cases pc <;> first | rfl | cases h

@[grind =] theorem closing_of_returned (h : pc.returned = true) : pc.closing = none := by
  cases pc <;> first | rfl | cases h

end Returns

namespace Server

variable {cfg : Config} {req : ℕ → Request} {s : Server} {t : Tid} {pc : Pc} {r : Server × Pc}

/-- A goroutine comes to send on a queue after it has found the connection open. -/
theorem exec_pushing (h : s.exec cfg req t pc = some r) {c : ℕ} (hr : r.2.pushing = some c) :
    pc.pushing = some c ∨ (s.conn c).closed = false := by
  revert h
  fun_cases Server.exec cfg req s t pc <;> intro h <;> cases h <;> grind [Pc.pushing]

/-- The flag is set for good. -/
theorem exec_closed (h : s.exec cfg req t pc = some r) {c : ℕ} (hc : (s.conn c).closed = true) :
    (r.1.conn c).closed = true :=
  exec_conn_keeps (P := fun conn => conn.closed = true) h hc fun hw => by
    cases hw <;> first | exact hc | rfl

/-- Who is past the flag in `close` has set it. -/
theorem exec_closing (h : s.exec cfg req t pc = some r) {c : ℕ} (hr : r.2.closing = some c) :
    pc.closing = some c ∨ (r.1.conn c).closed = true := by
  revert h
  fun_cases Server.exec cfg req s t pc <;> intro h <;> cases h <;> grind [Pc.closing]

/-- The queue is closed by `closeOutbox`. -/
theorem exec_outClosed (h : s.exec cfg req t pc = some r) {c : ℕ}
    (hr : (r.1.conn c).outClosed = true) :
    (s.conn c).outClosed = true ∨ pc.shutting = some c := by
  obtain heq | hw := exec_conn h c
  · exact .inl (heq ▸ hr)
  · generalize r.1.conn c = conn, r.2 = pc' at hw hr
    cases hw <;> first | exact .inl hr | exact .inr rfl

/-- A panic is a send on a closed queue. -/
theorem exec_panicked (h : s.exec cfg req t pc = some r) (hr : r.2 = .panicked) :
    ∃ c, pc.pushing = some c ∧ (s.conn c).outClosed = true := by
  have hret : r.2.returned = false := by rw [hr]; rfl
  revert h
  fun_cases Server.exec cfg req s t pc <;> intro h <;> cases h <;> grind [Pc.pushing]

end Server

namespace Sys

variable {cfg : Config} {req : ℕ → Request} {s s' : Sys} {a : Act}

/-- A step is one of a goroutine, or it leaves flags and queues alone and brings a goroutine at
most to the beginning of a call. -/
theorem step_outbox (h : s.step cfg req a = some s') :
    (∃ t r, a = .step t ∧ s.server.exec cfg req t (s.pc t) = some r ∧ s' = s.goto t r.1 r.2) ∨
    ((∀ c, (s'.server.conn c).closed = (s.server.conn c).closed ∧
        (s'.server.conn c).outClosed = (s.server.conn c).outClosed) ∧
      ∀ t, s'.pc t = s.pc t ∨ ((s'.pc t).pushing = none ∧ (s'.pc t).closing = none ∧
        s'.pc t ≠ .panicked)) := by
  cases a with
  | step t =>
    obtain ⟨r, hr, rfl⟩ := Option.map_eq_some_iff.1 h
    exact .inl ⟨t, r, rfl, hr, rfl⟩
  | tick d =>
    cases h
    exact .inr ⟨fun _ => ⟨rfl, rfl⟩, fun _ => .inl rfl⟩
  | _ =>
    right
    revert h
    simp only [step, call]
    grind [pc_goto, goto, Server.dial, Pc.pushing, Pc.closing]

/-- The queue of a connection is closed only while no goroutine is about to send on it. -/
def Patient (s : Sys) : Act → Prop
  | .step t => ∀ c, (s.pc t).shutting = some c → ∀ u, (s.pc u).pushing ≠ some c
  | _ => True

/-- The invariant of patient runs. -/
structure Sound (s : Sys) : Prop where
  closing : ∀ t c, (s.pc t).closing = some c → (s.server.conn c).closed = true
  outClosed : ∀ c, (s.server.conn c).outClosed = true →
    (s.server.conn c).closed = true ∧ ∀ t, (s.pc t).pushing ≠ some c
  safe : ∀ t, s.pc t ≠ .panicked

theorem sound_init {now : ℤ} : Sound { server := { now := now } } where
  closing := nofun
  outClosed := nofun
  safe := nofun

theorem closing_of_shutting {pc : Pc} {c : ℕ} (h : pc.shutting = some c) : pc.closing = some c := by
  cases pc <;> first | exact h | cases h

/-- The step of a goroutine. -/
theorem Sound.exec (h : s.Sound) {t : Tid} {r : Server × Pc} (hok : s.Patient (.step t))
    (hr : s.server.exec cfg req t (s.pc t) = some r) : (s.goto t r.1 r.2).Sound where
  closing u c hu := by
    rw [pc_goto] at hu
    split_ifs at hu with hut
    · obtain hpc | hc := Server.exec_closing hr hu
      · exact Server.exec_closed hr (h.closing t c hpc)
      · exact hc
    · exact Server.exec_closed hr (h.closing u c hu)
  outClosed c hc := by
    obtain hold | hshut := Server.exec_outClosed hr hc
    · -- the queue was closed before: the flag is set, so nobody comes to send on it
      obtain ⟨hclosed, hpush⟩ := h.outClosed c hold
      refine ⟨Server.exec_closed hr hclosed, fun u => ?_⟩
      rw [pc_goto]
      split_ifs with hut
      · intro hu
        obtain hpc | hopen := Server.exec_pushing hr hu
        · exact hpush t hpc
        · rw [hclosed] at hopen
          cases hopen
      · exact hpush u
    · -- the queue is closed now: nobody was about to send on it
      have hclosed := h.closing t c (closing_of_shutting hshut)
      refine ⟨Server.exec_closed hr hclosed, fun u => ?_⟩
      rw [pc_goto]
      split_ifs with hut
      · intro hu
        obtain hpc | hopen := Server.exec_pushing hr hu
        · exact hok c hshut t hpc
        · rw [hclosed] at hopen
          cases hopen
      · exact hok c hshut u
  safe u := by
    rw [pc_goto]
    split_ifs with hut
    · intro hpanic
      obtain ⟨c, hpc, hc⟩ := Server.exec_panicked hr hpanic
      exact (h.outClosed c hc).2 t hpc
    · exact h.safe u

theorem Sound.step (h : s.Sound) (hok : s.Patient a) (hs : s.step cfg req a = some s') :
    s'.Sound := by
  obtain ⟨t, r, rfl, hr, rfl⟩ | ⟨hconn, hpc⟩ := step_outbox hs
  · exact h.exec hok hr
  · refine ⟨fun t c ht => ?_, fun c hc => ⟨?_, fun t ht => ?_⟩, fun t => ?_⟩
    · rw [(hconn c).1]
      obtain heq | ⟨-, hnone, -⟩ := hpc t
      · exact h.closing t c (heq ▸ ht)
      · rw [hnone] at ht
        cases ht
    · rw [(hconn c).1]
      exact (h.outClosed c ((hconn c).2 ▸ hc)).1
    · obtain heq | ⟨hnone, -, -⟩ := hpc t
      · exact (h.outClosed c ((hconn c).2 ▸ hc)).2 t (heq ▸ ht)
      · rw [hnone] at ht
        cases ht
    · obtain heq | ⟨-, -, hne⟩ := hpc t
      · rw [heq]
        exact h.safe t
      · exact hne

/-- **No send on a closed queue**, along every run in which a queue is closed only while nobody is
about to send on it. -/
theorem no_panic_of_patient {tr : List Act} (hrun : (lts cfg req).Run Patient tr s) (t : Tid) :
    s.pc t ≠ .panicked := by
  refine (hrun.invariant (I := Sound) ?_ fun _ _ _ h hok hs => h.step hok hs).safe t
  rintro s ⟨now, rfl⟩
  exact sound_init

/-- The `select` on a closed queue. -/
theorem step_enqueue_closed (cfg : Config) (req : ℕ → Request) {u : Tid} {c : ℕ} {f : Frame}
    {task : Task}
    (hu : s.pc u = .enqueue c f task) (hc : (s.server.conn c).outClosed = true) :
    s.step cfg req (.step u) = some (s.goto u s.server .panicked) := by
  rw [Sys.step, hu, Server.exec, if_pos hc]
  rfl

/-- The condition is needed: if the queue is closed while a goroutine is about to send on it, that
goroutine panics with its next steps. -/
theorem panics_of_impatient {t u : Tid} {c : ℕ} (hs : s.step cfg req (.step t) = some s')
    (ht : (s.pc t).shutting = some c) (hu : (s.pc u).pushing = some c) :
    ∃ tr s'', LTS.exec (fun s a => s.step cfg req a) s' tr = some s'' ∧ s''.pc u = .panicked := by
  have hut : (Act.step t).thread ≠ some u := by
    intro h
    cases h
    cases hpc : s.pc t <;> rw [hpc] at ht hu <;> first | cases ht; done | cases hu
  have hpc := pc_of_step hs hut
  have hclosed : (s'.server.conn c).outClosed = true := by
    obtain ⟨r, hr, rfl⟩ := Option.map_eq_some_iff.1 hs
    cases hpc : s.pc t <;> rw [hpc] at ht hr <;> cases ht
    rw [Server.exec] at hr
    split_ifs at hr <;> cases hr <;> grind [goto]
  cases hu' : s.pc u <;> rw [hu'] at hu hpc <;> cases hu
  case ensure f task =>
    -- one step before the select
    have h₁ : s'.step cfg req (.step u) = some (s'.goto u
        (s'.server.setConn c fun conn => { conn with started := true }) (.enqueue c f task)) := by
      rw [Sys.step, hpc, Server.exec]
      rfl
    have h₂ := step_enqueue_closed cfg req (s := s'.goto u
      (s'.server.setConn c fun conn => { conn with started := true }) (.enqueue c f task))
      (pc_goto.trans (if_pos rfl)) (by grind [goto])
    exact ⟨[_, _], _, LTS.exec_cons h₁ (LTS.exec_cons h₂ rfl), pc_goto.trans (if_pos rfl)⟩
  case enqueue f task =>
    have h₁ := step_enqueue_closed cfg req hpc hclosed
    exact ⟨[_], _, LTS.exec_cons h₁ rfl, pc_goto.trans (if_pos rfl)⟩

/-- A queue of one frame, sessions keep two messages. -/
def tiny : Config := ⟨1, 2, 10, 0⟩

/-- Everybody is the same user and asks for the same session, from the beginning. -/
def sameSession (_ : ℕ) : Request := ⟨"u", "s", none, ""⟩

/-- A patient step of one of the goroutines of a list, checked by evaluation. -/
def patient (ts : List Tid) (s : Sys) (a : Act) : Bool :=
  a.thread.all (fun t => decide (t ∈ ts)) && a.thread.all fun t => (s.pc t).shutting.all fun c =>
    ts.all fun u => decide ((s.pc u).pushing ≠ some c)

theorem patient_of_check {ts : List Tid} (hJ : s.Within ts) (hc : s.patient ts a = true)
    (h : s.step tiny sameSession a = some s') :
    s.Patient a ∧ (lts tiny sameSession).step s a s' ∧ s'.Within ts := by
  obtain ⟨hts, hpatient⟩ := Bool.and_eq_true_iff.1 hc
  refine ⟨?_, h, hJ.step hts h⟩
  cases a with
  | step t =>
    intro c hc
    rw [Act.thread, Option.all_some, hc, Option.all_some, List.all_eq_true] at hpatient
    exact hJ.forall (P := fun pc => pc.pushing ≠ some c) nofun
      fun u hu => of_decide_eq_true (hpatient u hu)
  | _ => trivial

/-- Two frames are sent, the second finds the queue full and closes the connection. -/
theorem no_panic_when_full :
    ∃ s, (lts tiny sameSession).Run Patient
      [.dial 0, .sendText 0 0 "a", .step (.user 0), .step (.user 0), .step (.user 0),
        .sendText 1 0 "b", .step (.user 1), .step (.user 1), .step (.user 1), .step (.user 1),
        .step (.user 1), .step (.user 1)] s ∧
      (s.server.conn 0).outClosed = true ∧ s.pc (.user 1) ≠ .panicked := by
  exact LTS.exists_guarded_run (A := lts tiny sameSession)
    (J := Within [.serve 0, .user 0, .user 1])
    (fun _ _ _ => patient_of_check) ⟨0, rfl⟩ (fun _ _ => rfl) _ (by decide)
    fun s hrun hs => ⟨hs, no_panic_of_patient hrun _⟩

/-- One goroutine has found the connection open when another one closes it. -/
theorem send_panics :
    ∃ s, (lts tiny sameSession).Run LTS.anyStep
      [.dial 0, .sendText 0 0 "a", .step (.user 0),
        .close 1 0, .step (.user 1), .step (.user 1), .step (.user 1),
        .step (.user 0), .step (.user 0)] s ∧ s.pc (.user 0) = .panicked := by
  exact LTS.exists_run_of_exec (A := lts tiny sameSession)
    (f := fun s a => s.step tiny sameSession a) (fun _ _ _ h => h)
    ⟨0, rfl⟩ _ (by decide) fun _ _ h => h

end Sys

end WebSocket

end GinRpc
