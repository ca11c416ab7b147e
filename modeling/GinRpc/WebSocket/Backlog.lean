import GinRpc.LTS.Fairness
import GinRpc.WebSocket.Outbox

/-!
# Replaying a backlog

`attachSession` queues the messages that a client has missed with `Conn.send`, which closes the
connection when the queue is full.  The capacity of the replay buffer and the size of the queue are
configured independently.

* `Sys.Undisturbed` : writes succeed, and only the connection's own goroutines touch its queue.
* `Sys.replay_fits` : a backlog is queued completely and in order, whenever the writer runs, if and
  only if it is no longer than the queue.
* `Sys.replay_overflows` : a run of the server in which the replay of a longer one closes the
  connection.
-/

namespace GinRpc

namespace WebSocket

/-- The parts of a connection that `send` depends on or changes -/
def Conn.queue (conn : Conn) : List Frame × List ℕ × Bool × Bool :=
  (conn.outbox, conn.sent, conn.closed, conn.outClosed)

namespace Sys

variable (cfg : Config) (req : ℕ → Request) (c : ℕ)

/-- No write fails, and others leave the queue alone. -/
def Undisturbed (s : Sys) (a : Act) : Prop :=
  a ≠ .writeFails c ∧ (a.thread = some (.serve c) ∨ a.thread = some (.writer c) ∨
    ∀ s', s.step cfg req a = some s' → (s'.server.conn c).queue = (s.server.conn c).queue)

/-- The place of the loop, when `m` steps of it are done and `rest` is still to queue -/
inductive Loop (k : ℕ) (rest : List Frame) : ℕ → Pc → Prop
  | next : Loop k rest 0 (replayNext c k rest)
  | ensure {f : Frame} {rest' : List Frame} : rest = f :: rest' →
      Loop k rest 1 (.ensure c f (.replay k rest'))
  | enqueue {f : Frame} {rest' : List Frame} : rest = f :: rest' →
      Loop k rest 2 (.enqueue c f (.replay k rest'))

/-- After `n` steps of the loop over `frames`, on a connection where the numbers `before` had been
queued and the writer has taken `taken` frames -/
structure Replaying (k : ℕ) (frames : List Frame) (before : List ℕ) (n taken : ℕ) (s : Sys) :
    Prop where
  writer : s.pc (.writer c) = .idle ∨ s.pc (.writer c) = .take c ∨
    ∃ f, s.pc (.writer c) = .write c f
  opened : (s.server.conn c).closed = false ∧ (s.server.conn c).outClosed = false
  loop : ∃ done rest m, frames = done ++ rest ∧ n = 3 * done.length + m ∧
    Loop c k rest m (s.pc (.serve c)) ∧ (s.server.conn c).outbox.length + taken = done.length ∧
    (s.server.conn c).sent = before ++ done.filterMap Frame.number

variable {cfg req c} {k n taken : ℕ} {frames : List Frame} {before : List ℕ} {s s' : Sys}

/-- The loop takes its next step: the queue has room. -/
theorem Replaying.serve (h : Replaying c k frames before n taken s) (cfg : Config)
    (req : ℕ → Request) (hn : n < 3 * frames.length) (hroom : n < 3 * cfg.queueSize + 2) :
    ∃ s', s.step cfg req (.step (.serve c)) = some s' ∧
      Replaying c k frames before (n + 1) taken s' := by
  obtain ⟨hwriter, hopened, done, rest, m, rfl, rfl, hloop, hlen, hsent⟩ := h
  have hexec {r : Server × Pc} (hr : s.server.exec cfg req (.serve c) (s.pc (.serve c)) = some r) :
      s.step cfg req (.step (.serve c)) = some (s.goto (.serve c) r.1 r.2) := by
    rw [step, hr]
    rfl
  have hother {server : Server} {pc : Pc} :
      (s.goto (.serve c) server pc).pc (.writer c) = s.pc (.writer c) :=
    pc_goto.trans (if_neg (by simp))
  have hself {server : Server} {pc : Pc} : (s.goto (.serve c) server pc).pc (.serve c) = pc :=
    pc_goto.trans (if_pos rfl)
  generalize hpc : s.pc (.serve c) = pc at hloop hexec
  rw [List.length_append] at hn
  cases hloop with
  | next =>
    obtain ⟨f, rest, rfl⟩ : ∃ f rest', rest = f :: rest' := by
      apply List.exists_cons_of_ne_nil
      rintro rfl
      rw [List.length_nil] at hn
      omega
    have hcheck : s.server.exec cfg req (.serve c) (replayNext c k (f :: rest)) =
        some (s.server, .ensure c f (.replay k rest)) := by
      rw [replayNext, Server.exec, hopened.1]
      rfl
    refine ⟨_, hexec hcheck, ?_, hopened, done, f :: rest, 1, rfl, rfl, ?_, hlen, hsent⟩
    · rwa [hother]
    · rw [hself]
      exact .ensure rfl
  | ensure hrest =>
    refine ⟨_, hexec (by rw [Server.exec]), ?_, ?_, done, rest, 2, rfl, rfl, ?_, ?_, ?_⟩
    · rwa [hother]
    · grind [goto]
    · rw [hself]
      exact .enqueue hrest
    · grind [goto]
    · grind [goto]
  | @enqueue f rest' hrest =>
    subst hrest
    refine ⟨_, hexec (by
      rw [Server.exec, if_neg (by rw [hopened.2]; exact Bool.false_ne_true), if_pos (by omega)]),
      ?_, ?_, done ++ [f], rest', 0, ?_, ?_, ?_, ?_, ?_⟩
    · rwa [hother]
    · grind [goto]
    · rw [List.append_assoc, List.singleton_append]
    · rw [List.length_append, List.length_singleton]
      omega
    · rw [hself]
      exact .next
    · grind [goto]
    · rw [List.filterMap_append, ← List.append_assoc, ← hsent]
      grind [goto]

theorem Replaying.step_writer (h : Replaying c k frames before n taken s)
    (hs : s.step cfg req (.step (.writer c)) = some s') :
    ∃ taken, Replaying c k frames before n taken s' := by
  obtain ⟨hwriter, hopened, done, rest, m, hframes, hn, hloop, hlen, hsent⟩ := h
  obtain ⟨r, hr, rfl⟩ := Option.map_eq_some_iff.1 hs
  have hserve : (s.goto (.writer c) r.1 r.2).pc (.serve c) = s.pc (.serve c) :=
    pc_goto.trans (if_neg (by simp))
  have hself : (s.goto (.writer c) r.1 r.2).pc (.writer c) = r.2 := pc_goto.trans (if_pos rfl)
  rw [← hserve] at hloop
  obtain hpc | hpc | ⟨f, hpc⟩ := hwriter <;> rw [hpc, Server.exec] at hr
  · -- the writer begins
    split at hr
    · cases hr
      exact ⟨taken, .inr (.inl hself), hopened, done, rest, m, hframes, hn, hloop, hlen, hsent⟩
    · cases hr
  · split at hr
    · rename_i f outbox hout
      cases hr
      refine ⟨taken + 1, .inr (.inr ⟨f, hself⟩), ?_, done, rest, m, hframes, hn, hloop, ?_, ?_⟩
      · grind [goto]
      · rw [hout, List.length_cons] at hlen
        grind [goto]
      · grind [goto]
    · split_ifs at hr with hclosed
      rw [hopened.2] at hclosed
      cases hclosed
  · split_ifs at hr
    cases hr
    refine ⟨taken, .inr (.inl hself), ?_, done, rest, m, hframes, hn, hloop, ?_, ?_⟩ <;>
      grind [goto]

theorem Replaying.step_other (h : Replaying c k frames before n taken s) {a : Act}
    (hserve : a.thread ≠ some (.serve c)) (hwriter : a.thread ≠ some (.writer c))
    (hs : s.step cfg req a = some s')
    (hqueue : (s'.server.conn c).queue = (s.server.conn c).queue) :
    Replaying c k frames before n taken s' := by
  obtain ⟨hw, hopened, hloop⟩ := h
  rw [Conn.queue, Conn.queue, Prod.mk.injEq, Prod.mk.injEq, Prod.mk.injEq] at hqueue
  obtain ⟨hout, hsent, hclosed, houtClosed⟩ := hqueue
  rw [← pc_of_step hs hwriter] at hw
  rw [← hclosed, ← houtClosed] at hopened
  rw [← pc_of_step hs hserve, ← hout, ← hsent] at hloop
  exact ⟨hw, hopened, hloop⟩

theorem Replaying.not_idle (h : Replaying c k frames before n taken s) :
    s.pc (.serve c) ≠ .idle := by
  obtain ⟨-, -, done, rest, m, -, -, hloop, -⟩ := h
  intro hidle
  rw [hidle] at hloop
  generalize hpc : Pc.idle = pc at hloop
  cases hloop with
  | next => cases rest <;> cases hpc
  | ensure | enqueue => cases hpc

theorem Replaying.step_of_ne (h : Replaying c k frames before n taken s) {a : Act}
    (ha : a ≠ .step (.serve c)) (hok : Undisturbed cfg req c s a)
    (hs : s.step cfg req a = some s') : ∃ taken, Replaying c k frames before n taken s' := by
  by_cases hserve : a.thread = some (.serve c)
  · -- the connection has been dialled already
    cases a <;> cases hserve
    · rw [step, if_neg h.not_idle] at hs
      cases hs
    · exact absurd rfl ha
  · by_cases hwriter : a.thread = some (.writer c)
    · cases a <;> cases hwriter
      · exact h.step_writer hs
      · exact absurd rfl hok.1
    · obtain h' | h' | hqueue := hok.2
      · exact absurd h' hserve
      · exact absurd h' hwriter
      · exact ⟨taken, h.step_other hserve hwriter hs (hqueue s' hs)⟩

/-- The buffer has been read. -/
theorem replaying_of_step {s₀ : Sys} (hpc : s₀.pc (.serve c) = .replay c k)
    (hwriter : s₀.pc (.writer c) = .idle)
    (hqueue : (s₀.server.conn c).queue = ([], [], false, false))
    (hs : (lts cfg req).step s₀ (.step (.serve c)) s) :
    Replaying c k ((s₀.server.session k).replayAfter (req c).info.lastSeq) [] 0 0 s := by
  obtain ⟨r, hr, rfl⟩ := Option.map_eq_some_iff.1 hs
  rw [hpc, Server.exec] at hr
  cases hr
  simp only [Conn.queue, Prod.mk.injEq] at hqueue
  obtain ⟨hout, hsent, hopened⟩ := hqueue
  refine ⟨.inl ((pc_goto.trans (if_neg (by simp))).trans hwriter), hopened, [], _, 0, rfl, rfl, ?_,
    congrArg List.length hout, hsent⟩
  rw [pc_goto, if_pos rfl]
  exact .next

/-- Every frame has taken three steps. -/
theorem Replaying.attached (h : Replaying c k frames before (3 * frames.length) taken s) :
    s.pc (.serve c) = .attached c ∧
      (s.server.conn c).sent = before ++ frames.filterMap Frame.number := by
  obtain ⟨-, -, done, rest, m, rfl, hm, hloop, -, hsent⟩ := h
  rw [List.length_append] at hm
  generalize s.pc (.serve c) = pc at hloop ⊢
  have hrest : rest = [] := by
    cases hloop with
    | next => exact List.length_eq_zero_iff.1 (by omega)
    | ensure hrest | enqueue hrest =>
      rw [hrest, List.length_cons] at hm
      omega
  subst hrest
  rw [List.append_nil]
  refine ⟨?_, hsent⟩
  cases hloop with
  | next => rfl
  | ensure hrest | enqueue hrest => cases hrest

/-- Along a run the loop takes its steps, and goes no further than it has taken them. -/
theorem Replaying.run (h : Replaying c k frames before 0 0 s)
    (hroom : frames.length ≤ cfg.queueSize) {tr : List Act}
    (hrun : ((lts cfg req).startIn s).Run (Undisturbed cfg req c) tr s')
    (hn : tr.count (.step (.serve c)) ≤ 3 * frames.length) :
    ∃ taken, Replaying c k frames before (tr.count (.step (.serve c))) taken s' := by
  refine hrun.traced (I := fun tr s' => tr.count (.step (.serve c)) ≤ 3 * frames.length →
    ∃ taken, Replaying c k frames before (tr.count (.step (.serve c))) taken s') ?_ ?_ hn
  · rintro _ rfl -
    exact ⟨0, h⟩
  · intro tr s a s' ih hok hs hn
    by_cases hserve : a = .step (.serve c)
    · subst hserve
      rw [List.count_append, List.count_singleton_self] at hn ⊢
      obtain ⟨taken, ih⟩ := ih (by omega)
      obtain ⟨s₁, hs₁, hnext⟩ := ih.serve cfg req (by omega) (by omega)
      rw [show s.step cfg req _ = some s' from hs] at hs₁
      cases hs₁
      exact ⟨taken, hnext⟩
    · rw [List.count_append, List.count_eq_zero_of_not_mem (l := [a]) (by
        rw [List.mem_singleton]
        exact Ne.symm hserve), Nat.add_zero] at hn ⊢
      obtain ⟨taken, ih⟩ := ih hn
      exact ih.step_of_ne hserve hok hs

theorem undisturbed_serve (s : Sys) : Undisturbed cfg req c s (.step (.serve c)) :=
  ⟨by simp, .inl rfl⟩

/-- While the writer does not run, the loop comes to the frame for which there is no room. -/
theorem Replaying.exists_full (h : Replaying c k frames before 0 0 s) (req : ℕ → Request)
    (hlong : cfg.queueSize < frames.length) (n : ℕ) (hn : n ≤ 3 * cfg.queueSize + 2) :
    ∃ tr s', ((lts cfg req).startIn s).Run (Undisturbed cfg req c) tr s' ∧
      Replaying c k frames before n 0 s' := by
  induction n with
  | zero => exact ⟨[], s, .nil rfl, h⟩
  | succ n ih =>
    obtain ⟨tr, s₁, hrun, h₁⟩ := ih (by omega)
    obtain ⟨s₂, hs, h₂⟩ := h₁.serve cfg req (by omega) (by omega)
    exact ⟨_, s₂, hrun.snoc (undisturbed_serve s₁) hs, h₂⟩

/-- For that frame the connection is closed. -/
theorem Replaying.overflow (h : Replaying c k frames before (3 * cfg.queueSize + 2) 0 s)
    (req : ℕ → Request) : ∃ s₁ s₂, (lts cfg req).step s (.step (.serve c)) s₁ ∧
      (lts cfg req).step s₁ (.step (.serve c)) s₂ ∧ (s₂.server.conn c).closed = true := by
  obtain ⟨-, hopened, done, rest, m, -, hn, hloop, hlen, -⟩ := h
  generalize hpc : s.pc (.serve c) = pc at hloop
  cases hloop with
  | next => omega
  | ensure => omega
  | @enqueue f rest' =>
    have hfull : s.server.exec cfg req (.serve c) (.enqueue c f (.replay k rest')) =
        some (s.server, .flag c (.send (.replay k rest'))) := by
      rw [Server.exec, if_neg (by rw [hopened.2]; exact Bool.false_ne_true), if_neg (by omega)]
    let s₁ := s.goto (.serve c) s.server (.flag c (.send (.replay k rest')))
    have hflag : s₁.server.exec cfg req (.serve c) (s₁.pc (.serve c)) =
        some (s₁.server.setConn c fun conn => { conn with closed := true },
          .ensureOut c (.send (.replay k rest'))) := by
      rw [show s₁.pc (.serve c) = _ from pc_goto.trans (if_pos rfl), Server.exec,
        if_neg (by rw [show (s₁.server.conn c).closed = false from hopened.1]; simp)]
    refine ⟨s₁, _, ?_, congrArg (Option.map _) hflag, ?_⟩
    · show s.step cfg req (.step (.serve c)) = some s₁
      rw [step, hpc, hfull]
      rfl
    · simp [goto, Server.setConn]

/-- **A backlog that fits into the queue is queued completely**: each step of the loop can be taken
at once, and with the last one all messages have been queued in order, on a connection that is still
open.  The replay of a longer one closes the connection if the writer does not run. -/
theorem replay_fits (cfg : Config) (req : ℕ → Request) {c k : ℕ} {s₀ s : Sys}
    (hpc : s₀.pc (.serve c) = .replay c k) (hwriter : s₀.pc (.writer c) = .idle)
    (hqueue : (s₀.server.conn c).queue = ([], [], false, false))
    (hs : (lts cfg req).step s₀ (.step (.serve c)) s) :
    (((s₀.server.session k).replayAfter (req c).info.lastSeq).length ≤ cfg.queueSize →
      ∀ tr s', ((lts cfg req).startIn s).Run (Undisturbed cfg req c) tr s' →
      tr.count (.step (.serve c)) ≤
        3 * ((s₀.server.session k).replayAfter (req c).info.lastSeq).length →
      (s'.server.conn c).closed = false ∧
      (tr.count (.step (.serve c)) < 3 *
          ((s₀.server.session k).replayAfter (req c).info.lastSeq).length →
        ∃ s'', (lts cfg req).step s' (.step (.serve c)) s'') ∧
      (tr.count (.step (.serve c)) = 3 *
          ((s₀.server.session k).replayAfter (req c).info.lastSeq).length →
        s'.pc (.serve c) = .attached c ∧ (s'.server.conn c).sent =
          ((s₀.server.session k).replayAfter (req c).info.lastSeq).filterMap Frame.number)) ∧
    (cfg.queueSize < ((s₀.server.session k).replayAfter (req c).info.lastSeq).length →
      ∃ tr s', ((lts cfg req).startIn s).Run (Undisturbed cfg req c) tr s' ∧
        (s'.server.conn c).closed = true) := by
  have h := replaying_of_step hpc hwriter hqueue hs
  generalize (s₀.server.session k).replayAfter (req c).info.lastSeq = frames at *
  refine ⟨fun hroom tr s' hrun hn => ?_, fun hlong => ?_⟩
  · obtain ⟨taken, h'⟩ := h.run hroom hrun hn
    refine ⟨h'.opened.1, fun hlt => ?_, fun heq => ?_⟩
    · obtain ⟨s'', hs'', -⟩ := h'.serve cfg req hlt (by omega)
      exact ⟨s'', hs''⟩
    · rw [heq] at h'
      exact h'.attached
  · obtain ⟨tr, s', hrun, h'⟩ := h.exists_full req hlong _ le_rfl
    obtain ⟨s₁, s₂, hs₁, hs₂, hclosed⟩ := h'.overflow req
    exact ⟨_, s₂, (hrun.snoc (undisturbed_serve s') hs₁).snoc (undisturbed_serve s₁) hs₂, hclosed⟩

/-- A queue of two frames, sessions keep two messages. -/
def wide : Config := ⟨2, 2, 10, 0⟩

/-- The two messages that a session holds -/
def backlog : List StoredMessage :=
  [⟨1, .envelope ⟨⟨1, "a", true⟩, some 0⟩⟩, ⟨2, .envelope ⟨⟨2, "b", true⟩, some 0⟩⟩]

/-- Connection 1 resumes the session. -/
def resuming : Sys where
  server := { now := 0, session := fun _ => { ring := backlog }, nsess := 1 }
  pc := Function.update (fun _ => .idle) (.serve 1) (.replay 1 0)

/-- It has read the buffer. -/
def resumed : Sys :=
  resuming.goto (.serve 1) resuming.server (replayNext 1 0 (backlog.map fun m => m.payload))

/-- A step of the loop or of the writer -/
theorem undisturbed_of_own {a : Act} (h : a = .step (.serve c) ∨ a = .step (.writer c)) :
    Undisturbed cfg req c s a := by
  obtain rfl | rfl := h <;> simp [Undisturbed, Act.thread]

/-- With a queue of two frames both are queued, although the writer takes only the first. -/
theorem replay_fits_two :
    ∃ tr s', (lts wide sameSession).step resuming (.step (.serve 1)) resumed ∧
      ((lts wide sameSession).startIn resumed).Run (Undisturbed wide sameSession 1) tr s' ∧
      s'.pc (.serve 1) = .attached 1 ∧ (s'.server.conn 1).sent = [1, 2] ∧
      (s'.server.conn 1).closed = false := by
  have hs : (lts wide sameSession).step resuming (.step (.serve 1)) resumed := rfl
  obtain ⟨s', hrun, -⟩ := LTS.exists_checked_run (A := (lts wide sameSession).startIn resumed)
    (fun _ _ _ h => h)
    (fun s a h => (undisturbed_of_own (of_decide_eq_true h) : Undisturbed wide sameSession 1 s a))
    (show (LTS.startIn _ resumed).init resumed from rfl)
    [.step (.serve 1), .step (.serve 1), .step (.serve 1), .step (.writer 1), .step (.writer 1),
      .step (.serve 1), .step (.serve 1), .step (.serve 1)] (P := fun _ => True) (by decide)
    fun _ _ h => h
  have hpc : resuming.pc (.serve 1) = .replay 1 0 := rfl
  obtain ⟨hclosed, -, hend⟩ :=
    (replay_fits wide sameSession hpc rfl rfl hs).1 (by decide) _ s' hrun (by decide)
  obtain ⟨hpc, hsent⟩ := hend (by decide)
  exact ⟨_, s', hs, hrun, hpc, hsent, hclosed⟩

/-- Two messages are sent while connection 0 is open, and connection 1 resumes the session. -/
def overflowing : List Act :=
  List.flatten [[.dial 0], List.replicate 4 (.step (.serve 0)),
    [.sendEnvelope 0 0 (some ⟨0, "a", true⟩)], List.replicate 7 (.step (.user 0)),
    List.replicate 2 (.step (.writer 0)), [.sendEnvelope 1 0 (some ⟨0, "b", true⟩)],
    List.replicate 7 (.step (.user 1)), [.dial 1], List.replicate 18 (.step (.serve 1))]

/-- With a queue of one frame the second message finds it full, and the connection that has just
resumed is closed. -/
theorem replay_overflows :
    ∃ s tr, (lts tiny sameSession).Run LTS.anyStep tr s ∧
      ((s.server.session 0).replayAfter 0).length ≤ tiny.capacity ∧
      s.pc (.serve 1) = .ensureOut 1 (.send (.replay 0 [])) ∧
      (s.server.conn 1).closed = true ∧ (s.server.conn 1).sent = [1] := by
  have hinit : (lts tiny sameSession).init { server := { now := 0 } } := ⟨0, rfl⟩
  exact exists_comm.1 ⟨overflowing, LTS.exists_run_of_exec
    (f := fun s a => s.step tiny sameSession a) (fun _ _ _ h => h) hinit _ (by decide +kernel)
    fun _ _ h => h⟩

end Sys

end WebSocket

end GinRpc
