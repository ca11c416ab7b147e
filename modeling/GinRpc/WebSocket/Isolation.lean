import GinRpc.WebSocket.Outbox

/-!
# Whom a session is replayed to

`SessionRegistry.resolve` finds a session by the `session_id` that the client has put into its
query.  It stores the user a session is created for, and does not compare it: who names the session
of somebody else is attached to it and gets its buffer.

* `Pc.resuming` : the connection and the session of an `attachSession` in progress.
* `exec_resuming`, `exec_replays`, `exec_userID` : how a connection comes to its session, what is
  replayed, and who a session belongs to.
* `Sys.Loyal` : a connection that finds a session has the user of the session.
* `Sys.replays_of_loyal` : along every loyal run a session is replayed to its own user only.
-/

namespace GinRpc

namespace WebSocket

/-- The connection that is looking for its session. -/
def Pc.resolving : Pc → Option ℕ
  | .lookup c | .create c => some c
  | _ => none

def Task.resuming (c : ℕ) : Task → Option (ℕ × ℕ)
  | .replay k _ => some (c, k)
  | _ => none

def Caller.resuming : Caller → Option (ℕ × ℕ)
  | .displace c k _ => some (c, k)
  | _ => none

/-- The connection that is being attached, and its session. -/
def Pc.resuming : Pc → Option (ℕ × ℕ)
  | .touch c k | .bind c k _ | .attach c k _ | .replay c k => some (c, k)
  | .check c _ task | .ensure c _ task | .enqueue c _ task => task.resuming c
  | .flag _ caller | .ensureOut _ caller | .closeOut _ caller | .drain _ caller
  | .detach _ caller | .hangUp _ caller => caller.resuming
  | _ => none

section Returns

variable {c k : ℕ} {x : ℕ × ℕ} {resumed : Bool} {frames : List Frame} {task : Task}
  {caller : Caller}

@[grind →] theorem resuming_replayNext (h : (replayNext c k frames).resuming = some x) :
    x = (c, k) := by
  cases frames with
  | nil => cases h
  | cons f rest => exact (Option.some.inj h).symm

@[grind →] theorem resuming_succeeded (h : (task.succeeded c).resuming = some x) :
    task.resuming c = some x := by
  cases task with
  | replay k rest => exact congrArg some (resuming_replayNext h).symm
  | _ => cases h

@[grind =] theorem resuming_failed : (task.failed c).resuming = none := by
  cases task <;> rfl

@[grind →] theorem resuming_afterAttach (h : (afterAttach c k resumed).resuming = some x) :
    x = (c, k) := by
  cases resumed with
  | false => cases h
  | true => exact (Option.some.inj h).symm

@[grind →] theorem resuming_resume (h : (caller.resume c).resuming = some x) :
    caller.resuming = some x := by
  cases caller with
  | send task =>
    rw [Caller.resume, resuming_failed] at h
    cases h
  | displace d k resumed => exact congrArg some (resuming_afterAttach h).symm
  | _ => cases h

end Returns

namespace Server

variable {cfg : Config} {req : ℕ → Request} {s : Server} {t : Tid} {pc : Pc} {r : Server × Pc}

/-- A connection gets the session that it finds, or one that is made for it. -/
theorem exec_resuming (h : s.exec cfg req t pc = some r) {c k : ℕ}
    (hr : r.2.resuming = some (c, k)) :
    pc.resuming = some (c, k) ∨
      (pc.resolving = some c ∧ s.sessions.lookup (req c).info.sessionID = some k) ∨
      (k = s.nsess ∧ r.1 = (s.newSession req c).own k c) := by
  revert h
  fun_cases Server.exec cfg req s t pc <;> intro h <;> cases h <;>
    grind [Pc.resuming, Pc.resolving, Task.resuming, Caller.resuming]

/-- What is replayed goes to the connection that is being attached. -/
theorem exec_replays (h : s.exec cfg req t pc = some r) :
    r.1.replays = s.replays ∨
      ∃ c k, pc.resuming = some (c, k) ∧ r.1.replays = ⟨k, c⟩ :: s.replays := by
  refine exec_state (P := fun s' => s'.replays = s.replays ∨
    ∃ c k, pc.resuming = some (c, k) ∧ s'.replays = ⟨k, c⟩ :: s.replays) h (.inl rfl) fun hw => ?_
  cases hw with
  | @push c f task =>
    cases task with
    | replay k rest => exact .inr ⟨c, k, rfl, rfl⟩
    | direct | envelope => exact .inl rfl
  | _ => exact .inl rfl

/-- A session belongs to its user for ever. -/
theorem exec_userID (h : s.exec cfg req t pc = some r) :
    s.nsess ≤ r.1.nsess ∧ ∀ k < s.nsess, (r.1.session k).userID = (s.session k).userID :=
  ⟨exec_nsess h, fun k hk => exec_sess_keeps (P := fun sess => sess.userID = (s.session k).userID)
    h hk rfl fun hw => by cases hw <;> rfl⟩

/-- The registry names sessions that exist, by their id. -/
theorem exec_sessions (h : s.exec cfg req t pc = some r) {id : String} {k : ℕ}
    (hk : r.1.sessions.lookup id = some k) :
    s.sessions.lookup id = some k ∨
      ∃ c, k = s.nsess ∧ id = (req c).info.sessionID ∧ r.1 = (s.newSession req c).own k c := by
  revert hk
  refine exec_state (P := fun s' => s'.sessions.lookup id = some k → s.sessions.lookup id = some k ∨
    ∃ c, k = s.nsess ∧ id = (req c).info.sessionID ∧ s' = (s.newSession req c).own k c) h .inl
    fun hw hk => ?_
  cases hw with
  | @create c =>
    change (s.newSession req c).sessions.lookup id = some k at hk
    rw [lookup_newSession] at hk
    split_ifs at hk with hid
    · cases hk
      exact .inr ⟨c, rfl, hid, rfl⟩
    · exact .inl hk
  | @push c f task => exact .inl (by cases task <;> exact hk)
  | _ => exact .inl hk

end Server

namespace Sys

variable {cfg : Config} {req : ℕ → Request} {s s' : Sys} {a : Act}

/-- A session is replayed to connections of its user only. -/
def Isolated (req : ℕ → Request) (s : Sys) : Prop :=
  ∀ r ∈ s.server.replays, (s.server.session r.session).userID = (req r.conn).userID

/-- A connection that finds a session has the user of the session. -/
def Loyal (req : ℕ → Request) (s : Sys) : Act → Prop
  | .step t => ∀ c k, (s.pc t).resolving = some c →
      s.server.sessions.lookup (req c).info.sessionID = some k →
      (s.server.session k).userID = (req c).userID
  | _ => True

/-- A session that exists, and its user. -/
def Owned (req : ℕ → Request) (s : Server) (c k : ℕ) : Prop :=
  k < s.nsess ∧ (s.session k).userID = (req c).userID

/-- The invariant of loyal runs. -/
structure Private (req : ℕ → Request) (s : Sys) : Prop where
  registered : ∀ id k, s.server.sessions.lookup id = some k → k < s.server.nsess
  resuming : ∀ t c k, (s.pc t).resuming = some (c, k) → Owned req s.server c k
  replays : ∀ r ∈ s.server.replays, Owned req s.server r.conn r.session

theorem private_init {now : ℤ} : Private req { server := { now := now } } where
  registered _ _ h := by cases h
  resuming := nofun
  replays := nofun

/-- A step that is none of a goroutine keeps sessions and replays, and begins no resume. -/
theorem step_resuming (h : s.step cfg req a = some s') :
    (∃ t r, a = .step t ∧ s.server.exec cfg req t (s.pc t) = some r ∧ s' = s.goto t r.1 r.2) ∨
    (s'.server.session = s.server.session ∧ s'.server.nsess = s.server.nsess ∧
      s'.server.replays = s.server.replays ∧
      (∀ id k, s'.server.sessions.lookup id = some k → s.server.sessions.lookup id = some k) ∧
      ∀ t, s'.pc t = s.pc t ∨ (s'.pc t).resuming = none) := by
  cases a with
  | step t =>
    obtain ⟨r, hr, rfl⟩ := Option.map_eq_some_iff.1 h
    exact .inl ⟨t, r, rfl, hr, rfl⟩
  | tick d =>
    cases h
    exact .inr ⟨rfl, rfl, rfl, fun _ _ h => h, fun _ => .inl rfl⟩
  | _ =>
    right
    revert h
    simp only [step, call]
    grind [pc_goto, goto, Pc.resuming, Task.resuming, Caller.resuming, AList.lookup_erase,
      AList.lookup_erase_ne]

theorem Owned.exec {s : Server} {t : Tid} {pc : Pc} {r : Server × Pc} {c k : ℕ}
    (h : Owned req s c k) (hr : s.exec cfg req t pc = some r) : Owned req r.1 c k := by
  obtain ⟨hle, huser⟩ := Server.exec_userID hr
  exact ⟨h.1.trans_le hle, (huser k h.1).trans h.2⟩

theorem Private.exec (h : s.Private req) {t : Tid} {r : Server × Pc} (hok : s.Loyal req (.step t))
    (hr : s.server.exec cfg req t (s.pc t) = some r) : (s.goto t r.1 r.2).Private req where
  registered id k hk := by
    obtain hold | ⟨c, rfl, -, hnew⟩ := Server.exec_sessions hr hk
    · exact (h.registered id k hold).trans_le (Server.exec_userID hr).1
    · rw [goto, hnew]
      exact Nat.lt_succ_self _
  resuming u c k hu := by
    rw [pc_goto] at hu
    split_ifs at hu with hut
    · obtain hpc | ⟨hpc, hfound⟩ | ⟨rfl, hnew⟩ := Server.exec_resuming hr hu
      · exact (h.resuming t c k hpc).exec hr
      · exact Owned.exec ⟨h.registered _ k hfound, hok c k hpc hfound⟩ hr
      · rw [goto, hnew]
        exact ⟨Nat.lt_succ_self _, by
          rw [Server.session_own, Server.session_newSession, if_pos rfl]⟩
    · exact (h.resuming u c k hu).exec hr
  replays x hx := by
    obtain hold | ⟨c, k, hpc, hnew⟩ := Server.exec_replays hr
    · exact (h.replays x (hold ▸ hx)).exec hr
    · obtain rfl | hx := List.mem_cons.1 (hnew ▸ hx)
      · exact (h.resuming t c k hpc).exec hr
      · exact (h.replays x hx).exec hr

theorem Private.step (h : s.Private req) (hok : s.Loyal req a)
    (hs : s.step cfg req a = some s') : s'.Private req := by
  obtain ⟨t, r, rfl, hr, rfl⟩ | ⟨hsess, hn, hrep, hreg, hpc⟩ := step_resuming hs
  · exact h.exec hok hr
  · refine ⟨fun id k hk => ?_, fun t c k ht => ?_, fun r hr => ?_⟩
    · rw [hn]
      exact h.registered id k (hreg id k hk)
    · rw [Owned, hsess, hn]
      obtain heq | hnone := hpc t
      · exact h.resuming t c k (heq ▸ ht)
      · rw [hnone] at ht
        cases ht
    · rw [Owned, hsess, hn]
      exact h.replays r (hrep ▸ hr)

/-- **A session is replayed to its own user**, along every run in which nobody names the session
of another user. -/
theorem replays_of_loyal {tr : List Act} (hrun : (lts cfg req).Run (Loyal req) tr s) :
    s.Isolated req := by
  have h : s.Private req := by
    refine hrun.invariant ?_ fun _ _ _ h hok hs => h.step hok hs
    rintro s ⟨now, rfl⟩
    exact private_init
  exact fun r hr => (h.replays r hr).2

/-- A loyal step, checked by evaluation. -/
def loyal (req : ℕ → Request) (s : Sys) (a : Act) : Bool :=
  a.thread.all fun t => (s.pc t).resolving.all fun c =>
    (s.server.sessions.lookup (req c).info.sessionID).all fun k =>
      decide ((s.server.session k).userID = (req c).userID)

theorem loyal_of_check (h : s.loyal req a = true) : s.Loyal req a := by
  cases a with
  | step t =>
    intro c k hpc hfound
    rw [loyal, Act.thread, Option.all_some, hpc, Option.all_some, hfound, Option.all_some] at h
    exact of_decide_eq_true h
  | _ => trivial

/-- A queue of four frames, sessions keep two messages. -/
def roomy : Config := ⟨4, 2, 10, 0⟩

/-- The first connection is of `u`, all later ones are of `v`; all name the same session. -/
def guests (u v : String) : ℕ → Request
  | 0 => ⟨u, "s", none, ""⟩
  | _ => ⟨v, "s", none, ""⟩

/-- The first connection sends an envelope, the second one resumes its session. -/
def takeover : List Act :=
  [Act.dial 0] ++ List.replicate 5 (Act.step (.serve 0)) ++
    [Act.sendEnvelope 0 0 (some { action := "a" })] ++ List.replicate 6 (Act.step (.user 0)) ++
    [Act.dial 1] ++ List.replicate 14 (Act.step (.serve 1))

theorem isolated_same_user :
    ∃ s, (lts roomy (guests "u" "u")).Run (Loyal (guests "u" "u")) takeover s ∧
      s.server.replays = [⟨0, 1⟩] ∧ s.Isolated (guests "u" "u") := by
  exact LTS.exists_checked_run (A := lts roomy (guests "u" "u")) (fun _ _ _ h => h)
    (fun _ _ => loyal_of_check)
    ⟨0, rfl⟩ _ (by decide) fun s hrun hs => ⟨hs, replays_of_loyal hrun⟩

/-- A second user names the session of the first one and gets its message. -/
theorem replayed_to_stranger :
    ∃ s, (lts roomy (guests "u" "v")).Run LTS.anyStep takeover s ∧
      ¬ s.Isolated (guests "u" "v") := by
  refine LTS.exists_run_of_exec (A := lts roomy (guests "u" "v"))
    (f := fun s a => s.step roomy (guests "u" "v") a) (fun _ _ _ h => h) ⟨0, rfl⟩ _
    (P := fun s => s.server.replays = [⟨0, 1⟩] ∧ (s.server.session 0).userID = "u")
    (by decide) fun s hrun hs h => ?_
  have := h ⟨0, 1⟩ (by rw [hs.1]; exact List.mem_singleton_self _)
  rw [hs.2] at this
  exact absurd this (by decide)

end Sys

end WebSocket

end GinRpc
