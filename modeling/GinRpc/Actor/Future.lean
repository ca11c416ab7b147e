import GinRpc.LTS.Basic

/-!
# Ask

Model of `System.Ask` and `futureActor` in `plugins/actor/future.go`, with the parts of `System` and
`actorCell` that a future goes through.

A run begins when `Spawn` has registered the cell of the future, whose PID nobody else has.  Every
goroutine is a list of operations that it still has to do: the caller of `Ask`, the goroutine of the
cell, the timer, and any number of others that call `Stop` for the PID or that `Shutdown` starts for
the cell.  Replies are put into the mailbox at any time, also after it has been closed, since a
sender may have looked at the flag before.

`sync.Once` and the compare-and-swap in `actorCell.stop` let one goroutine through; where it is then
is part of the shared state.

* `ask_once` : the channel gets at most one value, which is the first reply; it is closed at most
  once and not written to afterwards.  When the callback of the timer has run, it has been closed,
  and the future is not registered.
-/

namespace GinRpc

namespace Actor

namespace Future

inductive Thread where
  | caller
  /-- the goroutine of the cell -/
  | actor
  /-- the callback of `time.AfterFunc` -/
  | timer
  | other (j : ℕ)
  deriving DecidableEq

/-- What a goroutine has to do next -/
inductive Op (M : Type) where
  /-- `cell.start()` -/
  | start
  /-- `s.send(ctx, to, msg, pid)` -/
  | send
  /-- `time.AfterFunc` -/
  | arm
  | deliver (msg : Option M)
  /-- `Stop(pid)`, where the cell is looked up -/
  | stopPid
  /-- `cell.stop()` -/
  | stop
  /-- `<-cell.done` -/
  | waitDone
  /-- `c.mailbox.next()` -/
  | next
  /-- `close(c.done)` -/
  | closeDone
  /-- the callback returns -/
  | ran
  deriving DecidableEq

/-- `f.once`, and how far the goroutine is that has been let through -/
inductive Once (M : Type) where
  | fresh
  | offering (t : Thread) (msg : Option M)
  | closing (t : Thread)
  | done
  deriving DecidableEq

/-- `c.stopped`, and how far the goroutine is that has set it -/
inductive Stopping where
  | fresh
  | removing (t : Thread)
  | shutting (t : Thread)
  | stopped
  deriving DecidableEq

structure State (M : Type) where
  registered : Bool := true
  stopping : Stopping := .fresh
  mailboxClosed : Bool := false
  /-- all replies that have been put into the mailbox -/
  replies : List (Option M) := []
  /-- how many of them the actor has taken -/
  handed : ℕ := 0
  done : Bool := false
  once : Once M := .fresh
  /-- the values that have been sent on the channel -/
  sent : List M := []
  /-- how many of them have been received -/
  received : ℕ := 0
  /-- how often the channel has been closed -/
  closes : ℕ := 0
  /-- it has been written to after it was closed, which panics -/
  late : Bool := false
  /-- the callback of the timer has returned -/
  ran : Bool := false
  prog : Thread → List (Op M)

inductive Act (M : Type) where
  | reply (msg : Option M)
  /-- the caller receives the value -/
  | receive
  /-- a call of `Stop` for the PID -/
  | stop (j : ℕ)
  /-- `Shutdown` starts a goroutine for the cell, if it is registered -/
  | shutdown (j : ℕ)
  /-- a goroutine takes a step; `ok` is what `send` comes to -/
  | run (t : Thread) (ok : Bool)
  deriving DecidableEq

variable {M : Type}

namespace State

variable (s : State M)

def goOn (t : Thread) (ops : List (Op M)) : State M :=
  { s with prog := Function.update s.prog t ops }

/-- `select { case f.ch <- msg: default: }`, for a message that is not nil -/
def offer : Option M → State M
  | none => s
  | some m =>
    if 0 < s.closes then { s with late := true }
    else if s.sent.length < s.received + 1 then { s with sent := s.sent ++ [m] }
    else s

def exec (t : Thread) (ok : Bool) (rest : List (Op M)) : Op M → Option (State M)
  | .start => some ((s.goOn t rest).goOn .actor [.next, .stop, .closeDone])
  | .send => some (s.goOn t (if ok then .arm :: rest else .stopPid :: .deliver none :: rest))
  | .arm => some ((s.goOn t rest).goOn .timer [.deliver none, .stopPid, .ran])
  | .deliver msg =>
    match s.once with
    | .fresh => some { s with once := .offering t msg }
    | .offering u msg => if u = t then some { s.offer msg with once := .closing t } else none
    | .closing u =>
      if u = t then some { s.goOn t rest with closes := s.closes + 1, once := .done } else none
    | .done => some (s.goOn t rest)
  | .stopPid => some (s.goOn t (if s.registered then .stop :: .waitDone :: rest else rest))
  | .stop =>
    match s.stopping with
    | .fresh => some { s with stopping := .removing t }
    | .removing u =>
      if u = t then some { s with registered := false, stopping := .shutting t }
      else some (s.goOn t rest)
    | .shutting u =>
      if u = t then some { s.goOn t rest with mailboxClosed := true, stopping := .stopped }
      else some (s.goOn t rest)
    | .stopped => some (s.goOn t rest)
  | .waitDone => if s.done then some (s.goOn t rest) else none
  | .next =>
    match s.replies[s.handed]? with
    | some msg =>
      -- `Receive` delivers the message and stops the actor
      some { s.goOn t (.deliver msg :: .stop :: .next :: rest) with handed := s.handed + 1 }
    | none => if s.mailboxClosed then some (s.goOn t rest) else none
  | .closeDone => some { s.goOn t rest with done := true }
  | .ran => some { s.goOn t rest with ran := true }

/-- The mailbox has room for `size` replies. -/
def step (size : ℕ) : Act M → Option (State M)
  | .reply msg =>
    if s.replies.length < s.handed + size then some { s with replies := s.replies ++ [msg] }
    else none
  | .receive =>
    if s.received < s.sent.length then some { s with received := s.received + 1 } else none
  | .stop j => if s.prog (.other j) = [] then some (s.goOn (.other j) [.stopPid]) else none
  | .shutdown j =>
    if s.prog (.other j) = [] then
      some (s.goOn (.other j) (if s.registered then [.stop, .waitDone] else []))
    else none
  | .run t ok =>
    match s.prog t with
    | [] => none
    | op :: rest => s.exec t ok rest op

end State

/-- `Spawn` has registered the cell. -/
def spawned : State M where
  prog
    | .caller => [.start, .send]
    | _ => []

def lts (size : ℕ) : LTS (State M) (Act M) where
  init s := s = spawned
  step s a s' := s.step size a = some s'

/-! ### The invariant -/

/-- What the channel is like, depending on who has been let through. -/
def Once.Ok (sent : List M) (closes : ℕ) : Once M → Prop
  | .fresh | .offering _ _ => sent = [] ∧ closes = 0
  | .closing _ => sent.length ≤ 1 ∧ closes = 0
  | .done => sent.length ≤ 1 ∧ closes = 1

theorem Once.Ok.le {sent : List M} {closes : ℕ} {once : Once M} (h : once.Ok sent closes) :
    sent.length ≤ 1 ∧ closes ≤ 1 := by
  cases once with
  | closing t => exact ⟨h.1, h.2 ▸ Nat.zero_le 1⟩
  | done => exact ⟨h.1, Nat.le_of_eq h.2⟩
  | _ =>
    obtain ⟨rfl, rfl⟩ := h
    exact ⟨Nat.zero_le 1, Nat.zero_le 1⟩

/-- The cell has been removed. -/
def Stopping.Past : Stopping → Prop
  | .fresh | .removing _ => False
  | .shutting _ | .stopped => True

/-- Where the goroutine of the cell can be. -/
inductive ActorAt (s : State M) : List (Op M) → Prop
  | off : ActorAt s []
  | next : (s.once = .fresh → s.handed = 0) → ActorAt s [.next, .stop, .closeDone]
  | deliver (msg : Option M) : (s.once = .fresh → s.replies.head? = some msg) →
      ActorAt s [.deliver msg, .stop, .next, .stop, .closeDone]
  | stop : s.once = .done → ActorAt s [.stop, .next, .stop, .closeDone]
  | leave : s.mailboxClosed = true → ActorAt s [.stop, .closeDone]
  | last : s.mailboxClosed = true → ActorAt s [.closeDone]

/-- Where the callback of the timer can be. -/
inductive TimerAt (s : State M) : List (Op M) → Prop
  | off : TimerAt s []
  | deliver : TimerAt s [.deliver none, .stopPid, .ran]
  | stopPid : s.once = .done → TimerAt s [.stopPid, .ran]
  | stop : s.once = .done → TimerAt s [.stop, .waitDone, .ran]
  | waitDone : s.once = .done → TimerAt s [.waitDone, .ran]
  | ran : s.once = .done → s.registered = false → TimerAt s [.ran]

/-- What the caller and the others can have to do. -/
def Op.Plain : Op M → Prop
  | .start | .send | .arm | .deliver none | .stopPid | .stop | .waitDone => True
  | .deliver (some _) | .next | .closeDone | .ran => False

/-- Where a goroutine can be. -/
def At (s : State M) (ops : List (Op M)) : Thread → Prop
  | .actor => ActorAt s ops
  | .timer => TimerAt s ops
  | .caller | .other _ => ∀ op ∈ ops, op.Plain

structure Inv (s : State M) : Prop where
  channel : s.once.Ok s.sent s.closes
  late : s.late = false
  sent : ∀ m ∈ s.sent, s.replies.head? = some (some m)
  offering : ∀ t m, s.once = .offering t (some m) → s.replies.head? = some (some m)
  past : s.stopping.Past → s.registered = false
  closed : s.mailboxClosed = true → s.registered = false
  done : s.done = true → s.mailboxClosed = true
  ran : s.ran = true → s.once = .done ∧ s.registered = false
  at_ : ∀ t, At s (s.prog t) t
  start : ∀ t, .start ∈ s.prog t → t = .caller ∧ s.prog t = [.start, .send] ∧
    s.prog .actor = [] ∧ s.handed = 0

/-- What other goroutines rely on. -/
structure Grows (s s' : State M) : Prop where
  fresh : s'.once = .fresh → s.once = .fresh
  done : s.once = .done → s'.once = .done
  head : ∀ msg, s.replies.head? = some msg → s'.replies.head? = some msg
  closed : s.mailboxClosed = true → s'.mailboxClosed = true
  gone : s.registered = false → s'.registered = false

variable {s s' : State M} {t : Thread} {ops rest : List (Op M)} {msg : Option M}

theorem At.grows (h : At s ops t) (hs : Grows s s')
    (hhanded : t = .actor → s'.handed = s.handed) : At s' ops t := by
  cases t with
  | caller => exact h
  | other j => exact h
  | actor =>
    cases h with
    | off => exact .off
    | next hfresh => exact .next fun h => (hhanded rfl).trans (hfresh (hs.fresh h))
    | deliver msg hfresh => exact .deliver msg fun h => hs.head msg (hfresh (hs.fresh h))
    | stop hdone => exact .stop (hs.done hdone)
    | leave hclosed => exact .leave (hs.closed hclosed)
    | last hclosed => exact .last (hs.closed hclosed)
  | timer =>
    cases h with
    | off => exact .off
    | deliver => exact .deliver
    | stopPid hdone => exact .stopPid (hs.done hdone)
    | stop hdone => exact .stop (hs.done hdone)
    | waitDone hdone => exact .waitDone (hs.done hdone)
    | ran hdone hgone => exact .ran (hs.done hdone) (hs.gone hgone)

theorem At.delivered (h : At s (.deliver msg :: rest) t) (hdone : s'.once = .done) :
    At s' rest t := by
  cases t with
  | actor =>
    cases h
    exact .stop hdone
  | timer =>
    cases h
    exact .stopPid hdone
  | _ => exact (List.forall_mem_cons.1 h).2

theorem At.stopped (h : At s (.stop :: rest) t) : At s rest t := by
  cases t with
  | actor =>
    cases h with
    | stop hdone =>
      refine .next fun hfresh => ?_
      rw [hdone] at hfresh
      cases hfresh
    | leave hclosed => exact .last hclosed
  | timer =>
    cases h with
    | stop hdone => exact .waitDone hdone
  | _ => exact (List.forall_mem_cons.1 h).2

namespace Inv

theorem progs (h : Inv s) (hs : Grows s s') (hprog : s'.prog = Function.update s.prog t ops)
    (hat : At s' ops t) (hops : .start ∉ ops) (hactor : t = .actor → ∀ u, .start ∉ s.prog u)
    (hhanded : t ≠ .actor → s'.handed = s.handed) :
    (∀ u, At s' (s'.prog u) u) ∧ ∀ u, .start ∈ s'.prog u → u = .caller ∧
      s'.prog u = [.start, .send] ∧ s'.prog .actor = [] ∧ s'.handed = 0 := by
  refine ⟨fun u => ?_, fun u hu => ?_⟩
  · rw [hprog]
    by_cases hut : u = t
    · subst hut
      rwa [Function.update_self]
    · rw [Function.update_of_ne hut]
      exact (h.at_ u).grows hs fun hu => hhanded fun ht => hut (hu.trans ht.symm)
  · rw [hprog] at hu ⊢
    by_cases hut : u = t
    · subst hut
      rw [Function.update_self] at hu
      exact absurd hu hops
    · rw [Function.update_of_ne hut] at hu
      obtain ⟨hcaller, hstart, hoff, hzero⟩ := h.start u hu
      have ht : t ≠ .actor := fun ht => hactor ht u hu
      rw [Function.update_of_ne hut, Function.update_of_ne ht.symm, hhanded ht]
      exact ⟨hcaller, hstart, hoff, hzero⟩

theorem at_prog (h : Inv s) (hprog : s.prog t = ops) : At s ops t := hprog ▸ h.at_ t

theorem start_notMem {op : Op M} (h : Inv s) (hprog : s.prog t = op :: rest) : .start ∉ rest := by
  intro hmem
  obtain ⟨-, hstart, -⟩ := h.start t (by rw [hprog]; exact List.mem_cons_of_mem _ hmem)
  rw [hprog] at hstart
  cases hstart
  simp at hmem

/-- The actor has been started when it runs. -/
theorem started {op : Op M} (h : Inv s) (hprog : s.prog t = op :: rest) (ht : t = .actor)
    (u : Thread) : .start ∉ s.prog u := by
  intro hu
  obtain ⟨-, -, hoff, -⟩ := h.start u hu
  rw [← ht, hprog] at hoff
  cases hoff

/-- Nothing but the program of a goroutine changes. -/
theorem goOn (h : Inv s) (hat : At s ops t) (hops : .start ∉ ops)
    (hactor : t = .actor → ∀ u, .start ∉ s.prog u) : Inv (s.goOn t ops) := by
  have hs : Grows s (s.goOn t ops) := ⟨id, id, fun _ => id, id, id⟩
  obtain ⟨hprogs, hstart⟩ := h.progs hs rfl (hat.grows hs fun _ => rfl) hops hactor fun _ => rfl
  exact { h with at_ := hprogs, start := hstart }

/-- The programs stay the same. -/
theorem frame (h : Inv s) (hs : Grows s s') (hprog : s'.prog = s.prog)
    (hhanded : s'.handed = s.handed) :
    (∀ u, At s' (s'.prog u) u) ∧ ∀ u, .start ∈ s'.prog u → u = .caller ∧
      s'.prog u = [.start, .send] ∧ s'.prog .actor = [] ∧ s'.handed = 0 := by
  refine ⟨fun u => ?_, fun u hu => ?_⟩
  · rw [hprog]
    exact (h.at_ u).grows hs fun _ => hhanded
  · rw [hprog] at hu ⊢
    rw [hhanded]
    exact h.start u hu

theorem reply (h : Inv s) (msg : Option M) : Inv { s with replies := s.replies ++ [msg] } := by
  have hhead : ∀ m, s.replies.head? = some m → (s.replies ++ [msg]).head? = some m := by
    intro m hm
    rw [List.head?_append, hm]
    rfl
  have hs : Grows s { s with replies := s.replies ++ [msg] } := ⟨id, id, hhead, id, id⟩
  obtain ⟨hprogs, hstart⟩ := h.frame hs rfl rfl
  exact { h with
    sent := fun m hm => hhead _ (h.sent m hm)
    offering := fun t m ho => hhead _ (h.offering t m ho)
    at_ := hprogs
    start := hstart }

theorem receive (h : Inv s) : Inv { s with received := s.received + 1 } := by
  have hs : Grows s { s with received := s.received + 1 } := ⟨id, id, fun _ => id, id, id⟩
  obtain ⟨hprogs, hstart⟩ := h.frame hs rfl rfl
  exact { h with at_ := hprogs, start := hstart }

/-! ### One operation -/

theorem exec_start (h : Inv s) (hprog : s.prog t = .start :: rest) :
    Inv ((s.goOn t rest).goOn .actor [.next, .stop, .closeDone]) := by
  obtain ⟨rfl, hstart, -, hzero⟩ := h.start t (by simp [hprog])
  rw [hprog] at hstart
  cases hstart
  have hcaller : Inv (s.goOn .caller [.send]) :=
    h.goOn (fun op hop => by simp_all [Op.Plain]) (by simp) (by simp)
  refine hcaller.goOn (.next fun _ => hzero) (by simp) fun _ u hu => ?_
  obtain ⟨rfl, hprog', -⟩ := hcaller.start u hu
  simp [State.goOn] at hprog'

theorem send (h : Inv s) (hprog : s.prog t = .send :: rest) (ok : Bool) :
    Inv (s.goOn t (if ok then .arm :: rest else .stopPid :: .deliver none :: rest)) := by
  have hat := h.at_prog hprog
  have hrest := h.start_notMem hprog
  refine h.goOn ?_ (by split_ifs <;> simp [hrest]) (h.started hprog)
  cases t with
  | actor => cases hat
  | timer => cases hat
  | _ =>
    obtain ⟨-, hplain⟩ := List.forall_mem_cons.1 hat
    split_ifs
    · exact List.forall_mem_cons.2 ⟨trivial, hplain⟩
    · exact List.forall_mem_cons.2 ⟨trivial, List.forall_mem_cons.2 ⟨trivial, hplain⟩⟩

theorem arm (h : Inv s) (hprog : s.prog t = .arm :: rest) :
    Inv ((s.goOn t rest).goOn .timer [.deliver none, .stopPid, .ran]) := by
  have hat := h.at_prog hprog
  have hrest : At s rest t := by
    cases t with
    | actor => cases hat
    | timer => cases hat
    | _ => exact (List.forall_mem_cons.1 hat).2
  exact (h.goOn hrest (h.start_notMem hprog) (h.started hprog)).goOn .deliver (by simp) (by simp)

theorem enter (h : Inv s) (hprog : s.prog t = .deliver msg :: rest) (honce : s.once = .fresh) :
    Inv { s with once := .offering t msg } := by
  have hs : Grows s { s with once := .offering t msg } := by
    refine ⟨fun hfresh => ?_, fun hdone => ?_, fun _ => id, id, id⟩
    · cases hfresh
    · rw [honce] at hdone
      cases hdone
  have hat := h.at_prog hprog
  have hchannel := h.channel
  rw [honce] at hchannel
  obtain ⟨hprogs, hstart⟩ := h.frame hs rfl rfl
  refine { h with
    channel := hchannel
    offering := fun u m ho => ?_
    ran := fun hran => ?_
    at_ := hprogs
    start := hstart }
  · obtain ⟨rfl, rfl⟩ : t = u ∧ msg = some m := by simpa using ho
    -- only the actor delivers a value
    cases t with
    | actor =>
      cases hat with
      | deliver _ hhead => exact hhead honce
    | timer => cases hat
    | _ => exact (hat _ List.mem_cons_self).elim
  · have hdone := (h.ran hran).1
    rw [honce] at hdone
    cases hdone

theorem offer_eq (hsent : s.sent = []) (hcloses : s.closes = 0) (msg : Option M) :
    s.offer msg = { s with sent := msg.toList } := by
  cases msg with
  | none =>
    rw [State.offer, Option.toList_none, ← hsent]
  | some m => simp [State.offer, hsent, hcloses]

theorem offer (h : Inv s) (honce : s.once = .offering t msg) :
    Inv { s.offer msg with once := .closing t } := by
  have hchannel := h.channel
  rw [honce] at hchannel
  obtain ⟨hsent, hcloses⟩ := hchannel
  rw [offer_eq hsent hcloses]
  have hs : Grows s { s with sent := msg.toList, once := .closing t } := by
    refine ⟨fun hfresh => ?_, fun hdone => ?_, fun _ => id, id, id⟩
    · cases hfresh
    · rw [honce] at hdone
      cases hdone
  obtain ⟨hprogs, hstart⟩ := h.frame hs rfl rfl
  refine { h with
    channel := ⟨by cases msg <;> simp, hcloses⟩
    sent := fun m hm => ?_
    offering := fun u m ho => by cases ho
    ran := fun hran => ?_
    at_ := hprogs
    start := hstart }
  · obtain rfl : msg = some m := by simpa using hm
    exact h.offering t m honce
  · have hdone := (h.ran hran).1
    rw [honce] at hdone
    cases hdone

theorem close (h : Inv s) (hprog : s.prog t = .deliver msg :: rest)
    (honce : s.once = .closing t) :
    Inv { s.goOn t rest with closes := s.closes + 1, once := .done } := by
  have hat := h.at_prog hprog
  have hchannel := h.channel
  rw [honce] at hchannel
  have hs : Grows s { s.goOn t rest with closes := s.closes + 1, once := .done } := by
    refine ⟨fun hfresh => ?_, fun _ => rfl, fun _ => id, id, id⟩
    cases hfresh
  obtain ⟨hprogs, hstart⟩ := h.progs hs rfl (hat.delivered rfl) (h.start_notMem hprog)
    (h.started hprog) fun _ => rfl
  exact { h with
    channel := ⟨hchannel.1, congrArg (· + 1) hchannel.2⟩
    offering := fun u m ho => by cases ho
    ran := fun hran => ⟨rfl, (h.ran hran).2⟩
    at_ := hprogs
    start := hstart }

/-- `Stop` looks for the cell. -/
theorem stopPid (h : Inv s) (hprog : s.prog t = .stopPid :: rest) :
    Inv (s.goOn t (if s.registered then .stop :: .waitDone :: rest else rest)) := by
  have hat := h.at_prog hprog
  have hrest := h.start_notMem hprog
  refine h.goOn ?_ (by split_ifs <;> simp [hrest]) (h.started hprog)
  cases t with
  | actor => cases hat
  | timer =>
    cases hat with
    | stopPid hdone =>
      split_ifs with hreg
      · exact .stop hdone
      · exact .ran hdone (by simpa using hreg)
  | _ =>
    obtain ⟨-, hplain⟩ := List.forall_mem_cons.1 hat
    split_ifs
    · exact List.forall_mem_cons.2 ⟨trivial, List.forall_mem_cons.2 ⟨trivial, hplain⟩⟩
    · exact hplain

theorem exec_stop {ok : Bool} (h : Inv s) (hprog : s.prog t = .stop :: rest)
    (hst : s.exec t ok rest .stop = some s') : Inv s' := by
  have hat := h.at_prog hprog
  -- whoever does not get through goes on
  have hlost : Inv (s.goOn t rest) :=
    h.goOn hat.stopped (h.start_notMem hprog) (h.started hprog)
  rw [State.exec] at hst
  split at hst
  next hstop =>
    cases hst
    have hs : Grows s { s with stopping := .removing t } := ⟨id, id, fun _ => id, id, id⟩
    obtain ⟨hprogs, hstart⟩ := h.frame hs rfl rfl
    exact { h with past := False.elim, at_ := hprogs, start := hstart }
  next u hstop =>
    split_ifs at hst
    · cases hst
      have hs : Grows s { s with registered := false, stopping := .shutting t } :=
        ⟨id, id, fun _ => id, id, fun _ => rfl⟩
      obtain ⟨hprogs, hstart⟩ := h.frame hs rfl rfl
      exact { h with
        past := fun _ => rfl
        closed := fun _ => rfl
        ran := fun hran => ⟨(h.ran hran).1, rfl⟩
        at_ := hprogs
        start := hstart }
    · cases hst
      exact hlost
  next u hstop =>
    split_ifs at hst
    · cases hst
      have hgone : s.registered = false := h.past (by rw [hstop]; trivial)
      have hs : Grows s { s.goOn t rest with mailboxClosed := true, stopping := .stopped } :=
        ⟨id, id, fun _ => id, fun _ => rfl, id⟩
      obtain ⟨hprogs, hstart⟩ := h.progs hs rfl (hat.stopped.grows hs fun _ => rfl)
        (h.start_notMem hprog) (h.started hprog) fun _ => rfl
      exact { h with
        past := fun _ => hgone
        closed := fun _ => hgone
        done := fun _ => rfl
        at_ := hprogs
        start := hstart }
    · cases hst
      exact hlost
  next hstop =>
    cases hst
    exact hlost

theorem waitDone (h : Inv s) (hprog : s.prog t = .waitDone :: rest) (hdone : s.done = true) :
    Inv (s.goOn t rest) := by
  have hat := h.at_prog hprog
  refine h.goOn ?_ (h.start_notMem hprog) (h.started hprog)
  cases t with
  | actor => cases hat
  | timer =>
    cases hat with
    -- the loop has ended, so the mailbox was closed, after the cell had been removed
    | waitDone honce => exact .ran honce (h.closed (h.done hdone))
  | _ => exact (List.forall_mem_cons.1 hat).2

/-- Only the goroutine of the cell takes messages. -/
theorem at_next (h : Inv s) (hprog : s.prog t = .next :: rest) :
    t = .actor ∧ rest = [.stop, .closeDone] ∧ (s.once = .fresh → s.handed = 0) := by
  have hat := h.at_prog hprog
  cases t with
  | actor =>
    cases hat with
    | next hfresh => exact ⟨rfl, rfl, hfresh⟩
  | timer => cases hat
  | _ => exact (hat _ List.mem_cons_self).elim

theorem next (h : Inv s) (hprog : s.prog t = .next :: rest)
    (hmsg : s.replies[s.handed]? = some msg) :
    Inv { s.goOn t (.deliver msg :: .stop :: .next :: rest) with handed := s.handed + 1 } := by
  have hrest := h.start_notMem hprog
  obtain ⟨rfl, rfl, hfresh⟩ := h.at_next hprog
  have hs : Grows s { s.goOn .actor [.deliver msg, .stop, .next, .stop, .closeDone] with
      handed := s.handed + 1 } := ⟨id, id, fun _ => id, id, id⟩
  have hat : At { s.goOn .actor [.deliver msg, .stop, .next, .stop, .closeDone] with
      handed := s.handed + 1 } [.deliver msg, .stop, .next, .stop, .closeDone] .actor := by
    refine .deliver msg fun honce => ?_
    rw [hfresh honce] at hmsg
    rwa [List.head?_eq_getElem?]
  obtain ⟨hprogs, hstart⟩ := h.progs hs rfl hat (by simp) (h.started hprog)
    fun hne => absurd rfl hne
  exact { h with at_ := hprogs, start := hstart }

theorem leave (h : Inv s) (hprog : s.prog t = .next :: rest) (hclosed : s.mailboxClosed = true) :
    Inv (s.goOn t rest) := by
  obtain ⟨rfl, rfl, -⟩ := h.at_next hprog
  exact h.goOn (.leave hclosed) (by simp) (h.started hprog)

theorem closeDone (h : Inv s) (hprog : s.prog t = .closeDone :: rest) :
    Inv { s.goOn t rest with done := true } := by
  have hat := h.at_prog hprog
  have hs : Grows s { s.goOn t rest with done := true } := ⟨id, id, fun _ => id, id, id⟩
  obtain ⟨hclosed, hoff⟩ : s.mailboxClosed = true ∧
      At { s.goOn t rest with done := true } rest t := by
    cases t with
    | actor =>
      cases hat with
      | last hclosed => exact ⟨hclosed, .off⟩
    | timer => cases hat
    | _ => exact (hat _ List.mem_cons_self).elim
  obtain ⟨hprogs, hstart⟩ := h.progs hs rfl hoff (h.start_notMem hprog) (h.started hprog)
    fun _ => rfl
  exact { h with done := fun _ => hclosed, at_ := hprogs, start := hstart }

theorem exec_ran (h : Inv s) (hprog : s.prog t = .ran :: rest) :
    Inv { s.goOn t rest with ran := true } := by
  have hat := h.at_prog hprog
  have hs : Grows s { s.goOn t rest with ran := true } := ⟨id, id, fun _ => id, id, id⟩
  obtain ⟨hran, hoff⟩ : (s.once = .done ∧ s.registered = false) ∧
      At { s.goOn t rest with ran := true } rest t := by
    cases t with
    | actor => cases hat
    | timer =>
      cases hat with
      | ran hdone hgone => exact ⟨⟨hdone, hgone⟩, .off⟩
    | _ => exact (hat _ List.mem_cons_self).elim
  obtain ⟨hprogs, hstart⟩ := h.progs hs rfl hoff (h.start_notMem hprog) (h.started hprog)
    fun _ => rfl
  exact { h with ran := fun _ => hran, at_ := hprogs, start := hstart }

theorem exec {op : Op M} {ok : Bool} (h : Inv s) (hprog : s.prog t = op :: rest)
    (hst : s.exec t ok rest op = some s') : Inv s' := by
  cases op with
  | start =>
    cases hst
    exact h.exec_start hprog
  | send =>
    cases hst
    exact h.send hprog ok
  | arm =>
    cases hst
    exact h.arm hprog
  | deliver msg =>
    rw [State.exec] at hst
    split at hst
    next honce =>
      cases hst
      exact h.enter hprog honce
    next u msg' honce =>
      split_ifs at hst with hu
      cases hst
      exact h.offer (hu ▸ honce)
    next u honce =>
      split_ifs at hst with hu
      cases hst
      exact h.close hprog (hu ▸ honce)
    next honce =>
      cases hst
      exact h.goOn ((h.at_prog hprog).delivered honce) (h.start_notMem hprog) (h.started hprog)
  | stopPid =>
    cases hst
    exact h.stopPid hprog
  | stop => exact h.exec_stop hprog hst
  | waitDone =>
    rw [State.exec] at hst
    split_ifs at hst with hdone
    cases hst
    exact h.waitDone hprog hdone
  | next =>
    rw [State.exec] at hst
    split at hst
    next msg hmsg =>
      cases hst
      exact h.next hprog hmsg
    next hmsg =>
      split_ifs at hst with hclosed
      cases hst
      exact h.leave hprog hclosed
  | closeDone =>
    cases hst
    exact h.closeDone hprog
  | ran =>
    cases hst
    exact h.exec_ran hprog

theorem step {size : ℕ} {a : Act M} (h : Inv s) (hst : s.step size a = some s') : Inv s' := by
  cases a with
  | reply msg =>
    rw [State.step] at hst
    split_ifs at hst
    cases hst
    exact h.reply msg
  | receive =>
    rw [State.step] at hst
    split_ifs at hst
    cases hst
    exact h.receive
  | stop j =>
    rw [State.step] at hst
    split_ifs at hst
    cases hst
    refine h.goOn (fun op hop => ?_) (by simp) (by simp)
    obtain rfl := List.mem_singleton.1 hop
    trivial
  | shutdown j =>
    rw [State.step] at hst
    split_ifs at hst <;> cases hst
    · refine h.goOn (fun op hop => ?_) (by simp) (by simp)
      simp only [List.mem_cons, List.not_mem_nil, or_false] at hop
      rcases hop with rfl | rfl <;> trivial
    · exact h.goOn (fun op hop => by cases hop) (by simp) (by simp)
  | run t ok =>
    rw [State.step] at hst
    split at hst
    · cases hst
    next op rest hprog => exact h.exec hprog hst

end Inv

theorem inv_spawned : Inv (spawned : State M) where
  channel := ⟨rfl, rfl⟩
  late := rfl
  sent m hm := by cases hm
  offering t m h := by cases h
  past h := h.elim
  closed h := by cases h
  done h := by cases h
  ran h := by cases h
  at_ t := by
    cases t with
    | caller =>
      intro op hop
      have hcases : op = .start ∨ op = .send := by simpa [spawned] using hop
      rcases hcases with rfl | rfl <;> trivial
    | actor => exact .off
    | timer => exact .off
    | other j => exact fun op hop => by cases hop
  start t h := by
    cases t with
    | caller => exact ⟨rfl, rfl, rfl, rfl⟩
    | _ => cases h

/-- **A question is answered once**, in every interleaving of replies, the timer, `Stop` and
`Shutdown`: at most one value is sent, and it is the first reply; the channel is closed at most once
and is not written to afterwards.  When the callback of the timer has run, it has been closed and
the future is not registered. -/
theorem ask_once {size : ℕ} {tr : List (Act M)} {s : State M}
    (h : (lts size).Run LTS.anyStep tr s) :
    s.sent.length ≤ 1 ∧ (∀ m ∈ s.sent, s.replies.head? = some (some m)) ∧ s.closes ≤ 1 ∧
    s.late = false ∧ (s.ran = true → s.closes = 1 ∧ s.registered = false) := by
  have hinv : Inv s := by
    refine h.invariant ?_ fun s a s' hs _ hst => hs.step hst
    rintro s rfl
    exact inv_spawned
  refine ⟨hinv.channel.le.1, hinv.sent, hinv.channel.le.2, hinv.late, fun hran => ?_⟩
  obtain ⟨honce, hgone⟩ := hinv.ran hran
  have hchannel := hinv.channel
  rw [honce] at hchannel
  exact ⟨hchannel.2, hgone⟩

/-- A reply that comes before the timer -/
theorem ask_once_reply :
    ∃ tr, ∃ s : State ℕ, (lts 64).Run LTS.anyStep tr s ∧ s.sent = [7] ∧ s.ran = true ∧
      s.closes = 1 ∧ s.registered = false := by
  have hinit : (lts 64).init (spawned : State ℕ) := rfl
  refine ⟨[.run .caller true, .run .caller true, .run .caller true, .reply (some 7)] ++
    List.replicate 10 (.run .actor true) ++ List.replicate 3 (.run .timer true), ?_⟩
  refine LTS.exists_run_of_exec (f := fun s => s.step 64) (fun _ _ _ h => h) hinit _
    (P := fun s => s.sent = [7] ∧ s.ran = true) (by decide) fun s hrun hs => ?_
  exact ⟨hs.1, hs.2, (ask_once hrun).2.2.2.2 hs.2⟩

end Future

end Actor

end GinRpc
