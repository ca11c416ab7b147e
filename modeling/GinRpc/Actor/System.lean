import GinRpc.Data.AList
import GinRpc.LTS.Threads
import Mathlib.Tactic

/-!
# The actor system

Model of `System` in `plugins/actor/system.go`, `actorCell` in `cell.go`, `mailbox` in `mailbox.go`
and `Supervision` in `supervision.go`.

An actor is a cell: a mailbox, which is a buffered channel with a `closed` flag and a channel that
is closed to stop it, and one goroutine that takes messages from the mailbox and hands them to the
behaviour of the actor.  A message that panics is dealt with by the supervision of the actor, which
restarts it or gives it up.  The system keeps the cells by their PID.

Every goroutine is a program counter that names what it does next, and every critical section,
atomic operation and channel operation is one step:

* `Pc` : the places between two steps of `Spawn`, `Send`, `Stop`, `Shutdown`, of the goroutines that
  `Shutdown` starts, and of `actorCell.run`.
* `Branch` : which way a step goes where the source leaves it open: the case of a `select`, and
  whether the code of the user returns or panics.
* `System.exec` : one step of one goroutine on the shared state.
* `Sys.step` : such a step, or the start of a call.

What the behaviour of an actor does with the system is done by goroutines of its own while it runs
(`GinRpc.Actor.Mailbox` says that it returns after them).
Left out are the instances of the actors and `Become`, since all instances of a cell look the same
from here, the scheduler, `Ask` (see `GinRpc.Actor.Future`), and logging.
-/

namespace GinRpc

namespace Actor

inductive RestartStrategy where
  | never
  | always
  | backoff
  deriving DecidableEq, Repr

/-- The supervision of an actor; durations in nanoseconds, and whether the callbacks are set. -/
structure Supervision where
  strategy : RestartStrategy
  maxConsecutiveRestarts : ℤ
  backoffInitial : Int64
  backoffMax : Int64
  onPanic : Bool
  onGiveUp : Bool
  deriving DecidableEq, Repr

namespace Supervision

/-- The loop of `backoffFor`. -/
def backoffLoop (max : Int64) : ℕ → Int64 → Int64
  | 0, d => d
  | n + 1, d => if d * 2 ≥ max then max else backoffLoop max n (d * 2)

def backoffFor (sv : Supervision) (attempt : ℕ) : Int64 :=
  let initial := if sv.backoffInitial ≤ 0 then 100000000 else sv.backoffInitial
  let max := if sv.backoffMax ≤ 0 then 5000000000 else sv.backoffMax
  backoffLoop max (attempt - 1) initial

/-- The text of `giveUpErr`. -/
def giveUpErr (pid : String) : String := "actor: " ++ pid ++ " restart limit exceeded"

end Supervision

/-- The options of a system. -/
structure Options where
  defaultMailboxSize : ℤ
  onDeadLetter : Bool
  defaultSupervision : Option Supervision
  deriving DecidableEq, Repr

/-- `NewWithOptions`: the default size of the mailboxes. -/
def Options.mailboxSize (opts : Options) : ℤ :=
  if opts.defaultMailboxSize ≤ 0 then 64 else opts.defaultMailboxSize

/-- How to create an actor. -/
structure Props where
  name : String
  /-- `Actor` is not nil -/
  actor : Bool
  /-- `Producer` is not nil -/
  producer : Bool
  mailboxSize : ℤ
  supervision : Option Supervision
  /-- the PID drawn if the name is empty -/
  uuid : String := ""
  deriving DecidableEq, Repr

namespace Props

variable (props : Props) (opts : Options)

def pid : String := if props.name = "" then props.uuid else props.name

/-- The size `newMailbox` gives the channel. -/
def size : ℕ :=
  let size := if props.mailboxSize > 0 then props.mailboxSize else opts.mailboxSize
  if size ≤ 0 then 64 else size.toNat

/-- `actorCell.supervision`. -/
def effective : Option Supervision :=
  match props.supervision with
  | some sv => some sv
  | none => opts.defaultSupervision

end Props

structure Envelope (M : Type) where
  sender : String
  message : M
  deriving DecidableEq, Repr

/-- What happens to an actor. -/
inductive Event (M : Type) where
  /-- a message is handed to the behaviour -/
  | received (env : Envelope M)
  /-- the behaviour has returned -/
  | succeeded
  | onPanic (message : M)
  | slept (d : Int64)
  | restarted
  | onGiveUp (err : String)
  deriving DecidableEq, Repr

/-- `actorCell` with its `mailbox`, and what is remembered of the run. -/
structure Cell (M : Type) where
  pid : String := ""
  producer : Bool := false
  supervision : Option Supervision := none
  size : ℕ := 0
  ch : List (Envelope M) := []
  /-- the flag of the mailbox -/
  closed : Bool := false
  /-- `stopCh` is closed -/
  stopCh : Bool := false
  running : Bool := false
  stopped : Bool := false
  /-- the channel `done` is closed -/
  done : Bool := false
  consecutiveFailures : ℕ := 0
  /-- The messages that were put into the mailbox. -/
  accepted : List (Envelope M) := []
  /-- What has happened to the actor, the latest first. -/
  events : List (Event M) := []

def Event.envelope {M : Type} : Event M → Option (Envelope M)
  | .received env => some env
  | _ => none

/-- The messages that were handed to the behaviour. -/
def Cell.handled {M : Type} (c : Cell M) : List (Envelope M) :=
  (c.events.filterMap Event.envelope).reverse

/-- The goroutines: the one of an actor, those that `Shutdown` starts, and all others. -/
inductive Tid where
  | actor (a : ℕ)
  | helper (i a : ℕ)
  | user (i : ℕ)
  deriving DecidableEq, Repr

inductive Err where
  | systemStopped
  | actorNotFound
  | actorAlreadyExists
  | mailboxClosed
  | alreadyStarted
  | noActor
  | producerNil
  | ctx
  deriving DecidableEq, Repr

/-- What a call of `actorCell.stop` returns to. -/
inductive Caller where
  /-- `Stop`, which waits for the actor -/
  | stop
  /-- `StopSelf` -/
  | self
  /-- the goroutine of `Shutdown` -/
  | helper (i : ℕ)
  /-- `handlePanic` -/
  | giveUp
  /-- `run`, after the loop -/
  | run
  deriving DecidableEq, Repr

/-- What a goroutine does next. -/
inductive Pc (M : Type) where
  /-- not begun; the goroutine of an actor begins when it is started -/
  | idle
  /-- `send`: `s.Running()` -/
  | sendRunning (target : String) (env : Envelope M)
  /-- `send`: `s.get` -/
  | sendGet (target : String) (env : Envelope M)
  /-- `push`: the flag is read -/
  | pushCheck (a : ℕ) (env : Envelope M)
  /-- `push`: the `select` -/
  | push (a : ℕ) (env : Envelope M)
  /-- `send` has returned `nil` -/
  | sent (a : ℕ) (env : Envelope M)
  /-- `Spawn`: `s.Running()` -/
  | spawnRunning (props : Props)
  /-- `Spawn`: `props.actor()` -/
  | spawnActor (props : Props)
  /-- `Spawn`: `s.add` -/
  | add (props : Props)
  /-- `Spawn`: `cell.start` -/
  | start (a : ℕ)
  /-- `Spawn` has returned the PID -/
  | spawned (a : ℕ)
  /-- `Stop`: `s.get` -/
  | stopGet (pid : String)
  /-- `actorCell.stop`: the flag is swapped -/
  | stop (a : ℕ) (caller : Caller)
  /-- `actorCell.stop`: `s.remove` -/
  | remove (a : ℕ) (caller : Caller)
  /-- `mailbox.stop`: the flag is swapped -/
  | closeMailbox (a : ℕ) (caller : Caller)
  /-- `mailbox.stop`: `close(m.stopCh)` -/
  | closeStopCh (a : ℕ) (caller : Caller)
  /-- `Stop`: `<-cell.done` -/
  | waitDone (a : ℕ)
  /-- `Shutdown`: the flag is swapped -/
  | shutdown (i : ℕ)
  /-- `Shutdown`: `s.all` -/
  | snapshot (i : ℕ)
  /-- `Shutdown`: the loop that starts a goroutine for each cell -/
  | launch (i : ℕ) (cells : List ℕ)
  /-- `Shutdown`: `wg.Wait` -/
  | waitAll (i : ℕ)
  /-- `Shutdown` has returned -/
  | shut
  /-- a goroutine of `Shutdown`: `<-c.done`, and `wg.Done` -/
  | join (i a : ℕ)
  /-- `run` and `handlePanic`: `c.preStart` -/
  | preStart (a : ℕ)
  /-- `loop`: `c.mailbox.next` -/
  | next (a : ℕ)
  /-- `next` after `stopCh` -/
  | drain (a : ℕ)
  /-- `process`: the behaviour is running -/
  | receive (a : ℕ) (env : Envelope M)
  /-- `handlePanic` -/
  | handlePanic (a : ℕ) (env : Envelope M)
  /-- `handlePanic`: the instance is made anew -/
  | restart (a : ℕ)
  /-- `run`: `PostStop` -/
  | postStop (a : ℕ)
  /-- `run`: `close(c.done)` -/
  | closeDone (a : ℕ)
  | failed (err : Err)
  | done
  deriving DecidableEq, Repr

/-- Which way a step goes. -/
inductive Branch where
  /-- the code of the user returns; the first case of a `select` -/
  | plain
  /-- the `select` takes the case of `stopCh` -/
  | stopped
  /-- the context is done -/
  | cancelled
  /-- the code of the user panics -/
  | panics
  /-- the producer returns nil -/
  | empty
  deriving DecidableEq, Repr

/-- `actorCell.stop` has returned. -/
def Caller.resume {M : Type} (a : ℕ) : Caller → Pc M
  | .stop => .waitDone a
  | .self => .done
  | .helper i => .join i a
  | .giveUp => .next a
  | .run => .postStop a

/-- The shared state. -/
structure System (M : Type) where
  stopped : Bool := false
  actors : AList (fun _ : String => ℕ) := ∅
  /-- The cells by address, and how many there are. -/
  cell : ℕ → Cell M := fun _ => {}
  ncells : ℕ := 0
  /-- The wait group of a call of `Shutdown`: the cells it still waits for. -/
  wg : ℕ → List ℕ := fun _ => []
  deadLetters : List (String × Envelope M) := []

variable {M : Type}

namespace Cell

variable (c : Cell M)

/-- A message is put into the mailbox. -/
def accept (env : Envelope M) : Cell M :=
  { c with ch := c.ch ++ [env], accepted := c.accepted ++ [env] }

/-- The first message is taken from the mailbox and handed to the behaviour. -/
def hand (env : Envelope M) (rest : List (Envelope M)) : Cell M :=
  { c with ch := rest, events := .received env :: c.events }

/-- The behaviour has returned. -/
def succeed : Cell M := { c with consecutiveFailures := 0, events := .succeeded :: c.events }

/-- The behaviour has panicked: the callback, and the counter. -/
def countFailure (sv : Supervision) (message : M) : Cell M :=
  { c with
    consecutiveFailures := c.consecutiveFailures + 1
    events := if sv.onPanic then .onPanic message :: c.events else c.events }

/-- The limit of `handlePanic` is reached with one more failure. -/
def exhausted (sv : Supervision) : Bool :=
  decide (sv.maxConsecutiveRestarts > 0 ∧
    (c.consecutiveFailures : ℤ) + 1 > sv.maxConsecutiveRestarts)

/-- `OnGiveUp`. -/
def notifyGiveUp (sv : Supervision) : Cell M :=
  { c with
    events := if sv.onGiveUp then .onGiveUp (Supervision.giveUpErr c.pid) :: c.events
      else c.events }

/-- The delay before a restart. -/
def sleep (sv : Supervision) : Cell M :=
  { c with
    events := if sv.strategy = .backoff then
      .slept (sv.backoffFor c.consecutiveFailures) :: c.events else c.events }

end Cell

namespace System

variable (opts : Options) (s : System M)

def setCell (a : ℕ) (f : Cell M → Cell M) : System M :=
  { s with cell := Function.update s.cell a (f (s.cell a)) }

/-- `newActor` and `add`. -/
def newCell (props : Props) : System M :=
  { s with
    actors := s.actors.insert props.pid s.ncells
    cell := Function.update s.cell s.ncells
      { pid := props.pid, producer := props.producer, supervision := props.effective opts,
        size := props.size opts }
    ncells := s.ncells + 1 }

def remove (a : ℕ) : System M := { s with actors := s.actors.erase (s.cell a).pid }

/-- The registered cells. -/
def all : List ℕ := s.actors.entries.map Sigma.snd

/-- `OnDeadLetter`. -/
def deadLetter (target : String) (env : Envelope M) : System M :=
  { s with
    deadLetters := if opts.onDeadLetter then (target, env) :: s.deadLetters else s.deadLetters }

/-- `wg.Add`, and the goroutine may begin. -/
def addWait (i a : ℕ) : System M := { s with wg := Function.update s.wg i (a :: s.wg i) }

/-- `wg.Done`. -/
def doneWait (i a : ℕ) : System M := { s with wg := Function.update s.wg i ((s.wg i).erase a) }

/-- One step of goroutine `t`, and what it does next. -/
def exec (t : Tid) (b : Branch) : Pc M → Option (System M × Pc M)
  | .idle =>
    match t, b with
    | .actor a, .plain => if (s.cell a).running then some (s, .preStart a) else none
    | .helper i a, .plain => if a ∈ s.wg i then some (s, .stop a (.helper i)) else none
    | _, _ => none
  | .sendRunning target env =>
    if s.stopped then some (s, .failed .systemStopped) else some (s, .sendGet target env)
  | .sendGet target env =>
    match s.actors.lookup target with
    | none => some (s.deadLetter opts target env, .failed .actorNotFound)
    | some a => some (s, .pushCheck a env)
  | .pushCheck a env =>
    if (s.cell a).closed then some (s, .failed .mailboxClosed) else some (s, .push a env)
  | .push a env =>
    match b with
    | .plain =>
      if (s.cell a).ch.length < (s.cell a).size then
        some (s.setCell a fun c => c.accept env, .sent a env)
      else none
    | .stopped => if (s.cell a).stopCh then some (s, .failed .mailboxClosed) else none
    | .cancelled => some (s, .failed .ctx)
    | _ => none
  | .spawnRunning props =>
    if s.stopped then some (s, .failed .systemStopped) else some (s, .spawnActor props)
  | .spawnActor props =>
    match b with
    | .plain => if props.producer || props.actor then some (s, .add props)
      else some (s, .failed .noActor)
    | .empty => if props.producer then some (s, .failed .producerNil) else none
    | .panics => if props.producer then some (s, .done) else none
    | _ => none
  | .add props =>
    if s.stopped then some (s, .failed .systemStopped)
    else match s.actors.lookup props.pid with
      | some _ => some (s, .failed .actorAlreadyExists)
      | none => some (s.newCell opts props, .start s.ncells)
  | .start a =>
    if (s.cell a).running then some (s.remove a, .failed .alreadyStarted)
    else some (s.setCell a fun c => { c with running := true }, .spawned a)
  | .stopGet pid =>
    match s.actors.lookup pid with
    | none => some (s, .failed .actorNotFound)
    | some a => some (s, .stop a .stop)
  | .stop a caller =>
    if (s.cell a).stopped then some (s, caller.resume a)
    else some (s.setCell a fun c => { c with stopped := true }, .remove a caller)
  | .remove a caller => some (s.remove a, .closeMailbox a caller)
  | .closeMailbox a caller =>
    if (s.cell a).closed then some (s, caller.resume a)
    else some (s.setCell a fun c => { c with closed := true }, .closeStopCh a caller)
  | .closeStopCh a caller =>
    some (s.setCell a fun c => { c with stopCh := true }, caller.resume a)
  | .waitDone a => if (s.cell a).done then some (s, .done) else none
  | .shutdown i =>
    if s.stopped then some (s, .shut) else some ({ s with stopped := true }, .snapshot i)
  | .snapshot i => some (s, .launch i s.all)
  | .launch i cells =>
    match cells with
    | [] => some (s, .waitAll i)
    | a :: rest => some (s.addWait i a, .launch i rest)
  | .waitAll i => if s.wg i = [] then some (s, .shut) else none
  | .join i a => if (s.cell a).done then some (s.doneWait i a, .done) else none
  | .preStart a => some (s, .next a)
  | .next a =>
    match b with
    | .plain =>
      match (s.cell a).ch with
      | env :: rest => some (s.setCell a fun c => c.hand env rest, .receive a env)
      | [] => none
    | .stopped => if (s.cell a).stopCh then some (s, .drain a) else none
    | _ => none
  | .drain a =>
    match (s.cell a).ch with
    | env :: rest => some (s.setCell a fun c => c.hand env rest, .receive a env)
    | [] => some (s, .stop a .run)
  | .receive a env =>
    match b with
    | .plain => some (s.setCell a Cell.succeed, .next a)
    | .panics => some (s, .handlePanic a env)
    | _ => none
  | .handlePanic a env =>
    match (s.cell a).supervision with
    | none => some (s, .next a)
    | some sv =>
      if sv.strategy = .never then some (s, .next a)
      else if (s.cell a).exhausted sv then
        some (s.setCell a fun c => (c.countFailure sv env.message).notifyGiveUp sv,
          .stop a .giveUp)
      else some (s.setCell a fun c => (c.countFailure sv env.message).sleep sv, .restart a)
  | .restart a =>
    match b with
    | .plain => some (s.setCell a fun c => { c with events := .restarted :: c.events }, .preStart a)
    | .panics => if (s.cell a).producer then some (s, .closeDone a) else none
    | _ => none
  | .postStop a => some (s, .closeDone a)
  | .closeDone a => some (s.setCell a fun c => { c with done := true }, .done)
  | .sent _ _ | .spawned _ | .shut | .failed _ | .done => none

/-! ### What the updates change -/

attribute [grind =] setCell newCell remove deadLetter addWait doneWait Cell.accept Cell.hand
  Cell.succeed Cell.countFailure Cell.notifyGiveUp Cell.sleep

variable {opts s} {a d : ℕ} {props : Props} {pid : String}

@[grind =] theorem cell_setCell {g : Cell M → Cell M} :
    (s.setCell a g).cell d = if d = a then g (s.cell a) else s.cell d :=
  Function.update_apply ..

@[grind =] theorem cell_newCell :
    (s.newCell opts props).cell d = if d = s.ncells then
      { pid := props.pid, producer := props.producer, supervision := props.effective opts,
        size := props.size opts }
    else s.cell d :=
  Function.update_apply ..

@[grind =] theorem lookup_newCell :
    (s.newCell opts props).actors.lookup pid =
      if pid = props.pid then some s.ncells else s.actors.lookup pid :=
  AList.lookup_insert_apply

@[grind =] theorem lookup_remove :
    (s.remove a).actors.lookup pid =
      if pid = (s.cell a).pid then none else s.actors.lookup pid :=
  AList.lookup_erase_apply

@[grind =] theorem wg_addWait {i j : ℕ} :
    (s.addWait i a).wg j = if j = i then a :: s.wg i else s.wg j :=
  Function.update_apply ..

@[grind =] theorem wg_doneWait {i j : ℕ} :
    (s.doneWait i a).wg j = if j = i then (s.wg i).erase a else s.wg j :=
  Function.update_apply ..

theorem mem_all : a ∈ s.all ↔ ∃ pid, s.actors.lookup pid = some a := by
  rw [all, List.mem_map]
  constructor
  · rintro ⟨⟨pid, a⟩, hmem, rfl⟩
    exact ⟨pid, AList.mem_lookup_iff.2 hmem⟩
  · rintro ⟨pid, h⟩
    exact ⟨⟨pid, a⟩, AList.mem_lookup_iff.1 h, rfl⟩

end System

/-- The system and its goroutines. -/
structure Sys (M : Type) where
  system : System M := {}
  pc : Tid → Pc M := fun _ => .idle

/-- A step, or the start of a call. -/
inductive Act (M : Type) where
  | spawn (i : ℕ) (props : Props)
  | send (i : ℕ) (target : String) (env : Envelope M)
  | stop (i : ℕ) (pid : String)
  /-- the behaviour of an actor calls `StopSelf` -/
  | stopSelf (i a : ℕ)
  | shutdown (i : ℕ)
  | step (t : Tid) (b : Branch)
  deriving DecidableEq, Repr

/-- The goroutine that moves. -/
def Act.thread : Act M → Tid
  | .spawn i _ | .send i _ _ | .stop i _ | .stopSelf i _ | .shutdown i => .user i
  | .step t _ => t

namespace Sys

variable (opts : Options) (s : Sys M)

def goto (t : Tid) (system : System M) (pc : Pc M) : Sys M :=
  ⟨system, Function.update s.pc t pc⟩

/-- What a call begins with. -/
def entry : Act M → Option (Pc M)
  | .spawn _ props => some (.spawnRunning props)
  | .send _ target env => some (.sendRunning target env)
  | .stop _ pid => some (.stopGet pid)
  | .stopSelf _ a =>
    match s.pc (.actor a) with
    | .idle => none
    | _ => some (.stop a .self)
  | .shutdown i => some (.shutdown i)
  | .step _ _ => none

/-- One step, if it is possible. -/
def step (a : Act M) : Option (Sys M) :=
  match a with
  | .step t b => (s.system.exec opts t b (s.pc t)).map fun r => s.goto t r.1 r.2
  | a =>
    match s.pc a.thread with
    | .idle => (s.entry a).map fun pc => s.goto a.thread s.system pc
    | _ => none

variable {opts s}

theorem pc_goto {t u : Tid} {system : System M} {pc : Pc M} :
    (s.goto t system pc).pc u = if u = t then pc else s.pc u :=
  Function.update_apply ..

variable (opts)

/-- All interleavings on a new system. -/
def lts : LTS (Sys M) (Act M) where
  init s := s = {}
  step s a s' := s.step opts a = some s'

end Sys

end Actor

end GinRpc
