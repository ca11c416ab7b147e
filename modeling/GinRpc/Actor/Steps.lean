import GinRpc.Actor.System

/-!
# What one step of the actor system can do

The goroutines of the actor system seen from the data they work on: `Pc.acting` says which actor a
goroutine runs, `Pc.left` that its loop has ended, `Pc.pushing` which mailbox a `push` has found
open, and so on.

* `System.Write`, `System.Update` : the steps that write to the shared state, and to a cell.
* `System.exec_writes` : all other steps leave it as it is.

For each part of the shared state one lemma `System.exec_...` says how a step can change it, and
`System.exec_arrival` says it for the views; the invariants are read off from these.
-/

namespace GinRpc

namespace Actor

variable {M : Type}

/-! ### The program counters -/

def Caller.acting (a : ℕ) : Caller → Option ℕ
  | .giveUp | .run => some a
  | .stop | .self | .helper _ => none

/-- The actor whose goroutine this is. -/
def Pc.acting : Pc M → Option ℕ
  | .preStart a | .next a | .drain a | .receive a _ | .handlePanic a _ | .restart a | .postStop a
  | .closeDone a => some a
  | .stop a caller | .remove a caller | .closeMailbox a caller | .closeStopCh a caller =>
    caller.acting a
  | _ => none

def Caller.left (a : ℕ) : Caller → Option ℕ
  | .run => some a
  | _ => none

/-- The actor whose loop has ended. -/
def Pc.left : Pc M → Option ℕ
  | .postStop a | .closeDone a => some a
  | .stop a caller | .remove a caller | .closeMailbox a caller | .closeStopCh a caller =>
    caller.left a
  | _ => none

/-- The mailbox that a `push` has found open. -/
def Pc.pushing : Pc M → Option (ℕ × Envelope M)
  | .push a env => some (a, env)
  | _ => none

/-- The message that a `send` has been told is accepted. -/
def Pc.told : Pc M → Option (ℕ × Envelope M)
  | .sent a env => some (a, env)
  | _ => none

def Pc.closing : Pc M → Option ℕ
  | .closeStopCh a _ => some a
  | _ => none

def Pc.draining : Pc M → Option ℕ
  | .drain a => some a
  | _ => none

def Pc.restarting : Pc M → Option ℕ
  | .restart a => some a
  | _ => none

/-- The cell that a goroutine works on. -/
def Pc.address : Pc M → Option ℕ
  | .pushCheck a _ | .push a _ | .sent a _ | .start a | .spawned a | .stop a _ | .remove a _
  | .closeMailbox a _ | .closeStopCh a _ | .waitDone a | .join _ a | .preStart a | .next a
  | .drain a | .receive a _ | .handlePanic a _ | .restart a | .postStop a | .closeDone a => some a
  | _ => none

/-- The cells that `Shutdown` has found. -/
def Pc.found : Pc M → List ℕ
  | .launch _ cells => cells
  | _ => []

section Returns

variable {a : ℕ} {caller : Caller}

@[grind →] theorem address_resume {d : ℕ} (h : (caller.resume a : Pc M).address = some d) :
    d = a := by
  cases caller <;> cases h <;> rfl

@[grind =] theorem found_resume : (caller.resume a : Pc M).found = [] := by
  cases caller <;> rfl

@[grind =] theorem acting_resume : (caller.resume a : Pc M).acting = caller.acting a := by
  cases caller <;> rfl

@[grind =] theorem left_resume : (caller.resume a : Pc M).left = caller.left a := by
  cases caller <;> rfl

@[grind =] theorem pushing_resume : (caller.resume a : Pc M).pushing = none := by
  cases caller <;> rfl

@[grind =] theorem told_resume : (caller.resume a : Pc M).told = none := by
  cases caller <;> rfl

@[grind =] theorem closing_resume : (caller.resume a : Pc M).closing = none := by
  cases caller <;> rfl

@[grind =] theorem draining_resume : (caller.resume a : Pc M).draining = none := by
  cases caller <;> rfl

end Returns

theorem address_of_closing {pc : Pc M} {a : ℕ} (h : pc.closing = some a) :
    pc.address = some a := by
  cases pc <;> first | exact h | cases h

theorem address_of_told {pc : Pc M} {a : ℕ} {env : Envelope M} (h : pc.told = some (a, env)) :
    pc.address = some a := by
  cases pc <;> cases h
  rfl

theorem address_of_left {pc : Pc M} {a : ℕ} (h : pc.left = some a) : pc.address = some a := by
  cases pc with
  | stop d caller | remove d caller | closeMailbox d caller | closeStopCh d caller =>
    cases caller <;> first | exact h | cases h
  | _ => first | exact h | cases h

theorem pushing_of_left {pc : Pc M} {a : ℕ} (h : pc.left = some a) : pc.pushing = none := by
  cases pc <;> first | rfl | cases h

theorem address_of_draining {pc : Pc M} {a : ℕ} (h : pc.draining = some a) :
    pc.address = some a := by
  cases pc <;> first | exact h | cases h

namespace Cell

variable {c : Cell M} {sv : Supervision} {message : M}

theorem handled_hand {env : Envelope M} {rest : List (Envelope M)} :
    (c.hand env rest).handled = c.handled ++ [env] :=
  List.reverse_cons

theorem handled_countFailure : (c.countFailure sv message).handled = c.handled := by
  rw [handled, countFailure]
  cases sv.onPanic <;> rfl

theorem handled_notifyGiveUp : (c.notifyGiveUp sv).handled = c.handled := by
  rw [handled, notifyGiveUp]
  cases sv.onGiveUp <;> rfl

theorem handled_sleep : (c.sleep sv).handled = c.handled := by
  rw [handled, sleep]
  dsimp only
  split_ifs <;> rfl

end Cell

namespace System

/-! ### What a step writes -/

/-- A write to the cell of an actor, by a goroutine that goes from one place to another. -/
inductive Update (s : System M) (a : ℕ) : Branch → Pc M → Cell M → Pc M → Prop
  | accept {env : Envelope M} :
      Update s a .plain (.push a env) ((s.cell a).accept env) (.sent a env)
  | start {b : Branch} :
      Update s a b (.start a) { s.cell a with running := true } (.spawned a)
  | stop {b : Branch} {caller : Caller} :
      Update s a b (.stop a caller) { s.cell a with stopped := true } (.remove a caller)
  | close {b : Branch} {caller : Caller} :
      Update s a b (.closeMailbox a caller) { s.cell a with closed := true } (.closeStopCh a caller)
  | closeStopCh {b : Branch} {caller : Caller} :
      Update s a b (.closeStopCh a caller) { s.cell a with stopCh := true } (caller.resume a)
  | next {env : Envelope M} {rest : List (Envelope M)} : (s.cell a).ch = env :: rest →
      Update s a .plain (.next a) ((s.cell a).hand env rest) (.receive a env)
  | drain {b : Branch} {env : Envelope M} {rest : List (Envelope M)} : (s.cell a).ch = env :: rest →
      Update s a b (.drain a) ((s.cell a).hand env rest) (.receive a env)
  | succeed {env : Envelope M} : Update s a .plain (.receive a env) (s.cell a).succeed (.next a)
  | giveUp {b : Branch} {env : Envelope M} {sv : Supervision} : (s.cell a).supervision = some sv →
      sv.strategy ≠ .never → (s.cell a).exhausted sv = true →
      Update s a b (.handlePanic a env)
        (((s.cell a).countFailure sv env.message).notifyGiveUp sv) (.stop a .giveUp)
  | sleep {b : Branch} {env : Envelope M} {sv : Supervision} : (s.cell a).supervision = some sv →
      sv.strategy ≠ .never → (s.cell a).exhausted sv = false →
      Update s a b (.handlePanic a env)
        (((s.cell a).countFailure sv env.message).sleep sv) (.restart a)
  | restart : Update s a .plain (.restart a)
      { s.cell a with events := .restarted :: (s.cell a).events } (.preStart a)
  | finish {b : Branch} : Update s a b (.closeDone a) { s.cell a with done := true } .done

/-- A write to the shared state. -/
inductive Write (opts : Options) (s : System M) : Branch → Pc M → System M → Pc M → Prop
  | update {a : ℕ} {b : Branch} {pc pc' : Pc M} {c : Cell M} : s.Update a b pc c pc' →
      Write opts s b pc (s.setCell a fun _ => c) pc'
  | deadLetter {b : Branch} {target : String} {env : Envelope M} :
      Write opts s b (.sendGet target env) (s.deadLetter opts target env) (.failed .actorNotFound)
  | create {b : Branch} {props : Props} : s.stopped = false →
      Write opts s b (.add props) (s.newCell opts props) (.start s.ncells)
  | unregister {b : Branch} {a : ℕ} :
      Write opts s b (.start a) (s.remove a) (.failed .alreadyStarted)
  | remove {b : Branch} {a : ℕ} {caller : Caller} :
      Write opts s b (.remove a caller) (s.remove a) (.closeMailbox a caller)
  | shutdown {b : Branch} {i : ℕ} :
      Write opts s b (.shutdown i) { s with stopped := true } (.snapshot i)
  | addWait {b : Branch} {i a : ℕ} {rest : List ℕ} :
      Write opts s b (.launch i (a :: rest)) (s.addWait i a) (.launch i rest)
  | doneWait {b : Branch} {i a : ℕ} : (s.cell a).done = true →
      Write opts s b (.join i a) (s.doneWait i a) .done

/-- A step of goroutine `t` that only reads the shared state. -/
inductive Silent (s : System M) (t : Tid) : Branch → Pc M → Pc M → Prop
  | begin {a : ℕ} : t = .actor a → (s.cell a).running = true → Silent s t .plain .idle (.preStart a)
  | help {i a : ℕ} : t = .helper i a → a ∈ s.wg i → Silent s t .plain .idle (.stop a (.helper i))
  | sendRefused {b : Branch} {target : String} {env : Envelope M} : s.stopped = true →
      Silent s t b (.sendRunning target env) (.failed .systemStopped)
  | sendRunning {b : Branch} {target : String} {env : Envelope M} : s.stopped = false →
      Silent s t b (.sendRunning target env) (.sendGet target env)
  | sendGet {b : Branch} {target : String} {env : Envelope M} {a : ℕ} :
      s.actors.lookup target = some a → Silent s t b (.sendGet target env) (.pushCheck a env)
  | pushClosed {b : Branch} {a : ℕ} {env : Envelope M} : (s.cell a).closed = true →
      Silent s t b (.pushCheck a env) (.failed .mailboxClosed)
  | pushCheck {b : Branch} {a : ℕ} {env : Envelope M} : (s.cell a).closed = false →
      Silent s t b (.pushCheck a env) (.push a env)
  | pushStopped {a : ℕ} {env : Envelope M} : (s.cell a).stopCh = true →
      Silent s t .stopped (.push a env) (.failed .mailboxClosed)
  | pushCancelled {a : ℕ} {env : Envelope M} : Silent s t .cancelled (.push a env) (.failed .ctx)
  | spawnRefused {b : Branch} {props : Props} : s.stopped = true →
      Silent s t b (.spawnRunning props) (.failed .systemStopped)
  | spawnRunning {b : Branch} {props : Props} : s.stopped = false →
      Silent s t b (.spawnRunning props) (.spawnActor props)
  | spawnActor {props : Props} : (props.producer || props.actor) = true →
      Silent s t .plain (.spawnActor props) (.add props)
  | noActor {props : Props} : (props.producer || props.actor) = false →
      Silent s t .plain (.spawnActor props) (.failed .noActor)
  | producerNil {props : Props} : props.producer = true →
      Silent s t .empty (.spawnActor props) (.failed .producerNil)
  | producerPanics {props : Props} : props.producer = true →
      Silent s t .panics (.spawnActor props) .done
  | addStopped {b : Branch} {props : Props} : s.stopped = true →
      Silent s t b (.add props) (.failed .systemStopped)
  | addExists {b : Branch} {props : Props} {a : ℕ} : s.stopped = false →
      s.actors.lookup props.pid = some a → Silent s t b (.add props) (.failed .actorAlreadyExists)
  | stopUnknown {b : Branch} {pid : String} : s.actors.lookup pid = none →
      Silent s t b (.stopGet pid) (.failed .actorNotFound)
  | stopGet {b : Branch} {pid : String} {a : ℕ} : s.actors.lookup pid = some a →
      Silent s t b (.stopGet pid) (.stop a .stop)
  | stop {b : Branch} {a : ℕ} {caller : Caller} : (s.cell a).stopped = true →
      Silent s t b (.stop a caller) (caller.resume a)
  | closeMailbox {b : Branch} {a : ℕ} {caller : Caller} : (s.cell a).closed = true →
      Silent s t b (.closeMailbox a caller) (caller.resume a)
  | waitDone {b : Branch} {a : ℕ} : (s.cell a).done = true → Silent s t b (.waitDone a) .done
  | shutdown {b : Branch} {i : ℕ} : s.stopped = true → Silent s t b (.shutdown i) .shut
  | snapshot {b : Branch} {i : ℕ} : Silent s t b (.snapshot i) (.launch i s.all)
  | launch {b : Branch} {i : ℕ} : Silent s t b (.launch i []) (.waitAll i)
  | waitAll {b : Branch} {i : ℕ} : s.wg i = [] → Silent s t b (.waitAll i) .shut
  | preStart {b : Branch} {a : ℕ} : Silent s t b (.preStart a) (.next a)
  | next {a : ℕ} : (s.cell a).stopCh = true → Silent s t .stopped (.next a) (.drain a)
  | drain {b : Branch} {a : ℕ} : (s.cell a).ch = [] → Silent s t b (.drain a) (.stop a .run)
  | receive {a : ℕ} {env : Envelope M} :
      Silent s t .panics (.receive a env) (.handlePanic a env)
  | handlePanic {b : Branch} {a : ℕ} {env : Envelope M} :
      (∀ sv, (s.cell a).supervision = some sv → sv.strategy = .never) →
      Silent s t b (.handlePanic a env) (.next a)
  | restart {a : ℕ} : (s.cell a).producer = true → Silent s t .panics (.restart a) (.closeDone a)
  | postStop {b : Branch} {a : ℕ} : Silent s t b (.postStop a) (.closeDone a)

variable {opts : Options} {s : System M} {t : Tid} {b : Branch} {pc : Pc M} {r : System M × Pc M}
  {a : ℕ}

/-- What one step can do. -/
theorem exec_cases (h : s.exec opts t b pc = some r) :
    r.1 = s ∧ Silent s t b pc r.2 ∨ Write opts s b pc r.1 r.2 := by
  revert h
  fun_cases System.exec opts s t b pc <;> intro h <;> cases h <;>
    first
    | exact .inl ⟨rfl, by
        constructor <;> first | assumption | rfl | grind⟩
    | exact .inr (.update (by
        constructor <;> first | assumption | (apply Bool.eq_false_of_not_eq_true; assumption)))
    | exact .inr (by
        constructor <;> first | assumption | (apply Bool.eq_false_of_not_eq_true; assumption))

theorem exec_writes (h : s.exec opts t b pc = some r) : r.1 = s ∨ Write opts s b pc r.1 r.2 := by
  obtain ⟨hs, -⟩ | hw := exec_cases h
  · exact .inl hs
  · exact .inr hw

/-- What every write to the shared state establishes, and it has before, it has afterwards. -/
theorem exec_state {P : System M → Prop} (h : s.exec opts t b pc = some r) (hs : P s)
    (hw : ∀ {s' pc'}, Write opts s b pc s' pc' → P s') : P r.1 := by
  obtain heq | hwrite := exec_writes h
  · rwa [heq]
  · exact hw hwrite

theorem exec_update (h : s.exec opts t b pc = some r) (a : ℕ) :
    r.1.cell a = s.cell a ∨ s.Update a b pc (r.1.cell a) r.2 ∨
      (a = s.ncells ∧ r.1.ncells = s.ncells + 1 ∧ r.2 = .start a ∧ ∃ props : Props,
        r.1.cell a =
          { pid := props.pid, producer := props.producer, supervision := props.effective opts,
            size := props.size opts }) := by
  obtain heq | hw := exec_writes h
  · exact .inl (by rw [heq])
  obtain ⟨s', pc'⟩ := r
  dsimp only at hw ⊢
  cases hw with
  | @update d _ _ _ c hu =>
    by_cases had : a = d
    · subst had
      rw [cell_setCell, if_pos rfl]
      exact .inr (.inl hu)
    · exact .inl (cell_setCell.trans (if_neg had))
  | @create _ props =>
    by_cases ha : a = s.ncells
    · exact .inr (.inr ⟨ha, rfl, by rw [ha], props, cell_newCell.trans (if_pos ha)⟩)
    · exact .inl (cell_newCell.trans (if_neg ha))
  | deadLetter | unregister | remove | shutdown | addWait | doneWait => exact .inl rfl

/-- What every write to a cell keeps is kept. -/
theorem exec_keeps {P : Cell M → Prop} (h : s.exec opts t b pc = some r) (ha : a < s.ncells)
    (hp : P (s.cell a)) (hu : ∀ {c pc'}, s.Update a b pc c pc' → P c) : P (r.1.cell a) := by
  obtain heq | hup | ⟨rfl, -⟩ := exec_update h a
  · rwa [heq]
  · exact hu hup
  · exact absurd ha (lt_irrefl _)

theorem exec_ncells (h : s.exec opts t b pc = some r) : s.ncells ≤ r.1.ncells :=
  exec_state (P := fun s' => s.ncells ≤ s'.ncells) h le_rfl fun hw => by
    cases hw <;> first | exact le_rfl | exact Nat.le_succ _

/-- A registered cell was registered before, or is new. -/
theorem exec_actors (h : s.exec opts t b pc = some r) {pid : String}
    (hr : r.1.actors.lookup pid = some a) :
    s.actors.lookup pid = some a ∨
      (a = s.ncells ∧ r.1.ncells = s.ncells + 1 ∧ (r.1.cell a).pid = pid) := by
  revert hr
  refine exec_state (P := fun s' => s'.actors.lookup pid = some a → s.actors.lookup pid = some a ∨
    (a = s.ncells ∧ s'.ncells = s.ncells + 1 ∧ (s'.cell a).pid = pid)) h .inl fun hw hr => ?_
  cases hw with
  | create =>
    rw [lookup_newCell] at hr
    split_ifs at hr with hpid
    · cases hr
      exact .inr ⟨rfl, rfl, by rw [cell_newCell, if_pos rfl, hpid]⟩
    · exact .inl hr
  | unregister | remove =>
    rw [lookup_remove] at hr
    split_ifs at hr
    exact .inl hr
  | _ => exact .inl hr

theorem exec_wg (h : s.exec opts t b pc = some r) {i : ℕ} (hr : a ∈ r.1.wg i) :
    a ∈ s.wg i ∨ a ∈ pc.found := by
  revert hr
  refine exec_state (P := fun s' => a ∈ s'.wg i → _) h .inl fun hw hr => ?_
  cases hw with
  | addWait =>
    rw [wg_addWait] at hr
    split_ifs at hr with hi
    · obtain rfl | hr := List.mem_cons.1 hr
      · exact .inr List.mem_cons_self
      · exact .inl (hi ▸ hr)
    · exact .inl hr
  | doneWait =>
    rw [wg_doneWait] at hr
    split_ifs at hr with hi
    · exact .inl (hi ▸ List.mem_of_mem_erase hr)
    · exact .inl hr
  | _ => exact .inl hr

theorem exec_running (h : s.exec opts t b pc = some r) (ha : a < s.ncells)
    (hc : (s.cell a).running = true) : (r.1.cell a).running = true :=
  exec_keeps (P := fun c => c.running = true) h ha hc fun hu => by
    cases hu <;> first | exact hc | rfl

theorem exec_pid (h : s.exec opts t b pc = some r) (ha : a < s.ncells) :
    (r.1.cell a).pid = (s.cell a).pid :=
  exec_keeps (P := fun c => c.pid = (s.cell a).pid) h ha rfl fun hu => by cases hu <;> rfl

theorem exec_closed (h : s.exec opts t b pc = some r) (ha : a < s.ncells)
    (hc : (s.cell a).closed = true) : (r.1.cell a).closed = true :=
  exec_keeps (P := fun c => c.closed = true) h ha hc fun hu => by
    cases hu <;> first | exact hc | rfl

theorem exec_done_mono (h : s.exec opts t b pc = some r) (ha : a < s.ncells)
    (hc : (s.cell a).done = true) : (r.1.cell a).done = true :=
  exec_keeps (P := fun c => c.done = true) h ha hc fun hu => by
    cases hu <;> first | exact hc | rfl

/-- A step changes the cell it works on, or creates one. -/
theorem exec_cell (h : s.exec opts t b pc = some r) :
    r.1.cell a = s.cell a ∨ pc.address = some a ∨ (a = s.ncells ∧ r.1.ncells = s.ncells + 1) := by
  obtain heq | hu | ⟨ha, hn, -⟩ := exec_update h a
  · exact .inl heq
  · generalize r.1.cell a = c, r.2 = pc' at hu
    exact .inr (.inl (by cases hu <;> rfl))
  · exact .inr (.inr ⟨ha, hn⟩)

theorem exec_stopCh (h : s.exec opts t b pc = some r) (hr : (r.1.cell a).stopCh = true) :
    (s.cell a).stopCh = true ∨ pc.closing = some a := by
  obtain heq | hu | ⟨-, -, -, props, hnew⟩ := exec_update h a
  · exact .inl (heq ▸ hr)
  · generalize r.1.cell a = c, r.2 = pc' at hu hr
    cases hu <;> first | exact .inl hr | exact .inr rfl
  · rw [hnew] at hr
    cases hr

/-- `done` is closed by the goroutine of the actor. -/
theorem exec_done (h : s.exec opts t b pc = some r) (hr : (r.1.cell a).done = true) :
    (s.cell a).done = true ∨ (pc.left = some a ∧ pc.acting = some a ∧ r.2 = .done) := by
  obtain heq | hu | ⟨-, -, -, props, hnew⟩ := exec_update h a
  · exact .inl (heq ▸ hr)
  · generalize r.1.cell a = c, r.2 = pc' at hu hr ⊢
    cases hu <;> first | exact .inl hr | exact .inr ⟨rfl, rfl, rfl⟩
  · rw [hnew] at hr
    cases hr

/-- The moves of a message: into the mailbox, and from there to the behaviour. -/
theorem exec_queue (h : s.exec opts t b pc = some r) :
    ((r.1.cell a).accepted = (s.cell a).accepted ∧ (r.1.cell a).ch = (s.cell a).ch ∧
      (r.1.cell a).handled = (s.cell a).handled) ∨
    (∃ env, pc.pushing = some (a, env) ∧ b = .plain ∧
      (r.1.cell a).accepted = (s.cell a).accepted ++ [env] ∧
      (r.1.cell a).ch = (s.cell a).ch ++ [env] ∧ (r.1.cell a).handled = (s.cell a).handled) ∨
    (∃ env, (s.cell a).ch = env :: (r.1.cell a).ch ∧
      (r.1.cell a).accepted = (s.cell a).accepted ∧
      (r.1.cell a).handled = (s.cell a).handled ++ [env]) ∨
    (a = s.ncells ∧ (r.1.cell a).accepted = [] ∧ (r.1.cell a).ch = [] ∧
      (r.1.cell a).handled = []) := by
  obtain heq | hu | ⟨ha, -, -, props, hnew⟩ := exec_update h a
  · exact .inl (by rw [heq]; exact ⟨rfl, rfl, rfl⟩)
  · generalize r.1.cell a = c, r.2 = pc' at hu ⊢
    cases hu with
    | accept => exact .inr (.inl ⟨_, rfl, rfl, rfl, rfl, rfl⟩)
    | next hch | drain hch => exact .inr (.inr (.inl ⟨_, hch, rfl, Cell.handled_hand⟩))
    | giveUp => exact .inl ⟨rfl, rfl, Cell.handled_notifyGiveUp.trans Cell.handled_countFailure⟩
    | sleep => exact .inl ⟨rfl, rfl, Cell.handled_sleep.trans Cell.handled_countFailure⟩
    | start | stop | close | closeStopCh | succeed | restart | finish =>
      exact .inl ⟨rfl, rfl, rfl⟩
  · exact .inr (.inr (.inr ⟨ha, by rw [hnew], by rw [hnew], by rw [hnew]; rfl⟩))

/-! ### Where a step leads -/

/-- What all steps establish, those that write and those that do not. -/
theorem exec_leads {P : System M → Pc M → Prop} (h : s.exec opts t b pc = some r)
    (hs : ∀ {pc'}, Silent s t b pc pc' → P s pc')
    (hw : ∀ {s' pc'}, Write opts s b pc s' pc' → P s' pc') : P r.1 r.2 := by
  obtain ⟨heq, hm⟩ | hwrite := exec_cases h
  · rw [heq]
    exact hs hm
  · exact hw hwrite

/-- The goroutine of an actor begins when it is started. -/
theorem exec_begin (h : s.exec opts (.actor a) b .idle = some r) :
    r = (s, .preStart a) ∧ (s.cell a).running = true := by
  cases b <;> simp only [exec] at h <;> grind

/-- What holds where a step from one place to another arrives. -/
structure Arrival (s : System M) (t : Tid) (b : Branch) (pc : Pc M) (s' : System M) (pc' : Pc M) :
    Prop where
  acting {a : ℕ} : pc'.acting = some a → pc.acting = some a ∨ t = .actor a
  /-- the goroutine of an actor goes on until it closes `done` -/
  role {a : ℕ} : pc.acting = some a →
    pc'.acting = some a ∨ (pc' = .done ∧ (s'.cell a).done = true)
  address {a : ℕ} : pc'.address = some a →
    pc.address = some a ∨ (∃ pid, s.actors.lookup pid = some a) ∨ (s.cell a).running = true ∨
      (∃ i, a ∈ s.wg i) ∨ a < s'.ncells
  found {a : ℕ} : a ∈ pc'.found → a ∈ pc.found ∨ ∃ pid, s.actors.lookup pid = some a
  closing {a : ℕ} : pc'.closing = some a → (s'.cell a).closed = true
  draining {a : ℕ} : pc'.draining = some a → (s.cell a).stopCh = true
  told {a : ℕ} {env : Envelope M} : pc'.told = some (a, env) → env ∈ (s'.cell a).accepted
  pushing {a : ℕ} {env : Envelope M} : pc'.pushing = some (a, env) → (s.cell a).closed = false
  /-- the loop ends when the mailbox is stopped and empty, or a panic ends it -/
  left {a : ℕ} : pc'.left = some a →
    pc.left = some a ∨ (pc.draining = some a ∧ (s.cell a).ch = [] ∧ s' = s) ∨
      (pc.restarting = some a ∧ b = .panics)

-- most views are not of the place that a step arrives at, and the others follow from its guard
theorem Silent.arrival {pc' : Pc M} (h : Silent s t b pc pc') : Arrival s t b pc s pc' := by
  cases h <;> constructor <;> intros <;> rename_i hv <;> first
    | (cases hv; done)
    | grind [Pc.acting, Caller.acting, Pc.address, Pc.found, mem_all, Pc.draining, Pc.pushing,
        Pc.left, Caller.left, Pc.restarting]

theorem Update.arrival {c : Cell M} {pc' : Pc M} (h : s.Update a b pc c pc') :
    Arrival s t b pc (s.setCell a fun _ => c) pc' := by
  cases h <;> constructor <;> intros <;> rename_i hv <;> first
    | (cases hv; done)
    | grind [Pc.acting, Caller.acting, Pc.address, Pc.found, Pc.closing, Pc.draining, Pc.told,
        Pc.pushing, Pc.left, Caller.left]

theorem Write.arrival {s' : System M} {pc' : Pc M} (h : Write opts s b pc s' pc') :
    Arrival s t b pc s' pc' := by
  cases h with
  | update hu => exact hu.arrival
  | _ =>
    constructor <;> intros <;> rename_i hv <;> first
      | (cases hv; done)
      | grind [Pc.acting, Caller.acting, Pc.address, Pc.found, Pc.left, Caller.left]

theorem exec_arrival (h : s.exec opts t b pc = some r) : Arrival s t b pc r.1 r.2 := by
  obtain ⟨heq, hm⟩ | hw := exec_cases h
  · rw [heq]
    exact hm.arrival
  · exact hw.arrival

end System

end Actor

end GinRpc
