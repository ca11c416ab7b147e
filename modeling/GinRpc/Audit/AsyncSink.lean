import GinRpc.Data.Checks
import GinRpc.LTS.Threads
import GinRpc.Text.Basic

/-!
# The asynchronous audit sink

Model of `plugins/audit/async_sink.go`.  Goroutines call `Write` and `Close`; workers take events
from the channel and pass them to the target.  Between two operations on the channels, the `Once`
or the wait group any other goroutine may move.

* `Sys.step` : one operation of a goroutine or a worker.  A send on a closed channel, and closing a
  channel twice, is a panic.
* `Inv` : what `Close` has reached, and where the accepted events are.
* `Sys.Safe` : nobody sends on the closed channel.
* `async_sink_sound` : if no `Write` is between its check and its send when `Close` closes the
  channel, nothing panics, and after `Close` the target has got every accepted event once.

A `Write` that has passed its check may reach the closed channel (`send_on_closed_channel`).
Metrics and the target's errors, which the worker only counts, are left out.
-/

namespace GinRpc

namespace AsyncSink

variable {Event : Type*}

/-! ### The sink -/

structure AsyncSinkConfig where
  bufferSize : ℤ
  workers : ℤ
  dropOnFull : Bool
  deriving DecidableEq, Repr

def defaultAsyncSinkConfig : AsyncSinkConfig where
  bufferSize := 1024
  workers := 1
  dropOnFull := false

/-- The configuration of a constructed sink. -/
structure Settings where
  bufferSize : ℕ
  workers : ℕ
  dropOnFull : Bool
  bufferSize_pos : 0 < bufferSize
  workers_pos : 0 < workers

/-- The defaulting done by `NewAsyncSink` -/
def AsyncSinkConfig.settings (cfg : AsyncSinkConfig) : Settings where
  bufferSize :=
    (if cfg.bufferSize ≤ 0 then defaultAsyncSinkConfig.bufferSize else cfg.bufferSize).toNat
  workers := (if cfg.workers ≤ 0 then defaultAsyncSinkConfig.workers else cfg.workers).toNat
  dropOnFull := cfg.dropOnFull
  bufferSize_pos := toNat_default_pos _ (by decide)
  workers_pos := toNat_default_pos _ (by decide)

/-- What `Write` returns. -/
inductive WriteResult where
  | ok
  /-- `ErrAsyncSinkClosed` -/
  | closed
  /-- `ErrAsyncSinkBufferFull` -/
  | bufferFull
  /-- `ctx.Err()` -/
  | ctxErr (err : Text)
  deriving DecidableEq, Repr

/-- The next operation of a goroutine. -/
inductive Pc (Event : Type*) where
  | idle
  /-- `Write` : the first `select` -/
  | check (event : Event)
  /-- `Write` : the `select` with the send -/
  | send (event : Event)
  /-- `Write` has returned -/
  | wrote (event : Event) (result : WriteResult)
  /-- `Close` : `s.once.Do` -/
  | enter
  /-- `Close` : `close(s.closed)` -/
  | closeClosed
  /-- `Close` : `close(s.ch)` -/
  | closeCh
  /-- `Close` : `s.wg.Wait()` -/
  | wait
  /-- `Close` has returned -/
  | returned
  | panicked (value : Text)
  deriving DecidableEq, Repr

/-- Not in a call. -/
def Pc.atRest : Pc Event → Bool
  | .idle | .wrote _ _ | .returned => true
  | _ => false

/-- The next operation of a worker. -/
inductive Worker (Event : Type*) where
  /-- `range s.ch` -/
  | receiving
  /-- `s.target.Write` is about to be called -/
  | holding (event : Event)
  /-- in `s.target.Write` -/
  | writing
  /-- after `s.wg.Done()` -/
  | exited
  deriving DecidableEq, Repr

/-- The event that a worker has taken and not passed on. -/
def Worker.held : Worker Event → List Event
  | .holding event => [event]
  | _ => []

def Worker.isExited : Worker Event → Bool
  | .exited => true
  | _ => false

/-- The state of `s.once`, with the goroutine that runs it. -/
inductive Once where
  | fresh
  | running (g : ℕ)
  | done
  deriving DecidableEq, Repr

/-- A sink and its workers. -/
structure Sink (Event : Type*) where
  workers : ℕ → Worker Event := fun _ => .receiving
  /-- The events in `s.ch`. -/
  buffer : List Event := []
  /-- `s.ch` is closed. -/
  chClosed : Bool := false
  /-- `s.closed` is closed. -/
  closed : Bool := false
  once : Once := .fresh
  /-- The events for which `Write` returned `nil`, in the order in which they were sent. -/
  accepted : List Event := []
  /-- The events with which the target was called. -/
  passed : List Event := []

/-- An operation of a goroutine. -/
inductive Op (Event : Type*) where
  /-- `Write` is called -/
  | write (event : Event)
  /-- `Close` is called -/
  | close
  /-- the first `select` of `Write` -/
  | check
  /-- the second one chooses the send -/
  | send
  /-- it chooses `default` -/
  | full
  /-- it chooses `<-s.closed` -/
  | sawClosed
  /-- it chooses `<-ctx.Done()` -/
  | sawDone (err : Text)
  /-- `s.once.Do` -/
  | once
  /-- `close(s.closed)` -/
  | closeClosed
  /-- `close(s.ch)` -/
  | closeCh
  /-- `s.wg.Wait()` -/
  | wait
  deriving DecidableEq, Repr

/-- An operation of a worker. -/
inductive Work where
  /-- an event is received -/
  | take
  /-- the channel is closed and empty -/
  | exit
  /-- the target is called -/
  | pass
  /-- the target returns -/
  | finish
  deriving DecidableEq, Repr

namespace Sink

variable (σ : Settings) (k : Sink Event)

/-- An operation of goroutine `g`, if it is possible at this place, and the place it leads to. -/
def exec (g : ℕ) (p : Pc Event) : Op Event → Option (Sink Event × Pc Event)
  | .write event => if p.atRest then some (k, .check event) else none
  | .close => if p.atRest then some (k, .enter) else none
  | .check =>
    match p with
    | .check event => some (k, if k.closed then .wrote event .closed else .send event)
    | _ => none
  | .send =>
    match p with
    | .send event =>
      if k.chClosed then some (k, .panicked "send on closed channel")
      else if k.buffer.length < σ.bufferSize then
        some ({ k with buffer := k.buffer ++ [event], accepted := k.accepted ++ [event] },
          .wrote event .ok)
      else none
    | _ => none
  | .full =>
    match p with
    | .send event =>
      -- a send on a closed channel is ready, so that `default` is not chosen
      if σ.dropOnFull = true ∧ k.chClosed = false ∧ σ.bufferSize ≤ k.buffer.length then
        some (k, .wrote event .bufferFull)
      else none
    | _ => none
  | .sawClosed =>
    match p with
    | .send event =>
      if σ.dropOnFull = false ∧ k.closed = true then some (k, .wrote event .closed) else none
    | _ => none
  | .sawDone err =>
    match p with
    | .send event => if σ.dropOnFull = false then some (k, .wrote event (.ctxErr err)) else none
    | _ => none
  | .once =>
    match p, k.once with
    | .enter, .fresh => some ({ k with once := .running g }, .closeClosed)
    | .enter, .done => some (k, .returned)
    | _, _ => none
  | .closeClosed =>
    match p with
    | .closeClosed =>
      if k.closed then some ({ k with once := .done }, .panicked "close of closed channel")
      else some ({ k with closed := true }, .closeCh)
    | _ => none
  | .closeCh =>
    match p with
    | .closeCh =>
      if k.chClosed then some ({ k with once := .done }, .panicked "close of closed channel")
      else some ({ k with chClosed := true }, .wait)
    | _ => none
  | .wait =>
    match p with
    | .wait =>
      if ∀ i < σ.workers, (k.workers i).isExited = true then
        some ({ k with once := .done }, .returned)
      else none
    | _ => none

/-- Worker `i` goes on. -/
def setWorker (i : ℕ) (w : Worker Event) : Sink Event :=
  { k with workers := Function.update k.workers i w }

/-- An operation of worker `i`, if it is possible. -/
def work (i : ℕ) : Work → Option (Sink Event)
  | .take =>
    match k.workers i, k.buffer with
    | .receiving, event :: rest => some { k.setWorker i (.holding event) with buffer := rest }
    | _, _ => none
  | .exit =>
    match k.workers i, k.buffer with
    | .receiving, [] => if k.chClosed then some (k.setWorker i .exited) else none
    | _, _ => none
  | .pass =>
    match k.workers i with
    | .holding event => some { k.setWorker i .writing with passed := k.passed ++ [event] }
    | _ => none
  | .finish =>
    match k.workers i with
    | .writing => some (k.setWorker i .receiving)
    | _ => none

end Sink

/-- A sink and the goroutines that use it. -/
structure Sys (Event : Type*) where
  sink : Sink Event := {}
  pc : ℕ → Pc Event := fun _ => .idle

inductive Act (Event : Type*) where
  | goroutine (g : ℕ) (op : Op Event)
  | worker (i : ℕ) (w : Work)
  deriving DecidableEq, Repr

namespace Sys

variable (σ : Settings) (s : Sys Event)

def step : Act Event → Option (Sys Event)
  | .goroutine g op =>
    (s.sink.exec σ g (s.pc g) op).map fun r => ⟨r.1, Function.update s.pc g r.2⟩
  | .worker i w =>
    if i < σ.workers then (s.sink.work i w).map fun k => { s with sink := k } else none

/-- All interleavings on a new sink. -/
def lts : LTS (Sys Event) (Act Event) where
  init s := s = {}
  step s a s' := s.step σ a = some s'

end Sys

/-! ### How far `Close` has come -/

/-- A goroutine at a place in `Close` knows the state of the channels. -/
def Pc.Fits (k : Sink Event) (g : ℕ) : Pc Event → Prop
  | .closeClosed => k.once = .running g ∧ k.closed = false ∧ k.chClosed = false
  | .closeCh => k.once = .running g ∧ k.closed = true ∧ k.chClosed = false
  | .wait => k.once = .running g ∧ k.closed = true ∧ k.chClosed = true
  | .returned => k.once = .done
  | .wrote event .ok => event ∈ k.accepted
  | _ => True

/-- What holds in every state of the sink. -/
structure Sink.Inv (σ : Settings) (k : Sink Event) : Prop where
  fresh : k.once = .fresh → k.closed = false ∧ k.chClosed = false
  done : k.once = .done → ∀ i < σ.workers, (k.workers i).isExited = true
  chClosed : k.chClosed = true → k.closed = true
  exited : ∀ i, (k.workers i).isExited = true → k.chClosed = true ∧ k.buffer = []
  /-- An accepted event was passed on, is held by a worker or waits in the channel. -/
  balance : (k.accepted : Multiset Event) =
    k.passed + (∑ i ∈ Finset.range σ.workers, ((k.workers i).held : Multiset Event)) + k.buffer
  /-- A single worker keeps the order. -/
  ordered : σ.workers = 1 → k.accepted = k.passed ++ (k.workers 0).held ++ k.buffer

structure Sys.Inv (σ : Settings) (s : Sys Event) : Prop where
  sink : s.sink.Inv σ
  fits : ∀ g, (s.pc g).Fits s.sink g

section

variable {σ : Settings} {k k' : Sink Event} {g i u : ℕ} {p p' : Pc Event}

/-- What a goroutine knows is kept while `once` and the flags are. -/
theorem Pc.Fits.mono (h : p.Fits k u) (honce : k'.once = k.once) (hclosed : k'.closed = k.closed)
    (hch : k'.chClosed = k.chClosed) (hacc : k.accepted ⊆ k'.accepted) : p.Fits k' u := by
  cases p with
  | wrote event result =>
    cases result with
    | ok => exact hacc h
    | _ => trivial
  | closeClosed => exact ⟨honce.trans h.1, hclosed.trans h.2.1, hch.trans h.2.2⟩
  | closeCh => exact ⟨honce.trans h.1, hclosed.trans h.2.1, hch.trans h.2.2⟩
  | wait => exact ⟨honce.trans h.1, hclosed.trans h.2.1, hch.trans h.2.2⟩
  | returned => exact honce.trans h
  | _ => trivial

/-- Goroutines other than the one that runs `Close` are not in `Close`. -/
theorem Pc.Fits.other (h : p.Fits k u) (honce : k.once = .fresh ∨ k.once = .running g)
    (hu : u ≠ g) (hacc : k.accepted ⊆ k'.accepted) : p.Fits k' u := by
  have hne : k.once ≠ .running u ∧ k.once ≠ .done := by
    obtain h0 | h0 := honce
    · rw [h0]
      exact ⟨Once.noConfusion, Once.noConfusion⟩
    · rw [h0]
      exact ⟨fun h => hu (Once.running.inj h).symm, Once.noConfusion⟩
  cases p with
  | wrote event result =>
    cases result with
    | ok => exact hacc h
    | _ => trivial
  | closeClosed => exact absurd h.1 hne.1
  | closeCh => exact absurd h.1 hne.1
  | wait => exact absurd h.1 hne.1
  | returned => exact absurd h hne.2
  | _ => trivial

/-! ### One operation of a goroutine -/

namespace Sink.Inv

theorem send (h : k.Inv σ) {event : Event} (hopen : k.chClosed = false) :
    ({ k with buffer := k.buffer ++ [event], accepted := k.accepted ++ [event] } :
      Sink Event).Inv σ where
  fresh := h.fresh
  done := h.done
  chClosed := h.chClosed
  exited i hi := absurd ((h.exited i hi).1.symm.trans hopen) (by decide)
  balance := by
    change ((k.accepted ++ [event] : List Event) : Multiset Event) = _ + _ +
      ((k.buffer ++ [event] : List Event) : Multiset Event)
    rw [← Multiset.coe_add, ← Multiset.coe_add, h.balance, add_assoc]
  ordered hone := by
    change k.accepted ++ [event] = k.passed ++ (k.workers 0).held ++ (k.buffer ++ [event])
    rw [h.ordered hone, List.append_assoc _ k.buffer]

theorem advance (h : k.Inv σ) (once : Once) (closed chClosed : Bool)
    (hfresh : once ≠ .fresh)
    (hdone : once = .done → ∀ i < σ.workers, (k.workers i).isExited = true)
    (hcc : chClosed = true → closed = true) (hch : k.chClosed = true → chClosed = true) :
    ({ k with once := once, closed := closed, chClosed := chClosed } : Sink Event).Inv σ where
  fresh hf := absurd hf hfresh
  done := hdone
  chClosed := hcc
  exited i hi := ⟨hch (h.exited i hi).1, (h.exited i hi).2⟩
  balance := h.balance
  ordered := h.ordered

end Sink.Inv

/-- What an operation of goroutine `g` can do. -/
inductive Sink.Move (σ : Settings) (k : Sink Event) (g : ℕ) :
    Pc Event → Sink Event → Pc Event → Prop
  /-- it leaves the sink alone -/
  | stay {p p' : Pc Event} (h : p'.Fits k g) : Move σ k g p k p'
  | send (event : Event) (hopen : k.chClosed = false) :
      Move σ k g (.send event)
        { k with buffer := k.buffer ++ [event], accepted := k.accepted ++ [event] }
        (.wrote event .ok)
  | once (h : k.once = .fresh) : Move σ k g .enter { k with once := .running g } .closeClosed
  | closeClosed : Move σ k g .closeClosed { k with closed := true } .closeCh
  | closeCh : Move σ k g .closeCh { k with chClosed := true } .wait
  | wait (h : ∀ i < σ.workers, (k.workers i).isExited = true) :
      Move σ k g .wait { k with once := .done } .returned

/-- A goroutine that knows the state of the channels does not close one of them twice. -/
theorem Sink.move_of_exec {op : Op Event} (hp : p.Fits k g)
    (he : k.exec σ g p op = some (k', p')) : k.Move σ g p k' p' := by
  revert he
  fun_cases Sink.exec σ k g p op with
  | _ => grind [Sink.Move, Pc.Fits]

/-- What an operation of goroutine `g` at `p` leaves: the invariant, what the goroutine knows now,
and what the others know. -/
theorem Sink.Move.inv (hm : k.Move σ g p k' p') (h : k.Inv σ) (hp : p.Fits k g) :
    k'.Inv σ ∧ p'.Fits k' g ∧ ∀ u, u ≠ g → ∀ q : Pc Event, q.Fits k u → q.Fits k' u := by
  cases hm with
  | stay hp' => exact ⟨h, hp', fun _ _ _ => id⟩
  | send event hopen =>
    refine ⟨h.send hopen, List.mem_append_right _ (List.mem_singleton_self _), fun u _ q hq => ?_⟩
    exact hq.mono rfl rfl rfl (List.subset_append_left _ _)
  | once honce =>
    refine ⟨h.advance (.running g) k.closed k.chClosed Once.noConfusion Once.noConfusion
      h.chClosed id, ⟨rfl, h.fresh honce⟩, fun u hu q hq => ?_⟩
    exact hq.other (.inl honce) hu (List.Subset.refl _)
  | closeClosed =>
    obtain ⟨hrun, -, hch⟩ := hp
    refine ⟨h.advance k.once true k.chClosed (hrun ▸ Once.noConfusion) h.done (fun _ => rfl) id,
      ⟨hrun, rfl, hch⟩, fun u hu q hq => ?_⟩
    exact hq.other (.inr hrun) hu (List.Subset.refl _)
  | closeCh =>
    obtain ⟨hrun, hclosed, -⟩ := hp
    refine ⟨h.advance k.once k.closed true (hrun ▸ Once.noConfusion) h.done (fun _ => hclosed)
      (fun _ => rfl), ⟨hrun, hclosed, rfl⟩, fun u hu q hq => ?_⟩
    exact hq.other (.inr hrun) hu (List.Subset.refl _)
  | wait hall =>
    refine ⟨h.advance .done k.closed k.chClosed Once.noConfusion (fun _ => hall) h.chClosed id,
      rfl, fun u hu q hq => ?_⟩
    exact hq.other (.inr hp.1) hu (List.Subset.refl _)

/-! ### One operation of a worker -/

/-- What a worker can do: what it holds, what is in the channel and what was passed on change
together. -/
structure Sink.Turn (k : Sink Event) (i : ℕ) (w : Worker Event) (buffer passed : List Event) :
    Prop where
  running : (k.workers i).isExited = false
  exit : w.isExited = true → k.chClosed = true ∧ buffer = []
  empty : k.buffer = [] → buffer = []
  moved : passed ++ w.held ++ buffer = k.passed ++ (k.workers i).held ++ k.buffer

theorem Sink.turn_of_work {work : Work} (hw : k.work i work = some k') :
    ∃ w buffer passed, k.Turn i w buffer passed ∧
      k' = { k.setWorker i w with buffer := buffer, passed := passed } := by
  revert hw
  fun_cases Sink.work k i work with
  | case1 event rest hw hb =>
    rintro ⟨⟩
    refine ⟨.holding event, rest, k.passed, ⟨?_, ?_, ?_, ?_⟩, rfl⟩
    all_goals simp [hw, hb, Worker.isExited, Worker.held]
  | case3 hw hb hch =>
    rintro ⟨⟩
    refine ⟨.exited, k.buffer, k.passed, ⟨?_, ?_, ?_, ?_⟩, rfl⟩
    all_goals simp [hw, hb, hch, Worker.isExited, Worker.held]
  | case6 event hw =>
    rintro ⟨⟩
    refine ⟨.writing, k.buffer, k.passed ++ [event], ⟨?_, ?_, ?_, ?_⟩, rfl⟩
    all_goals simp [hw, Worker.isExited, Worker.held]
  | case8 hw =>
    rintro ⟨⟩
    refine ⟨.receiving, k.buffer, k.passed, ⟨?_, ?_, ?_, ?_⟩, rfl⟩
    all_goals simp [hw, Worker.isExited, Worker.held]
  | _ => exact fun h => by cases h

theorem Sink.Turn.inv {w : Worker Event} {buffer passed : List Event}
    (ht : k.Turn i w buffer passed) (h : k.Inv σ) (hi : i < σ.workers) :
    ({ k.setWorker i w with buffer := buffer, passed := passed } : Sink Event).Inv σ where
  fresh := h.fresh
  done hd := absurd ((h.done hd i hi).symm.trans ht.running) (by decide)
  chClosed := h.chClosed
  exited j hj := by
    change (Function.update k.workers i w j).isExited = true at hj
    by_cases hji : j = i
    · subst hji
      rw [Function.update_self] at hj
      exact ht.exit hj
    · rw [Function.update_of_ne hji] at hj
      exact ⟨(h.exited j hj).1, ht.empty (h.exited j hj).2⟩
  balance := by
    have hsum := LTS.sum_update_add (fun w => (w.held : Multiset Event)) k.workers w
      (Finset.mem_range.2 hi)
    have hmove := congrArg (fun l : List Event => (l : Multiset Event)) ht.moved
    simp only [← Multiset.coe_add] at hmove
    -- both sides with what the worker held before
    refine add_right_cancel (b := ((k.workers i).held : Multiset Event)) ?_
    change (k.accepted : Multiset Event) + _ = passed +
      (∑ j ∈ Finset.range σ.workers,
        ((Function.update k.workers i w j).held : Multiset Event)) + buffer + _
    rw [add_right_comm, add_assoc (passed : Multiset Event), hsum, h.balance]
    calc (k.passed : Multiset Event) + (∑ j ∈ Finset.range σ.workers,
          ((k.workers j).held : Multiset Event)) + k.buffer + (k.workers i).held
        = (k.passed + (k.workers i).held + k.buffer) + ∑ j ∈ Finset.range σ.workers,
          ((k.workers j).held : Multiset Event) := by abel
      _ = (passed + w.held + buffer) + ∑ j ∈ Finset.range σ.workers,
          ((k.workers j).held : Multiset Event) := by rw [hmove]
      _ = _ := by abel
  ordered hone := by
    obtain rfl : i = 0 := by omega
    change k.accepted = passed ++ (Function.update k.workers 0 w 0).held ++ buffer
    rw [Function.update_self, ht.moved]
    exact h.ordered hone

end

namespace Sys

variable {σ : Settings} {s s' : Sys Event} {a : Act Event}

theorem Inv.step (h : s.Inv σ) (hs : s.step σ a = some s') : s'.Inv σ := by
  cases a with
  | goroutine g op =>
    obtain ⟨⟨k', p'⟩, he, rfl⟩ := Option.map_eq_some_iff.1 hs
    obtain ⟨hk, hp, hother⟩ := (Sink.move_of_exec (h.fits g) he).inv h.sink (h.fits g)
    refine ⟨hk, fun u => ?_⟩
    by_cases hu : u = g
    · subst hu
      dsimp only
      rwa [Function.update_self]
    · dsimp only
      rw [Function.update_of_ne hu]
      exact hother u hu _ (h.fits u)
  | worker i w =>
    rw [Sys.step] at hs
    split_ifs at hs with hi
    obtain ⟨k', hw, rfl⟩ := Option.map_eq_some_iff.1 hs
    obtain ⟨w, buffer, passed, hturn, rfl⟩ := Sink.turn_of_work hw
    exact ⟨hturn.inv h.sink hi, fun u => (h.fits u).mono rfl rfl rfl (List.Subset.refl _)⟩

theorem inv_init (σ : Settings) : ({} : Sys Event).Inv σ where
  sink :=
    { fresh := fun _ => ⟨rfl, rfl⟩
      done := fun h => by cases h
      chClosed := fun h => by cases h
      exited := fun _ h => by cases h
      balance := by simp [Worker.held]
      ordered := fun _ => rfl }
  fits _ := trivial

theorem inv_of_run {ok : Sys Event → Act Event → Prop} {tr : List (Act Event)}
    (hr : (lts σ).Run ok tr s) : s.Inv σ := by
  refine hr.invariant (I := fun s => s.Inv σ) ?_ fun s a s' h _ hs => h.step hs
  rintro s rfl
  exact inv_init σ

/-! ### After `Close` -/

/-- After `Close` nothing is left in the channel or with a worker. -/
theorem Inv.drained (h : s.Inv σ) {g : ℕ} (hg : s.pc g = .returned) :
    s.sink.passed.Perm s.sink.accepted ∧
      (σ.workers = 1 → s.sink.passed = s.sink.accepted) := by
  have honce : s.sink.once = .done := by
    have hfit := h.fits g
    rwa [hg] at hfit
  have hexited := h.sink.done honce
  have hheld : ∀ i < σ.workers, (s.sink.workers i).held = [] := by
    intro i hi
    have hex := hexited i hi
    cases hw : s.sink.workers i with
    | holding event =>
      rw [hw] at hex
      cases hex
    | _ => rfl
  have hbuffer : s.sink.buffer = [] := (h.sink.exited 0 (hexited 0 σ.workers_pos)).2
  constructor
  · have hbal := h.sink.balance
    rw [Finset.sum_eq_zero fun i hi => by rw [hheld i (Finset.mem_range.1 hi)]; rfl, hbuffer,
      add_zero, Multiset.coe_nil, add_zero] at hbal
    exact (Multiset.coe_eq_coe.1 hbal).symm
  · intro hone
    rw [h.sink.ordered hone, hheld 0 σ.workers_pos, hbuffer, List.append_nil, List.append_nil]

/-- After `Close`, every further call of `Close` returns at once. -/
theorem Inv.close_returns (h : s.Inv σ) {g u : ℕ} (hg : s.pc g = .returned)
    (hu : s.pc u = .enter) :
    ∃ s', s.step σ (.goroutine u .once) = some s' ∧ s'.pc u = .returned := by
  have honce : s.sink.once = .done := by
    have hfit := h.fits g
    rwa [hg] at hfit
  refine ⟨⟨s.sink, Function.update s.pc u .returned⟩, ?_, Function.update_self ..⟩
  simp only [Sys.step, Sink.exec, hu, honce, Option.map_some]

/-! ### Sends and the closed channel -/

/-- When `Close` closes the channel, no `Write` is between its check and its send. -/
def Settled (s : Sys Event) : Act Event → Prop
  | .goroutine _ .closeCh => ∀ u event, s.pc u ≠ .send event
  | _ => True

/-- Nobody sends on the closed channel, and nothing has panicked. -/
structure Safe (s : Sys Event) : Prop where
  send : s.sink.chClosed = true → ∀ g event, s.pc g ≠ .send event
  calm : ∀ g value, s.pc g ≠ .panicked value

theorem Safe.update {pc : ℕ → Pc Event} {k k' : Sink Event} {g : ℕ} {p : Pc Event}
    (h : Safe ⟨k, pc⟩) (hch : k'.chClosed = true → ∀ u, u ≠ g → ∀ event, pc u ≠ .send event)
    (hsend : k'.chClosed = true → ∀ event, p ≠ .send event)
    (hcalm : ∀ value, p ≠ .panicked value) : Safe ⟨k', Function.update pc g p⟩ := by
  constructor
  · intro hc u event
    by_cases hu : u = g
    · subst hu
      dsimp only
      rw [Function.update_self]
      exact hsend hc event
    · dsimp only
      rw [Function.update_of_ne hu]
      exact hch hc u hu event
  · intro u value
    by_cases hu : u = g
    · subst hu
      dsimp only
      rw [Function.update_self]
      exact hcalm value
    · dsimp only
      rw [Function.update_of_ne hu]
      exact h.calm u value

/-- Where an operation leads, and when it panics. -/
theorem exec_leads {k k' : Sink Event} {g : ℕ} {p p' : Pc Event} {op : Op Event}
    (he : k.exec σ g p op = some (k', p')) :
    (k'.chClosed = true → k.chClosed = true ∨ op = .closeCh) ∧
      (∀ event, p' = .send event → k.closed = false ∧ k' = k) ∧
      ∀ value, p' = .panicked value →
        k.chClosed = true ∧ (∃ event, p = .send event) ∨ k.chClosed = true ∧ p = .closeCh ∨
          k.closed = true ∧ p = .closeClosed := by
  revert he
  fun_cases Sink.exec σ k g p op with
  | _ => grind

/-- One step is safe if no `Write` is about to send when the channel is closed. -/
theorem Safe.step (h : s.Safe) (hinv : s.Inv σ) (hok : s.Settled a) (hs : s.step σ a = some s') :
    s'.Safe := by
  cases a with
  | goroutine g op =>
    obtain ⟨⟨k', p'⟩, he, rfl⟩ := Option.map_eq_some_iff.1 hs
    obtain ⟨hch, hsend, hcalm⟩ := exec_leads he
    have hfit := hinv.fits g
    refine h.update (fun hc u _ event => ?_) (fun hc event hp => ?_) fun value hp => ?_
    · obtain hc | rfl := hch hc
      · exact h.send hc u event
      · exact hok u event
    · -- the check has seen an open sink
      obtain ⟨hclosed, rfl⟩ := hsend event hp
      exact absurd ((hinv.sink.chClosed hc).symm.trans hclosed) (by decide)
    · obtain ⟨hc, event, hpc⟩ | ⟨hc, hpc⟩ | ⟨hc, hpc⟩ := hcalm value hp
      · exact h.send hc g event hpc
      · rw [hpc] at hfit
        exact absurd (hc.symm.trans hfit.2.2) (by decide)
      · rw [hpc] at hfit
        exact absurd (hc.symm.trans hfit.2.1) (by decide)
  | worker i w =>
    rw [Sys.step] at hs
    split_ifs at hs
    obtain ⟨k', hw, rfl⟩ := Option.map_eq_some_iff.1 hs
    obtain ⟨w, buffer, passed, -, rfl⟩ := Sink.turn_of_work hw
    exact ⟨h.send, h.calm⟩

theorem safe_of_run {tr : List (Act Event)} (hr : (lts σ).Run Settled tr s) : s.Safe := by
  refine (hr.invariant (I := fun s => s.Inv σ ∧ s.Safe) ?_ fun s a s' h hok hs => ?_).2
  · rintro s rfl
    exact ⟨inv_init σ, Bool.noConfusion, fun _ _ h => by cases h⟩
  · exact ⟨h.1.step hs, h.2.step h.1 hok hs⟩

/-- **The asynchronous sink loses nothing and does not panic**, if no `Write` is between its check
and its send when `Close` closes the channel.  After `Close` the target has got every accepted
event exactly once, from a single worker in the order of acceptance, and `Close` can be called
again. -/
theorem async_sink_sound {tr : List (Act Event)} (hr : (lts σ).Run Settled tr s) :
    (∀ g value, s.pc g ≠ .panicked value) ∧
    (∀ g event, s.pc g = .wrote event .ok → event ∈ s.sink.accepted) ∧
    ∀ g, s.pc g = .returned →
      s.sink.passed.Perm s.sink.accepted ∧ (σ.workers = 1 → s.sink.passed = s.sink.accepted) ∧
      ∀ u, s.pc u = .enter →
        ∃ s', s.step σ (.goroutine u .once) = some s' ∧ s'.pc u = .returned := by
  have hinv := inv_of_run hr
  refine ⟨(safe_of_run hr).calm, fun g event hg => ?_, fun g hg => ?_⟩
  · have hfit := hinv.fits g
    rwa [hg] at hfit
  · exact ⟨(hinv.drained hg).1, (hinv.drained hg).2, fun u hu => hinv.close_returns hg hu⟩

/-- **No accepted event is lost or doubled in any interleaving**, also if a `Write` panics: it has
been passed on, is held by a worker or waits in the channel, with a single worker in the order of
acceptance, and after `Close` all have been passed on. -/
theorem accepted_accounted {ok : Sys Event → Act Event → Prop} {tr : List (Act Event)}
    (hr : (lts σ).Run ok tr s) :
    (s.sink.accepted : Multiset Event) = s.sink.passed +
      (∑ i ∈ Finset.range σ.workers, ((s.sink.workers i).held : Multiset Event)) + s.sink.buffer ∧
    (σ.workers = 1 →
      s.sink.accepted = s.sink.passed ++ (s.sink.workers 0).held ++ s.sink.buffer) ∧
    ∀ g, s.pc g = .returned → s.sink.passed.Perm s.sink.accepted := by
  have hinv := inv_of_run hr
  exact ⟨hinv.sink.balance, hinv.sink.ordered, fun g hg => (hinv.drained hg).1⟩

/-! ### Runs -/

/-- The guard, for the goroutines of a list. -/
def settled (ts : List ℕ) (s : Sys ℕ) : Act ℕ → Bool
  | .goroutine g op =>
    g ∈ ts ∧ (op = .closeCh → ts.all fun u => match s.pc u with | .send _ => false | _ => true)
  | .worker _ _ => true

theorem settled_of_check {ts : List ℕ} {s s' : Sys ℕ} {a : Act ℕ} (h : LTS.Quiet .idle ts s.pc)
    (hc : settled ts s a = true) (hs : s.step σ a = some s') :
    s.Settled a ∧ (lts σ).step s a s' ∧ LTS.Quiet .idle ts s'.pc := by
  cases a with
  | goroutine g op =>
    replace hc := of_decide_eq_true hc
    refine ⟨?_, hs, ?_⟩
    · cases op with
      | closeCh =>
        intro u event
        refine h.forall (Q := fun p => p ≠ .send event) (fun h => by cases h) (fun u hu hp => ?_) u
        have hall := List.all_eq_true.1 (hc.2 rfl) u hu
        rw [hp] at hall
        cases hall
      | _ => trivial
    · obtain ⟨r, -, rfl⟩ := Option.map_eq_some_iff.1 hs
      exact h.update hc.1
  | worker i w =>
    refine ⟨trivial, hs, ?_⟩
    rw [Sys.step] at hs
    split_ifs at hs
    obtain ⟨k', -, rfl⟩ := Option.map_eq_some_iff.1 hs
    exact h

/-- Goroutine `g` does all of `Close`, except for the wait. -/
def closing (g : ℕ) : List (Act ℕ) :=
  [Op.close, Op.once, Op.closeClosed, Op.closeCh].map (Act.goroutine g)

/-- Goroutine `g` comes to the send of `Write`. -/
def writing (g event : ℕ) : List (Act ℕ) := [Op.write event, Op.check].map (Act.goroutine g)

/-- Two events, then `Close` while the first one is with the target. -/
def writeThenClose : List (Act ℕ) :=
  writing 0 7 ++ [Act.goroutine 0 Op.send, Act.worker 0 Work.take, Act.worker 0 Work.pass] ++
  writing 0 8 ++ [Act.goroutine 0 Op.send] ++ closing 1 ++
  [Work.finish, Work.take, Work.pass, Work.finish, Work.exit].map (Act.worker 0) ++
  [Act.goroutine 1 Op.wait]

theorem async_sink_sound_two :
    ∃ s, (lts defaultAsyncSinkConfig.settings).Run Settled writeThenClose s ∧
      s.pc 1 = .returned ∧ s.sink.accepted = [7, 8] ∧ s.sink.passed = [7, 8] := by
  refine LTS.exists_guarded_run (J := fun s => LTS.Quiet .idle [0, 1] s.pc)
    (fun _ _ _ => settled_of_check) rfl (fun _ _ => rfl) _
    (P := fun s => s.pc 1 = .returned ∧ s.sink.accepted = [7, 8]) (by decide) fun s hrun hs => ?_
  exact ⟨hs.1, hs.2, (((async_sink_sound hrun).2.2 1 hs.1).2.1 rfl).trans hs.2⟩

/-- A `Write` has passed its check when another goroutine closes the sink. -/
theorem send_on_closed_channel :
    ∃ s, (lts defaultAsyncSinkConfig.settings).Run LTS.anyStep
        (writing 0 7 ++ closing 1 ++ [Act.goroutine 0 Op.send]) s ∧
      s.pc 0 = .panicked "send on closed channel" := by
  exact LTS.exists_run_of_exec (f := fun s a => s.step defaultAsyncSinkConfig.settings a)
    (fun _ _ _ h => h) rfl _ (by decide) fun _ _ h => h

/-- The second of two events is written while a worker holds the first one. -/
theorem accepted_accounted_two :
    ∃ tr s, (lts defaultAsyncSinkConfig.settings).Run LTS.anyStep tr s ∧
      s.sink.passed ++ (s.sink.workers 0).held ++ s.sink.buffer = [7, 8] := by
  refine ⟨writing 0 7 ++ [Act.goroutine 0 Op.send, Act.worker 0 Work.take] ++ writing 0 8 ++
    [Act.goroutine 0 Op.send], ?_⟩
  refine LTS.exists_run_of_exec (f := fun s a => s.step defaultAsyncSinkConfig.settings a)
    (fun _ _ _ h => h) rfl _ (P := fun s => s.sink.accepted = [7, 8]) (by decide)
    fun s hrun hs => ?_
  exact ((accepted_accounted hrun).2.1 rfl).symm.trans hs

end Sys

end AsyncSink

end GinRpc
