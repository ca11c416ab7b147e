import GinRpc.Actor.Mailbox

/-!
# Restarts and giving up

What the supervision of an actor promises if it restarts the actor at most `m` times in a row.

* `Supervised` : between two messages that were processed successfully there are at most `m`
  restarts, `OnGiveUp` is called once, and no message is handed to the actor afterwards.
* `Sys.Restrained` : the bound on the restarts, which every run keeps.  `consecutiveFailures` counts
  the restarts since the last success, with one that is on its way.
* `Sys.Resigned` : nothing happens to an actor after it was given up.  Giving up stops the mailbox,
  and the loop still drains it; so this rests on `Sys.Conclusive`: the mailbox is empty when the
  actor is given up, and gets no message afterwards.
* `Sys.handled_after_giveUp` : a message that was in the mailbox is handed over after `OnGiveUp`,
  and the actor is given up once more.
-/

namespace GinRpc

namespace Actor

variable {M : Type}

/-! ### Events -/

namespace Event

def isSuccess : Event M → Bool
  | .succeeded => true
  | _ => false

def isRestart : Event M → Bool
  | .restarted => true
  | _ => false

def isGiveUp : Event M → Bool
  | .onGiveUp _ => true
  | _ => false

end Event

/-- The restarts since the last message that was processed successfully. -/
def restartsSince (events : List (Event M)) : ℕ :=
  (events.takeWhile fun e => !e.isSuccess).countP Event.isRestart

/-- At no time were there more than `m` restarts since the last success. -/
def Bounded (m : ℕ) : List (Event M) → Prop
  | [] => True
  | e :: events => restartsSince (e :: events) ≤ m ∧ Bounded m events

theorem restartsSince_cons {e : Event M} {events : List (Event M)} (he : e.isSuccess = false) :
    restartsSince (e :: events) = restartsSince events + if e.isRestart then 1 else 0 := by
  rw [restartsSince, List.takeWhile_cons_of_pos (by rw [he]; rfl), List.countP_cons]
  rfl

/-- Between two successes there are at most `m` restarts. -/
theorem Bounded.countP_le {m : ℕ} {events l₁ l₂ l₃ : List (Event M)} (h : Bounded m events)
    (heq : events = l₁ ++ l₂ ++ l₃) (hl : ∀ e ∈ l₂, e.isSuccess = false) :
    l₂.countP Event.isRestart ≤ m := by
  induction l₁ generalizing events with
  | cons e l₁ ih =>
    subst heq
    exact ih h.2 rfl
  | nil =>
    cases l₂ with
    | nil => exact Nat.zero_le _
    | cons e l₂ =>
      rw [List.nil_append, List.cons_append] at heq
      subst heq
      refine le_trans ?_ h.1
      rw [restartsSince, ← List.cons_append,
        List.takeWhile_append_of_pos fun e he => by rw [hl e he]; rfl, List.countP_append]
      exact Nat.le_add_right _ _

/-- Events that are neither a success nor a restart. -/
theorem Bounded.append {m : ℕ} {events l : List (Event M)} (h : Bounded m events)
    (hm : restartsSince events ≤ m) (hl : ∀ e ∈ l, e.isSuccess = false ∧ e.isRestart = false) :
    Bounded m (l ++ events) ∧ restartsSince (l ++ events) = restartsSince events := by
  induction l with
  | nil => exact ⟨h, rfl⟩
  | cons e l ih =>
    obtain ⟨hb, hr⟩ := ih fun e he => hl e (List.mem_cons_of_mem _ he)
    obtain ⟨hs, hre⟩ := hl e List.mem_cons_self
    have : restartsSince (e :: (l ++ events)) = restartsSince events := by
      rw [restartsSince_cons hs, hre, hr]
      rfl
    exact ⟨⟨this.trans_le hm, hb⟩, this⟩

/-! ### What a step does to the events -/

/-- The actor that has a message in its hands, or is being restarted. -/
def Pc.busy : Pc M → Option ℕ
  | .receive a _ | .handlePanic a _ | .restart a => some a
  | _ => none

def Pc.panicked : Pc M → Option ℕ
  | .handlePanic a _ => some a
  | _ => none

theorem acting_of_busy {pc : Pc M} {a : ℕ} (h : pc.busy = some a) : pc.acting = some a := by
  cases pc <;> first | exact h | cases h

theorem busy_of_restarting {pc : Pc M} {a : ℕ} (h : pc.restarting = some a) :
    pc.busy = some a := by
  cases pc <;> first | exact h | cases h

@[grind =] theorem busy_resume {a : ℕ} {caller : Caller} :
    (caller.resume a : Pc M).busy = none := by
  cases caller <;> rfl

@[grind =] theorem restarting_resume {a : ℕ} {caller : Caller} :
    (caller.resume a : Pc M).restarting = none := by
  cases caller <;> rfl

namespace Cell

/-- `OnGiveUp` has been called. -/
def gaveUp (c : Cell M) : Bool := c.events.any Event.isGiveUp

/-- The supervision restarts the actor, `m` times in a row. -/
def Restarts (c : Cell M) (m : ℕ) : Prop :=
  ∃ sv, c.supervision = some sv ∧ sv.strategy ≠ .never ∧ sv.maxConsecutiveRestarts = m ∧ 0 < m

end Cell

theorem events_countFailure {c : Cell M} {sv : Supervision} {message : M} :
    (c.countFailure sv message).events =
      (if sv.onPanic then [.onPanic message] else []) ++ c.events := by
  rw [Cell.countFailure]
  cases sv.onPanic <;> rfl

/-- What `handlePanic` adds when the actor is given up. -/
theorem events_giveUp (c : Cell M) (sv : Supervision) (message : M) :
    ∃ l, ((c.countFailure sv message).notifyGiveUp sv).events = l ++ c.events ∧
      ∀ e ∈ l, e.isSuccess = false ∧ e.isRestart = false := by
  refine ⟨(if sv.onGiveUp then [.onGiveUp (Supervision.giveUpErr c.pid)] else []) ++
    if sv.onPanic then [.onPanic message] else [], ?_, fun e he => ?_⟩
  · rw [Cell.notifyGiveUp, events_countFailure]
    cases sv.onGiveUp <;> rfl
  · obtain he | he := List.mem_append.1 he <;> split_ifs at he <;>
      first | (obtain rfl := List.mem_singleton.1 he; exact ⟨rfl, rfl⟩) | cases he

/-- What `handlePanic` adds when the actor is restarted. -/
theorem events_restart (c : Cell M) (sv : Supervision) (message : M) :
    ∃ l, ((c.countFailure sv message).sleep sv).events = l ++ c.events ∧
      ∀ e ∈ l, e.isSuccess = false ∧ e.isRestart = false ∧ e.isGiveUp = false := by
  refine ⟨(if sv.strategy = .backoff then
      [.slept (sv.backoffFor (c.countFailure sv message).consecutiveFailures)] else []) ++
    if sv.onPanic then [.onPanic message] else [], ?_, fun e he => ?_⟩
  · rw [Cell.sleep, events_countFailure]
    dsimp only
    split_ifs <;> rfl
  · obtain he | he := List.mem_append.1 he <;> split_ifs at he <;>
      first | (obtain rfl := List.mem_singleton.1 he; exact ⟨rfl, rfl, rfl⟩) | cases he

namespace System

variable {opts : Options} {s : System M} {t : Tid} {b : Branch} {pc : Pc M} {r : System M × Pc M}
  {a : ℕ}

theorem exec_supervision (h : s.exec opts t b pc = some r) (ha : a < s.ncells) :
    (r.1.cell a).supervision = (s.cell a).supervision :=
  exec_keeps (P := fun c => c.supervision = (s.cell a).supervision) h ha rfl fun hu => by
    cases hu <;> rfl

/-- The ways an actor becomes busy, and stays it. -/
theorem exec_busy (h : s.exec opts t b pc = some r) (hr : r.2.busy = some a) :
    pc.busy = some a ∨ (pc.acting = some a ∧ (s.cell a).ch ≠ []) := by
  revert hr
  refine exec_leads (P := fun _ pc' => pc'.busy = some a → _) h (fun hm => ?_) fun hw => ?_
  · cases hm <;> grind [Pc.busy]
  · cases hw with
    | update hu => cases hu <;> grind [Pc.busy, Pc.acting]
    | _ => grind [Pc.busy]

/-- The events of an actor. -/
theorem exec_events (h : s.exec opts t b pc = some r) :
    ((r.1.cell a).events = (s.cell a).events ∧
      (r.1.cell a).consecutiveFailures = (s.cell a).consecutiveFailures ∧
      r.2.restarting ≠ some a) ∨
    (∃ env, (r.1.cell a).events = .received env :: (s.cell a).events ∧
      (r.1.cell a).consecutiveFailures = (s.cell a).consecutiveFailures ∧
      pc.acting = some a ∧ (s.cell a).ch ≠ [] ∧ r.2.restarting = none) ∨
    ((r.1.cell a).events = .succeeded :: (s.cell a).events ∧
      (r.1.cell a).consecutiveFailures = 0 ∧ pc.busy = some a ∧ r.2.restarting = none) ∨
    (∃ env sv, pc = .handlePanic a env ∧ (s.cell a).supervision = some sv ∧
      sv.strategy ≠ .never ∧ (s.cell a).exhausted sv = true ∧
      (r.1.cell a) = ((s.cell a).countFailure sv env.message).notifyGiveUp sv ∧
      r.2 = .stop a .giveUp) ∨
    (∃ env sv, pc = .handlePanic a env ∧ (s.cell a).supervision = some sv ∧
      sv.strategy ≠ .never ∧ (s.cell a).exhausted sv = false ∧
      (r.1.cell a) = ((s.cell a).countFailure sv env.message).sleep sv ∧ r.2 = .restart a) ∨
    ((r.1.cell a).events = .restarted :: (s.cell a).events ∧
      (r.1.cell a).consecutiveFailures = (s.cell a).consecutiveFailures ∧
      pc.restarting = some a ∧ r.2.restarting = none) ∨
    (a = s.ncells ∧ (r.1.cell a).events = [] ∧ (r.1.cell a).consecutiveFailures = 0 ∧
      r.2.restarting = none) := by
  obtain ⟨s', pc'⟩ := r
  obtain ⟨heq, hm⟩ | hw := exec_cases h
  · refine .inl ⟨by rw [heq], by rw [heq], ?_⟩
    cases hm <;> grind [Pc.restarting]
  · dsimp only at hw ⊢
    cases hw with
    | @update d _ _ _ c hu =>
      by_cases had : a = d
      · subst had
        rw [cell_setCell, if_pos rfl]
        cases hu with
        | next hch | drain hch =>
          exact .inr (.inl ⟨_, rfl, rfl, rfl, by rw [hch]; exact List.cons_ne_nil _ _, rfl⟩)
        | succeed => exact .inr (.inr (.inl ⟨rfl, rfl, rfl, rfl⟩))
        | giveUp hsv hne hex =>
          exact .inr (.inr (.inr (.inl ⟨_, _, rfl, hsv, hne, hex, rfl, rfl⟩)))
        | sleep hsv hne hex =>
          exact .inr (.inr (.inr (.inr (.inl ⟨_, _, rfl, hsv, hne, hex, rfl, rfl⟩))))
        | restart => exact .inr (.inr (.inr (.inr (.inr (.inl ⟨rfl, rfl, rfl, rfl⟩)))))
        | _ => exact .inl ⟨rfl, rfl, by grind [Pc.restarting]⟩
      · rw [cell_setCell, if_neg had]
        exact .inl ⟨rfl, rfl, by cases hu <;> grind [Pc.restarting]⟩
    | create =>
      rw [cell_newCell]
      split_ifs with ha
      · exact .inr (.inr (.inr (.inr (.inr (.inr ⟨ha, rfl, rfl, rfl⟩)))))
      · exact .inl ⟨rfl, rfl, by grind [Pc.restarting]⟩
    | _ => exact .inl ⟨rfl, rfl, by grind [Pc.restarting]⟩

end System

/-! ### Restarts and giving up -/

/-- What is promised for an actor that is restarted `m` times in a row. -/
structure Supervised (m : ℕ) (c : Cell M) : Prop where
  restarts : ∀ l₁ l₂ l₃, c.events = l₁ ++ l₂ ++ l₃ → (∀ e ∈ l₂, e.isSuccess = false) →
    l₂.countP Event.isRestart ≤ m
  once : c.events.countP Event.isGiveUp ≤ 1
  /-- the latest event comes first -/
  last : ∀ later err earlier, c.events = later ++ .onGiveUp err :: earlier →
    ∀ env, .received env ∉ later

namespace Sys

variable {opts : Options} {s s' : Sys M}

/-- An actor is given up with an empty mailbox only, and gets no message afterwards. -/
def Conclusive (s : Sys M) : Act M → Prop
  | .step t b =>
    (∀ a sv, (s.pc t).panicked = some a → (s.system.cell a).supervision = some sv →
      sv.strategy ≠ .never → (s.system.cell a).exhausted sv = true →
      (s.system.cell a).ch = []) ∧
    ∀ a env, (s.pc t).pushing = some (a, env) → b = .plain → (s.system.cell a).gaveUp = false
  | _ => True

/-- One restart may be on its way. -/
def pending (s : Sys M) (a : ℕ) : ℕ := if (s.pc (.actor a)).restarting = some a then 1 else 0

/-- The number of restarts is bounded, in every run. -/
def Restrained (s : Sys M) : Prop :=
  ∀ a m, (s.system.cell a).Restarts m → Bounded m (s.system.cell a).events ∧
    restartsSince (s.system.cell a).events + s.pending a ≤ (s.system.cell a).consecutiveFailures ∧
    restartsSince (s.system.cell a).events + s.pending a ≤ m

/-- After `OnGiveUp` nothing happens to an actor. -/
structure Resigned (s : Sys M) (a : ℕ) : Prop where
  empty : (s.system.cell a).ch = []
  idle : (s.pc (.actor a)).busy ≠ some a
  last : ∃ err earlier, (s.system.cell a).events = .onGiveUp err :: earlier ∧
    earlier.any Event.isGiveUp = false

theorem pending_goto {t : Tid} {r : System M × Pc M} {a : ℕ} :
    (s.goto t r.1 r.2).pending a =
      if (if .actor a = t then r.2 else s.pc (.actor a)).restarting = some a then 1 else 0 := by
  rw [pending, pc_goto]

theorem Restrained.exec (h : s.Restrained) (hs : s.Sound) {t : Tid} {b : Branch}
    {r : System M × Pc M} (hr : s.system.exec opts t b (s.pc t) = some r) :
    (s.goto t r.1 r.2).Restrained := by
  intro a m hm
  -- a goroutine that works for the actor is its own one
  have hown : (s.pc t).acting = some a → .actor a = t := fun hact => (hs.acting t a hact).symm
  have hzero : .actor a = t → r.2.restarting ≠ some a → (s.goto t r.1 r.2).pending a = 0 := by
    intro hat hne
    rw [pending_goto, if_pos hat, if_neg hne]
  by_cases ha : a < s.system.ncells
  swap
  · -- the cell is new
    have hcell := hs.fresh a (not_lt.1 ha)
    have hidle : s.pc (.actor a) = .idle := by
      by_contra hbegun
      exact ha (hs.lt_of_running (hs.begun a hbegun))
    have hat : .actor a ≠ t := by
      rintro rfl
      rw [hidle] at hr
      exact ha (hs.lt_of_running (System.exec_begin hr).2)
    have hev : (r.1.cell a).events = [] := by
      obtain ⟨hev, -⟩ | ⟨env, -, -, hact, -⟩ | ⟨-, -, hbusy, -⟩ | ⟨env, sv, hpc, -⟩ |
        ⟨env, sv, hpc, -⟩ | ⟨-, -, hres, -⟩ | ⟨-, hev, -⟩ := System.exec_events (a := a) hr
      · rw [hev, hcell]
      · exact absurd (hown hact) hat
      · exact absurd (hown (acting_of_busy hbusy)) hat
      · exact absurd (hown (by rw [hpc]; rfl)) hat
      · exact absurd (hown (by rw [hpc]; rfl)) hat
      · exact absurd (hown (acting_of_busy (busy_of_restarting hres))) hat
      · exact hev
    have hp : (s.goto t r.1 r.2).pending a = 0 := by
      rw [pending_goto, if_neg hat, hidle]
      rfl
    change Bounded m (r.1.cell a).events ∧ restartsSince (r.1.cell a).events + _ ≤ _ ∧
      restartsSince (r.1.cell a).events + _ ≤ m
    rw [hev, hp]
    exact ⟨trivial, Nat.zero_le _, Nat.zero_le _⟩
  · have hold : (s.system.cell a).Restarts m := by
      obtain ⟨sv, hsv, hrest⟩ := hm
      exact ⟨sv, (System.exec_supervision hr ha).symm.trans hsv, hrest⟩
    obtain ⟨hb, hfail, hle⟩ := h a m hold
    change Bounded m (r.1.cell a).events ∧ restartsSince (r.1.cell a).events + _ ≤
      (r.1.cell a).consecutiveFailures ∧ restartsSince (r.1.cell a).events + _ ≤ m
    obtain ⟨hev, hf, hne⟩ | ⟨env, hev, hf, hact, -, hne⟩ | ⟨hev, hf, hbusy, hne⟩ |
      ⟨env, sv, hpc, hsv, hstrat, hex, hcell, hr₂⟩ | ⟨env, sv, hpc, hsv, hstrat, hex, hcell, hr₂⟩ |
      ⟨hev, hf, hres, hne⟩ | ⟨rfl, -⟩ := System.exec_events (a := a) hr
    · have hp : (s.goto t r.1 r.2).pending a ≤ s.pending a := by
        by_cases hat : .actor a = t
        · rw [hzero hat hne]
          exact Nat.zero_le _
        · rw [pending_goto, if_neg hat]
          exact le_rfl
      rw [hev, hf]
      exact ⟨hb, (Nat.add_le_add_left hp _).trans hfail, (Nat.add_le_add_left hp _).trans hle⟩
    · obtain ⟨hb, hsince⟩ := hb.append (l := [.received env]) (by omega)
        fun e he => List.mem_singleton.1 he ▸ ⟨rfl, rfl⟩
      rw [hzero (hown hact) (by rw [hne]; rintro ⟨⟩), hev, hf, ← List.singleton_append, hsince]
      exact ⟨hb, by omega, by omega⟩
    · rw [hzero (hown (acting_of_busy hbusy)) (by rw [hne]; rintro ⟨⟩), hev, hf]
      exact ⟨⟨Nat.zero_le _, hb⟩, le_rfl, Nat.zero_le _⟩
    · obtain ⟨l, hev, hl⟩ := events_giveUp (s.system.cell a) sv env.message
      obtain ⟨hb, hsince⟩ := hb.append (by omega) fun e he => ⟨(hl e he).1, (hl e he).2⟩
      rw [hzero (hown (by rw [hpc]; rfl)) (by rw [hr₂]; rintro ⟨⟩), hcell, hev, hsince]
      exact ⟨hb, (by omega : _ ≤ (s.system.cell a).consecutiveFailures + 1), by omega⟩
    · obtain ⟨l, hev, hl⟩ := events_restart (s.system.cell a) sv env.message
      obtain ⟨hb, hsince⟩ := hb.append (by omega) fun e he => ⟨(hl e he).1, (hl e he).2.1⟩
      have hat := hown (by rw [hpc]; rfl)
      have hpend : (s.goto t r.1 r.2).pending a = 1 := by
        rw [pending_goto, if_pos hat, hr₂]
        exact if_pos rfl
      have hmax : (s.system.cell a).consecutiveFailures + 1 ≤ m := by
        obtain ⟨sv', hsv', -, hmax, hpos⟩ := hold
        cases hsv.symm.trans hsv'
        have hlim := of_decide_eq_false hex
        omega
      rw [hcell, hev, hsince, hpend]
      exact ⟨hb, (by omega : _ ≤ (s.system.cell a).consecutiveFailures + 1), by omega⟩
    · have hat := hown (acting_of_busy (busy_of_restarting hres))
      have hpend : s.pending a = 1 := by
        rw [pending, hat]
        exact if_pos hres
      rw [hzero hat (by rw [hne]; rintro ⟨⟩), hev, hf]
      have hsince : restartsSince (.restarted :: (s.system.cell a).events) =
          restartsSince (s.system.cell a).events + 1 := restartsSince_cons rfl
      exact ⟨⟨by omega, hb⟩, by omega, by omega⟩
    · exact absurd ha (lt_irrefl _)

theorem Restrained.call (h : s.Restrained) {i : ℕ} {pc : Pc M} :
    (s.goto (.user i) s.system pc).Restrained := by
  intro a m hm
  have hp : (s.goto (.user i) s.system pc).pending a = s.pending a := by
    rw [pending, pc_goto, if_neg (Tid.noConfusion : Tid.actor a ≠ .user i), pending]
  rw [hp]
  exact h a m hm

theorem Restrained.step (h : s.Restrained) (hs : s.Sound) {x : Act M}
    (hx : s.step opts x = some s') : s'.Restrained := by
  obtain ⟨t, b, r, -, hr, rfl⟩ | ⟨i, pc, -, -, rfl⟩ := step_cases hx
  · exact h.exec hs hr
  · exact h.call

/-- The mailbox of an actor that was given up stays empty. -/
theorem Resigned.exec_empty {a : ℕ} (h : s.Resigned a) (ha : (s.system.cell a).gaveUp = true)
    {t : Tid} {b : Branch} {r : System M × Pc M} (hok : s.Conclusive (.step t b))
    (hr : s.system.exec opts t b (s.pc t) = some r) : (r.1.cell a).ch = [] := by
  obtain ⟨-, hch, -⟩ | ⟨env, hpush, hb, -⟩ | ⟨env, hch, -⟩ | ⟨-, -, hch, -⟩ :=
    System.exec_queue (a := a) hr
  · exact hch.trans h.empty
  · cases (hok.2 a env hpush hb).symm.trans ha
  · cases hch.symm.trans h.empty
  · exact hch

theorem Resigned.exec (h : ∀ a, (s.system.cell a).gaveUp = true → s.Resigned a) (hs : s.Sound)
    {t : Tid} {b : Branch} {r : System M × Pc M} (hok : s.Conclusive (.step t b))
    (hr : s.system.exec opts t b (s.pc t) = some r) {a : ℕ} (ha : (r.1.cell a).gaveUp = true) :
    (s.goto t r.1 r.2).Resigned a := by
  -- the goroutine is not that of an actor that was given up and is busy
  have hidle : (s.pc t).busy = some a → (s.system.cell a).gaveUp = false := by
    intro hbusy
    by_contra hg
    have hat := hs.acting t a (acting_of_busy hbusy)
    exact (h a (by simpa using hg)).idle (hat ▸ hbusy)
  obtain ⟨hev, -⟩ | ⟨env, hev, -, hact, hch, -⟩ | ⟨hev, -, hbusy, -⟩ |
    ⟨env, sv, hpc, hsv, hstrat, hex, hcell, hr₂⟩ | ⟨env, sv, hpc, hsv, hstrat, hex, hcell, hr₂⟩ |
    ⟨hev, -, hres, -⟩ | ⟨-, hev, -⟩ := System.exec_events (a := a) hr
  · have hold : (s.system.cell a).gaveUp = true := by rwa [Cell.gaveUp, ← hev]
    have hres := h a hold
    refine ⟨hres.exec_empty hold hok hr, fun hbusy => ?_, by rw [goto, hev]; exact hres.last⟩
    rw [pc_goto] at hbusy
    split_ifs at hbusy with hat
    · obtain hbusy | ⟨-, hch⟩ := System.exec_busy hr hbusy
      · cases (hidle hbusy).symm.trans hold
      · exact hch hres.empty
    · exact hres.idle hbusy
  · rw [Cell.gaveUp, hev] at ha
    exact absurd (h a ha).empty hch
  · rw [Cell.gaveUp, hev] at ha
    cases (hidle hbusy).symm.trans ha
  · have hbusy : (s.pc t).busy = some a := by rw [hpc]; rfl
    have hat := hs.acting t a (acting_of_busy hbusy)
    refine ⟨?_, ?_, ?_⟩
    · rw [goto, hcell]
      exact hok.1 a sv (by rw [hpc]; rfl) hsv hstrat hex
    · rw [pc_goto, if_pos hat.symm, hr₂]
      rintro ⟨⟩
    · have hnone : ((s.system.cell a).countFailure sv env.message).events.any Event.isGiveUp =
          false := by
        rw [events_countFailure, List.any_append]
        have := hidle hbusy
        rw [Cell.gaveUp] at this
        rw [this]
        cases sv.onPanic <;> rfl
      rw [goto, hcell, Cell.notifyGiveUp]
      rw [Cell.gaveUp, hcell, Cell.notifyGiveUp] at ha
      dsimp only at ha ⊢
      split_ifs at ha ⊢
      · exact ⟨_, _, rfl, hnone⟩
      · cases hnone.symm.trans ha
  · have hbusy : (s.pc t).busy = some a := by rw [hpc]; rfl
    obtain ⟨l, hev, hl⟩ := events_restart (s.system.cell a) sv env.message
    have hnone : l.any Event.isGiveUp = false :=
      List.any_eq_false.2 fun e he => by rw [(hl e he).2.2]; exact Bool.false_ne_true
    rw [Cell.gaveUp, hcell, hev, List.any_append, hnone] at ha
    cases (hidle hbusy).symm.trans ha
  · rw [Cell.gaveUp, hev] at ha
    cases (hidle (busy_of_restarting hres)).symm.trans ha
  · rw [Cell.gaveUp, hev] at ha
    cases ha

theorem Resigned.step (h : ∀ a, (s.system.cell a).gaveUp = true → s.Resigned a) (hs : s.Sound)
    {x : Act M} (hok : s.Conclusive x) (hx : s.step opts x = some s') (a : ℕ)
    (ha : (s'.system.cell a).gaveUp = true) : s'.Resigned a := by
  obtain ⟨t, b, r, rfl, hr, rfl⟩ | ⟨i, pc, -, -, rfl⟩ := step_cases hx
  · exact Resigned.exec h hs hok hr ha
  · obtain ⟨hch, hidle, hlast⟩ := h a ha
    refine ⟨hch, ?_, hlast⟩
    rwa [pc_goto, if_neg nofun]

/-- **An actor is restarted at most `m` times in a row, and is given up once and for all**, along
every run in which the mailbox is empty when it is given up and gets no message afterwards. -/
theorem supervised_of_conclusive {tr : List (Act M)} (hrun : (lts opts).Run Conclusive tr s)
    {a m : ℕ} (hm : (s.system.cell a).Restarts m) : Supervised m (s.system.cell a) := by
  have hinv : s.Sound ∧ s.Restrained ∧ ∀ a, (s.system.cell a).gaveUp = true → s.Resigned a := by
    refine hrun.invariant
      (I := fun s => s.Sound ∧ s.Restrained ∧ ∀ a, (s.system.cell a).gaveUp = true → s.Resigned a)
      ?_ ?_
    · rintro _ rfl
      refine ⟨sound_init, fun a m hm => ?_, nofun⟩
      obtain ⟨sv, hsv, -⟩ := hm
      cases hsv
    · rintro s x s' ⟨hs, hrest, hres⟩ hok hx
      exact ⟨hs.step hx, hrest.step hs hx, Resigned.step hres hs hok hx⟩
  obtain ⟨-, hrest, hres⟩ := hinv
  refine ⟨fun l₁ l₂ l₃ heq hl => (hrest a m hm).1.countP_le heq hl, ?_, ?_⟩
  · cases hg : (s.system.cell a).gaveUp with
    | false =>
      refine (Nat.le_of_eq (List.countP_eq_zero.2 fun e he => ?_)).trans (Nat.zero_le 1)
      exact List.any_eq_false.1 hg e he
    | true =>
      obtain ⟨err, earlier, hev, hnone⟩ := (hres a hg).last
      rw [hev, List.countP_cons_of_pos rfl, List.countP_eq_zero.2 (List.any_eq_false.1 hnone)]
  · intro later err earlier heq env hmem
    have hg : (s.system.cell a).gaveUp = true := by
      rw [Cell.gaveUp, heq, List.any_append, List.any_cons]
      simp [Event.isGiveUp]
    obtain ⟨err', earlier', hev, hnone⟩ := (hres a hg).last
    rw [heq] at hev
    cases later with
    | nil => cases hmem
    | cons e later =>
      obtain ⟨-, heq⟩ := List.cons.inj hev
      refine absurd (List.any_eq_true.2 ⟨.onGiveUp err, ?_, rfl⟩) (Bool.eq_false_iff.1 hnone)
      rw [← heq]
      exact List.mem_append_right _ List.mem_cons_self

/-- A conclusive step, checked by evaluation. -/
def conclusive (s : Sys M) : Act M → Bool
  | .step t b =>
    ((s.pc t).panicked.all fun a => (s.system.cell a).supervision.all fun sv =>
      decide (sv.strategy = .never) || !(s.system.cell a).exhausted sv ||
        (s.system.cell a).ch.isEmpty) &&
    (s.pc t).pushing.all fun p => decide (b ≠ .plain) || !(s.system.cell p.1).gaveUp
  | _ => true

theorem conclusive_of_check {x : Act M} (h : s.conclusive x = true) : s.Conclusive x := by
  cases x with
  | step t b =>
    obtain ⟨hpanic, hpush⟩ := Bool.and_eq_true_iff.1 h
    refine ⟨fun a sv ha hsv hstrat hex => ?_, fun a env ha hb => ?_⟩
    · rw [ha, Option.all_some, hsv, Option.all_some, decide_eq_false hstrat, hex] at hpanic
      exact List.isEmpty_iff.1 hpanic
    · rw [ha, Option.all_some, hb] at hpush
      simpa using hpush
  | _ => trivial

/-- Mailboxes of four messages, one restart in a row, and `OnGiveUp` is set. -/
def fragileOptions : Options := ⟨4, false, some ⟨.always, 1, 0, 0, false, true⟩⟩

/-- Goroutine `i` sends the number `i`. -/
def sendNumber (i : ℕ) : List (Act ℕ) :=
  [.send i "a" ⟨"", i⟩] ++ List.replicate 4 (.step (.user i) .plain)

/-- The actor takes a message and panics. -/
def panicOnce : List (Act ℕ) :=
  [.step (.actor 0) .plain, .step (.actor 0) .panics, .step (.actor 0) .plain]

/-- The first panic leads to a restart, the second one to the end. -/
def giveUpRun : List (Act ℕ) :=
  spawnOne ++ sendNumber 1 ++ panicOnce ++ List.replicate 2 (.step (.actor 0) .plain) ++
    sendNumber 2 ++ panicOnce ++ List.replicate 4 (.step (.actor 0) .plain)

/-- The same with a third message, which is in the mailbox when the actor is given up. -/
def giveUpTwice : List (Act ℕ) :=
  spawnOne ++ sendNumber 1 ++ sendNumber 2 ++ sendNumber 3 ++ panicOnce ++
    List.replicate 2 (.step (.actor 0) .plain) ++ panicOnce ++
    List.replicate 4 (.step (.actor 0) .plain) ++ panicOnce

theorem supervised_given_up :
    ∃ s, (lts fragileOptions).Run Conclusive giveUpRun s ∧ (s.system.cell 0).Restarts 1 ∧
      (s.system.cell 0).gaveUp = true ∧ Supervised 1 (s.system.cell 0) := by
  refine LTS.exists_checked_run (A := lts fragileOptions) (fun _ _ _ h => h)
    (fun _ _ => conclusive_of_check) rfl _
    (P := fun s => (s.system.cell 0).supervision = fragileOptions.defaultSupervision ∧
      (s.system.cell 0).gaveUp = true) (by decide) fun s hrun hs => ?_
  have hm : (s.system.cell 0).Restarts 1 := ⟨_, hs.1, by decide, rfl, Nat.one_pos⟩
  exact ⟨hm, hs.2, supervised_of_conclusive hrun hm⟩

/-- The third message is handed over after the actor was given up, and it is given up again. -/
theorem handled_after_giveUp :
    ∃ s, (lts fragileOptions).Run LTS.anyStep giveUpTwice s ∧ (s.system.cell 0).Restarts 1 ∧
      (s.system.cell 0).events.countP Event.isGiveUp = 2 ∧
      ¬ Supervised 1 (s.system.cell 0) := by
  refine LTS.exists_run_of_exec (f := fun s x => s.step fragileOptions x) (fun _ _ _ h => h) rfl _
    (P := fun s => (s.system.cell 0).supervision = fragileOptions.defaultSupervision ∧
      (s.system.cell 0).events.countP Event.isGiveUp = 2) (by decide) fun s hrun hs => ?_
  refine ⟨⟨_, hs.1, by decide, rfl, Nat.one_pos⟩, hs.2, fun h => ?_⟩
  have := h.once
  omega

end Sys

end Actor

end GinRpc
