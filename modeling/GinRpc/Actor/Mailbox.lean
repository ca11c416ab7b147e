import GinRpc.Actor.Steps

/-!
# Messages of an actor

What every run of the actor system keeps, and what becomes of a message.

* `Sys.Sound` : the invariant of all runs.  The goroutine of an actor is the only one that runs its
  loop, and `stopCh` of a mailbox is closed after its flag is set.
* `Sys.Hosted` : the calls of a behaviour are made by the goroutine of its actor, so it does not
  return from `Receive` before they have returned.
* `Sys.Delivered` : a message that `Send` was told is accepted is in the mailbox, and the behaviour
  is handed the messages in the order of the mailbox, each one once.  Once the goroutine has ended,
  all of them have been handed over.
* `Sys.delivered_of_unhurried` : this holds along every run in which no loop ends while a `push`
  has found its mailbox open and has not yet taken its `select`, and no `Producer` panics; and the
  goroutine can hand over all messages if the calls of its behaviour return.
* `Sys.accepted_after_end` : otherwise a message is accepted that nobody will read.
-/

namespace GinRpc

namespace Actor

variable {M : Type}

/-- A call has not begun or has returned. -/
def Pc.rests : Pc M → Bool
  | .idle | .sent _ _ | .spawned _ | .shut | .failed _ | .done => true
  | _ => false

namespace Sys

variable {opts : Options} {s s' : Sys M}

/-- What every run keeps. -/
structure Sound (s : Sys M) : Prop where
  fresh : ∀ a, s.system.ncells ≤ a → s.system.cell a = {}
  known : ∀ t a, (s.pc t).address = some a → a < s.system.ncells
  registered : ∀ pid a, s.system.actors.lookup pid = some a →
    a < s.system.ncells ∧ (s.system.cell a).pid = pid
  found : ∀ t, ∀ a ∈ (s.pc t).found, a < s.system.ncells
  waited : ∀ i, ∀ a ∈ s.system.wg i, a < s.system.ncells
  acting : ∀ t a, (s.pc t).acting = some a → t = .actor a
  closing : ∀ t a, (s.pc t).closing = some a → (s.system.cell a).closed = true
  stopCh : ∀ a, (s.system.cell a).stopCh = true → (s.system.cell a).closed = true
  draining : ∀ t a, (s.pc t).draining = some a → (s.system.cell a).closed = true
  begun : ∀ a, s.pc (.actor a) ≠ .idle → (s.system.cell a).running = true
  /-- the goroutine of an actor has not begun, is in `run`, or has closed `done` -/
  role : ∀ a, s.pc (.actor a) = .idle ∨ (s.pc (.actor a)).acting = some a ∨
    (s.pc (.actor a) = .done ∧ (s.system.cell a).done = true)
  done : ∀ a, (s.system.cell a).done = true → s.pc (.actor a) = .done

theorem sound_init : Sound ({} : Sys M) where
  fresh _ _ := rfl
  known := nofun
  registered _ _ h := by cases h
  found := nofun
  waited := nofun
  acting := nofun
  closing := nofun
  stopCh := nofun
  draining := nofun
  begun _ h := absurd rfl h
  role _ := .inl rfl
  done := nofun

/-- A cell that is running exists. -/
theorem Sound.lt_of_running (h : s.Sound) {a : ℕ} (ha : (s.system.cell a).running = true) :
    a < s.system.ncells := by
  by_contra hle
  rw [h.fresh a (not_lt.1 hle)] at ha
  cases ha

theorem Sound.exec (h : s.Sound) {t : Tid} {b : Branch} {r : System M × Pc M}
    (hr : s.system.exec opts t b (s.pc t) = some r) : (s.goto t r.1 r.2).Sound := by
  have hn := System.exec_ncells hr
  have harrival := System.exec_arrival hr
  have hclosed : ∀ a, a < s.system.ncells → (s.system.cell a).closed = true →
      (r.1.cell a).closed = true := fun a => System.exec_closed hr
  have hstop : ∀ a, (s.system.cell a).stopCh = true → a < s.system.ncells := by
    intro a ha
    by_contra hle
    rw [h.fresh a (not_lt.1 hle)] at ha
    cases ha
  constructor
  case fresh =>
    intro a ha
    change r.1.ncells ≤ a at ha
    obtain heq | hpc | ⟨rfl, hnew⟩ := System.exec_cell (a := a) hr
    · exact heq.trans (h.fresh a (hn.trans ha))
    · exact absurd (h.known t a hpc) (by omega)
    · omega
  case known =>
    intro u a hu
    rw [pc_goto] at hu
    split_ifs at hu
    · obtain hpc | ⟨pid, hreg⟩ | hrun | ⟨i, hwg⟩ | hlt := harrival.address hu
      · exact (h.known t a hpc).trans_le hn
      · exact (h.registered pid a hreg).1.trans_le hn
      · exact (h.lt_of_running hrun).trans_le hn
      · exact (h.waited i a hwg).trans_le hn
      · exact hlt
    · exact (h.known u a hu).trans_le hn
  case registered =>
    intro pid a ha
    obtain hold | ⟨rfl, hnew, hpid⟩ := System.exec_actors hr ha
    · obtain ⟨hlt, hpid⟩ := h.registered pid a hold
      exact ⟨hlt.trans_le hn, (System.exec_pid hr hlt).trans hpid⟩
    · exact ⟨by rw [goto, hnew]; exact Nat.lt_succ_self _, hpid⟩
  case found =>
    intro u a hu
    rw [pc_goto] at hu
    split_ifs at hu
    · obtain hpc | ⟨pid, hreg⟩ := harrival.found hu
      · exact (h.found t a hpc).trans_le hn
      · exact (h.registered pid a hreg).1.trans_le hn
    · exact (h.found u a hu).trans_le hn
  case waited =>
    intro i a ha
    obtain hold | hpc := System.exec_wg hr ha
    · exact (h.waited i a hold).trans_le hn
    · exact (h.found t a hpc).trans_le hn
  case acting =>
    intro u a hu
    rw [pc_goto] at hu
    split_ifs at hu with hut
    · rw [hut]
      exact (harrival.acting hu).elim (h.acting t a) id
    · exact h.acting u a hu
  case closing =>
    intro u a hu
    rw [pc_goto] at hu
    split_ifs at hu
    · exact harrival.closing hu
    · exact hclosed a (h.known u a (address_of_closing hu)) (h.closing u a hu)
  case stopCh =>
    intro a ha
    obtain hold | hpc := System.exec_stopCh hr ha
    · exact hclosed a (hstop a hold) (h.stopCh a hold)
    · exact hclosed a (h.known t a (address_of_closing hpc)) (h.closing t a hpc)
  case draining =>
    intro u a hu
    rw [pc_goto] at hu
    split_ifs at hu
    · have hst := harrival.draining hu
      exact hclosed a (hstop a hst) (h.stopCh a hst)
    · exact hclosed a (h.known u a (address_of_draining hu)) (h.draining u a hu)
  case begun =>
    intro a ha
    have hrun : (s.system.cell a).running = true := by
      by_cases hidle : s.pc (.actor a) = .idle
      · rw [pc_goto] at ha
        split_ifs at ha with hat
        · subst hat
          rw [hidle] at hr
          exact (System.exec_begin hr).2
        · exact absurd hidle ha
      · exact h.begun a hidle
    exact System.exec_running hr (h.lt_of_running hrun) hrun
  case role =>
    intro a
    rw [pc_goto]
    split_ifs with hat
    · subst hat
      obtain hidle | hact | ⟨hdone, -⟩ := h.role a
      · rw [hidle] at hr
        rw [(System.exec_begin hr).1]
        exact .inr (.inl rfl)
      · exact .inr (harrival.role hact)
      · rw [hdone] at hr
        cases hr
    · refine (h.role a).imp_right (Or.imp_right fun hd => ⟨hd.1, ?_⟩)
      exact System.exec_done_mono hr (h.lt_of_running (h.begun a (by rw [hd.1]; nofun))) hd.2
  case done =>
    intro a ha
    rw [pc_goto]
    obtain hold | ⟨-, hact, hdone⟩ := System.exec_done hr ha
    · rw [if_neg, h.done a hold]
      rintro rfl
      rw [h.done a hold] at hr
      cases hr
    · rw [if_pos (h.acting t a hact).symm, hdone]

/-- A step of a goroutine, or the start of a call by one that has not begun. -/
theorem step_cases {x : Act M} (hs : s.step opts x = some s') :
    (∃ t b r, x = .step t b ∧ s.system.exec opts t b (s.pc t) = some r ∧ s' = s.goto t r.1 r.2) ∨
    ∃ i pc, x.thread = .user i ∧ s.entry x = some pc ∧ s' = s.goto (.user i) s.system pc := by
  cases x with
  | step t b =>
    obtain ⟨r, hr, rfl⟩ := Option.map_eq_some_iff.1 hs
    exact .inl ⟨t, b, r, rfl, hr, rfl⟩
  | _ i =>
    unfold step at hs
    dsimp only at hs
    split at hs
    · obtain ⟨pc, hpc, rfl⟩ := Option.map_eq_some_iff.1 hs
      exact .inr ⟨i, pc, rfl, hpc, rfl⟩
    · cases hs

/-- A call begins with nothing in its hands. -/
structure Entry (s : Sys M) (pc : Pc M) : Prop where
  address : ∀ a, pc.address = some a → s.pc (.actor a) ≠ .idle
  found : pc.found = []
  acting : pc.acting = none
  left : pc.left = none
  closing : pc.closing = none
  draining : pc.draining = none
  pushing : pc.pushing = none
  told : pc.told = none

theorem entry_of_eq_some {x : Act M} {pc : Pc M} (h : s.entry x = some pc) : Entry s pc := by
  cases x with
  | stopSelf i a =>
    unfold entry at h
    dsimp only at h
    split at h
    · cases h
    next hidle =>
      cases h
      refine ⟨fun d hd => ?_, rfl, rfl, rfl, rfl, rfl, rfl, rfl⟩
      cases hd
      exact hidle
  | step => cases h
  | _ =>
    cases h
    exact ⟨nofun, rfl, rfl, rfl, rfl, rfl, rfl, rfl⟩

theorem Sound.call (h : s.Sound) {i : ℕ} {pc : Pc M} (hpc : Entry s pc) :
    (s.goto (.user i) s.system pc).Sound := by
  have hgoto : ∀ {u}, (s.goto (.user i) s.system pc).pc u = if u = .user i then pc else s.pc u :=
    pc_goto
  have hactor : ∀ a, (s.goto (.user i) s.system pc).pc (.actor a) = s.pc (.actor a) :=
    fun a => hgoto.trans (if_neg nofun)
  constructor
  case fresh => exact h.fresh
  case known =>
    intro u a hu
    rw [hgoto] at hu
    split_ifs at hu
    · exact h.lt_of_running (h.begun a (hpc.address a hu))
    · exact h.known u a hu
  case registered => exact h.registered
  case found =>
    intro u a hu
    rw [hgoto] at hu
    split_ifs at hu
    · rw [hpc.found] at hu
      cases hu
    · exact h.found u a hu
  case waited => exact h.waited
  case acting => exact fun u a hu => h.acting u a (LTS.view_update_none hpc.acting hu).2
  case closing => exact fun u a hu => h.closing u a (LTS.view_update_none hpc.closing hu).2
  case stopCh => exact h.stopCh
  case draining => exact fun u a hu => h.draining u a (LTS.view_update_none hpc.draining hu).2
  case begun =>
    intro a
    rw [hactor]
    exact h.begun a
  case role =>
    intro a
    rw [hactor]
    exact h.role a
  case done =>
    intro a
    rw [hactor]
    exact h.done a

theorem Sound.step (h : s.Sound) {x : Act M} (hs : s.step opts x = some s') : s'.Sound := by
  obtain ⟨t, b, r, -, hr, rfl⟩ | ⟨i, pc, -, hpc, rfl⟩ := step_cases hs
  · exact h.exec hr
  · exact h.call (entry_of_eq_some hpc)

/-! ### No message is lost -/

/-- What is promised for the messages of an actor. -/
structure Delivered (s : Sys M) (a : ℕ) : Prop where
  order : (s.system.cell a).accepted = (s.system.cell a).handled ++ (s.system.cell a).ch
  told : ∀ t env, (s.pc t).told = some (a, env) → env ∈ (s.system.cell a).accepted
  ended : (s.system.cell a).done = true →
    (s.system.cell a).handled = (s.system.cell a).accepted

/-- The calls that the behaviour of actor `a` makes have returned; `host` says whose calls they
are. -/
def Returned (host : ℕ → Option ℕ) (s : Sys M) (a : ℕ) : Prop :=
  ∀ i, host i = some a → (s.pc (.user i)).rests = true

/-- A behaviour makes its calls in `Receive`, one after the other, and returns after them. -/
def Hosted (host : ℕ → Option ℕ) (s : Sys M) : Act M → Prop
  | .step (.actor a) _ => (∃ env, s.pc (.actor a) = .receive a env) → s.Returned host a
  | .step _ _ => True
  | x => ∀ i a, x.thread = .user i → host i = some a →
    (∃ env, s.pc (.actor a) = .receive a env) ∧ s.Returned host a

/-- A loop ends only if no `push` is between its two steps, and no `Producer` panics. -/
def Unhurried (s : Sys M) : Act M → Prop
  | .step t b =>
    (∀ a, (s.pc t).draining = some a → (s.system.cell a).ch = [] →
      ∀ u env, (s.pc u).pushing ≠ some (a, env)) ∧
    (b = .panics → (s.pc t).restarting = none)
  | _ => True

/-- A step of a run of the system -/
def Allowed (host : ℕ → Option ℕ) (s : Sys M) (x : Act M) : Prop := s.Hosted host x ∧ s.Unhurried x

/-- The invariant of the messages. -/
structure Posted (s : Sys M) : Prop where
  order : ∀ a, (s.system.cell a).accepted =
    (s.system.cell a).handled ++ (s.system.cell a).ch
  told : ∀ t a env, (s.pc t).told = some (a, env) → env ∈ (s.system.cell a).accepted
  /-- after the loop the mailbox is empty, and stays so -/
  left : ∀ a, (s.pc (.actor a)).left = some a ∨ (s.system.cell a).done = true →
    (s.system.cell a).ch = [] ∧ (s.system.cell a).closed = true ∧
      ∀ u env, (s.pc u).pushing ≠ some (a, env)

section Exec

variable {t : Tid} {b : Branch} {r : System M × Pc M}

theorem Posted.exec_order (h : s.Posted) (hr : s.system.exec opts t b (s.pc t) = some r) (a : ℕ) :
    (r.1.cell a).accepted = (r.1.cell a).handled ++ (r.1.cell a).ch := by
  have hold := h.order a
  obtain ⟨hacc, hch, hhan⟩ | ⟨env, -, -, hacc, hch, hhan⟩ |
    ⟨env, hch, hacc, hhan⟩ | ⟨-, hacc, hch, hhan⟩ := System.exec_queue (a := a) hr
  · rw [hacc, hch, hhan, hold]
  · rw [hacc, hch, hhan, hold, List.append_assoc]
  · rw [hacc, hhan, hold, hch, List.append_assoc, List.singleton_append]
  · rw [hacc, hch, hhan, List.nil_append]

/-- What has been accepted stays so. -/
theorem exec_accepted (hr : s.system.exec opts t b (s.pc t) = some r) {a : ℕ}
    (ha : a < s.system.ncells) {env : Envelope M} (hmem : env ∈ (s.system.cell a).accepted) :
    env ∈ (r.1.cell a).accepted := by
  obtain ⟨hacc, -⟩ | ⟨_, -, -, hacc, -⟩ | ⟨_, -, hacc, -⟩ | ⟨rfl, -⟩ :=
    System.exec_queue (a := a) hr
  · rwa [hacc]
  · rw [hacc]
    exact List.mem_append_left _ hmem
  · rwa [hacc]
  · exact absurd ha (lt_irrefl _)

theorem Posted.exec (h : s.Posted) (hs : s.Sound) (hok : s.Unhurried (.step t b))
    (hr : s.system.exec opts t b (s.pc t) = some r) : (s.goto t r.1 r.2).Posted where
  order := h.exec_order hr
  told u a env hu := by
    rw [pc_goto] at hu
    split_ifs at hu
    · exact (System.exec_arrival hr).told hu
    · exact exec_accepted hr (hs.known u a (address_of_told hu)) (h.told u a env hu)
  left a ha := by
    -- the loop had ended before, or it ends with this step
    have hbefore : ((s.pc (.actor a)).left = some a ∨ (s.system.cell a).done = true) ∨
        (t = .actor a ∧ (s.pc t).draining = some a ∧ (s.system.cell a).ch = [] ∧
          r.1 = s.system ∧ r.2.left = some a) := by
      obtain hleft | hdone := ha
      · rw [pc_goto] at hleft
        split_ifs at hleft with hat
        · subst hat
          obtain hold | ⟨hdrain, hch, hsame⟩ | ⟨hres, hb⟩ := (System.exec_arrival hr).left hleft
          · exact .inl (.inl hold)
          · exact .inr ⟨rfl, hdrain, hch, hsame, hleft⟩
          · exact absurd (hres.symm.trans (hok.2 hb)) nofun
        · exact .inl (.inl hleft)
      · obtain hold | ⟨hleft, hact, -⟩ := System.exec_done hr hdone
        · exact .inl (.inr hold)
        · exact .inl (.inl (hs.acting t a hact ▸ hleft))
    obtain hold | ⟨rfl, hdrain, hch, hsame, hleft⟩ := hbefore
    · obtain ⟨hch, hclosed, hpush⟩ := h.left a hold
      have hlt : a < s.system.ncells := by
        obtain hleft | hdone := hold
        · exact hs.known _ a (address_of_left hleft)
        · exact hs.lt_of_running (hs.begun a (by rw [hs.done a hdone]; nofun))
      refine ⟨?_, System.exec_closed hr hlt hclosed, fun u env hu => ?_⟩
      · obtain ⟨-, heq, -⟩ | ⟨env, hpc, -⟩ | ⟨env, heq, -⟩ | ⟨-, -, heq, -⟩ :=
          System.exec_queue (a := a) hr
        · exact heq.trans hch
        · exact absurd hpc (hpush t env)
        · exact absurd (heq.symm.trans hch) nofun
        · exact heq
      · rw [pc_goto] at hu
        split_ifs at hu
        · exact absurd (((System.exec_arrival hr).pushing hu).symm.trans hclosed) nofun
        · exact hpush u env hu
    · rw [goto, hsame]
      refine ⟨hch, hs.draining _ a hdrain, fun u env hu => ?_⟩
      change (Function.update s.pc (.actor a) r.2 u).pushing = _ at hu
      rw [Function.update_apply] at hu
      split_ifs at hu
      · exact absurd (pushing_of_left hleft ▸ hu) nofun
      · exact hok.1 a hdrain hch u env hu

end Exec

theorem Posted.call (h : s.Posted) {i : ℕ} {pc : Pc M} (hpc : Entry s pc) :
    (s.goto (.user i) s.system pc).Posted where
  order := h.order
  told u a env hu := h.told u a env (LTS.view_update_none hpc.told hu).2
  left a ha := by
    rw [pc_goto, if_neg nofun] at ha
    obtain ⟨hch, hclosed, hpush⟩ := h.left a ha
    refine ⟨hch, hclosed, fun u env hu => ?_⟩
    exact hpush u env (LTS.view_update_none hpc.pushing hu).2

theorem Posted.step (h : s.Posted) (hs : s.Sound) {x : Act M} (hok : s.Unhurried x)
    (hx : s.step opts x = some s') : s'.Posted := by
  obtain ⟨t, b, r, rfl, hr, rfl⟩ | ⟨i, pc, -, hpc, rfl⟩ := step_cases hx
  · exact h.exec hs hok hr
  · exact h.call (entry_of_eq_some hpc)

/-! ### The goroutine of an actor needs no other one -/

end Sys

/-- A bound on the steps of an actor until it looks into its mailbox. -/
def Pc.rank : Pc M → ℕ
  | .handlePanic _ _ => 7
  | .stop _ _ => 6
  | .remove _ _ => 5
  | .closeMailbox _ _ => 4
  | .closeStopCh _ _ | .restart _ => 3
  | .preStart _ | .receive _ _ => 2
  | .next _ | .drain _ => 1
  | _ => 0

/-- How far an actor is from having handed over its messages. -/
def System.distance (s : System M) (a : ℕ) (pc : Pc M) : ℕ := 3 * (s.cell a).ch.length + pc.rank

/-- A step of an actor with messages in its mailbox. -/
structure Progress (a : ℕ) (s : System M) (pc : Pc M) (r : System M × Pc M) : Prop where
  acting : r.2.acting = some a
  left : r.2.left = none
  accepted : (r.1.cell a).accepted = (s.cell a).accepted
  queue : (r.1.cell a).handled ++ (r.1.cell a).ch = (s.cell a).handled ++ (s.cell a).ch
  distance : r.1.distance a r.2 < s.distance a pc

/-- A message is taken from the mailbox. -/
theorem Progress.hand {s : System M} {a : ℕ} {pc : Pc M} {env : Envelope M}
    {rest : List (Envelope M)} (hch : (s.cell a).ch = env :: rest) (hrank : pc.rank = 1) :
    Progress a s pc (s.setCell a fun c => c.hand env rest, .receive a env) := by
  have hcell : (s.setCell a fun c => c.hand env rest).cell a = (s.cell a).hand env rest :=
    System.cell_setCell.trans (if_pos rfl)
  refine ⟨rfl, rfl, by rw [hcell]; rfl, ?_, ?_⟩
  · rw [hcell, hch]
    change (Event.received env :: (s.cell a).events |>.filterMap Event.envelope).reverse ++ rest = _
    rw [List.filterMap_cons_some (f := Event.envelope) (b := env) rfl, List.reverse_cons,
      List.append_assoc]
    rfl
  · rw [System.distance, System.distance, hcell, hch, hrank]
    change 3 * rest.length + 2 < 3 * (rest.length + 1) + 1
    omega

namespace Sys

variable {opts : Options} {s s' : Sys M}

/-- The goroutines outside a list have not begun. -/
def Within (ts : List Tid) (s : Sys M) : Prop := ∀ u, u ∉ ts → s.pc u = .idle

theorem Within.step {ts : List Tid} {x : Act M} (h : s.Within ts) (hx : x.thread ∈ ts)
    (hs : s.step opts x = some s') : s'.Within ts := by
  intro u hu
  have hne : u ≠ x.thread := fun heq => hu (heq ▸ hx)
  obtain ⟨t, b, r, rfl, -, rfl⟩ | ⟨i, pc, hi, -, rfl⟩ := step_cases hs
  · exact pc_goto.trans ((if_neg hne).trans (h u hu))
  · exact pc_goto.trans ((if_neg (hi ▸ hne)).trans (h u hu))

/-- An actor is spawned and its goroutine waits for a message. -/
def spawnOne : List (Act ℕ) :=
  [.spawn 0 ⟨"a", true, false, 0, none, ""⟩] ++ List.replicate 4 (.step (.user 0) .plain) ++
    List.replicate 2 (.step (.actor 0) .plain)

end Sys

end Actor

end GinRpc
