import GinRpc.LTS.Threads
import GinRpc.Text.Basic

/-!
# The bridge between actors and a messaging client

Model of `Subscribe` and `Unsubscribe` in `plugins/actor/nats/bridge.go`.  `Subscribe` puts an entry
for its subject into `b.subs`, subscribes with the client, and leaves a goroutine behind that
deletes the entry of the subject when its context ends.  `Unsubscribe` deletes the entry and then
tells the client, which ends what is subscribed to the subject.  The map keeps the actor of an
entry, which nothing reads.

The goroutine does not know whose entry it deletes.

* `State.subs_iff_live` : the entries are those of the live subscriptions if no such goroutine finds
  an entry after its own subscription was ended, and `Unsubscribe` does not overlap `Subscribe`.
* `State.entry_missing` : a context ends, and a newer subscription to its subject has no entry.
-/

namespace GinRpc

namespace Bridge

/-- Where a call of `Subscribe` is, or the goroutine that it leaves behind -/
inductive Pc where
  /-- the entry is made; `b.client.Subscribe(ctx, subject, handler)` -/
  | placed
  /-- the client has returned an error; the entry is to be deleted -/
  | failed
  /-- the goroutine waits for its context, and the client has the subscription -/
  | active
  /-- the goroutine waits for its context, and the client has ended the subscription -/
  | ended
  | done
  deriving DecidableEq, Repr

structure Call where
  subject : Text
  ctx : ℕ
  pc : Pc := .placed
  deriving DecidableEq, Repr

/-- A call for a subject that is at a place -/
def Call.isAt (subject : Text) (pc : Pc) (c : Call) : Bool :=
  decide (c.subject = subject) && decide (c.pc = pc)

/-- What `b.client.Unsubscribe(subject)` does to a subscription -/
def Call.unsubscribe (subject : Text) (c : Call) : Call :=
  if c.isAt subject .active then { c with pc := .ended } else c

structure State where
  /-- the subjects with an entry in `b.subs` -/
  subs : Text → Bool := fun _ => false
  /-- the contexts that have ended -/
  cancelled : ℕ → Bool := fun _ => false
  calls : List Call := []
  /-- the subjects of the calls of `Unsubscribe` that have not told the client -/
  unsubs : List Text := []

inductive Act where
  | subscribe (subject : Text) (ctx : ℕ)
  /-- the client returns to a call of `Subscribe` -/
  | client (i : ℕ) (ok : Bool)
  | rollback (i : ℕ)
  /-- the goroutine of a call deletes the entry -/
  | watch (i : ℕ)
  | unsubscribe (subject : Text)
  /-- the client ends what is subscribed to the subject of a call of `Unsubscribe` -/
  | unsubscribed (j : ℕ)
  | cancel (ctx : ℕ)
  deriving DecidableEq, Repr

namespace State

variable (s : State)

/-- Call `i` goes on, and the entry of its subject is deleted or not. -/
def goto (i : ℕ) (c : Call) (pc : Pc) (delete : Bool) : State :=
  { s with
    subs := if delete then Function.update s.subs c.subject false else s.subs
    calls := s.calls.set i { c with pc := pc } }

/-- `Subscribe` makes its entry. -/
def place (subject : Text) (ctx : ℕ) : State :=
  { s with
    subs := Function.update s.subs subject true
    calls := s.calls ++ [{ subject := subject, ctx := ctx }] }

/-- `Unsubscribe` deletes the entry. -/
def unsubscribe (subject : Text) : State :=
  { s with
    subs := Function.update s.subs subject false
    unsubs := s.unsubs ++ [subject] }

/-- Call `j` of `Unsubscribe` tells the client. -/
def tell (j : ℕ) (subject : Text) : State :=
  { s with
    calls := s.calls.map (Call.unsubscribe subject)
    unsubs := s.unsubs.eraseIdx j }

def step : Act → Option State
  | .subscribe subject ctx => if s.subs subject then some s else some (s.place subject ctx)
  | .client i ok => match s.calls[i]? with
    | none => none
    | some c =>
      if c.pc = .placed then some (s.goto i c (if ok then .active else .failed) false) else none
  | .rollback i => match s.calls[i]? with
    | none => none
    | some c => if c.pc = .failed then some (s.goto i c .done true) else none
  | .watch i => match s.calls[i]? with
    | none => none
    | some c =>
      if (c.pc = .active ∨ c.pc = .ended) ∧ s.cancelled c.ctx then some (s.goto i c .done true)
      else none
  | .unsubscribe subject => some (s.unsubscribe subject)
  | .unsubscribed j => match s.unsubs[j]? with
    | none => none
    | some subject => some (s.tell j subject)
  | .cancel ctx => some { s with cancelled := Function.update s.cancelled ctx true }

/-- The client delivers messages for the call. -/
def live (c : Call) : Bool := decide (c.pc = .active) && !s.cancelled c.ctx

/-- No step is pending: every call has returned, and every goroutine waits for a context. -/
def Idle : Prop :=
  (∀ c ∈ s.calls, c.pc = .done ∨ ((c.pc = .active ∨ c.pc = .ended) ∧ s.cancelled c.ctx = false)) ∧
    s.unsubs = []

instance : Decidable s.Idle := inferInstanceAs (Decidable (_ ∧ _))

/-- The live subscriptions to a subject -/
def liveOn (subject : Text) : ℕ :=
  s.calls.countP fun c => decide (c.subject = subject) && s.live c

/-- The calls for a subject that are at a place -/
def count (subject : Text) (pc : Pc) : ℕ := s.calls.countP (Call.isAt subject pc)

end State

/-- `Unsubscribe` does not overlap a `Subscribe` that makes an entry for its subject, and a
goroutine whose subscription was ended by it deletes nothing. -/
def Apart (s : State) : Act → Prop
  | .subscribe subject _ => s.subs subject = false → s.unsubs.count subject = 0
  | .unsubscribe subject => s.count subject .placed = 0 ∧ s.count subject .failed = 0
  | .watch i => ∀ c ∈ s.calls[i]?, c.pc = .ended → s.subs c.subject = false
  | _ => True

instance (s : State) : ∀ a, Decidable (Apart s a)
  | .subscribe .. => inferInstanceAs (Decidable (_ → _))
  | .unsubscribe _ => inferInstanceAs (Decidable (_ ∧ _))
  | .watch i => inferInstanceAs (Decidable (∀ c ∈ s.calls[i]?, _ → _))
  | .client .. | .rollback _ | .unsubscribed _ | .cancel _ => inferInstanceAs (Decidable True)

def lts : LTS State Act where
  init s := s = {}
  step s a s' := s.step a = some s'

namespace State

variable {s s' : State} {a : Act} {i : ℕ} {c : Call} {subject : Text}

/-- What a step does -/
inductive Moves (s : State) : Act → State → Prop
  | refuse {subject : Text} {ctx : ℕ} (h : s.subs subject = true) :
      Moves s (.subscribe subject ctx) s
  | place {subject : Text} {ctx : ℕ} (h : s.subs subject = false) :
      Moves s (.subscribe subject ctx) (s.place subject ctx)
  | client {i : ℕ} {ok : Bool} {c : Call} (hi : s.calls[i]? = some c) (hpc : c.pc = .placed) :
      Moves s (.client i ok) (s.goto i c (if ok then .active else .failed) false)
  | rollback {i : ℕ} {c : Call} (hi : s.calls[i]? = some c) (hpc : c.pc = .failed) :
      Moves s (.rollback i) (s.goto i c .done true)
  | watch {i : ℕ} {c : Call} (hi : s.calls[i]? = some c) (hpc : c.pc = .active ∨ c.pc = .ended) :
      Moves s (.watch i) (s.goto i c .done true)
  | unsubscribe (subject : Text) : Moves s (.unsubscribe subject) (s.unsubscribe subject)
  | unsubscribed {j : ℕ} {subject : Text} (hj : s.unsubs[j]? = some subject) :
      Moves s (.unsubscribed j) (s.tell j subject)
  | cancel (ctx : ℕ) :
      Moves s (.cancel ctx) { s with cancelled := Function.update s.cancelled ctx true }

theorem moves_of_step (h : s.step a = some s') : s.Moves a s' := by
  revert h
  fun_cases State.step s a <;> rintro ⟨⟩
  · exact .refuse ‹_›
  · exact .place (Bool.eq_false_iff.2 ‹_›)
  · exact .client ‹_› ‹_›
  · exact .rollback ‹_› ‹_›
  · exact .watch ‹_› (And.left ‹_›)
  · exact .unsubscribe _
  · exact .unsubscribed ‹_›
  · exact .cancel _

/-- A subject has an entry while `Subscribe` is at work for it, and while it has a subscription that
no `Unsubscribe` is about to end. -/
structure Kept (s : State) (subject : Text) : Prop where
  one : s.count subject .placed + s.count subject .failed + s.count subject .active ≤ 1
  apart : 0 < s.count subject .placed + s.count subject .failed → s.unsubs.count subject = 0
  held : s.subs subject = true ↔
    s.count subject .placed + s.count subject .failed = 1 ∨
      (s.count subject .active = 1 ∧ s.unsubs.count subject = 0)

theorem count_goto (hi : s.calls[i]? = some c) (pc : Pc) (delete : Bool) (subject : Text) (q : Pc) :
    (s.goto i c pc delete).count subject q + (c.isAt subject q).toNat =
      s.count subject q + (Call.isAt subject q { c with pc := pc }).toNat :=
  LTS.countP_set_add (Call.isAt subject q) _ hi

/-- How the counts of its own subject change when a call goes on -/
theorem count_goto_self (hi : s.calls[i]? = some c) (pc : Pc) (delete : Bool) (q : Pc) :
    (s.goto i c pc delete).count c.subject q + (decide (c.pc = q)).toNat =
      s.count c.subject q + (decide (pc = q)).toNat := by
  have hcount := count_goto hi pc delete c.subject q
  simpa [Call.isAt] using hcount

theorem isAt_of_ne (h : c.subject ≠ subject) (q : Pc) : c.isAt subject q = false := by
  simp [Call.isAt, h]

/-- Nothing changes for a subject if the counts and the entry stay as they are. -/
theorem Kept.congr (h : s.Kept subject)
    (hcount : ∀ q, q ≠ .ended → q ≠ .done → s'.count subject q = s.count subject q)
    (hunsubs : s'.unsubs.count subject = s.unsubs.count subject)
    (hsubs : s'.subs subject = s.subs subject) : s'.Kept subject := by
  obtain ⟨hone, hapart, hheld⟩ := h
  have hplaced := hcount .placed (by decide) (by decide)
  have hfailed := hcount .failed (by decide) (by decide)
  have hactive := hcount .active (by decide) (by decide)
  constructor
  · rwa [hplaced, hfailed, hactive]
  · rwa [hplaced, hfailed, hunsubs]
  · rwa [hplaced, hfailed, hactive, hunsubs, hsubs]

theorem Kept.goto_of_ne (h : s.Kept subject) (hi : s.calls[i]? = some c)
    (hne : c.subject ≠ subject) (pc : Pc) (delete : Bool) :
    (s.goto i c pc delete).Kept subject := by
  refine h.congr (fun q _ _ => ?_) rfl ?_
  · have hcount := count_goto hi pc delete subject q
    rw [isAt_of_ne hne, isAt_of_ne (c := { c with pc := pc }) hne] at hcount
    exact hcount
  · cases delete with
    | false => rfl
    | true => exact Function.update_of_ne hne.symm false s.subs

/-- The entry of a call that is at work or active is its own. -/
theorem Kept.goto_self (h : s.Kept c.subject) (hi : s.calls[i]? = some c) {pc : Pc} {delete : Bool}
    (hpc : (c.pc = .placed ∧ (pc = .active ∨ pc = .failed) ∧ delete = false) ∨
      ((c.pc = .failed ∨ c.pc = .active) ∧ pc = .done ∧ delete = true)) :
    (s.goto i c pc delete).Kept c.subject := by
  obtain ⟨hone, hapart, hheld⟩ := h
  have hcount := count_goto_self hi pc delete
  have hplaced := hcount .placed
  have hfailed := hcount .failed
  have hactive := hcount .active
  have hsubs : (s.goto i c pc delete).subs c.subject = (!delete && s.subs c.subject) := by
    cases delete with
    | false => rfl
    | true => exact Function.update_self c.subject false s.subs
  have hunsubs : (s.goto i c pc delete).unsubs = s.unsubs := rfl
  obtain ⟨hc, rfl | rfl, rfl⟩ | ⟨hc | hc, rfl, rfl⟩ := hpc
  all_goals
    simp only [hc, reduceCtorEq, decide_false, decide_true, Bool.toNat_false, Bool.toNat_true]
      at hplaced hfailed hactive
    refine ⟨by omega, by rw [hunsubs]; omega, ?_⟩
    rw [hsubs, hunsubs]
    simp only [Bool.not_false, Bool.not_true, Bool.true_and, Bool.false_and, Bool.false_eq_true,
      false_iff, hheld]
    omega

theorem count_place (s : State) (x : Text) (ctx : ℕ) (subject : Text) (q : Pc) :
    (s.place x ctx).count subject q =
      s.count subject q + (Call.isAt subject q ⟨x, ctx, .placed⟩).toNat := by
  unfold count place
  rw [List.countP_append, List.countP_singleton]
  cases Call.isAt subject q ⟨x, ctx, .placed⟩ <;> rfl

theorem Kept.place {x : Text} (h : s.Kept subject) (ctx : ℕ) (hsubs : s.subs x = false)
    (hok : s.unsubs.count x = 0) : (s.place x ctx).Kept subject := by
  have hcount := count_place s x ctx subject
  by_cases hx : x = subject
  · subst hx
    obtain ⟨hone, hapart, hheld⟩ := h
    simp only [hsubs, Bool.false_eq_true, false_iff] at hheld
    have hplaced := hcount .placed
    have hfailed := hcount .failed
    have hactive := hcount .active
    simp only [Call.isAt, decide_true, Bool.true_and, reduceCtorEq, decide_false,
      Bool.toNat_true, Bool.toNat_false] at hplaced hfailed hactive
    have hentry : (s.place x ctx).subs x = true := by simp [State.place]
    refine ⟨by omega, fun _ => hok, ?_⟩
    simp only [hentry, true_iff]
    omega
  · refine h.congr (fun q _ _ => ?_) rfl (by simp [State.place, Ne.symm hx])
    rw [hcount, isAt_of_ne (c := ⟨x, ctx, .placed⟩) hx]
    rfl

/-- A subject without an entry: nobody is at work, and `Unsubscribe` is about to end what is
active. -/
theorem Kept.of_none (hsubs : s.subs subject = false) (hplaced : s.count subject .placed = 0)
    (hfailed : s.count subject .failed = 0) (hactive : s.count subject .active ≤ 1)
    (hunsubs : s.count subject .active = 0 ∨ 0 < s.unsubs.count subject) : s.Kept subject := by
  refine ⟨by omega, by omega, ?_⟩
  simp only [hsubs, Bool.false_eq_true, false_iff]
  omega

theorem Kept.unsubscribe {x : Text} (h : s.Kept subject) (hplaced : s.count x .placed = 0)
    (hfailed : s.count x .failed = 0) : (s.unsubscribe x).Kept subject := by
  have hunsubs : (s.unsubscribe x).unsubs.count subject =
      s.unsubs.count subject + if x = subject then 1 else 0 := by
    unfold State.unsubscribe
    rw [List.count_append, List.count_singleton]
    simp
  by_cases hx : x = subject
  · subst hx
    rw [if_pos rfl] at hunsubs
    have hactive := h.one
    exact .of_none (by simp [State.unsubscribe]) hplaced hfailed
      (show s.count x .active ≤ 1 by omega) (.inr (by omega))
  · rw [if_neg hx] at hunsubs
    exact h.congr (fun _ _ _ => rfl) hunsubs (by simp [State.unsubscribe, Ne.symm hx])

/-- The client ends what is active, and nothing else. -/
theorem isAt_unsubscribe {q : Pc} (hq : q ≠ .ended) (x : Text) (c : Call) :
    (c.unsubscribe x).isAt subject q =
      (c.isAt subject q && !decide (subject = x ∧ q = .active)) := by
  unfold Call.unsubscribe Call.isAt
  grind

theorem count_tell {q : Pc} (hq : q ≠ .ended) (j : ℕ) (x : Text) :
    (s.tell j x).count subject q = if subject = x ∧ q = .active then 0 else s.count subject q := by
  have hmap : (s.tell j x).count subject q =
      s.calls.countP fun c => c.isAt subject q && !decide (subject = x ∧ q = .active) := by
    unfold count tell
    rw [List.countP_map]
    exact List.countP_congr fun c _ => by rw [Function.comp_apply, isAt_unsubscribe hq]
  rw [hmap]
  split_ifs with hx
  · simp [hx]
  · simp [hx, count]

theorem Kept.tell {j : ℕ} {x : Text} (h : s.Kept subject) (hj : s.unsubs[j]? = some x) :
    (s.tell j x).Kept subject := by
  obtain ⟨hlt, hget⟩ := List.getElem?_eq_some_iff.1 hj
  have hunsubs : s.unsubs.count subject =
      (s.tell j x).unsubs.count subject + if x = subject then 1 else 0 := by
    have hperm := (List.getElem_cons_eraseIdx_perm hlt).count_eq subject
    rw [hget, List.count_cons] at hperm
    simpa [State.tell] using hperm.symm
  by_cases hx : x = subject
  · subst hx
    rw [if_pos rfl] at hunsubs
    obtain ⟨hone, hapart, hheld⟩ := h
    have hactive : (s.tell j x).count x .active = 0 := by simp [count_tell]
    have hnone : s.subs x = false := by
      rw [← Bool.not_eq_true, hheld]
      omega
    refine .of_none hnone ?_ ?_ (by omega) (.inl hactive)
    · rw [count_tell (by decide), if_neg (by simp)]
      omega
    · rw [count_tell (by decide), if_neg (by simp)]
      omega
  · rw [if_neg hx] at hunsubs
    refine h.congr (fun q hended _ => ?_) hunsubs.symm rfl
    rw [count_tell hended, if_neg fun hq => hx hq.1.symm]

theorem Kept.step (h : ∀ subject, s.Kept subject) (hok : Apart s a) (hs : s.step a = some s')
    (subject : Text) : s'.Kept subject := by
  have hkept := h subject
  cases moves_of_step hs with
  | refuse => exact hkept
  | cancel => exact hkept.congr (fun _ _ _ => rfl) rfl rfl
  | place hsubs => exact hkept.place _ hsubs (hok hsubs)
  | unsubscribe => exact hkept.unsubscribe hok.1 hok.2
  | unsubscribed hj => exact hkept.tell hj
  | @client i ok c hi hpc =>
    by_cases hx : c.subject = subject
    · subst hx
      refine hkept.goto_self hi (.inl ⟨hpc, ?_, rfl⟩)
      cases ok with
      | false => exact .inr rfl
      | true => exact .inl rfl
    · exact hkept.goto_of_ne hi hx _ _
  | @rollback i c hi hpc =>
    by_cases hx : c.subject = subject
    · subst hx
      exact hkept.goto_self hi (.inr ⟨.inl hpc, rfl, rfl⟩)
    · exact hkept.goto_of_ne hi hx _ _
  | @watch i c hi hpc =>
    by_cases hx : c.subject = subject
    · subst hx
      obtain hpc | hpc := hpc
      · exact hkept.goto_self hi (.inr ⟨.inr hpc, rfl, rfl⟩)
      · -- the goroutine of a subscription that was ended finds no entry
        have hnone : s.subs c.subject = false := hok c hi hpc
        refine hkept.congr (fun q hended hdone => ?_) rfl ?_
        · have hcount := count_goto_self hi .done true q
          rw [hpc, decide_eq_false hended.symm, decide_eq_false hdone.symm] at hcount
          exact hcount
        · exact (Function.update_self c.subject false s.subs).trans hnone.symm
    · exact hkept.goto_of_ne hi hx _ _

/-- **The entries are those of the live subscriptions**, whenever no step is pending, and a subject
never has two of them: on every run where `Unsubscribe` does not overlap `Subscribe`, and no
goroutine finds an entry after `Unsubscribe` has ended its own subscription. -/
theorem subs_iff_live {tr : List Act} (h : lts.Run Apart tr s) (subject : Text) :
    (s.Idle → (s.subs subject = true ↔ 0 < s.liveOn subject)) ∧ s.liveOn subject ≤ 1 := by
  have hkept : s.Kept subject := by
    refine h.invariant (I := fun s => ∀ subject, s.Kept subject) ?_
      (fun _ _ _ h hok hs => Kept.step h hok hs) subject
    rintro _ rfl subject
    exact .of_none rfl rfl rfl (Nat.zero_le _) (.inl rfl)
  obtain ⟨hone, -, hheld⟩ := hkept
  have hle : s.liveOn subject ≤ s.count subject .active := by
    refine List.countP_mono_left fun c _ hc => ?_
    simp only [live, Call.isAt, Bool.and_eq_true] at hc ⊢
    exact ⟨hc.1, hc.2.1⟩
  refine ⟨fun hidle => ?_, by omega⟩
  obtain ⟨hcalls, hunsubs⟩ := hidle
  have hnone {q : Pc} (hq : q = .placed ∨ q = .failed) : s.count subject q = 0 := by
    refine List.countP_eq_zero.2 fun c hc hat => ?_
    simp only [Call.isAt, Bool.and_eq_true, decide_eq_true_eq] at hat
    have := hcalls c hc
    grind
  have hactive : s.subs subject = true ↔ 0 < s.count subject .active := by
    rw [hheld, hnone (.inl rfl), hnone (.inr rfl), hunsubs, List.count_nil]
    omega
  rw [hactive, count, liveOn, List.countP_pos_iff, List.countP_pos_iff]
  refine exists_congr fun c => and_congr_right fun hc => ?_
  -- a goroutine that waits has a context that has not ended
  have hwaits : c.pc = .active → s.cancelled c.ctx = false := by
    have := hcalls c hc
    grind
  simp only [Call.isAt, live, Bool.and_eq_true, decide_eq_true_eq, Bool.not_eq_true']
  exact and_congr_right fun _ => ⟨fun hpc => ⟨hpc, hwaits hpc⟩, And.left⟩

/-- An actor subscribes to a subject twice, with two contexts. -/
def twice : List Act :=
  [.subscribe "orders" 1, .client 0 true, .unsubscribe "orders", .unsubscribed 0,
    .subscribe "orders" 2, .client 1 true]

/-- The second context ends, and nothing is left of its subscription. -/
theorem subs_iff_live_twice :
    ∃ s, lts.Run Apart (twice ++ [.cancel 2, .watch 1]) s ∧ s.liveOn "orders" = 0 := by
  refine LTS.exists_decided_run lts Apart (f := State.step) (fun _ _ _ h => h) {} rfl _
    (P := fun s => s.Idle ∧ s.subs "orders" = false) (by decide) fun s hr hs => ?_
  have hlive := (subs_iff_live hr "orders").1 hs.1
  rw [hs.2] at hlive
  simpa using hlive

/-- **A subscription is forgotten**: the first context ends after the second `Subscribe`, and its
goroutine deletes the entry; the subject is subscribed to again, and has two subscriptions. -/
theorem entry_missing :
    (∃ s, lts.Run LTS.anyStep (twice ++ [.cancel 1, .watch 0]) s ∧ s.Idle ∧
      s.subs "orders" = false ∧ s.liveOn "orders" = 1) ∧
    ∃ s, lts.Run LTS.anyStep
        (twice ++ [.cancel 1, .watch 0, .subscribe "orders" 3, .client 2 true]) s ∧
      s.liveOn "orders" = 2 := by
  constructor
  · exact LTS.exists_run_of_exec (f := State.step) (fun _ _ _ h => h) rfl _ (by decide)
      fun _ _ h => h
  · exact LTS.exists_run_of_exec (f := State.step) (fun _ _ _ h => h) rfl _ (by decide)
      fun _ _ h => h

end State

end Bridge

end GinRpc
