import GinRpc.LTS.Basic
import Mathlib.Tactic

/-!
# The subscribers of a cluster topic

Model of `EnableCluster` and `DisableCluster` in `plugins/websocket/manager.go` and of
`InMemoryClusterTransport.Subscribe`.  A subscription appends a handler and starts a goroutine that
waits for the context of the subscription and then removes the first handler that prints like its
own.  `%p` prints the code pointer of a closure, which is the function literal it comes from.

* `one_handler_of_meets` : if every goroutine that removes a handler meets one of its own manager
  first, then after all removals each enabled manager has exactly one handler and every other one
  has none.
* `meets_of_sole` : so it is if only one manager uses the topic.
* `removes_another` : of two managers, the one that leaves removes the handler of the other.
-/

namespace GinRpc

namespace ClusterTopic

/-- The function literals whose closures subscribe. -/
inductive Literal where
  | enableCluster
  deriving DecidableEq, Repr

/-- A closure, with the manager it has captured -/
structure Handler where
  manager : ℕ
  literal : Literal := .enableCluster
  deriving DecidableEq, Repr

/-- The closure that a manager subscribes -/
def own (m : ℕ) : Handler := ⟨m, .enableCluster⟩

/-- What `%p` prints -/
def Handler.pointer (h : Handler) : Literal := h.literal

structure State where
  /-- the managers with a `clusterCancel` -/
  enabled : ℕ → Bool
  /-- `subscribers[topic]` -/
  handlers : List Handler
  /-- the handlers of the goroutines whose context is cancelled and that have not removed one -/
  waiting : List Handler

namespace State

def init : State := ⟨fun _ => false, [], []⟩

/-- `clusterCancel`, if there is one -/
def cancel (s : State) (m : ℕ) : State :=
  if s.enabled m then { s with waiting := own m :: s.waiting } else s

/-- `EnableCluster` with the topic -/
def enableCluster (s : State) (m : ℕ) : State :=
  { s.cancel m with
    enabled := Function.update s.enabled m true
    handlers := s.handlers ++ [own m] }

/-- `DisableCluster` -/
def disableCluster (s : State) (m : ℕ) : State :=
  { s.cancel m with enabled := Function.update s.enabled m false }

/-- The rest of the goroutine in `Subscribe` -/
def unsubscribe (s : State) (h : Handler) : State :=
  { s with
    waiting := s.waiting.erase h
    handlers := s.handlers.eraseP fun candidate => candidate.pointer = h.pointer }

end State

inductive Act where
  | enable (m : ℕ)
  | disable (m : ℕ)
  | remove (h : Handler)
  deriving DecidableEq, Repr

def step (s : State) : Act → Option State
  | .enable m => some (s.enableCluster m)
  | .disable m => some (s.disableCluster m)
  | .remove h => if s.waiting.any (fun h' => h' = h) then some (s.unsubscribe h) else none

/-- Calls on any number of managers, in any order, with removals at any time -/
def lts : LTS State Act where
  init s := s = .init
  step s a s' := step s a = some s'

/-- The first handler of the topic that prints like the own one belongs to the same manager. -/
def Act.Meets (s : State) : Act → Prop
  | .remove h => (s.handlers.find? fun candidate => candidate.pointer = h.pointer) = some h
  | _ => True

variable {s s' : State} {a : Act} {m : ℕ} {tr : List Act}

/-- Of each manager there are as many handlers as goroutines that will remove one, and one more if
the manager is enabled. -/
def Balanced (s : State) : Prop :=
  ∀ m, s.handlers.count (own m) =
    s.waiting.count (own m) + if s.enabled m then 1 else 0

theorem handlers_cancel (s : State) (m : ℕ) : (s.cancel m).handlers = s.handlers := by
  unfold State.cancel
  split <;> rfl

theorem own_beq_own (m k : ℕ) : (own m == own k) = decide (m = k) := by
  rw [Bool.eq_iff_iff, beq_iff_eq, decide_eq_true_iff]
  exact ⟨congrArg Handler.manager, congrArg own⟩

theorem count_waiting_cancel (s : State) (m k : ℕ) :
    (s.cancel m).waiting.count (own k) =
      s.waiting.count (own k) + if m = k ∧ s.enabled k = true then 1 else 0 := by
  unfold State.cancel
  cases hen : s.enabled m with
  | true =>
    by_cases hk : m = k
    · subst hk
      simp [hen]
    · simp [List.count_cons, own_beq_own, hk]
  | false =>
    by_cases hk : m = k
    · subst hk
      simp [hen]
    · simp [hk]

theorem Balanced.enableCluster (h : Balanced s) (m : ℕ) : Balanced (s.enableCluster m) := by
  intro k
  change (s.handlers ++ [own m]).count (own k) =
    (s.cancel m).waiting.count (own k) + if Function.update s.enabled m true k then 1 else 0
  rw [List.count_append, h k, count_waiting_cancel, List.count_singleton, own_beq_own]
  by_cases hk : m = k
  · subst hk
    simp
  · simp [hk, Function.update_of_ne (Ne.symm hk)]

theorem Balanced.disableCluster (h : Balanced s) (m : ℕ) : Balanced (s.disableCluster m) := by
  intro k
  change (s.cancel m).handlers.count (own k) =
    (s.cancel m).waiting.count (own k) + if Function.update s.enabled m false k then 1 else 0
  rw [handlers_cancel, h k, count_waiting_cancel]
  by_cases hk : m = k
  · subst hk
    simp
  · simp [hk, Function.update_of_ne (Ne.symm hk)]

/-- What is removed is the handler that is found first. -/
theorem perm_eraseP_of_find {p : Handler → Bool} {l : List Handler} {h : Handler}
    (hfind : l.find? p = some h) : l.Perm (h :: l.eraseP p) := by
  obtain ⟨hp, pre, post, rfl, hpre⟩ := List.find?_eq_some_iff_append.1 hfind
  have hnot : ∀ b ∈ pre, ¬ p b = true := fun b hb => by simpa using hpre b hb
  rw [List.eraseP_append_right _ hnot, List.eraseP_cons_of_pos hp]
  exact List.perm_middle

theorem Balanced.unsubscribe {r : Handler} (h : Balanced s)
    (hwait : s.waiting.any (fun h' => h' = r) = true) (hmeets : (Act.remove r).Meets s) :
    Balanced (s.unsubscribe r) := by
  intro k
  have hk := h k
  obtain ⟨r', hmem, heq⟩ := List.any_eq_true.1 hwait
  rw [of_decide_eq_true heq] at hmem
  rw [(perm_eraseP_of_find hmeets).count_eq, (List.perm_cons_erase hmem).count_eq,
    List.count_cons, List.count_cons] at hk
  change (s.handlers.eraseP _).count _ =
    (s.waiting.erase r).count _ + if s.enabled k then 1 else 0
  omega

theorem Balanced.step (h : Balanced s) (hmeets : a.Meets s) (hstep : step s a = some s') :
    Balanced s' := by
  cases a with
  | enable m =>
    cases hstep
    exact h.enableCluster m
  | disable m =>
    cases hstep
    exact h.disableCluster m
  | remove r =>
    rw [ClusterTopic.step] at hstep
    split_ifs at hstep with hwait
    cases hstep
    exact h.unsubscribe hwait hmeets

theorem balanced_of_run (h : lts.Run (fun s a => a.Meets s) tr s) : Balanced s := by
  refine h.invariant (I := Balanced) ?_ fun s a s' hs hmeets hstep => hs.step hmeets hstep
  rintro s rfl m
  rfl

/-- After all removals the topic has one handler of each enabled manager and none of any other. -/
theorem one_handler_of_meets (h : lts.Run (fun s a => a.Meets s) tr s) (hdone : s.waiting = [])
    (m : ℕ) :
    s.handlers.count (own m) = if s.enabled m then 1 else 0 := by
  have hm := balanced_of_run h m
  rwa [hdone, List.count_nil, Nat.zero_add] at hm

/-! ### One manager -/

/-- The action is one of the manager. -/
def Act.IsOf (m : ℕ) : Act → Prop
  | .enable k | .disable k => k = m
  | .remove _ => True

/-- All handlers and all goroutines are of the manager. -/
structure Sole (m : ℕ) (s : State) : Prop where
  balanced : Balanced s
  handlers : ∀ h ∈ s.handlers, h = own m
  waiting : ∀ h ∈ s.waiting, h = own m

theorem mem_waiting_cancel {h : Handler} (hmem : h ∈ (s.cancel m).waiting) :
    h = own m ∨ h ∈ s.waiting := by
  unfold State.cancel at hmem
  split at hmem
  · exact List.mem_cons.1 hmem
  · exact .inr hmem

/-- If there are only handlers of one manager, the first one is as good as any other. -/
theorem Sole.meets (hs : Sole m s) (hstep : step s a = some s') : a.Meets s := by
  cases a with
  | enable k => trivial
  | disable k => trivial
  | remove r =>
    rw [step] at hstep
    split_ifs at hstep with hwait
    obtain ⟨r', hmem, heq⟩ := List.any_eq_true.1 hwait
    rw [of_decide_eq_true heq] at hmem
    obtain rfl := hs.waiting r hmem
    -- the goroutine that waits counts one handler
    have hpos : 0 < s.handlers.count (own m) := by
      rw [hs.balanced m]
      exact Nat.add_pos_left (List.count_pos_iff.2 hmem) _
    have hhandlers := hs.handlers
    rw [Act.Meets]
    cases hlist : s.handlers with
    | nil =>
      rw [hlist] at hpos
      exact absurd hpos (lt_irrefl 0)
    | cons first rest =>
      rw [hlist] at hhandlers
      rw [hhandlers first List.mem_cons_self]
      exact List.find?_cons_of_pos (decide_eq_true rfl)

theorem Sole.step (hs : Sole m s) (hof : a.IsOf m) (hstep : step s a = some s') : Sole m s' := by
  have hbalanced := hs.balanced.step (hs.meets hstep) hstep
  cases a with
  | enable k =>
    obtain rfl : k = m := hof
    cases hstep
    refine ⟨hbalanced, fun h hh => ?_, fun h hh => ?_⟩
    · rcases List.mem_append.1 hh with hh | hh
      · exact hs.handlers h hh
      · exact List.mem_singleton.1 hh
    · exact (mem_waiting_cancel hh).elim id (hs.waiting h)
  | disable k =>
    obtain rfl : k = m := hof
    cases hstep
    refine ⟨hbalanced, fun h hh => hs.handlers h ?_, fun h hh => ?_⟩
    · rwa [State.disableCluster, handlers_cancel] at hh
    · exact (mem_waiting_cancel hh).elim id (hs.waiting h)
  | remove r =>
    rw [ClusterTopic.step] at hstep
    split_ifs at hstep
    cases hstep
    exact ⟨hbalanced, fun h hh => hs.handlers h (List.mem_of_mem_eraseP hh),
      fun h hh => hs.waiting h (List.mem_of_mem_erase hh)⟩

/-- A run in which only one manager is enabled and disabled meets the condition. -/
theorem meets_of_sole (h : lts.Run (fun _ a => a.IsOf m) tr s) :
    lts.Run (fun s a => a.Meets s) tr s ∧ Sole m s := by
  induction h with
  | nil hi =>
    obtain rfl := hi
    exact ⟨.nil rfl, fun _ => rfl, fun _ hh => absurd hh List.not_mem_nil,
      fun _ hh => absurd hh List.not_mem_nil⟩
  | snoc _ hof hstep ih => exact ⟨ih.1.snoc (ih.2.meets hstep) hstep, ih.2.step hof hstep⟩

/-! ### Two managers -/

/-- Two managers enable the cluster, the first one twice; the removal comes after the second
call. -/
def reenabled : List Act := [.enable 0, .enable 0, .enable 1, .remove (own 0)]

theorem one_handler_of_meets_reenabled :
    ∃ s, lts.Run (fun s a => a.Meets s) reenabled s ∧
      s.handlers.count (own 0) = 1 ∧ s.handlers.count (own 1) = 1 := by
  have h₀ : lts.Run (fun s a => a.Meets s) [] State.init := .nil rfl
  have h := (((h₀.extend (.enable 0) trivial rfl).extend (.enable 0) trivial rfl).extend
    (.enable 1) trivial rfl).extend (.remove (own 0)) rfl rfl
  exact ⟨_, h, one_handler_of_meets h rfl 0, one_handler_of_meets h rfl 1⟩

/-- The second manager leaves, and the handler of the first one is removed. -/
theorem removes_another :
    ∃ s, lts.Run LTS.anyStep [.enable 0, .enable 1, .disable 1, .remove (own 1)] s ∧
      s.waiting = [] ∧ s.enabled 0 = true ∧ s.enabled 1 = false ∧
      s.handlers.count (own 0) = 0 ∧ s.handlers.count (own 1) = 1 := by
  have h₀ : lts.Run LTS.anyStep [] State.init := .nil rfl
  exact ⟨_, (((h₀.extend (.enable 0) trivial rfl).extend (.enable 1) trivial rfl).extend
    (.disable 1) trivial rfl).extend (.remove (own 1)) trivial rfl, rfl, rfl, rfl, rfl, rfl⟩

end ClusterTopic

end GinRpc
