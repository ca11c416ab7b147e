import GinRpc.Data.Duration
import GinRpc.LTS.Threads

/-!
# Distributed locks

Model of `DistributedLock` in `plugins/cache/redis/distributed_lock.go`: any number of instances on
one key of one server, called by any number of goroutines, with their watchdogs.  Each command or
script on the server and each critical section of an instance is a step of its own; between two
steps time may pass, and the key goes when its deadline has come.

A command may fail before it reaches the server.  The server counts milliseconds; a key that is
given no time to live is deleted (`PEXPIRE` with 0).

* `Effect`, `effect_of_exec` : what a step can do to the key.
* `exclusive_while_held` : between an acquisition and the first of a release by the same instance
  and the expiry of the key nobody else acquires the lock, deletes the key or changes its deadline,
  if the instance was given at least a millisecond; and `Release` returns nil exactly if it has
  removed a key of its instance.
* `renewal_drops_short_lock` : the time to live of a shorter lock is renewed to nothing.
-/

namespace GinRpc

namespace Redis

/-- The instances: their tokens, and their times to live in nanoseconds, both made by
`NewDistributedLock`. -/
structure Instances where
  token : ℕ → String
  distinct : Function.Injective token
  ttl : ℕ → ℤ
  positive : ∀ i, 0 < ttl i

/-- The lifetime that `SetNX` sends; the client rounds less than a millisecond up. -/
def Instances.lifetime (cfg : Instances) (i : ℕ) : ℤ :=
  if cfg.ttl i < Duration.millisecond then 1 else cfg.ttl i / Duration.millisecond

/-- `ttl.Milliseconds()` -/
def Instances.milliseconds (cfg : Instances) (i : ℕ) : ℤ := cfg.ttl i / Duration.millisecond

/-- The key of the lock on the server. -/
structure Key where
  token : String
  /-- the time at which it goes -/
  deadline : ℤ
  deriving DecidableEq

/-- The local state of an instance; its watchdog is known by its goroutine. -/
structure Lock where
  acquired : Bool := false
  watchdogEnabled : Bool := false
  watchdog : Option ℕ := none
  deriving DecidableEq

inductive Call where
  | tryAcquire (i : ℕ)
  | acquire (i : ℕ)
  | release (i : ℕ)
  | renew (i : ℕ)
  | enableWatchdog (i : ℕ)
  | closeWatchdog (i : ℕ)
  deriving DecidableEq

/-- What a call returns. -/
inductive Result where
  /-- true, or a nil error -/
  | ok
  /-- `TryAcquire` has found the lock taken -/
  | taken
  /-- `ErrLockNotHeld` -/
  | notHeld
  /-- an error of the client, or of the context -/
  | error
  deriving DecidableEq

/-- What a goroutine does next. -/
inductive Pc where
  | idle
  /-- `SetNX`, called by `TryAcquire` or in the loop of `Acquire` -/
  | setNX (i : ℕ) (loop : Bool)
  /-- `l.acquired = true` -/
  | mark (i : ℕ) (loop : Bool)
  /-- the first critical section of `maybeStartWatchdog` -/
  | checkWatchdog (i : ℕ) (loop : Bool)
  /-- the second one -/
  | startWatchdog (i : ℕ) (loop : Bool)
  /-- `Acquire` waits for its ticker or its context -/
  | wait (i : ℕ)
  /-- `Release` reads whether there is a watchdog -/
  | readWatchdog (i : ℕ)
  /-- `stopWatchdog`, called by `Release` or by `CloseWatchdog`, takes the watchdog out of the
  instance and closes its channel `stop` -/
  | takeWatchdog (i : ℕ) (releasing : Bool)
  /-- `stopWatchdog` waits for the watchdog `w` to return -/
  | awaitWatchdog (i w : ℕ) (releasing : Bool)
  /-- `luaRelease` -/
  | evalRelease (i : ℕ)
  /-- `l.acquired = false`; the script has answered 1 or not -/
  | unmark (i : ℕ) (removed : Bool)
  /-- `luaRenew`, for a call of `Renew` or for a watchdog -/
  | evalRenew (i : ℕ) (watchdog : Bool)
  /-- the loop of a watchdog -/
  | watch (i : ℕ)
  | returned (c : Call) (r : Result)
  /-- a watchdog has closed its channel `done` -/
  | exited
  deriving DecidableEq

/-- The server, the instances and the goroutines. -/
structure Sys where
  /-- in milliseconds -/
  now : ℤ := 0
  key : Option Key := none
  lock : ℕ → Lock := fun _ => {}
  /-- the channels `stop` that have been closed, by watchdog -/
  stopped : ℕ → Bool := fun _ => false
  pc : ℕ → Pc := fun _ => .idle

/-- What the server has been asked, by which instance and with which answer. -/
inductive Event where
  | quiet
  | acquired (i : ℕ)
  | refused (i : ℕ)
  | released (i : ℕ) (removed : Bool)
  | renewed (i : ℕ) (found : Bool)
  /-- the command has not reached the server -/
  | failed (i : ℕ)
  | expired
  deriving DecidableEq

/-- The instance that has made a request. -/
def Event.instance? : Event → Option ℕ
  | .acquired i | .refused i | .released i _ | .renewed i _ | .failed i => some i
  | .quiet | .expired => none

inductive Act where
  | call (g : ℕ) (c : Call)
  /-- a goroutine goes on; `fails` decides whether its command fails, `w` is the goroutine of the
  watchdog that it starts -/
  | step (g : ℕ) (fails : Bool) (w : ℕ)
  /-- the context of a waiting `Acquire` ends -/
  | cancel (g : ℕ)
  /-- the ticker of a watchdog -/
  | fire (w : ℕ)
  | tick (d : ℕ)
  deriving DecidableEq

/-- The goroutine of an action. -/
def Act.actor? : Act → Option ℕ
  | .call g _ | .step g _ _ | .cancel g | .fire g => some g
  | .tick _ => none

/-- The call that acquires the lock. -/
def acquireCall (i : ℕ) (loop : Bool) : Call := if loop then .acquire i else .tryAcquire i

/-- After `SetNX` has found the key: `Acquire` waits. -/
def refusedPc (i : ℕ) (loop : Bool) : Pc :=
  if loop then .wait i else .returned (.tryAcquire i) .taken

/-- After `stopWatchdog`: `Release` goes on. -/
def unwatchedPc (i : ℕ) (releasing : Bool) : Pc :=
  if releasing then .evalRelease i else .returned (.closeWatchdog i) .ok

/-- After `luaRenew`: a watchdog drops the result. -/
def renewedPc (i : ℕ) (watchdog : Bool) (r : Result) : Pc :=
  if watchdog then .watch i else .returned (.renew i) r

/-- The beginning of a call. -/
def Call.entry : Call → Pc
  | .tryAcquire i => .setNX i false
  | .acquire i => .setNX i true
  | .release i => .readWatchdog i
  | .renew i => .evalRenew i false
  | .enableWatchdog i => .returned (.enableWatchdog i) .ok
  | .closeWatchdog i => .takeWatchdog i false

namespace Sys

variable (cfg : Instances) (s : Sys)

def goto (g : ℕ) (pc : Pc) : Sys := { s with pc := Function.update s.pc g pc }

def setLock (i : ℕ) (l : Lock) : Sys := { s with lock := Function.update s.lock i l }

/-- `redis.call("get", KEYS[1]) == ARGV[1]` -/
def owns (i : ℕ) : Bool := s.key.any fun k => k.token == cfg.token i

/-- `PEXPIRE` -/
def pexpire (i : ℕ) (ms : ℤ) : Option Key :=
  if ms ≤ 0 then none else some ⟨cfg.token i, s.now + ms⟩

/-- One step of a goroutine. -/
def stepPc (g : ℕ) (fails : Bool) (w : ℕ) : Pc → Option (Sys × Event)
  | .setNX i loop =>
    if fails then some (s.goto g (.returned (acquireCall i loop) .error), .failed i)
    else if s.key.isSome then some (s.goto g (refusedPc i loop), .refused i)
    else
      some ({ s with key := some ⟨cfg.token i, s.now + cfg.lifetime i⟩ }.goto g (.mark i loop),
        .acquired i)
  -- from here on the key can expire before `acquired` is set
  | .mark i loop =>
    some ((s.setLock i { s.lock i with acquired := true }).goto g (.checkWatchdog i loop), .quiet)
  | .checkWatchdog i loop =>
    if !(s.lock i).watchdogEnabled || (s.lock i).watchdog.isSome then
      some (s.goto g (.returned (acquireCall i loop) .ok), .quiet)
    else some (s.goto g (.startWatchdog i loop), .quiet)
  -- the mutex has been released in between, so this is checked again
  | .startWatchdog i loop =>
    if (s.lock i).watchdog.isSome then
      some (s.goto g (.returned (acquireCall i loop) .ok), .quiet)
    else if s.pc w = .idle ∧ w ≠ g then
      some (((s.setLock i { s.lock i with watchdog := some w }).goto w (.watch i)).goto g
        (.returned (acquireCall i loop) .ok), .quiet)
    else none
  | .wait i => some (s.goto g (.setNX i true), .quiet)
  | .readWatchdog i =>
    if (s.lock i).watchdog.isSome then some (s.goto g (.takeWatchdog i true), .quiet)
    else some (s.goto g (.evalRelease i), .quiet)
  | .takeWatchdog i releasing =>
    match (s.lock i).watchdog with
    | none => some (s.goto g (unwatchedPc i releasing), .quiet)
    | some w =>
      some ({ s.setLock i { s.lock i with watchdog := none } with
          stopped := Function.update s.stopped w true }.goto g (.awaitWatchdog i w releasing),
        .quiet)
  | .awaitWatchdog i w releasing =>
    if s.pc w = .exited then some (s.goto g (unwatchedPc i releasing), .quiet) else none
  | .evalRelease i =>
    if fails then some (s.goto g (.returned (.release i) .error), .failed i)
    else if s.owns cfg i then
      some ({ s with key := none }.goto g (.unmark i true), .released i true)
    else some (s.goto g (.unmark i false), .released i false)
  -- `acquired` is reset whether the script has removed the key or not
  | .unmark i removed =>
    some ((s.setLock i { s.lock i with acquired := false }).goto g
      (.returned (.release i) (if removed then .ok else .notHeld)), .quiet)
  | .evalRenew i watchdog =>
    if fails then some (s.goto g (renewedPc i watchdog .error), .failed i)
    else if s.owns cfg i then
      some ({ s with key := s.pexpire cfg i (cfg.milliseconds i) }.goto g
        (renewedPc i watchdog .ok), .renewed i true)
    else some (s.goto g (renewedPc i watchdog .notHeld), .renewed i false)
  -- a watchdog ignores what its renewals return; only a stop ends it
  | .watch _ => if s.stopped g then some (s.goto g .exited, .quiet) else none
  | .idle | .returned _ _ | .exited => none

/-- One action, if it is possible. -/
def exec : Act → Option (Sys × Event)
  | .call g c =>
    match s.pc g with
    | .idle | .returned _ _ =>
      match c with
      | .enableWatchdog i =>
        some ((s.setLock i { s.lock i with watchdogEnabled := true }).goto g c.entry, .quiet)
      | _ => some (s.goto g c.entry, .quiet)
    | _ => none
  | .step g fails w => s.stepPc cfg g fails w (s.pc g)
  | .cancel g =>
    match s.pc g with
    | .wait i => some (s.goto g (.returned (.acquire i) .error), .quiet)
    | _ => none
  | .fire w =>
    match s.pc w with
    | .watch i => some (s.goto w (.evalRenew i true), .quiet)
    | _ => none
  | .tick d =>
    if s.key.any (fun k => decide (k.deadline ≤ s.now + d)) then
      some ({ s with now := s.now + d, key := none }, .expired)
    else some ({ s with now := s.now + d }, .quiet)

end Sys

/-- The runs of the instances. -/
def locks (cfg : Instances) : LTS Sys (Act × Event) where
  init s := s = {}
  step s l s' := s.exec cfg l.1 = some (s', l.2)

/-! ### What a step does to the key -/

/-- The events that write the key. -/
def Event.writes : Event → Bool
  | .acquired _ | .released _ true | .renewed _ true | .expired => true
  | _ => false

/-- What a step that ends with an event leaves of the key. -/
inductive Effect (cfg : Instances) (s : Sys) : Event → Option Key → Prop
  | none {ev : Event} (h : ev.writes = false)
      (hrel : ∀ i, ev = .released i false → s.owns cfg i = false) : Effect cfg s ev s.key
  | acquired (i : ℕ) (h : s.key = .none) :
      Effect cfg s (.acquired i) (some ⟨cfg.token i, s.now + cfg.lifetime i⟩)
  | released (i : ℕ) (h : s.owns cfg i = true) : Effect cfg s (.released i true) .none
  | renewed (i : ℕ) (h : s.owns cfg i = true) :
      Effect cfg s (.renewed i true) (s.pexpire cfg i (cfg.milliseconds i))
  | expired : Effect cfg s .expired .none

variable {cfg : Instances} {s s' : Sys} {ev : Event}

theorem Effect.quiet : Effect cfg s .quiet s.key :=
  .none rfl fun _ he => (by cases he)

theorem effect_of_stepPc {g w : ℕ} {fails : Bool} {pc : Pc}
    (h : s.stepPc cfg g fails w pc = some (s', ev)) : Effect cfg s ev s'.key := by
  cases pc with
  | idle | returned | exited => cases h
  | mark | wait | unmark =>
    cases h
    exact .quiet
  | checkWatchdog | readWatchdog | awaitWatchdog | watch | startWatchdog =>
    simp only [Sys.stepPc] at h
    split_ifs at h <;> cases h <;> exact .quiet
  | takeWatchdog i c =>
    simp only [Sys.stepPc] at h
    split at h <;> cases h <;> exact .quiet
  | setNX i c =>
    simp only [Sys.stepPc] at h
    split_ifs at h with hf hk <;> cases h
    · exact .none rfl fun _ he => (by cases he)
    · exact .none rfl fun _ he => (by cases he)
    · exact .acquired i (Option.not_isSome_iff_eq_none.1 hk)
  | evalRelease i =>
    simp only [Sys.stepPc] at h
    split_ifs at h with hf ho <;> cases h
    · exact .none rfl fun _ he => (by cases he)
    · exact .released i ho
    · refine .none rfl fun j hj => ?_
      cases hj
      exact (Bool.not_eq_true _).mp ho
  | evalRenew i watchdog =>
    simp only [Sys.stepPc] at h
    split_ifs at h with hf ho <;> cases h
    · exact .none rfl fun _ he => (by cases he)
    · exact .renewed i ho
    · exact .none rfl fun _ he => (by cases he)

theorem effect_of_exec {act : Act} (h : s.exec cfg act = some (s', ev)) :
    Effect cfg s ev s'.key := by
  cases act with
  | call g c =>
    simp only [Sys.exec] at h
    split at h
    · split at h <;> cases h <;> exact .quiet
    · split at h <;> cases h <;> exact .quiet
    · cases h
  | step g fails w => exact effect_of_stepPc h
  | cancel g | fire g =>
    simp only [Sys.exec] at h
    split at h <;> cases h
    exact .quiet
  | tick d =>
    simp only [Sys.exec] at h
    split_ifs at h <;> cases h
    · exact .expired
    · exact .quiet

theorem Sys.owns_iff {i : ℕ} : s.owns cfg i = true ↔ ∃ d, s.key = some ⟨cfg.token i, d⟩ := by
  unfold Sys.owns
  cases hk : s.key with
  | none => simp
  | some k =>
    obtain ⟨token, deadline⟩ := k
    simp

theorem Sys.owns_unique {i j : ℕ} (hi : s.owns cfg i = true) (hj : s.owns cfg j = true) :
    i = j := by
  obtain ⟨d, hd⟩ := Sys.owns_iff.1 hi
  obtain ⟨d', hd'⟩ := Sys.owns_iff.1 hj
  rw [hd] at hd'
  injection hd' with hk
  injection hk with htok
  exact cfg.distinct htok

theorem Sys.not_owns_of_none {i : ℕ} (h : s.key = none) : ¬ s.owns cfg i = true := by
  simp [Sys.owns, h]

/-! ### Holding the lock -/

/-- What an event leaves of the fact that an instance holds the lock. -/
def Event.leave (i : ℕ) (held : Bool) : Event → Bool
  | .acquired j => if j = i then true else held
  | .released j _ => if j = i then false else held
  | .expired => false
  | _ => held

/-- The instance has acquired the lock, and since then it has not released it and the key has not
expired. -/
def holding (i : ℕ) (tr : List (Act × Event)) : Bool :=
  tr.foldl (fun held l => l.2.leave i held) false

variable {tr : List (Act × Event)} {i : ℕ}

theorem holding_concat (l : Act × Event) :
    holding i (tr ++ [l]) = l.2.leave i (holding i tr) := by
  simp [holding]

theorem pexpire_of_le (h : Duration.millisecond ≤ cfg.ttl i) :
    s.pexpire cfg i (cfg.milliseconds i) = some ⟨cfg.token i, s.now + cfg.milliseconds i⟩ := by
  have hpos : 0 < cfg.milliseconds i := by
    unfold Instances.milliseconds Duration.millisecond at *
    omega
  rw [Sys.pexpire, if_neg (by omega)]

/-- An instance that holds the lock owns the key. -/
def Owned (cfg : Instances) (i : ℕ) (tr : List (Act × Event)) (s : Sys) : Prop :=
  holding i tr = true → s.owns cfg i = true

theorem Owned.step {l : Act × Event} (hI : Owned cfg i tr s)
    (httl : Duration.millisecond ≤ cfg.ttl i) (hst : (locks cfg).step s l s') :
    Owned cfg i (tr ++ [l]) s' := by
  obtain ⟨act, ev⟩ := l
  intro hh
  rw [holding_concat] at hh
  rw [Sys.owns_iff]
  have heff := effect_of_exec hst
  generalize s'.key = key at heff ⊢
  dsimp only at hh heff
  cases heff with
  | none hw =>
    have hheld : holding i tr = true := by
      cases ev with
      | quiet | refused | renewed | failed => exact hh
      | released j removed =>
        simp only [Event.leave] at hh
        split_ifs at hh
        exact hh
      | acquired | expired => cases hw
    exact Sys.owns_iff.1 (hI hheld)
  | acquired j hnone =>
    simp only [Event.leave] at hh
    split_ifs at hh with hj
    · exact ⟨_, by rw [hj]⟩
    · exact absurd (hI hh) (Sys.not_owns_of_none hnone)
  | released j hown =>
    simp only [Event.leave] at hh
    split_ifs at hh with hj
    exact absurd (Sys.owns_unique hown (hI hh)) hj
  | renewed j hown =>
    obtain rfl := Sys.owns_unique hown (hI hh)
    exact ⟨_, pexpire_of_le httl⟩
  | expired => cases hh

/-! ### What `Release` returns -/

/-- What an action leaves of the last request of a goroutine. -/
def request (g : ℕ) (last : Option Event) (l : Act × Event) : Option Event :=
  if l.1.actor? = some g ∧ l.2 ≠ .quiet then some l.2 else last

/-- The last request that a goroutine has made, with its answer. -/
def lastRequest (g : ℕ) (tr : List (Act × Event)) : Option Event := tr.foldl (request g) none

theorem lastRequest_concat (g : ℕ) (l : Act × Event) :
    lastRequest g (tr ++ [l]) = request g (lastRequest g tr) l := by
  simp [lastRequest]

/-- The request after which `Release` returns its result. -/
def Result.request? (i : ℕ) : Result → Option Event
  | .ok => some (.released i true)
  | .notHeld => some (.released i false)
  | .error => some (.failed i)
  | .taken => none

/-- The last request of a goroutine fits what it is about to return, or has returned. -/
def Pc.Fits (last : Option Event) : Pc → Prop
  | .unmark i removed => last = some (.released i removed)
  | .returned (.release i) r => last = r.request? i
  | _ => True

theorem fits_acquireCall (last : Option Event) (i : ℕ) (loop : Bool) (r : Result) :
    (Pc.returned (acquireCall i loop) r).Fits last := by
  cases loop <;> trivial

theorem fits_entry (last : Option Event) (c : Call) : c.entry.Fits last := by
  cases c <;> trivial

theorem fits_goto {t : Sys} {g : ℕ} {pc : Pc} {act : Act} (hact : act.actor? = some g)
    (hI : ∀ g', (t.pc g').Fits (lastRequest g' tr))
    (hpc : pc.Fits (request g (lastRequest g tr) (act, ev))) (g' : ℕ) :
    ((t.goto g pc).pc g').Fits (request g' (lastRequest g' tr) (act, ev)) := by
  by_cases hg : g' = g
  · subst hg
    simpa only [Sys.goto, Function.update_self] using hpc
  · simp only [Sys.goto, Function.update_of_ne hg, request]
    rw [if_neg fun h => hg (Option.some.inj (h.1.symm.trans hact))]
    exact hI g'

theorem fits_stepPc {g w : ℕ} {fails : Bool} (hI : ∀ g', (s.pc g').Fits (lastRequest g' tr))
    (h : s.stepPc cfg g fails w (s.pc g) = some (s', ev)) (g' : ℕ) :
    (s'.pc g').Fits (request g' (lastRequest g' tr) (.step g fails w, ev)) := by
  have hg := hI g
  revert h
  generalize s.pc g = pc at hg
  intro h
  have hquiet : request g (lastRequest g tr) (.step g fails w, .quiet) = lastRequest g tr :=
    if_neg fun h => h.2 rfl
  have hasked : ∀ ev, ev ≠ .quiet →
      request g (lastRequest g tr) (.step g fails w, ev) = some ev := fun ev hev =>
    if_pos ⟨rfl, hev⟩
  cases pc with
  | idle | returned | exited => cases h
  | mark | wait =>
    cases h
    exact fits_goto rfl hI (by trivial) g'
  | unmark i removed =>
    cases h
    refine fits_goto rfl hI ?_ g'
    rw [hquiet]
    cases removed <;> exact hg
  | checkWatchdog i loop =>
    simp only [Sys.stepPc] at h
    split_ifs at h <;> cases h
    · exact fits_goto rfl hI (fits_acquireCall _ _ _ _) g'
    · exact fits_goto rfl hI (by trivial) g'
  | readWatchdog | watch =>
    simp only [Sys.stepPc] at h
    split_ifs at h <;> cases h <;> exact fits_goto rfl hI (by trivial) g'
  | startWatchdog i loop =>
    simp only [Sys.stepPc] at h
    split_ifs at h with hsome hw <;> cases h
    · exact fits_goto rfl hI (fits_acquireCall _ _ _ _) g'
    · refine fits_goto rfl (fun u => ?_) (fits_acquireCall _ _ _ _) g'
      by_cases hu : u = w
      · subst hu
        simp only [Sys.goto, Function.update_self]
        trivial
      · simp only [Sys.goto, Function.update_of_ne hu]
        exact hI u
  | takeWatchdog i releasing =>
    simp only [Sys.stepPc] at h
    split at h <;> cases h
    · exact fits_goto rfl hI (by cases releasing <;> trivial) g'
    · exact fits_goto rfl hI (by trivial) g'
  | awaitWatchdog i v releasing =>
    simp only [Sys.stepPc] at h
    split_ifs at h
    cases h
    exact fits_goto rfl hI (by cases releasing <;> trivial) g'
  | setNX i loop =>
    simp only [Sys.stepPc] at h
    split_ifs at h <;> cases h
    · exact fits_goto rfl hI (fits_acquireCall _ _ _ _) g'
    · exact fits_goto rfl hI (by cases loop <;> trivial) g'
    · exact fits_goto rfl hI (by trivial) g'
  | evalRelease i =>
    simp only [Sys.stepPc] at h
    split_ifs at h <;> cases h
    · exact fits_goto rfl hI (by exact hasked _ (by simp)) g'
    · exact fits_goto rfl hI (by exact hasked _ (by simp)) g'
    · exact fits_goto rfl hI (by exact hasked _ (by simp)) g'
  | evalRenew i watchdog =>
    simp only [Sys.stepPc] at h
    split_ifs at h <;> cases h
    all_goals exact fits_goto rfl hI (by cases watchdog <;> trivial) g'

theorem fits_exec {act : Act} (hI : ∀ g, (s.pc g).Fits (lastRequest g tr))
    (h : s.exec cfg act = some (s', ev)) (g : ℕ) :
    (s'.pc g).Fits (request g (lastRequest g tr) (act, ev)) := by
  cases act with
  | step g fails w => exact fits_stepPc hI h _
  | call u c =>
    simp only [Sys.exec] at h
    split at h
    · split at h <;> cases h <;> exact fits_goto rfl hI (fits_entry _ _) g
    · split at h <;> cases h <;> exact fits_goto rfl hI (fits_entry _ _) g
    · cases h
  | cancel u | fire u =>
    simp only [Sys.exec] at h
    split at h <;> cases h
    exact fits_goto rfl hI (by trivial) g
  | tick d =>
    have hkeep : request g (lastRequest g tr) (.tick d, ev) = lastRequest g tr :=
      if_neg fun h => (by cases h.1)
    rw [hkeep]
    simp only [Sys.exec] at h
    split_ifs at h <;> cases h <;> exact hI g

/-! ### Exclusion -/

/-- A step of another instance leaves the key of the holder alone. -/
theorem key_of_holding {l : Act × Event} {a : ℕ} (hI : Owned cfg a tr s)
    (hheld : holding a tr = true) (hst : (locks cfg).step s l s') :
    (∀ i, l.2 ≠ .acquired i) ∧ (l.2 ≠ .expired → l.2.instance? ≠ some a → s'.key = s.key) := by
  have howns := hI hheld
  obtain ⟨act, ev⟩ := l
  have heff := effect_of_exec hst
  dsimp only at heff ⊢
  generalize s'.key = key at heff ⊢
  cases heff with
  | none hw =>
    exact ⟨fun i he => (by rw [he] at hw; cases hw), fun _ _ => rfl⟩
  | acquired i hnone => exact absurd howns (Sys.not_owns_of_none hnone)
  | released i hown | renewed i hown =>
    exact ⟨fun _ he => (by cases he), fun _ hne =>
      absurd (congrArg some (Sys.owns_unique hown howns)) hne⟩
  | expired => exact ⟨fun _ he => (by cases he), fun hne => absurd rfl hne⟩

/-- `luaRelease` answers 1 exactly if the key is one of the instance, and then removes it. -/
theorem released_iff {l : Act × Event} (hst : (locks cfg).step s l s') {removed : Bool}
    (hev : l.2 = .released i removed) :
    (removed = true ↔ ∃ d, s.key = some ⟨cfg.token i, d⟩) ∧ (removed = true → s'.key = none) := by
  obtain ⟨act, ev⟩ := l
  dsimp only at hev
  subst hev
  have heff := effect_of_exec hst
  dsimp only at heff
  rw [← Sys.owns_iff]
  generalize s'.key = key at heff ⊢
  cases heff with
  | none hw hrel =>
    cases removed with
    | true => cases hw
    | false => exact ⟨by simp [hrel i rfl], fun he => (by cases he)⟩
  | released _ hown => exact ⟨by simp [hown], fun _ => rfl⟩

/-- Along every run, while an instance that was given at least a millisecond holds the lock it owns
the key, nobody acquires the lock, and no other instance deletes the key or changes its deadline;
`luaRelease` removes a key of its own instance or nothing; and `Release` returns nil exactly if its
script has removed the key. -/
theorem exclusive_while_held {a : ℕ} (httl : Duration.millisecond ≤ cfg.ttl a)
    (hrun : (locks cfg).Run LTS.anyStep tr s) :
    (holding a tr = true → (∃ d, s.key = some ⟨cfg.token a, d⟩) ∧
      ∀ l s', (locks cfg).step s l s' → (∀ i, l.2 ≠ .acquired i) ∧
        (l.2 ≠ .expired → l.2.instance? ≠ some a → s'.key = s.key)) ∧
    (∀ l s', (locks cfg).step s l s' → ∀ i removed, l.2 = .released i removed →
      (removed = true ↔ ∃ d, s.key = some ⟨cfg.token i, d⟩) ∧ (removed = true → s'.key = none)) ∧
    ∀ g i r, s.pc g = .returned (.release i) r →
      (r = .ok ↔ lastRequest g tr = some (.released i true)) := by
  have howned : Owned cfg a tr s :=
    hrun.traced (fun s _ hh => (by cases hh)) fun _ _ _ _ hI _ hst => hI.step httl hst
  have hfits : ∀ g, (s.pc g).Fits (lastRequest g tr) := by
    refine hrun.traced (I := fun tr s => ∀ g, (s.pc g).Fits (lastRequest g tr))
      (fun s hs g => ?_) fun tr s l s' hI _ hst g => ?_
    · rw [hs]
      trivial
    · rw [lastRequest_concat]
      exact fits_exec hI hst g
  refine ⟨fun hheld => ⟨Sys.owns_iff.1 (howned hheld), fun l s' hst =>
    key_of_holding howned hheld hst⟩, fun l s' hst i removed hev => released_iff hst hev, ?_⟩
  intro g i r hpc
  have hg := hfits g
  rw [hpc] at hg
  simp only [Pc.Fits] at hg
  rw [hg]
  cases r <;> simp [Result.request?]

/-- Instances with a time to live of `t + 1` nanoseconds each. -/
def uniform (t : ℕ) : Instances where
  token i := String.ofList (List.replicate i 'x')
  distinct := by
    intro i j h
    have hlen := congrArg (fun u : String => u.toList.length) h
    simpa using hlen
  ttl _ := t + 1
  positive _ := by omega

/-- One step, if it ends with the given event. -/
def Sys.next (cfg : Instances) (s : Sys) (l : Act × Event) : Option Sys :=
  (s.exec cfg l.1).bind fun r => if r.2 = l.2 then some r.1 else none

theorem Sys.step_of_next {l : Act × Event} (h : s.next cfg l = some s') :
    (locks cfg).step s l s' := by
  obtain ⟨⟨t, ev⟩, hr, hev⟩ := Option.bind_eq_some_iff.1 h
  split_ifs at hev with he
  cases hev
  exact hr.trans (congrArg (fun e => some (t, e)) he)

theorem exclusive_while_held_a_second :
    ∃ tr s, (locks (uniform (10 ^ 9))).Run LTS.anyStep tr s ∧
      holding 0 tr = true ∧
      ∃ d, s.key = some ⟨(uniform (10 ^ 9)).token 0, d⟩ := by
  obtain ⟨s, hrun, -⟩ := LTS.exists_run_of_exec (fun _ _ _ => Sys.step_of_next) rfl
    [(.call 0 (.tryAcquire 0), .quiet), (.step 0 false 0, .acquired 0),
      (.call 1 (.acquire 1), .quiet), (.step 1 false 0, .refused 1)]
    (P := fun _ => True) (by decide :
      (LTS.exec (Sys.next (uniform (10 ^ 9))) {} _).any _ = true) fun _ _ h => h
  exact ⟨_, s, hrun, by decide, ((exclusive_while_held (by decide) hrun).1 (by decide)).1⟩

/-- A lock of half a millisecond: its renewal sends `PEXPIRE` with 0, the key is deleted, and
another instance acquires the lock. -/
theorem renewal_drops_short_lock :
    ∃ tr s, (locks (uniform 500000)).Run LTS.anyStep tr s ∧ holding 0 tr = true ∧
      tr.getLast? = some (.step 1 false 0, .acquired 1) := by
  obtain ⟨s, hrun, -⟩ := LTS.exists_run_of_exec (fun _ _ _ => Sys.step_of_next) rfl
    [(.call 0 (.tryAcquire 0), .quiet), (.step 0 false 0, .acquired 0),
      (.call 2 (.renew 0), .quiet), (.step 2 false 0, .renewed 0 true),
      (.call 1 (.tryAcquire 1), .quiet), (.step 1 false 0, .acquired 1)]
    (P := fun _ => True) (by decide :
      (LTS.exec (Sys.next (uniform 500000)) {} _).any _ = true) fun _ _ h => h
  exact ⟨_, s, hrun, by decide, rfl⟩

end Redis

end GinRpc
