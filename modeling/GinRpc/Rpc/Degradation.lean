import GinRpc.Data.AList
import GinRpc.Data.Duration
import GinRpc.Data.Float64
import GinRpc.LTS.Basic
import GinRpc.Text.Basic

/-!
# Degradation

Model of `plugins/rpc/degradation.go`: the requests that a `DegradationManager` remembers, the level
that it computes from them, and the methods that it blocks at a level.  `Act.begin` and `Act.finish`
are the two halves of a handler under `Wrap`; the interceptors of the servers and the JSON-RPC
client call `ShouldAllowMethod` and `RecordMetrics` in the same order.

* `Manager.Inv` : what is remembered are the requests that were in the window when the last one was
  recorded.
* `Manager.window_sound` : if none of them has left the window since, then the metrics are those of
  the window, and the next evaluation takes a level back when nothing has failed or was slow.
* `Manager.never_recovers` : nothing is forgotten between two requests, and without a request the
  level is left as it is.

Left out are the concurrency tokens and the circuit breaker, which no evaluation looks at.
-/

namespace GinRpc

namespace Degradation

inductive Level where
  | normal
  | light
  | medium
  | heavy
  | emergency
  deriving DecidableEq, Repr

/-- The number of a level -/
def Level.rank : Level → ℕ
  | .normal => 0
  | .light => 1
  | .medium => 2
  | .heavy => 3
  | .emergency => 4

/-- `DegradationConfig` -/
structure Config where
  level : Level := .normal
  autoDetect : Bool := true
  cpuThreshold : ℚ := 80
  memoryThreshold : ℚ := 85
  errorRateThreshold : ℚ := 50
  latencyThreshold : ℤ := 5 * Duration.second
  essentialMethods : List Text := []
  disabledMethods : List Text := []

namespace Config

variable (cfg : Config)

/-- `Validate` -/
def validate : Except Text Unit :=
  if cfg.cpuThreshold < 0 ∨ 100 < cfg.cpuThreshold then
    .error "cpu_threshold must be between 0 and 100"
  else if cfg.memoryThreshold < 0 ∨ 100 < cfg.memoryThreshold then
    .error "memory_threshold must be between 0 and 100"
  else if cfg.errorRateThreshold < 0 ∨ 100 < cfg.errorRateThreshold then
    .error "error_rate_threshold must be between 0 and 100"
  else if cfg.latencyThreshold < 0 then
    .error "latency_threshold must be non-negative"
  else .ok ()

end Config

/-! ### Metrics -/

/-- `metricEntry` -/
structure Entry where
  timestamp : ℤ
  duration : ℤ
  failed : Bool
  deriving DecidableEq, Repr

/-- What `GetMetrics` returns. -/
structure Metrics where
  total : ℕ
  errors : ℕ
  avgLatency : ℤ
  deriving DecidableEq, Repr

/-- The sum of the durations, in 64 bits -/
def totalLatency (requests : List Entry) : ℤ :=
  requests.foldl (fun sum e => Duration.wrap (sum + e.duration)) 0

/-- `GetMetrics` -/
def getMetrics (requests : List Entry) : Metrics :=
  if requests.length = 0 then ⟨0, 0, 0⟩
  else ⟨requests.length, requests.countP (·.failed),
    (totalLatency requests).tdiv requests.length⟩

/-- `float64(part) / float64(whole) * 100` -/
def percent (part whole : ℕ) : ℚ :=
  Float64.mul (Float64.div (Float64.ofInt part) (Float64.ofInt whole)) 100

/-- The memory usage of `GetSystemMetrics`, from `MemStats.Sys` and `MemStats.HeapReleased`; the CPU
usage is always 0. -/
def memoryUsage (sys heapReleased : ℕ) : ℚ :=
  if 0 < sys then
    percent ((sys + 2 ^ 64 - heapReleased) % 2 ^ 64) sys
  else 0

def cpuUsage : ℚ := 0

/-- The level that `evaluateDegradation` determines -/
def newLevel (cfg : Config) (m : Metrics) (memory : ℚ) : Level :=
  let rate := percent m.errors m.total
  let times (k : ℤ) := Duration.wrap (k * cfg.latencyThreshold)
  if cfg.errorRateThreshold < rate ∨ cfg.latencyThreshold < m.avgLatency ∨
      cfg.cpuThreshold < cpuUsage ∨ cfg.memoryThreshold < memory then
    if 80 < rate ∨ times 10 < m.avgLatency ∨ 95 < cpuUsage ∨ 95 < memory then .emergency
    else if 50 < rate ∨ times 5 < m.avgLatency ∨ 90 < cpuUsage ∨ 90 < memory then .heavy
    else if 20 < rate ∨ times 2 < m.avgLatency ∨ cfg.cpuThreshold < cpuUsage ∨
        cfg.memoryThreshold < memory then .medium
    else .light
  else .normal

/-! ### The manager -/

structure Manager where
  now : ℤ := 0
  currentLevel : Level
  methodLevels : AList fun _ : Text => Level := ∅
  /-- the fallbacks, by number -/
  fallbacks : AList fun _ : Text => ℕ := ∅
  /-- `metrics.requests` -/
  requests : List Entry := []
  /-- when the handlers that are running have begun -/
  running : List ℤ := []
  /-- the calls of `onLevelChange` -/
  changes : List (Level × Level) := []
  /-- every request that was ever recorded -/
  recorded : List Entry := []

/-- What `Wrap` does with a call. -/
inductive Admission where
  | handler
  | fallback (f : ℕ)
  | error (message : Text)
  deriving DecidableEq, Repr

def isNonEssentialMethod (method : Text) : Bool :=
  ["list", "set", "hash", "zset", "geo", "hyperloglog"].any fun m => method = (m : Text)

def isReadMethod (method : Text) : Bool :=
  ["get", "mget", "hget", "hgetall", "lrange", "smembers"].any fun m => method = (m : Text)

def isEssentialWriteMethod (method : Text) : Bool :=
  ["set", "hset", "del"].any fun m => method = (m : Text)

def isEssentialReadMethod (method : Text) : Bool :=
  ["get", "hget"].any fun m => method = (m : Text)

namespace Manager

/-- `NewDegradationManager`; the source sets the window to one minute. -/
def newDegradationManager (cfg : Config) : Except Text Manager :=
  match cfg.validate with
  | .error e => .error e
  | .ok () => .ok { currentLevel := cfg.level }

variable (cfg : Config) (window : ℤ) (dm : Manager)

/-- `SetLevel` -/
def setLevel (level : Level) : Manager where
  __ := dm
  currentLevel := level
  changes :=
    if dm.currentLevel = level then dm.changes else dm.changes ++ [(dm.currentLevel, level)]

/-- `ShouldAllowMethod` -/
def shouldAllowMethod (method : Text) : Bool :=
  match dm.methodLevels.lookup method with
  | some level => dm.currentLevel.rank ≤ level.rank
  | none =>
    if cfg.essentialMethods.any fun m => m = method then true
    else if cfg.disabledMethods.any fun m => m = method then false
    else match dm.currentLevel with
      | .normal => true
      | .light => !isNonEssentialMethod method
      | .medium => isReadMethod method || isEssentialWriteMethod method
      | .heavy => isEssentialReadMethod method
      | .emergency => method = ("ping" : Text) || method = ("health" : Text)

/-- What a handler under `Wrap` begins with -/
def wrap (method : Text) : Admission :=
  if dm.shouldAllowMethod cfg method then .handler
  else match dm.fallbacks.lookup method with
    | some f => .fallback f
    | none => .error "service temporarily unavailable due to degradation"

/-- `RecordMetrics` -/
def recordMetrics (duration : ℤ) (failed : Bool) : Manager :=
  if cfg.autoDetect then
    { dm with
      requests := (dm.requests.filter fun e => dm.now - window < e.timestamp) ++
        [⟨dm.now, duration, failed⟩]
      recorded := dm.recorded ++ [⟨dm.now, duration, failed⟩] }
  else dm

/-- `evaluateDegradation` -/
def evaluateDegradation (memory : ℚ) : Manager :=
  let m := getMetrics dm.requests
  if m.total = 0 then dm
  else if newLevel cfg m memory = dm.currentLevel then dm
  else dm.setLevel (newLevel cfg m memory)

end Manager

inductive Act where
  | wait (d : ℕ)
  /-- a call of a method under `Wrap` -/
  | begin (method : Text)
  /-- a handler returns -/
  | finish (i : ℕ) (failed : Bool)
  /-- `RecordMetrics` is called by other code -/
  | record (duration : ℤ) (failed : Bool)
  /-- the ticker of `autoDetectLoop` -/
  | tick (sys heapReleased : ℕ)
  | setLevel (level : Level)
  | setMethodLevel (method : Text) (level : Level)
  | registerFallback (method : Text) (f : ℕ)
  | unregisterFallback (method : Text)

/-- Nothing is recorded: time passes, the level is evaluated, and methods are called that are
blocked in an emergency. -/
def Act.Idle : Act → Prop
  | .wait _ => True
  | .tick _ _ => True
  | .begin method => method ≠ "ping" ∧ method ≠ "health"
  | _ => False

namespace Manager

def step (cfg : Config) (window : ℤ) (dm : Manager) : Act → Manager
  | .wait d => { dm with now := dm.now + d }
  | .begin method =>
    match dm.wrap cfg method with
    | .handler => { dm with running := dm.running ++ [dm.now] }
    | .fallback _ | .error _ => dm
  | .finish i failed =>
    match dm.running[i]? with
    | none => dm
    | some start => { dm with running := dm.running.eraseIdx i }.recordMetrics cfg window
        (Duration.sub dm.now start) failed
  | .record duration failed => dm.recordMetrics cfg window duration failed
  -- the loop runs only if it is configured
  | .tick sys heapReleased =>
    if cfg.autoDetect then dm.evaluateDegradation cfg (memoryUsage sys heapReleased) else dm
  | .setLevel level => dm.setLevel level
  | .setMethodLevel method level =>
    { dm with methodLevels := dm.methodLevels.insert method level }
  | .registerFallback method f => { dm with fallbacks := dm.fallbacks.insert method f }
  | .unregisterFallback method => { dm with fallbacks := dm.fallbacks.erase method }

def lts (cfg : Config) (window : ℤ) : LTS Manager Act where
  init dm := newDegradationManager cfg = .ok dm
  step dm a dm' := dm.step cfg window a = dm'

/-- The recorded requests that were completed in the window that ends now -/
def recent (window : ℤ) (dm : Manager) : List Entry :=
  dm.recorded.filter fun e => dm.now - window < e.timestamp ∧ e.timestamp ≤ dm.now

/-! ### What is remembered -/

/-- The requests of the window that ended with the last recorded one -/
structure Inv (cfg : Config) (window : ℤ) (dm : Manager) : Prop where
  valid : cfg.validate = .ok ()
  before : ∀ e ∈ dm.recorded, e.timestamp ≤ dm.now
  none_left : dm.recorded = [] → dm.requests = []
  kept : ∀ last ∈ dm.recorded.getLast?,
    dm.requests = dm.recorded.filter fun e => last.timestamp - window < e.timestamp

variable {cfg : Config} {window : ℤ} {dm : Manager}

theorem Inv.of_eq (h : dm.Inv cfg window) {dm' : Manager} (hnow : dm'.now = dm.now)
    (hrequests : dm'.requests = dm.requests) (hrecorded : dm'.recorded = dm.recorded) :
    dm'.Inv cfg window := by
  refine ⟨h.valid, ?_, ?_, ?_⟩
  · rw [hnow, hrecorded]
    exact h.before
  · rw [hrequests, hrecorded]
    exact h.none_left
  · rw [hrequests, hrecorded]
    exact h.kept

theorem Inv.wait (h : dm.Inv cfg window) (d : ℕ) :
    Inv cfg window { dm with now := dm.now + d } := by
  refine ⟨h.valid, fun e he => ?_, h.none_left, h.kept⟩
  have := h.before e he
  dsimp only
  omega

/-- What was in the window of the last request and is in the window now, is what of all requests is
in the window now. -/
theorem Inv.filter_requests (h : dm.Inv cfg window) :
    (dm.requests.filter fun e => dm.now - window < e.timestamp) =
      dm.recorded.filter fun e => dm.now - window < e.timestamp := by
  cases hlast : dm.recorded.getLast? with
  | none =>
    have hnil := List.getLast?_eq_none_iff.1 hlast
    rw [h.none_left hnil, hnil]
  | some last =>
    have hle := h.before last (List.mem_of_getLast? hlast)
    rw [h.kept last hlast, List.filter_filter]
    refine List.filter_congr fun e _ => ?_
    rw [← Bool.decide_and]
    exact decide_eq_decide.2 (by omega)

theorem Inv.recordMetrics (h : dm.Inv cfg window) (hwindow : 0 < window) (duration : ℤ)
    (failed : Bool) : (dm.recordMetrics cfg window duration failed).Inv cfg window := by
  unfold Manager.recordMetrics
  split_ifs
  · refine ⟨h.valid, ?_, fun hnil => ?_, fun last hlast => ?_⟩
    · rw [List.forall_mem_append, List.forall_mem_singleton]
      exact ⟨h.before, le_refl dm.now⟩
    · exact absurd hnil (List.append_ne_nil_of_right_ne_nil _ (List.cons_ne_nil _ _))
    · rw [List.getLast?_concat, Option.mem_some_iff] at hlast
      subst hlast
      rw [h.filter_requests, List.filter_append, List.filter_singleton]
      simp [hwindow]
  · exact h

theorem inv_step (hwindow : 0 < window) (h : dm.Inv cfg window) (a : Act) :
    (dm.step cfg window a).Inv cfg window := by
  cases a with
  | wait d => exact h.wait d
  | begin method =>
    rw [step]
    cases dm.wrap cfg method with
    | handler => exact h.of_eq rfl rfl rfl
    | fallback f => exact h
    | error message => exact h
  | finish i failed =>
    rw [step]
    cases dm.running[i]? with
    | none => exact h
    | some start =>
      have herase : Inv cfg window { dm with running := dm.running.eraseIdx i } :=
        h.of_eq rfl rfl rfl
      exact herase.recordMetrics hwindow _ failed
  | record duration failed => exact h.recordMetrics hwindow duration failed
  | tick sys heapReleased =>
    rw [step, evaluateDegradation]
    split_ifs
    · exact h
    · exact h
    · exact h.of_eq rfl rfl rfl
    · exact h
  | setLevel level => exact h.of_eq rfl rfl rfl
  | setMethodLevel method level => exact h.of_eq rfl rfl rfl
  | registerFallback method f => exact h.of_eq rfl rfl rfl
  | unregisterFallback method => exact h.of_eq rfl rfl rfl

theorem inv_new (h : newDegradationManager cfg = .ok dm) : dm.Inv cfg window := by
  unfold newDegradationManager at h
  cases hvalid : cfg.validate with
  | error e =>
    rw [hvalid] at h
    cases h
  | ok _ =>
    rw [hvalid] at h
    cases h
    exact ⟨hvalid, (fun e he => by cases he), fun _ => rfl, fun last hlast => by cases hlast⟩

theorem inv_of_run {tr : List Act} (hwindow : 0 < window)
    (hr : (lts cfg window).Run LTS.anyStep tr dm) : dm.Inv cfg window := by
  refine hr.invariant (fun _ => inv_new) fun dm a dm' h _ hst => ?_
  obtain rfl : dm.step cfg window a = dm' := hst
  exact inv_step hwindow h a

/-- Since the last recorded request, none has left the window. -/
def Fresh (window : ℤ) (dm : Manager) : Prop :=
  ∀ last ∈ dm.recorded.getLast?, ∀ e ∈ dm.recorded,
    e.timestamp ≤ dm.now - window → e.timestamp ≤ last.timestamp - window

theorem Inv.requests_eq_recent (h : dm.Inv cfg window) (hfresh : dm.Fresh window) :
    dm.requests = dm.recent window := by
  unfold recent
  cases hlast : dm.recorded.getLast? with
  | none =>
    have hnil := List.getLast?_eq_none_iff.1 hlast
    rw [h.none_left hnil, hnil]
    rfl
  | some last =>
    have hle := h.before last (List.mem_of_getLast? hlast)
    rw [h.kept last hlast]
    refine List.filter_congr fun e he => decide_eq_decide.2 ?_
    have hbefore := h.before e he
    have hin := hfresh last hlast e he
    omega

/-! ### A level is taken back -/

theorem foldl_wrap_le {limit : ℤ} (l : List Entry)
    (hl : ∀ e ∈ l, 0 ≤ e.duration ∧ e.duration ≤ limit) (sum : ℤ) (hsum : -2 ^ 63 ≤ sum) :
    l.foldl (fun sum e => Duration.wrap (sum + e.duration)) sum ≤ sum + l.length * limit := by
  induction l generalizing sum with
  | nil => simp
  | cons e l ih =>
    rw [List.forall_mem_cons] at hl
    obtain ⟨q, -, hge, -⟩ := Duration.wrap_spec (sum + e.duration)
    have hle : Duration.wrap (sum + e.duration) ≤ sum + e.duration := Duration.wrap_le (by omega)
    have hrest := ih hl.2 _ hge
    rw [List.foldl_cons, List.length_cons]
    push_cast
    rw [add_mul, one_mul]
    omega

/-- The mean of short durations is short, even if their sum does not fit. -/
theorem avgLatency_le {limit : ℤ} (hlimit : 0 ≤ limit) (l : List Entry)
    (hl : ∀ e ∈ l, 0 ≤ e.duration ∧ e.duration ≤ limit) : (getMetrics l).avgLatency ≤ limit := by
  unfold getMetrics
  split_ifs with hnil
  · exact hlimit
  · have hsum : totalLatency l ≤ 0 + l.length * limit := foldl_wrap_le l hl 0 (by norm_num)
    have hpos : (0 : ℤ) < l.length := by omega
    rw [zero_add] at hsum
    calc (totalLatency l).tdiv l.length ≤ (l.length * limit).tdiv l.length :=
          Int.tdiv_le_tdiv hpos hsum
      _ = limit := Int.mul_tdiv_cancel_left limit hpos.ne'

theorem percent_zero (whole : ℕ) : percent 0 whole = 0 := by
  unfold percent Float64.mul Float64.div Float64.ofInt
  rw [Nat.cast_zero, Int.cast_zero, Float64.round_zero, zero_div, Float64.round_zero, zero_mul,
    Float64.round_zero]

theorem nonneg_of_validate (h : cfg.validate = .ok ()) :
    0 ≤ cfg.cpuThreshold ∧ 0 ≤ cfg.errorRateThreshold ∧ 0 ≤ cfg.latencyThreshold := by
  unfold Config.validate at h
  split_ifs at h with hcpu hmem hrate hlat
  exact ⟨not_lt.1 fun h => hcpu (.inl h), not_lt.1 fun h => hrate (.inl h), not_lt.1 hlat⟩

theorem newLevel_normal (hvalid : cfg.validate = .ok ()) {l : List Entry} {memory : ℚ}
    (hl : ∀ e ∈ l, e.failed = false ∧ 0 ≤ e.duration ∧ e.duration ≤ cfg.latencyThreshold)
    (hmemory : memory ≤ cfg.memoryThreshold) : newLevel cfg (getMetrics l) memory = .normal := by
  obtain ⟨hcpu, hrate, hlatency⟩ := nonneg_of_validate hvalid
  have havg := avgLatency_le hlatency l fun e he => (hl e he).2
  have herrors : (getMetrics l).errors = 0 := by
    unfold getMetrics
    split_ifs
    · rfl
    · exact List.countP_eq_zero.2 fun e he => by simp [(hl e he).1]
  unfold newLevel
  dsimp only
  rw [herrors, percent_zero, if_neg]
  rintro (h | h | h | h)
  · exact absurd h (not_lt.2 hrate)
  · exact absurd h (not_lt.2 havg)
  · exact absurd h (not_lt.2 hcpu)
  · exact absurd h (not_lt.2 hmemory)

theorem currentLevel_evaluate (memory : ℚ) (hne : dm.requests ≠ []) :
    (dm.evaluateDegradation cfg memory).currentLevel =
      newLevel cfg (getMetrics dm.requests) memory := by
  have hlen : dm.requests.length ≠ 0 := fun h => hne (List.length_eq_zero_iff.1 h)
  have htotal : (getMetrics dm.requests).total ≠ 0 := by
    rw [getMetrics, if_neg hlen]
    exact hlen
  unfold evaluateDegradation
  dsimp only
  rw [if_neg htotal]
  split_ifs with heq
  · exact heq.symm
  · rfl

/-- The metrics are those of the window that ends now, the level follows from them, and is taken
back when nothing in the window has failed or was slow. -/
theorem window_sound {tr : List Act} (hwindow : 0 < window)
    (hr : (lts cfg window).Run LTS.anyStep tr dm) (hfresh : dm.Fresh window) :
    getMetrics dm.requests = getMetrics (dm.recent window) ∧
    (dm.recent window ≠ [] → ∀ memory, (dm.evaluateDegradation cfg memory).currentLevel =
      newLevel cfg (getMetrics (dm.recent window)) memory) ∧
    (dm.recent window ≠ [] →
      (∀ e ∈ dm.recent window,
        e.failed = false ∧ 0 ≤ e.duration ∧ e.duration ≤ cfg.latencyThreshold) →
      ∀ memory ≤ cfg.memoryThreshold,
        (dm.evaluateDegradation cfg memory).currentLevel = .normal) := by
  have hinv := inv_of_run hwindow hr
  rw [← hinv.requests_eq_recent hfresh]
  refine ⟨rfl, fun hne memory => currentLevel_evaluate memory hne, fun hne hl memory hmem => ?_⟩
  rw [currentLevel_evaluate memory hne]
  exact newLevel_normal hinv.valid hl hmem

/-- A manager with the default configuration -/
def fresh : Manager := { currentLevel := .normal }

theorem run_fresh (acts : List Act) :
    (lts {} Duration.minute).Run LTS.anyStep acts (acts.foldl (step {} Duration.minute) fresh) := by
  have hvalid : Config.validate {} = .ok () := by
    norm_num [Config.validate, Duration.second]
  induction acts using List.reverseRecOn with
  | nil =>
    refine .nil ?_
    change newDegradationManager {} = .ok fresh
    rw [newDegradationManager, hvalid]
    rfl
  | append_singleton acts a ih =>
    rw [List.foldl_concat]
    exact ih.extend a trivial rfl

/-- A request begins, the level is set, and the request succeeds. -/
def heavyThenOk : List Act := [.begin "get", .setLevel .heavy, .finish 0 false]

theorem window_sound_recovers :
    (heavyThenOk.foldl (step {} Duration.minute) fresh).currentLevel = .heavy ∧
    ((heavyThenOk.foldl (step {} Duration.minute) fresh).evaluateDegradation {} 0).currentLevel =
      .normal := by
  have hrecent : (heavyThenOk.foldl (step {} Duration.minute) fresh).recent Duration.minute =
      [⟨0, 0, false⟩] := by
    decide
  refine ⟨by decide, (window_sound (by decide) (run_fresh heavyThenOk) ?_).2.2 ?_ ?_ 0 ?_⟩
  · unfold Fresh
    decide
  · rw [hrecent]
    exact List.cons_ne_nil _ _
  · rw [hrecent]
    decide
  · norm_num

/-! ### A level that stays -/

theorem percent_self : percent 1 1 = 100 := by
  have hone : Float64.round 1 = 1 := by
    exact_mod_cast Float64.round_natCast (t := 1) (by norm_num)
  have hhundred : Float64.round 100 = 100 := by
    exact_mod_cast Float64.round_natCast (t := 100) (by norm_num)
  rw [percent, Float64.ofInt_natCast (by norm_num), Nat.cast_one, Float64.div, div_one, hone,
    Float64.mul, one_mul, hhundred]

/-- One failed request is remembered in an emergency. -/
structure Stuck (dm : Manager) : Prop where
  level : dm.currentLevel = .emergency
  requests : ∃ t d, dm.requests = [⟨t, d, true⟩]
  unset : dm.methodLevels = ∅

theorem newLevel_failed (t d : ℤ) (memory : ℚ) :
    newLevel {} (getMetrics [⟨t, d, true⟩]) memory = .emergency := by
  unfold newLevel
  dsimp only
  have hrate : percent (getMetrics [⟨t, d, true⟩]).errors (getMetrics [⟨t, d, true⟩]).total = 100 :=
    percent_self
  rw [hrate, if_pos (.inl (by norm_num)), if_pos (.inl (by norm_num))]

theorem Stuck.step (h : dm.Stuck) {a : Act} (ha : a.Idle) : (dm.step {} window a).Stuck := by
  obtain ⟨t, d, hreq⟩ := h.requests
  cases a with
  | wait d => exact ⟨h.level, h.requests, h.unset⟩
  | begin method =>
    have hblocked : dm.shouldAllowMethod {} method = false := by
      obtain ⟨hping, hhealth⟩ := ha
      rw [shouldAllowMethod, h.unset, h.level]
      -- no method has a level of its own or is configured
      show (decide (method = ("ping" : Text)) || decide (method = ("health" : Text))) = false
      rw [decide_eq_false hping, decide_eq_false hhealth, Bool.or_false]
    rw [Manager.step, wrap, hblocked]
    cases dm.fallbacks.lookup method with
    | none => exact h
    | some f => exact h
  | tick sys heapReleased =>
    have heval : dm.evaluateDegradation {} (memoryUsage sys heapReleased) = dm := by
      unfold evaluateDegradation
      dsimp only
      rw [hreq, newLevel_failed, h.level, if_pos rfl, ite_self]
    rw [Manager.step, heval, ite_self]
    exact h
  | finish i failed => cases ha
  | record duration failed => cases ha
  | setLevel level => cases ha
  | setMethodLevel method level => cases ha
  | registerFallback method f => cases ha
  | unregisterFallback method => cases ha

theorem Stuck.steps (h : dm.Stuck) (acts : List Act) (hacts : ∀ a ∈ acts, a.Idle) :
    (acts.foldl (Manager.step {} window) dm).Stuck := by
  induction acts generalizing dm with
  | nil => exact h
  | cons a acts ih =>
    rw [List.forall_mem_cons] at hacts
    exact ih (h.step hacts.1) hacts.2

/-- A request fails, and the level is evaluated. -/
def failedOnce : Manager :=
  [Act.begin "get", .finish 0 true, .tick 1 1].foldl (step {} Duration.minute) fresh

theorem failedOnce_eq : failedOnce =
    { currentLevel := .emergency, requests := [⟨0, 0, true⟩], recorded := [⟨0, 0, true⟩]
      changes := [(.normal, .emergency)] } := by
  have hrecord : [Act.begin "get", .finish 0 true].foldl (step {} Duration.minute) fresh =
      { fresh with requests := [⟨0, 0, true⟩], recorded := [⟨0, 0, true⟩] } := rfl
  have heval := newLevel_failed 0 0 (memoryUsage 1 1)
  rw [failedOnce, show [Act.begin "get", .finish 0 true, .tick 1 1] =
    [Act.begin "get", .finish 0 true] ++ [.tick 1 1] from rfl, List.foldl_concat, hrecord, step,
    if_pos rfl, evaluateDegradation]
  dsimp only
  rw [heval, if_neg (by decide), if_neg (by decide)]
  rfl

theorem stuck_failedOnce : failedOnce.Stuck := by
  rw [failedOnce_eq]
  exact ⟨rfl, ⟨0, 0, rfl⟩, rfl⟩

/-- After one failed request the emergency lasts as long as nothing else is recorded, though the
request has left the window; and a level that was set stays if nothing was ever recorded. -/
theorem never_recovers :
    (∃ tr dm, (lts {} Duration.minute).Run LTS.anyStep tr dm ∧
      (∀ acts : List Act, (∀ a ∈ acts, a.Idle) →
        (acts.foldl (step {} Duration.minute) dm).currentLevel = .emergency ∧
        getMetrics (acts.foldl (step {} Duration.minute) dm).requests ≠ getMetrics []) ∧
      (dm.step {} Duration.minute (.wait (10 ^ 11))).recent Duration.minute = [] ∧
      memoryUsage 1 1 ≤ ({} : Config).memoryThreshold) ∧
    ∃ tr dm, (lts {} Duration.minute).Run LTS.anyStep tr dm ∧ dm.recorded = [] ∧
      (dm.step {} Duration.minute (.tick 1 1)).currentLevel = .heavy := by
  constructor
  · refine ⟨_, failedOnce, run_fresh _, fun acts hacts => ?_, ?_, ?_⟩
    · have hstuck : (acts.foldl (step {} Duration.minute) failedOnce).Stuck :=
        stuck_failedOnce.steps acts hacts
      obtain ⟨t, d, hreq⟩ := hstuck.requests
      refine ⟨hstuck.level, ?_⟩
      rw [hreq]
      exact fun h => absurd (congrArg Metrics.total h) Nat.one_ne_zero
    · rw [failedOnce_eq]
      decide
    · rw [memoryUsage, if_pos Nat.one_pos, show (1 + 2 ^ 64 - 1) % 2 ^ 64 = 0 from rfl,
        percent_zero]
      norm_num
  · exact ⟨_, _, run_fresh [.setLevel .heavy], rfl, rfl⟩

end Manager

end Degradation

end GinRpc
