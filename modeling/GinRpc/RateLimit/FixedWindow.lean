import GinRpc.RateLimit.Buckets

/-!
# The fixed window rate limiter

Model of `MemoryFixedWindow` in `plugins/ratelimit/memory_fixed_window.go`.

* `keeper` : the limiter that never drops a bucket.
* `client` : the window of a single key.
* `fixed_window_decisions` : if a bucket lives at least as long as its window, the limiter decides
  like the one that never drops a bucket; the decisions for a key are those of its own window, and
  the requests that are allowed come in groups of at most `requests`, more than a window apart.
* `fixed_window_burst` : fewer than `2 * requests` are allowed in any period of one window.
* `long_window_forgets` : for windows of thirty years `10 * window` overflows.
-/

namespace GinRpc

namespace RateLimit

structure Bucket where
  remaining : ℤ
  resetAt : ℤ
  lastSeen : ℤ
  deriving DecidableEq

structure MemoryFixedWindow where
  requests : ℤ
  window : ℤ
  clients : Table Bucket

/-- `NewMemoryFixedWindow`, called at `now` -/
def newMemoryFixedWindow (requests window now : ℤ) : MemoryFixedWindow :=
  let requests := if requests ≤ 0 then 100 else requests
  let window := if window ≤ 0 then Duration.minute else window
  let ttl := Duration.wrap (10 * window)
  -- a product that has become negative is replaced by a minute
  { requests := requests
    window := window
    clients :=
      { ttl := if ttl < Duration.minute then Duration.minute else ttl
        maxKeys := 100000
        cleanupInterval := window
        lastCleanup := some now
        buckets := ∅ } }

/-- What a call does with the bucket of its key. -/
def hit (requests window now : ℤ) : Option Bucket → Bucket × Bool
  | none => (⟨requests - 1, now + window, now⟩, true)
  | some b =>
    let b := { b with lastSeen := now }
    let b :=
      -- the window is closed at both ends
      if b.resetAt < now then { b with remaining := requests, resetAt := now + window } else b
    if b.remaining ≤ 0 then (b, false) else ({ b with remaining := b.remaining - 1 }, true)

namespace MemoryFixedWindow

variable (l : MemoryFixedWindow)

/-- `Allow` after the cleanup -/
def serve (c : Call) : MemoryFixedWindow × Bool :=
  let r := hit l.requests l.window c.now (l.clients.buckets.lookup c.key)
  ({ l with clients := { l.clients with buckets := l.clients.buckets.insert c.key r.1 } }, r.2)

def allow (c : Call) : MemoryFixedWindow × Bool :=
  { l with clients := l.clients.maybeCleanup Bucket.lastSeen c.now c.ranges }.serve c

def machine : Machine MemoryFixedWindow Call Bool := ⟨allow⟩

end MemoryFixedWindow

open MemoryFixedWindow

/-- The limiter that never drops a bucket. -/
def keeper : Machine MemoryFixedWindow Call Bool := ⟨serve⟩

/-- The window of a single key. -/
def client (requests window : ℤ) : Machine (Option Bucket) ℤ Bool where
  step b now := (some (hit requests window now b).1, (hit requests window now b).2)

/-- The times fall into consecutive groups of at most `n`, whose first members are more than
`window` apart. -/
def Grouped (n window : ℤ) (times : List ℤ) : Prop :=
  ∃ groups : List (List ℤ), groups.flatten = times ∧
    (∀ g ∈ groups, g ≠ [] ∧ (g.length : ℤ) ≤ n) ∧
    (groups.filterMap List.head?).Pairwise fun a b => window < b - a

/-! ### One bucket -/

section Hit

variable {requests window now : ℤ}

@[simp] theorem hit_lastSeen (o : Option Bucket) :
    (hit requests window now o).1.lastSeen = now := by
  cases o with
  | none => rfl
  | some b =>
    simp only [hit]
    split_ifs <;> rfl

theorem hit_resetAt_le {o : Option Bucket} (h : ∀ b ∈ o, b.resetAt ≤ now + window) :
    (hit requests window now o).1.resetAt ≤ now + window := by
  cases o with
  | none => exact Int.le_refl _
  | some b =>
    have hb := h b rfl
    simp only [hit]
    split_ifs <;> simp_all

/-- A bucket whose window is over is as good as none. -/
theorem hit_of_resetAt_lt {b : Bucket} (hr : 0 < requests) (h : b.resetAt < now) :
    hit requests window now (some b) = hit requests window now none := by
  simp [hit, h, Int.not_le.2 hr]

end Hit

/-! ### The keys do not disturb each other -/

section Client

variable {requests window : ℤ}

/-- The groups of the requests that were allowed so far; the last is that of the bucket. -/
def Groups (requests window : ℤ) (log : List (ℤ × Bool)) : Option Bucket → Prop
  | none => granted log = []
  | some b => ∃ init h rest, (init ++ [h :: rest]).flatten = granted log ∧
      (∀ g ∈ init ++ [h :: rest], g ≠ [] ∧ (g.length : ℤ) ≤ requests) ∧
      (((init ++ [h :: rest]).filterMap List.head?).Pairwise fun a b => window < b - a) ∧
      b.resetAt = h + window ∧ b.remaining = requests - (rest.length + 1)

section Groups

variable {log : List (ℤ × Bool)} {b : Bucket} {now : ℤ}

/-- A new group is opened when the window of the last one is over. -/
theorem Groups.opened (hr : 0 < requests) (hw : 0 < window)
    (h : Groups requests window log (some b)) (hover : b.resetAt < now) :
    Groups requests window (log ++ [(now, true)]) (some (hit requests window now none).1) := by
  obtain ⟨init, a, rest, hflat, hsize, hheads, hreset, -⟩ := h
  refine ⟨init ++ [a :: rest], now, [], ?_, ?_, ?_, rfl, rfl⟩
  · rw [List.flatten_append, hflat]
    simp [granted_concat]
  · intro g hg
    obtain hg | hg := List.mem_append.1 hg
    · exact hsize g hg
    · rw [List.mem_singleton.1 hg, List.length_singleton]
      exact ⟨List.cons_ne_nil _ _, by push_cast; omega⟩
  · rw [List.filterMap_append, List.pairwise_append]
    refine ⟨hheads, by simp, fun x hx y hy => ?_⟩
    obtain rfl : y = now := by simpa using hy
    -- the first member of the last group is the latest
    rw [List.filterMap_append] at hx hheads
    obtain hx | hx := List.mem_append.1 hx
    · have hxa := (List.pairwise_append.1 hheads).2.2 x hx a (by simp)
      omega
    · obtain rfl : x = a := by simpa using hx
      omega

/-- A request joins the last group as long as something remains. -/
theorem Groups.joined (h : Groups requests window log (some b)) (hremains : 0 < b.remaining) :
    Groups requests window (log ++ [(now, true)])
      (some { b with lastSeen := now, remaining := b.remaining - 1 }) := by
  obtain ⟨init, a, rest, hflat, hsize, hheads, hreset, hremaining⟩ := h
  refine ⟨init, a, rest ++ [now], ?_, ?_, ?_, hreset, ?_⟩
  · rw [granted_concat, ← hflat]
    simp
  · intro g hg
    obtain hg | hg := List.mem_append.1 hg
    · exact hsize g (List.mem_append_left _ hg)
    · rw [List.mem_singleton.1 hg]
      refine ⟨List.cons_ne_nil _ _, ?_⟩
      simp only [List.length_cons, List.length_append, List.length_nil]
      push_cast
      omega
  · simpa using hheads
  · simp only [hremaining, List.length_append, List.length_singleton]
    push_cast
    omega

theorem Groups.refused (h : Groups requests window log (some b)) :
    Groups requests window (log ++ [(now, false)]) (some { b with lastSeen := now }) := by
  obtain ⟨init, a, rest, hflat, hrest⟩ := h
  refine ⟨init, a, rest, ?_, hrest⟩
  rw [hflat, granted_concat]
  simp

end Groups

theorem Groups.step (hr : 0 < requests) (hw : 0 < window) {log : List (ℤ × Bool)}
    {o : Option Bucket} (now : ℤ) (h : Groups requests window log o) :
    Groups requests window (log ++ [(now, (hit requests window now o).2)])
      (some (hit requests window now o).1) := by
  cases o with
  | none =>
    have hempty : granted log = [] := h
    refine ⟨[], now, [], ?_, ?_, by simp, rfl, rfl⟩
    · simp [hit, granted_concat, hempty]
    · simp only [List.nil_append, List.mem_singleton, forall_eq, List.length_singleton]
      exact ⟨List.cons_ne_nil _ _, by push_cast; omega⟩
  | some b =>
    by_cases hover : b.resetAt < now
    · rw [hit_of_resetAt_lt hr hover]
      exact h.opened hr hw hover
    by_cases hempty : b.remaining ≤ 0
    · have hhit : hit requests window now (some b) = ({ b with lastSeen := now }, false) := by
        simp [hit, hover, hempty]
      rw [hhit]
      exact h.refused
    · have hhit : hit requests window now (some b) =
          ({ b with lastSeen := now, remaining := b.remaining - 1 }, true) := by
        simp [hit, hover, hempty]
      rw [hhit]
      exact h.joined (Int.not_le.1 hempty)

theorem groups_log (hr : 0 < requests) (hw : 0 < window) (times : List ℤ) :
    Groups requests window ((client requests window).log none times)
      ((client requests window).after none times) :=
  Machine.invariant (P := Groups requests window) rfl fun _ _ now _ h => h.step hr hw now

theorem Groups.grouped {log : List (ℤ × Bool)} {o : Option Bucket}
    (h : Groups requests window log o) : Grouped requests window (granted log) := by
  cases o with
  | none => exact ⟨[], h.symm, by simp, by simp⟩
  | some b =>
    obtain ⟨init, a, rest, hflat, hsize, hheads, -⟩ := h
    exact ⟨init ++ [a :: rest], hflat, hsize, hheads⟩

end Client

theorem ofKey_keeper_log (l : MemoryFixedWindow) (calls : List Call) (key : Text) :
    ofKey key (keeper.log l calls) =
      (client l.requests l.window).log (l.clients.buckets.lookup key) (timesOf key calls) := by
  refine Machine.log_filter (M := keeper) (N := client l.requests l.window) (f := Call.key)
    (g := Call.now) (v := fun s k => s.clients.buckets.lookup k)
    (P := fun s => s.requests = l.requests ∧ s.window = l.window) ⟨rfl, rfl⟩ ?_ ?_ ?_ key
  · exact fun s c h => h
  · rintro s c ⟨hr, hw⟩
    simp only [keeper, serve, client, hr, hw]
  · rintro s c k ⟨hr, hw⟩
    simp only [keeper, serve, client, hr, hw]
    rw [AList.lookup_insert_apply]
    by_cases hk : c.key = k
    · rw [if_pos hk.symm, if_pos hk, hk]
    · rw [if_neg (Ne.symm hk), if_neg hk]

/-! ### Dropping buckets is not observable -/

/-- The limiter `l` against the one that never drops a bucket: the buckets that `l` has dropped
were over at one of the calls so far. -/
structure Shadows (l₀ : MemoryFixedWindow) (past : List Call) (l k : MemoryFixedWindow) : Prop where
  requests : l.requests = l₀.requests ∧ k.requests = l₀.requests
  window : l.window = l₀.window ∧ k.window = l₀.window
  ttl : l.clients.ttl = l₀.clients.ttl
  maxKeys : l.clients.maxKeys = l₀.clients.maxKeys
  buckets : ∀ key, l.clients.buckets.lookup key = k.clients.buckets.lookup key ∨
    l.clients.buckets.lookup key = none ∧
      ∃ b c, k.clients.buckets.lookup key = some b ∧ c ∈ past ∧ b.resetAt < c.now
  seen : ∀ key b, l.clients.buckets.lookup key = some b →
    b.resetAt ≤ b.lastSeen + l₀.window ∧ ∃ c ∈ past, c.key = key ∧ b.lastSeen = c.now

namespace Shadows

variable {l₀ l k : MemoryFixedWindow} {past calls : List Call} {c : Call}

theorem size (h : Shadows l₀ past l k) (hpre : past <+: calls)
    (hkeys : ((calls.map Call.key).dedup.length : ℤ) ≤ l₀.clients.maxKeys) :
    (l.clients.buckets.keys.length : ℤ) ≤ l.clients.maxKeys := by
  have hle := AList.length_keys_le (s := l.clients.buckets) (l := (calls.map Call.key).dedup)
    fun key b hb => by
      obtain ⟨-, c, hc, rfl, -⟩ := h.seen key b hb
      exact List.mem_dedup.2 (List.mem_map_of_mem (hpre.subset hc))
  rw [h.maxKeys]
  omega

theorem mono (h : Shadows l₀ past l k) (hsub : past ⊆ calls) : Shadows l₀ calls l k where
  requests := h.requests
  window := h.window
  ttl := h.ttl
  maxKeys := h.maxKeys
  buckets key := (h.buckets key).imp_right fun ⟨hnone, b, c, hb, hc, hlt⟩ =>
    ⟨hnone, b, c, hb, hsub hc, hlt⟩
  seen key b hb := (h.seen key b hb).imp_right fun ⟨c, hc, hkey, hseen⟩ =>
    ⟨c, hsub hc, hkey, hseen⟩

theorem cleanup (h : Shadows l₀ past l k)
    (hsize : (l.clients.buckets.keys.length : ℤ) ≤ l.clients.maxKeys) (hw : 0 < l₀.window)
    (httl : l₀.window ≤ l₀.clients.ttl) (hc : c ∈ past) :
    Shadows l₀ past
      { l with clients := l.clients.maybeCleanup Bucket.lastSeen c.now c.ranges } k where
  requests := h.requests
  window := h.window
  ttl := by simpa using h.ttl
  maxKeys := by simpa using h.maxKeys
  buckets key := by
    obtain hsame | ⟨hnone, b, hb, hidle⟩ :=
      Table.lookup_maybeCleanup (f := Bucket.lastSeen) (n := c.now) (r := c.ranges) hsize key
    · dsimp only
      rw [hsame]
      exact h.buckets key
    · -- the bucket has been idle for a window
      obtain hkept | ⟨hgone, -⟩ := h.buckets key
      · refine .inr ⟨hnone, b, c, by rw [← hkept, hb], hc, ?_⟩
        have hreset := (h.seen key b hb).1
        rw [h.ttl] at hidle
        have := Duration.lt_of_lt_sub (by omega) hidle
        omega
      · rw [hgone] at hb
        cases hb
  seen key b hb := h.seen key b (Table.exists_of_lookup_maybeCleanup hsize hb)

theorem serve (h : Shadows l₀ past l k) (hr : 0 < l₀.requests)
    (hlast : ∀ d ∈ past, d.now ≤ c.now) (hc : c ∈ past) :
    (l.serve c).2 = (k.serve c).2 ∧ Shadows l₀ past (l.serve c).1 (k.serve c).1 := by
  have hhit : hit l₀.requests l₀.window c.now (l.clients.buckets.lookup c.key) =
      hit l₀.requests l₀.window c.now (k.clients.buckets.lookup c.key) := by
    obtain hsame | ⟨hnone, b, d, hb, hd, hover⟩ := h.buckets c.key
    · rw [hsame]
    · rw [hnone, hb, hit_of_resetAt_lt hr (hover.trans_le (hlast d hd))]
  have hreset : (hit l₀.requests l₀.window c.now
      (l.clients.buckets.lookup c.key)).1.resetAt ≤ c.now + l₀.window := by
    refine hit_resetAt_le fun b hb => ?_
    obtain ⟨hle, d, hd, -, hseen⟩ := h.seen c.key b hb
    have := hlast d hd
    omega
  unfold MemoryFixedWindow.serve
  simp only [h.requests, h.window, ← hhit]
  refine ⟨trivial, ⟨⟨rfl, rfl⟩, ⟨rfl, rfl⟩, h.ttl, h.maxKeys, fun key => ?_, ?_⟩⟩
  · simp only [AList.lookup_insert_apply]
    split_ifs with hkey
    · exact .inl rfl
    · exact h.buckets key
  · refine AList.forall_lookup_insert h.seen ⟨?_, c, hc, rfl, ?_⟩
    · rw [hit_lastSeen]
      exact hreset
    · rw [hit_lastSeen]

end Shadows

/-- The limiter decides like the one that never drops a bucket. -/
theorem log_eq_keeper_log {l : MemoryFixedWindow} {calls : List Call} (hr : 0 < l.requests)
    (hw : 0 < l.window) (hempty : l.clients.buckets = ∅) (httl : l.window ≤ l.clients.ttl)
    (hsorted : calls.Pairwise fun c d => c.now ≤ d.now)
    (hkeys : ((calls.map Call.key).dedup.length : ℤ) ≤ l.clients.maxKeys) :
    machine.log l calls = keeper.log l calls := by
  refine Machine.log_eq_of_simulation (R := Shadows l) ?_ fun past s t c hpre h => ?_
  · exact ⟨⟨rfl, rfl⟩, ⟨rfl, rfl⟩, rfl, rfl, fun _ => .inl rfl, by simp [hempty]⟩
  · have hsize := h.size ((List.prefix_append ..).trans hpre) hkeys
    have hc : c ∈ past ++ [c] := List.mem_append_right _ (List.mem_singleton_self c)
    have hlast : ∀ d ∈ past ++ [c], d.now ≤ c.now := by
      intro d hd
      obtain hd | hd := List.mem_append.1 hd
      · exact Machine.rel_of_prefix hsorted hpre d hd
      · rw [List.mem_singleton.1 hd]
    exact ((h.mono (List.subset_append_left ..)).cleanup hsize hw httl hc).serve hr hlast hc

/-! ### The constructor -/

theorem newMemoryFixedWindow_pos (requests window now : ℤ) :
    0 < (newMemoryFixedWindow requests window now).requests ∧
      0 < (newMemoryFixedWindow requests window now).window := by
  unfold newMemoryFixedWindow
  dsimp only
  constructor <;> split_ifs <;> first | omega | decide

/-- Whenever ten windows are a duration, a bucket lives longer than its window. -/
theorem newMemoryFixedWindow_window_le_ttl {requests window : ℤ} (now : ℤ)
    (h : 10 * window < 2 ^ 63) :
    (newMemoryFixedWindow requests window now).window ≤
      (newMemoryFixedWindow requests window now).clients.ttl := by
  have hminute : Duration.wrap (10 * Duration.minute) = 10 * Duration.minute := by decide
  unfold newMemoryFixedWindow
  dsimp only
  by_cases hw : window ≤ 0
  · rw [if_pos hw, hminute]
    decide
  · rw [if_neg hw, Duration.wrap_of_lt (by omega) h]
    split_ifs <;> omega

/-- If a bucket lives at least as long as its window, as it does unless `10 * window` overflows, the
limiter decides like the one that never drops a bucket.  The decisions for a key depend only on the
times of its own calls, and the requests allowed for a key come in groups of at most `requests`
whose first members are more than a window apart. -/
theorem fixed_window_decisions (requests window start : ℤ) (calls : List Call)
    (hsorted : calls.Pairwise fun c d => c.now ≤ d.now)
    (hkeys : ((calls.map Call.key).dedup.length : ℤ) ≤
      (newMemoryFixedWindow requests window start).clients.maxKeys)
    (httl : (newMemoryFixedWindow requests window start).window ≤
      (newMemoryFixedWindow requests window start).clients.ttl) :
    let l := newMemoryFixedWindow requests window start
    machine.log l calls = keeper.log l calls ∧
    (∀ key, ofKey key (machine.log l calls) =
      (client l.requests l.window).log none (timesOf key calls)) ∧
    ∀ key, Grouped l.requests l.window (granted (ofKey key (machine.log l calls))) := by
  intro l
  obtain ⟨hr, hw⟩ := newMemoryFixedWindow_pos requests window start
  have hlog := log_eq_keeper_log (l := l) hr hw rfl httl hsorted hkeys
  have hkey (key : Text) : ofKey key (machine.log l calls) =
      (client l.requests l.window).log none (timesOf key calls) := by
    rw [hlog]
    exact ofKey_keeper_log l calls key
  refine ⟨hlog, hkey, fun key => ?_⟩
  rw [hkey]
  exact (groups_log hr hw _).grouped

/-- Two requests in ten seconds, the third rejected; then the bucket is dropped by the call for
another key. -/
theorem fixed_window_decisions_after_idle :
    (machine.log (newMemoryFixedWindow 2 (10 * Duration.second) 0)
      [callAt "a" 0, callAt "a" 1, callAt "a" 2, callAt "b" (200 * Duration.second),
        callAt "a" (201 * Duration.second)]).map Prod.snd = [true, true, false, true, true] ∧
    machine.log (newMemoryFixedWindow 2 (10 * Duration.second) 0)
      [callAt "a" 0, callAt "a" 1, callAt "a" 2, callAt "b" (200 * Duration.second),
        callAt "a" (201 * Duration.second)] =
    keeper.log (newMemoryFixedWindow 2 (10 * Duration.second) 0)
      [callAt "a" 0, callAt "a" 1, callAt "a" 2, callAt "b" (200 * Duration.second),
        callAt "a" (201 * Duration.second)] :=
  ⟨by decide, (fixed_window_decisions 2 (10 * Duration.second) 0 _ (by decide)
    (by decide) (newMemoryFixedWindow_window_le_ttl 0 (by decide))).1⟩

/-- With windows of thirty years the time to live is a minute: a second request in the same window
is allowed, because a cleanup has dropped the bucket. -/
theorem long_window_forgets :
    (newMemoryFixedWindow 1 (30 * 365 * 86400 * Duration.second) 0).clients.ttl = Duration.minute ∧
    (machine.log (newMemoryFixedWindow 1 (30 * 365 * 86400 * Duration.second) 0)
      [callAt "a" (30 * 365 * 86400 * Duration.second - 2 * Duration.minute),
        callAt "a" (30 * 365 * 86400 * Duration.second)]).map Prod.snd = [true, true] ∧
    (keeper.log (newMemoryFixedWindow 1 (30 * 365 * 86400 * Duration.second) 0)
      [callAt "a" (30 * 365 * 86400 * Duration.second - 2 * Duration.minute),
        callAt "a" (30 * 365 * 86400 * Duration.second)]).map Prod.snd = [true, false] := by
  decide

/-! ### Bursts -/

/-- How many of the requests allowed came in the window that begins at `t` -/
def burst (window t : ℤ) (log : List (ℤ × Bool)) : ℕ :=
  (granted log).countP fun now => t ≤ now ∧ now ≤ t + window

theorem burst_concat (window t now : ℤ) (log : List (ℤ × Bool)) (ok : Bool) :
    burst window t (log ++ [(now, ok)]) =
      burst window t log + if ok ∧ t ≤ now ∧ now ≤ t + window then 1 else 0 := by
  rw [burst, granted_concat, List.countP_append]
  cases ok <;> simp [burst, List.countP_singleton]

/-- If the last group began before `t`, the burst is a part of it without its first member; if it
began in the window of `t`, the group before may have a part in the burst as well. -/
def Spread (requests window t : ℤ) (log : List (ℤ × Bool)) : Option Bucket → Prop
  | none => burst window t log = 0
  | some b => burst window t log < 2 * requests ∧
      b.resetAt ≤ b.lastSeen + window ∧ 0 ≤ b.remaining ∧ (∃ p ∈ log, p.1 = b.lastSeen) ∧
      (b.lastSeen < t → burst window t log = 0) ∧
      (b.resetAt < t + window → burst window t log + b.remaining < requests) ∧
      (b.resetAt ≤ t + 2 * window → burst window t log + b.remaining < 2 * requests)

section Spread

variable {requests window t now : ℤ} {log : List (ℤ × Bool)} {o : Option Bucket}

theorem Spread.burst_lt (hr : 0 < requests) (h : Spread requests window t log o) :
    burst window t log < 2 * requests := by
  cases o with
  | none =>
    rw [show burst window t log = 0 from h]
    omega
  | some b => exact h.1

theorem Spread.step (hr : 0 < requests) (hw : 0 < window) (h : Spread requests window t log o)
    (hnow : ∀ p ∈ log, p.1 ≤ now) :
    Spread requests window t (log ++ [(now, (hit requests window now o).2)])
      (some (hit requests window now o).1) := by
  have hmem : ∃ p ∈ log ++ [(now, (hit requests window now o).2)], p.1 = now :=
    ⟨_, List.mem_append_right _ (List.mem_singleton_self _), rfl⟩
  cases o with
  | none =>
    have hzero : burst window t log = 0 := h
    simp only [Spread, hit, burst_concat, hzero] at hmem ⊢
    refine ⟨?_, by omega, by omega, hmem, ?_⟩ <;> split_ifs <;> simp <;> omega
  | some b =>
    obtain ⟨hall, hreset, hpos, ⟨p, hp, hseen⟩, hbefore, hfirst, hsecond⟩ := h
    have hlast := hnow p hp
    simp only [Spread, hit_lastSeen, burst_concat]
    simp only [hit] at hmem ⊢
    -- a new group or the last one, with a request refused or allowed
    split_ifs at hmem ⊢ <;> refine ⟨?_, ?_, ?_, hmem, ?_⟩ <;> simp_all <;> omega

end Spread

/-- **Fewer than twice the limit in any window.**  Of the requests for a key fewer than
`2 * requests` are allowed in any period as long as a window, wherever it begins. -/
theorem fixed_window_burst (requests window start : ℤ) (calls : List Call)
    (hsorted : calls.Pairwise fun c d => c.now ≤ d.now)
    (hkeys : ((calls.map Call.key).dedup.length : ℤ) ≤
      (newMemoryFixedWindow requests window start).clients.maxKeys)
    (hwindow : 10 * window < 2 ^ 63) (key : Text) (t : ℤ) :
    let l := newMemoryFixedWindow requests window start
    burst l.window t (ofKey key (machine.log l calls)) < 2 * l.requests := by
  intro l
  obtain ⟨hr, hw⟩ := newMemoryFixedWindow_pos requests window start
  rw [log_eq_keeper_log (l := l) hr hw rfl (newMemoryFixedWindow_window_le_ttl start hwindow)
    hsorted hkeys, ofKey_keeper_log]
  have htimes : (timesOf key calls).Pairwise (· ≤ ·) := List.pairwise_map.2 (hsorted.filter _)
  exact Spread.burst_lt hr (Machine.invariant (P := Spread l.requests l.window t) rfl
    fun log b now hpre h => h.step hr hw fun p hp =>
      Machine.rel_of_prefix htimes hpre _ (List.mem_map_of_mem hp))

/-- Two requests in ten seconds: three are allowed within two nanoseconds. -/
theorem fixed_window_burst_edge :
    let l := newMemoryFixedWindow 2 (10 * Duration.second) 0
    ∃ calls, burst l.window l.window (ofKey "a" (machine.log l calls)) = 3 ∧
      burst l.window l.window (ofKey "a" (machine.log l calls)) < 2 * l.requests :=
  ⟨_, by decide, fixed_window_burst 2 (10 * Duration.second) 0
    [callAt "a" 0, callAt "a" (10 * Duration.second), callAt "a" (10 * Duration.second + 1),
      callAt "a" (10 * Duration.second + 2)] (by decide) (by decide) (by decide) "a" _⟩

end RateLimit

end GinRpc
