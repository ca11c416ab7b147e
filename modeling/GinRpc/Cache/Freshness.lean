import GinRpc.Cache.Failover

/-!
# Fresh values and their lifetime in the failover cache

`lastValue` reads off a trace the value given to the last `Set` of a key with a nil error, if no
`Delete` or `Clear` with a nil error came later.

* `get_returns_last_value` : `Get` returns this value or none, and a `Set` with a nil error has
  stored its value, along every run in which each `Set` reaches every storage that holds the key.
* `set_skips_unhealthy` : otherwise a storage that was skipped can answer with an old value, and a
  `Set` that finds no healthy storage stores nothing and returns nil.
* `get_before_deadline` : a value is not returned after its deadline, along every run in which it is
  copied only from entries with at least five minutes left.
* `restore_extends_lifetime` : a copy gets five minutes of its own.
-/

namespace GinRpc

namespace Cache

open FailoverCache

variable {V : Type} {s : Deployment V} {tr : List (Occurrence V)}

/-! ### The last value -/

/-- What an occurrence leaves of the value of a key. -/
def Occurrence.leave (key : Text) (value : Option V) (o : Occurrence V) : Option V :=
  match o.event with
  | .set k v _ => if k = key ∧ o.answer.isNil = true then some v else value
  | .delete k => if k = key ∧ o.answer.isNil = true then none else value
  | .clear => if o.answer.isNil = true then none else value
  | _ => value

/-- The value given to the last `Set` of a key that returned nil, if no `Delete` that returned nil
came later. -/
def lastValue (key : Text) (tr : List (Occurrence V)) : Option V :=
  tr.foldl (Occurrence.leave key) none

theorem lastValue_concat (key : Text) (tr : List (Occurrence V)) (o : Occurrence V) :
    lastValue key (tr ++ [o]) = o.leave key (lastValue key tr) := by
  simp [lastValue]

/-- `Set` of the key has some storage to write to.  Either it reaches none of them, or it reaches
all of them and what it skips does not hold the key. -/
def FailoverCache.Reaches (fc : FailoverCache V) (now : ℤ) (key : Text) : Prop :=
  (∃ l, fc.isUsed l = true) ∧
    ((∀ l, fc.available l = false) ∨
      (∀ l, fc.isUsed l = true → fc.up l = true) ∧
        ∀ l, fc.available l = false → live now ((fc.store l).lookup key) = none)

/-- Every `Set` reaches the storages that hold its key. -/
def Reaching (s : Deployment V) (o : Occurrence V) : Prop :=
  match o.event with
  | .set key _ _ => s.cache.Reaches o.now key
  | _ => True

theorem live_of_le {entry : Option (CacheEntry V)} {e : CacheEntry V} {t now : ℤ} (h : t ≤ now)
    (he : live now entry = some e) : live t entry = some e := by
  rw [live_eq_some_iff] at he ⊢
  refine ⟨he.1, Bool.eq_false_of_not_eq_true fun hexp => ?_⟩
  rw [CacheEntry.isExpired_mono h hexp] at he
  exact Bool.noConfusion he.2

/-- The storages hold last values only. -/
structure Fresh (tr : List (Occurrence V)) (s : Deployment V) : Prop where
  value : ∀ l k e, live s.now ((s.cache.store l).lookup k) = some e →
    lastValue k tr = some e.data
  present : ∀ l k e, live s.now ((s.cache.store l).lookup k) = some e →
    s.cache.present l = true

theorem present_of_available {fc : FailoverCache V} {l : Level} (h : fc.available l = true) :
    fc.present l = true := by
  simp only [available, isUsed, Bool.and_eq_true] at h
  exact h.1.2

/-- A nil error of a call that has not reached a storage. -/
theorem not_isNil_of_kept {fc : FailoverCache V} {now : ℤ} {l : Level} {k : Text}
    {e : CacheEntry V} {ev : Event V} (hlive : live now ((fc.store l).lookup k) = some e)
    (hp : fc.present l = true)
    (hset : ∀ value ttl, ev = .set k value ttl → fc.available l = false ∧ fc.Reaches now k)
    (hdel : ev = .delete k ∨ ev = .clear → ¬ (fc.present l = true ∧ fc.up l = true))
    (hev : (∃ value ttl, ev = .set k value ttl) ∨ ev = .delete k ∨ ev = .clear) :
    ¬ (fc.perform now ev).2.isNil = true := by
  intro hnil
  obtain ⟨value, ttl, rfl⟩ | rfl | rfl := hev
  · have hall := set_snd_eq_nil.1 (List.isEmpty_iff.1 hnil)
    obtain ⟨hskip, ⟨l', hused⟩, hnone | ⟨-, hgone⟩⟩ := hset value ttl rfl
    · have ha := hnone l'
      rw [available, hused, hall l' hused] at ha
      cases ha
    · rw [hgone l hskip] at hlive
      cases hlive
  · exact hdel (.inl rfl) ⟨hp, delete_snd_eq_nil.1 (List.isEmpty_iff.1 hnil) l hp⟩
  · exact hdel (.inr rfl) ⟨hp, clear_snd_eq_nil.1 (List.isEmpty_iff.1 hnil) l hp⟩

/-- A value survives every occurrence but those that set or remove it with a nil error. -/
theorem leave_eq_self {k : Text} {v : V} {o : Occurrence V}
    (h : (∃ value ttl, o.event = .set k value ttl) ∨ o.event = .delete k ∨ o.event = .clear →
      ¬ o.answer.isNil = true) : o.leave k (some v) = some v := by
  unfold Occurrence.leave
  cases hev : o.event with
  | get | outage | updateHealthStatus => rfl
  | set key value ttl =>
    rw [hev] at h
    refine if_neg fun hc => h (.inl ⟨value, ttl, ?_⟩) hc.2
    rw [hc.1]
  | delete key =>
    rw [hev] at h
    refine if_neg fun hc => h (.inr (.inl ?_)) hc.2
    rw [hc.1]
  | clear =>
    rw [hev] at h
    exact if_neg (h (.inr (.inr rfl)))

/-- A value that `Set` has written is the last value. -/
theorem leave_of_written {fc : FailoverCache V} {now : ℤ} {l : Level} {k : Text} {v : V} {ttl : ℤ}
    (hreach : fc.Reaches now k) (ha : fc.available l = true) (value : Option V) :
    Occurrence.leave k value ⟨now, .set k v ttl, (fc.perform now (.set k v ttl)).2⟩ = some v := by
  obtain ⟨-, hnone | ⟨hall, -⟩⟩ := hreach
  · rw [hnone l] at ha
    cases ha
  · exact if_pos ⟨rfl, List.isEmpty_iff.2 (set_snd_eq_nil.2 hall)⟩

theorem Fresh.step {o : Occurrence V} {s' : Deployment V} (hI : Fresh tr s) (hok : Reaching s o)
    (hst : (deployments V).step s o s') : Fresh (tr ++ [o]) s' := by
  obtain ⟨now, ev, answer⟩ := o
  obtain ⟨hle, rfl, hans⟩ := hst
  dsimp only at hle hans ⊢
  subst hans
  have hpast : ∀ l k e, live now ((s.cache.store l).lookup k) = some e →
      lastValue k tr = some e.data ∧ s.cache.present l = true := fun l k e he =>
    ⟨hI.value l k e (live_of_le hle he), hI.present l k e (live_of_le hle he)⟩
  constructor
  · intro l k e he
    rw [lastValue_concat]
    obtain ⟨hlive, hset, hdel⟩ | ⟨ha, rfl⟩ | ⟨hf, -, -, rfl⟩ := source_of_perform he
    · obtain ⟨hv, hp⟩ := hpast l k e hlive
      rw [hv]
      refine leave_eq_self fun hev => not_isNil_of_kept hlive hp ?_ hdel hev
      rintro value ttl rfl
      exact ⟨hset value ttl rfl, hok⟩
    · exact leave_of_written hok ha _
    · exact (hpast _ k _ (found_spec hf).2).1
  · intro l k e he
    change (s.cache.perform now ev).1.present l = true
    rw [perform_present]
    obtain ⟨hlive, -, -⟩ | ⟨ha, -⟩ | ⟨-, -, ha, -⟩ := source_of_perform he
    · exact (hpast l k e hlive).2
    · exact present_of_available ha
    · exact present_of_available ha

theorem Fresh.of_run (h : (deployments V).Run Reaching tr s) : Fresh tr s := by
  refine h.traced (fun s hs => ?_) fun tr s o s' hI hok hst => hI.step hok hst
  obtain ⟨present, up, now, rfl⟩ := hs
  exact ⟨fun _ _ _ he => (by cases he), fun _ _ _ he => (by cases he)⟩

/-- Along every run in which each `Set` reaches every storage that holds its key, `Get` returns the
last value or none, and a `Set` that returns nil has stored its value. -/
theorem get_returns_last_value (h : (deployments V).Run Reaching tr s) {now : ℤ}
    (hnow : s.now ≤ now) (key : Text) :
    (∀ value, (s.cache.get now key).2 = some value → lastValue key tr = some value) ∧
    ∀ value ttl, s.cache.Reaches now key → (s.cache.set now key value ttl).2 = [] →
      ∃ l, s.cache.present l = true ∧
        ((s.cache.set now key value ttl).1.store l).lookup key = some ⟨value, now, ttl⟩ := by
  constructor
  · intro value hv
    rw [get_snd] at hv
    obtain ⟨⟨l, e⟩, hf, rfl⟩ := Option.map_eq_some_iff.1 hv
    exact (Fresh.of_run h).value l key e (live_of_le hnow (found_spec hf).2)
  · intro value ttl hreach hnil
    obtain ⟨⟨l, hused⟩, -⟩ := hreach
    have ha : s.cache.available l = true := by
      rw [available, hused, set_snd_eq_nil.1 hnil l hused]
      rfl
    exact ⟨l, present_of_available ha, by rw [lookup_set, if_pos ⟨ha, rfl⟩]⟩

/-- A cache over the storages that are reachable at first, the third one being absent. -/
def twoLevels (up : Level → Bool) : Deployment ℕ := ⟨.initial (fun l => l != .tertiary) up, 0⟩

theorem twoLevels_init (up : Level → Bool) : (deployments ℕ).init (twoLevels up) :=
  ⟨_, _, _, rfl⟩

theorem get_returns_value_just_set :
    ∃ tr s, (deployments ℕ).Run Reaching tr s ∧ (s.cache.get 1 "k").2 = some 7 ∧
      lastValue "k" tr = some 7 := by
  have hrun := (LTS.Run.nil (twoLevels_init fun _ => true) :
    (deployments ℕ).Run Reaching _ _).extend ⟨0, .set "k" 7 Duration.minute, .errors []⟩
    ⟨⟨.primary, rfl⟩, .inr ⟨fun l _ => (by cases l <;> rfl), fun _ _ => rfl⟩⟩
    ⟨le_rfl, rfl, by decide⟩
  refine ⟨_, _, hrun, ?_, ?_⟩
  · decide
  · exact (get_returns_last_value hrun (by decide : (_ : ℤ) ≤ 1) "k").1 7 (by decide)

/-- The first storage misses a `Set` while it cannot be reached and answers afterwards with the old
value; and a `Set` that finds no healthy storage returns nil and stores nothing. -/
theorem set_skips_unhealthy :
    (∃ tr s, (deployments ℕ).Run LTS.anyStep tr s ∧ s.now ≤ 6 ∧
      (s.cache.get 6 "k").2 = some 1 ∧ lastValue "k" tr = some 2) ∧
    ∃ tr s, (deployments ℕ).Run LTS.anyStep tr s ∧
      (s.cache.set 0 "k" 1 Duration.minute).2 = [] ∧
      ∀ l ∈ levels,
        ((s.cache.set 0 "k" 1 Duration.minute).1.store l).lookup ("k" : Text) = none := by
  constructor
  · obtain ⟨s, hrun, hs⟩ := LTS.exists_run_of_exec
      (fun _ _ _ => Deployment.step_of_next) (twoLevels_init fun _ => true)
      [⟨0, .set "k" 1 Duration.minute, .errors []⟩, ⟨1, .outage .primary false, .silent⟩,
        ⟨2, .updateHealthStatus, .silent⟩, ⟨3, .set "k" 2 Duration.minute, .errors []⟩,
        ⟨4, .outage .primary true, .silent⟩, ⟨5, .updateHealthStatus, .silent⟩]
      (P := fun s => s.now ≤ 6 ∧ (s.cache.get 6 "k").2 = some 1) (by decide) fun _ _ h => h
    exact ⟨_, s, hrun, hs.1, hs.2, by decide⟩
  · exact ⟨[], _, .nil (twoLevels_init fun _ => false), by decide, by decide⟩

/-! ### Deadlines -/

/-- A value is copied only if the entry in which it is found lasts at least as long as the copy,
and no value is set for the longest duration, which never passes. -/
def Prompt (s : Deployment V) (o : Occurrence V) : Prop :=
  match o.event with
  | .get key => ∀ l₀ e l, s.cache.found o.now key = some (l₀, e) → l.rank < l₀.rank →
      s.cache.available l = true → o.now + restoreTTL ≤ e.timestamp + e.ttl
  | .set _ _ ttl => ttl < Duration.longest
  | _ => True

/-- Every entry ends no later than the value that some `Set` has given to its key. -/
def Timely (tr : List (Occurrence V)) (s : Deployment V) : Prop :=
  ∀ l k e, live s.now ((s.cache.store l).lookup k) = some e →
    e.ttl < Duration.longest ∧
      ∃ o ∈ tr, ∃ d, o.event = .set k e.data d ∧ e.timestamp + e.ttl ≤ o.now + d

theorem Timely.step {o : Occurrence V} {s' : Deployment V} (hI : Timely tr s) (hok : Prompt s o)
    (hst : (deployments V).step s o s') : Timely (tr ++ [o]) s' := by
  obtain ⟨now, ev, answer⟩ := o
  obtain ⟨hle, rfl, -⟩ := hst
  dsimp only at hle ⊢
  -- an entry that was there before, seen from the longer trace
  have hpast : ∀ l k e, live now ((s.cache.store l).lookup k) = some e →
      e.ttl < Duration.longest ∧ ∃ o ∈ tr ++ [⟨now, ev, answer⟩], ∃ d,
        o.event = .set k e.data d ∧ e.timestamp + e.ttl ≤ o.now + d := by
    intro l k e he
    obtain ⟨hlong, o, ho, d, hset, hd⟩ := hI l k e (live_of_le hle he)
    exact ⟨hlong, o, List.mem_append_left _ ho, d, hset, hd⟩
  intro l k e he
  obtain ⟨hlive, -, -⟩ | ⟨-, rfl⟩ | ⟨hf, hrank, ha, rfl⟩ := source_of_perform he
  · exact hpast l k e hlive
  · exact ⟨hok, _, List.mem_append_right _ (List.mem_singleton_self _), _, rfl, le_rfl⟩
  · obtain ⟨-, o, ho, d, hset, hd⟩ := hpast _ k _ (found_spec hf).2
    exact ⟨(by decide : restoreTTL < _), o, ho, d, hset, (hok _ _ l hf hrank ha).trans hd⟩

/-- What `Get` returns has been set, and its deadline has not passed. -/
theorem exists_set_of_get (h : (deployments V).Run Prompt tr s) {now : ℤ} (hnow : s.now ≤ now)
    {key : Text} {value : V} (hget : (s.cache.get now key).2 = some value) :
    ∃ o ∈ tr, ∃ d, o.event = .set key value d ∧ now ≤ o.now + d := by
  have htimely : Timely tr s := by
    refine h.traced (fun s hs => ?_) fun tr s o s' hI hok hst => hI.step hok hst
    obtain ⟨present, up, now, rfl⟩ := hs
    exact fun _ _ _ he => (by cases he)
  rw [get_snd] at hget
  obtain ⟨⟨l, e⟩, hf, rfl⟩ := Option.map_eq_some_iff.1 hget
  have hlive := (found_spec hf).2
  obtain ⟨hlong, o, ho, d, hset, hd⟩ := htimely l key e (live_of_le hnow hlive)
  have hexp := (live_eq_some_iff.1 hlive).2
  rw [CacheEntry.isExpired, decide_eq_false_iff_not, not_lt] at hexp
  have hage := Duration.sub_le_of_sub_le hlong hexp
  exact ⟨o, ho, d, hset, by omega⟩

/-- Along every run in which values are copied only from entries that last at least as long as the
copy, a value that was set once, at time `t` for the duration `d`, is not returned after `t + d`. -/
theorem get_before_deadline (h : (deployments V).Run Prompt tr s) {now t d : ℤ} (hnow : s.now ≤ now)
    {key : Text} {value : V}
    (honce : ∀ o ∈ tr, ∀ d', o.event = .set key value d' → o.now = t ∧ d' = d)
    (hget : (s.cache.get now key).2 = some value) : now ≤ t + d := by
  obtain ⟨o, ho, d', hset, hd⟩ := exists_set_of_get h hnow hget
  obtain ⟨rfl, rfl⟩ := honce o ho d' hset
  exact hd

/-- The first storage recovers after a value has been set in the second one. -/
def recovery (ttl : ℤ) : List (Occurrence ℕ) :=
  [⟨0, .set "k" 1 ttl, .errors []⟩, ⟨1, .outage .primary true, .silent⟩,
    ⟨2, .updateHealthStatus, .silent⟩]

/-- A `Get` restores the value for five of its last nine minutes. -/
theorem get_before_deadline_of_long_value :
    ∃ tr s, (deployments ℕ).Run Prompt tr s ∧ (s.cache.get (6 * Duration.minute) "k").2 = some 1 ∧
      6 * Duration.minute ≤ 0 + 10 * Duration.minute := by
  have hrun := (((LTS.Run.nil (twoLevels_init fun l => l != .primary) :
    (deployments ℕ).Run Prompt _ _).extend
      ⟨0, .set "k" 1 (10 * Duration.minute), .errors []⟩ (by decide : (_ : ℤ) < _)
      ⟨le_rfl, rfl, by decide⟩).extend
      ⟨1, .outage .primary true, .silent⟩ trivial ⟨by decide, rfl, rfl⟩).extend
      ⟨2, .updateHealthStatus, .silent⟩ trivial ⟨by decide, rfl, rfl⟩
  have hrun' := hrun.extend ⟨Duration.minute, .get "k", .value (some 1)⟩ (by
    intro l₀ e l hf hl ha
    have hfound : some (l₀, e) = some (Level.secondary, (⟨1, 0, 10 * Duration.minute⟩ :
        CacheEntry ℕ)) := hf.symm.trans (by decide)
    cases hfound
    decide) ⟨by decide, rfl, by decide⟩
  have key : ∀ s, (deployments ℕ).Run Prompt
      (recovery (10 * Duration.minute) ++ [⟨Duration.minute, .get "k", .value (some 1)⟩]) s →
      s.now ≤ 6 * Duration.minute → (s.cache.get (6 * Duration.minute) "k").2 = some 1 →
      6 * Duration.minute ≤ 0 + 10 * Duration.minute := fun s hs hle hget =>
    get_before_deadline hs hle (by simp [recovery]) hget
  exact ⟨_, _, hrun', by decide, key _ hrun' (by decide) (by decide)⟩

/-- A value that was set for one minute is returned after two. -/
theorem restore_extends_lifetime :
    ∃ tr s, (deployments ℕ).Run LTS.anyStep tr s ∧ s.now ≤ 2 * Duration.minute ∧
      tr = recovery Duration.minute ++ [⟨3, .get "k", .value (some 1)⟩] ∧
      (s.cache.get (2 * Duration.minute) "k").2 = some 1 := by
  refine ⟨recovery Duration.minute ++ [⟨3, .get "k", .value (some 1)⟩], ?_⟩
  refine LTS.exists_run_of_exec (fun _ _ _ => Deployment.step_of_next)
    (twoLevels_init fun l => l != .primary) _
    (P := fun s => s.now ≤ 2 * Duration.minute ∧
      (s.cache.get (2 * Duration.minute) "k").2 = some 1) (by decide) fun s hrun hs => ?_
  exact ⟨hs.1, rfl, hs.2⟩

end Cache

end GinRpc
