import GinRpc.Cache.Storage
import GinRpc.LTS.Basic

/-!
# The failover cache

Model of `FailoverCache` in `plugins/cache/failover/failover.go` over three storages in memory, any
of which may be missing.  A storage that cannot be reached keeps its contents and answers with an
error; the cache learns of it at the next `updateHealthStatus`.

* `FailoverCache.get_snd`, `live_lookup_get` : what `Get` returns, and what it leaves in each
  storage.
* `lookup_set`, `lookup_delete`, `lookup_clear` : what the other calls leave in each storage, and
  `set_snd_eq_nil`, `delete_snd_eq_nil`, `clear_snd_eq_nil` : when their error is nil.
* `Deployment.machine` : the cache with a clock, under calls, outages and health checks.
-/

namespace GinRpc

namespace Cache

/-- The three storages. -/
inductive Level where
  | primary
  | secondary
  | tertiary
  deriving DecidableEq, Repr

/-- The storages in the order in which they are tried. -/
def levels : List Level := [.primary, .secondary, .tertiary]

def Level.rank : Level → ℕ
  | .primary => 0
  | .secondary => 1
  | .tertiary => 2

structure FailoverCache (V : Type) where
  /-- the storage is not nil -/
  present : Level → Bool
  /-- the storage can be reached -/
  up : Level → Bool
  store : Level → MemoryStorage V
  healthStatus : Level → Bool

/-- How long a restored value is kept. -/
def restoreTTL : ℤ := 5 * Duration.minute

namespace FailoverCache

variable {V : Type} (fc : FailoverCache V)

/-- Replace the contents of one storage. -/
def setStore (l : Level) (m : MemoryStorage V) : FailoverCache V :=
  { fc with store := Function.update fc.store l m }

/-- `fc.isHealthy("…") && fc.… != nil` -/
def isUsed (l : Level) : Bool := fc.healthStatus l && fc.present l

/-- `Get` of one storage; a storage that cannot be reached finds nothing. -/
def tryGet (now : ℤ) (l : Level) (key : Text) : FailoverCache V × Option V :=
  if fc.isUsed l && fc.up l then
    (fc.setStore l ((fc.store l).get now key).1, ((fc.store l).get now key).2)
  else (fc, none)

/-- Copy a value into a storage; errors are dropped. -/
def restore (now : ℤ) (l : Level) (key : Text) (value : V) : FailoverCache V :=
  if fc.isUsed l && fc.up l then fc.setStore l ((fc.store l).set now key value restoreTTL) else fc

/-- Try the storages in order.  A value that is found late is restored into the earlier ones. -/
def get (now : ℤ) (key : Text) : FailoverCache V × Option V :=
  let r₁ := fc.tryGet now .primary key
  match r₁.2 with
  | some value => (r₁.1, some value)
  | none =>
    let r₂ := r₁.1.tryGet now .secondary key
    match r₂.2 with
    | some value => (r₂.1.restore now .primary key value, some value)
    | none =>
      let r₃ := r₂.1.tryGet now .tertiary key
      match r₃.2 with
      | some value =>
        ((r₃.1.restore now .primary key value).restore now .secondary key value, some value)
      | none => (r₃.1, none)

/-- Do something with one storage if it is to be used; the storages that fail are collected. -/
def attempt (used : Bool) (f : MemoryStorage V → MemoryStorage V)
    (acc : FailoverCache V × List Level) (l : Level) : FailoverCache V × List Level :=
  if used then
    if acc.1.up l then (acc.1.setStore l (f (acc.1.store l)), acc.2) else (acc.1, acc.2 ++ [l])
  else acc

/-- Store a value in all healthy storages.  The storages that report an error are returned; the
error is nil if there are none. -/
def set (now : ℤ) (key : Text) (value : V) (ttl : ℤ) : FailoverCache V × List Level :=
  levels.foldl (fun acc l => attempt (fc.isUsed l) (·.set now key value ttl) acc l) (fc, [])

/-- Delete a key in all storages, healthy or not. -/
def delete (key : Text) : FailoverCache V × List Level :=
  levels.foldl (fun acc l => attempt (fc.present l) (·.delete key) acc l) (fc, [])

/-- Remove everything from all storages, healthy or not. -/
def clear : FailoverCache V × List Level :=
  levels.foldl (fun acc l => attempt (fc.present l) (·.clear) acc l) (fc, [])

/-- `HealthCheck` of every storage that is there. -/
def updateHealthStatus : FailoverCache V :=
  { fc with healthStatus := fun l => fc.present l && fc.up l }

/-- The storages that a call reaches. -/
def available (l : Level) : Bool := fc.isUsed l && fc.up l

/-- What `Get` finds in one storage. -/
def hit (now : ℤ) (key : Text) (l : Level) : Option (CacheEntry V) :=
  if fc.available l then live now ((fc.store l).lookup key) else none

/-- What `Get` finds, and where. -/
def found (now : ℤ) (key : Text) : Option (Level × CacheEntry V) :=
  levels.findSome? fun l => (fc.hit now key l).map (l, ·)

/-! ### One storage -/

variable {fc} {now : ℤ} {key : Text} {l : Level}

theorem tryGet_snd : (fc.tryGet now l key).2 = (fc.hit now key l).map CacheEntry.data := by
  unfold tryGet hit available
  split_ifs
  · exact MemoryStorage.get_snd
  · rfl

/-- Reading a storage changes no flag. -/
theorem tryGet_flags : (fc.tryGet now l key).1.present = fc.present ∧
    (fc.tryGet now l key).1.up = fc.up ∧
    (fc.tryGet now l key).1.healthStatus = fc.healthStatus := by
  unfold tryGet
  split_ifs <;> exact ⟨rfl, rfl, rfl⟩

@[simp] theorem available_tryGet : (fc.tryGet now l key).1.available = fc.available := by
  obtain ⟨hp, hu, hh⟩ : (fc.tryGet now l key).1.present = _ ∧ _ ∧ _ := tryGet_flags
  funext l'
  simp only [available, isUsed, hp, hu, hh]

@[simp] theorem live_lookup_tryGet (l' : Level) (k : Text) :
    live now (((fc.tryGet now l key).1.store l').lookup k) = live now ((fc.store l').lookup k) := by
  unfold tryGet
  split_ifs
  · by_cases hl : l' = l
    · subst hl
      simp only [setStore, Function.update_self]
      exact MemoryStorage.live_lookup_get le_rfl k
    · simp only [setStore, Function.update_of_ne hl]
  · rfl

@[simp] theorem hit_tryGet (l' : Level) (k : Text) :
    (fc.tryGet now l key).1.hit now k l' = fc.hit now k l' := by
  simp [hit]

@[simp] theorem available_restore {value : V} :
    (fc.restore now l key value).available = fc.available := by
  unfold restore
  split_ifs <;> rfl

theorem lookup_restore {value : V} (l' : Level) (k : Text) :
    ((fc.restore now l key value).store l').lookup k =
      if l' = l ∧ k = key ∧ fc.available l = true then some ⟨value, now, restoreTTL⟩
      else (fc.store l').lookup k := by
  unfold restore available
  by_cases ha : (fc.isUsed l && fc.up l) = true
  · by_cases hl : l' = l
    · subst hl
      simp only [ha, ↓reduceIte, setStore, Function.update_self, MemoryStorage.set,
        AList.lookup_insert_apply, true_and, and_true]
    · simp only [ha, ↓reduceIte, setStore, Function.update_of_ne hl, hl, false_and]
  · simp only [ha, and_false, ↓reduceIte, Bool.false_eq_true]

/-! ### `Get` -/

theorem found_of_primary {e : CacheEntry V} (h : fc.hit now key .primary = some e) :
    fc.found now key = some (.primary, e) := by
  simp [found, levels, h]

theorem found_of_secondary {e : CacheEntry V} (h₁ : fc.hit now key .primary = none)
    (h₂ : fc.hit now key .secondary = some e) : fc.found now key = some (.secondary, e) := by
  simp [found, levels, h₁, h₂]

theorem found_of_tertiary (h₁ : fc.hit now key .primary = none)
    (h₂ : fc.hit now key .secondary = none) :
    fc.found now key = (fc.hit now key .tertiary).map (.tertiary, ·) := by
  simp [found, levels, h₁, h₂]

theorem get_of_primary {e : CacheEntry V} (h : fc.hit now key .primary = some e) :
    fc.get now key = ((fc.tryGet now .primary key).1, some e.data) := by
  simp only [get, tryGet_snd, h, Option.map_some]

theorem get_of_secondary {e : CacheEntry V} (h₁ : fc.hit now key .primary = none)
    (h₂ : fc.hit now key .secondary = some e) :
    fc.get now key =
      (((fc.tryGet now .primary key).1.tryGet now .secondary key).1.restore now .primary key e.data,
        some e.data) := by
  simp only [get, tryGet_snd, hit_tryGet, h₁, h₂, Option.map_some, Option.map_none]

theorem get_of_tertiary {e : CacheEntry V} (h₁ : fc.hit now key .primary = none)
    (h₂ : fc.hit now key .secondary = none) (h₃ : fc.hit now key .tertiary = some e) :
    fc.get now key =
      ((((((fc.tryGet now .primary key).1.tryGet now .secondary key).1.tryGet now .tertiary key).1
        ).restore now .primary key e.data).restore now .secondary key e.data, some e.data) := by
  simp only [get, tryGet_snd, hit_tryGet, h₁, h₂, h₃, Option.map_some, Option.map_none]

theorem get_of_nowhere (h₁ : fc.hit now key .primary = none)
    (h₂ : fc.hit now key .secondary = none) (h₃ : fc.hit now key .tertiary = none) :
    fc.get now key =
      ((((fc.tryGet now .primary key).1.tryGet now .secondary key).1.tryGet now .tertiary key).1,
        none) := by
  simp only [get, tryGet_snd, hit_tryGet, h₁, h₂, h₃, Option.map_none]

/-- `Get` returns what is found first. -/
theorem get_snd : (fc.get now key).2 = (fc.found now key).map fun p => p.2.data := by
  cases h₁ : fc.hit now key .primary with
  | some e => simp [get_of_primary h₁, found_of_primary h₁]
  | none =>
    cases h₂ : fc.hit now key .secondary with
    | some e => simp [get_of_secondary h₁ h₂, found_of_secondary h₁ h₂]
    | none =>
      cases h₃ : fc.hit now key .tertiary with
      | some e => simp [get_of_tertiary h₁ h₂ h₃, found_of_tertiary h₁ h₂, h₃]
      | none => simp [get_of_nowhere h₁ h₂ h₃, found_of_tertiary h₁ h₂, h₃]

/-- `Get` leaves the contents of a storage as they are, up to what is too old, or has copied into
it what it has found in a later one. -/
theorem live_lookup_get (l : Level) (k : Text) :
    live now (((fc.get now key).1.store l).lookup k) = live now ((fc.store l).lookup k) ∨
      k = key ∧ ∃ l₀ e, fc.found now key = some (l₀, e) ∧ l.rank < l₀.rank ∧
        fc.available l = true ∧
        ((fc.get now key).1.store l).lookup k = some ⟨e.data, now, restoreTTL⟩ := by
  cases h₁ : fc.hit now key .primary with
  | some e => exact .inl (by simp [get_of_primary h₁])
  | none =>
    cases h₂ : fc.hit now key .secondary with
    | some e =>
      rw [get_of_secondary h₁ h₂, lookup_restore]
      split_ifs with hc
      · obtain ⟨rfl, hk, ha⟩ := hc
        rw [available_tryGet, available_tryGet] at ha
        exact .inr ⟨hk, _, e, found_of_secondary h₁ h₂, by decide, ha, rfl⟩
      · simp
    | none =>
      cases h₃ : fc.hit now key .tertiary with
      | none => exact .inl (by simp [get_of_nowhere h₁ h₂ h₃])
      | some e =>
        have hf : fc.found now key = some (.tertiary, e) := by
          rw [found_of_tertiary h₁ h₂, h₃, Option.map_some]
        rw [get_of_tertiary h₁ h₂ h₃, lookup_restore, lookup_restore]
        simp only [available_restore, available_tryGet]
        split_ifs with hs hp
        · obtain ⟨rfl, hk, ha⟩ := hs
          exact .inr ⟨hk, _, e, hf, by decide, ha, rfl⟩
        · obtain ⟨rfl, hk, ha⟩ := hp
          exact .inr ⟨hk, _, e, hf, by decide, ha, rfl⟩
        · simp

/-- `Get` adds and removes no storage. -/
theorem get_present : (fc.get now key).1.present = fc.present := by
  have hres : ∀ (fc : FailoverCache V) l value,
      (fc.restore now l key value).present = fc.present := by
    intro fc l value
    unfold restore
    split_ifs <;> rfl
  have htry : ∀ (fc : FailoverCache V) l, (fc.tryGet now l key).1.present = fc.present :=
    fun _ _ => tryGet_flags.1
  unfold get
  dsimp only
  split
  · exact htry _ _
  · split
    · rw [hres, htry, htry]
    · split
      · rw [hres, hres, htry, htry, htry]
      · rw [htry, htry, htry]

/-! ### The other calls -/

section

variable {used : Level → Bool} {f : MemoryStorage V → MemoryStorage V}

/-- A call made on the storages of a list. -/
theorem foldl_attempt (ls : List Level) (hnd : ls.Nodup) (acc : FailoverCache V × List Level) :
    (∀ l, (ls.foldl (fun acc l => attempt (used l) f acc l) acc).1.store l =
      if l ∈ ls ∧ used l = true ∧ acc.1.up l = true then f (acc.1.store l) else acc.1.store l) ∧
    (ls.foldl (fun acc l => attempt (used l) f acc l) acc).2 =
      acc.2 ++ ls.filter fun l => used l && !acc.1.up l := by
  induction ls generalizing acc with
  | nil => simp
  | cons a ls ih =>
    obtain ⟨ha, hnd⟩ := List.nodup_cons.1 hnd
    obtain ⟨hstore, herr⟩ := ih hnd (attempt (used a) f acc a)
    have hup : (attempt (used a) f acc a).1.up = acc.1.up := by
      unfold attempt
      split_ifs <;> rfl
    rw [List.foldl_cons]
    refine ⟨fun l => ?_, ?_⟩
    · rw [hstore, hup]
      by_cases hl : l = a
      · subst hl
        rw [if_neg fun h => ha h.1]
        by_cases hu : used l = true <;> by_cases hul : acc.1.up l = true <;>
          simp [attempt, setStore, hu, hul]
      · have hkeep : (attempt (used a) f acc a).1.store l = acc.1.store l := by
          unfold attempt
          split_ifs <;> simp [setStore, Function.update_of_ne hl]
        rw [hkeep]
        simp [hl]
    · rw [herr, hup, List.filter_cons]
      by_cases hu : used a = true <;> by_cases hul : acc.1.up a = true <;>
        simp [attempt, hu, hul]

theorem foldl_attempt_present (ls : List Level) (acc : FailoverCache V × List Level) :
    (ls.foldl (fun acc l => attempt (used l) f acc l) acc).1.present = acc.1.present := by
  induction ls generalizing acc with
  | nil => rfl
  | cons a ls ih =>
    rw [List.foldl_cons, ih]
    unfold attempt
    split_ifs <;> rfl

theorem mem_levels (l : Level) : l ∈ levels := by
  cases l <;> decide

theorem foldl_levels_store (l : Level) :
    (levels.foldl (fun acc l => attempt (used l) f acc l) (fc, [])).1.store l =
      if used l = true ∧ fc.up l = true then f (fc.store l) else fc.store l := by
  rw [(foldl_attempt levels (by decide) (fc, [])).1]
  simp only [mem_levels, true_and]

/-- The call reports no error if every storage that it uses can be reached. -/
theorem foldl_levels_snd_eq_nil :
    (levels.foldl (fun acc l => attempt (used l) f acc l) (fc, [])).2 = [] ↔
      ∀ l, used l = true → fc.up l = true := by
  rw [(foldl_attempt levels (by decide) (fc, [])).2]
  simp [mem_levels]

end

variable {value : V} {ttl : ℤ}

theorem lookup_set (l : Level) (k : Text) :
    ((fc.set now key value ttl).1.store l).lookup k =
      if fc.available l = true ∧ k = key then some ⟨value, now, ttl⟩
      else (fc.store l).lookup k := by
  rw [set, foldl_levels_store]
  by_cases ha : fc.isUsed l = true ∧ fc.up l = true
  · simp [ha, available, MemoryStorage.set, AList.lookup_insert_apply]
  · have ha' : ¬ fc.available l = true := by simpa [available] using ha
    simp [ha, ha']

theorem set_snd_eq_nil :
    (fc.set now key value ttl).2 = [] ↔ ∀ l, fc.isUsed l = true → fc.up l = true :=
  foldl_levels_snd_eq_nil

theorem lookup_delete (l : Level) (k : Text) :
    ((fc.delete key).1.store l).lookup k =
      if (fc.present l = true ∧ fc.up l = true) ∧ k = key then none
      else (fc.store l).lookup k := by
  rw [delete, foldl_levels_store]
  by_cases ha : fc.present l = true ∧ fc.up l = true
  · simp [ha, MemoryStorage.delete, AList.lookup_erase_apply]
  · simp [ha]

theorem delete_snd_eq_nil :
    (fc.delete key).2 = [] ↔ ∀ l, fc.present l = true → fc.up l = true :=
  foldl_levels_snd_eq_nil

theorem lookup_clear (l : Level) (k : Text) :
    (fc.clear.1.store l).lookup k =
      if fc.present l = true ∧ fc.up l = true then none else (fc.store l).lookup k := by
  rw [clear, foldl_levels_store]
  split_ifs <;> rfl

theorem clear_snd_eq_nil : fc.clear.2 = [] ↔ ∀ l, fc.present l = true → fc.up l = true :=
  foldl_levels_snd_eq_nil

end FailoverCache

/-! ### The cache in use -/

/-- A failover cache, and the time of the last event. -/
structure Deployment (V : Type) where
  cache : FailoverCache V
  now : ℤ

/-- Calls of the cache, and what happens around it. -/
inductive Event (V : Type) where
  | get (key : Text)
  | set (key : Text) (value : V) (ttl : ℤ)
  | delete (key : Text)
  | clear
  /-- a storage becomes reachable or unreachable -/
  | outage (l : Level) (up : Bool)
  | updateHealthStatus
  deriving DecidableEq

inductive Answer (V : Type) where
  | silent
  | value (v : Option V)
  /-- the storages with an error; with none of them the error is nil -/
  | errors (ls : List Level)
  deriving DecidableEq

/-- The call has returned a nil error. -/
def Answer.isNil {V : Type} : Answer V → Bool
  | .errors ls => ls.isEmpty
  | _ => false

/-- An event, when it happens, and what it is answered. -/
structure Occurrence (V : Type) where
  now : ℤ
  event : Event V
  answer : Answer V
  deriving DecidableEq

namespace FailoverCache

variable {V : Type} (fc : FailoverCache V)

/-- The cache after an event, and the answer. -/
def perform (now : ℤ) : Event V → FailoverCache V × Answer V
  | .get key => ((fc.get now key).1, .value (fc.get now key).2)
  | .set key value ttl =>
    ((fc.set now key value ttl).1, .errors (fc.set now key value ttl).2)
  | .delete key => ((fc.delete key).1, .errors (fc.delete key).2)
  | .clear => (fc.clear.1, .errors fc.clear.2)
  | .outage l up => ({ fc with up := Function.update fc.up l up }, .silent)
  | .updateHealthStatus => (fc.updateHealthStatus, .silent)

/-- `NewFailoverCache` over the storages that are there, which are empty. -/
def initial (present up : Level → Bool) : FailoverCache V where
  present := present
  up := up
  store _ := ∅
  healthStatus l := present l && up l

end FailoverCache

/-- The runs of a new cache, at non-decreasing times. -/
def deployments (V : Type) : LTS (Deployment V) (Occurrence V) where
  init s := ∃ present up now, s = ⟨.initial present up, now⟩
  step s o s' := s.now ≤ o.now ∧ s' = ⟨(s.cache.perform o.now o.event).1, o.now⟩ ∧
    o.answer = (s.cache.perform o.now o.event).2

/-- One event, if it is possible. -/
def Deployment.next {V : Type} [DecidableEq V] (s : Deployment V) (o : Occurrence V) :
    Option (Deployment V) :=
  if s.now ≤ o.now ∧ o.answer = (s.cache.perform o.now o.event).2 then
    some ⟨(s.cache.perform o.now o.event).1, o.now⟩
  else none

theorem Deployment.step_of_next {V : Type} [DecidableEq V] {s s' : Deployment V}
    {o : Occurrence V} (h : s.next o = some s') : (deployments V).step s o s' := by
  unfold next at h
  split_ifs at h with hc
  exact ⟨hc.1, (Option.some.inj h).symm, hc.2⟩

/-! ### Where an entry comes from -/

namespace FailoverCache

variable {V : Type} {fc : FailoverCache V} {now : ℤ} {l : Level} {k : Text} {e : CacheEntry V}

theorem found_spec {key : Text} (h : fc.found now key = some (l, e)) :
    fc.available l = true ∧ live now ((fc.store l).lookup key) = some e := by
  obtain ⟨l', -, h'⟩ := List.exists_of_findSome?_eq_some h
  obtain ⟨e', he', hp⟩ := Option.map_eq_some_iff.1 h'
  obtain ⟨rfl, rfl⟩ := Prod.mk.inj hp
  unfold hit at he'
  split_ifs at he' with ha
  exact ⟨ha, he'⟩

/-- Why a storage holds an entry after an event. -/
inductive Source (fc : FailoverCache V) (now : ℤ) (l : Level) (k : Text) (e : CacheEntry V) :
    Event V → Prop
  /-- it was there before, and the event has not reached it -/
  | kept {ev : Event V} (h : live now ((fc.store l).lookup k) = some e)
      (hset : ∀ value ttl, ev = .set k value ttl → fc.available l = false)
      (hdel : ev = .delete k ∨ ev = .clear → ¬ (fc.present l = true ∧ fc.up l = true)) :
      Source fc now l k e ev
  | written {value : V} {ttl : ℤ} (ha : fc.available l = true) (he : e = ⟨value, now, ttl⟩) :
      Source fc now l k e (.set k value ttl)
  | restored {l₀ : Level} {e₀ : CacheEntry V} (hf : fc.found now k = some (l₀, e₀))
      (hl : l.rank < l₀.rank) (ha : fc.available l = true)
      (he : e = ⟨e₀.data, now, restoreTTL⟩) : Source fc now l k e (.get k)

theorem source_of_perform {ev : Event V}
    (h : live now (((fc.perform now ev).1.store l).lookup k) = some e) :
    Source fc now l k e ev := by
  cases ev with
  | get key =>
    have hget : live now (((fc.get now key).1.store l).lookup k) = _ ∨ _ := live_lookup_get l k
    obtain hl | ⟨rfl, l₀, e₀, hf, hrank, ha, hlook⟩ := hget
    · exact .kept (hl.symm.trans h) (fun _ _ he => by cases he) (fun he => by simp at he)
    · have he : some (⟨e₀.data, now, restoreTTL⟩ : CacheEntry V) = some e :=
        hlook.symm.trans (live_eq_some_iff.1 h).1
      exact .restored hf hrank ha (Option.some.inj he).symm
  | set key value ttl =>
    change live now (((fc.set now key value ttl).1.store l).lookup k) = some e at h
    rw [lookup_set] at h
    split_ifs at h with hc
    · obtain ⟨ha, rfl⟩ := hc
      exact .written ha (Option.some.inj (live_eq_some_iff.1 h).1).symm
    · refine .kept h (fun value' ttl' he => ?_) (fun he => by simp at he)
      cases he
      exact Bool.eq_false_of_not_eq_true fun ha => hc ⟨ha, rfl⟩
  | delete key =>
    change live now (((fc.delete key).1.store l).lookup k) = some e at h
    rw [lookup_delete] at h
    split_ifs at h with hc
    · cases h
    · refine .kept h (fun _ _ he => by cases he) (fun he hup => hc ⟨hup, ?_⟩)
      obtain he | he := he
      · cases he
        rfl
      · cases he
  | clear =>
    change live now ((fc.clear.1.store l).lookup k) = some e at h
    rw [lookup_clear] at h
    split_ifs at h with hc
    · cases h
    · exact .kept h (fun _ _ he => by cases he) fun _ => hc
  | outage | updateHealthStatus =>
    exact .kept h (fun _ _ he => by cases he) (fun he => by simp at he)

/-- No event adds or removes a storage. -/
theorem perform_present (ev : Event V) : (fc.perform now ev).1.present = fc.present := by
  cases ev with
  | get key => exact get_present
  | set | delete | clear => exact foldl_attempt_present _ _
  | outage | updateHealthStatus => rfl

end FailoverCache

end Cache

end GinRpc
