import GinRpc.ConfigCenter.Provider
import GinRpc.LTS.Fairness
import Mathlib.Tactic

/-!
# The cache of the configuration center

Model of `Get`, `Set`, `Delete` and `handleChange` of `plugins/configcenter/configcenter.go` and of
its cache.  A call of the provider and a change of the cache are steps of their own, so that any
number of goroutines may come between them; the provider may fail, or report a failure of a call
that it has carried out, and its change events are handled in any order and any number of times.

* `Sys.config_center_monotone` : if a version is put into the cache only while the provider still
  has it, no `Get` that begins after a `Get` or `Set` has returned a version returns a smaller one,
  and none that begins after a `Delete` has returned returns a value that was written before it.
* `Sys.stale_fill` : otherwise the value that a slow `Get` has read comes into the cache after a
  `Set` or a `Delete` has returned.

`Close` and the handlers of subscriptions are left out.
-/

namespace GinRpc

namespace ConfigCenter

variable {Key Value : Type*} [DecidableEq Key]

/-! ### The cache -/

/-- A change event. -/
inductive ConfigChange (Key Value : Type*) where
  | set (k : Key) (v : Value) (version : ℕ)
  | delete (k : Key)
  deriving DecidableEq, Repr

/-- `cacheEntry` -/
structure Entry (Value : Type*) where
  value : Value
  version : ℕ
  expires : ℤ

/-- The provider, with the change events that it has sent, and the cache. -/
structure Center (Key Value : Type*) where
  provider : Provider Key Value := {}
  changes : List (ConfigChange Key Value) := []
  cache : Key → Option (Entry Value) := fun _ => none
  now : ℤ := 0

/-- The next operation of a goroutine, or what it has returned. -/
inductive Pc (Key Value : Type*) where
  | idle
  /-- `Get` : `cc.getFromCache` -/
  | lookup (k : Key)
  /-- `Get` : `cc.provider.Get` -/
  | fetch (k : Key)
  /-- `Get` : `cc.setCache` -/
  | getFill (k : Key) (v : Value) (version : ℕ)
  | got (k : Key) (v : Value) (version : ℕ)
  /-- `Set` : `cc.provider.Set` -/
  | store (k : Key) (v : Value)
  /-- `Set` : `cc.setCache` -/
  | setFill (k : Key) (v : Value) (version : ℕ)
  | wrote (k : Key) (version : ℕ)
  /-- `Delete` : `cc.provider.Delete` -/
  | remove (k : Key)
  /-- `Delete` : `cc.deleteCache`; the last version before the key was removed -/
  | evict (k : Key) (before : ℕ)
  | deleted (k : Key) (before : ℕ)
  /-- `handleChange` -/
  | handle (change : ConfigChange Key Value)
  | handled
  /-- a call has returned an error -/
  | failed
  deriving DecidableEq, Repr

def Pc.atRest : Pc Key Value → Bool
  | .idle | .got _ _ _ | .wrote _ _ | .deleted _ _ | .handled | .failed => true
  | _ => false

/-- How a call of the provider ends. -/
inductive Answer where
  /-- it is carried out; a value gets this version -/
  | ok (version : ℕ)
  /-- it is carried out, and an error is returned -/
  | lost (version : ℕ)
  | failed
  deriving DecidableEq, Repr

namespace Center

variable (ttl : ℤ) (c : Center Key Value)

/-- `getFromCache` -/
def getFromCache (k : Key) : Option (Value × ℕ) :=
  match c.cache k with
  | none => none
  | some entry => if entry.expires < c.now then none else some (entry.value, entry.version)

def setCache (k : Key) (v : Value) (version : ℕ) : Center Key Value :=
  { c with cache := Function.update c.cache k (some ⟨v, version, c.now + ttl⟩) }

def deleteCache (k : Key) : Center Key Value :=
  { c with cache := Function.update c.cache k none }

/-- The cache part of `handleChange` -/
def handleChange : ConfigChange Key Value → Center Key Value
  | .set k v version => c.setCache ttl k v version
  | .delete k => c.deleteCache k

/-- The provider stores a value and sends the event. -/
def providerSet (k : Key) (v : Value) (version : ℕ) : Option (Center Key Value) :=
  (c.provider.set k v version).map fun p =>
    { c with provider := p, changes := c.changes ++ [.set k v version] }

def providerDelete (k : Key) : Center Key Value :=
  { c with provider := c.provider.delete k, changes := c.changes ++ [.delete k] }

/-- The next operation, if it is one of the configuration center. -/
def exec : Pc Key Value → Option (Center Key Value × Pc Key Value)
  | .lookup k =>
    match c.getFromCache k with
    | some (v, version) => some (c, .got k v version)
    | none => some (c, .fetch k)
  | .getFill k v version => some (c.setCache ttl k v version, .got k v version)
  | .setFill k v version => some (c.setCache ttl k v version, .wrote k version)
  | .evict k before => some (c.deleteCache k, .deleted k before)
  | .handle change => some (c.handleChange ttl change, .handled)
  | _ => none

/-- The next operation, if it is a call of the provider that ends with the answer. -/
def call : Pc Key Value → Answer → Option (Center Key Value × Pc Key Value)
  | .fetch k, .ok _ =>
    match c.provider.data k with
    | some (v, version) => some (c, .getFill k v version)
    | none => some (c, .failed)
  | .fetch _, _ => some (c, .failed)
  | .store k v, .ok version => (c.providerSet k v version).map (·, .setFill k v version)
  | .store k v, .lost version => (c.providerSet k v version).map (·, .failed)
  | .store _ _, .failed => some (c, .failed)
  | .remove k, .ok _ => some (c.providerDelete k, .evict k (c.provider.last k))
  | .remove k, .lost _ => some (c.providerDelete k, .failed)
  | .remove _, .failed => some (c, .failed)
  | _, _ => none

end Center

/-- A configuration center and the goroutines that use it. -/
structure Sys (Key Value : Type*) where
  center : Center Key Value := {}
  pc : ℕ → Pc Key Value := fun _ => .idle

inductive Act (Key Value : Type*) where
  | get (g : ℕ) (k : Key)
  | set (g : ℕ) (k : Key) (v : Value)
  | delete (g : ℕ) (k : Key)
  /-- a watcher has received the `i`-th change event -/
  | change (g i : ℕ)
  | advance (g : ℕ)
  | call (g : ℕ) (answer : Answer)
  | tick (d : ℕ)
  deriving DecidableEq, Repr

namespace Sys

variable (ttl : ℤ) (s : Sys Key Value)

/-- Goroutine `g` begins a call. -/
def begin (g : ℕ) (p : Pc Key Value) : Option (Sys Key Value) :=
  if (s.pc g).atRest then some { s with pc := Function.update s.pc g p } else none

def step : Act Key Value → Option (Sys Key Value)
  | .get g k => s.begin g (.lookup k)
  | .set g k v => s.begin g (.store k v)
  | .delete g k => s.begin g (.remove k)
  | .change g i => s.center.changes[i]?.bind fun change => s.begin g (.handle change)
  | .advance g => (s.center.exec ttl (s.pc g)).map fun r => ⟨r.1, Function.update s.pc g r.2⟩
  | .call g answer =>
    (s.center.call (s.pc g) answer).map fun r => ⟨r.1, Function.update s.pc g r.2⟩
  | .tick d => some { s with center.now := s.center.now + d }

/-- All interleavings. -/
def lts : LTS (Sys Key Value) (Act Key Value) where
  init s := s = {}
  step s a s' := s.step ttl a = some s'

end Sys

/-! ### What can still be read -/

/-- What a goroutine is about to put into the cache. -/
def Pc.filling : Pc Key Value → Option (Key × Value × ℕ)
  | .getFill k v version | .setFill k v version | .handle (.set k v version) => some (k, v, version)
  | _ => none

/-- What is put into the cache is what the provider has. -/
def Sys.Current (s : Sys Key Value) : Act Key Value → Prop
  | .advance g => ∀ k v version, (s.pc g).filling = some (k, v, version) →
      s.center.provider.data k = some (v, version)
  | _ => True

/-- No version below `n` can be read any more. -/
structure Center.Floor (c : Center Key Value) (k : Key) (n : ℕ) : Prop where
  next : n ≤ c.provider.last k + 1
  data : ∀ v version, c.provider.data k = some (v, version) → n ≤ version
  cache : ∀ entry, c.cache k = some entry → n ≤ entry.version

/-- What a goroutine at a place knows. -/
def Pc.Fits (c : Center Key Value) : Pc Key Value → Prop
  | .got k _ version | .wrote k version => c.Floor k version
  | .evict k before =>
    before ≤ c.provider.last k ∧
      ∀ v version, c.provider.data k = some (v, version) → before < version
  | .deleted k before => c.Floor k (before + 1)
  | _ => True

/-- A place at which a goroutine knows nothing. -/
def Pc.plain : Pc Key Value → Bool
  | .got _ _ _ | .wrote _ _ | .evict _ _ | .deleted _ _ => false
  | _ => true

structure Center.Inv (c : Center Key Value) : Prop where
  versioned : c.provider.Versioned
  cached : ∀ k entry, c.cache k = some entry → entry.version ≤ c.provider.last k

structure Sys.Inv (s : Sys Key Value) : Prop where
  center : s.center.Inv
  fits : ∀ g, (s.pc g).Fits s.center

namespace Center

variable {ttl : ℤ} {c c' : Center Key Value} {k : Key} {v : Value} {version n : ℕ}

/-- What is known stays true. -/
structure Later (c c' : Center Key Value) : Prop where
  floor : ∀ k n, c.Floor k n → c'.Floor k n
  provider : ∀ k n, n ≤ c.provider.last k →
    (∀ v version, c.provider.data k = some (v, version) → n < version) →
    n ≤ c'.provider.last k ∧ ∀ v version, c'.provider.data k = some (v, version) → n < version

omit [DecidableEq Key] in
theorem Later.refl (c : Center Key Value) : c.Later c := ⟨fun _ _ => id, fun _ _ h h' => ⟨h, h'⟩⟩

omit [DecidableEq Key] in
theorem Later.fits (h : c.Later c') {p : Pc Key Value} (hp : p.Fits c) : p.Fits c' := by
  cases p with
  | got k v version => exact h.floor _ _ hp
  | wrote k version => exact h.floor _ _ hp
  | evict k before => exact h.provider _ _ hp.1 hp.2
  | deleted k before => exact h.floor _ _ hp
  | _ => trivial

/-- The cache is changed at a key, to nothing or to the version that the provider has. -/
theorem later_update {x : Option (Entry Value)}
    (hx : ∀ entry, x = some entry → ∃ v, c.provider.data k = some (v, entry.version)) :
    c.Later { c with cache := Function.update c.cache k x } where
  floor k' n hf := by
    refine ⟨hf.next, hf.data, fun entry he => ?_⟩
    by_cases hk : k' = k
    · subst hk
      simp only [Function.update_self] at he
      obtain ⟨v, hd⟩ := hx entry he
      exact hf.data v entry.version hd
    · simp only [Function.update_of_ne hk] at he
      exact hf.cache entry he
  provider _ _ h h' := ⟨h, h'⟩

theorem inv_update {x : Option (Entry Value)} (h : c.Inv)
    (hx : ∀ entry, x = some entry → ∃ v, c.provider.data k = some (v, entry.version)) :
    ({ c with cache := Function.update c.cache k x } : Center Key Value).Inv := by
  refine ⟨h.versioned, fun k' entry he => ?_⟩
  by_cases hk : k' = k
  · subst hk
    simp only [Function.update_self] at he
    obtain ⟨v, hd⟩ := hx entry he
    exact (h.versioned k' v entry.version hd).le
  · simp only [Function.update_of_ne hk] at he
    exact h.cached k' entry he

theorem later_setCache (hd : c.provider.data k = some (v, version)) :
    c.Later (c.setCache ttl k v version) := by
  refine later_update fun entry he => ?_
  cases he
  exact ⟨v, hd⟩

theorem inv_setCache (h : c.Inv) (hd : c.provider.data k = some (v, version)) :
    (c.setCache ttl k v version).Inv := by
  refine inv_update h fun entry he => ?_
  cases he
  exact ⟨v, hd⟩

theorem floor_setCache (h : c.Inv) (hd : c.provider.data k = some (v, version)) :
    (c.setCache ttl k v version).Floor k version := by
  have hv := h.versioned k v version hd
  refine ⟨hv ▸ Nat.le_succ _, fun v' version' hd' => ?_, fun entry he => ?_⟩
  · rw [h.versioned k v' version' hd', hv]
  · simp only [setCache, Function.update_self] at he
    cases he
    exact le_refl _

theorem later_deleteCache (c : Center Key Value) (k : Key) : c.Later (c.deleteCache k) :=
  later_update fun entry he => by cases he

theorem inv_deleteCache (h : c.Inv) (k : Key) : (c.deleteCache k).Inv :=
  inv_update h fun entry he => by cases he

theorem providerSet_eq_some (h : c.providerSet k v version = some c') :
    c.provider.last k < version ∧ c'.cache = c.cache ∧
      c'.provider = ⟨Function.update c.provider.data k (some (v, version)),
        Function.update c.provider.last k version⟩ := by
  obtain ⟨p, hp, rfl⟩ := Option.map_eq_some_iff.1 h
  obtain ⟨hlt, rfl⟩ := Provider.set_eq_some hp
  exact ⟨hlt, rfl, rfl⟩

theorem later_providerSet (hs : c.providerSet k v version = some c') : c.Later c' := by
  obtain ⟨hlt, hcache, hp⟩ := providerSet_eq_some hs
  constructor
  · intro k' n hf
    refine ⟨?_, fun v' version' hd => ?_, fun entry he => hf.cache entry (hcache ▸ he)⟩
    · rw [hp]
      by_cases hk : k' = k
      · subst hk
        simp only [Function.update_self]
        have := hf.next
        omega
      · simp only [Function.update_of_ne hk]
        exact hf.next
    · rw [hp] at hd
      by_cases hk : k' = k
      · subst hk
        simp only [Function.update_self] at hd
        cases hd
        have := hf.next
        omega
      · simp only [Function.update_of_ne hk] at hd
        exact hf.data v' version' hd
  · intro k' n hn hd
    rw [hp]
    by_cases hk : k' = k
    · subst hk
      simp only [Function.update_self]
      refine ⟨by omega, fun v' version' hd' => ?_⟩
      cases hd'
      omega
    · simp only [Function.update_of_ne hk]
      exact ⟨hn, hd⟩

theorem inv_providerSet (h : c.Inv) (hs : c.providerSet k v version = some c') : c'.Inv := by
  obtain ⟨p, hp, rfl⟩ := Option.map_eq_some_iff.1 hs
  refine ⟨h.versioned.set hp, fun k' entry he => (h.cached k' entry he).trans ?_⟩
  obtain ⟨hlt, rfl⟩ := Provider.set_eq_some hp
  by_cases hk : k' = k
  · subst hk
    simp only [Function.update_self]
    exact hlt.le
  · simp only [Function.update_of_ne hk]
    exact le_refl _

theorem data_providerDelete {k' : Key} {v' : Value} {version' : ℕ}
    (hd : (c.providerDelete k).provider.data k' = some (v', version')) :
    k' ≠ k ∧ c.provider.data k' = some (v', version') := by
  by_cases hk : k' = k
  · subst hk
    simp only [providerDelete, Provider.delete, Function.update_self] at hd
    cases hd
  · simp only [providerDelete, Provider.delete, Function.update_of_ne hk] at hd
    exact ⟨hk, hd⟩

theorem later_providerDelete (c : Center Key Value) (k : Key) : c.Later (c.providerDelete k) where
  floor _ _ hf := ⟨hf.next, fun _ _ hd => hf.data _ _ (data_providerDelete hd).2, hf.cache⟩
  provider _ _ h h' := ⟨h, fun _ _ hd => h' _ _ (data_providerDelete hd).2⟩

theorem inv_providerDelete (h : c.Inv) (k : Key) : (c.providerDelete k).Inv :=
  ⟨h.versioned.delete k, h.cached⟩

end Center

/-! ### Steps and runs -/

section

variable {ttl : ℤ} {c c' : Center Key Value} {p p' : Pc Key Value}

/-- A step that keeps what is known, and makes it so that nothing below `n` is returned. -/
structure Center.Outcome (c c' : Center Key Value) (p' : Pc Key Value) : Prop where
  inv : c'.Inv
  later : c.Later c'
  fits : p'.Fits c'
  /-- What a `Get` returns is above every floor. -/
  got : ∀ k v version n, p' = .got k v version → c.Floor k n → n ≤ version

omit [DecidableEq Key] in
theorem Pc.Fits.of_plain (h : p.plain = true) : p.Fits c := by
  cases p with
  | got k v version => cases h
  | wrote k version => cases h
  | evict k before => cases h
  | deleted k before => cases h
  | _ => trivial

omit [DecidableEq Key] in
theorem Center.Outcome.of_plain (h : c'.Inv) (hl : c.Later c') (hp : p'.plain = true) :
    c.Outcome c' p' := by
  refine ⟨h, hl, .of_plain hp, ?_⟩
  rintro k v version n rfl
  cases hp

theorem Center.outcome_of_exec (h : c.Inv) (hp : p.Fits c)
    (hok : ∀ k v version, p.filling = some (k, v, version) →
      c.provider.data k = some (v, version))
    (he : c.exec ttl p = some (c', p')) : c.Outcome c' p' := by
  cases p with
  | lookup k =>
    simp only [Center.exec] at he
    split at he
    · rename_i v version hhit
      cases he
      simp only [getFromCache] at hhit
      split at hhit
      · cases hhit
      · rename_i entry hentry
        split_ifs at hhit
        cases hhit
        have hle := h.cached k entry hentry
        refine ⟨h, .refl c, ⟨hle.trans (Nat.le_succ _), fun v version hd => ?_, fun e he => ?_⟩, ?_⟩
        · rw [h.versioned k v version hd]
          exact hle
        · cases hentry.symm.trans he
          exact le_refl _
        · rintro k' v version n ⟨⟩ hf
          exact hf.cache entry hentry
    · cases he
      exact .of_plain h (.refl c) rfl
  | getFill k v version =>
    cases he
    have hd := hok k v version rfl
    refine ⟨inv_setCache h hd, later_setCache hd, floor_setCache h hd, ?_⟩
    rintro k' v' version' n ⟨⟩ hf
    exact hf.data v version hd
  | setFill k v version =>
    cases he
    have hd := hok k v version rfl
    exact ⟨inv_setCache h hd, later_setCache hd, floor_setCache h hd,
      fun _ _ _ _ hne => by cases hne⟩
  | evict k before =>
    cases he
    refine ⟨inv_deleteCache h k, later_deleteCache c k, ⟨Nat.succ_le_succ hp.1, hp.2, ?_⟩,
      fun _ _ _ _ hne => by cases hne⟩
    intro entry hentry
    simp only [deleteCache, Function.update_self] at hentry
    cases hentry
  | handle change =>
    cases he
    cases change with
    | set k v version =>
      have hd := hok k v version rfl
      exact .of_plain (inv_setCache h hd) (later_setCache hd) rfl
    | delete k => exact .of_plain (inv_deleteCache h k) (later_deleteCache c k) rfl
  | _ => cases he

theorem Center.outcome_of_call {answer : Answer} (h : c.Inv)
    (he : c.call p answer = some (c', p')) : c.Outcome c' p' := by
  cases p with
  | fetch k =>
    cases answer with
    | ok version =>
      simp only [Center.call] at he
      split at he
      · cases he
        exact .of_plain h (.refl c) rfl
      · cases he
        exact .of_plain h (.refl c) rfl
    | lost version =>
      cases he
      exact .of_plain h (.refl c) rfl
    | failed =>
      cases he
      exact .of_plain h (.refl c) rfl
  | store k v =>
    cases answer with
    | ok version =>
      obtain ⟨c₁, hs, h₂⟩ := Option.map_eq_some_iff.1 he
      cases h₂
      exact .of_plain (inv_providerSet h hs) (later_providerSet hs) rfl
    | lost version =>
      obtain ⟨c₁, hs, h₂⟩ := Option.map_eq_some_iff.1 he
      cases h₂
      exact .of_plain (inv_providerSet h hs) (later_providerSet hs) rfl
    | failed =>
      cases he
      exact .of_plain h (.refl c) rfl
  | remove k =>
    cases answer with
    | ok version =>
      cases he
      exact ⟨inv_providerDelete h k, later_providerDelete c k,
        ⟨le_refl _, fun _ _ hd => absurd rfl (data_providerDelete hd).1⟩,
        fun _ _ _ _ hne => by cases hne⟩
    | lost version =>
      cases he
      exact .of_plain (inv_providerDelete h k) (later_providerDelete c k) rfl
    | failed =>
      cases he
      exact .of_plain h (.refl c) rfl
  | _ => cases he

end

namespace Sys

variable {ttl : ℤ} {s s' s₁ s₂ s₃ : Sys Key Value} {a : Act Key Value} {g : ℕ}
  {tr : List (Act Key Value)}

/-- What one step does to a goroutine: it is not concerned, it begins a call, or it moves. -/
structure Step (s s' : Sys Key Value) : Prop where
  inv : s'.Inv
  later : s.center.Later s'.center
  got : ∀ g k v version n, s'.pc g = .got k v version → s.center.Floor k n →
    s.pc g = .got k v version ∨ n ≤ version

omit [DecidableEq Key] in
theorem Inv.begin (h : s.Inv) {p : Pc Key Value} (hp : p.plain = true)
    (hs : s.begin g p = some s') : s.Step s' := by
  unfold Sys.begin at hs
  split_ifs at hs
  cases hs
  refine ⟨⟨h.center, ?_⟩, .refl _, ?_⟩
  · exact (Function.forall_update_iff s.pc fun _ q => q.Fits s.center).2
      ⟨.of_plain hp, fun u _ => h.fits u⟩
  · refine (Function.forall_update_iff s.pc fun u q => ∀ k v version n, q = .got k v version →
      s.center.Floor k n → s.pc u = .got k v version ∨ n ≤ version).2 ⟨?_, ?_⟩
    · rintro k v version n rfl
      cases hp
    · exact fun u _ k v version n heq _ => .inl heq

omit [DecidableEq Key] in
theorem Inv.move (h : s.Inv) {c' : Center Key Value} {p' : Pc Key Value}
    (ho : s.center.Outcome c' p') : s.Step ⟨c', Function.update s.pc g p'⟩ := by
  refine ⟨⟨ho.inv, ?_⟩, ho.later, ?_⟩
  · exact (Function.forall_update_iff s.pc fun _ q => q.Fits c').2
      ⟨ho.fits, fun u _ => ho.later.fits (h.fits u)⟩
  · exact (Function.forall_update_iff s.pc fun u q => ∀ k v version n, q = .got k v version →
      s.center.Floor k n → s.pc u = .got k v version ∨ n ≤ version).2
      ⟨fun k v version n heq hf => .inr (ho.got k v version n heq hf),
        fun u _ k v version n heq _ => .inl heq⟩

theorem Inv.step (h : s.Inv) (hok : s.Current a) (hs : s.step ttl a = some s') : s.Step s' := by
  cases a with
  | get g k => exact h.begin rfl hs
  | set g k v => exact h.begin rfl hs
  | delete g k => exact h.begin rfl hs
  | change g i =>
    obtain ⟨change, -, hs⟩ := Option.bind_eq_some_iff.1 hs
    exact h.begin rfl hs
  | advance g =>
    obtain ⟨⟨c', p'⟩, he, rfl⟩ := Option.map_eq_some_iff.1 hs
    exact h.move (Center.outcome_of_exec h.center (h.fits g) hok he)
  | call g answer =>
    obtain ⟨⟨c', p'⟩, he, rfl⟩ := Option.map_eq_some_iff.1 hs
    exact h.move (Center.outcome_of_call h.center he)
  | tick d =>
    cases hs
    have hl : s.center.Later { s.center with now := s.center.now + d } :=
      ⟨fun _ _ hf => ⟨hf.next, hf.data, hf.cache⟩, fun _ _ h h' => ⟨h, h'⟩⟩
    exact ⟨⟨⟨h.center.versioned, h.center.cached⟩, fun u => hl.fits (h.fits u)⟩, hl,
      fun _ _ _ _ _ heq _ => .inl heq⟩

theorem inv_of_run (hr : (lts ttl).Run Current tr s) : s.Inv := by
  refine hr.invariant (I := Inv) ?_ fun s a s' h hok hs => (h.step hok hs).inv
  rintro s rfl
  exact ⟨⟨Provider.versioned_new, fun _ _ h => by cases h⟩, fun _ => trivial⟩

/-- A run that fills the cache with current values only leads from one state to another. -/
def Leads (ttl : ℤ) (s s' : Sys Key Value) : Prop := (lts ttl).Leads Current s s'

theorem Leads.inv (hl : Leads ttl s s') (h : s.Inv) : s'.Inv :=
  LTS.Leads.invariant hl h fun _ _ _ h hok hst => (h.step hok hst).inv

theorem Leads.floor (hl : Leads ttl s s') (h : s.Inv) {k : Key} {n : ℕ}
    (hf : s.center.Floor k n) : s'.center.Floor k n := by
  refine (LTS.Leads.invariant (I := fun s => s.Inv ∧ s.center.Floor k n) hl ⟨h, hf⟩ ?_).2
  rintro s a s' ⟨h, hf⟩ hok hst
  exact ⟨(h.step hok hst).inv, (h.step hok hst).later.floor k n hf⟩

/-- A `Get` that begins when there is a floor returns nothing below it. -/
theorem Leads.got (hl : Leads ttl s s') (h : s.Inv) {k : Key} {n : ℕ} (hf : s.center.Floor k n)
    (hg : ∀ v version, s.pc g ≠ .got k v version) {v : Value} {version : ℕ}
    (hgot : s'.pc g = .got k v version) : n ≤ version := by
  refine (LTS.Leads.invariant (I := fun s => s.Inv ∧ s.center.Floor k n ∧
    ∀ v version, s.pc g = .got k v version → n ≤ version) hl
    ⟨h, hf, fun v version heq => absurd heq (hg v version)⟩ ?_).2.2 v version hgot
  rintro s a s' ⟨h, hf, hold⟩ hok hst
  have hstep := h.step hok hst
  refine ⟨hstep.inv, hstep.later.floor k n hf, fun v version heq => ?_⟩
  obtain hsame | hle := hstep.got g k v version n heq hf
  · exact hold v version hsame
  · exact hle

end Sys

/-- A call has returned a version of the key. -/
def Pc.Returned (k : Key) (version : ℕ) : Pc Key Value → Prop
  | .got k' _ version' | .wrote k' version' => k' = k ∧ version' = version
  | _ => False

namespace Sys

/-- If the cache is only filled with what the provider has at that time: when a `Get` or a `Set` has
returned a version of the key in state `s`, or a `Delete` has returned there that removed the
versions up to `before`, then a `Get` of the key that begins later returns a version that is not
smaller, or larger than `before`. -/
theorem config_center_monotone {ttl : ℤ} {s s₁ s₂ s₃ : Sys Key Value} {g : ℕ} {k : Key}
    {tr : List (Act Key Value)} {v : Value} {version : ℕ} (hr : (lts ttl).Run Current tr s)
    (hl : Leads ttl s s₁) (hs : s₁.step ttl (.get g k) = some s₂) (hl' : Leads ttl s₂ s₃)
    (hg : s₃.pc g = .got k v version) :
    (∀ u n, (s.pc u).Returned k n → n ≤ version) ∧
    ∀ u before, s.pc u = .deleted k before → before < version := by
  have h := inv_of_run hr
  have h₁ := hl.inv h
  have hstep := h₁.step (a := .get g k) trivial hs
  have hfresh : ∀ v version, s₂.pc g ≠ .got k v version := by
    intro v version heq
    simp only [Sys.step, Sys.begin] at hs
    split_ifs at hs
    cases hs
    cases (Function.update_self g (Pc.lookup k) s₁.pc).symm.trans heq
  have hfloor : ∀ n, s.center.Floor k n → n ≤ version := by
    intro n hf
    exact hl'.got hstep.inv (hstep.later.floor k n (hl.floor h hf)) hfresh hg
  constructor
  · intro u n hret
    have hfits := h.fits u
    cases hp : s.pc u with
    | got k' v' version' =>
      rw [hp] at hret hfits
      obtain ⟨rfl, rfl⟩ := hret
      exact hfloor _ hfits
    | wrote k' version' =>
      rw [hp] at hret hfits
      obtain ⟨rfl, rfl⟩ := hret
      exact hfloor _ hfits
    | _ =>
      rw [hp] at hret
      exact hret.elim
  · intro u before hdel
    have hfits := h.fits u
    rw [hdel] at hfits
    exact hfloor _ hfits

/-- The step fills the cache with a current value only. -/
def current (s : Sys ℕ ℕ) : Act ℕ ℕ → Bool
  | .advance g => (s.pc g).filling.all fun f => s.center.provider.data f.1 = some f.2
  | _ => true

theorem current_of_check {s : Sys ℕ ℕ} {a : Act ℕ ℕ} (h : s.current a = true) : s.Current a := by
  cases a with
  | advance g =>
    intro k v version hf
    rw [current, hf] at h
    simpa using h
  | _ => trivial

/-- Goroutine 0 stores a value, which gets version 1. -/
def setOne : List (Act ℕ ℕ) := [.set 0 5 70, .call 0 (.ok 1), .advance 0]

theorem config_center_monotone_cached :
    ∃ s s₁ s₂ : Sys ℕ ℕ, (lts 30).Run Current setOne s ∧ s.pc 0 = .wrote 5 1 ∧
      s.step 30 (.get 1 5) = some s₁ ∧ Leads 30 s₁ s₂ ∧ s₂.pc 1 = .got 5 70 1 ∧
      ∀ u n, (s.pc u).Returned 5 n → n ≤ 1 := by
  obtain ⟨s, hrun, hwrote, hrest, hhit⟩ := LTS.exists_checked_run (A := lts 30)
    (f := fun s a => s.step 30 a) (fun _ _ _ h => h)
    (fun s a => current_of_check (s := s) (a := a)) rfl setOne
    (P := fun s => s.pc 0 = .wrote 5 1 ∧ (s.pc 1).atRest = true ∧
      s.center.getFromCache 5 = some (70, 1)) (by decide) fun _ _ h => h
  have hget : s.step 30 (.get 1 5) = some ⟨s.center, Function.update s.pc 1 (.lookup 5)⟩ :=
    if_pos hrest
  have hl : Leads 30 ⟨s.center, Function.update s.pc 1 (.lookup 5)⟩
      ⟨s.center, Function.update (Function.update s.pc 1 (.lookup 5)) 1 (.got 5 70 1)⟩ := by
    refine LTS.Leads.single (l := .advance 1) (fun k v version hf => ?_) ?_
    · simp only [Function.update_self] at hf
      cases hf
    · simp only [lts, Sys.step, Function.update_self, Center.exec, hhit, Option.map_some]
  have hgot : (⟨s.center, Function.update (Function.update s.pc 1 (.lookup 5)) 1 (.got 5 70 1)⟩ :
      Sys ℕ ℕ).pc 1 = .got 5 70 1 := by simp only [Function.update_self]
  exact ⟨s, _, _, hrun, hwrote, hget, hl, hgot,
    (config_center_monotone hrun (.refl s) hget hl hgot).1⟩

/-- A `Get` finds that the cache has expired and reads version 1 from the provider.  Before it puts
that into the cache, goroutine 2 makes another call.  Then goroutine 3 calls `Get`. -/
def slowGet (call : List (Act ℕ ℕ)) : List (Act ℕ ℕ) :=
  setOne ++ [.tick 31, .get 1 5, .advance 1, .call 1 (.ok 0)] ++ call ++ [.advance 1] ++
  [.get 3 5, .advance 3]

/-- A `Get` that begins after a `Set` has returned version 2 returns version 1; and one that begins
after a `Delete` has returned, with no `Set` since, returns the deleted value. -/
theorem stale_fill :
    (∃ s, (lts 30).Run LTS.anyStep
        (slowGet [.set 2 5 71, .call 2 (.ok 2), .advance 2]) s ∧
      s.pc 2 = .wrote 5 2 ∧ s.pc 3 = .got 5 70 1) ∧
    ∃ s, (lts 30).Run LTS.anyStep (slowGet [.delete 2 5, .call 2 (.ok 0), .advance 2]) s ∧
      s.pc 2 = .deleted 5 1 ∧ s.pc 3 = .got 5 70 1 := by
  constructor
  · exact LTS.exists_run_of_exec (f := fun s a => s.step 30 a) (fun _ _ _ h => h) rfl _
      (by decide) fun _ _ h => h
  · exact LTS.exists_run_of_exec (f := fun s a => s.step 30 a) (fun _ _ _ h => h) rfl _
      (by decide) fun _ _ h => h

end Sys

end ConfigCenter

end GinRpc
