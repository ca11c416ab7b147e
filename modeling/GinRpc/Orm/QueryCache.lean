import GinRpc.Data.AList
import GinRpc.LTS.Threads
import GinRpc.Orm.Dialect

/-!
# Cached queries

Model of `CachedDB` in `plugins/db/orm/query_cache.go`: `CachedQuery` and `Exec`, called by any
number of goroutines.  Each operation on the database and each operation on the cache is one step.

The database, the arguments and the hash function are parameters (`Env`).  Three things are
recorded that the code does not have: the number of statements that have taken effect, with each
result the number at which it was read, and with each entry of the cache the call that stored it.

* `Cached.Effect`, `Cached.effect_of_step` : what a step can do.
* `Cached.fresh_of_settled` : a query that begins after an `Exec` has returned sees its statement,
  along every run in which the cache is empty and no result is waiting to be stored whenever a
  statement takes effect.
* `Cached.stale_after_exec` : `Exec` clears the cache before its statement takes effect, so a result
  from before the statement can be stored after it.
-/

namespace GinRpc

namespace Orm

/-- A query text with its arguments. -/
structure Call (V : Type) where
  query : Text
  args : List V
  deriving DecidableEq

/-- What a cached database is built on. -/
structure Env (V D R : Type) where
  /-- the verb `%v` -/
  render : V → Text
  md5 : Text → List UInt8
  /-- all rows of a query, or an error -/
  rows : Call V → D → Option R
  /-- the database after a statement, or an error -/
  effect : Call V → D → Option D

/-- An entry of the cache. -/
structure CacheEntry (V R : Type) where
  data : R
  version : ℕ
  stored : Call V

/-- `hex.EncodeToString`. -/
def hexEncode (bytes : List UInt8) : Text :=
  bytes.flatMap fun b => [Nat.digitChar (b.toNat / 16), Nat.digitChar (b.toNat % 16)]

section

variable {V D R : Type} (env : Env V D R)

/-- What is written into the hash: the query, and the arguments one after the other. -/
def Call.text (c : Call V) : Text := c.query ++ c.args.flatMap env.render

def generateCacheKey (c : Call V) : Text := hexEncode (env.md5 (c.text env))

end

/-- Some values that are passed as arguments. -/
inductive Arg where
  | nil
  | bool (b : Bool)
  | int (n : ℤ)
  | string (t : Text)
  deriving DecidableEq

/-- The verb `%v` on these values. -/
def Arg.render : Arg → Text
  | .nil => "<nil>"
  | .bool b => if b then "true" else "false"
  | .int n => Text.itoa n
  | .string t => t

/-- The three bytes of a code point. -/
def codePoint (c : Char) : List UInt8 :=
  [.ofNat (c.toNat % 256), .ofNat (c.toNat / 256 % 256), .ofNat (c.toNat / 65536)]

/-- A database that is a number: queries read it, statements increment it.  The code points of a
text stand for a hash without collisions. -/
def counter : Env Arg ℕ ℕ where
  render := Arg.render
  md5 := List.flatMap codePoint
  rows _ n := some n
  effect _ n := some (n + 1)

def readCounter : Call Arg := ⟨"SELECT n FROM counter", []⟩

def bumpCounter : Call Arg := ⟨"UPDATE counter SET n = n + 1", []⟩

def isSelectQuery (query : Text) : Bool :=
  ("SELECT" : Text).isPrefixOf (Text.trimSpace (query.map Text.toUpper))

/-- What a goroutine does next. -/
inductive CachePc (V R : Type) where
  | idle
  /-- `CachedQuery` before `cache.Get`; `since` statements of returned calls had taken effect when
  it began -/
  | get (c : Call V) (since : ℕ)
  /-- `CachedQuery` before `db.Query` -/
  | query (c : Call V) (since : ℕ)
  /-- `CachedQuery` before `cache.Set` -/
  | set (c : Call V) (since : ℕ) (data : R) (version : ℕ)
  /-- `CachedQuery` has returned a result, of an entry that `stored` has made or of the database -/
  | answered (c : Call V) (since : ℕ) (data : R) (version : ℕ) (stored : Option (Call V))
  /-- `Exec` before `cache.Clear` -/
  | clear (c : Call V)
  /-- `Exec` before `db.Exec` -/
  | exec (c : Call V)
  /-- `Exec` before it returns; its statement was number `version` -/
  | leave (version : ℕ)
  | done
  | failed
  deriving DecidableEq

/-- The database, the cache and the goroutines. -/
structure Cached (V D R : Type) where
  db : D
  /-- how many statements have taken effect -/
  version : ℕ := 0
  /-- the number of the last statement whose `Exec` has returned -/
  returned : ℕ := 0
  cache : AList fun _ : Text => CacheEntry V R := ∅
  pc : ℕ → CachePc V R := fun _ => .idle

inductive CacheAct (V : Type) where
  | cachedQuery (i : ℕ) (c : Call V)
  | exec (i : ℕ) (c : Call V)
  | step (i : ℕ)
  /-- an entry is removed: it is too old, or the cache is full -/
  | expire (key : Text)
  deriving DecidableEq

namespace Cached

section

variable {V D R : Type} (env : Env V D R) (s : Cached V D R)

def goto (i : ℕ) (pc : CachePc V R) : Cached V D R := { s with pc := Function.update s.pc i pc }

/-- The next operation of a goroutine. -/
def execPc (i : ℕ) : CachePc V R → Option (Cached V D R)
  | .get c since =>
    match s.cache.lookup (generateCacheKey env c) with
    | some e => some (s.goto i (.answered c since e.data e.version (some e.stored)))
    | none => some (s.goto i (.query c since))
  | .query c since =>
    match env.rows c s.db with
    | some data => some (s.goto i (.set c since data s.version))
    | none => some (s.goto i .failed)
  | .set c since data version =>
    some ({ s with cache := s.cache.insert (generateCacheKey env c) ⟨data, version, c⟩ }.goto i
      (.answered c since data version none))
  | .clear c => some ({ s with cache := ∅ }.goto i (.exec c))
  | .exec c =>
    match env.effect c s.db with
    | some db =>
      some ({ s with db := db, version := s.version + 1 }.goto i (.leave (s.version + 1)))
    | none => some (s.goto i .failed)
  | .leave version => some ({ s with returned := max s.returned version }.goto i .done)
  | .idle | .answered _ _ _ _ _ | .done | .failed => none

/-- A call begins. -/
def start (i : ℕ) (pc : CachePc V R) : Option (Cached V D R) :=
  match s.pc i with
  | .idle => some (s.goto i pc)
  | _ => none

def step : CacheAct V → Option (Cached V D R)
  | .cachedQuery i c =>
    if isSelectQuery c.query then s.start i (.get c s.returned) else s.start i .failed
  | .exec i c => s.start i (.clear c)
  | .step i => s.execPc env i (s.pc i)
  | .expire key => some { s with cache := s.cache.erase key }

/-- All interleavings of the calls, on any database and with an empty cache. -/
def lts : LTS (Cached V D R) (CacheAct V) where
  init s := ∃ db, s = { db := db }
  step s a s' := s.step env a = some s'

end

variable {V D R : Type} {env : Env V D R} {s s' : Cached V D R}

theorem pc_goto {i j : ℕ} {pc : CachePc V R} :
    (s.goto i pc).pc j = if j = i then pc else s.pc j :=
  Function.update_apply ..

/-- What holds of every goroutine still does when one of them goes on. -/
theorem forall_goto {Q : CachePc V R → Prop} (h : ∀ j, Q (s.pc j)) {i : ℕ} {pc : CachePc V R}
    (hpc : Q pc) (j : ℕ) : Q ((s.goto i pc).pc j) := by
  rw [pc_goto]
  split_ifs
  · exact hpc
  · exact h j

/-- What a step does, and what it has seen. -/
inductive Effect (env : Env V D R) (s : Cached V D R) : CacheAct V → Cached V D R → Prop
  | refuse {i : ℕ} {c : Call V} : Effect env s (.cachedQuery i c) (s.goto i .failed)
  | ask {i : ℕ} {c : Call V} : isSelectQuery c.query = true →
      Effect env s (.cachedQuery i c) (s.goto i (.get c s.returned))
  | modify {i : ℕ} {c : Call V} : Effect env s (.exec i c) (s.goto i (.clear c))
  | hit {i since : ℕ} {c : Call V} {e : CacheEntry V R} : s.pc i = .get c since →
      s.cache.lookup (generateCacheKey env c) = some e →
      Effect env s (.step i) (s.goto i (.answered c since e.data e.version (some e.stored)))
  | miss {i since : ℕ} {c : Call V} : s.pc i = .get c since →
      Effect env s (.step i) (s.goto i (.query c since))
  | read {i since : ℕ} {c : Call V} {data : R} : s.pc i = .query c since →
      env.rows c s.db = some data →
      Effect env s (.step i) (s.goto i (.set c since data s.version))
  | fill {i since version : ℕ} {c : Call V} {data : R} : s.pc i = .set c since data version →
      Effect env s (.step i)
        ({ s with cache := s.cache.insert (generateCacheKey env c) ⟨data, version, c⟩ }.goto i
          (.answered c since data version none))
  | clear {i : ℕ} {c : Call V} : s.pc i = .clear c →
      Effect env s (.step i) ({ s with cache := ∅ }.goto i (.exec c))
  | exec {i : ℕ} {c : Call V} {db : D} : s.pc i = .exec c → env.effect c s.db = some db →
      Effect env s (.step i)
        ({ s with db := db, version := s.version + 1 }.goto i (.leave (s.version + 1)))
  | leave {i version : ℕ} : s.pc i = .leave version →
      Effect env s (.step i) ({ s with returned := max s.returned version }.goto i .done)
  | fail {i : ℕ} : Effect env s (.step i) (s.goto i .failed)
  | expire {key : Text} : Effect env s (.expire key) { s with cache := s.cache.erase key }

theorem effect_of_execPc {i : ℕ} (hs : s.execPc env i (s.pc i) = some s') :
    Effect env s (.step i) s' := by
  cases hpc : s.pc i with
  | get c since =>
    rw [hpc, execPc] at hs
    split at hs
    · next e he =>
      cases hs
      exact .hit hpc he
    · cases hs
      exact .miss hpc
  | query c since =>
    rw [hpc, execPc] at hs
    split at hs
    · next data hd =>
      cases hs
      exact .read hpc hd
    · cases hs
      exact .fail
  | set c since data version =>
    rw [hpc, execPc] at hs
    cases hs
    exact .fill hpc
  | clear c =>
    rw [hpc, execPc] at hs
    cases hs
    exact .clear hpc
  | exec c =>
    rw [hpc, execPc] at hs
    split at hs
    · next db hdb =>
      cases hs
      exact .exec hpc hdb
    · cases hs
      exact .fail
  | leave version =>
    rw [hpc, execPc] at hs
    cases hs
    exact .leave hpc
  | idle | answered | done | failed =>
    rw [hpc] at hs
    cases hs

theorem eq_goto_of_start {i : ℕ} {pc : CachePc V R} (hs : s.start i pc = some s') :
    s' = s.goto i pc := by
  rw [start] at hs
  split at hs
  · exact (Option.some.inj hs).symm
  · cases hs

theorem effect_of_step {a : CacheAct V} (hs : s.step env a = some s') : Effect env s a s' := by
  cases a with
  | cachedQuery i c =>
    rw [step] at hs
    split_ifs at hs with hsel
    · obtain rfl := eq_goto_of_start hs
      exact .ask hsel
    · obtain rfl := eq_goto_of_start hs
      exact .refuse
  | exec i c =>
    obtain rfl := eq_goto_of_start hs
    exact .modify
  | step i => exact effect_of_execPc hs
  | expire key =>
    cases hs
    exact .expire

/-! ### Freshness -/

/-- A query that began after an `Exec` had returned has a result from after its statement. -/
def Fresh (s : Cached V D R) : Prop :=
  ∀ i c since data version stored, s.pc i = .answered c since data version stored →
    since ≤ version

/-- When a statement takes effect, the cache is empty and no result waits to be stored. -/
def Settled (env : Env V D R) (s : Cached V D R) (a : CacheAct V) : Prop :=
  ∀ i c, a = .step i → s.pc i = .exec c → (env.effect c s.db).isSome = true →
    s.cache.entries = [] ∧ ∀ j d since data version, s.pc j ≠ .set d since data version

/-- What is true at each place of a call after `v` statements. -/
def Fits (v : ℕ) : CachePc V R → Prop
  | .get _ since | .query _ since => since ≤ v
  | .set _ since _ version => since ≤ version ∧ version = v
  | .answered _ since _ version _ => since ≤ version
  | .leave version => version ≤ v
  | .idle | .clear _ | .exec _ | .done | .failed => True

/-- Another statement takes effect. -/
theorem Fits.succ {v : ℕ} {pc : CachePc V R} (h : Fits v pc)
    (hset : ∀ c since data version, pc ≠ .set c since data version) : Fits (v + 1) pc := by
  cases pc with
  | set c since data version => exact absurd rfl (hset c since data version)
  | get | query | leave => exact Nat.le_succ_of_le h
  | _ => exact h

/-- Everything in the cache is as the database is now. -/
structure Current (s : Cached V D R) : Prop where
  fits : ∀ i, Fits s.version (s.pc i)
  entry : ∀ key e, s.cache.lookup key = some e → e.version = s.version
  returned : s.returned ≤ s.version

theorem current_init (db : D) : Current ({ db := db } : Cached V D R) :=
  ⟨fun _ => trivial, nofun, le_rfl⟩

/-- A goroutine goes on, and the rest stays as it is. -/
theorem Current.goto (h : s.Current) {i : ℕ} {pc : CachePc V R} (hpc : Fits s.version pc) :
    (s.goto i pc).Current :=
  ⟨forall_goto h.fits hpc, h.entry, h.returned⟩

theorem Current.fits_at (h : s.Current) {i : ℕ} {pc : CachePc V R} (hpc : s.pc i = pc) :
    Fits s.version pc :=
  hpc ▸ h.fits i

theorem Current.insert (h : s.Current) {key : Text} {e : CacheEntry V R}
    (he : e.version = s.version) : Current { s with cache := s.cache.insert key e } :=
  ⟨h.fits, AList.forall_lookup_insert h.entry he, h.returned⟩

theorem Current.erase (h : s.Current) {key : Text} :
    Current { s with cache := s.cache.erase key } :=
  ⟨h.fits, AList.forall_lookup_erase h.entry, h.returned⟩

/-- A statement takes effect: nothing is left that could be out of date. -/
theorem Current.takeEffect (h : s.Current) {db : D} (hcache : s.cache.entries = [])
    (hset : ∀ j d since data version, s.pc j ≠ .set d since data version) :
    Current { s with db := db, version := s.version + 1 } := by
  have hempty : s.cache = ∅ := AList.ext hcache
  refine ⟨fun j => (h.fits j).succ (hset j), fun key e he => ?_, Nat.le_succ_of_le h.returned⟩
  rw [hempty] at he
  cases he

theorem Current.step (h : s.Current) {a : CacheAct V} (hok : s.Settled env a)
    (hs : s.step env a = some s') : s'.Current := by
  cases effect_of_step hs with
  | refuse | modify | fail => exact h.goto trivial
  | ask _ => exact h.goto h.returned
  | hit hpc he =>
    have hsince : _ ≤ s.version := h.fits_at hpc
    exact h.goto (hsince.trans_eq (h.entry _ _ he).symm)
  | miss hpc =>
    have hsince : _ ≤ s.version := h.fits_at hpc
    exact h.goto hsince
  | read hpc _ => exact h.goto ⟨h.fits_at hpc, rfl⟩
  | fill hpc =>
    obtain ⟨hsince, hversion⟩ := h.fits_at hpc
    exact (h.insert hversion).goto hsince
  | clear hpc =>
    have hclear : Current { s with cache := ∅ } :=
      ⟨h.fits, nofun, h.returned⟩
    exact hclear.goto trivial
  | @exec i c db hpc hdb =>
    obtain ⟨hcache, hset⟩ := hok i c rfl hpc (by rw [hdb]; rfl)
    exact (h.takeEffect hcache hset).goto (Nat.le_refl (s.version + 1))
  | leave hpc =>
    have hleave : Current { s with returned := max s.returned _ } :=
      ⟨h.fits, h.entry, max_le h.returned (h.fits_at hpc)⟩
    exact hleave.goto trivial
  | expire => exact h.erase

/-- **A query that begins after an `Exec` has returned sees its statement**, along every run in
which the cache is empty and no result waits to be stored whenever a statement takes effect. -/
theorem fresh_of_settled {tr : List (CacheAct V)} (hrun : (lts env).Run (Settled env) tr s) :
    s.Fresh := by
  have h : s.Current := by
    refine hrun.invariant (I := Current) ?_ ?_
    · rintro _ ⟨db, rfl⟩
      exact current_init db
    · rintro s a s' h hok hs
      exact h.step hok hs
  intro i c since data version stored hpc
  exact h.fits_at hpc

/-- A settled step of the goroutines in a list, checked by evaluation. -/
def settled (ts : List ℕ) (env : Env V D R) (s : Cached V D R) : CacheAct V → Bool
  | .cachedQuery i _ | .exec i _ => decide (i ∈ ts)
  | .step i =>
    decide (i ∈ ts) &&
    match s.pc i with
    | .exec c =>
      (env.effect c s.db).isNone || s.cache.entries.isEmpty && ts.all fun j =>
        match s.pc j with
        | .set _ _ _ _ => false
        | _ => true
    | _ => true
  | .expire _ => true

theorem quiet_of_effect {ts : List ℕ} {a : CacheAct V} (h : LTS.Quiet .idle ts s.pc)
    (hok : s.settled ts env a = true) (heff : Effect env s a s') :
    LTS.Quiet .idle ts s'.pc := by
  cases heff with
  | expire => exact h
  | refuse | ask | modify => exact h.update (of_decide_eq_true hok)
  | _ => exact h.update (of_decide_eq_true (Bool.and_eq_true_iff.1 hok).1)

theorem settled_of_check {ts : List ℕ} {a : CacheAct V} (h : LTS.Quiet .idle ts s.pc)
    (hc : s.settled ts env a = true) (hs : s.step env a = some s') :
    s.Settled env a ∧ (lts env).step s a s' ∧ LTS.Quiet .idle ts s'.pc := by
  refine ⟨?_, hs, quiet_of_effect h hc (effect_of_step hs)⟩
  rintro i c rfl hpc hdb
  have hexec := (Bool.and_eq_true_iff.1 hc).2
  rw [hpc, Bool.or_eq_true, Option.isNone_iff_eq_none] at hexec
  have hall := hexec.resolve_left fun hnone => by rw [hnone] at hdb; cases hdb
  obtain ⟨hcache, hset⟩ := Bool.and_eq_true_iff.1 hall
  refine ⟨List.isEmpty_iff.1 hcache, fun j d since data version hj => ?_⟩
  refine h.forall (Q := fun pc => pc ≠ .set d since data version) nofun (fun u hu hu' => ?_) j hj
  have := List.all_eq_true.1 hset u hu
  rw [hu'] at this
  cases this

/-- A goroutine takes `n` steps. -/
def steps (n i : ℕ) : List (CacheAct V) := List.replicate n (.step i)

/-- A query, then a statement, then the query again. -/
def inTurn (q w : Call V) : List (CacheAct V) :=
  .cachedQuery 0 q :: steps 3 0 ++ .exec 1 w :: steps 3 1 ++ .cachedQuery 2 q :: steps 3 2

/-- The first query has read the database and stores what it has read after the statement. -/
def lateFill (q w : Call V) : List (CacheAct V) :=
  .cachedQuery 0 q :: steps 2 0 ++ .exec 1 w :: steps 3 1 ++ steps 1 0 ++
    .cachedQuery 2 q :: steps 1 2

theorem fresh_in_turn :
    ∃ s, (lts counter).Run (Settled counter) (inTurn readCounter bumpCounter) s ∧
      s.pc 2 = .answered readCounter 1 1 1 none ∧ s.Fresh := by
  exact LTS.exists_guarded_run (A := lts counter) (J := fun s => LTS.Quiet .idle [0, 1, 2] s.pc)
    (fun _ _ _ => settled_of_check) ⟨0, rfl⟩ (fun _ _ => rfl) _ (by decide)
    fun s hrun hpc => ⟨hpc, fresh_of_settled hrun⟩

/-- The second query begins after the statement and gets the number from before it. -/
theorem stale_after_exec :
    ∃ s, (lts counter).Run LTS.anyStep (lateFill readCounter bumpCounter) s ∧
      s.pc 2 = .answered readCounter 1 0 0 (some readCounter) ∧ ¬ s.Fresh := by
  refine LTS.exists_run_of_exec (A := lts counter) (f := fun s a => s.step counter a)
    (fun _ _ _ h => h) ⟨0, rfl⟩ _
    (P := fun s => s.pc 2 = .answered readCounter 1 0 0 (some readCounter)) (by decide)
    fun s hrun hpc => ?_
  refine ⟨hpc, fun hfresh => ?_⟩
  exact absurd (hfresh 2 _ _ _ _ _ hpc) (by decide)

end Cached

end Orm

end GinRpc
