import GinRpc.Data.BlockCode
import GinRpc.Orm.QueryCache

/-!
# Keys of cached queries

Which calls of `CachedQuery` share an entry of the cache.  The key is a hash of the query followed
by the texts of the arguments, with nothing between them and nothing that tells their types.

* `hexEncode_injective` : the key determines the hash.
* `Cached.keyed_of_run` : an entry lies under the key of the call that stored it.
* `Cached.serves_only_itself_iff` : for a hash without collisions, a result is served to no other
  call exactly if no other call is written into the hash as the same text.
* `Cached.serves_other` : two calls with different arguments for which this is so.
-/

namespace GinRpc

namespace Orm

theorem digitChar_inj : ∀ m < 16, ∀ n < 16, Nat.digitChar m = Nat.digitChar n → m = n := by
  decide

theorem hexEncode_injective : Function.Injective hexEncode := by
  refine List.flatMap_injective_of_block (Nat.succ_pos 1) (fun _ => rfl) fun a b h => ?_
  have ha := a.toNat_lt
  have hb := b.toNat_lt
  simp only [List.cons.injEq, and_true] at h
  have hhigh := digitChar_inj _ (by omega) _ (by omega) h.1
  have hlow := digitChar_inj _ (by omega) _ (by omega) h.2
  exact UInt8.toNat_inj.1 (by omega)

theorem codePoint_injective : Function.Injective codePoint := by
  intro a b h
  have ha : a.toNat.isValidChar := a.valid
  have hb : b.toNat.isValidChar := b.valid
  simp only [codePoint, List.cons.injEq, and_true, ← UInt8.toNat_inj, UInt8.toNat_ofNat'] at h
  exact Char.toNat_inj.1 (by omega)

theorem md5_counter_injective : Function.Injective counter.md5 :=
  List.flatMap_injective_of_block (Nat.succ_pos 2) (fun _ => rfl) codePoint_injective

section

variable {V D R : Type} {env : Env V D R} {c d : Call V}

theorem generateCacheKey_eq_iff (hmd5 : Function.Injective env.md5) :
    generateCacheKey env c = generateCacheKey env d ↔ c.text env = d.text env := by
  rw [generateCacheKey, generateCacheKey, hexEncode_injective.eq_iff, hmd5.eq_iff]

variable (env) in
/-- A call whose result can come into the cache. -/
def Cacheable (c : Call V) : Prop :=
  isSelectQuery c.query = true ∧ ∃ db, (env.rows c db).isSome = true

namespace Cached

variable {s s' : Cached V D R}

/-- A call of `d` has been answered with the entry that a call of `c` has stored. -/
def Serves (c d : Call V) (s : Cached V D R) : Prop :=
  ∃ i since data version, s.pc i = .answered d since data version (some c)

/-- What is known about the calls at each place. -/
def Sound (env : Env V D R) : CachePc V R → Prop
  | .get c _ | .query c _ => isSelectQuery c.query = true
  | .set c _ _ _ => Cacheable env c
  | .answered d _ _ _ (some c) =>
    Cacheable env c ∧ isSelectQuery d.query = true ∧
      generateCacheKey env c = generateCacheKey env d
  | _ => True

/-- An entry lies under the key of the call that stored it. -/
structure Keyed (env : Env V D R) (s : Cached V D R) : Prop where
  sound : ∀ i, Sound env (s.pc i)
  entry : ∀ key e, s.cache.lookup key = some e →
    Cacheable env e.stored ∧ generateCacheKey env e.stored = key

theorem Keyed.goto (h : s.Keyed env) {i : ℕ} {pc : CachePc V R} (hpc : Sound env pc) :
    (s.goto i pc).Keyed env :=
  ⟨forall_goto h.sound hpc, h.entry⟩

theorem Keyed.sound_at (h : s.Keyed env) {i : ℕ} {pc : CachePc V R} (hpc : s.pc i = pc) :
    Sound env pc :=
  hpc ▸ h.sound i

theorem Keyed.step (h : s.Keyed env) {a : CacheAct V} (hs : s.step env a = some s') :
    s'.Keyed env := by
  cases effect_of_step hs with
  | refuse | modify | fail => exact h.goto trivial
  | ask hsel => exact h.goto hsel
  | hit hpc he =>
    obtain ⟨hstored, hkey⟩ := h.entry _ _ he
    exact h.goto ⟨hstored, h.sound_at hpc, hkey⟩
  | miss hpc =>
    have hsel : isSelectQuery _ = true := h.sound_at hpc
    exact h.goto hsel
  | read hpc hdata => exact h.goto ⟨h.sound_at hpc, s.db, by rw [hdata]; rfl⟩
  | @fill i since version c data hpc =>
    have hfill : Keyed env
        { s with cache := s.cache.insert (generateCacheKey env c) ⟨data, version, c⟩ } :=
      ⟨h.sound, AList.forall_lookup_insert h.entry ⟨h.sound_at hpc, rfl⟩⟩
    exact hfill.goto trivial
  | clear _ =>
    have hclear : Keyed env { s with cache := ∅ } := ⟨h.sound, nofun⟩
    exact hclear.goto trivial
  | @exec _ _ db _ _ =>
    have hexec : Keyed env { s with db := db, version := s.version + 1 } := ⟨h.sound, h.entry⟩
    exact hexec.goto trivial
  | @leave _ version _ =>
    have hleave : Keyed env { s with returned := max s.returned version } := ⟨h.sound, h.entry⟩
    exact hleave.goto trivial
  | expire => exact ⟨h.sound, AList.forall_lookup_erase h.entry⟩

theorem keyed_of_run {tr : List (CacheAct V)} (hrun : (lts env).Run LTS.anyStep tr s) :
    s.Keyed env := by
  refine hrun.invariant (I := Keyed env) ?_ ?_
  · rintro _ ⟨db, rfl⟩
    exact ⟨fun _ => trivial, nofun⟩
  · rintro s a s' h - hs
    exact h.step hs

/-! ### A call that finds what another one stored -/

theorem step_ask {i : ℕ} (hpc : s.pc i = .idle) (hsel : isSelectQuery c.query = true) :
    s.step env (.cachedQuery i c) = some (s.goto i (.get c s.returned)) := by
  rw [Cached.step, if_pos hsel, start, hpc]

theorem step_miss {i since : ℕ} (hpc : s.pc i = .get c since)
    (hmiss : s.cache.lookup (generateCacheKey env c) = none) :
    s.step env (.step i) = some (s.goto i (.query c since)) := by
  rw [Cached.step, hpc, execPc, hmiss]

theorem step_hit {i since : ℕ} {e : CacheEntry V R} (hpc : s.pc i = .get c since)
    (hhit : s.cache.lookup (generateCacheKey env c) = some e) :
    s.step env (.step i) =
      some (s.goto i (.answered c since e.data e.version (some e.stored))) := by
  rw [Cached.step, hpc, execPc, hhit]

theorem step_read {i since : ℕ} {data : R} (hpc : s.pc i = .query c since)
    (hdata : env.rows c s.db = some data) :
    s.step env (.step i) = some (s.goto i (.set c since data s.version)) := by
  rw [Cached.step, hpc, execPc, hdata]

theorem step_fill {i since version : ℕ} {data : R} (hpc : s.pc i = .set c since data version) :
    s.step env (.step i) =
      some ({ s with cache := s.cache.insert (generateCacheKey env c) ⟨data, version, c⟩ }.goto i
        (.answered c since data version none)) := by
  rw [Cached.step, hpc, execPc]

/-- The first call stores its result, and the second one finds it. -/
theorem exists_run_serves (hc : Cacheable env c) (hd : isSelectQuery d.query = true)
    (hkey : generateCacheKey env c = generateCacheKey env d) :
    ∃ tr s, (lts env).Run LTS.anyStep tr s ∧ s.Serves c d := by
  obtain ⟨hsel, db, hrows⟩ := hc
  obtain ⟨data, hdata⟩ := Option.isSome_iff_exists.1 hrows
  have h₀ : (lts env).Run LTS.anyStep [] { db := db } := .nil ⟨db, rfl⟩
  have h₁ := h₀.extend (.cachedQuery 0 c) trivial (step_ask rfl hsel)
  have h₂ := h₁.extend (.step 0) trivial (step_miss rfl rfl)
  have h₃ := h₂.extend (.step 0) trivial (step_read rfl hdata)
  have h₄ := h₃.extend (.step 0) trivial (step_fill rfl)
  have h₅ := h₄.extend (.cachedQuery 1 d) trivial (step_ask rfl hd)
  -- the key of `d` is the one under which `c` has stored its result
  have hhit := AList.lookup_insert_apply (s := (∅ : AList fun _ : Text => CacheEntry V R))
    (a := generateCacheKey env c) (d := generateCacheKey env d) (b := ⟨data, 0, c⟩)
  rw [if_pos hkey.symm] at hhit
  have h₆ := h₅.extend (.step 1) trivial (step_hit rfl hhit)
  exact ⟨_, _, h₆, 1, _, _, _, rfl⟩

/-- **A result is served to no other call**, in any run, exactly if no other call is written into
the hash as the same text. -/
theorem serves_only_itself_iff (hmd5 : Function.Injective env.md5) (c d : Call V) :
    (∀ tr s, (lts env).Run LTS.anyStep tr s → s.Serves c d → c = d) ↔
      (Cacheable env c → isSelectQuery d.query = true → c.text env = d.text env → c = d) := by
  constructor
  · intro h hc hd htext
    obtain ⟨tr, s, hrun, hserves⟩ :=
      exists_run_serves hc hd ((generateCacheKey_eq_iff hmd5).2 htext)
    exact h tr s hrun hserves
  · rintro h tr s hrun ⟨i, since, data, version, hpc⟩
    obtain ⟨hc, hd, hkey⟩ := (keyed_of_run hrun).sound_at hpc
    exact h hc hd ((generateCacheKey_eq_iff hmd5).1 hkey)

/-- Two calls of one query whose arguments run together to the same text. -/
def nameCall (first last : Text) : Call Arg :=
  ⟨"SELECT id FROM users WHERE first = ? AND last = ?", [.string first, .string last]⟩

/-- No query for one name is answered with the result for the other one. -/
theorem serves_only_itself_ann :
    Function.Injective counter.md5 ∧
      ∀ tr s, (lts counter).Run LTS.anyStep tr s →
        s.Serves (nameCall "ann" "lee") (nameCall "bob" "lee") →
          nameCall "ann" "lee" = nameCall "bob" "lee" :=
  ⟨md5_counter_injective, (serves_only_itself_iff md5_counter_injective _ _).2
    fun _ _ htext => absurd htext (by decide)⟩

/-- The result for one name is served to a query for another name. -/
theorem serves_other :
    Function.Injective counter.md5 ∧ nameCall "ann" "alee" ≠ nameCall "anna" "lee" ∧
      ∃ tr s, (lts counter).Run LTS.anyStep tr s ∧
        s.Serves (nameCall "ann" "alee") (nameCall "anna" "lee") :=
  ⟨md5_counter_injective, by decide,
    exists_run_serves ⟨by decide, 0, rfl⟩ (by decide)
      ((generateCacheKey_eq_iff md5_counter_injective).2 (by decide))⟩

/-- So is the result for a number to a query for the text of that number. -/
example :
    Call.text counter ⟨"SELECT ?", [.int 1]⟩ = Call.text counter ⟨"SELECT ?", [.string "1"]⟩ := by
  decide

end Cached

end

end Orm

end GinRpc
