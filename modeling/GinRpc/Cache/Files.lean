import GinRpc.Cache.Storage
import GinRpc.Data.Path

/-!
# The storages in a directory

Model of `FileStorage` in `plugins/cache/failover/storage.go` and of `FileCache` in
`plugins/db/orm/query_cache.go`.  The file system is a map from cleaned paths to contents; reading
and writing JSON is a parameter (`Codec`).  `GinRpc.Cache.Cleanup` has the goroutine that removes
files when there are too many of them.

* `files_answer_iff` : both answer like the storages in memory, on all calls with keys in a given
  set, exactly if no two keys of the set get the same file name.
* `files_confuse_keys` : the keys `a/b` and `a_b` get the same file name.
-/

namespace GinRpc

namespace Cache

variable {V B : Type}

/-- `json.Marshal` and `json.Unmarshal` of an entry. -/
structure Codec (V B : Type) where
  marshal : CacheEntry V → Option B
  unmarshal : B → Option (CacheEntry V)

/-- JSON decodes the value back to itself. -/
def Codec.Faithful (codec : Codec V B) (value : V) : Prop :=
  ∀ timestamp ttl, ∃ data, codec.marshal ⟨value, timestamp, ttl⟩ = some data ∧
    codec.unmarshal data = some ⟨value, timestamp, ttl⟩

/-- What `Set` and `Delete` of `FileStorage` report. -/
inductive StorageError where
  | marshal
  | notExist
  deriving DecidableEq

/-- Paths and what is in the files; every name is accepted. -/
abbrev FileSystem (B : Type) := AList fun _ : Path => B

/-- The names of the files of a directory. -/
def readDir (fs : FileSystem B) (directory : Text) : List Text :=
  fs.keys.filterMap fun p =>
    if p.rooted = (Path.clean directory).rooted ∧ p.elems.dropLast = (Path.clean directory).elems
    then p.elems.getLast? else none

/-- `strings.ReplaceAll` for single characters. -/
def replaceAll (old new : Char) (t : Text) : Text := t.map fun c => if c = old then new else c

/-- The key made safe for the file system. -/
def safeKey (key : Text) : Text := replaceAll ':' '_' (replaceAll '/' '_' key)

section

variable (codec : Codec V B) (directory suffix : Text)

def getFilePath (key : Text) : Path := Path.join directory (safeKey key ++ suffix)

/-- The body of `Get` in both storages. -/
def getFile (fs : FileSystem B) (now : ℤ) (key : Text) : FileSystem B × Option V :=
  match fs.lookup (getFilePath directory suffix key) with
  | none => (fs, none)
  | some data =>
    match codec.unmarshal data with
    | none => (fs, none)
    | some entry =>
      -- a file that is too old is removed by the reader
      if entry.isExpired now then (fs.erase (getFilePath directory suffix key), none)
      else (fs, some entry.data)

/-- The body of `Set`. -/
def setFile (fs : FileSystem B) (now : ℤ) (key : Text) (value : V) (ttl : ℤ) :
    FileSystem B × Option StorageError :=
  match codec.marshal ⟨value, now, ttl⟩ with
  | none => (fs, some .marshal)
  | some data => (fs.insert (getFilePath directory suffix key) data, none)

/-- The body of `Delete`. -/
def deleteFile (fs : FileSystem B) (key : Text) : FileSystem B × Option StorageError :=
  match fs.lookup (getFilePath directory suffix key) with
  | none => (fs, some .notExist)
  | some _ => (fs.erase (getFilePath directory suffix key), none)

/-- The body of `Clear`, which removes the files of the directory whose names satisfy `mine`. -/
def clearFiles (mine : Text → Bool) (fs : FileSystem B) : FileSystem B :=
  ((readDir fs directory).filter mine).foldl
    (fun fs name => fs.erase (Path.join directory name)) fs

/-- A storage in a directory; `FileCache` drops the errors. -/
def filesMachine (mine : Text → Bool) : Machine (FileSystem B) (Call V) (Option V) where
  step fs c :=
    match c.op with
    | .get key => getFile codec directory suffix fs c.now key
    | .set key value ttl => ((setFile codec directory suffix fs c.now key value ttl).1, none)
    | .delete key => ((deleteFile directory suffix fs key).1, none)
    | .clear => (clearFiles directory mine fs, none)

end

/-- `FileStorage`, with a suffix that turns every key into the name of a file. -/
structure FileStorage where
  directory : Text
  fileSuffix : Text
  isName : ∀ key, Path.IsName (safeKey key ++ fileSuffix)

def FileStorage.machine (f : FileStorage) (codec : Codec V B) :
    Machine (FileSystem B) (Call V) (Option V) :=
  filesMachine codec f.directory f.fileSuffix fun name => f.fileSuffix.isSuffixOf name

structure FileCache where
  directory : Text

/-- `FileCache` clears its whole directory. -/
def FileCache.machine (f : FileCache) (codec : Codec V B) :
    Machine (FileSystem B) (Call V) (Option V) :=
  filesMachine codec f.directory ".cache" fun _ => true

/-- Calls at non-decreasing times on keys of `K`, with values that JSON decodes back. -/
structure Served (codec : Codec V B) (K : Set Text) (calls : List (Call V)) : Prop where
  sorted : calls.Pairwise fun c d => c.now ≤ d.now
  keys : ∀ c ∈ calls, ∀ key ∈ c.op.key?, key ∈ K
  values : ∀ c ∈ calls, ∀ key value ttl, c.op = .set key value ttl → codec.Faithful value

/-! ### File names -/

theorem not_mem_safeKey (key : Text) : '/' ∉ safeKey key := by
  unfold safeKey replaceAll
  simp only [List.map_map, List.mem_map, Function.comp_apply, not_exists, not_and]
  intro c _
  split_ifs <;> simp_all

/-- Suffixes that turn every key into the name of a file. -/
theorem isName_safeKey_append {suffix : Text} (h : Path.IsName suffix) (key : Text) :
    Path.IsName (safeKey key ++ suffix) := by
  -- the suffix is one of the ends of the name
  have htail : ∀ t : Text, safeKey key ++ suffix = t → suffix ∈ t.tails := fun t ht =>
    (List.mem_tails suffix t).2 ⟨_, ht⟩
  have hends : suffix ∉ (".." : Text).tails := by
    have htails : (".." : Text).tails = ["..".toList, ".".toList, "".toList] := by decide
    simp only [htails, List.mem_cons, List.not_mem_nil, or_false, not_or]
    exact ⟨h.ne_dots, h.ne_dot, h.ne_empty⟩
  have hend : ∀ t : Text, t <:+ (".." : Text) → safeKey key ++ suffix ≠ t := by
    intro t ht he
    exact hends ((List.mem_tails _ _).2 (((List.mem_tails _ _).1 (htail t he)).trans ht))
  refine ⟨?_, hend _ (by decide), hend _ (by decide), hend _ (by decide)⟩
  simp only [List.mem_append, not_or]
  exact ⟨not_mem_safeKey key, h.noSlash⟩

theorem isName_cache (key : Text) : Path.IsName (safeKey key ++ (".cache" : Text)) :=
  isName_safeKey_append ⟨by decide, by decide, by decide, by decide⟩ key

theorem isName_failover (key : Text) : Path.IsName (safeKey key ++ (".failover" : Text)) :=
  isName_safeKey_append ⟨by decide, by decide, by decide, by decide⟩ key

/-- `NewFileStorage` without a suffix of its own. -/
def newFileStorage (directory : Text) : FileStorage where
  directory := if directory = "" then "/tmp/failover_cache" else directory
  fileSuffix := ".failover"
  isName := isName_failover

/-- `NewFileCache` -/
def newFileCache (directory : Text) : FileCache where
  directory := if directory = "" then "/tmp/orm_cache" else directory

theorem mem_readDir {fs : FileSystem B} {directory name : Text} :
    name ∈ readDir fs directory ↔ (Path.clean directory).child name ∈ fs := by
  unfold readDir
  rw [List.mem_filterMap]
  constructor
  · rintro ⟨⟨rooted, elems⟩, hp, h⟩
    split_ifs at h with hdir
    obtain ⟨rfl, hdrop⟩ := hdir
    have he : elems = (Path.clean directory).elems ++ [name] := by
      rw [← hdrop]
      exact (List.dropLast_append_getLast? name h).symm
    subst he
    exact hp
  · intro h
    exact ⟨_, h, by simp [Path.child]⟩

/-! ### A directory against a map -/

section

variable {codec : Codec V B} {directory suffix : Text} {K : Set Text} {fs : FileSystem B}

theorem lookup_clearFiles {mine : Text → Bool} {name : Text} (hname : Path.IsName name)
    (hmine : mine name = true) :
    (clearFiles directory mine fs).lookup (Path.join directory name) = none := by
  have hmap : clearFiles directory mine fs =
      (((readDir fs directory).filter mine).map (Path.join directory)).foldl
        (fun m a => m.erase a) fs := by
    rw [List.foldl_map]
    rfl
  rw [hmap, AList.lookup_foldl_erase]
  split_ifs with h
  · rfl
  · refine AList.lookup_eq_none.2 fun hmem =>
      h (List.mem_map_of_mem (List.mem_filter.2 ⟨?_, hmine⟩))
    rw [Path.join_eq_child hname] at hmem
    exact mem_readDir.2 hmem

theorem getFilePath_injOn (hname : ∀ key, Path.IsName (safeKey key ++ suffix))
    (hK : Set.InjOn safeKey K) : Set.InjOn (getFilePath directory suffix) K := by
  intro a ha b hb h
  unfold getFilePath at h
  rw [Path.join_eq_child (hname a), Path.join_eq_child (hname b)] at h
  exact hK ha hb (List.append_cancel_right (Path.child_injective _ h))

/-- The file of every key of `K` holds the entry of the key. -/
def Mirrors (codec : Codec V B) (directory suffix : Text) (K : Set Text) (fs : FileSystem B)
    (m : MemoryStorage V) : Prop :=
  ∀ key ∈ K, (fs.lookup (getFilePath directory suffix key)).bind codec.unmarshal = m.lookup key

variable {m : MemoryStorage V}

theorem Mirrors.insert (h : Mirrors codec directory suffix K fs m)
    (hinj : Set.InjOn (getFilePath directory suffix) K) {key : Text} (hkey : key ∈ K) {data : B}
    {entry : CacheEntry V} (hdata : codec.unmarshal data = some entry) :
    Mirrors codec directory suffix K (fs.insert (getFilePath directory suffix key) data)
      (m.insert key entry) := by
  intro k hk
  rw [AList.lookup_insert_apply, AList.lookup_insert_apply]
  by_cases hkk : k = key
  · rw [if_pos (by rw [hkk]), if_pos hkk]
    exact hdata
  · rw [if_neg fun he => hkk (hinj hk hkey he), if_neg hkk]
    exact h k hk

theorem Mirrors.erase (h : Mirrors codec directory suffix K fs m)
    (hinj : Set.InjOn (getFilePath directory suffix) K) {key : Text} (hkey : key ∈ K) :
    Mirrors codec directory suffix K (fs.erase (getFilePath directory suffix key))
      (m.erase key) := by
  intro k hk
  rw [AList.lookup_erase_apply, AList.lookup_erase_apply]
  by_cases hkk : k = key
  · rw [if_pos (by rw [hkk]), if_pos hkk]
    rfl
  · rw [if_neg fun he => hkk (hinj hk hkey he), if_neg hkk]
    exact h k hk

theorem Mirrors.get (h : Mirrors codec directory suffix K fs m)
    (hinj : Set.InjOn (getFilePath directory suffix) K) {key : Text} (hkey : key ∈ K)
    (now : ℤ) :
    (getFile codec directory suffix fs now key).2 = (m.get now key).2 ∧
      Mirrors codec directory suffix K (getFile codec directory suffix fs now key).1
        (m.get now key).1 := by
  have hk := h key hkey
  unfold getFile MemoryStorage.get
  rw [← hk]
  cases hf : fs.lookup (getFilePath directory suffix key) with
  | none => exact ⟨rfl, h⟩
  | some data =>
    cases hd : codec.unmarshal data with
    | none => exact ⟨by simp [hd], by simpa [hd] using h⟩
    | some entry =>
      cases he : entry.isExpired now with
      | false => simpa [hd, he] using h
      | true => simpa [hd, he] using h.erase hinj hkey

theorem Mirrors.step (h : Mirrors codec directory suffix K fs m)
    (hname : ∀ key, Path.IsName (safeKey key ++ suffix)) (hK : Set.InjOn safeKey K)
    {mine : Text → Bool} (hmine : ∀ key, mine (safeKey key ++ suffix) = true) {c : Call V}
    (hkeys : ∀ key ∈ c.op.key?, key ∈ K)
    (hvalues : ∀ key value ttl, c.op = .set key value ttl → codec.Faithful value) :
    ((filesMachine codec directory suffix mine).step fs c).2 =
        (MemoryStorage.machine.step m c).2 ∧
      Mirrors codec directory suffix K
        ((filesMachine codec directory suffix mine).step fs c).1
        (MemoryStorage.machine.step m c).1 := by
  have hinj : Set.InjOn (getFilePath directory suffix) K := getFilePath_injOn hname hK
  obtain ⟨now, op⟩ := c
  cases op with
  | get key => exact h.get hinj (hkeys key rfl) now
  | set key value ttl =>
    obtain ⟨data, hm, hu⟩ := hvalues key value ttl rfl now ttl
    refine ⟨rfl, ?_⟩
    change Mirrors _ _ _ _ (setFile codec directory suffix fs now key value ttl).1 _
    rw [setFile, hm]
    exact h.insert hinj (hkeys key rfl) hu
  | delete key =>
    refine ⟨rfl, ?_⟩
    have herase := h.erase hinj (hkeys key rfl)
    change Mirrors _ _ _ _ (deleteFile directory suffix fs key).1 _
    unfold deleteFile
    -- a file that is not there is not there afterwards
    cases hf : fs.lookup (getFilePath directory suffix key) with
    | some data => exact herase
    | none =>
      intro k hk
      refine Eq.trans ?_ (herase k hk)
      rw [AList.lookup_erase_apply]
      split_ifs with he
      · rw [he, hf]
      · rfl
  | clear =>
    refine ⟨rfl, fun key _ => ?_⟩
    change ((clearFiles directory mine fs).lookup (Path.join directory _)).bind _ = none
    rw [lookup_clearFiles (hname key) (hmine key)]
    rfl

/-- A directory in which no two keys share a file answers like a map. -/
theorem filesMachine_log_eq (hname : ∀ key, Path.IsName (safeKey key ++ suffix))
    (hK : Set.InjOn safeKey K) {mine : Text → Bool}
    (hmine : ∀ key, mine (safeKey key ++ suffix) = true) {calls : List (Call V)}
    (h : Served codec K calls) :
    (filesMachine codec directory suffix mine).log ∅ calls = MemoryStorage.machine.log ∅ calls :=
  Machine.log_eq_of_simulation (R := fun _ => Mirrors codec directory suffix K) (fun _ _ => rfl)
    fun _ _ _ _ hpre hm =>
      hm.step hname hK hmine (h.keys _ (Machine.mem_of_prefix hpre))
        (h.values _ (Machine.mem_of_prefix hpre))

/-- Two keys that share a file: what is set under one is found under the other. -/
theorem filesMachine_log_of_collision {mine : Text → Bool} {a b : Text}
    (hab : safeKey a = safeKey b) {value : V} (hv : codec.Faithful value) :
    (filesMachine codec directory suffix mine).log ∅
        [⟨0, .set a value 0⟩, ⟨0, .get b⟩] =
      [(⟨0, .set a value 0⟩, none), (⟨0, .get b⟩, some value)] := by
  obtain ⟨data, hm, hu⟩ := hv 0 0
  have hpath : getFilePath directory suffix b = getFilePath directory suffix a := by
    rw [getFilePath, getFilePath, hab]
  simp [Machine.log, filesMachine, setFile, getFile, hm, hpath, hu, CacheEntry.isExpired,
    Duration.sub, Duration.longest, AList.lookup_insert_apply, -AList.insert_empty]

theorem machine_log_of_ne {a b : Text} (hab : a ≠ b) (value : V) :
    MemoryStorage.machine.log ∅ [⟨0, .set a value 0⟩, ⟨0, .get b⟩] =
      [(⟨0, .set a value 0⟩, none), (⟨0, .get b⟩, none)] := by
  simp [Machine.log, MemoryStorage.machine, MemoryStorage.set, MemoryStorage.get,
    hab.symm, -AList.insert_empty]

end

/-- The storages in a directory answer every `Get` on keys of `K` like the storages in memory, by
the value last set under that very key and not deleted or expired since, exactly if no two keys of
`K` get the same file name. -/
theorem files_answer_iff (codec : Codec V B) (hcodec : ∃ value, codec.Faithful value)
    (f : FileCache) (g : FileStorage) (K : Set Text) :
    (∀ calls, Served codec K calls →
      (f.machine codec).log ∅ calls = MemoryCache.machine.log ∅ calls ∧
      (g.machine codec).log ∅ calls = MemoryStorage.machine.log ∅ calls ∧
      MemoryCache.machine.log ∅ calls = ideal.log [] calls ∧
      MemoryStorage.machine.log ∅ calls = ideal.log [] calls) ↔
    Set.InjOn safeKey K := by
  constructor
  · intro h a ha b hb hab
    by_contra hne
    obtain ⟨value, hv⟩ := hcodec
    have hserved : Served codec K [⟨0, .set a value 0⟩, ⟨0, .get b⟩] := by
      refine ⟨by simp, ?_, ?_⟩
      · simp [Op.key?, ha, hb]
      · simp only [List.mem_cons, List.not_mem_nil, or_false, forall_eq_or_imp, forall_eq]
        constructor
        · rintro _ _ _ ⟨⟩
          exact hv
        · rintro _ _ _ ⟨⟩
    have h' := (h _ hserved).1
    rw [MemoryCache.machine_eq, machine_log_of_ne hne, FileCache.machine,
      filesMachine_log_of_collision hab hv] at h'
    simp at h'
  · intro hK calls hcalls
    rw [MemoryCache.machine_eq]
    exact ⟨filesMachine_log_eq isName_cache hK (fun _ => rfl) hcalls,
      filesMachine_log_eq g.isName hK (fun _ => List.isSuffixOf_iff_suffix.2
        (List.suffix_append _ _)) hcalls,
      MemoryStorage.log_eq_ideal hcalls.sorted, MemoryStorage.log_eq_ideal hcalls.sorted⟩

/-- A codec that keeps the entries as they are. -/
def plainCodec : Codec V (CacheEntry V) := ⟨some, some⟩

theorem plainCodec_faithful (value : V) : (plainCodec : Codec V _).Faithful value :=
  fun _ _ => ⟨_, rfl, rfl⟩

/-- Two users are set, and one of them is read before and after it is too old. -/
def twoUsers : List (Call ℕ) :=
  [⟨0, .set "user:1" 7 Duration.minute⟩, ⟨1, .set "user:2" 8 Duration.minute⟩,
    ⟨Duration.minute, .get "user:1"⟩, ⟨2 * Duration.minute, .get "user:1"⟩]

theorem files_answer_two_users :
    Set.InjOn safeKey {("user:1" : Text), ("user:2" : Text)} ∧
      ((newFileCache "").machine plainCodec).log ∅ twoUsers = ideal.log [] twoUsers ∧
      ((newFileStorage "").machine plainCodec).log ∅ twoUsers = ideal.log [] twoUsers := by
  have hinj : Set.InjOn safeKey {("user:1" : Text), ("user:2" : Text)} := by
    rintro _ (rfl | rfl) _ (rfl | rfl) h
    · rfl
    · exact absurd h (by decide)
    · exact absurd h (by decide)
    · rfl
  have hserved : Served plainCodec {("user:1" : Text), ("user:2" : Text)} twoUsers := by
    refine ⟨by decide, ?_, fun _ _ _ value _ _ => plainCodec_faithful value⟩
    simp [twoUsers, Op.key?]
  obtain ⟨h₁, h₂, h₃, h₄⟩ := (files_answer_iff plainCodec ⟨0, plainCodec_faithful 0⟩
    (newFileCache "") (newFileStorage "") _).2 hinj twoUsers hserved
  exact ⟨hinj, h₁.trans h₃, h₂.trans h₄⟩

/-- What is set under `a/b` is found under `a_b`. -/
theorem files_confuse_keys :
    ∃ calls : List (Call ℕ), Served plainCodec Set.univ calls ∧
      ((newFileCache "").machine plainCodec).log ∅ calls =
        [(⟨0, .set "a/b" 1 Duration.minute⟩, none), (⟨1, .get "a_b"⟩, some 1)] ∧
      ((newFileStorage "").machine plainCodec).log ∅ calls =
        [(⟨0, .set "a/b" 1 Duration.minute⟩, none), (⟨1, .get "a_b"⟩, some 1)] ∧
      MemoryStorage.machine.log ∅ calls =
        [(⟨0, .set "a/b" 1 Duration.minute⟩, none), (⟨1, .get "a_b"⟩, none)] ∧
      MemoryCache.machine.log ∅ calls = MemoryStorage.machine.log ∅ calls :=
  ⟨[⟨0, .set "a/b" 1 Duration.minute⟩, ⟨1, .get "a_b"⟩],
    ⟨by decide, fun _ _ _ _ => trivial, fun _ _ _ value _ _ => plainCodec_faithful value⟩,
    by decide, by decide, by decide, by decide⟩

end Cache

end GinRpc
