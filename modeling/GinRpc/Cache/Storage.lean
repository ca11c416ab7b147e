import GinRpc.Data.AList
import GinRpc.Data.Duration
import GinRpc.LTS.Machine
import GinRpc.Text.Basic

/-!
# Cache entries and the storage in memory

Model of `CacheEntry` and `MemoryStorage` in `plugins/cache/failover/storage.go` and of
`MemoryCache` in `plugins/db/orm/query_cache.go`.  A call is made at a point of time; the storages
are machines that answer `Get` by the value they find, and every other call by nothing.

* `ideal` : what a storage is for.  The answer to a call is read off the calls before it:
  the value last set under the key, unless it has been deleted or is too old.
* `MemoryStorage.log_eq_ideal` : the storage in memory answers in this way at non-decreasing times.
-/

namespace GinRpc

namespace Cache

/-- A cached item with the time at which it was stored. -/
structure CacheEntry (V : Type) where
  data : V
  timestamp : ℤ
  ttl : ℤ
  deriving DecidableEq

def CacheEntry.isExpired {V : Type} (e : CacheEntry V) (now : ℤ) : Bool :=
  decide (e.ttl < Duration.sub now e.timestamp)

/-- An entry with its data, if it is there and not too old. -/
def live {V : Type} (now : ℤ) (entry : Option (CacheEntry V)) : Option (CacheEntry V) :=
  entry.filter fun e => !e.isExpired now

inductive Op (V : Type) where
  | get (key : Text)
  | set (key : Text) (value : V) (ttl : ℤ)
  | delete (key : Text)
  | clear
  deriving DecidableEq

/-- An operation and the time at which it is called. -/
structure Call (V : Type) where
  now : ℤ
  op : Op V
  deriving DecidableEq

variable {V : Type}

/-- The key of a call. -/
def Op.key? : Op V → Option Text
  | .get key | .set key _ _ | .delete key => some key
  | .clear => none

/-! ### What a storage is for -/

/-- What a call leaves of the entry under a key. -/
def Call.leave (key : Text) (entry : Option (CacheEntry V)) (c : Call V) : Option (CacheEntry V) :=
  match c.op with
  | .get _ => entry
  | .set k value ttl => if k = key then some ⟨value, c.now, ttl⟩ else entry
  | .delete k => if k = key then none else entry
  | .clear => none

/-- The entry last set under a key and not deleted since. -/
def lastSet (key : Text) (past : List (Call V)) : Option (CacheEntry V) :=
  past.foldl (Call.leave key) none

/-- The answer to a call, read off the calls before it. -/
def Call.answer (past : List (Call V)) (c : Call V) : Option V :=
  match c.op with
  | .get key => (live c.now (lastSet key past)).map CacheEntry.data
  | _ => none

/-- The storage that remembers all calls. -/
def ideal : Machine (List (Call V)) (Call V) (Option V) where
  step past c := (past ++ [c], c.answer past)

/-! ### The storage in memory -/

/-- The map of `MemoryStorage` and of `MemoryCache`. -/
abbrev MemoryStorage (V : Type) := AList fun _ : Text => CacheEntry V

namespace MemoryStorage

/-- Look a key up.  An entry that is too old is deleted; no other call comes between the two
critical sections. -/
def get (m : MemoryStorage V) (now : ℤ) (key : Text) : MemoryStorage V × Option V :=
  match m.lookup key with
  | none => (m, none)
  | some entry =>
    if !entry.isExpired now then (m, some entry.data)
    else (m.erase key, none)

def set (m : MemoryStorage V) (now : ℤ) (key : Text) (value : V) (ttl : ℤ) : MemoryStorage V :=
  m.insert key ⟨value, now, ttl⟩

def delete (m : MemoryStorage V) (key : Text) : MemoryStorage V := m.erase key

def clear (_ : MemoryStorage V) : MemoryStorage V := ∅

def machine : Machine (MemoryStorage V) (Call V) (Option V) where
  step m c :=
    match c.op with
    | .get key => m.get c.now key
    | .set key value ttl => (m.set c.now key value ttl, none)
    | .delete key => (m.delete key, none)
    | .clear => (m.clear, none)

end MemoryStorage

/-- `MemoryCache.Get`, which deletes an entry that is too old on its way out. -/
def MemoryCache.get (m : MemoryStorage V) (now : ℤ) (key : Text) : MemoryStorage V × Option V :=
  match m.lookup key with
  | none => (m, none)
  | some entry => if entry.isExpired now then (m.erase key, none) else (m, some entry.data)

/-- `MemoryCache`; its other operations are those of `MemoryStorage`. -/
def MemoryCache.machine : Machine (MemoryStorage V) (Call V) (Option V) where
  step m c :=
    match c.op with
    | .get key => MemoryCache.get m c.now key
    | .set key value ttl => (m.set c.now key value ttl, none)
    | .delete key => (m.delete key, none)
    | .clear => (m.clear, none)

/-! ### Entries -/

theorem CacheEntry.isExpired_mono {e : CacheEntry V} {t now : ℤ} (h : t ≤ now)
    (he : e.isExpired t = true) : e.isExpired now = true := by
  simp only [CacheEntry.isExpired, decide_eq_true_eq] at he ⊢
  exact he.trans_le (Duration.sub_mono _ h)

@[simp] theorem live_none (now : ℤ) : live now (none : Option (CacheEntry V)) = none := rfl

theorem live_some_of_expired {e : CacheEntry V} {now : ℤ} (h : e.isExpired now = true) :
    live now (some e) = none := by
  simp [live, h]

theorem live_some_of_not_expired {e : CacheEntry V} {now : ℤ} (h : e.isExpired now = false) :
    live now (some e) = some e := by
  simp [live, h]

theorem live_eq_some_iff {entry : Option (CacheEntry V)} {e : CacheEntry V} {now : ℤ} :
    live now entry = some e ↔ entry = some e ∧ e.isExpired now = false := by
  simp [live, Option.filter_eq_some_iff]

/-! ### The answers of the storage -/

namespace MemoryStorage

variable {m : MemoryStorage V} {now : ℤ} {key : Text}

theorem get_snd : (m.get now key).2 = (live now (m.lookup key)).map CacheEntry.data := by
  unfold get
  cases hm : m.lookup key with
  | none => rfl
  | some e =>
    cases he : e.isExpired now with
    | true => simp [he, live_some_of_expired he]
    | false => simp [he, live_some_of_not_expired he]

/-- `Get` removes at most what is too old. -/
theorem live_lookup_get {t : ℤ} (h : t ≤ now) (k : Text) :
    live now ((m.get t key).1.lookup k) = live now (m.lookup k) := by
  unfold get
  cases hm : m.lookup key with
  | none => rfl
  | some e =>
    cases he : e.isExpired t with
    | false => simp [he]
    | true =>
      simp only [he, Bool.not_true, Bool.false_eq_true, ↓reduceIte, AList.lookup_erase_apply]
      split_ifs with hk
      · rw [hk, hm, live_none, live_some_of_expired (CacheEntry.isExpired_mono h he)]
      · rfl

/-- The map holds, under every key, what the calls have left there, up to entries that are too
old at every time from now on. -/
def Holds (past : List (Call V)) (m : MemoryStorage V) (h : List (Call V)) : Prop :=
  h = past ∧ ∀ now, (∀ c ∈ past, c.now ≤ now) → ∀ k,
    live now (m.lookup k) = live now (lastSet k past)

theorem lastSet_concat (k : Text) (past : List (Call V)) (c : Call V) :
    lastSet k (past ++ [c]) = c.leave k (lastSet k past) := by
  simp [lastSet]

theorem Holds.step {past h : List (Call V)} {c : Call V} (hm : Holds past m h)
    (hc : ∀ d ∈ past, d.now ≤ c.now) :
    (machine.step m c).2 = (ideal.step h c).2 ∧
      Holds (past ++ [c]) (machine.step m c).1 (ideal.step h c).1 := by
  obtain ⟨rfl, hm⟩ := hm
  obtain ⟨t, op⟩ := c
  refine ⟨?_, rfl, fun now hnow k => ?_⟩
  · cases op with
    | get key =>
      change (m.get t key).2 = _
      rw [get_snd, hm t hc key]
      rfl
    | set | delete | clear => rfl
  · have hold := hm now (fun d hd => hnow d (List.mem_append_left _ hd)) k
    have ht : t ≤ now := hnow ⟨t, op⟩ (List.mem_append_right _ (List.mem_singleton_self _))
    rw [lastSet_concat]
    cases op with
    | get key => exact (live_lookup_get ht k).trans hold
    | set key value ttl =>
      change live now ((m.insert key _).lookup k) = live now (if key = k then _ else _)
      rw [AList.lookup_insert_apply]
      by_cases hk : k = key
      · rw [if_pos hk, if_pos hk.symm]
      · rw [if_neg hk, if_neg (Ne.symm hk)]
        exact hold
    | delete key =>
      change live now ((m.erase key).lookup k) = live now (if key = k then _ else _)
      rw [AList.lookup_erase_apply]
      by_cases hk : k = key
      · rw [if_pos hk, if_pos hk.symm]
      · rw [if_neg hk, if_neg (Ne.symm hk)]
        exact hold
    | clear => rfl

/-- The storage in memory answers by the value last set and not deleted or expired since. -/
theorem log_eq_ideal {calls : List (Call V)} (h : calls.Pairwise fun c d => c.now ≤ d.now) :
    machine.log ∅ calls = ideal.log [] calls :=
  Machine.log_eq_of_simulation (R := Holds) ⟨rfl, fun _ _ _ => rfl⟩ fun _ _ _ _ hpre hm =>
    hm.step (Machine.rel_of_prefix h hpre)

end MemoryStorage

/-- The two storages in memory are the same. -/
theorem MemoryCache.machine_eq : (MemoryCache.machine : Machine _ (Call V) _) =
    MemoryStorage.machine := by
  have hget : ∀ (m : MemoryStorage V) now key, MemoryCache.get m now key = m.get now key := by
    intro m now key
    unfold MemoryCache.get MemoryStorage.get
    cases m.lookup key with
    | none => rfl
    | some e => cases he : e.isExpired now <;> simp [he]
  unfold MemoryCache.machine MemoryStorage.machine
  congr
  funext m c
  cases c.op <;> simp [hget]

end Cache

end GinRpc
