import GinRpc.Data.AList
import GinRpc.Data.Duration
import GinRpc.Kernel.Loader
import GinRpc.LTS.Machine
import GinRpc.Text.Basic

/-!
# Tables of buckets

`MemoryFixedWindow` and `TokenBucketLimiter` keep a bucket for every key and drop buckets in the
same way, at most once per cleanup interval and inside a call for any key: first those that have not
been seen for longer than their time to live, then, as long as there are too many, the one seen
least recently.

* `Table.lookup_maybeCleanup` : with few keys, a bucket that is dropped has not been seen for
  longer than the time to live, and all others stay.
-/

namespace GinRpc

namespace RateLimit

open Kernel (MapRange)

/-- A call of `Allow`.  If it cleans up, the first range is over all buckets, and each further one
looks for the bucket seen least recently. -/
structure Call where
  key : Text
  now : ℤ
  ranges : ℕ → MapRange Text

/-- A call that visits the buckets in the order in which they were made. -/
def callAt (key : Text) (now : ℤ) : Call := ⟨key, now, fun _ => .inserted⟩

/-- The times of the calls for a key. -/
def timesOf (key : Text) (calls : List Call) : List ℤ :=
  (calls.filter fun c => decide (c.key = key)).map Call.now

/-- The times and the answers of the calls for a key. -/
def ofKey (key : Text) (log : List (Call × Bool)) : List (ℤ × Bool) :=
  (log.filter fun p => decide (p.1.key = key)).map fun p => (p.1.now, p.2)

/-- The times of the requests that were allowed. -/
def granted (log : List (ℤ × Bool)) : List ℤ := (log.filter Prod.snd).map Prod.fst

theorem granted_concat (log : List (ℤ × Bool)) (now : ℤ) (ok : Bool) :
    granted (log ++ [(now, ok)]) = granted log ++ if ok then [now] else [] := by
  cases ok <;> simp [granted]

/-- The buckets of a limiter, and what `maybeCleanup` goes by; the zero time is `none`. -/
structure Table (β : Type*) where
  ttl : ℤ
  maxKeys : ℤ
  cleanupInterval : ℤ
  lastCleanup : Option ℤ
  buckets : AList fun _ : Text => β

namespace Table

variable {β : Type*} (seen : β → ℤ)

/-- Delete what has not been seen for longer than `ttl`. -/
def dropIdle (ttl now : ℤ) (keys : List Text) (buckets : AList fun _ : Text => β) :
    AList fun _ : Text => β :=
  keys.foldl (fun m k =>
    match m.lookup k with
    | some b => if ttl < Duration.sub now (seen b) then m.erase k else m
    | none => m) buckets

/-- `oldestKey` and `oldestTime` after a range over the keys; `none` is `first`. -/
def oldest (buckets : AList fun _ : Text => β) (keys : List Text) : Option (Text × ℤ) :=
  keys.foldl (fun best k =>
    match buckets.lookup k, best with
    | some b, some (k', t) => if seen b < t then some (k, seen b) else some (k', t)
    | some b, none => some (k, seen b)
    | none, best => best) none

/-- Delete the oldest buckets as long as there are more than `maxKeys`.  Every round deletes one or
is the last. -/
def evict (maxKeys : ℤ) (ranges : ℕ → MapRange Text) :
    ℕ → (AList fun _ : Text => β) → AList fun _ : Text => β
  | 0, m => m
  | n + 1, m =>
    if (m.keys.length : ℤ) ≤ maxKeys then m
    else
      match oldest seen m ((ranges n).visit m.keys) with
      | none => m
      -- `oldestKey == ""` ends the loop, also if a client has this key
      | some (k, _) => if k = [] then m else evict maxKeys ranges n (m.erase k)

/-- The cleanup interval, with its default. -/
def interval (t : Table β) : ℤ :=
  if t.cleanupInterval ≤ 0 then Duration.minute else t.cleanupInterval

/-- What is left of the buckets by a cleanup. -/
def cleanup (t : Table β) (now : ℤ) (ranges : ℕ → MapRange Text) : AList fun _ : Text => β :=
  let idle :=
    if 0 < t.ttl then dropIdle seen t.ttl now ((ranges 0).visit t.buckets.keys) t.buckets
    else t.buckets
  if 0 < t.maxKeys then evict seen t.maxKeys (fun n => ranges (n + 1)) idle.keys.length idle
  else idle

/-- `maybeCleanup` in `memory_fixed_window.go` and in `token_bucket.go` -/
def maybeCleanup (t : Table β) (now : ℤ) (ranges : ℕ → MapRange Text) : Table β :=
  if t.lastCleanup.any fun last => decide (Duration.sub now last < t.interval) then
    -- the default of the interval is stored in any case
    { t with cleanupInterval := t.interval }
  else
    { t with
      cleanupInterval := t.interval
      lastCleanup := some now
      buckets := t.cleanup seen now ranges }

variable {f : β → ℤ} {t : Table β} {n : ℤ} {r : ℕ → MapRange Text} {k : Text}

@[simp] theorem maybeCleanup_ttl : (t.maybeCleanup f n r).ttl = t.ttl := by
  unfold maybeCleanup
  split_ifs <;> rfl

@[simp] theorem maybeCleanup_maxKeys : (t.maybeCleanup f n r).maxKeys = t.maxKeys := by
  unfold maybeCleanup
  split_ifs <;> rfl

theorem lookup_dropIdle {ttl : ℤ} (keys : List Text) (m : AList fun _ : Text => β) :
    (dropIdle f ttl n keys m).lookup k =
      if k ∈ keys then (m.lookup k).filter fun b => !decide (ttl < Duration.sub n (f b))
      else m.lookup k := by
  induction keys generalizing m with
  | nil => simp [dropIdle]
  | cons k' keys ih =>
    rw [dropIdle, List.foldl_cons, ← dropIdle, ih]
    by_cases hk : k = k'
    · subst hk
      cases hb : m.lookup k with
      | none => simp [hb]
      | some b =>
        by_cases hidle : ttl < Duration.sub n (f b) <;> simp [hidle, hb, Option.filter]
    · have hother : (match m.lookup k' with
          | some b => if ttl < Duration.sub n (f b) then m.erase k' else m
          | none => m).lookup k = m.lookup k := by
        cases m.lookup k' with
        | none => rfl
        | some b =>
          dsimp only
          split_ifs
          · rw [AList.lookup_erase_ne hk]
          · rfl
      rw [hother]
      simp [hk]

theorem exists_of_lookup_dropIdle {ttl : ℤ} {keys : List Text} {m : AList fun _ : Text => β}
    {b : β} (h : (dropIdle f ttl n keys m).lookup k = some b) : m.lookup k = some b := by
  rw [lookup_dropIdle] at h
  split_ifs at h
  · exact (Option.filter_eq_some_iff.1 h).1
  · exact h

theorem evict_of_le {maxKeys : ℤ} {m : AList fun _ : Text => β} (rounds : ℕ)
    (h : (m.keys.length : ℤ) ≤ maxKeys) : evict f maxKeys r rounds m = m := by
  cases rounds with
  | zero => rfl
  | succ rounds => rw [evict, if_pos h]

/-- With few keys, a cleanup only drops the idle buckets. -/
theorem cleanup_of_le (hsize : (t.buckets.keys.length : ℤ) ≤ t.maxKeys) :
    t.cleanup f n r =
      if 0 < t.ttl then dropIdle f t.ttl n ((r 0).visit t.buckets.keys) t.buckets
      else t.buckets := by
  have hdrop (keys : List Text) :
      ((dropIdle f t.ttl n keys t.buckets).keys.length : ℤ) ≤ t.maxKeys := by
    have hle := AList.length_keys_le (s := dropIdle f t.ttl n keys t.buckets)
      (l := t.buckets.keys) fun k b h =>
        AList.mem_keys.1 (AList.mem_iff_exists_lookup.2 ⟨b, exists_of_lookup_dropIdle h⟩)
    omega
  unfold cleanup
  by_cases httl : 0 < t.ttl
  · simp only [if_pos httl, evict_of_le _ (hdrop _), ite_self]
  · simp only [if_neg httl, evict_of_le _ hsize, ite_self]

theorem lookup_maybeCleanup (hsize : (t.buckets.keys.length : ℤ) ≤ t.maxKeys) (k : Text) :
    (t.maybeCleanup f n r).buckets.lookup k = t.buckets.lookup k ∨
      (t.maybeCleanup f n r).buckets.lookup k = none ∧
        ∃ b, t.buckets.lookup k = some b ∧ t.ttl < Duration.sub n (f b) := by
  unfold maybeCleanup
  split_ifs with hdue
  · exact .inl rfl
  · dsimp only
    rw [cleanup_of_le hsize]
    split_ifs
    · rw [lookup_dropIdle]
      split_ifs
      · cases hb : t.buckets.lookup k with
        | none => exact .inl rfl
        | some b =>
          by_cases hidle : t.ttl < Duration.sub n (f b)
          · exact .inr ⟨by simp [Option.filter, hidle], b, rfl, hidle⟩
          · exact .inl (by simp [Option.filter, hidle])
      · exact .inl rfl
    · exact .inl rfl

theorem exists_of_lookup_maybeCleanup (hsize : (t.buckets.keys.length : ℤ) ≤ t.maxKeys) {b : β}
    (h : (t.maybeCleanup f n r).buckets.lookup k = some b) :
    t.buckets.lookup k = some b := by
  obtain hsame | ⟨hnone, -⟩ := lookup_maybeCleanup (f := f) (n := n) (r := r) hsize k
  · rw [← hsame, h]
  · rw [hnone] at h
    cases h

end Table

end RateLimit

end GinRpc
