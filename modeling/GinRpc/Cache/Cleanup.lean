import GinRpc.Cache.Files
import GinRpc.Order.SliceSort

/-!
# Cleaning up a directory

Model of `cleanup` of `FileStorage` in `plugins/cache/failover/storage.go` and of `FileCache` in
`plugins/db/orm/query_cache.go`.  A pass removes the expired files and subtracts their sizes.  If
the limits are still exceeded, it sorts all files, the expired ones among them, and removes the
oldest ones, subtracting their sizes, until the limits are met.

Removing a file succeeds, and `sort.Slice` is any function that sorts (`SliceSort`).

* `Sparing` : the loop, which counts the expired files as well, stops between the files that must go
  and those that may stay.
* `cleaned_files` : exactly then a pass removes what is expired, and the oldest files and no more of
  them than necessary.
* `expired_counts` : an expired file is counted, and a file is removed in its place or kept beyond
  the limit.
-/

namespace GinRpc

namespace Cache

/-- A file of the directory; `expired` if it has an entry that has expired. -/
structure File where
  name : Text
  size : ℕ
  modTime : ℤ
  expired : Bool := false
  isDir : Bool := false
  /-- `file.Info()` and `os.ReadFile` succeed -/
  readable : Bool := true
  deriving DecidableEq, Repr

/-- No two files of a directory have the same name. -/
structure Directory where
  files : List File
  nodup : (files.map File.name).Nodup

/-- `maxSize` and `maxFiles` -/
structure Limits where
  maxSize : ℤ
  maxFiles : ℤ

/-- The limits that the constructors make of a configuration -/
def Limits.ofConfig (maxSize maxFiles : ℤ) : Limits where
  maxSize := if maxSize = 0 then 100 * 1024 * 1024 else maxSize
  maxFiles := if maxFiles = 0 then 10000 else maxFiles

/-- The comparison that `sort.Slice` is given -/
def File.before (f g : File) : Bool := decide (f.modTime < g.modTime)

namespace Directory

/-- The files that a pass collects -/
def isEntry (mine : Text → Bool) (f : File) : Bool := !f.isDir && mine f.name && f.readable

def entries (d : Directory) (mine : Text → Bool) : List File := d.files.filter (isEntry mine)

/-- `os.Remove` of some files -/
def remove (d : Directory) (names : List Text) : Directory where
  files := d.files.filter fun f => !names.contains f.name
  nodup := d.nodup.sublist ((List.filter_sublist).map _)

end Directory

/-- The names of the files that the second loop removes; `fileInfos` is what it has not visited. -/
def evict (limits : Limits) : List File → ℤ → List Text
  | [], _ => []
  | f :: rest, totalSize =>
    if totalSize ≤ limits.maxSize ∧ ((f :: rest).length : ℤ) ≤ limits.maxFiles then []
    else f.name :: evict limits rest (Duration.wrap (totalSize - f.size))

/-- `cleanup` with the condition on the names of files -/
def cleanup (mine : Text → Bool) (limits : Limits) (σ : SliceSort File) (d : Directory) :
    Directory :=
  let fileInfos := d.entries mine
  let totalSize := fileInfos.foldl (fun total f => Duration.wrap (total + f.size)) 0
  let expired := fileInfos.filter File.expired
  let totalSize := expired.foldl (fun total f => Duration.wrap (total - f.size)) totalSize
  let evicted :=
    if limits.maxSize < totalSize ∨ limits.maxFiles < (fileInfos.length : ℤ) then
      evict limits (σ.sort File.before fileInfos) totalSize
    else []
  d.remove (expired.map File.name ++ evicted)

def FileStorage.cleanup (f : FileStorage) : Limits → SliceSort File → Directory → Directory :=
  Cache.cleanup fun name => f.fileSuffix.isSuffixOf name

def FileCache.cleanup (_ : FileCache) : Limits → SliceSort File → Directory → Directory :=
  Cache.cleanup fun _ => true

/-! ### What a pass is for -/

def totalSize (l : List File) : ℕ := (l.map File.size).sum

/-- The files meet the limits. -/
def Limits.Within (limits : Limits) (l : List File) : Prop :=
  (totalSize l : ℤ) ≤ limits.maxSize ∧ (l.length : ℤ) ≤ limits.maxFiles

instance (limits : Limits) (l : List File) : Decidable (limits.Within l) :=
  inferInstanceAs (Decidable (_ ∧ _))

def unexpired (l : List File) : List File := l.filter fun f => !f.expired

/-- No entry is expired, the limits are met, and the oldest unexpired entries are gone, no more of
them than necessary, and nothing else; entries of the same age are in the order of the pass. -/
structure Cleaned (mine : Text → Bool) (limits : Limits) (σ : SliceSort File) (d d' : Directory) :
    Prop where
  unexpired : ∀ f ∈ d'.entries mine, f.expired = false
  within : limits.Within (d'.entries mine)
  oldest : ∃ gone kept, gone ++ kept = Cache.unexpired (σ.sort File.before (d.entries mine)) ∧
    kept.Perm (d'.entries mine) ∧ (gone ++ kept).Pairwise (fun f g => f.modTime ≤ g.modTime) ∧
    ∀ first rest, gone = first ++ rest → rest ≠ [] → ¬ limits.Within (rest ++ kept)
  others : d'.files.filter (fun f => !Directory.isEntry mine f) =
    d.files.filter (fun f => !Directory.isEntry mine f)

/-- The test of the loop when it has removed some files, where `total` is the size of the unexpired
ones: the size of an expired file is subtracted, and it is counted as long as it is not visited. -/
def Stops (limits : Limits) (total : ℤ) (removed left : List File) : Prop :=
  Duration.wrap (total - totalSize removed) ≤ limits.maxSize ∧ (left.length : ℤ) ≤ limits.maxFiles

/-- The loop goes on while unexpired files must go, and stops before those that may stay. -/
structure Sparing (limits : Limits) (l : List File) : Prop where
  nonneg : 0 ≤ limits.maxSize ∧ 0 ≤ limits.maxFiles
  goes : ∀ removed left, l = removed ++ left → ¬ limits.Within (unexpired left) →
    ¬ Stops limits (totalSize (unexpired l)) removed left
  stays : ∀ before f behind, l = before ++ f :: behind → f.expired = false →
    limits.Within (unexpired (f :: behind)) → ∃ removed left, before = removed ++ left ∧
      Stops limits (totalSize (unexpired l)) removed (left ++ f :: behind)

variable {mine : Text → Bool} {limits : Limits} {σ : SliceSort File} {d : Directory}

theorem totalSize_perm {l l' : List File} (h : l.Perm l') : totalSize l = totalSize l' :=
  (h.map _).sum_eq

theorem totalSize_append (l l' : List File) : totalSize (l ++ l') = totalSize l + totalSize l' := by
  unfold totalSize
  rw [List.map_append, List.sum_append]

theorem Limits.Within.perm {l l' : List File} (h : limits.Within l) (hp : l.Perm l') :
    limits.Within l' := by
  unfold Limits.Within at *
  rwa [← totalSize_perm hp, ← hp.length_eq]

/-- What is behind some files is within the limits if the whole is. -/
theorem Limits.Within.of_append {l l' : List File} (h : limits.Within (l ++ l')) :
    limits.Within l' := by
  unfold Limits.Within at *
  rw [totalSize_append, List.length_append] at h
  omega

theorem unexpired_append (l l' : List File) : unexpired (l ++ l') = unexpired l ++ unexpired l' :=
  List.filter_append ..

theorem wrap_sub_wrap (n m : ℤ) : Duration.wrap (Duration.wrap n - m) = Duration.wrap (n - m) :=
  Duration.wrap_wrap_add n (-m)

/-- The loop removes the files up to the first point where it stops. -/
theorem evict_spec (limits : Limits) (l : List File) (total : ℤ) :
    ∃ removed left, l = removed ++ left ∧
      evict limits l (Duration.wrap total) = removed.map File.name ∧
      (∀ before behind, removed = before ++ behind → behind ≠ [] →
        ¬ Stops limits total before (behind ++ left)) ∧
      (left ≠ [] → Stops limits total removed left) := by
  induction l generalizing total with
  | nil => exact ⟨[], [], rfl, rfl, by simp, fun h => absurd rfl h⟩
  | cons f rest ih =>
    have hstart (left : List File) : Stops limits total [] left ↔
        Duration.wrap total ≤ limits.maxSize ∧ (left.length : ℤ) ≤ limits.maxFiles := by
      rw [Stops, show totalSize [] = 0 from rfl, Nat.cast_zero, Int.sub_zero]
    have hnext (before left : List File) :
        Stops limits total (f :: before) left ↔ Stops limits (total - f.size) before left := by
      have htotal : totalSize (f :: before) = f.size + totalSize before := List.sum_cons
      rw [Stops, Stops, htotal, Nat.cast_add, Int.sub_sub]
    rw [evict, wrap_sub_wrap]
    split_ifs with hstop
    · exact ⟨[], f :: rest, rfl, rfl, by simp, fun _ => (hstart _).2 hstop⟩
    · obtain ⟨removed, left, rfl, hevict, hbefore, hleft⟩ := ih (total - f.size)
      refine ⟨f :: removed, left, rfl, by rw [hevict, List.map_cons], ?_,
        fun h => (hnext _ _).2 (hleft h)⟩
      intro before behind heq hne
      cases before with
      | nil =>
        obtain rfl : f :: removed = behind := heq
        rwa [hstart]
      | cons g before =>
        cases heq
        rw [hnext]
        exact hbefore before behind rfl hne

theorem entries_remove (names : List Text) :
    (d.remove names).entries mine = (d.entries mine).filter fun f => !names.contains f.name :=
  List.filter_comm ..

theorem isEntry_of_mem {f : File} (h : f ∈ d.entries mine) : Directory.isEntry mine f = true :=
  (List.mem_filter.1 h).2

theorem mem_files {f : File} (h : f ∈ d.entries mine) : f ∈ d.files := (List.mem_filter.1 h).1

/-- The expired entries and the others -/
theorem expired_append_perm (l : List File) : l.Perm (l.filter File.expired ++ unexpired l) :=
  (List.filter_append_perm File.expired l).symm

/-- What is left when the expired entries and some others are removed by their names. -/
theorem entries_remove_perm {removed left : List File}
    (h : (removed ++ left).Perm (d.entries mine)) :
    ((d.remove (((d.entries mine).filter File.expired ++ removed).map File.name)).entries mine).Perm
      (unexpired left) := by
  have hnames : ((d.entries mine).map File.name).Nodup :=
    d.nodup.sublist (List.filter_sublist.map _)
  have hdisjoint : removed.Disjoint left :=
    List.disjoint_of_nodup_append (List.Nodup.of_map _ ((h.map _).nodup_iff.2 hnames))
  have hremoved : removed.filter (fun f => !(((d.entries mine).filter File.expired ++
      removed).map File.name).contains f.name) = [] := by
    refine List.filter_eq_nil_iff.2 fun f hf => ?_
    simpa using fun _ => ⟨f, hf, rfl⟩
  have hleft : left.filter (fun f => !(((d.entries mine).filter File.expired ++
      removed).map File.name).contains f.name) = unexpired left := by
    refine List.filter_congr fun f hf => congrArg _ ?_
    have hentry := h.subset (List.mem_append_right removed hf)
    rw [Bool.eq_iff_iff, List.contains_iff_mem, List.mem_map]
    constructor
    · -- a name is that of one file
      rintro ⟨g, hg, hname⟩
      obtain hg | hg := List.mem_append.1 hg
      · obtain ⟨hg, hexpired⟩ := List.mem_filter.1 hg
        rwa [List.inj_on_of_nodup_map hnames hg hentry hname] at hexpired
      · have hsame := List.inj_on_of_nodup_map hnames
          (h.subset (List.mem_append_left left hg)) hentry hname
        exact absurd hf (hdisjoint (hsame ▸ hg))
    · exact fun hexpired => ⟨f, List.mem_append_left _ (List.mem_filter.2 ⟨hentry, hexpired⟩), rfl⟩
  rw [entries_remove]
  refine (h.symm.filter _).trans ?_
  rw [List.filter_append, hremoved, hleft, List.nil_append]

/-- Nothing but entries is removed by the names of entries. -/
theorem others_remove {gone : List File} (h : ∀ f ∈ gone, f ∈ d.entries mine) :
    (d.remove (gone.map File.name)).files.filter (fun f => !Directory.isEntry mine f) =
      d.files.filter (fun f => !Directory.isEntry mine f) := by
  unfold Directory.remove
  rw [List.filter_filter]
  refine List.filter_congr fun f hf => ?_
  cases hentry : Directory.isEntry mine f with
  | true => rfl
  | false =>
    simp only [Bool.not_false, Bool.true_and, Bool.not_eq_true', List.contains_eq_mem,
      decide_eq_false_iff_not, List.mem_map, not_exists, not_and]
    intro g hg hname
    have hsame := List.inj_on_of_nodup_map d.nodup (mem_files (h g hg)) hf hname
    rw [← hsame, isEntry_of_mem (h g hg)] at hentry
    cases hentry

/-- The total after the first loop is that of the entries that have not expired. -/
theorem total_unexpired (l : List File) :
    (l.filter File.expired).foldl (fun (total : ℤ) f => Duration.wrap (total - f.size))
      (l.foldl (fun (total : ℤ) f => Duration.wrap (total + f.size)) 0) =
        Duration.wrap (totalSize (unexpired l)) := by
  have hadd := Duration.foldl_wrap (fun f : File => (f.size : ℤ)) l 0
  have hsub := Duration.foldl_wrap (fun f : File => -(f.size : ℤ)) (l.filter File.expired)
    (0 + (l.map fun f => (f.size : ℤ)).sum)
  have hsum := totalSize_perm (expired_append_perm l)
  rw [totalSize_append] at hsum
  have hcast (l : List File) : (l.map fun f => (f.size : ℤ)).sum = totalSize l := by
    rw [totalSize, Nat.cast_list_sum, List.map_map]
    rfl
  have hneg (l : List File) : (l.map fun f => -(f.size : ℤ)).sum = -(totalSize l : ℤ) := by
    rw [← hcast]
    simp [List.sum_neg, Function.comp_def]
  rw [hcast, Int.zero_add] at hadd
  rw [hneg, hcast, Int.zero_add, hsum, Nat.cast_add, add_neg_cancel_comm] at hsub
  rw [hsum, Nat.cast_add] at hadd
  rw [← hsub, ← hadd]
  rfl

/-- What a pass removes: what is expired, and the oldest files up to a point. -/
theorem cleanup_spec (mine : Text → Bool) (limits : Limits) (σ : SliceSort File) (d : Directory) :
    ∃ removed left, σ.sort File.before (d.entries mine) = removed ++ left ∧
      cleanup mine limits σ d =
        d.remove (((d.entries mine).filter File.expired ++ removed).map File.name) ∧
      (∀ before behind, removed = before ++ behind → behind ≠ [] →
        ¬ Stops limits (totalSize (unexpired (removed ++ left))) before (behind ++ left)) ∧
      (left ≠ [] → Stops limits (totalSize (unexpired (removed ++ left))) removed left) := by
  have hperm := σ.perm File.before (d.entries mine)
  have htotal := totalSize_perm (hperm.filter fun f => !f.expired)
  obtain ⟨removed, left, hl, hevict, hbefore, hleft⟩ := evict_spec limits
    (σ.sort File.before (d.entries mine)) (totalSize (unexpired (d.entries mine)))
  refine ⟨removed, left, hl, ?_, ?_, ?_⟩
  · -- the loop removes nothing if the limits are met before it
    rw [cleanup, List.map_append, ← hevict, total_unexpired]
    split_ifs with hover
    · rfl
    · cases hsorted : σ.sort File.before (d.entries mine) with
      | nil => rfl
      | cons f rest =>
        have hlength := hperm.length_eq
        rw [hsorted] at hlength
        rw [evict, if_pos ⟨by omega, by rw [hlength]; omega⟩]
  · rw [← hl]
    exact htotal ▸ hbefore
  · rw [← hl]
    exact htotal ▸ hleft

/-- The pass cleans up if the loop stops where it should. -/
theorem cleaned_iff {removed left : List File}
    (hl : σ.sort File.before (d.entries mine) = removed ++ left) :
    Cleaned mine limits σ d
        (d.remove (((d.entries mine).filter File.expired ++ removed).map File.name)) ↔
      limits.Within (unexpired left) ∧
        ∀ before f behind, removed = before ++ f :: behind → f.expired = false →
          ¬ limits.Within (unexpired (f :: behind ++ left)) := by
  have hperm := σ.perm File.before (d.entries mine)
  have hsorted := σ.sorted_key File.modTime (d.entries mine)
  change (σ.sort File.before (d.entries mine)).Pairwise _ at hsorted
  rw [hl] at hperm hsorted
  have hentries := entries_remove_perm hperm
  have hcons {f : File} (hf : f.expired = false) (l : List File) :
      unexpired (f :: l) = f :: unexpired l :=
    List.filter_cons_of_pos (by rw [hf]; rfl)
  constructor
  · intro h
    obtain ⟨gone, kept, heq, hkept, -, hleast⟩ := h.oldest
    rw [hl, unexpired_append] at heq
    obtain ⟨rfl, rfl⟩ := List.append_inj' heq (hkept.trans hentries).length_eq
    refine ⟨h.within.perm hentries, fun before f behind hremoved hf => ?_⟩
    have hgone : unexpired removed = unexpired before ++ f :: unexpired behind := by
      rw [hremoved, unexpired_append, hcons hf]
    rw [unexpired_append, hcons hf]
    exact hleast _ _ hgone (List.cons_ne_nil _ _)
  · rintro ⟨hwithin, hleast⟩
    refine ⟨fun f hf => ?_, hwithin.perm hentries.symm, ⟨unexpired removed, unexpired left, ?_,
      hentries.symm, ?_, fun first rest hgone hne => ?_⟩, others_remove fun f hf => ?_⟩
    · simpa using (List.mem_filter.1 (hentries.subset hf)).2
    · rw [hl, unexpired_append]
    · rw [← unexpired_append]
      exact hsorted.filter _
    · -- the first of the rest has gone, too
      obtain ⟨l₁, l₂, rfl, -, hrest⟩ := List.filter_eq_append_iff.1 hgone
      cases rest with
      | nil => exact absurd rfl hne
      | cons f rest =>
        obtain ⟨l₃, l₄, rfl, -, hf, rfl⟩ := List.filter_eq_cons_iff.1 hrest
        have hf : f.expired = false := by simpa using hf
        have hover := hleast (l₁ ++ l₃) f l₄ (by rw [List.append_assoc]) hf
        rwa [unexpired_append, hcons hf] at hover
    · obtain hf | hf := List.mem_append.1 hf
      · exact (List.mem_filter.1 hf).1
      · exact hperm.subset (List.mem_append_left left hf)

theorem cleaned_cleanup_iff (mine : Text → Bool) (limits : Limits) (σ : SliceSort File)
    (d : Directory) : Cleaned mine limits σ d (cleanup mine limits σ d) ↔
      Sparing limits (σ.sort File.before (d.entries mine)) := by
  obtain ⟨removed, left, hl, hcleanup, hbefore, hleft⟩ := cleanup_spec mine limits σ d
  rw [hcleanup, cleaned_iff hl, hl]
  constructor
  · rintro ⟨hwithin, hleast⟩
    refine ⟨?_, fun removed' left' heq hover hstop => ?_, fun before f behind heq hf hstay => ?_⟩
    · have hsize := hwithin.1
      have hfiles := hwithin.2
      omega
    · -- it has stopped before, and less is left
      obtain ⟨behind, rfl, rfl⟩ | ⟨behind, rfl, rfl⟩ := List.append_eq_append_iff.1 heq
      · rw [unexpired_append] at hwithin
        exact hover hwithin.of_append
      · by_cases hnil : behind = []
        · subst hnil
          exact hover hwithin
        · exact hbefore removed' behind rfl hnil hstop
    · obtain ⟨behind', hrem, hleftEq⟩ | ⟨behind', hrem, hleftEq⟩ := List.append_eq_append_iff.1 heq
      · refine ⟨removed, behind', hrem, ?_⟩
        rw [← hleftEq]
        exact hleft (by rw [hleftEq]; simp)
      · cases behind' with
        | nil =>
          rw [List.nil_append] at hleftEq
          rw [List.append_nil] at hrem
          refine ⟨removed, [], by rw [hrem, List.append_nil], ?_⟩
          rw [List.nil_append, hleftEq]
          exact hleft (by rw [← hleftEq]; simp)
        | cons g behind' =>
          cases hleftEq
          exact absurd hstay (hleast before f behind' hrem hf)
  · intro h
    refine ⟨?_, fun before f behind heq hf hstay => ?_⟩
    · by_cases hnil : left = []
      · rw [hnil]
        exact h.nonneg
      · by_contra hover
        exact h.goes removed left rfl hover (hleft hnil)
    · obtain ⟨removed', left', rfl, hstop⟩ := h.stays before f (behind ++ left)
        (by rw [heq, List.append_assoc, List.cons_append]) hf hstay
      refine hbefore removed' (left' ++ f :: behind) (by rw [heq, List.append_assoc]) (by simp) ?_
      rwa [List.append_assoc, List.cons_append]

/-- **When a pass cleans up**, for each of the two storages and every directory: exactly if the loop
over the sorted entries stops between those that must go and those that may stay. -/
theorem cleaned_files (limits : Limits) (σ : SliceSort File) (d : Directory) :
    (∀ f : FileStorage,
      Cleaned f.fileSuffix.isSuffixOf limits σ d (f.cleanup limits σ d) ↔
        Sparing limits (σ.sort File.before (d.entries f.fileSuffix.isSuffixOf))) ∧
    ∀ f : FileCache,
      Cleaned (fun _ => true) limits σ d (f.cleanup limits σ d) ↔
        Sparing limits (σ.sort File.before (d.entries fun _ => true)) :=
  ⟨fun _ => cleaned_cleanup_iff .., fun _ => cleaned_cleanup_iff ..⟩

/-- Two files of ten bytes, the newer one expired -/
def twoFiles : Directory where
  files := [{ name := "a.failover", size := 10, modTime := 1 },
    { name := "b.failover", size := 10, modTime := 2, expired := true }]
  nodup := (by decide : (["a.failover", "b.failover"] : List Text).Nodup)

/-- A file that has expired, and a newer one -/
def oneExpired : Directory where
  files := [{ name := "a.cache", size := 10, modTime := 1, expired := true },
    { name := "b.cache", size := 15, modTime := 2 }]
  nodup := by decide

/-- **Expired files are counted**: a file that has not expired is removed although there is room for
it, since the newer one that has expired is counted; and a file beyond the limit is kept, since the
size of the expired one is subtracted twice. -/
theorem expired_counts :
    (Limits.Within (.ofConfig 100 1)
        (unexpired (twoFiles.entries (".failover" : Text).isSuffixOf)) ∧
      (((newFileStorage "").cleanup (.ofConfig 100 1) .insertion twoFiles).files = [])) ∧
    ((newFileCache "").cleanup (.ofConfig 12 5) .insertion oneExpired).files =
      [{ name := "b.cache", size := 15, modTime := 2 }] := by
  decide

end Cache

end GinRpc
