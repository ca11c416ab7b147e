import GinRpc.Kernel.Loader

/-!
# Correctness of the topological sort

The relation sorted by `topoSort` is `DependsOn configured` : hard dependencies, and soft
dependencies on configured plugins.

* `Kahn.Inv` : the invariant of the main loop.  The in-degree of a plugin counts its dependencies
  that are not in the order yet, the queue holds exactly the available plugins in registration
  sequence, and the order is greedy.
* `Kahn.Inv.next` : a round keeps the invariant; `Kahn.drain_queue` : `configured.length` rounds
  empty the queue.
* `topoSort_spec` : what the sort returns, for every order of the map ranges.
-/

namespace GinRpc

namespace Kernel

/-! ### The helpers -/

/-- Appending the new entries that satisfy `c`. -/
theorem foldl_collect (c : String → Prop) [DecidablePred c] (xs : List String) :
    ∀ out : List String, out.Nodup →
      (xs.foldl (fun out v => if c v ∧ v ∉ out then out ++ [v] else out) out).Nodup ∧
      ∀ v, v ∈ xs.foldl (fun out v => if c v ∧ v ∉ out then out ++ [v] else out) out ↔
        v ∈ out ∨ v ∈ xs ∧ c v := by
  induction xs with
  | nil => intro out hn; simp [hn]
  | cons x xs ih =>
    intro out hn
    simp only [List.foldl_cons]
    split_ifs with hx
    · have hn' : (out ++ [x]).Nodup := by
        rw [List.nodup_append]
        refine ⟨hn, List.nodup_singleton _, fun a ha b hb => ?_⟩
        rintro rfl
        exact hx.2 (List.mem_singleton.1 hb ▸ ha)
      obtain ⟨h1, h2⟩ := ih (out ++ [x]) hn'
      refine ⟨h1, fun v => ?_⟩
      rw [h2]
      by_cases hv : v = x
      · subst hv; simp [hx.1]
      · simp [hv]
    · obtain ⟨h1, h2⟩ := ih out hn
      refine ⟨h1, fun v => ?_⟩
      rw [h2]
      by_cases hv : v = x
      · subst hv
        -- `v` is skipped because it is there already or does not satisfy `c`
        have : c v → v ∈ out := fun hc => by_contra fun hm => hx ⟨hc, hm⟩
        simp only [List.mem_cons, true_or, true_and]
        tauto
      · simp [hv]

theorem dedupe_spec (xs : List String) :
    (dedupe xs).Nodup ∧ ∀ v, v ∈ dedupe xs ↔ v ∈ xs := by
  have he : dedupe xs =
      xs.foldl (fun out v => if True ∧ v ∉ out then out ++ [v] else out) [] := by
    unfold dedupe
    congr
    funext out v
    by_cases hv : v ∈ out <;> simp [hv]
  have := foldl_collect (fun _ => True) xs [] List.nodup_nil
  rw [← he] at this
  simpa using this

theorem isConfigured_iff {configured : List Plugin} {n : String} :
    isConfigured configured n = true ↔ n ∈ configured.map Plugin.name := by
  simp [isConfigured]

theorem mergeDeps_spec (configured : List Plugin) (p : Plugin) :
    (mergeDeps configured p).Nodup ∧ ∀ d, d ∈ mergeDeps configured p ↔
      d ∈ p.depends ∨ d ∈ p.softDepends ∧ d ∈ configured.map Plugin.name := by
  obtain ⟨h1, h2⟩ := foldl_collect (fun d => isConfigured configured d = true)
    (dedupe p.softDepends) (dedupe p.depends) (dedupe_spec _).1
  refine ⟨h1, fun d => ?_⟩
  rw [mergeDeps, h2, (dedupe_spec _).2, (dedupe_spec _).2, isConfigured_iff]

section Sorting

variable {α : Type*} {less : α → α → Bool}

theorem sift_perm (x : α) (ys : List α) : (sift less x ys).Perm (x :: ys) := by
  induction ys with
  | nil => exact .refl _
  | cons y ys ih =>
    unfold sift
    split_ifs
    · exact (ih.cons y).trans (.swap x y ys)
    · exact .refl _

theorem sortSliceStable_perm (list : List α) : (sortSliceStable less list).Perm list := by
  have key : ∀ (list sorted : List α),
      (list.foldl (fun sorted x => sift less x sorted) sorted).Perm (sorted ++ list) := by
    intro list
    induction list with
    | nil => intro sorted; simp
    | cons x list ih =>
      intro sorted
      refine (ih _).trans (((sift_perm x sorted).append_right list).trans ?_)
      exact List.perm_middle.symm
  exact (List.reverse_perm _).trans (by simpa using key list [])

/-- What the insertion sort needs of `less` to produce a sorted list. -/
structure Ranked (less : α → α → Bool) : Prop where
  asymm : ∀ a b, less a b = true → less b a = false
  trans : ∀ a b c, less b a = false → less c b = false → less c a = false

theorem sift_pairwise (hr : Ranked less) (x : α) (ys : List α)
    (h : ys.Pairwise fun a b => less a b = false) :
    (sift less x ys).Pairwise fun a b => less a b = false := by
  induction ys with
  | nil => simp [sift]
  | cons y ys ih =>
    obtain ⟨hy, hys⟩ := List.pairwise_cons.1 h
    unfold sift
    split_ifs with hxy
    · refine List.pairwise_cons.2 ⟨fun z hz => ?_, ih hys⟩
      rcases List.mem_cons.1 ((sift_perm x ys).subset hz) with rfl | hz
      · exact hr.asymm _ _ hxy
      · exact hy z hz
    · refine List.pairwise_cons.2 ⟨fun z hz => ?_, h⟩
      have hxy' : less x y = false := by simpa using hxy
      rcases List.mem_cons.1 hz with rfl | hz
      · exact hxy'
      · exact hr.trans _ _ _ (hy z hz) hxy'

/-- The insertion sort sorts: no later entry is less than an earlier one. -/
theorem sortSliceStable_pairwise (hr : Ranked less) (list : List α) :
    (sortSliceStable less list).Pairwise fun a b => less b a = false := by
  have key : ∀ (list sorted : List α), (sorted.Pairwise fun a b => less a b = false) →
      (list.foldl (fun sorted x => sift less x sorted) sorted).Pairwise
        fun a b => less a b = false := by
    intro list
    induction list with
    | nil => intro sorted h; exact h
    | cons x list ih => intro sorted h; exact ih _ (sift_pairwise hr x sorted h)
  rw [sortSliceStable, List.pairwise_reverse]
  exact key list [] List.Pairwise.nil

theorem ranked_of_key {β : Type*} [LinearOrder β] {key : α → β}
    (hkey : ∀ a b, less a b = true ↔ key a < key b) : Ranked less where
  asymm a b h := by
    rw [Bool.eq_false_iff, ne_eq, hkey]
    exact ((hkey a b).1 h).not_gt
  trans a b c h1 h2 := by
    rw [Bool.eq_false_iff, ne_eq, hkey, not_lt] at h1 h2 ⊢
    exact h1.trans h2

theorem sortSliceStable_sorted {β : Type*} [LinearOrder β] {key : α → β}
    (hkey : ∀ a b, less a b = true ↔ key a < key b) (list : List α) :
    (sortSliceStable less list).Pairwise fun a b => key a ≤ key b :=
  (sortSliceStable_pairwise (ranked_of_key hkey) list).imp fun {a b} h => by
    rwa [Bool.eq_false_iff, ne_eq, hkey, not_lt] at h

theorem runes_injective : Function.Injective runes := by
  intro a b h
  have hinj : Function.Injective Char.toNat := fun c d hcd => Char.toNat_inj.1 hcd
  exact String.toList_inj.1 (hinj.list_map h)

theorem sortStrings_sorted (list : List String) :
    (sortStrings list).Pairwise fun a b => runes a ≤ runes b :=
  sortSliceStable_sorted (fun _ _ => List.lex_eq_true_iff_lt) list

end Sorting

/-! ### The graph -/

theorem foldl_dependents {deps : List String} (hn : deps.Nodup) (name : String)
    (m : String → List String) (d : String) :
    deps.foldl (fun m dep => Function.update m dep (m dep ++ [name])) m d =
      m d ++ if d ∈ deps then [name] else [] := by
  induction deps generalizing m with
  | nil => simp
  | cons x deps ih =>
    obtain ⟨hx, hn'⟩ := List.nodup_cons.1 hn
    rw [List.foldl_cons, ih hn']
    by_cases hd : d = x
    · subst hd; simp [hx]
    · simp [hd]

theorem foldl_add_dependents (configured ps : List Plugin) (g : Graph) (d : String) :
    (ps.foldl (Graph.add configured) g).dependents d =
      g.dependents d ++
        (ps.filter fun p => decide (d ∈ mergeDeps configured p)).map Plugin.name := by
  induction ps generalizing g with
  | nil => simp
  | cons p ps ih =>
    rw [List.foldl_cons, ih]
    simp only [Graph.add, foldl_dependents (mergeDeps_spec configured p).1, List.filter_cons]
    by_cases hd : d ∈ mergeDeps configured p <;> simp [hd]

theorem foldl_add_indegree_of_notMem (configured ps : List Plugin) (g : Graph) {n : String}
    (hn : n ∉ ps.map Plugin.name) :
    (ps.foldl (Graph.add configured) g).indegree n = g.indegree n := by
  induction ps generalizing g with
  | nil => rfl
  | cons p ps ih =>
    simp only [List.map_cons, List.mem_cons, not_or] at hn
    rw [List.foldl_cons, ih _ hn.2]
    simp [Graph.add, Function.update_of_ne hn.1]

theorem foldl_add_indegree (configured : List Plugin) {ps : List Plugin} (g : Graph)
    (hnd : (ps.map Plugin.name).Nodup) {p : Plugin} (hp : p ∈ ps) :
    (ps.foldl (Graph.add configured) g).indegree p.name = (mergeDeps configured p).length := by
  induction ps generalizing g with
  | nil => cases hp
  | cons q ps ih =>
    obtain ⟨hq, hnd'⟩ :=
      List.nodup_cons.1 (by simpa using hnd : (q.name :: ps.map Plugin.name).Nodup)
    rw [List.foldl_cons]
    rcases List.mem_cons.1 hp with rfl | hp
    · rw [foldl_add_indegree_of_notMem configured ps _ hq]
      simp [Graph.add]
    · exact ih _ hnd' hp

/-- The names of the configured plugins. -/
abbrev names (configured : List Plugin) : List String := configured.map Plugin.name

/-- `n` depends on `d` : `d` is a hard dependency of the configured plugin `n`, or a configured
soft one. -/
def DependsOn (configured : List Plugin) (n d : String) : Prop :=
  ∃ p ∈ configured, p.name = n ∧
    (d ∈ p.depends ∨ d ∈ p.softDepends ∧ d ∈ configured.map Plugin.name)

/-- The dependencies of the plugin called `n`. -/
def depsOf (configured : List Plugin) (n : String) : List String :=
  ((configured.find? fun p => p.name == n).map (mergeDeps configured)).getD []

section Graph

variable {configured : List Plugin}

theorem eq_of_name_eq (hnd : (names configured).Nodup) {p q : Plugin} (hp : p ∈ configured)
    (hq : q ∈ configured) (h : p.name = q.name) : p = q :=
  List.inj_on_of_nodup_map hnd hp hq h

theorem find?_name (hnd : (names configured).Nodup) {p : Plugin} (hp : p ∈ configured) :
    (configured.find? fun q => q.name == p.name) = some p := by
  cases hf : configured.find? fun q => q.name == p.name with
  | none =>
    rw [List.find?_eq_none] at hf
    exact absurd (hf p hp) (by simp)
  | some q =>
    have hq := List.find?_some hf
    simp only [beq_iff_eq] at hq
    rw [eq_of_name_eq hnd (List.mem_of_find?_eq_some hf) hp hq]

theorem depsOf_name (hnd : (names configured).Nodup) {p : Plugin} (hp : p ∈ configured) :
    depsOf configured p.name = mergeDeps configured p := by
  simp [depsOf, find?_name hnd hp]

theorem depsOf_nodup (n : String) : (depsOf configured n).Nodup := by
  unfold depsOf
  cases configured.find? fun p => p.name == n with
  | none => simp
  | some p => exact (mergeDeps_spec configured p).1

theorem mem_depsOf (hnd : (names configured).Nodup) {n d : String} :
    d ∈ depsOf configured n ↔ DependsOn configured n d := by
  constructor
  · intro h
    unfold depsOf at h
    cases hf : configured.find? fun p => p.name == n with
    | none => simp [hf] at h
    | some p =>
      have hp := List.find?_some hf
      simp only [beq_iff_eq] at hp
      rw [hf] at h
      exact ⟨p, List.mem_of_find?_eq_some hf, hp, ((mergeDeps_spec configured p).2 d).1 h⟩
  · rintro ⟨p, hp, rfl, hd⟩
    rw [depsOf_name hnd hp]
    exact ((mergeDeps_spec configured p).2 d).2 hd

theorem visit_names_nodup (hnd : (names configured).Nodup) (r : MapRange Plugin) :
    ((r.visit configured).map Plugin.name).Nodup :=
  ((r.perm configured).map _).nodup_iff.2 hnd

theorem buildGraph_indegree (hnd : (names configured).Nodup) (r : MapRange Plugin) {n : String}
    (hn : n ∈ names configured) :
    (buildGraph r configured).indegree n = (depsOf configured n).length := by
  obtain ⟨p, hp, rfl⟩ := List.mem_map.1 hn
  rw [depsOf_name hnd hp]
  exact foldl_add_indegree configured _ (visit_names_nodup hnd r) ((r.perm _).mem_iff.2 hp)

theorem buildGraph_dependents_nodup (hnd : (names configured).Nodup) (r : MapRange Plugin)
    (d : String) : ((buildGraph r configured).dependents d).Nodup := by
  rw [buildGraph, foldl_add_dependents]
  exact (visit_names_nodup hnd r).sublist (List.filter_sublist.map _)

theorem mem_buildGraph_dependents (hnd : (names configured).Nodup) (r : MapRange Plugin)
    {d n : String} :
    n ∈ (buildGraph r configured).dependents d ↔ d ∈ depsOf configured n := by
  rw [buildGraph, foldl_add_dependents]
  simp only [List.nil_append, List.mem_map, List.mem_filter, decide_eq_true_eq]
  constructor
  · rintro ⟨p, ⟨hp, hd⟩, rfl⟩
    rwa [depsOf_name hnd ((r.perm _).mem_iff.1 hp)]
  · intro h
    obtain ⟨p, hp, rfl, -⟩ := (mem_depsOf hnd).1 h
    rw [depsOf_name hnd hp] at h
    exact ⟨p, ⟨(r.perm _).mem_iff.2 hp, h⟩, rfl⟩

end Graph

/-! ### The main loop -/

/-- The inner loop over dependents without repetition. -/
theorem foldl_relax {next : List String} (hn : next.Nodup) (k : Kahn) :
    next.foldl Kahn.relax k =
      { k with
        indegree := fun n => if n ∈ next then k.indegree n - 1 else k.indegree n
        queue := k.queue ++ next.filter fun n => decide (k.indegree n = 1) } := by
  induction next generalizing k with
  | nil => simp
  | cons x next ih =>
    obtain ⟨hx, hn'⟩ := List.nodup_cons.1 hn
    have hne : ∀ n ∈ next, n ≠ x := fun n h he => hx (he ▸ h)
    have hf : (next.filter fun n => decide ((k.relax x).indegree n = 1)) =
        next.filter fun n => decide (k.indegree n = 1) :=
      List.filter_congr fun n h => by simp [Kahn.relax, Function.update_of_ne (hne n h)]
    rw [List.foldl_cons, ih hn', hf]
    simp only [Kahn.relax, Kahn.mk.injEq, and_true]
    refine ⟨?_, ?_⟩
    · funext n
      by_cases hnx : n = x
      · subst hnx; simp [hx]
      · simp [hnx]
    · rw [List.filter_cons]
      by_cases h1 : k.indegree x = 1
      · simp [h1]
      · have h0 : k.indegree x - 1 ≠ 0 := by omega
        simp [h1, h0]

namespace Kahn

variable {configured : List Plugin} {seq : String → ℕ} {k : Kahn}

/-- The invariant of the main loop. -/
structure Inv (configured : List Plugin) (seq : String → ℕ) (k : Kahn) : Prop where
  order_nodup : k.order.Nodup
  greedy : Greedy (DependsOn configured) seq (names configured) k.order
  queue_nodup : k.queue.Nodup
  mem_queue : ∀ n, n ∈ k.queue ↔ Available (DependsOn configured) (names configured) k.order n
  queue_sorted : k.queue.Pairwise fun a b => seq a ≤ seq b
  indegree : ∀ n ∈ names configured,
    k.indegree n = (((depsOf configured n).filter fun d => decide (d ∉ k.order)).length : ℤ)

theorem sorted_bySeq (seq : String → ℕ) (l : List String) :
    (sortSliceStable (fun a b => decide (seq a < seq b)) l).Pairwise fun a b => seq a ≤ seq b :=
  sortSliceStable_sorted (fun _ _ => decide_eq_true_iff) l

theorem available_iff (hnd : (names configured).Nodup) {done : List String} {n : String} :
    Available (DependsOn configured) (names configured) done n ↔
      n ∈ names configured ∧ n ∉ done ∧
        (depsOf configured n).filter (fun d => decide (d ∉ done)) = [] := by
  simp only [List.filter_eq_nil_iff, decide_eq_true_eq, not_not]
  constructor
  · rintro ⟨h1, h2, h3⟩
    exact ⟨h1, h2, fun d hd => h3 d ((mem_depsOf hnd).1 hd)⟩
  · rintro ⟨h1, h2, h3⟩
    exact ⟨h1, h2, fun d hd => h3 d ((mem_depsOf hnd).2 hd)⟩

theorem inv_start (hnd : (names configured).Nodup) (r₁ r₂ : MapRange Plugin)
    (registered : List Plugin) :
    Inv configured (seqOf registered) (start r₁ r₂ configured registered) where
  order_nodup := List.nodup_nil
  greedy := Sequenced.nil
  queue_nodup := (sortSliceStable_perm _).nodup_iff.2 ((visit_names_nodup hnd r₂).filter _)
  mem_queue n := by
    have hmem : n ∈ (r₂.visit configured).map Plugin.name ↔ n ∈ names configured :=
      ((r₂.perm configured).map _).mem_iff
    simp only [start, (sortSliceStable_perm _).mem_iff, List.mem_filter, hmem,
      decide_eq_true_eq, available_iff hnd, List.not_mem_nil, not_false_eq_true, decide_true,
      List.filter_true, true_and]
    refine and_congr_right fun hn => ?_
    rw [buildGraph_indegree hnd r₁ hn]
    simp
  queue_sorted := sorted_bySeq _ _
  indegree n hn := by simp [start, buildGraph_indegree hnd r₁ hn]

/-- Emitting `name` removes it from the open dependencies of its dependents. -/
theorem filter_snoc_length (configured : List Plugin) {order : List String} {name : String}
    (hname : name ∉ order) (n : String) :
    (((depsOf configured n).filter fun d => decide (d ∉ order ++ [name])).length : ℤ) =
      ((depsOf configured n).filter fun d => decide (d ∉ order)).length -
        if name ∈ depsOf configured n then 1 else 0 := by
  have hsplit : ((depsOf configured n).filter fun d => decide (d ∉ order ++ [name])) =
      ((depsOf configured n).filter fun d => decide (d ∉ order)).erase name := by
    rw [(depsOf_nodup n |>.filter _).erase_eq_filter, List.filter_filter]
    refine List.filter_congr fun d _ => ?_
    by_cases hd : d = name <;> simp [hd]
  rw [hsplit]
  by_cases hm : name ∈ depsOf configured n
  · have hf : name ∈ (depsOf configured n).filter fun d => decide (d ∉ order) := by
      simp [hm, hname]
    rw [List.length_erase_of_mem hf, if_pos hm]
    have := List.length_pos_of_mem hf
    omega
  · rw [List.erase_of_not_mem fun h => hm (List.mem_filter.1 h).1, if_neg hm]
    simp

theorem mem_names_of_mem_depsOf (hnd : (names configured).Nodup) {n d : String}
    (h : d ∈ depsOf configured n) : n ∈ names configured := by
  obtain ⟨p, hp, rfl, -⟩ := (mem_depsOf hnd).1 h
  exact List.mem_map_of_mem hp

/-- Once `name` is emitted, available is what was so before, and what has waited for `name` only. -/
theorem available_snoc_iff (hnd : (names configured).Nodup) {order : List String} {name n : String}
    (hname : name ∉ order)
    (hout : name ∈ depsOf configured n → n ∉ order ++ [name]) :
    Available (DependsOn configured) (names configured) (order ++ [name]) n ↔
      (n ≠ name ∧ Available (DependsOn configured) (names configured) order n) ∨
        (name ∈ depsOf configured n ∧
          (((depsOf configured n).filter fun d => decide (d ∉ order)).length : ℤ) = 1) := by
  have hlen := filter_snoc_length configured hname n
  rw [available_iff hnd, available_iff hnd, ← List.length_eq_zero_iff, ← List.length_eq_zero_iff]
  by_cases hd : name ∈ depsOf configured n
  · rw [if_pos hd] at hlen
    constructor
    · rintro ⟨-, -, hz⟩
      exact .inr ⟨hd, by omega⟩
    · rintro (⟨-, -, -, hz⟩ | ⟨-, h1⟩)
      · omega
      · exact ⟨mem_names_of_mem_depsOf hnd hd, hout hd, by omega⟩
  · rw [if_neg hd] at hlen
    rw [List.mem_append, not_or, List.mem_singleton]
    constructor
    · rintro ⟨hn, ⟨hfresh, hne⟩, hz⟩
      exact .inl ⟨hne, hn, hfresh, by omega⟩
    · rintro (⟨hne, hn, hfresh, hz⟩ | ⟨hd', -⟩)
      · exact ⟨hn, ⟨hfresh, hne⟩, by omega⟩
      · exact absurd hd' hd

/-- **A round of the main loop keeps the invariant.** -/
theorem Inv.next (hnd : (names configured).Nodup) (r₁ : MapRange Plugin)
    (h : Inv configured seq k) :
    Inv configured seq (k.next seq (buildGraph r₁ configured).dependents) := by
  unfold Kahn.next
  split
  · exact h
  rename_i name queue hq
  have hav := (h.mem_queue name).1 (by simp [hq])
  obtain ⟨hnq, hqn⟩ := List.nodup_cons.1 (hq ▸ h.queue_nodup)
  obtain ⟨hmin, -⟩ := List.pairwise_cons.1 (hq ▸ h.queue_sorted)
  have hfresh := hav.fresh
  have hdn := buildGraph_dependents_nodup hnd r₁ name
  have hmd : ∀ n, n ∈ (buildGraph r₁ configured).dependents name ↔ name ∈ depsOf configured n :=
    fun n => mem_buildGraph_dependents hnd r₁
  -- what depends on `name` is neither emitted nor waiting in the queue
  have hout : ∀ n, name ∈ depsOf configured n → n ∉ k.order ++ [name] := by
    intro n hn hm
    have hdep := (mem_depsOf hnd).1 hn
    rcases List.mem_append.1 hm with hm | hm
    · exact hfresh (h.greedy.grounded.mem_of_dep hm hdep)
    · rw [List.mem_singleton.1 hm] at hdep
      exact hfresh (hav.ready name hdep)
  have hdisj : ∀ n ∈ queue, name ∉ depsOf configured n := fun n hn hd =>
    hfresh (((h.mem_queue n).1 (by simp [hq, hn])).ready name ((mem_depsOf hnd).1 hd))
  have hdeg : ∀ n ∈ names configured,
      (if n ∈ (buildGraph r₁ configured).dependents name then k.indegree n - 1
        else k.indegree n) =
      (((depsOf configured n).filter fun d => decide (d ∉ k.order ++ [name])).length : ℤ) := by
    intro n hn
    rw [filter_snoc_length configured hfresh n, ← h.indegree n hn]
    simp only [hmd]
    split_ifs <;> simp
  rw [foldl_relax hdn]
  refine ⟨?_, ?_, ?_, fun n => ?_, sorted_bySeq _ _, hdeg⟩
  · rw [List.nodup_append]
    refine ⟨h.order_nodup, List.nodup_singleton _, fun a ha b hb => ?_⟩
    rintro rfl
    exact hfresh (List.mem_singleton.1 hb ▸ ha)
  · refine h.greedy.snoc ⟨hav, fun b hb => ?_⟩
    have hb' := (h.mem_queue b).2 hb
    rw [hq] at hb'
    rcases List.mem_cons.1 hb' with rfl | hb'
    · exact le_rfl
    · exact hmin b hb'
  · refine (sortSliceStable_perm _).nodup_iff.2 ?_
    rw [List.nodup_append]
    refine ⟨hqn, hdn.filter _, fun a ha b hb => ?_⟩
    rintro rfl
    exact hdisj a ha ((hmd a).1 (List.mem_filter.1 hb).1)
  · rw [(sortSliceStable_perm _).mem_iff, List.mem_append, List.mem_filter, hmd,
      decide_eq_true_eq, available_snoc_iff hnd hfresh (hout n), ← h.mem_queue, hq]
    refine or_congr ?_ (and_congr_right fun hn => ?_)
    · rw [List.mem_cons]
      exact ⟨fun hn => ⟨fun he => hnq (he ▸ hn), .inr hn⟩, fun hn => hn.2.resolve_left hn.1⟩
    · rw [h.indegree n (mem_names_of_mem_depsOf hnd hn)]

theorem Inv.drain (hnd : (names configured).Nodup) (r₁ : MapRange Plugin) (n : ℕ)
    (h : Inv configured seq k) :
    Inv configured seq (k.drain seq (buildGraph r₁ configured).dependents n) := by
  induction n generalizing k with
  | zero => exact h
  | succ n ih => exact ih (h.next hnd r₁)

theorem next_of_queue_nil {dependents : String → List String} (h : k.queue = []) :
    k.next seq dependents = k := by
  simp [Kahn.next, h]

theorem foldl_relax_order (next : List String) (k : Kahn) :
    (next.foldl Kahn.relax k).order = k.order := by
  induction next generalizing k with
  | nil => rfl
  | cons x next ih => rw [List.foldl_cons, ih]; rfl

/-- Either the queue runs empty or every round emits a plugin. -/
theorem drain_progress (seq : String → ℕ) (dependents : String → List String) (n : ℕ) (k : Kahn) :
    (k.drain seq dependents n).queue = [] ∨
      (k.drain seq dependents n).order.length = k.order.length + n := by
  induction n generalizing k with
  | zero => exact .inr rfl
  | succ n ih =>
    rw [drain]
    cases hq : k.queue with
    | nil =>
      -- nothing happens in the remaining rounds
      have hstay : ∀ m, k.drain seq dependents m = k := by
        intro m
        induction m with
        | zero => rfl
        | succ m ihm => rw [drain, next_of_queue_nil hq, ihm]
      rw [next_of_queue_nil hq, hstay]
      exact .inl hq
    | cons name queue =>
      have hlen : (k.next seq dependents).order.length = k.order.length + 1 := by
        simp [Kahn.next, hq, foldl_relax_order]
      rcases ih (k.next seq dependents) with h | h
      · exact .inl h
      · exact .inr (by rw [h, hlen]; omega)

/-- The loop has ended after `configured.length` rounds. -/
theorem drain_queue (hnd : (names configured).Nodup) (r₁ r₂ : MapRange Plugin)
    (registered : List Plugin) :
    ((start r₁ r₂ configured registered).drain (seqOf registered)
      (buildGraph r₁ configured).dependents configured.length).queue = [] := by
  have hinv := (inv_start hnd r₁ r₂ registered).drain hnd r₁ configured.length
  set k := (start r₁ r₂ configured registered).drain (seqOf registered)
    (buildGraph r₁ configured).dependents configured.length with hk
  rcases drain_progress (seqOf registered) (buildGraph r₁ configured).dependents
    configured.length (start r₁ r₂ configured registered) with h | h
  · exact h
  · rw [← hk] at h
    -- the order is full, so nothing can be waiting
    have hperm : k.order.Perm (names configured) :=
      (hinv.order_nodup.subperm hinv.greedy.subset).perm_of_length_le (by
        rw [h]; simp [start])
    rw [List.eq_nil_iff_forall_not_mem]
    intro n hn
    have hav := (hinv.mem_queue n).1 hn
    exact hav.fresh (hperm.mem_iff.2 hav.mem)

end Kahn

/-! ### The result -/

section Result

variable {configured registered : List Plugin}

theorem foldl_seq_of_notMem (ps : List (Plugin × ℕ)) (seq : String → ℕ) {n : String}
    (hn : n ∉ ps.map fun pi => pi.1.name) :
    ps.foldl (fun seq pi => Function.update seq pi.1.name pi.2) seq n = seq n := by
  induction ps generalizing seq with
  | nil => rfl
  | cons p ps ih =>
    simp only [List.map_cons, List.mem_cons, not_or] at hn
    rw [List.foldl_cons, ih _ hn.2, Function.update_of_ne hn.1]

/-- The registration sequence of a plugin is its position in the registry. -/
theorem seqOf_eq_idxOf (hreg : (names registered).Nodup) {n : String}
    (hn : n ∈ names registered) : seqOf registered n = (names registered).idxOf n := by
  have key : ∀ (ps : List Plugin) (i : ℕ) (seq : String → ℕ), (names ps).Nodup →
      n ∈ names ps → (ps.zipIdx i).foldl
        (fun seq pi => Function.update seq pi.1.name pi.2) seq n = i + (names ps).idxOf n := by
    intro ps
    induction ps with
    | nil => intro i seq _ hn; cases hn
    | cons p ps ih =>
      intro i seq hnd hn
      simp only [names, List.map_cons, List.nodup_cons] at hnd
      rw [List.zipIdx_cons, List.foldl_cons]
      by_cases hp : p.name = n
      · have hnot : n ∉ (ps.zipIdx (i + 1)).map fun pi => pi.1.name := by
          have he : ((ps.zipIdx (i + 1)).map fun pi => pi.1.name) = names ps := by
            rw [names, ← List.zipIdx_map_fst (i + 1) ps, List.map_map]
            simp [Function.comp_def]
          rw [he, ← hp]
          exact hnd.1
        rw [foldl_seq_of_notMem _ _ hnot]
        simp [names, hp]
      · have hn' : n ∈ names ps := (List.mem_cons.1 hn).resolve_left fun h => hp h.symm
        rw [ih (i + 1) _ hnd.2 hn']
        simp only [names, List.map_cons, List.idxOf_cons_ne _ hp]
        omega
  simpa [seqOf] using key registered 0 (fun _ => 0) hreg hn

theorem seqOf_injOn (hreg : (names registered).Nodup) (hsub : configured ⊆ registered) :
    ∀ a ∈ names configured, ∀ b ∈ names configured,
      seqOf registered a = seqOf registered b → a = b := by
  intro a ha b hb hab
  have ha' := List.map_subset Plugin.name hsub ha
  have hb' := List.map_subset Plugin.name hsub hb
  rw [seqOf_eq_idxOf hreg ha', seqOf_eq_idxOf hreg hb'] at hab
  exact (List.idxOf_inj ha').1 hab

/-- The state in which the main loop ends. -/
def Kahn.final (r₁ r₂ : MapRange Plugin) (configured registered : List Plugin) : Kahn :=
  (Kahn.start r₁ r₂ configured registered).drain (seqOf registered)
    (buildGraph r₁ configured).dependents configured.length

/-- The plugins left over by the main loop. -/
def Kahn.remaining (r₃ : MapRange Plugin) (configured : List Plugin) (k : Kahn) : List String :=
  sortStrings (((r₃.visit configured).map Plugin.name).filter fun n => decide (n ∉ k.order))

theorem topoSort_eq (r₁ r₂ r₃ : MapRange Plugin) :
    topoSort r₁ r₂ r₃ configured registered =
      if (Kahn.final r₁ r₂ configured registered).order.length = configured.length then
        .ok (Kahn.final r₁ r₂ configured registered).order
      else .error (.cycle ((Kahn.final r₁ r₂ configured registered).remaining r₃ configured)) := by
  unfold topoSort Kahn.remaining Kahn.final
  simp only [ne_eq, ite_not]

theorem Kahn.mem_remaining (r₃ : MapRange Plugin) (k : Kahn) {n : String} :
    n ∈ k.remaining r₃ configured ↔ n ∈ names configured ∧ n ∉ k.order := by
  rw [remaining, sortStrings, (sortSliceStable_perm _).mem_iff, List.mem_filter,
    ((r₃.perm configured).map _).mem_iff]
  simp

theorem dependsOn_closed (hhard : ∀ p ∈ configured, ∀ d ∈ p.depends, d ∈ names configured)
    {n d : String} (h : DependsOn configured n d) : d ∈ names configured := by
  obtain ⟨p, hp, -, hd | ⟨-, hd⟩⟩ := h
  · exact hhard p hp d hd
  · exact hd

/-- Where the main loop ends: a greedy order after which nothing is available. -/
theorem Kahn.final_spec (hnd : (names configured).Nodup) (r₁ r₂ : MapRange Plugin)
    (registered : List Plugin) :
    (final r₁ r₂ configured registered).order.Nodup ∧
      Greedy (DependsOn configured) (seqOf registered) (names configured)
        (final r₁ r₂ configured registered).order ∧
      ∀ n, ¬ Available (DependsOn configured) (names configured)
        (final r₁ r₂ configured registered).order n := by
  have hinv := (inv_start hnd r₁ r₂ registered).drain hnd r₁ configured.length
  refine ⟨hinv.order_nodup, hinv.greedy, fun n hn => ?_⟩
  have hmem := (hinv.mem_queue n).2 hn
  rw [drain_queue hnd r₁ r₂ registered] at hmem
  exact absurd hmem List.not_mem_nil

theorem Kahn.final_mem_remaining (hnd : (names configured).Nodup)
    (hhard : ∀ p ∈ configured, ∀ d ∈ p.depends, d ∈ names configured)
    (r₁ r₂ r₃ : MapRange Plugin) (registered : List Plugin) (n : String) :
    n ∈ (final r₁ r₂ configured registered).remaining r₃ configured ↔
      n ∈ names configured ∧ ReachesCycle (DependsOn configured) n := by
  obtain ⟨-, hgreedy, hstuck⟩ := final_spec hnd r₁ r₂ registered
  rw [mem_remaining]
  refine and_congr_right fun hn => ?_
  exact hgreedy.grounded.notMem_iff_reachesCycle (fun _ _ => dependsOn_closed hhard) hstuck hn

/-- The loop emits every plugin exactly when there is no cycle. -/
theorem Kahn.final_full_iff (hnd : (names configured).Nodup)
    (hhard : ∀ p ∈ configured, ∀ d ∈ p.depends, d ∈ names configured)
    (r₁ r₂ : MapRange Plugin) (registered : List Plugin) :
    (final r₁ r₂ configured registered).order.length = configured.length ↔
      Acyclic (DependsOn configured) := by
  obtain ⟨horder, hgreedy, hstuck⟩ := final_spec hnd r₁ r₂ registered
  have hlen : (names configured).length = configured.length := List.length_map ..
  constructor
  · intro hfull n hn
    -- whatever lies on a cycle is configured, hence emitted
    obtain ⟨d, hd, -⟩ := Relation.TransGen.head'_iff.1 hn
    obtain ⟨p, hp, rfl, -⟩ := hd
    have htop := hgreedy.isTopOrder horder (hfull.trans hlen.symm)
    have hmem := htop.perm.mem_iff.2 (List.mem_map_of_mem hp)
    exact hgreedy.grounded.not_reachesCycle _ hmem ⟨p.name, .refl, hn⟩
  · intro hac
    have hsub : names configured ⊆ (final r₁ r₂ configured registered).order := by
      intro n hn
      by_contra hno
      obtain ⟨c, -, hc⟩ := (hgreedy.grounded.notMem_iff_reachesCycle
        (fun _ _ => dependsOn_closed hhard) hstuck hn).1 hno
      exact hac c hc
    rw [← hlen]
    exact le_antisymm (horder.subperm hgreedy.subset).length_le (hnd.subperm hsub).length_le

/-- The leftover plugins are listed in increasing order. -/
theorem Kahn.remaining_congr (hnd : (names configured).Nodup) (r₃ r₃' : MapRange Plugin)
    {k k' : Kahn} (h : ∀ n, n ∈ k.remaining r₃ configured ↔ n ∈ k'.remaining r₃' configured) :
    k.remaining r₃ configured = k'.remaining r₃' configured := by
  have hrem : ∀ (r : MapRange Plugin) (k : Kahn), (k.remaining r configured).Nodup := fun r k =>
    (sortSliceStable_perm _).nodup_iff.2 ((visit_names_nodup hnd r).filter _)
  refine ((List.perm_ext_iff_of_nodup (hrem r₃ k) (hrem r₃' k')).2 h).eq_of_pairwise
    (fun a b _ _ hab hba => ?_) (sortStrings_sorted _) (sortStrings_sorted _)
  exact runes_injective (le_antisymm hab hba)

/-- What a successful sort returns is the complete greedy order. -/
theorem topoSort_ok (hnd : (names configured).Nodup) {r₁ r₂ r₃ : MapRange Plugin}
    {order : List String} (h : topoSort r₁ r₂ r₃ configured registered = .ok order) :
    order.Nodup ∧ Greedy (DependsOn configured) (seqOf registered) (names configured) order ∧
      order.length = (names configured).length := by
  rw [topoSort_eq] at h
  split_ifs at h with hl
  cases h
  obtain ⟨horder, hgreedy, -⟩ := Kahn.final_spec hnd r₁ r₂ registered
  exact ⟨horder, hgreedy, hl.trans (List.length_map ..).symm⟩

/-- **The topological sort.**  For distinct registered names and hard dependencies that are all
configured, `topoSort` succeeds exactly on acyclic dependencies, with the topological order that
is lexicographically least in registration sequence; otherwise it names the plugins from which a
cycle can be reached.  The orders of the map ranges do not matter. -/
theorem topoSort_spec (hreg : (names registered).Nodup) (hnd : (names configured).Nodup)
    (hsub : configured ⊆ registered)
    (hhard : ∀ p ∈ configured, ∀ d ∈ p.depends, d ∈ names configured)
    (r₁ r₂ r₃ : MapRange Plugin) :
    ((∃ order, topoSort r₁ r₂ r₃ configured registered = .ok order) ↔
      Acyclic (DependsOn configured)) ∧
    (∀ order, topoSort r₁ r₂ r₃ configured registered = .ok order →
      IsTopOrder (DependsOn configured) (names configured) order ∧
      ∀ other, IsTopOrder (DependsOn configured) (names configured) other →
        order = other ∨ List.Lex (· < ·) (order.map (names registered).idxOf)
          (other.map (names registered).idxOf)) ∧
    (∀ e, topoSort r₁ r₂ r₃ configured registered = .error e →
      ∃ remaining, e = .cycle remaining ∧ ∀ n, n ∈ remaining ↔
        n ∈ names configured ∧ ReachesCycle (DependsOn configured) n) ∧
    ∀ r₁' r₂' r₃', topoSort r₁' r₂' r₃' configured registered =
      topoSort r₁ r₂ r₃ configured registered := by
  have hlen : (names configured).length = configured.length := List.length_map ..
  have hinj := seqOf_injOn hreg hsub
  have hfull := fun r₁ r₂ => Kahn.final_full_iff hnd hhard r₁ r₂ registered
  have hspec := fun r₁ r₂ => Kahn.final_spec hnd r₁ r₂ registered
  have hrem := fun r₁ r₂ r₃ => Kahn.final_mem_remaining hnd hhard r₁ r₂ r₃ registered
  have hseq : ∀ l : List String, l.Perm (names configured) →
      l.map (seqOf registered) = l.map (names registered).idxOf := fun l hl =>
    List.map_congr_left fun n hn =>
      seqOf_eq_idxOf hreg (List.map_subset _ hsub (hl.subset hn))
  refine ⟨?_, fun order h => ?_, fun e h => ?_, fun r₁' r₂' r₃' => ?_⟩
  · rw [← hfull r₁ r₂, topoSort_eq]
    split_ifs with hl <;> simp [hl]
  · obtain ⟨horder, hgreedy, hl⟩ := topoSort_ok hnd h
    have htop := hgreedy.isTopOrder horder hl
    refine ⟨htop, fun other ho => ?_⟩
    rw [← hseq _ htop.perm, ← hseq _ ho.perm]
    exact hgreedy.eq_or_lex hnd hinj hl ho
  · rw [topoSort_eq] at h
    split_ifs at h with hl
    exact ⟨_, (Except.error.inj h).symm, hrem r₁ r₂ r₃⟩
  · rw [topoSort_eq, topoSort_eq]
    by_cases hac : Acyclic (DependsOn configured)
    · have hl := (hfull r₁ r₂).2 hac
      have hl' := (hfull r₁' r₂').2 hac
      rw [if_pos hl, if_pos hl', (hspec r₁' r₂').2.1.unique (hspec r₁' r₂').1
        (hl'.trans hlen.symm) hnd hinj (hspec r₁ r₂).2.1 (hspec r₁ r₂).1 (hl.trans hlen.symm)]
    · rw [if_neg fun hl => hac ((hfull r₁ r₂).1 hl),
        if_neg fun hl => hac ((hfull r₁' r₂').1 hl)]
      rw [Kahn.remaining_congr hnd r₃' r₃ fun n => by rw [hrem, hrem]]

/-- Three plugins registered against the order of their dependencies. -/
def tower : List Plugin :=
  [{ name := "top", depends := ["mid", "mid"], softDepends := ["base", "absent"] },
   { name := "mid", depends := ["base"] }, { name := "base" }]

theorem topoSort_tower :
    IsTopOrder (DependsOn tower) (names tower) ["base", "mid", "top"] ∧
      Acyclic (DependsOn tower) := by
  obtain ⟨hok, htop, -, -⟩ := @topoSort_spec tower tower
    (by decide) (by decide) (List.Subset.refl _) (by decide)
    MapRange.inserted MapRange.inserted MapRange.inserted
  have hrun : topoSort MapRange.inserted MapRange.inserted MapRange.inserted tower tower =
      .ok ["base", "mid", "top"] := by decide
  exact ⟨(htop _ hrun).1, hok.1 ⟨_, hrun⟩⟩

end Result

end Kernel

end GinRpc
