import Mathlib.Data.List.GetD
import Mathlib.Data.List.Sort

/-!
# Rings of hashes

Nodes own points of a circle, which is a linear order closed up at its ends.  A key belongs to the
owner of the first point at or clockwise after its own hash.  Of two nodes with the same point, the
later one in the list owns it.

* `search` : binary search in an interval, as `sort.Search` does it.
* `IsNext` : the first point at or clockwise after a hash; `isNext_search` finds it in a sorted
  list.
* `IsNext.of_subset`, `owner_insert` : with fewer points, a point that is left is still the first
  one; with a further node, a point has the same owner or is owned by the new node.
-/

namespace GinRpc

/-! ### Binary search -/

/-- The loop of `sort.Search`, for the given number of rounds. -/
def searchFrom (f : ℕ → Bool) : ℕ → ℕ → ℕ → ℕ
  | 0, i, _ => i
  | rounds + 1, i, j =>
    if i < j then
      if f ((i + j) / 2) then searchFrom f rounds i ((i + j) / 2)
      else searchFrom f rounds ((i + j) / 2 + 1) j
    else i

/-- The first index below `n` with `f`, or `n`.  The interval shrinks in every round, so there are
at most `n`. -/
def search (n : ℕ) (f : ℕ → Bool) : ℕ := searchFrom f n 0 n

theorem searchFrom_spec {f : ℕ → Bool} {n : ℕ}
    (hmono : ∀ i j, i ≤ j → j < n → f i = true → f j = true) (rounds i j : ℕ)
    (henough : j ≤ i + rounds) (hij : i ≤ j) (hjn : j ≤ n) (hbelow : ∀ k < i, f k = false)
    (habove : j < n → f j = true) :
    searchFrom f rounds i j ≤ n ∧ (∀ k < searchFrom f rounds i j, f k = false) ∧
      (searchFrom f rounds i j < n → f (searchFrom f rounds i j) = true) := by
  induction rounds generalizing i j with
  | zero =>
    obtain rfl : i = j := by omega
    exact ⟨hjn, hbelow, habove⟩
  | succ rounds ih =>
    rw [searchFrom]
    by_cases hlt : i < j
    · rw [if_pos hlt]
      by_cases hmid : f ((i + j) / 2) = true
      · rw [if_pos hmid]
        exact ih i _ (by omega) (by omega) (by omega) hbelow fun _ => hmid
      · rw [if_neg hmid]
        refine ih _ j (by omega) (by omega) hjn (fun k hk => ?_) habove
        rw [← Bool.not_eq_true]
        exact fun hfk => hmid (hmono k _ (by omega) (by omega) hfk)
    · rw [if_neg hlt]
      obtain rfl : i = j := by omega
      exact ⟨hjn, hbelow, habove⟩

theorem search_spec {f : ℕ → Bool} {n : ℕ}
    (hmono : ∀ i j, i ≤ j → j < n → f i = true → f j = true) :
    search n f ≤ n ∧ (∀ k < search n f, f k = false) ∧
      (search n f < n → f (search n f) = true) :=
  searchFrom_spec hmono n 0 n (by omega) (by omega) le_rfl (by omega) (by omega)

/-! ### The next point -/

namespace HashRing

variable {H : Type*} [LinearOrder H] {points more : List H} {h p q : H}

/-- `p` is the first of the points at or clockwise after `h`: the least one from `h` on or, if there
is none, the least of all. -/
structure IsNext (points : List H) (h p : H) : Prop where
  mem : p ∈ points
  first : (h ≤ p ∧ ∀ q ∈ points, h ≤ q → p ≤ q) ∨
    (∀ q ∈ points, q < h) ∧ ∀ q ∈ points, p ≤ q

theorem IsNext.unique (hp : IsNext points h p) (hq : IsNext points h q) : p = q := by
  obtain ⟨hp, ⟨hhp, hpmin⟩ | ⟨hall, hpmin⟩⟩ := hp <;>
    obtain ⟨hq, ⟨hhq, hqmin⟩ | ⟨hall', hqmin⟩⟩ := hq
  · exact le_antisymm (hpmin q hq hhq) (hqmin p hp hhp)
  · exact absurd (hall' p hp) (not_lt.2 hhp)
  · exact absurd (hall q hq) (not_lt.2 hhq)
  · exact le_antisymm (hpmin q hq) (hqmin p hp)

/-- With fewer points, a point that is left is still the next one. -/
theorem IsNext.of_subset (hnext : IsNext more h p) (hsub : points ⊆ more) (hp : p ∈ points) :
    IsNext points h p :=
  ⟨hp, hnext.first.imp (fun ⟨hle, hmin⟩ => ⟨hle, fun q hq => hmin q (hsub hq)⟩)
    fun ⟨hall, hmin⟩ => ⟨fun q hq => hall q (hsub hq), fun q hq => hmin q (hsub hq)⟩⟩

theorem IsNext.of_perm (hnext : IsNext more h p) (hperm : more.Perm points) : IsNext points h p :=
  hnext.of_subset hperm.symm.subset (hperm.subset hnext.mem)

/-- The index of the next point in a sorted list. -/
def nextIndex [Inhabited H] (points : List H) (h : H) : ℕ :=
  let idx := search points.length fun i => decide (h ≤ points.getD i default)
  if idx = points.length then 0 else idx

theorem getD_le_getD [Inhabited H] (hsorted : points.Pairwise (· ≤ ·)) {i j : ℕ} (hij : i ≤ j)
    (hj : j < points.length) : points.getD i default ≤ points.getD j default := by
  rw [List.getD_eq_getElem _ _ hj, List.getD_eq_getElem _ _ (hij.trans_lt hj)]
  obtain rfl | hlt := hij.eq_or_lt
  · exact le_rfl
  · exact List.pairwise_iff_getElem.1 hsorted i j _ hj hlt

variable (points) in
theorem isNext_nextIndex [Inhabited H] (hsorted : points.Pairwise (· ≤ ·)) (hne : points ≠ [])
    (h : H) : IsNext points h (points.getD (nextIndex points h) default) := by
  have hlen : 0 < points.length := List.length_pos_iff.2 hne
  have hget (k : ℕ) (hk : k < points.length) : points.getD k default ∈ points := by
    rw [List.getD_eq_getElem _ _ hk]
    exact List.getElem_mem hk
  obtain ⟨hle, hbelow, hat⟩ := search_spec (n := points.length)
    (f := fun i => decide (h ≤ points.getD i default)) fun i j hij hj hi => by
      simp only [decide_eq_true_eq] at hi ⊢
      exact hi.trans (getD_le_getD hsorted hij hj)
  simp only [decide_eq_false_iff_not, decide_eq_true_eq] at hbelow hat
  have hindex {q : H} (hq : q ∈ points) : ∃ k, k < points.length ∧ points.getD k default = q := by
    obtain ⟨k, hk, rfl⟩ := List.getElem_of_mem hq
    exact ⟨k, hk, List.getD_eq_getElem ..⟩
  unfold nextIndex
  dsimp only
  split_ifs with hend
  · -- every point is before `h`
    refine ⟨hget 0 hlen, .inr ⟨fun q hq => ?_, fun q hq => ?_⟩⟩ <;> obtain ⟨k, hk, rfl⟩ := hindex hq
    · exact not_le.1 (hbelow k (by omega))
    · exact getD_le_getD hsorted (Nat.zero_le k) hk
  · refine ⟨hget _ (by omega), .inl ⟨hat (by omega), fun q hq hhq => ?_⟩⟩
    obtain ⟨k, hk, rfl⟩ := hindex hq
    exact getD_le_getD hsorted (not_lt.1 fun hlt => hbelow k hlt hhq) hk

/-! ### Owners -/

variable {α : Type*} {pts : α → List H} {nodes l₁ l₂ : List α} {n x : α}

/-- The last of the nodes with a point. -/
def owner (pts : α → List H) (nodes : List α) (p : H) : Option α :=
  nodes.reverse.find? fun n => decide (p ∈ pts n)

theorem owner_concat (pts : α → List H) (nodes : List α) (n : α) (p : H) :
    owner pts (nodes ++ [n]) p = if p ∈ pts n then some n else owner pts nodes p := by
  by_cases hp : p ∈ pts n <;> simp [owner, hp]

theorem exists_owner (hp : p ∈ nodes.flatMap pts) : ∃ n, owner pts nodes p = some n := by
  obtain ⟨n, hn, hpn⟩ := List.mem_flatMap.1 hp
  refine Option.isSome_iff_exists.1 (List.find?_isSome.2 ⟨n, List.mem_reverse.2 hn, ?_⟩)
  simpa using hpn

theorem mem_of_owner (h : owner pts nodes p = some n) : n ∈ nodes ∧ p ∈ pts n :=
  ⟨List.mem_reverse.1 (List.mem_of_find?_eq_some h), by simpa using List.find?_some h⟩

/-- A further node takes points over and leaves the others to their owners. -/
theorem owner_insert (h : owner pts (l₁ ++ x :: l₂) p = some n) :
    n = x ∨ owner pts (l₁ ++ l₂) p = some n := by
  unfold owner at h ⊢
  simp only [List.reverse_append, List.reverse_cons, List.append_assoc, List.find?_append] at h ⊢
  cases hfind : l₂.reverse.find? fun n => decide (p ∈ pts n) with
  | some m =>
    rw [hfind] at h
    exact .inr (by simpa using h)
  | none =>
    rw [hfind] at h
    by_cases hx : p ∈ pts x
    · left
      simpa [hx, eq_comm] using h
    · right
      simpa [hx] using h

/-- Minimal movement: with a further node, a key stays where it was or goes to the new node. -/
theorem eq_or_eq_of_insert {m : α} (hp : IsNext ((l₁ ++ l₂).flatMap pts) h p)
    (hn : owner pts (l₁ ++ l₂) p = some n) (hq : IsNext ((l₁ ++ x :: l₂).flatMap pts) h q)
    (hm : owner pts (l₁ ++ x :: l₂) q = some m) : m = n ∨ m = x := by
  obtain rfl | hold := owner_insert hm
  · exact .inr rfl
  · -- the point was there before, so it was the next one
    have hmem : q ∈ (l₁ ++ l₂).flatMap pts :=
      List.mem_flatMap.2 ⟨m, mem_of_owner hold⟩
    have hsub : (l₁ ++ l₂).flatMap pts ⊆ (l₁ ++ x :: l₂).flatMap pts := by
      intro u hu
      simp only [List.flatMap_append, List.flatMap_cons, List.mem_append] at hu ⊢
      exact hu.imp_right .inr
    obtain rfl := (hq.of_subset hsub hmem).unique hp
    rw [hn] at hold
    exact .inl (Option.some.inj hold).symm

end HashRing

end GinRpc
