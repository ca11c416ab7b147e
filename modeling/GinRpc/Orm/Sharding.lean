import GinRpc.Data.Duration
import GinRpc.Data.Tally
import GinRpc.Orm.ConsistentHash

/-!
# Routing by hashes and weights

Model of `HashShardStrategy` and `WeightedShardStrategy` in `plugins/db/orm/dynamic_sharding.go` and
of `HashTable` in `plugins/db/orm/scopes.go`.  A value is routed by the bytes that `%v` prints.

The remainder of signed numbers has the sign of the key, the indexes of the weights are not compared
with the number of databases, and the sum of the weights is a 64-bit number.

* `WeightedShardStrategy.Beyond` : the running sums of the weights exceed a remainder only behind
  the last database.
* `routing_spec` : when the indexes are in range, and when every database has its share.
-/

namespace GinRpc

namespace Orm

/-- `secondaryHash` -/
def secondaryHash (h : ℕ) : ℕ :=
  let h := h ^^^ (h >>> 33)
  let h := h * 0xff51afd7ed558ccd % 2 ^ 64
  let h := h ^^^ (h >>> 33)
  let h := h * 0xc4ceb9fe1a85ec53 % 2 ^ 64
  h ^^^ (h >>> 33)

/-- `int(h % uint64(n))`, which panics for zero -/
def hashMod (h : ℕ) (n : ℤ) : Option ℤ :=
  if n = 0 then none else some (Duration.wrap (h % (n % 2 ^ 64)))

structure HashShardStrategy where
  dbCount : ℤ
  tableCount : ℤ

/-- `CalculateShard` for a value that is printed as `key` -/
def HashShardStrategy.calculateShard (s : HashShardStrategy) (key : Bytes) : Option (ℤ × ℤ) := do
  let h := hashValue key
  return (← hashMod h s.dbCount, ← hashMod (secondaryHash h) s.tableCount)

structure WeightedShardStrategy where
  dbCount : ℤ
  tableCount : ℤ
  weights : List ℤ
  totalWeight : ℤ

def newWeightedShardStrategy (db table : ℤ) (weights : List ℤ) : WeightedShardStrategy :=
  let weights := if weights.length = 0 then List.replicate db.toNat 100 else weights
  { dbCount := db
    tableCount := table
    weights := weights
    totalWeight := weights.foldl (fun total w => Duration.wrap (total + w)) 0 }

/-- The loop of `CalculateShard` over the weights -/
def pick (mod : ℤ) : List ℤ → (acc : ℤ) → (i : ℕ) → ℕ
  | [], _, _ => 0
  | w :: ws, acc, i =>
    let acc := Duration.wrap (acc + w)
    if mod < acc then i else pick mod ws acc (i + 1)

namespace WeightedShardStrategy

/-- The database of a hash, if the total weight is positive -/
def route (s : WeightedShardStrategy) (h : ℕ) : ℕ :=
  pick (Duration.wrap (h % (s.totalWeight % 2 ^ 64))) s.weights 0 0

/-- The database of a hash -/
def database (s : WeightedShardStrategy) (h : ℕ) : ℕ :=
  if s.totalWeight ≤ 0 then 0 else s.route h

/-- `CalculateShard` for a value that is printed as `key` -/
def calculateShard (s : WeightedShardStrategy) (key : Bytes) : Option (ℤ × ℤ) :=
  if s.totalWeight ≤ 0 then some (0, 0)
  else
    let h := hashValue key
    (hashMod (secondaryHash h) s.tableCount).map fun table => (s.route h, table)

end WeightedShardStrategy

/-- The index in `HashTable`; `count` is zero if it panics. -/
def hashTableIndex (shardKey count : ℤ) : Option ℤ :=
  if count = 0 then none else some (shardKey.tmod count)

/-- The table of `HashTable` -/
def hashTable (base : Text) (shardKey count : ℤ) : Option Text :=
  (hashTableIndex shardKey count).map fun idx => base ++ "_" ++ Text.itoa idx

/-! ### Ranges -/

/-- A count that is a positive `int` -/
structure IsCount (n : ℤ) : Prop where
  pos : 0 < n
  lt : n < 2 ^ 63

/-- The indexes of a database and of a table -/
def InRange (db table : ℤ) (shard : Option (ℤ × ℤ)) : Prop :=
  ∃ i j, shard = some (i, j) ∧ (0 ≤ i ∧ i < db) ∧ 0 ≤ j ∧ j < table

theorem wrap_emod {n : ℤ} (hn : IsCount n) (h : ℕ) : Duration.wrap (h % (n % 2 ^ 64)) = h % n := by
  obtain ⟨hpos, hlt⟩ := hn
  have hmod : n % 2 ^ 64 = n := Int.emod_eq_of_lt (by omega) (by omega)
  have hnonneg : 0 ≤ (h : ℤ) % n := Int.emod_nonneg _ hpos.ne'
  have hidx : (h : ℤ) % n < n := Int.emod_lt_of_pos _ hpos
  rw [hmod, Duration.wrap_of_lt (by omega) (by omega)]

theorem hashMod_spec {n : ℤ} (hn : IsCount n) (h : ℕ) :
    ∃ idx, hashMod h n = some idx ∧ 0 ≤ idx ∧ idx < n := by
  refine ⟨h % n, ?_, Int.emod_nonneg _ hn.pos.ne', Int.emod_lt_of_pos _ hn.pos⟩
  rw [hashMod, if_neg hn.pos.ne', wrap_emod hn]

theorem HashShardStrategy.calculateShard_spec {s : HashShardStrategy} (hdb : IsCount s.dbCount)
    (htable : IsCount s.tableCount) (key : Bytes) :
    InRange s.dbCount s.tableCount (s.calculateShard key) := by
  obtain ⟨db, hdbEq, hdb⟩ := hashMod_spec hdb (hashValue key)
  obtain ⟨table, htableEq, htable⟩ := hashMod_spec htable (secondaryHash (hashValue key))
  refine ⟨db, table, ?_, hdb, htable⟩
  simp [HashShardStrategy.calculateShard, hdbEq, htableEq]

/-- The loop returns the first position whose running sum exceeds the remainder, or zero. -/
theorem pick_cases (mod : ℤ) (ws : List ℤ) (acc : ℤ) (i : ℕ) :
    (∃ k < ws.length, pick mod ws acc i = i + k ∧
      mod < Duration.wrap (acc + (ws.take (k + 1)).sum) ∧
      ∀ j < k, Duration.wrap (acc + (ws.take (j + 1)).sum) ≤ mod) ∨
    (pick mod ws acc i = 0 ∧
      ∀ j < ws.length, Duration.wrap (acc + (ws.take (j + 1)).sum) ≤ mod) := by
  induction ws generalizing acc i with
  | nil => exact .inr ⟨rfl, fun j hj => absurd hj (Nat.not_lt_zero j)⟩
  | cons w ws ih =>
    have hsum (j : ℕ) : Duration.wrap (Duration.wrap (acc + w) + (ws.take j).sum) =
        Duration.wrap (acc + ((w :: ws).take (j + 1)).sum) := by
      rw [List.take_succ_cons, List.sum_cons, ← Int.add_assoc, Duration.wrap_wrap_add]
    have hfirst : Duration.wrap (acc + w) = Duration.wrap (acc + ((w :: ws).take (0 + 1)).sum) := by
      simp
    rw [pick]
    split_ifs with hlt
    · exact .inl ⟨0, Nat.succ_pos _, rfl, hfirst ▸ hlt, fun j hj => absurd hj (Nat.not_lt_zero j)⟩
    · -- the sums of the rest are sums of the whole
      have hle := not_lt.1 hlt
      rw [hfirst] at hle
      obtain ⟨k, hk, hpick, hmod, hbefore⟩ | ⟨hpick, hbefore⟩ :=
        ih (Duration.wrap (acc + w)) (i + 1)
      · refine .inl ⟨k + 1, Nat.succ_lt_succ hk, by omega, hsum (k + 1) ▸ hmod, fun j hj => ?_⟩
        cases j with
        | zero => exact hle
        | succ j => exact hsum (j + 1) ▸ hbefore j (Nat.lt_of_succ_lt_succ hj)
      · refine .inr ⟨hpick, fun j hj => ?_⟩
        cases j with
        | zero => exact hle
        | succ j => exact hsum (j + 1) ▸ hbefore j (Nat.lt_of_succ_lt_succ hj)

namespace WeightedShardStrategy

/-- The sum of the first weights, in 64 bits -/
def running (s : WeightedShardStrategy) (n : ℕ) : ℤ := Duration.wrap (s.weights.take n).sum

/-- The running sums exceed the remainder of a hash only behind the last database. -/
def Beyond (s : WeightedShardStrategy) (h : ℕ) : Prop :=
  (∀ j < s.dbCount.toNat, s.running (j + 1) ≤ h % s.running s.weights.length) ∧
    ∃ j < s.weights.length, h % s.running s.weights.length < s.running (j + 1)

theorem totalWeight_new (db table : ℤ) (weights : List ℤ) :
    (newWeightedShardStrategy db table weights).totalWeight =
      (newWeightedShardStrategy db table weights).running
        (newWeightedShardStrategy db table weights).weights.length := by
  have hfold := Duration.foldl_wrap id (newWeightedShardStrategy db table weights).weights 0
  rw [List.map_id, Int.zero_add] at hfold
  rw [running, List.take_length, ← hfold]
  rfl

variable {s : WeightedShardStrategy}

theorem route_lt_iff (hdb : 0 < s.dbCount) (htotal : s.totalWeight = s.running s.weights.length)
    (hpos : 0 < s.totalWeight) (h : ℕ) : (s.route h : ℤ) < s.dbCount ↔ ¬ s.Beyond h := by
  obtain ⟨q, -, -, hlt⟩ := Duration.wrap_spec (s.weights.take s.weights.length).sum
  rw [route, wrap_emod ⟨hpos, htotal ▸ hlt⟩, Beyond, ← htotal]
  obtain ⟨k, hk, hpick, hexceeds, hbefore⟩ | ⟨hpick, hbefore⟩ :=
    pick_cases (h % s.totalWeight) s.weights 0 0
  · simp only [Int.zero_add] at hexceeds hbefore
    rw [hpick, Nat.zero_add]
    constructor
    · intro hin hbeyond
      exact absurd (hbeyond.1 k (by omega)) (not_le.2 hexceeds)
    · intro hbeyond
      by_contra hout
      exact hbeyond ⟨fun j hj => hbefore j (by omega), k, hk, hexceeds⟩
  · simp only [Int.zero_add] at hbefore
    rw [hpick]
    refine iff_of_true hdb fun hbeyond => ?_
    obtain ⟨j, hj, hexceeds⟩ := hbeyond.2
    exact absurd (hbefore j hj) (not_le.2 hexceeds)

theorem calculateShard_iff (hdb : IsCount s.dbCount) (htable : IsCount s.tableCount)
    (htotal : s.totalWeight = s.running s.weights.length) (key : Bytes) :
    InRange s.dbCount s.tableCount (s.calculateShard key) ↔
      s.running s.weights.length ≤ 0 ∨ ¬ s.Beyond (hashValue key) := by
  rw [calculateShard, ← htotal]
  split_ifs with hle
  · exact iff_of_true ⟨0, 0, rfl, ⟨le_refl 0, hdb.pos⟩, le_refl 0, htable.pos⟩ (.inl hle)
  · obtain ⟨table, htableEq, hin⟩ := hashMod_spec htable (secondaryHash (hashValue key))
    rw [or_iff_right hle, ← route_lt_iff hdb.pos htotal (not_le.1 hle)]
    dsimp only
    rw [htableEq, Option.map_some]
    constructor
    · rintro ⟨i, j, heq, hi, -⟩
      cases heq
      exact hi.2
    · exact fun hlt => ⟨_, table, rfl, ⟨Int.natCast_nonneg _, hlt⟩, hin⟩

end WeightedShardStrategy

/-- The sign of the index is that of the key. -/
theorem hashTableIndex_spec {count : ℤ} (hcount : IsCount count) (shardKey : ℤ) :
    ∃ idx, hashTableIndex shardKey count = some idx ∧ idx < count ∧
      (0 ≤ idx ↔ 0 ≤ shardKey ∨ count ∣ shardKey) := by
  have hpos := hcount.pos
  refine ⟨shardKey.tmod count, if_neg hpos.ne', Int.tmod_lt_of_pos _ hpos, ?_⟩
  constructor
  · intro hidx
    refine (le_or_gt 0 shardKey).imp_right fun hneg => ?_
    -- the remainder of a negative key is not positive
    have hopp : 0 ≤ (-shardKey).tmod count := Int.tmod_nonneg count (by omega)
    rw [Int.neg_tmod] at hopp
    exact Int.dvd_of_tmod_eq_zero (by omega)
  · rintro (hkey | hdvd)
    · exact Int.tmod_nonneg count hkey
    · exact (Int.tmod_eq_zero_of_dvd hdvd).ge

/-! ### Shares -/

theorem sum_toNat {ws : List ℤ} (hpos : ∀ w ∈ ws, 0 ≤ w) :
    ((ws.map Int.toNat).sum : ℤ) = ws.sum := by
  have hcast : ws.map (Nat.cast ∘ Int.toNat) = ws.map id :=
    List.map_congr_left fun w hw => Int.toNat_of_nonneg (hpos w hw)
  rw [Nat.cast_list_sum, List.map_map, hcast, List.map_id]

/-- The loop has passed weights of the sum `acc`. -/
theorem pick_eq {acc m : ℕ} {ws : List ℤ} (i : ℕ) (hpos : ∀ w ∈ ws, 0 ≤ w)
    (hbound : acc + (ws.map Int.toNat).sum < 2 ^ 63) (hlt : m < (ws.map Int.toNat).sum) :
    pick (acc + m : ℕ) ws acc i = i + Tally.pick (ws.map Int.toNat) m := by
  induction ws generalizing acc m i with
  | nil => cases hlt
  | cons w ws ih =>
    obtain ⟨hw, hws⟩ := List.forall_mem_cons.1 hpos
    rw [List.map_cons, List.sum_cons] at hbound hlt
    have hnext : Duration.wrap (acc + w) = (acc + w.toNat : ℕ) := by
      rw [Duration.wrap_of_lt (by omega) (by omega)]
      omega
    rw [pick, hnext, List.map_cons, Tally.pick]
    by_cases hm : m < w.toNat
    · rw [if_pos (by omega), if_pos hm, Nat.add_zero]
    · have hsplit : acc + m = acc + w.toNat + (m - w.toNat) := by omega
      rw [if_neg (by omega), if_neg hm, hsplit, ih (i + 1) hws (by omega) (by omega),
        Nat.add_right_comm, Nat.add_assoc]

namespace WeightedShardStrategy

/-- The total weight is that of the weights, which are not negative. -/
structure Weighs (s : WeightedShardStrategy) (total : ℕ) : Prop where
  nonneg : ∀ w ∈ s.weights, 0 ≤ w
  sum : s.weights.sum = total
  totalWeight : s.totalWeight = total
  pos : 0 < total
  lt : total < 2 ^ 63

theorem weighs_new {db table : ℤ} {weights : List ℤ} {total : ℕ}
    (hnonneg : ∀ w ∈ (newWeightedShardStrategy db table weights).weights, 0 ≤ w)
    (hsum : (newWeightedShardStrategy db table weights).weights.sum = total) (hpos : 0 < total)
    (hlt : total < 2 ^ 63) : (newWeightedShardStrategy db table weights).Weighs total := by
  refine ⟨hnonneg, hsum, ?_, hpos, hlt⟩
  rw [totalWeight_new, running, List.take_length, hsum, Duration.wrap_of_lt (by omega) (by omega)]

variable {s : WeightedShardStrategy} {total : ℕ}

theorem route_eq (h : s.Weighs total) (n : ℕ) :
    s.route n = pick ((n % total : ℕ) : ℤ) s.weights 0 0 := by
  have hcount : IsCount (total : ℤ) := ⟨Int.ofNat_lt.2 h.pos, Int.ofNat_lt.2 h.lt⟩
  rw [route, h.totalWeight, wrap_emod hcount, Int.natCast_mod]

theorem route_periodic (h : s.Weighs total) (i : ℕ) :
    Function.Periodic (fun n => s.route n = i) total := by
  intro n
  dsimp only
  rw [route_eq h, route_eq h, Nat.add_mod_right]

/-- As many remainders are routed to a database as its weight says. -/
theorem count_route (h : s.Weighs total) {i : ℕ} (hi : i < s.weights.length) :
    ((Nat.count (fun n => s.route n = i) total : ℕ) : ℤ) = s.weights[i] := by
  have hlt := h.lt
  have hsum : (s.weights.map Int.toNat).sum = total := by
    have hcast := sum_toNat h.nonneg
    rw [h.sum] at hcast
    exact Int.ofNat_inj.1 hcast
  have hroute : ∀ n < total, s.route n = i ↔ Tally.pick (s.weights.map Int.toNat) n = i := by
    intro n hn
    have hpick := @pick_eq 0 n s.weights 0 h.nonneg (by omega) (by omega)
    rw [Nat.zero_add, Nat.zero_add] at hpick
    rw [route_eq h, Nat.mod_eq_of_lt hn, ← hpick]
    rfl
  have hcount := Tally.count_pick (s.weights.map Int.toNat) i
  rw [hsum] at hcount
  rw [Tally.count_congr hroute, hcount]
  simpa [hi] using h.nonneg _ (List.getElem_mem hi)

end WeightedShardStrategy

/-- The first weight that is positive gets the remainders below it. -/
theorem exists_pick_eq {ws : List ℤ} (h : ∀ w ∈ ws, 0 ≤ w ∧ w < 2 ^ 63) (hsum : 0 < ws.sum) :
    ∃ (k a : ℕ), ws[k]? = some (a : ℤ) ∧ 0 < a ∧ a < 2 ^ 63 ∧
      ∀ m i : ℕ, m < a → pick m ws 0 i = i + k := by
  induction ws with
  | nil => cases hsum
  | cons w ws ih =>
    obtain ⟨hw, hws⟩ := List.forall_mem_cons.1 h
    have hwrap : Duration.wrap (0 + w) = w := by
      rw [Int.zero_add, Duration.wrap_of_lt (by omega) (by omega)]
    obtain rfl | hpos := eq_or_lt_of_le hw.1
    · -- a weight of zero is passed
      rw [List.sum_cons, Int.zero_add] at hsum
      obtain ⟨k, a, hk, hpos, hlt, hpick⟩ := ih hws hsum
      refine ⟨k + 1, a, hk, hpos, hlt, fun m i hm => ?_⟩
      rw [pick, hwrap, if_neg (by omega), hpick m (i + 1) hm]
      omega
    · refine ⟨0, w.toNat, ?_, by omega, by omega, fun m i hm => ?_⟩
      · rw [Int.toNat_of_nonneg hw.1]
        rfl
      · rw [pick, hwrap, if_pos (by omega), Nat.add_zero]

/-- Every weight is the number of hashes that are routed to its database, of as many consecutive
ones as the sum of the weights. -/
def WeightedShardStrategy.Shares (s : WeightedShardStrategy) (total : ℕ) : Prop :=
  ∀ n i w, s.weights[i]? = some w →
    (((Finset.Ico n (n + total)).filter (fun h => s.database h = i)).card : ℤ) = w

theorem WeightedShardStrategy.Weighs.shares {s : WeightedShardStrategy} {total : ℕ}
    (h : s.Weighs total) : s.Shares total := by
  intro n i w hw
  obtain ⟨hi, rfl⟩ := List.getElem?_eq_some_iff.1 hw
  have hpos := h.pos
  have hdatabase : s.database = s.route := by
    funext k
    rw [database, if_neg (by rw [h.totalWeight]; omega)]
  rw [hdatabase, Nat.filter_Ico_card_eq_of_periodic n total _ (route_periodic h i)]
  exact count_route h hi

/-- If the sum overflows, the first database with a positive weight gets too many. -/
theorem WeightedShardStrategy.lt_of_shares {db table : ℤ} {weights : List ℤ} {total : ℕ}
    (hint : ∀ w ∈ (newWeightedShardStrategy db table weights).weights, 0 ≤ w ∧ w < 2 ^ 63)
    (hsum : (newWeightedShardStrategy db table weights).weights.sum = total) (hpos : 0 < total)
    (h : (newWeightedShardStrategy db table weights).Shares total) : total < 2 ^ 63 := by
  have htotal := totalWeight_new db table weights
  revert hint hsum h htotal
  generalize newWeightedShardStrategy db table weights = s
  intro hint hsum h htotal
  rw [running, List.take_length, hsum] at htotal
  obtain ⟨q, hq, hlow, hhigh⟩ := Duration.wrap_spec total
  rw [← htotal] at hq hlow hhigh
  by_contra hge
  by_cases hle : s.totalWeight ≤ 0
  · -- every hash goes to the first database
    have hall : s.database = fun _ => 0 := funext fun k => if_pos hle
    cases hweights : s.weights with
    | nil =>
      rw [hweights] at hsum
      exact hpos.ne (Int.ofNat_inj.1 hsum)
    | cons w ws =>
      have hw := hint w (hweights ▸ List.mem_cons_self)
      have hcard := h 0 0 w (by rw [hweights]; rfl)
      simp [hall] at hcard
      omega
  · obtain ⟨k, a, hk, ha, hlt, hpick⟩ := exists_pick_eq hint (by omega)
    -- the period is shorter than the interval
    obtain ⟨T, hT⟩ := Int.eq_ofNat_of_zero_le (not_le.1 hle).le
    have hroute (x : ℕ) (hx : x % T < a) : s.database x = k := by
      rw [database, if_neg hle, route, wrap_emod ⟨not_le.1 hle, hhigh⟩, hT, ← Int.natCast_mod,
        hpick _ 0 hx, Nat.zero_add]
    have hsub : insert (max a T) (Finset.range a) ⊆
        (Finset.Ico 0 (0 + total)).filter (fun x => s.database x = k) := by
      intro x hx
      rw [Finset.mem_insert, Finset.mem_range] at hx
      rw [Finset.mem_filter, Finset.mem_Ico]
      refine ⟨⟨Nat.zero_le x, by omega⟩, hroute x ?_⟩
      obtain rfl | hx := hx
      · obtain hmax | hmax := le_total a T
        · rw [max_eq_right hmax, Nat.mod_self]
          exact ha
        · rw [max_eq_left hmax]
          exact (Nat.mod_lt a (by omega)).trans_le hmax
      · exact (Nat.mod_le x T).trans_lt hx
    have hcard := Finset.card_le_card hsub
    rw [Finset.card_insert_of_notMem (by simp), Finset.card_range] at hcard
    have := h 0 k a hk
    omega

/-- **When routing stays in range and keeps the shares**, for all counts that are positive and all
keys.  The hash strategy always does; a database by weights is out of range exactly if its hash is
beyond the databases; the index of a table exactly if its key is negative and no multiple of the
count; and of as many consecutive hashes as the sum of the weights, every database gets its weight
exactly if the sum is below 2^63. -/
theorem routing_spec {db table : ℤ} (hdb : IsCount db) (htable : IsCount table) :
    (∀ key, InRange db table (HashShardStrategy.calculateShard ⟨db, table⟩ key)) ∧
    (∀ shardKey, ∃ idx, hashTableIndex shardKey table = some idx ∧ idx < table ∧
      (0 ≤ idx ↔ 0 ≤ shardKey ∨ table ∣ shardKey)) ∧
    ∀ weights, let s := newWeightedShardStrategy db table weights
      (∀ key, InRange db table (s.calculateShard key) ↔
        s.running s.weights.length ≤ 0 ∨ ¬ s.Beyond (hashValue key)) ∧
      (∀ key, (s.calculateShard key).map Prod.fst = some (s.database (hashValue key) : ℤ)) ∧
      ∀ total : ℕ, (∀ w ∈ s.weights, 0 ≤ w ∧ w < 2 ^ 63) → s.weights.sum = total → 0 < total →
        (s.Shares total ↔ total < 2 ^ 63) := by
  refine ⟨HashShardStrategy.calculateShard_spec hdb htable, hashTableIndex_spec htable, ?_⟩
  intro weights s
  refine ⟨fun key => ?_, fun key => ?_, fun total hint hsum hpos => ?_⟩
  · exact WeightedShardStrategy.calculateShard_iff hdb htable
      (WeightedShardStrategy.totalWeight_new db table weights) key
  · obtain ⟨idx, hidx, -⟩ := hashMod_spec htable (secondaryHash (hashValue key))
    have hcount : hashMod (secondaryHash (hashValue key)) s.tableCount = some idx := hidx
    rw [WeightedShardStrategy.calculateShard, WeightedShardStrategy.database]
    split_ifs
    · rfl
    · dsimp only
      rw [hcount]
      rfl
  · refine ⟨WeightedShardStrategy.lt_of_shares hint hsum hpos, fun hlt => ?_⟩
    exact (WeightedShardStrategy.weighs_new (fun w hw => (hint w hw).1) hsum hpos hlt).shares

/-- Three databases with the weights 1, 0 and 2, and one database with the weights 100 and 0 -/
theorem routing_spec_three :
    (newWeightedShardStrategy 3 4 [1, 0, 2]).Shares 3 ∧
    InRange 1 4 ((newWeightedShardStrategy 1 4 [100, 0]).calculateShard []) := by
  have hdb : IsCount 3 := ⟨by decide, by decide⟩
  have hdb' : IsCount 1 := ⟨by decide, by decide⟩
  have htable : IsCount 4 := ⟨by decide, by decide⟩
  obtain ⟨-, -, hthree⟩ := routing_spec hdb htable
  obtain ⟨-, -, hone⟩ := routing_spec hdb' htable
  refine ⟨((hthree [1, 0, 2]).2.2 3 (by decide) (by decide) (by decide)).2 (by decide),
    ((hone [100, 0]).1 []).2 (.inr fun hbeyond => ?_)⟩
  have hres := hbeyond.1 0 (by decide)
  exact absurd hres (by decide)

/-- **Keys are routed astray**: a negative key has a table with a negative index; with more weights
than databases, an index is too large; and two weights of 2^62 send every key to the first
database. -/
theorem routed_astray :
    hashTable "users" (-7) 4 = some "users_-3" ∧
    (newWeightedShardStrategy 1 1 [0, 100]).calculateShard [] = some (1, 0) ∧
    ∀ key, (newWeightedShardStrategy 2 1 [2 ^ 62, 2 ^ 62]).calculateShard key = some (0, 0) :=
  ⟨by decide, by decide, fun _ => if_pos (by decide)⟩

end Orm

end GinRpc
