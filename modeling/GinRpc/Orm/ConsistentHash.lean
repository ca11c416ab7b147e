import GinRpc.Data.AList
import GinRpc.Order.HashRing
import GinRpc.Text.Basic

/-!
# Consistent hashing

Model of `ConsistentHash` and `ConsistentShardStrategy` in `plugins/db/orm/dynamic_sharding.go`.  A
string is the list of its bytes, a `uint64` a number that is reduced modulo `2 ^ 64`.

* `Built` : what the constructor leaves in the ring and in the maps.
* `getNodeInfo_spec` : the node chosen is the owner of the first point at or clockwise after the
  hash of the key.
* `consistent_hash_moves_little` : with a further node, a key stays where it was or goes to the new
  node, whatever the hashes and their collisions.
-/

namespace GinRpc

namespace Orm

open HashRing

abbrev Bytes := List UInt8

/-- The bytes of a text in ASCII. -/
def ascii (t : Text) : Bytes := t.map fun c => UInt8.ofNat c.toNat

/-- FNV-1a on the bytes of a string. -/
def hashValue (s : Bytes) : ℕ :=
  s.foldl (fun h b => (h ^^^ b.toNat) * 1099511628211 % 2 ^ 64) 14695981039346656037

/-- `fmt.Sprintf("NODE-%s-REPLICA-%d", n, i)` -/
def virtualNode (n : Bytes) (i : ℕ) : Bytes :=
  ascii "NODE-" ++ n ++ ascii "-REPLICA-" ++ ascii (Text.decimal i)

structure ConsistentHash where
  nodes : List Bytes
  nodeToIndex : AList fun _ : Bytes => ℕ
  ring : List ℕ
  nodeMap : AList fun _ : ℕ => Bytes
  replicas : ℤ

namespace ConsistentHash

/-- The body of the inner loop. -/
def addReplica (n : Bytes) (ch : ConsistentHash) (i : ℕ) : ConsistentHash :=
  let h := hashValue (virtualNode n i)
  { ch with ring := ch.ring ++ [h], nodeMap := ch.nodeMap.insert h n }

/-- The body of the outer loop. -/
def addNode (ch : ConsistentHash) (p : Bytes × ℕ) : ConsistentHash :=
  (List.range ch.replicas.toNat).foldl (addReplica p.1)
    { ch with nodeToIndex := ch.nodeToIndex.insert p.1 p.2 }

/-- The constructor before the ring is sorted. -/
def unsorted (nodes : List Bytes) (replicas : ℤ) : ConsistentHash :=
  nodes.zipIdx.foldl addNode ⟨nodes, ∅, [], ∅, replicas⟩

def getNodeInfo (c : ConsistentHash) (key : Bytes) : Bytes × ℤ :=
  if c.ring.length = 0 then ([], -1)
  else
    let h := hashValue key
    let idx := search c.ring.length fun i => decide (h ≤ c.ring.getD i 0)
    let idx := if idx = c.ring.length then 0 else idx
    -- of two nodes with one point the later one has overwritten the entry
    let nodeName := (c.nodeMap.lookup (c.ring.getD idx 0)).getD []
    (nodeName, (c.nodeToIndex.lookup nodeName).getD 0)

end ConsistentHash

open ConsistentHash

/-- `NewConsistentHash`; the sorted ring does not depend on how it is sorted. -/
def newConsistentHash (nodes : List Bytes) (replicas : ℤ) : ConsistentHash :=
  let ch := unsorted nodes replicas
  { ch with ring := ch.ring.insertionSort (· ≤ ·) }

structure ConsistentShardStrategy where
  dbRing : ConsistentHash
  tableRing : ConsistentHash

def newConsistentShardStrategy (dbNodes tableNodes : List Bytes) : ConsistentShardStrategy :=
  ⟨newConsistentHash dbNodes 100, newConsistentHash tableNodes 100⟩

/-- `CalculateShard` for a value that is printed as `key` -/
def ConsistentShardStrategy.calculateShard (s : ConsistentShardStrategy) (key : Bytes) : ℤ × ℤ :=
  let dbIdx := (s.dbRing.getNodeInfo key).2
  let tbIdx := (s.tableRing.getNodeInfo key).2
  (if dbIdx = -1 then 0 else dbIdx, if tbIdx = -1 then 0 else tbIdx)

/-! ### The ring and the maps -/

/-- The points of a node. -/
def points (replicas : ℤ) (n : Bytes) : List ℕ :=
  (List.range replicas.toNat).map fun i => hashValue (virtualNode n i)

theorem foldl_addReplica (n : Bytes) (is : List ℕ) (ch : ConsistentHash) :
    is.foldl (addReplica n) ch =
      { ch with
        ring := ch.ring ++ is.map fun i => hashValue (virtualNode n i)
        nodeMap := (is.map fun i => hashValue (virtualNode n i)).foldl
          (fun m h => m.insert h n) ch.nodeMap } := by
  induction is generalizing ch with
  | nil => simp
  | cons i is ih =>
    rw [List.foldl_cons, ih]
    simp [addReplica]

/-- The constructor has entered the nodes. -/
structure Built (r : ℤ) (nodes : List Bytes) (ch : ConsistentHash) : Prop where
  replicas : ch.replicas = r
  ring : ch.ring = nodes.flatMap (points r)
  nodeMap : ∀ p, ch.nodeMap.lookup p = owner (points r) nodes p
  nodeToIndex : ∀ n ∈ nodes, ∃ i, ch.nodeToIndex.lookup n = some i ∧ nodes[i]? = some n

theorem Built.addNode {replicas : ℤ} {nodes : List Bytes} {ch : ConsistentHash}
    (h : Built replicas nodes ch) (n : Bytes) :
    Built replicas (nodes ++ [n]) (ch.addNode (n, nodes.length)) := by
  unfold ConsistentHash.addNode
  rw [foldl_addReplica, h.replicas]
  refine ⟨rfl, ?_, fun p => ?_, fun m hm => ?_⟩
  · simp [h.ring, points]
  · rw [owner_concat, ← h.nodeMap]
    exact AList.lookup_foldl_insert _
  · dsimp only
    rw [AList.lookup_insert_apply]
    split_ifs with hmn
    · exact ⟨nodes.length, rfl, by simp [hmn]⟩
    · obtain hm | hm := List.mem_append.1 hm
      · obtain ⟨i, hi, hget⟩ := h.nodeToIndex m hm
        refine ⟨i, hi, ?_⟩
        rw [List.getElem?_append_left (List.getElem?_eq_some_iff.1 hget).1, hget]
      · exact absurd (List.mem_singleton.1 hm) hmn

theorem built_unsorted (nodes : List Bytes) (replicas : ℤ) :
    Built replicas nodes (unsorted nodes replicas) := by
  suffices h : ∀ all, Built replicas nodes
      (nodes.zipIdx.foldl ConsistentHash.addNode ⟨all, ∅, [], ∅, replicas⟩) from h nodes
  intro all
  induction nodes using List.reverseRecOn with
  | nil => exact ⟨rfl, rfl, fun p => rfl, fun n hn => by cases hn⟩
  | append_singleton nodes n ih =>
    rw [List.zipIdx_append, List.foldl_append]
    simpa using ih.addNode n

/-! ### The node chosen -/

/-- The node at the next point and its index. -/
theorem getNodeInfo_eq {c : ConsistentHash} (hne : c.ring ≠ []) (key : Bytes) :
    c.getNodeInfo key =
      ((c.nodeMap.lookup (c.ring.getD (nextIndex c.ring (hashValue key)) default)).getD [],
        (((c.nodeToIndex.lookup ((c.nodeMap.lookup
          (c.ring.getD (nextIndex c.ring (hashValue key)) default)).getD [])).getD 0 : ℕ) : ℤ)) :=
    by
  unfold getNodeInfo
  rw [if_neg (by simpa using hne)]
  rfl

/-- A ring with points: the node chosen, its index, and the point that it owns. -/
theorem getNodeInfo_spec {nodes : List Bytes} {r : ℤ} (hr : 1 ≤ r) (hne : nodes ≠ [])
    (key : Bytes) :
    ∃ node, ∃ i : ℕ, ∃ p, (newConsistentHash nodes r).getNodeInfo key = (node, (i : ℤ)) ∧
      nodes[i]? = some node ∧ IsNext (nodes.flatMap (points r)) (hashValue key) p ∧
      owner (points r) nodes p = some node := by
  have hbuilt := built_unsorted nodes r
  have hperm : (newConsistentHash nodes r).ring.Perm (nodes.flatMap (points r)) := by
    rw [← hbuilt.ring]
    exact List.perm_insertionSort (· ≤ ·) _
  have hring : (newConsistentHash nodes r).ring ≠ [] := by
    obtain ⟨n, rest, rfl⟩ := List.exists_cons_of_ne_nil hne
    intro hempty
    have hlen := hperm.length_eq
    simp only [hempty, List.length_nil, List.flatMap_cons, points, List.length_append,
      List.length_map, List.length_range] at hlen
    omega
  have hnext := isNext_nextIndex (newConsistentHash nodes r).ring
    (List.pairwise_insertionSort (· ≤ ·) _) hring (hashValue key)
  obtain ⟨node, howner⟩ := exists_owner (hperm.subset hnext.mem)
  obtain ⟨i, hi, hget⟩ := hbuilt.nodeToIndex node (mem_of_owner howner).1
  refine ⟨node, i, _, ?_, hget, hnext.of_perm hperm, howner⟩
  have hnode : (newConsistentHash nodes r).nodeMap.lookup _ = some node :=
    (hbuilt.nodeMap _).trans howner
  have hindex : (newConsistentHash nodes r).nodeToIndex.lookup node = some i := hi
  rw [getNodeInfo_eq hring key, hnode, Option.getD_some, hindex, Option.getD_some]

/-- The ring with a further node and the ring without it. -/
theorem getNodeInfo_insert {r : ℤ} (hr : 1 ≤ r) (l₁ l₂ : List Bytes) (x key : Bytes) :
    ((newConsistentHash (l₁ ++ x :: l₂) r).getNodeInfo key).1 =
      ((newConsistentHash (l₁ ++ l₂) r).getNodeInfo key).1 ∨
    ((newConsistentHash (l₁ ++ x :: l₂) r).getNodeInfo key).1 = x := by
  have hmore : l₁ ++ x :: l₂ ≠ [] := by simp
  obtain ⟨m, i, q, hm, hget, hq, hmq⟩ := getNodeInfo_spec hr hmore key
  rw [hm]
  by_cases hne : l₁ ++ l₂ = []
  · -- `x` is the only node
    obtain ⟨rfl, rfl⟩ := List.append_eq_nil_iff.1 hne
    right
    simpa using List.mem_of_getElem? hget
  · obtain ⟨n, j, p, hn, -, hp, hnp⟩ := getNodeInfo_spec hr hne key
    rw [hn]
    exact eq_or_eq_of_insert hp hnp hq hmq

/-- The shards are positions in the lists of nodes. -/
theorem consistentShard_lt {dbNodes tableNodes : List Bytes} (hdb : dbNodes ≠ [])
    (htable : tableNodes ≠ []) (key : Bytes) :
    ∃ i j : ℕ,
      (newConsistentShardStrategy dbNodes tableNodes).calculateShard key = ((i : ℤ), (j : ℤ)) ∧
      i < dbNodes.length ∧ j < tableNodes.length := by
  obtain ⟨n, i, -, hn, hi, -⟩ := getNodeInfo_spec (r := 100) (by decide) hdb key
  obtain ⟨m, j, -, hm, hj, -⟩ := getNodeInfo_spec (r := 100) (by decide) htable key
  refine ⟨i, j, ?_, (List.getElem?_eq_some_iff.1 hi).1, (List.getElem?_eq_some_iff.1 hj).1⟩
  simp only [ConsistentShardStrategy.calculateShard, newConsistentShardStrategy, hn, hm]
  rw [if_neg (by omega), if_neg (by omega)]

theorem consistentShard_lt_three :
    ∃ i j : ℕ, (newConsistentShardStrategy [ascii "db0", ascii "db1"] [ascii "t0"]).calculateShard
      (ascii "user:1") = ((i : ℤ), (j : ℤ)) ∧ i < 2 ∧ j < 1 :=
  consistentShard_lt (by decide) (by decide) _

/-- The nodes before and after another node is added, at any position, or one is removed: a key
stays where it was, unless it goes to the node that is added or was at the node that is removed.  If
there are nodes, the one chosen stands at the returned index and owns the first point at or
clockwise after the hash of the key; of several nodes with the same point it is the last one in the
list. -/
theorem consistent_hash_moves_little (r : ℤ) (hr : 1 ≤ r) (nodes : List Bytes) (key : Bytes) :
    (∀ l₁ x l₂, nodes = l₁ ++ l₂ →
      ((newConsistentHash (l₁ ++ x :: l₂) r).getNodeInfo key).1 =
        ((newConsistentHash nodes r).getNodeInfo key).1 ∨
      ((newConsistentHash (l₁ ++ x :: l₂) r).getNodeInfo key).1 = x) ∧
    (∀ l₁ x l₂, nodes = l₁ ++ x :: l₂ →
      ((newConsistentHash (l₁ ++ l₂) r).getNodeInfo key).1 =
        ((newConsistentHash nodes r).getNodeInfo key).1 ∨
      ((newConsistentHash nodes r).getNodeInfo key).1 = x) ∧
    (nodes ≠ [] → ∃ node, ∃ i : ℕ, ∃ p,
      (newConsistentHash nodes r).getNodeInfo key = (node, (i : ℤ)) ∧ nodes[i]? = some node ∧
      IsNext (nodes.flatMap (points r)) (hashValue key) p ∧
      owner (points r) nodes p = some node) := by
  refine ⟨?_, ?_, fun hne => getNodeInfo_spec hr hne key⟩
  · rintro l₁ x l₂ rfl
    exact getNodeInfo_insert hr l₁ l₂ x key
  · rintro l₁ x l₂ rfl
    exact (getNodeInfo_insert hr l₁ l₂ x key).imp_left Eq.symm

/-- Two nodes, and a third one between them. -/
theorem consistent_hash_moves_little_between :
    ((newConsistentHash [ascii "db0", ascii "db1"] 2).getNodeInfo (ascii "user:1")).1 =
      ascii "db1" ∧
    (((newConsistentHash [ascii "db0", ascii "db2", ascii "db1"] 2).getNodeInfo
        (ascii "user:1")).1 =
      ((newConsistentHash [ascii "db0", ascii "db1"] 2).getNodeInfo (ascii "user:1")).1 ∨
    ((newConsistentHash [ascii "db0", ascii "db2", ascii "db1"] 2).getNodeInfo
      (ascii "user:1")).1 = ascii "db2") :=
  ⟨by decide, (consistent_hash_moves_little 2 (by decide) [ascii "db0", ascii "db1"]
    (ascii "user:1")).1 [ascii "db0"] (ascii "db2") [ascii "db1"] rfl⟩

end Orm

end GinRpc
