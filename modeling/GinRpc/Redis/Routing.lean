import GinRpc.Data.AList
import GinRpc.Text.Basic

/-!
# Which node a key is sent to

Model of the routing in `plugins/cache/redis/client.go` for clients with several nodes.  The loop of
`getNodeForKey` takes the first prefix that matches, and the prefixes are iterated in the order of a
Go map, which is another one for each call: `order`.  `Del` and `Exists` send all their keys to the
node of the first one.  Pipelines, which are no calls for a key, are left out.

Keys are bytes; how a key is read as characters is a parameter.  A node is the set of keys it holds.

* `Client.settled_iff` : when all calls for a key go to the same node.
* `Client.routing_iff` : besides, when calls with several keys are calls for each of them.
* `Client.torn` : overlapping prefixes, and keys on two nodes.
-/

namespace GinRpc

namespace RedisClient

abbrev Key := List UInt8

/-- `ShardingStrategy`; a name that is not known stands for the default node. -/
inductive Strategy where
  | hash
  | range
  | other (name : String)
  deriving DecidableEq, Repr

/-- The part of the configuration that routing depends on -/
structure Config where
  nodes : ℕ
  shardingStrategy : Strategy
  keyPrefixRoutes : AList fun _ : Key => ℤ
  defaultNode : ℤ

/-- `Config.Validate`: one node if there are none, hashing if no strategy is named, and a default
node that exists -/
def Config.validate (c : Config) : Config :=
  let nodes := if c.nodes = 0 then 1 else c.nodes
  { c with
    nodes := nodes
    shardingStrategy := if c.shardingStrategy = .other "" then .hash else c.shardingStrategy
    defaultNode := if c.defaultNode < 0 ∨ nodes ≤ c.defaultNode then 0 else c.defaultNode }

/-- A client with the nodes of a valid configuration -/
structure Client where
  config : Config
  /-- `int(ch)` for the characters of a key -/
  runes : Key → List ℕ
  nodes_pos : 0 < config.nodes

/-- `New` -/
def new (config : Config) (runes : Key → List ℕ) : Client where
  config := config.validate
  runes := runes
  nodes_pos := by
    change 0 < if config.nodes = 0 then 1 else config.nodes
    split_ifs <;> omega

/-- `strings.HasPrefix` for the prefix of a route -/
def Matches (key : Key) (r : Key × ℤ) : Bool := r.1.isPrefixOf key

/-- The keys that each node holds -/
abbrev Stores := ℕ → Key → Bool

namespace Client

variable (c : Client)

def getSafeDefaultNode : ℤ :=
  if c.config.nodes = 0 then 0
  else if 0 ≤ c.config.defaultNode ∧ c.config.defaultNode < c.config.nodes then c.config.defaultNode
  else 0

/-- The node of a route -/
def routed (nodeIdx : ℤ) : ℤ :=
  if 0 ≤ nodeIdx ∧ nodeIdx < c.config.nodes then nodeIdx
  else if 0 ≤ c.config.defaultNode ∧ c.config.defaultNode < c.config.nodes then c.config.defaultNode
  else 0

def strategyNode (key : Key) : ℤ :=
  match c.config.shardingStrategy with
  | .hash => (c.runes key).foldl (fun hash ch => (hash * 31 + ch) % c.config.nodes) 0
  | .range => c.getSafeDefaultNode
  | .other _ => c.getSafeDefaultNode

/-- `getNodeForKey`, where the prefixes are iterated in the given order -/
def getNodeForKey (order : List (Key × ℤ)) (key : Key) : ℤ :=
  if c.config.nodes = 0 then 0
  else
    match order.find? (Matches key) with
    | some r => c.routed r.2
    | none => c.strategyNode key

/-- `getClientForKey`: the number of the node -/
def getClientForKey (order : List (Key × ℤ)) (key : Key) : ℕ :=
  let idx := c.getNodeForKey order key
  if 0 ≤ idx ∧ idx < c.config.nodes then idx.toNat else 0

/-- `Del` -/
def del (order : List (Key × ℤ)) (keys : List Key) (stores : Stores) : Stores :=
  match keys with
  | [] => stores
  | first :: _ => fun n k =>
    if n = c.getClientForKey order first ∧ k ∈ keys then false else stores n k

/-- `Exists` -/
def exists_ (order : List (Key × ℤ)) (keys : List Key) (stores : Stores) : ℕ :=
  match keys with
  | [] => 0
  | first :: _ => keys.countP (stores (c.getClientForKey order first))

/-- The routes of the client, as pairs -/
def routes : List (Key × ℤ) := c.config.keyPrefixRoutes.entries.map fun e => (e.1, e.2)

/-- An order in which the map may be iterated -/
def IsOrder (order : List (Key × ℤ)) : Prop := order.Perm c.routes

/-- All routes that match the key lead to one node. -/
def Settled (key : Key) : Prop :=
  ∀ r ∈ c.routes, ∀ r' ∈ c.routes, Matches key r → Matches key r' → c.routed r.2 = c.routed r'.2

variable {c} {key : Key}

/-- Every route that matches is the first one in some order. -/
theorem exists_order {r : Key × ℤ} (hr : r ∈ c.routes) (hmatch : Matches key r) :
    ∃ order, c.IsOrder order ∧ order.find? (Matches key) = some r :=
  ⟨r :: c.routes.erase r, (List.perm_cons_erase hr).symm, by rw [List.find?_cons, hmatch]⟩

theorem routed_range (nodeIdx : ℤ) :
    0 ≤ c.routed nodeIdx ∧ c.routed nodeIdx < c.config.nodes := by
  unfold routed
  split_ifs with h h'
  · exact h
  · exact h'
  · exact ⟨le_rfl, by exact_mod_cast c.nodes_pos⟩

theorem getClientForKey_of_find {order : List (Key × ℤ)} {r : Key × ℤ}
    (h : order.find? (Matches key) = some r) :
    (c.getClientForKey order key : ℤ) = c.routed r.2 := by
  have hrange := c.routed_range r.2
  have hnode : c.getNodeForKey order key = c.routed r.2 := by
    rw [getNodeForKey, if_neg c.nodes_pos.ne', h]
  rw [getClientForKey, hnode, if_pos hrange, Int.toNat_of_nonneg hrange.1]

/-- Without a route that matches, the order does not matter. -/
theorem getNodeForKey_of_find_none {order : List (Key × ℤ)}
    (h : order.find? (Matches key) = none) :
    c.getNodeForKey order key = if c.config.nodes = 0 then 0 else c.strategyNode key := by
  rw [getNodeForKey, h]

/-- All calls for a key go to one node if and only if its routes lead to one node. -/
theorem settled_iff :
    (∀ order order', c.IsOrder order → c.IsOrder order' →
      c.getClientForKey order key = c.getClientForKey order' key) ↔ c.Settled key := by
  constructor
  · intro h r hr r' hr' hm hm'
    obtain ⟨order, ho, hfind⟩ := exists_order hr hm
    obtain ⟨order', ho', hfind'⟩ := exists_order hr' hm'
    rw [← getClientForKey_of_find hfind, ← getClientForKey_of_find hfind',
      h order order' ho ho']
  · intro h order order' ho ho'
    cases hfind : order.find? (Matches key) with
    | none =>
      have hfind' : order'.find? (Matches key) = none := by
        rw [List.find?_eq_none] at hfind ⊢
        exact fun r hr => hfind r (ho.mem_iff.2 (ho'.mem_iff.1 hr))
      rw [getClientForKey, getClientForKey, getNodeForKey_of_find_none hfind,
        getNodeForKey_of_find_none hfind']
    | some r =>
      have hm : Matches key r := List.find?_some hfind
      have hr := ho.mem_iff.1 (List.mem_of_find?_eq_some hfind)
      obtain ⟨r', hfind'⟩ : ∃ r', order'.find? (Matches key) = some r' :=
        Option.isSome_iff_exists.1 (List.find?_isSome.2 ⟨r, ho'.mem_iff.2 hr, hm⟩)
      have heq := h r hr r' (ho'.mem_iff.1 (List.mem_of_find?_eq_some hfind')) hm
        (List.find?_some hfind')
      rw [← getClientForKey_of_find hfind, ← getClientForKey_of_find hfind'] at heq
      exact_mod_cast heq

/-! ### Several keys -/

variable {order : List (Key × ℤ)} {single : Key → List (Key × ℤ)}

/-- What calls of `Del` with one key each leave -/
theorem foldl_del (keys : List Key) (stores : Stores) (n : ℕ) (k : Key) :
    keys.foldl (fun st k => c.del (single k) [k] st) stores n k =
      if n = c.getClientForKey (single k) k ∧ k ∈ keys then false else stores n k := by
  induction keys generalizing stores with
  | nil => simp
  | cons first rest ih =>
    rw [List.foldl_cons, ih, del]
    by_cases hk : k = first
    · subst hk
      simp only [List.mem_cons, true_or, and_true]
      split_ifs <;> simp_all
    · simp [hk]

/-- `Del` does what calls for each key would do, if and only if all keys are on one node. -/
theorem del_iff (first : Key) (rest : List Key) :
    (∀ stores, c.del order (first :: rest) stores =
      (first :: rest).foldl (fun st k => c.del (single k) [k] st) stores) ↔
    ∀ k ∈ first :: rest, c.getClientForKey (single k) k = c.getClientForKey order first := by
  constructor
  · intro h k hk
    by_contra hne
    -- the key is left on its own node
    have hleft := congrFun₂ (h fun _ _ => true) (c.getClientForKey (single k) k) k
    rw [foldl_del, if_pos ⟨rfl, hk⟩] at hleft
    change (if _ ∧ _ then false else true) = false at hleft
    rw [if_neg fun hn => hne hn.1] at hleft
    cases hleft
  · intro h stores
    funext n k
    rw [foldl_del]
    change (if _ ∧ _ then false else stores n k) = _
    by_cases hk : k ∈ first :: rest
    · rw [h k hk]
    · rw [if_neg fun hn => hk hn.2, if_neg fun hn => hk hn.2]

/-- `Exists` counts what calls for each key would count, if and only if all keys are on one node. -/
theorem exists_iff (first : Key) (rest : List Key) :
    (∀ stores, c.exists_ order (first :: rest) stores =
      ((first :: rest).map fun k => c.exists_ (single k) [k] stores).sum) ↔
    ∀ k ∈ first :: rest, c.getClientForKey (single k) k = c.getClientForKey order first := by
  have hsum (keys : List Key) (stores : Stores) :
      (keys.map fun k => c.exists_ (single k) [k] stores).sum =
        keys.countP fun k => stores (c.getClientForKey (single k) k) k := by
    induction keys with
    | nil => rfl
    | cons k keys ih =>
      rw [List.map_cons, List.sum_cons, ih, List.countP_cons, add_comm]
      congr 1
      exact List.countP_singleton
  constructor
  · intro h k hk
    by_contra hne
    -- only the other nodes hold anything
    have hcount := h fun n _ => decide (n ≠ c.getClientForKey order first)
    rw [hsum] at hcount
    change (first :: rest).countP (fun _ => decide (_ ≠ _)) = _ at hcount
    rw [List.countP_eq_zero.2 (by simp), eq_comm, List.countP_eq_zero] at hcount
    exact hcount k hk (decide_eq_true hne)
  · intro h stores
    rw [hsum]
    refine List.countP_congr fun k hk => ?_
    rw [h k hk]

/-- **All calls for a key go to one node, whatever the order of the map**, if and only if all routes
that match the key lead to one node; **and calls with several keys do what calls for each of them
would do**, if and only if all the keys are on the node of the first. -/
theorem routing_iff (c : Client) :
    (∀ key, (∀ order order', c.IsOrder order → c.IsOrder order' →
      c.getClientForKey order key = c.getClientForKey order' key) ↔ c.Settled key) ∧
    ∀ (order : List (Key × ℤ)) (single : Key → List (Key × ℤ)) first rest,
      ((∀ stores, c.del order (first :: rest) stores =
          (first :: rest).foldl (fun st k => c.del (single k) [k] st) stores) ↔
        ∀ k ∈ first :: rest, c.getClientForKey (single k) k = c.getClientForKey order first) ∧
      ((∀ stores, c.exists_ order (first :: rest) stores =
          ((first :: rest).map fun k => c.exists_ (single k) [k] stores).sum) ↔
        ∀ k ∈ first :: rest, c.getClientForKey (single k) k = c.getClientForKey order first) :=
  ⟨fun _ => settled_iff, fun _ _ first rest => ⟨del_iff first rest, exists_iff first rest⟩⟩

/-- Three nodes, and routes for `u`, for `uv` and for `o` -/
def shop : Client :=
  new ⟨3, .other "prefix",
    (((∅ : AList fun _ : Key => ℤ).insert [111] 2).insert [117, 118] 2).insert [117] 1, 0⟩
    fun key => key.map UInt8.toNat

/-- The key `uv` is sent to one of two nodes, depending on the order of the map; and `Del` with the
keys `u` and `o` deletes only the first. -/
theorem torn :
    (∃ order order', shop.IsOrder order ∧ shop.IsOrder order' ∧
      shop.getClientForKey order [117, 118] = 1 ∧ shop.getClientForKey order' [117, 118] = 2) ∧
    shop.Settled [117] ∧ shop.Settled [111] ∧
    shop.del shop.routes [[117], [111]] (fun _ _ => true) 2 [111] = true ∧
    shop.del shop.routes [[111]] (fun _ _ => true) 2 [111] = false ∧
    shop.exists_ shop.routes [[117], [111]] (fun n _ => decide (n = 2)) = 0 ∧
    shop.exists_ shop.routes [[111]] (fun n _ => decide (n = 2)) = 1 := by
  refine ⟨⟨shop.routes, [([117, 118], 2), ([117], 1), ([111], 2)], ?_, ?_, ?_, ?_⟩, ?_⟩
  · exact List.Perm.refl _
  · exact List.Perm.swap ..
  · decide
  · decide
  · unfold Settled
    decide

end Client

end RedisClient

end GinRpc
