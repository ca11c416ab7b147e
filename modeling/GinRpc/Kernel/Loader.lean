import GinRpc.Order.Topological

/-!
# The plugin loader

Model of `pkg/kernel/registry.go` and of the building part of `pkg/kernel/loader.go`: a `Loader`
filters the registered plugins, lets each configure itself, checks the hard dependencies and
sorts what is left with Kahn's algorithm (`topoSort`).

A Go map is modelled by the list of its entries (the plugins themselves, whose name is the key)
or, where the source only reads and writes single keys, by a function with the zero value as
default.  Each `range` over a map visits the entries in an order of its own, a `MapRange`.

The slices that `Depends` and `SoftDepends` return share no backing array, with each other or with
those of another call: `dedupe` and the `append` after it work in place.
-/

namespace GinRpc

namespace Kernel

/-- What the loader reads of a plugin; `softDepends` is empty for a plugin that is no
`SoftDepender`. -/
structure Plugin where
  name : String
  depends : List String := []
  softDepends : List String := []
  deriving DecidableEq, Repr

/-- One `range` over a Go map: every entry is visited once, in an order the runtime chooses. -/
structure MapRange (α : Type*) where
  visit : List α → List α
  perm : ∀ l, (visit l).Perm l

/-- The order in which the entries were inserted. -/
def MapRange.inserted {α : Type*} : MapRange α := ⟨id, fun _ => .refl _⟩

/-! ### Registry -/

/-- Registered plugins in registration order, under distinct names. -/
structure Registry where
  plugins : List Plugin
  nodup : (plugins.map Plugin.name).Nodup

namespace Registry

/-- The empty registry. -/
def new : Registry := ⟨[], List.nodup_nil⟩

/-- Look a plugin up by name. -/
def get (r : Registry) (name : String) : Option Plugin :=
  r.plugins.find? fun p => p.name == name

/-- Register a plugin; an empty or already registered name is an error. -/
def register (r : Registry) (p : Plugin) : Except String Registry :=
  if p.name = "" then .error "kernel: plugin name is empty"
  else if h : p.name ∈ r.plugins.map Plugin.name then
    .error s!"kernel: plugin {p.name.quote} already registered"
  else .ok ⟨r.plugins ++ [p], by
    rw [List.map_append, List.nodup_append]
    refine ⟨r.nodup, by simp, fun a ha b hb => ?_⟩
    rintro rfl
    rw [List.map_singleton, List.mem_singleton] at hb
    exact h (hb ▸ ha)⟩

end Registry

/-! ### Topological sort -/

/-- Why a build fails. -/
inductive BuildError where
  | configure (plugin cause : String)
  | missing (plugin dep : String)
  | cycle (remaining : List String)
  deriving DecidableEq, Repr

/-- The message of the error. -/
def BuildError.error : BuildError → String
  | .configure plugin cause => s!"kernel: configure plugin {plugin.quote}: {cause}"
  | .missing plugin dep =>
    s!"kernel: plugin {plugin.quote} depends on {dep.quote} which is disabled or not registered (import the plugin package or enable it in config)"
  | .cycle remaining =>
    "kernel: dependency cycle detected among plugins: " ++ ", ".intercalate remaining

/-- Keep the first occurrence of every entry. -/
def dedupe (xs : List String) : List String :=
  xs.foldl (fun out v => if v ∈ out then out else out ++ [v]) []

/-- Move `x` left past the entries it is less than; the sorted part is kept in reverse. -/
def sift {α : Type*} (less : α → α → Bool) (x : α) : List α → List α
  | [] => [x]
  | y :: ys => if less x y then y :: sift less x ys else x :: y :: ys

/-- Insertion sort. -/
def sortSliceStable {α : Type*} (less : α → α → Bool) (list : List α) : List α :=
  (list.foldl (fun sorted x => sift less x sorted) []).reverse

/-- The code points of a string; comparing them agrees with comparing the bytes. -/
def runes (s : String) : List ℕ := s.toList.map Char.toNat

/-- Sort strings in increasing order. -/
def sortStrings (list : List String) : List String :=
  sortSliceStable (fun a b => (runes a).lex (runes b) fun x y => decide (x < y)) list

/-- `_, ok := configured[name]` -/
def isConfigured (configured : List Plugin) (name : String) : Bool :=
  configured.any fun p => p.name == name

/-- The registration sequence `seq`. -/
def seqOf (registered : List Plugin) : String → ℕ :=
  registered.zipIdx.foldl (fun seq pi => Function.update seq pi.1.name pi.2) fun _ => 0

/-- The dependencies of a plugin that count for the order: the hard ones, then the configured
soft ones. -/
def mergeDeps (configured : List Plugin) (p : Plugin) : List String :=
  (dedupe p.softDepends).foldl
    (fun deps dep => if isConfigured configured dep ∧ dep ∉ deps then deps ++ [dep] else deps)
    (dedupe p.depends)

/-- The two maps of the dependency graph. -/
structure Graph where
  indegree : String → ℤ
  dependents : String → List String

/-- Enter one plugin into the graph. -/
def Graph.add (configured : List Plugin) (g : Graph) (p : Plugin) : Graph :=
  let deps := mergeDeps configured p
  { indegree := Function.update g.indegree p.name deps.length
    dependents := deps.foldl
      (fun m dep => Function.update m dep (m dep ++ [p.name])) g.dependents }

/-- The graph of the configured plugins, entered in the order of `r`. -/
def buildGraph (r : MapRange Plugin) (configured : List Plugin) : Graph :=
  (r.visit configured).foldl (Graph.add configured) ⟨fun _ => 0, fun _ => []⟩

/-- The variables of the main loop. -/
structure Kahn where
  indegree : String → ℤ
  queue : List String
  order : List String

/-- Body of the inner loop: one dependent loses an incoming edge. -/
def Kahn.relax (k : Kahn) (next : String) : Kahn :=
  let d := k.indegree next - 1
  { k with
    indegree := Function.update k.indegree next d
    queue := if d = 0 then k.queue ++ [next] else k.queue }

/-- Body of the main loop; nothing happens once the queue is empty. -/
def Kahn.next (seq : String → ℕ) (dependents : String → List String) (k : Kahn) : Kahn :=
  match k.queue with
  | [] => k
  | name :: queue =>
    let k' := (dependents name).foldl Kahn.relax
      { k with queue := queue, order := k.order ++ [name] }
    { k' with queue := sortSliceStable (fun a b => decide (seq a < seq b)) k'.queue }

/-- The main loop for at most `n` rounds. -/
def Kahn.drain (seq : String → ℕ) (dependents : String → List String) : ℕ → Kahn → Kahn
  | 0, k => k
  | n + 1, k => drain seq dependents n (k.next seq dependents)

/-- The state before the main loop. -/
def Kahn.start (r₁ r₂ : MapRange Plugin) (configured registered : List Plugin) : Kahn :=
  let g := buildGraph r₁ configured
  let queue := ((r₂.visit configured).map Plugin.name).filter fun n => decide (g.indegree n = 0)
  { indegree := g.indegree
    queue := sortSliceStable (fun a b => decide (seqOf registered a < seqOf registered b)) queue
    order := [] }

/-- Order the configured plugins by their dependencies.  The three map ranges of the source are
`r₁`, `r₂` and `r₃`; as every round of the loop emits a plugin, `configured.length` rounds empty
the queue. -/
def topoSort (r₁ r₂ r₃ : MapRange Plugin) (configured registered : List Plugin) :
    Except BuildError (List String) :=
  let k := (Kahn.start r₁ r₂ configured registered).drain (seqOf registered)
    (buildGraph r₁ configured).dependents configured.length
  if k.order.length ≠ configured.length then
    .error (.cycle (sortStrings
      (((r₃.visit configured).map Plugin.name).filter fun n => decide (n ∉ k.order))))
  else .ok k.order

/-! ### Loader -/

/-- What `Configure` of a plugin returns. -/
inductive Configured where
  | ok
  /-- `ErrDisabled` -/
  | disabled
  | failed (cause : String)
  deriving DecidableEq, Repr

/-- A loader.  `toggles` is the `plugins` section of the configuration, if there is one and it can
be read; its entries hold the optional field `enabled`. -/
structure Loader where
  registry : Option Registry := none
  defaultRegistry : Registry
  toggles : Option (String → Option (Option Bool)) := none
  configure : Plugin → Configured := fun _ => .ok

/-- Plugins in dependency order, and the names of the started ones in the order of their start. -/
structure App where
  plugins : List Plugin
  started : List String := []
  deriving DecidableEq, Repr

namespace Loader

/-- The plugins taking part: those of the loader's own registry, then the others of the default
registry. -/
def registered (l : Loader) : List Plugin :=
  match l.registry with
  | none => l.defaultRegistry.plugins
  | some r => r.plugins ++ l.defaultRegistry.plugins.filter fun p => (r.get p.name).isNone

/-- Read `plugins.<name>.enabled`; the default is `true`. -/
def isEnabled (l : Loader) (name : String) : Bool :=
  match l.toggles with
  | none => true
  | some section_ =>
    match section_ name with
    | some (some b) => b
    | _ => true

/-- Let the enabled plugins configure themselves, in registration order. -/
def configureAll (l : Loader) : List Plugin → Except BuildError (List Plugin)
  | [] => .ok []
  | p :: ps =>
    if l.isEnabled p.name then
      match l.configure p with
      | .disabled => l.configureAll ps
      | .failed cause => .error (.configure p.name cause)
      | .ok => (l.configureAll ps).map (p :: ·)
    else l.configureAll ps

/-- The first hard dependency that is not configured, in the order of `r`. -/
def missingDep (r : MapRange Plugin) (configured : List Plugin) : Option (String × String) :=
  (r.visit configured).findSome? fun p =>
    (p.depends.find? fun dep => !isConfigured configured dep).map fun dep => (p.name, dep)

/-- Filter, configure, check and sort the registered plugins. -/
def build (l : Loader) (r₀ r₁ r₂ r₃ : MapRange Plugin) : Except BuildError App := do
  let configured ← l.configureAll l.registered
  match missingDep r₀ configured with
  | some (name, dep) => .error (.missing name dep)
  | none =>
    let order ← topoSort r₁ r₂ r₃ configured l.registered
    .ok { plugins := order.filterMap fun n => configured.find? fun p => p.name == n }

end Loader

end Kernel

end GinRpc
