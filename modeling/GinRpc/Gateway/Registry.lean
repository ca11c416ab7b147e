import GinRpc.Data.AList
import GinRpc.Text.Basic

/-!
# The router registry

Model of `plugins/gateway/router/registry.go`: routes and groups of routes with their middlewares,
and the handlers that `Build` makes of them for `gin`.

A `gin.HandlerFunc` is a function on the data of a request that may call `Next` and `Abort` on its
context.  A context keeps the index of `gin.Context`: `Abort` sets it to `abortIndex`, and `Next`,
which finds no further handlers of the engine here, only increases it.  That a middleware can take
its successor out of the context (`next_handler`) is left out.

* `applyMiddlewares_eq` : the lists of `applyMiddlewares` run one after the other, like those of
  `ChainMiddlewares`.
* `Registry.runs_in_order` : the handlers of a route run in the order global, group, route exactly
  if there are no global middlewares or no others, and `Next` is not called too often.
* `Registry.global_runs_last` : `Build` gives the global ones last.
-/

namespace GinRpc

namespace Router

/-! ### Handlers -/

/-- A call of a handler on its context -/
inductive Call where
  | next
  | abort
  deriving DecidableEq, Repr

/-- `gin.HandlerFunc`, with a name -/
structure HandlerFunc (σ : Type*) where
  id : ℕ
  run : σ → σ × List Call

/-- A handler that has run, and whether it has called `Abort` -/
structure Entry where
  id : ℕ
  aborted : Bool
  deriving DecidableEq, Repr

/-- `gin.Context` -/
structure Context (σ : Type*) where
  data : σ
  /-- the position of the handler that `Build` has registered, after that of the engine -/
  index : ℕ := 1
  /-- the handlers that have run -/
  ran : List Entry := []

def abortIndex : ℕ := 63

variable {σ : Type*}

/-- `IsAborted` -/
def Context.isAborted (c : Context σ) : Bool := abortIndex ≤ c.index

/-- The index after a call -/
def Call.move (index : ℕ) : Call → ℕ
  | .next => index + 1
  | .abort => abortIndex

/-- A handler runs. -/
def HandlerFunc.call (m : HandlerFunc σ) (c : Context σ) : Context σ :=
  let r := m.run c.data
  { data := r.1
    index := r.2.foldl Call.move c.index
    ran := c.ran ++ [⟨m.id, r.2.any fun call => call = .abort⟩] }

/-- What `gin` calls for a route. -/
abbrev Chain (σ : Type*) := Context σ → Context σ

/-- One middleware in front of the next handler -/
def wrap (m : HandlerFunc σ) (next : Chain σ) : Chain σ := fun c =>
  let c := m.call c
  if c.isAborted then c else next c

/-- `applyMiddlewares`; both loops go from the last element to the first. -/
def applyMiddlewares (handler : HandlerFunc σ) (middlewares : List (List (HandlerFunc σ))) :
    Chain σ :=
  middlewares.foldr (fun group result => group.foldr wrap result) handler.call

/-- `ChainMiddlewares` -/
def chainMiddlewares (handler : HandlerFunc σ) : List (HandlerFunc σ) → Chain σ
  | [], c => handler.call c
  | m :: rest, c =>
    let c := m.call c
    if c.isAborted then c else chainMiddlewares handler rest c

/-! ### The registry -/

structure RouteConfig (σ : Type*) where
  path : Text
  method : Text
  handler : HandlerFunc σ
  middlewares : List (HandlerFunc σ) := []

structure RouteGroup (σ : Type*) where
  start : Text
  routes : List (RouteConfig σ) := []
  middlewares : List (HandlerFunc σ) := []

/-- `RouteRegistry` -/
structure Registry (σ : Type*) where
  routes : List (RouteConfig σ) := []
  groups : AList fun _ : Text => RouteGroup σ := ∅
  /-- `middlewares["global"]` -/
  middlewares : List (HandlerFunc σ) := []

/-- A handler that `gin` has for a method and a path -/
structure Registration (σ : Type*) where
  method : Text
  path : Text
  handler : Chain σ

/-- The methods of `gin.Any` -/
def anyMethods : List Text :=
  ["GET", "POST", "PUT", "PATCH", "HEAD", "OPTIONS", "DELETE", "CONNECT", "TRACE"]

/-- `registerRoute` -/
def registerRoute (method path : Text) (handler : Chain σ) : List (Registration σ) :=
  if method = "GET" ∨ method = "POST" ∨ method = "PUT" ∨ method = "DELETE" ∨ method = "PATCH" ∨
      method = "OPTIONS" then
    [⟨method, path, handler⟩]
  else if method = "*" then anyMethods.map fun m => ⟨m, path, handler⟩
  else []

namespace RouteGroup

variable (rg : RouteGroup σ)

def use (middlewares : List (HandlerFunc σ)) : RouteGroup σ :=
  { rg with middlewares := rg.middlewares ++ middlewares }

def register (method path : Text) (handler : HandlerFunc σ) : RouteGroup σ :=
  { rg with routes := rg.routes ++ [{ path := path, method := method, handler := handler }] }

/-- `Middleware`: for the route that was added last -/
def middleware (middlewares : List (HandlerFunc σ)) : RouteGroup σ :=
  match rg.routes.getLast? with
  | none => rg
  | some route =>
    { rg with
      routes := rg.routes.dropLast ++
        [{ route with middlewares := route.middlewares ++ middlewares }] }

end RouteGroup

namespace Registry

variable (rr : Registry σ)

def use (middlewares : List (HandlerFunc σ)) : Registry σ :=
  { rr with middlewares := rr.middlewares ++ middlewares }

def register (method path : Text) (handler : HandlerFunc σ) : Registry σ :=
  { rr with routes := rr.routes ++ [{ path := path, method := method, handler := handler }] }

/-- `Group`, and what is then done with the group -/
def group (name start : Text) (f : RouteGroup σ → RouteGroup σ) : Registry σ :=
  { rr with groups := rr.groups.insert name (f ((rr.groups.lookup name).getD { start := start })) }

/-- What `Build` registers for a route outside of the groups -/
def buildRoute (route : RouteConfig σ) : List (Registration σ) :=
  registerRoute route.method route.path
    (applyMiddlewares route.handler [route.middlewares, rr.middlewares])

/-- What `Build` registers for a route of a group -/
def buildGroupRoute (group : RouteGroup σ) (route : RouteConfig σ) : List (Registration σ) :=
  registerRoute route.method (group.start ++ route.path)
    (applyMiddlewares route.handler [group.middlewares ++ route.middlewares, rr.middlewares])

/-- `Build`, with the order in which the groups are iterated -/
def build (order : List Text) : List (Registration σ) :=
  rr.routes.flatMap rr.buildRoute ++
    (rr.groups.inOrder order).flatMap fun e => e.2.routes.flatMap (rr.buildGroupRoute e.2)

end Registry

/-! ### What runs -/

/-- The lists are run one after the other. -/
theorem applyMiddlewares_eq (handler : HandlerFunc σ) (middlewares : List (List (HandlerFunc σ))) :
    applyMiddlewares handler middlewares = chainMiddlewares handler middlewares.flatten := by
  have hchain : ∀ l : List (HandlerFunc σ),
      l.foldr wrap handler.call = chainMiddlewares handler l := by
    intro l
    induction l with
    | nil =>
      funext c
      rfl
    | cons m l ih =>
      rw [List.foldr_cons, ih]
      funext c
      rfl
  rw [← hchain, List.foldr_flatten]
  rfl

/-- The entries `tr` are what the middlewares `l` and the handler should leave: in this order, each
once; all of them, if none aborts; and nothing after one that aborts. -/
structure Runs (l : List (HandlerFunc σ)) (handler : HandlerFunc σ) (tr : List Entry) : Prop where
  order : tr.map Entry.id <+: l.map HandlerFunc.id ++ [handler.id]
  complete : (∀ e ∈ tr, e.aborted = false) →
    tr.map Entry.id = l.map HandlerFunc.id ++ [handler.id]
  stops : ∀ pre e post, tr = pre ++ e :: post → e.aborted = true → post = []

/-- As long as no middleware aborts, the calls of `Next` do not bring the index to `abortIndex`. -/
def Few : List (HandlerFunc σ) → ℕ → σ → Prop
  | [], _, _ => True
  | m :: l, index, d => .abort ∉ (m.run d).2 →
    index + (m.run d).2.count .next < abortIndex ∧
      Few l (index + (m.run d).2.count .next) (m.run d).1

variable {m handler : HandlerFunc σ} {l : List (HandlerFunc σ)} {c : Context σ}

theorem foldl_move_of_abort (calls : List Call) (index : ℕ)
    (h : abortIndex ≤ index ∨ .abort ∈ calls) : abortIndex ≤ calls.foldl Call.move index := by
  induction calls generalizing index with
  | nil => simpa using h
  | cons call calls ih =>
    rw [List.foldl_cons]
    refine ih _ ?_
    cases call with
    | next =>
      rw [List.mem_cons] at h
      obtain h | h | h := h
      · exact .inl (h.trans (Nat.le_succ index))
      · cases h
      · exact .inr h
    | abort => exact .inl (le_refl _)

theorem foldl_move_of_not_abort (calls : List Call) (index : ℕ) (h : .abort ∉ calls) :
    calls.foldl Call.move index = index + calls.count .next := by
  induction calls generalizing index with
  | nil => rfl
  | cons call calls ih =>
    rw [List.mem_cons, not_or] at h
    cases call with
    | next =>
      rw [List.foldl_cons, ih _ h.2, List.count_cons_self, Call.move]
      omega
    | abort => exact absurd rfl h.1

theorem Runs.cons_iff {e : Entry} {tr : List Entry} (he : e.id = m.id)
    (haborted : e.aborted = false) : Runs (m :: l) handler (e :: tr) ↔ Runs l handler tr := by
  have hids : (e :: tr).map Entry.id = m.id :: tr.map Entry.id := by rw [List.map_cons, he]
  have hlist : (m :: l).map HandlerFunc.id ++ [handler.id] =
      m.id :: (l.map HandlerFunc.id ++ [handler.id]) := rfl
  constructor
  · rintro ⟨horder, hcomplete, hstops⟩
    rw [hids, hlist] at horder hcomplete
    refine ⟨(List.prefix_cons_inj _).1 horder, fun hall => ?_, fun pre e' post heq => ?_⟩
    · exact (List.cons.inj (hcomplete (List.forall_mem_cons.2 ⟨haborted, hall⟩))).2
    · exact hstops (e :: pre) e' post (congrArg (e :: ·) heq)
  · intro h
    refine ⟨?_, fun hall => ?_, fun pre e' post heq he' => ?_⟩
    · rw [hids, hlist, List.prefix_cons_inj]
      exact h.order
    · rw [hids, hlist, h.complete (List.forall_mem_cons.1 hall).2]
    · cases pre with
      | nil =>
        cases heq
        cases haborted.symm.trans he'
      | cons e'' pre =>
        obtain ⟨-, heq⟩ := List.cons.inj heq
        exact h.stops pre e' post heq he'

/-- One entry, of a handler that aborts or is the last one -/
theorem Runs.single {e : Entry} (horder : [e.id] <+: l.map HandlerFunc.id ++ [handler.id])
    (hcomplete : e.aborted = false → l = []) : Runs l handler [e] := by
  refine ⟨horder, fun hall => ?_, fun pre e' post heq _ => ?_⟩
  · rw [List.forall_mem_singleton] at hall
    obtain rfl := hcomplete hall
    exact List.IsPrefix.eq_of_length horder rfl
  · cases pre with
    | nil => exact (List.cons.inj heq).2.symm
    | cons e'' pre =>
      have hnil := (List.cons.inj heq).2
      exact absurd hnil.symm (List.append_ne_nil_of_right_ne_nil pre (List.cons_ne_nil e' post))

variable (handler l c) in
/-- `ChainMiddlewares` runs its handlers as it should exactly if `Next` is not called too often. -/
theorem runs_chainMiddlewares_iff :
    ∃ tr, (chainMiddlewares handler l c).ran = c.ran ++ tr ∧
      (Runs l handler tr ↔ Few l c.index c.data) ∧
      tr.head?.map Entry.id = (l ++ [handler]).head?.map HandlerFunc.id := by
  induction l generalizing c with
  | nil => exact ⟨_, rfl, iff_of_true (.single (List.prefix_refl _) fun _ => rfl) trivial, rfl⟩
  | cons m l ih =>
    unfold chainMiddlewares Few
    dsimp only
    by_cases hcalls : .abort ∈ (m.run c.data).2
    · have hstop : (m.call c).isAborted = true :=
        decide_eq_true (foldl_move_of_abort _ _ (.inr hcalls))
      rw [if_pos hstop]
      refine ⟨[⟨m.id, true⟩], ?_, iff_of_true (.single ?_ fun h => by cases h) (absurd hcalls), rfl⟩
      · simpa [HandlerFunc.call] using hcalls
      · exact ⟨l.map HandlerFunc.id ++ [handler.id], rfl⟩
    · have hran : (m.call c).ran = c.ran ++ [⟨m.id, false⟩] := by
        have hnone : ∀ call ∈ (m.run c.data).2, call ≠ .abort :=
          fun call hmem heq => hcalls (heq ▸ hmem)
        simpa [HandlerFunc.call] using hnone
      have hindex : (m.call c).index = c.index + (m.run c.data).2.count .next :=
        foldl_move_of_not_abort _ _ hcalls
      simp only [hcalls, not_false_eq_true, forall_const]
      by_cases hfew : c.index + (m.run c.data).2.count .next < abortIndex
      · have hgo : ¬ (m.call c).isAborted = true := by
          simpa [Context.isAborted, hindex] using hfew
        obtain ⟨tr, htr, hruns, -⟩ := ih (c := m.call c)
        rw [hindex] at hruns
        refine ⟨⟨m.id, false⟩ :: tr, ?_, ?_, rfl⟩
        · rw [if_neg hgo, htr, hran, List.append_assoc, List.singleton_append]
        · rw [Runs.cons_iff rfl rfl, hruns, and_iff_right hfew]
          rfl
      · have hstop : (m.call c).isAborted = true := by
          simpa [Context.isAborted, hindex] using hfew
        refine ⟨[⟨m.id, false⟩], by rw [if_pos hstop, hran],
          iff_of_false (fun h => ?_) fun h => hfew h.1, rfl⟩
        simpa using h.complete

namespace Registry

variable {rr : Registry σ} {order : List Text} {reg : Registration σ}

/-- `Build` has made the registration for a route, and the group of the route has the given
middlewares. -/
inductive Built (rr : Registry σ) (order : List Text) (reg : Registration σ) :
    List (HandlerFunc σ) → RouteConfig σ → Prop
  | route {route : RouteConfig σ} : route ∈ rr.routes → reg ∈ rr.buildRoute route →
      Built rr order reg [] route
  | groupRoute {e : Text × RouteGroup σ} {route : RouteConfig σ} : e ∈ rr.groups.inOrder order →
      route ∈ e.2.routes → reg ∈ rr.buildGroupRoute e.2 route →
      Built rr order reg e.2.middlewares route

variable {group : List (HandlerFunc σ)} {route : RouteConfig σ}

theorem mem_build : reg ∈ rr.build order ↔ ∃ group route, Built rr order reg group route := by
  simp only [build, List.mem_append, List.mem_flatMap]
  constructor
  · rintro (⟨route, hroute, hreg⟩ | ⟨e, he, route, hroute, hreg⟩)
    · exact ⟨[], route, .route hroute hreg⟩
    · exact ⟨e.2.middlewares, route, .groupRoute he hroute hreg⟩
  · rintro ⟨group, route, h⟩
    cases h with
    | route hroute hreg => exact .inl ⟨route, hroute, hreg⟩
    | groupRoute he hroute hreg => exact .inr ⟨_, he, route, hroute, hreg⟩

theorem handler_of_mem_registerRoute {method path : Text} {handler : Chain σ}
    (h : reg ∈ registerRoute method path handler) : reg.handler = handler := by
  unfold registerRoute at h
  split_ifs at h
  · rw [List.mem_singleton.1 h]
  · obtain ⟨m, -, rfl⟩ := List.mem_map.1 h
    rfl
  · cases h

/-- What runs for a route: the middlewares of the group, those of the route, and the global ones. -/
theorem Built.handler_eq (h : Built rr order reg group route) : reg.handler =
    chainMiddlewares route.handler (group ++ route.middlewares ++ rr.middlewares) := by
  cases h with
  | route hroute hreg =>
    rw [handler_of_mem_registerRoute hreg, applyMiddlewares_eq]
    simp
  | groupRoute he hroute hreg =>
    rw [handler_of_mem_registerRoute hreg, applyMiddlewares_eq]
    simp

/-- **A request to a registered route runs the global middlewares, then those of the group and of
the route, and then the handler, and stops after one that aborts**, exactly if there are no global
middlewares or no others, and `Next` is not called too often.  The handlers have different names. -/
theorem runs_in_order (h : Built rr order reg group route)
    (hnodup : (rr.middlewares ++ group ++ route.middlewares).Pairwise fun m m' => m.id ≠ m'.id)
    (d : σ) :
    reg ∈ rr.build order ∧
    (Runs (rr.middlewares ++ group ++ route.middlewares) route.handler
        (reg.handler { data := d }).ran ↔
      (rr.middlewares = [] ∨ group ++ route.middlewares = []) ∧
        Few (rr.middlewares ++ group ++ route.middlewares) 1 d) := by
  refine ⟨mem_build.2 ⟨group, route, h⟩, ?_⟩
  obtain ⟨tr, htr, hruns, hfirst⟩ := runs_chainMiddlewares_iff route.handler
    (group ++ route.middlewares ++ rr.middlewares) { data := d }
  rw [h.handler_eq, htr, List.nil_append]
  rw [List.append_assoc] at hnodup ⊢
  generalize group ++ route.middlewares = l at *
  by_cases honly : rr.middlewares = [] ∨ l = []
  · have hlist : l ++ rr.middlewares = rr.middlewares ++ l := by
      obtain hnil | hnil := honly <;> simp [hnil]
    rw [and_iff_right honly, ← hlist, hruns]
  · -- the first middleware is not a global one
    refine iff_of_false (fun hbad => ?_) fun hbad => honly hbad.1
    obtain ⟨hglobal, hother⟩ := not_or.1 honly
    obtain ⟨g, gs, hg⟩ := List.exists_cons_of_ne_nil hglobal
    obtain ⟨m, ms, rfl⟩ := List.exists_cons_of_ne_nil hother
    have hids := hbad.order
    rw [hg] at hnodup hids
    cases tr with
    | nil => cases hfirst
    | cons e tr =>
      have hm : e.id = m.id := Option.some.inj hfirst
      have heq : e.id = g.id := (List.cons_prefix_cons.1 hids).1
      exact (List.pairwise_append.1 hnodup).2.2 g List.mem_cons_self m List.mem_cons_self
        (heq.symm.trans hm)

/-- A handler that makes given calls -/
def calling (id : ℕ) (calls : List Call) : HandlerFunc Unit where
  id := id
  run d := (d, calls)

/-- A route of a group, with a middleware of its own that rejects the request -/
def rejectingRoute : RouteConfig Unit where
  path := "/x"
  method := "GET"
  handler := calling 3 []
  middlewares := [calling 2 [.abort]]

/-- A group with this route, and no global middlewares -/
def rejectsInGroup : Registry Unit :=
  ({} : Registry Unit).group "g" "/g" fun g =>
    ((g.use [calling 1 [.next]]).register "GET" "/x" (calling 3 [])).middleware [calling 2 [.abort]]

theorem runs_in_order_group :
    ∃ reg ∈ rejectsInGroup.build ["g"], Runs [calling 1 [.next], calling 2 [.abort]] (calling 3 [])
      (reg.handler { data := () }).ran := by
  have hbuilt : ∃ reg, Built rejectsInGroup ["g"] reg [calling 1 [.next]] rejectingRoute :=
    ⟨_, .groupRoute (e := ("g", ⟨"/g", [rejectingRoute], [calling 1 [.next]]⟩)) List.mem_cons_self
      List.mem_cons_self List.mem_cons_self⟩
  obtain ⟨reg, hreg⟩ := hbuilt
  obtain ⟨hmem, hruns⟩ := runs_in_order hreg (by decide) ()
  exact ⟨reg, hmem, hruns.2 ⟨.inl rfl, fun _ => ⟨by decide, fun h => absurd List.mem_cons_self h⟩⟩⟩

/-- A global middleware that rejects everything, and others that pass -/
def rejectsAll : Registry Unit :=
  (({} : Registry Unit).use [calling 0 [.abort]]).group "g" "/g" fun g =>
    ((g.use [calling 1 [.next]]).register "GET" "/x" (calling 3 [])).middleware [calling 2 [.next]]

/-- Many global middlewares that pass -/
def manyPass : Registry Unit :=
  (({} : Registry Unit).use (List.replicate 62 (calling 0 [.next]))).register "GET" "/x"
    (calling 1 [])

/-- The middlewares of the group and the route run before the global one that rejects the request;
and after many that call `Next` the handler does not run, though none has aborted. -/
theorem global_runs_last :
    (∃ reg ∈ rejectsAll.build ["g"],
      (reg.handler { data := () }).ran = [⟨1, false⟩, ⟨2, false⟩, ⟨0, true⟩]) ∧
    ∃ reg ∈ manyPass.build [],
      (reg.handler { data := () }).ran = List.replicate 62 ⟨0, false⟩ := by
  refine ⟨⟨_, List.mem_cons_self, ?_⟩, _, List.mem_cons_self, ?_⟩
  · decide
  · decide

end Registry

end Router

end GinRpc
