import GinRpc.Data.AList
import GinRpc.Gateway.Adapter
import GinRpc.Text.Basic

/-!
# The routes of the gateway

Model of the routes in `plugins/gateway`: `NewGateway`, `initRoutes` and `refreshServices`
(`gateway.go`), the health check of the upstreams (`health_checker.go`) and `handleRoute`
(`proxy.go`).  Refreshes and checks hold the lock of the router, so each is one step; so is the
choice of a target for a request, here, as `Sys.selectAlone` (the calls of the balancer by several
requests at once are in `Gateway.Adapter`).

* `Gateway.Aligned` : the healthy targets of a route are targets of the route.
* `Gateway.proxied_of_settled` : this holds, and requests are sent to targets of their route, along
  every run in which no failed lookup brings back static targets while others are marked as healthy,
  and no request is made on a route without targets.
* `Gateway.stale_target` : otherwise requests go to targets that the route no longer has, or never
  had.
-/

namespace GinRpc

namespace Gateway

structure RouteConfig where
  path : Text
  method : Text
  service : Text
  stripPrefix : Bool := false
  /-- the static targets -/
  targets : List String
  deriving DecidableEq

structure Config where
  routes : List RouteConfig
  /-- `Discovery.Enabled` -/
  discovery : Bool
  strategy : Strategy

structure Route where
  config : RouteConfig
  targets : List String
  healthyTargets : List String := []
  deriving DecidableEq

/-- `normalizeGinRoutePath` -/
def normalizeGinRoutePath (p : Text) : Text :=
  let p := p.trimSpace
  if p = [] then p else if ("/*" : Text).isSuffixOf p then p ++ "path" else p

/-- `routeKey` -/
def routeKey (path method : Text) : Text :=
  let method := method.trimSpace.map Text.toUpper
  let method : Text := if method = "" then "*" else method
  let method : Text := if method = "ANY" then "*" else method
  method ++ ':' :: path

/-- What a lookup in the service discovery returns. -/
abbrev Endpoints := Except Unit (List String)

/-- How a request ends: it is sent to a target, or answered by the gateway. -/
inductive Reply where
  | proxied (target : String)
  | error (status : ℕ) (message : String)
  deriving DecidableEq, Repr

/-- A request that was sent to a target -/
structure Sent where
  /-- the targets of the route at that time -/
  targets : List String
  target : String
  deriving DecidableEq, Repr

/-- `Gateway`, with what was sent to the upstreams -/
structure State where
  routes : AList fun _ : Text => Route := ∅
  balancer : Sys := {}
  /-- `Initialize` has set the service discovery -/
  discovered : Bool := false
  sent : List Sent := []

namespace State

/-! ### Routes -/

/-- A route as `NewGateway` makes it, and its key -/
def newRoute (config : RouteConfig) : Text × Route :=
  let config := { config with path := normalizeGinRoutePath config.path }
  (routeKey config.path config.method, { config := config, targets := config.targets })

/-- `NewGateway` -/
def newGateway (cfg : Config) : State :=
  cfg.routes.foldl (fun s config =>
    let e := newRoute config
    { s with routes := s.routes.insert e.1 e.2, balancer := s.balancer.updateTargets e.2.targets })
    {}

/-- A route as `initRoutes` makes it -/
def initRoute (cfg : Config) (endpoints : Endpoints) (route : Route) : Route :=
  if cfg.discovery then
    match endpoints with
    | .error _ => route
    | .ok [] => route
    | .ok (e :: rest) => { route with targets := e :: rest }
  else route

/-- `initRoutes`, with what the lookup for each route returns -/
def initRoutes (cfg : Config) (s : State) (lookups : Text → Endpoints) : State :=
  cfg.routes.foldl (fun s config =>
    let e := newRoute config
    { s with routes := s.routes.insert e.1 (initRoute cfg (lookups e.1) e.2) })
    { s with discovered := true }

/-- One route in `refreshServices`, and the balancer -/
def refreshRoute (route : Route) (balancer : Sys) : Endpoints → Route × Sys
  | .error _ =>
    if route.config.targets ≠ [] then ({ route with targets := route.config.targets }, balancer)
    else (route, balancer)
  | .ok endpoints =>
    let targets := if endpoints = [] ∧ route.config.targets ≠ [] then route.config.targets
      else endpoints
    ({ route with targets := targets, healthyTargets := [] }, balancer.updateTargets targets)

/-- `refreshServices`, with the order in which the map is iterated and what the lookup for each
route returns -/
def refreshServices (cfg : Config) (s : State) (order : List Text) (lookups : Text → Endpoints) :
    State :=
  if s.discovered && cfg.discovery then
    (s.routes.inOrder order).foldl (fun s e =>
      let r := refreshRoute e.2 s.balancer (lookups e.1)
      { s with routes := s.routes.insert e.1 r.1, balancer := r.2 }) s
  else s

/-- One route in `Check`.  `reached i` says that the target number `i` is a URL with a host that
accepts a connection. -/
def checkRoute (reached : ℕ → Bool) (route : Route) : Route :=
  { route with
    healthyTargets := (route.targets.zipIdx.filter fun t => reached t.2).map Prod.fst }

/-- `Check`, as far as the routes are concerned -/
def check (s : State) (order : List Text) (reached : Text → ℕ → Bool) : State :=
  (s.routes.inOrder order).foldl (fun s e =>
    { s with routes := s.routes.insert e.1 (checkRoute (reached e.1) e.2) }) s

/-! ### Requests -/

/-- The route that `handleRoute` finds for the method of a request -/
def findRoute (s : State) (config : RouteConfig) (method : Text) : Option Route :=
  let path := normalizeGinRoutePath config.path
  (s.routes.lookup (routeKey path method)).or (s.routes.lookup (routeKey path "*"))

/-- The targets that the balancer is given -/
def selectTargets (route : Route) : List String :=
  if route.healthyTargets ≠ [] then route.healthyTargets else route.targets

/-- `handleRoute` -/
def handleRoute (cfg : Config) (s : State) (config : RouteConfig) (method : Text) (d : Draw) :
    State × Reply :=
  match s.findRoute config method with
  | none => (s, .error 404 "Route not found")
  | some route =>
    match Sys.selectAlone cfg.strategy s.balancer (selectTargets route) d with
    | (balancer, .failed) => ({ s with balancer := balancer }, .error 503 "Service unavailable")
    | (balancer, .address target) =>
      ({ s with balancer := balancer, sent := s.sent ++ [⟨route.targets, target⟩] },
        .proxied target)

end State

inductive Event where
  | initRoutes (lookups : Text → Endpoints)
  | refresh (order : List Text) (lookups : Text → Endpoints)
  | check (order : List Text) (reached : Text → ℕ → Bool)
  | request (config : RouteConfig) (method : Text) (d : Draw)

namespace State

def step (cfg : Config) (s : State) : Event → State
  | .initRoutes lookups => s.initRoutes cfg lookups
  | .refresh order lookups => s.refreshServices cfg order lookups
  | .check order reached => s.check order reached
  | .request config method d => (s.handleRoute cfg config method d).1

/-- An iteration over the routes meets each of them once. -/
def Fits (s : State) : Event → Prop
  | .refresh order _ => order.Perm s.routes.keys
  | .check order _ => order.Perm s.routes.keys
  | _ => True

def lts (cfg : Config) : LTS State Event where
  init s := s = newGateway cfg
  step s e s' := s.Fits e ∧ s.step cfg e = s'

/-! ### Healthy targets -/

/-- The healthy targets of every route are targets of the route. -/
def Aligned (s : State) : Prop :=
  ∀ key route, s.routes.lookup key = some route → route.healthyTargets ⊆ route.targets

/-- What the theorem asks of an event: a lookup fails only for a route that has no static targets,
or whose healthy targets are among them; and a route without targets is asked for only if the
balancer has no targets of another one. -/
def Settled (s : State) : Event → Prop
  | .refresh _ lookups => ∀ key route, s.routes.lookup key = some route →
      (∃ e, lookups key = .error e) → route.config.targets ≠ [] →
      route.healthyTargets ⊆ route.config.targets
  | .request config method _ => ∀ route, s.findRoute config method = some route →
      route.targets ≠ [] ∨ s.balancer.targets = []
  | _ => True

variable {cfg : Config} {s s' : State}

theorem Aligned.insert (h : s.Aligned) {key : Text} {route : Route}
    (hroute : route.healthyTargets ⊆ route.targets) (balancer : Sys) :
    Aligned { s with routes := s.routes.insert key route, balancer := balancer } :=
  AList.forall_lookup_insert h hroute

theorem newRoute_healthyTargets (config : RouteConfig) :
    (newRoute config).2.healthyTargets = [] := rfl

theorem aligned_newGateway (cfg : Config) : (newGateway cfg).Aligned := by
  refine List.foldlRecOn (motive := Aligned) cfg.routes _ ?_ fun s hs config _ => ?_
  · intro key route h
    cases h
  · refine hs.insert ?_ _
    rw [newRoute_healthyTargets]
    exact List.nil_subset _

theorem Aligned.initRoutes (h : s.Aligned) (lookups : Text → Endpoints) :
    (s.initRoutes cfg lookups).Aligned := by
  refine List.foldlRecOn (motive := Aligned) cfg.routes _ ?_ fun s hs config _ => ?_
  · exact h
  · refine hs.insert ?_ s.balancer
    have hnil : (initRoute cfg (lookups (newRoute config).1) (newRoute config).2).healthyTargets =
        [] := by
      unfold initRoute
      split_ifs
      · cases lookups (newRoute config).1 with
        | error e => rfl
        | ok l => cases l <;> rfl
      · rfl
    rw [hnil]
    exact List.nil_subset _

theorem refreshRoute_subset {route : Route} {balancer : Sys} {endpoints : Endpoints}
    (h : route.healthyTargets ⊆ route.targets)
    (hfail : (∃ e, endpoints = .error e) → route.config.targets ≠ [] →
      route.healthyTargets ⊆ route.config.targets) :
    (refreshRoute route balancer endpoints).1.healthyTargets ⊆
      (refreshRoute route balancer endpoints).1.targets := by
  cases endpoints with
  | error e =>
    rw [refreshRoute]
    split_ifs with hstatic
    · exact hfail ⟨e, rfl⟩ hstatic
    · exact h
  | ok l => exact List.nil_subset _

theorem Aligned.refreshServices (h : s.Aligned) {order : List Text} {lookups : Text → Endpoints}
    (hok : s.Settled (.refresh order lookups)) :
    (s.refreshServices cfg order lookups).Aligned := by
  unfold State.refreshServices
  split_ifs
  · refine List.foldlRecOn (motive := Aligned) _ _ h fun s' hs' e he => ?_
    have hlookup := (AList.mem_inOrder.1 he).2
    exact hs'.insert (refreshRoute_subset (h e.1 e.2 hlookup) (hok e.1 e.2 hlookup)) _
  · exact h

theorem Aligned.check (h : s.Aligned) (order : List Text) (reached : Text → ℕ → Bool) :
    (s.check order reached).Aligned := by
  refine List.foldlRecOn (motive := Aligned) _ _ h fun s' hs' e _ => ?_
  refine hs'.insert (fun t ht => ?_) s'.balancer
  obtain ⟨p, hp, rfl⟩ := List.mem_map.1 ht
  exact List.fst_mem_of_mem_zipIdx (List.mem_of_mem_filter hp)

/-! ### Where requests are sent -/

theorem sent_initRoutes (lookups : Text → Endpoints) :
    (s.initRoutes cfg lookups).sent = s.sent :=
  List.foldlRecOn (motive := fun s' : State => s'.sent = s.sent) cfg.routes _ rfl
    fun _ hs' _ _ => hs'

theorem sent_refreshServices (order : List Text) (lookups : Text → Endpoints) :
    (s.refreshServices cfg order lookups).sent = s.sent := by
  unfold refreshServices
  split_ifs
  · exact List.foldlRecOn (motive := fun s' : State => s'.sent = s.sent) _ _ rfl
      fun _ hs' _ _ => hs'
  · rfl

theorem sent_check (order : List Text) (reached : Text → ℕ → Bool) :
    (s.check order reached).sent = s.sent :=
  List.foldlRecOn (motive := fun s' : State => s'.sent = s.sent) _ _ rfl fun _ hs' _ _ => hs'

theorem findRoute_eq_some {config : RouteConfig} {method : Text} {route : Route}
    (h : s.findRoute config method = some route) :
    ∃ key, s.routes.lookup key = some route := by
  obtain h | ⟨-, h⟩ := Option.or_eq_some_iff.1 h
  · exact ⟨_, h⟩
  · exact ⟨_, h⟩

theorem selectTargets_subset {route : Route} (h : route.healthyTargets ⊆ route.targets) :
    selectTargets route ⊆ route.targets := by
  unfold selectTargets
  split_ifs
  · exact h
  · exact List.Subset.refl _

theorem selectTargets_ne_nil {route : Route} (h : route.targets ≠ []) :
    selectTargets route ≠ [] := by
  unfold selectTargets
  split_ifs with hne
  · exact hne
  · exact h

/-- The routes stay, and what is sent goes to a target of the route. -/
theorem handleRoute_spec (cfg : Config) (h : s.Aligned) {config : RouteConfig} {method : Text}
    {d : Draw} (hok : s.Settled (.request config method d)) :
    (s.handleRoute cfg config method d).1.routes = s.routes ∧
    ((s.handleRoute cfg config method d).1.sent = s.sent ∨ ∃ targets, ∃ target ∈ targets,
      (s.handleRoute cfg config method d).1.sent = s.sent ++ [⟨targets, target⟩]) := by
  unfold handleRoute
  cases hroute : s.findRoute config method with
  | none => exact ⟨rfl, .inl rfl⟩
  | some route =>
    obtain ⟨key, hkey⟩ := findRoute_eq_some hroute
    have hmem : ∀ a, (Sys.selectAlone cfg.strategy s.balancer (selectTargets route) d).2 =
        .address a → a ∈ route.targets := fun a ha =>
      selectTargets_subset (h key route hkey)
        (Sys.mem_of_selectAlone ((hok route hroute).imp_left selectTargets_ne_nil) ha)
    dsimp only
    generalize Sys.selectAlone cfg.strategy s.balancer (selectTargets route) d = r at hmem
    obtain ⟨balancer, target | _⟩ := r
    · exact ⟨rfl, .inr ⟨route.targets, target, hmem target rfl, rfl⟩⟩
    · exact ⟨rfl, .inl rfl⟩

theorem step_settled (h : s.Aligned ∧ ∀ p ∈ s.sent, p.target ∈ p.targets) {e : Event}
    (hok : s.Settled e) :
    (s.step cfg e).Aligned ∧ ∀ p ∈ (s.step cfg e).sent, p.target ∈ p.targets := by
  cases e with
  | initRoutes lookups =>
    refine ⟨h.1.initRoutes lookups, ?_⟩
    rw [step, sent_initRoutes]
    exact h.2
  | refresh order lookups =>
    refine ⟨h.1.refreshServices hok, ?_⟩
    rw [step, sent_refreshServices]
    exact h.2
  | check order reached =>
    refine ⟨h.1.check order reached, ?_⟩
    rw [step, sent_check]
    exact h.2
  | request config method d =>
    obtain ⟨hroutes, hsent⟩ := handleRoute_spec cfg h.1 hok
    refine ⟨?_, ?_⟩
    · rw [Aligned, step, hroutes]
      exact h.1
    · obtain hsent | ⟨targets, target, hmem, hsent⟩ := hsent
      · rw [step, hsent]
        exact h.2
      · rw [step, hsent, List.forall_mem_append, List.forall_mem_singleton]
        exact ⟨h.2, hmem⟩

/-- The healthy targets of a route are targets of the route, and requests are sent to targets of
their route. -/
theorem proxied_of_settled {tr : List Event} (hr : (lts cfg).Run Settled tr s) :
    (∀ key route, s.routes.lookup key = some route → route.healthyTargets ⊆ route.targets) ∧
    ∀ p ∈ s.sent, p.target ∈ p.targets := by
  have h : s.Aligned ∧ ∀ p ∈ s.sent, p.target ∈ p.targets := by
    refine hr.invariant (I := fun s => s.Aligned ∧ ∀ p ∈ s.sent, p.target ∈ p.targets)
      (fun s hinit => ?_) fun s e s' h hok hst => ?_
    · obtain rfl : s = newGateway cfg := hinit
      refine ⟨aligned_newGateway cfg, ?_⟩
      have hsent : (newGateway cfg).sent = [] :=
        List.foldlRecOn (motive := fun s' : State => s'.sent = []) cfg.routes _ rfl
          fun _ hs' _ _ => hs'
      rw [hsent]
      exact fun p hp => by cases hp
    · obtain rfl : s.step cfg e = s' := hst.2
      exact step_settled h hok
  exact h

/-- A route with a static target and one without -/
def twoRoutes : Config where
  routes := [⟨"/a", "GET", "a", false, ["http://static"]⟩, ⟨"/b", "GET", "b", false, []⟩]
  discovery := true
  strategy := .roundRobin

def onRoute (path : Text) : Event := .request ⟨path, "GET", [], false, []⟩ "GET" {}

/-- The order in which the routes are iterated -/
def order : List Text := ["GET:/b", "GET:/a"]

/-- A gateway that has found one endpoint for each route, and has reached it -/
def found : State :=
  ((newGateway twoRoutes).step twoRoutes (.initRoutes fun _ => .ok ["http://old"])).step twoRoutes
    (.check order fun _ _ => true)

theorem run_found (ok : State → Event → Prop) (hok : ∀ s lookups, ok s (.initRoutes lookups))
    (hok' : ∀ s order reached, ok s (.check order reached)) :
    ∃ tr, (lts twoRoutes).Run ok tr found := by
  have h₀ : (lts twoRoutes).Run ok [] (newGateway twoRoutes) := .nil rfl
  exact ⟨_, (h₀.extend (.initRoutes fun _ => .ok ["http://old"]) (hok _ _) ⟨trivial, rfl⟩).extend
    (.check order fun _ _ => true) (hok' _ _ _) ⟨List.Perm.refl _, rfl⟩⟩

theorem perm_found : order.Perm found.routes.keys := by decide

/-- The discovery answers, and a request follows. -/
def refreshed (endpoints : Endpoints) (path : Text) : State :=
  (found.step twoRoutes (.refresh order fun _ => endpoints)).step twoRoutes (onRoute path)

/-- The discovery knows another endpoint, and the request is sent there. -/
theorem proxied_of_settled_moved :
    ∃ tr, (lts twoRoutes).Run Settled tr (refreshed (.ok ["http://new"]) "/a") ∧
      (refreshed (.ok ["http://new"]) "/a").sent = [⟨["http://new"], "http://new"⟩] ∧
      ∀ p ∈ (refreshed (.ok ["http://new"]) "/a").sent, p.target ∈ p.targets := by
  obtain ⟨tr, hfound⟩ := run_found Settled (fun _ _ => trivial) fun _ _ _ => trivial
  have hrefresh := hfound.extend (.refresh order fun _ => .ok ["http://new"])
    (fun key route _ herr => by obtain ⟨e, he⟩ := herr; cases he) ⟨perm_found, rfl⟩
  have hok : (found.step twoRoutes (.refresh order fun _ => .ok ["http://new"])).Settled
      (onRoute "/a") := by
    intro route hroute
    have hsome : (found.step twoRoutes (.refresh order fun _ => .ok ["http://new"])).findRoute
        ⟨"/a", "GET", [], false, []⟩ "GET" =
        some ⟨⟨"/a", "GET", "a", false, ["http://static"]⟩, ["http://new"], []⟩ := by decide
    cases hsome.symm.trans hroute
    exact .inl (List.cons_ne_nil _ _)
  have hrequest : (lts twoRoutes).Run Settled _ (refreshed (.ok ["http://new"]) "/a") :=
    hrefresh.extend (onRoute "/a") hok ⟨trivial, rfl⟩
  exact ⟨_, hrequest, by decide, (proxied_of_settled hrequest).2⟩

/-- After a failed lookup the static targets are back, but the request goes to the old one; and a
request on a route without targets goes to the target of another route. -/
theorem stale_target :
    (∃ tr s, ∃ route : Route, (lts twoRoutes).Run LTS.anyStep tr s ∧
      s.routes.lookup ("GET:/a" : Text) = some route ∧ ¬route.healthyTargets ⊆ route.targets ∧
      ∃ p ∈ s.sent, p.target ∉ p.targets) ∧
    ∃ tr s, (lts twoRoutes).Run LTS.anyStep tr s ∧ ∃ p ∈ s.sent, p.target ∉ p.targets ∧
      p.targets = [] := by
  have hlost : ∃ tr, (lts twoRoutes).Run LTS.anyStep tr (refreshed (.error ()) "/a") := by
    obtain ⟨tr, hfound⟩ := run_found LTS.anyStep (fun _ _ => trivial) fun _ _ _ => trivial
    exact ⟨_, (hfound.extend (.refresh order fun _ => .error ()) trivial
      ⟨perm_found, rfl⟩).extend (onRoute "/a") trivial ⟨trivial, rfl⟩⟩
  -- no lookup succeeds, and the balancer has the static target of the first route
  have hnew : (lts twoRoutes).Run LTS.anyStep [] (newGateway twoRoutes) := .nil rfl
  have hempty := (hnew.extend (.initRoutes fun _ => .error ()) trivial ⟨trivial, rfl⟩).extend
    (onRoute "/b") trivial ⟨trivial, rfl⟩
  obtain ⟨tr, hlost⟩ := hlost
  refine ⟨⟨tr, _, ⟨⟨"/a", "GET", "a", false, ["http://static"]⟩, ["http://static"],
    ["http://old"]⟩, hlost, by decide, by decide, by decide⟩, _, _, hempty, by decide⟩

end State

end Gateway

end GinRpc
