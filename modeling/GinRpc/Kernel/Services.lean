import GinRpc.Text.Basic

/-!
# Managed services

Model of `StartServices` and `StopServices` in `internal/bootstrap/service_manager.go`.  Services
are built by their factories when they are started for the first time.  Both loops return at the
first error.

* `Bootstrap.services_iff` : a `StartServices` that fails leaves nothing running if and only if the
  first service fails, and `StopServices` reaches all services if and only if no one but the last
  one fails.
* `Bootstrap.left_behind` : the second service fails, and the first one is left behind.
-/

namespace GinRpc

namespace Bootstrap

/-- The errors of factories, of `Start` and of `Stop` for the name at a position -/
structure Faults where
  build : ℕ → Option Text := fun _ => none
  start : ℕ → Option Text := fun _ => none
  stop : ℕ → Option Text := fun _ => none

/-- The calls of `Start` and `Stop`, with their errors -/
inductive Event where
  | start (name : Text) (err : Option Text)
  | stop (name : Text) (err : Option Text)
  deriving DecidableEq, Repr

/-- The service that is called -/
def Event.service : Event → Text
  | .start name _ => name
  | .stop name _ => name

end Bootstrap

/-- The services of `Bootstrap`: the names of the factories and of the services that are built -/
structure Bootstrap where
  serviceOrder : List Text := []
  managedServices : List Text := []
  deriving DecidableEq, Repr

namespace Bootstrap

/-- The effect of a call -/
structure Outcome where
  bootstrap : Bootstrap
  events : List Event
  err : Option Text
  deriving DecidableEq, Repr

variable (b : Bootstrap)

/-- `RegisterServiceFactory`; `factory` is not nil. -/
def registerServiceFactory (name : Text) (factory : Bool) : Except Text Bootstrap :=
  if name = [] then .error "service name is required"
  else if !factory then .error ("service factory " ++ name ++ " is nil")
  else if b.serviceOrder.contains name then
    .error ("service factory " ++ name ++ " already registered")
  else .ok { b with serviceOrder := b.serviceOrder ++ [name] }

/-- `resolveServiceNames` -/
def resolveServiceNames (names : List Text) : List Text :=
  if names = [] then b.serviceOrder else names

/-- `ensureManagedService`; the factory returns the error `err`. -/
def ensureManagedService (err : Option Text) (name : Text) : Except Text Bootstrap :=
  if b.managedServices.contains name then .ok b
  else if !b.serviceOrder.contains name then
    .error ("service factory " ++ name ++ " not found")
  else match err with
    | some e => .error ("failed to build service " ++ name ++ ": " ++ e)
    | none => .ok { b with managedServices := b.managedServices ++ [name] }

/-- The loop of `StartServices` -/
def startFrom (f : Faults) : List (Text × ℕ) → Bootstrap → Outcome
  | [], b => ⟨b, [], none⟩
  | (name, i) :: rest, b =>
    match b.ensureManagedService (f.build i) name with
    | .error err => ⟨b, [], some err⟩
    | .ok b' =>
      match f.start i with
      | some err =>
        ⟨b', [.start name (some err)], some ("failed to start service " ++ name ++ ": " ++ err)⟩
      | none =>
        let o := startFrom f rest b'
        { o with events := .start name none :: o.events }

/-- `StartServices` -/
def startServices (f : Faults) (names : List Text) : Outcome :=
  startFrom f (b.resolveServiceNames names).zipIdx b

/-- The loop of `StopServices` over the services that are built -/
def stopFrom (f : Faults) : List (Text × ℕ) → List Event × Option Text
  | [] => ([], none)
  | (name, i) :: rest =>
    match f.stop i with
    | some err =>
      ([.stop name (some err)], some ("failed to stop service " ++ name ++ ": " ++ err))
    | none => ((.stop name none) :: (stopFrom f rest).1, (stopFrom f rest).2)

/-- The services that are built, among the requested ones -/
def built (names : List Text) : List Text :=
  (b.resolveServiceNames names).filter (b.managedServices.contains ·)

/-- The services that `StopServices` is about to stop, in the order of its loop -/
def toStop (names : List Text) : List (Text × ℕ) :=
  (b.resolveServiceNames names).zipIdx.reverse.filter fun c => b.managedServices.contains c.1

/-- `StopServices` -/
def stopServices (f : Faults) (names : List Text) : Outcome :=
  let r := stopFrom f (b.toStop names)
  ⟨b, r.1, r.2⟩

/-- `Start` of the service has succeeded, and `Stop` was not called since. -/
def Running (events : List Event) (name : Text) : Prop :=
  ∃ pre post, events = pre ++ .start name none :: post ∧ ∀ err, .stop name err ∉ post

/-- The first service that is requested cannot be built or does not start. -/
def FirstFails (f : Faults) (names : List Text) : Prop :=
  ∃ name, (b.resolveServiceNames names).head? = some name ∧
    ((∃ err, b.ensureManagedService (f.build 0) name = .error err) ∨ f.start 0 ≠ none)

variable {b} {f : Faults}

theorem mem_startFrom {e : Event} {l : List (Text × ℕ)} (h : e ∈ (startFrom f l b).events) :
    ∃ name err, e = .start name err := by
  induction l generalizing b with
  | nil => cases h
  | cons c rest ih =>
    rw [startFrom] at h
    split at h
    · cases h
    · split at h
      · exact ⟨_, _, List.mem_singleton.1 h⟩
      · obtain rfl | h := List.mem_cons.1 h
        · exact ⟨_, _, rfl⟩
        · exact ih h

/-- Whatever `StartServices` has started is running when it returns. -/
theorem running_startFrom {name : Text} {l : List (Text × ℕ)} :
    Running (startFrom f l b).events name ↔ .start name none ∈ (startFrom f l b).events := by
  constructor
  · rintro ⟨pre, post, hevents, -⟩
    rw [hevents]
    exact List.mem_append_right pre List.mem_cons_self
  · intro h
    obtain ⟨pre, post, hevents⟩ := List.append_of_mem h
    refine ⟨pre, post, hevents, fun err hstop => ?_⟩
    have hmem : Event.stop name err ∈ (startFrom f l b).events := by
      rw [hevents]
      exact List.mem_append_right pre (List.mem_cons_of_mem _ hstop)
    obtain ⟨_, _, heq⟩ := mem_startFrom hmem
    cases heq

/-- If the first service starts, it is running when `StartServices` returns. -/
theorem not_running_iff (b : Bootstrap) (f : Faults) (names : List Text)
    (herr : (b.startServices f names).err ≠ none) :
    (∀ name, ¬ Running (b.startServices f names).events name) ↔ b.FirstFails f names := by
  unfold startServices at herr ⊢
  simp only [running_startFrom]
  unfold FirstFails
  cases hnames : b.resolveServiceNames names with
  | nil =>
    rw [hnames] at herr
    exact absurd rfl herr
  | cons name rest =>
    rw [List.zipIdx_cons, startFrom]
    cases hbuild : b.ensureManagedService (f.build 0) name with
    | error err =>
      refine ⟨fun _ => ⟨name, rfl, .inl ⟨err, hbuild⟩⟩, fun _ name' h => ?_⟩
      cases h
    | ok b' =>
      cases hstart : f.start 0 with
      | some err => simp
      | none =>
        refine ⟨fun h => absurd List.mem_cons_self (h name), ?_⟩
        rintro ⟨_, ⟨⟩, ⟨err, herr'⟩ | hne⟩
        · cases hbuild.symm.trans herr'
        · exact absurd rfl hne

/-- `StopServices` reports an error if and only if a call of `Stop` has failed. -/
theorem stopFrom_err (f : Faults) (l : List (Text × ℕ)) :
    (stopFrom f l).2 ≠ none ↔ ∃ name err, .stop name (some err) ∈ (stopFrom f l).1 := by
  induction l with
  | nil => simp [stopFrom]
  | cons c rest ih =>
    rw [stopFrom]
    cases f.stop c.2 with
    | some err => simp
    | none =>
      refine ih.trans (exists_congr fun name => exists_congr fun err => ?_)
      rw [List.mem_cons]
      exact ⟨.inr, fun h => h.resolve_left fun heq => by cases heq⟩

/-- The calls of `Stop` are those for the first services of the list. -/
theorem stopFrom_isPrefix (f : Faults) (l : List (Text × ℕ)) :
    (stopFrom f l).1.map Event.service <+: l.map Prod.fst := by
  induction l with
  | nil => exact List.nil_prefix
  | cons c rest ih =>
    rw [stopFrom]
    split
    · exact List.cons_prefix_cons.2 ⟨rfl, List.nil_prefix⟩
    · exact List.cons_prefix_cons.2 ⟨rfl, ih⟩

/-- The loop reaches all services if and only if no one but the last one fails. -/
theorem stopFrom_all (f : Faults) (l : List (Text × ℕ)) :
    (stopFrom f l).1.map Event.service = l.map Prod.fst ↔
      ∀ c ∈ l.dropLast, f.stop c.2 = none := by
  induction l with
  | nil => simp [stopFrom]
  | cons c rest ih =>
    rw [stopFrom]
    cases hstop : f.stop c.2 with
    | some err =>
      cases rest with
      | nil => simp [Event.service]
      | cons d rest => simp [hstop]
    | none =>
      cases rest with
      | nil => simp [stopFrom, Event.service]
      | cons d rest =>
        rw [List.dropLast_cons_cons, List.forall_mem_cons, ← ih]
        simp [hstop, Event.service]

theorem map_toStop (b : Bootstrap) (names : List Text) :
    (b.toStop names).map Prod.fst = (b.built names).reverse := by
  have hfilter : (b.toStop names).map Prod.fst =
      ((b.resolveServiceNames names).zipIdx.reverse.map Prod.fst).filter
        (b.managedServices.contains ·) := by
    rw [List.filter_map]
    rfl
  rw [hfilter, List.map_reverse, List.zipIdx_map_fst, List.filter_reverse]
  rfl

/-- **When the two calls do what they should.**  A `StartServices` that fails leaves nothing running
if and only if the first service fails.  `StopServices` calls `Stop` on all services that are built,
in reverse order, if and only if no one but the last of these calls fails; it calls none of them
twice, whatever fails, if and only if the names of those that are built are distinct; and it reports
an error if and only if a call has failed. -/
theorem services_iff (b : Bootstrap) (f : Faults) (names : List Text) :
    ((b.startServices f names).err ≠ none →
      ((∀ name, ¬ Running (b.startServices f names).events name) ↔ b.FirstFails f names)) ∧
    ((b.stopServices f names).events.map Event.service = (b.built names).reverse ↔
      ∀ c ∈ (b.toStop names).dropLast, f.stop c.2 = none) ∧
    ((∀ g, ((b.stopServices g names).events.map Event.service).Nodup) ↔ (b.built names).Nodup) ∧
    ((b.stopServices f names).err ≠ none ↔
      ∃ name err, .stop name (some err) ∈ (b.stopServices f names).events) := by
  have hreverse (g : Faults) (hg : ∀ c ∈ (b.toStop names).dropLast, g.stop c.2 = none) :
      (b.stopServices g names).events.map Event.service = (b.built names).reverse := by
    rw [← map_toStop]
    exact (stopFrom_all g _).2 hg
  refine ⟨not_running_iff b f names, ⟨fun h => ?_, hreverse f⟩,
    ⟨fun h => ?_, fun hnodup g => ?_⟩, stopFrom_err f _⟩
  · rw [← map_toStop] at h
    exact (stopFrom_all f _).1 h
  · rw [← List.nodup_reverse, ← hreverse {} fun _ _ => rfl]
    exact h {}
  · have hbuilt : ((b.toStop names).map Prod.fst).Nodup := by
      rw [map_toStop]
      exact List.nodup_reverse.2 hnodup
    exact hbuilt.sublist (stopFrom_isPrefix g _).sublist

/-- Two services, both of them built -/
def dbAndHttp : Bootstrap where
  serviceOrder := ["db", "http"]
  managedServices := ["db", "http"]

/-- The first one does not start, and both are stopped, the second one with an error. -/
theorem services_iff_dbAndHttp :
    (∀ name, ¬ Running (dbAndHttp.startServices { start := fun _ => some "down" } []).events name) ∧
    (dbAndHttp.stopServices { stop := fun i => if i = 0 then some "busy" else none } []).events.map
      Event.service = ["http", "db"] :=
  ⟨((services_iff dbAndHttp { start := fun _ => some "down" } []).1 (by decide)).2
      ⟨"db", rfl, .inr (by decide)⟩,
    (services_iff dbAndHttp { stop := fun i => if i = 0 then some "busy" else none } []).2.1.2
      (by decide)⟩

/-- **Services are left behind**: the second service does not start, and the first one is left
running; the second service does not stop, and `Stop` of the first one is not called. -/
theorem left_behind :
    (dbAndHttp.startServices { start := fun i => if i = 1 then some "port in use" else none }
        []).err = some "failed to start service http: port in use" ∧
    Running (dbAndHttp.startServices
      { start := fun i => if i = 1 then some "port in use" else none } []).events "db" ∧
    (dbAndHttp.stopServices { stop := fun i => if i = 1 then some "busy" else none } []).events =
      [.stop "http" (some "busy")] := by
  refine ⟨by decide, running_startFrom.2 ?_, by decide⟩
  exact List.mem_cons_self

end Bootstrap

end GinRpc
