import GinRpc.LTS.Basic
import GinRpc.Kernel.TopoSort

/-!
# The lifecycle of an App

Model of `App.Start`, `App.Stop` and `App.rollbackLocked` of `pkg/kernel/loader.go`.  The mutex of
the `App` makes the calls one after another; which plugins fail during a call is given by a
`Faults`.  The calls are the labels of `lifecycle`, whose states keep the trace of what happened
to the plugins.

* `Loader.build_ordered` : an `App` returned by `Build` lists its plugins in dependency order.
* `Sound` : the invariant that relates the `started` list to the trace, moment by moment.
* `orderly_iff_startsIdle` : a run is orderly exactly when every `Start` finds nothing started.
-/

namespace GinRpc

namespace Kernel

/-! ### Model -/

/-- The errors the plugins return during one call: `start i` by the `Start` of the plugin at
position `i`, `stop i` by the `Stop` made for entry `i` of the started list. -/
structure Faults where
  start : ℕ → Option String := fun _ => none
  stop : ℕ → Option String := fun _ => none

/-- What can be observed: the calls of the plugins' methods with their errors, and the returns of
`App.Start` and `App.Stop`. -/
inductive Event where
  | start (plugin : String) (err : Option String)
  | stop (plugin : String) (err : Option String)
  | startReturns (err : Option String)
  | stopReturns (err : Option String)
  deriving DecidableEq, Repr

/-- The effect of a call: the new `App`, the plugin calls it made and its error. -/
structure Outcome where
  app : App
  events : List Event
  err : Option String

/-- `errors.Join` -/
def joinErrors (errs : List String) : Option String :=
  if errs = [] then none else some ("\n".intercalate errs)

/-- The plugin with the given name. -/
def findPlugin (plugins : List Plugin) (name : String) : Option Plugin :=
  plugins.find? fun p => p.name == name

namespace App

/-- Stop the started plugins, last one first, and collect the errors. -/
def rollbackLocked (f : Faults) (a : App) : Outcome :=
  let stopped := a.started.zipIdx.reverse.filter fun s => (findPlugin a.plugins s.1).isSome
  { app := { a with started := [] }
    events := stopped.map fun s => .stop s.1 (f.stop s.2)
    err := joinErrors <| stopped.filterMap fun s =>
      (f.stop s.2).map fun e => s!"stop plugin {s.1.quote}: {e}" }

@[simp] theorem rollbackLocked_app (f : Faults) (a : App) :
    (a.rollbackLocked f).app = { a with started := [] } := rfl

/-- The loop of `Start` over the plugins from position `i` on. -/
def startFrom (f : Faults) : ℕ → List Plugin → App → Outcome
  | _, [], a => ⟨a, [], none⟩
  | i, p :: ps, a =>
    match f.start i with
    | some err =>
      let startErr := s!"kernel: start plugin {p.name.quote}: {err}"
      let rollback := a.rollbackLocked f
      { app := rollback.app
        events := .start p.name (some err) :: rollback.events
        err := match rollback.err with
          | some e => joinErrors [startErr, s!"kernel: rollback plugins: {e}"]
          | none => some startErr }
    | none =>
      let rest := startFrom f (i + 1) ps { a with started := a.started ++ [p.name] }
      { rest with events := .start p.name none :: rest.events }

/-- Start all plugins in dependency order; on failure stop what is started. -/
def start (f : Faults) (a : App) : Outcome := startFrom f 0 a.plugins a

/-- Stop all started plugins. -/
def stop (f : Faults) (a : App) : Outcome := a.rollbackLocked f

end App

/-- A call of one of the two lifecycle methods. -/
inductive Call where
  | start (f : Faults)
  | stop (f : Faults)

/-- An `App` and what has happened to its plugins so far. -/
structure Sys where
  app : App
  trace : List Event

/-- The next call. -/
def Sys.call (s : Sys) : Call → Sys
  | .start f =>
    let o := s.app.start f
    ⟨o.app, s.trace ++ o.events ++ [.startReturns o.err]⟩
  | .stop f =>
    let o := s.app.stop f
    ⟨o.app, s.trace ++ o.events ++ [.stopReturns o.err]⟩

/-- The calls on an `App` as a transition system. -/
def lifecycle (app : App) : LTS Sys Call where
  init s := s = ⟨app, []⟩
  step s c s' := s' = s.call c

/-! ### Orderly traces -/

/-- How often `Start` of the plugin has succeeded. -/
def starts (n : String) (tr : List Event) : ℕ := tr.count (.start n none)

/-- The event is a call of the plugin's `Stop`. -/
def Event.isStop (n : String) : Event → Bool
  | .stop m _ => m == n
  | _ => false

/-- How often `Stop` of the plugin has been called. -/
def stops (n : String) (tr : List Event) : ℕ := tr.countP (Event.isStop n)

/-- `Start` of the plugin has succeeded more often than `Stop` has been called on it. -/
def Running (tr : List Event) (n : String) : Prop := stops n tr < starts n tr

instance (tr : List Event) (n : String) : Decidable (Running tr n) :=
  inferInstanceAs (Decidable (_ < _))

/-- The hard dependencies of the running plugins are running. -/
def DepsRunning (plugins : List Plugin) (tr : List Event) : Prop :=
  ∀ p ∈ plugins, Running tr p.name → ∀ d ∈ p.depends, Running tr d

/-- What is asked of the lifecycle, at every moment of the trace. -/
structure Orderly (plugins : List Plugin) (tr : List Event) : Prop where
  deps_running : ∀ tr', tr' <+: tr → DepsRunning plugins tr'
  stop_running : ∀ tr' n err, tr' ++ [.stop n err] <+: tr → Running tr' n
  start_once : ∀ tr' n err, tr' ++ [.start n err] <+: tr → ¬ Running tr' n
  start_failed : ∀ tr' err, tr' ++ [.startReturns (some err)] <+: tr → ∀ n, ¬ Running tr' n
  stopped : ∀ tr' err, tr' ++ [.stopReturns err] <+: tr → ∀ n, ¬ Running tr' n

/-- `App.Start` is only called when no plugin is started. -/
def startsIdle (s : Sys) : Call → Prop
  | .start _ => s.app.started = []
  | .stop _ => True

/-! ### What Build guarantees -/

/-- `n` has the hard dependency `d`. -/
def HardDep (plugins : List Plugin) (n d : String) : Prop :=
  ∃ p ∈ plugins, p.name = n ∧ d ∈ p.depends

/-- The plugins are in dependency order under distinct names, and none is started. -/
structure App.Ordered (app : App) : Prop where
  nodup : (names app.plugins).Nodup
  grounded : Grounded (HardDep app.plugins) (names app.plugins)
  idle : app.started = []

namespace Loader

theorem registered_nodup (l : Loader) : (names l.registered).Nodup := by
  unfold registered
  cases hr : l.registry with
  | none => exact l.defaultRegistry.nodup
  | some r =>
    simp only [names, List.map_append]
    rw [List.nodup_append]
    refine ⟨r.nodup, l.defaultRegistry.nodup.sublist (List.filter_sublist.map _), ?_⟩
    intro a ha b hb hab
    obtain ⟨p, hp, rfl⟩ := List.mem_map.1 ha
    obtain ⟨q, hq, rfl⟩ := List.mem_map.1 hb
    -- a plugin of the default registry is only added when its name is free
    have hnone := (List.mem_filter.1 hq).2
    simp only [Registry.get, Option.isNone_iff_eq_none, List.find?_eq_none] at hnone
    exact hnone p hp (by simp [hab])

theorem configureAll_sublist (l : Loader) {ps configured : List Plugin}
    (h : l.configureAll ps = .ok configured) : configured.Sublist ps := by
  induction ps generalizing configured with
  | nil => obtain rfl := Except.ok.inj h; exact .slnil
  | cons p ps ih =>
    unfold configureAll at h
    split_ifs at h
    · split at h
      · exact (ih h).cons p
      · cases h
      · cases hrest : l.configureAll ps with
        | error e => rw [hrest] at h; cases h
        | ok rest =>
          rw [hrest] at h
          cases h
          exact (ih hrest).cons_cons p
    · exact (ih h).cons p

theorem hard_of_missingDep_none {r : MapRange Plugin} {configured : List Plugin}
    (h : missingDep r configured = none) :
    ∀ p ∈ configured, ∀ d ∈ p.depends, d ∈ names configured := by
  intro p hp d hd
  simp only [missingDep, List.findSome?_eq_none_iff, Option.map_eq_none_iff,
    List.find?_eq_none] at h
  have := h p ((r.perm _).mem_iff.2 hp) d hd
  simpa [isConfigured_iff] using this

/-- The inputs of the sort, as `Build` calls it. -/
theorem build_eq_ok {l : Loader} {r₀ r₁ r₂ r₃ : MapRange Plugin} {app : App}
    (h : l.build r₀ r₁ r₂ r₃ = .ok app) :
    ∃ configured order, configured.Sublist l.registered ∧
      (∀ p ∈ configured, ∀ d ∈ p.depends, d ∈ names configured) ∧
      topoSort r₁ r₂ r₃ configured l.registered = .ok order ∧
      app = { plugins := order.filterMap fun n => configured.find? fun p => p.name == n } := by
  unfold build at h
  cases hc : l.configureAll l.registered with
  | error e => rw [hc] at h; cases h
  | ok configured =>
    simp only [hc, bind, Except.bind] at h
    cases hm : missingDep r₀ configured with
    | some nd => rw [hm] at h; cases h
    | none =>
      simp only [hm] at h
      cases ht : topoSort r₁ r₂ r₃ configured l.registered with
      | error e => rw [ht] at h; cases h
      | ok order =>
        rw [ht] at h
        exact ⟨configured, order, l.configureAll_sublist hc, hard_of_missingDep_none hm, ht,
          (Except.ok.inj h).symm⟩

theorem names_filterMap_find? {configured : List Plugin} {order : List String}
    (h : order ⊆ names configured) :
    names (order.filterMap fun n => configured.find? fun p => p.name == n) = order := by
  induction order with
  | nil => rfl
  | cons n order ih =>
    obtain ⟨hn, hrest⟩ := List.cons_subset.1 h
    cases hf : configured.find? fun p => p.name == n with
    | none =>
      obtain ⟨p, hp, rfl⟩ := List.mem_map.1 hn
      exact absurd (List.find?_eq_none.1 hf p hp) (by simp)
    | some p =>
      have hp : p.name = n := by simpa using List.find?_some hf
      simp only [List.filterMap_cons, hf, names, List.map_cons, hp]
      exact congrArg (n :: ·) (ih hrest)

/-- **An App returned by Build is ordered.** -/
theorem build_ordered {l : Loader} {r₀ r₁ r₂ r₃ : MapRange Plugin} {app : App}
    (h : l.build r₀ r₁ r₂ r₃ = .ok app) : app.Ordered := by
  obtain ⟨configured, order, hsub, hhard, hsort, rfl⟩ := build_eq_ok h
  have hnd : (names configured).Nodup := l.registered_nodup.sublist (hsub.map _)
  obtain ⟨horder, hgreedy, -⟩ := topoSort_ok hnd hsort
  have hnames := names_filterMap_find? hgreedy.subset
  refine ⟨by rwa [hnames], ?_, rfl⟩
  rw [hnames]
  refine hgreedy.grounded.mono fun before n hn d hd => hn d ?_
  obtain ⟨p, hp, rfl, hd⟩ := hd
  obtain ⟨m, -, hm⟩ := List.mem_filterMap.1 hp
  exact ⟨p, List.mem_of_find?_eq_some hm, rfl, .inl hd⟩

end Loader

/-! ### The invariant -/

theorem starts_snoc (n : String) (ev : Event) (tr : List Event) :
    starts n (tr ++ [ev]) = starts n tr + if ev = .start n none then 1 else 0 := by
  rw [starts, List.count_append, List.count_singleton, starts]
  by_cases h : ev = .start n none <;> simp [h]

theorem stops_snoc (n : String) (ev : Event) (tr : List Event) :
    stops n (tr ++ [ev]) = stops n tr + if ev.isStop n then 1 else 0 := by
  rw [stops, List.countP_append, List.countP_singleton, stops]

/-- What an event asks of the trace before it; that a plugin is not started twice is only asked
under the assumption `once`. -/
def Allowed (once : Prop) (tr : List Event) : Event → Prop
  | .start n _ => once → ¬ Running tr n
  | .stop n _ => Running tr n
  | .startReturns (some _) => ∀ n, ¬ Running tr n
  | .startReturns none => True
  | .stopReturns _ => ∀ n, ¬ Running tr n

/-- The `started` list accounts for the trace, and the trace has been in order so far. -/
structure Sound (once : Prop) (plugins : List Plugin) (started : List String)
    (tr : List Event) : Prop where
  balance : ∀ n, starts n tr = stops n tr + started.count n
  grounded : Grounded (HardDep plugins) started
  subset : started ⊆ names plugins
  deps : ∀ tr', tr' <+: tr → DepsRunning plugins tr'
  allowed : Sequenced (Allowed once) tr

namespace Sound

variable {once : Prop} {plugins : List Plugin} {started : List String} {tr : List Event}

theorem initial : Sound once plugins [] [] where
  balance _ := rfl
  grounded := Sequenced.nil
  subset := List.nil_subset _
  deps tr' h p _ hrun := by
    rw [List.prefix_nil.1 h] at hrun
    exact absurd hrun (lt_irrefl 0)
  allowed := Sequenced.nil

theorem running_iff (h : Sound once plugins started tr) (n : String) :
    Running tr n ↔ n ∈ started := by
  unfold Running
  rw [h.balance n, ← List.count_pos_iff]
  omega

theorem not_running_of_nil (h : Sound once plugins [] tr) (n : String) : ¬ Running tr n := by
  simp [h.running_iff]

/-- One more event; the `started` list becomes `started'`. -/
theorem push (h : Sound once plugins started tr) (ev : Event) {started' : List String}
    (hbal : ∀ n, starts n (tr ++ [ev]) = stops n (tr ++ [ev]) + started'.count n)
    (hg : Grounded (HardDep plugins) started') (hs : started' ⊆ names plugins)
    (ha : Allowed once tr ev) : Sound once plugins started' (tr ++ [ev]) := by
  have hmem : ∀ n, Running (tr ++ [ev]) n ↔ n ∈ started' := by
    intro n
    unfold Running
    rw [hbal n, ← List.count_pos_iff]
    omega
  refine ⟨hbal, hg, hs, fun tr' htr => ?_, h.allowed.snoc ha⟩
  rcases List.prefix_concat_iff.1 htr with rfl | htr
  · intro p hp hrun d hd
    rw [hmem] at hrun ⊢
    exact hg.mem_of_dep hrun ⟨p, hp, rfl, hd⟩
  · exact h.deps tr' htr

theorem start_ok (h : Sound once plugins started tr) {p : Plugin} (hp : p ∈ plugins)
    (hdeps : ∀ d, HardDep plugins p.name d → d ∈ started) (hfresh : once → p.name ∉ started) :
    Sound once plugins (started ++ [p.name]) (tr ++ [.start p.name none]) := by
  refine h.push _ (fun n => ?_) (h.grounded.snoc hdeps) ?_ fun ho => ?_
  · rw [starts_snoc, stops_snoc, h.balance n, List.count_append, List.count_singleton]
    by_cases hn : p.name = n <;> simp [hn, Event.isStop, add_assoc]
  · rw [List.append_subset]
    exact ⟨h.subset, by simpa using List.mem_map_of_mem hp⟩
  · rw [h.running_iff]
    exact hfresh ho

theorem start_err (h : Sound once plugins started tr) (n err : String)
    (hfresh : once → n ∉ started) : Sound once plugins started (tr ++ [.start n (some err)]) := by
  refine h.push _ (fun m => by simp [starts_snoc, stops_snoc, Event.isStop, h.balance m]) h.grounded
    h.subset fun ho => ?_
  rw [h.running_iff]
  exact hfresh ho

theorem stop {n : String} (h : Sound once plugins (started ++ [n]) tr) (err : Option String) :
    Sound once plugins started (tr ++ [.stop n err]) := by
  have hp : started <+: started ++ [n] := List.prefix_append _ _
  refine h.push _ (fun m => ?_) (h.grounded.of_prefix hp) (fun m hm => h.subset (hp.subset hm)) ?_
  · rw [starts_snoc, stops_snoc, h.balance m, List.count_append, List.count_singleton]
    by_cases hn : n = m <;> simp [hn, Event.isStop, add_assoc, add_comm]
  · exact (h.running_iff n).2 (by simp)

theorem startReturns (h : Sound once plugins started tr) (err : Option String)
    (he : err ≠ none → started = []) : Sound once plugins started (tr ++ [.startReturns err]) := by
  refine h.push _ (fun n => by simp [starts_snoc, stops_snoc, Event.isStop, h.balance n])
    h.grounded h.subset ?_
  cases err with
  | none => trivial
  | some e =>
    obtain rfl := he (by simp)
    exact h.not_running_of_nil

theorem stopReturns (h : Sound once plugins [] tr) (err : Option String) :
    Sound once plugins [] (tr ++ [.stopReturns err]) :=
  h.push _ (fun n => by simp [starts_snoc, stops_snoc, Event.isStop, h.balance n])
    h.grounded h.subset h.not_running_of_nil

/-- Rolling back stops everything that is started. -/
theorem rollbackLocked {a : App} (h : Sound once a.plugins a.started tr) (f : Faults) :
    Sound once a.plugins [] (tr ++ (a.rollbackLocked f).events) := by
  obtain ⟨plugins, started⟩ := a
  unfold App.rollbackLocked
  dsimp only at h ⊢
  induction started using List.reverseRecOn generalizing tr with
  | nil => simpa using h
  | append_singleton started n ih =>
    -- the last entry is stopped first; its plugin is found
    have hn : (findPlugin plugins n).isSome := by
      have hmem : n ∈ names plugins := h.subset (by simp)
      obtain ⟨p, hp, hpn⟩ := List.mem_map.1 hmem
      rw [findPlugin, List.find?_isSome]
      exact ⟨p, hp, by simp [hpn]⟩
    have := ih (h.stop (f.stop started.length))
    simpa [List.zipIdx_append, hn] using this

/-- The loop of `Start`, once the plugins named in `done` have been passed: it ends with
everything started or, after an error, with nothing. -/
theorem startFrom {a : App} (hnd : (names a.plugins).Nodup)
    (hg : Grounded (HardDep a.plugins) (names a.plugins)) (f : Faults) (i : ℕ)
    (ps : List Plugin) (done : List String) (hps : names a.plugins = done ++ names ps)
    (hsub : ps ⊆ a.plugins) (hdone : done ⊆ a.started) (honce : once → a.started = done)
    (h : Sound once a.plugins a.started tr) :
    (a.startFrom f i ps).app.plugins = a.plugins ∧
      Sound once a.plugins (a.startFrom f i ps).app.started
        (tr ++ (a.startFrom f i ps).events) ∧
      ((a.startFrom f i ps).err = none ∧
          names a.plugins ⊆ (a.startFrom f i ps).app.started ∨
        (a.startFrom f i ps).app.started = []) := by
  induction ps generalizing i a done tr with
  | nil =>
    rw [App.startFrom]
    refine ⟨rfl, by simpa using h, .inl ⟨rfl, ?_⟩⟩
    simpa [hps] using hdone
  | cons p ps ih =>
    obtain ⟨hp, hsub'⟩ := List.cons_subset.1 hsub
    have hnotin : once → p.name ∉ a.started := by
      intro ho hm
      rw [hps, names, List.map_cons, List.nodup_append] at hnd
      exact hnd.2.2 _ (honce ho ▸ hm) p.name (by simp) rfl
    rw [App.startFrom]
    cases hf : f.start i with
    | some err =>
      refine ⟨rfl, ?_, .inr rfl⟩
      have := (h.start_err p.name err hnotin).rollbackLocked f
      simpa using this
    | none =>
      -- the dependencies of `p` are among the plugins passed before it
      have hdeps : ∀ d, HardDep a.plugins p.name d → d ∈ a.started := fun d hd =>
        hdone (hg done p.name (names ps) (by simpa using hps) d hd)
      have hrest := ih (a := { a with started := a.started ++ [p.name] }) hnd hg (i + 1)
        (done ++ [p.name]) (by simpa using hps) hsub' ?_ ?_ (h.start_ok hp hdeps hnotin)
      · simpa using hrest
      · intro n hn
        rcases List.mem_append.1 hn with hn | hn
        · exact List.mem_append_left _ (hdone hn)
        · exact List.mem_append_right _ hn
      · intro ho
        rw [honce ho]

end Sound

/-- The invariant of the states between two calls. -/
structure Sys.Inv (once : Prop) (app : App) (s : Sys) : Prop where
  plugins : s.app.plugins = app.plugins
  sound : Sound once app.plugins s.app.started s.trace
  full : s.app.started = [] ∨ names app.plugins ⊆ s.app.started

section Runs

variable {once : Prop} {app : App} {s : Sys} {calls : List Call}

/-- A call keeps the invariant; under `once`, a `Start` must find nothing started. -/
theorem Sys.Inv.call (happ : app.Ordered) (h : s.Inv once app) (c : Call)
    (hc : once → startsIdle s c) : (s.call c).Inv once app := by
  obtain ⟨hplugins, hsound, -⟩ := h
  rw [← hplugins] at hsound
  cases c with
  | start f =>
    obtain ⟨hp, hs, hend⟩ := hsound.startFrom (by rw [hplugins]; exact happ.nodup)
      (by rw [hplugins]; exact happ.grounded) f 0 s.app.plugins [] rfl
      (List.Subset.refl _) (List.nil_subset _) hc
    refine ⟨hp.trans hplugins, ?_, ?_⟩ <;> rw [← hplugins]
    · refine hs.startReturns _ fun he => ?_
      rcases hend with ⟨hno, -⟩ | hnil
      · exact absurd hno he
      · exact hnil
    · rcases hend with ⟨-, hall⟩ | hnil
      · exact .inr hall
      · exact .inl hnil
  | stop f =>
    have hs := hsound.rollbackLocked f
    rw [hplugins] at hs
    exact ⟨hplugins, hs.stopReturns _, .inl rfl⟩

theorem Sys.inv_of_run (once : Prop) (happ : app.Ordered) {ok : Sys → Call → Prop}
    (hok : ∀ s c, ok s c → once → startsIdle s c) (h : (lifecycle app).Run ok calls s) :
    s.Inv once app := by
  refine h.invariant ?_ ?_
  · rintro s rfl
    refine ⟨rfl, ?_, .inl happ.idle⟩
    rw [show (Sys.mk app []).app.started = [] from happ.idle]
    exact Sound.initial
  · rintro s c s' hinv hc rfl
    exact hinv.call happ c (hok s c hc)

theorem Sound.orderly {plugins : List Plugin} {started : List String} {tr : List Event}
    (h : Sound True plugins started tr) : Orderly plugins tr where
  deps_running := h.deps
  stop_running _ _ _ hp := h.allowed.of_snoc_prefix hp
  start_once _ _ _ hp := h.allowed.of_snoc_prefix hp trivial
  start_failed _ _ hp := h.allowed.of_snoc_prefix hp
  stopped _ _ hp := h.allowed.of_snoc_prefix hp

theorem Sys.trace_call (s : Sys) (c : Call) : s.trace <+: (s.call c).trace := by
  cases c <;> exact ⟨_, (List.append_assoc _ _ _).symm⟩

theorem Orderly.of_prefix {plugins : List Plugin} {tr tr' : List Event}
    (h : Orderly plugins tr') (hp : tr <+: tr') : Orderly plugins tr where
  deps_running t ht := h.deps_running t (ht.trans hp)
  stop_running t n e ht := h.stop_running t n e (ht.trans hp)
  start_once t n e ht := h.start_once t n e (ht.trans hp)
  start_failed t e ht := h.start_failed t e (ht.trans hp)
  stopped t e ht := h.stopped t e (ht.trans hp)

/-- A `Start` that finds plugins started starts the first plugin again. -/
theorem Sys.startsIdle_of_orderly (hinv : s.Inv once app) (c : Call)
    (h : Orderly app.plugins (s.call c).trace) : startsIdle s c := by
  cases c with
  | stop f => trivial
  | start f =>
    rcases hinv.full with hnil | hall
    · exact hnil
    cases hps : app.plugins with
    | nil =>
      have := hinv.sound.subset
      rw [hps] at this
      exact List.subset_nil.1 this
    | cons p ps =>
      have hrun : Running s.trace p.name := (hinv.sound.running_iff _).2 (hall (by simp [hps]))
      -- whether or not it fails, the call begins with `Start` of the first plugin
      have hfirst : s.trace ++ [.start p.name (f.start 0)] <+: (s.call (.start f)).trace := by
        have he : s.app.plugins = p :: ps := hinv.plugins.trans hps
        simp only [Sys.call, App.start, he, App.startFrom]
        cases f.start 0 <;> exact ⟨_, by simp; rfl⟩
      exact absurd hrun (h.start_once _ _ _ hfirst)

/-- **The lifecycle of an App.**  Along every run of `Start` and `Stop` calls on an `App` returned
by `Build`, with any plugin failures, the trace is orderly exactly when every `Start` of the run
was called with no plugin started. -/
theorem orderly_iff_startsIdle {l : Loader} {r₀ r₁ r₂ r₃ : MapRange Plugin}
    (hbuild : l.build r₀ r₁ r₂ r₃ = .ok app) (hrun : (lifecycle app).Run LTS.anyStep calls s) :
    Orderly app.plugins s.trace ↔ (lifecycle app).Run startsIdle calls s := by
  have happ := Loader.build_ordered hbuild
  constructor
  · intro h
    induction hrun with
    | nil hi => exact .nil hi
    | @snoc calls s s' c hrun _ hst ih =>
      obtain rfl : s' = s.call c := hst
      have hinv := Sys.inv_of_run False happ (fun _ _ _ ho => ho.elim) hrun
      exact .snoc (ih (h.of_prefix (s.trace_call c))) (Sys.startsIdle_of_orderly hinv c h) rfl
  · intro h
    exact (Sys.inv_of_run True happ (fun _ _ hc _ => hc) h).sound.orderly

end Runs

/-- Two plugins, registered after and before what they depend on. -/
def pair : Loader where
  defaultRegistry := ⟨[{ name := "web", depends := ["db"] }, { name := "db" }], by decide⟩

/-- What `pair` builds. -/
def pairApp : App where
  plugins := [{ name := "db" }, { name := "web", depends := ["db"] }]

theorem pair_build : pair.build MapRange.inserted MapRange.inserted MapRange.inserted
    MapRange.inserted = .ok pairApp := by decide

/-- A start that fails, a start, a stop and another start. -/
theorem orderly_restart :
    Orderly pairApp.plugins
      (((((Sys.mk pairApp []).call (.start ⟨fun i => if i = 1 then some "no port" else none,
        fun _ => none⟩)).call (.start {})).call (.stop {})).call (.start {})).trace := by
  have h₁ : (lifecycle pairApp).Run startsIdle [] ⟨pairApp, []⟩ := .nil rfl
  have h₂ := h₁.extend (.start ⟨fun i => if i = 1 then some "no port" else none,
    fun _ => none⟩) rfl rfl
  have h₃ := ((h₂.extend (.start {}) rfl rfl).extend (.stop {}) trivial rfl).extend
    (.start {}) rfl rfl
  exact (orderly_iff_startsIdle pair_build h₃.unguarded).2 h₃

/-- A second `Start` of a started `App` starts its plugins once more. -/
theorem second_start_not_orderly :
    pair.build MapRange.inserted MapRange.inserted MapRange.inserted MapRange.inserted =
        .ok pairApp ∧
      (lifecycle pairApp).Run LTS.anyStep [.start {}, .start {}]
        (((Sys.mk pairApp []).call (.start {})).call (.start {})) ∧
      starts "db" (((Sys.mk pairApp []).call (.start {})).call (.start {})).trace = 2 ∧
      stops "db" (((Sys.mk pairApp []).call (.start {})).call (.start {})).trace = 0 ∧
      ¬ Orderly pairApp.plugins
        (((Sys.mk pairApp []).call (.start {})).call (.start {})).trace := by
  have h₁ : (lifecycle pairApp).Run LTS.anyStep [] ⟨pairApp, []⟩ := .nil rfl
  refine ⟨pair_build, (h₁.extend (.start {}) trivial rfl).extend (.start {}) trivial rfl,
    by decide, by decide, fun h => ?_⟩
  refine h.start_once [.start "db" none, .start "web" none, .startReturns none] "db" none ?_
    (by decide)
  exact ⟨[.start "web" none, .startReturns none], by decide⟩

end Kernel

end GinRpc
