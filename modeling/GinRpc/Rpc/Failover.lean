import GinRpc.Rpc.Client

/-!
# Targets in cooldown

`Cooling` says, from the transmissions alone, that a target is in cooldown: it has failed
`FailoverThreshold` consecutive times, has not succeeded since, and the cooldown has not elapsed.

* `Client.Tracks` : what the client remembers about a target agrees with that, if every outcome was
  recorded under the name of the target.
* `Client.failover_sound` : then `selectHealthyTarget` chooses no target in cooldown while another
  discovered one is not, and a success resets the count of failures.
* `Client.cooldown_ignored` : JSON-RPC records under another name, and gRPC keeps a connection
  whatever its target does.
-/

namespace GinRpc

namespace RpcClient

/-! ### What the transmissions say -/

/-- The outcome was recorded under the name of the target. -/
def Use.Direct (u : Use) : Prop := u.recordedAs = u.target ∧ u.target ≠ []

/-- The consecutive failures of a target, counted from the end -/
def streak (target : Text) (log : List Use) : ℕ :=
  ((log.reverse.filter fun u => u.target = target).takeWhile fun u => !u.ok).length

/-- At time `t` the target is in cooldown. -/
def Cooling (cfg : ClientConfig) (log : List Use) (target : Text) (t : ℤ) : Prop :=
  ∃ pre u post, log = pre ++ u :: post ∧ u.target = target ∧ u.ok = false ∧
    cfg.threshold ∣ streak target (pre ++ [u]) ∧
    (∀ v ∈ post, v.target = target → v.ok = false) ∧ t < u.ended + cfg.cooldown

variable {cfg : ClientConfig} {log : List Use} {u : Use} {target : Text} {t : ℤ}

theorem streak_snoc_of_ne (h : u.target ≠ target) :
    streak target (log ++ [u]) = streak target log := by
  simp [streak, h]

theorem streak_snoc_ok (h : u.target = target) (hok : u.ok = true) :
    streak target (log ++ [u]) = 0 := by
  simp [streak, h, hok]

theorem streak_snoc_failed (h : u.target = target) (hok : u.ok = false) :
    streak target (log ++ [u]) = streak target log + 1 := by
  simp [streak, h, hok]

theorem cooling_snoc : Cooling cfg (log ++ [u]) target t ↔
    (u.target = target ∧ u.ok = false ∧ cfg.threshold ∣ streak target (log ++ [u]) ∧
      t < u.ended + cfg.cooldown) ∨
    Cooling cfg log target t ∧ (u.target = target → u.ok = false) := by
  constructor
  · rintro ⟨pre, v, post, heq, htarget, hok, hdvd, hpost, ht⟩
    obtain rfl | ⟨post', w, rfl⟩ := List.eq_nil_or_concat post
    · obtain ⟨rfl, hu⟩ := List.append_inj' heq rfl
      cases hu
      exact .inl ⟨htarget, hok, hdvd, ht⟩
    · rw [List.concat_eq_append, ← List.cons_append, ← List.append_assoc] at heq
      obtain ⟨rfl, hu⟩ := List.append_inj' heq rfl
      cases hu
      rw [List.concat_eq_append, List.forall_mem_append] at hpost
      exact .inr ⟨⟨pre, v, post', rfl, htarget, hok, hdvd, hpost.1, ht⟩,
        hpost.2 u List.mem_cons_self⟩
  · rintro (⟨htarget, hok, hdvd, ht⟩ | ⟨⟨pre, v, post, rfl, htarget, hok, hdvd, hpost, ht⟩, hu⟩)
    · exact ⟨log, u, [], rfl, htarget, hok, hdvd, (fun v hv => by cases hv), ht⟩
    · refine ⟨pre, v, post ++ [u], by simp, htarget, hok, hdvd, fun w hw => ?_, ht⟩
      obtain hw | hw := List.mem_append.1 hw
      · exact hpost w hw
      · rw [List.mem_singleton.1 hw]
        exact hu

/-- A cooldown ends no later than one that would begin at the last transmission. -/
theorem Cooling.lt_of_mono (h : Cooling cfg log target t) {last : ℤ}
    (hmono : ∀ v ∈ log, v.ended ≤ last) : t < last + cfg.cooldown := by
  obtain ⟨pre, v, post, rfl, -, -, -, -, ht⟩ := h
  have hv := hmono v (List.mem_append_right pre List.mem_cons_self)
  omega

theorem not_cooling_of_unused (h : ∀ u ∈ log, u.target ≠ target) : ¬Cooling cfg log target t := by
  rintro ⟨pre, u, post, rfl, htarget, -⟩
  exact h u (List.mem_append_right pre List.mem_cons_self) htarget

namespace Client

/-! ### What the client remembers -/

/-- The ejection in a state of the failover map -/
def ejection (h : Option TargetHealth) : Option ℤ := h.bind TargetHealth.ejectedUntil

/-- What is remembered about a target agrees with the transmissions. -/
structure Tracks (cfg : ClientConfig) (log : List Use) (target : Text) (h : Option TargetHealth) :
    Prop where
  failures : (h.getD ⟨0, none⟩).failures = streak target log % cfg.threshold
  cooling : ∀ t, (∃ e, ejection h = some e ∧ t < e) ↔ Cooling cfg log target t

variable {h : Option TargetHealth}

theorem threshold_pos (cfg : ClientConfig) : 0 < cfg.threshold := by
  unfold ClientConfig.threshold
  split_ifs <;> omega

theorem Tracks.other (ht : Tracks cfg log target h) (hne : u.target ≠ target) :
    Tracks cfg (log ++ [u]) target h := by
  refine ⟨by rw [streak_snoc_of_ne hne, ht.failures], fun t => ?_⟩
  rw [ht.cooling, cooling_snoc]
  constructor
  · exact fun hc => .inr ⟨hc, fun heq => absurd heq hne⟩
  · rintro (⟨heq, -⟩ | ⟨hc, -⟩)
    · exact absurd heq hne
    · exact hc

theorem tracks_ok (htarget : u.target = target) (hok : u.ok = true) :
    Tracks cfg (log ++ [u]) target none := by
  refine ⟨by rw [streak_snoc_ok htarget hok, Nat.zero_mod]; rfl, fun t => ?_⟩
  rw [cooling_snoc]
  constructor
  · rintro ⟨e, he, -⟩
    cases he
  · rintro (⟨-, hf, -⟩ | ⟨-, hf⟩)
    · cases hok.symm.trans hf
    · cases hok.symm.trans (hf htarget)

theorem Tracks.failed (ht : Tracks cfg log target h) (hmono : ∀ v ∈ log, v.ended ≤ u.ended)
    (htarget : u.target = target) (hok : u.ok = false) :
    Tracks cfg (log ++ [u]) target (some
      (if cfg.threshold ≤ (h.getD ⟨0, none⟩).failures + 1 then ⟨0, some (u.ended + cfg.cooldown)⟩
        else ⟨(h.getD ⟨0, none⟩).failures + 1, (h.getD ⟨0, none⟩).ejectedUntil⟩)) := by
  have hfail := ht.failures
  have hlt := Nat.mod_lt (streak target log) (threshold_pos cfg)
  have hstreak : streak target (log ++ [u]) = _ := streak_snoc_failed htarget hok
  have hmod : (streak target log + 1) % cfg.threshold =
      (streak target log % cfg.threshold + 1) % cfg.threshold := by
    rw [Nat.mod_add_mod]
  by_cases hth : cfg.threshold ≤ (h.getD ⟨0, none⟩).failures + 1
  · -- the failures reach the threshold, and a new cooldown begins
    rw [if_pos hth]
    have hzero : streak target (log ++ [u]) % cfg.threshold = 0 := by
      rw [hstreak, hmod, show streak target log % cfg.threshold + 1 = cfg.threshold by omega,
        Nat.mod_self]
    refine ⟨hzero.symm, fun t => ?_⟩
    rw [cooling_snoc]
    constructor
    · rintro ⟨e, he, hte⟩
      cases he
      exact .inl ⟨htarget, hok, Nat.dvd_of_mod_eq_zero hzero, hte⟩
    · rintro (⟨-, -, -, hte⟩ | ⟨hc, -⟩)
      · exact ⟨_, rfl, hte⟩
      · exact ⟨_, rfl, hc.lt_of_mono hmono⟩
  · rw [if_neg hth]
    have hnext : streak target (log ++ [u]) % cfg.threshold =
        (h.getD ⟨0, none⟩).failures + 1 := by
      rw [hstreak, hmod, ← hfail, Nat.mod_eq_of_lt (not_le.1 hth)]
    refine ⟨hnext.symm, fun t => ?_⟩
    have hej : ejection (some ⟨(h.getD ⟨0, none⟩).failures + 1, (h.getD ⟨0, none⟩).ejectedUntil⟩) =
        ejection h := by
      cases h <;> rfl
    rw [hej, ht.cooling, cooling_snoc]
    constructor
    · exact fun hc => .inr ⟨hc, fun _ => hok⟩
    · rintro (⟨-, -, hdvd, -⟩ | ⟨hc, -⟩)
      · rw [Nat.mod_eq_zero_of_dvd hdvd] at hnext
        cases hnext
      · exact hc

/-! ### One transmission -/

/-- A target that `selectHealthyTarget` has chosen is in cooldown only if all discovered targets
are. -/
def Chosen (cfg : ClientConfig) (c : Client) (target : Text) : Prop :=
  (∀ u ∈ c.log, u.Direct) → Cooling cfg c.log target c.now →
    ∀ d ∈ c.discovered, Cooling cfg c.log d c.now

structure Good (cfg : ClientConfig) (c : Client) : Prop where
  ended : ∀ u ∈ c.log, u.ended ≤ c.now
  tracks : (∀ u ∈ c.log, u.Direct) → ∀ target, Tracks cfg c.log target (c.failover.lookup target)
  undiscovered : cfg.discovery = false ∨ cfg.serviceName = [] → c.discovered = []
  used : ∀ pre u post, c.log = pre ++ u :: post → (∀ v ∈ pre, v.Direct) → u.filtered = true →
    Cooling cfg pre u.target u.began → ∀ d ∈ u.discovered, Cooling cfg pre d u.began

variable {c : Client}

theorem Good.wait (h : c.Good cfg) (d : ℕ) : Good cfg { c with now := c.now + d } := by
  refine ⟨fun u hu => ?_, h.tracks, h.undiscovered, h.used⟩
  have := h.ended u hu
  dsimp only
  omega

/-- What is remembered about a target after a transmission under its name -/
def nextHealth (cfg : ClientConfig) (u : Use) (h : Option TargetHealth) : Option TargetHealth :=
  if u.ok then none
  else some
    (if cfg.threshold ≤ (h.getD ⟨0, none⟩).failures + 1 then ⟨0, some (u.ended + cfg.cooldown)⟩
      else ⟨(h.getD ⟨0, none⟩).failures + 1, (h.getD ⟨0, none⟩).ejectedUntil⟩)

theorem Tracks.next (ht : Tracks cfg log target h) (hmono : ∀ v ∈ log, v.ended ≤ u.ended)
    (htarget : u.target = target) : Tracks cfg (log ++ [u]) target (nextHealth cfg u h) := by
  unfold nextHealth
  cases hok : u.ok with
  | true => exact tracks_ok htarget hok
  | false => exact ht.failed hmono htarget hok

theorem transmit_spec (cfg : ClientConfig) (c : Client) (target : Text) (filtered : Bool)
    (recordedAs : Text) (a : Attempt) : ∃ f, c.transmit cfg target filtered recordedAs a =
      { c with
        now := c.now + a.took
        failover := f
        log := c.log ++ [c.use target filtered recordedAs a] } ∧
      (recordedAs ≠ [] → ∀ name, f.lookup name = if name = recordedAs then
        nextHealth cfg (c.use target filtered recordedAs a) (c.failover.lookup name)
        else c.failover.lookup name) := by
  by_cases hname : recordedAs = []
  · refine ⟨c.failover, ?_, fun h => absurd hname h⟩
    rw [transmit, recordSuccess, recordFailure, if_pos hname, if_pos hname, ite_self]
  · rw [transmit, recordSuccess, recordFailure, if_neg hname, if_neg hname]
    cases hok : a.outcome.isNone with
    | true =>
      refine ⟨_, rfl, fun _ name => ?_⟩
      by_cases heq : name = recordedAs
      · rw [if_pos heq, heq, AList.lookup_erase, nextHealth, use, if_pos hok]
      · rw [if_neg heq]
        exact AList.lookup_erase_ne heq
    | false =>
      refine ⟨_, rfl, fun _ name => ?_⟩
      by_cases heq : name = recordedAs
      · rw [if_pos heq, heq, AList.lookup_insert]
        exact (if_neg (by simp [use, hok])).symm
      · rw [if_neg heq]
        exact AList.lookup_insert_ne heq

theorem Good.transmit (hc : c.Good cfg) {filtered : Bool} {recordedAs : Text} {a : Attempt}
    (hchosen : filtered = true → c.Chosen cfg target) :
    (c.transmit cfg target filtered recordedAs a).Good cfg := by
  obtain ⟨f, heq, hf⟩ := transmit_spec cfg c target filtered recordedAs a
  rw [heq]
  have hmono : ∀ v ∈ c.log, v.ended ≤ c.now + a.took := fun v hv =>
    (hc.ended v hv).trans (le_add_of_nonneg_right (Int.natCast_nonneg a.took))
  refine ⟨?_, fun hdirect name => ?_, hc.undiscovered, fun pre u post hlog hpre hu hcool => ?_⟩
  · rw [List.forall_mem_append, List.forall_mem_singleton]
    exact ⟨hmono, le_refl _⟩
  · rw [List.forall_mem_append, List.forall_mem_singleton] at hdirect
    obtain ⟨hbefore, hrec, hne⟩ := hdirect
    have htracks := hc.tracks hbefore name
    rw [hf (fun h => hne (hrec.symm.trans h)) name]
    split_ifs with hname
    · exact htracks.next hmono (hrec.symm.trans hname.symm)
    · exact htracks.other fun htarget => hname (htarget.symm.trans hrec.symm)
  · -- the last transmission is the new one
    obtain rfl | ⟨post', w, rfl⟩ := List.eq_nil_or_concat post
    · obtain ⟨rfl, hlast⟩ := List.append_inj' hlog rfl
      cases hlast
      exact hchosen hu hpre hcool
    · rw [List.concat_eq_append, ← List.cons_append, ← List.append_assoc] at hlog
      exact hc.used pre u post' (List.append_inj' hlog rfl).1 hpre hu hcool

/-! ### Choosing a target -/

theorem ejected_iff (c : Client) (target : Text) :
    c.ejected target = true ↔ ∃ e, ejection (c.failover.lookup target) = some e ∧ c.now < e := by
  unfold ejected ejection
  obtain _ | ⟨n, _ | e⟩ := c.failover.lookup target
  · simp
  · simp
  · simp

theorem Good.of_frame (hc : c.Good cfg) {c' : Client} (hnow : c'.now = c.now)
    (hlog : c'.log = c.log) (hfailover : c'.failover = c.failover)
    (hdisc : c'.discovered = c.discovered ∨ cfg.discovery = true ∧ cfg.serviceName ≠ []) :
    c'.Good cfg := by
  refine ⟨by rw [hnow, hlog]; exact hc.ended, by rw [hlog, hfailover]; exact hc.tracks,
    fun hstatic => ?_, by rw [hlog]; exact hc.used⟩
  obtain hdisc | ⟨hd, hs⟩ := hdisc
  · rw [hdisc]
    exact hc.undiscovered hstatic
  · obtain h | h := hstatic
    · cases hd.symm.trans h
    · exact absurd h hs

theorem Good.selectHealthyTarget (hc : c.Good cfg) {pick : ℕ} {targets : List Text} {c' : Client}
    (hdisc : c.discovered = targets)
    (h : c.selectHealthyTarget cfg pick targets = some (target, c')) :
    c'.Good cfg ∧ c'.Chosen cfg target := by
  obtain ⟨hmem, n, rfl⟩ := select_spec h
  refine ⟨hc.of_frame rfl rfl rfl (.inl rfl), fun hdirect hcool d hd => ?_⟩
  have hejected : ∀ name, c.ejected name = true ↔ Cooling cfg c.log name c.now := fun name =>
    (ejected_iff c name).trans ((hc.tracks hdirect name).cooling c.now)
  split_ifs at hmem with hempty
  · -- every discovered target is ejected
    have hall := List.filter_eq_nil_iff.1 (List.isEmpty_iff.1 hempty) d (hdisc ▸ hd)
    exact (hejected d).1 (by simpa using hall)
  · have havail := (List.mem_filter.1 hmem).2
    rw [(hejected target).2 hcool] at havail
    cases havail

theorem Good.resolve (hc : c.Good cfg) (a : Attempt) (format : Text × ℤ → Text) (static : Text) :
    (c.resolve cfg a format static).1.Good cfg ∧
      ∀ target, (c.resolve cfg a format static).2 = .ok (target, true) →
        (c.resolve cfg a format static).1.Chosen cfg target := by
  fun_cases Client.resolve cfg c a format static with
  | case1 target c₁ h =>
    obtain ⟨n, rfl⟩ := getCachedTarget_spec h
    exact ⟨hc.of_frame rfl rfl rfl (.inl rfl), fun _ heq => by cases heq⟩
  | case2 _ hstatic =>
    refine ⟨hc, fun target _ _ _ d hd => ?_⟩
    rw [hc.undiscovered (by simpa using hstatic)] at hd
    cases hd
  | case3 => exact ⟨hc, fun _ heq => by cases heq⟩
  | case4 => exact ⟨hc, fun _ heq => by cases heq⟩
  | case5 _ hdyn i rest _ targets c₁ target c₂ h =>
    have hdyn : cfg.discovery = true ∧ cfg.serviceName ≠ [] := by simpa using hdyn
    have hc₁ : c₁.Good cfg := hc.of_frame rfl rfl rfl (.inr hdyn)
    obtain ⟨hgood, hchosen⟩ := hc₁.selectHealthyTarget rfl h
    refine ⟨hgood, fun target' heq => ?_⟩
    cases heq
    exact hchosen
  | case6 _ hdyn i rest _ targets c₁ h =>
    have hdyn : cfg.discovery = true ∧ cfg.serviceName ≠ [] := by simpa using hdyn
    exact ⟨hc.of_frame rfl rfl rfl (.inr hdyn), fun _ heq => by cases heq⟩

/-! ### Calls -/

theorem Good.connect (hc : c.Good cfg) (a : Attempt) : (c.connect cfg a).1.Good cfg ∧
    ∀ target, (c.connect cfg a).2 = .ok (target, true) →
      (c.connect cfg a).1.Chosen cfg target := by
  have hres := hc.resolve a (fun i => hostPort i.1 i.2) (hostPort cfg.host cfg.port)
  unfold Client.connect
  generalize c.resolve cfg a _ _ = r at hres
  obtain ⟨c₁, e | ⟨target, filtered⟩⟩ := r
  · exact ⟨hres.1, fun _ heq => by cases heq⟩
  · dsimp only
    cases a.dial with
    | some e => exact ⟨hres.1.of_frame rfl rfl rfl (.inl rfl), fun _ heq => by cases heq⟩
    | none => exact ⟨hres.1.of_frame rfl rfl rfl (.inl rfl), hres.2⟩

theorem Good.connection (hc : c.Good cfg) (a : Attempt) : (c.connection cfg a).1.Good cfg ∧
    ∀ target recordedAs, (c.connection cfg a).2 = .ok (target, true, recordedAs) →
      (c.connection cfg a).1.Chosen cfg target := by
  have hconn := hc.connect a
  unfold Client.connection
  cases c.conn with
  | some target => exact ⟨hc, fun _ _ heq => by cases heq⟩
  | none =>
    generalize c.connect cfg a = r at hconn
    obtain ⟨c₁, e | ⟨target, filtered⟩⟩ := r
    · exact ⟨hconn.1, fun _ _ heq => by cases heq⟩
    · refine ⟨hconn.1, fun target' _ heq => hconn.2 target' ?_⟩
      cases heq
      rfl

theorem Good.invokeOnce (hc : c.Good cfg) (a : Attempt) : (c.invokeOnce cfg a).1.Good cfg := by
  have hconn := hc.connection a
  unfold Client.invokeOnce
  generalize c.connection cfg a = r at hconn
  obtain ⟨c₁, e | ⟨target, filtered, recordedAs⟩⟩ := r
  · exact hconn.1
  · exact hconn.1.transmit fun hfiltered => hconn.2 target recordedAs (by rw [hfiltered])

theorem Good.invokeLoop (method : Text) (start : ℤ) (attempt : ℕ → Attempt) (n k : ℕ)
    (lastErr : Option Code) (hc : c.Good cfg) :
    (invokeLoop cfg method start attempt n k c lastErr).1.Good cfg := by
  induction n generalizing k c lastErr with
  | zero => exact hc
  | succ n ih =>
    have hwait := hc.wait (attempt k).wait
    rw [Client.invokeLoop]
    split_ifs with hover
    · exact hwait
    · have honce := hwait.invokeOnce (attempt k)
      generalize Client.invokeOnce cfg _ (attempt k) = r at honce
      obtain ⟨c₂, _ | e⟩ := r
      · exact honce
      · dsimp only
        split_ifs with hretry
        · exact ih (k + 1) (some e) (honce.of_frame rfl rfl rfl (.inl rfl))
        · exact honce

theorem Good.refreshBaseURL (hc : c.Good cfg) (a : Attempt) :
    (c.refreshBaseURL cfg a).1.Good cfg ∧ ((c.refreshBaseURL cfg a).2 = .ok true →
      (c.refreshBaseURL cfg a).1.Chosen cfg (c.refreshBaseURL cfg a).1.baseURL) := by
  unfold Client.refreshBaseURL
  dsimp only
  have hres := hc.resolve a (fun i =>
    (if cfg.enableTLS then "https" else "http" : Text) ++ ("://" : Text) ++ hostPort i.1 i.2)
    c.baseURL
  generalize c.resolve cfg a _ _ = r at hres
  obtain ⟨c₁, e | ⟨target, filtered⟩⟩ := r
  · exact ⟨hres.1, fun heq => by cases heq⟩
  · refine ⟨hres.1.of_frame rfl rfl rfl (.inl rfl), fun heq => hres.2 target ?_⟩
    cases heq
    rfl

/-- Only the first transmission of the loop is the one that its URL was chosen for. -/
theorem Good.requestLoop (url : Text) (filtered : Bool) (attempt : ℕ → Attempt) (n k : ℕ)
    (lastErr : Option Code) (hc : c.Good cfg)
    (hchosen : filtered = true → k = 0 → c.Chosen cfg url) :
    (requestLoop cfg url filtered attempt n k c lastErr).1.Good cfg := by
  induction n generalizing k c lastErr with
  | zero => exact hc
  | succ n ih =>
    have hsent : (c.transmit cfg url (filtered && k = 0) (urlHost url) (attempt k)).Good cfg :=
      hc.transmit fun h => hchosen (Bool.and_eq_true_iff.1 h).1
        (of_decide_eq_true (Bool.and_eq_true_iff.1 h).2)
    rw [Client.requestLoop]
    cases (attempt k).outcome with
    | none => exact hsent
    | some e =>
      have hinv : (c.transmit cfg url (filtered && k = 0) (urlHost url)
        (attempt k)).invalidateTargets.Good cfg := hsent.of_frame rfl rfl rfl (.inl rfl)
      exact ih (k + 1) (some e) (hinv.wait _) fun _ hk => absurd hk (Nat.succ_ne_zero k)

theorem Good.request (hc : c.Good cfg) (attempt : ℕ → Attempt) :
    (c.request cfg attempt).1.Good cfg := by
  have hurl := hc.refreshBaseURL (attempt 0)
  unfold Client.request
  generalize c.refreshBaseURL cfg (attempt 0) = r at hurl
  obtain ⟨c₁, e | filtered⟩ := r
  · exact hurl.1
  · exact hurl.1.requestLoop _ _ _ _ _ _ fun hfiltered _ => hurl.2 (by rw [hfiltered])

theorem Good.call (hc : c.Good cfg) (method : Text) (inp : CallInput) :
    (c.call cfg method inp).1.Good cfg := by
  unfold Client.call
  split_ifs with hallowed hpermitted
  · exact hc
  · cases cfg.type with
    | grpc => exact hc
    | jsonrpc => exact hc
  · cases cfg.type with
    | grpc => exact hc.invokeLoop _ _ _ _ _ _
    | jsonrpc => exact hc.request _

theorem good_newClient (cfg : ClientConfig) : (newClient cfg).Good cfg where
  ended _ hu := by cases hu
  tracks _ target := by
    refine ⟨rfl, fun t => ⟨?_, fun hcool => ?_⟩⟩
    · rintro ⟨e, he, -⟩
      cases he
    · exact absurd hcool (not_cooling_of_unused fun _ hu => by cases hu)
  undiscovered _ := rfl
  used pre u post hlog := by
    cases pre <;> cases hlog

theorem good_of_run {tr : List Act} (hr : (lts cfg).Run LTS.anyStep tr c) : c.Good cfg := by
  refine hr.invariant (fun c hinit => ?_) fun c a c' hc _ hst => ?_
  · rw [show c = newClient cfg from hinit]
    exact good_newClient cfg
  · obtain rfl : c.step cfg a = c' := hst
    cases a with
    | call method inp => exact hc.call method inp
    | wait d => exact hc.wait d

/-- The target is looked for unless one is cached. -/
theorem filtered_resolve {a : Attempt} {format : Text × ℤ → Text} {static : Text} {filtered : Bool}
    (h : (c.resolve cfg a format static).2 = .ok (target, filtered)) :
    filtered = true ↔ c.getCachedTarget cfg a.pick = none := by
  unfold resolve at h
  cases hcached : c.getCachedTarget cfg a.pick with
  | some r =>
    rw [hcached] at h
    cases h
    simp
  | none =>
    rw [hcached] at h
    dsimp only at h
    split_ifs at h
    · cases h
      simp
    · split at h
      · cases h
      · cases h
      · split at h <;> cases h
        simp

/-- What is logged about a transmission, from the client before it -/
theorem logged_connection {a : Attempt} {filtered : Bool} {recordedAs : Text}
    (h : (c.connection cfg a).2 = .ok (target, filtered, recordedAs)) :
    (filtered = true ↔ c.conn = none ∧ c.getCachedTarget cfg a.pick = none) ∧
      recordedAs = if c.conn = none then target else [] := by
  unfold connection at h
  cases hconn : c.conn with
  | some old =>
    rw [hconn] at h
    cases h
    simp
  | none =>
    rw [hconn] at h
    have hresolve := @filtered_resolve cfg target c a (fun i => hostPort i.1 i.2)
      (hostPort cfg.host cfg.port) filtered
    dsimp only [connect] at h
    generalize c.resolve cfg a _ _ = r at h hresolve
    obtain ⟨c₁, e | ⟨target', filtered'⟩⟩ := r
    · cases h
    · cases hdial : a.dial with
      | some e =>
        rw [hdial] at h
        cases h
      | none =>
        rw [hdial] at h
        cases h
        exact ⟨(hresolve rfl).trans (by simp), rfl⟩

/-- A target in cooldown is not chosen while another discovered one is not in cooldown, and a
success resets the count of failures, if the outcomes are recorded under the target's name.  In gRPC
a target is chosen, and its outcome recorded under its name, if the client has no connection and no
cached target before the attempt. -/
theorem failover_sound {tr : List Act} (hr : (lts cfg).Run LTS.anyStep tr c) :
    (∀ (a : Attempt) target filtered recordedAs,
      (c.connection cfg a).2 = .ok (target, filtered, recordedAs) →
      (filtered = true ↔ c.conn = none ∧ c.getCachedTarget cfg a.pick = none) ∧
        recordedAs = if c.conn = none then target else []) ∧
    (∀ pre u post, c.log = pre ++ u :: post → (∀ v ∈ pre, v.Direct) → u.filtered = true →
      (∃ d ∈ u.discovered, ¬Cooling cfg pre d u.began) → ¬Cooling cfg pre u.target u.began) ∧
    ((∀ u ∈ c.log, u.Direct) → ∀ target,
      ((c.failover.lookup target).getD ⟨0, none⟩).failures =
        streak target c.log % cfg.threshold) := by
  have hgood := good_of_run hr
  refine ⟨fun _ _ _ _ => logged_connection, fun pre u post hlog hdirect hu hother hcool => ?_,
    fun hdirect target => (hgood.tracks hdirect target).failures⟩
  obtain ⟨d, hd, hfree⟩ := hother
  exact hfree (hgood.used pre u post hlog hdirect hu hcool d hd)

/-- One failure ejects a target, and the discovery knows two. -/
def ejectsAtOnce (type : ClientType) : ClientConfig where
  type := type
  host := []
  port := 0
  enableTLS := false
  serviceName := ['s']
  discovery := true
  loadBalance := "random"
  retryCount := 1
  idempotentMethods := []
  maxRetryElapsedTime := 0
  discoveryCacheTTL := 0
  failoverThreshold := 1
  failoverCooldown := 0

/-- A call that would go to the first target -/
def toFirst (outcome : Option Code) : Act := .call ['m']
  { attempt := fun _ => { instances := .ok [(['a'], 1), (['b'], 1)], outcome := outcome } }

/-- Two such calls -/
def twice (type : ClientType) (e : Code) : Client :=
  ((newClient (ejectsAtOnce type)).step (ejectsAtOnce type) (toFirst (some e))).step
    (ejectsAtOnce type) (toFirst none)

theorem run_twice (type : ClientType) (e : Code) :
    (lts (ejectsAtOnce type)).Run LTS.anyStep [toFirst (some e), toFirst none] (twice type e) := by
  have h₀ : (lts (ejectsAtOnce type)).Run LTS.anyStep [] (newClient (ejectsAtOnce type)) := .nil rfl
  exact (h₀.extend (toFirst (some e)) trivial rfl).extend (toFirst none) trivial rfl

/-- A transmission at time 0 -/
def useNow (discovered : List Text) (target recordedAs : Text) (filtered ok : Bool) : Use where
  target := target
  discovered := discovered
  began := 0
  filtered := filtered
  ok := ok
  ended := 0
  recordedAs := recordedAs

theorem cooling_failed (type : ClientType) (hfail : u.ok = false) (hnow : u.ended = 0) :
    Cooling (ejectsAtOnce type) [u] u.target 0 := by
  refine ⟨[], u, [], rfl, rfl, hfail, one_dvd _, (fun _ hv => by cases hv), ?_⟩
  rw [hnow]
  cases type <;> decide

/-- The first target fails, and the second call goes to the other one. -/
theorem failover_sound_ejected :
    ∃ tr c u v, (lts (ejectsAtOnce .grpc)).Run LTS.anyStep tr c ∧ c.log = [u, v] ∧
      u.target ∈ v.discovered ∧ Cooling (ejectsAtOnce .grpc) [u] u.target v.began ∧
      ¬Cooling (ejectsAtOnce .grpc) [u] v.target v.began := by
  have hlog : (twice .grpc .unavailable).log =
      [useNow ["a:1", "b:1"] "a:1" "a:1" true false,
        useNow ["a:1", "b:1"] "b:1" "b:1" true true] := by
    decide
  refine ⟨_, _, _, _, run_twice .grpc .unavailable, hlog, by decide, cooling_failed _ rfl rfl, ?_⟩
  refine (failover_sound (run_twice .grpc .unavailable)).2.1 [_] _ [] hlog ?_ rfl ?_
  · rw [List.forall_mem_singleton]
    exact ⟨rfl, by decide⟩
  · refine ⟨"b:1", by decide, not_cooling_of_unused ?_⟩
    rw [List.forall_mem_singleton]
    decide

/-- A target in cooldown is used again while another one is not in cooldown: JSON-RPC has recorded
its failure under another name, and gRPC keeps the connection. -/
theorem cooldown_ignored :
    (∃ tr c u v, (lts (ejectsAtOnce .jsonrpc)).Run LTS.anyStep tr c ∧ c.log = [u, v] ∧
      v.filtered = true ∧ Cooling (ejectsAtOnce .jsonrpc) [u] v.target v.began ∧
      ∃ d ∈ v.discovered, ¬Cooling (ejectsAtOnce .jsonrpc) [u] d v.began) ∧
    ∃ tr c u v, (lts (ejectsAtOnce .grpc)).Run LTS.anyStep tr c ∧ c.log = [u, v] ∧
      u.Direct ∧ Cooling (ejectsAtOnce .grpc) [u] v.target v.began ∧
      ∃ d ∈ v.discovered, ¬Cooling (ejectsAtOnce .grpc) [u] d v.began := by
  constructor
  · have hlog : (twice .jsonrpc .plain).log =
        [useNow ["http://a:1", "http://b:1"] "http://a:1" "a:1" true false,
          useNow ["http://a:1", "http://b:1"] "http://a:1" "a:1" true true] := by
      decide
    refine ⟨_, _, _, _, run_twice .jsonrpc .plain, hlog, rfl, cooling_failed _ rfl rfl,
      "http://b:1", by decide, not_cooling_of_unused ?_⟩
    rw [List.forall_mem_singleton]
    decide
  · have hlog : (twice .grpc .other).log =
        [useNow ["a:1", "b:1"] "a:1" "a:1" true false,
          useNow ["a:1", "b:1"] "a:1" [] false true] := by
      decide
    refine ⟨_, _, _, _, run_twice .grpc .other, hlog, ⟨rfl, by decide⟩, cooling_failed _ rfl rfl,
      "b:1", by decide, not_cooling_of_unused ?_⟩
    rw [List.forall_mem_singleton]
    decide

end Client

end RpcClient

end GinRpc
