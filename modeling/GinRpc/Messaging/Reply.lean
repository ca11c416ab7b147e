import GinRpc.LTS.Fairness
import GinRpc.Text.Basic

/-!
# Requests and replies over topics

Model of `Request` and `HandleRequests` in `plugins/messaging/reply.go`, over a client that delivers
each published message to the subscribers of its topic, as often and in whatever order it likes, and
whose `Subscribe` and `Publish` return no error.  Envelopes survive `json.Marshal` and
`json.Unmarshal`, and a new correlation id is one that has not occurred, neither in a request nor in
the topic that the handlers serve.

A handler's function may return different results for one payload; `fn h p out` says that the
function of handler `h` can return `out` for the payload `p`.

* `Envelope.Answers` : the envelope is the reply of some handler to a request.
* `request_spec` : a request that has returned has the reply of a handler to its own payload, a
  handler's error for it, a timeout or an error of its context; and every request returns.
-/

namespace GinRpc

namespace Messaging

abbrev Payload := List UInt8

/-- `ReplyEnvelope` -/
structure Envelope where
  correlationID : Text
  replyTo : Text := ""
  isError : Bool := false
  payload : Payload
  deriving DecidableEq, Repr

/-- What the function of a handler returns -/
abbrev Output := Except Payload Payload

/-- What `Request` returns -/
inductive Outcome where
  /-- the payload, with a `ReplyError` if the envelope says so -/
  | replied (env : Envelope)
  /-- `ErrRequestTimeout` -/
  | timeout
  /-- `ctx.Err()` -/
  | cancelled
  deriving DecidableEq, Repr

/-- A call of `Request` -/
structure Request where
  correlationID : Text
  payload : Payload
  published : Bool := false
  /-- the channel of capacity one -/
  got : Option Envelope := none
  outcome : Option Outcome := none
  deriving DecidableEq, Repr

/-- `replyTo` -/
def replyTopic (correlationID : Text) : Text := "reply." ++ correlationID

namespace Request

variable (r : Request)

/-- The envelope that is published -/
def envelope : Envelope :=
  { correlationID := r.correlationID
    replyTo := replyTopic r.correlationID
    payload := r.payload }

/-- The handler of the subscription: a second reply finds the channel full. -/
def receive (env : Envelope) : Request := { r with got := some (r.got.getD env) }

end Request

/-- `HandleRequests`: the envelope that is published, to `env.ReplyTo` -/
def respond (env : Envelope) : Output → Envelope
  | .ok out => { correlationID := env.correlationID, payload := out }
  | .error err => { correlationID := env.correlationID, isError := true, payload := err }

structure State where
  requests : ℕ → Option Request := fun _ => none
  /-- everything that was published, with its topic -/
  messages : List (Text × Envelope) := []

inductive Act where
  /-- `Request` begins and subscribes to its reply topic. -/
  | request (i : ℕ) (correlationID : Text) (payload : Payload)
  | publish (i : ℕ)
  /-- a message is delivered to handler `h`, whose function returns `out` -/
  | serve (h : ℕ) (env : Envelope) (out : Output)
  /-- a message is delivered to the subscription of a request -/
  | deliver (i : ℕ) (env : Envelope)
  /-- the select of `Request` receives a reply, the timer, or the end of the context -/
  | reply (i : ℕ)
  | timer (i : ℕ)
  | done (i : ℕ)
  deriving DecidableEq

/-- The request that takes the step -/
def Act.actor : Act → Option ℕ
  | .publish i | .reply i | .timer i | .done i => some i
  | .request _ _ _ | .serve _ _ _ | .deliver _ _ => none

namespace State

variable (s : State)

def setRequest (i : ℕ) (r : Request) : State :=
  { s with requests := Function.update s.requests i (some r) }

/-- The id occurs nowhere. -/
def Unused (topic correlationID : Text) : Prop :=
  replyTopic correlationID ≠ topic ∧
    ∀ i r, s.requests i = some r → r.correlationID ≠ correlationID

/-- The steps of requests, handlers and the client -/
inductive Step (topic : Text) (fn : ℕ → Payload → Output → Prop) : State → Act → State → Prop
  | request {s : State} {i : ℕ} {correlationID : Text} {payload : Payload} :
      s.requests i = none → s.Unused topic correlationID →
      Step topic fn s (.request i correlationID payload)
        (s.setRequest i { correlationID := correlationID, payload := payload })
  | publish {s : State} {i : ℕ} {r : Request} : s.requests i = some r → r.published = false →
      Step topic fn s (.publish i) { s.setRequest i { r with published := true } with
        messages := s.messages ++ [(topic, r.envelope)] }
  | serve {s : State} {h : ℕ} {env : Envelope} {out : Output} : (topic, env) ∈ s.messages →
      env.replyTo ≠ "" → fn h env.payload out →
      Step topic fn s (.serve h env out)
        { s with messages := s.messages ++ [(env.replyTo, respond env out)] }
  | deliver {s : State} {i : ℕ} {r : Request} {env : Envelope} : s.requests i = some r →
      (replyTopic r.correlationID, env) ∈ s.messages →
      Step topic fn s (.deliver i env) (s.setRequest i (r.receive env))
  | reply {s : State} {i : ℕ} {r : Request} {env : Envelope} : s.requests i = some r →
      r.published = true → r.outcome = none → r.got = some env →
      Step topic fn s (.reply i)
        (s.setRequest i { r with got := none, outcome := some (.replied env) })
  | timer {s : State} {i : ℕ} {r : Request} : s.requests i = some r → r.published = true →
      r.outcome = none →
      Step topic fn s (.timer i) (s.setRequest i { r with outcome := some .timeout })
  | done {s : State} {i : ℕ} {r : Request} : s.requests i = some r → r.published = true →
      r.outcome = none →
      Step topic fn s (.done i) (s.setRequest i { r with outcome := some .cancelled })

end State

variable (topic : Text) (fn : ℕ → Payload → Output → Prop)

/-- No request, and nothing published -/
def lts : LTS State Act where
  init s := s = {}
  step := State.Step topic fn

/-- The envelope is the reply of a handler to the request. -/
def Envelope.Answers (env : Envelope) (r : Request) : Prop :=
  env.correlationID = r.correlationID ∧
    ∃ h, fn h r.payload (if env.isError then .error env.payload else .ok env.payload)

/-- The message is a request, or the reply to one. -/
def Accounted (s : State) (msg : Text × Envelope) : Prop :=
  ∃ i r, s.requests i = some r ∧ (msg = (topic, r.envelope) ∨
    msg.1 = replyTopic r.correlationID ∧ msg.2.Answers fn r)

/-- Ids are not shared, and whatever a request has received is a reply to it. -/
structure Inv (s : State) : Prop where
  distinct : ∀ i j r r', s.requests i = some r → s.requests j = some r' →
    r.correlationID = r'.correlationID → i = j
  apart : ∀ i r, s.requests i = some r → replyTopic r.correlationID ≠ topic
  messages : ∀ msg ∈ s.messages, Accounted topic fn s msg
  got : ∀ i r env, s.requests i = some r →
    r.got = some env ∨ r.outcome = some (.replied env) → env.Answers fn r

variable {topic fn} {s s' : State} {a : Act} {i : ℕ} {r : Request}

theorem replyTopic_injective : Function.Injective replyTopic := fun _ _ h =>
  List.append_cancel_left h

theorem requests_setRequest (r : Request) (j : ℕ) :
    (s.setRequest i r).requests j = if j = i then some r else s.requests j :=
  Function.update_apply ..

/-- Messages stay accounted for as long as their requests are there. -/
theorem Accounted.mono {msg : Text × Envelope} (h : Accounted topic fn s msg)
    (hkeep : ∀ i r, s.requests i = some r → ∃ r', s'.requests i = some r' ∧
      r'.correlationID = r.correlationID ∧ r'.payload = r.payload) : Accounted topic fn s' msg := by
  obtain ⟨i, r, hr, hmsg⟩ := h
  obtain ⟨r', hr', hid, hpayload⟩ := hkeep i r hr
  refine ⟨i, r', hr', ?_⟩
  rwa [Request.envelope, Envelope.Answers, hid, hpayload]

/-- A request takes a step and stays the same request. -/
theorem Inv.setRequest (h : Inv topic fn s) {r' : Request} (hr : s.requests i = some r)
    (hid : r'.correlationID = r.correlationID) (hpayload : r'.payload = r.payload)
    (hgot : ∀ env, r'.got = some env ∨ r'.outcome = some (.replied env) → env.Answers fn r) :
    Inv topic fn (s.setRequest i r') := by
  have hback {j : ℕ} {q : Request} (hq : (s.setRequest i r').requests j = some q) :
      ∃ q₀, s.requests j = some q₀ ∧ q.correlationID = q₀.correlationID := by
    rw [requests_setRequest] at hq
    split_ifs at hq with hj
    · cases hq
      exact ⟨r, hj ▸ hr, hid⟩
    · exact ⟨q, hq, rfl⟩
  refine ⟨fun j k q q' hq hq' heq => ?_, fun j q hq => ?_, fun msg hmsg => ?_,
    fun j q env hq henv => ?_⟩
  · obtain ⟨q₀, hq₀, hid₀⟩ := hback hq
    obtain ⟨q₁, hq₁, hid₁⟩ := hback hq'
    exact h.distinct j k q₀ q₁ hq₀ hq₁ (by rw [← hid₀, heq, hid₁])
  · obtain ⟨q₀, hq₀, hid₀⟩ := hback hq
    rw [hid₀]
    exact h.apart j q₀ hq₀
  · refine (h.messages msg hmsg).mono fun j q hq => ?_
    rw [requests_setRequest]
    split_ifs with hj
    · subst hj
      rw [hr] at hq
      cases hq
      exact ⟨r', rfl, hid, hpayload⟩
    · exact ⟨q, hq, rfl, rfl⟩
  · rw [requests_setRequest] at hq
    split_ifs at hq
    · cases hq
      rw [Envelope.Answers, hid, hpayload]
      exact hgot env henv
    · exact h.got j q env hq henv

/-- A new id is shared with no request. -/
theorem Inv.request (h : Inv topic fn s) (hnone : s.requests i = none) {id : Text}
    (hunused : s.Unused topic id) (payload : Payload) :
    Inv topic fn (s.setRequest i { correlationID := id, payload := payload }) := by
  refine ⟨fun j k q q' hq hq' heq => ?_, fun j q hq => ?_, fun msg hmsg => ?_,
    fun j q env hq henv => ?_⟩
  · rw [requests_setRequest] at hq hq'
    split_ifs at hq hq' with hj hk hk
    · rw [hj, hk]
    · cases hq
      exact absurd heq.symm (hunused.2 k q' hq')
    · cases hq'
      exact absurd heq (hunused.2 j q hq)
    · exact h.distinct j k q q' hq hq' heq
  · rw [requests_setRequest] at hq
    split_ifs at hq
    · cases hq
      exact hunused.1
    · exact h.apart j q hq
  · refine (h.messages msg hmsg).mono fun j q hq => ⟨q, ?_, rfl, rfl⟩
    rw [requests_setRequest, if_neg, hq]
    rintro rfl
    rw [hnone] at hq
    cases hq
  · rw [requests_setRequest] at hq
    split_ifs at hq
    · cases hq
      obtain henv | henv := henv <;> cases henv
    · exact h.got j q env hq henv

theorem Inv.push (h : Inv topic fn s) {msg : Text × Envelope} (hmsg : Accounted topic fn s msg) :
    Inv topic fn { s with messages := s.messages ++ [msg] } where
  distinct := h.distinct
  apart := h.apart
  messages m hm := by
    obtain hm | hm := List.mem_append.1 hm
    · exact h.messages m hm
    · rw [List.mem_singleton.1 hm]
      exact hmsg
  got := h.got

/-- A handler answers the request that it has received. -/
theorem Inv.respond (h : Inv topic fn s) {k : ℕ} {env : Envelope} {out : Output}
    (hmsg : (topic, env) ∈ s.messages) (hfn : fn k env.payload out) :
    Accounted topic fn s (env.replyTo, respond env out) := by
  obtain ⟨i, r, hr, heq | ⟨htopic, -⟩⟩ := h.messages _ hmsg
  · cases heq
    refine ⟨i, r, hr, .inr ⟨rfl, ?_⟩⟩
    cases out with
    | ok out => exact ⟨rfl, k, hfn⟩
    | error err => exact ⟨rfl, k, hfn⟩
  · exact absurd htopic.symm (h.apart i r hr)

/-- What is delivered on the reply topic of a request answers it. -/
theorem Inv.answers (h : Inv topic fn s) (hr : s.requests i = some r) {env : Envelope}
    (hmsg : (replyTopic r.correlationID, env) ∈ s.messages) : env.Answers fn r := by
  obtain ⟨j, q, hq, heq | ⟨htopic, hans⟩⟩ := h.messages _ hmsg
  · exact absurd (congrArg Prod.fst heq) (h.apart i r hr)
  · obtain rfl := h.distinct i j r q hr hq (replyTopic_injective htopic)
    rw [hr] at hq
    cases hq
    exact hans

theorem Inv.step (h : Inv topic fn s) (hs : (lts topic fn).step s a s') : Inv topic fn s' := by
  cases hs with
  | request hnone hunused => exact h.request hnone hunused _
  | @publish i r hr hpub =>
    have h' : Inv topic fn (s.setRequest i { r with published := true }) :=
      h.setRequest hr rfl rfl fun env => h.got i r env hr
    exact h'.push ⟨i, _, (requests_setRequest _ _).trans (if_pos rfl), .inl rfl⟩
  | serve hmsg hreply hfn => exact h.push (h.respond hmsg hfn)
  | @deliver i r env hr hmsg =>
    refine h.setRequest hr rfl rfl fun env' henv' => ?_
    cases hgot : r.got with
    | none =>
      rw [Request.receive, hgot] at henv'
      obtain henv' | henv' := henv'
      · cases henv'
        exact h.answers hr hmsg
      · exact h.got i r env' hr (.inr henv')
    | some e =>
      rw [Request.receive, hgot] at henv'
      exact h.got i r env' hr (henv'.imp_left hgot.trans)
  | @reply i r env hr hpub hnone hgot =>
    refine h.setRequest hr rfl rfl fun env' henv' => ?_
    obtain henv' | henv' := henv' <;> cases henv'
    exact h.got i r env hr (.inl hgot)
  | @timer i r hr hpub hnone | @done i r hr hpub hnone =>
    refine h.setRequest hr rfl rfl fun env' henv' => ?_
    obtain henv' | henv' := henv'
    · exact h.got i r env' hr (.inl henv')
    · cases henv'

/-! ### Returning -/

/-- What a step does to a request: it returns, it has published, or the step is not its own. -/
theorem step_request (hs : (lts topic fn).step s a s') (hr : s.requests i = some r) :
    ∃ r', s'.requests i = some r' ∧ (r'.outcome.isSome ∨ r'.outcome = r.outcome ∧
      (r.published = false ∧ r'.published = true ∨
        r'.published = r.published ∧ a.actor ≠ some i)) := by
  have hself (s : State) (r' : Request) : (s.setRequest i r').requests i = some r' := by
    rw [requests_setRequest, if_pos rfl]
  -- a step of request `j`, which is another one
  have hother {j : ℕ} (r' : Request) (hj : ¬ i = j) :
      (s.setRequest j r').requests i = some r := by
    rw [requests_setRequest, if_neg hj, hr]
  have hne {j : ℕ} (hj : ¬ i = j) : some j ≠ some i := fun h => hj (Option.some.inj h).symm
  cases hs with
  | @request j _ _ hnone _ =>
    refine ⟨r, hother _ ?_, .inr ⟨rfl, .inr ⟨rfl, by simp [Act.actor]⟩⟩⟩
    rintro rfl
    rw [hnone] at hr
    cases hr
  | @publish j q hq hpub =>
    by_cases hj : i = j
    · subst hj
      rw [hr] at hq
      cases hq
      exact ⟨_, hself _ _, .inr ⟨rfl, .inl ⟨hpub, rfl⟩⟩⟩
    · exact ⟨r, hother _ hj, .inr ⟨rfl, .inr ⟨rfl, hne hj⟩⟩⟩
  | serve => exact ⟨r, hr, .inr ⟨rfl, .inr ⟨rfl, by simp [Act.actor]⟩⟩⟩
  | @deliver j q env hq _ =>
    by_cases hj : i = j
    · subst hj
      rw [hr] at hq
      cases hq
      exact ⟨_, hself _ _, .inr ⟨rfl, .inr ⟨rfl, by simp [Act.actor]⟩⟩⟩
    · exact ⟨r, hother _ hj, .inr ⟨rfl, .inr ⟨rfl, by simp [Act.actor]⟩⟩⟩
  | @reply j | @timer j | @done j =>
    by_cases hj : i = j
    · subst hj
      exact ⟨_, hself _ _, .inl rfl⟩
    · exact ⟨r, hother _ hj, .inr ⟨rfl, .inr ⟨rfl, hne hj⟩⟩⟩

def Returned (i : ℕ) (s : State) : Prop :=
  ∃ r, s.requests i = some r ∧ r.outcome.isSome

/-- The steps that are left until the request returns -/
def rank (i : ℕ) (s : State) : ℕ :=
  if (s.requests i).any fun r => r.published then 1 else 2

/-- A request publishes and then waits for its timer at most. -/
theorem progress (topic : Text) (fn : ℕ → Payload → Output → Prop) (i : ℕ) :
    (lts topic fn).Progress LTS.anyStep Act.actor
      (fun s => ∃ r, s.requests i = some r ∧ r.outcome = none) (Returned i) (rank i)
      fun _ => i where
  enabled s hs := by
    obtain ⟨r, hr, hnone⟩ := hs
    cases hpub : r.published with
    | false => exact ⟨.publish i, _, rfl, trivial, .publish hr hpub⟩
    | true => exact ⟨.timer i, _, rfl, trivial, .timer hr hpub hnone⟩
  step s a s' hs _ hst := by
    obtain ⟨r, hr, hnone⟩ := hs
    obtain ⟨r', hr', hsome | ⟨hout, hpub⟩⟩ := step_request hst hr
    · exact .inl ⟨r', hr', hsome⟩
    · refine .inr ⟨⟨r', hr', hout.trans hnone⟩, ?_⟩
      rw [rank, rank, hr, hr', Option.any_some, Option.any_some]
      obtain ⟨hold, hnew⟩ | ⟨hsame, hactor⟩ := hpub
      · exact .inl (by rw [hold, hnew]; decide)
      · exact .inr ⟨by rw [hsame], rfl, hactor⟩

/-- **Each request returns a reply to itself**: the result of some handler for its own payload, a
`ReplyError` with a handler's error for it, a timeout or an error of its context; and in a fair
execution it returns. -/
theorem request_spec (topic : Text) (fn : ℕ → Payload → Output → Prop) {tr : List Act} {s : State}
    (h : (lts topic fn).Run LTS.anyStep tr s) {i : ℕ} {r : Request} (hr : s.requests i = some r) :
    (∀ outcome, r.outcome = some outcome → outcome = .timeout ∨ outcome = .cancelled ∨
      ∃ env, outcome = .replied env ∧ env.correlationID = r.correlationID ∧
        ∃ k, fn k r.payload (if env.isError then .error env.payload else .ok env.payload)) ∧
    ∀ e : ((lts topic fn).startIn s).Execution LTS.anyStep, e.WeaklyFair Act.actor →
      ∃ n, Returned i (e.state n) := by
  have hinv : Inv topic fn s := by
    refine h.invariant (fun s hs => ?_) fun _ _ _ hs _ hst => hs.step hst
    cases hs
    exact ⟨fun _ _ _ _ h => (by cases h), fun _ _ h => (by cases h), fun _ h => (by cases h),
      fun _ _ _ h => (by cases h)⟩
  refine ⟨fun outcome hout => ?_, fun e hfair => ?_⟩
  · cases outcome with
    | timeout => exact .inl rfl
    | cancelled => exact .inr (.inl rfl)
    | replied env => exact .inr (.inr ⟨env, rfl, hinv.got i r env hr (.inr hout)⟩)
  · have h₀ : e.state 0 = s := e.init
    cases hout : r.outcome with
    | some outcome => exact ⟨0, r, by rw [h₀, hr], by rw [hout]; rfl⟩
    | none =>
      obtain ⟨n, -, hn⟩ := ((progress topic fn i).startIn s).eventually e hfair (n := 0)
        ⟨r, by rw [h₀, hr], hout⟩
      exact ⟨n, hn⟩

/-- The first handler returns what it gets, the others fail. -/
def echoOrFail (k : ℕ) (payload : Payload) (out : Output) : Prop :=
  out = if k = 0 then .ok payload else .error [9]

/-- Two handlers answer one request; the second reply arrives first. -/
theorem request_spec_twice : ∃ tr s r, (lts "work" echoOrFail).Run LTS.anyStep tr s ∧
    s.requests 0 = some r ∧ r.payload = [1] ∧
    r.outcome = some (.replied ⟨"a", "", true, [9]⟩) ∧ ∃ k, echoOrFail k [1] (.error [9]) := by
  have h₀ : (lts "work" echoOrFail).Run LTS.anyStep [] {} := .nil rfl
  have h₁ := h₀.extend (.request 0 "a" [1]) trivial
    (.request rfl ⟨by decide, fun i r hr => by cases hr⟩)
  have h₂ := h₁.extend (.publish 0) trivial (.publish rfl rfl)
  have h₃ := h₂.extend (.serve 0 ⟨"a", "reply.a", false, [1]⟩ (.ok [1])) trivial
    (.serve (by decide) (by decide) rfl)
  have h₄ := h₃.extend (.serve 1 ⟨"a", "reply.a", false, [1]⟩ (.error [9])) trivial
    (.serve (by decide) (by decide) rfl)
  have h₅ := h₄.extend (.deliver 0 ⟨"a", "", true, [9]⟩) trivial (.deliver rfl (by decide))
  have h₆ := h₅.extend (.reply 0) trivial (.reply rfl rfl rfl rfl)
  have hspec := (request_spec _ _ h₆ (i := 0) rfl).1
  obtain h | h | ⟨env, henv, -, hans⟩ := hspec _ rfl
  · cases h
  · cases h
  · cases henv
    exact ⟨_, _, _, h₆, rfl, rfl, rfl, hans⟩

end Messaging

end GinRpc
