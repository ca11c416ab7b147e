import GinRpc.Text.Basic

/-!
# Broadcasts to a cluster

Model of the broadcasts of `plugins/websocket/manager.go` and of `InMemoryClusterTransport.Publish`.
The managers of a cluster are listed in the order in which they have subscribed to the topic.  A
broadcast sends to the connections of its own manager and then publishes an envelope, which the
transport hands to one subscriber after the other.

Whether the queue of a connection is full when the message comes to it depends on its writer
goroutine and is a parameter.  The encoding of an envelope and its decoding are left out.

* `Call.delivered_iff` : every open selected connection of the cluster gets the message once, unless
  its own queue is full, exactly if no manager that a failing send cuts off has such a connection.
* `one_failure_stops` : a send that fails keeps the message from the other managers.
-/

namespace GinRpc

namespace Cluster

structure Identity where
  connectionId : Text
  userId : Text
  clientId : Text
  groups : List Text
  deriving DecidableEq

structure Frame where
  binary : Bool
  payload : Text
  deriving DecidableEq, Repr

/-- `Conn`, with all frames that have been put into its queue -/
structure Conn where
  identity : Identity
  closed : Bool
  outbox : List Frame
  deriving DecidableEq

inductive SendError where
  | closed
  | queueFull
  deriving DecidableEq, Repr

/-- `Conn.send`; a connection whose queue is full is closed. -/
def Conn.send (full : Bool) (frame : Frame) (c : Conn) : Conn × Option SendError :=
  if c.closed then (c, some .closed)
  else if full then ({ c with closed := true }, some .queueFull)
  else ({ c with outbox := c.outbox ++ [frame] }, none)

/-- One turn of the loop of `broadcastSnapshot`, for the connections that a filter selects -/
def Conn.receive (full : Text → Bool) (filter : Identity → Bool) (frame : Frame) (c : Conn) :
    Conn × Option SendError :=
  if filter c.identity then c.send (full c.identity.connectionId) frame else (c, none)

theorem identity_send (full : Bool) (frame : Frame) (c : Conn) :
    (c.send full frame).1.identity = c.identity := by
  unfold Conn.send
  split_ifs <;> rfl

theorem identity_receive (full : Text → Bool) (filter : Identity → Bool) (frame : Frame)
    (c : Conn) : (c.receive full filter frame).1.identity = c.identity := by
  unfold Conn.receive
  split_ifs
  · exact identity_send _ _ _
  · rfl

/-- A `Manager` with the id that `EnableCluster` has given it.  Connections are stored by their
ids and listed in the order in which the map is iterated. -/
structure Manager where
  nodeId : Text
  conns : List Conn
  /-- `EnableCluster` makes up an id if it gets none. -/
  named : nodeId ≠ []
  nodup : (conns.map fun c => c.identity.connectionId).Nodup

inductive EventType where
  | broadcastText
  | broadcastBinary
  | broadcastGroupText
  | broadcastUserText
  | broadcastClientText
  | sendConnectionText
  deriving DecidableEq, Repr

/-- `clusterEnvelope` -/
structure Envelope where
  sourceNode : Text
  type : EventType
  target : Text
  payload : Text
  deriving DecidableEq, Repr

namespace Manager

/-- `broadcastSnapshot`: the frame is sent to every selected connection, and the first error is
returned. -/
def broadcastSnapshot (full : Text → Bool) (filter : Identity → Bool) (frame : Frame)
    (m : Manager) : Manager × Option SendError :=
  ({ m with
      conns := m.conns.map fun c => (c.receive full filter frame).1
      nodup := by
        rw [List.map_map]
        have heq : (fun c : Conn => c.identity.connectionId) ∘
            (fun c : Conn => (c.receive full filter frame).1) = fun c => c.identity.connectionId :=
          funext fun c => congrArg Identity.connectionId (identity_receive full filter frame c)
        rw [heq]
        exact m.nodup },
    (m.conns.filterMap fun c => (c.receive full filter frame).2).head?)

/-- `handleClusterMessage` -/
def handleClusterMessage (full : Text → Bool) (e : Envelope) (m : Manager) :
    Manager × Option SendError :=
  if e.sourceNode = m.nodeId then (m, none)
  else match e.type with
    | .broadcastText => m.broadcastSnapshot full (fun _ => true) ⟨false, e.payload⟩
    | .broadcastBinary => m.broadcastSnapshot full (fun _ => true) ⟨true, e.payload⟩
    | .broadcastGroupText => m.broadcastSnapshot full
        (fun identity => identity.groups.any fun group => group = e.target) ⟨false, e.payload⟩
    | .broadcastUserText => m.broadcastSnapshot full
        (fun identity => identity.userId = e.target) ⟨false, e.payload⟩
    | .broadcastClientText => m.broadcastSnapshot full
        (fun identity => identity.clientId = e.target) ⟨false, e.payload⟩
    | .sendConnectionText => m.broadcastSnapshot full
        (fun identity => identity.connectionId = e.target) ⟨false, e.payload⟩

end Manager

/-- `InMemoryClusterTransport.Publish`: the loop over the handlers ends at the first error. -/
def publish (full : Text → Text → Bool) (e : Envelope) :
    List Manager → List Manager × Option SendError
  | [] => ([], none)
  | m :: rest =>
    match m.handleClusterMessage (full m.nodeId) e with
    | (m', some err) => (m' :: rest, some err)
    | (m', none) => (m' :: (publish full e rest).1, (publish full e rest).2)

/-- A broadcast of the manager at place `i`: the event is published only if no send has failed. -/
def broadcastWith (full : Text → Text → Bool) (i : ℕ) (filter : Identity → Bool) (frame : Frame)
    (type : EventType) (target : Text) (nodes : List Manager) :
    List Manager × Option SendError :=
  match nodes[i]? with
  | none => (nodes, none)
  | some m =>
    match m.broadcastSnapshot (full m.nodeId) filter frame with
    | (m', some err) => (nodes.set i m', some err)
    | (m', none) => publish full ⟨m.nodeId, type, target, frame.payload⟩ (nodes.set i m')

section Calls

variable (full : Text → Text → Bool) (i : ℕ)

/-- `BroadcastText` -/
def broadcastText (message : Text) : List Manager → List Manager × Option SendError :=
  broadcastWith full i (fun _ => true) ⟨false, message⟩ .broadcastText "all"

/-- `BroadcastBinary` -/
def broadcastBinary (payload : Text) : List Manager → List Manager × Option SendError :=
  broadcastWith full i (fun _ => true) ⟨true, payload⟩ .broadcastBinary "all"

/-- `BroadcastToGroup` -/
def broadcastToGroup (group message : Text) : List Manager → List Manager × Option SendError :=
  broadcastWith full i (fun identity => identity.groups.any fun item => item = group)
    ⟨false, message⟩ .broadcastGroupText group

/-- `BroadcastToUser` -/
def broadcastToUser (userId message : Text) : List Manager → List Manager × Option SendError :=
  broadcastWith full i (fun identity => identity.userId = userId) ⟨false, message⟩
    .broadcastUserText userId

/-- `BroadcastToClient` -/
def broadcastToClient (clientId message : Text) :
    List Manager → List Manager × Option SendError :=
  broadcastWith full i (fun identity => identity.clientId = clientId) ⟨false, message⟩
    .broadcastClientText clientId

/-- `SendToConnection` -/
def sendToConnection (connectionId message : Text) :
    List Manager → List Manager × Option SendError :=
  broadcastWith full i (fun identity => identity.connectionId = connectionId) ⟨false, message⟩
    .sendConnectionText connectionId

end Calls

/-! ### What a broadcast is for -/

/-- The calls that broadcast -/
inductive Call where
  | text (message : Text)
  | binary (payload : Text)
  | group (name message : Text)
  | user (userId message : Text)
  | client (clientId message : Text)
  | connection (connectionId message : Text)
  deriving DecidableEq, Repr

namespace Call

/-- The connections that get the message -/
def selects : Call → Identity → Bool
  | .text _, _ | .binary _, _ => true
  | .group name _, identity => identity.groups.any fun item => item = name
  | .user userId _, identity => identity.userId = userId
  | .client clientId _, identity => identity.clientId = clientId
  | .connection connectionId _, identity => identity.connectionId = connectionId

/-- What they get -/
def frame : Call → Frame
  | .text message | .group _ message | .user _ message | .client _ message
  | .connection _ message => ⟨false, message⟩
  | .binary payload => ⟨true, payload⟩

def run (full : Text → Text → Bool) (i : ℕ) : Call → List Manager → List Manager × Option SendError
  | .text message => broadcastText full i message
  | .binary payload => broadcastBinary full i payload
  | .group name message => broadcastToGroup full i name message
  | .user userId message => broadcastToUser full i userId message
  | .client clientId message => broadcastToClient full i clientId message
  | .connection connectionId message => sendToConnection full i connectionId message

/-- The event that is published -/
def event : Call → EventType × Text
  | .text _ => (.broadcastText, "all")
  | .binary _ => (.broadcastBinary, "all")
  | .group name _ => (.broadcastGroupText, name)
  | .user userId _ => (.broadcastUserText, userId)
  | .client clientId _ => (.broadcastClientText, clientId)
  | .connection connectionId _ => (.sendConnectionText, connectionId)

def envelope (call : Call) (sourceNode : Text) : Envelope :=
  ⟨sourceNode, call.event.1, call.event.2, call.frame.payload⟩

end Call

/-- A selected open connection whose queue is not full gets the frame once, and no other one
does. -/
structure Receives (call : Call) (full : Text → Bool) (c c' : Conn) : Prop where
  identity : c'.identity = c.identity
  outbox : c'.outbox =
    if call.selects c.identity && !c.closed && !full c.identity.connectionId then
      c.outbox ++ [call.frame]
    else c.outbox

/-- All connections of the manager have received what they should. -/
structure Delivered (call : Call) (full : Text → Text → Bool) (m m' : Manager) : Prop where
  nodeId : m'.nodeId = m.nodeId
  conns : List.Forall₂ (Receives call (full m.nodeId)) m.conns m'.conns

/-- No send of the manager fails. -/
def Manager.Accepts (m : Manager) (call : Call) (full : Text → Text → Bool) : Prop :=
  ∀ c ∈ m.conns, call.selects c.identity = true →
    c.closed = false ∧ full m.nodeId c.identity.connectionId = false

/-- No connection of the manager is to get the message. -/
def Manager.Idle (m : Manager) (call : Call) (full : Text → Text → Bool) : Prop :=
  ∀ c ∈ m.conns, call.selects c.identity = true → c.closed = false →
    full m.nodeId c.identity.connectionId = true

/-- A send that fails on the source cuts off all other managers, and one that fails on another one
those that have subscribed later; these have nothing to deliver. -/
structure Clear (call : Call) (full : Text → Text → Bool) (source : Manager)
    (nodes : List Manager) : Prop where
  others : ¬ source.Accepts call full → ∀ m ∈ nodes, m.nodeId ≠ source.nodeId → m.Idle call full
  later : nodes.Pairwise fun m m' => m.nodeId ≠ source.nodeId → ¬ m.Accepts call full →
    m'.nodeId ≠ source.nodeId → m'.Idle call full

variable {call : Call} {full : Text → Text → Bool} {m : Manager} {nodes : List Manager} {i : ℕ}

/-! ### One manager -/

theorem receives_receive (call : Call) (full : Text → Bool) (c : Conn) :
    Receives call full c (c.receive full call.selects call.frame).1 := by
  refine ⟨identity_receive _ _ _ c, ?_⟩
  unfold Conn.receive Conn.send
  cases call.selects c.identity with
  | false => rfl
  | true =>
    cases hclosed : c.closed with
    | true => rfl
    | false => cases full c.identity.connectionId <;> rfl

/-- The fan-out of a manager reaches all its connections, whichever of them fail. -/
theorem delivered_broadcastSnapshot (call : Call) (full : Text → Text → Bool) (m : Manager) :
    Delivered call full m
      (m.broadcastSnapshot (full m.nodeId) call.selects call.frame).1 := by
  refine ⟨rfl, ?_⟩
  rw [Manager.broadcastSnapshot, List.forall₂_map_right_iff, List.forall₂_same]
  exact fun c _ => receives_receive call (full m.nodeId) c

variable (call full m) in
theorem Manager.no_error_iff :
    (m.broadcastSnapshot (full m.nodeId) call.selects call.frame).2 = none ↔
      m.Accepts call full := by
  rw [broadcastSnapshot, List.head?_eq_none_iff, List.filterMap_eq_nil_iff]
  refine forall₂_congr fun c _ => ?_
  unfold Conn.receive Conn.send
  split_ifs <;> simp_all

/-- A manager to which nothing is sent has delivered what it should if that is nothing. -/
theorem delivered_self_iff : Delivered call full m m ↔ m.Idle call full := by
  have hconn : ∀ c, Receives call (full m.nodeId) c c ↔ (call.selects c.identity = true →
      c.closed = false → full m.nodeId c.identity.connectionId = true) := by
    intro c
    refine ⟨fun h hsel hopen => ?_, fun h => ⟨rfl, ?_⟩⟩
    · by_contra hroom
      simpa [hsel, hopen, hroom] using h.outbox
    · rw [if_neg (by simpa using h)]
  refine ⟨fun h c hc => (hconn c).1 ?_, fun h => ⟨rfl, List.forall₂_same.2 fun c hc =>
    (hconn c).2 (h c hc)⟩⟩
  exact List.forall₂_same.1 h.conns c hc

/-! ### The cluster -/

theorem Call.run_eq (call : Call) (full : Text → Text → Bool) (i : ℕ) :
    call.run full i =
      broadcastWith full i call.selects call.frame call.event.1 call.event.2 := by
  cases call <;> rfl

theorem handleClusterMessage_source :
    m.handleClusterMessage (full m.nodeId) (call.envelope m.nodeId) = (m, none) :=
  if_pos rfl

/-- The event makes another manager do what the call has done on its own. -/
theorem handleClusterMessage_envelope {node : Text} (hne : node ≠ m.nodeId) :
    m.handleClusterMessage (full m.nodeId) (call.envelope node) =
      m.broadcastSnapshot (full m.nodeId) call.selects call.frame := by
  refine (if_neg hne).trans ?_
  cases call <;> rfl

/-- Before the event is published, the manager it comes from has delivered the message. -/
def Local (call : Call) (full : Text → Text → Bool) (node : Text) (m m' : Manager) : Prop :=
  m'.nodeId = m.nodeId ∧ (m.nodeId = node → Delivered call full m m') ∧ (m.nodeId ≠ node → m' = m)

/-- What is delivered when the loop over the handlers ends at once. -/
theorem delivered_local_iff {node : Text} {nodes' : List Manager}
    (h : List.Forall₂ (Local call full node) nodes nodes') :
    List.Forall₂ (Delivered call full) nodes nodes' ↔
      ∀ m ∈ nodes, m.nodeId ≠ node → m.Idle call full := by
  induction h with
  | nil => simp
  | @cons m m' rest rest' hm hrest ih =>
    rw [List.forall₂_cons, ih, List.forall_mem_cons]
    refine and_congr_left' ?_
    obtain ⟨-, hsource, hother⟩ := hm
    by_cases hnode : m.nodeId = node
    · exact iff_of_true (hsource hnode) (absurd hnode)
    · rw [hother hnode, delivered_self_iff]
      exact ⟨fun h _ => h, fun h => h hnode⟩

/-- The loop over the handlers ends at the first one that fails. -/
theorem delivered_publish_iff {node : Text} {nodes' : List Manager}
    (h : List.Forall₂ (Local call full node) nodes nodes') :
    List.Forall₂ (Delivered call full) nodes (publish full (call.envelope node) nodes').1 ↔
      nodes.Pairwise fun m m' => m.nodeId ≠ node → ¬ m.Accepts call full →
        m'.nodeId ≠ node → m'.Idle call full := by
  induction h with
  | nil => simp [publish]
  | @cons m m' rest rest' hm hrest ih =>
    obtain ⟨hid, hsource, hother⟩ := hm
    rw [publish, List.pairwise_cons]
    by_cases hnode : m.nodeId = node
    · subst hnode
      rw [← hid, handleClusterMessage_source]
      dsimp only
      rw [hid, List.forall₂_cons, ih, and_iff_right (hsource rfl)]
      simp
    · obtain rfl := hother hnode
      rw [handleClusterMessage_envelope (Ne.symm hnode)]
      have hdel := delivered_broadcastSnapshot call full m'
      have herr := Manager.no_error_iff call full m'
      generalize m'.broadcastSnapshot (full m'.nodeId) call.selects call.frame = r at hdel herr
      obtain ⟨m₁, _ | err⟩ := r
      · dsimp only
        rw [List.forall₂_cons, ih, and_iff_right hdel]
        simp [herr.1 rfl]
      · have hfails : ¬ m'.Accepts call full := fun h => by cases herr.2 h
        dsimp only
        rw [List.forall₂_cons, delivered_local_iff hrest, and_iff_right hdel]
        simp only [hnode, hfails, ne_eq, not_false_eq_true, forall_const]
        refine (and_iff_left_of_imp fun hidle => ?_).symm
        exact List.pairwise_of_forall_mem_list fun _ _ k hk _ _ hne => hidle k hk hne

theorem forall₂_local_set {m' : Manager} (hnodup : (nodes.map Manager.nodeId).Nodup)
    (hi : nodes[i]? = some m) (hm : Delivered call full m m') :
    List.Forall₂ (Local call full m.nodeId) nodes (nodes.set i m') := by
  obtain ⟨hlt, rfl⟩ := List.getElem?_eq_some_iff.1 hi
  refine List.forall₂_of_length_eq_of_get (List.length_set ..).symm fun j hj hj' => ?_
  rw [List.get_eq_getElem, List.get_eq_getElem, List.getElem_set]
  split_ifs with heq
  · subst heq
    exact ⟨hm.nodeId, fun _ => hm, fun hne => absurd rfl hne⟩
  · refine ⟨rfl, fun hid => absurd ?_ heq, fun _ => rfl⟩
    have hi₁ : i < (nodes.map Manager.nodeId).length := by rwa [List.length_map]
    have hj₁ : j < (nodes.map Manager.nodeId).length := by rwa [List.length_map]
    have hget : (nodes.map Manager.nodeId)[i] = (nodes.map Manager.nodeId)[j] := by
      rw [List.getElem_map, List.getElem_map]
      exact hid.symm
    exact (List.Nodup.getElem_inj_iff hnodup).1 hget

/-- **Every connection gets what it should exactly if no manager that is cut off has one that
should**: a send that fails on the manager that broadcasts cuts off all others, and one that fails
on another manager those that have subscribed later. -/
theorem Call.delivered_iff (hnodup : (nodes.map Manager.nodeId).Nodup)
    (hi : nodes[i]? = some m) :
    List.Forall₂ (Delivered call full) nodes (call.run full i nodes).1 ↔
      Clear call full m nodes := by
  have hlocal := forall₂_local_set hnodup hi (delivered_broadcastSnapshot call full m)
  have herr := Manager.no_error_iff call full m
  rw [call.run_eq, broadcastWith, hi]
  dsimp only
  generalize m.broadcastSnapshot (full m.nodeId) call.selects call.frame = r at hlocal herr
  obtain ⟨m', _ | err⟩ := r
  · refine (delivered_publish_iff hlocal).trans ⟨fun h => ⟨absurd (herr.1 rfl), h⟩, Clear.later⟩
  · have hfails : ¬ m.Accepts call full := fun h => by cases herr.2 h
    refine (delivered_local_iff hlocal).trans ⟨fun h => ⟨fun _ => h, ?_⟩, fun h => h.others hfails⟩
    exact List.pairwise_of_forall_mem_list fun _ _ k hk _ _ hne => h k hk hne

namespace Example

def conn (id : Text) : Conn := ⟨⟨id, [], [], []⟩, false, []⟩

def node (id : Char) (conns : List Conn)
    (h : (conns.map fun c => c.identity.connectionId).Nodup) : Manager :=
  ⟨[id], conns, List.cons_ne_nil _ _, h⟩

/-- Three managers, the second with two connections -/
def cluster : List Manager :=
  [node 'a' [conn "1"] (by decide), node 'b' [conn "2", conn "3"] (by decide),
    node 'c' [conn "4", conn "5"] (by decide)]

/-- The queue of one connection is full. -/
def fullAt (id : Text) : Text → Text → Bool := fun _ connectionId => connectionId = id

/-- How many frames have been put into each queue -/
def counts (nodes : List Manager) : List (List ℕ) :=
  nodes.map fun m => m.conns.map fun c => c.outbox.length

end Example

open Example in
/-- A queue is full on the last subscriber; all other connections get the message. -/
theorem Call.delivered_iff_last :
    List.Forall₂ (Delivered (.text "hi") (fullAt "4")) cluster
        (Call.run (fullAt "4") 0 (.text "hi") cluster).1 ∧
      counts (Call.run (fullAt "4") 0 (.text "hi") cluster).1 = [[1], [1, 1], [0, 1]] := by
  refine ⟨(Call.delivered_iff (by decide) rfl).2 ⟨?_, ?_⟩, by decide⟩ <;>
    unfold Manager.Accepts Manager.Idle <;> decide

open Example in
/-- If the queue of one connection of the manager that broadcasts is full, no other manager gets the
message; if it is one of another manager, those that have subscribed later do not. -/
theorem one_failure_stops :
    counts (Call.run (fullAt "2") 1 (.text "hi") cluster).1 = [[0], [0, 1], [0, 0]] ∧
    counts (Call.run (fullAt "2") 0 (.text "hi") cluster).1 = [[1], [0, 1], [0, 0]] := by
  decide

end Cluster

end GinRpc
