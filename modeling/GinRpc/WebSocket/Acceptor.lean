import GinRpc.Data.AList
import GinRpc.LTS.Threads
import Mathlib.Tactic

/-!
# The websocket acceptor: connections and resumable sessions

Model of `Conn` and `connAcceptor` in `plugins/websocket/server.go`, `Conn.SendEnvelope` in
`protocol.go` and the sessions of `session.go`.

A connection has an outbound queue that one writer goroutine drains, a `closed` flag guarded by
its own lock, and a mutex `seqMu` under which `SendEnvelope` numbers, stores and queues an
envelope.  With session resume the numbers and the replay buffer belong to a session that outlives
its connections: a later handshake with the same session id displaces the connection attached
before and replays what the client has missed.

Every goroutine is a program counter that names what it does next, and every critical section,
atomic operation and channel operation is one step:

* `Pc` : the places between two steps of `SendEnvelope`, `send`, `close`, `attachSession`, `serve`
  and `writeLoop`.  A call of `send` or `close` carries what it returns to, `Task` and `Caller`.
* `Server.exec` : one step of one goroutine on the shared state.
* `Sys.step` : a step of a goroutine, the start of a call, a failing write, the janitor of the
  registry, and the client that dials and reads.

What the clients send in their handshakes is a parameter: connection `c` belongs to request
`req c`.  Sequence numbers are natural numbers; the `uint64` counter would wrap after `2 ^ 64`
messages.  Waiting for the queue to drain may time out at any moment.  Left out are tracing, the
observer, rate limits, the close code, and the checks before a connection is accepted.
-/

namespace GinRpc

namespace WebSocket

/-- The settings that the queue and the sessions depend on, durations in nanoseconds. -/
structure Config where
  sendQueueSize : ℤ
  bufferCapacity : ℤ
  ttl : ℤ
  maxSessions : ℤ
  deriving DecidableEq, Repr

/-- The size `ensureWriter` gives the outbound queue. -/
def Config.queueSize (cfg : Config) : ℕ :=
  if cfg.sendQueueSize ≤ 0 then 256 else cfg.sendQueueSize.toNat

def defaultReplayBufferCapacity : ℕ := 1024

def defaultSessionTTL : ℤ := 60000000000

/-- `SessionResumeConfig.normalize`: the capacity of the replay buffers. -/
def Config.capacity (cfg : Config) : ℕ :=
  if cfg.bufferCapacity ≤ 0 then defaultReplayBufferCapacity else cfg.bufferCapacity.toNat

/-- `SessionResumeConfig.normalize`: how long a session outlives its connection. -/
def Config.lifetime (cfg : Config) : ℤ :=
  if cfg.ttl ≤ 0 then defaultSessionTTL else cfg.ttl

/-- The identity and the query of a handshake. -/
structure Request where
  userID : String
  /-- `session_id`, empty if absent -/
  sessionID : String
  /-- `last_seq`, if it is there and a number -/
  lastSeq : Option ℕ := none
  /-- the id drawn if the client names none -/
  uuid : String := ""
  deriving DecidableEq, Repr

/-- `resumeInfo`. -/
structure ResumeInfo where
  sessionID : String
  lastSeq : ℕ
  deriving DecidableEq, Repr

/-- `parseResumeQuery`, and the fresh id of `attachSession`. -/
def Request.info (r : Request) : ResumeInfo :=
  if r.sessionID = "" then ⟨r.uuid, 0⟩ else ⟨r.sessionID, r.lastSeq.getD 0⟩

/-- An envelope. -/
structure Envelope where
  seq : ℕ := 0
  action : String
  /-- `json.Marshal` fails if `Data` is not JSON. -/
  valid : Bool := true
  deriving DecidableEq, Repr

/-- A numbered envelope. -/
structure Message where
  env : Envelope
  /-- The session the number comes from; `none` if it comes from the connection. -/
  session : Option ℕ
  deriving DecidableEq, Repr

/-- A frame of the outbound queue. -/
inductive Frame where
  | text (payload : String)
  | envelope (m : Message)
  deriving DecidableEq, Repr

structure StoredMessage where
  seq : ℕ
  payload : Frame
  deriving DecidableEq, Repr

/-- `session`; the ring is the one of its `replayBuffer`. -/
structure Session where
  id : String := ""
  userID : String := ""
  seq : ℕ := 0
  conn : Option ℕ := none
  ring : List StoredMessage := []
  lastSeen : ℤ := 0
  deriving DecidableEq, Repr

namespace Session

/-- `replayBuffer.store`. -/
def store (capacity : ℕ) (k : Session) (m : StoredMessage) : Session :=
  let ring := k.ring ++ [m]
  { k with ring := if ring.length > capacity then ring.drop (ring.length - capacity) else ring }

/-- `replayBuffer.replayAfter`. -/
def replayAfter (k : Session) (lastSeq : ℕ) : List Frame :=
  (k.ring.filter fun m => decide (m.seq > lastSeq)).map StoredMessage.payload

def detach (k : Session) (conn : ℕ) (now : ℤ) : Session :=
  { k with conn := if k.conn = some conn then none else k.conn, lastSeen := now }

/-- The test of `evictExpired`. -/
def expired (k : Session) (ttl now : ℤ) : Bool :=
  decide (k.conn = none ∧ now - k.lastSeen > ttl)

end Session

/-- The goroutines: `serve` and `writeLoop` of a connection, and all others. -/
inductive Tid where
  | serve (conn : ℕ)
  | writer (conn : ℕ)
  | user (i : ℕ)
  deriving DecidableEq, Repr

/-- A connection. -/
structure Conn where
  session : Option ℕ := none
  outSeq : ℕ := 0
  /-- Who holds `seqMu`. -/
  seqMu : Option Tid := none
  closed : Bool := false
  /-- `outInit` is done: the queue exists and its writer may run. -/
  started : Bool := false
  outbox : List Frame := []
  outClosed : Bool := false
  /-- The underlying connection is closed. -/
  hungUp : Bool := false
  /-- What has been written and not yet read by the client. -/
  wire : List Frame := []
  /-- `attachSession` has returned without an error. -/
  ready : Bool := false
  /-- The numbers of the session's messages that were queued here, and those the client has read. -/
  sent : List ℕ := []
  read : List ℕ := []
  deriving DecidableEq, Repr

/-- What a call of `Conn.send` returns to. -/
inductive Task where
  | direct
  /-- `SendEnvelope` -/
  | envelope
  /-- the loop of `attachSession`, with the payloads still to send -/
  | replay (session : ℕ) (rest : List Frame)
  deriving DecidableEq, Repr

/-- What a call of `Conn.close` returns to. -/
inductive Caller where
  | user
  /-- `send`, the queue is full -/
  | send (task : Task)
  /-- `attachSession` of another connection -/
  | displace (conn session : ℕ) (resumed : Bool)
  /-- `writeLoop`, which does not wait for the queue to drain -/
  | writer
  /-- `serve` -/
  | serve
  deriving DecidableEq, Repr

/-- What a goroutine does next. -/
inductive Pc where
  /-- not begun; the writer begins when the queue exists -/
  | idle
  /-- `SendEnvelope`: `c.seqMu.Lock()` -/
  | lockSeq (c : ℕ) (env : Envelope)
  /-- `SendEnvelope`: `nextSeq` or `outSeq.Add(1)`, and `json.Marshal` -/
  | stamp (c : ℕ) (env : Envelope)
  /-- `SendEnvelope`: `c.session.store` -/
  | store (c : ℕ) (m : Message)
  /-- `SendEnvelope`: `c.seqMu.Unlock()` -/
  | unlockSeq (c : ℕ)
  /-- `send`: `c.closed` is read -/
  | check (c : ℕ) (f : Frame) (task : Task)
  /-- `send`: `c.ensureWriter()` -/
  | ensure (c : ℕ) (f : Frame) (task : Task)
  /-- `send`: the `select` -/
  | enqueue (c : ℕ) (f : Frame) (task : Task)
  /-- `close`: `c.closed` is set -/
  | flag (c : ℕ) (caller : Caller)
  /-- `closeOutbox`: `c.ensureWriter()` -/
  | ensureOut (c : ℕ) (caller : Caller)
  /-- `closeOutbox`: `close(c.outbox)` -/
  | closeOut (c : ℕ) (caller : Caller)
  /-- `close`: `c.waitDrained()` -/
  | drain (c : ℕ) (caller : Caller)
  /-- `close`: `c.session.detach(c)` -/
  | detach (c : ℕ) (caller : Caller)
  /-- `close`: `c.conn.Close` -/
  | hangUp (c : ℕ) (caller : Caller)
  /-- `resolve`: the lookup under the read lock -/
  | lookup (c : ℕ)
  /-- `resolve`: `s.lastSeen = time.Now()` -/
  | touch (c k : ℕ)
  /-- `resolve`: the section under the write lock -/
  | create (c : ℕ)
  /-- `attachSession`: `conn.session = sess` -/
  | bind (c k : ℕ) (resumed : Bool)
  /-- `attachSession`: `sess.attach(conn)` -/
  | attach (c k : ℕ) (resumed : Bool)
  /-- `attachSession`: `sess.buf.replayAfter` -/
  | replay (c k : ℕ)
  /-- `attachSession` has returned no error -/
  | attached (c : ℕ)
  /-- `serve`: the handler is running -/
  | handler (c : ℕ)
  /-- `writeLoop`: the next frame is received from the queue -/
  | take (c : ℕ)
  /-- `writeLoop`: `writeFrame` -/
  | write (c : ℕ) (f : Frame)
  /-- a send on the closed queue -/
  | panicked
  | done
  deriving DecidableEq, Repr

/-- The loop of `attachSession`. -/
def replayNext (c k : ℕ) : List Frame → Pc
  | [] => .attached c
  | f :: rest => .check c f (.replay k rest)

/-- `send` on `c` has returned `nil`. -/
def Task.succeeded (c : ℕ) : Task → Pc
  | .direct => .done
  | .envelope => .unlockSeq c
  | .replay k rest => replayNext c k rest

/-- `send` on `c` has returned an error; `attachSession` passes it on to `serve`. -/
def Task.failed (c : ℕ) : Task → Pc
  | .direct => .done
  | .envelope => .unlockSeq c
  | .replay _ _ => .flag c .serve

/-- `attachSession` after the displaced connection, if any, is closed. -/
def afterAttach (c k : ℕ) (resumed : Bool) : Pc :=
  if resumed then .replay c k else .attached c

/-- `close` on `c` has returned. -/
def Caller.resume (c : ℕ) : Caller → Pc
  | .send task => task.failed c
  | .displace c k resumed => afterAttach c k resumed
  | .user | .writer | .serve => .done

/-- The number of a message, if it belongs to a session. -/
def Frame.number : Frame → Option ℕ
  | .envelope ⟨env, some _⟩ => some env.seq
  | _ => none

/-- A message that was queued on a connection by the loop of `attachSession`. -/
structure Replay where
  session : ℕ
  conn : ℕ
  deriving DecidableEq, Repr

/-- The shared state, and what is remembered of the run. -/
structure Server where
  now : ℤ
  sessions : AList (fun _ : String => ℕ) := ∅
  /-- The session objects by address, and how many there are. -/
  session : ℕ → Session := fun _ => {}
  nsess : ℕ := 0
  conn : ℕ → Conn := fun _ => {}
  /-- The connection that was resolved to a session last. -/
  owner : ℕ → Option ℕ := fun _ => none
  replays : List Replay := []
  /-- The numbers the client of a session has received. -/
  received : ℕ → List ℕ := fun _ => []
  /-- The connection a client has dialled last, by session id. -/
  current : String → Option ℕ := fun _ => none
  /-- The greatest number of each session that had been received when a connection was dialled. -/
  heard : ℕ → ℕ → ℕ := fun _ _ => 0

namespace Server

variable (cfg : Config) (req : ℕ → Request) (s : Server)

def setConn (c : ℕ) (f : Conn → Conn) : Server :=
  { s with conn := Function.update s.conn c (f (s.conn c)) }

def setSession (k : ℕ) (f : Session → Session) : Server :=
  { s with session := Function.update s.session k (f (s.session k)) }

/-- `session.nextSeq`. -/
def nextSeq (k : ℕ) : Server := s.setSession k fun sess => { sess with seq := sess.seq + 1 }

/-- `c.outSeq.Add(1)`. -/
def nextOutSeq (c : ℕ) : Server := s.setConn c fun conn => { conn with outSeq := conn.outSeq + 1 }

/-- `session.attach`. -/
def attach (k c : ℕ) : Server :=
  s.setSession k fun sess => { sess with conn := some c, lastSeen := s.now }

/-- Connection `c` is resolved to session `k`. -/
def own (k c : ℕ) : Server :=
  { s with owner := Function.update s.owner k (some c) }

/-- A new session, created for connection `c`. -/
def newSession (c : ℕ) : Server :=
  { s with
    sessions := s.sessions.insert (req c).info.sessionID s.nsess
    session := Function.update s.session s.nsess
      { id := (req c).info.sessionID, userID := (req c).userID, lastSeen := s.now }
    nsess := s.nsess + 1 }

/-- A frame is queued. -/
def push (c : ℕ) (f : Frame) (task : Task) : Server :=
  let s := s.setConn c fun conn =>
    { conn with outbox := conn.outbox ++ [f], sent := conn.sent ++ f.number.toList }
  match task with
  | .replay k _ => { s with replays := ⟨k, c⟩ :: s.replays }
  | _ => s

/-- One step of goroutine `t`, and what it does next. -/
def exec (t : Tid) : Pc → Option (Server × Pc)
  | .idle =>
    match t with
    | .writer c => if (s.conn c).started then some (s, .take c) else none
    | _ => none
  | .lockSeq c env =>
    if (s.conn c).seqMu = none then
      some (s.setConn c fun conn => { conn with seqMu := some t }, .stamp c env)
    else none
  | .stamp c env =>
    match (s.conn c).session with
    | some k =>
      if env.valid then
        some (s.nextSeq k, .store c ⟨{ env with seq := (s.session k).seq + 1 }, some k⟩)
      else some (s.nextSeq k, .unlockSeq c)
    | none =>
      if env.valid then
        some (s.nextOutSeq c, .store c ⟨{ env with seq := (s.conn c).outSeq + 1 }, none⟩)
      else some (s.nextOutSeq c, .unlockSeq c)
  | .store c m =>
    match (s.conn c).session with
    | some k =>
      some (s.setSession k fun sess => sess.store cfg.capacity ⟨m.env.seq, .envelope m⟩,
        .check c (.envelope m) .envelope)
    | none => some (s, .check c (.envelope m) .envelope)
  | .unlockSeq c => some (s.setConn c fun conn => { conn with seqMu := none }, .done)
  | .check c f task =>
    if (s.conn c).closed then some (s, task.failed c) else some (s, .ensure c f task)
  | .ensure c f task =>
    some (s.setConn c fun conn => { conn with started := true }, .enqueue c f task)
  | .enqueue c f task =>
    if (s.conn c).outClosed then some (s, .panicked)
    else if (s.conn c).outbox.length < cfg.queueSize then
      some (s.push c f task, task.succeeded c)
    else some (s, .flag c (.send task))
  | .flag c caller =>
    if (s.conn c).closed then some (s, caller.resume c)
    else some (s.setConn c fun conn => { conn with closed := true }, .ensureOut c caller)
  | .ensureOut c caller =>
    some (s.setConn c fun conn => { conn with started := true }, .closeOut c caller)
  | .closeOut c caller =>
    if caller = .writer then
      some (s.setConn c fun conn => { conn with outClosed := true }, .detach c caller)
    else some (s.setConn c fun conn => { conn with outClosed := true }, .drain c caller)
  | .drain c caller => some (s, .detach c caller)
  | .detach c caller =>
    match (s.conn c).session with
    | some k => some (s.setSession k fun sess => sess.detach c s.now, .hangUp c caller)
    | none => some (s, .hangUp c caller)
  | .hangUp c caller =>
    some (s.setConn c fun conn => { conn with hungUp := true }, caller.resume c)
  | .lookup c =>
    match s.sessions.lookup (req c).info.sessionID with
    | some k => some (s.own k c, .touch c k)
    | none => some (s, .create c)
  | .touch c k =>
    some (s.setSession k fun sess => { sess with lastSeen := s.now }, .bind c k true)
  | .create c =>
    match s.sessions.lookup (req c).info.sessionID with
    | some k => some (s.own k c, .bind c k true)
    | none =>
      if cfg.maxSessions > 0 ∧ (s.sessions.keys.length : ℤ) ≥ cfg.maxSessions then
        some (s, .flag c .serve)
      else some ((s.newSession req c).own s.nsess c, .bind c s.nsess false)
  | .bind c k resumed =>
    some (s.setConn c fun conn => { conn with session := some k }, .attach c k resumed)
  | .attach c k resumed =>
    match (s.session k).conn with
    | some d =>
      if d = c then some (s.attach k c, afterAttach c k resumed)
      else some (s.attach k c, .flag d (.displace c k resumed))
    | none => some (s.attach k c, afterAttach c k resumed)
  | .replay c k => some (s, replayNext c k ((s.session k).replayAfter (req c).info.lastSeq))
  | .attached c => some (s.setConn c fun conn => { conn with ready := true }, .handler c)
  | .handler c => some (s, .flag c .serve)
  | .take c =>
    match (s.conn c).outbox with
    | f :: rest => some (s.setConn c fun conn => { conn with outbox := rest }, .write c f)
    | [] => if (s.conn c).outClosed then some (s, .done) else none
  | .write c f =>
    if (s.conn c).hungUp then none
    else some (s.setConn c fun conn => { conn with wire := conn.wire ++ [f] }, .take c)
  | .panicked | .done => none

/-- The client reads a frame. -/
def deliver (c : ℕ) (f : Frame) (rest : List Frame) : Server :=
  let s := s.setConn c fun conn =>
    { conn with wire := rest, read := conn.read ++ f.number.toList }
  match f with
  | .envelope ⟨env, some k⟩ =>
    { s with received := Function.update s.received k (s.received k ++ [env.seq]) }
  | _ => s

/-- A client dials. -/
def dial (c : ℕ) : Server :=
  { s with
    current := Function.update s.current (req c).info.sessionID (some c)
    heard := Function.update s.heard c fun k => (s.received k).foldr max 0 }

/-! ### What the updates change -/

attribute [grind =] setConn setSession nextSeq nextOutSeq attach own newSession dial

variable {req s} {c d k l : ℕ} {f : Frame} {rest : List Frame} {task : Task}

@[grind =] theorem deliver_eq :
    s.deliver c f rest =
      { s with
        conn := Function.update s.conn c { s.conn c with
          wire := rest, read := (s.conn c).read ++ f.number.toList }
        received := match f with
          | .envelope ⟨env, some k⟩ => Function.update s.received k (s.received k ++ [env.seq])
          | _ => s.received } := by
  rcases f with _ | ⟨_, _ | _⟩ <;> rfl

@[grind =] theorem conn_setConn {g : Conn → Conn} :
    (s.setConn c g).conn d = if d = c then g (s.conn c) else s.conn d :=
  Function.update_apply ..

@[grind =] theorem conn_push :
    (s.push c f task).conn d = if d = c then
      { s.conn c with
        outbox := (s.conn c).outbox ++ [f], sent := (s.conn c).sent ++ f.number.toList }
    else s.conn d := by
  cases task <;> exact Function.update_apply ..

@[grind =] theorem conn_deliver :
    (s.deliver c f rest).conn d = if d = c then
      { s.conn c with wire := rest, read := (s.conn c).read ++ f.number.toList }
    else s.conn d := by
  fun_cases deliver s c f rest <;> exact Function.update_apply ..

@[grind =] theorem session_setSession {g : Session → Session} :
    (s.setSession k g).session l = if l = k then g (s.session k) else s.session l :=
  Function.update_apply ..

@[grind =] theorem session_newSession :
    (s.newSession req c).session l = if l = s.nsess then
      { id := (req c).info.sessionID, userID := (req c).userID, lastSeen := s.now }
    else s.session l :=
  Function.update_apply ..

@[grind =] theorem lookup_newSession {id : String} :
    (s.newSession req c).sessions.lookup id =
      if id = (req c).info.sessionID then some s.nsess else s.sessions.lookup id :=
  AList.lookup_insert_apply

@[grind =] theorem session_own : (s.own k c).session l = s.session l := rfl

@[grind =] theorem session_push : (s.push c f task).session l = s.session l := by
  cases task <;> rfl

@[simp] theorem nsess_push : (s.push c f task).nsess = s.nsess := by
  cases task <;> rfl

/-! ### What a step writes -/

/-- A write to connection `c`, by a goroutine that goes from one place to another. -/
inductive ConnWrite (s : Server) (t : Tid) (c : ℕ) : Pc → Conn → Pc → Prop
  | lockSeq {env : Envelope} : (s.conn c).seqMu = none →
      ConnWrite s t c (.lockSeq c env) { s.conn c with seqMu := some t } (.stamp c env)
  | stamp {env : Envelope} {m : Message} : ConnWrite s t c (.stamp c env)
      { s.conn c with outSeq := (s.conn c).outSeq + 1 } (.store c m)
  | refuse {env : Envelope} : ConnWrite s t c (.stamp c env)
      { s.conn c with outSeq := (s.conn c).outSeq + 1 } (.unlockSeq c)
  | unlockSeq : ConnWrite s t c (.unlockSeq c) { s.conn c with seqMu := none } .done
  | ensure {f : Frame} {task : Task} :
      ConnWrite s t c (.ensure c f task) { s.conn c with started := true } (.enqueue c f task)
  | push {f : Frame} {task : Task} : ConnWrite s t c (.enqueue c f task)
      { s.conn c with
        outbox := (s.conn c).outbox ++ [f], sent := (s.conn c).sent ++ f.number.toList }
      (task.succeeded c)
  | flag {caller : Caller} :
      ConnWrite s t c (.flag c caller) { s.conn c with closed := true } (.ensureOut c caller)
  | ensureOut {caller : Caller} :
      ConnWrite s t c (.ensureOut c caller) { s.conn c with started := true } (.closeOut c caller)
  | closeOut {caller : Caller} :
      ConnWrite s t c (.closeOut c caller) { s.conn c with outClosed := true } (.drain c caller)
  | writerClose {caller : Caller} :
      ConnWrite s t c (.closeOut c caller) { s.conn c with outClosed := true } (.detach c caller)
  | hangUp {caller : Caller} :
      ConnWrite s t c (.hangUp c caller) { s.conn c with hungUp := true } (caller.resume c)
  | bind {k : ℕ} {resumed : Bool} : ConnWrite s t c (.bind c k resumed)
      { s.conn c with session := some k } (.attach c k resumed)
  | attached : ConnWrite s t c (.attached c) { s.conn c with ready := true } (.handler c)
  | take {f : Frame} {rest : List Frame} : (s.conn c).outbox = f :: rest →
      ConnWrite s t c (.take c) { s.conn c with outbox := rest } (.write c f)
  | write {f : Frame} : ConnWrite s t c (.write c f)
      { s.conn c with wire := (s.conn c).wire ++ [f] } (.take c)

/-- A write to session `k`. -/
inductive SessionWrite (cfg : Config) (s : Server) (k : ℕ) : Pc → Session → Prop
  | stamp {c : ℕ} {env : Envelope} : (s.conn c).session = some k →
      SessionWrite cfg s k (.stamp c env) { s.session k with seq := (s.session k).seq + 1 }
  | store {c : ℕ} {m : Message} : (s.conn c).session = some k →
      SessionWrite cfg s k (.store c m)
        ((s.session k).store cfg.capacity ⟨m.env.seq, .envelope m⟩)
  | detach {c : ℕ} {caller : Caller} : (s.conn c).session = some k →
      SessionWrite cfg s k (.detach c caller) ((s.session k).detach c s.now)
  | touch {c : ℕ} : SessionWrite cfg s k (.touch c k) { s.session k with lastSeen := s.now }
  | attach {c : ℕ} {resumed : Bool} : SessionWrite cfg s k (.attach c k resumed)
      { s.session k with conn := some c, lastSeen := s.now }

/-- A write to the shared state. -/
inductive Write (cfg : Config) (req : ℕ → Request) (s : Server) (t : Tid) :
    Pc → Server → Pc → Prop
  | conn {c : ℕ} {pc pc' : Pc} {conn : Conn} : s.ConnWrite t c pc conn pc' →
      Write cfg req s t pc (s.setConn c fun _ => conn) pc'
  | session {k : ℕ} {pc pc' : Pc} {sess : Session} : s.SessionWrite cfg k pc sess →
      Write cfg req s t pc (s.setSession k fun _ => sess) pc'
  | push {c : ℕ} {f : Frame} {task : Task} :
      Write cfg req s t (.enqueue c f task) (s.push c f task) (task.succeeded c)
  | found {c k : ℕ} : s.sessions.lookup (req c).info.sessionID = some k →
      Write cfg req s t (.lookup c) (s.own k c) (.touch c k)
  | raced {c k : ℕ} : s.sessions.lookup (req c).info.sessionID = some k →
      Write cfg req s t (.create c) (s.own k c) (.bind c k true)
  | create {c : ℕ} : s.sessions.lookup (req c).info.sessionID = none →
      Write cfg req s t (.create c) ((s.newSession req c).own s.nsess c) (.bind c s.nsess false)

variable {cfg : Config} {t : Tid} {pc : Pc} {r : Server × Pc}

theorem exec_writes (h : s.exec cfg req t pc = some r) :
    r.1 = s ∨ Write cfg req s t pc r.1 r.2 := by
  revert h
  fun_cases Server.exec cfg req s t pc <;> intro h <;> cases h <;>
    first
    | exact .inl rfl
    | exact .inr .push
    | exact .inr (.conn (by constructor <;> assumption))
    | exact .inr (.session (by constructor <;> assumption))
    | exact .inr (by constructor; assumption)

/-- What every write to the shared state establishes, and it has before, it has afterwards. -/
theorem exec_state {P : Server → Prop} (h : s.exec cfg req t pc = some r) (hs : P s)
    (hw : ∀ {s' pc'}, Write cfg req s t pc s' pc' → P s') : P r.1 := by
  obtain heq | hwrite := exec_writes h
  · rwa [heq]
  · exact hw hwrite

theorem exec_conn (h : s.exec cfg req t pc = some r) (c : ℕ) :
    r.1.conn c = s.conn c ∨ s.ConnWrite t c pc (r.1.conn c) r.2 := by
  obtain heq | hw := exec_writes h
  · exact .inl (by rw [heq])
  obtain ⟨s', pc'⟩ := r
  dsimp only at hw ⊢
  cases hw with
  | @conn d _ _ conn hw =>
    rw [conn_setConn]
    split_ifs with hd
    · subst hd
      exact .inr hw
    · exact .inl rfl
  | @push d f task =>
    rw [conn_push]
    split_ifs with hd
    · subst hd
      exact .inr .push
    · exact .inl rfl
  | session | found | raced | create => exact .inl rfl

theorem exec_sess (h : s.exec cfg req t pc = some r) (k : ℕ) :
    r.1.session k = s.session k ∨ s.SessionWrite cfg k pc (r.1.session k) ∨
      (k = s.nsess ∧ ∃ c, r.1 = (s.newSession req c).own k c) := by
  obtain heq | hw := exec_writes h
  · exact .inl (by rw [heq])
  obtain ⟨s', pc'⟩ := r
  dsimp only at hw ⊢
  cases hw with
  | @session l _ _ sess hw =>
    rw [session_setSession]
    split_ifs with hl
    · subst hl
      exact .inr (.inl hw)
    · exact .inl rfl
  | @create c =>
    by_cases hk : k = s.nsess
    · exact .inr (.inr ⟨hk, c, by rw [hk]⟩)
    · exact .inl (session_newSession.trans (if_neg hk))
  | push => exact .inl session_push
  | conn | found | raced => exact .inl rfl

/-- What every write to a connection keeps is kept. -/
theorem exec_conn_keeps {P : Conn → Prop} (h : s.exec cfg req t pc = some r) (hp : P (s.conn c))
    (hw : ∀ {conn pc'}, s.ConnWrite t c pc conn pc' → P conn) : P (r.1.conn c) := by
  obtain heq | hwrite := exec_conn h c
  · rwa [heq]
  · exact hw hwrite

/-- What every write to a session keeps is kept. -/
theorem exec_sess_keeps {P : Session → Prop} (h : s.exec cfg req t pc = some r) (hk : k < s.nsess)
    (hp : P (s.session k)) (hw : ∀ {sess}, s.SessionWrite cfg k pc sess → P sess) :
    P (r.1.session k) := by
  obtain heq | hwrite | ⟨rfl, -⟩ := exec_sess h k
  · rwa [heq]
  · exact hw hwrite
  · exact absurd hk (lt_irrefl _)

theorem exec_nsess (h : s.exec cfg req t pc = some r) : s.nsess ≤ r.1.nsess :=
  exec_state (P := fun s' => s.nsess ≤ s'.nsess) h le_rfl fun hw => by
    cases hw with
    | push => rw [nsess_push]
    | create => exact Nat.le_succ _
    | _ => exact le_rfl

end Server

/-- The server and its goroutines. -/
structure Sys where
  server : Server
  pc : Tid → Pc := fun _ => .idle

/-- A step of the system. -/
inductive Act where
  /-- a handshake is accepted; `serve` goes on with `attachSession` -/
  | dial (c : ℕ)
  /-- `SendEnvelope` is called; `none` is a nil envelope -/
  | sendEnvelope (i c : ℕ) (env : Option Envelope)
  /-- `SendText` is called -/
  | sendText (i c : ℕ) (payload : String)
  /-- `CloseWithCode` is called -/
  | close (i c : ℕ)
  /-- the next step of a goroutine -/
  | step (t : Tid)
  /-- `writeFrame` fails -/
  | writeFails (c : ℕ)
  /-- `evictExpired` visits a session -/
  | evict (id : String)
  /-- the client reads the next frame -/
  | receive (c : ℕ)
  | tick (d : ℕ)
  deriving DecidableEq, Repr

/-- The goroutine that moves. -/
def Act.thread : Act → Option Tid
  | .dial c => some (.serve c)
  | .sendEnvelope i _ _ | .sendText i _ _ | .close i _ => some (.user i)
  | .step t => some t
  | .writeFails c => some (.writer c)
  | .evict _ | .receive _ | .tick _ => none

namespace Sys

variable (cfg : Config) (req : ℕ → Request) (s : Sys)

def goto (t : Tid) (server : Server) (pc : Pc) : Sys :=
  ⟨server, Function.update s.pc t pc⟩

/-- A goroutine calls a method of a connection. -/
def call (i c : ℕ) (pc : Pc) : Option Sys :=
  if s.pc (.user i) = .idle ∧ s.pc (.serve c) ≠ .idle then
    some (s.goto (.user i) s.server pc)
  else none

/-- One step, if it is possible. -/
def step : Act → Option Sys
  | .dial c =>
    if s.pc (.serve c) = .idle then some (s.goto (.serve c) (s.server.dial req c) (.lookup c))
    else none
  | .sendEnvelope i c env =>
    match env with
    | none => s.call i c .done
    | some env => s.call i c (if env.action = "" then .done else .lockSeq c env)
  | .sendText i c payload => s.call i c (.check c (.text payload) .direct)
  | .close i c => s.call i c (.flag c .user)
  | .step t => (s.server.exec cfg req t (s.pc t)).map fun r => s.goto t r.1 r.2
  | .writeFails c =>
    match s.pc (.writer c) with
    | .write d _ => some (s.goto (.writer c) s.server (.flag d .writer))
    | _ => none
  | .evict id =>
    match s.server.sessions.lookup id with
    | some k =>
      if (s.server.session k).expired cfg.lifetime s.server.now then
        some { s with server := { s.server with sessions := s.server.sessions.erase id } }
      else none
    | none => none
  | .receive c =>
    match (s.server.conn c).wire with
    | f :: rest => some { s with server := s.server.deliver c f rest }
    | [] => none
  | .tick d => some { s with server := { s.server with now := s.server.now + d } }

variable {cfg req s}

theorem pc_goto {t u : Tid} {server : Server} {pc : Pc} :
    (s.goto t server pc).pc u = if u = t then pc else s.pc u :=
  Function.update_apply ..

/-- A step moves one goroutine at most. -/
theorem pc_of_step {a : Act} {s' : Sys} (h : s.step cfg req a = some s') {u : Tid}
    (hu : a.thread ≠ some u) : s'.pc u = s.pc u := by
  have hgoto : ∀ {t : Tid} {server : Server} {pc : Pc}, t ≠ u →
      (s.goto t server pc).pc u = s.pc u :=
    fun htu => pc_goto.trans (if_neg htu.symm)
  have hcall : ∀ {i c : ℕ} {pc : Pc}, s.call i c pc = some s' → .user i ≠ u → s'.pc u = s.pc u := by
    intro i c pc hc hiu
    rw [call] at hc
    split_ifs at hc
    cases hc
    exact hgoto hiu
  have hne : ∀ {t : Tid}, a.thread = some t → t ≠ u :=
    fun ht htu => hu (ht.trans (congrArg some htu))
  revert h
  fun_cases step cfg req s a <;> intro h
  all_goals first
    | exact hcall h (hne rfl)
    | (obtain rfl := Option.some.inj h; first | rfl | exact hgoto (hne rfl))
    | (obtain ⟨r, -, rfl⟩ := Option.map_eq_some_iff.1 h; exact hgoto (hne rfl))
    | cases h

/-- The goroutines outside a list have not begun. -/
def Within (ts : List Tid) (s : Sys) : Prop := ∀ u, u ∉ ts → s.pc u = .idle

theorem Within.step {ts : List Tid} {a : Act} {s' : Sys} (h : s.Within ts)
    (ha : a.thread.all (fun t => decide (t ∈ ts)) = true) (hs : s.step cfg req a = some s') :
    s'.Within ts := by
  intro u hu
  rw [pc_of_step hs, h u hu]
  intro hau
  rw [hau] at ha
  exact hu (of_decide_eq_true ha)

/-- What holds of the goroutines of the list, and of one that has not begun, holds of all. -/
theorem Within.forall {ts : List Tid} (h : s.Within ts) {P : Pc → Prop} (hidle : P .idle)
    (hts : ∀ u ∈ ts, P (s.pc u)) (u : Tid) : P (s.pc u) :=
  LTS.Quiet.forall h hidle hts u

variable (cfg req)

/-- All interleavings on a new acceptor. -/
def lts : LTS Sys Act where
  init s := ∃ now, s = { server := { now := now } }
  step s a s' := s.step cfg req a = some s'

end Sys

end WebSocket

end GinRpc
