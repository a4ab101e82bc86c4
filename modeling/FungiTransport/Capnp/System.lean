import FungiTransport.Capnp.Registry
import FungiTransport.Lib.Run

/-!
# The capnp bridge as a transition system

One capnp connection: the client handles and the futures of their calls, the command queue, the
actor with its registry and its spawned tasks, and the server objects behind the capabilities.
A step is one atomic piece of the code or of the world: a caller starts, polls or drops a
future, the actor takes a command from its queue, a task is polled, the server answers a call,
a message or a connection arrives at a backend.  All interleavings are the lists of actions.

One counter names calls (by *tickets*), handles, tasks and capabilities.  A call keeps its
ticket from start to end, the handle that a call returns has the ticket as its name, and the
object that a task's call creates has the task's name.  Dropped futures and handles stay
recorded as such.

The connection lives for the whole run, and the transport handle with it.  A served channel or
listener sits behind a mutex that hands itself out in the order of the calls and that is held
while the backend works (`lock`).
-/

namespace FungiTransport

open Lib

/-- What the actor bootstraps from the remote vat. -/
inductive Bootstrap where
  | channel
  | plugin
deriving DecidableEq, Repr

/-- The fixed parameters of a connection. -/
structure Config where
  boot : Bootstrap
  maxMsgLen : ℕ
  /-- Whether the client's address type parses a text. -/
  parses : String → Bool
  /-- Whether the backend's address type parses a text. -/
  backendParses : String → Bool
  /-- The text that a remote error displays at the client. -/
  remoteText : String → String

/-- The kind of the bootstrapped capability. -/
def Bootstrap.kind : Bootstrap → Kind
  | .channel => .channel
  | .plugin => .transport

/-- A client handle; the id of a connector is its `OnceCell`. -/
structure Handle where
  kind : Kind
  id : Option ℕ
  live : Bool
deriving DecidableEq

/-- A call through a handle `h`, with the id that the handle carries.  A `connect` first makes
sure that the connector exists. -/
inductive Op where
  | listen (params : ListenParams)
  | configure (netFile : Bytes)
  | ensure (h : ℕ) (addr : String)
  | connect (h id : ℕ) (addr : String)
  | accept (h id : ℕ)
  | send (h id : ℕ) (msg : Bytes)
  | recv (h id : ℕ)
deriving DecidableEq

namespace Op

/-- The handle that the future borrows. -/
def handle : Op → ℕ
  | .listen _ | .configure _ => 0
  | .ensure h _ | .connect h _ _ | .accept h _ | .send h _ _ | .recv h _ => h

/-- The command that the future sends to the actor. -/
def command (t : ℕ) : Op → Command
  | .listen p => .listen bootstrapId p.virtPort p.nickname t
  | .configure netFile => .configurePrivateNet netFile t
  | .ensure _ _ => .connector bootstrapId t
  | .connect _ id addr => .connect id addr t
  | .accept _ id => .accept id t
  | .send _ id msg => .send id msg t
  | .recv _ id => .recv id t

/-- What the caller gets when the reply's sender is dropped. -/
def disconnected : Op → Reply
  | .listen _ => .listen (.error .unreachable)
  | .configure _ => .configure (.error .unreachable)
  | .ensure _ _ | .connect _ _ _ => .connect (.error .unreachable)
  | .accept _ _ => .accept (.error .unreachable)
  | .send _ _ _ => .send (.error .closed)
  | .recv _ _ => .recv (.error .closed)

end Op

/-- Where a future stands. -/
inductive Status where
  /-- Waiting for another call that is creating the connector. -/
  | parked
  /-- Waiting for room in the command queue. -/
  | sending
  /-- The command is sent, the reply slot is empty. -/
  | waiting
  /-- The reply slot is filled and not polled yet. -/
  | replied (r : Reply)
  /-- The reply's sender was dropped. -/
  | closed
  /-- Resolved to its caller. -/
  | done (r : Reply)
  /-- Dropped before it resolved. -/
  | dropped
deriving DecidableEq

def Status.live : Status → Bool
  | .parked | .sending | .waiting | .replied _ | .closed => true
  | .done _ | .dropped => false

def Status.isWaiting : Status → Bool
  | .waiting => true
  | .parked | .sending | .replied _ | .closed | .done _ | .dropped => false

/-- The future of a call. -/
structure Fut where
  op : Op
  status : Status
deriving DecidableEq

/-- The capnp call that a spawned task makes, with what the task captured. -/
inductive Call where
  | listen (transport : Option Cap) (virtPort : UInt16) (nickname : Option String) (reply : ℕ)
  | onionAddr (listener : Cap) (reply : ℕ)
  | connect (connector : Option Cap) (addr : String) (reply : ℕ)
  | accept (listener : Option Cap) (reply : ℕ)
  | send (channel : Option Cap) (msg : Bytes) (reply : ℕ)
  | recv (channelId : ℕ) (channel : Option Cap)
  | configure (plugin : Cap) (netFile : Bytes) (reply : ℕ)
deriving DecidableEq

/-- The object whose mutex the server takes for the call. -/
def Call.mutex : Call → Option Cap
  | .accept c _ | .send c _ _ | .recv _ c => c
  | .listen _ _ _ _ | .onionAddr _ _ | .connect _ _ _ | .configure _ _ _ => none

/-- The results of a capnp call. -/
inductive Answer where
  | done
  | msg (m : Bytes)
  | cap (c : Cap)
  | addr (text : String)
deriving DecidableEq

/-- A spawned task: not polled yet, suspended in its capnp call, or about to be resumed. -/
inductive Stage where
  | spawned
  | issued
  | answered (r : Except CapnpError Answer)
deriving DecidableEq

structure Task where
  call : Call
  stage : Stage
deriving DecidableEq

/-- A call of a backend that ended, with its result. -/
inductive BackendCall where
  | listen (params : ListenParams) (r : Except ConnectError (Cap × String))
  | connect (connector : Cap) (addr : String) (r : Except ConnectError Cap)
  | accept (listener : Cap) (r : Except ConnectError ℕ)
  | send (channel : Cap) (msg : Bytes) (r : Except SendError Unit)
  | recv (channel : Cap) (r : Except RecvError Bytes)
  | configure (netFile : Bytes) (r : Except String Unit)
deriving DecidableEq

/-- The state of one connection. -/
structure Sys where
  cfg : Config
  /-- The bootstrapped plugin capability. -/
  plugin : Option Cap
  fresh : ℕ
  handles : ℕ → Option Handle
  futs : ℕ → Option Fut
  queue : List Command
  reg : Registry
  tasks : ℕ → Option Task
  /-- The calls at the mutex of an object: the first one holds it, the others wait. -/
  lock : Cap → List ℕ
  /-- The messages that have arrived at the backend of a channel object. -/
  inbox : Cap → List Bytes
  /-- The connections that have arrived at the backend of a listener object. -/
  inbound : Cap → List ℕ
  /-- The published address of a listener object. -/
  addr : Cap → String
  /-- The inbound connection that a channel object serves. -/
  serves : Cap → Option ℕ
  /-- The capabilities for which an id was allocated, in order. -/
  created : List (Kind × Cap)
  /-- The ids whose `Release` the actor has processed. -/
  released : List ℕ
  /-- The tickets of the futures that resolved, in order. -/
  resolved : List ℕ
  /-- The calls of backends that ended, in order. -/
  backend : List BackendCall

/-- What the server makes of a call. -/
inductive Outcome where
  | ok
  | listening (addr : String)
  | connErr (e : ConnectError)
  | sendErr (e : SendError)
  | recvErr (e : RecvError)
  | configErr (e : String)
  /-- The call fails in the RPC system, outside of any backend. -/
  | rpcErr (e : CapnpError)
deriving DecidableEq

def Outcome.isRpcErr : Outcome → Bool
  | .rpcErr _ => true
  | .ok | .listening _ | .connErr _ | .sendErr _ | .recvErr _ | .configErr _ => false

inductive Action where
  | newConnector
  | listen (params : ListenParams)
  | configure (netFile : Bytes)
  | connect (h : ℕ) (addr : String)
  | accept (h : ℕ)
  | send (h : ℕ) (msg : Bytes)
  | recv (h : ℕ)
  /-- A `connect` that waits for the connector is polled again. -/
  | wake (t : ℕ)
  /-- The command of a call enters the queue. -/
  | enqueue (t : ℕ)
  /-- The caller polls a reply that has arrived. -/
  | resolve (t : ℕ)
  /-- The caller drops a future that has not resolved. -/
  | dropFut (t : ℕ)
  /-- The caller drops a handle; its `Release` enters the queue or is lost. -/
  | dropHandle (h : ℕ) (delivered : Bool)
  /-- The actor takes a command from the queue. -/
  | dequeue
  /-- A spawned task is polled for the first time. -/
  | poll (k : ℕ)
  /-- The server answers a task's call. -/
  | answer (k : ℕ) (o : Outcome)
  /-- A task is resumed with the answer of its call. -/
  | resume (k : ℕ)
  /-- A message arrives at the backend of a channel object. -/
  | arriveMsg (c : Cap) (m : Bytes)
  /-- A connection arrives at the backend of a listener object. -/
  | arriveConn (c : Cap) (n : ℕ)
deriving DecidableEq

namespace Sys

/-- A fresh connection: the bootstrapped capability is object `0`, the plugin object `1`. -/
def init (cfg : Config) : Sys where
  cfg := cfg
  plugin := if cfg.boot = .plugin then some 1 else none
  fresh := 2
  handles := Function.update (fun _ => none) 0 (some ⟨cfg.boot.kind, some bootstrapId, true⟩)
  futs := fun _ => none
  queue := []
  reg := Registry.new.insert cfg.boot.kind bootstrapId 0
  tasks := fun _ => none
  lock := fun _ => []
  inbox := fun _ => []
  inbound := fun _ => []
  addr := fun _ => ""
  serves := fun _ => none
  created := [(cfg.boot.kind, 0)]
  released := []
  resolved := []
  backend := []

/-! ## Callers -/

/-- A live handle of a kind. -/
def liveHandle (s : Sys) (h : ℕ) (k : Kind) : Option Handle :=
  (s.handles h).filter fun x => x.live ∧ x.kind = k

/-- Some future that has not ended borrows the handle. -/
def borrowed (s : Sys) (h : ℕ) : Bool :=
  (List.range s.fresh).any fun t =>
    (s.futs t).any fun f => f.status.live && f.op.handle == h

/-- Some call is creating the connector, holding the permit of the `OnceCell`. -/
def initialising (s : Sys) (h : ℕ) : Bool :=
  (List.range s.fresh).any fun t =>
    (s.futs t).any fun f =>
      match f.op with
      | .ensure h' _ => f.status.live && f.status != .parked && h' == h
      | _ => false

def setFut (s : Sys) (t : ℕ) (f : Fut) : Sys :=
  { s with futs := Function.update s.futs t (some f) }

def setHandle (s : Sys) (h : ℕ) (x : Handle) : Sys :=
  { s with handles := Function.update s.handles h (some x) }

/-- A new future. -/
def start (s : Sys) (op : Op) (st : Status) : Sys :=
  { s.setFut s.fresh ⟨op, st⟩ with fresh := s.fresh + 1 }

/-- A future resolves. -/
def resolveTo (s : Sys) (t : ℕ) (op : Op) (r : Reply) : Sys :=
  { s.setFut t ⟨op, .done r⟩ with resolved := s.resolved ++ [t] }

/-- `Transport::connector` -/
def newConnector (s : Sys) : Option Sys :=
  (s.liveHandle 0 .transport).map fun _ =>
    { s.setHandle s.fresh ⟨.connector, none, true⟩ with fresh := s.fresh + 1 }

/-- `Transport::listen` and `CapnpTransport::configure_private_net` -/
def startTransport (s : Sys) (op : Op) : Option Sys :=
  (s.liveHandle 0 .transport).map fun _ => s.start op .sending

/-- `Connector::connect` -/
def startConnect (s : Sys) (h : ℕ) (addr : String) : Option Sys :=
  (s.liveHandle h .connector).map fun x =>
    match x.id with
    | some id => s.start (.connect h id addr) .sending
    -- one call at a time creates the connector; the others wait for the permit of the cell
    | none => s.start (.ensure h addr) (if s.initialising h then .parked else .sending)

/-- `Listener::accept`, which takes `&mut self` -/
def startAccept (s : Sys) (h : ℕ) : Option Sys :=
  if s.borrowed h then none
  else ((s.liveHandle h .listener).bind (·.id)).map fun id => s.start (.accept h id) .sending

/-- `Channel::send`, which takes `&mut self`: a message over the limit is rejected locally. -/
def startSend (s : Sys) (h : ℕ) (msg : Bytes) : Option Sys :=
  if s.borrowed h then none
  else
    ((s.liveHandle h .channel).bind (·.id)).map fun id =>
      if s.cfg.maxMsgLen < msg.length then
        { s.start (.send h id msg) (.done (.send (.error (.tooLarge s.cfg.maxMsgLen)))) with
          resolved := s.resolved ++ [s.fresh] }
      else s.start (.send h id msg) .sending

/-- `Channel::recv`, which takes `&mut self` -/
def startRecv (s : Sys) (h : ℕ) : Option Sys :=
  if s.borrowed h then none
  else ((s.liveHandle h .channel).bind (·.id)).map fun id => s.start (.recv h id) .sending

/-- A `connect` that waits for the connector takes it from the cell, or creates it when the call
that was creating it has failed or was dropped. -/
def wake (s : Sys) (t : ℕ) : Option Sys :=
  match s.futs t with
  | some ⟨.ensure h addr, .parked⟩ =>
    match (s.handles h).bind (·.id) with
    | some id => some (s.setFut t ⟨.connect h id addr, .sending⟩)
    | none =>
      if s.initialising h then none else some (s.setFut t ⟨.ensure h addr, .sending⟩)
  | _ => none

/-- `tx.send(command).await` completes. -/
def enqueue (s : Sys) (t : ℕ) : Option Sys :=
  match s.futs t with
  | some ⟨op, .sending⟩ =>
    if s.queue.length < commandQueueDepth then
      some { s.setFut t ⟨op, .waiting⟩ with queue := s.queue ++ [op.command t] }
    else none
  | _ => none

/-- The future takes its reply: it resolves, or goes on with the connector it has created. -/
def onReply (s : Sys) (t : ℕ) : Op → Reply → Option Sys
  | op@(.listen _), .listen (.ok (id, addr)) =>
    if s.cfg.parses addr then
      some ((s.setHandle t ⟨.listener, some id, true⟩).resolveTo t op (.listen (.ok (id, addr))))
    else some (s.resolveTo t op (.listen (.error (.transport "unparseable listener address"))))
  | .ensure h addr, .connector id =>
    (s.handles h).map fun x =>
      (s.setHandle h { x with id := some id }).setFut t ⟨.connect h id addr, .sending⟩
  | op@(.connect _ _ _), .connect (.ok id) =>
    some ((s.setHandle t ⟨.channel, some id, true⟩).resolveTo t op (.connect (.ok id)))
  | op@(.accept _ _), .accept (.ok id) =>
    some ((s.setHandle t ⟨.channel, some id, true⟩).resolveTo t op (.accept (.ok id)))
  | op@(.listen _), .listen (.error e) => some (s.resolveTo t op (.listen (.error e)))
  | op@(.connect _ _ _), .connect (.error e) => some (s.resolveTo t op (.connect (.error e)))
  | op@(.accept _ _), .accept (.error e) => some (s.resolveTo t op (.accept (.error e)))
  | op@(.send _ _ _), .send r => some (s.resolveTo t op (.send r))
  | op@(.recv _ _), .recv r => some (s.resolveTo t op (.recv r))
  | op@(.configure _), .configure r => some (s.resolveTo t op (.configure r))
  | _, _ => none

def resolve (s : Sys) (t : ℕ) : Option Sys :=
  match s.futs t with
  | some ⟨op, .replied r⟩ => s.onReply t op r
  | some ⟨op, .closed⟩ => some (s.resolveTo t op op.disconnected)
  | _ => none

def dropFut (s : Sys) (t : ℕ) : Option Sys :=
  match s.futs t with
  | some ⟨op, st⟩ => if st.live then some (s.setFut t ⟨op, .dropped⟩) else none
  | none => none

/-- The `Drop` of a handle: `try_send` its `Release`. -/
def dropHandle (s : Sys) (h : ℕ) (delivered : Bool) : Option Sys :=
  match s.handles h with
  | some ⟨kind, id, true⟩ =>
    if kind = .transport ∨ s.borrowed h then none
    else
      let s' := s.setHandle h ⟨kind, id, false⟩
      match id with
      | none => some s'
      | some i =>
        if delivered then
          if s.queue.length < commandQueueDepth then
            some { s' with queue := s.queue ++ [.release i] }
          else none
        else some s'
  | _ => none

/-! ## One-shot replies -/

/-- The receiver of the reply is still there. -/
def accepts (s : Sys) (t : ℕ) : Bool := (s.futs t).any fun f => f.status.isWaiting

def setStatus (s : Sys) (t : ℕ) (st : Status) : Sys :=
  match s.futs t with
  | some f => s.setFut t { f with status := st }
  | none => s

/-- `let _ = reply.send(r)` -/
def reply (s : Sys) (t : ℕ) (r : Reply) : Sys :=
  if s.accepts t then s.setStatus t (.replied r) else s

/-- The sender of a reply is dropped. -/
def closeReply (s : Sys) (t : ℕ) : Sys := if s.accepts t then s.setStatus t .closed else s

/-- The sender that a receive state holds is dropped. -/
def closeWaiter (s : Sys) : Option ℕ → Sys
  | some w => s.closeReply w
  | none => s

/-! ## The actor -/

/-- `spawn_local` -/
def spawn (s : Sys) (call : Call) : Sys :=
  { s with
    tasks := Function.update s.tasks s.fresh (some ⟨call, .spawned⟩)
    fresh := s.fresh + 1 }

/-- Allocate an id for a new capability and store it in the map of its kind. -/
def install (s : Sys) (k : Kind) (c : Cap) : Sys :=
  { s with
    reg := s.reg.allocId.2.insert k s.reg.allocId.1 c
    created := s.created ++ [(k, c)] }

/-- `Command::Connector`, served inline by pipelining. -/
def onConnector (s : Sys) (transportId t : ℕ) : Sys :=
  match s.reg.transports transportId with
  | some _ =>
    ({ s with fresh := s.fresh + 1 }.install .connector s.fresh).reply t
      (.connector s.reg.allocId.1)
  | none => s.closeReply t

/-- `Command::Recv`: serve it from the buffer, or make it the waiter of the capnp `recv` that is
outstanding or spawned here. -/
def onRecv (s : Sys) (channelId t : ℕ) : Sys :=
  let st := (s.reg.recvStates channelId).getD .default
  match st.buffer with
  | msg :: rest =>
    if s.accepts t then
      { s with reg := s.reg.setRecvState channelId { st with buffer := rest } }.reply t
        (.recv (.ok msg))
    -- nobody waits for the message any more: it goes back to the front of the buffer
    else { s with reg := s.reg.setRecvState channelId st }
  | [] =>
    -- the sender of an earlier waiter is overwritten, and so dropped
    let s' := { s.closeWaiter st.waiter with
      reg := s.reg.setRecvState channelId { st with waiter := some t, inFlight := true } }
    if st.inFlight then s' else s'.spawn (.recv channelId (s.reg.channels channelId))

/-- `Command::Release` -/
def onRelease (s : Sys) (id : ℕ) : Sys :=
  { s.closeWaiter ((s.reg.recvStates id).bind (·.waiter)) with
    reg := s.reg.release id
    released := id :: s.released }

/-- One round of the actor's loop. -/
def onCommand (s : Sys) : Command → Sys
  | .connector i t => s.onConnector i t
  | .listen i virtPort nickname t => s.spawn (.listen (s.reg.transports i) virtPort nickname t)
  | .connect i addr t => s.spawn (.connect (s.reg.connectors i) addr t)
  | .accept i t => s.spawn (.accept (s.reg.listeners i) t)
  | .send i msg t => s.spawn (.send (s.reg.channels i) msg t)
  | .recv i t => s.onRecv i t
  | .release i => s.onRelease i
  | .configurePrivateNet netFile t =>
    match s.plugin with
    | some plugin => s.spawn (.configure plugin netFile t)
    | none => s.reply t (.configure (.error .unreachable))

def dequeue (s : Sys) : Option Sys :=
  match s.queue with
  | [] => none
  | c :: rest => some ({ s with queue := rest }.onCommand c)

/-! ## Tasks and the server -/

def setTask (s : Sys) (k : ℕ) (x : Option Task) : Sys :=
  { s with tasks := Function.update s.tasks k x }

/-- The messages of a `recv` result. -/
def messages : Except RecvError Bytes → List Bytes
  | .ok m => [m]
  | .error _ => []

/-- The end of a `recv` task: hand the result to the waiter, or keep its message for the next
`recv`.  The state of a channel that was released meanwhile is not created again. -/
def completeRecv (s : Sys) (channelId : ℕ) (result : Except RecvError Bytes) : Sys :=
  match s.reg.recvStates channelId with
  | none => s
  | some st =>
    let kept := { s with
      reg := s.reg.setRecvState channelId ⟨false, none, st.buffer ++ messages result⟩ }
    match st.waiter with
    | none => kept
    | some w =>
      if s.accepts w then
        { s with reg := s.reg.setRecvState channelId ⟨false, none, st.buffer⟩ }.reply w
          (.recv result)
      else kept

/-- The call is made: it joins the calls at the mutex of its object. -/
def issue (s : Sys) (k : ℕ) (call : Call) : Sys :=
  match call.mutex with
  | some c =>
    { s.setTask k (some ⟨call, .issued⟩) with
      lock := Function.update s.lock c (s.lock c ++ [k]) }
  | none => s.setTask k (some ⟨call, .issued⟩)

/-- The first poll of a task: without its capability it fails at once, else the call is made. -/
def poll (s : Sys) (k : ℕ) : Option Sys :=
  match s.tasks k with
  | some ⟨call, .spawned⟩ =>
    match call with
    | .listen none _ _ t => some ((s.setTask k none).reply t (.listen (.error .unreachable)))
    | .connect none _ t => some ((s.setTask k none).reply t (.connect (.error .unreachable)))
    | .accept none t => some ((s.setTask k none).reply t (.accept (.error .unreachable)))
    | .send none _ t => some ((s.setTask k none).reply t (.send (.error .closed)))
    | .recv id none => some ((s.setTask k none).completeRecv id (.error .closed))
    | call => some (s.issue k call)
  | _ => none

/-- A capnp error as the client sees it. -/
def remote (s : Sys) (e : CapnpError) : CapnpError := { e with text := s.cfg.remoteText e.text }

/-- Record a call of a backend. -/
def log (s : Sys) (b : BackendCall) : Sys := { s with backend := s.backend ++ [b] }

/-- What the server objects do with the call of task `k`: `TransportServer`, `ListenerServer`,
`ConnectorServer`, `BackendServer` and `FixturesServer`. -/
def serve (s : Sys) (k : ℕ) : Call → Outcome → Option (Sys × Except CapnpError Answer)
  | .listen (some _) virtPort nickname _, o =>
    let text := nickname.getD ""
    let params : ListenParams := ⟨virtPort, if text = "" then none else some text⟩
    match o with
    | .listening addr =>
      some ({ s.log (.listen params (.ok (k, addr))) with
        addr := Function.update s.addr k addr }, .ok (.cap k))
    | .connErr e =>
      some (s.log (.listen params (.error e)), .error (s.remote (backendConnectErrorToCapnp e)))
    | .rpcErr e => some (s, .error e)
    | _ => none
  | .onionAddr c _, .ok => some (s, .ok (.addr (s.addr c)))
  | .connect (some c) addr _, .ok =>
    -- `ConnectorServer` parses the address before it asks the backend
    if s.cfg.backendParses addr then some (s.log (.connect c addr (.ok k)), .ok (.cap k))
    else some (s, .error (s.remote ⟨.failed, "invalid address"⟩))
  | .connect (some c) addr _, .connErr e =>
    if s.cfg.backendParses addr then
      some (s.log (.connect c addr (.error e)), .error (s.remote (backendConnectErrorToCapnp e)))
    else none
  | .accept (some c) _, .ok =>
    match s.inbound c with
    | n :: rest =>
      some ({ s.log (.accept c (.ok n)) with
        inbound := Function.update s.inbound c rest
        serves := Function.update s.serves k (some n) }, .ok (.cap k))
    | [] => none
  | .accept (some c) _, .connErr e =>
    some (s.log (.accept c (.error e)), .error (s.remote (backendConnectErrorToCapnp e)))
  | .send (some c) msg _, .ok => some (s.log (.send c msg (.ok ())), .ok .done)
  | .send (some c) msg _, .sendErr e =>
    some (s.log (.send c msg (.error e)), .error (s.remote (backendSendErrorToCapnp e)))
  | .recv _ (some c), .ok =>
    match s.inbox c with
    | m :: rest =>
      some ({ s.log (.recv c (.ok m)) with inbox := Function.update s.inbox c rest },
        .ok (.msg m))
    | [] => none
  | .recv _ (some c), .recvErr e =>
    some (s.log (.recv c (.error e)), .error (s.remote (backendRecvErrorToCapnp e)))
  | .configure _ netFile _, .ok => some (s.log (.configure netFile (.ok ())), .ok .done)
  | .configure _ netFile _, .configErr e =>
    some (s.log (.configure netFile (.error e)), .error (s.remote ⟨.failed, e⟩))
  | _, .rpcErr e => some (s, .error e)
  | _, _ => none

/-- The backend works for the call: the call holds the mutex of its object. -/
def holds (s : Sys) (k : ℕ) (call : Call) : Bool :=
  match call.mutex with
  | some c => (s.lock c).head? == some k
  | none => true

/-- The server answers an issued call; the call leaves the mutex of its object.  Only a failure
outside of the backend may come while the call waits for the mutex. -/
def answer (s : Sys) (k : ℕ) (o : Outcome) : Option Sys :=
  match s.tasks k with
  | some ⟨call, .issued⟩ =>
    if s.holds k call ∨ o.isRpcErr then
      (s.serve k call o).map fun (s', r) =>
        match call.mutex with
        | some c =>
          { s'.setTask k (some ⟨call, .answered r⟩) with
            lock := Function.update s.lock c ((s.lock c).erase k) }
        | none => s'.setTask k (some ⟨call, .answered r⟩)
    else none
  | _ => none

/-- The rest of a task behind its call: store what was created, and reply. -/
def onAnswer (s : Sys) (k : ℕ) : Call → Except CapnpError Answer → Option Sys
  -- the same task asks the new listener for its address before it replies
  | .listen _ _ _ t, .ok (.cap c) => some (s.setTask k (some ⟨.onionAddr c t, .issued⟩))
  | .listen _ _ _ t, .error e =>
    some ((s.setTask k none).reply t (.listen (.error (mapConnectError e))))
  | .onionAddr c t, .ok (.addr text) =>
    some (((s.setTask k none).install .listener c).reply t
      (.listen (.ok (s.reg.allocId.1, text))))
  | .onionAddr _ t, .error e =>
    some ((s.setTask k none).reply t (.listen (.error (mapConnectError e))))
  | .connect _ _ t, .ok (.cap c) =>
    some (((s.setTask k none).install .channel c).reply t (.connect (.ok s.reg.allocId.1)))
  | .connect _ _ t, .error e =>
    some ((s.setTask k none).reply t (.connect (.error (mapConnectError e))))
  | .accept _ t, .ok (.cap c) =>
    some (((s.setTask k none).install .channel c).reply t (.accept (.ok s.reg.allocId.1)))
  | .accept _ t, .error e =>
    some ((s.setTask k none).reply t (.accept (.error (mapConnectError e))))
  | .send _ _ t, .ok .done => some ((s.setTask k none).reply t (.send (.ok ())))
  | .send _ _ t, .error e => some ((s.setTask k none).reply t (.send (.error (mapSendError e))))
  | .recv id _, .ok (.msg m) => some ((s.setTask k none).completeRecv id (.ok m))
  | .recv id _, .error e => some ((s.setTask k none).completeRecv id (.error (mapRecvError e)))
  | .configure _ _ t, .ok .done => some ((s.setTask k none).reply t (.configure (.ok ())))
  | .configure _ _ t, .error e =>
    some ((s.setTask k none).reply t (.configure (.error (mapConnectError e))))
  | _, _ => none

def resume (s : Sys) (k : ℕ) : Option Sys :=
  match s.tasks k with
  | some ⟨call, .answered r⟩ => s.onAnswer k call r
  | _ => none

/-- One step of the connection. -/
def step (s : Sys) : Action → Option Sys
  | .newConnector => s.newConnector
  | .listen params => s.startTransport (.listen params)
  | .configure netFile => s.startTransport (.configure netFile)
  | .connect h addr => s.startConnect h addr
  | .accept h => s.startAccept h
  | .send h msg => s.startSend h msg
  | .recv h => s.startRecv h
  | .wake t => s.wake t
  | .enqueue t => s.enqueue t
  | .resolve t => s.resolve t
  | .dropFut t => s.dropFut t
  | .dropHandle h delivered => s.dropHandle h delivered
  | .dequeue => s.dequeue
  | .poll k => s.poll k
  | .answer k o => s.answer k o
  | .resume k => s.resume k
  | .arriveMsg c m => some { s with inbox := Function.update s.inbox c (s.inbox c ++ [m]) }
  | .arriveConn c n => some { s with inbound := Function.update s.inbound c (s.inbound c ++ [n]) }

end Sys

end FungiTransport
