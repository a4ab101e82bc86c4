import FungiTransport.Error
import Mathlib.Algebra.Group.Nat.Defs
import Mathlib.Data.Set.Basic
import Mathlib.Logic.Function.Basic

/-!
# Commands and the capability registry of the client actor

The client half of the capnp bridge: the commands that handles send to their actor thread, the
replies that travel back on one-shot channels, the errors and how they are mapped across the
connection, and the registry of capabilities that the actor owns.

A capability is named by a number, and so is the one-shot channel of a call: by the ticket of
the call.  Ids are `u64`s.
-/

namespace FungiTransport

/-- A capability: a reference to a server object. -/
abbrev Cap := ℕ

/-- What a registry id refers to. -/
inductive Kind where
  | transport
  | connector
  | listener
  | channel
deriving DecidableEq, Repr

/-- Parameters of `Transport::listen`. -/
structure ListenParams where
  virtPort : UInt16
  nickname : Option String
deriving DecidableEq, Repr

/-- `COMMAND_QUEUE_DEPTH` -/
def commandQueueDepth : ℕ := 32

/-- `BOOTSTRAP_ID` -/
def bootstrapId : ℕ := 0

/-- A request from a client handle to its actor, with the ticket of the call to reply to. -/
inductive Command where
  | connector (transportId : ℕ) (reply : ℕ)
  | listen (transportId : ℕ) (virtPort : UInt16) (nickname : Option String) (reply : ℕ)
  | connect (connectorId : ℕ) (addr : String) (reply : ℕ)
  | accept (listenerId : ℕ) (reply : ℕ)
  | send (channelId : ℕ) (msg : Bytes) (reply : ℕ)
  | recv (channelId : ℕ) (reply : ℕ)
  | release (id : ℕ)
  | configurePrivateNet (netFile : Bytes) (reply : ℕ)
deriving DecidableEq, Repr

/-- The capability that a command acts on. -/
def Command.target : Command → Option (Kind × ℕ)
  | .connector i _ | .listen i _ _ _ => some (.transport, i)
  | .connect i _ _ => some (.connector, i)
  | .accept i _ => some (.listener, i)
  | .send i _ _ | .recv i _ => some (.channel, i)
  | .release _ | .configurePrivateNet _ _ => none

/-- What a one-shot channel carries to the caller. -/
inductive Reply where
  | connector (id : ℕ)
  | listen (r : Except ConnectError (ℕ × String))
  | connect (r : Except ConnectError ℕ)
  | accept (r : Except ConnectError ℕ)
  | send (r : Except SendError Unit)
  | recv (r : Except RecvError Bytes)
  | configure (r : Except ConnectError Unit)
deriving DecidableEq

/-- The registry id that a reply hands to the caller, and what it refers to. -/
def Reply.id? : Reply → Option (Kind × ℕ)
  | .connector id => some (.connector, id)
  | .listen (.ok (id, _)) => some (.listener, id)
  | .connect (.ok id) | .accept (.ok id) => some (.channel, id)
  | .listen (.error _) | .connect (.error _) | .accept (.error _) | .send _ | .recv _
  | .configure _ => none

/-! ## Errors across the connection -/

/-- `capnp::ErrorKind` -/
inductive CapnpErrorKind where
  | failed
  | overloaded
  | disconnected
  | unimplemented
deriving DecidableEq, Repr

/-- `capnp::Error`: its kind and the text it displays. -/
structure CapnpError where
  kind : CapnpErrorKind
  text : String
deriving DecidableEq, Repr

/-- A capnp `Disconnected` maps to a closed channel; anything else is opaque. -/
def mapSendError (e : CapnpError) : SendError :=
  match e.kind with
  | .disconnected => .closed
  | .failed | .overloaded | .unimplemented => .transport e.text

/-- The same rule for the receive side. -/
def mapRecvError (e : CapnpError) : RecvError :=
  match e.kind with
  | .disconnected => .closed
  | .failed | .overloaded | .unimplemented => .transport e.text

/-- A capnp `Disconnected` maps to an unreachable peer; anything else is opaque. -/
def mapConnectError (e : CapnpError) : ConnectError :=
  match e.kind with
  | .disconnected => .unreachable
  | .failed | .overloaded | .unimplemented => .transport e.text

/-- Server side: a backend `Closed` becomes a `Disconnected`, other failures stay `Failed`. -/
def backendSendErrorToCapnp : SendError → CapnpError
  | .closed => ⟨.disconnected, "channel closed"⟩
  | e => ⟨.failed, e.toString⟩

/-- The same rule for the receive side. -/
def backendRecvErrorToCapnp : RecvError → CapnpError
  | .closed => ⟨.disconnected, "channel closed"⟩
  | e => ⟨.failed, e.toString⟩

/-- Server side: an `Unreachable` becomes a `Disconnected`, other failures stay `Failed`. -/
def backendConnectErrorToCapnp : ConnectError → CapnpError
  | .unreachable => ⟨.disconnected, "peer unreachable"⟩
  | e => ⟨.failed, e.toString⟩

/-! ## The registry -/

/-- Per-channel receive state: whether a capnp `recv` is outstanding, the ticket of the call
that waits for it, and the messages pulled for abandoned calls. -/
structure RecvState where
  inFlight : Bool
  waiter : Option ℕ
  buffer : List Bytes
deriving DecidableEq

/-- `RecvState::default()` -/
def RecvState.default : RecvState := ⟨false, none, []⟩

/-- The capability graph of one connection, keyed by the ids that client handles carry. -/
structure Registry where
  nextId : ℕ
  transports : ℕ → Option Cap
  connectors : ℕ → Option Cap
  listeners : ℕ → Option Cap
  channels : ℕ → Option Cap
  recvStates : ℕ → Option RecvState

namespace Registry

def new : Registry :=
  ⟨bootstrapId + 1, fun _ => none, fun _ => none, fun _ => none, fun _ => none, fun _ => none⟩

/-- Allocate a fresh id for a newly created capability. -/
def allocId (r : Registry) : ℕ × Registry :=
  (r.nextId, { r with nextId := (r.nextId + 1) % 2 ^ 64 })

/-- The map of a kind. -/
def get (r : Registry) : Kind → ℕ → Option Cap
  | .transport => r.transports
  | .connector => r.connectors
  | .listener => r.listeners
  | .channel => r.channels

/-- Store a capability in the map of its kind. -/
def insert (r : Registry) (k : Kind) (id : ℕ) (c : Cap) : Registry :=
  match k with
  | .transport => { r with transports := Function.update r.transports id (some c) }
  | .connector => { r with connectors := Function.update r.connectors id (some c) }
  | .listener => { r with listeners := Function.update r.listeners id (some c) }
  | .channel => { r with channels := Function.update r.channels id (some c) }

/-- `Command::Release`: remove the id from all five maps. -/
def release (r : Registry) (id : ℕ) : Registry :=
  { r with
    transports := Function.update r.transports id none
    connectors := Function.update r.connectors id none
    listeners := Function.update r.listeners id none
    channels := Function.update r.channels id none
    recvStates := Function.update r.recvStates id none }

def setRecvState (r : Registry) (id : ℕ) (st : RecvState) : Registry :=
  { r with recvStates := Function.update r.recvStates id (some st) }

@[simp] lemma get_insert (r : Registry) (k k' : Kind) (id id' : ℕ) (c : Cap) :
    (r.insert k id c).get k' id' = if k' = k ∧ id' = id then some c else r.get k' id' := by
  by_cases hid : id' = id
  · subst hid
    cases k <;> cases k' <;> simp [insert, get]
  · cases k <;> cases k' <;> simp [insert, get, hid]

@[simp] lemma get_release (r : Registry) (k : Kind) (id id' : ℕ) :
    (r.release id).get k id' = if id' = id then none else r.get k id' := by
  by_cases hid : id' = id
  · subst hid
    cases k <;> simp [release, get]
  · cases k <;> simp [release, get, hid]

@[simp] lemma allocId_fst (r : Registry) : r.allocId.1 = r.nextId := rfl

@[simp] lemma get_allocId (r : Registry) (k : Kind) : r.allocId.2.get k = r.get k := by
  cases k <;> rfl

@[simp] lemma recvStates_allocId (r : Registry) : r.allocId.2.recvStates = r.recvStates := rfl

@[simp] lemma recvStates_insert (r : Registry) (k : Kind) (id : ℕ) (c : Cap) :
    (r.insert k id c).recvStates = r.recvStates := by cases k <;> rfl

@[simp] lemma nextId_insert (r : Registry) (k : Kind) (id : ℕ) (c : Cap) :
    (r.insert k id c).nextId = r.nextId := by cases k <;> rfl

@[simp] lemma get_setRecvState (r : Registry) (k : Kind) (id : ℕ) (st : RecvState) :
    (r.setRecvState id st).get k = r.get k := by cases k <;> rfl

end Registry

end FungiTransport
