import FungiTransport.Error
import FungiTransport.Lib.Mpsc
import FungiTransport.Lib.Run
import Mathlib.Logic.Function.Basic

/-!
# The in-memory channel

`duplex` gives two ends over two crossed bounded queues.  A call of `send` or `recv` is a future
that borrows its end mutably; it is polled until it resolves, or dropped.  One poll is one step of
the system, and the environment says with each poll which of the timers are over.  Each end
keeps a report of every `send` that has ended and the results of its `recv`s.
-/

namespace FungiTransport

open Lib

/-- What `send` promises in this mock. -/
inductive Delivery where
  /-- `send` resolves once the message is in the peer's buffer. -/
  | confirmed
  /-- `send` resolves once the transport accepted the message; loss is silent. -/
  | bestEffort
deriving DecidableEq, Repr

/-- Knobs for the in-memory pipe; the durations in milliseconds. -/
structure MemConfig where
  capacity : Option ℕ
  maxMsgLen : Option ℕ
  latency : Option ℕ
  sendTimeout : Option ℕ
  delivery : Delivery
deriving DecidableEq, Repr

/-- The two ends of a duplex channel. -/
inductive Side where
  | a
  | b
deriving DecidableEq, Repr

namespace Side

def other : Side → Side
  | a => b
  | b => a

@[simp] lemma other_other (d : Side) : d.other.other = d := by cases d <;> rfl

@[simp] lemma other_ne (d : Side) : d.other ≠ d := by cases d <;> decide

lemma eq_or_eq_other (d e : Side) : d = e ∨ d = e.other := by cases d <;> cases e <;> decide

end Side

/-- Where a `send` future is suspended. -/
inductive MemSend where
  /-- Not polled yet: the copied message, or the limit that it exceeds. -/
  | created (msg : Except ℕ Bytes)
  /-- In the artificial latency. -/
  | sleeping (msg : Bytes)
  /-- Waiting for room in the peer's buffer. -/
  | sending (msg : Bytes)

/-- A future that borrows an end; `call` is the message that `send` was called with. -/
inductive MemFut where
  | send (call : Bytes) (state : MemSend)
  | recv

/-- How a `send` ended, and what it did on the way. -/
structure SendReport where
  msg : Bytes
  /-- `none` when the future was dropped before it resolved. -/
  result : Option (Except SendError Unit)
  /-- The units of the two budgets that it consumed. -/
  failTaken : ℕ := 0
  dropTaken : ℕ := 0
  enqueued : Bool := false
  /-- Whether the peer end was alive when the message was enqueued. -/
  peerAlive : Bool := false
deriving DecidableEq

/-- One end of an in-memory duplex channel, with the future that borrows it. -/
structure MemChannel where
  alive : Bool
  dropNext : ℕ
  failNext : ℕ
  fut : Option MemFut
  /-- The `send`s that have ended, in the order of their calls. -/
  sends : List SendReport
  recvs : List (Except RecvError Bytes)

namespace MemChannel

def new : MemChannel := ⟨true, 0, 0, none, [], []⟩

/-- The `send` in progress ends. -/
def resolve (ch : MemChannel) (r : SendReport) : MemChannel :=
  { ch with fut := none, sends := ch.sends ++ [r] }

def suspend (ch : MemChannel) (call : Bytes) (state : MemSend) : MemChannel :=
  { ch with fut := some (.send call state) }

end MemChannel

/-- `take_one`: one unit of a budget, if there is one. -/
def takeOne : ℕ → Option ℕ
  | 0 => none
  | n + 1 => some n

namespace MemChannel

variable (cfg : MemConfig) (ch : MemChannel) (q : Mpsc Bytes) (peerAlive : Bool)

/-- What `send` does before its future is first polled. -/
def copyMsg (msg : Bytes) : Except ℕ Bytes :=
  match cfg.maxMsgLen with
  | some max => if max < msg.length then .error max else .ok msg
  | none => .ok msg

/-- `tx.send(msg).await`, inside the deadline if one is set. -/
def sendConfirmed (call msg : Bytes) (elapsed : Bool) : MemChannel × Mpsc Bytes :=
  match q.trySend msg with
  | .sent q' =>
    (ch.resolve { msg := call, result := some (.ok ()), enqueued := true, peerAlive := peerAlive }, q')
  | .closed => (ch.resolve { msg := call, result := some (.error .closed) }, q)
  | .full =>
    if cfg.sendTimeout.isSome ∧ elapsed then
      (ch.resolve { msg := call, result := some (.error (.transport "send timed out")) }, q)
    else (ch.suspend call (.sending msg), q)

/-- What follows the latency. -/
def sendAwake (call msg : Bytes) (elapsed : Bool) : MemChannel × Mpsc Bytes :=
  match takeOne ch.dropNext with
  | some n =>
    ({ ch with dropNext := n }.resolve { msg := call, result := some (.ok ()), dropTaken := 1 }, q)
  | none =>
    match cfg.delivery with
    | .confirmed => ch.sendConfirmed cfg q peerAlive call msg elapsed
    | .bestEffort =>
      match q.trySend msg with
      | .sent q' =>
        (ch.resolve
          { msg := call, result := some (.ok ()), enqueued := true, peerAlive := peerAlive }, q')
      | .full | .closed => (ch.resolve { msg := call, result := some (.ok ()) }, q)

/-- Poll a `send` future: `slept` says that the latency is over, `elapsed` that the deadline
is. -/
def pollSend (call : Bytes) (slept elapsed : Bool) : MemSend → MemChannel × Mpsc Bytes
  | .created (.error max) => (ch.resolve { msg := call, result := some (.error (.tooLarge max)) }, q)
  | .created (.ok msg) =>
    match takeOne ch.failNext with
    | some n =>
      ({ ch with failNext := n }.resolve
        { msg := call, result := some (.error (.transport "injected failure")), failTaken := 1 }, q)
    | none =>
      if cfg.latency.isSome ∧ ¬ slept then (ch.suspend call (.sleeping msg), q)
      else ch.sendAwake cfg q peerAlive call msg elapsed
  | .sleeping msg =>
    if slept then ch.sendAwake cfg q peerAlive call msg elapsed
    else (ch.suspend call (.sleeping msg), q)
  | .sending msg => ch.sendConfirmed cfg q peerAlive call msg elapsed

/-- Poll a `recv` future. -/
def pollRecv : MemChannel × Mpsc Bytes :=
  match q.tryRecv with
  | .got msg q' => ({ ch with fut := none, recvs := ch.recvs ++ [.ok msg] }, q')
  | .closed => ({ ch with fut := none, recvs := ch.recvs ++ [.error .closed] }, q)
  | .empty => (ch, q)

end MemChannel

/-- A connected pair of ends; `queues d` carries what end `d` sends. -/
structure Duplex where
  cfg : MemConfig
  ends : Side → MemChannel
  queues : Side → Mpsc Bytes

/-- What can happen at a connected pair. -/
inductive MemAction where
  /-- `send` or `recv` is called: its future is made. -/
  | send (d : Side) (msg : Bytes)
  | recv (d : Side)
  /-- The future of end `d` is polled. -/
  | poll (d : Side) (slept elapsed : Bool)
  /-- The future of end `d` is dropped. -/
  | dropFut (d : Side)
  | failNext (d : Side) (n : ℕ)
  | dropNext (d : Side) (n : ℕ)
  /-- End `d` is dropped. -/
  | dropEnd (d : Side)
deriving DecidableEq, Repr

/-- `duplex`; `none` is the panic for a capacity of zero. -/
def duplex (cfg : MemConfig) : Option Duplex :=
  (Mpsc.channel (cfg.capacity.getD 1)).map fun q =>
    { cfg := cfg, ends := fun _ => .new, queues := fun _ => q }

namespace Duplex

def setEnd (s : Duplex) (d : Side) (ch : MemChannel) : Duplex :=
  { s with ends := Function.update s.ends d ch }

def setQueue (s : Duplex) (d : Side) (q : Mpsc Bytes) : Duplex :=
  { s with queues := Function.update s.queues d q }

/-- End `d`, when it is alive and no future borrows it. -/
def idle (s : Duplex) (d : Side) : Option MemChannel :=
  if (s.ends d).alive ∧ (s.ends d).fut.isNone then some (s.ends d) else none

/-- One step of the two ends and their callers. -/
def step (s : Duplex) : MemAction → Option Duplex
  | .send d msg => (s.idle d).map fun ch =>
      s.setEnd d (ch.suspend msg (.created (MemChannel.copyMsg s.cfg msg)))
  | .recv d => (s.idle d).map fun ch => s.setEnd d { ch with fut := some .recv }
  | .poll d slept elapsed =>
    match (s.ends d).fut with
    | some (.send call state) =>
      let p := (s.ends d).pollSend s.cfg (s.queues d) (s.ends d.other).alive call slept elapsed state
      some ((s.setEnd d p.1).setQueue d p.2)
    | some .recv =>
      let p := (s.ends d).pollRecv (s.queues d.other)
      some ((s.setEnd d p.1).setQueue d.other p.2)
    | none => none
  | .dropFut d =>
    match (s.ends d).fut with
    | some (.send call _) => some (s.setEnd d ((s.ends d).resolve { msg := call, result := none }))
    | some .recv => some (s.setEnd d { s.ends d with fut := none })
    | none => none
  | .failNext d n => (s.idle d).map fun ch => s.setEnd d { ch with failNext := n }
  | .dropNext d n => (s.idle d).map fun ch => s.setEnd d { ch with dropNext := n }
  | .dropEnd d => (s.idle d).map fun ch =>
      ((s.setEnd d { ch with alive := false }).setQueue d (s.queues d).dropTx).setQueue d.other
        (s.queues d.other).dropRx

end Duplex

end FungiTransport
