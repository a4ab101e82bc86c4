import FungiTransport.Framed.ReadState
import FungiTransport.Framed.Sender
import FungiTransport.Mem.Duplex

/-!
# A connected pair of framed channels

Two framed channels on the two ends of a byte pipe that carries both directions, each with the
same bounded room.  A call in progress at an end is suspended at a read or a write; a read takes
some of the bytes that have arrived, and a write puts some of its bytes where there is room.
When an end is dropped the other one meets the end of its stream, once it has read what is left,
or errors of any kind.  The flush of such a stream does nothing and succeeds.

A `recv` may be dropped, and so may an end that has no call in progress; a `send` goes on until it
has resolved.  What a dropped `send` leaves behind it is the subject of `received_was_sent`.

Each end, seen alone, is an `Endpoint` (`FramedEnd.endpoint`), so what was shown of its read state
holds here; what the pipe adds is the flow of bytes from one end to the other (`FramedPair.Flow`).
-/

namespace FungiTransport

open Lib FramedChannel

/-- A call that has resolved, with its result. -/
inductive Resolved where
  | sent (msg : Bytes) (r : Except SendError Unit)
  | received (r : Except RecvError Bytes)
deriving DecidableEq

/-- A call in progress, by the await point it is suspended at. -/
inductive Pending where
  | recv (w : RecvAwait)
  | send (msg : Bytes) (w : SendAwait)
deriving DecidableEq

/-- One end of the pair: its channel and the call in progress on it. -/
structure FramedEnd where
  ch : FramedChannel
  alive : Bool
  fut : Option Pending
  /-- The bytes that the end has read. -/
  consumed : Bytes
  /-- The calls that have resolved, in order. -/
  log : List Resolved

/-- The pair; `pipes d` carries the bytes that end `d` has written and the other end has not yet
read. -/
structure FramedPair where
  room : ℕ
  ends : Side → FramedEnd
  pipes : Side → Bytes

/-- What can happen at a connected pair; no `send` future is dropped. -/
inductive PairAction where
  | recv (d : Side)
  /-- The read in progress at end `d` returns `n` bytes, none only at the end of the stream. -/
  | read (d : Side) (n : ℕ)
  | readErr (d : Side) (e : IoError)
  | send (d : Side) (msg : Bytes)
  /-- The write in progress at end `d` takes the first `n` bytes of its buffer. -/
  | write (d : Side) (n : ℕ)
  | writeErr (d : Side) (e : IoError)
  | flush (d : Side)
  /-- The `recv` future in progress at end `d` is dropped. -/
  | dropRecv (d : Side)
  /-- End `d` is dropped. -/
  | dropEnd (d : Side)
deriving DecidableEq, Repr

/-- The end that an action is about. -/
def PairAction.side : PairAction → Side
  | .recv d | .read d _ | .readErr d _ | .send d _ | .write d _ | .writeErr d _ | .flush d
  | .dropRecv d | .dropEnd d => d

namespace FramedEnd

def new (ch : FramedChannel) : FramedEnd := ⟨ch, true, none, [], []⟩

/-- The end after its `recv` future ran to the next await point or to its end. -/
def polled (e : FramedEnd) : FramedChannel × RecvPoll → FramedEnd
  | (ch, .pending w) => { e with ch := ch, fut := some (.recv w) }
  | (ch, .ready x) => { e with ch := ch, fut := none, log := e.log ++ [.received x] }

/-- The end after its `send` future did. -/
def sent (e : FramedEnd) (msg : Bytes) : SendPoll → FramedEnd
  | .pending w => { e with fut := some (.send msg w) }
  | .ready r => { e with fut := none, log := e.log ++ [.sent msg r] }

end FramedEnd

/-- `FramedChannel::new` at both ends of a fresh pipe. -/
def framedPair (room : ℕ) (a b : FramedChannel) : FramedPair :=
  { room := room
    ends := fun | .a => .new a | .b => .new b
    pipes := fun _ => [] }

namespace FramedPair

def setEnd (s : FramedPair) (d : Side) (e : FramedEnd) : FramedPair :=
  { s with ends := Function.update s.ends d e }

def setPipe (s : FramedPair) (d : Side) (bytes : Bytes) : FramedPair :=
  { s with pipes := Function.update s.pipes d bytes }

/-- End `d`, when it is alive and no call is in progress on it. -/
def idle (s : FramedPair) (d : Side) : Option FramedEnd :=
  if (s.ends d).alive ∧ (s.ends d).fut.isNone then some (s.ends d) else none

/-- A read of `n` bytes at end `d`. -/
def read (s : FramedPair) (d : Side) (n : ℕ) (w : RecvAwait) : Option FramedPair :=
  let e := s.ends d
  let pipe := s.pipes d.other
  if pipe = [] then
    -- the end of the stream, once the other end is gone
    if n = 0 ∧ (s.ends d.other).alive = false then
      some (s.setEnd d (e.polled (e.ch.recvResume w (.data []))))
    else none
  else if 1 ≤ n ∧ n ≤ pipe.length ∧ n ≤ e.ch.recvBuffer w then
    some ((s.setEnd d ({ e with consumed := e.consumed ++ pipe.take n }.polled
      (e.ch.recvResume w (.data (pipe.take n))))).setPipe d.other (pipe.drop n))
  else none

/-- A write of `n` bytes at end `d`. -/
def write (s : FramedPair) (d : Side) (n : ℕ) (msg : Bytes) (w : SendAwait) : Option FramedPair :=
  if (1 ≤ n ∧ n ≤ (sendBuffer w).length) ∧ (s.pipes d).length + n ≤ s.room then
    (sendResume w (.wrote n)).map fun p =>
      (s.setEnd d ((s.ends d).sent msg p)).setPipe d (s.pipes d ++ (sendBuffer w).take n)
  else none

/-- One step of the two ends, their callers and the pipe. -/
def step (s : FramedPair) : PairAction → Option FramedPair
  | .recv d => (s.idle d).map fun e => s.setEnd d (e.polled e.ch.recvInner)
  | .read d n =>
    match (s.ends d).fut with
    | some (.recv w) => s.read d n w
    | _ => none
  | .readErr d err =>
    match (s.ends d).fut with
    | some (.recv w) =>
      if (s.ends d.other).alive then none
      else some (s.setEnd d ((s.ends d).polled ((s.ends d).ch.recvResume w (.err err))))
    | _ => none
  | .send d msg => (s.idle d).map fun e => s.setEnd d (e.sent msg (e.ch.sendInner msg))
  | .write d n =>
    match (s.ends d).fut with
    | some (.send msg w) => s.write d n msg w
    | _ => none
  | .writeErr d err =>
    match (s.ends d).fut with
    | some (.send msg w) =>
      if (s.ends d.other).alive ∨ sendBuffer w = [] then none
      else (sendResume w (.err err)).map fun p => s.setEnd d ((s.ends d).sent msg p)
    | _ => none
  | .flush d =>
    match (s.ends d).fut with
    | some (.send msg w) =>
      (sendResume w .flushed).map fun p => s.setEnd d ((s.ends d).sent msg p)
    | _ => none
  | .dropRecv d =>
    match (s.ends d).fut with
    | some (.recv _) => some (s.setEnd d { s.ends d with fut := none })
    | _ => none
  | .dropEnd d => (s.idle d).map fun e => s.setEnd d { e with alive := false }

end FramedPair

end FungiTransport
