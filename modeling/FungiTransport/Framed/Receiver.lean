import FungiTransport.Framed.Channel
import FungiTransport.Lib.Run
import Mathlib.Data.Stream.Init

/-!
# A receiving framed channel on a byte stream

The receiving end as a transition system: the bytes that the stream still holds, the channel,
and the `recv` future in progress.  The environment decides when a read returns, how many
bytes it returns, when an I/O error strikes, and when the caller drops its future.

A receiver is related to the one-shot decoder by what it *holds*: the bytes of the current
frame that it has consumed.  The results still to come are the ones that the one-shot decoder
finds in the held bytes and the rest of the stream (`Receiver.ahead`), and every step of the
receiver moves one result from there to the results returned, or none.
-/

namespace FungiTransport

open Lib FramedChannel

/-- What the caller of `recv` sees, in order. -/
inductive RecvEvent where
  /-- A `recv` resolved without its last read failing. -/
  | resolved (r : Except RecvError Bytes)
  /-- A `recv` resolved with the error of a read that failed. -/
  | ioError (e : RecvError)
  /-- A `recv` future was dropped. -/
  | cancelled

/-- The result, unless it is an I/O error or there is none. -/
def RecvEvent.result? : RecvEvent → Option (Except RecvError Bytes)
  | .resolved r => some r
  | _ => none

/-- A framed channel that receives from a byte stream. -/
structure Receiver where
  ch : FramedChannel
  /-- The bytes of the stream not read yet; the stream ends behind them. -/
  input : Bytes
  /-- The `recv` future in progress, by the await point it is suspended at. -/
  fut : Option RecvAwait
  events : List RecvEvent

/-- What can happen at a receiver. -/
inductive RecvAction where
  /-- The caller starts a `recv`. -/
  | recv
  /-- The read in progress returns `n` bytes, none only at the end of the stream. -/
  | read (n : ℕ)
  /-- The read in progress fails and transfers nothing. -/
  | readErr (e : IoError)
  /-- The caller drops the `recv` future. -/
  | drop
deriving DecidableEq, Repr

namespace Receiver

/-- The receiver after its `recv` future ran to the next await point or to its end. -/
def polled (r : Receiver) (input : Bytes) : FramedChannel × RecvPoll → Receiver
  | (ch, .pending w) => { ch := ch, input := input, fut := some w, events := r.events }
  | (ch, .ready x) =>
    { ch := ch, input := input, fut := none, events := r.events ++ [.resolved x] }

/-- One step of the receiver and its environment. -/
def step (r : Receiver) : RecvAction → Option Receiver
  | .recv =>
    match r.fut with
    | some _ => none
    | none => some (r.polled r.input r.ch.recvInner)
  | .read n =>
    match r.fut with
    | none => none
    | some w =>
      if r.input = [] then
        if n = 0 then some (r.polled [] (r.ch.recvResume w (.data []))) else none
      else if 1 ≤ n ∧ n ≤ r.input.length ∧ n ≤ r.ch.recvBuffer w then
        some (r.polled (r.input.drop n) (r.ch.recvResume w (.data (r.input.take n))))
      else none
  | .readErr e =>
    match r.fut with
    | none => none
    | some w =>
      some
        { r with
          ch := (r.ch.recvResume w (.err e)).1
          fut := none
          events := r.events ++ [.ioError (mapRecvIo e)] }
  | .drop =>
    match r.fut with
    | none => none
    | some _ => some { r with fut := none, events := r.events ++ [.cancelled] }

/-- A fresh channel on a stream that holds `input`. -/
def start (ch : FramedChannel) (input : Bytes) : Receiver :=
  { ch := ch, input := input, fut := none, events := [] }

/-- The results of the `recv` calls that were neither cancelled nor hit by an I/O error. -/
def results (r : Receiver) : List (Except RecvError Bytes) := r.events.filterMap RecvEvent.result?

end Receiver

/-! ## The reference parser -/

/-- The result of `recv` for an item that the one-shot decoder finds. -/
def itemResult (max : ℕ) : Item → Except RecvError Bytes
  | .msg payload => .ok payload
  | .tooLong len => .error (.transport (announced len max))
  | .truncated => .error (.transport midFrame)

/-- The reference parser: what a channel with limit `max` gives on the byte string `bs` and
the end of the stream, `Closed` for ever behind the last item. -/
def reference (max : ℕ) (bs : Bytes) : Stream' (Except RecvError Bytes) :=
  (decode 4 max bs).map (itemResult max) ++ₛ Stream'.const (.error .closed)

lemma reference_nil (max : ℕ) : reference max [] = Stream'.const (.error .closed) := by
  simp only [reference, decode_nil, List.map_nil, Stream'.nil_append_stream]

/-! ## What a receiver has consumed and what lies ahead of it -/

namespace Receiver

/-- The bytes of the current frame that were consumed from the stream. -/
def held (ch : FramedChannel) : Bytes :=
  ch.header.take ch.headerFilled ++ ch.payload.take ch.payloadFilled

/-- The results still to come from a channel with `input` left on its stream. -/
def ahead (ch : FramedChannel) (input : Bytes) : Stream' (Except RecvError Bytes) :=
  if ch.poisoned then Stream'.const (.error .closed)
  else reference ch.maxMsgLen (held ch ++ input)

/-- The read state between two awaits: the header is being read and the payload is empty, or
the header is complete and within the limit and the payload has its length. -/
structure ReadState (ch : FramedChannel) : Prop where
  header_length : ch.header.length = 4
  header_le : ch.headerFilled ≤ 4
  empty : ch.headerFilled < 4 → ch.payload = [] ∧ ch.payloadFilled = 0
  sized : ch.headerFilled = 4 →
    ofBe ch.header ≤ ch.maxMsgLen ∧ ch.payload.length = ofBe ch.header ∧
      ch.payloadFilled < ch.payload.length

/-- The await point that a `recv` future is suspended at is the one the read state says. -/
def Awaits (ch : FramedChannel) : RecvAwait → Prop
  | .header => ch.headerFilled < 4
  | .payload len => ch.headerFilled = 4 ∧ len = ofBe ch.header

/-- The invariant of a receiver: its read state is consistent unless the channel is poisoned,
and a future in progress is suspended where the read state says. -/
structure Inv (r : Receiver) : Prop where
  state : r.ch.poisoned = false → ReadState r.ch
  fut : ∀ w, r.fut = some w → r.ch.poisoned = false ∧ Awaits r.ch w

lemma readState_new {max : ℕ} {ch : FramedChannel} (h : FramedChannel.new max = some ch) :
    ReadState ch ∧ ch.poisoned = false ∧ ch.maxMsgLen = max ∧ held ch = [] := by
  unfold FramedChannel.new at h
  split at h
  · obtain rfl := Option.some.inj h
    exact ⟨⟨rfl, by simp, fun _ => ⟨rfl, rfl⟩, fun h0 => absurd h0 (by simp)⟩, rfl, rfl, rfl⟩
  · exact absurd h (by simp)

end Receiver

end FungiTransport
