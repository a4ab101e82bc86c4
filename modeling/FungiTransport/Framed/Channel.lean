import FungiTransport.Error
import FungiTransport.Lib.LengthPrefix

/-!
# The framed channel

`FramedChannel` turns a byte stream into a datagram channel: a four byte big-endian length,
then the payload.  The `async` functions are modelled by what they do between two await
points: a call runs up to its first await, and is resumed with the outcome of the read or the
write that it waits for.  A dropped future is one that is not resumed again, so the progress
it leaves behind is exactly what the channel's own fields hold.
-/

namespace FungiTransport

open Lib

/-- The largest message that `FramedChannel::new` callers get by default. -/
def DEFAULT_MAX_MSG_LEN : ℕ := 1024 * 1024

/-- A `FramedChannel` next to its stream: the limit, the partial-frame read state and the
poison flag. -/
structure FramedChannel where
  maxMsgLen : ℕ
  /-- `new` asserts that the limit fits in the length prefix. -/
  fits : maxMsgLen < 2 ^ 32
  header : List UInt8
  headerFilled : ℕ
  payload : Bytes
  payloadFilled : ℕ
  poisoned : Bool

/-- The outcome of one `read`: the bytes it put into the buffer, none of them at the end of
the stream, or an I/O error. -/
inductive ReadOutcome where
  | data (bytes : Bytes)
  | err (e : IoError)

/-- Where a `recv` future is suspended: in the header loop, or in the payload loop of a frame
of `len` bytes. -/
inductive RecvAwait where
  | header
  | payload (len : ℕ)
deriving DecidableEq, Repr

/-- A future that has been polled: resolved, or suspended at an await point. -/
inductive Poll (ρ ω : Type) where
  | ready (r : ρ)
  | pending (w : ω)
deriving DecidableEq, Repr

/-- Where a `send` future is suspended: writing the rest of the prefix, writing the rest of
the message, or flushing. -/
inductive SendAwait where
  | writePrefix (left msg : Bytes)
  | writeMsg (left : Bytes)
  | flush
deriving DecidableEq, Repr

/-- The outcome of one write or of the flush. -/
inductive WriteOutcome where
  | wrote (n : ℕ)
  | flushed
  | err (e : IoError)

namespace FramedChannel

/-- `FramedChannel::new`; `none` is its panic. -/
def new (maxMsgLen : ℕ) : Option FramedChannel :=
  if h : maxMsgLen < 2 ^ 32 then
    some
      { maxMsgLen := maxMsgLen
        fits := h
        header := [0, 0, 0, 0]
        headerFilled := 0
        payload := []
        payloadFilled := 0
        poisoned := false }
  else none

example : (new DEFAULT_MAX_MSG_LEN).isSome = true := by decide

/-- The text of the error for a stream that ends inside a frame. -/
def midFrame : String := "stream ended mid-frame"

/-- The text of the error for a header over the limit. -/
def announced (len max : ℕ) : String :=
  s!"peer announced a {len}-byte frame, exceeding the {max}-byte maximum"

/-- A buffer after a read put `bytes` at position `pos`. -/
def fill (buf : Bytes) (pos : ℕ) (bytes : Bytes) : Bytes :=
  buf.take pos ++ bytes ++ buf.drop (pos + bytes.length)

/-- `Vec::resize(len, 0)`. -/
def resize (buf : Bytes) (len : ℕ) : Bytes :=
  buf.take len ++ List.replicate (len - buf.length) 0

abbrev RecvPoll := Poll (Except RecvError Bytes) RecvAwait

abbrev SendPoll := Poll (Except SendError Unit) SendAwait

/-- The payload loop of `recv_inner`, up to its next read, and what follows the loop. -/
def recvPayload (ch : FramedChannel) (len : ℕ) : FramedChannel × RecvPoll :=
  if ch.payloadFilled < len then (ch, .pending (.payload len))
  else ({ ch with headerFilled := 0, payloadFilled := 0, payload := [] }, .ready (.ok ch.payload))

/-- The header loop of `recv_inner`, up to its next read, and what follows the loop. -/
def recvHeader (ch : FramedChannel) : FramedChannel × RecvPoll :=
  if ch.headerFilled < 4 then (ch, .pending .header)
  else
    let len := ofBe ch.header
    if ch.maxMsgLen < len then
      ({ ch with poisoned := true },
        .ready (.error (.transport (announced len ch.maxMsgLen))))
    else if ch.payload.length ≠ len then
      recvPayload { ch with payload := resize ch.payload len } len
    else recvPayload ch len

/-- `recv_inner` from its beginning. -/
def recvInner (ch : FramedChannel) : FramedChannel × RecvPoll :=
  if ch.poisoned then (ch, .ready (.error .closed)) else recvHeader ch

/-- `recv_inner` from the await point it is suspended at, with the outcome of the read. -/
def recvResume (ch : FramedChannel) : RecvAwait → ReadOutcome → FramedChannel × RecvPoll
  | _, .err e => (ch, .ready (.error (mapRecvIo e)))
  | .header, .data [] =>
    if ch.headerFilled = 0 then (ch, .ready (.error .closed))
    else ({ ch with poisoned := true }, .ready (.error (.transport midFrame)))
  | .header, .data (b :: bs) =>
    recvHeader
      { ch with
        header := fill ch.header ch.headerFilled (b :: bs)
        headerFilled := ch.headerFilled + (b :: bs).length }
  | .payload _, .data [] =>
    ({ ch with poisoned := true }, .ready (.error (.transport midFrame)))
  | .payload len, .data (b :: bs) =>
    recvPayload
      { ch with
        payload := fill ch.payload ch.payloadFilled (b :: bs)
        payloadFilled := ch.payloadFilled + (b :: bs).length } len

/-- The length of the buffer that a suspended `recv` hands to the stream's `read`. -/
def recvBuffer (ch : FramedChannel) : RecvAwait → ℕ
  | .header => ch.header.length - ch.headerFilled
  | .payload _ => ch.payload.length - ch.payloadFilled

/-- `send_inner` behind its first `write_all`. -/
def sendMsg (msg : Bytes) : SendPoll :=
  if msg = [] then .pending .flush else .pending (.writeMsg msg)

/-- `send_inner` from its beginning. -/
def sendInner (ch : FramedChannel) (msg : Bytes) : SendPoll :=
  if ch.maxMsgLen < msg.length then .ready (.error (.tooLarge ch.maxMsgLen))
  else .pending (.writePrefix (toBe 4 msg.length) msg)

/-- `send_inner` from the await point it is suspended at; `none` for an outcome that the
await point cannot have. -/
def sendResume : SendAwait → WriteOutcome → Option SendPoll
  | _, .err e => some (.ready (.error (mapSendIo e)))
  | .writePrefix left msg, .wrote n =>
    if left.drop n = [] then some (sendMsg msg) else some (.pending (.writePrefix (left.drop n) msg))
  | .writeMsg left, .wrote n => some (sendMsg (left.drop n))
  | .flush, .flushed => some (.ready (.ok ()))
  | _, _ => none

/-- The bytes that a suspended `send` has still to hand to the stream's writer right now. -/
def sendBuffer : SendAwait → Bytes
  | .writePrefix left _ => left
  | .writeMsg left => left
  | .flush => []

end FramedChannel

end FungiTransport
