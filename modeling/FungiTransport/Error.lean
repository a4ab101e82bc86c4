import Mathlib.Tactic.Common

/-!
# The error types of the datagram channel

The three concrete enums consumers branch on, and the two `std::io` error kinds maps of the
framing layer.  A boxed backend error is opaque to consumers, and is modelled by the text it
displays.
-/

namespace FungiTransport

/-- Message bytes, `Vec<u8>`. -/
abbrev Bytes := List UInt8

/-- An opaque backend error, by the text it displays. -/
abbrev BoxError := String

/-- Failure to send one message. -/
inductive SendError where
  /-- The message exceeds the maximum this transport supports. -/
  | tooLarge (max : ℕ)
  /-- The channel is dead; no further messages can be sent on it. -/
  | closed
  /-- Backend-specific failure. -/
  | transport (e : BoxError)
deriving DecidableEq, Repr

/-- Failure to receive the next message. -/
inductive RecvError where
  /-- The channel is dead; no further messages will arrive on it. -/
  | closed
  /-- Backend-specific failure. -/
  | transport (e : BoxError)
deriving DecidableEq, Repr

/-- Failure to establish a channel. -/
inductive ConnectError where
  /-- The peer address could not be reached. -/
  | unreachable
  /-- Backend-specific failure. -/
  | transport (e : BoxError)
deriving DecidableEq, Repr

def SendError.toString : SendError → String
  | .tooLarge max => s!"message exceeds transport maximum of {max} bytes"
  | .closed => "channel closed"
  | .transport e => s!"transport error: {e}"

def RecvError.toString : RecvError → String
  | .closed => "channel closed"
  | .transport e => s!"transport error: {e}"

def ConnectError.toString : ConnectError → String
  | .unreachable => "peer unreachable"
  | .transport e => s!"transport error: {e}"

/-- `std::io::ErrorKind`: the kinds that the framing layer tells apart, and all others by
name. -/
inductive IoErrorKind where
  | brokenPipe
  | connectionReset
  | connectionAborted
  | unexpectedEof
  | writeZero
  | other (name : String)
deriving DecidableEq, Repr

/-- `std::io::Error`: its kind and the text it displays. -/
structure IoError where
  kind : IoErrorKind
  text : String
deriving DecidableEq, Repr

/-- Write-side errors: peer or stream gone maps to `Closed`, the rest is opaque. -/
def mapSendIo (e : IoError) : SendError :=
  match e.kind with
  | .brokenPipe | .connectionReset | .connectionAborted | .unexpectedEof | .writeZero => .closed
  | .other _ => .transport e.text

/-- Read-side errors: reset means the peer is gone, the rest is opaque. -/
def mapRecvIo (e : IoError) : RecvError :=
  match e.kind with
  | .connectionReset | .connectionAborted => .closed
  | .brokenPipe | .unexpectedEof | .writeZero | .other _ => .transport e.text

end FungiTransport
