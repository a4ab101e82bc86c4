import FungiTransport.Framed.Decode

/-!
# One end of a framed channel, with both directions

The channel next to a stream that is known by its outcomes: a read returns bytes, reports the
end of the stream or fails, and behind an end of the stream or a reset it reports the end for
ever.  `recv` and `send` borrow the channel mutably, so one call is in progress at a time; either
may be dropped at an await point.
-/

namespace FungiTransport

open Lib FramedChannel

/-- The errors that mean that the connection is gone. -/
def IoError.IsReset (e : IoError) : Prop :=
  e.kind = .connectionReset ∨ e.kind = .connectionAborted

instance (e : IoError) : Decidable e.IsReset :=
  inferInstanceAs (Decidable (e.kind = .connectionReset ∨ e.kind = .connectionAborted))

lemma mapRecvIo_eq_closed {e : IoError} : mapRecvIo e = .closed ↔ e.IsReset := by
  obtain ⟨kind, text⟩ := e
  cases kind <;> simp [mapRecvIo, IoError.IsReset]

/-- A framed channel with the call in progress on it. -/
structure Endpoint where
  ch : FramedChannel
  /-- The bytes read from the stream so far. -/
  consumed : Bytes
  /-- The stream reports its end to every further read. -/
  ended : Bool
  fut : Option (RecvAwait ⊕ SendAwait)
  /-- The results of the `recv` calls that resolved, in order. -/
  results : List (Except RecvError Bytes)

inductive EndpointAction where
  /-- The caller starts a `recv`. -/
  | recv
  /-- The read in progress puts `bytes` into its buffer. -/
  | read (bytes : Bytes)
  /-- The read in progress fails. -/
  | readErr (e : IoError)
  /-- The caller starts a `send`. -/
  | send (msg : Bytes)
  /-- The write in progress takes the first `n` bytes of its buffer. -/
  | write (n : ℕ)
  /-- The flush succeeds. -/
  | flush
  /-- The write or the flush in progress fails. -/
  | writeErr (e : IoError)
  /-- The caller drops the future in progress. -/
  | drop
deriving DecidableEq, Repr

namespace Endpoint

/-- A fresh channel on a fresh stream. -/
def start (ch : FramedChannel) : Endpoint :=
  { ch := ch, consumed := [], ended := false, fut := none, results := [] }

/-- The endpoint after its `recv` future ran to the next await point or to its end. -/
def polled (s : Endpoint) : FramedChannel × RecvPoll → Endpoint
  | (ch, .pending w) => { s with ch := ch, fut := some (.inl w) }
  | (ch, .ready x) => { s with ch := ch, fut := none, results := s.results ++ [x] }

/-- The endpoint after its `send` future did. -/
def sent (s : Endpoint) : SendPoll → Endpoint
  | .pending w => { s with fut := some (.inr w) }
  | .ready _ => { s with fut := none }

/-- The endpoint when its stream has handed out `bytes`; none of them, while there is room, is
the end of the stream. -/
def took (s : Endpoint) (w : RecvAwait) (bytes : Bytes) : Endpoint :=
  { s with
    consumed := s.consumed ++ bytes
    ended := s.ended || decide (bytes = [] ∧ 0 < s.ch.recvBuffer w) }

/-- One step of the endpoint and its environment. -/
def step (s : Endpoint) : EndpointAction → Option Endpoint
  | .recv =>
    match s.fut with
    | none => some (s.polled s.ch.recvInner)
    | some _ => none
  | .read bytes =>
    match s.fut with
    | some (.inl w) =>
      if (s.ended → bytes = []) ∧ bytes.length ≤ s.ch.recvBuffer w then
        some ((s.took w bytes).polled (s.ch.recvResume w (.data bytes)))
      else none
    | _ => none
  | .readErr e =>
    match s.fut with
    | some (.inl w) =>
      if s.ended then none
      else some ({ s with ended := decide e.IsReset }.polled (s.ch.recvResume w (.err e)))
    | _ => none
  | .send msg =>
    match s.fut with
    | none => some (s.sent (s.ch.sendInner msg))
    | some _ => none
  | .write n =>
    match s.fut with
    | some (.inr w) =>
      if 1 ≤ n ∧ n ≤ (sendBuffer w).length then (sendResume w (.wrote n)).map s.sent else none
    | _ => none
  | .flush =>
    match s.fut with
    | some (.inr w) => (sendResume w .flushed).map s.sent
    | _ => none
  | .writeErr e =>
    match s.fut with
    | some (.inr w) => (sendResume w (.err e)).map s.sent
    | _ => none
  | .drop =>
    match s.fut with
    | some _ => some { s with fut := none }
    | none => none

/-! ## What a step does to the receiving side -/

/-- A step polls the `recv` future, or leaves the receiving side as it is. -/
inductive Effect (s : Endpoint) : EndpointAction → Endpoint → Prop
  | recv (hfut : s.fut = none) : Effect s .recv (s.polled s.ch.recvInner)
  | read {w : RecvAwait} {bytes : Bytes} (hfut : s.fut = some (.inl w))
      (hended : s.ended → bytes = []) (hroom : bytes.length ≤ s.ch.recvBuffer w) :
      Effect s (.read bytes) ((s.took w bytes).polled (s.ch.recvResume w (.data bytes)))
  | readErr {w : RecvAwait} {e : IoError} (hfut : s.fut = some (.inl w))
      (hended : s.ended = false) :
      Effect s (.readErr e)
        { s with
          ended := decide e.IsReset
          fut := none
          results := s.results ++ [.error (mapRecvIo e)] }
  | other {a : EndpointAction} (fut : Option SendAwait) :
      Effect s a { s with fut := fut.map .inr }

lemma effect_sent (s : Endpoint) (a : EndpointAction) (p : SendPoll) : Effect s a (s.sent p) := by
  cases p with
  | pending w => exact .other (some w)
  | ready r => exact .other none

lemma step_read {s : Endpoint} {w : RecvAwait} {bytes : Bytes} (hfut : s.fut = some (.inl w))
    (hended : s.ended → bytes = []) (hroom : bytes.length ≤ s.ch.recvBuffer w) :
    s.step (.read bytes) = some ((s.took w bytes).polled (s.ch.recvResume w (.data bytes))) := by
  simp only [step, hfut]
  exact if_pos ⟨hended, hroom⟩

/-- A read fails while it is in progress, and not behind the end of the stream. -/
lemma step_readErr {s s' : Endpoint} {e : IoError} (h : s.step (.readErr e) = some s') :
    ∃ w, s.fut = some (.inl w) ∧ s.ended = false ∧
      s' = { s with
        ended := decide e.IsReset
        fut := none
        results := s.results ++ [.error (mapRecvIo e)] } := by
  simp only [step] at h
  split at h
  · rename_i w hfut
    split at h
    · cases h
    · rename_i hended
      have hres : s.ch.recvResume w (.err e) = (s.ch, .ready (.error (mapRecvIo e))) := by
        cases w <;> rfl
      rw [hres] at h
      exact ⟨w, hfut, by simpa using hended, (Option.some.inj h).symm⟩
  · cases h

lemma effect_of_step {s s' : Endpoint} {a : EndpointAction} (h : s.step a = some s') :
    Effect s a s' := by
  cases a with
  | recv =>
    simp only [step] at h
    split at h
    · rename_i hfut
      exact Option.some.inj h ▸ .recv hfut
    · cases h
  | read bytes =>
    simp only [step] at h
    split at h
    · rename_i w hfut
      split at h
      · rename_i hguard
        exact Option.some.inj h ▸ .read hfut hguard.1 hguard.2
      · cases h
    · cases h
  | readErr e =>
    obtain ⟨w, hfut, hended, rfl⟩ := step_readErr h
    exact .readErr hfut hended
  | send msg =>
    simp only [step] at h
    split at h
    · exact Option.some.inj h ▸ effect_sent ..
    · cases h
  | write n =>
    simp only [step] at h
    split at h
    · split at h
      · obtain ⟨p, -, rfl⟩ := Option.map_eq_some_iff.mp h
        exact effect_sent ..
      · cases h
    · cases h
  | flush | writeErr e =>
    simp only [step] at h
    split at h
    · obtain ⟨p, -, rfl⟩ := Option.map_eq_some_iff.mp h
      exact effect_sent ..
    · cases h
  | drop =>
    simp only [step] at h
    split at h
    · exact Option.some.inj h ▸ .other none
    · cases h

/-! ## The read state -/

/-- The read state is consistent unless the channel is poisoned, and a `recv` in progress is
suspended where it says. -/
structure Inv (s : Endpoint) : Prop where
  state : s.ch.poisoned = false → Receiver.ReadState s.ch
  fut : ∀ w, s.fut = some (.inl w) → s.ch.poisoned = false ∧ Receiver.Awaits s.ch w

lemma inv_start {max : ℕ} {ch : FramedChannel} (hnew : FramedChannel.new max = some ch) :
    Inv (start ch) :=
  ⟨fun _ => (Receiver.readState_new hnew).1, fun w h => absurd h (by simp [start])⟩

/-- A stretch of `recv_inner` that keeps what lies ahead leaves the read state consistent. -/
lemma inv_polled {s : Endpoint} {p : FramedChannel × RecvPoll}
    {A : Stream' (Except RecvError Bytes)} {input : Bytes} {max : ℕ}
    (h : Receiver.Yields A input max p) : Inv (s.polled p) := by
  obtain ⟨ch, x | w⟩ := p
  · obtain ⟨-, hstate, -⟩ := h
    exact ⟨hstate, fun w hw => absurd hw (by simp [polled])⟩
  · obtain ⟨-, hp, hstate, hw, -⟩ := h
    refine ⟨fun _ => hstate, fun w' hw' => ?_⟩
    obtain rfl : w = w' := by simpa [polled] using hw'
    exact ⟨hp, hw⟩

lemma step_inv {s s' : Endpoint} {a : EndpointAction} (h : Inv s) (hstep : s.step a = some s') :
    Inv s' := by
  cases effect_of_step hstep with
  | recv hfut => exact inv_polled (Receiver.recvInner_yields [] h.state)
  | @read w bytes hfut hended hroom =>
    obtain ⟨hp, hw⟩ := h.fut w hfut
    by_cases hnil : bytes = []
    · subst hnil
      exact inv_polled (Receiver.recvResume_eof_yields hp (h.state hp) hw)
    · exact inv_polled (Receiver.recvResume_data_yields [] hp (h.state hp) hw hnil hroom)
  | readErr hfut hended => exact ⟨h.state, fun w hw => absurd hw (by simp)⟩
  | other fut =>
    refine ⟨h.state, fun w hw => ?_⟩
    cases fut <;> simp at hw

end Endpoint

end FungiTransport
