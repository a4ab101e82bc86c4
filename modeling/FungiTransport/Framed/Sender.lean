import FungiTransport.Framed.Decode

/-!
# A sending framed channel on a byte stream

The sending end as a transition system: the bytes written to the stream so far, the `send`
future in progress and the calls that have ended.  The environment decides how much each
write takes, when a write or the flush fails, and when the caller drops its future.

The write side keeps no state of its own between two calls, so what a failed or dropped call
leaves on the stream is a prefix of its frame, and the next call writes right behind it.
`Sender.Inv` says exactly this; what the peer makes of such a stream is worked out at the end.
-/

namespace FungiTransport

open Lib FramedChannel

/-- How a call of `send` ended. -/
inductive SendEnd where
  | completed
  | failed (e : SendError)
  | dropped
deriving DecidableEq, Repr

/-- A call of `send`: its message, the bytes it wrote to the stream so far, and where it is
suspended or how it ended. -/
structure SendCall where
  msg : Bytes
  written : Bytes
  state : SendAwait ⊕ SendEnd

namespace SendCall

/-- The whole frame of the message is on the stream. -/
def Whole (c : SendCall) : Prop := c.written = frame 4 c.msg

/-- The call left its frame on the stream half-written. -/
def Torn (c : SendCall) : Prop := c.written ≠ [] ∧ ¬ c.Whole

instance (c : SendCall) : Decidable c.Whole := by unfold Whole; infer_instance

instance (c : SendCall) : Decidable c.Torn := by unfold Torn; infer_instance

end SendCall

/-- A framed channel that sends into a byte stream. -/
structure Sender where
  ch : FramedChannel
  /-- The bytes written to the stream so far. -/
  wire : Bytes
  /-- The calls that have ended, in order. -/
  ended : List SendCall
  /-- The call in progress: its message, the bytes it wrote, where it is suspended. -/
  fut : Option (Bytes × Bytes × SendAwait)

/-- What can happen at a sender. -/
inductive SendAction where
  /-- The caller starts a `send`. -/
  | send (msg : Bytes)
  /-- The write in progress takes the first `n` bytes of its buffer. -/
  | write (n : ℕ)
  /-- The flush succeeds. -/
  | flush
  /-- The write or the flush in progress fails. -/
  | fail (e : IoError)
  /-- The caller drops the `send` future. -/
  | drop
deriving DecidableEq, Repr

namespace Sender

/-- A fresh channel on a fresh stream. -/
def start (ch : FramedChannel) : Sender := { ch := ch, wire := [], ended := [], fut := none }

/-- All calls of `send`, in order. -/
def calls (s : Sender) : List SendCall :=
  s.ended ++ (s.fut.map fun f => ⟨f.1, f.2.1, .inl f.2.2⟩).toList

/-- The sender with a call recorded as the one in progress, or as one that has ended. -/
def put (s : Sender) (c : SendCall) : Sender :=
  match c.state with
  | .inl w => { s with fut := some (c.msg, c.written, w) }
  | .inr _ => { s with fut := none, ended := s.ended ++ [c] }

/-- The state of a call whose future was polled. -/
def pollState : SendPoll → SendAwait ⊕ SendEnd
  | .pending w => .inl w
  | .ready (.ok ()) => .inr .completed
  | .ready (.error e) => .inr (.failed e)

/-- One step of the sender and its environment. -/
def step (s : Sender) : SendAction → Option Sender
  | .send msg =>
    match s.fut with
    | some _ => none
    | none => some (s.put ⟨msg, [], pollState (s.ch.sendInner msg)⟩)
  | .write n =>
    match s.fut with
    | none => none
    | some (msg, written, w) =>
      if 1 ≤ n ∧ n ≤ (sendBuffer w).length then
        (sendResume w (.wrote n)).map fun p =>
          { s with wire := s.wire ++ (sendBuffer w).take n }.put
            ⟨msg, written ++ (sendBuffer w).take n, pollState p⟩
      else none
  | .flush =>
    match s.fut with
    | none => none
    | some (msg, written, w) =>
      (sendResume w .flushed).map fun p => s.put ⟨msg, written, pollState p⟩
  | .fail e =>
    match s.fut with
    | none => none
    | some (msg, written, w) =>
      (sendResume w (.err e)).map fun p => s.put ⟨msg, written, pollState p⟩
  | .drop =>
    match s.fut with
    | none => none
    | some (msg, written, _) => some (s.put ⟨msg, written, .inr .dropped⟩)

/-! ## What is on the stream -/

/-- What a suspended call has still to write. -/
def left : SendAwait → Bytes
  | .writePrefix rest msg => rest ++ msg
  | .writeMsg rest => rest
  | .flush => []

/-- A call wrote a prefix of the frame of a message that fits the length prefix; it wrote the
whole frame if it completed, and has the rest of it still to write if it is suspended. -/
structure CallOk (c : SendCall) : Prop where
  fits : c.written ≠ [] → c.msg.length < 256 ^ 4
  written : c.written <+: frame 4 c.msg
  completed : c.state = .inr .completed → c.Whole
  suspended : ∀ w, c.state = .inl w →
    c.msg.length < 256 ^ 4 ∧ c.written ++ left w = frame 4 c.msg

/-- The invariant of a sender: each call wrote a prefix of its frame, and the stream holds
what the calls wrote, one behind the other. -/
structure Inv (s : Sender) : Prop where
  call : ∀ c ∈ s.calls, CallOk c
  wire : s.wire = s.calls.flatMap SendCall.written

lemma calls_put (s : Sender) (c : SendCall) : (s.put c).calls = s.ended ++ [c] := by
  obtain ⟨msg, written, w | e⟩ := c <;> simp [put, calls]

lemma wire_put (s : Sender) (c : SendCall) : (s.put c).wire = s.wire := by
  obtain ⟨msg, written, w | e⟩ := c <;> rfl

lemma calls_of_fut_none {s : Sender} (h : s.fut = none) : s.calls = s.ended := by
  simp [calls, h]

lemma calls_of_fut_some {s : Sender} {msg written : Bytes} {w : SendAwait}
    (h : s.fut = some (msg, written, w)) : s.calls = s.ended ++ [⟨msg, written, .inl w⟩] := by
  simp [calls, h]

lemma inv_start (ch : FramedChannel) : Inv (start ch) :=
  ⟨fun c hc => absurd hc (by simp [start, calls]), rfl⟩

/-- Recording a call that is in order keeps the invariant, if the stream holds what it
wrote behind what the ended calls wrote. -/
lemma inv_put {s : Sender} {c : SendCall} (hended : ∀ d ∈ s.ended, CallOk d) (hc : CallOk c)
    (hwire : s.wire = s.ended.flatMap SendCall.written ++ c.written) : Inv (s.put c) := by
  constructor
  · intro d hd
    rw [calls_put, List.mem_append, List.mem_singleton] at hd
    rcases hd with hd | rfl
    · exact hended d hd
    · exact hc
  · rw [wire_put, calls_put, List.flatMap_append, hwire]
    simp

/-- A call that starts has written nothing, and goes on only within the limit. -/
lemma callOk_sendInner (ch : FramedChannel) (msg : Bytes) :
    CallOk ⟨msg, [], pollState (ch.sendInner msg)⟩ := by
  refine ⟨fun h => absurd rfl h, List.nil_prefix, ?_, ?_⟩
  · intro h
    unfold sendInner at h
    split at h <;> simp [pollState] at h
  · intro w h
    unfold sendInner at h
    split at h
    · simp [pollState] at h
    · simp only [pollState, Sum.inl.injEq] at h
      subst h
      have := ch.fits
      exact ⟨by norm_num at this ⊢; omega, rfl⟩

/-- A suspended call that is resumed with a write of its first `n` bytes is in order. -/
lemma callOk_wrote {msg written : Bytes} {w : SendAwait} {n : ℕ} {p : SendPoll}
    (h : CallOk ⟨msg, written, .inl w⟩) (hp : sendResume w (.wrote n) = some p) :
    CallOk ⟨msg, written ++ (sendBuffer w).take n, pollState p⟩ := by
  obtain ⟨hfits, hleft⟩ := h.suspended w rfl
  -- the write moves bytes from what is left to what is written
  have key : ∃ w', p = .pending w' ∧ (sendBuffer w).take n ++ left w' = left w := by
    cases w with
    | writePrefix rest m =>
      simp only [sendResume] at hp
      split at hp
      · rename_i hnil
        have htake : rest.take n = rest := by
          rw [List.take_eq_self_iff]
          exact List.drop_eq_nil_iff.mp hnil
        obtain rfl := Option.some.inj hp
        unfold sendMsg
        split
        · rename_i hm
          exact ⟨.flush, rfl, by simp [sendBuffer, left, htake, hm]⟩
        · exact ⟨.writeMsg m, rfl, by simp [sendBuffer, left, htake]⟩
      · obtain rfl := Option.some.inj hp
        exact ⟨_, rfl, by simp [sendBuffer, left, ← List.append_assoc]⟩
    | writeMsg rest =>
      simp only [sendResume, Option.some.injEq] at hp
      subst hp
      unfold sendMsg
      split
      · rename_i hnil
        refine ⟨.flush, rfl, ?_⟩
        simp only [sendBuffer, left, List.append_nil]
        rw [List.take_eq_self_iff]
        exact List.drop_eq_nil_iff.mp hnil
      · exact ⟨_, rfl, by simp [sendBuffer, left]⟩
    | flush => simp [sendResume] at hp
  obtain ⟨w', rfl, hw'⟩ := key
  have hrest : (written ++ (sendBuffer w).take n) ++ left w' = frame 4 msg := by
    rw [List.append_assoc, hw', hleft]
  refine ⟨fun _ => hfits, ⟨left w', hrest⟩, fun h => absurd h (by simp [pollState]), ?_⟩
  intro w'' hw''
  obtain rfl : w' = w'' := by simpa [pollState] using hw''
  exact ⟨hfits, hrest⟩

/-- A suspended call that ends without a further write is in order; it completes only from
the flush, with nothing left to write. -/
lemma callOk_ended {msg written : Bytes} {w : SendAwait} {e : SendEnd}
    (h : CallOk ⟨msg, written, .inl w⟩) (he : e = .completed → left w = []) :
    CallOk ⟨msg, written, .inr e⟩ := by
  refine ⟨h.fits, h.written, fun hdone => ?_, fun w' hw' => absurd hw' (by simp)⟩
  have hleft := (h.suspended w rfl).2
  rw [he (by simpa using hdone), List.append_nil] at hleft
  exact hleft

/-- **The step lemma** of the sender. -/
lemma step_inv {s s' : Sender} {a : SendAction} (h : Inv s) (hstep : s.step a = some s') :
    Inv s' := by
  cases hf : s.fut with
  | none =>
    cases a with
    | send msg =>
      simp only [step, hf, Option.some.injEq] at hstep
      subst hstep
      have hcalls := calls_of_fut_none hf
      refine inv_put (fun d hd => h.call d (hcalls ▸ hd)) (callOk_sendInner s.ch msg) ?_
      rw [h.wire, hcalls, List.append_nil]
    | write n | flush | fail e | drop => simp [step, hf] at hstep
  | some f =>
    obtain ⟨msg, written, w⟩ := f
    have hcalls := calls_of_fut_some hf
    have hended : ∀ d ∈ s.ended, CallOk d := fun d hd =>
      h.call d (by rw [hcalls]; exact List.mem_append_left _ hd)
    have hcur : CallOk ⟨msg, written, .inl w⟩ := h.call _ (by simp [hcalls])
    have hwire : s.wire = s.ended.flatMap SendCall.written ++ written := by
      rw [h.wire, hcalls, List.flatMap_append]
      simp
    cases a with
    | send m => simp [step, hf] at hstep
    | write n =>
      simp only [step, hf] at hstep
      split at hstep
      · obtain ⟨p, hp, rfl⟩ := Option.map_eq_some_iff.mp hstep
        refine inv_put hended (callOk_wrote hcur hp) ?_
        simp only [hwire, List.append_assoc]
      · exact absurd hstep (by simp)
    | flush =>
      simp only [step, hf] at hstep
      obtain ⟨p, hp, rfl⟩ := Option.map_eq_some_iff.mp hstep
      cases w with
      | writePrefix rest m | writeMsg rest => simp [sendResume] at hp
      | flush =>
        simp only [sendResume, Option.some.injEq] at hp
        subst hp
        exact inv_put hended (callOk_ended hcur fun _ => rfl) hwire
    | fail e =>
      simp only [step, hf] at hstep
      obtain ⟨p, hp, rfl⟩ := Option.map_eq_some_iff.mp hstep
      -- a failing write or flush ends the call with what it had written
      have hpe : p = .ready (.error (mapSendIo e)) := by
        cases w <;> simpa [sendResume] using hp.symm
      subst hpe
      exact inv_put hended (callOk_ended hcur fun hne => absurd hne (by simp)) hwire
    | drop =>
      simp only [step, hf, Option.some.injEq] at hstep
      subst hstep
      exact inv_put hended (callOk_ended hcur fun hne => absurd hne (by simp)) hwire

lemma run_inv {ch : FramedChannel} {as : List SendAction} {s : Sender}
    (hrun : run step (start ch) as = some s) : Inv s :=
  run_invariant (fun _ _ _ h hstep => step_inv h hstep) (inv_start ch) hrun

end Sender

end FungiTransport
