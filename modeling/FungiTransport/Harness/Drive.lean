import FungiTransport.Framed.Pair
import FungiTransport.Lib.Text

/-!
# The integration drivers

`echo_one_peer` and `dial_sequence` each own a channel and drive it by one call after another.  A
driver is modelled by what it does next and by how the result of a call moves it on; nothing is
assumed of the channel.  What a driver has seen is then the list of its calls with their results,
and each step of it is the one that the driver wanted (`Driver.Plays`).
-/

namespace FungiTransport

open Lib

/-- What the owner of a channel does next. -/
inductive Turn where
  | send (msg : Bytes)
  | recv
  /-- It returns, and the channel is dropped. -/
  | done (r : Except String Unit)
deriving DecidableEq

/-- The call that has resolved. -/
def Resolved.turn : Resolved → Turn
  | .sent msg _ => .send msg
  | .received _ => .recv

/-- A consumer that owns a channel. -/
structure Driver (σ : Type) where
  start : σ
  turn : σ → Turn
  next : σ → Resolved → σ

namespace Driver

variable {σ : Type} (D : Driver σ)

/-- Where the driver stands when its calls came to `log`. -/
def after (log : List Resolved) : σ := log.foldl D.next D.start

/-- The log of a driver: each call is the one that it wanted. -/
inductive Plays : List Resolved → Prop
  | nil : Plays []
  | call {log : List Resolved} {o : Resolved} (h : Plays log)
      (hturn : D.turn (D.after log) = o.turn) : Plays (log ++ [o])

variable {D}

@[simp] lemma after_nil : D.after [] = D.start := rfl

@[simp] lemma after_append (log : List Resolved) (o : Resolved) :
    D.after (log ++ [o]) = D.next (D.after log) o := by
  simp [after]

end Driver

/-! ## `echo_one_peer` -/

inductive EchoState where
  | receiving
  | replying (msg : Bytes)
  | done (r : Except String Unit)
deriving DecidableEq

/-- `echo_one_peer` -/
def echoOnePeer : Driver EchoState where
  start := .receiving
  turn
    | .receiving => .recv
    | .replying msg => .send msg
    | .done r => .done r
  next
    | .receiving, .received (.ok msg) => .replying msg
    -- the peer went away: the end of the session
    | .receiving, .received (.error _) => .done (.ok ())
    | .replying _, .sent _ (.ok ()) => .receiving
    | .replying _, .sent _ (.error e) => .done (.error e.toString)
    | st, _ => st

/-- What an echo server has seen after it echoed `ms`. -/
def echoes (ms : List Bytes) : List Resolved :=
  ms.flatMap fun m => [.received (.ok m), .sent m (.ok ())]

/-- Where the echo server stands, by what it has seen. -/
inductive EchoAt : List Resolved → EchoState → Prop
  | receiving (ms : List Bytes) : EchoAt (echoes ms) .receiving
  | replying (ms : List Bytes) (m : Bytes) :
      EchoAt (echoes ms ++ [.received (.ok m)]) (.replying m)
  | left (ms : List Bytes) (e : RecvError) :
      EchoAt (echoes ms ++ [.received (.error e)]) (.done (.ok ()))
  | failed (ms : List Bytes) (m : Bytes) (e : SendError) :
      EchoAt (echoes ms ++ [.received (.ok m), .sent m (.error e)]) (.done (.error e.toString))

lemma echoAt_of_plays {log : List Resolved} (h : echoOnePeer.Plays log) :
    EchoAt log (echoOnePeer.after log) := by
  induction h with
  | nil => exact .receiving []
  | @call log o _ hturn ih =>
    rw [Driver.after_append]
    generalize echoOnePeer.after log = st at ih hturn
    cases ih with
    | receiving ms =>
      cases o with
      | sent msg r => cases hturn
      | received r =>
        cases r with
        | ok m => exact .replying ms m
        | error e => exact .left ms e
    | replying ms m =>
      cases o with
      | received r => cases hturn
      | sent msg r =>
        obtain rfl : m = msg := Turn.send.inj hturn
        rw [List.append_assoc]
        cases r with
        | ok u =>
          have hms : echoes ms ++ ([.received (.ok m)] ++ [.sent m (.ok u)]) = echoes (ms ++ [m]) := by
            simp [echoes]
          rw [hms]
          exact .receiving (ms ++ [m])
        | error e => exact .failed ms m e
    | left ms e => cases o <;> cases hturn
    | failed ms m e => cases o <;> cases hturn

/-! ## `dial_sequence` -/

/-- The dial side's message sequence. -/
def sequence : List Bytes :=
  [asBytes "hello over tor", [], List.replicate (64 * 1024) 0xAB, asBytes "last"]

inductive DialState where
  | sending (i : ℕ) (msg : Bytes) (rest : List Bytes)
  | receiving (i : ℕ) (msg : Bytes) (rest : List Bytes)
  | done (r : Except String Unit)
deriving DecidableEq

/-- The head of the loop over the sequence. -/
def DialState.loop (i : ℕ) : List Bytes → DialState
  | [] => .done (.ok ())
  | msg :: rest => .sending i msg rest

/-- The texts that `dial_sequence` fails with. -/
def sendText (i : ℕ) (e : SendError) : String := s!"send {i}: {e.toString}"

def recvText (i : ℕ) (e : RecvError) : String := s!"recv {i}: {e.toString}"

def mismatchText (i : ℕ) (back msg : Bytes) : String :=
  s!"echo {i} mismatch: {back.length} vs {msg.length} bytes"

/-- `dial_sequence`, for the messages `ms`. -/
def dialSequence (ms : List Bytes) : Driver DialState where
  start := .loop 0 ms
  turn
    | .sending _ msg _ => .send msg
    | .receiving _ _ _ => .recv
    | .done r => .done r
  next
    | .sending i msg rest, .sent _ (.ok ()) => .receiving i msg rest
    | .sending i _ _, .sent _ (.error e) => .done (.error (sendText i e))
    | .receiving i msg rest, .received (.ok back) =>
      if back ≠ msg then .done (.error (mismatchText i back msg)) else .loop (i + 1) rest
    | .receiving i _ _, .received (.error e) => .done (.error (recvText i e))
    | st, _ => st

/-- What a dialer has seen after the messages `ms` came back. -/
def rounds (ms : List Bytes) : List Resolved :=
  ms.flatMap fun m => [.sent m (.ok ()), .received (.ok m)]

/-- Where the dialer stands, by what it has seen; `past` are the messages that came back. -/
inductive DialAt (ms : List Bytes) : List Resolved → DialState → Prop
  | sending {past rest : List Bytes} {m : Bytes} (h : ms = past ++ m :: rest) :
      DialAt ms (rounds past) (.sending past.length m rest)
  | receiving {past rest : List Bytes} {m : Bytes} (h : ms = past ++ m :: rest) :
      DialAt ms (rounds past ++ [.sent m (.ok ())]) (.receiving past.length m rest)
  | finished : DialAt ms (rounds ms) (.done (.ok ()))
  | sendFailed {past rest : List Bytes} {m : Bytes} (h : ms = past ++ m :: rest) (e : SendError) :
      DialAt ms (rounds past ++ [.sent m (.error e)]) (.done (.error (sendText past.length e)))
  | recvFailed {past rest : List Bytes} {m : Bytes} (h : ms = past ++ m :: rest) (e : RecvError) :
      DialAt ms (rounds past ++ [.sent m (.ok ()), .received (.error e)])
        (.done (.error (recvText past.length e)))
  | mismatch {past rest : List Bytes} {m : Bytes} (h : ms = past ++ m :: rest) {back : Bytes}
      (hne : back ≠ m) :
      DialAt ms (rounds past ++ [.sent m (.ok ()), .received (.ok back)])
        (.done (.error (mismatchText past.length back m)))

lemma dialAt_loop {ms past rest : List Bytes} (h : ms = past ++ rest) :
    DialAt ms (rounds past) (.loop past.length rest) := by
  cases rest with
  | nil =>
    rw [List.append_nil] at h
    exact h ▸ .finished
  | cons m rest => exact .sending h

lemma dialAt_of_plays {ms : List Bytes} {log : List Resolved} (h : (dialSequence ms).Plays log) :
    DialAt ms log ((dialSequence ms).after log) := by
  induction h with
  | nil => exact (dialAt_loop (List.nil_append ms).symm :)
  | @call log o _ hturn ih =>
    rw [Driver.after_append]
    generalize (dialSequence ms).after log = st at ih hturn
    cases ih with
    | @sending past rest m hms =>
      cases o with
      | received r => cases hturn
      | sent msg r =>
        obtain rfl : m = msg := Turn.send.inj hturn
        cases r with
        | ok u => exact .receiving hms
        | error e => exact .sendFailed hms e
    | @receiving past rest m hms =>
      cases o with
      | sent msg r => cases hturn
      | received r =>
        rw [List.append_assoc]
        cases r with
        | error e => exact .recvFailed hms e
        | ok back =>
          by_cases hback : back = m
          · subst hback
            have hpast : rounds past ++ ([.sent back (.ok ())] ++ [.received (.ok back)]) =
                rounds (past ++ [back]) := by
              simp [rounds]
            have hnext : (dialSequence ms).next (.receiving past.length back rest)
                (.received (.ok back)) = .loop (past ++ [back]).length rest := by
              simp [dialSequence]
            rw [hpast, hnext]
            exact dialAt_loop (by simpa using hms)
          · have hnext : (dialSequence ms).next (.receiving past.length m rest)
                (.received (.ok back)) = .done (.error (mismatchText past.length back m)) := by
              simp [dialSequence, hback]
            rw [hnext]
            exact .mismatch hms hback
    | finished | sendFailed _ _ | recvFailed _ _ | mismatch _ _ => cases o <;> cases hturn

/-- Where the dialer stands when the messages `past` have come back. -/
lemma after_rounds {ms past rest : List Bytes} (h : ms = past ++ rest) :
    (dialSequence ms).after (rounds past) = .loop past.length rest := by
  induction past using List.reverseRecOn generalizing rest with
  | nil =>
    obtain rfl : ms = rest := by simpa using h
    rfl
  | append_singleton past m ih =>
    have hrounds : rounds (past ++ [m]) =
        rounds past ++ [.sent m (.ok ())] ++ [.received (.ok m)] := by
      simp [rounds]
    rw [hrounds, Driver.after_append, Driver.after_append, @ih (m :: rest) (by simpa using h)]
    simp [DialState.loop, dialSequence]

/-- **The verdict of the dialer is exact**, whatever channel it drives and whatever the peer does:
it returns `Ok` exactly when every message was sent and came back unchanged, in order; and it fails
with a text exactly when the messages before some message did, and that one could not be sent, was
answered with an error, or came back changed, which the text says. -/
theorem dial_verdict {ms : List Bytes} {log : List Resolved} (h : (dialSequence ms).Plays log) :
    ((dialSequence ms).after log = .done (.ok ()) ↔ log = rounds ms) ∧
      ∀ text, (dialSequence ms).after log = .done (.error text) ↔
        ∃ past m rest, ms = past ++ m :: rest ∧
          ((∃ e, log = rounds past ++ [.sent m (.error e)] ∧ text = sendText past.length e) ∨
            (∃ e, log = rounds past ++ [.sent m (.ok ()), .received (.error e)] ∧
              text = recvText past.length e) ∨
            ∃ back, back ≠ m ∧ log = rounds past ++ [.sent m (.ok ()), .received (.ok back)] ∧
              text = mismatchText past.length back m) := by
  have hat := dialAt_of_plays h
  refine ⟨⟨fun hdone => ?_, ?_⟩, fun text => ⟨fun hdone => ?_, ?_⟩⟩
  · rw [hdone] at hat
    cases hat
    rfl
  · rintro rfl
    rw [after_rounds (List.append_nil ms).symm]
    rfl
  · rw [hdone] at hat
    cases hat with
    | sendFailed hms e => exact ⟨_, _, _, hms, .inl ⟨e, rfl, rfl⟩⟩
    | recvFailed hms e => exact ⟨_, _, _, hms, .inr (.inl ⟨e, rfl, rfl⟩)⟩
    | mismatch hms hne => exact ⟨_, _, _, hms, .inr (.inr ⟨_, hne, rfl, rfl⟩)⟩
  · rintro ⟨past, m, rest, hms, ⟨e, rfl, rfl⟩ | ⟨e, rfl, rfl⟩ | ⟨back, hne, rfl, rfl⟩⟩
    · rw [Driver.after_append, after_rounds hms]
      rfl
    · rw [List.append_cons, Driver.after_append, Driver.after_append, after_rounds hms]
      rfl
    · rw [List.append_cons, Driver.after_append, Driver.after_append, after_rounds hms]
      simp [DialState.loop, dialSequence, hne]

/-- The second of three messages comes back cut short. -/
theorem dial_verdict_mismatch :
    (dialSequence [[1], [2, 2], [3]]).after [.sent [1] (.ok ()), .received (.ok [1]),
      .sent [2, 2] (.ok ()), .received (.ok [2])] =
        .done (.error "echo 1 mismatch: 1 vs 2 bytes") ∧
      (dialSequence [[1], [2, 2], [3]]).Plays [.sent [1] (.ok ()), .received (.ok [1]),
        .sent [2, 2] (.ok ()), .received (.ok [2])] := by
  have hplays : (dialSequence [[1], [2, 2], [3]]).Plays ([] ++ [.sent [1] (.ok ())] ++
      [.received (.ok [1])] ++ [.sent [2, 2] (.ok ())] ++ [.received (.ok [2])]) :=
    .call (.call (.call (.call .nil rfl) rfl) rfl) rfl
  refine ⟨((dial_verdict hplays).2 _).mpr ⟨[[1]], [2, 2], [[3]], rfl, .inr (.inr ⟨[2], ?_⟩)⟩, hplays⟩
  exact ⟨by decide, rfl, by decide⟩

end FungiTransport
