import FungiTransport.Harness.Drive
import FungiTransport.Mem.Settle

/-!
# The drivers over the in-memory channel

A driver that owns an end of the in-memory channel makes a call when it has none, and polls the one
that it has.  The dialer waits for each echo before it sends again, so that at most one message is
on its way: no queue is ever full, whatever its room, and nothing is lost, whatever the delivery.
-/

namespace FungiTransport

open Lib

/-- What an await comes to. -/
inductive Await (α : Type) where
  /-- The future is made. -/
  | called
  | pending
  | ready (x : α)

/-- Where the driver stands after an await. -/
def Driver.resume {σ : Type} (D : Driver σ) (st : σ) : Await Resolved → σ
  | .ready o => D.next st o
  | .called | .pending => st

/-- What the last call of an end, the one that its driver wanted, came to. -/
def MemChannel.resolved (ch : MemChannel) : Turn → Option Resolved
  | .send msg => (ch.sends.getLast?.bind SendReport.result).map (.sent msg)
  | .recv => ch.recvs.getLast?.map .received
  | .done _ => none

/-- What an action of the driver of an end comes to. -/
def MemChannel.await (ch ch' : MemChannel) (turn : Turn) : Await Resolved :=
  if ch.fut.isNone then .called
  else if ch'.fut.isSome then .pending
  else (ch'.resolved turn).elim .pending .ready

/-- How the owner of end `d` goes on, when its driver wants `turn`. -/
def Duplex.action (p : Duplex) (d : Side) (turn : Turn) (slept elapsed : Bool) : MemAction :=
  if (p.ends d).fut.isSome then .poll d slept elapsed
  else
    match turn with
    | .send msg => .send d msg
    | .recv => .recv d
    | .done _ => .dropEnd d

/-! ## One action of a driver -/

namespace Duplex

lemma side_action (p : Duplex) (d : Side) (turn : Turn) (slept elapsed : Bool) :
    (p.action d turn slept elapsed).side = d := by
  simp only [action]
  split
  · rfl
  · split <;> rfl

/-- The call in progress is the one that the driver wants, and no `send` waits for room. -/
inductive Calls (cfg : MemConfig) : Option MemFut → Turn → Prop
  | idle {turn : Turn} : Calls cfg none turn
  | created (m : Bytes) : Calls cfg (some (.send m (.created (MemChannel.copyMsg cfg m)))) (.send m)
  | sleeping {m : Bytes} (hfits : cfg.Fits m) : Calls cfg (some (.send m (.sleeping m))) (.send m)
  | receiving : Calls cfg (some .recv) .recv

/-- How far a call is. -/
def progress : Option MemFut → ℕ
  | none => 0
  | some (.send _ (.created _)) | some .recv => 1
  | some (.send _ (.sleeping _)) => 2
  | some (.send _ (.sending _)) => 3

/-- What an action at end `d` leaves: the call, the two queues and what the end has received. -/
structure Leaves (p p' : Duplex) (d : Side) (fut : Option MemFut) (out inn : List Bytes)
    (recvs : List (Except RecvError Bytes)) : Prop where
  fut : (p'.ends d).fut = fut
  out : (p'.queues d).buffer = out
  inn : (p'.queues d.other).buffer = inn
  recvs : (p'.ends d).recvs = recvs
  other : p'.ends d.other = p.ends d.other
  alive : (p'.ends d).alive = (p.ends d).alive
  budgets : (p'.ends d).failNext = (p.ends d).failNext ∧ (p'.ends d).dropNext = (p.ends d).dropNext

/-- What an action of the driver of end `d` does. -/
inductive Went (cfg : MemConfig) (p : Duplex) (d : Side) (slept : Bool) :
    Turn → Duplex → Await Resolved → Prop
  /-- The call is nearer to its end. -/
  | nearer {turn : Turn} {p' : Duplex} {fut : Option MemFut} {w : Await Resolved}
      (hcalls : Calls cfg fut turn) (hmore : progress (p.ends d).fut < progress fut)
      (hw : w = .called ∨ w = .pending)
      (h : Leaves p p' d fut (p.queues d).buffer (p.queues d.other).buffer (p.ends d).recvs) :
      Went cfg p d slept turn p' w
  | waits {turn : Turn}
      (h : slept = true → turn = .recv ∧ (p.queues d.other).buffer = [] ∧
        (p.ends d.other).alive = true) : Went cfg p d slept turn p .pending
  | sent {m : Bytes} {p' : Duplex} (hfits : cfg.Fits m)
      (h : Leaves p p' d none [m] (p.queues d.other).buffer (p.ends d).recvs) :
      Went cfg p d slept (.send m) p' (.ready (.sent m (.ok ())))
  | tooLarge {m : Bytes} {max : ℕ} {p' : Duplex} (hmax : MemChannel.copyMsg cfg m = .error max)
      (h : Leaves p p' d none (p.queues d).buffer (p.queues d.other).buffer (p.ends d).recvs) :
      Went cfg p d slept (.send m) p' (.ready (.sent m (.error (.tooLarge max))))
  | received {m : Bytes} {rest : List Bytes} {p' : Duplex}
      (hm : (p.queues d.other).buffer = m :: rest)
      (h : Leaves p p' d none (p.queues d).buffer rest ((p.ends d).recvs ++ [.ok m])) :
      Went cfg p d slept .recv p' (.ready (.received (.ok m)))
  | closed {p' : Duplex} (hempty : (p.queues d.other).buffer = [])
      (hdead : (p.ends d.other).alive = false)
      (h : Leaves p p' d none (p.queues d).buffer [] ((p.ends d).recvs ++ [.error .closed])) :
      Went cfg p d slept .recv p' (.ready (.received (.error .closed)))

end Duplex

namespace MemChannel

variable {cfg : MemConfig} {ch : MemChannel} {q : Mpsc Bytes} {peerAlive : Bool}

/-- With nobody to fail or drop it, a message is put into an empty queue at once. -/
lemma sendAwake_clear (cfg : MemConfig) (peerAlive : Bool) (call msg : Bytes) (elapsed : Bool)
    (hdrop : ch.dropNext = 0) (hrx : q.rxAlive = true) (hbuffer : q.buffer = [])
    (hroom : 0 < q.capacity) :
    ∃ q', q'.buffer = [msg] ∧ ch.sendAwake cfg q peerAlive call msg elapsed = (ch.resolve
      { msg := call, result := some (.ok ()), enqueued := true, peerAlive := peerAlive }, q') := by
  obtain ⟨q', hq, hbuffer'⟩ := Mpsc.trySend_of_room msg hrx (by rwa [hbuffer])
  refine ⟨q', by rw [hbuffer', hbuffer, List.nil_append], ?_⟩
  rw [sendAwake, hdrop]
  cases cfg.delivery <;> simp [takeOne, sendConfirmed, hq]

/-- What a poll of a `send` leaves, where nobody fails or drops it and the queue is empty. -/
inductive Sent (cfg : MemConfig) (ch : MemChannel) (q : Mpsc Bytes) (call : Bytes) (slept : Bool) :
    MemSend → MemChannel × Mpsc Bytes → Prop
  | sent {state : MemSend} {q' : Mpsc Bytes} (hfits : cfg.Fits call) (hbuffer : q'.buffer = [call])
      {r : SendReport} (hr : r.result = some (.ok ())) :
      Sent cfg ch q call slept state (ch.resolve r, q')
  | tooLarge {state : MemSend} {max : ℕ} (hmax : copyMsg cfg call = .error max) {r : SendReport}
      (hr : r.result = some (.error (.tooLarge max))) :
      Sent cfg ch q call slept state (ch.resolve r, q)
  | sleeps {m : Except ℕ Bytes} (hfits : cfg.Fits call) :
      Sent cfg ch q call slept (.created m) (ch.suspend call (.sleeping call), q)
  | waits (hslept : slept = false) :
      Sent cfg ch q call slept (.sleeping call) (ch.suspend call (.sleeping call), q)

lemma fits_of_copyMsg {m msg : Bytes} (h : copyMsg cfg m = .ok msg) : cfg.Fits m := by
  intro max hmax
  by_contra hlt
  simp only [copyMsg, hmax] at h
  rw [if_pos (by omega)] at h
  cases h

lemma pollSend_clear {call : Bytes} {state : MemSend} (slept elapsed : Bool)
    (hfail : ch.failNext = 0) (hdrop : ch.dropNext = 0) (hrx : q.rxAlive = true)
    (hbuffer : q.buffer = []) (hroom : 0 < q.capacity)
    (hcalls : Duplex.Calls cfg (some (.send call state)) (.send call)) :
    Sent cfg ch q call slept state (ch.pollSend cfg q peerAlive call slept elapsed state) := by
  cases hcalls with
  | created =>
    cases hcopy : copyMsg cfg call with
    | error max => exact .tooLarge hcopy rfl
    | ok msg =>
      have hfits := fits_of_copyMsg hcopy
      obtain rfl := copyMsg_ok hcopy
      rw [pollSend, hfail]
      simp only [takeOne]
      split
      · exact .sleeps hfits
      · obtain ⟨q', hq', heq⟩ := sendAwake_clear cfg peerAlive msg msg elapsed hdrop hrx hbuffer
          hroom
        rw [heq]
        exact .sent hfits hq' rfl
  | sleeping hfits =>
    rw [pollSend]
    split
    · obtain ⟨q', hq', heq⟩ := sendAwake_clear cfg peerAlive call call elapsed hdrop hrx hbuffer
          hroom
      rw [heq]
      exact .sent hfits hq' rfl
    · rename_i hslept
      exact .waits (by simpa using hslept)

end MemChannel

namespace Duplex

variable {cfg : MemConfig} {p : Duplex} {d : Side} {turn : Turn} {slept elapsed : Bool}

lemma leaves_setEnd {ch : MemChannel} (halive : ch.alive = (p.ends d).alive)
    (hbudgets : ch.failNext = (p.ends d).failNext ∧ ch.dropNext = (p.ends d).dropNext) :
    Leaves p (p.setEnd d ch) d ch.fut (p.queues d).buffer (p.queues d.other).buffer ch.recvs := by
  refine ⟨?_, rfl, rfl, ?_, setEnd_other .., ?_, ?_⟩ <;> rw [setEnd_self]
  · exact halive
  · exact hbudgets

lemma leaves_out {ch : MemChannel} {q : Mpsc Bytes} (halive : ch.alive = (p.ends d).alive)
    (hbudgets : ch.failNext = (p.ends d).failNext ∧ ch.dropNext = (p.ends d).dropNext) :
    Leaves p ((p.setEnd d ch).setQueue d q) d ch.fut q.buffer (p.queues d.other).buffer
      ch.recvs := by
  refine ⟨?_, ?_, ?_, ?_, ?_, ?_, ?_⟩ <;> simp [halive, hbudgets]

lemma leaves_inn {ch : MemChannel} {q : Mpsc Bytes} (halive : ch.alive = (p.ends d).alive)
    (hbudgets : ch.failNext = (p.ends d).failNext ∧ ch.dropNext = (p.ends d).dropNext) :
    Leaves p ((p.setEnd d ch).setQueue d.other q) d ch.fut (p.queues d).buffer q.buffer
      ch.recvs := by
  refine ⟨?_, ?_, ?_, ?_, ?_, ?_, ?_⟩ <;> simp [halive, hbudgets]

/-- The driver makes the call that it wants. -/
lemma went_of_call (hmade : p.cfg = cfg) (hfut : (p.ends d).fut = none)
    (halive : (p.ends d).alive = true) (hturn : ∀ r, turn ≠ .done r) :
    ∃ p', p.step (p.action d turn slept elapsed) = some p' ∧
      Went cfg p d slept turn p' ((p.ends d).await (p'.ends d) turn) := by
  have hidle : p.idle d = some (p.ends d) := by simp [idle, halive, hfut]
  have hawait : ∀ ch', (p.ends d).await ch' turn = .called := fun ch' => by
    simp [MemChannel.await, hfut]
  simp only [hawait, action, hfut, Option.isSome_none, Bool.false_eq_true, if_false]
  cases turn with
  | done r => exact absurd rfl (hturn r)
  | send m =>
    simp only [step, hidle, Option.map_some, hmade]
    exact ⟨_, rfl, .nearer (.created m) (by simp [hfut, progress]) (.inl rfl)
      (leaves_setEnd rfl ⟨rfl, rfl⟩)⟩
  | recv =>
    simp only [step, hidle, Option.map_some]
    exact ⟨_, rfl, .nearer .receiving (by simp [hfut, progress]) (.inl rfl)
      (leaves_setEnd rfl ⟨rfl, rfl⟩)⟩

/-- The driver polls the `send` that it is in. -/
lemma went_of_send {m : Bytes} {state : MemSend} (hroomy : Roomy cfg p)
    (hfut : (p.ends d).fut = some (.send m state))
    (hcalls : Calls cfg (some (.send m state)) (.send m)) (hfail : (p.ends d).failNext = 0)
    (hdrop : (p.ends d).dropNext = 0) (hbuffer : (p.queues d).buffer = [])
    (hpeer : (p.ends d.other).alive = true) :
    ∃ p', p.step (.poll d slept elapsed) = some p' ∧
      Went cfg p d slept (.send m) p' ((p.ends d).await (p'.ends d) (.send m)) := by
  have hrx := (hroomy.inv.direction d).rxAlive.trans hpeer
  have hroom : 0 < (p.queues d).capacity := hroomy.capacity d ▸ hroomy.room
  have hsent : MemChannel.Sent cfg (p.ends d) (p.queues d) m slept state
      ((p.ends d).pollSend p.cfg (p.queues d) (p.ends d.other).alive m slept elapsed state) := by
    rw [hroomy.made]
    exact MemChannel.pollSend_clear slept elapsed hfail hdrop hrx hbuffer hroom hcalls
  have hstep : ∀ r, (p.ends d).pollSend p.cfg (p.queues d) (p.ends d.other).alive m slept elapsed
      state = r → p.step (.poll d slept elapsed) = some ((p.setEnd d r.1).setQueue d r.2) := by
    rintro r rfl
    simp only [step, hfut]
  generalize (p.ends d).pollSend p.cfg (p.queues d) (p.ends d.other).alive m slept elapsed state = r
    at hsent hstep
  refine ⟨_, hstep r rfl, ?_⟩
  have hbusy : (p.ends d).fut.isNone = false := by rw [hfut]; rfl
  cases hsent with
  | @sent _ q' hfits hbuffer' r hr =>
    have hawait : (p.ends d).await ((p.ends d).resolve r) (.send m) =
        .ready (.sent m (.ok ())) := by
      simp [MemChannel.await, hbusy, MemChannel.resolved, MemChannel.resolve, hr]
    simp only [setQueue_ends, setEnd_self, hawait]
    exact .sent hfits (hbuffer' ▸ leaves_out rfl ⟨rfl, rfl⟩)
  | @tooLarge _ max hmax r hr =>
    have hawait : (p.ends d).await ((p.ends d).resolve r) (.send m) =
        .ready (.sent m (.error (.tooLarge max))) := by
      simp [MemChannel.await, hbusy, MemChannel.resolved, MemChannel.resolve, hr]
    simp only [setQueue_ends, setEnd_self, hawait]
    exact .tooLarge hmax (leaves_out rfl ⟨rfl, rfl⟩)
  | sleeps hfits =>
    have hawait : (p.ends d).await ((p.ends d).suspend m (.sleeping m)) (.send m) = .pending := by
      simp [MemChannel.await, hbusy, MemChannel.suspend]
    simp only [setQueue_ends, setEnd_self, hawait]
    exact .nearer (.sleeping hfits) (by rw [hfut]; exact Nat.lt_succ_self 1) (.inr rfl)
      (leaves_out rfl ⟨rfl, rfl⟩)
  | waits hslept =>
    have hsame : (p.ends d).suspend m (.sleeping m) = p.ends d := by
      rw [MemChannel.suspend, ← hfut]
    have hawait : (p.ends d).await (p.ends d) (.send m) = .pending := by
      simp [MemChannel.await, hfut]
    rw [hsame, setEnd_setQueue_same, setEnd_eq_self, hawait]
    exact .waits fun htrue => absurd (hslept.symm.trans htrue) (by decide)

/-- The driver polls the `recv` that it is in. -/
lemma went_of_recv (hroomy : Roomy cfg p) (hfut : (p.ends d).fut = some .recv) :
    ∃ p', p.step (.poll d slept elapsed) = some p' ∧
      Went cfg p d slept .recv p' ((p.ends d).await (p'.ends d) .recv) := by
  have hstep : ∀ r, (p.ends d).pollRecv (p.queues d.other) = r →
      p.step (.poll d slept elapsed) = some ((p.setEnd d r.1).setQueue d.other r.2) := by
    rintro r rfl
    simp only [step, hfut]
  have hsenders := (hroomy.inv.direction d.other).senders
  have hbusy : (p.ends d).fut.isNone = false := by rw [hfut]; rfl
  cases hbuffer : (p.queues d.other).buffer with
  | cons m rest =>
    obtain ⟨q', hq, hbuffer'⟩ := Mpsc.tryRecv_of_cons hbuffer
    refine ⟨_, hstep _ (by rw [MemChannel.pollRecv, hq]), ?_⟩
    have hawait : (p.ends d).await
        { p.ends d with fut := none, recvs := (p.ends d).recvs ++ [.ok m] } .recv =
          .ready (.received (.ok m)) := by
      simp [MemChannel.await, hbusy, MemChannel.resolved]
    simp only [setQueue_ends, setEnd_self, hawait]
    exact .received hbuffer (hbuffer' ▸ leaves_inn rfl ⟨rfl, rfl⟩)
  | nil =>
    have hq := Mpsc.tryRecv_of_nil hbuffer
    cases halive : (p.ends d.other).alive with
    | true =>
      rw [halive, if_pos rfl] at hsenders
      rw [hsenders, if_neg Nat.one_ne_zero] at hq
      refine ⟨_, hstep _ (by rw [MemChannel.pollRecv, hq]), ?_⟩
      have hawait : (p.ends d).await (p.ends d) .recv = .pending := by
        simp [MemChannel.await, hfut]
      rw [setEnd_setQueue_same, setEnd_eq_self, hawait]
      exact .waits fun _ => ⟨rfl, hbuffer, halive⟩
    | false =>
      rw [halive, if_neg Bool.false_ne_true] at hsenders
      rw [hsenders, if_pos rfl] at hq
      refine ⟨_, hstep _ (by rw [MemChannel.pollRecv, hq]), ?_⟩
      have hawait : (p.ends d).await
          { p.ends d with fut := none, recvs := (p.ends d).recvs ++ [.error .closed] } .recv =
            .ready (.received (.error .closed)) := by
        simp [MemChannel.await, hbusy, MemChannel.resolved]
      simp only [setQueue_ends, setEnd_self, hawait]
      exact .closed hbuffer halive (hbuffer ▸ leaves_inn rfl ⟨rfl, rfl⟩)

/-- **One action of the driver** of end `d`. -/
lemma went_of_action (slept elapsed : Bool) (hroomy : Roomy cfg p)
    (hcalls : Calls cfg (p.ends d).fut turn) (halive : (p.ends d).alive = true)
    (hfail : (p.ends d).failNext = 0) (hdrop : (p.ends d).dropNext = 0)
    (hturn : ∀ r, turn ≠ .done r)
    (hclear : ∀ m, turn = .send m → (p.queues d).buffer = [] ∧ (p.ends d.other).alive = true) :
    ∃ p', p.step (p.action d turn slept elapsed) = some p' ∧
      Went cfg p d slept turn p' ((p.ends d).await (p'.ends d) turn) := by
  cases hfut : (p.ends d).fut with
  | none => exact went_of_call hroomy.made hfut halive hturn
  | some f =>
    have hpoll : p.action d turn slept elapsed = .poll d slept elapsed := by
      simp only [action, hfut, Option.isSome_some, if_true]
    rw [hfut] at hcalls
    rw [hpoll]
    cases turn with
    | done r => exact absurd rfl (hturn r)
    | send m =>
      obtain ⟨hbuffer, hpeer⟩ := hclear m rfl
      cases hcalls with
      | created => exact went_of_send hroomy hfut (.created m) hfail hdrop hbuffer hpeer
      | sleeping hfits => exact went_of_send hroomy hfut (.sleeping hfits) hfail hdrop hbuffer hpeer
    | recv =>
      cases hcalls
      exact went_of_recv hroomy hfut

end Duplex

/-! ## The two drivers -/

/-- What the dialer comes to over a channel with a size limit: `past` came back, and if the next
message is too large for the channel then this ends it. -/
inductive Verdict (cfg : MemConfig) (ms past : List Bytes) : Except String Unit → Prop
  | ok (h : ms = past) : Verdict cfg ms past (.ok ())
  | tooLarge {m : Bytes} {rest : List Bytes} {max : ℕ} (h : ms = past ++ m :: rest)
      (hmax : MemChannel.copyMsg cfg m = .error max) :
      Verdict cfg ms past (.error (sendText past.length (.tooLarge max)))

def oks (ms : List Bytes) : List (Except RecvError Bytes) := ms.map .ok

/-- Where the two drivers stand, with what is queued from the dialer and from the echo server, and
what each of them has received. -/
inductive Phase (cfg : MemConfig) (ms : List Bytes) : DialState → EchoState → List Bytes →
    List Bytes → List (Except RecvError Bytes) → List (Except RecvError Bytes) → Prop
  | asking {past rest : List Bytes} {m : Bytes} (h : ms = past ++ m :: rest)
      (hfits : ∀ x ∈ past, cfg.Fits x) :
      Phase cfg ms (.sending past.length m rest) .receiving [] [] (oks past) (oks past)
  | asked {past rest : List Bytes} {m : Bytes} (h : ms = past ++ m :: rest)
      (hfits : ∀ x ∈ past ++ [m], cfg.Fits x) :
      Phase cfg ms (.receiving past.length m rest) .receiving [m] [] (oks past) (oks past)
  | answering {past rest : List Bytes} {m : Bytes} (h : ms = past ++ m :: rest)
      (hfits : ∀ x ∈ past ++ [m], cfg.Fits x) :
      Phase cfg ms (.receiving past.length m rest) (.replying m) [] [] (oks past)
        (oks (past ++ [m]))
  | answered {past rest : List Bytes} {m : Bytes} (h : ms = past ++ m :: rest)
      (hfits : ∀ x ∈ past ++ [m], cfg.Fits x) :
      Phase cfg ms (.receiving past.length m rest) .receiving [] [m] (oks past)
        (oks (past ++ [m]))
  | dialed {past : List Bytes} {r : Except String Unit} (h : Verdict cfg ms past r)
      (hfits : ∀ x ∈ past, cfg.Fits x) :
      Phase cfg ms (.done r) .receiving [] [] (oks past) (oks past)
  | parted {past : List Bytes} {r : Except String Unit} (h : Verdict cfg ms past r)
      (hfits : ∀ x ∈ past, cfg.Fits x) :
      Phase cfg ms (.done r) (.done (.ok ())) [] [] (oks past) (oks past ++ [.error .closed])

/-- A pair whose ends the two drivers own. -/
structure Talk (cfg : MemConfig) (ms : List Bytes) (p : Duplex) (st : DialState) (et : EchoState) :
    Prop where
  evolved : Network.Evolved cfg p
  budgets : ∀ d, (p.ends d).failNext = 0 ∧ (p.ends d).dropNext = 0
  phase : Phase cfg ms st et (p.queues .a).buffer (p.queues .b).buffer (p.ends .a).recvs
    (p.ends .b).recvs
  dials : Duplex.Calls cfg (p.ends .a).fut ((dialSequence ms).turn st)
  serves : Duplex.Calls cfg (p.ends .b).fut (echoOnePeer.turn et)
  dialer : (p.ends .a).alive = false → ∃ r, st = .done r
  server : (p.ends .b).alive = false → ∃ r, et = .done r

/-- How far the drivers are from their ends. -/
def DialState.toDo (fut : Option MemFut) : DialState → ℕ
  | .sending _ _ rest => 5 * (rest.length + 1) - Duplex.progress fut
  | .receiving _ _ rest => 5 * rest.length + 2 - Duplex.progress fut
  | .done _ => 0

/-- The number of messages that the dialer has still to send. -/
def DialState.left : DialState → ℕ
  | .sending _ _ rest => rest.length + 1
  | .receiving _ _ rest => rest.length
  | .done _ => 0

def EchoState.toDo (fut : Option MemFut) (left : ℕ) : EchoState → ℕ
  | .receiving => 5 * left + 2 - Duplex.progress fut
  | .replying _ => 5 * left + 5 - Duplex.progress fut
  | .done _ => 0

namespace Duplex

/-- How far the two drivers of a pair are from their ends. -/
def talkToDo (p : Duplex) (st : DialState) (et : EchoState) : ℕ :=
  st.toDo (p.ends .a).fut + et.toDo (p.ends .b).fut (st.left + (p.queues .a).buffer.length)

end Duplex

/-! ## What a phase says -/

section Phases

variable {cfg : MemConfig} {ms : List Bytes} {ba bb : List Bytes}
  {ra rb : List (Except RecvError Bytes)}

lemma Phase.of_sending {i : ℕ} {m : Bytes} {rest : List Bytes} {et : EchoState}
    (h : Phase cfg ms (.sending i m rest) et ba bb ra rb) :
    ∃ past, i = past.length ∧ ms = past ++ m :: rest ∧ (∀ x ∈ past, cfg.Fits x) ∧
      et = .receiving ∧ ba = [] ∧ bb = [] ∧ ra = oks past ∧ rb = oks past := by
  cases h with
  | asking hms hfits => exact ⟨_, rfl, hms, hfits, rfl, rfl, rfl, rfl, rfl⟩

lemma Phase.of_receiving {i : ℕ} {m : Bytes} {rest : List Bytes} {et : EchoState}
    (h : Phase cfg ms (.receiving i m rest) et ba bb ra rb) :
    ∃ past, i = past.length ∧ ms = past ++ m :: rest ∧ (∀ x ∈ past ++ [m], cfg.Fits x) ∧
      ra = oks past ∧ (∀ r, et ≠ .done r) ∧
      (bb = [] ∨ et = .receiving ∧ ba = [] ∧ bb = [m] ∧ rb = oks (past ++ [m])) := by
  cases h with
  | asked hms hfits | answering hms hfits =>
    exact ⟨_, rfl, hms, hfits, rfl, fun r h => (by cases h), .inl rfl⟩
  | answered hms hfits =>
    exact ⟨_, rfl, hms, hfits, rfl, fun r h => (by cases h), .inr ⟨rfl, rfl, rfl, rfl⟩⟩

lemma Phase.of_replying {m : Bytes} {st : DialState}
    (h : Phase cfg ms st (.replying m) ba bb ra rb) :
    ∃ past rest, st = .receiving past.length m rest ∧ ms = past ++ m :: rest ∧
      (∀ x ∈ past ++ [m], cfg.Fits x) ∧ ba = [] ∧ bb = [] ∧ ra = oks past ∧
      rb = oks (past ++ [m]) := by
  cases h with
  | answering hms hfits => exact ⟨_, _, rfl, hms, hfits, rfl, rfl, rfl, rfl⟩

lemma Phase.of_listening {st : DialState} (h : Phase cfg ms st .receiving ba bb ra rb) :
    (∃ past m rest, st = .receiving past.length m rest ∧ ms = past ++ m :: rest ∧
      (∀ x ∈ past ++ [m], cfg.Fits x) ∧ ba = [m] ∧ bb = [] ∧ ra = oks past ∧ rb = oks past) ∨
      ba = [] ∧ ∀ r, st = .done r → ∃ past, Verdict cfg ms past r ∧ (∀ x ∈ past, cfg.Fits x) ∧
        bb = [] ∧ ra = oks past ∧ rb = oks past := by
  cases h with
  | asked hms hfits => exact .inl ⟨_, _, _, rfl, hms, hfits, rfl, rfl, rfl, rfl⟩
  | asking | answered => exact .inr ⟨rfl, fun r h => by cases h⟩
  | dialed hverdict hfits =>
    refine .inr ⟨rfl, fun r h => ?_⟩
    obtain rfl := DialState.done.inj h
    exact ⟨_, hverdict, hfits, rfl, rfl, rfl⟩

/-- A dialer that waits and a server that waits have something queued. -/
lemma Phase.not_still {i : ℕ} {m : Bytes} {rest : List Bytes}
    (h : Phase cfg ms (.receiving i m rest) .receiving [] [] ra rb) : False := by
  cases h

lemma Phase.of_done {r : Except String Unit} {et : EchoState}
    (h : Phase cfg ms (.done r) et ba bb ra rb) :
    (et = .receiving ∨ et = .done (.ok ())) ∧ bb = [] := by
  cases h with
  | dialed => exact ⟨.inl rfl, rfl⟩
  | parted => exact ⟨.inr rfl, rfl⟩

lemma Phase.verdict {r : Except String Unit} {et : EchoState}
    (h : Phase cfg ms (.done r) et ba bb ra rb) :
    ∃ past, Verdict cfg ms past r ∧ (∀ x ∈ past, cfg.Fits x) ∧ ra = oks past := by
  cases h with
  | dialed hverdict hfits | parted hverdict hfits => exact ⟨_, hverdict, hfits, rfl⟩

lemma Phase.of_parted {r : Except String Unit} {st : DialState}
    (h : Phase cfg ms st (.done r) ba bb ra rb) :
    r = .ok () ∧ ba = [] ∧ ∃ past r', st = .done r' ∧ Verdict cfg ms past r' ∧
      (∀ x ∈ past, cfg.Fits x) ∧ ra = oks past ∧ rb = oks past ++ [.error .closed] := by
  cases h with
  | parted hverdict hfits => exact ⟨rfl, rfl, _, _, rfl, hverdict, hfits, rfl, rfl⟩

end Phases

lemma oks_append (past : List Bytes) (m : Bytes) : oks past ++ [.ok m] = oks (past ++ [m]) := by
  simp [oks]

namespace Duplex

variable {cfg : MemConfig} {fut : Option MemFut}

@[simp] lemma progress_none : progress none = 0 := rfl

lemma progress_of_send {m : Bytes} (h : Calls cfg fut (.send m)) : progress fut ≤ 2 := by
  cases h <;> simp [progress]

lemma progress_of_recv (h : Calls cfg fut .recv) : progress fut ≤ 1 := by
  cases h <;> simp [progress]

end Duplex

namespace Talk

variable {cfg : MemConfig} {ms : List Bytes} {p p' : Duplex} {st st' : DialState}
  {et et' : EchoState} {a : MemAction} {fut : Option MemFut} {out inn : List Bytes}
  {recvs : List (Except RecvError Bytes)}

/-- The dialer has acted. -/
lemma dialed (h : Talk cfg ms p st et) (hstep : p.step a = some p')
    (hleaves : Duplex.Leaves p p' .a fut out inn recvs)
    (hphase : Phase cfg ms st' et out inn recvs (p.ends .b).recvs)
    (hcalls : Duplex.Calls cfg fut ((dialSequence ms).turn st'))
    (halive : (p.ends .a).alive = true) :
    Talk cfg ms p' st' et ∧ (∀ d, (p'.ends d).alive = (p.ends d).alive) ∧
      p'.talkToDo st' et = st'.toDo fut + et.toDo (p.ends .b).fut (st'.left + out.length) := by
  obtain ⟨hfut, hout, hinn, hrecvs, hother, halive', hbudgets⟩ := hleaves
  simp only [Side.other] at hinn hother
  refine ⟨⟨h.evolved.step hstep, fun d => ?_, ?_, ?_, ?_, fun hdead => ?_, fun hdead => ?_⟩,
    fun d => ?_, ?_⟩
  · cases d with
    | a => exact ⟨hbudgets.1.trans (h.budgets .a).1, hbudgets.2.trans (h.budgets .a).2⟩
    | b => exact hother ▸ h.budgets .b
  · rw [hout, hinn, hrecvs, hother]
    exact hphase
  · rw [hfut]
    exact hcalls
  · rw [hother]
    exact h.serves
  · exact absurd (hdead.symm.trans (halive'.trans halive)) (by decide)
  · rw [hother] at hdead
    exact h.server hdead
  · cases d with
    | a => exact halive'
    | b => rw [hother]
  · rw [Duplex.talkToDo, hfut, hout, hother]

/-- The echo server has acted. -/
lemma served (h : Talk cfg ms p st et) (hstep : p.step a = some p')
    (hleaves : Duplex.Leaves p p' .b fut out inn recvs)
    (hphase : Phase cfg ms st et' inn out (p.ends .a).recvs recvs)
    (hcalls : Duplex.Calls cfg fut (echoOnePeer.turn et'))
    (halive : (p.ends .b).alive = true) :
    Talk cfg ms p' st et' ∧ (∀ d, (p'.ends d).alive = (p.ends d).alive) ∧
      p'.talkToDo st et' = st.toDo (p.ends .a).fut + et'.toDo fut (st.left + inn.length) := by
  obtain ⟨hfut, hout, hinn, hrecvs, hother, halive', hbudgets⟩ := hleaves
  simp only [Side.other] at hinn hother
  refine ⟨⟨h.evolved.step hstep, fun d => ?_, ?_, ?_, ?_, fun hdead => ?_, fun hdead => ?_⟩,
    fun d => ?_, ?_⟩
  · cases d with
    | a => exact hother ▸ h.budgets .a
    | b => exact ⟨hbudgets.1.trans (h.budgets .b).1, hbudgets.2.trans (h.budgets .b).2⟩
  · rw [hout, hinn, hrecvs, hother]
    exact hphase
  · rw [hother]
    exact h.dials
  · rw [hfut]
    exact hcalls
  · rw [hother] at hdead
    exact h.dialer hdead
  · exact absurd (hdead.symm.trans (halive'.trans halive)) (by decide)
  · cases d with
    | a => rw [hother]
    | b => exact halive'
  · rw [Duplex.talkToDo, hfut, hinn, hother]

/-- An action has brought the drivers nearer to their ends. -/
structure Advances (cfg : MemConfig) (ms : List Bytes) (p : Duplex) (st : DialState)
    (et : EchoState) (p' : Duplex) (st' : DialState) (et' : EchoState) : Prop where
  talk : Talk cfg ms p' st' et'
  alive : ∀ d, (p'.ends d).alive = (p.ends d).alive
  toDo : p'.talkToDo st' et' < p.talkToDo st et

/-! ### The dialer -/

lemma dial_nearer (h : Talk cfg ms p st et) (hst : ∀ r, st ≠ .done r)
    (halive : (p.ends .a).alive = true) (hstep : p.step a = some p')
    (hcalls : Duplex.Calls cfg fut ((dialSequence ms).turn st))
    (hmore : Duplex.progress (p.ends .a).fut < Duplex.progress fut)
    (hleaves : Duplex.Leaves p p' .a fut (p.queues .a).buffer (p.queues .b).buffer
      (p.ends .a).recvs) : Advances cfg ms p st et p' st et := by
  obtain ⟨htalk, hlive, htoDo⟩ := h.dialed hstep hleaves h.phase hcalls halive
  refine ⟨htalk, hlive, ?_⟩
  rw [htoDo, Duplex.talkToDo]
  refine Nat.add_lt_add_right ?_ _
  cases st with
  | done r => exact absurd rfl (hst r)
  | sending i m rest =>
    have hle := Duplex.progress_of_send hcalls
    simp only [DialState.toDo]
    omega
  | receiving i m rest =>
    have hle := Duplex.progress_of_recv hcalls
    simp only [DialState.toDo]
    omega

lemma dial_sent {i : ℕ} {m : Bytes} {rest : List Bytes}
    (h : Talk cfg ms p (.sending i m rest) et) (halive : (p.ends .a).alive = true)
    (hstep : p.step a = some p') (hfits : cfg.Fits m)
    (hleaves : Duplex.Leaves p p' .a none [m] (p.queues .b).buffer (p.ends .a).recvs) :
    Advances cfg ms p (.sending i m rest) et p' (.receiving i m rest) et := by
  obtain ⟨past, rfl, hms, hpast, rfl, hba, hbb, hra, hrb⟩ := h.phase.of_sending
  have hfits' : ∀ x ∈ past ++ [m], cfg.Fits x := by
    intro x hx
    rcases List.mem_append.mp hx with hx | hx
    · exact hpast x hx
    · exact List.mem_singleton.mp hx ▸ hfits
  have hphase : Phase cfg ms (.receiving past.length m rest) .receiving [m]
      (p.queues .b).buffer (p.ends .a).recvs (p.ends .b).recvs := by
    rw [hbb, hra, hrb]
    exact .asked hms hfits'
  obtain ⟨htalk, hlive, htoDo⟩ := h.dialed hstep hleaves hphase .idle halive
  refine ⟨htalk, hlive, ?_⟩
  have hle := Duplex.progress_of_send h.dials
  rw [htoDo, Duplex.talkToDo, hba]
  simp only [DialState.toDo, DialState.left, Duplex.progress_none, List.length_singleton,
    List.length_nil, Nat.add_zero]
  omega

lemma dial_tooLarge {i max : ℕ} {m : Bytes} {rest : List Bytes}
    (h : Talk cfg ms p (.sending i m rest) et) (halive : (p.ends .a).alive = true)
    (hstep : p.step a = some p') (hmax : MemChannel.copyMsg cfg m = .error max)
    (hleaves : Duplex.Leaves p p' .a none (p.queues .a).buffer (p.queues .b).buffer
      (p.ends .a).recvs) :
    Advances cfg ms p (.sending i m rest) et p' (.done (.error (sendText i (.tooLarge max))))
      et := by
  obtain ⟨past, rfl, hms, hpast, rfl, hba, hbb, hra, hrb⟩ := h.phase.of_sending
  have hphase : Phase cfg ms (.done (.error (sendText past.length (.tooLarge max)))) .receiving
      (p.queues .a).buffer (p.queues .b).buffer (p.ends .a).recvs (p.ends .b).recvs := by
    rw [hba, hbb, hra, hrb]
    exact .dialed (.tooLarge hms hmax) hpast
  obtain ⟨htalk, hlive, htoDo⟩ := h.dialed hstep hleaves hphase .idle halive
  refine ⟨htalk, hlive, ?_⟩
  have hle := Duplex.progress_of_send h.dials
  rw [htoDo, Duplex.talkToDo, hba]
  simp only [DialState.toDo, DialState.left, EchoState.toDo, List.length_nil]
  omega

/-- The echo that comes is the message that was sent. -/
lemma dial_received {i : ℕ} {m back : Bytes} {rest inn : List Bytes}
    (h : Talk cfg ms p (.receiving i m rest) et) (halive : (p.ends .a).alive = true)
    (hstep : p.step a = some p') (hback : (p.queues .b).buffer = back :: inn)
    (hleaves : Duplex.Leaves p p' .a none (p.queues .a).buffer inn
      ((p.ends .a).recvs ++ [.ok back])) :
    Advances cfg ms p (.receiving i m rest) et p'
      ((dialSequence ms).next (.receiving i m rest) (.received (.ok back))) et := by
  obtain ⟨past, rfl, hms, hfits, hra, -, hbb | ⟨rfl, hba, hbb, hrb⟩⟩ := h.phase.of_receiving
  · cases hback.symm.trans hbb
  · obtain ⟨rfl, rfl⟩ := List.cons.inj (hback.symm.trans hbb)
    have hnext : (dialSequence ms).next (.receiving past.length back rest) (.received (.ok back)) =
        .loop (past ++ [back]).length rest := by
      simp [dialSequence]
    rw [hnext]
    have hphase : Phase cfg ms (.loop (past ++ [back]).length rest) .receiving
        (p.queues .a).buffer [] ((p.ends .a).recvs ++ [.ok back]) (p.ends .b).recvs := by
      rw [hba, hra, hrb, oks_append]
      cases rest with
      | nil => exact .dialed (.ok hms) hfits
      | cons m' rest => exact .asking (by simpa using hms) hfits
    obtain ⟨htalk, hlive, htoDo⟩ := h.dialed hstep hleaves hphase .idle halive
    refine ⟨htalk, hlive, ?_⟩
    have hle := Duplex.progress_of_recv h.dials
    rw [htoDo, Duplex.talkToDo, hba]
    cases rest with
    | nil =>
      simp only [DialState.toDo, DialState.left, DialState.loop, EchoState.toDo, List.length_nil]
      omega
    | cons m' rest =>
      simp only [DialState.toDo, DialState.left, DialState.loop, EchoState.toDo, List.length_nil,
        List.length_cons, Duplex.progress_none]
      omega

/-- What an action of the dialer comes to. -/
lemma dial_went (h : Talk cfg ms p st et) (hst : ∀ r, st ≠ .done r)
    (halive : (p.ends .a).alive = true) {slept : Bool} {w : Await Resolved}
    (hstep : p.step a = some p')
    (hwent : Duplex.Went cfg p .a slept ((dialSequence ms).turn st) p' w) :
    Advances cfg ms p st et p' ((dialSequence ms).resume st w) et ∨
      p' = p ∧ (dialSequence ms).resume st w = st ∧ (slept = true →
        (p.queues .b).buffer = [] ∧ ∃ i m rest, st = .receiving i m rest) := by
  generalize hturn : (dialSequence ms).turn st = turn at hwent
  cases hwent with
  | @nearer _ _ fut w hcalls hmore hw hleaves =>
    have hresume : (dialSequence ms).resume st w = st := by rcases hw with rfl | rfl <;> rfl
    rw [hresume]
    exact .inl (h.dial_nearer hst halive hstep (hturn ▸ hcalls) hmore hleaves)
  | waits hwaits =>
    refine .inr ⟨rfl, rfl, fun hslept => ?_⟩
    obtain ⟨hrecv, hempty, -⟩ := hwaits hslept
    refine ⟨hempty, ?_⟩
    cases st with
    | receiving i m rest => exact ⟨i, m, rest, rfl⟩
    | sending i m rest => cases hturn.trans hrecv
    | done r => exact absurd rfl (hst r)
  | @sent m _ hfits hleaves =>
    cases st with
    | done r => exact absurd rfl (hst r)
    | receiving => cases hturn
    | sending i m' rest =>
      obtain rfl : m' = m := Turn.send.inj hturn
      exact .inl (h.dial_sent halive hstep hfits hleaves)
  | @tooLarge m max _ hmax hleaves =>
    cases st with
    | done r => exact absurd rfl (hst r)
    | receiving => cases hturn
    | sending i m' rest =>
      obtain rfl : m' = m := Turn.send.inj hturn
      exact .inl (h.dial_tooLarge halive hstep hmax hleaves)
  | received hm hleaves =>
    cases st with
    | done r => exact absurd rfl (hst r)
    | sending => cases hturn
    | receiving => exact .inl (h.dial_received halive hstep hm hleaves)
  | closed hempty hdead hleaves =>
    cases st with
    | done r => exact absurd rfl (hst r)
    | sending => cases hturn
    | receiving i m' rest =>
      -- the echo server leaves after the dialer
      obtain ⟨r, hr⟩ := h.server hdead
      obtain ⟨-, -, -, -, -, hne, -⟩ := h.phase.of_receiving
      exact absurd hr (hne r)

/-! ### The echo server -/

lemma echo_nearer (h : Talk cfg ms p st et) (het : ∀ r, et ≠ .done r)
    (halive : (p.ends .b).alive = true) (hstep : p.step a = some p')
    (hcalls : Duplex.Calls cfg fut (echoOnePeer.turn et))
    (hmore : Duplex.progress (p.ends .b).fut < Duplex.progress fut)
    (hleaves : Duplex.Leaves p p' .b fut (p.queues .b).buffer (p.queues .a).buffer
      (p.ends .b).recvs) : Advances cfg ms p st et p' st et := by
  obtain ⟨htalk, hlive, htoDo⟩ := h.served hstep hleaves h.phase hcalls halive
  refine ⟨htalk, hlive, ?_⟩
  rw [htoDo, Duplex.talkToDo]
  refine Nat.add_lt_add_left ?_ _
  cases et with
  | done r => exact absurd rfl (het r)
  | receiving =>
    have hle := Duplex.progress_of_recv hcalls
    simp only [EchoState.toDo]
    omega
  | replying m =>
    have hle := Duplex.progress_of_send hcalls
    simp only [EchoState.toDo]
    omega

lemma echo_sent {m : Bytes} (h : Talk cfg ms p st (.replying m)) (halive : (p.ends .b).alive = true)
    (hstep : p.step a = some p')
    (hleaves : Duplex.Leaves p p' .b none [m] (p.queues .a).buffer (p.ends .b).recvs) :
    Advances cfg ms p st (.replying m) p' st .receiving := by
  obtain ⟨past, rest, rfl, hms, hfits, hba, hbb, hra, hrb⟩ := h.phase.of_replying
  have hphase : Phase cfg ms (.receiving past.length m rest) .receiving (p.queues .a).buffer [m]
      (p.ends .a).recvs (p.ends .b).recvs := by
    rw [hba, hra, hrb]
    exact .answered hms hfits
  obtain ⟨htalk, hlive, htoDo⟩ := h.served hstep hleaves hphase .idle halive
  refine ⟨htalk, hlive, ?_⟩
  have hle := Duplex.progress_of_send h.serves
  rw [htoDo, Duplex.talkToDo]
  simp only [EchoState.toDo, Duplex.progress_none]
  omega

lemma echo_received {m : Bytes} {inn : List Bytes} (h : Talk cfg ms p st .receiving)
    (halive : (p.ends .b).alive = true) (hstep : p.step a = some p')
    (hm : (p.queues .a).buffer = m :: inn)
    (hleaves : Duplex.Leaves p p' .b none (p.queues .b).buffer inn
      ((p.ends .b).recvs ++ [.ok m])) :
    Advances cfg ms p st .receiving p' st (.replying m) := by
  obtain ⟨past, m', rest, rfl, hms, hfits, hba, hbb, hra, hrb⟩ | ⟨hba, -⟩ := h.phase.of_listening
  · obtain ⟨rfl, rfl⟩ := List.cons.inj (hm.symm.trans hba)
    have hphase : Phase cfg ms (.receiving past.length m rest) (.replying m) []
        (p.queues .b).buffer (p.ends .a).recvs ((p.ends .b).recvs ++ [.ok m]) := by
      rw [hbb, hra, hrb, oks_append]
      exact .answering hms hfits
    obtain ⟨htalk, hlive, htoDo⟩ := h.served hstep hleaves hphase .idle halive
    refine ⟨htalk, hlive, ?_⟩
    have hle := Duplex.progress_of_recv h.serves
    rw [htoDo, Duplex.talkToDo, hba]
    simp only [EchoState.toDo, Duplex.progress_none, List.length_singleton, List.length_nil]
    omega
  · cases hm.symm.trans hba

/-- The server finds the dialer gone. -/
lemma echo_closed (h : Talk cfg ms p st .receiving) (halive : (p.ends .b).alive = true)
    (hstep : p.step a = some p') (hdead : (p.ends .a).alive = false)
    (hleaves : Duplex.Leaves p p' .b none (p.queues .b).buffer []
      ((p.ends .b).recvs ++ [.error .closed])) :
    Advances cfg ms p st .receiving p' st (.done (.ok ())) := by
  obtain ⟨r, rfl⟩ := h.dialer hdead
  obtain ⟨past, m', rest, hr, -⟩ | ⟨hba, hdone⟩ := h.phase.of_listening
  · cases hr
  · obtain ⟨past, hverdict, hfits, hbb, hra, hrb⟩ := hdone r rfl
    have hphase : Phase cfg ms (.done r) (.done (.ok ())) [] (p.queues .b).buffer
        (p.ends .a).recvs ((p.ends .b).recvs ++ [.error .closed]) := by
      rw [hbb, hra, hrb]
      exact .parted hverdict hfits
    obtain ⟨htalk, hlive, htoDo⟩ := h.served hstep hleaves hphase .idle halive
    refine ⟨htalk, hlive, ?_⟩
    have hle := Duplex.progress_of_recv h.serves
    rw [htoDo, Duplex.talkToDo]
    simp only [EchoState.toDo]
    omega

/-- What an action of the echo server comes to. -/
lemma echo_went (h : Talk cfg ms p st et) (het : ∀ r, et ≠ .done r)
    (halive : (p.ends .b).alive = true) {slept : Bool} {w : Await Resolved}
    (hstep : p.step a = some p')
    (hwent : Duplex.Went cfg p .b slept (echoOnePeer.turn et) p' w) :
    Advances cfg ms p st et p' st (echoOnePeer.resume et w) ∨
      p' = p ∧ echoOnePeer.resume et w = et ∧ (slept = true →
        (p.queues .a).buffer = [] ∧ (p.ends .a).alive = true ∧ et = .receiving) := by
  generalize hturn : echoOnePeer.turn et = turn at hwent
  cases hwent with
  | @nearer _ _ fut w hcalls hmore hw hleaves =>
    have hresume : echoOnePeer.resume et w = et := by rcases hw with rfl | rfl <;> rfl
    rw [hresume]
    exact .inl (h.echo_nearer het halive hstep (hturn ▸ hcalls) hmore hleaves)
  | waits hwaits =>
    refine .inr ⟨rfl, rfl, fun hslept => ?_⟩
    obtain ⟨hrecv, hempty, hpeer⟩ := hwaits hslept
    refine ⟨hempty, hpeer, ?_⟩
    cases et with
    | receiving => rfl
    | replying m => cases hturn.trans hrecv
    | done r => exact absurd rfl (het r)
  | @sent m _ hfits hleaves =>
    cases et with
    | done r => exact absurd rfl (het r)
    | receiving => cases hturn
    | replying m' =>
      obtain rfl : m' = m := Turn.send.inj hturn
      exact .inl (h.echo_sent halive hstep hleaves)
  | @tooLarge m max _ hmax hleaves =>
    cases et with
    | done r => exact absurd rfl (het r)
    | receiving => cases hturn
    | replying m' =>
      -- what the dialer could send can be sent back
      obtain rfl : m' = m := Turn.send.inj hturn
      obtain ⟨past, rest, rfl, hms, hfits', -⟩ := h.phase.of_replying
      exact absurd (hfits' m' (by simp)) (MemChannel.copyMsg_error hmax)
  | received hm hleaves =>
    cases et with
    | done r => exact absurd rfl (het r)
    | replying => cases hturn
    | receiving => exact .inl (h.echo_received halive hstep hm hleaves)
  | closed hempty hdead hleaves =>
    cases et with
    | done r => exact absurd rfl (het r)
    | replying => cases hturn
    | receiving => exact .inl (h.echo_closed halive hstep hdead hleaves)

/-- **A step of the dialer.** -/
lemma dial (h : Talk cfg ms p st et) (hst : ∀ r, st ≠ .done r) (halive : (p.ends .a).alive = true)
    (slept elapsed : Bool) :
    ∃ p', p.step (p.action .a ((dialSequence ms).turn st) slept elapsed) = some p' ∧
      ∃ st', st' = (dialSequence ms).resume st
          ((p.ends .a).await (p'.ends .a) ((dialSequence ms).turn st)) ∧
        (Advances cfg ms p st et p' st' et ∨ p' = p ∧ st' = st ∧ (slept = true →
          (p.queues .b).buffer = [] ∧ ∃ i m rest, st = .receiving i m rest)) := by
  have hturn : ∀ r, (dialSequence ms).turn st ≠ .done r := by
    intro r hr
    cases st with
    | done r' => exact hst r' rfl
    | sending | receiving => cases hr
  have hclear : ∀ m, (dialSequence ms).turn st = .send m →
      (p.queues .a).buffer = [] ∧ (p.ends Side.a.other).alive = true := by
    intro m hm
    cases st with
    | done | receiving => cases hm
    | sending i m' rest =>
      obtain ⟨-, -, -, -, rfl, hba, -⟩ := h.phase.of_sending
      refine ⟨hba, ?_⟩
      by_contra hdead
      obtain ⟨r, hr⟩ := h.server (Bool.eq_false_iff.mpr hdead)
      cases hr
  obtain ⟨p', hstep, hwent⟩ := Duplex.went_of_action slept elapsed
    (Duplex.roomy_of_evolved h.evolved) h.dials halive (h.budgets .a).1 (h.budgets .a).2 hturn
    hclear
  exact ⟨p', hstep, _, rfl, h.dial_went hst halive hstep hwent⟩

/-- **A step of the echo server.** -/
lemma echo (h : Talk cfg ms p st et) (het : ∀ r, et ≠ .done r) (halive : (p.ends .b).alive = true)
    (slept elapsed : Bool) :
    ∃ p', p.step (p.action .b (echoOnePeer.turn et) slept elapsed) = some p' ∧
      ∃ et', et' = echoOnePeer.resume et
          ((p.ends .b).await (p'.ends .b) (echoOnePeer.turn et)) ∧
        (Advances cfg ms p st et p' st et' ∨ p' = p ∧ et' = et ∧ (slept = true →
          (p.queues .a).buffer = [] ∧ (p.ends .a).alive = true ∧ et = .receiving)) := by
  have hturn : ∀ r, echoOnePeer.turn et ≠ .done r := by
    intro r hr
    cases et with
    | done r' => exact het r' rfl
    | receiving | replying => cases hr
  have hclear : ∀ m, echoOnePeer.turn et = .send m →
      (p.queues .b).buffer = [] ∧ (p.ends Side.b.other).alive = true := by
    intro m hm
    cases et with
    | done | receiving => cases hm
    | replying m' =>
      obtain ⟨past, rest, rfl, -, -, -, hbb, -⟩ := h.phase.of_replying
      refine ⟨hbb, ?_⟩
      by_contra hdead
      obtain ⟨r, hr⟩ := h.dialer (Bool.eq_false_iff.mpr hdead)
      cases hr
  obtain ⟨p', hstep, hwent⟩ := Duplex.went_of_action slept elapsed
    (Duplex.roomy_of_evolved h.evolved) h.serves halive (h.budgets .b).1 (h.budgets .b).2 hturn
    hclear
  exact ⟨p', hstep, _, rfl, h.echo_went het halive hstep hwent⟩

/-! ### Ends that are dropped -/

/-- A driver that has returned drops its end. -/
lemma dropEnd_eq (p : Duplex) (d : Side) (halive : (p.ends d).alive = true)
    (hfut : (p.ends d).fut = none) :
    ∃ p', p.step (.dropEnd d) = some p' ∧ p'.ends d = { p.ends d with alive := false } ∧
      p'.ends d.other = p.ends d.other ∧ (p'.queues d).buffer = (p.queues d).buffer ∧
      (p'.queues d.other).buffer = [] := by
  have hidle : p.idle d = some (p.ends d) := by simp [Duplex.idle, halive, hfut]
  refine ⟨((p.setEnd d { p.ends d with alive := false }).setQueue d (p.queues d).dropTx).setQueue
    d.other (p.queues d.other).dropRx, ?_, ?_, ?_, ?_, ?_⟩
  · simp only [Duplex.step, hidle, Option.map_some]
  · simp
  · simp
  · simp [Mpsc.dropTx]
  · simp [Mpsc.dropRx]

lemma dialer_leaves {r : Except String Unit} (h : Talk cfg ms p (.done r) et)
    (halive : (p.ends .a).alive = true) :
    ∃ p', p.step (.dropEnd .a) = some p' ∧ Talk cfg ms p' (.done r) et ∧
      (p'.ends .a).alive = false ∧ (p'.ends .b).alive = (p.ends .b).alive ∧
      p'.talkToDo (.done r) et = p.talkToDo (.done r) et := by
  have hfut : (p.ends .a).fut = none := by
    have hdials := h.dials
    generalize (p.ends .a).fut = fut at hdials
    cases hdials
    rfl
  obtain ⟨p', hstep, hend, hother, hout, hinn⟩ := dropEnd_eq p .a halive hfut
  simp only [Side.other] at hother hinn
  have hbb : (p.queues .b).buffer = [] := h.phase.of_done.2
  refine ⟨p', hstep,
    ⟨h.evolved.step hstep, fun d => ?_, ?_, ?_, ?_, fun _ => ⟨r, rfl⟩, ?_⟩, ?_, ?_, ?_⟩
  · cases d with
    | a => rw [hend]; exact h.budgets .a
    | b => rw [hother]; exact h.budgets .b
  · rw [hend, hother, hout, hinn, ← hbb]
    exact h.phase
  · rw [hend]
    exact h.dials
  · rw [hother]
    exact h.serves
  · rw [hother]
    exact h.server
  · rw [hend]
  · rw [hother]
  · rw [Duplex.talkToDo, Duplex.talkToDo, hend, hother, hout]

lemma server_leaves {r : Except String Unit} (h : Talk cfg ms p st (.done r))
    (halive : (p.ends .b).alive = true) :
    ∃ p', p.step (.dropEnd .b) = some p' ∧ Talk cfg ms p' st (.done r) ∧
      (p'.ends .b).alive = false ∧ (p'.ends .a).alive = (p.ends .a).alive ∧
      p'.talkToDo st (.done r) = p.talkToDo st (.done r) := by
  have hfut : (p.ends .b).fut = none := by
    have hserves := h.serves
    generalize (p.ends .b).fut = fut at hserves
    cases hserves
    rfl
  obtain ⟨p', hstep, hend, hother, hout, hinn⟩ := dropEnd_eq p .b halive hfut
  simp only [Side.other] at hother hinn
  have hba : (p.queues .a).buffer = [] := h.phase.of_parted.2.1
  refine ⟨p', hstep,
    ⟨h.evolved.step hstep, fun d => ?_, ?_, ?_, ?_, ?_, fun _ => ⟨r, rfl⟩⟩, ?_, ?_, ?_⟩
  · cases d with
    | a => rw [hother]; exact h.budgets .a
    | b => rw [hend]; exact h.budgets .b
  · rw [hend, hother, hout, hinn, ← hba]
    exact h.phase
  · rw [hother]
    exact h.dials
  · rw [hend]
    exact h.serves
  · rw [hother]
    exact h.dialer
  · rw [hend]
  · rw [hother]
  · rw [Duplex.talkToDo, Duplex.talkToDo, hother]
    rfl

/-- A pair before either driver has acted. -/
lemma new (hnew : duplex cfg = some p) (ms : List Bytes) :
    Talk cfg ms p (.loop 0 ms) .receiving ∧ (∀ d, (p.ends d).alive = true) ∧
      p.talkToDo (.loop 0 ms) .receiving = 10 * ms.length + 2 := by
  have hevolved : Network.Evolved cfg p := ⟨p, [], hnew, rfl⟩
  obtain ⟨q, hq, rfl⟩ := Option.map_eq_some_iff.mp hnew
  have hbuffer : q.buffer = [] := by
    obtain ⟨-, hrx, hpushed, hpopped⟩ := Mpsc.channel_eq_some hq
    have hkept := q.kept hrx
    rw [hpushed, hpopped] at hkept
    exact hkept.symm
  refine ⟨⟨hevolved, fun d => ⟨rfl, rfl⟩, ?_, .idle, .idle, fun hdead => ?_, fun hdead => ?_⟩,
    fun d => rfl, ?_⟩
  · change Phase cfg ms (.loop 0 ms) .receiving q.buffer q.buffer [] []
    rw [hbuffer]
    cases ms with
    | nil => exact @Phase.dialed cfg [] [] _ (.ok rfl) (by simp)
    | cons m rest => exact @Phase.asking cfg (m :: rest) [] rest m rfl (by simp)
  · cases hdead
  · cases hdead
  · simp only [Duplex.talkToDo, hbuffer, MemChannel.new]
    cases ms with
    | nil => rfl
    | cons m rest =>
      simp only [DialState.loop, DialState.toDo, DialState.left, EchoState.toDo,
        Duplex.progress_none, List.length_cons, List.length_nil]
      omega

end Talk

end FungiTransport
