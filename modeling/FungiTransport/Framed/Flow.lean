import FungiTransport.Framed.Pair

/-!
# What flows through a connected pair

A step at one end takes bytes from the pipe towards it and gives bytes to the pipe away from it
(`FramedPair.Moves`).  As long as the other end lives, what it has read, what is in the pipe and
what the call in progress has still to write are together the frames of the messages that were
sent (`FramedPair.Flow`); as the bytes read are whole frames and a part of one, the messages received
are the first of those sent.
-/

namespace FungiTransport

open Lib FramedChannel

/-- The message whose frame the call wrote, or began to write. -/
def Resolved.attempted? : Resolved → Option Bytes
  | .sent _ (.error (.tooLarge _)) | .received _ => none
  | .sent msg _ => some msg

def Resolved.received? : Resolved → Option (Except RecvError Bytes)
  | .received r => some r
  | .sent _ _ => none

namespace Pending

def await : Pending → RecvAwait ⊕ SendAwait
  | recv w => .inl w
  | send _ w => .inr w

/-- The message of a `send`. -/
def msg? : Pending → Option Bytes
  | recv _ => none
  | send msg _ => some msg

/-- What a `send` has still to write. -/
def unsent : Pending → Bytes
  | recv _ => []
  | send _ w => Sender.left w

end Pending

namespace FramedEnd

/-- The end without its callers' view of `send`. -/
def endpoint (e : FramedEnd) : Endpoint :=
  { ch := e.ch
    consumed := e.consumed
    ended := false
    fut := e.fut.map Pending.await
    results := e.log.filterMap Resolved.received? }

/-- The messages that `recv` returned. -/
def received (e : FramedEnd) : List Bytes := e.endpoint.received

/-- The messages of the `send`s that were not rejected for their size, in order, the one in progress
included. -/
def attempted (e : FramedEnd) : List Bytes :=
  e.log.filterMap Resolved.attempted? ++ (e.fut.bind Pending.msg?).toList

/-- What the `send` in progress has still to write. -/
def unsent (e : FramedEnd) : Bytes := (e.fut.map Pending.unsent).getD []

/-- The turns that the caller has taken: the calls it has begun, those that have resolved, and the
drop of the end. -/
def turns (e : FramedEnd) : ℕ :=
  2 * e.log.length + e.fut.toList.length + if e.alive then 0 else 1

/-- A `send` in progress has written a part of its frame; it writes, or there is nothing left to be
written. -/
def SendOk (e : FramedEnd) : Prop :=
  ∀ msg w, e.fut = some (.send msg w) →
    (w = .flush ∨ sendBuffer w ≠ []) ∧ ∃ written, Sender.CallOk ⟨msg, written, .inl w⟩

lemma endpoint_polled (e : FramedEnd) (p : FramedChannel × RecvPoll) :
    (e.polled p).endpoint = e.endpoint.polled p := by
  obtain ⟨ch, x | w⟩ := p
  · simp [polled, endpoint, Endpoint.polled, Resolved.received?]
  · rfl

lemma endpoint_sent (e : FramedEnd) (msg : Bytes) (p : SendPoll) :
    (e.sent msg p).endpoint = e.endpoint.sent p := by
  cases p with
  | ready r => simp [sent, endpoint, Endpoint.sent, Resolved.received?]
  | pending w => rfl

lemma attempted_of_not_send {e : FramedEnd} (h : e.fut.bind Pending.msg? = none) :
    e.attempted = e.log.filterMap Resolved.attempted? := by
  simp [attempted, h]

/-- Receiving leaves the sending side as it is. -/
lemma polled_rest (e : FramedEnd) (h : e.fut.bind Pending.msg? = none)
    (p : FramedChannel × RecvPoll) :
    (e.polled p).attempted = e.attempted ∧ (e.polled p).unsent = [] ∧ (e.polled p).SendOk ∧
      (e.polled p).consumed = e.consumed ∧ (e.polled p).alive = e.alive := by
  rw [attempted_of_not_send h]
  obtain ⟨ch, x | w⟩ := p
  · exact ⟨by simp [polled, attempted, Resolved.attempted?], rfl, by simp [SendOk, polled], rfl, rfl⟩
  · exact ⟨by simp [polled, attempted, Pending.msg?], rfl, by simp [SendOk, polled], rfl, rfl⟩

lemma unsent_of_not_send {e : FramedEnd} (h : e.fut.bind Pending.msg? = none) : e.unsent = [] := by
  rcases hf : e.fut with _ | w | ⟨m, w⟩
  · simp [unsent, hf]
  · simp [unsent, hf, Pending.unsent]
  · simp [hf, Pending.msg?] at h

lemma sent_rest (e : FramedEnd) (msg : Bytes) (p : SendPoll) :
    (e.sent msg p).consumed = e.consumed ∧ (e.sent msg p).alive = e.alive ∧
      (e.sent msg p).ch = e.ch := by
  cases p <;> exact ⟨rfl, rfl, rfl⟩

/-- What a resumed `send` comes to. -/
lemma resumed_cases {w : SendAwait} {o : WriteOutcome} {p : SendPoll}
    (hp : sendResume w o = some p) :
    (∃ n w', o = .wrote n ∧ p = .pending w' ∧ (w' = .flush ∨ sendBuffer w' ≠ [])) ∨
      (∃ err, o = .err err ∧ p = .ready (.error (mapSendIo err))) ∨
      (o = .flushed ∧ w = .flush ∧ p = .ready (.ok ())) := by
  have hmsg : ∀ m, ∃ w', sendMsg m = .pending w' ∧ (w' = .flush ∨ sendBuffer w' ≠ []) := fun m => by
    unfold sendMsg
    split
    · exact ⟨_, rfl, .inl rfl⟩
    · rename_i hm
      exact ⟨_, rfl, .inr hm⟩
  cases o with
  | err err => exact .inr (.inl ⟨err, rfl, by cases w <;> simpa [sendResume] using hp.symm⟩)
  | flushed =>
    cases w with
    | flush => exact .inr (.inr ⟨rfl, rfl, by simpa [sendResume] using hp.symm⟩)
    | writePrefix left m | writeMsg left => simp [sendResume] at hp
  | wrote n =>
    refine .inl ⟨n, ?_⟩
    cases w with
    | flush => simp [sendResume] at hp
    | writeMsg left =>
      obtain ⟨w', hw', hready⟩ := hmsg (left.drop n)
      exact ⟨w', rfl, by simpa [sendResume, hw'] using hp.symm, hready⟩
    | writePrefix left m =>
      simp only [sendResume] at hp
      split at hp
      · obtain ⟨w', hw', hready⟩ := hmsg m
        exact ⟨w', rfl, by simpa [hw'] using hp.symm, hready⟩
      · rename_i hleft
        exact ⟨_, rfl, (Option.some.inj hp).symm, .inr hleft⟩

/-- A `send` that is resumed stays among the messages attempted. -/
lemma attempted_resumed {e : FramedEnd} {msg : Bytes} {w : SendAwait} {o : WriteOutcome} {p : SendPoll}
    (hf : e.fut = some (.send msg w)) (hp : sendResume w o = some p) :
    (e.sent msg p).attempted = e.attempted := by
  have hcur : e.attempted = e.log.filterMap Resolved.attempted? ++ [msg] := by
    simp [attempted, hf, Pending.msg?]
  rw [hcur]
  rcases resumed_cases hp with ⟨n, w', -, rfl, -⟩ | ⟨err, -, rfl⟩ | ⟨-, -, rfl⟩
  · simp [sent, attempted, Pending.msg?]
  · have hr : Resolved.attempted? (.sent msg (.error (mapSendIo err))) = some msg := by
      simp only [mapSendIo]
      split <;> rfl
    simp [sent, attempted, hr]
  · simp [sent, attempted, Resolved.attempted?]

/-- What a write takes from the buffer is no longer to be written. -/
lemma unsent_written {e : FramedEnd} {msg : Bytes} {w : SendAwait} {n : ℕ} {p : SendPoll}
    (hok : e.SendOk) (hf : e.fut = some (.send msg w)) (hp : sendResume w (.wrote n) = some p) :
    (sendBuffer w).take n ++ (e.sent msg p).unsent = e.unsent ∧ (e.sent msg p).SendOk := by
  obtain ⟨-, written, hcall⟩ := hok msg w hf
  have hnext := Sender.callOk_wrote hcall hp
  have hcur : e.unsent = Sender.left w := by simp [unsent, hf, Pending.unsent]
  obtain ⟨_, w', -, rfl, hready⟩ | ⟨err, herr, -⟩ | ⟨herr, -⟩ := resumed_cases hp
  · obtain ⟨-, hleft⟩ := hcall.suspended w rfl
    obtain ⟨-, hleft'⟩ := hnext.suspended w' rfl
    refine ⟨?_, fun m v hv => ?_⟩
    · rw [hcur]
      simpa [sent, unsent, Pending.unsent, ← hleft] using hleft'
    · obtain ⟨rfl, rfl⟩ : msg = m ∧ w' = v := by simpa [sent] using hv
      exact ⟨hready, _, hnext⟩
  · cases herr
  · cases herr

/-- A write in progress has something left to be written. -/
lemma unsent_ne_nil {e : FramedEnd} {msg : Bytes} {w : SendAwait} (hf : e.fut = some (.send msg w))
    (hne : sendBuffer w ≠ []) : e.unsent ≠ [] := by
  have hcur : e.unsent = Sender.left w := by simp [unsent, hf, Pending.unsent]
  rw [hcur]
  cases w with
  | writePrefix left m => simp [Sender.left, sendBuffer] at hne ⊢; simp [hne]
  | writeMsg left => exact hne
  | flush => exact absurd rfl hne

/-- A flush that succeeds has nothing left to write behind it. -/
lemma unsent_flushed {e : FramedEnd} {msg : Bytes} {w : SendAwait} {p : SendPoll}
    (hf : e.fut = some (.send msg w)) (hp : sendResume w .flushed = some p) :
    (e.sent msg p).unsent = e.unsent ∧ (e.sent msg p).SendOk ∧ p = .ready (.ok ()) := by
  cases w with
  | flush =>
    obtain rfl : .ready (.ok ()) = p := by simpa [sendResume] using hp
    exact ⟨by simp [sent, unsent, hf, Pending.unsent, Sender.left], by simp [SendOk, sent], rfl⟩
  | writePrefix left m | writeMsg left => simp [sendResume] at hp

/-- A `send` that starts is rejected, or has its whole frame to write. -/
lemma sent_started {e : FramedEnd} (hf : e.fut = none) (msg : Bytes) :
    (e.sent msg (e.ch.sendInner msg)).SendOk ∧
      ((e.ch.maxMsgLen < msg.length ∧ (e.sent msg (e.ch.sendInner msg)).attempted = e.attempted ∧
          (e.sent msg (e.ch.sendInner msg)).unsent = []) ∨
        (msg.length ≤ e.ch.maxMsgLen ∧
          (e.sent msg (e.ch.sendInner msg)).attempted = e.attempted ++ [msg] ∧
          (e.sent msg (e.ch.sendInner msg)).unsent = frame 4 msg)) := by
  have hbase : e.attempted = e.log.filterMap Resolved.attempted? := by
    rw [attempted_of_not_send (by simp [hf])]
  have hcall := Sender.callOk_sendInner e.ch msg
  rw [hbase]
  unfold sendInner at hcall ⊢
  split
  · rename_i hlong
    exact ⟨by simp [SendOk, sent], .inl ⟨hlong, by simp [sent, attempted, Resolved.attempted?], rfl⟩⟩
  · rename_i hfits
    rw [if_neg hfits] at hcall
    refine ⟨fun m w hw => ?_, .inr ⟨by omega, by simp [sent, attempted, Pending.msg?], rfl⟩⟩
    obtain ⟨rfl, rfl⟩ : msg = m ∧ _ = w := by simpa [sent] using hw
    exact ⟨.inr (List.ne_nil_of_length_pos (by simp [sendBuffer])), [], hcall⟩

end FramedEnd

namespace Endpoint

open Receiver

lemma length_held_le {max : ℕ} {s : Endpoint} (h : ReadInv max s) :
    (held s.ch).length ≤ 4 + max := by
  have hmax := h.bounded.length_le
  rw [h.max] at hmax
  simp only [held, List.length_append, List.length_take, h.bounded.header_length]
  omega

/-- What is held and what a read puts behind it is no more than a frame within the limit. -/
lemma length_held_append_le {max : ℕ} {s : Endpoint} {w : RecvAwait} {bytes : Bytes}
    (h : ReadInv max s) (hfut : s.fut = some (.inl w)) (hroom : bytes.length ≤ s.ch.recvBuffer w) :
    (held s.ch ++ bytes).length ≤ 4 + max := by
  obtain ⟨hp, hw⟩ := h.inv.fut w hfut
  have hrs := h.inv.state hp
  have hmax := h.bounded.length_le
  rw [h.max] at hmax
  cases w with
  | header =>
    obtain ⟨hnil, -⟩ := hrs.empty hw
    simp only [recvBuffer, hrs.header_length] at hroom
    simp only [held, hnil, List.take_nil, List.append_nil, List.length_append, List.length_take,
      hrs.header_length]
    omega
  | payload len =>
    simp only [recvBuffer] at hroom
    simp only [held, List.length_append, List.length_take, hrs.header_length]
    omega

lemma received_polled {max : ℕ} {s : Endpoint} {bytes : Bytes} {p : FramedChannel × RecvPoll}
    (hle : ∀ m ∈ s.received, m.length ≤ max) (h : Accounts s.ch bytes p)
    (hlen : (held s.ch ++ bytes).length ≤ 4 + max) :
    ∀ m ∈ (s.polled p).received, m.length ≤ max := by
  obtain ⟨ch, (e | m) | w⟩ := p
  · simpa [polled, received, Except.toOption] using hle
  · obtain ⟨-, -, -, hframe⟩ := h
    rw [← hframe, length_frame] at hlen
    intro m' hm'
    have hmem : m' ∈ s.received ∨ m' = m := by
      simpa [polled, received, Except.toOption] using hm'
    rcases hmem with hmem | rfl
    · exact hle m' hmem
    · omega
  · exact hle

/-- The messages that `recv` returns are within the limit. -/
lemma step_received {max : ℕ} {s s' : Endpoint} {a : EndpointAction} (h : ReadInv max s)
    (hle : ∀ m ∈ s.received, m.length ≤ max) (hstep : s.stepAny a = some s') :
    ∀ m ∈ s'.received, m.length ≤ max := by
  cases effect_of_step hstep with
  | recv hfut =>
    exact received_polled hle (recvInner_accounts h.bounded h.inv.state)
      (by simpa using length_held_le h)
  | @read w bytes hfut hended hroom =>
    obtain ⟨hp, hw⟩ := h.inv.fut w hfut
    exact received_polled (s := Endpoint.took { s with ended := false } w bytes) hle
      (recvResume_accounts (h.inv.state hp) hw hroom) (length_held_append_le (s := s) h hfut hroom)
  | readErr hfut hended => simpa [received, Except.toOption] using hle
  | other fut => exact hle

end Endpoint

namespace FramedPair

/-! ## What a step does -/

/-- The step `a` at end `d` turns it into `e`, takes the bytes `taken` from the pipe towards it and
gives the bytes `given` to the pipe away from it. -/
structure Moves (s : FramedPair) (a : PairAction) (d : Side) (e : FramedEnd) (taken given : Bytes) :
    Prop where
  lives : (s.ends d).alive = true
  alive : e.alive = false → e.fut = none ∧ a = .dropEnd d ∧ e.log = (s.ends d).log
  reads : (∃ f : Option SendAwait, e.endpoint = { (s.ends d).endpoint with fut := f.map .inr }) ∨
    ∃ b u, (s.ends d).endpoint.stepAny b = some u ∧ e.endpoint = { u with ended := false }
  consumed : e.consumed = (s.ends d).consumed ++ taken
  sendOk : e.SendOk
  room : (s.pipes d).length ≤ s.room → (s.pipes d ++ given).length ≤ s.room
  flow : ∃ new, e.attempted = (s.ends d).attempted ++ new ∧
    (∀ m ∈ new, m.length ≤ (s.ends d).ch.maxMsgLen) ∧
    (given ++ e.unsent = (s.ends d).unsent ++ new.flatMap (frame 4) ∨
      -- a write has failed
      (s.ends d.other).alive = false ∧ (s.ends d).unsent ≠ [])
  progress : a ≠ .dropRecv d → (s.ends d).turns < e.turns + taken.length + given.length

/-- The pair after end `d` has become `e`, with what is left to be read there and what was given. -/
def moved (s : FramedPair) (d : Side) (e : FramedEnd) (rest given : Bytes) : FramedPair :=
  ((s.setEnd d e).setPipe d.other rest).setPipe d (s.pipes d ++ given)

@[simp] lemma ends_moved (s : FramedPair) (d : Side) (e : FramedEnd) (rest given : Bytes) :
    (s.moved d e rest given).ends d = e := by
  simp [moved, setEnd, setPipe]

@[simp] lemma ends_moved_other (s : FramedPair) (d : Side) (e : FramedEnd) (rest given : Bytes) :
    (s.moved d e rest given).ends d.other = s.ends d.other := by
  simp [moved, setEnd, setPipe]

@[simp] lemma pipes_moved (s : FramedPair) (d : Side) (e : FramedEnd) (rest given : Bytes) :
    (s.moved d e rest given).pipes d = s.pipes d ++ given := by
  simp [moved, setPipe]

@[simp] lemma pipes_moved_other (s : FramedPair) (d : Side) (e : FramedEnd) (rest given : Bytes) :
    (s.moved d e rest given).pipes d.other = rest := by
  simp [moved, setPipe]

lemma moved_nil (s : FramedPair) (d : Side) (e : FramedEnd) :
    s.moved d e (s.pipes d.other) [] = s.setEnd d e := by
  simp [moved, setEnd, setPipe]

lemma idle_eq_some {s : FramedPair} {d : Side} {e : FramedEnd} (h : s.idle d = some e) :
    e = s.ends d ∧ (s.ends d).alive = true ∧ (s.ends d).fut = none := by
  simp only [idle] at h
  split at h
  · rename_i hidle
    exact ⟨(Option.some.inj h).symm, hidle.1, by simpa using hidle.2⟩
  · cases h

/-- Receiving takes bytes and gives none. -/
lemma moves_polled {s : FramedPair} {a : PairAction} {d : Side} {taken : Bytes}
    {p : FramedChannel × RecvPoll} (hlives : (s.ends d).alive = true)
    (hf : (s.ends d).fut.bind Pending.msg? = none) {b : EndpointAction} {u : Endpoint}
    (hb : (s.ends d).endpoint.stepAny b = some u)
    (hu : { s.ends d with consumed := (s.ends d).consumed ++ taken }.endpoint.polled p =
      { u with ended := false })
    (hprogress : (s.ends d).fut = none ∨ taken ≠ [] ∨ ∃ x, p.2 = .ready x) :
    Moves s a d ({ s.ends d with consumed := (s.ends d).consumed ++ taken }.polled p) taken [] := by
  obtain ⟨hattempted, hunsent, hok, hconsumed, halive⟩ := FramedEnd.polled_rest
    { s.ends d with consumed := (s.ends d).consumed ++ taken } hf p
  refine ⟨hlives, fun hdead => ?_, .inr ⟨b, u, hb, ?_⟩, hconsumed, hok, fun h => by simpa using h,
    ⟨[], ?_, by simp, .inl ?_⟩, fun _ => ?_⟩
  · exact absurd (halive.symm.trans hdead) (by simp [hlives])
  · rw [FramedEnd.endpoint_polled, hu]
  · rw [hattempted, List.append_nil]
    rfl
  · rw [hunsent, FramedEnd.unsent_of_not_send hf]
    rfl
  · have hle : (s.ends d).fut.toList.length ≤ 1 := Option.length_toList_le
    obtain ⟨ch, x | w⟩ := p
    · simp only [FramedEnd.turns, FramedEnd.polled, hlives, List.length_append,
        List.length_singleton, Option.toList_none, List.length_nil]
      omega
    · rcases hprogress with hnone | htaken | ⟨x, hx⟩
      · simp [FramedEnd.turns, FramedEnd.polled, hnone, hlives]
        omega
      · have hpos := List.length_pos_of_ne_nil htaken
        simp only [FramedEnd.turns, FramedEnd.polled, hlives, Option.toList_some,
          List.length_singleton, List.length_nil]
        omega
      · cases hx

/-- Sending gives bytes and takes none. -/
lemma moves_sent {s : FramedPair} {a : PairAction} {d : Side} {msg : Bytes} {p : SendPoll}
    {given : Bytes} (hlives : (s.ends d).alive = true) (hok : ((s.ends d).sent msg p).SendOk)
    (hroom : (s.pipes d).length ≤ s.room → (s.pipes d ++ given).length ≤ s.room)
    (hflow : ∃ new, ((s.ends d).sent msg p).attempted = (s.ends d).attempted ++ new ∧
      (∀ m ∈ new, m.length ≤ (s.ends d).ch.maxMsgLen) ∧
      (given ++ ((s.ends d).sent msg p).unsent = (s.ends d).unsent ++ new.flatMap (frame 4) ∨
        (s.ends d.other).alive = false ∧ (s.ends d).unsent ≠ []))
    (hprogress : (s.ends d).fut = none ∨ given ≠ [] ∨ ∃ r, p = .ready r) :
    Moves s a d ((s.ends d).sent msg p) [] given := by
  obtain ⟨hconsumed, halive, -⟩ := FramedEnd.sent_rest (s.ends d) msg p
  refine ⟨hlives, fun hdead => ?_, .inl ?_, by rw [hconsumed, List.append_nil], hok, hroom, hflow,
    fun _ => ?_⟩
  · exact absurd (halive.symm.trans hdead) (by simp [hlives])
  · rw [FramedEnd.endpoint_sent]
    cases p with
    | pending w => exact ⟨some w, rfl⟩
    | ready r => exact ⟨none, rfl⟩
  · have hle : (s.ends d).fut.toList.length ≤ 1 := Option.length_toList_le
    cases p with
    | ready r =>
      simp only [FramedEnd.turns, FramedEnd.sent, hlives, List.length_append,
        List.length_singleton, Option.toList_none, List.length_nil]
      omega
    | pending w =>
      rcases hprogress with hnone | hgiven | ⟨r, hr⟩
      · simp [FramedEnd.turns, FramedEnd.sent, hnone, hlives]
        omega
      · have hpos := List.length_pos_of_ne_nil hgiven
        simp only [FramedEnd.turns, FramedEnd.sent, hlives, Option.toList_some,
          List.length_singleton, List.length_nil]
        omega
      · cases hr

/-- A call that is dropped, or an end, leaves the bytes as they are. -/
lemma moves_dropped {s : FramedPair} {a : PairAction} {d : Side} (alive : Bool)
    (hlives : (s.ends d).alive = true) (hf : (s.ends d).fut.bind Pending.msg? = none)
    (ha : a = .dropRecv d ∧ alive = true ∨
      a = .dropEnd d ∧ alive = false ∧ (s.ends d).fut = none) :
    Moves s a d { s.ends d with alive := alive, fut := none } [] [] where
  lives := hlives
  alive := fun hdead => by
    rcases ha with ⟨-, rfl⟩ | ⟨rfl, -, -⟩
    · cases hdead
    · exact ⟨rfl, rfl, rfl⟩
  reads := .inl ⟨none, rfl⟩
  consumed := (List.append_nil _).symm
  sendOk := by simp [FramedEnd.SendOk]
  room := fun h => by simpa using h
  flow := ⟨[], by simp [FramedEnd.attempted, hf], by simp, .inl (by
    rw [FramedEnd.unsent_of_not_send hf]
    rfl)⟩
  progress := fun hne => by
    rcases ha with ⟨rfl, -⟩ | ⟨-, rfl, hnone⟩
    · exact absurd rfl hne
    · simp [FramedEnd.turns, hnone, hlives]

/-- What holds at each end: nothing is in progress at a dropped end, and a `send` in progress has
written a part of its frame. -/
def Ready (e : FramedEnd) : Prop := (e.alive = false → e.fut = none) ∧ e.SendOk

lemma Ready.lives {e : FramedEnd} (h : Ready e) {f : Pending} (hf : e.fut = some f) :
    e.alive = true := by
  by_contra hdead
  exact absurd (h.1 (by simpa using hdead)) (by simp [hf])

lemma read_nothing (e : FramedEnd) : { e with consumed := e.consumed ++ [] } = e := by
  rw [List.append_nil]

lemma ended_polled (u : Endpoint) (b : Bool) (p : FramedChannel × RecvPoll) :
    { u.polled p with ended := b } = { u with ended := b }.polled p := by
  obtain ⟨ch, x | w⟩ := p <;> rfl

/-- A read at an end is a read of its endpoint. -/
lemma moves_read {s : FramedPair} {a : PairAction} {d : Side} {w : RecvAwait} {bytes : Bytes}
    (hlives : (s.ends d).alive = true) (hf : (s.ends d).fut = some (.recv w))
    (hroom : bytes.length ≤ (s.ends d).ch.recvBuffer w) :
    Moves s a d ({ s.ends d with consumed := (s.ends d).consumed ++ bytes }.polled
      ((s.ends d).ch.recvResume w (.data bytes))) bytes [] := by
  have hb : (s.ends d).endpoint.stepAny (.read bytes) =
      some (((s.ends d).endpoint.took w bytes).polled
        ((s.ends d).ch.recvResume w (.data bytes))) :=
    Endpoint.step_read (by simp [FramedEnd.endpoint, hf, Pending.await])
      (fun h => by cases h) hroom
  refine moves_polled hlives (by simp [hf, Pending.msg?]) hb ?_ (.inr ?_)
  · rw [ended_polled]
    rfl
  · cases bytes with
    | cons b bs => exact .inl (List.cons_ne_nil b bs)
    | nil =>
      -- at the end of the stream the call resolves
      right
      cases w with
      | payload len => exact ⟨_, rfl⟩
      | header =>
        simp only [recvResume]
        split <;> exact ⟨_, rfl⟩

/-- **What a step does.** -/
lemma moves_of_step {s s' : FramedPair} {a : PairAction} {d : Side} (hd : a.side = d)
    (h : Ready (s.ends d)) (hstep : s.step a = some s') :
    ∃ e taken rest given, s.pipes d.other = taken ++ rest ∧ s' = s.moved d e rest given ∧
      Moves s a d e taken given := by
  cases a with
  | recv d' =>
    obtain rfl : d' = d := hd
    obtain ⟨e, he, rfl⟩ := Option.map_eq_some_iff.mp hstep
    obtain ⟨rfl, hlives, hf⟩ := idle_eq_some he
    refine ⟨_, [], _, [], rfl, (moved_nil s d' _).symm, ?_⟩
    have hb : (s.ends d').endpoint.stepAny .recv =
        some ((s.ends d').endpoint.polled (s.ends d').ch.recvInner) := by
      simp [Endpoint.stepAny, Endpoint.step, FramedEnd.endpoint, hf]
    have hmoves : Moves s (.recv d') d' _ [] [] := moves_polled hlives (by simp [hf]) hb
      (by rw [read_nothing, ended_polled]; rfl) (.inl hf)
    rwa [read_nothing] at hmoves
  | read d' n =>
    obtain rfl : d' = d := hd
    simp only [step] at hstep
    split at hstep
    · rename_i w hf
      have hlives := h.lives hf
      simp only [read] at hstep
      split at hstep
      · -- the end of the stream
        split at hstep
        · obtain rfl := Option.some.inj hstep
          refine ⟨_, [], _, [], rfl, (moved_nil s d' _).symm, ?_⟩
          have hmoves : Moves s (.read d' n) d' _ [] [] := moves_read hlives hf (Nat.zero_le _)
          rwa [read_nothing] at hmoves
        · cases hstep
      · split at hstep
        · rename_i hn
          obtain rfl := Option.some.inj hstep
          refine ⟨_, _, _, [], (List.take_append_drop n _).symm, ?_, moves_read hlives hf ?_⟩
          · simp [moved, setEnd, setPipe, Function.update_of_ne (Side.other_ne d').symm]
          · rw [List.length_take]
            omega
        · cases hstep
    · cases hstep
  | readErr d' err =>
    obtain rfl : d' = d := hd
    simp only [step] at hstep
    split at hstep
    · rename_i w hf
      split at hstep
      · cases hstep
      · obtain rfl := Option.some.inj hstep
        refine ⟨_, [], _, [], rfl, (moved_nil s d' _).symm, ?_⟩
        have hb : (s.ends d').endpoint.stepAny (.readErr err) =
            some ({ (s.ends d').endpoint with ended := decide err.IsReset }.polled
              ((s.ends d').ch.recvResume w (.err err))) := by
          simp [Endpoint.stepAny, Endpoint.step, FramedEnd.endpoint, hf, Pending.await]
        have hready : ∃ x, ((s.ends d').ch.recvResume w (.err err)).2 = .ready x :=
          ⟨_, by cases w <;> rfl⟩
        have hmoves : Moves s (.readErr d' err) d' _ [] [] :=
          moves_polled (h.lives hf) (by simp [hf, Pending.msg?]) hb
            (by rw [read_nothing, ended_polled]; rfl) (.inr (.inr hready))
        rwa [read_nothing] at hmoves
    · cases hstep
  | send d' msg =>
    obtain rfl : d' = d := hd
    obtain ⟨e, he, rfl⟩ := Option.map_eq_some_iff.mp hstep
    obtain ⟨rfl, hlives, hf⟩ := idle_eq_some he
    refine ⟨_, [], _, [], rfl, (moved_nil s d' _).symm, ?_⟩
    obtain ⟨hok, hcases⟩ := FramedEnd.sent_started hf msg
    have hnone : (s.ends d').unsent = [] := FramedEnd.unsent_of_not_send (by simp [hf])
    refine moves_sent hlives hok (fun h => by simpa using h) ?_ (.inl hf)
    rcases hcases with ⟨-, hattempted, hunsent⟩ | ⟨hfits, hattempted, hunsent⟩
    · exact ⟨[], by rw [hattempted, List.append_nil], by simp, .inl (by rw [hunsent, hnone]; rfl)⟩
    · exact ⟨[msg], hattempted, by simpa using hfits, .inl (by rw [hunsent, hnone]; simp)⟩
  | write d' n =>
    obtain rfl : d' = d := hd
    simp only [step] at hstep
    split at hstep
    · rename_i msg w hf
      simp only [write] at hstep
      split at hstep
      · rename_i hn
        obtain ⟨p, hp, rfl⟩ := Option.map_eq_some_iff.mp hstep
        obtain ⟨hunsent, hok⟩ := FramedEnd.unsent_written h.2 hf hp
        have hlen : ((sendBuffer w).take n).length = n := List.length_take_of_le hn.1.2
        refine ⟨_, [], _, (sendBuffer w).take n, rfl, ?_, moves_sent (h.lives hf) hok (fun _ => ?_)
          ⟨[], ?_, by simp, .inl ?_⟩ (.inr (.inl ?_))⟩
        · simp [moved, setEnd, setPipe]
        · rw [List.length_append, hlen]
          exact hn.2
        · rw [FramedEnd.attempted_resumed hf hp, List.append_nil]
        · rw [hunsent]
          simp
        · exact List.ne_nil_of_length_pos (by omega)
      · cases hstep
    · cases hstep
  | writeErr d' err =>
    obtain rfl : d' = d := hd
    simp only [step] at hstep
    split at hstep
    · rename_i msg w hf
      split at hstep
      · cases hstep
      · rename_i hdead
        simp only [not_or, Bool.not_eq_true] at hdead
        obtain ⟨p, hp, rfl⟩ := Option.map_eq_some_iff.mp hstep
        obtain ⟨_, _, hne, -, -⟩ | ⟨_, -, rfl⟩ | ⟨hne, -⟩ := FramedEnd.resumed_cases hp
        · cases hne
        · refine ⟨_, [], _, [], rfl, (moved_nil s d' _).symm, ?_⟩
          refine moves_sent (h.lives hf) (by simp [FramedEnd.SendOk, FramedEnd.sent])
            (fun h => by simpa using h) ⟨[], ?_, by simp, .inr ⟨hdead.1, ?_⟩⟩ (.inr (.inr ⟨_, rfl⟩))
          · rw [FramedEnd.attempted_resumed hf hp, List.append_nil]
          · exact FramedEnd.unsent_ne_nil hf hdead.2
        · cases hne
    · cases hstep
  | flush d' =>
    obtain rfl : d' = d := hd
    simp only [step] at hstep
    split at hstep
    · rename_i msg w hf
      obtain ⟨p, hp, rfl⟩ := Option.map_eq_some_iff.mp hstep
      obtain ⟨hunsent, hok, rfl⟩ := FramedEnd.unsent_flushed hf hp
      refine ⟨_, [], _, [], rfl, (moved_nil s d' _).symm, moves_sent (h.lives hf) hok
        (fun h => by simpa using h) ⟨[], ?_, by simp, .inl ?_⟩ (.inr (.inr ⟨_, rfl⟩))⟩
      · rw [FramedEnd.attempted_resumed hf hp, List.append_nil]
      · rw [hunsent]
        simp
    · cases hstep
  | dropRecv d' =>
    obtain rfl : d' = d := hd
    simp only [step] at hstep
    split at hstep
    · rename_i w hf
      obtain rfl := Option.some.inj hstep
      exact ⟨_, [], _, [], rfl, (moved_nil s d' _).symm,
        moves_dropped _ (h.lives hf) (by simp [hf, Pending.msg?]) (.inl ⟨rfl, h.lives hf⟩)⟩
    · cases hstep
  | dropEnd d' =>
    obtain rfl : d' = d := hd
    obtain ⟨e, he, rfl⟩ := Option.map_eq_some_iff.mp hstep
    obtain ⟨rfl, hlives, hf⟩ := idle_eq_some he
    refine ⟨_, [], _, [], rfl, (moved_nil s d' _).symm, ?_⟩
    have hmoves := moves_dropped (s := s) (a := .dropEnd d') (d := d') false hlives (by simp [hf])
      (.inr ⟨rfl, rfl, hf⟩)
    rwa [← hf] at hmoves

/-! ## What always holds -/

/-- What holds at an end whose limit is `max`. -/
structure EndInv (max : ℕ) (e : FramedEnd) : Prop where
  reads : Endpoint.ReadInv max e.endpoint
  received : ∀ m ∈ e.received, m.length ≤ max
  attempted : ∀ m ∈ e.attempted, m.length ≤ max
  ready : Ready e

/-- As long as the other end lives, what it has read, what is in the pipe and what is still to be
written are the frames of the messages attempted. -/
def Flow (s : FramedPair) (d : Side) : Prop :=
  (s.ends d.other).alive = true →
    (s.ends d.other).consumed ++ s.pipes d ++ (s.ends d).unsent =
      (s.ends d).attempted.flatMap (frame 4)

/-- What always holds of a pair whose ends have the limits `max`. -/
structure Inv (max : Side → ℕ) (s : FramedPair) : Prop where
  fits : ∀ d, max d < 2 ^ 32
  ends : ∀ d, EndInv (max d) (s.ends d)
  flow : ∀ d, s.Flow d
  inOrder : ∀ d, (s.ends d.other).received <+: (s.ends d).attempted
  room : ∀ d, (s.pipes d).length ≤ s.room

/-- What holds of one end and of the other holds of both. -/
lemma forall_side {P : Side → Prop} (d : Side) (h : P d) (h' : P d.other) : ∀ x, P x := by
  intro x
  rcases Side.eq_or_eq_other x d with rfl | rfl
  · exact h
  · exact h'

lemma readInv_forget {max : ℕ} {u : Endpoint} (h : Endpoint.ReadInv max u) (b : Bool) :
    Endpoint.ReadInv max { u with ended := b } :=
  ⟨⟨h.inv.state, h.inv.fut⟩, h.max, h.bounded, h.consumed⟩

lemma endInv_moves {max : ℕ} {s : FramedPair} {a : PairAction} {d : Side} {e : FramedEnd}
    {taken given : Bytes} (h : EndInv max (s.ends d)) (hm : Moves s a d e taken given) :
    EndInv max e := by
  obtain ⟨new, hattempted, hfits, -⟩ := hm.flow
  have hmax : (s.ends d).ch.maxMsgLen = max := h.reads.max
  have hreads : Endpoint.ReadInv max e.endpoint ∧ ∀ m ∈ e.received, m.length ≤ max := by
    rcases hm.reads with ⟨f, hf⟩ | ⟨b, u, hb, hu⟩
    · simp only [FramedEnd.received, hf]
      refine ⟨⟨⟨h.reads.inv.state, fun w hw => ?_⟩, h.reads.max, h.reads.bounded, h.reads.consumed⟩,
        h.received⟩
      cases f <;> simp at hw
    · have hle := Endpoint.step_received h.reads h.received hb
      simp only [FramedEnd.received, hu]
      exact ⟨readInv_forget (Endpoint.step_readInv h.reads hb) false, hle⟩
  refine ⟨hreads.1, hreads.2, fun m hmem => ?_, fun hdead => (hm.alive hdead).1, hm.sendOk⟩
  rw [hattempted, List.mem_append] at hmem
  exact hmem.elim (h.attempted m) fun hnew => hmax ▸ hfits m hnew

/-- What an end received is at the front of what it has read. -/
lemma EndInv.consumed {max : ℕ} {e : FramedEnd} (h : EndInv max e) :
    e.consumed = e.received.flatMap (frame 4) ++ Receiver.held e.ch := h.reads.consumed

lemma EndInv.maxMsgLen {max : ℕ} {e : FramedEnd} (h : EndInv max e) : e.ch.maxMsgLen = max :=
  h.reads.max

lemma EndInv.readState {max : ℕ} {e : FramedEnd} (h : EndInv max e) (hp : e.ch.poisoned = false) :
    Receiver.ReadState e.ch := h.reads.inv.state hp

/-- A `recv` in progress is suspended where the read state says. -/
lemma EndInv.awaits {max : ℕ} {e : FramedEnd} (h : EndInv max e) {w : RecvAwait}
    (hf : e.fut = some (.recv w)) : e.ch.poisoned = false ∧ Receiver.Awaits e.ch w :=
  h.reads.inv.fut w (by simp [FramedEnd.endpoint, hf, Pending.await])

lemma fits_frame {max n : ℕ} (hmax : max < 2 ^ 32) (hn : n ≤ max) : n < 256 ^ 4 := by
  norm_num at hmax ⊢
  omega

/-- If all bytes are accounted for, the messages received are the first of those attempted, and
the frames of the rest are held, in the pipe or still to be written. -/
lemma received_append {max : Side → ℕ} {s : FramedPair} {d : Side} {bytes : Bytes}
    (hfits : ∀ d, max d < 2 ^ 32) {e : FramedEnd} (hd : EndInv (max d) (s.ends d))
    (he : EndInv (max d.other) e)
    (hflow : e.consumed ++ bytes = (s.ends d).attempted.flatMap (frame 4)) :
    ∃ ahead, (s.ends d).attempted = e.received ++ ahead ∧
      Receiver.held e.ch ++ bytes = ahead.flatMap (frame 4) := by
  rw [he.consumed, List.append_assoc] at hflow
  exact flatMap_frame_append (by norm_num)
    (fun m hm => fits_frame (hfits d.other) (he.received m hm))
    (fun m hm => fits_frame (hfits d) (hd.attempted m hm)) hflow

/-- **The step lemma** of the pair. -/
lemma step_inv {max : Side → ℕ} {s s' : FramedPair} {a : PairAction} (h : Inv max s)
    (hstep : s.step a = some s') : Inv max s' := by
  obtain ⟨e, taken, rest, given, hpipe, rfl, hm⟩ :=
    moves_of_step (d := a.side) rfl (h.ends a.side).ready hstep
  generalize hd : a.side = d at *
  obtain ⟨new, hattempted, hfits, hflow⟩ := hm.flow
  have he : EndInv (max d) e := endInv_moves (h.ends d) hm
  -- what end `d` took is accounted for at the other end
  have htaken : e.consumed ++ rest ++ (s.ends d.other).unsent =
      (s.ends d.other).attempted.flatMap (frame 4) := by
    have hother := h.flow d.other (by rw [Side.other_other]; exact hm.lives)
    rw [Side.other_other, hpipe] at hother
    rw [hm.consumed, ← hother]
    simp only [List.append_assoc]
  refine ⟨h.fits, forall_side d ?_ ?_, forall_side d ?_ ?_, forall_side d ?_ ?_, forall_side d ?_ ?_⟩
  · simpa using he
  · simpa using h.ends d.other
  · intro halive
    rw [ends_moved_other] at halive
    have hold := h.flow d halive
    simp only [ends_moved, ends_moved_other, pipes_moved, hattempted, List.flatMap_append, ← hold,
      List.append_assoc]
    rcases hflow with hflow | ⟨hdead, -⟩
    · rw [hflow]
    · exact absurd halive (by simp [hdead])
  · intro halive
    simpa using htaken
  · simp only [ends_moved, ends_moved_other, hattempted]
    exact (h.inOrder d).trans (List.prefix_append _ _)
  · simp only [Side.other_other, ends_moved, ends_moved_other]
    have he' : EndInv (max d.other.other) e := by rwa [Side.other_other]
    rw [List.append_assoc] at htaken
    obtain ⟨ahead, hahead, -⟩ := received_append h.fits (h.ends d.other) he' htaken
    exact ⟨ahead, hahead.symm⟩
  · simpa [moved, setEnd, setPipe] using hm.room (h.room d)
  · have hle : rest.length ≤ s.room := by
      have hroom := h.room d.other
      rw [hpipe, List.length_append] at hroom
      omega
    simpa [moved, setEnd, setPipe, Function.update_of_ne (Side.other_ne d)] using hle

/-- The limits of the two ends. -/
def limits (maxA maxB : ℕ) : Side → ℕ
  | .a => maxA
  | .b => maxB

lemma endInv_new {max : ℕ} {ch : FramedChannel} (hnew : FramedChannel.new max = some ch) :
    EndInv max (.new ch) where
  reads := Endpoint.readInv_start hnew
  received := by simp [FramedEnd.received, FramedEnd.new, FramedEnd.endpoint, Endpoint.received]
  attempted := by simp [FramedEnd.attempted, FramedEnd.new]
  ready := ⟨fun _ => rfl, by simp [FramedEnd.SendOk, FramedEnd.new]⟩

lemma new_fits {max : ℕ} {ch : FramedChannel} (hnew : FramedChannel.new max = some ch) :
    max < 2 ^ 32 := by
  unfold FramedChannel.new at hnew
  split at hnew
  · assumption
  · cases hnew

lemma inv_start {room maxA maxB : ℕ} {a b : FramedChannel}
    (ha : FramedChannel.new maxA = some a) (hb : FramedChannel.new maxB = some b) :
    Inv (limits maxA maxB) (framedPair room a b) where
  fits := forall_side .a (new_fits ha) (new_fits hb)
  ends := forall_side .a (endInv_new ha) (endInv_new hb)
  flow := forall_side .a (fun _ => rfl) (fun _ => rfl)
  inOrder := forall_side .a (List.prefix_refl _) (List.prefix_refl _)
  room := fun _ => Nat.zero_le _

lemma run_inv {room maxA maxB : ℕ} {a b : FramedChannel} (ha : FramedChannel.new maxA = some a)
    (hb : FramedChannel.new maxB = some b) {as : List PairAction} {s : FramedPair}
    (hrun : run step (framedPair room a b) as = some s) : Inv (limits maxA maxB) s :=
  run_invariant (fun _ _ _ => step_inv) (inv_start ha hb) hrun

/-- What lies ahead of an end that lives: the frames of the messages attempted at the other end
and not received yet are held, in the pipe, or still to be written. -/
lemma Inv.ahead {max : Side → ℕ} {s : FramedPair} (h : Inv max s) {d : Side}
    (halive : (s.ends d.other).alive = true) :
    ∃ ahead, (s.ends d).attempted = (s.ends d.other).received ++ ahead ∧
      Receiver.held (s.ends d.other).ch ++ (s.pipes d ++ (s.ends d).unsent) =
        ahead.flatMap (frame 4) := by
  have hflow := h.flow d halive
  rw [List.append_assoc] at hflow
  exact received_append h.fits (h.ends d) (h.ends d.other) hflow

/-- The bytes held are no whole frame. -/
lemma Inv.held_ne {max : Side → ℕ} {s : FramedPair} (h : Inv max s) (d : Side) (m : Bytes) :
    ¬ frame 4 m <+: Receiver.held (s.ends d).ch :=
  (h.ends d).reads.bounded.not_frame_prefix m

/-- Once the pipe is empty and nothing is being sent, everything has been received. -/
lemma Inv.drained {max : Side → ℕ} {s : FramedPair} (h : Inv max s) {d : Side}
    (halive : (s.ends d.other).alive = true) (hpipe : s.pipes d = [])
    (hunsent : (s.ends d).unsent = []) :
    (s.ends d.other).received = (s.ends d).attempted := by
  obtain ⟨ahead, hattempted, hbytes⟩ := h.ahead halive
  rw [hpipe, hunsent, List.append_nil, List.append_nil] at hbytes
  cases ahead with
  | nil => rw [hattempted, List.append_nil]
  | cons m ms =>
    exact absurd ⟨ms.flatMap (frame 4), by rw [hbytes]; rfl⟩ (h.held_ne d.other m)

/-- **A connected pair is a pair of queues.**  For every room of the pipe, every limits, and every
interleaving of calls at the two ends, of reads and writes of any sizes, of dropped `recv`s and of
drops of the ends: in each direction the messages received are the first of those sent, each once
and unchanged; as long as the receiving end lives, nothing is missing once the pipe is empty and no
`send` is in progress; and the pipe never holds more than it has room for. -/
theorem pair_fifo {room maxA maxB : ℕ} {a b : FramedChannel} (ha : FramedChannel.new maxA = some a)
    (hb : FramedChannel.new maxB = some b) {as : List PairAction} {s : FramedPair}
    (hrun : run step (framedPair room a b) as = some s) (d : Side) :
    (s.ends d.other).received <+: (s.ends d).attempted ∧
      ((s.ends d.other).alive = true → s.pipes d = [] → (s.ends d).fut.bind Pending.msg? = none →
        (s.ends d.other).received = (s.ends d).attempted) ∧
      (s.pipes d).length ≤ s.room := by
  have h := run_inv ha hb hrun
  exact ⟨h.inOrder d, fun halive hpipe hnot =>
    h.drained halive hpipe (FramedEnd.unsent_of_not_send hnot), h.room d⟩

/-- Two messages cross on a pipe with room for three bytes, and a `recv` is dropped in a header. -/
theorem pair_fifo_crossing :
    ∃ a b s, FramedChannel.new 8 = some a ∧ FramedChannel.new 8 = some b ∧
      run step (framedPair 3 a b) [.send .a [7], .write .a 3, .recv .b, .read .b 2, .dropRecv .b,
        .recv .b, .read .b 1, .write .a 1, .read .b 1, .write .a 1, .read .b 1, .flush .a,
        .recv .a, .send .b [], .write .b 3, .read .a 3, .write .b 1, .read .a 1, .flush .b]
        = some s ∧
      (s.ends .b).received = [[7]] ∧ (s.ends Side.a.other).received = (s.ends .a).attempted := by
  obtain ⟨a, b, s, ha, hb, hrun, hpipe, halive, hfut, hrec⟩ : ∃ a b s,
      FramedChannel.new 8 = some a ∧ FramedChannel.new 8 = some b ∧
      run step (framedPair 3 a b) [.send .a [7], .write .a 3, .recv .b, .read .b 2, .dropRecv .b,
        .recv .b, .read .b 1, .write .a 1, .read .b 1, .write .a 1, .read .b 1, .flush .a,
        .recv .a, .send .b [], .write .b 3, .read .a 3, .write .b 1, .read .a 1, .flush .b]
        = some s ∧ s.pipes .a = [] ∧ (s.ends .b).alive = true ∧ (s.ends .a).fut = none ∧
      (s.ends .b).received = [[7]] :=
    ⟨_, _, _, rfl, rfl, Option.eq_some_of_isSome (by decide), by decide, by decide, by decide,
      by decide⟩
  exact ⟨a, b, s, ha, hb, hrun, hrec, (pair_fifo ha hb hrun .a).2.1 halive hpipe (by simp [hfut])⟩

end FramedPair

end FungiTransport
