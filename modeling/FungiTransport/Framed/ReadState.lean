import FungiTransport.Framed.Endpoint

/-!
# The read state of a framed channel

What the fields of a `FramedChannel` hold in every reachable state, poisoned ones included: the
bounds of its counters and of its payload buffer (`FramedChannel.Bounded`), and the bytes of the
stream behind the last frame boundary.  The stream may answer every read with anything; of what it
has reported before nothing is assumed (`Endpoint.stepAny`).
-/

namespace FungiTransport

open Lib FramedChannel Receiver

namespace FramedChannel

/-- The bounds of the read state.  The payload is empty until a header within the limit is complete,
and behind a complete header there is still something to be read. -/
structure Bounded (ch : FramedChannel) : Prop where
  header_length : ch.header.length = 4
  header_le : ch.headerFilled ≤ 4
  filled_le : ch.payloadFilled ≤ ch.payload.length
  sized : ch.payload.length = 0 ∨ ch.headerFilled = 4 ∧ ch.payload.length = ofBe ch.header ∧
    ofBe ch.header ≤ ch.maxMsgLen
  inside : ch.headerFilled = 4 → ch.payloadFilled < ofBe ch.header

lemma bounded_of_readState {ch : FramedChannel} (h : ReadState ch) : Bounded ch := by
  rcases h.header_le.lt_or_eq with hlt | hfull
  · obtain ⟨hnil, hzero⟩ := h.empty hlt
    exact ⟨h.header_length, h.header_le, by simp [hzero], .inl (by simp [hnil]),
      fun hfull => absurd hfull hlt.ne⟩
  · obtain ⟨hmax, hsize, hfill⟩ := h.sized hfull
    exact ⟨h.header_length, h.header_le, hfill.le, .inr ⟨hfull, hsize, hmax⟩,
      fun _ => hsize ▸ hfill⟩

lemma Bounded.poison {ch : FramedChannel} (h : Bounded ch) : Bounded { ch with poisoned := true } :=
  ⟨h.header_length, h.header_le, h.filled_le, h.sized, h.inside⟩

lemma Bounded.length_le {ch : FramedChannel} (h : Bounded ch) :
    ch.payload.length ≤ ch.maxMsgLen := by
  rcases h.sized with hnil | ⟨-, hsize, hmax⟩
  · exact hnil ▸ Nat.zero_le _
  · exact hsize ▸ hmax

/-- The bytes held are no whole frame, and have none at their front. -/
lemma Bounded.not_frame_prefix {ch : FramedChannel} (h : Bounded ch) (m : Bytes) :
    ¬ frame 4 m <+: held ch := by
  rcases h.header_le.lt_or_eq with hlt | hfull
  · -- the header is not complete, so there is no payload yet
    have hnil : ch.payload = [] := by
      rcases h.sized with hnil | ⟨hfull, -⟩
      · exact List.length_eq_zero_iff.mp hnil
      · exact absurd hfull hlt.ne
    intro hpre
    have hlen := hpre.length_le
    simp only [held, hnil, List.take_nil, List.append_nil, length_frame, List.length_take] at hlen
    omega
  · rw [held_of_header h.header_length hfull]
    refine Lib.not_frame_prefix h.header_length ?_ m
    rw [List.length_take]
    exact (Nat.min_le_left _ _).trans_lt (h.inside hfull)

/-! ## One lemma per stretch -/

/-- A stretch of `recv_inner` that begins when `bytes` were read keeps the bounds; the bytes join
those that are held, or complete a frame, whose message it returns. -/
def Accounts (ch : FramedChannel) (bytes : Bytes) : FramedChannel × RecvPoll → Prop
  | (ch', .ready (.ok m)) => ch'.maxMsgLen = ch.maxMsgLen ∧ Bounded ch' ∧ held ch' = [] ∧
      frame 4 m = held ch ++ bytes
  | (ch', _) => ch'.maxMsgLen = ch.maxMsgLen ∧ Bounded ch' ∧ held ch' = held ch ++ bytes

/-- The bytes may be put into the buffers before the stretch begins. -/
lemma Accounts.of_held {ch ch' : FramedChannel} {bytes : Bytes} {p : FramedChannel × RecvPoll}
    (h : Accounts ch' [] p) (hmax : ch'.maxMsgLen = ch.maxMsgLen)
    (hheld : held ch' = held ch ++ bytes) : Accounts ch bytes p := by
  obtain ⟨ch'', (e | m) | w⟩ := p <;>
    simpa only [Accounts, hmax, hheld, List.append_nil] using h

lemma recvPayload_accounts (ch : FramedChannel) (hlen : ch.header.length = 4)
    (hfull : ch.headerFilled = 4) (hmax : ofBe ch.header ≤ ch.maxMsgLen)
    (hsize : ch.payload.length = ofBe ch.header) (hfill : ch.payloadFilled ≤ ch.payload.length) :
    Accounts ch [] (ch.recvPayload (ofBe ch.header)) := by
  unfold recvPayload
  split
  case isTrue hlt =>
    exact ⟨rfl, ⟨hlen, hfull.le, hfill, .inr ⟨hfull, hsize, hmax⟩, fun _ => hlt⟩,
      (List.append_nil _).symm⟩
  case isFalse hge =>
    refine ⟨rfl, ⟨hlen, by simp, le_rfl, .inl rfl, fun h => absurd h (by simp)⟩, rfl, ?_⟩
    rw [frame_of_header hlen hsize, held_of_header hlen hfull, List.append_nil,
      List.take_of_length_le (by omega)]

lemma recvHeader_accounts (ch : FramedChannel) (hlen : ch.header.length = 4)
    (hle : ch.headerFilled ≤ 4) (hstate : (ch.payload = [] ∧ ch.payloadFilled = 0) ∨ ReadState ch) :
    Accounts ch [] ch.recvHeader := by
  unfold recvHeader
  split
  case isTrue hlt =>
    refine ⟨rfl, ?_, (List.append_nil _).symm⟩
    rcases hstate with ⟨hnil, hzero⟩ | hrs
    · exact ⟨hlen, hle, by simp [hzero], .inl (by simp [hnil]), fun h => absurd h hlt.ne⟩
    · exact bounded_of_readState hrs
  case isFalse hge =>
    have hfull : ch.headerFilled = 4 := by omega
    simp only
    split
    case isTrue hover =>
      -- the announced length is over the limit, so the payload was never sized
      refine ⟨rfl, ?_, (List.append_nil _).symm⟩
      rcases hstate with ⟨hnil, hzero⟩ | hrs
      · exact ⟨hlen, hle, by simp [hzero], .inl (by simp [hnil]), fun _ => by
          simp only [hzero]
          omega⟩
      · exact absurd (hrs.sized hfull).1 (Nat.not_le.mpr hover)
    case isFalse hmax =>
      rw [Nat.not_lt] at hmax
      split
      case isTrue hsize =>
        rcases hstate with ⟨hnil, hzero⟩ | hrs
        · have hsized := recvPayload_accounts
            { ch with payload := resize ch.payload (ofBe ch.header) } hlen hfull hmax
            (length_resize _ _) (by simp [hzero])
          exact hsized.of_held rfl (by simp [held, hzero])
        · exact absurd (hrs.sized hfull).2.1 hsize
      case isFalse hsize =>
        rw [not_not] at hsize
        refine recvPayload_accounts _ hlen hfull hmax hsize ?_
        rcases hstate with ⟨hnil, hzero⟩ | hrs
        · simp [hzero]
        · exact (hrs.sized hfull).2.2.le

/-- Starting a `recv`. -/
lemma recvInner_accounts {ch : FramedChannel} (h : Bounded ch)
    (hstate : ch.poisoned = false → ReadState ch) : Accounts ch [] ch.recvInner := by
  unfold recvInner
  split
  case isTrue hp => exact ⟨rfl, h, (List.append_nil _).symm⟩
  case isFalse hp =>
    have hrs := hstate (by simpa using hp)
    exact recvHeader_accounts _ hrs.header_length hrs.header_le (.inr hrs)

/-- Resuming a `recv` with bytes that its read took from the stream, or with none. -/
lemma recvResume_accounts {ch : FramedChannel} {w : RecvAwait} {bytes : Bytes} (hrs : ReadState ch)
    (hw : Awaits ch w) (hroom : bytes.length ≤ ch.recvBuffer w) :
    Accounts ch bytes (ch.recvResume w (.data bytes)) := by
  have hbounded := bounded_of_readState hrs
  cases bytes with
  | nil =>
    cases w with
    | header =>
      simp only [recvResume]
      split
      case isTrue h0 => exact ⟨rfl, hbounded, (List.append_nil _).symm⟩
      case isFalse h0 => exact ⟨rfl, hbounded.poison, (List.append_nil _).symm⟩
    | payload len => exact ⟨rfl, hbounded.poison, (List.append_nil _).symm⟩
  | cons b bs =>
    cases w with
    | header =>
      have hlt : ch.headerFilled < 4 := hw
      obtain ⟨hnil, hzero⟩ := hrs.empty hlt
      simp only [recvBuffer, hrs.header_length] at hroom
      have hfit : ch.headerFilled + (b :: bs).length ≤ ch.header.length := by
        rw [hrs.header_length]
        omega
      have hnext := recvHeader_accounts
        { ch with
          header := fill ch.header ch.headerFilled (b :: bs)
          headerFilled := ch.headerFilled + (b :: bs).length }
        (by rw [length_fill hfit, hrs.header_length]) (by rw [← hrs.header_length]; exact hfit)
        (.inl ⟨hnil, hzero⟩)
      refine hnext.of_held rfl ?_
      simp only [held, take_fill hfit, hzero, List.take_zero, List.append_nil]
    | payload len =>
      obtain ⟨hfull, rfl⟩ := hw
      obtain ⟨hmax, hsize, hlt⟩ := hrs.sized hfull
      simp only [recvBuffer] at hroom
      have hfit : ch.payloadFilled + (b :: bs).length ≤ ch.payload.length := by omega
      have hnext := recvPayload_accounts
        { ch with
          payload := fill ch.payload ch.payloadFilled (b :: bs)
          payloadFilled := ch.payloadFilled + (b :: bs).length }
        hrs.header_length hfull hmax (by rw [length_fill hfit, hsize])
        (by rw [length_fill hfit]; exact hfit)
      refine hnext.of_held rfl ?_
      simp only [held, take_fill hfit, List.append_assoc]

end FramedChannel

namespace Endpoint

/-- A step on a stream that may answer a read with anything, whatever it has reported before. -/
def stepAny (s : Endpoint) (a : EndpointAction) : Option Endpoint :=
  step { s with ended := false } a

/-- The messages that `recv` returned. -/
def received (s : Endpoint) : List Bytes := s.results.filterMap Except.toOption

/-- What the read state amounts to: the bytes read from the stream are whole frames, whose messages
were returned, and behind them the bytes held. -/
structure ReadInv (max : ℕ) (s : Endpoint) : Prop where
  inv : Inv s
  max : s.ch.maxMsgLen = max
  bounded : Bounded s.ch
  consumed : s.consumed = s.received.flatMap (frame 4) ++ held s.ch

lemma readInv_start {max : ℕ} {ch : FramedChannel} (hnew : FramedChannel.new max = some ch) :
    ReadInv max (start ch) := by
  obtain ⟨hstate, -, hmax, hheld⟩ := readState_new hnew
  exact ⟨inv_start hnew, hmax, bounded_of_readState hstate, by simp [start, received, hheld]⟩

/-- The bytes that a stretch of `recv_inner` was given are accounted for behind it. -/
lemma readInv_polled {max : ℕ} {s : Endpoint} {bytes : Bytes} {p : FramedChannel × RecvPoll}
    (hinv : Inv (s.polled p)) (hmax : s.ch.maxMsgLen = max)
    (hconsumed : s.consumed = s.received.flatMap (frame 4) ++ (held s.ch ++ bytes))
    (h : Accounts s.ch bytes p) : ReadInv max (s.polled p) := by
  obtain ⟨ch, (e | m) | w⟩ := p
  · obtain ⟨hmax', hbounded, hheld⟩ := h
    refine ⟨hinv, hmax'.trans hmax, hbounded, ?_⟩
    simpa [polled, received, hheld, List.filterMap_cons, Except.toOption] using hconsumed
  · obtain ⟨hmax', hbounded, hheld, hframe⟩ := h
    refine ⟨hinv, hmax'.trans hmax, hbounded, ?_⟩
    simpa [polled, received, hheld, hframe, Except.toOption] using hconsumed
  · obtain ⟨hmax', hbounded, hheld⟩ := h
    refine ⟨hinv, hmax'.trans hmax, hbounded, ?_⟩
    simpa [polled, received, hheld] using hconsumed

/-- **The step lemma** of the read state. -/
lemma step_readInv {max : ℕ} {s s' : Endpoint} {a : EndpointAction} (h : ReadInv max s)
    (hstep : s.stepAny a = some s') : ReadInv max s' := by
  have hinv : Inv { s with ended := false } := ⟨h.inv.state, h.inv.fut⟩
  have hinv' : Inv s' := step_inv hinv hstep
  cases effect_of_step hstep with
  | recv hfut =>
    refine readInv_polled hinv' h.max ?_ (recvInner_accounts h.bounded h.inv.state)
    rw [List.append_nil]
    exact h.consumed
  | @read w bytes hfut hended hroom =>
    obtain ⟨hp, hw⟩ := h.inv.fut w hfut
    refine readInv_polled hinv' h.max ?_ (recvResume_accounts (h.inv.state hp) hw hroom)
    rw [← List.append_assoc]
    exact congrArg (· ++ bytes) h.consumed
  | @readErr w e hfut hended =>
    refine ⟨hinv', h.max, h.bounded, h.consumed.trans ?_⟩
    simp [received, Except.toOption]
  | other fut => exact ⟨hinv', h.max, h.bounded, h.consumed⟩

/-- A read in progress was given room in its buffer. -/
lemma Inv.room {s : Endpoint} (h : Inv s) {w : RecvAwait} (hw : s.fut = some (.inl w)) :
    0 < s.ch.recvBuffer w := by
  obtain ⟨hp, hawaits⟩ := h.fut w hw
  exact one_le_recvBuffer (h.state hp) hawaits

lemma ended_polled (s : Endpoint) (p : FramedChannel × RecvPoll) :
    (s.polled p).ended = s.ended := by
  obtain ⟨ch, x | w⟩ := p <;> rfl

/-- A read that returns no bytes has met the end of the stream. -/
lemma ended_of_empty_read {s s' : Endpoint} (h : Inv s) (hstep : s.stepAny (.read []) = some s') :
    s'.ended = true := by
  simp only [stepAny, step] at hstep
  split at hstep
  · rename_i w hfut
    split at hstep
    · obtain rfl := Option.some.inj hstep
      have hroom : 0 < s.ch.recvBuffer w := h.room hfut
      rw [ended_polled]
      simp [took, hroom]
    · cases hstep
  · cases hstep

/-- A poisoned channel stays poisoned, and nothing is read for it. -/
lemma step_poisoned {s s' : Endpoint} {a : EndpointAction} (h : Inv s)
    (hp : s.ch.poisoned = true) (hstep : s.stepAny a = some s') :
    s'.ch.poisoned = true ∧ s'.consumed = s.consumed := by
  have hidle : ∀ w, s.fut ≠ some (.inl w) := fun w hw => by simpa [hp] using (h.fut w hw).1
  cases effect_of_step hstep with
  | recv hfut =>
    have hpoll : s.ch.recvInner = (s.ch, .ready (.error .closed)) := if_pos hp
    rw [hpoll]
    exact ⟨hp, rfl⟩
  | read hfut hended hroom => exact absurd hfut (hidle _)
  | readErr hfut hended => exact absurd hfut (hidle _)
  | other fut => exact ⟨hp, rfl⟩

/-! ## The theorem -/

/-- **The read state in every reachable state**, for every stream, every chunking, every read error
and cancellation, and every interleaving with `send`s: the counters stay within their buffers, the
payload buffer is empty or has the length that a complete header has announced, the bytes held are
those read behind the last frame boundary, every read is given room, and nothing is read for a
poisoned channel. -/
theorem read_state_bounded {max : ℕ} {ch : FramedChannel}
    (hnew : FramedChannel.new max = some ch) {as : List EndpointAction} {s : Endpoint}
    (hrun : run stepAny (start ch) as = some s) :
    (s.ch.header.length = 4 ∧ s.ch.headerFilled ≤ 4 ∧ s.ch.payloadFilled ≤ s.ch.payload.length) ∧
    (s.ch.payload.length = 0 ∨ s.ch.headerFilled = 4 ∧ s.ch.payload.length = ofBe s.ch.header ∧
      ofBe s.ch.header ≤ max) ∧
    (s.consumed = s.received.flatMap (frame 4) ++ (s.ch.header.take s.ch.headerFilled ++
      s.ch.payload.take s.ch.payloadFilled) ∧
      ∀ m, ¬ frame 4 m <+: s.ch.header.take s.ch.headerFilled ++
        s.ch.payload.take s.ch.payloadFilled) ∧
    (∀ w, s.fut = some (.inl w) → 0 < s.ch.recvBuffer w) ∧
    (∀ s', s.stepAny (.read []) = some s' → s'.ended = true) ∧
    s.ch.payload.length ≤ max ∧
    (s.ch.poisoned = true → (∀ w, s.fut ≠ some (.inl w)) ∧
      ∀ as' s', run stepAny s as' = some s' → s'.consumed = s.consumed) := by
  have h : ReadInv max s := run_invariant (fun _ _ _ => step_readInv) (readInv_start hnew) hrun
  refine ⟨⟨h.bounded.header_length, h.bounded.header_le, h.bounded.filled_le⟩,
    h.max ▸ h.bounded.sized, ⟨h.consumed, h.bounded.not_frame_prefix⟩, fun w hw => h.inv.room hw,
    fun s' => ended_of_empty_read h.inv, h.max ▸ h.bounded.length_le, fun hp => ⟨?_, ?_⟩⟩
  · intro w hw
    simpa [hp] using (h.inv.fut w hw).1
  · intro as' s' hrun'
    have hlast : ReadInv max s' ∧ s'.ch.poisoned = true ∧ s'.consumed = s.consumed := by
      refine run_invariant (I := fun u => ReadInv max u ∧ u.ch.poisoned = true ∧
        u.consumed = s.consumed) ?_ ⟨h, hp, rfl⟩ hrun'
      rintro u a u' ⟨hu, hpu, hsame⟩ hstep
      obtain ⟨hpu', hsame'⟩ := step_poisoned hu.inv hpu hstep
      exact ⟨step_readInv hu hstep, hpu', hsame'.trans hsame⟩
    exact hlast.2.2

/-- A frame in pieces, with a dropped `recv`, a failing read and a `send` in between, and then a
header over the limit. -/
theorem read_state_bounded_poisoned :
    ∃ ch s, FramedChannel.new 4 = some ch ∧
      run stepAny (start ch) [.recv, .read [0, 0], .drop, .recv, .read [0, 2], .read [65],
        .readErr ⟨.other "TimedOut", "timed out"⟩, .send [1], .write 4, .write 1, .flush, .recv,
        .read [66], .recv, .read [0, 0, 0, 9]] = some s ∧
      s.received = [[65, 66]] ∧ s.ch.payload.length ≤ 4 ∧
      (∀ m, ¬ frame 4 m <+: s.ch.header.take s.ch.headerFilled ++
        s.ch.payload.take s.ch.payloadFilled) ∧
      ∀ as' s', run stepAny s as' = some s' → s'.consumed = s.consumed := by
  obtain ⟨ch, s, hnew, hrun, hreceived, hp⟩ : ∃ ch s, FramedChannel.new 4 = some ch ∧
      run stepAny (start ch) [.recv, .read [0, 0], .drop, .recv, .read [0, 2], .read [65],
        .readErr ⟨.other "TimedOut", "timed out"⟩, .send [1], .write 4, .write 1, .flush, .recv,
        .read [66], .recv, .read [0, 0, 0, 9]] = some s ∧
      s.received = [[65, 66]] ∧ s.ch.poisoned = true :=
    ⟨_, _, rfl, Option.eq_some_of_isSome (by decide), by decide, by decide⟩
  obtain ⟨-, -, ⟨-, hframe⟩, -, -, hlength, hpoisoned⟩ := read_state_bounded hnew hrun
  exact ⟨ch, s, hnew, hrun, hreceived, hlength, hframe, (hpoisoned hp).2⟩

end Endpoint

end FungiTransport
