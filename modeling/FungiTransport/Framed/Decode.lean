import FungiTransport.Framed.Receiver

/-!
# The incremental decoder simulates the one-shot parser

Each stretch of `recv_inner` between two awaits keeps the results ahead of the channel, or
returns the first of them (`Yields`).  One lemma per stretch gives the step lemma of the
receiver, and the run lemma `Receiver.results_append_ahead`: the results returned, followed
by the results ahead, are always the ones of the reference parser on the whole stream.
-/

namespace FungiTransport

open Lib FramedChannel

namespace Receiver

open Stream'

/-- A stretch of `recv_inner`, started with the results `A` ahead, either suspends with `A`
still ahead or returns the first of `A`. -/
def Yields (A : Stream' (Except RecvError Bytes)) (input : Bytes) (max : ℕ) :
    FramedChannel × RecvPoll → Prop
  | (ch, .pending w) => ch.maxMsgLen = max ∧ ch.poisoned = false ∧ ReadState ch ∧ Awaits ch w ∧
      A = ahead ch input
  | (ch, .ready x) => ch.maxMsgLen = max ∧ (ch.poisoned = false → ReadState ch) ∧
      A = cons x (ahead ch input)

lemma ahead_of_poisoned {ch : FramedChannel} (h : ch.poisoned = true) (input : Bytes) :
    ahead ch input = const (.error .closed) := by
  simp [ahead, h]

lemma ahead_of_not_poisoned {ch : FramedChannel} (h : ch.poisoned = false) (input : Bytes) :
    ahead ch input = reference ch.maxMsgLen (held ch ++ input) := by
  simp [ahead, h]

/-- Moving bytes from the stream to the bytes held keeps what lies ahead. -/
lemma ahead_congr {ch ch' : FramedChannel} {input input' : Bytes} (hp : ch.poisoned = false)
    (hp' : ch'.poisoned = false) (hmax : ch'.maxMsgLen = ch.maxMsgLen)
    (hheld : held ch' ++ input' = held ch ++ input) : ahead ch' input' = ahead ch input := by
  rw [ahead_of_not_poisoned hp, ahead_of_not_poisoned hp', hmax, hheld]

/-! ## The buffers -/

lemma length_fill {buf bytes : Bytes} {pos : ℕ} (h : pos + bytes.length ≤ buf.length) :
    (fill buf pos bytes).length = buf.length := by
  simp only [fill, List.length_append, List.length_take, List.length_drop]
  omega

lemma take_fill {buf bytes : Bytes} {pos : ℕ} (h : pos + bytes.length ≤ buf.length) :
    (fill buf pos bytes).take (pos + bytes.length) = buf.take pos ++ bytes := by
  have hlen : (buf.take pos ++ bytes).length = pos + bytes.length := by
    rw [List.length_append, List.length_take]
    omega
  rw [fill, ← hlen, List.take_left]

lemma length_resize (buf : Bytes) (len : ℕ) : (resize buf len).length = len := by
  simp only [resize, List.length_append, List.length_take, List.length_replicate]
  omega

/-- The bytes held once the header is complete. -/
lemma held_of_header {ch : FramedChannel} (hlen : ch.header.length = 4)
    (hfull : ch.headerFilled = 4) : held ch = ch.header ++ ch.payload.take ch.payloadFilled := by
  rw [held, List.take_of_length_le (by omega)]

/-! ## One lemma per stretch -/

lemma recvPayload_yields (ch : FramedChannel) (input : Bytes) (hp : ch.poisoned = false)
    (hlen : ch.header.length = 4) (hfull : ch.headerFilled = 4)
    (hmax : ofBe ch.header ≤ ch.maxMsgLen) (hsize : ch.payload.length = ofBe ch.header)
    (hfill : ch.payloadFilled ≤ ch.payload.length) :
    Yields (ahead ch input) input ch.maxMsgLen (ch.recvPayload (ofBe ch.header)) := by
  unfold recvPayload
  split
  case isTrue hlt =>
    refine ⟨rfl, hp, ⟨hlen, hfull.le, fun h => absurd h (by omega), fun _ => ?_⟩, ⟨hfull, rfl⟩, rfl⟩
    exact ⟨hmax, hsize, by omega⟩
  case isFalse hge =>
    -- the payload is complete, and the next frame begins at the rest of the stream
    refine ⟨rfl, fun _ => ⟨hlen, by simp, fun _ => ⟨rfl, rfl⟩, fun h => absurd h (by simp)⟩, ?_⟩
    have hall : ch.payload.take ch.payloadFilled = ch.payload :=
      List.take_of_length_le (by omega)
    have hnext : ahead { ch with headerFilled := 0, payloadFilled := 0, payload := [] } input =
        reference ch.maxMsgLen input := by
      simp [ahead, hp, held]
    rw [hnext, ahead_of_not_poisoned hp, held_of_header hlen hfull, hall, List.append_assoc]
    simp only [reference, decode_msg hlen hmax hsize, List.map_cons, itemResult,
      cons_append_stream]

lemma recvHeader_yields (ch : FramedChannel) (input : Bytes) (hp : ch.poisoned = false)
    (hlen : ch.header.length = 4) (hle : ch.headerFilled ≤ 4)
    (hstate : (ch.payload = [] ∧ ch.payloadFilled = 0) ∨ ReadState ch) :
    Yields (ahead ch input) input ch.maxMsgLen ch.recvHeader := by
  unfold recvHeader
  split
  case isTrue hlt =>
    refine ⟨rfl, hp, ?_, hlt, rfl⟩
    rcases hstate with hempty | hrs
    · exact ⟨hlen, hle, fun _ => hempty, fun h => absurd h (by omega)⟩
    · exact hrs
  case isFalse hge =>
    have hfull : ch.headerFilled = 4 := by omega
    simp only
    split
    case isTrue hover =>
      -- the announced length is over the limit: this frame is the last thing decoded
      refine ⟨rfl, fun h => absurd h (by simp), ?_⟩
      rw [ahead_of_not_poisoned hp, ahead_of_poisoned rfl, held_of_header hlen hfull,
        List.append_assoc]
      simp only [reference, decode_tooLong hlen hover, List.map_cons, List.map_nil, itemResult,
        cons_append_stream, nil_append_stream]
    case isFalse hmax =>
      rw [Nat.not_lt] at hmax
      split
      case isTrue hsize =>
        -- the first entry for this frame: the payload buffer is empty, and is sized now
        rcases hstate with ⟨hnil, hzero⟩ | hrs
        · have hsized := recvPayload_yields
            { ch with payload := resize ch.payload (ofBe ch.header) } input hp hlen hfull hmax
            (length_resize _ _) (by simp [hzero])
          have hsame : ahead { ch with payload := resize ch.payload (ofBe ch.header) } input =
              ahead ch input :=
            ahead_congr hp hp rfl (by simp [held, hzero])
          rwa [hsame] at hsized
        · exact absurd (hrs.sized hfull).2.1 hsize
      case isFalse hsize =>
        rw [not_not] at hsize
        refine recvPayload_yields ch input hp hlen hfull hmax hsize ?_
        rcases hstate with ⟨hnil, hzero⟩ | hrs
        · simp [hzero]
        · exact (hrs.sized hfull).2.2.le

/-- Starting a `recv`. -/
lemma recvInner_yields {ch : FramedChannel} (input : Bytes)
    (hstate : ch.poisoned = false → ReadState ch) :
    Yields (ahead ch input) input ch.maxMsgLen ch.recvInner := by
  unfold recvInner
  split
  case isTrue hp =>
    refine ⟨rfl, fun h => absurd (hp.symm.trans h) (by simp), ?_⟩
    rw [ahead_of_poisoned hp]
    exact const_eq _
  case isFalse hp =>
    have hp' : ch.poisoned = false := by simpa using hp
    have hrs := hstate hp'
    exact recvHeader_yields ch input hp' hrs.header_length hrs.header_le (.inr hrs)

/-- Resuming a `recv` with bytes that its read took from the stream. -/
lemma recvResume_data_yields {ch : FramedChannel} {w : RecvAwait} {bytes : Bytes}
    (rest : Bytes) (hp : ch.poisoned = false) (hrs : ReadState ch) (hw : Awaits ch w) (hne : bytes ≠ [])
    (hroom : bytes.length ≤ ch.recvBuffer w) :
    Yields (ahead ch (bytes ++ rest)) rest ch.maxMsgLen (ch.recvResume w (.data bytes)) := by
  obtain ⟨b, bs, rfl⟩ := List.exists_cons_of_ne_nil hne
  cases w with
  | header =>
    have hlt : ch.headerFilled < 4 := hw
    obtain ⟨hnil, hzero⟩ := hrs.empty hlt
    simp only [recvBuffer, hrs.header_length] at hroom
    have hfit : ch.headerFilled + (b :: bs).length ≤ ch.header.length := by
      rw [hrs.header_length]
      omega
    have hnext := recvHeader_yields
      { ch with
        header := fill ch.header ch.headerFilled (b :: bs)
        headerFilled := ch.headerFilled + (b :: bs).length } rest hp
      (by rw [length_fill hfit, hrs.header_length]) (by rw [← hrs.header_length]; exact hfit)
      (.inl ⟨hnil, hzero⟩)
    have hsame : ahead { ch with
          header := fill ch.header ch.headerFilled (b :: bs)
          headerFilled := ch.headerFilled + (b :: bs).length } rest =
        ahead ch (b :: bs ++ rest) := by
      refine ahead_congr hp hp rfl ?_
      simp only [held, take_fill hfit, hzero, List.take_zero, List.append_nil, List.append_assoc]
    rwa [hsame] at hnext
  | payload len =>
    obtain ⟨hfull, rfl⟩ := hw
    obtain ⟨hmax, hsize, hlt⟩ := hrs.sized hfull
    simp only [recvBuffer] at hroom
    have hfit : ch.payloadFilled + (b :: bs).length ≤ ch.payload.length := by omega
    have hnext := recvPayload_yields
      { ch with
        payload := fill ch.payload ch.payloadFilled (b :: bs)
        payloadFilled := ch.payloadFilled + (b :: bs).length } rest hp
      hrs.header_length hfull hmax (by rw [length_fill hfit, hsize])
      (by rw [length_fill hfit]; exact hfit)
    have hsame : ahead { ch with
          payload := fill ch.payload ch.payloadFilled (b :: bs)
          payloadFilled := ch.payloadFilled + (b :: bs).length } rest =
        ahead ch (b :: bs ++ rest) := by
      refine ahead_congr hp hp rfl ?_
      simp only [held, take_fill hfit, List.append_assoc]
    rwa [hsame] at hnext

/-- Resuming a `recv` at the end of the stream. -/
lemma recvResume_eof_yields {ch : FramedChannel} {w : RecvAwait} (hp : ch.poisoned = false)
    (hrs : ReadState ch) (hw : Awaits ch w) :
    Yields (ahead ch []) [] ch.maxMsgLen (ch.recvResume w (.data [])) := by
  cases w with
  | header =>
    have hlt : ch.headerFilled < 4 := hw
    obtain ⟨hnil, hzero⟩ := hrs.empty hlt
    simp only [recvResume]
    split
    case isTrue h0 =>
      refine ⟨rfl, fun _ => hrs, ?_⟩
      have hheld : held ch = [] := by simp [held, h0, hzero]
      rw [ahead_of_not_poisoned hp, hheld, List.append_nil, reference_nil]
      exact const_eq _
    case isFalse h0 =>
      refine ⟨rfl, fun h => absurd h (by simp), ?_⟩
      have hlength : (held ch).length = ch.headerFilled := by
        simp only [held, hzero, List.take_zero, List.append_nil, List.length_take,
          hrs.header_length]
        omega
      have hne : held ch ≠ [] := fun h => h0 (by rw [← hlength, h, List.length_nil])
      rw [ahead_of_not_poisoned hp, ahead_of_poisoned rfl, List.append_nil]
      simp only [reference, decode_short _ hne (hlength ▸ hlt), List.map_cons, List.map_nil,
        itemResult, cons_append_stream, nil_append_stream]
  | payload len =>
    obtain ⟨hfull, rfl⟩ := hw
    obtain ⟨hmax, hsize, hlt⟩ := hrs.sized hfull
    refine ⟨rfl, fun h => absurd h (by simp), ?_⟩
    have hrest : (ch.payload.take ch.payloadFilled).length < ofBe ch.header := by
      rw [List.length_take]
      omega
    rw [ahead_of_not_poisoned hp, ahead_of_poisoned rfl, List.append_nil,
      held_of_header hrs.header_length hfull]
    simp only [reference, decode_truncated hrs.header_length hmax hrest, List.map_cons,
      List.map_nil, itemResult, cons_append_stream, nil_append_stream]

/-! ## Steps and runs of a receiver -/

/-- What the results returned so far and the results ahead amount to. -/
def outlook (r : Receiver) : Stream' (Except RecvError Bytes) := r.results ++ₛ ahead r.ch r.input

/-- A stretch of `recv_inner` that moved on as `Yields` says keeps the invariant and the
outlook. -/
lemma polled_of_yields {r : Receiver} {input : Bytes} {p : FramedChannel × RecvPoll}
    {A : Stream' (Except RecvError Bytes)} (h : Yields A input r.ch.maxMsgLen p) :
    Inv (r.polled input p) ∧ (r.polled input p).ch.maxMsgLen = r.ch.maxMsgLen ∧
      outlook (r.polled input p) = r.results ++ₛ A := by
  obtain ⟨ch, x | w⟩ := p
  · obtain ⟨hmax, hrs, hA⟩ := h
    refine ⟨⟨hrs, fun w hw => absurd hw (by simp [polled])⟩, hmax, ?_⟩
    have hres : (r.polled input (ch, .ready x)).results = r.results ++ [x] := by
      simp [results, polled, RecvEvent.result?]
    rw [outlook, hres, append_append_stream, hA]
    rfl
  · obtain ⟨hmax, hp, hrs, hw, hA⟩ := h
    refine ⟨⟨fun _ => hrs, fun w' hw' => ?_⟩, hmax, ?_⟩
    · obtain rfl := Option.some.inj hw'
      exact ⟨hp, hw⟩
    · rw [hA]
      rfl

/-- An event that is no result keeps the results. -/
lemma results_concat {r : Receiver} {ch : FramedChannel} {e : RecvEvent}
    (he : e.result? = none) :
    outlook { r with ch := ch, fut := none, events := r.events ++ [e] } =
      r.results ++ₛ ahead ch r.input := by
  simp [outlook, results, he]

/-- **The step lemma**: a step keeps the invariant, the limit and the outlook. -/
lemma step_outlook {r r' : Receiver} {a : RecvAction} (h : Inv r) (hstep : r.step a = some r') :
    Inv r' ∧ r'.ch.maxMsgLen = r.ch.maxMsgLen ∧ outlook r' = outlook r := by
  cases a with
  | recv =>
    simp only [step] at hstep
    split at hstep
    · exact absurd hstep (by simp)
    · obtain rfl := Option.some.inj hstep
      exact polled_of_yields (recvInner_yields r.input h.state)
  | read n =>
    simp only [step] at hstep
    split at hstep
    · exact absurd hstep (by simp)
    · rename_i w hw
      obtain ⟨hp, hwait⟩ := h.fut w hw
      split at hstep
      · rename_i hnil
        split at hstep
        · obtain rfl := Option.some.inj hstep
          have hy := polled_of_yields (r := r) (recvResume_eof_yields hp (h.state hp) hwait)
          have hahead : outlook r = r.results ++ₛ ahead r.ch [] := by rw [outlook, hnil]
          rwa [← hahead] at hy
        · exact absurd hstep (by simp)
      · split at hstep
        · rename_i hn
          obtain rfl := Option.some.inj hstep
          have hlen : (r.input.take n).length = n := by
            rw [List.length_take]
            omega
          have hne : r.input.take n ≠ [] := List.ne_nil_of_length_pos (by omega)
          have hy := recvResume_data_yields (r.input.drop n) hp (h.state hp) hwait hne
            (by rw [hlen]; exact hn.2.2)
          rw [List.take_append_drop] at hy
          exact polled_of_yields hy
        · exact absurd hstep (by simp)
  | readErr e =>
    simp only [step] at hstep
    split at hstep
    · exact absurd hstep (by simp)
    · rename_i w hw
      obtain rfl := Option.some.inj hstep
      have hch : (r.ch.recvResume w (.err e)).1 = r.ch := by cases w <;> rfl
      refine ⟨⟨?_, fun w' hw' => absurd hw' (by simp)⟩, by rw [hch], ?_⟩
      · rw [hch]
        exact h.state
      · rw [results_concat rfl, hch]
        rfl
  | drop =>
    simp only [step] at hstep
    split at hstep
    · exact absurd hstep (by simp)
    · obtain rfl := Option.some.inj hstep
      exact ⟨⟨h.state, fun w' hw' => absurd hw' (by simp)⟩, rfl, results_concat rfl⟩

/-- **The run lemma**: after every run, the results returned followed by the ones ahead are
the results of the reference parser on all the bytes of the stream. -/
lemma run_outlook {max : ℕ} {ch : FramedChannel} (hnew : FramedChannel.new max = some ch)
    {input : Bytes} {as : List RecvAction} {r : Receiver}
    (hrun : run step (start ch input) as = some r) :
    Inv r ∧ outlook r = reference max input := by
  obtain ⟨hrs, hp, hmax, hheld⟩ := readState_new hnew
  have key : Inv r ∧ r.ch.maxMsgLen = max ∧ outlook r = reference max input := by
    refine run_invariant
      (I := fun r => Inv r ∧ r.ch.maxMsgLen = max ∧ outlook r = reference max input) ?_ ?_ hrun
    · rintro s a s' ⟨hi, hm, ho⟩ hstep
      obtain ⟨hi', hm', ho'⟩ := step_outlook hi hstep
      exact ⟨hi', hm'.trans hm, ho'.trans ho⟩
    · refine ⟨⟨fun _ => hrs, fun w hw => absurd hw (by simp [start])⟩, hmax, ?_⟩
      simp [outlook, results, start, ahead, hp, hheld, hmax]
  exact ⟨key.1, key.2.2⟩

/-! ## A pending `recv` resolves -/

/-- A stretch of `recv_inner` that resolves adds exactly one result. -/
lemma length_results_polled {r : Receiver} {input : Bytes} {p : FramedChannel × RecvPoll}
    (h : (r.polled input p).fut = none) :
    (r.polled input p).results.length = r.results.length + 1 := by
  obtain ⟨ch, x | w⟩ := p
  · simp [results, polled, RecvEvent.result?]
  · exact absurd h (by simp [polled])

/-- A `recv` that is suspended can always be given a read, and every read resolves it with
one more result or leaves less of the stream. -/
def Resolves (r : Receiver) : Prop :=
  ∀ w, r.fut = some w →
    (∃ n, (r.step (.read n)).isSome) ∧
      ∀ n r', r.step (.read n) = some r' →
        r'.input.length < r.input.length ∨
          (r'.fut = none ∧ r'.results.length = r.results.length + 1)

lemma one_le_recvBuffer {ch : FramedChannel} {w : RecvAwait} (hrs : ReadState ch)
    (hw : Awaits ch w) : 1 ≤ ch.recvBuffer w := by
  cases w with
  | header =>
    have hlt : ch.headerFilled < 4 := hw
    simp only [recvBuffer, hrs.header_length]
    omega
  | payload len =>
    have hsized := hrs.sized hw.1
    simp only [recvBuffer]
    omega

lemma resolves_of_inv {r : Receiver} (h : Inv r) : Resolves r := by
  intro w hw
  obtain ⟨hp, hwait⟩ := h.fut w hw
  have hbuf := one_le_recvBuffer (h.state hp) hwait
  by_cases hnil : r.input = []
  · refine ⟨⟨0, by simp [step, hw, hnil]⟩, fun n r' hr' => .inr ?_⟩
    have hn : n = 0 := by
      by_contra hne
      simp [step, hw, hnil, hne] at hr'
    simp only [step, hw, hnil, hn, if_true, Option.some.injEq] at hr'
    -- at the end of the stream both loops return at once
    have hfut : (r.polled [] (r.ch.recvResume w (.data []))).fut = none := by
      cases w with
      | header =>
        simp only [recvResume]
        split <;> rfl
      | payload len => rfl
    subst hr'
    exact ⟨hfut, length_results_polled hfut⟩
  · have hlen : 1 ≤ r.input.length := List.length_pos_of_ne_nil hnil
    refine ⟨⟨1, by simp [step, hw, hnil, hlen, hbuf]⟩, fun n r' hr' => .inl ?_⟩
    simp only [step, hw, hnil, if_false] at hr'
    split at hr'
    · rename_i hn
      obtain rfl := Option.some.inj hr'
      have hinput : (r.polled (r.input.drop n)
          (r.ch.recvResume w (.data (r.input.take n)))).input = r.input.drop n := by
        rcases r.ch.recvResume w (.data (r.input.take n)) with ⟨ch, x | w'⟩ <;> rfl
      rw [hinput, List.length_drop]
      omega
    · exact absurd hr' (by simp)

/-- The results returned are the first results of the reference parser. -/
lemma results_eq_take {r : Receiver} {A : Stream' (Except RecvError Bytes)}
    (h : outlook r = A) : r.results = A.take r.results.length := by
  rw [← h, outlook, take_append_of_le_length _ _ _ le_rfl, List.take_length]

/-- **Decoding does not depend on the schedule.**  On every byte string that is followed by
the end of the stream, whatever the chunks, the cancelled calls and the reads that fail, the
remaining results of `recv` are the first results of the reference parser on that string, and
a `recv` that is kept being read resolves. -/
theorem recv_refines_reference {max : ℕ} {ch : FramedChannel}
    (hnew : FramedChannel.new max = some ch) (input : Bytes) (as : List RecvAction)
    {r : Receiver} (hrun : run step (start ch input) as = some r) :
    r.results = (reference max input).take r.results.length ∧ Resolves r := by
  obtain ⟨hinv, houtlook⟩ := run_outlook hnew hrun
  exact ⟨results_eq_take houtlook, resolves_of_inv hinv⟩

/-- The statement on a one-byte message that arrives in two reads, with a cancelled call and
a failed read in between. -/
theorem recv_refines_reference_split :
    ∃ ch r, FramedChannel.new 16 = some ch ∧
      run step (start ch [0, 0, 0, 1, 65])
        [.recv, .read 3, .drop, .recv, .readErr ⟨.other "TimedOut", "timed out"⟩, .recv, .read 1,
          .read 1] = some r ∧
      r.results = (reference 16 [0, 0, 0, 1, 65]).take r.results.length ∧ Resolves r := by
  refine ⟨_, _, rfl, Option.eq_some_of_isSome (by decide), ?_⟩
  exact recv_refines_reference rfl _ _ (Option.eq_some_of_isSome (by decide))

end Receiver

end FungiTransport
