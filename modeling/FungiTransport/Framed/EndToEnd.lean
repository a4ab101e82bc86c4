import FungiTransport.Framed.Sender

/-!
# From a sending to a receiving framed channel

A stream is written by one framed channel and read by another.  When all sends complete the
reader gets the messages back up to its own limit (`framed_roundtrip`).  When sends fail or
are dropped half way, the reader gets only messages that were sent as long as nothing is
written behind a half-written frame (`received_was_sent`); behind one it takes the bytes of
the next frame for the rest of the first (`torn_frame_is_completed`).
-/

namespace FungiTransport

open Lib FramedChannel

/-! ## All sends complete -/

/-- What a receiver with limit `max` gives for the messages `ms`: those in front of the first
one over the limit, one error in its place, and `Closed` for ever. -/
def deliveries (max : ℕ) (ms : List Bytes) : Stream' (Except RecvError Bytes) :=
  ((ms.takeWhile fun m => m.length ≤ max).map Except.ok ++
    ((ms.dropWhile fun m => m.length ≤ max).head?.map
      fun m => .error (.transport (announced m.length max))).toList) ++ₛ
    Stream'.const (.error .closed)

lemma reference_frames {max : ℕ} {ms : List Bytes} (hms : ∀ m ∈ ms, m.length < 256 ^ 4) :
    reference max (ms.flatMap (frame 4)) = deliveries max ms := by
  have htail : ∀ o : Option Bytes,
      (o.map fun m => Item.tooLong m.length).toList.map (itemResult max) =
        (o.map fun m => .error (.transport (announced m.length max))).toList := by
    rintro (_ | m) <;> rfl
  have hmsg : itemResult max ∘ Item.msg = Except.ok := rfl
  rw [reference, decode_frames hms, deliveries, List.map_append, List.map_map, htail, hmsg]

namespace Sender

lemma frame_ne_nil (msg : Bytes) : frame 4 msg ≠ [] :=
  List.ne_nil_of_length_pos (by rw [length_frame]; omega)

/-- A call whose whole frame is on the stream had a message that fits the length prefix. -/
lemma fits_of_whole {c : SendCall} (h : CallOk c) (hw : c.Whole) : c.msg.length < 256 ^ 4 :=
  h.fits (by rw [hw]; exact frame_ne_nil c.msg)

/-- Calls that all completed wrote the frames of their messages. -/
lemma wire_of_completed {s : Sender} (h : Inv s)
    (hdone : ∀ c ∈ s.calls, c.state = .inr .completed) :
    s.wire = (s.calls.map SendCall.msg).flatMap (frame 4) := by
  rw [h.wire, List.flatMap_map]
  exact List.flatMap_congr fun c hc => (h.call c hc).completed (hdone c hc)

/-- The calls of `s` are one completed `send` for each of the messages `ms`. -/
def Completed (s : Sender) (ms : List Bytes) : Prop :=
  s.calls.map SendCall.msg = ms ∧ ∀ c ∈ s.calls, c.state = .inr .completed

/-- On a stream that takes every write, a `send` within the limit completes. -/
lemma exists_send {s : Sender} (hf : s.fut = none) {m : Bytes} (hm : m.length ≤ s.ch.maxMsgLen) :
    ∃ as s', run step s as = some s' ∧ s'.fut = none ∧ s'.ch = s.ch ∧
      ∃ written, s'.ended = s.ended ++ [⟨m, written, .inr .completed⟩] := by
  have hsend : s.ch.sendInner m = .pending (.writePrefix (toBe 4 m.length) m) :=
    if_neg (Nat.not_lt.mpr hm)
  by_cases hnil : m = []
  · subst hnil
    have hrun : run step s [.send [], .write 4, .flush] =
        some { s with
          wire := s.wire ++ toBe 4 0
          fut := none
          ended := s.ended ++ [⟨[], toBe 4 0, .inr .completed⟩] } := by
      rw [List.length_nil] at hsend
      simp [run, step, hf, hsend, put, pollState, sendBuffer, sendResume, sendMsg]
    exact ⟨_, _, hrun, rfl, rfl, _, rfl⟩
  · have hpos : 1 ≤ m.length := List.length_pos_of_ne_nil hnil
    have hrun : run step s [.send m, .write 4, .write m.length, .flush] =
        some { s with
          wire := s.wire ++ toBe 4 m.length ++ m
          fut := none
          ended := s.ended ++ [⟨m, toBe 4 m.length ++ m, .inr .completed⟩] } := by
      simp [run, step, hf, hsend, put, pollState, sendBuffer, sendResume, sendMsg, hnil, hpos]
    exact ⟨_, _, hrun, rfl, rfl, _, rfl⟩

/-- Messages within the limit can all be sent. -/
lemma exists_completed (ch : FramedChannel) {ms : List Bytes}
    (hms : ∀ m ∈ ms, m.length ≤ ch.maxMsgLen) :
    ∃ as s, run step (start ch) as = some s ∧ s.Completed ms := by
  have key : ∃ as s, run step (start ch) as = some s ∧ s.fut = none ∧ s.ch = ch ∧
      s.Completed ms := by
    induction ms using List.reverseRecOn with
    | nil => exact ⟨[], _, rfl, rfl, rfl, rfl, by simp [start, calls]⟩
    | append_singleton ms m ih =>
      obtain ⟨as, s, hrun, hf, rfl, hmsgs, hdone⟩ := ih fun m' h' => hms m' (by simp [h'])
      obtain ⟨as', s', hrun', hf', hch', written, hended⟩ :=
        exists_send hf (hms m (by simp))
      rw [calls_of_fut_none hf] at hmsgs hdone
      refine ⟨as ++ as', s', run_append.mpr ⟨s, hrun, hrun'⟩, hf', hch', ?_, ?_⟩
      · rw [calls_of_fut_none hf', hended, List.map_append, hmsgs]
        rfl
      · intro c hc
        rw [calls_of_fut_none hf', hended, List.mem_append, List.mem_singleton] at hc
        rcases hc with hc | rfl
        · exact hdone c hc
        · rfl
  obtain ⟨as, s, hrun, -, -, hms⟩ := key
  exact ⟨as, s, hrun, hms⟩

end Sender

namespace Receiver

/-- Without failing reads every event is a result or a cancelled call. -/
lemma events_of_no_readErr {ch : FramedChannel} {input : Bytes} {as : List RecvAction}
    (hreads : ∀ e, .readErr e ∉ as) {r : Receiver}
    (hrun : run step (start ch input) as = some r) (e : RecvError) : .ioError e ∉ r.events := by
  have heach : EachStep step (fun _ a => ∀ e, a ≠ .readErr e) (start ch input) as :=
    eachStep_iff.mpr fun pre a post u hcut _ e ha =>
      hreads e (by rw [hcut, ha]; simp)
  refine run_induction (I := fun r => .ioError e ∉ r.events) ?_ (by simp [start]) heach hrun
  have hpolled : ∀ (s : Receiver) (bs : Bytes) (p : FramedChannel × RecvPoll),
      .ioError e ∉ s.events → .ioError e ∉ (s.polled bs p).events := by
    rintro s bs ⟨c, x | w⟩ hs <;> simpa [polled] using hs
  intro s a s' hs ha hstep
  cases a with
  | recv =>
    simp only [step] at hstep
    split at hstep
    · exact absurd hstep (by simp)
    · exact Option.some.inj hstep ▸ hpolled s _ _ hs
  | read n =>
    simp only [step] at hstep
    split at hstep
    · exact absurd hstep (by simp)
    · split at hstep <;> split at hstep
      · exact Option.some.inj hstep ▸ hpolled s _ _ hs
      · exact absurd hstep (by simp)
      · exact Option.some.inj hstep ▸ hpolled s _ _ hs
      · exact absurd hstep (by simp)
  | readErr e' => exact absurd rfl (ha e')
  | drop =>
    simp only [step] at hstep
    split at hstep
    · exact absurd hstep (by simp)
    · obtain rfl := Option.some.inj hstep
      simpa using hs

end Receiver

/-- **Round trip.**  Messages within the sender's limit can all be sent, and whatever stream
of bytes their completed `send` calls produced, the `recv` calls of a channel on the other
side give the messages back, whatever its limit, the chunks and the cancelled calls: those in
front of the first one over the receiver's limit, in order, then one error for that one, and
`Closed` for ever; and no `recv` that is kept being read hangs. -/
theorem framed_roundtrip {S R : ℕ} {tx rx : FramedChannel}
    (hS : FramedChannel.new S = some tx) (hR : FramedChannel.new R = some rx)
    {ms : List Bytes} (hms : ∀ m ∈ ms, m.length ≤ S) :
    (∃ sends s, run Sender.step (Sender.start tx) sends = some s ∧ s.Completed ms) ∧
    ∀ sends s, run Sender.step (Sender.start tx) sends = some s → s.Completed ms →
      ∀ recvs r, (∀ e, .readErr e ∉ recvs) →
        run Receiver.step (Receiver.start rx s.wire) recvs = some r →
        r.results = (deliveries R ms).take r.results.length ∧
          (∀ e, .ioError e ∉ r.events) ∧ r.Resolves := by
  have hmax : tx.maxMsgLen = S := (Receiver.readState_new hS).2.2.1
  refine ⟨Sender.exists_completed tx (by rw [hmax]; exact hms), ?_⟩
  rintro sends s hsend ⟨rfl, hdone⟩ recvs r hreads hrecv
  have hinv := Sender.run_inv hsend
  obtain ⟨hrinv, houtlook⟩ := Receiver.run_outlook hR hrecv
  have hfits : ∀ m ∈ s.calls.map SendCall.msg, m.length < 256 ^ 4 := by
    intro m hm
    obtain ⟨c, hc, rfl⟩ := List.mem_map.mp hm
    exact Sender.fits_of_whole (hinv.call c hc) ((hinv.call c hc).completed (hdone c hc))
  rw [Sender.wire_of_completed hinv hdone, reference_frames hfits] at houtlook
  exact ⟨Receiver.results_eq_take houtlook, Receiver.events_of_no_readErr hreads hrecv,
    Receiver.resolves_of_inv hrinv⟩

/-- The round trip of an empty message, one at the receiver's limit and one over it, with a
`recv` dropped behind the second header. -/
theorem framed_roundtrip_at_limit :
    ∃ tx rx s r, FramedChannel.new 16 = some tx ∧ FramedChannel.new 1 = some rx ∧
      run Sender.step (Sender.start tx)
        [.send [], .write 4, .flush, .send [65], .write 3, .write 1, .write 1, .flush,
          .send [66, 67], .write 4, .write 2, .flush] = some s ∧
      run Receiver.step (Receiver.start rx s.wire)
        [.recv, .read 4, .recv, .read 4, .drop, .recv, .read 1, .recv, .read 4, .recv] = some r ∧
      r.results = (deliveries 1 [[], [65], [66, 67]]).take r.results.length ∧
      (∀ e, .ioError e ∉ r.events) ∧ r.Resolves := by
  refine ⟨_, _, _, _, rfl, rfl, Option.eq_some_of_isSome (by decide),
    Option.eq_some_of_isSome (by decide), ?_⟩
  exact (framed_roundtrip (S := 16) rfl rfl (by decide)).2 _ _
    (Option.eq_some_of_isSome (by decide)) ⟨by decide, by decide⟩ _ _ (by simp)
    (Option.eq_some_of_isSome (by decide))

/-! ## Sends that fail or are dropped -/

namespace Receiver

/-- The messages that `recv` returned. -/
def received (r : Receiver) : List Bytes := r.results.filterMap Except.toOption

private lemma take_append_const {β : Type*} (l : List β) (b : β) (n : ℕ) :
    (l ++ₛ Stream'.const b).take n = l.take n ++ List.replicate (n - l.length) b := by
  induction l generalizing n with
  | nil =>
    rw [Stream'.nil_append_stream, List.take_nil, List.nil_append, List.length_nil, Nat.sub_zero]
    exact List.eq_replicate_iff.mpr ⟨Stream'.length_take n _, fun x hx => by
      obtain ⟨i, hi, rfl⟩ := List.mem_iff_getElem.mp hx
      rw [Stream'.take_get, Stream'.get_const]⟩
  | cons a l ih =>
    cases n with
    | zero => simp
    | succ n =>
      rw [Stream'.cons_append_stream, Stream'.take_succ_cons, ih]
      simp

/-- What `recv` returned are first messages of the one-shot decoder. -/
lemma received_prefix {max : ℕ} {ch : FramedChannel} (hnew : FramedChannel.new max = some ch)
    {input : Bytes} {as : List RecvAction} {r : Receiver}
    (hrun : run step (start ch input) as = some r) :
    r.received <+: (decode 4 max input).filterMap Item.payload? := by
  have hitem : ∀ i : Item, (itemResult max i).toOption = i.payload? := by
    rintro (payload | len | _) <;> rfl
  have hclosed : ∀ k, (List.replicate k (Except.error RecvError.closed)).filterMap
      (Except.toOption (α := Bytes)) = [] := fun k =>
    List.filterMap_eq_nil_iff.mpr fun x hx => by rw [List.eq_of_mem_replicate hx]; rfl
  obtain ⟨n, hres⟩ : ∃ n, r.results = (reference max input).take n :=
    ⟨_, results_eq_take (run_outlook hnew hrun).2⟩
  rw [reference, take_append_const, ← List.map_take] at hres
  have hrec : r.received = ((decode 4 max input).take n).filterMap Item.payload? := by
    rw [received, hres, List.filterMap_append, hclosed, List.append_nil, List.filterMap_map]
    exact List.filterMap_congr fun i _ => hitem i
  rw [hrec]
  exact (List.take_prefix _ _).filterMap _

end Receiver

namespace Sender

/-- Nothing is written while the frame of an earlier call is half-written. -/
def Settled (s : Sender) (a : SendAction) : Prop := ∀ n, a = .write n → ∀ c ∈ s.ended, ¬ c.Torn

instance (s : Sender) (a : SendAction) : Decidable (s.Settled a) :=
  match a with
  | .write n => decidable_of_iff (∀ c ∈ s.ended, ¬ c.Torn) (by simp [Settled])
  | .send _ | .flush | .fail _ | .drop => .isTrue (by simp [Settled])

/-- A step records one call behind the ended ones: a new one, which has written nothing, or
the one in progress, which has written more only if the step was a write. -/
lemma step_calls {s s' : Sender} {a : SendAction} (hstep : s.step a = some s') :
    ∃ c', s'.calls = s.ended ++ [c'] ∧
      (c'.written = [] ∨ (∃ n, a = .write n) ∨
        ∃ c, s.calls = s.ended ++ [c] ∧ c'.written = c.written) := by
  cases hf : s.fut with
  | none =>
    cases a with
    | send msg =>
      simp only [step, hf, Option.some.injEq] at hstep
      subst hstep
      exact ⟨_, calls_put _ _, .inl rfl⟩
    | write n | flush | fail e | drop => simp [step, hf] at hstep
  | some f =>
    obtain ⟨msg, written, w⟩ := f
    have hcalls := calls_of_fut_some hf
    cases a with
    | send m => simp [step, hf] at hstep
    | write n =>
      simp only [step, hf] at hstep
      split at hstep
      · obtain ⟨p, hp, rfl⟩ := Option.map_eq_some_iff.mp hstep
        exact ⟨_, calls_put _ _, .inr (.inl ⟨n, rfl⟩)⟩
      · exact absurd hstep (by simp)
    | flush | fail e =>
      simp only [step, hf] at hstep
      obtain ⟨p, hp, rfl⟩ := Option.map_eq_some_iff.mp hstep
      exact ⟨_, calls_put _ _, .inr (.inr ⟨_, hcalls, rfl⟩)⟩
    | drop =>
      simp only [step, hf, Option.some.injEq] at hstep
      subst hstep
      exact ⟨_, calls_put _ _, .inr (.inr ⟨_, hcalls, rfl⟩)⟩

/-- Behind a half-written frame nothing was written. -/
def TornLast (s : Sender) : Prop := s.calls.Pairwise fun c d => c.Torn → d.written = []

lemma step_tornLast {s s' : Sender} {a : SendAction} (h : TornLast s) (ha : Settled s a)
    (hstep : s.step a = some s') : TornLast s' := by
  obtain ⟨c', hc', hcase⟩ := step_calls hstep
  have hended : s.ended.Pairwise fun c d => c.Torn → d.written = [] :=
    (List.pairwise_append.mp h).1
  rw [TornLast, hc', List.pairwise_append]
  refine ⟨hended, by simp, fun d hd e he => ?_⟩
  obtain rfl := List.mem_singleton.mp he
  intro htorn
  -- the call behind a torn one has written nothing, or the step would be a write
  rcases hcase with hnil | ⟨n, hn⟩ | ⟨c, hc, hsame⟩
  · exact hnil
  · exact absurd htorn (ha n hn d hd)
  · rw [TornLast, hc, List.pairwise_append] at h
    rw [hsame]
    exact h.2.2 d hd c (by simp) htorn

/-- What calls wrote of which at most the last that wrote anything is torn: the frames of the
whole ones, and the torn one. -/
lemma flatMap_written {calls : List SendCall}
    (h : calls.Pairwise fun c d => c.Torn → d.written = []) :
    ∃ torn, calls.flatMap SendCall.written =
        ((calls.filter fun c => c.Whole).map SendCall.msg).flatMap (frame 4) ++ torn ∧
      (torn = [] ∨ ∃ c ∈ calls, c.Torn ∧ torn = c.written) := by
  induction calls with
  | nil => exact ⟨[], rfl, .inl rfl⟩
  | cons c calls ih =>
    obtain ⟨hc, hcalls⟩ := List.pairwise_cons.mp h
    by_cases htorn : c.Torn
    · -- the calls behind the torn one wrote nothing, so none of them is whole
      have hnil : calls.flatMap SendCall.written = [] :=
        List.flatMap_eq_nil_iff.mpr fun d hd => hc d hd htorn
      have hnone : calls.filter (fun c => c.Whole) = [] := by
        refine List.filter_eq_nil_iff.mpr fun d hd hw => ?_
        have hwhole : d.written = frame 4 d.msg := of_decide_eq_true hw
        exact frame_ne_nil d.msg (hwhole ▸ hc d hd htorn)
      refine ⟨c.written, ?_, .inr ⟨c, by simp, htorn, rfl⟩⟩
      simp [hnil, htorn.2, hnone]
    · obtain ⟨torn, hsplit, hwhich⟩ := ih hcalls
      refine ⟨torn, ?_, ?_⟩
      · by_cases hwhole : c.Whole
        · have hw : c.written = frame 4 c.msg := hwhole
          simp [hsplit, hwhole, hw, List.append_assoc]
        · have hw : c.written = [] := by
            by_contra hne
            exact htorn ⟨hne, hwhole⟩
          simp [hsplit, hwhole, hw]
      · rcases hwhich with rfl | ⟨d, hd, hd'⟩
        · exact .inl rfl
        · exact .inr ⟨d, List.mem_cons_of_mem _ hd, hd'⟩

end Sender

/-- **Nothing is received that nobody sent**, as long as no call writes behind a half-written
frame: what the peer's `recv` calls return are messages of `send` calls whose whole frame is on
the stream, in the order of the calls and from the first one on; completed calls are among
them. -/
theorem received_was_sent {tx : FramedChannel} {sends : List SendAction} {s : Sender}
    (hsend : run Sender.step (Sender.start tx) sends = some s)
    (hsettled : EachStep Sender.step Sender.Settled (Sender.start tx) sends)
    {R : ℕ} {rx : FramedChannel} (hR : FramedChannel.new R = some rx)
    {recvs : List RecvAction} {r : Receiver}
    (hrecv : run Receiver.step (Receiver.start rx s.wire) recvs = some r) :
    (∀ m ∈ r.received, m ∈ s.calls.map SendCall.msg) ∧
      r.received <+: (s.calls.filter fun c => c.Whole).map SendCall.msg ∧
      ∀ c ∈ s.calls, c.state = .inr .completed → c.Whole := by
  have hinv := Sender.run_inv hsend
  have htornLast : s.TornLast :=
    run_induction (fun _ _ _ h ha hstep => Sender.step_tornLast h ha hstep)
      (by simp [Sender.TornLast, Sender.start, Sender.calls]) hsettled hsend
  obtain ⟨torn, hsplit, htorn⟩ := Sender.flatMap_written htornLast
  have hfits : ∀ m ∈ (s.calls.filter fun c => c.Whole).map SendCall.msg, m.length < 256 ^ 4 := by
    intro m hm
    obtain ⟨c, hc, rfl⟩ := List.mem_map.mp hm
    obtain ⟨hmem, hwhole⟩ := List.mem_filter.mp hc
    exact Sender.fits_of_whole (hinv.call c hmem) (by simpa using hwhole)
  -- the torn frame is a proper part of a frame, and decodes to no message
  have hnone : (decode 4 R torn).filterMap Item.payload? = [] := by
    rcases htorn with rfl | ⟨c, hc, ⟨hne, hpart⟩, rfl⟩
    · simp
    · have hpre := (hinv.call c hc).written
      refine decode_torn ((hinv.call c hc).fits hne) hpre (lt_of_le_of_ne hpre.length_le ?_)
      exact fun hlen => hpart (hpre.eq_of_length hlen)
  have hpre : r.received <+: (s.calls.filter fun c => c.Whole).map SendCall.msg := by
    refine (Receiver.received_prefix hR hrecv).trans ?_
    rw [hinv.wire, hsplit]
    exact decode_frames_append hfits hnone
  refine ⟨fun m hm => ?_, hpre, fun c hc => (hinv.call c hc).completed⟩
  have hsub : (s.calls.filter fun c => c.Whole).map SendCall.msg ⊆ s.calls.map SendCall.msg :=
    List.map_subset _ (List.filter_subset_self _)
  exact hsub (hpre.subset hm)

/-- A `send` of five bytes is dropped two bytes into its payload, and another one completes:
no receiver gets anything that was not sent. -/
theorem received_was_sent_dropped_last :
    ∃ tx rx s r, FramedChannel.new 16 = some tx ∧ FramedChannel.new 16 = some rx ∧
      run Sender.step (Sender.start tx)
        [.send [97, 98, 99], .write 4, .write 3, .flush,
          .send [104, 101, 108, 108, 111], .write 4, .write 2, .drop, .send [1]] = some s ∧
      run Receiver.step (Receiver.start rx s.wire)
        [.recv, .read 4, .read 3, .recv, .read 4, .read 2, .read 0] = some r ∧
      r.received = [[97, 98, 99]] ∧
      r.received <+: (s.calls.filter fun c => c.Whole).map SendCall.msg := by
  refine ⟨_, _, _, _, rfl, rfl, Option.eq_some_of_isSome (by decide),
    Option.eq_some_of_isSome (by decide), by decide, ?_⟩
  exact (received_was_sent (R := 16) (Option.eq_some_of_isSome (by decide)) (by decide) rfl
    (Option.eq_some_of_isSome (by decide))).2.1

/-- Behind a `send` dropped two bytes into its payload the next `send` writes its own frame, and
the reader completes the first frame with the head of the second: it returns a message nobody
sent. -/
theorem torn_frame_is_completed :
    ¬ ∀ (max : ℕ) (tx rx : FramedChannel) (sends : List SendAction) (s : Sender)
        (recvs : List RecvAction) (r : Receiver),
      FramedChannel.new max = some tx → FramedChannel.new max = some rx →
      run Sender.step (Sender.start tx) sends = some s →
      run Receiver.step (Receiver.start rx s.wire) recvs = some r →
      ∀ m ∈ r.received, m ∈ s.calls.map SendCall.msg := by
  intro h
  have hmem := h 16 _ _
    [.send [104, 101, 108, 108, 111], .write 4, .write 2, .drop,
      .send [97, 98, 99], .write 4, .write 3, .flush] _
    [.recv, .read 4, .read 5] _ rfl rfl (Option.eq_some_of_isSome (by decide))
    (Option.eq_some_of_isSome (by decide)) [104, 101, 0, 0, 0] (by decide)
  exact absurd hmem (by decide)

end FungiTransport
