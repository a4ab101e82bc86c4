import FungiTransport.Framed.EndToEnd
import FungiTransport.Framed.Flow
import FungiTransport.Framed.Terminal

/-!
# A connected pair reports an error only with cause

As long as the other end lives and sends nothing over this end's limit, every `recv` that resolves
returns a message, and every `send` that fails was over this end's own limit.  A read is judged by
what lies ahead of it: the bytes held and the bytes still to come are the frames of messages that
were sent, so the one-shot decoder finds a message there.
-/

namespace FungiTransport

open Lib FramedChannel Receiver

/-! ## A read that finds frames -/

lemma recvPayload_ok {ch ch' : FramedChannel} {len : ℕ} {m : Bytes}
    (h : ch.recvPayload len = (ch', .ready (.ok m))) : ch'.poisoned = ch.poisoned := by
  rw [recvPayload] at h
  split at h
  · cases h
  · obtain ⟨rfl, -⟩ := Prod.mk.inj h
    rfl

lemma recvHeader_ok {ch ch' : FramedChannel} {m : Bytes}
    (h : ch.recvHeader = (ch', .ready (.ok m))) : ch'.poisoned = ch.poisoned := by
  rw [recvHeader] at h
  split at h
  · cases h
  · simp only at h
    split at h
    · cases (Prod.mk.inj h).2
    · split at h
      · exact (recvPayload_ok h :)
      · exact recvPayload_ok h

lemma recvResume_ok {ch ch' : FramedChannel} {w : RecvAwait} {bytes m : Bytes}
    (h : ch.recvResume w (.data bytes) = (ch', .ready (.ok m))) : ch'.poisoned = ch.poisoned := by
  cases bytes with
  | nil =>
    cases w with
    | header =>
      simp only [recvResume] at h
      split at h <;> cases (Prod.mk.inj h).2
    | payload len => cases (Prod.mk.inj h).2
  | cons b bs =>
    cases w with
    | header => exact (recvHeader_ok h :)
    | payload len => exact (recvPayload_ok h :)

/-- The first result that lies ahead on the frames of messages within the limit. -/
lemma head_reference {max : ℕ} {m : Bytes} {ms : List Bytes} (hfits : max < 2 ^ 32)
    (hle : ∀ x ∈ m :: ms, x.length ≤ max) :
    (reference max ((m :: ms).flatMap (frame 4))).head = .ok m := by
  have hlen : ∀ x ∈ m :: ms, x.length < 256 ^ 4 := fun x hx =>
    FramedPair.fits_frame hfits (hle x hx)
  rw [reference_frames hlen, deliveries, List.takeWhile_cons_of_pos (by simpa using hle m (by simp))]
  rfl

/-- A read in front of which lie the frames of messages within the limit does no harm. -/
lemma recvResume_frames {ch : FramedChannel} {w : RecvAwait} {bytes rest : Bytes} {ms : List Bytes}
    (hp : ch.poisoned = false) (hrs : ReadState ch) (hw : Awaits ch w) (hne : bytes ≠ [])
    (hroom : bytes.length ≤ ch.recvBuffer w) (hle : ∀ m ∈ ms, m.length ≤ ch.maxMsgLen)
    (hbytes : held ch ++ (bytes ++ rest) = ms.flatMap (frame 4)) :
    (ch.recvResume w (.data bytes)).1.poisoned = false ∧
      ∀ x, (ch.recvResume w (.data bytes)).2 = .ready x → ∃ m, x = .ok m := by
  have hyields := recvResume_data_yields rest hp hrs hw hne hroom
  rcases hres : ch.recvResume w (.data bytes) with ⟨ch', x | w'⟩
  · rw [hres] at hyields
    obtain ⟨-, -, hahead⟩ := hyields
    cases ms with
    | nil =>
      have hnil := congrArg List.length hbytes
      have hpos := List.length_pos_of_ne_nil hne
      simp only [List.length_append, List.flatMap_nil, List.length_nil] at hnil
      omega
    | cons m ms =>
      have hhead := congrArg Stream'.head hahead
      rw [ahead_of_not_poisoned hp, hbytes, head_reference ch.fits hle, Stream'.head_cons] at hhead
      subst hhead
      exact ⟨(recvResume_ok hres).trans hp, fun x hx => ⟨m, (Poll.ready.inj hx).symm⟩⟩
  · rw [hres] at hyields
    exact ⟨hyields.2.1, fun x hx => by cases hx⟩

namespace FramedPair

/-! ## Steps -/

/-- An end that has become `e'` from `e` without an error, but for its own limit. -/
structure Gentle (max : ℕ) (e e' : FramedEnd) : Prop where
  poisoned : e'.ch.poisoned = false
  received : ∀ x, .received (.error x) ∈ e'.log → .received (.error x) ∈ e.log
  sent : ∀ m x, .sent m (.error x) ∈ e'.log →
    .sent m (.error x) ∈ e.log ∨ (x = .tooLarge max ∧ max < m.length)

lemma gentle_polled {max : ℕ} {e : FramedEnd} (bytes : Bytes) {p : FramedChannel × RecvPoll}
    (hp : p.1.poisoned = false) (hready : ∀ x, p.2 = .ready x → ∃ m, x = .ok m) :
    Gentle max e ({ e with consumed := bytes }.polled p) := by
  obtain ⟨ch, x | w⟩ := p
  · obtain ⟨m, rfl⟩ := hready x rfl
    exact ⟨hp, fun y hy => by simpa [FramedEnd.polled] using hy,
      fun m' y hy => .inl (by simpa [FramedEnd.polled] using hy)⟩
  · exact ⟨hp, fun y hy => hy, fun m' y hy => .inl hy⟩

lemma gentle_sent {max : ℕ} {e : FramedEnd} {msg : Bytes} {p : SendPoll}
    (hp : e.ch.poisoned = false)
    (hready : ∀ x, p = .ready (.error x) → x = .tooLarge max ∧ max < msg.length) :
    Gentle max e (e.sent msg p) := by
  cases p with
  | pending w => exact ⟨hp, fun y hy => hy, fun m' y hy => .inl hy⟩
  | ready r =>
    refine ⟨hp, fun y hy => by simpa [FramedEnd.sent] using hy, fun m y hy => ?_⟩
    have hmem : .sent m (.error y) ∈ e.log ∨ (m = msg ∧ .error y = r) := by
      simpa [FramedEnd.sent] using hy
    rcases hmem with hmem | ⟨rfl, rfl⟩
    · exact .inl hmem
    · exact .inr (hready y rfl)

lemma gentle_rfl {max : ℕ} {e e' : FramedEnd} (hp : e.ch.poisoned = false) (hch : e'.ch = e.ch)
    (hlog : e'.log = e.log) : Gentle max e e' :=
  ⟨hch ▸ hp, fun _ h => hlog ▸ h, fun _ _ h => .inl (hlog ▸ h)⟩

/-- An end that is not poisoned awaits a read wherever it stands. -/
lemma exists_awaits {ch : FramedChannel} (hrs : ReadState ch) : ∃ w, Awaits ch w := by
  rcases hrs.header_le.lt_or_eq with hlt | hfull
  · exact ⟨.header, hlt⟩
  · exact ⟨.payload (ofBe ch.header), hfull, rfl⟩

lemma ends_setEnd (s : FramedPair) (d : Side) (e : FramedEnd) : (s.setEnd d e).ends d = e := by
  simp [setEnd]

/-- **The step lemma**: with the other end alive and everything it sent within the limit. -/
lemma gentle_of_step {max : Side → ℕ} {s s' : FramedPair} {a : PairAction} {d : Side}
    (hd : a.side = d) (h : Inv max s) (halive : (s.ends d.other).alive = true)
    (hle : ∀ m ∈ (s.ends d.other).attempted, m.length ≤ max d)
    (hp : (s.ends d).ch.poisoned = false) (hstep : s.step a = some s') :
    Gentle (max d) (s.ends d) (s'.ends d) := by
  have hmax := (h.ends d).maxMsgLen
  cases a with
  | recv d' =>
    obtain rfl : d' = d := hd
    obtain ⟨e, he, rfl⟩ := Option.map_eq_some_iff.mp hstep
    obtain ⟨rfl, -, -⟩ := idle_eq_some he
    have hrs := (h.ends d').readState hp
    obtain ⟨w, hw⟩ := exists_awaits hrs
    rw [ends_setEnd, Endpoint.recvInner_of_awaits hp hrs hw]
    exact gentle_polled (s.ends d').consumed hp fun x hx => by cases hx
  | read d' n =>
    obtain rfl : d' = d := hd
    simp only [step] at hstep
    split at hstep
    · rename_i w hf
      simp only [read] at hstep
      split at hstep
      · split at hstep
        · rename_i heof
          exact absurd heof.2 (by simp [halive])
        · cases hstep
      · split at hstep
        · rename_i hnil hn
          obtain rfl := Option.some.inj hstep
          obtain ⟨-, hw⟩ := (h.ends d').awaits hf
          obtain ⟨ahead, hahead, hbytes⟩ := h.ahead (d := d'.other)
            (by rw [Side.other_other]; exact (h.ends d').ready.lives hf)
          rw [Side.other_other] at hbytes
          have hne : (s.pipes d'.other).take n ≠ [] := by
            rw [ne_eq, List.take_eq_nil_iff]
            rintro (h0 | h0)
            · omega
            · exact hnil h0
          have hsplit : held (s.ends d').ch ++ ((s.pipes d'.other).take n ++
              ((s.pipes d'.other).drop n ++ (s.ends d'.other).unsent)) = ahead.flatMap (frame 4) := by
            rw [← hbytes, ← List.append_assoc ((s.pipes d'.other).take n), List.take_append_drop]
          obtain ⟨hp', hready⟩ := recvResume_frames hp ((h.ends d').readState hp) hw hne
            (by rw [List.length_take]; omega)
            (fun m hm => hmax ▸ hle m (hahead ▸ List.mem_append_right _ hm)) hsplit
          simp only [setPipe, ends_setEnd]
          exact gentle_polled _ hp' hready
        · cases hstep
    · cases hstep
  | readErr d' err =>
    obtain rfl : d' = d := hd
    simp only [step, halive, if_true] at hstep
    split at hstep <;> cases hstep
  | send d' msg =>
    obtain rfl : d' = d := hd
    obtain ⟨e, he, rfl⟩ := Option.map_eq_some_iff.mp hstep
    obtain ⟨rfl, -, -⟩ := idle_eq_some he
    rw [ends_setEnd]
    refine gentle_sent hp fun x hx => ?_
    simp only [sendInner] at hx
    split at hx
    · rename_i hlong
      obtain rfl : .tooLarge _ = x := Except.error.inj (Poll.ready.inj hx)
      exact ⟨by rw [hmax], hmax ▸ hlong⟩
    · cases hx
  | write d' n =>
    obtain rfl : d' = d := hd
    simp only [step] at hstep
    split at hstep
    · rename_i msg w hf
      simp only [write] at hstep
      split at hstep
      · obtain ⟨p, hres, rfl⟩ := Option.map_eq_some_iff.mp hstep
        simp only [setPipe, ends_setEnd]
        refine gentle_sent hp fun x hx => ?_
        obtain ⟨_, w', -, rfl, -⟩ | ⟨_, herr, -⟩ | ⟨herr, -⟩ := FramedEnd.resumed_cases hres
        · cases hx
        · cases herr
        · cases herr
      · cases hstep
    · cases hstep
  | writeErr d' err =>
    obtain rfl : d' = d := hd
    simp only [step, halive, true_or, if_true] at hstep
    split at hstep <;> cases hstep
  | flush d' =>
    obtain rfl : d' = d := hd
    simp only [step] at hstep
    split at hstep
    · rename_i msg w hf
      obtain ⟨p, hres, rfl⟩ := Option.map_eq_some_iff.mp hstep
      rw [ends_setEnd, (FramedEnd.unsent_flushed hf hres).2.2]
      exact gentle_sent hp fun x hx => by cases hx
    · cases hstep
  | dropRecv d' =>
    obtain rfl : d' = d := hd
    simp only [step] at hstep
    split at hstep
    · obtain rfl := Option.some.inj hstep
      rw [ends_setEnd]
      exact gentle_rfl hp rfl rfl
    · cases hstep
  | dropEnd d' =>
    obtain rfl : d' = d := hd
    obtain ⟨e, he, rfl⟩ := Option.map_eq_some_iff.mp hstep
    obtain ⟨rfl, -, -⟩ := idle_eq_some he
    rw [ends_setEnd]
    exact gentle_rfl hp rfl rfl

/-- The other end lives and has sent nothing over the limit of end `d`. -/
def Fair (max : Side → ℕ) (s : FramedPair) (d : Side) : Prop :=
  (s.ends d.other).alive = true ∧ ∀ m ∈ (s.ends d.other).attempted, m.length ≤ max d

/-- Every error at an end has a cause. -/
structure Caused (max : Side → ℕ) (s : FramedPair) (d : Side) : Prop where
  poisoned : (s.ends d).ch.poisoned = false
  received : ∀ x, .received (.error x) ∉ (s.ends d).log
  sent : ∀ m x, .sent m (.error x) ∈ (s.ends d).log → x = .tooLarge (max d) ∧ max d < m.length

lemma step_caused {max : Side → ℕ} {s s' : FramedPair} {a : PairAction} (h : Inv max s)
    (hcaused : ∀ d, s.Fair max d → s.Caused max d) (hstep : s.step a = some s') :
    ∀ d, s'.Fair max d → s'.Caused max d := by
  obtain ⟨e, taken, rest, given, -, hs', hm⟩ :=
    moves_of_step (d := a.side) rfl (h.ends a.side).ready hstep
  refine forall_side a.side (fun hfair => ?_) (fun hfair => ?_)
  · -- the other end has not moved
    have hold : s.Fair max a.side := by simpa [Fair, hs'] using hfair
    obtain ⟨hp, hrecv, hsent⟩ := hcaused _ hold
    have hg := gentle_of_step rfl h hold.1 hold.2 hp hstep
    exact ⟨hg.poisoned, fun x hx => hrecv x (hg.received x hx),
      fun m x hx => (hg.sent m x hx).elim (hsent m x) id⟩
  · -- this end has not moved, and the other one was alive and had sent less
    obtain ⟨new, hnew, -⟩ := hm.flow
    have hold : s.Fair max a.side.other := by
      refine ⟨by rw [Side.other_other]; exact hm.lives, fun m hmem => hfair.2 m ?_⟩
      rw [Side.other_other] at hmem ⊢
      rw [hs', ends_moved, hnew]
      exact List.mem_append_left _ hmem
    have hsame : s'.ends a.side.other = s.ends a.side.other := by rw [hs', ends_moved_other]
    obtain ⟨hp, hrecv, hsent⟩ := hcaused _ hold
    exact ⟨hsame ▸ hp, fun x => hsame ▸ hrecv x, fun m x => hsame ▸ hsent m x⟩

lemma run_caused {room maxA maxB : ℕ} {a b : FramedChannel} (ha : FramedChannel.new maxA = some a)
    (hb : FramedChannel.new maxB = some b) {as : List PairAction} {s : FramedPair}
    (hrun : run step (framedPair room a b) as = some s) :
    Inv (limits maxA maxB) s ∧
      ∀ d, s.Fair (limits maxA maxB) d → s.Caused (limits maxA maxB) d := by
  refine run_invariant (I := fun s => Inv (limits maxA maxB) s ∧
    ∀ d, s.Fair (limits maxA maxB) d → s.Caused (limits maxA maxB) d)
    (fun s a s' h hstep => ⟨step_inv h.1 hstep, step_caused h.1 h.2 hstep⟩) ⟨inv_start ha hb, ?_⟩ hrun
  refine forall_side .a (fun _ => ?_) (fun _ => ?_)
  · exact ⟨(Receiver.readState_new ha).2.1, by simp [framedPair, FramedEnd.new],
      by simp [framedPair, FramedEnd.new]⟩
  · exact ⟨(Receiver.readState_new hb).2.1, by simp [framedPair, FramedEnd.new, Side.other],
      by simp [framedPair, FramedEnd.new, Side.other]⟩

/-- **Errors have a cause.**  In every run of a connected pair, in which no `send` is dropped, as
long as the other end lives and has sent nothing over this end's limit: no `recv` has returned an
error, and a `send` has failed only with `TooLarge`, for a message over this end's own limit. -/
theorem errors_have_cause {room maxA maxB : ℕ} {a b : FramedChannel}
    (ha : FramedChannel.new maxA = some a) (hb : FramedChannel.new maxB = some b)
    {as : List PairAction} {s : FramedPair} (hrun : run step (framedPair room a b) as = some s)
    {d : Side} (halive : (s.ends d.other).alive = true)
    (hle : ∀ m ∈ (s.ends d.other).attempted, m.length ≤ limits maxA maxB d) :
    (∀ x, .received (.error x) ∉ (s.ends d).log) ∧
      ∀ m x, .sent m (.error x) ∈ (s.ends d).log →
        x = .tooLarge (limits maxA maxB d) ∧ limits maxA maxB d < m.length := by
  have hcaused := (run_caused ha hb hrun).2 d ⟨halive, hle⟩
  exact ⟨hcaused.received, hcaused.sent⟩

/-- End `a` sends more than its limit, and then a message that is still on its way when end `b` is
waiting for the rest of it. -/
theorem errors_have_cause_tooLarge :
    ∃ a b s, FramedChannel.new 1 = some a ∧ FramedChannel.new 8 = some b ∧
      run step (framedPair 6 a b) [.send .a [7, 7], .send .a [7], .write .a 4, .recv .b, .read .b 4]
        = some s ∧
      (s.ends .a).log = [.sent [7, 7] (.error (.tooLarge 1))] ∧
      (∀ x, .received (.error x) ∉ (s.ends Side.b).log) ∧
      ∀ m x, .sent m (.error x) ∈ (s.ends .a).log → x = .tooLarge 1 ∧ 1 < m.length := by
  obtain ⟨a, b, s, ha, hb, hrun, hlog, ha', hb', hsent, hsent'⟩ : ∃ a b s,
      FramedChannel.new 1 = some a ∧ FramedChannel.new 8 = some b ∧
      run step (framedPair 6 a b) [.send .a [7, 7], .send .a [7], .write .a 4, .recv .b, .read .b 4]
        = some s ∧
      (s.ends .a).log = [.sent [7, 7] (.error (.tooLarge 1))] ∧ (s.ends .a).alive = true ∧
      (s.ends .b).alive = true ∧ (∀ m ∈ (s.ends .a).attempted, m.length ≤ 8) ∧
      ∀ m ∈ (s.ends .b).attempted, m.length ≤ 1 :=
    ⟨_, _, _, rfl, rfl, Option.eq_some_of_isSome (by decide), by decide, by decide, by decide,
      by decide, by decide⟩
  exact ⟨a, b, s, ha, hb, hrun, hlog, (errors_have_cause ha hb hrun (d := .b) ha' hsent).1,
    (errors_have_cause ha hb hrun (d := .a) hb' hsent').2⟩

end FramedPair

end FungiTransport
