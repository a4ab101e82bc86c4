import FungiTransport.Framed.Endpoint

/-!
# Closed is terminal, unless a reset strikes inside a frame

`recv` reports `Closed` for a poisoned channel, for the end of the stream between two frames and
for a reset of the connection.  Only the first two leave a channel behind that can report
nothing else: a reset inside a frame leaves the partial frame in place, and the next call takes
the end of the stream for a truncation of it (`transport_after_closed`).
-/

namespace FungiTransport

open Lib FramedChannel

namespace Endpoint

/-- Behind a `Closed` there is nothing but `Closed`. -/
def Terminal (s : Endpoint) : Prop :=
  ∀ pre post, s.results = pre ++ .error .closed :: post → ∀ x ∈ post, x = .error .closed

/-- A reset of the connection strikes between two frames only. -/
def Clean (s : Endpoint) (a : EndpointAction) : Prop :=
  ∀ e, a = .readErr e → e.IsReset → s.ch.headerFilled = 0

instance (s : Endpoint) (a : EndpointAction) : Decidable (Clean s a) :=
  match a with
  | .readErr e =>
    decidable_of_iff (e.IsReset → s.ch.headerFilled = 0)
      ⟨fun h e' he => by cases he; exact h, fun h => h e rfl⟩
  | .recv | .read _ | .send _ | .write _ | .flush | .writeErr _ | .drop =>
    .isTrue fun e he => nomatch he

/-- No further `recv` can return anything but `Closed`. -/
def Dead (s : Endpoint) : Prop :=
  s.ch.poisoned = true ∨ (s.ended = true ∧ s.ch.headerFilled = 0)

/-! ## What a stretch of `recv` can return -/

lemma recvPayload_ready {ch ch' : FramedChannel} {len : ℕ} {x : Except RecvError Bytes}
    (h : ch.recvPayload len = (ch', .ready x)) : x ≠ .error .closed := by
  rw [recvPayload] at h
  split at h
  · cases h
  · obtain ⟨-, h⟩ := Prod.mk.inj h
    obtain rfl := Poll.ready.inj h
    simp

/-- Parsing a header never reports `Closed`. -/
lemma recvHeader_ready {ch ch' : FramedChannel} {x : Except RecvError Bytes}
    (h : ch.recvHeader = (ch', .ready x)) : x ≠ .error .closed := by
  rw [recvHeader] at h
  split at h
  · cases h
  · simp only at h
    split at h
    · obtain ⟨-, h⟩ := Prod.mk.inj h
      obtain rfl := Poll.ready.inj h
      simp
    · split at h
      · exact recvPayload_ready h
      · exact recvPayload_ready h

/-- A call that returns `Closed` without reading found the channel poisoned. -/
lemma recvInner_closed {ch ch' : FramedChannel}
    (h : ch.recvInner = (ch', .ready (.error .closed))) : ch'.poisoned = true := by
  rw [recvInner] at h
  split at h
  · rename_i hp
    obtain ⟨rfl, -⟩ := Prod.mk.inj h
    exact hp
  · exact absurd rfl (recvHeader_ready h)

/-- A read that lets `recv` return `Closed` reported the end of the stream between two frames. -/
lemma recvResume_closed {ch ch' : FramedChannel} {w : RecvAwait} {bytes : Bytes}
    (h : ch.recvResume w (.data bytes) = (ch', .ready (.error .closed))) :
    bytes = [] ∧ ch' = ch ∧ ch.headerFilled = 0 := by
  cases bytes with
  | nil =>
    cases w with
    | header =>
      simp only [recvResume] at h
      split at h
      · rename_i h0
        obtain ⟨rfl, -⟩ := Prod.mk.inj h
        exact ⟨rfl, rfl, h0⟩
      · exact absurd (Prod.mk.inj h).2 (by simp)
    | payload len => exact absurd (Prod.mk.inj h).2 (by simp)
  | cons b bs =>
    cases w with
    | header => exact absurd rfl (recvHeader_ready h)
    | payload len => exact absurd rfl (recvPayload_ready h)

/-! ## Steps -/

/-- The first `Closed` of a clean step leaves a dead channel. -/
lemma step_closed {s s' : Endpoint} {a : EndpointAction} (h : Inv s) (hclean : Clean s a)
    (hstep : s.step a = some s') :
    s'.results = s.results ∨
      ∃ x, s'.results = s.results ++ [x] ∧ (x = .error .closed → Dead s') := by
  cases effect_of_step hstep with
  | recv hfut =>
    rcases hp : s.ch.recvInner with ⟨ch, x | w⟩
    · refine .inr ⟨x, rfl, ?_⟩
      rintro rfl
      exact .inl (recvInner_closed hp)
    · exact .inl rfl
  | @read w bytes hfut hended hroom =>
    rcases hp : s.ch.recvResume w (.data bytes) with ⟨ch, x | w'⟩
    · refine .inr ⟨x, rfl, ?_⟩
      rintro rfl
      obtain ⟨rfl, rfl, h0⟩ := recvResume_closed hp
      -- the buffer has room, so the empty read is the end of the stream
      obtain ⟨hpois, hw⟩ := h.fut w hfut
      have hroom' : 0 < s.ch.recvBuffer w := Receiver.one_le_recvBuffer (h.state hpois) hw
      exact .inr ⟨by simp [polled, took, hroom'], h0⟩
    · exact .inl rfl
  | @readErr w e hfut hended =>
    refine .inr ⟨_, rfl, fun hx => ?_⟩
    have hreset : e.IsReset := mapRecvIo_eq_closed.mp (Except.error.inj hx)
    exact .inr ⟨decide_eq_true hreset, hclean e rfl hreset⟩
  | other fut => exact .inl rfl

/-- A dead channel stays dead, and reports `Closed` to every call that resolves. -/
lemma step_dead {s s' : Endpoint} {a : EndpointAction} (h : Inv s) (hdead : Dead s)
    (hstep : s.step a = some s') :
    Dead s' ∧ (s'.results = s.results ∨ s'.results = s.results ++ [.error .closed]) := by
  cases effect_of_step hstep with
  | recv hfut =>
    by_cases hp : s.ch.poisoned = true
    · have hpoll : s.ch.recvInner = (s.ch, .ready (.error .closed)) := if_pos hp
      rw [hpoll]
      exact ⟨.inl hp, .inr rfl⟩
    · -- the stream ended between two frames, so the call waits for a header again
      have h0 : s.ch.headerFilled = 0 := (hdead.resolve_left hp).2
      have hlt : s.ch.headerFilled < 4 := by omega
      have hpoll : s.ch.recvInner = (s.ch, .pending .header) := by
        rw [recvInner, if_neg hp, recvHeader, if_pos hlt]
      rw [hpoll]
      exact ⟨hdead, .inl rfl⟩
  | @read w bytes hfut hended hroom =>
    obtain ⟨hp, hw⟩ := h.fut w hfut
    obtain ⟨hend, h0⟩ := hdead.resolve_left (by simp [hp])
    obtain rfl := hended hend
    cases w with
    | header =>
      have hpoll : s.ch.recvResume .header (.data []) = (s.ch, .ready (.error .closed)) := if_pos h0
      rw [hpoll]
      exact ⟨.inr ⟨by simp [polled, took, hend], h0⟩, .inr rfl⟩
    -- a payload is read only behind a whole header
    | payload len => exact absurd (hw.1.symm.trans h0) (by decide)
  | @readErr w e hfut hended =>
    obtain ⟨hp, -⟩ := h.fut w hfut
    obtain ⟨hend, -⟩ := hdead.resolve_left (by simp [hp])
    exact absurd (hended.symm.trans hend) (by decide)
  | other fut => exact ⟨hdead, .inl rfl⟩

/-- A channel that has reported `Closed` is dead, and has reported nothing else since. -/
structure Settled (s : Endpoint) : Prop where
  inv : Inv s
  terminal : Terminal s
  dead : .error .closed ∈ s.results → Dead s

lemma terminal_concat {s s' : Endpoint} {x : Except RecvError Bytes} (h : Terminal s)
    (hres : s'.results = s.results ++ [x]) (hx : .error .closed ∈ s.results → x = .error .closed) :
    Terminal s' := by
  intro pre post hcut y hy
  rw [hres] at hcut
  rcases List.eq_nil_or_concat post with rfl | ⟨post, z, rfl⟩
  · exact absurd hy List.not_mem_nil
  · have hcut' : s.results ++ [x] = (pre ++ .error .closed :: post) ++ [z] := by
      simpa using hcut
    obtain ⟨hres', hlast⟩ := List.append_inj' hcut' rfl
    obtain rfl : x = z := by simpa using hlast
    rcases List.mem_append.mp (List.concat_eq_append ▸ hy) with hy | hy
    · exact h pre post hres' y hy
    · rw [List.mem_singleton.mp hy]
      exact hx (by simp [hres'])

/-- **The step lemma**: a clean step keeps `Closed` terminal. -/
lemma step_settled {s s' : Endpoint} {a : EndpointAction} (h : Settled s) (hclean : Clean s a)
    (hstep : s.step a = some s') : Settled s' := by
  have hinv := step_inv h.inv hstep
  by_cases hclosed : .error .closed ∈ s.results
  · obtain ⟨hdead, hres | hres⟩ := step_dead h.inv (h.dead hclosed) hstep
    · exact ⟨hinv, fun pre post => hres ▸ h.terminal pre post, fun _ => hdead⟩
    · exact ⟨hinv, terminal_concat h.terminal hres fun _ => rfl, fun _ => hdead⟩
  · rcases step_closed h.inv hclean hstep with hres | ⟨x, hres, hx⟩
    · exact ⟨hinv, fun pre post => hres ▸ h.terminal pre post, fun hmem =>
        absurd (hres ▸ hmem) hclosed⟩
    · refine ⟨hinv, terminal_concat h.terminal hres fun hmem => absurd hmem hclosed, fun hmem => ?_⟩
      rw [hres, List.mem_append, List.mem_singleton] at hmem
      exact hx (hmem.resolve_left hclosed).symm

lemma settled_start {max : ℕ} {ch : FramedChannel} (hnew : FramedChannel.new max = some ch) :
    Settled (start ch) :=
  ⟨inv_start hnew, fun pre post hcut => absurd hcut (by simp [start]),
    fun hmem => absurd hmem List.not_mem_nil⟩

/-! ## A reset inside a frame -/

/-- A new call goes on where the dropped one was suspended. -/
lemma recvInner_of_awaits {ch : FramedChannel} {w : RecvAwait} (hp : ch.poisoned = false)
    (hstate : Receiver.ReadState ch) (hw : Receiver.Awaits ch w) :
    ch.recvInner = (ch, .pending w) := by
  have hp' : ¬ ch.poisoned = true := by simp [hp]
  rw [recvInner, if_neg hp']
  cases w with
  | header => exact if_pos hw
  | payload len =>
    obtain ⟨hfull, rfl⟩ := hw
    obtain ⟨hmax, hsize, hlt⟩ := hstate.sized hfull
    have hheader : ¬ ch.headerFilled < 4 := by omega
    have hlimit : ¬ ch.maxMsgLen < ofBe ch.header := by omega
    have hsized : ¬ ch.payload.length ≠ ofBe ch.header := by omega
    rw [recvHeader, if_neg hheader]
    simp only [if_neg hlimit, if_neg hsized]
    exact if_pos (hsize ▸ hlt)

/-- The end of the stream inside a frame is a truncation. -/
lemma recvResume_truncated {ch : FramedChannel} {w : RecvAwait} (hin : ch.headerFilled ≠ 0) :
    ch.recvResume w (.data []) =
      ({ ch with poisoned := true }, .ready (.error (.transport midFrame))) := by
  cases w with
  | header => exact if_neg hin
  | payload len => rfl

/-- A reset inside a frame is reported as `Closed`, and the next call reports a truncation. -/
lemma transport_after_closed {s s' : Endpoint} {e : IoError} (h : Inv s)
    (hstep : s.step (.readErr e) = some s') (hreset : e.IsReset) (hin : s.ch.headerFilled ≠ 0) :
    ∃ s'', run step s' [.recv, .read []] = some s'' ∧
      s''.results = s.results ++ [.error .closed] ++ [.error (.transport midFrame)] := by
  obtain ⟨w, hfut, hended, rfl⟩ := step_readErr hstep
  obtain ⟨hp, hw⟩ := h.fut w hfut
  have hpoll := recvInner_of_awaits hp (h.state hp) hw
  have hclosed : mapRecvIo e = .closed := mapRecvIo_eq_closed.mpr hreset
  let s₁ : Endpoint :=
    { s with ended := true, fut := none, results := s.results ++ [.error .closed] }
  have hs₁ : { s with
      ended := decide e.IsReset
      fut := none
      results := s.results ++ [.error (mapRecvIo e)] } = s₁ := by
    rw [hclosed, decide_eq_true hreset]
  have hrecv : s₁.step .recv = some { s₁ with fut := some (.inl w) } := by
    change some (s₁.polled s.ch.recvInner) = _
    rw [hpoll]
    rfl
  have hread : ({ s₁ with fut := some (.inl w) } : Endpoint).step (.read []) =
      some { s₁ with
        ch := { s.ch with poisoned := true }
        consumed := s.consumed ++ []
        fut := none
        results := s₁.results ++ [.error (.transport midFrame)] } := by
    rw [step_read rfl (fun _ => rfl) (Nat.zero_le _)]
    exact congrArg (fun p => some (polled _ p)) (recvResume_truncated hin)
  exact ⟨_, run_cons.mpr ⟨_, hs₁ ▸ hrecv, run_cons.mpr ⟨_, hread, rfl⟩⟩, rfl⟩

/-! ## The theorem -/

/-- **Closed is terminal** in every run in which no reset strikes inside a frame; and a reset that
strikes inside one leads to a `Closed` with something else behind it. -/
theorem closed_is_terminal {max : ℕ} {ch : FramedChannel}
    (hnew : FramedChannel.new max = some ch) {as : List EndpointAction} {s : Endpoint}
    (hrun : run step (start ch) as = some s) :
    (EachStep step Clean (start ch) as → Terminal s) ∧
      ∀ e s', s.step (.readErr e) = some s' → ¬ Clean s (.readErr e) →
        ∃ s'', run step s' [.recv, .read []] = some s'' ∧ ¬ Terminal s'' := by
  constructor
  · intro hclean
    exact (run_induction (fun _ _ _ => step_settled) (settled_start hnew) hclean hrun).terminal
  · intro e s' hstep hunclean
    have hinv : Inv s := run_invariant (fun _ _ _ => step_inv) (inv_start hnew) hrun
    obtain ⟨hreset, hin⟩ : e.IsReset ∧ s.ch.headerFilled ≠ 0 := by
      by_contra hno
      refine hunclean fun e' he' hreset => ?_
      obtain rfl := EndpointAction.readErr.inj he'
      by_contra hin
      exact hno ⟨hreset, hin⟩
    obtain ⟨s'', hrun', hres⟩ := transport_after_closed hinv hstep hreset hin
    refine ⟨s'', hrun', fun hterm => ?_⟩
    have hbad := hterm s.results [.error (.transport midFrame)] (by simp [hres]) _
      (List.mem_singleton_self _)
    exact absurd hbad (by simp)

/-- A message, and then a reset between two frames. -/
theorem closed_is_terminal_between_frames :
    ∃ ch s, FramedChannel.new 16 = some ch ∧
      run step (start ch) [.recv, .read [0, 0, 0, 1], .read [65], .recv,
        .readErr ⟨.connectionReset, "connection reset by peer"⟩, .recv, .read []] = some s ∧
      s.results = [.ok [65], .error .closed, .error .closed] ∧ Terminal s := by
  refine ⟨_, _, rfl, Option.eq_some_of_isSome (by decide), by decide, ?_⟩
  exact (closed_is_terminal (rfl : FramedChannel.new 16 = some _)
    (Option.eq_some_of_isSome (by decide))).1 (by decide)

/-- A reset behind the first byte of a header. -/
theorem closed_then_transport :
    ¬ ∀ (max : ℕ) (ch : FramedChannel), FramedChannel.new max = some ch →
      ∀ (as : List EndpointAction) (s : Endpoint), run step (start ch) as = some s →
        Terminal s := by
  intro h
  have hrun : ∃ ch s, FramedChannel.new 16 = some ch ∧ run step (start ch) [.recv, .read [0],
      .readErr ⟨.connectionReset, "connection reset by peer"⟩, .recv, .read []] = some s ∧
      s.results = [.error .closed, .error (.transport midFrame)] :=
    ⟨_, _, rfl, Option.eq_some_of_isSome (by decide), by decide⟩
  obtain ⟨ch, s, hnew, hrun, hres⟩ := hrun
  have hbad := h 16 ch hnew _ s hrun [] _ hres _ (List.mem_singleton_self _)
  exact absurd hbad (by decide)

end Endpoint

end FungiTransport
