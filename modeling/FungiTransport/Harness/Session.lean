import FungiTransport.Framed.Honest
import FungiTransport.Harness.Drive
import FungiTransport.Lib.Progress

/-!
# A session between the integration drivers

`dial_sequence` at one end of a connected pair and `echo_one_peer` at the other, with nothing
assumed of how the runtime interleaves them, how the pipe cuts the bytes or how little room it has.
The session cannot go wrong, cannot go on for ever, and cannot come to a standstill before both
drivers have returned `Ok`.
-/

namespace FungiTransport

open Lib FramedChannel

/-! ## A driver at an end of the pair -/

def Turn.isDone : Turn → Bool
  | .done _ => true
  | .send _ | .recv => false

/-- The call in progress. -/
def Pending.turn : Pending → Turn
  | .recv _ => .recv
  | .send msg _ => .send msg

/-- The call that an action starts. -/
def PairAction.starts : PairAction → Option Turn
  | .recv _ => some .recv
  | .send _ msg => some (.send msg)
  | _ => none

/-- What the driver wants, when its calls came to `log`. -/
def Driver.wants {σ : Type} (D : Driver σ) (log : List Resolved) : Turn := D.turn (D.after log)

/-- The owner of each end does what `wants` says; no driver drops a call. -/
def Follows (wants : Side → List Resolved → Turn) (s : FramedPair) : PairAction → Prop
  | .recv d => wants d (s.ends d).log = .recv
  | .send d msg => wants d (s.ends d).log = .send msg
  | .dropEnd d => (wants d (s.ends d).log).isDone = true
  | .dropRecv _ => False
  | .read _ _ | .readErr _ _ | .write _ _ | .writeErr _ _ | .flush _ => True

instance (wants : Side → List Resolved → Turn) (s : FramedPair) :
    ∀ a, Decidable (Follows wants s a)
  | .recv d => inferInstanceAs (Decidable (wants d (s.ends d).log = .recv))
  | .send d msg => inferInstanceAs (Decidable (wants d (s.ends d).log = .send msg))
  | .dropEnd d => inferInstanceAs (Decidable ((wants d (s.ends d).log).isDone = true))
  | .dropRecv _ => .isFalse id
  | .read _ _ | .readErr _ _ | .write _ _ | .writeErr _ _ | .flush _ => .isTrue trivial

/-- What a step of the call `t` makes of the end `e`. -/
inductive Called (e e' : FramedEnd) (t : Option Turn) : Prop
  | waits (hlog : e'.log = e.log) (hfut : ∀ f, e'.fut = some f → t = some f.turn)
  | resolves (o : Resolved) (hlog : e'.log = e.log ++ [o]) (hfut : e'.fut = none)
      (hturn : t = some o.turn)
      (hfail : ∀ m x, o = .sent m (.error x) → e.ch.maxMsgLen < m.length ∨ e.unsent ≠ [])

/-- The call that action `a` is a step of, at the end `e`. -/
def FramedEnd.call (e : FramedEnd) (a : PairAction) : Option Turn :=
  (e.fut.map Pending.turn).or a.starts

namespace FramedPair

lemma called_polled {e : FramedEnd} (bytes : Bytes) (p : FramedChannel × RecvPoll) :
    Called e ({ e with consumed := bytes }.polled p) (some .recv) := by
  obtain ⟨ch, x | w⟩ := p
  · exact .resolves (.received x) rfl rfl rfl fun m y h => by cases h
  · refine .waits rfl fun f hf => ?_
    obtain rfl : .recv w = f := Option.some.inj hf
    rfl

lemma called_sent {e : FramedEnd} {msg : Bytes} {p : SendPoll}
    (hfail : ∀ x, p = .ready (.error x) → e.ch.maxMsgLen < msg.length ∨ e.unsent ≠ []) :
    Called e (e.sent msg p) (some (.send msg)) := by
  cases p with
  | ready r =>
    refine .resolves (.sent msg r) rfl rfl rfl fun m x h => ?_
    obtain ⟨rfl, rfl⟩ := Resolved.sent.inj h
    exact hfail x rfl
  | pending w =>
    refine .waits rfl fun f hf => ?_
    obtain rfl : .send msg w = f := Option.some.inj hf
    rfl

/-- **What a step does to the calls** of its end. -/
lemma called_of_step {s s' : FramedPair} {a : PairAction} {d : Side} (hd : a.side = d)
    (hstep : s.step a = some s') : Called (s.ends d) (s'.ends d) ((s.ends d).call a) := by
  cases a with
  | recv d' =>
    obtain rfl : d' = d := hd
    obtain ⟨e, he, rfl⟩ := Option.map_eq_some_iff.mp hstep
    obtain ⟨rfl, -, hf⟩ := idle_eq_some he
    rw [ends_setEnd]
    simpa [FramedEnd.call, hf, PairAction.starts] using
      called_polled (s.ends d').consumed (s.ends d').ch.recvInner
  | read d' n =>
    obtain rfl : d' = d := hd
    simp only [step] at hstep
    split at hstep
    · rename_i w hf
      simp only [FramedEnd.call, hf, Option.map_some, Pending.turn]
      simp only [read] at hstep
      split at hstep
      · split at hstep
        · obtain rfl := Option.some.inj hstep
          rw [ends_setEnd]
          exact called_polled (s.ends d').consumed _
        · cases hstep
      · split at hstep
        · obtain rfl := Option.some.inj hstep
          simp only [setPipe, ends_setEnd]
          exact called_polled _ _
        · cases hstep
    · cases hstep
  | readErr d' err =>
    obtain rfl : d' = d := hd
    simp only [step] at hstep
    split at hstep
    · rename_i w hf
      simp only [FramedEnd.call, hf, Option.map_some, Pending.turn]
      split at hstep
      · cases hstep
      · obtain rfl := Option.some.inj hstep
        rw [ends_setEnd]
        exact called_polled (s.ends d').consumed _
    · cases hstep
  | send d' msg =>
    obtain rfl : d' = d := hd
    obtain ⟨e, he, rfl⟩ := Option.map_eq_some_iff.mp hstep
    obtain ⟨rfl, -, hf⟩ := idle_eq_some he
    rw [ends_setEnd]
    have hfail : ∀ x, (s.ends d').ch.sendInner msg = .ready (.error x) →
        (s.ends d').ch.maxMsgLen < msg.length ∨ (s.ends d').unsent ≠ [] := fun x hx => by
      simp only [sendInner] at hx
      split at hx
      · rename_i hlong
        exact .inl hlong
      · cases hx
    simpa [FramedEnd.call, hf, PairAction.starts] using called_sent hfail
  | write d' n =>
    obtain rfl : d' = d := hd
    simp only [step] at hstep
    split at hstep
    · rename_i msg w hf
      simp only [FramedEnd.call, hf, Option.map_some, Pending.turn]
      simp only [write] at hstep
      split at hstep
      · obtain ⟨p, hres, rfl⟩ := Option.map_eq_some_iff.mp hstep
        simp only [setPipe, ends_setEnd]
        refine called_sent fun x hx => ?_
        obtain ⟨_, w', -, rfl, -⟩ | ⟨_, herr, -⟩ | ⟨herr, -⟩ := FramedEnd.resumed_cases hres
        · cases hx
        · cases herr
        · cases herr
      · cases hstep
    · cases hstep
  | writeErr d' err =>
    obtain rfl : d' = d := hd
    simp only [step] at hstep
    split at hstep
    · rename_i msg w hf
      simp only [FramedEnd.call, hf, Option.map_some, Pending.turn]
      split at hstep
      · cases hstep
      · rename_i hdead
        rw [not_or] at hdead
        obtain ⟨p, -, rfl⟩ := Option.map_eq_some_iff.mp hstep
        rw [ends_setEnd]
        exact called_sent fun x hx => .inr (FramedEnd.unsent_ne_nil hf hdead.2)
    · cases hstep
  | flush d' =>
    obtain rfl : d' = d := hd
    simp only [step] at hstep
    split at hstep
    · rename_i msg w hf
      simp only [FramedEnd.call, hf, Option.map_some, Pending.turn]
      obtain ⟨p, hres, rfl⟩ := Option.map_eq_some_iff.mp hstep
      rw [ends_setEnd, (FramedEnd.unsent_flushed hf hres).2.2]
      exact called_sent fun x hx => by cases hx
    · cases hstep
  | dropRecv d' =>
    obtain rfl : d' = d := hd
    simp only [step] at hstep
    split at hstep
    · obtain rfl := Option.some.inj hstep
      rw [ends_setEnd]
      exact .waits rfl fun f hf => by cases hf
    · cases hstep
  | dropEnd d' =>
    obtain rfl : d' = d := hd
    obtain ⟨e, he, rfl⟩ := Option.map_eq_some_iff.mp hstep
    obtain ⟨rfl, -, hf⟩ := idle_eq_some he
    rw [ends_setEnd]
    exact .waits rfl fun f hf' => absurd (hf.symm.trans hf') (by simp)

end FramedPair

/-- The driver `D` owns the end: its calls are those that it wanted, the one in progress included,
and the end is gone only once it has returned. -/
structure Owns {σ : Type} (D : Driver σ) (e : FramedEnd) : Prop where
  plays : D.Plays e.log
  fut : ∀ f, e.fut = some f → D.wants e.log = f.turn
  dead : e.alive = false → (D.wants e.log).isDone = true

lemma owns_new {σ : Type} (D : Driver σ) (ch : FramedChannel) : Owns D (.new ch) where
  plays := .nil
  fut := fun f h => by cases h
  dead := fun h => by cases h

/-- **The step lemma** of a driver. -/
lemma owns_of_step {σ : Type} {D : Driver σ} {wants : Side → List Resolved → Turn} {s s' : FramedPair}
    {a : PairAction} {d : Side} (hd : a.side = d) (hready : FramedPair.Ready (s.ends d))
    (hD : Owns D (s.ends d)) (hwants : wants d = D.wants) (hfollows : Follows wants s a)
    (hstep : s.step a = some s') : Owns D (s'.ends d) := by
  have hcalled := FramedPair.called_of_step hd hstep
  obtain ⟨e, taken, rest, given, -, hs', hm⟩ := FramedPair.moves_of_step hd hready hstep
  have he : s'.ends d = e := by rw [hs', FramedPair.ends_moved]
  -- the call is the one that the driver wants
  have hcall : ∀ t, (s.ends d).call a = some t → D.wants (s.ends d).log = t := by
    intro t ht
    rcases hf : (s.ends d).fut with _ | f
    · have hstarts : a.starts = some t := by simpa [FramedEnd.call, hf] using ht
      cases a with
      | recv d' =>
        obtain rfl : d' = d := hd
        obtain rfl : .recv = t := Option.some.inj hstarts
        exact (congrFun hwants _).symm.trans hfollows
      | send d' msg =>
        obtain rfl : d' = d := hd
        obtain rfl : .send msg = t := Option.some.inj hstarts
        exact (congrFun hwants _).symm.trans hfollows
      | _ => cases hstarts
    · obtain rfl : f.turn = t := by simpa [FramedEnd.call, hf] using ht
      exact hD.fut f hf
  rw [he] at hcalled ⊢
  cases hcalled with
  | waits hlog hfut =>
    refine ⟨hlog ▸ hD.plays, fun f hf => hlog ▸ hcall _ (hfut f hf), fun hdead => ?_⟩
    rw [(hm.alive hdead).2.1] at hfollows
    rw [hlog, ← hwants]
    exact hfollows
  | resolves o hlog hfut hturn _ =>
    refine ⟨hlog ▸ .call hD.plays (hcall _ hturn), fun f hf => ?_, fun hdead => ?_⟩
    · rw [hfut] at hf
      cases hf
    · have hlen := congrArg List.length (hlog.symm.trans (hm.alive hdead).2.2)
      simp at hlen

/-! ## What the drivers have sent and received -/

/-- The message that a `recv` returned. -/
def Resolved.got? : Resolved → Option Bytes
  | .received (.ok m) => some m
  | .received (.error _) | .sent _ _ => none

section Logs

variable (m : Bytes) (ms : List Bytes)

@[simp] lemma attempted?_received (r : Except RecvError Bytes) :
    Resolved.attempted? (.received r) = none := rfl

@[simp] lemma attempted?_ok (u : Unit) : Resolved.attempted? (.sent m (.ok u)) = some m := rfl

@[simp] lemma got?_sent (r : Except SendError Unit) : Resolved.got? (.sent m r) = none := rfl

@[simp] lemma got?_ok : Resolved.got? (.received (.ok m)) = some m := rfl

@[simp] lemma got?_error (e : RecvError) : Resolved.got? (.received (.error e)) = none := rfl

@[simp] lemma attempted_rounds : (rounds ms).filterMap Resolved.attempted? = ms := by
  simp [rounds, List.filterMap_flatMap, List.filterMap_cons]

@[simp] lemma got_rounds : (rounds ms).filterMap Resolved.got? = ms := by
  simp [rounds, List.filterMap_flatMap, List.filterMap_cons]

@[simp] lemma attempted_echoes : (echoes ms).filterMap Resolved.attempted? = ms := by
  simp [echoes, List.filterMap_flatMap, List.filterMap_cons]

@[simp] lemma got_echoes : (echoes ms).filterMap Resolved.got? = ms := by
  simp [echoes, List.filterMap_flatMap, List.filterMap_cons]

end Logs

lemma FramedEnd.received_eq (e : FramedEnd) : e.received = e.log.filterMap Resolved.got? := by
  have hgot : ∀ o, (Resolved.received? o).bind Except.toOption = Resolved.got? o := by
    rintro (⟨m, r⟩ | ⟨e | m⟩) <;> rfl
  simp [received, endpoint, Endpoint.received, List.filterMap_filterMap, hgot]

lemma attempted?_failed (m : Bytes) (e : SendError) :
    Resolved.attempted? (.sent m (.error e)) = none ∨
      Resolved.attempted? (.sent m (.error e)) = some m := by
  cases e <;> simp [Resolved.attempted?]

/-- The dialer sends the messages of its sequence, in order. -/
lemma dialer_attempted {ms : List Bytes} {e : FramedEnd} (h : Owns (dialSequence ms) e) :
    e.attempted <+: ms := by
  have hat := dialAt_of_plays h.plays
  have hwants := h.fut
  simp only [Driver.wants] at hwants
  generalize (dialSequence ms).after e.log = st at hat hwants
  generalize hlog : e.log = log at hat
  -- a call in progress is the one that the driver wants
  have hcur : ∀ t, (dialSequence ms).turn st = t → (∀ m, t ≠ .send m) →
      e.fut.bind Pending.msg? = none := by
    intro t ht hne
    rcases hf : e.fut with _ | w | ⟨m, w⟩
    · rfl
    · rfl
    · exact absurd (ht.symm.trans (hwants _ hf)) (hne m)
  cases hat with
  | @sending past rest m hms =>
    rcases hf : e.fut with _ | f
    · exact ⟨m :: rest, by simp [FramedEnd.attempted, hlog, hf, hms]⟩
    · cases f with
      | recv w => cases hwants _ hf
      | send m' w =>
        obtain rfl : m = m' := Turn.send.inj (hwants _ hf)
        exact ⟨rest, by simp [FramedEnd.attempted, hlog, hf, Pending.msg?, hms]⟩
  | @receiving past rest m hms =>
    refine ⟨rest, ?_⟩
    simp [FramedEnd.attempted, hlog, hcur .recv rfl (by simp), hms]
  | finished =>
    simp [FramedEnd.attempted, hlog, hcur (.done (.ok ())) rfl (by simp)]
  | @sendFailed past rest m hms err =>
    have hnone := hcur _ rfl (fun m => by simp [dialSequence])
    rcases attempted?_failed m err with hr | hr
    · exact ⟨m :: rest, by simp [FramedEnd.attempted, hlog, hnone, hms, hr]⟩
    · exact ⟨rest, by simp [FramedEnd.attempted, hlog, hnone, hms, hr]⟩
  | @recvFailed past rest m hms err | @mismatch past rest m hms back hne =>
    have hnone := hcur _ rfl (fun m => by simp [dialSequence])
    exact ⟨rest, by simp [FramedEnd.attempted, hlog, hnone, hms]⟩

/-- The echo server sends what it received, in order. -/
lemma echo_attempted {e : FramedEnd} (h : Owns echoOnePeer e) : e.attempted <+: e.received := by
  have hat := echoAt_of_plays h.plays
  have hwants := h.fut
  rw [FramedEnd.received_eq]
  simp only [Driver.wants] at hwants
  generalize echoOnePeer.after e.log = st at hat hwants
  generalize hlog : e.log = log at hat
  have hcur : ∀ t, echoOnePeer.turn st = t → (∀ m, t ≠ .send m) →
      e.fut.bind Pending.msg? = none := by
    intro t ht hne
    rcases hf : e.fut with _ | w | ⟨m, w⟩
    · rfl
    · rfl
    · exact absurd (ht.symm.trans (hwants _ hf)) (hne m)
  cases hat with
  | receiving ms => simp [FramedEnd.attempted, hlog, hcur .recv rfl (by simp)]
  | replying ms m =>
    rcases hf : e.fut with _ | f
    · simp [FramedEnd.attempted, List.filterMap_cons, hlog, hf]
    · cases f with
      | recv w => cases hwants _ hf
      | send m' w =>
        obtain rfl : m = m' := Turn.send.inj (hwants _ hf)
        simp [FramedEnd.attempted, List.filterMap_cons, hlog, hf, Pending.msg?]
  | left ms err => simp [FramedEnd.attempted, List.filterMap_cons, hlog, hcur (.done (.ok ())) rfl (by simp)]
  | failed ms m err =>
    have hnone := hcur _ rfl (fun m => by simp [echoOnePeer])
    rcases attempted?_failed m err with hr | hr
    · simp [FramedEnd.attempted, List.filterMap_cons, hlog, hnone, hr]
    · simp [FramedEnd.attempted, List.filterMap_cons, hlog, hnone, hr]

/-! ## What always holds of a session -/

/-- What the owner of each end wants: end `a` is the dialer's, end `b` the echo server's. -/
def drivers (ms : List Bytes) : Side → List Resolved → Turn
  | .a => (dialSequence ms).wants
  | .b => echoOnePeer.wants

/-- What holds once the dialer has left. -/
structure Left (ms : List Bytes) (s : FramedPair) : Prop where
  dialed : (s.ends .a).log = rounds ms
  answered : (s.ends .b).attempted = ms
  silent : (s.ends .b).unsent = []
  clean : ∀ text, echoOnePeer.after (s.ends .b).log ≠ .done (.error text)

/-- What always holds of a session over the messages `ms`. -/
structure Session (ms : List Bytes) (max : Side → ℕ) (s : FramedPair) : Prop where
  fits : ∀ m ∈ ms, ∀ d, m.length ≤ max d
  room : 0 < s.room
  inv : s.Inv max
  caused : ∀ d, s.Fair max d → s.Caused max d
  dials : Owns (dialSequence ms) (s.ends .a)
  serves : Owns echoOnePeer (s.ends .b)
  whole : ∀ d, (s.ends d.other).consumed ++ s.pipes d ++ (s.ends d).unsent =
    (s.ends d).attempted.flatMap (frame 4)
  left : (s.ends .a).alive = false → Left ms s

/-- What is received is the first of what was sent, all the way round. -/
lemma carried {ms : List Bytes} {max : Side → ℕ} {s : FramedPair} (hinv : s.Inv max)
    (hdials : Owns (dialSequence ms) (s.ends .a)) (hserves : Owns echoOnePeer (s.ends .b)) :
    (s.ends .a).received <+: (s.ends .b).attempted ∧
      (s.ends .b).attempted <+: (s.ends .b).received ∧
      (s.ends .b).received <+: (s.ends .a).attempted ∧ (s.ends .a).attempted <+: ms :=
  ⟨hinv.inOrder .b, echo_attempted hserves, hinv.inOrder .a, dialer_attempted hdials⟩

namespace Session

variable {ms : List Bytes} {max : Side → ℕ} {s : FramedPair}

lemma received_prefix (h : Session ms max s) : (s.ends .b).received <+: ms := by
  obtain ⟨-, -, hrecv, hsent⟩ := carried h.inv h.dials h.serves
  exact hrecv.trans hsent

lemma attempted_prefix (h : Session ms max s) (d : Side) : (s.ends d).attempted <+: ms := by
  obtain ⟨-, hecho, hrecv, hsent⟩ := carried h.inv h.dials h.serves
  cases d with
  | a => exact hsent
  | b => exact (hecho.trans hrecv).trans hsent

lemma fair (h : Session ms max s) {d : Side} (halive : (s.ends d.other).alive = true) :
    s.Fair max d :=
  ⟨halive, fun m hm => h.fits m ((h.attempted_prefix d.other).subset hm) d⟩

/-- The echo server goes on as long as the dialer lives. -/
lemma echo_open (h : Session ms max s) (halive : (s.ends .a).alive = true)
    (r : Except String Unit) : echoOnePeer.after (s.ends .b).log ≠ .done r := by
  intro hdone
  obtain ⟨-, hrecv, hsent⟩ := h.caused .b (h.fair halive)
  have hgot := h.received_prefix
  have hat := echoAt_of_plays h.serves.plays
  rw [hdone] at hat
  rw [FramedEnd.received_eq] at hgot
  generalize (s.ends .b).log = log at hat hrecv hsent hgot
  cases hat with
  | left past e => exact hrecv e (by simp)
  | failed past m e =>
    have hm : m ∈ ms := hgot.subset (by simp)
    exact absurd (h.fits m hm .b) (by have := (hsent m e (by simp)).2; omega)

lemma echo_alive (h : Session ms max s) (halive : (s.ends .a).alive = true) :
    (s.ends .b).alive = true := by
  by_contra hdead
  have hdone := h.serves.dead (by simpa using hdead)
  have hopen := h.echo_open halive
  simp only [Driver.wants] at hdone
  generalize echoOnePeer.after (s.ends .b).log = st at hdone hopen
  cases st with
  | receiving | replying m => exact absurd hdone Bool.false_ne_true
  | done r => exact hopen r rfl

/-- The dialer never fails. -/
lemma dial_clean (h : Session ms max s) (text : String) :
    (dialSequence ms).after (s.ends .a).log ≠ .done (.error text) := by
  intro hdone
  by_cases halive : (s.ends .a).alive = true
  · obtain ⟨-, hrecv, hsent⟩ := h.caused .a (h.fair (h.echo_alive halive))
    obtain ⟨hback, hecho, hthere, hall⟩ := carried h.inv h.dials h.serves
    have hgot : (s.ends .a).received <+: ms := ((hback.trans hecho).trans hthere).trans hall
    have hat := dialAt_of_plays h.dials.plays
    rw [hdone] at hat
    rw [FramedEnd.received_eq] at hgot
    generalize (s.ends .a).log = log at hat hrecv hsent hgot
    cases hat with
    | @sendFailed past rest m hms e =>
      have hm : m ∈ ms := by simp [hms]
      exact absurd (h.fits m hm .a) (by have := (hsent m e (by simp)).2; omega)
    | recvFailed hms e => exact hrecv e (by simp)
    | @mismatch past rest m hms back hne =>
      rw [hms] at hgot
      simp [List.filterMap_cons, hne] at hgot
  · have hlog := (h.left (by simpa using halive)).dialed
    rw [hlog, after_rounds (List.append_nil ms).symm] at hdone
    simp [DialState.loop] at hdone

/-- A dialer that has returned has had every message back. -/
lemma dialed (h : Session ms max s)
    (hdone : ((dialSequence ms).wants (s.ends .a).log).isDone = true) :
    (s.ends .a).log = rounds ms := by
  have hat := dialAt_of_plays h.dials.plays
  have hclean := h.dial_clean
  simp only [Driver.wants] at hdone
  generalize (dialSequence ms).after (s.ends .a).log = st at hat hdone hclean
  generalize (s.ends .a).log = log at hat
  cases hat with
  | sending hms | receiving hms => simp [dialSequence, Turn.isDone] at hdone
  | finished => rfl
  | sendFailed hms e | recvFailed hms e | mismatch hms hne => exact absurd rfl (hclean _)

/-- Where everything sent has been received, nothing is on its way. -/
lemma nothing_ahead (h : Session ms max s) {d : Side}
    (hall : (s.ends d.other).received = (s.ends d).attempted) :
    s.pipes d = [] ∧ (s.ends d).unsent = [] := by
  have hwhole := congrArg List.length (h.whole d)
  rw [(h.inv.ends d.other).consumed, hall] at hwhole
  simp only [List.length_append] at hwhole
  exact ⟨List.length_eq_zero_iff.mp (by omega), List.length_eq_zero_iff.mp (by omega)⟩

/-- When the dialer has had every message back, the echo server has nothing left to send. -/
lemma answered (h : Session ms max s) (hdialed : (s.ends .a).log = rounds ms) :
    (s.ends .b).attempted = ms ∧ (s.ends .b).unsent = [] := by
  have hgot : (s.ends .a).received = ms := by rw [FramedEnd.received_eq, hdialed, got_rounds]
  have hle : ms.length ≤ (s.ends .b).attempted.length := by
    rw [← hgot]
    exact (carried h.inv h.dials h.serves).1.length_le
  have hall : (s.ends .b).attempted = ms := (h.attempted_prefix .b).eq_of_length_le hle
  exact ⟨hall, (h.nothing_ahead (d := .b) (hgot.trans hall.symm)).2⟩

/-- After the dialer has left, no `send` of the echo server fails. -/
lemma clean_of_step {s' : FramedPair} {a : PairAction} (h : Session ms max s) (hleft : Left ms s)
    (hd : a.side = .b) (hserves : echoOnePeer.Plays (s'.ends .b).log) (hstep : s.step a = some s')
    (text : String) : echoOnePeer.after (s'.ends .b).log ≠ .done (.error text) := by
  intro hfail
  cases FramedPair.called_of_step hd hstep with
  | waits hlog _ => exact hleft.clean text (hlog ▸ hfail)
  | resolves o hlog _ _ herr =>
    have hat := echoAt_of_plays hserves
    rw [hfail] at hat
    generalize hall : (s'.ends .b).log = log at hat
    cases hat with
    | failed past m x =>
      rw [hlog, List.append_cons (echoes past)] at hall
      obtain ⟨hpast, ho⟩ := List.append_inj' hall rfl
      rcases herr m x (List.singleton_inj.mp ho) with hlong | hunsent
      · have hmem : m ∈ (s.ends .b).received := by
          rw [FramedEnd.received_eq, hpast]
          simp
        have hfit := h.fits m (h.received_prefix.subset hmem) .b
        rw [(h.inv.ends .b).maxMsgLen] at hlong
        omega
      · exact hunsent hleft.silent

/-- **The step lemma** of a session. -/
lemma step {s' : FramedPair} {a : PairAction} (h : Session ms max s)
    (hfollows : Follows (drivers ms) s a) (hstep : s.step a = some s') : Session ms max s' := by
  have hinv := FramedPair.step_inv h.inv hstep
  have hcaused := FramedPair.step_caused h.inv h.caused hstep
  generalize hd : a.side = d
  have hready := (h.inv.ends d).ready
  obtain ⟨e, taken, rest, given, hpipe, hs', hm⟩ := FramedPair.moves_of_step hd hready hstep
  obtain ⟨new, hnew, -, hflow⟩ := hm.flow
  have hsame : s'.ends d.other = s.ends d.other := by rw [hs', FramedPair.ends_moved_other]
  have he : s'.ends d = e := by rw [hs', FramedPair.ends_moved]
  -- no write fails: nothing is left to be written when the dialer leaves, and it leaves first
  have hgiven : given ++ e.unsent = (s.ends d).unsent ++ new.flatMap (frame 4) := by
    refine hflow.elim id fun hfailed => ?_
    cases d with
    | a =>
      have hdead : (s.ends .b).alive = false := hfailed.1
      exact absurd (h.echo_alive hm.lives) (by simp [hdead])
    | b => exact absurd (h.left hfailed.1).silent hfailed.2
  have hwhole : ∀ x, (s'.ends x.other).consumed ++ s'.pipes x ++ (s'.ends x).unsent =
      (s'.ends x).attempted.flatMap (frame 4) := by
    refine FramedPair.forall_side d ?_ ?_
    · rw [hsame, he, hs', FramedPair.pipes_moved, hnew, List.flatMap_append, ← h.whole d]
      simp only [List.append_assoc, hgiven]
    · have hother := h.whole d.other
      rw [Side.other_other, hpipe] at hother
      rw [Side.other_other, hsame, he, hs', FramedPair.pipes_moved_other, hm.consumed, ← hother]
      simp only [List.append_assoc]
  have hroom : 0 < s'.room := by
    rw [hs']
    exact h.room
  cases d with
  | a =>
    have hb : s'.ends .b = s.ends .b := hsame
    refine ⟨h.fits, hroom, hinv, hcaused, owns_of_step hd hready h.dials rfl hfollows hstep,
      hb ▸ h.serves, hwhole, fun hdead => ?_⟩
    -- the dialer leaves
    rw [he] at hdead
    obtain ⟨-, ha, hlog⟩ := hm.alive hdead
    rw [ha] at hfollows
    have hdialed := h.dialed hfollows
    obtain ⟨hanswered, hsilent⟩ := h.answered hdialed
    refine ⟨by rw [he, hlog, hdialed], by rw [hb, hanswered], by rw [hb, hsilent], fun text => ?_⟩
    rw [hb]
    exact h.echo_open hm.lives _
  | b =>
    have ha : s'.ends .a = s.ends .a := hsame
    have hdials : Owns (dialSequence ms) (s'.ends .a) := ha ▸ h.dials
    have hserves := owns_of_step hd hready h.serves rfl hfollows hstep
    refine ⟨h.fits, hroom, hinv, hcaused, hdials, hserves, hwhole, fun hdead => ?_⟩
    -- the dialer has left already, and the echo server begins no new message
    have hleft := h.left (ha ▸ hdead)
    obtain rfl : new = [] := by
      obtain ⟨-, hecho, hthere, hall⟩ := carried hinv hdials hserves
      have hle := ((hecho.trans hthere).trans hall).length_le
      rw [he, hnew, hleft.answered, List.length_append] at hle
      exact List.length_eq_zero_iff.mp (by omega)
    rw [hleft.silent, List.flatMap_nil, List.append_nil, List.append_eq_nil_iff] at hgiven
    exact ⟨by rw [ha, hleft.dialed], by rw [he, hnew, hleft.answered, List.append_nil],
      by rw [he, hgiven.2], h.clean_of_step hleft hd hserves.plays hstep⟩

end Session

/-! ## A session comes to an end -/

/-- What a session has got done: turns taken, and bytes written and read. -/
def FramedPair.work (s : FramedPair) : ℕ :=
  (s.ends .a).turns + (s.ends .b).turns + 2 * ((s.ends .a).consumed.length +
    (s.ends .b).consumed.length) + ((s.pipes .a).length + (s.pipes .b).length)

/-- What a session over the messages `ms` may still have to do. -/
def toDo (ms : List Bytes) (s : FramedPair) : ℕ :=
  8 * ms.length + 4 * (ms.flatMap (frame 4)).length + 4 - s.work

/-- Every step gets something done. -/
lemma work_lt {wants : Side → List Resolved → Turn} {s s' : FramedPair} {a : PairAction}
    (hready : FramedPair.Ready (s.ends a.side)) (hfollows : Follows wants s a)
    (hstep : s.step a = some s') : s.work < s'.work := by
  have hne : a ≠ .dropRecv a.side := by
    intro ha
    rw [ha] at hfollows
    exact hfollows
  obtain ⟨e, taken, rest, given, hpipe, hs', hm⟩ := FramedPair.moves_of_step rfl hready hstep
  generalize a.side = d at *
  have hprogress := hm.progress hne
  have hconsumed := congrArg List.length hm.consumed
  have hrest := congrArg List.length hpipe
  have hsame : s'.ends d.other = s.ends d.other := by rw [hs', FramedPair.ends_moved_other]
  have he : s'.ends d = e := by rw [hs', FramedPair.ends_moved]
  have hgiven : (s'.pipes d).length = (s.pipes d).length + given.length := by
    rw [hs', FramedPair.pipes_moved, List.length_append]
  have htaken : s'.pipes d.other = rest := by rw [hs', FramedPair.pipes_moved_other]
  rw [List.length_append] at hconsumed hrest
  cases d with
  | a | b =>
    simp only [Side.other] at hsame htaken hrest
    simp only [FramedPair.work, hsame, he, hgiven, htaken]
    omega

lemma Owns.turns_le {σ : Type} {D : Driver σ} {e : FramedEnd} (h : Owns D e) :
    e.turns ≤ 2 * e.log.length + 1 := by
  have hfut : e.fut.toList.length ≤ 1 := Option.length_toList_le
  rcases halive : e.alive with _ | _
  · -- a driver that has returned has no call in progress
    have hdone := h.dead halive
    rcases hf : e.fut with _ | f
    · simp [FramedEnd.turns, hf, halive]
    · rw [h.fut f hf] at hdone
      cases f <;> cases hdone
  · simp only [FramedEnd.turns, halive, if_true]
    omega

namespace Session

variable {ms : List Bytes} {max : Side → ℕ} {s : FramedPair}

lemma dialer_turns (h : Session ms max s) : (s.ends .a).turns ≤ 4 * ms.length + 1 := by
  have hle := h.dials.turns_le
  have hat := dialAt_of_plays h.dials.plays
  generalize (dialSequence ms).after (s.ends .a).log = st at hat
  generalize (s.ends .a).log = log at hat hle
  have hrounds : ∀ past, (rounds past).length = 2 * past.length := fun past => by
    simp [rounds, List.length_flatMap]
    omega
  cases hat with
  | sending hms | receiving hms | sendFailed hms e | recvFailed hms e | mismatch hms hne =>
    simp only [List.length_append, hrounds, List.length_cons, List.length_nil] at hle
    simp only [hms, List.length_append, List.length_cons]
    omega
  | finished =>
    rw [hrounds] at hle
    omega

lemma echo_turns (h : Session ms max s) : (s.ends .b).turns ≤ 4 * ms.length + 3 := by
  have hle := h.serves.turns_le
  have hgot := h.received_prefix.length_le
  have hat := echoAt_of_plays h.serves.plays
  rw [FramedEnd.received_eq] at hgot
  generalize echoOnePeer.after (s.ends .b).log = st at hat
  generalize (s.ends .b).log = log at hat hle hgot
  have hechoes : ∀ past, (echoes past).length = 2 * past.length := fun past => by
    simp [echoes, List.length_flatMap]
    omega
  cases hat with
  | receiving past | replying past m | left past e | failed past m e =>
    simp only [List.length_append, hechoes, List.length_cons, List.length_nil] at hle
    simp [List.filterMap_cons] at hgot
    omega

/-- What a session can get done. -/
lemma work_le (h : Session ms max s) :
    s.work ≤ 8 * ms.length + 4 * (ms.flatMap (frame 4)).length + 4 := by
  have hbytes : ∀ d, (s.ends d.other).consumed.length + (s.pipes d).length ≤
      (ms.flatMap (frame 4)).length := by
    intro d
    obtain ⟨behind, hbehind⟩ := h.attempted_prefix d
    have hwhole := congrArg List.length (h.whole d)
    simp only [← hbehind, List.flatMap_append, List.length_append] at hwhole ⊢
    omega
  have ha := hbytes .a
  have hb := hbytes .b
  have hturns := h.dialer_turns
  have hturns' := h.echo_turns
  simp only [FramedPair.work, Side.other] at ha hb ⊢
  omega

/-- Every step gets something done, and there is only so much to do. -/
lemma step_toDo {s' : FramedPair} {a : PairAction} (h : Session ms max s)
    (hfollows : Follows (drivers ms) s a) (hstep : s.step a = some s') :
    Session ms max s' ∧ toDo ms s' < toDo ms s := by
  have hlt := work_lt (h.inv.ends a.side).ready hfollows hstep
  have hle := (h.step hfollows hstep).work_le
  refine ⟨h.step hfollows hstep, ?_⟩
  simp only [toDo]
  omega

end Session

/-! ## Where a session can come to a standstill -/

section Stuck

variable {wants : Side → List Resolved → Turn} {s : FramedPair}
  (h : Stuck FramedPair.step (Follows wants) s)

include h

/-- An end that lives has a call in progress. -/
lemma fut_of_stuck {d : Side} (halive : (s.ends d).alive = true) : ∃ f, (s.ends d).fut = some f := by
  rcases hf : (s.ends d).fut with _ | f
  · have hidle : s.idle d = some (s.ends d) := by simp [FramedPair.idle, halive, hf]
    cases hturn : wants d (s.ends d).log with
    | recv =>
      have hnone : s.step (.recv d) = none := h.step_eq_none hturn
      simp [FramedPair.step, hidle] at hnone
    | send msg =>
      have hnone : s.step (.send d msg) = none := h.step_eq_none hturn
      simp [FramedPair.step, hidle] at hnone
    | done r =>
      have hdone : (wants d (s.ends d).log).isDone = true := by rw [hturn]; rfl
      have hnone : s.step (.dropEnd d) = none := h.step_eq_none hdone
      simp [FramedPair.step, hidle] at hnone
  · exact ⟨f, rfl⟩

/-- A `send` in progress waits for room in the pipe. -/
lemma send_of_stuck {d : Side} {msg : Bytes} {w : SendAwait} (hroom : 0 < s.room)
    (hok : (s.ends d).SendOk) (hf : (s.ends d).fut = some (.send msg w)) :
    s.pipes d ≠ [] ∧ (s.ends d).unsent ≠ [] := by
  obtain ⟨rfl | hne, -⟩ := hok msg w hf
  · have hnone : s.step (.flush d) = none := h.step_eq_none trivial
    simp [FramedPair.step, hf, sendResume] at hnone
  · refine ⟨fun hempty => ?_, FramedEnd.unsent_ne_nil hf hne⟩
    obtain ⟨p, hp⟩ : ∃ p, sendResume w (.wrote 1) = some p := by
      cases w with
      | flush => exact absurd rfl hne
      | writeMsg left => exact ⟨_, rfl⟩
      | writePrefix left m =>
        simp only [sendResume]
        split <;> exact ⟨_, rfl⟩
    have hlen := List.length_pos_of_ne_nil hne
    have hn : (1 ≤ 1 ∧ 1 ≤ (sendBuffer w).length) ∧ (s.pipes d).length + 1 ≤ s.room := by
      rw [hempty]
      exact ⟨⟨le_rfl, hlen⟩, hroom⟩
    have hnone : s.step (.write d 1) = none := h.step_eq_none trivial
    simp only [FramedPair.step, hf, FramedPair.write, if_pos hn, hp, Option.map_some] at hnone
    cases hnone

/-- A `recv` in progress waits for bytes. -/
lemma recv_of_stuck {d : Side} {w : RecvAwait} (hbuf : 1 ≤ (s.ends d).ch.recvBuffer w)
    (hf : (s.ends d).fut = some (.recv w)) :
    s.pipes d.other = [] ∧ (s.ends d.other).alive = true := by
  rcases hpipe : s.pipes d.other with _ | ⟨b, bs⟩
  · refine ⟨rfl, ?_⟩
    by_contra hdead
    have hnone : s.step (.read d 0) = none := h.step_eq_none trivial
    simp [FramedPair.step, hf, FramedPair.read, hpipe, hdead] at hnone
  · have hn : 1 ≤ 1 ∧ 1 ≤ (b :: bs).length ∧ 1 ≤ (s.ends d).ch.recvBuffer w :=
      ⟨le_rfl, by simp, hbuf⟩
    have hnone : s.step (.read d 1) = none := h.step_eq_none trivial
    simp only [FramedPair.step, hf, FramedPair.read, hpipe, if_neg (List.cons_ne_nil b bs),
      if_pos hn] at hnone
    cases hnone

end Stuck

namespace Session

variable {ms : List Bytes} {max : Side → ℕ} {s : FramedPair}

/-- A dialer with a call in progress has one message not back yet. -/
lemma dialer_behind (h : Session ms max s) {f : Pending} (hf : (s.ends .a).fut = some f) :
    (s.ends .a).attempted.length = (s.ends .a).received.length + 1 := by
  have hat := dialAt_of_plays h.dials.plays
  have hwants := h.dials.fut f hf
  rw [FramedEnd.received_eq]
  simp only [Driver.wants] at hwants
  generalize (dialSequence ms).after (s.ends .a).log = st at hat hwants
  generalize hlog : (s.ends .a).log = log at hat
  cases hat with
  | @sending past rest m hms =>
    cases f with
    | recv w => cases hwants
    | send m' w => simp [FramedEnd.attempted, hlog, hf, Pending.msg?]
  | @receiving past rest m hms =>
    cases f with
    | send m' w => cases hwants
    | recv w => simp [FramedEnd.attempted, hlog, hf, Pending.msg?, List.filterMap_cons]
  | finished | sendFailed _ _ | recvFailed _ _ | mismatch _ _ => cases f <;> cases hwants

/-- An echo server with a call in progress is sending what it received last, or waits. -/
lemma echo_level (h : Session ms max s) {f : Pending} (hf : (s.ends .b).fut = some f) :
    (s.ends .b).attempted = (s.ends .b).received := by
  have hat := echoAt_of_plays h.serves.plays
  have hwants := h.serves.fut f hf
  rw [FramedEnd.received_eq]
  simp only [Driver.wants] at hwants
  generalize echoOnePeer.after (s.ends .b).log = st at hat hwants
  generalize hlog : (s.ends .b).log = log at hat
  cases hat with
  | receiving past =>
    cases f with
    | send m' w => cases hwants
    | recv w => simp [FramedEnd.attempted, hlog, hf, Pending.msg?]
  | replying past m =>
    cases f with
    | recv w => cases hwants
    | send m' w =>
      obtain rfl : m = m' := Turn.send.inj hwants
      simp [FramedEnd.attempted, hlog, hf, Pending.msg?, List.filterMap_cons]
  | left _ _ | failed _ _ _ => cases f <;> cases hwants

/-- A `recv` in progress has room for a byte. -/
lemma one_le_buffer (h : Session ms max s) {d : Side} {w : RecvAwait}
    (hf : (s.ends d).fut = some (.recv w)) : 1 ≤ (s.ends d).ch.recvBuffer w := by
  obtain ⟨hp, hw⟩ := (h.inv.ends d).awaits hf
  exact Receiver.one_le_recvBuffer ((h.inv.ends d).readState hp) hw

/-- Where nothing more can happen, a call in progress waits for the other end. -/
lemma waits_of_stuck (h : Session ms max s)
    (hstuck : Stuck FramedPair.step (Follows (drivers ms)) s) {d : Side} {f : Pending}
    (hf : (s.ends d).fut = some f) :
    (s.pipes d.other = [] ∧ (s.ends d.other).alive = true ∧ (s.ends d).unsent = []) ∨
      (s.pipes d ≠ [] ∧ (s.ends d).unsent ≠ []) := by
  cases f with
  | recv w =>
    obtain ⟨hpipe, halive⟩ := recv_of_stuck hstuck (h.one_le_buffer hf) hf
    exact .inl ⟨hpipe, halive, FramedEnd.unsent_of_not_send (by simp [hf, Pending.msg?])⟩
  | send msg w => exact .inr (send_of_stuck hstuck h.room (h.inv.ends d).ready.2 hf)

/-- The two ends never wait for each other. -/
lemma not_both (h : Session ms max s) (hstuck : Stuck FramedPair.step (Follows (drivers ms)) s)
    {f g : Pending} (ha : (s.ends .a).fut = some f) (hb : (s.ends .b).fut = some g) : False := by
  have hbehind := h.dialer_behind ha
  have hlevel := congrArg List.length (h.echo_level hb)
  obtain ⟨hback, -, hthere, -⟩ := carried h.inv h.dials h.serves
  have hback' := hback.length_le
  have hthere' := hthere.length_le
  -- one of the two directions is empty, and then neither end is sending
  have hquiet : (s.pipes .a = [] ∧ (s.ends .a).unsent = []) ∨
      (s.pipes .b = [] ∧ (s.ends .b).unsent = []) := by
    rcases Nat.lt_or_ge (s.ends .a).received.length (s.ends .b).received.length with hlt | hge
    · exact .inl (h.nothing_ahead (d := .a) (hthere.eq_of_length_le (by omega)))
    · exact .inr (h.nothing_ahead (d := .b) (hback.eq_of_length_le (by omega)))
  have hwait := h.waits_of_stuck hstuck ha
  have hwait' := h.waits_of_stuck hstuck hb
  simp only [Side.other] at hwait hwait'
  have hempty : s.pipes .a = [] ∧ (s.ends .a).unsent = [] ∧ (s.ends .b).alive = true := by
    tauto
  have hdrained : (s.ends .b).received = (s.ends .a).attempted :=
    h.inv.drained (d := .a) hempty.2.2 hempty.1 hempty.2.1
  have hempty' : s.pipes .b = [] ∧ (s.ends .b).unsent = [] ∧ (s.ends .a).alive = true := by
    tauto
  have hdrained' : (s.ends .a).received = (s.ends .b).attempted :=
    h.inv.drained (d := .b) hempty'.2.2 hempty'.1 hempty'.2.1
  have hlen := congrArg List.length hdrained
  have hlen' := congrArg List.length hdrained'
  omega

/-- Neither driver fails. -/
lemma clean (h : Session ms max s) (d : Side) (text : String) :
    drivers ms d (s.ends d).log ≠ .done (.error text) := by
  intro hdone
  cases d with
  | a =>
    have hclean := h.dial_clean text
    simp only [drivers, Driver.wants] at hdone
    generalize (dialSequence ms).after (s.ends .a).log = st at hdone hclean
    cases st with
    | sending i msg rest | receiving i msg rest => cases hdone
    | done r => exact hclean (congrArg _ (Turn.done.inj hdone))
  | b =>
    have hclean : echoOnePeer.after (s.ends .b).log ≠ .done (.error text) := by
      rcases halive : (s.ends .a).alive with _ | _
      · exact (h.left halive).clean text
      · exact h.echo_open halive _
    simp only [drivers, Driver.wants] at hdone
    generalize echoOnePeer.after (s.ends .b).log = st at hdone hclean
    cases st with
    | receiving | replying msg => cases hdone
    | done r => exact hclean (congrArg _ (Turn.done.inj hdone))

/-- An echo server that leaves behind the dialer has echoed everything. -/
lemma echoed (h : Session ms max s) (hleft : Left ms s) (hdead : (s.ends .b).alive = false) :
    ∃ e, (s.ends .b).log = echoes ms ++ [.received (.error e)] := by
  have hdone := h.serves.dead hdead
  have hattempted := hleft.answered
  have hclean := hleft.clean
  have hat := echoAt_of_plays h.serves.plays
  have hcall : (s.ends .b).fut = none := by
    by_contra hf
    obtain ⟨f, hf⟩ := Option.ne_none_iff_exists'.mp hf
    exact absurd ((h.inv.ends .b).ready.lives hf) (by simp [hdead])
  rw [FramedEnd.attempted_of_not_send (by simp [hcall])] at hattempted
  simp only [Driver.wants] at hdone
  generalize echoOnePeer.after (s.ends .b).log = st at hat hdone hclean
  generalize (s.ends .b).log = log at hat hattempted
  cases hat with
  | receiving past | replying past m => exact absurd hdone Bool.false_ne_true
  | failed past m e => exact absurd rfl (hclean _)
  | left past e =>
    obtain rfl : past = ms := by simpa [List.filterMap_cons] using hattempted
    exact ⟨e, rfl⟩

/-- Where nothing more can happen, both drivers have left. -/
lemma both_left (h : Session ms max s) (hstuck : Stuck FramedPair.step (Follows (drivers ms)) s) :
    (s.ends .a).alive = false ∧ (s.ends .b).alive = false := by
  have ha : (s.ends .a).alive = false := by
    by_contra halive
    have halive : (s.ends .a).alive = true := by simpa using halive
    obtain ⟨f, hf⟩ := fut_of_stuck hstuck halive
    obtain ⟨g, hg⟩ := fut_of_stuck hstuck (h.echo_alive halive)
    exact h.not_both hstuck hf hg
  refine ⟨ha, ?_⟩
  by_contra halive
  obtain ⟨g, hg⟩ := fut_of_stuck hstuck (d := .b) (by simpa using halive)
  rcases h.waits_of_stuck hstuck hg with ⟨-, halive', -⟩ | ⟨-, hunsent⟩
  · exact absurd (halive'.symm.trans ha) (by simp)
  · exact hunsent (h.left ha).silent

lemma start {room maxA maxB : ℕ} {a b : FramedChannel} (ha : FramedChannel.new maxA = some a)
    (hb : FramedChannel.new maxB = some b) (hroom : 0 < room)
    (hfits : ∀ m ∈ ms, m.length ≤ maxA ∧ m.length ≤ maxB) :
    Session ms (FramedPair.limits maxA maxB) (framedPair room a b) where
  fits := fun m hm => FramedPair.forall_side .a (hfits m hm).1 (hfits m hm).2
  room := hroom
  inv := FramedPair.inv_start ha hb
  caused := (FramedPair.run_caused ha hb (run_nil _)).2
  dials := owns_new _ a
  serves := owns_new _ b
  whole := FramedPair.forall_side .a rfl rfl
  left := fun hdead => by cases hdead

end Session

/-- **A session completes.**  `dial_sequence` over any messages that both ends accept, at one end of
a pipe with any room at all, and `echo_one_peer` at the other: however their steps interleave, no
driver ever fails; the number of steps is bounded; and where no further step is possible both
drivers have returned and left, the dialer after every message came back, and the echo server after
it echoed every message and then met the end of the stream. -/
theorem session_completes {room maxA maxB : ℕ} {a b : FramedChannel} {ms : List Bytes}
    (ha : FramedChannel.new maxA = some a) (hb : FramedChannel.new maxB = some b)
    (hroom : 0 < room) (hfits : ∀ m ∈ ms, m.length ≤ maxA ∧ m.length ≤ maxB)
    {as : List PairAction} {s : FramedPair}
    (hfollows : EachStep FramedPair.step (Follows (drivers ms)) (framedPair room a b) as)
    (hrun : run FramedPair.step (framedPair room a b) as = some s) :
    as.length ≤ 8 * ms.length + 4 * (ms.flatMap (frame 4)).length + 4 ∧
      (∀ d text, drivers ms d (s.ends d).log ≠ .done (.error text)) ∧
      (Stuck FramedPair.step (Follows (drivers ms)) s →
        (∀ d, (s.ends d).alive = false) ∧ (s.ends .a).log = rounds ms ∧
          ∃ e, (s.ends .b).log = echoes ms ++ [.received (.error e)]) := by
  have hstart := Session.start ha hb hroom hfits
  have h : Session ms (FramedPair.limits maxA maxB) s :=
    run_induction (fun u x u' hu hx hstep => hu.step hx hstep) hstart hfollows hrun
  refine ⟨?_, h.clean, fun hstuck => ?_⟩
  · have hle := length_add_rank_le (I := Session ms (FramedPair.limits maxA maxB))
      (fun u x u' hu hx hstep => hu.step_toDo hx hstep) hstart hfollows hrun
    simp only [toDo] at hle
    omega
  · obtain ⟨hleftA, hleftB⟩ := h.both_left hstuck
    have hleft := h.left hleftA
    exact ⟨FramedPair.forall_side .a hleftA hleftB, hleft.dialed, h.echoed hleft hleftB⟩

/-- The sequence fits channels with the default limit. -/
example : ∀ m ∈ sequence, m.length ≤ DEFAULT_MAX_MSG_LEN := by
  intro m hm
  simp only [sequence, List.mem_cons, List.not_mem_nil, or_false] at hm
  obtain rfl | rfl | rfl | rfl := hm
  · decide
  · decide
  · rw [List.length_replicate]
    decide
  · decide

/-- One message goes round over a pipe with room for three bytes. -/
theorem session_completes_one :
    ∃ a b s, FramedChannel.new 8 = some a ∧ FramedChannel.new 8 = some b ∧
      run FramedPair.step (framedPair 3 a b) [.send .a [7], .write .a 3, .recv .b, .read .b 3,
        .write .a 1, .read .b 1, .write .a 1, .read .b 1, .send .b [7], .flush .a, .recv .a,
        .write .b 3, .read .a 2, .write .b 1, .read .a 2, .write .b 1, .read .a 1, .flush .b,
        .dropEnd .a, .recv .b, .read .b 0, .dropEnd .b] = some s ∧
      (s.ends .a).log = rounds [[7]] ∧
      (s.ends .b).log = echoes [[7]] ++ [.received (.error .closed)] ∧
      ∀ d text, drivers [[7]] d (s.ends d).log ≠ .done (.error text) := by
  obtain ⟨a, b, s, ha, hb, hrun, hlog, hlog', hfollows⟩ : ∃ a b s,
      FramedChannel.new 8 = some a ∧ FramedChannel.new 8 = some b ∧
      run FramedPair.step (framedPair 3 a b) [.send .a [7], .write .a 3, .recv .b, .read .b 3,
        .write .a 1, .read .b 1, .write .a 1, .read .b 1, .send .b [7], .flush .a, .recv .a,
        .write .b 3, .read .a 2, .write .b 1, .read .a 2, .write .b 1, .read .a 1, .flush .b,
        .dropEnd .a, .recv .b, .read .b 0, .dropEnd .b] = some s ∧
      (s.ends .a).log = rounds [[7]] ∧
      (s.ends .b).log = echoes [[7]] ++ [.received (.error .closed)] ∧
      EachStep FramedPair.step (Follows (drivers [[7]])) (framedPair 3 a b) [.send .a [7],
        .write .a 3, .recv .b, .read .b 3, .write .a 1, .read .b 1, .write .a 1, .read .b 1,
        .send .b [7], .flush .a, .recv .a, .write .b 3, .read .a 2, .write .b 1, .read .a 2,
        .write .b 1, .read .a 1, .flush .b, .dropEnd .a, .recv .b, .read .b 0, .dropEnd .b] :=
    ⟨_, _, _, rfl, rfl, Option.eq_some_of_isSome (by decide), by decide, by decide, by decide⟩
  exact ⟨a, b, s, ha, hb, hrun, hlog, hlog',
    (session_completes ha hb (by decide) (by decide) hfollows hrun).2.1⟩

end FungiTransport
