import FungiTransport.Mem.Duplex
import Mathlib.Algebra.Ring.Nat

/-!
# The in-memory channel is first-in first-out and honest

For each direction of a pair, the messages that were received are a prefix of those that were
enqueued, and every `send` that has ended left a report that accounts for its message
(`ReportOk`).  A poll of a `send` future is taken apart once, in `pollSend_polled`; what a step does
to the pair is one of the six cases of `Effect`, and a direction of the pair survives each of them at
its sending and at its receiving end.
-/

namespace FungiTransport

open Lib

/-- The messages that end `ch` put into its peer's buffer, in the order of their sends. -/
def MemChannel.enqueued (ch : MemChannel) : List Bytes :=
  (ch.sends.filter SendReport.enqueued).map SendReport.msg

/-- The messages that end `ch` received. -/
def MemChannel.received (ch : MemChannel) : List Bytes := ch.recvs.filterMap Except.toOption

/-- The message is within the size limit. -/
def MemConfig.Fits (cfg : MemConfig) (msg : Bytes) : Prop :=
  ∀ max, cfg.maxMsgLen = some max → msg.length ≤ max

/-- A report of a `send` is honest. -/
structure ReportOk (cfg : MemConfig) (r : SendReport) : Prop where
  failed : ∀ e, r.result = some (.error e) → r.enqueued = false
  dropped : r.result = none → r.enqueued = false
  confirmed : cfg.delivery = .confirmed → r.result = some (.ok ()) →
    (r.enqueued = true ∧ r.peerAlive = true) ∨ r.dropTaken = 1
  bestEffort : cfg.delivery = .bestEffort → cfg.Fits r.msg →
    ∀ e, r.result = some (.error e) → r.failTaken = 1
  tooLarge : ∀ max, r.result = some (.error (.tooLarge max)) → r.failTaken = 0 ∧ r.dropTaken = 0
  budget : r.failTaken + r.dropTaken ≤ 1

namespace MemChannel

/-- What a suspended `send` carries is its message, unless it exceeds the limit. -/
def Carries (cfg : MemConfig) (call : Bytes) : MemSend → Prop
  | .created msg => msg = copyMsg cfg call
  | .sleeping msg => msg = call
  | .sending msg => msg = call ∧ cfg.delivery = .confirmed

/-- What one poll of a `send` future comes to: it stays suspended, it resolves without touching
the queue, or it resolves with its message in the queue. -/
inductive SendPolled (cfg : MemConfig) (ch : MemChannel) (q : Mpsc Bytes) (call : Bytes) :
    MemChannel × Mpsc Bytes → Prop
  | suspended {state : MemSend} (hstate : Carries cfg call state) :
      SendPolled cfg ch q call (ch.suspend call state, q)
  | resolved {fail drop : ℕ} {r : SendReport} (hr : ReportOk cfg r) (henq : r.enqueued = false)
      (hfail : fail + r.failTaken = ch.failNext) (hdrop : drop + r.dropTaken = ch.dropNext) :
      SendPolled cfg ch q call ({ ch with failNext := fail, dropNext := drop }.resolve r, q)
  | enqueued {q' : Mpsc Bytes} {r : SendReport} (hq : q.trySend call = .sent q')
      (hr : ReportOk cfg r) (hmsg : r.msg = call) (henq : r.enqueued = true)
      (hfail : r.failTaken = 0) (hdrop : r.dropTaken = 0) :
      SendPolled cfg ch q call (ch.resolve r, q')

variable {cfg : MemConfig} {ch : MemChannel} {q : Mpsc Bytes} {peerAlive : Bool} {call : Bytes}

/-- A report without an error that enqueued its message at a living peer. -/
lemma reportOk_enqueued (hpeer : peerAlive = true) :
    ReportOk cfg
      { msg := call, result := some (.ok ()), enqueued := true, peerAlive := peerAlive } where
  failed := by simp
  dropped := by simp
  confirmed := fun _ _ => .inl ⟨rfl, hpeer⟩
  bestEffort := by simp
  tooLarge := by simp
  budget := by simp

/-- A failed `send` of confirmed mode, other than for the size. -/
lemma reportOk_failed (hmode : cfg.delivery = .confirmed) {e : SendError}
    (he : ∀ max, e ≠ .tooLarge max) :
    ReportOk cfg { msg := call, result := some (.error e) } where
  failed := fun _ _ => rfl
  dropped := by simp
  confirmed := by simp
  bestEffort := fun h => absurd (hmode.symm.trans h) (by decide)
  tooLarge := fun max h => absurd (by simpa using h) (he max)
  budget := by simp

lemma sendConfirmed_polled (hmode : cfg.delivery = .confirmed)
    (hpeer : q.rxAlive = true → peerAlive = true) (elapsed : Bool) :
    SendPolled cfg ch q call (ch.sendConfirmed cfg q peerAlive call call elapsed) := by
  rw [sendConfirmed]
  split
  · rename_i q' hq
    exact .enqueued hq (reportOk_enqueued (hpeer (Mpsc.trySend_sent hq).1)) rfl rfl rfl rfl
  · exact .resolved (reportOk_failed hmode (by simp)) rfl rfl rfl
  · split
    · exact .resolved (reportOk_failed hmode (by simp)) rfl rfl rfl
    · exact .suspended ⟨rfl, hmode⟩

lemma takeOne_eq_some {n m : ℕ} (h : takeOne n = some m) : m + 1 = n := by
  cases n with
  | zero => cases h
  | succ n =>
    obtain rfl := Option.some.inj h
    rfl

lemma sendAwake_polled (hpeer : q.rxAlive = true → peerAlive = true) (elapsed : Bool) :
    SendPolled cfg ch q call (ch.sendAwake cfg q peerAlive call call elapsed) := by
  rw [sendAwake]
  split
  · -- injected loss: the unit of the budget is the excuse for the `Ok`
    rename_i n htake
    refine .resolved ⟨by simp, by simp, fun _ _ => .inr rfl, by simp, by simp, by simp⟩ rfl rfl ?_
    exact takeOne_eq_some htake
  · split
    · rename_i hmode
      exact sendConfirmed_polled hmode hpeer elapsed
    · rename_i hmode
      split
      · rename_i q' hq
        exact .enqueued hq (reportOk_enqueued (hpeer (Mpsc.trySend_sent hq).1)) rfl rfl rfl rfl
      all_goals
        refine .resolved ⟨by simp, by simp, fun h => ?_, by simp, by simp, by simp⟩ rfl rfl rfl
        exact absurd (hmode.symm.trans h) (by decide)

lemma copyMsg_ok {msg : Bytes} (h : copyMsg cfg call = .ok msg) : msg = call := by
  rw [copyMsg] at h
  split at h
  · split at h
    · cases h
    · exact (Except.ok.inj h).symm
  · exact (Except.ok.inj h).symm

lemma copyMsg_error {max : ℕ} (h : copyMsg cfg call = .error max) : ¬ cfg.Fits call := by
  rw [copyMsg] at h
  split at h
  · rename_i max' hmax
    split at h
    · rename_i hlt
      intro hfits
      exact absurd (hfits max' hmax) (by omega)
    · cases h
  · cases h

/-- **One poll of a `send`.** -/
lemma pollSend_polled (hpeer : q.rxAlive = true → peerAlive = true) {state : MemSend}
    (hstate : Carries cfg call state) (slept elapsed : Bool) :
    SendPolled cfg ch q call (ch.pollSend cfg q peerAlive call slept elapsed state) := by
  cases state with
  | created msg =>
    cases msg with
    | error max =>
      have hbig : ¬ cfg.Fits call := copyMsg_error hstate.symm
      refine .resolved ⟨by simp, by simp, by simp, fun _ hfits => absurd hfits hbig, ?_,
        by simp⟩ rfl rfl rfl
      exact fun _ _ => ⟨rfl, rfl⟩
    | ok msg =>
      obtain rfl := copyMsg_ok hstate.symm
      rw [pollSend]
      split
      · rename_i n htake
        refine .resolved ⟨by simp, by simp, by simp, fun _ _ _ _ => rfl, by simp, by simp⟩ rfl
          ?_ rfl
        exact takeOne_eq_some htake
      · split
        · exact .suspended rfl
        · exact sendAwake_polled hpeer elapsed
  | sleeping msg =>
    obtain rfl := hstate
    rw [pollSend]
    split
    · exact sendAwake_polled hpeer elapsed
    · exact .suspended rfl
  | sending msg =>
    obtain ⟨rfl, hmode⟩ := hstate
    exact sendConfirmed_polled hmode hpeer elapsed

end MemChannel

namespace Duplex

open MemChannel

/-! ## The two directions -/

/-- What holds of one end by itself. -/
structure EndOk (cfg : MemConfig) (ch : MemChannel) : Prop where
  fut : ch.fut ≠ none → ch.alive = true
  carries : ∀ call state, ch.fut = some (.send call state) → Carries cfg call state
  reports : ∀ r ∈ ch.sends, ReportOk cfg r

/-- What holds between a sending end, its queue and the receiving end. -/
structure Direction (tx : MemChannel) (q : Mpsc Bytes) (rx : MemChannel) : Prop where
  senders : q.senders = if tx.alive then 1 else 0
  rxAlive : q.rxAlive = rx.alive
  pushed : q.pushed = tx.enqueued
  popped : q.popped = rx.received
  closed : .error .closed ∈ rx.recvs → tx.alive = false ∧ rx.received = tx.enqueued

structure Inv (s : Duplex) : Prop where
  ends : ∀ d, EndOk s.cfg (s.ends d)
  direction : ∀ d, Direction (s.ends d) (s.queues d) (s.ends d.other)

namespace Direction

variable {tx tx' rx rx' : MemChannel} {q q' : Mpsc Bytes} {msg : Bytes}

lemma tx_keep (h : Direction tx q rx) (halive : tx'.alive = tx.alive)
    (henq : tx'.enqueued = tx.enqueued) : Direction tx' q rx where
  senders := by rw [h.senders, halive]
  rxAlive := h.rxAlive
  pushed := by rw [h.pushed, henq]
  popped := h.popped
  closed := by
    intro hmem
    rw [halive, henq]
    exact h.closed hmem

lemma rx_keep (h : Direction tx q rx) (halive : rx'.alive = rx.alive)
    (hrecvs : rx'.recvs = rx.recvs) : Direction tx q rx' where
  senders := h.senders
  rxAlive := by rw [h.rxAlive, halive]
  pushed := h.pushed
  popped := by rw [h.popped, received, received, hrecvs]
  closed := by
    intro hmem
    rw [received, hrecvs]
    exact h.closed (hrecvs ▸ hmem)

lemma enqueue (h : Direction tx q rx) (hlive : tx.alive = true) (halive : tx'.alive = tx.alive)
    (hq : q.trySend msg = .sent q') (henq : tx'.enqueued = tx.enqueued ++ [msg]) :
    Direction tx' q' rx := by
  obtain ⟨hrx, hrx', hsenders, hpushed, hpopped⟩ := Mpsc.trySend_sent hq
  refine ⟨?_, ?_, ?_, ?_, ?_⟩
  · rw [hsenders, h.senders, halive]
  · rw [hrx', ← h.rxAlive, hrx]
  · rw [hpushed, h.pushed, henq]
  · rw [hpopped, h.popped]
  · -- an end that is told of the hang-up has no living peer
    intro hmem
    exact absurd (hlive.symm.trans (h.closed hmem).1) (by decide)

lemma receive (h : Direction tx q rx) (halive : rx'.alive = rx.alive)
    (hq : q.tryRecv = .got msg q') (hrecvs : rx'.recvs = rx.recvs ++ [.ok msg]) :
    Direction tx q' rx' := by
  obtain ⟨hrx, hsenders, hpushed, hpopped⟩ := Mpsc.tryRecv_got hq
  have hreceived : rx'.received = rx.received ++ [msg] := by
    rw [received, received, hrecvs, List.filterMap_append]
    rfl
  refine ⟨?_, ?_, ?_, ?_, ?_⟩
  · rw [hsenders, h.senders]
  · rw [hrx, h.rxAlive, halive]
  · rw [hpushed, h.pushed]
  · rw [hpopped, h.popped, hreceived]
  · -- nothing is left to receive behind a hang-up
    intro hmem
    rw [hrecvs, List.mem_append, List.mem_singleton] at hmem
    have hall := (h.closed (hmem.resolve_right (by simp))).2
    have hle := q'.order.length_le
    rw [hpopped, hpushed, h.popped, h.pushed, hall, List.length_append] at hle
    exact absurd hle (by simp)

lemma hangUp (h : Direction tx q rx) (hlive : rx.alive = true) (halive : rx'.alive = rx.alive)
    (hq : q.tryRecv = .closed) (hrecvs : rx'.recvs = rx.recvs ++ [.error .closed]) :
    Direction tx q rx' := by
  obtain ⟨hsenders, hall⟩ := Mpsc.tryRecv_closed (h.rxAlive.trans hlive) hq
  have hreceived : rx'.received = rx.received := by
    rw [received, received, hrecvs, List.filterMap_append]
    exact List.append_nil _
  refine ⟨h.senders, by rw [h.rxAlive, halive], h.pushed, by rw [h.popped, hreceived], fun _ => ?_⟩
  constructor
  · cases htx : tx.alive with
    | false => rfl
    | true =>
      have hone := h.senders
      rw [hsenders, htx] at hone
      exact absurd hone (by decide)
  · rw [hreceived, ← h.popped, hall, h.pushed]

lemma drop_tx (h : Direction tx q rx) (hlive : tx.alive = true) (halive : tx'.alive = false)
    (henq : tx'.enqueued = tx.enqueued) : Direction tx' q.dropTx rx where
  senders := by
    have hone := h.senders
    rw [hlive, if_pos rfl] at hone
    rw [halive]
    change q.senders - 1 = 0
    omega
  rxAlive := h.rxAlive
  pushed := by rw [henq, ← h.pushed]; rfl
  popped := h.popped
  closed := fun hmem => ⟨halive, by rw [henq]; exact (h.closed hmem).2⟩

lemma drop_rx (h : Direction tx q rx) (halive : rx'.alive = false)
    (hrecvs : rx'.recvs = rx.recvs) : Direction tx q.dropRx rx' where
  senders := h.senders
  rxAlive := halive.symm
  pushed := h.pushed
  popped := by
    rw [received, hrecvs]
    exact h.popped
  closed := by
    intro hmem
    rw [received, hrecvs]
    exact h.closed (hrecvs ▸ hmem)

end Direction

/-! ## Steps -/

/-- What a step at end `e` does to the pair. -/
inductive Effect (s : Duplex) (e : Side) : Duplex → Prop
  | keep {ch : MemChannel} (halive : ch.alive = (s.ends e).alive)
      (henq : ch.enqueued = (s.ends e).enqueued) (hrecvs : ch.recvs = (s.ends e).recvs)
      (hok : EndOk s.cfg ch) : Effect s e (s.setEnd e ch)
  | enqueue {ch : MemChannel} {q : Mpsc Bytes} {msg : Bytes} (hlive : (s.ends e).alive = true)
      (halive : ch.alive = (s.ends e).alive) (hq : (s.queues e).trySend msg = .sent q)
      (henq : ch.enqueued = (s.ends e).enqueued ++ [msg]) (hrecvs : ch.recvs = (s.ends e).recvs)
      (hok : EndOk s.cfg ch) : Effect s e ((s.setEnd e ch).setQueue e q)
  | receive {ch : MemChannel} {q : Mpsc Bytes} {msg : Bytes}
      (halive : ch.alive = (s.ends e).alive) (henq : ch.enqueued = (s.ends e).enqueued)
      (hq : (s.queues e.other).tryRecv = .got msg q)
      (hrecvs : ch.recvs = (s.ends e).recvs ++ [.ok msg]) (hok : EndOk s.cfg ch) :
      Effect s e ((s.setEnd e ch).setQueue e.other q)
  | hangUp {ch : MemChannel} (hlive : (s.ends e).alive = true)
      (halive : ch.alive = (s.ends e).alive) (henq : ch.enqueued = (s.ends e).enqueued)
      (hq : (s.queues e.other).tryRecv = .closed)
      (hrecvs : ch.recvs = (s.ends e).recvs ++ [.error .closed]) (hok : EndOk s.cfg ch) :
      Effect s e (s.setEnd e ch)
  | drop {ch : MemChannel} (hlive : (s.ends e).alive = true) (halive : ch.alive = false)
      (henq : ch.enqueued = (s.ends e).enqueued) (hrecvs : ch.recvs = (s.ends e).recvs)
      (hok : EndOk s.cfg ch) :
      Effect s e (((s.setEnd e ch).setQueue e (s.queues e).dropTx).setQueue e.other
        (s.queues e.other).dropRx)

section Frame

variable (s : Duplex) (e : Side) (ch : MemChannel) (q : Mpsc Bytes)

@[simp] lemma setEnd_self : (s.setEnd e ch).ends e = ch := Function.update_self ..

@[simp] lemma setEnd_other : (s.setEnd e ch).ends e.other = s.ends e.other :=
  Function.update_of_ne e.other_ne ..

@[simp] lemma setEnd_queues : (s.setEnd e ch).queues = s.queues := rfl

@[simp] lemma setQueue_self : (s.setQueue e q).queues e = q := Function.update_self ..

@[simp] lemma setQueue_other : (s.setQueue e q).queues e.other = s.queues e.other :=
  Function.update_of_ne e.other_ne ..

@[simp] lemma setQueue_of_other : (s.setQueue e.other q).queues e = s.queues e :=
  Function.update_of_ne e.other_ne.symm ..

@[simp] lemma setQueue_ends : (s.setQueue e q).ends = s.ends := rfl

@[simp] lemma setEnd_setQueue_same (d : Side) :
    (s.setEnd e ch).setQueue d (s.queues d) = s.setEnd e ch := by
  rw [setQueue, setEnd, Function.update_eq_self]

end Frame

/-- A step at end `e` is looked at from both directions. -/
lemma inv_of_sides {s s' : Duplex} (h : Inv s) (e : Side) (hcfg : s'.cfg = s.cfg)
    (hother : s'.ends e.other = s.ends e.other) (hok : EndOk s.cfg (s'.ends e))
    (htx : Direction (s'.ends e) (s'.queues e) (s.ends e.other))
    (hrx : Direction (s.ends e.other) (s'.queues e.other) (s'.ends e)) : Inv s' := by
  constructor
  · intro d
    rw [hcfg]
    rcases d.eq_or_eq_other e with rfl | rfl
    · exact hok
    · exact hother ▸ h.ends e.other
  · intro d
    rcases d.eq_or_eq_other e with rfl | rfl
    · rw [hother]
      exact htx
    · rw [hother, Side.other_other]
      exact hrx

lemma inv_of_effect {s s' : Duplex} {e : Side} (h : Inv s) (heff : Effect s e s') : Inv s' := by
  have htx := h.direction e
  have hrx : Direction (s.ends e.other) (s.queues e.other) (s.ends e) := by
    simpa using h.direction e.other
  cases heff with
  | keep halive henq hrecvs hok =>
    refine inv_of_sides h e rfl (by simp) (by simpa) ?_ ?_
    · simpa using htx.tx_keep halive henq
    · simpa using hrx.rx_keep halive hrecvs
  | enqueue hlive halive hq henq hrecvs hok =>
    refine inv_of_sides h e rfl (by simp) (by simpa) ?_ ?_
    · simpa using htx.enqueue hlive halive hq henq
    · simpa using hrx.rx_keep halive hrecvs
  | receive halive henq hq hrecvs hok =>
    refine inv_of_sides h e rfl (by simp) (by simpa) ?_ ?_
    · simpa using htx.tx_keep halive henq
    · simpa using hrx.receive halive hq hrecvs
  | hangUp hlive halive henq hq hrecvs hok =>
    refine inv_of_sides h e rfl (by simp) (by simpa) ?_ ?_
    · simpa using htx.tx_keep halive henq
    · simpa using hrx.hangUp hlive halive hq hrecvs
  | drop hlive halive henq hrecvs hok =>
    refine inv_of_sides h e rfl (by simp) (by simpa) ?_ ?_
    · simpa using htx.drop_tx hlive halive henq
    · simpa using hrx.drop_rx halive hrecvs

lemma idle_eq_some {s : Duplex} {d : Side} {ch : MemChannel} (h : s.idle d = some ch) :
    ch = s.ends d ∧ (s.ends d).alive = true ∧ (s.ends d).fut = none := by
  rw [idle] at h
  split at h
  · rename_i hidle
    exact ⟨(Option.some.inj h).symm, hidle.1, Option.isNone_iff_eq_none.mp hidle.2⟩
  · cases h

lemma enqueued_concat {ch : MemChannel} {sends : List SendReport} {r : SendReport}
    (h : ch.sends = sends ++ [r]) :
    ch.enqueued = (sends.filter SendReport.enqueued).map SendReport.msg ++
      if r.enqueued then [r.msg] else [] := by
  rw [enqueued, h, List.filter_append, List.map_append]
  by_cases hr : r.enqueued = true <;> simp [hr]

/-- An end whose `send` ended with an honest report. -/
lemma EndOk.resolve {cfg : MemConfig} {ch : MemChannel} {r : SendReport} (h : EndOk cfg ch)
    (hr : ReportOk cfg r) : EndOk cfg (ch.resolve r) where
  fut := fun hne => absurd rfl hne
  carries := fun call state hfut => absurd hfut (by simp [MemChannel.resolve])
  reports := by
    intro r' hr'
    rcases List.mem_append.mp hr' with hr' | hr'
    · exact h.reports r' hr'
    · exact List.mem_singleton.mp hr' ▸ hr

/-- An end that is borrowed by nothing. -/
lemma EndOk.of_fut_none {cfg : MemConfig} {ch ch' : MemChannel} (h : EndOk cfg ch)
    (hfut : ch'.fut = none) (hsends : ch'.sends = ch.sends) : EndOk cfg ch' where
  fut := fun hne => absurd hfut hne
  carries := fun call state hsend => absurd (hfut.symm.trans hsend) (by simp)
  reports := hsends ▸ h.reports

/-- A poll of a `send` at end `d`. -/
lemma effect_of_sendPolled {s : Duplex} {d : Side} {call : Bytes}
    {p : MemChannel × Mpsc Bytes} (h : EndOk s.cfg (s.ends d)) (hlive : (s.ends d).alive = true)
    (hp : SendPolled s.cfg (s.ends d) (s.queues d) call p) :
    Effect s d ((s.setEnd d p.1).setQueue d p.2) := by
  cases hp with
  | @suspended state hstate =>
    rw [setEnd_setQueue_same]
    refine .keep rfl rfl rfl ⟨fun _ => hlive, fun call' state' hfut => ?_, h.reports⟩
    obtain ⟨rfl, rfl⟩ : call = call' ∧ state = state' := by simpa [suspend] using hfut
    exact hstate
  | @resolved fail drop r hr henq hfail hdrop =>
    rw [setEnd_setQueue_same]
    refine .keep rfl ?_ rfl ?_
    · rw [enqueued_concat (r := r) rfl, henq]
      exact List.append_nil _
    · exact EndOk.resolve ⟨h.fut, h.carries, h.reports⟩ hr
  | @enqueued q' r hq hr hmsg henq hfail hdrop =>
    refine .enqueue hlive rfl (hmsg ▸ hq) ?_ rfl (h.resolve hr)
    rw [enqueued_concat (r := r) rfl, henq]
    rfl

lemma effect_of_step {s s' : Duplex} {a : MemAction} (h : Inv s) (hstep : s.step a = some s') :
    ∃ e, Effect s e s' := by
  cases a with
  | send d msg =>
    obtain ⟨ch, hidle, rfl⟩ := Option.map_eq_some_iff.mp hstep
    obtain ⟨rfl, hlive, hfut⟩ := idle_eq_some hidle
    refine ⟨d, .keep rfl rfl rfl ⟨fun _ => hlive, fun call state hsend => ?_, (h.ends d).reports⟩⟩
    obtain ⟨rfl, rfl⟩ : msg = call ∧ MemSend.created (copyMsg s.cfg msg) = state := by
      simpa [suspend] using hsend
    rfl
  | recv d =>
    obtain ⟨ch, hidle, rfl⟩ := Option.map_eq_some_iff.mp hstep
    obtain ⟨rfl, hlive, hfut⟩ := idle_eq_some hidle
    exact ⟨d, .keep rfl rfl rfl ⟨fun _ => hlive, by simp, (h.ends d).reports⟩⟩
  | failNext d n | dropNext d n =>
    obtain ⟨ch, hidle, rfl⟩ := Option.map_eq_some_iff.mp hstep
    obtain ⟨rfl, hlive, hfut⟩ := idle_eq_some hidle
    exact ⟨d, .keep rfl rfl rfl ((h.ends d).of_fut_none hfut rfl)⟩
  | dropEnd d =>
    obtain ⟨ch, hidle, rfl⟩ := Option.map_eq_some_iff.mp hstep
    obtain ⟨rfl, hlive, hfut⟩ := idle_eq_some hidle
    exact ⟨d, .drop hlive rfl rfl rfl ((h.ends d).of_fut_none hfut rfl)⟩
  | dropFut d =>
    simp only [step] at hstep
    split at hstep
    · rename_i call state hfut
      obtain rfl := Option.some.inj hstep
      -- a `send` that is dropped has put nothing into the queue
      have hr : ReportOk s.cfg { msg := call, result := none } :=
        ⟨by simp, fun _ => rfl, by simp, by simp, by simp, by simp⟩
      refine ⟨d, .keep rfl ?_ rfl ((h.ends d).resolve hr)⟩
      rw [enqueued_concat (r := { msg := call, result := none }) rfl]
      exact List.append_nil _
    · obtain rfl := Option.some.inj hstep
      exact ⟨d, .keep rfl rfl rfl ((h.ends d).of_fut_none rfl rfl)⟩
    · cases hstep
  | poll d slept elapsed =>
    -- a queue is open exactly while the end that reads it lives
    have hrx : (s.queues d).rxAlive = true → (s.ends d.other).alive = true := fun hq =>
      (h.direction d).rxAlive ▸ hq
    simp only [step] at hstep
    split at hstep
    · rename_i call state hfut
      obtain rfl := Option.some.inj hstep
      have hlive : (s.ends d).alive = true := (h.ends d).fut (by simp [hfut])
      have hpolled : SendPolled s.cfg (s.ends d) (s.queues d) call _ :=
        pollSend_polled hrx ((h.ends d).carries call state hfut) slept elapsed
      exact ⟨d, effect_of_sendPolled (h.ends d) hlive hpolled⟩
    · rename_i hfut
      obtain rfl := Option.some.inj hstep
      have hlive : (s.ends d).alive = true := (h.ends d).fut (by simp [hfut])
      rw [pollRecv]
      split
      · rename_i msg q' hq
        exact ⟨d, .receive rfl rfl hq rfl ((h.ends d).of_fut_none rfl rfl)⟩
      · rename_i hq
        rw [setEnd_setQueue_same]
        exact ⟨d, .hangUp hlive rfl rfl hq rfl ((h.ends d).of_fut_none rfl rfl)⟩
      · rw [setEnd_setQueue_same]
        exact ⟨d, .keep rfl rfl rfl (h.ends d)⟩
    · cases hstep

lemma inv_duplex {cfg : MemConfig} {s : Duplex} (hnew : duplex cfg = some s) : Inv s := by
  obtain ⟨q, hq, rfl⟩ := Option.map_eq_some_iff.mp hnew
  obtain ⟨hsenders, hrx, hpushed, hpopped⟩ := Mpsc.channel_eq_some hq
  constructor
  · intro d
    exact ⟨fun _ => rfl, by simp [MemChannel.new], by simp [MemChannel.new]⟩
  · intro d
    exact ⟨hsenders, hrx, hpushed, hpopped, by simp [MemChannel.new]⟩

lemma cfg_of_effect {s s' : Duplex} {e : Side} (h : Effect s e s') : s'.cfg = s.cfg := by
  cases h <;> rfl

/-! ## The budgets -/

/-- The units of the failure budget that are left or were consumed. -/
def failAccount (ch : MemChannel) : ℕ := ch.failNext + (ch.sends.map SendReport.failTaken).sum

/-- The units of the loss budget that are left or were consumed. -/
def dropAccount (ch : MemChannel) : ℕ := ch.dropNext + (ch.sends.map SendReport.dropTaken).sum

/-- A poll of a `send` takes from the budgets what its report says. -/
lemma accounts_of_sendPolled {cfg : MemConfig} {ch : MemChannel} {q : Mpsc Bytes} {call : Bytes}
    {p : MemChannel × Mpsc Bytes} (h : SendPolled cfg ch q call p) :
    failAccount p.1 = failAccount ch ∧ dropAccount p.1 = dropAccount ch := by
  cases h with
  | suspended hstate => exact ⟨rfl, rfl⟩
  | @resolved fail drop r hr henq hfail hdrop =>
    simp only [failAccount, dropAccount, resolve, List.map_append, List.sum_append, List.map_cons,
      List.map_nil, List.sum_cons, List.sum_nil]
    omega
  | @enqueued q' r hq hr hmsg henq hfail hdrop =>
    simp only [failAccount, dropAccount, resolve, List.map_append, List.sum_append, List.map_cons,
      List.map_nil, List.sum_cons, List.sum_nil]
    omega

/-- A step changes one end, and its accounts only by setting a budget. -/
lemma step_accounts {s s' : Duplex} {a : MemAction} (h : Inv s) (hstep : s.step a = some s') :
    ∃ e ch, s'.ends = Function.update s.ends e ch ∧
      ((∃ n, a = .failNext e n) ∨ failAccount ch = failAccount (s.ends e)) ∧
      ((∃ n, a = .dropNext e n) ∨ dropAccount ch = dropAccount (s.ends e)) := by
  cases a with
  | send d msg | recv d | dropEnd d =>
    obtain ⟨ch, hidle, rfl⟩ := Option.map_eq_some_iff.mp hstep
    obtain ⟨rfl, -, -⟩ := idle_eq_some hidle
    exact ⟨d, _, rfl, .inr rfl, .inr rfl⟩
  | failNext d n =>
    obtain ⟨ch, hidle, rfl⟩ := Option.map_eq_some_iff.mp hstep
    obtain ⟨rfl, -, -⟩ := idle_eq_some hidle
    exact ⟨d, _, rfl, .inl ⟨n, rfl⟩, .inr rfl⟩
  | dropNext d n =>
    obtain ⟨ch, hidle, rfl⟩ := Option.map_eq_some_iff.mp hstep
    obtain ⟨rfl, -, -⟩ := idle_eq_some hidle
    exact ⟨d, _, rfl, .inr rfl, .inl ⟨n, rfl⟩⟩
  | dropFut d =>
    simp only [step] at hstep
    split at hstep
    · obtain rfl := Option.some.inj hstep
      refine ⟨d, _, rfl, .inr ?_, .inr ?_⟩
      · simp [failAccount, resolve]
      · simp [dropAccount, resolve]
    · obtain rfl := Option.some.inj hstep
      exact ⟨d, _, rfl, .inr rfl, .inr rfl⟩
    · cases hstep
  | poll d slept elapsed =>
    have hrx : (s.queues d).rxAlive = true → (s.ends d.other).alive = true := fun hq =>
      (h.direction d).rxAlive ▸ hq
    simp only [step] at hstep
    split at hstep
    · rename_i call state hfut
      obtain rfl := Option.some.inj hstep
      have hpolled : SendPolled s.cfg (s.ends d) (s.queues d) call _ :=
        pollSend_polled hrx ((h.ends d).carries call state hfut) slept elapsed
      obtain ⟨hfail, hdrop⟩ := accounts_of_sendPolled hpolled
      exact ⟨d, _, rfl, .inr hfail, .inr hdrop⟩
    · obtain rfl := Option.some.inj hstep
      refine ⟨d, _, rfl, ?_⟩
      rw [pollRecv]
      split <;> exact ⟨.inr rfl, .inr rfl⟩
    · cases hstep

/-! ## The theorem -/

lemma duplex_isSome (cfg : MemConfig) :
    (duplex cfg).isSome ↔ ∀ n, cfg.capacity = some n → 1 ≤ n := by
  rw [duplex, Option.isSome_map, Mpsc.channel]
  cases cfg.capacity with
  | none => simp
  | some n =>
    simp only [Option.getD_some, Option.some.injEq, forall_eq']
    by_cases hn : 0 < n <;> simp [hn] <;> omega

lemma run_inv {cfg : MemConfig} {s₀ s : Duplex} (hnew : duplex cfg = some s₀)
    {as : List MemAction} (hrun : run step s₀ as = some s) : Inv s ∧ s.cfg = cfg := by
  refine run_invariant (I := fun s => Inv s ∧ s.cfg = cfg) (fun s a s' hI hstep => ?_) ?_ hrun
  · obtain ⟨e, heff⟩ := effect_of_step hI.1 hstep
    exact ⟨inv_of_effect hI.1 heff, (cfg_of_effect heff).trans hI.2⟩
  · refine ⟨inv_duplex hnew, ?_⟩
    obtain ⟨q, -, rfl⟩ := Option.map_eq_some_iff.mp hnew
    rfl

/-- What an end received is a prefix of what its peer enqueued. -/
lemma received_prefix {cfg : MemConfig} {s₀ s : Duplex} (hnew : duplex cfg = some s₀)
    {as : List MemAction} (hrun : run step s₀ as = some s) (d : Side) :
    (s.ends d.other).received <+: (s.ends d).enqueued := by
  have hdir := (run_inv hnew hrun).1.direction d
  rw [← hdir.popped, ← hdir.pushed]
  exact (s.queues d).order

/-- **First-in first-out, nothing lost or doubled, and honest results**, in both directions of
every pair and after every run.  What was ever put into the queue is what the reports say; what was
received is a prefix of it; each report accounts for its message; `Closed` is returned behind the
last message of a dropped peer; and the budgets pay for what the reports say. -/
theorem duplex_honest {cfg : MemConfig} {s₀ s : Duplex} (hnew : duplex cfg = some s₀)
    {as : List MemAction} (hrun : run step s₀ as = some s) (d : Side) :
    (s.queues d).pushed = (s.ends d).enqueued ∧
      (s.ends d.other).received <+: (s.ends d).enqueued ∧
      (∀ r ∈ (s.ends d).sends, ReportOk cfg r) ∧
      (.error .closed ∈ (s.ends d.other).recvs →
        (s.ends d).alive = false ∧ (s.ends d.other).received = (s.ends d).enqueued) ∧
      ∀ a s', s.step a = some s' →
        ((∀ n, a ≠ .failNext d n) → failAccount (s'.ends d) = failAccount (s.ends d)) ∧
          ((∀ n, a ≠ .dropNext d n) → dropAccount (s'.ends d) = dropAccount (s.ends d)) := by
  obtain ⟨hinv, hcfg⟩ := run_inv hnew hrun
  have hdir := hinv.direction d
  refine ⟨hdir.pushed, received_prefix hnew hrun d, hcfg ▸ (hinv.ends d).reports, hdir.closed,
    fun a s' hstep => ?_⟩
  · obtain ⟨e, ch, hends, hfail, hdrop⟩ := step_accounts hinv hstep
    rw [hends]
    by_cases hde : d = e
    · subst hde
      rw [Function.update_self]
      refine ⟨fun hne => hfail.resolve_left ?_, fun hne => hdrop.resolve_left ?_⟩
      · rintro ⟨n, rfl⟩
        exact hne n rfl
      · rintro ⟨n, rfl⟩
        exact hne n rfl
    · rw [Function.update_of_ne hde]
      exact ⟨fun _ => rfl, fun _ => rfl⟩

/-- Confirmed mode with room for one message: a delivery, an injected loss, a `send` that waits for
room and is dropped, a failure, and the end of the peer. -/
theorem duplex_honest_confirmed :
    ∃ s₀ s, duplex ⟨some 1, some 4, none, none, .confirmed⟩ = some s₀ ∧
      run step s₀ [.send .a [1], .poll .a false false, .dropNext .a 1, .send .a [2],
        .poll .a false false, .send .a [3], .poll .a false false, .dropFut .a, .failNext .a 1,
        .send .a [4], .poll .a false false, .recv .b, .poll .b false false, .dropEnd .a, .recv .b,
        .poll .b false false] = some s ∧
      (s.ends .b).recvs = [.ok [1], .error .closed] ∧
      (s.ends .b).received <+: (s.ends .a).enqueued := by
  refine ⟨_, _, rfl, Option.eq_some_of_isSome (by decide), by decide, ?_⟩
  exact (duplex_honest (rfl : duplex ⟨some 1, some 4, none, none, .confirmed⟩ = some _)
    (Option.eq_some_of_isSome (by decide)) .a).2.1

end Duplex

end FungiTransport
