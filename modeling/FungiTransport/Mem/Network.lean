import FungiTransport.Mem.Honest
import Mathlib.Data.List.Nodup

/-!
# The in-memory network

`network` gives a connector and a listener over one bounded queue.  Each `connect` makes a fresh
pair, waits for room, and hands the far end to the listener; `accept` takes the first far end in
the queue.  Connects are numbered in the order of their calls, and the pair of connect `k` is pair
`k`: end `a` is the near one, end `b` the far one.  Connectors may be cloned, any pending call
dropped, and the listener dropped with the far ends in its queue.
-/

namespace FungiTransport

open Lib

/-- The end that an action on a pair belongs to. -/
def MemAction.side : MemAction → Side
  | .send d _ | .recv d | .poll d _ _ | .dropFut d | .failNext d _ | .dropNext d _ | .dropEnd d => d

namespace Duplex

/-- An end is dropped together with what holds it; nothing borrows it. -/
def closeEnd (p : Duplex) (d : Side) : Duplex := (p.step (.dropEnd d)).getD p

end Duplex

/-- How far a call of `connect` is. -/
inductive ConnectState where
  /-- Waiting for room in the listener's queue, with both ends in its future. -/
  | pending
  /-- Returned the near end. -/
  | returned
  /-- Returned `Unreachable`. -/
  | unreachable
  /-- Its future was dropped. -/
  | dropped
deriving DecidableEq, Repr

/-- A network, the calls made on it and the pairs that they made. -/
structure Network where
  cfg : MemConfig
  /-- The listener's queue: the pairs whose far ends are in it. -/
  inbound : Mpsc ℕ
  /-- The number of connector handles. -/
  connectors : ℕ
  connects : List ConnectState
  pairs : List Duplex
  /-- An `accept` future borrows the listener. -/
  accepting : Bool
  /-- The results of `accept`, a far end by its pair. -/
  accepts : List (Except ConnectError ℕ)

inductive NetworkAction where
  /-- `connect` is called on a connector. -/
  | connect
  | pollConnect (k : ℕ)
  | dropConnect (k : ℕ)
  | cloneConnector
  | dropConnector
  /-- `accept` is called. -/
  | accept
  | pollAccept
  | dropAccept
  | dropListener
  /-- Something happens at an end of pair `k` that a caller holds. -/
  | channel (k : ℕ) (a : MemAction)
deriving DecidableEq, Repr

/-- `network` -/
def network (cfg : MemConfig) : Option Network :=
  (Mpsc.channel 8).map fun q =>
    { cfg := cfg, inbound := q, connectors := 1, connects := [], pairs := [], accepting := false,
      accepts := [] }

namespace Network

/-- The far ends that `accept` returned, by their pairs, in order. -/
def accepted (s : Network) : List ℕ := s.accepts.filterMap Except.toOption

/-- A caller holds end `d` of pair `k`. -/
def Held (s : Network) (k : ℕ) : Side → Prop
  | .a => s.connects[k]? = some .returned
  | .b => k ∈ s.accepted

instance (s : Network) (k : ℕ) : ∀ d, Decidable (s.Held k d)
  | .a => inferInstanceAs (Decidable (s.connects[k]? = some .returned))
  | .b => inferInstanceAs (Decidable (k ∈ s.accepted))

/-- The future of connect `k` ends, and with it its clone of the sender. -/
def finish (s : Network) (k : ℕ) (state : ConnectState) (q : Mpsc ℕ) : Network :=
  { s with connects := s.connects.set k state, inbound := q.dropTx }

/-- Ends of the pairs in `ks` are dropped. -/
def closeEnds (s : Network) (ks : List ℕ) (d : Side) : Network :=
  { s with pairs := s.pairs.mapIdx fun k p => if k ∈ ks then p.closeEnd d else p }

/-- One step of the network and its callers. -/
def step (s : Network) : NetworkAction → Option Network
  | .connect =>
    if s.connectors = 0 then none
    else
      (duplex s.cfg).map fun p =>
        { s with
          connects := s.connects ++ [.pending]
          pairs := s.pairs ++ [p]
          inbound := s.inbound.cloneTx }
  | .pollConnect k =>
    if s.connects[k]? = some .pending then
      match s.inbound.trySend k with
      | .sent q => some (s.finish k .returned q)
      | .closed => some (((s.finish k .unreachable s.inbound).closeEnds [k] .b).closeEnds [k] .a)
      | .full => some s
    else none
  | .dropConnect k =>
    if s.connects[k]? = some .pending then
      some (((s.finish k .dropped s.inbound).closeEnds [k] .b).closeEnds [k] .a)
    else none
  | .cloneConnector =>
    if s.connectors = 0 then none
    else some { s with connectors := s.connectors + 1, inbound := s.inbound.cloneTx }
  | .dropConnector =>
    if s.connectors = 0 then none
    else some { s with connectors := s.connectors - 1, inbound := s.inbound.dropTx }
  | .accept =>
    if s.inbound.rxAlive ∧ s.accepting = false then some { s with accepting := true } else none
  | .pollAccept =>
    if s.accepting then
      match s.inbound.tryRecv with
      | .got k q => some { s with accepting := false, inbound := q, accepts := s.accepts ++ [.ok k] }
      | .closed => some { s with accepting := false, accepts := s.accepts ++ [.error .unreachable] }
      | .empty => some s
    else none
  | .dropAccept => if s.accepting then some { s with accepting := false } else none
  | .dropListener =>
    if s.inbound.rxAlive ∧ s.accepting = false then
      some ({ s with inbound := s.inbound.dropRx }.closeEnds s.inbound.buffer .b)
    else none
  | .channel k a =>
    if s.Held k a.side then
      (s.pairs[k]?).bind fun p => (p.step a).map fun p' => { s with pairs := s.pairs.set k p' }
    else none

/-! ## The pairing invariant -/

/-- The pair is one that `duplex` made, after steps of its own. -/
def Evolved (cfg : MemConfig) (p : Duplex) : Prop :=
  ∃ p₀ as, duplex cfg = some p₀ ∧ run Duplex.step p₀ as = some p

lemma Evolved.step {cfg : MemConfig} {p p' : Duplex} {a : MemAction} (h : Evolved cfg p)
    (hstep : p.step a = some p') : Evolved cfg p' := by
  obtain ⟨p₀, as, hnew, hrun⟩ := h
  exact ⟨p₀, as ++ [a], hnew, run_append.mpr ⟨p, hrun, run_cons.mpr ⟨p', hstep, rfl⟩⟩⟩

lemma Evolved.closeEnd {cfg : MemConfig} {p : Duplex} (h : Evolved cfg p) (d : Side) :
    Evolved cfg (p.closeEnd d) := by
  rw [Duplex.closeEnd]
  cases hstep : p.step (.dropEnd d) with
  | none => exact h
  | some p' => exact h.step hstep

/-- Every sender handle of the listener's queue is a connector or a pending connect; the far ends
that were ever in the queue are those of the connects that returned, each once; what was popped
was accepted; and `Unreachable` was returned only with nobody left to send. -/
structure Inv (s : Network) : Prop where
  pairs : ∀ p ∈ s.pairs, Evolved s.cfg p
  senders : s.inbound.senders = s.connectors + s.connects.count .pending
  entered : ∀ k, k ∈ s.inbound.pushed ↔ s.connects[k]? = some .returned
  nodup : s.inbound.pushed.Nodup
  accepted : s.inbound.popped = s.accepted
  listening : s.accepting = true → s.inbound.rxAlive = true
  hungUp : .error .unreachable ∈ s.accepts →
    s.connectors = 0 ∧ s.connects.count .pending = 0 ∧ s.accepted = s.inbound.pushed

lemma evolved_closeEnds {s : Network} {cfg : MemConfig} (h : ∀ p ∈ s.pairs, Evolved cfg p)
    (ks : List ℕ) (d : Side) : ∀ p ∈ (s.closeEnds ks d).pairs, Evolved cfg p := by
  intro p hp
  obtain ⟨k, hk, rfl⟩ := List.mem_mapIdx.mp hp
  split
  · exact (h _ (List.getElem_mem hk)).closeEnd d
  · exact h _ (List.getElem_mem hk)

lemma Inv.closeEnds {s : Network} (h : Inv s) (ks : List ℕ) (d : Side) : Inv (s.closeEnds ks d) :=
  { h with pairs := evolved_closeEnds h.pairs ks d }

/-! ## A pending connect ends -/

lemma count_set_pending {l : List ConnectState} {k : ℕ} {state : ConnectState}
    (hk : l[k]? = some .pending) (hstate : state ≠ .pending) :
    (l.set k state).count .pending + 1 = l.count .pending := by
  obtain ⟨hlt, hget⟩ := List.getElem?_eq_some_iff.mp hk
  have hmem : .pending ∈ l := List.mem_of_getElem? hk
  have hpos := List.one_le_count_iff.mpr hmem
  have hne : (state == .pending) = false := by simpa using hstate
  rw [List.count_set hlt, hget, hne]
  simp only [beq_self_eq_true, if_true, Bool.false_eq_true, if_false]
  omega

/-- A connect that is pending has nothing in the queue, and keeps `accept` from giving up. -/
lemma Inv.pending_facts {s : Network} (h : Inv s) {k : ℕ} (hk : s.connects[k]? = some .pending) :
    k ∉ s.inbound.pushed ∧ .error .unreachable ∉ s.accepts := by
  constructor
  · intro hmem
    have hret := (h.entered k).mp hmem
    rw [hk] at hret
    cases hret
  · intro hmem
    have hpos := List.one_le_count_iff.mpr (List.mem_of_getElem? hk)
    have hzero := (h.hungUp hmem).2.1
    omega

lemma Inv.finish_other {s : Network} (h : Inv s) {k : ℕ} {state : ConnectState}
    (hk : s.connects[k]? = some .pending) (hpending : state ≠ .pending)
    (hreturned : state ≠ .returned) : Inv (s.finish k state s.inbound) := by
  obtain ⟨hpushed, hlistens⟩ := h.pending_facts hk
  have hcount := count_set_pending hk hpending
  refine ⟨h.pairs, ?_, fun j => ?_, h.nodup, h.accepted, h.listening, fun hmem => ?_⟩
  · have hsenders := h.senders
    change s.inbound.senders - 1 = s.connectors + (s.connects.set k state).count .pending
    omega
  · change j ∈ s.inbound.pushed ↔ (s.connects.set k state)[j]? = some .returned
    by_cases hjk : k = j
    · subst hjk
      obtain ⟨hlt, -⟩ := List.getElem?_eq_some_iff.mp hk
      rw [List.getElem?_set_self hlt, Option.some.injEq]
      exact iff_of_false hpushed hreturned
    · rw [List.getElem?_set_ne hjk]
      exact h.entered j
  · exact absurd hmem hlistens

lemma Inv.finish_returned {s : Network} (h : Inv s) {k : ℕ} {q : Mpsc ℕ}
    (hk : s.connects[k]? = some .pending) (hq : s.inbound.trySend k = .sent q) :
    Inv (s.finish k .returned q) := by
  obtain ⟨hpushed, hlistens⟩ := h.pending_facts hk
  obtain ⟨-, hrx, hsenders, hpush, hpop⟩ := Mpsc.trySend_sent hq
  have hcount := count_set_pending hk (show ConnectState.returned ≠ .pending by decide)
  refine ⟨h.pairs, ?_, fun j => ?_, ?_, hpop.trans h.accepted, fun _ => hrx, fun hmem => ?_⟩
  · have hsum := h.senders
    change q.senders - 1 = s.connectors + (s.connects.set k .returned).count .pending
    omega
  · change j ∈ q.pushed ↔ (s.connects.set k .returned)[j]? = some .returned
    rw [hpush, List.mem_append, List.mem_singleton]
    by_cases hjk : k = j
    · subst hjk
      obtain ⟨hlt, -⟩ := List.getElem?_eq_some_iff.mp hk
      rw [List.getElem?_set_self hlt]
      exact iff_of_true (.inr rfl) rfl
    · rw [List.getElem?_set_ne hjk, ← h.entered j]
      exact or_iff_left fun hkj => hjk hkj.symm
  · change q.pushed.Nodup
    rw [hpush, ← List.concat_eq_append]
    exact List.Nodup.concat hpushed h.nodup
  · exact absurd hmem hlistens

/-! ## Steps -/

lemma inv_network {cfg : MemConfig} {s : Network} (hnew : network cfg = some s) : Inv s := by
  obtain ⟨q, hq, rfl⟩ := Option.map_eq_some_iff.mp hnew
  obtain ⟨hsenders, hrx, hpushed, hpopped⟩ := Mpsc.channel_eq_some hq
  refine ⟨by simp, hsenders, fun k => ?_, ?_, hpopped, fun _ => hrx, by simp⟩
  · simp [hpushed]
  · simp [hpushed]

lemma Inv.connect {s : Network} (h : Inv s) (hconn : s.connectors ≠ 0) {p : Duplex}
    (hp : duplex s.cfg = some p) :
    Inv { s with
      connects := s.connects ++ [.pending]
      pairs := s.pairs ++ [p]
      inbound := s.inbound.cloneTx } := by
  refine ⟨fun p' hp' => ?_, ?_, fun k => ?_, h.nodup, h.accepted, h.listening, fun hmem => ?_⟩
  · rcases List.mem_append.mp hp' with hp' | hp'
    · exact h.pairs p' hp'
    · obtain rfl := List.mem_singleton.mp hp'
      exact ⟨p', [], hp, rfl⟩
  · have hsum := h.senders
    change s.inbound.senders + 1 = s.connectors + (s.connects ++ [ConnectState.pending]).count .pending
    rw [List.count_append, List.count_singleton_self]
    omega
  · change k ∈ s.inbound.pushed ↔ (s.connects ++ [.pending])[k]? = some .returned
    rw [h.entered k, List.getElem?_append]
    split
    · rfl
    · rename_i hge
      rw [List.getElem?_eq_none (by omega)]
      refine iff_of_false (by simp) fun hget => ?_
      cases List.mem_singleton.mp (List.mem_of_getElem? hget)
  · exact absurd (h.hungUp hmem).1 hconn

lemma Inv.pollAccept_got {s : Network} (h : Inv s) {k : ℕ} {q : Mpsc ℕ}
    (hq : s.inbound.tryRecv = .got k q) :
    Inv { s with accepting := false, inbound := q, accepts := s.accepts ++ [.ok k] } := by
  obtain ⟨hrx, hsenders, hpushed, hpopped⟩ := Mpsc.tryRecv_got hq
  have haccepted : (s.accepts ++ [Except.ok k]).filterMap Except.toOption = s.accepted ++ [k] := by
    rw [List.filterMap_append]
    rfl
  refine ⟨h.pairs, hsenders.trans h.senders, fun j => ?_, ?_, ?_, by simp, fun hmem => ?_⟩
  · exact hpushed ▸ h.entered j
  · exact hpushed ▸ h.nodup
  · rw [Network.accepted, haccepted, hpopped, h.accepted]
  · -- with everything accepted there is nothing left to pop
    have hold := h.hungUp ((List.mem_append.mp hmem).resolve_right (by simp))
    have hle := q.order.length_le
    rw [hpopped, hpushed, h.accepted, hold.2.2, List.length_append] at hle
    exact absurd hle (by simp)

lemma Inv.pollAccept_closed {s : Network} (h : Inv s) (hacc : s.accepting = true)
    (hq : s.inbound.tryRecv = .closed) :
    Inv { s with accepting := false, accepts := s.accepts ++ [.error .unreachable] } := by
  obtain ⟨hsenders, hall⟩ := Mpsc.tryRecv_closed (h.listening hacc) hq
  have haccepted :
      (s.accepts ++ [Except.error ConnectError.unreachable]).filterMap Except.toOption = s.accepted := by
    rw [List.filterMap_append]
    exact List.append_nil _
  have hsum := h.senders
  refine ⟨h.pairs, h.senders, h.entered, h.nodup, ?_, by simp, fun _ => ?_⟩
  · rw [Network.accepted, haccepted, h.accepted]
  · rw [Network.accepted, haccepted, ← h.accepted]
    have hconn : s.connectors = 0 := by omega
    have hpending : s.connects.count .pending = 0 := by omega
    exact ⟨hconn, hpending, hall⟩

/-- What a step does to the network. -/
inductive Effect (s : Network) : Network → Prop where
  | none : Effect s s
  | connecting {p : Duplex} (hconn : s.connectors ≠ 0) (hp : duplex s.cfg = some p) :
      Effect s { s with
        connects := s.connects ++ [.pending]
        pairs := s.pairs ++ [p]
        inbound := s.inbound.cloneTx }
  | returned {k : ℕ} {q : Mpsc ℕ} (hk : s.connects[k]? = some .pending)
      (hq : s.inbound.trySend k = .sent q) : Effect s (s.finish k .returned q)
  /-- A connect comes to nothing, and both ends of its pair go. -/
  | lost {k : ℕ} {state : ConnectState} (hk : s.connects[k]? = some .pending)
      (hpending : state ≠ .pending) (hreturned : state ≠ .returned) :
      Effect s (((s.finish k state s.inbound).closeEnds [k] .b).closeEnds [k] .a)
  | cloned (hconn : s.connectors ≠ 0) :
      Effect s { s with connectors := s.connectors + 1, inbound := s.inbound.cloneTx }
  | dropped (hconn : s.connectors ≠ 0) :
      Effect s { s with connectors := s.connectors - 1, inbound := s.inbound.dropTx }
  | accepting {b : Bool} (hrx : b = true → s.inbound.rxAlive = true) :
      Effect s { s with accepting := b }
  | accepted {k : ℕ} {q : Mpsc ℕ} (hq : s.inbound.tryRecv = .got k q) :
      Effect s { s with accepting := false, inbound := q, accepts := s.accepts ++ [.ok k] }
  | hungUp (hacc : s.accepting = true) (hq : s.inbound.tryRecv = .closed) :
      Effect s { s with accepting := false, accepts := s.accepts ++ [.error .unreachable] }
  | deaf (hacc : s.accepting = false) :
      Effect s ({ s with inbound := s.inbound.dropRx }.closeEnds s.inbound.buffer .b)
  | channel {k : ℕ} {p p' : Duplex} {a : MemAction} (hp : s.pairs[k]? = some p)
      (hp' : p.step a = some p') : Effect s { s with pairs := s.pairs.set k p' }

lemma effect_of_step {s s' : Network} {a : NetworkAction} (hstep : s.step a = some s') :
    s.Effect s' := by
  cases a with
  | connect =>
    simp only [step] at hstep
    split at hstep
    · cases hstep
    · rename_i hconn
      obtain ⟨p, hp, rfl⟩ := Option.map_eq_some_iff.mp hstep
      exact .connecting hconn hp
  | pollConnect k =>
    simp only [step] at hstep
    split at hstep
    · rename_i hk
      split at hstep
      · rename_i q hq
        exact Option.some.inj hstep ▸ .returned hk hq
      -- the listener is gone, so the pair has nowhere to go
      · exact Option.some.inj hstep ▸ .lost hk (by decide) (by decide)
      · exact Option.some.inj hstep ▸ .none
    · cases hstep
  | dropConnect k =>
    simp only [step] at hstep
    split at hstep
    · rename_i hk
      exact Option.some.inj hstep ▸ .lost hk (by decide) (by decide)
    · cases hstep
  | cloneConnector =>
    simp only [step] at hstep
    split at hstep
    · cases hstep
    · rename_i hconn
      exact Option.some.inj hstep ▸ .cloned hconn
  | dropConnector =>
    simp only [step] at hstep
    split at hstep
    · cases hstep
    · rename_i hconn
      exact Option.some.inj hstep ▸ .dropped hconn
  | accept =>
    simp only [step] at hstep
    split at hstep
    · rename_i hguard
      exact Option.some.inj hstep ▸ .accepting fun _ => hguard.1
    · cases hstep
  | pollAccept =>
    simp only [step] at hstep
    split at hstep
    · rename_i hacc
      split at hstep
      · rename_i k q hq
        exact Option.some.inj hstep ▸ .accepted hq
      · rename_i hq
        exact Option.some.inj hstep ▸ .hungUp hacc hq
      · exact Option.some.inj hstep ▸ .none
    · cases hstep
  | dropAccept =>
    simp only [step] at hstep
    split at hstep
    · exact Option.some.inj hstep ▸ .accepting (by simp)
    · cases hstep
  | dropListener =>
    simp only [step] at hstep
    split at hstep
    · rename_i hguard
      exact Option.some.inj hstep ▸ .deaf hguard.2
    · cases hstep
  | channel k a =>
    simp only [step] at hstep
    split at hstep
    · obtain ⟨p, hp, hstep⟩ := Option.bind_eq_some_iff.mp hstep
      obtain ⟨p', hp', rfl⟩ := Option.map_eq_some_iff.mp hstep
      exact .channel hp hp'
    · cases hstep

/-- **The step lemma** of the network. -/
lemma step_inv {s s' : Network} {a : NetworkAction} (h : Inv s) (hstep : s.step a = some s') :
    Inv s' := by
  have hsum := h.senders
  cases effect_of_step hstep with
  | none => exact h
  | connecting hconn hp => exact h.connect hconn hp
  | returned hk hq => exact h.finish_returned hk hq
  | lost hk hpending hreturned => exact ((h.finish_other hk hpending hreturned).closeEnds _ _).closeEnds _ _
  | cloned hconn =>
    refine ⟨h.pairs, ?_, h.entered, h.nodup, h.accepted, h.listening,
      fun hmem => absurd (h.hungUp hmem).1 hconn⟩
    show s.inbound.senders + 1 = s.connectors + 1 + s.connects.count .pending
    omega
  | dropped hconn =>
    refine ⟨h.pairs, ?_, h.entered, h.nodup, h.accepted, h.listening,
      fun hmem => absurd (h.hungUp hmem).1 hconn⟩
    show s.inbound.senders - 1 = s.connectors - 1 + s.connects.count .pending
    omega
  | accepting hrx => exact { h with listening := hrx }
  | accepted hq => exact h.pollAccept_got hq
  | hungUp hacc hq => exact h.pollAccept_closed hacc hq
  | deaf hacc =>
    refine Inv.closeEnds ?_ _ _
    exact { h with listening := fun hacc' => absurd (hacc.symm.trans hacc') (by decide) }
  | @channel k p p' a hp hp' =>
    refine { h with pairs := fun p'' hp'' => ?_ }
    rcases List.mem_or_eq_of_mem_set hp'' with hp'' | rfl
    · exact h.pairs p'' hp''
    · exact (h.pairs p (List.mem_of_getElem? hp)).step hp'

/-! ## Connects that came to nothing -/

/-- How a connect ended does not change any more. -/
lemma ended_stays {s s' : Network} {a : NetworkAction} (hstep : s.step a = some s') {k : ℕ}
    {state : ConnectState} (hk : s.connects[k]? = some state) (hended : state ≠ .pending) :
    s'.connects[k]? = some state := by
  have hfinish : ∀ {j}, s.connects[j]? = some .pending → ∀ state',
      (s.connects.set j state')[k]? = some state := by
    intro j hj state'
    have hjk : j ≠ k := by
      rintro rfl
      exact hended (Option.some.inj (hk.symm.trans hj))
    rw [List.getElem?_set_ne hjk, hk]
  cases effect_of_step hstep with
  | connecting hconn hp =>
    obtain ⟨hlt, -⟩ := List.getElem?_eq_some_iff.mp hk
    exact (List.getElem?_append_left hlt).trans hk
  | returned hj hq => exact hfinish hj _
  | lost hj hpending hreturned => exact hfinish hj _
  | none | cloned hconn | dropped hconn | accepting hrx | accepted hq | hungUp hacc hq | deaf hacc
  | channel hp hp' => exact hk

lemma run_inv {s s' : Network} (h : Inv s) {as : List NetworkAction}
    (hrun : run step s as = some s') : Inv s' :=
  run_invariant (fun _ _ _ hI hstep => step_inv hI hstep) h hrun

lemma Inv.mem_accepted {s : Network} (h : Inv s) {k : ℕ} (hk : k ∈ s.accepted) :
    s.connects[k]? = some .returned :=
  (h.entered k).mp (s.inbound.order.subset (h.accepted.symm ▸ hk))

/-- An action on one pair leaves the others alone. -/
lemma channel_frame {s s' : Network} {k : ℕ} {a : MemAction} (hstep : s.step (.channel k a) = some s')
    {j : ℕ} (hj : j ≠ k) : s'.pairs[j]? = s.pairs[j]? := by
  simp only [step] at hstep
  split at hstep
  · obtain ⟨p, -, hstep⟩ := Option.bind_eq_some_iff.mp hstep
    obtain ⟨p', -, rfl⟩ := Option.map_eq_some_iff.mp hstep
    exact List.getElem?_set_ne hj.symm
  · cases hstep

/-- **Pairing.**  After every run: the channels that `accept` returned are the far ends of the first
connects that entered the listener's queue, in this order and each once; the connects that entered
it are those that returned a channel, and one that ended otherwise is never accepted later; a
pair carries in each direction what its own ends send, and an action on one pair leaves the others
alone; and `accept` gives up only with all connectors gone and all queued ends handed out. -/
theorem network_pairing {cfg : MemConfig} {s₀ s : Network} (hnew : network cfg = some s₀)
    {as : List NetworkAction} (hrun : run step s₀ as = some s) :
    s.accepted <+: s.inbound.pushed ∧ s.accepted.Nodup ∧
      (∀ k, k ∈ s.inbound.pushed ↔ s.connects[k]? = some .returned) ∧
      (∀ k state, s.connects[k]? = some state → state = .unreachable ∨ state = .dropped →
        ∀ as' s', run step s as' = some s' → k ∉ s'.accepted) ∧
      (∀ p ∈ s.pairs, ∀ d, (p.ends d.other).received <+: (p.ends d).enqueued) ∧
      (∀ k a s', s.step (.channel k a) = some s' → ∀ j, j ≠ k → s'.pairs[j]? = s.pairs[j]?) ∧
      (.error .unreachable ∈ s.accepts →
        s.connectors = 0 ∧ .pending ∉ s.connects ∧ s.accepted = s.inbound.pushed) := by
  have hinv : Inv s := run_inv (inv_network hnew) hrun
  have horder : s.accepted <+: s.inbound.pushed := hinv.accepted ▸ s.inbound.order
  refine ⟨horder, horder.sublist.nodup hinv.nodup, hinv.entered, ?_, ?_, ?_, ?_⟩
  · rintro k state hk hstate as' s' hrun' hmem
    have hended : state ≠ .pending ∧ state ≠ .returned := by
      rcases hstate with rfl | rfl <;> decide
    have hk' : s'.connects[k]? = some state :=
      run_invariant (I := fun t => t.connects[k]? = some state)
        (fun _ _ _ ht hstep => ended_stays hstep ht hended.1) hk hrun'
    have hret := (run_inv hinv hrun').mem_accepted hmem
    exact hended.2 (Option.some.inj (hk'.symm.trans hret))
  · intro p hp d
    obtain ⟨p₀, as', hp₀, hrun'⟩ := hinv.pairs p hp
    exact (Duplex.received_prefix hp₀ hrun' d)
  · intro k a s' hstep j hjk
    exact channel_frame hstep hjk
  · intro hmem
    obtain ⟨hconn, hcount, hall⟩ := hinv.hungUp hmem
    exact ⟨hconn, List.count_eq_zero.mp hcount, hall⟩

/-- Two connects, one of them dropped; the other one's message arrives; then the connector goes. -/
theorem network_pairing_one_dropped :
    ∃ s₀ s, network ⟨none, none, none, none, .confirmed⟩ = some s₀ ∧
      run step s₀ [.connect, .connect, .dropConnect 0, .pollConnect 1, .accept, .pollAccept,
        .channel 1 (.send .a [7]), .channel 1 (.poll .a false false), .channel 1 (.recv .b),
        .channel 1 (.poll .b false false), .dropConnector, .accept, .pollAccept] = some s ∧
      s.accepts = [.ok 1, .error .unreachable] ∧ s.accepted <+: s.inbound.pushed := by
  refine ⟨_, _, rfl, Option.eq_some_of_isSome (by decide), by decide, ?_⟩
  exact (network_pairing (rfl : network ⟨none, none, none, none, .confirmed⟩ = some _)
    (Option.eq_some_of_isSome (by decide))).1

end Network

end FungiTransport
