import FungiTransport.Capnp.Registry
import FungiTransport.Mem.Settle

/-!
# The in-memory transport

`MemTransport` is a factory over one network: it hands out clones of its connector, and its listener
to the first caller of `listen`.  It is dropped with what it still has, the listener included if
nobody has listened; the far ends that wait for it are then dropped too.
-/

namespace FungiTransport

open Lib

/-- `MemTransport`, the network that it is a factory over, and what the callers of `listen` got. -/
structure MemTransport where
  network : Network
  /-- The listener is in its mutex. -/
  listener : Bool
  alive : Bool
  listens : List (Except ConnectError Unit)

inductive TransportAction where
  | connector
  | listen (params : ListenParams)
  | dropTransport
  /-- Something happens in the network. -/
  | network (a : NetworkAction)
deriving DecidableEq

/-- The result that a call of `listen` adds. -/
def TransportAction.listens : TransportAction → Bool
  | .listen _ => true
  | .connector | .dropTransport | .network _ => false

/-- The action is one of whoever holds the listener. -/
def NetworkAction.hears : NetworkAction → Bool
  | .accept | .pollAccept | .dropAccept | .dropListener => true
  | .connect | .pollConnect _ | .dropConnect _ | .cloneConnector | .dropConnector
  | .channel _ _ => false

namespace MemTransport

/-- `MemTransport::new` -/
def new (cfg : MemConfig) : Option MemTransport :=
  (FungiTransport.network cfg).map fun net => ⟨net, true, true, []⟩

/-- The number of connectors that callers hold; one more belongs to the transport. -/
def connectors (t : MemTransport) : ℕ := t.network.connectors - t.alive.toNat

/-- The caller has what the action needs. -/
def permits (t : MemTransport) : NetworkAction → Bool
  | .connect | .cloneConnector | .dropConnector => 0 < t.connectors
  | .accept | .pollAccept | .dropAccept | .dropListener => !t.listener
  | .pollConnect _ | .dropConnect _ | .channel _ _ => true

/-- One step of the transport and its callers. -/
def step (t : MemTransport) : TransportAction → Option MemTransport
  | .connector =>
    if t.alive then (t.network.step .cloneConnector).map fun net => { t with network := net }
    else none
  | .listen _ =>
    if t.alive then
      if t.listener then some { t with listener := false, listens := t.listens ++ [.ok ()] }
      else some { t with listens := t.listens ++ [.error .unreachable] }
    else none
  | .dropTransport =>
    if t.alive then
      (t.network.step .dropConnector).bind fun net =>
        if t.listener then
          (net.step .dropListener).map fun net =>
            { t with network := net, listener := false, alive := false }
        else some { t with network := net, alive := false }
    else none
  | .network a =>
    if t.permits a then (t.network.step a).map fun net => { t with network := net } else none

end MemTransport

/-! ## Ends that are gone -/

namespace Duplex

/-- A dropped end stays so. -/
lemma dead_of_step {s s' : Duplex} {a : MemAction} (h : Inv s) (hstep : s.step a = some s')
    {d : Side} (hdead : (s.ends d).alive = false) : (s'.ends d).alive = false := by
  obtain ⟨e, heff⟩ := effect_of_step h hstep
  rcases d.eq_or_eq_other e with rfl | rfl
  · cases heff with
    | keep halive | receive halive => simpa [hdead] using halive
    | enqueue hlive halive | hangUp hlive halive => simpa [hdead] using halive
    | drop hlive halive => simpa using halive
  · cases heff <;> simpa using hdead

lemma dead_closeEnd {s : Duplex} {d e : Side} (hdead : (s.ends e).alive = false) :
    ((s.closeEnd d).ends e).alive = false := by
  rw [closeEnd]
  cases hstep : s.step (.dropEnd d) with
  | none => exact hdead
  | some s' =>
    obtain ⟨ch, hidle, rfl⟩ := Option.map_eq_some_iff.mp hstep
    rcases e.eq_or_eq_other d with rfl | rfl
    · simp
    · simpa using hdead

/-- An end that nobody calls is dropped when it is to be. -/
lemma closeEnd_dead {s : Duplex} {d : Side} (hfut : (s.ends d).fut = none) :
    ((s.closeEnd d).ends d).alive = false := by
  cases halive : (s.ends d).alive with
  | false => exact dead_closeEnd halive
  | true => simp [closeEnd, step, idle, halive, hfut]

end Duplex

namespace Network

/-- With the listener gone, a far end that nobody has accepted is dropped. -/
def Orphans (s : Network) : Prop :=
  s.inbound.rxAlive = false → ∀ (k : ℕ) p, s.pairs[k]? = some p →
    s.connects[k]? = some .returned → k ∉ s.accepted → (p.ends .b).alive = false

/-- A connect fails only when the listener is gone. -/
def Refused (s : Network) : Prop := .unreachable ∈ s.connects → s.inbound.rxAlive = false

lemma dead_closeEnds {s : Network} {ks : List ℕ} {e : Side} {k : ℕ} {p' : Duplex}
    (hp' : (s.closeEnds ks e).pairs[k]? = some p') :
    ∃ p, s.pairs[k]? = some p ∧ (∀ d, (p.ends d).alive = false → (p'.ends d).alive = false) ∧
      (k ∈ ks → (p.ends e).fut = none → (p'.ends e).alive = false) := by
  rw [closeEnds, List.getElem?_mapIdx] at hp'
  obtain ⟨p, hp, rfl⟩ := Option.map_eq_some_iff.mp hp'
  refine ⟨p, hp, fun d hdead => ?_, fun hk hfut => ?_⟩
  · split
    · exact Duplex.dead_closeEnd hdead
    · exact hdead
  · rw [if_pos hk]
    exact Duplex.closeEnd_dead hfut

lemma length_of_step {s s' : Network} {a : NetworkAction} (h : s.pairs.length = s.connects.length)
    (hstep : s.step a = some s') : s'.pairs.length = s'.connects.length := by
  cases effect_of_step hstep <;> simp [closeEnds, finish, h]

lemma step_orphans {s s' : Network} {a : NetworkAction} (h : Orphans s) (hinv : Inv s)
    (hengaged : Engaged s) (hlength : s.pairs.length = s.connects.length)
    (hstep : s.step a = some s') : Orphans s' := by
  intro hrx k p' hp' hk hnot
  cases effect_of_step hstep with
  | none | cloned hconn | dropped hconn | accepting hacc => exact h hrx k p' hp' hk hnot
  | connecting hconn hp =>
    rw [List.getElem?_append] at hk
    split at hk
    · rename_i hlt
      rw [List.getElem?_append_left (by omega)] at hp'
      exact h hrx k p' hp' hk hnot
    · cases List.mem_singleton.mp (List.mem_of_getElem? hk)
  | returned hj hq => exact absurd ((Mpsc.trySend_sent hq).2.1.symm.trans hrx) (by decide)
  | @lost j state hj hpending hreturned =>
    obtain ⟨p, hp, hdead, -⟩ := dead_closeEnds hp'
    obtain ⟨r, hr, hdead', -⟩ := dead_closeEnds hp
    have hjk : j ≠ k := by
      rintro rfl
      obtain ⟨hlt, -⟩ := List.getElem?_eq_some_iff.mp hj
      exact hreturned (by simpa [closeEnds, finish, List.getElem?_set_self hlt] using hk)
    have hk' : s.connects[k]? = some .returned := by
      simpa [closeEnds, finish, List.getElem?_set_ne hjk] using hk
    exact hdead _ (hdead' _ (h hrx k r hr hk' hnot))
  | accepted hq =>
    refine h ((Mpsc.tryRecv_got hq).1.symm.trans hrx) k p' hp' hk fun hmem => hnot ?_
    simp only [accepted, List.filterMap_append, List.mem_append]
    exact .inl hmem
  | hungUp hacc hq =>
    refine h hrx k p' hp' hk fun hmem => hnot ?_
    simp only [accepted, List.filterMap_append, List.mem_append]
    exact .inl hmem
  | deaf hacc =>
    obtain ⟨p, hp, hdead, hclosed⟩ := dead_closeEnds hp'
    cases halive : s.inbound.rxAlive with
    | false => exact hdead _ (h halive k p hp hk hnot)
    | true =>
      -- what was pushed and not accepted is in the queue that is dropped
      have hpushed := (hinv.entered k).mpr hk
      rw [s.inbound.kept halive, hinv.accepted] at hpushed
      refine hclosed ((List.mem_append.mp hpushed).resolve_left hnot) ?_
      by_contra hfut
      exact hnot (hengaged k p .b hp hfut)
  | @channel j p q b hp hmove =>
    by_cases hjk : j = k
    · subst hjk
      obtain ⟨hlt, -⟩ := List.getElem?_eq_some_iff.mp hp
      obtain rfl : q = p' := by simpa [List.getElem?_set_self hlt] using hp'
      obtain ⟨p₀, as, hnew, hrun⟩ := hinv.pairs p (List.mem_of_getElem? hp)
      exact Duplex.dead_of_step (Duplex.run_inv hnew hrun).1 hmove (h hrx j p hp hk hnot)
    · exact h hrx k p' (by simpa [List.getElem?_set_ne hjk] using hp') hk hnot

/-- A listener that is gone stays so, and gets nothing more. -/
lemma deaf_of_step {s s' : Network} {a : NetworkAction} (hstep : s.step a = some s')
    (hrx : s.inbound.rxAlive = false) :
    s'.inbound.rxAlive = false ∧ s'.inbound.pushed = s.inbound.pushed := by
  cases effect_of_step hstep with
  | returned hj hq => exact absurd ((Mpsc.trySend_sent hq).1.symm.trans hrx) (by decide)
  | accepted hq =>
    obtain ⟨halive, -, hpushed, -⟩ := Mpsc.tryRecv_got hq
    exact ⟨halive.trans hrx, hpushed⟩
  | deaf hacc => exact ⟨rfl, rfl⟩
  | _ => exact ⟨hrx, rfl⟩

/-- As many connects have returned as far ends were sent. -/
lemma sent_of_step {s s' : Network} {a : NetworkAction} (hstep : s.step a = some s')
    (h : s.connects.count .returned = s.inbound.pushed.length) :
    s'.connects.count .returned = s'.inbound.pushed.length := by
  have hset : ∀ {k : ℕ} {state : ConnectState}, s.connects[k]? = some .pending →
      (s.connects.set k state).count .returned =
        s.connects.count .returned + if state = .returned then 1 else 0 := by
    intro k state hk
    obtain ⟨hlt, hget⟩ := List.getElem?_eq_some_iff.mp hk
    simp [List.count_set hlt, hget]
  cases effect_of_step hstep with
  | connecting hconn hp =>
    change (s.connects ++ [ConnectState.pending]).count .returned = s.inbound.pushed.length
    simpa [List.count_append] using h
  | @returned k q hk hq =>
    obtain ⟨-, -, -, hpushed, -⟩ := Mpsc.trySend_sent hq
    change (s.connects.set k .returned).count .returned = q.pushed.length
    rw [hset hk, hpushed, List.length_append, h]
    rfl
  | @lost k state hk hpending hreturned =>
    change (s.connects.set k state).count .returned = s.inbound.pushed.length
    rw [hset hk, if_neg hreturned, h, Nat.add_zero]
  | accepted hq =>
    obtain ⟨-, -, hpushed, -⟩ := Mpsc.tryRecv_got hq
    exact hpushed ▸ h
  | _ => exact h

lemma step_refused {s s' : Network} {a : NetworkAction} (h : Refused s)
    (hstep : s.step a = some s') : Refused s' := by
  intro hmem
  suffices hrx : s.inbound.rxAlive = false from (deaf_of_step hstep hrx).1
  by_cases hold : .unreachable ∈ s.connects
  · exact h hold
  · -- it is new, so the receiver was found gone
    have hset : ∀ {k : ℕ} {state : ConnectState}, state ≠ .unreachable →
        .unreachable ∉ s.connects.set k state := fun hne hin =>
      (List.mem_or_eq_of_mem_set hin).elim hold fun heq => hne heq.symm
    cases a with
    | pollConnect k =>
      simp only [step] at hstep
      split at hstep
      · split at hstep <;> obtain rfl := Option.some.inj hstep
        · exact absurd hmem (hset (by decide))
        · rename_i hclosed
          exact Mpsc.trySend_closed hclosed
        · exact absurd hmem hold
      · cases hstep
    | dropConnect k =>
      simp only [step] at hstep
      split at hstep
      · obtain rfl := Option.some.inj hstep
        exact absurd hmem (hset (by decide))
      · cases hstep
    | connect =>
      simp only [step] at hstep
      split at hstep
      · cases hstep
      · obtain ⟨p, -, rfl⟩ := Option.map_eq_some_iff.mp hstep
        simp [hold] at hmem
    | cloneConnector | dropConnector =>
      simp only [step] at hstep
      split at hstep
      · cases hstep
      · obtain rfl := Option.some.inj hstep
        exact absurd hmem hold
    | accept | dropAccept | dropListener =>
      simp only [step] at hstep
      split at hstep
      · obtain rfl := Option.some.inj hstep
        exact absurd hmem hold
      · cases hstep
    | pollAccept =>
      simp only [step] at hstep
      split at hstep
      · split at hstep <;> obtain rfl := Option.some.inj hstep <;> exact absurd hmem hold
      · cases hstep
    | channel k b =>
      simp only [step] at hstep
      split at hstep
      · obtain ⟨p, -, hstep⟩ := Option.bind_eq_some_iff.mp hstep
        obtain ⟨q, -, rfl⟩ := Option.map_eq_some_iff.mp hstep
        exact absurd hmem hold
      · cases hstep

/-- A connector goes only when it is dropped. -/
lemma connectors_of_step {s s' : Network} {a : NetworkAction} (hstep : s.step a = some s') :
    s.connectors ≤ s'.connectors ∨ a = .dropConnector ∧ s'.connectors = s.connectors - 1 := by
  by_cases ha : a = .dropConnector
  · subst ha
    simp only [step] at hstep
    split at hstep
    · cases hstep
    · exact .inr ⟨rfl, Option.some.inj hstep ▸ rfl⟩
  · left
    cases a <;> simp only [step] at hstep <;>
      grind [finish, closeEnds, Option.map_eq_some_iff, Option.bind_eq_some_iff]

/-- Only whoever holds the listener does something to it. -/
lemma quiet_of_step {s s' : Network} {a : NetworkAction} (hears : a.hears = false)
    (hstep : s.step a = some s') : s'.accepts = s.accepts ∧ s'.accepting = s.accepting ∧
      s'.inbound.rxAlive = s.inbound.rxAlive := by
  cases a with
  | accept | pollAccept | dropAccept | dropListener => cases hears
  | pollConnect k =>
    simp only [step] at hstep
    split at hstep
    · split at hstep <;> obtain rfl := Option.some.inj hstep
      · rename_i hq
        obtain ⟨halive, halive', -⟩ := Mpsc.trySend_sent hq
        exact ⟨rfl, rfl, halive'.trans halive.symm⟩
      · exact ⟨rfl, rfl, rfl⟩
      · exact ⟨rfl, rfl, rfl⟩
    · cases hstep
  | connect | dropConnect | cloneConnector | dropConnector | channel =>
    simp only [step] at hstep
    grind [finish, closeEnds, Mpsc.cloneTx, Mpsc.dropTx, Option.map_eq_some_iff,
      Option.bind_eq_some_iff]

/-- What holds of a network in every run. -/
structure Steady (cfg : MemConfig) (s : Network) : Prop where
  sane : Sane cfg s
  length : s.pairs.length = s.connects.length
  orphans : Orphans s
  refused : Refused s
  sent : s.connects.count .returned = s.inbound.pushed.length

lemma steady_network {cfg : MemConfig} {s : Network} (hnew : network cfg = some s) :
    Steady cfg s := by
  have hsane := sane_network hnew
  obtain ⟨q, hq, rfl⟩ := Option.map_eq_some_iff.mp hnew
  obtain ⟨-, -, hpushed, -⟩ := Mpsc.channel_eq_some hq
  refine ⟨hsane, rfl, fun _ k p hp => ?_, fun hmem => ?_, by simp [hpushed]⟩
  · simp at hp
  · simp at hmem

lemma step_steady {cfg : MemConfig} {s s' : Network} {a : NetworkAction} (h : Steady cfg s)
    (hstep : s.step a = some s') : Steady cfg s' :=
  ⟨step_sane h.sane hstep, length_of_step h.length hstep,
    step_orphans h.orphans h.sane.inv h.sane.engaged h.length hstep,
    step_refused h.refused hstep, sent_of_step hstep h.sent⟩

/-- Nobody has called `accept`, so the queue holds what was sent. -/
structure Unheard (s : Network) : Prop where
  accepts : s.accepts = []
  accepting : s.accepting = false
  room : s.inbound.pushed.length ≤ 8

lemma step_unheard {cfg : MemConfig} {s s' : Network} {a : NetworkAction} (h : Unheard s)
    (hsane : Sane cfg s) (ha : a ≠ .accept) (hstep : s.step a = some s') : Unheard s' := by
  have hsane' := step_sane hsane hstep
  have hquiet : s'.accepts = s.accepts ∧ s'.accepting = s.accepting := by
    cases hears : a.hears with
    | false => exact ⟨(quiet_of_step hears hstep).1, (quiet_of_step hears hstep).2.1⟩
    | true =>
      cases a with
      | accept => exact absurd rfl ha
      | pollAccept | dropAccept => simp [step, h.accepting] at hstep
      | dropListener =>
        simp only [step] at hstep
        split at hstep
        · exact Option.some.inj hstep ▸ ⟨rfl, rfl⟩
        · cases hstep
      | _ => cases hears
  refine ⟨hquiet.1.trans h.accepts, hquiet.2.trans h.accepting, ?_⟩
  have hpopped : s'.inbound.popped = [] := by
    rw [hsane'.inv.accepted, Network.accepted, hquiet.1, h.accepts]
    rfl
  cases halive : s'.inbound.rxAlive with
  | true =>
    have hbound := s'.inbound.bounded
    rw [hsane'.capacity] at hbound
    rw [s'.inbound.kept halive, hpopped]
    exact hbound
  | false =>
    cases hold : s.inbound.rxAlive with
    | false =>
      rw [(deaf_of_step hstep hold).2]
      exact h.room
    | true =>
      -- the listener went in this step, which sends nothing
      cases effect_of_step hstep with
      | returned hk hq => exact absurd ((Mpsc.trySend_sent hq).2.1.symm.trans halive) (by decide)
      | accepted hq =>
        exact absurd ((Mpsc.tryRecv_got hq).1.symm.trans halive) (by simp [hold])
      | _ => exact h.room

end Network

/-! ## The transport -/

namespace MemTransport

/-- What holds of a transport and its network in every run. -/
structure Inv (cfg : MemConfig) (t : MemTransport) : Prop where
  steady : Network.Steady cfg t.network
  /-- A transport has its own connector. -/
  connector : t.alive = true → 0 < t.network.connectors
  /-- It has the listener until somebody asks for it. -/
  listener : t.listener = true ↔ t.alive = true ∧ t.listens = []
  /-- Nobody accepts before that. -/
  unheard : t.listens = [] → Network.Unheard t.network ∧ t.network.inbound.rxAlive = t.alive

lemma inv_new {cfg : MemConfig} {t : MemTransport} (hnew : new cfg = some t) : Inv cfg t := by
  obtain ⟨net, hnet, rfl⟩ := Option.map_eq_some_iff.mp hnew
  have hsteady := Network.steady_network hnet
  obtain ⟨q, hq, rfl⟩ := Option.map_eq_some_iff.mp hnet
  obtain ⟨-, hrx, hpushed, -⟩ := Mpsc.channel_eq_some hq
  exact ⟨hsteady, fun _ => Nat.one_pos, by simp, fun _ => ⟨⟨rfl, rfl, by simp [hpushed]⟩, hrx⟩⟩

/-- Before anybody asks for it, nobody but the transport has the listener. -/
lemma Inv.not_hears {cfg : MemConfig} {t : MemTransport} {a : NetworkAction} {net : Network}
    (h : Inv cfg t) (hnil : t.listens = []) (hpermits : t.permits a = true)
    (hstep : t.network.step a = some net) : a.hears = false := by
  obtain ⟨hunheard, hrx⟩ := h.unheard hnil
  by_contra hears
  have hgone (hl : (!t.listener) = true) : t.network.inbound.rxAlive = false := by
    rw [hrx]
    by_contra halive
    have htrue := h.listener.mpr ⟨Bool.not_eq_false _ |>.mp halive, hnil⟩
    simp [htrue] at hl
  cases a with
  | accept | dropListener => simp [Network.step, hgone hpermits] at hstep
  | pollAccept | dropAccept => simp [Network.step, hunheard.accepting] at hstep
  | _ => exact hears rfl

/-- **The step lemma** of the transport. -/
lemma step_inv {cfg : MemConfig} {t t' : MemTransport} {a : TransportAction} (h : Inv cfg t)
    (hstep : t.step a = some t') : Inv cfg t' := by
  cases a with
  | connector =>
    simp only [step] at hstep
    split at hstep
    · rename_i halive
      obtain ⟨net, hnet, rfl⟩ := Option.map_eq_some_iff.mp hstep
      refine ⟨Network.step_steady h.steady hnet, fun _ => ?_, h.listener, fun hnil => ?_⟩
      · exact (h.connector halive).trans_le
          ((Network.connectors_of_step hnet).resolve_right (by simp))
      · obtain ⟨hunheard, hrx⟩ := h.unheard hnil
        exact ⟨Network.step_unheard hunheard h.steady.sane (by decide) hnet,
          (Network.quiet_of_step rfl hnet).2.2.trans hrx⟩
    · cases hstep
  | listen params =>
    simp only [step] at hstep
    split at hstep
    · rename_i halive
      split at hstep <;> obtain rfl := Option.some.inj hstep
      · exact { h with listener := by simp, unheard := by simp }
      · rename_i htaken
        exact { h with listener := by simpa using htaken, unheard := by simp }
    · cases hstep
  | dropTransport =>
    simp only [step] at hstep
    split at hstep
    · rename_i halive
      obtain ⟨net, hnet, hstep⟩ := Option.bind_eq_some_iff.mp hstep
      have hsteady := Network.step_steady h.steady hnet
      split at hstep
      · rename_i htrue
        obtain ⟨net', hnet', rfl⟩ := Option.map_eq_some_iff.mp hstep
        refine ⟨Network.step_steady hsteady hnet', by simp, by simp, fun hnil => ?_⟩
        obtain ⟨hunheard, -⟩ := h.unheard hnil
        have hunheard' := Network.step_unheard hunheard h.steady.sane (by decide) hnet
        refine ⟨Network.step_unheard hunheard' hsteady.sane (by decide) hnet', ?_⟩
        simp only [Network.step] at hnet'
        split at hnet'
        · exact Option.some.inj hnet' ▸ rfl
        · cases hnet'
      · rename_i htaken
        obtain rfl := Option.some.inj hstep
        refine ⟨hsteady, by simp, by simpa using htaken, fun hnil => ?_⟩
        exact absurd (h.listener.mpr ⟨halive, hnil⟩) htaken
    · cases hstep
  | network a =>
    simp only [step] at hstep
    split at hstep
    · rename_i hpermits
      obtain ⟨net, hnet, rfl⟩ := Option.map_eq_some_iff.mp hstep
      refine ⟨Network.step_steady h.steady hnet, fun halive => ?_, h.listener, fun hnil => ?_⟩
      · have hpos := h.connector halive
        rcases Network.connectors_of_step hnet with hle | ⟨rfl, heq⟩
        · exact hpos.trans_le hle
        · have hspare : 0 < t.connectors := of_decide_eq_true hpermits
          rw [connectors, halive, Bool.toNat_true, ← heq] at hspare
          exact hspare
      · have hears := h.not_hears hnil hpermits hnet
        obtain ⟨hunheard, hrx⟩ := h.unheard hnil
        refine ⟨Network.step_unheard hunheard h.steady.sane ?_ hnet,
          (Network.quiet_of_step hears hnet).2.2.trans hrx⟩
        rintro rfl
        cases hears
    · cases hstep

/-- What `n` calls of `listen` give. -/
def grants (n : ℕ) : List (Except ConnectError Unit) :=
  (List.replicate n (.error .unreachable)).set 0 (.ok ())

lemma grants_succ : ∀ n,
    grants (n + 1) = grants n ++ [if n = 0 then .ok () else .error .unreachable]
  | 0 => rfl
  | n + 1 => by simp [grants, List.replicate_succ, ← List.replicate_succ']

lemma listens_of_step {cfg : MemConfig} {t t' : MemTransport} {a : TransportAction} (h : Inv cfg t)
    {n : ℕ} (hn : t.listens = grants n) (hstep : t.step a = some t') :
    t'.listens = grants (n + if a.listens then 1 else 0) := by
  cases a with
  | listen params =>
    have hzero : t.listens = [] ↔ n = 0 := by
      rw [hn, ← List.length_eq_zero_iff, grants, List.length_set, List.length_replicate]
    have hgranted := h.listener
    simp only [step] at hstep
    split at hstep
    · rename_i halive
      split at hstep <;> obtain rfl := Option.some.inj hstep
      · rename_i htrue
        have hn0 := hzero.mp (hgranted.mp htrue).2
        simp [TransportAction.listens, grants_succ, hn, hn0]
      · rename_i htaken
        have hn0 : n ≠ 0 := fun h0 => htaken (hgranted.mpr ⟨halive, hzero.mpr h0⟩)
        simp [TransportAction.listens, grants_succ, hn, hn0]
    · cases hstep
  | connector | network =>
    simp only [step] at hstep
    split at hstep
    · obtain ⟨net, -, rfl⟩ := Option.map_eq_some_iff.mp hstep
      exact hn
    · cases hstep
  | dropTransport =>
    simp only [step] at hstep
    split at hstep
    · obtain ⟨net, -, hstep⟩ := Option.bind_eq_some_iff.mp hstep
      split at hstep
      · obtain ⟨net', -, rfl⟩ := Option.map_eq_some_iff.mp hstep
        exact hn
      · exact Option.some.inj hstep ▸ hn
    · cases hstep

lemma run_inv {cfg : MemConfig} {t t' : MemTransport} {as : List TransportAction} {n : ℕ}
    (h : Inv cfg t) (hn : t.listens = grants n) (hrun : run step t as = some t') :
    Inv cfg t' ∧ t'.listens = grants (n + as.countP TransportAction.listens) := by
  induction as generalizing t n with
  | nil =>
    obtain rfl : t = t' := by simpa using hrun
    exact ⟨h, hn⟩
  | cons a as ih =>
    obtain ⟨u, hstep, hrun'⟩ := run_cons.mp hrun
    obtain ⟨hinv, hlistens⟩ := ih (step_inv h hstep) (listens_of_step h hn hstep) hrun'
    refine ⟨hinv, ?_⟩
    rw [hlistens, List.countP_cons, Nat.add_assoc, Nat.add_comm (List.countP _ _)]

/-- **The listener is given out once.**  After every run of a transport, its network and the
channels on it: the first call of `listen` got the listener and every other one `Unreachable`.
Until that call nobody accepts, at most eight connects have returned, and none was refused while
the transport lived; if it was dropped, the far ends of those connects went with it.  While it
lives, `accept` never gives up; and a connect is refused only once the listener is gone. -/
theorem listen_once {cfg : MemConfig} {t t' : MemTransport} (hnew : new cfg = some t)
    {as : List TransportAction} (hrun : run step t as = some t') :
    t'.listens = grants (as.countP TransportAction.listens) ∧
      (t'.listens = [] → t'.network.accepts = [] ∧ t'.network.connects.count .returned ≤ 8 ∧
        (.unreachable ∈ t'.network.connects → t'.alive = false) ∧
        (t'.alive = false → ∀ (k : ℕ) p, t'.network.pairs[k]? = some p →
          t'.network.connects[k]? = some .returned → (p.ends .b).alive = false)) ∧
      (t'.alive = true → .error .unreachable ∉ t'.network.accepts) ∧
      (.unreachable ∈ t'.network.connects → t'.network.inbound.rxAlive = false) := by
  have hempty : t.listens = grants 0 := by
    obtain ⟨net, -, rfl⟩ := Option.map_eq_some_iff.mp hnew
    rfl
  obtain ⟨hinv, hlistens⟩ := run_inv (inv_new hnew) hempty hrun
  rw [Nat.zero_add] at hlistens
  have hsteady := hinv.steady
  refine ⟨hlistens, fun hnil => ?_, fun halive hmem => ?_, hsteady.refused⟩
  · obtain ⟨hunheard, hrx⟩ := hinv.unheard hnil
    refine ⟨hunheard.accepts, hsteady.sent.trans_le hunheard.room, fun hmem => ?_,
      fun hgone k p hp hk => ?_⟩
    · exact hrx.symm.trans (hsteady.refused hmem)
    · refine hsteady.orphans (hrx.trans hgone) k p hp hk ?_
      simp [Network.accepted, hunheard.accepts]
  · have hzero := (hsteady.sane.inv.hungUp hmem).1
    have hpos := hinv.connector halive
    omega

/-- A connect returns with nobody listening, and the transport goes; the next connect is refused. -/
theorem listen_once_unheard :
    ∃ t t', new ⟨none, none, none, none, .confirmed⟩ = some t ∧
      run step t [.connector, .network .connect, .network (.pollConnect 0), .dropTransport,
        .network .connect, .network (.pollConnect 1)] = some t' ∧
      t'.network.connects = [.returned, .unreachable] ∧ t'.network.accepts = [] := by
  refine ⟨_, _, rfl, Option.eq_some_of_isSome (by decide), by decide, ?_⟩
  exact ((listen_once (rfl : new ⟨none, none, none, none, .confirmed⟩ = some _)
    (Option.eq_some_of_isSome (by decide))).2.1 (by decide)).1

end MemTransport

end FungiTransport
