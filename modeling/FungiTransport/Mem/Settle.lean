import FungiTransport.Lib.Progress
import FungiTransport.Mem.Network

/-!
# The calls of the in-memory network settle

Polls that change nothing aside, the calls of a network are polled only so often: each poll brings
the call nearer to its end.  Where no poll changes anything any more, every call has ended, but for
those that wait for the other side: a `send` or a `connect` for room that nobody is making, a `recv`
or an `accept` for what nobody is sending.
-/

namespace FungiTransport

open Lib

/-- How far a `send` is from its end. -/
def MemSend.toDo : MemSend → ℕ
  | .created _ => 3
  | .sleeping _ => 2
  | .sending _ => 1

def MemFut.toDo : MemFut → ℕ
  | .send _ state => state.toDo
  | .recv => 1

/-- How far the call of an end is from its end. -/
def MemChannel.toDo (ch : MemChannel) : ℕ := ch.fut.elim 0 MemFut.toDo

def Duplex.toDo (p : Duplex) : ℕ := (p.ends .a).toDo + (p.ends .b).toDo

def Network.toDo (s : Network) : ℕ :=
  (s.pairs.map Duplex.toDo).sum + s.connects.count .pending + s.accepting.toNat

/-! ## A pair -/

namespace MemChannel

variable {cfg : MemConfig} {ch : MemChannel} {q : Mpsc Bytes} {peerAlive : Bool} {call msg : Bytes}

/-- A poll of a `send` in the state `state` ends it, brings it nearer to its end or changes nothing;
and where all timers are over, it changes nothing only where the `send` waits for room. -/
inductive Brought (cfg : MemConfig) (ch : MemChannel) (q : Mpsc Bytes) (call : Bytes)
    (state : MemSend) (timers : Prop) : MemChannel × Mpsc Bytes → Prop
  | ended {p : MemChannel × Mpsc Bytes} (h : p.1.fut = none) : Brought cfg ch q call state timers p
  | nearer {state' : MemSend} (h : state'.toDo < state.toDo) :
      Brought cfg ch q call state timers (ch.suspend call state', q)
  | waits (h : timers → q.rxAlive = true ∧ q.buffer.length = q.capacity ∧ cfg.sendTimeout = none) :
      Brought cfg ch q call state timers (ch.suspend call state, q)

lemma sendConfirmed_brought {elapsed : Bool} {state : MemSend} {timers : Prop}
    (htimers : timers → elapsed = true) (hstate : state = .sending msg ∨ 1 < state.toDo) :
    Brought cfg ch q call state timers (ch.sendConfirmed cfg q peerAlive call msg elapsed) := by
  rw [sendConfirmed]
  split
  · exact .ended rfl
  · exact .ended rfl
  · rename_i hfull
    split
    · exact .ended rfl
    · rename_i hwaits
      rcases hstate with rfl | hlt
      · refine .waits fun h => ?_
        obtain ⟨hrx, hlen⟩ := Mpsc.trySend_full hfull
        refine ⟨hrx, hlen, ?_⟩
        by_contra hne
        exact hwaits ⟨Option.isSome_iff_ne_none.mpr hne, htimers h⟩
      · exact .nearer hlt

lemma sendAwake_brought {elapsed : Bool} {state : MemSend} {timers : Prop}
    (htimers : timers → elapsed = true) (hstate : 1 < state.toDo) :
    Brought cfg ch q call state timers (ch.sendAwake cfg q peerAlive call msg elapsed) := by
  rw [sendAwake]
  split
  · exact .ended rfl
  · split
    · exact sendConfirmed_brought htimers (.inr hstate)
    · split <;> exact .ended rfl

/-- **One poll of a `send`.** -/
lemma pollSend_brought (slept elapsed : Bool) (state : MemSend) :
    Brought cfg ch q call state (slept = true ∧ elapsed = true)
      (ch.pollSend cfg q peerAlive call slept elapsed state) := by
  cases state with
  | created m =>
    cases m with
    | error max => exact .ended rfl
    | ok msg =>
      rw [pollSend]
      split
      · exact .ended rfl
      · split
        · exact .nearer (Nat.lt_succ_self 2)
        · exact sendAwake_brought (fun h => h.2) (by simp [MemSend.toDo])
  | sleeping msg =>
    rw [pollSend]
    split
    · exact sendAwake_brought (fun h => h.2) (Nat.lt_succ_self 1)
    · rename_i hslept
      exact .waits fun h => absurd h.1 hslept
  | sending msg => exact sendConfirmed_brought (fun h => h.2) (.inl rfl)

lemma toDo_of_fut {ch : MemChannel} {f : MemFut} (h : ch.fut = some f) : ch.toDo = f.toDo := by
  rw [toDo, h, Option.elim_some]

lemma toDo_of_none {ch : MemChannel} (h : ch.fut = none) : ch.toDo = 0 := by
  rw [toDo, h, Option.elim_none]

end MemChannel

lemma MemFut.toDo_pos (f : MemFut) : 0 < f.toDo := by
  rcases f with ⟨call, _ | _ | _⟩ | _ <;> exact Nat.succ_pos _

namespace Duplex

/-- The call of end `d` waits for the other end: a `send` for room in the buffer of a living peer, a
`recv` for a message. -/
structure Waits (s : Duplex) (d : Side) : Prop where
  send : ∀ call state, (s.ends d).fut = some (.send call state) → (s.queues d).rxAlive = true ∧
    (s.queues d).buffer.length = (s.queues d).capacity ∧ s.cfg.sendTimeout = none
  recv : (s.ends d).fut = some .recv → (s.queues d.other).buffer = [] ∧
    0 < (s.queues d.other).senders

/-- What a poll at end `d` comes to; `timers` says that all of them are over. -/
inductive Polled (s : Duplex) (d : Side) (timers : Prop) : Duplex → Prop
  | same (h : timers → s.Waits d) : Polled s d timers s
  | nearer {s' : Duplex} (h : s'.toDo < s.toDo) : Polled s d timers s'

lemma toDo_eq (s : Duplex) (d : Side) : s.toDo = (s.ends d).toDo + (s.ends d.other).toDo := by
  cases d with
  | a => rfl
  | b => exact Nat.add_comm _ _

/-- The call of end `d` is brought nearer to its end, and the other end is left alone. -/
lemma nearer_of_end {s : Duplex} {d e : Side} {ch : MemChannel} {q : Mpsc Bytes} {timers : Prop}
    (h : ch.toDo < (s.ends d).toDo) : Polled s d timers ((s.setEnd d ch).setQueue e q) := by
  refine .nearer ?_
  rw [toDo_eq _ d, toDo_eq s d]
  simpa using h

lemma setEnd_eq_self (s : Duplex) (d : Side) : s.setEnd d (s.ends d) = s := by
  rw [setEnd, Function.update_eq_self]

/-- A poll changes nothing, or brings the call of its end nearer to the end. -/
lemma polled_of_step {s s' : Duplex} {d : Side} {slept elapsed : Bool}
    (hstep : s.step (.poll d slept elapsed) = some s') :
    Polled s d (slept = true ∧ elapsed = true) s' := by
  simp only [step] at hstep
  split at hstep
  · rename_i call state hfut
    obtain rfl := Option.some.inj hstep
    have hsuspend : (s.ends d).suspend call state = s.ends d := by
      rw [MemChannel.suspend, ← hfut]
    have hbefore : (s.ends d).toDo = state.toDo := MemChannel.toDo_of_fut hfut
    have hbrought : MemChannel.Brought s.cfg (s.ends d) (s.queues d) call state
        (slept = true ∧ elapsed = true) ((s.ends d).pollSend s.cfg (s.queues d)
          (s.ends d.other).alive call slept elapsed state) :=
      MemChannel.pollSend_brought slept elapsed state
    generalize (s.ends d).pollSend s.cfg (s.queues d) (s.ends d.other).alive call slept elapsed
      state = p at hbrought
    cases hbrought with
    | ended hnone =>
      refine nearer_of_end ?_
      rw [MemChannel.toDo_of_none hnone, MemChannel.toDo_of_fut hfut]
      exact MemFut.toDo_pos _
    | nearer hlt =>
      refine nearer_of_end ?_
      rw [hbefore, MemChannel.toDo_of_fut rfl]
      exact hlt
    | waits hwaits =>
      rw [hsuspend, setEnd_setQueue_same, setEnd_eq_self]
      refine .same fun htimers => ⟨fun _ _ _ => hwaits htimers, fun hrecv => ?_⟩
      simp [hfut] at hrecv
  · rename_i hfut
    obtain rfl := Option.some.inj hstep
    have hbefore : (s.ends d).toDo = 1 := MemChannel.toDo_of_fut hfut
    rw [MemChannel.pollRecv]
    split
    · exact nearer_of_end (by rw [hbefore, MemChannel.toDo_of_none rfl]; exact Nat.one_pos)
    · exact nearer_of_end (by rw [hbefore, MemChannel.toDo_of_none rfl]; exact Nat.one_pos)
    · rename_i hempty
      rw [setEnd_setQueue_same, setEnd_eq_self]
      exact .same fun _ => ⟨fun call state hsend => by simp [hfut] at hsend,
        fun _ => Mpsc.tryRecv_empty hempty⟩
  · cases hstep

/-- A step at one end leaves the call of the other one alone. -/
lemma fut_other_of_step {s s' : Duplex} {a : MemAction} (hstep : s.step a = some s') :
    (s'.ends a.side.other).fut = (s.ends a.side.other).fut := by
  cases a with
  | send d msg | recv d | failNext d n | dropNext d n | dropEnd d =>
    obtain ⟨ch, -, rfl⟩ := Option.map_eq_some_iff.mp hstep
    simp [MemAction.side]
  | poll d slept elapsed =>
    simp only [step] at hstep
    split at hstep
    · obtain rfl := Option.some.inj hstep
      simp [MemAction.side]
    · obtain rfl := Option.some.inj hstep
      simp [MemAction.side]
    · cases hstep
  | dropFut d =>
    simp only [step] at hstep
    split at hstep
    · obtain rfl := Option.some.inj hstep
      simp [MemAction.side]
    · obtain rfl := Option.some.inj hstep
      simp [MemAction.side]
    · cases hstep

/-- An end that is dropped has no call, and keeps none. -/
lemma fut_closeEnd (s : Duplex) (d e : Side) : ((s.closeEnd d).ends e).fut = (s.ends e).fut := by
  rw [closeEnd]
  cases hstep : s.step (.dropEnd d) with
  | none => rfl
  | some s' =>
    obtain ⟨ch, hidle, rfl⟩ := Option.map_eq_some_iff.mp hstep
    obtain ⟨rfl, -, -⟩ := idle_eq_some hidle
    rcases e.eq_or_eq_other d with rfl | rfl <;> simp

lemma toDo_closeEnd (s : Duplex) (d : Side) : (s.closeEnd d).toDo = s.toDo := by
  simp only [toDo, MemChannel.toDo, fut_closeEnd]

/-! ## The room of a pair -/

/-- The queues of a pair have the room that it was made with. -/
structure Roomy (cfg : MemConfig) (s : Duplex) : Prop where
  inv : Inv s
  made : s.cfg = cfg
  capacity : ∀ d, (s.queues d).capacity = cfg.capacity.getD 1
  room : 0 < cfg.capacity.getD 1

lemma capacity_of_effect {s s' : Duplex} {e : Side} (h : Effect s e s') (d : Side) :
    (s'.queues d).capacity = (s.queues d).capacity := by
  cases h with
  | keep | hangUp => rfl
  | enqueue hlive halive hq =>
    rcases d.eq_or_eq_other e with rfl | rfl <;> simp [Mpsc.trySend_capacity hq]
  | receive halive henq hq =>
    rcases d.eq_or_eq_other e with rfl | rfl <;> simp [Mpsc.tryRecv_capacity hq]
  | drop =>
    rcases d.eq_or_eq_other e with rfl | rfl <;> simp [Mpsc.dropTx, Mpsc.dropRx]

lemma roomy_of_evolved {cfg : MemConfig} {s : Duplex} (h : Network.Evolved cfg s) :
    Roomy cfg s := by
  obtain ⟨s₀, as, hnew, hrun⟩ := h
  obtain ⟨q, hq, hs₀⟩ := Option.map_eq_some_iff.mp hnew
  have hq' : 0 < cfg.capacity.getD 1 ∧ q.capacity = cfg.capacity.getD 1 := by
    rw [Mpsc.channel] at hq
    split at hq
    · rename_i hpos
      obtain rfl := Option.some.inj hq
      exact ⟨hpos, rfl⟩
    · cases hq
  refine run_invariant (I := Roomy cfg) (fun s a s' hs hstep => ?_) ?_ hrun
  · obtain ⟨e, heff⟩ := effect_of_step hs.inv hstep
    exact ⟨inv_of_effect hs.inv heff, (cfg_of_effect heff).trans hs.made,
      fun d => (capacity_of_effect heff d).trans (hs.capacity d), hs.room⟩
  · exact ⟨inv_duplex hnew, by rw [← hs₀], fun d => by rw [← hs₀, hq'.2], hq'.1⟩

end Duplex

/-! ## The network -/

/-- The future of a call is polled. -/
def NetworkAction.polls : NetworkAction → Bool
  | .pollConnect _ | .pollAccept | .channel _ (.poll _ _ _) => true
  | .connect | .dropConnect _ | .cloneConnector | .dropConnector | .accept | .dropAccept
  | .dropListener | .channel _ _ => false

namespace Network

/-- A poll that changes something. -/
def Moves (s : Network) (a : NetworkAction) : Prop := a.polls = true ∧ s.step a ≠ some s

lemma sum_closeEnds (s : Network) (ks : List ℕ) (d : Side) :
    ((s.closeEnds ks d).pairs.map Duplex.toDo).sum = (s.pairs.map Duplex.toDo).sum := by
  have hmap : (s.closeEnds ks d).pairs.map Duplex.toDo = s.pairs.map Duplex.toDo := by
    refine List.ext_getElem (by simp [closeEnds]) fun k hk hk' => ?_
    simp only [closeEnds, List.getElem_map, List.getElem_mapIdx]
    split <;> simp [Duplex.toDo_closeEnd]
  rw [hmap]

lemma sum_set {l : List Duplex} {k : ℕ} {p p' : Duplex} (hk : l[k]? = some p)
    (hlt : p'.toDo < p.toDo) :
    ((l.set k p').map Duplex.toDo).sum < (l.map Duplex.toDo).sum := by
  induction l generalizing k with
  | nil => simp at hk
  | cons q l ih =>
    cases k with
    | zero =>
      obtain rfl : q = p := by simpa using hk
      simpa using hlt
    | succ k =>
      have hrest := ih (by simpa using hk)
      simpa using hrest

/-- **A poll that changes something brings a call nearer to its end.** -/
lemma step_toDo {s s' : Network} {a : NetworkAction} (ha : Moves s a) (hstep : s.step a = some s') :
    s'.toDo < s.toDo := by
  obtain ⟨hpolls, hne⟩ := ha
  cases a with
  | pollConnect k =>
    simp only [step] at hstep hne
    split at hstep
    · rename_i hk
      rw [if_pos hk] at hne
      split at hstep
      · rename_i q hq
        obtain rfl := Option.some.inj hstep
        have hcount := count_set_pending hk (show ConnectState.returned ≠ .pending by decide)
        simp only [toDo, finish]
        omega
      · obtain rfl := Option.some.inj hstep
        have hcount := count_set_pending hk (show ConnectState.unreachable ≠ .pending by decide)
        simp only [toDo, sum_closeEnds]
        simp only [closeEnds, finish]
        omega
      · rename_i hfull
        simp [hfull] at hne
    · cases hstep
  | pollAccept =>
    simp only [step] at hstep hne
    split at hstep
    · rename_i hacc
      rw [if_pos hacc] at hne
      split at hstep
      · obtain rfl := Option.some.inj hstep
        simp [toDo, hacc]
      · obtain rfl := Option.some.inj hstep
        simp [toDo, hacc]
      · rename_i hempty
        simp [hempty] at hne
    · cases hstep
  | channel k b =>
    cases b with
    | poll d slept elapsed =>
      simp only [step] at hstep hne
      split at hstep
      · rename_i hheld
        rw [if_pos hheld] at hne
        obtain ⟨p, hp, hstep⟩ := Option.bind_eq_some_iff.mp hstep
        obtain ⟨p', hp', rfl⟩ := Option.map_eq_some_iff.mp hstep
        cases Duplex.polled_of_step hp' with
        | same =>
          obtain ⟨hlt, hget⟩ := List.getElem?_eq_some_iff.mp hp
          have hset : s.pairs.set k p = s.pairs := by rw [← hget, List.set_getElem_self]
          simp only [hp, Option.bind_some, hp', Option.map_some, hset] at hne
          exact absurd rfl hne
        | nearer hlt =>
          have hsum := sum_set hp hlt
          simp only [toDo]
          omega
      · cases hstep
    | _ => cases hpolls
  | _ => cases hpolls

/-! ## Who has called -/

/-- A call on an end is that of a caller who holds it. -/
def Engaged (s : Network) : Prop :=
  ∀ k p d, s.pairs[k]? = some p → (p.ends d).fut ≠ none → s.Held k d

/-- Where the pair of connect `k` is from, as far as its calls go. -/
inductive PairStep (s : Network) (k : ℕ) (p' : Duplex) : Prop
  | new (h : ∀ d, (p'.ends d).fut = none)
  | kept {p : Duplex} (hp : s.pairs[k]? = some p) (h : ∀ d, (p'.ends d).fut = (p.ends d).fut)
  | moved {p : Duplex} {b : MemAction} (hheld : s.Held k b.side) (hp : s.pairs[k]? = some p)
      (h : p.step b = some p')

lemma pairStep_closeEnds {s : Network} {ks : List ℕ} {e : Side} {k : ℕ} {p' : Duplex}
    (hp' : (s.closeEnds ks e).pairs[k]? = some p') :
    ∃ p, s.pairs[k]? = some p ∧ ∀ d, (p'.ends d).fut = (p.ends d).fut := by
  rw [closeEnds, List.getElem?_mapIdx] at hp'
  obtain ⟨p, hp, rfl⟩ := Option.map_eq_some_iff.mp hp'
  refine ⟨p, hp, fun d => ?_⟩
  split
  · exact p.fut_closeEnd e d
  · rfl

lemma pairStep_of_step {s s' : Network} {a : NetworkAction} (hstep : s.step a = some s') {k : ℕ}
    {p' : Duplex} (hp' : s'.pairs[k]? = some p') : PairStep s k p' := by
  have hlost : ∀ {state : ConnectState} {j : ℕ} {ks : List ℕ},
      (((s.finish j state s.inbound).closeEnds ks .b).closeEnds ks .a).pairs[k]? = some p' →
        PairStep s k p' := by
    intro state j ks hq
    obtain ⟨q, hq, hfut⟩ := pairStep_closeEnds hq
    obtain ⟨r, hr, hfut'⟩ := pairStep_closeEnds hq
    exact .kept hr fun d => (hfut d).trans (hfut' d)
  have hsame : s'.pairs = s.pairs → PairStep s k p' := fun h => .kept (h ▸ hp') fun _ => rfl
  cases a with
  | connect =>
    simp only [step] at hstep
    split at hstep
    · cases hstep
    · obtain ⟨p, hp, rfl⟩ := Option.map_eq_some_iff.mp hstep
      rw [List.getElem?_append] at hp'
      split at hp'
      · exact .kept hp' fun _ => rfl
      · obtain rfl := List.mem_singleton.mp (List.mem_of_getElem? hp')
        obtain ⟨q, -, rfl⟩ := Option.map_eq_some_iff.mp hp
        exact .new fun _ => rfl
  | pollConnect j =>
    simp only [step] at hstep
    split at hstep
    · split at hstep <;> obtain rfl := Option.some.inj hstep
      · exact hsame rfl
      · exact hlost hp'
      · exact hsame rfl
    · cases hstep
  | dropConnect j =>
    simp only [step] at hstep
    split at hstep
    · obtain rfl := Option.some.inj hstep
      exact hlost hp'
    · cases hstep
  | pollAccept =>
    simp only [step] at hstep
    split at hstep
    · split at hstep <;> exact hsame (Option.some.inj hstep ▸ rfl)
    · cases hstep
  | cloneConnector | dropConnector =>
    simp only [step] at hstep
    split at hstep
    · cases hstep
    · exact hsame (Option.some.inj hstep ▸ rfl)
  | accept | dropAccept =>
    simp only [step] at hstep
    split at hstep
    · exact hsame (Option.some.inj hstep ▸ rfl)
    · cases hstep
  | dropListener =>
    simp only [step] at hstep
    split at hstep
    · obtain rfl := Option.some.inj hstep
      obtain ⟨q, hq, hfut⟩ := pairStep_closeEnds hp'
      exact .kept hq hfut
    · cases hstep
  | channel j b =>
    simp only [step] at hstep
    split at hstep
    · rename_i hheld
      obtain ⟨p, hp, hstep⟩ := Option.bind_eq_some_iff.mp hstep
      obtain ⟨q, hq, rfl⟩ := Option.map_eq_some_iff.mp hstep
      by_cases hjk : j = k
      · subst hjk
        obtain ⟨hlt, -⟩ := List.getElem?_eq_some_iff.mp hp
        obtain rfl : q = p' := by simpa [List.getElem?_set_self hlt] using hp'
        exact .moved hheld hp hq
      · exact .kept (by simpa [List.getElem?_set_ne hjk] using hp') fun _ => rfl
    · cases hstep

lemma held_of_step {s s' : Network} {a : NetworkAction} (hstep : s.step a = some s') {k : ℕ} :
    ∀ {d}, s.Held k d → s'.Held k d
  | .a, h => ended_stays hstep h (by decide)
  | .b, h => by
    have hsub : s.accepted ⊆ s'.accepted := by
      cases effect_of_step hstep <;> simp [accepted, closeEnds, finish]
    exact hsub h

lemma step_engaged {s s' : Network} {a : NetworkAction} (h : Engaged s)
    (hstep : s.step a = some s') : Engaged s' := by
  intro k p' d hp' hfut
  cases pairStep_of_step hstep hp' with
  | new hnone => exact absurd (hnone d) hfut
  | kept hp hsame => exact held_of_step hstep (h k _ d hp (hsame d ▸ hfut))
  | @moved p b hheld hp hmove =>
    rcases d.eq_or_eq_other b.side with rfl | rfl
    · exact held_of_step hstep hheld
    · exact held_of_step hstep (h k p _ hp (Duplex.fut_other_of_step hmove ▸ hfut))

/-! ## Where no poll changes anything -/

/-- What every reachable network has. -/
structure Sane (cfg : MemConfig) (s : Network) : Prop where
  inv : Inv s
  made : s.cfg = cfg
  engaged : Engaged s
  capacity : s.inbound.capacity = 8

lemma sane_network {cfg : MemConfig} {s : Network} (hnew : network cfg = some s) : Sane cfg s := by
  refine ⟨inv_network hnew, ?_, ?_, ?_⟩ <;> obtain ⟨q, hq, rfl⟩ := Option.map_eq_some_iff.mp hnew
  · rfl
  · intro k p d hp
    simp at hp
  · rw [Mpsc.channel, if_pos (by decide)] at hq
    obtain rfl := Option.some.inj hq
    rfl

lemma step_sane {cfg : MemConfig} {s s' : Network} {a : NetworkAction} (h : Sane cfg s)
    (hstep : s.step a = some s') : Sane cfg s' := by
  refine ⟨step_inv h.inv hstep, ?_, step_engaged h.engaged hstep, ?_⟩
  · rw [← h.made]
    cases effect_of_step hstep <;> rfl
  · rw [← h.capacity]
    cases effect_of_step hstep with
    | returned hk hq => exact (Mpsc.trySend_capacity hq :)
    | accepted hq => exact Mpsc.tryRecv_capacity hq
    | _ => rfl

section Stuck

variable {cfg : MemConfig} {s : Network} (h : Sane cfg s) (hstuck : Stuck step Moves s)

include hstuck

/-- A poll that is possible leaves everything as it is. -/
lemma step_of_stuck {a : NetworkAction} (hpolls : a.polls = true) {s' : Network}
    (hstep : s.step a = some s') : s' = s := by
  by_contra hne
  exact hstuck a s' ⟨hpolls, fun hsame => hne (Option.some.inj (hstep.symm.trans hsame))⟩ hstep

include h

/-- A connect waits while eight far ends wait for the listener. -/
lemma connect_of_stuck {k : ℕ} (hk : s.connects[k]? = some .pending) :
    s.inbound.rxAlive = true ∧ s.inbound.buffer.length = 8 := by
  obtain ⟨hlt, -⟩ := List.getElem?_eq_some_iff.mp hk
  have hset : ∀ state, state ≠ .pending → s.connects.set k state ≠ s.connects := by
    intro state hne heq
    have hget := hk
    rw [← heq, List.getElem?_set_self hlt] at hget
    exact hne (Option.some.inj hget)
  cases hsend : s.inbound.trySend k with
  | full =>
    obtain ⟨hrx, hlen⟩ := Mpsc.trySend_full hsend
    exact ⟨hrx, hlen.trans h.capacity⟩
  | sent q =>
    have hstep : s.step (.pollConnect k) = some (s.finish k .returned q) := by
      simp [step, hk, hsend]
    exact absurd (congrArg connects (step_of_stuck hstuck rfl hstep)) (hset _ (by decide))
  | closed =>
    have hstep : s.step (.pollConnect k) = some
        (((s.finish k .unreachable s.inbound).closeEnds [k] .b).closeEnds [k] .a) := by
      simp [step, hk, hsend]
    exact absurd (congrArg connects (step_of_stuck hstuck rfl hstep)) (hset _ (by decide))

/-- An accept waits while nobody dials, and somebody still can. -/
lemma accept_of_stuck (hacc : s.accepting = true) :
    s.inbound.buffer = [] ∧ .pending ∉ s.connects ∧ 0 < s.connectors := by
  have hempty : s.inbound.tryRecv = .empty := by
    cases hrecv : s.inbound.tryRecv with
    | empty => rfl
    | got k q =>
      have hstep : s.step .pollAccept = some
          { s with accepting := false, inbound := q, accepts := s.accepts ++ [.ok k] } := by
        simp [step, hacc, hrecv]
      have hsame := congrArg accepting (step_of_stuck hstuck rfl hstep)
      exact absurd (hsame.trans hacc) Bool.false_ne_true
    | closed =>
      have hstep : s.step .pollAccept = some
          { s with accepting := false, accepts := s.accepts ++ [.error .unreachable] } := by
        simp [step, hacc, hrecv]
      have hsame := congrArg accepting (step_of_stuck hstuck rfl hstep)
      exact absurd (hsame.trans hacc) Bool.false_ne_true
  obtain ⟨hbuffer, hsenders⟩ := Mpsc.tryRecv_empty hempty
  have hpending : .pending ∉ s.connects := by
    intro hmem
    obtain ⟨k, hk⟩ := List.mem_iff_getElem?.mp hmem
    have hlen := (connect_of_stuck h hstuck hk).2
    rw [hbuffer] at hlen
    cases hlen
  have hsum := h.inv.senders
  rw [List.count_eq_zero_of_not_mem hpending] at hsum
  exact ⟨hbuffer, hpending, by omega⟩

/-- A call on a pair waits for the other end. -/
lemma waits_of_stuck {k : ℕ} {p : Duplex} {d : Side} (hp : s.pairs[k]? = some p)
    (hfut : (p.ends d).fut ≠ none) : p.Waits d := by
  have hheld : s.Held k d := h.engaged k p d hp hfut
  obtain ⟨p', hp'⟩ : ∃ p', p.step (.poll d true true) = some p' := by
    simp only [Duplex.step]
    split
    · exact ⟨_, rfl⟩
    · exact ⟨_, rfl⟩
    · rename_i hnone
      exact absurd hnone hfut
  have hstep : s.step (.channel k (.poll d true true)) =
      some { s with pairs := s.pairs.set k p' } := by
    simp [step, MemAction.side, hheld, hp, hp']
  have hset : s.pairs.set k p' = s.pairs := congrArg pairs (step_of_stuck hstuck rfl hstep)
  cases Duplex.polled_of_step hp' with
  | same hwaits => exact hwaits ⟨rfl, rfl⟩
  | nearer hlt =>
    have hsum := sum_set hp hlt
    rw [hset] at hsum
    exact absurd hsum (lt_irrefl _)

/-- Two calls do not wait for each other. -/
lemma peer_of_stuck {k : ℕ} {p : Duplex} {d : Side} (hp : s.pairs[k]? = some p) {call : Bytes}
    {state : MemSend} (hsend : (p.ends d).fut = some (.send call state)) :
    (p.ends d.other).fut ≠ some .recv := by
  intro hrecv
  have hroomy := Duplex.roomy_of_evolved (h.inv.pairs p (List.mem_of_getElem? hp))
  have hlen := ((waits_of_stuck h hstuck hp (by simp [hsend])).send call state hsend).2.1
  have hempty := ((waits_of_stuck h hstuck hp (by simp [hrecv])).recv hrecv).1
  rw [Side.other_other] at hempty
  have hroom := hroomy.room
  rw [hempty, hroomy.capacity d, List.length_nil] at hlen
  omega

end Stuck

/-- **The calls settle.**  From any reachable network, as long as the callers only poll their
calls, at most so many polls change anything as the calls are from their ends.  And where none does
any more: a pending `connect` waits for a living listener that has eight far ends to accept; an
`accept` waits with nothing to accept, nobody dialling, and a connector left; a `send` waits for
room at a living peer that is not receiving, for ever only if it has no deadline; and a `recv` waits
with nothing to receive at a living peer that is not sending. -/
theorem calls_settle {cfg : MemConfig} {s₀ s u : Network} (hnew : network cfg = some s₀)
    {as bs : List NetworkAction} (hrun : run step s₀ as = some s)
    (hpolls : EachStep step Moves s bs) (hrun' : run step s bs = some u) :
    bs.length + u.toDo ≤ s.toDo ∧
      (Stuck step Moves u →
        (∀ k : ℕ, u.connects[k]? = some .pending →
          u.inbound.rxAlive = true ∧ u.inbound.buffer.length = 8 ∧ u.accepting = false) ∧
        (u.accepting = true →
          u.inbound.buffer = [] ∧ .pending ∉ u.connects ∧ 0 < u.connectors) ∧
        ∀ (k : ℕ) p d, u.pairs[k]? = some p →
          (∀ call state, (p.ends d).fut = some (.send call state) →
            (p.ends d.other).alive = true ∧ (p.ends d.other).fut ≠ some .recv ∧
              (p.queues d).buffer.length = cfg.capacity.getD 1 ∧ cfg.sendTimeout = none) ∧
          ((p.ends d).fut = some .recv → (p.queues d.other).buffer = [] ∧
            (p.ends d.other).alive = true ∧
              ∀ call state, (p.ends d.other).fut ≠ some (.send call state))) := by
  have hsane : ∀ {v w : Network} {cs}, Sane cfg v → run step v cs = some w → Sane cfg w :=
    fun hv hcs => run_invariant (fun _ _ _ h hstep => step_sane h hstep) hv hcs
  have hs := hsane (sane_network hnew) hrun
  have hu := hsane hs hrun'
  refine ⟨length_add_rank_le (I := fun _ => True)
    (fun v a v' _ hP hstep => ⟨trivial, step_toDo hP hstep⟩) trivial hpolls hrun',
    fun hstuck => ⟨fun k hk => ?_, accept_of_stuck hu hstuck, fun k p d hp => ⟨?_, ?_⟩⟩⟩
  · obtain ⟨hrx, hlen⟩ := connect_of_stuck hu hstuck hk
    refine ⟨hrx, hlen, ?_⟩
    by_contra hacc
    have hpending := (accept_of_stuck hu hstuck (by simpa using hacc)).2.1
    exact hpending (List.mem_of_getElem? hk)
  · intro call state hfut
    have hroomy := Duplex.roomy_of_evolved (hu.inv.pairs p (List.mem_of_getElem? hp))
    obtain ⟨hrx, hlen, htimeout⟩ :=
      (waits_of_stuck hu hstuck hp (by simp [hfut])).send call state hfut
    exact ⟨(hroomy.inv.direction d).rxAlive.symm.trans hrx, peer_of_stuck hu hstuck hp hfut,
      hlen.trans (hu.made ▸ hroomy.capacity d), by rw [← hu.made, ← hroomy.made, htimeout]⟩
  · intro hfut
    have hroomy := Duplex.roomy_of_evolved (hu.inv.pairs p (List.mem_of_getElem? hp))
    obtain ⟨hbuffer, hsenders⟩ := (waits_of_stuck hu hstuck hp (by simp [hfut])).recv hfut
    refine ⟨hbuffer, ?_, fun call state hsend => ?_⟩
    · by_contra hdead
      have hnone := (hroomy.inv.direction d.other).senders
      rw [if_neg hdead] at hnone
      omega
    · have hpeer := peer_of_stuck hu hstuck hp hsend
      rw [Side.other_other] at hpeer
      exact hpeer hfut

/-- A channel is accepted while its dialler, which has no room, waits to send a second message. -/
theorem calls_settle_waiting :
    let first := [.connect, .pollConnect 0, .channel 0 (.send .a [1]),
      .channel 0 (.poll .a false false), .channel 0 (.send .a [2]), .accept]
    let rest := [.pollAccept, .channel 0 (.poll .a false false)]
    ∃ s₀ s u, network ⟨some 1, none, none, none, .confirmed⟩ = some s₀ ∧
      run step s₀ first = some s ∧ run step s rest = some u ∧ rest.length + u.toDo ≤ s.toDo ∧
      u.toDo = 1 := by
  intro first rest
  obtain ⟨s, u, hrun, hpolls, hrun', htoDo⟩ : ∃ s u,
      run step ((network ⟨some 1, none, none, none, .confirmed⟩).get rfl) first = some s ∧
      EachStep step (fun v a => a.polls = true ∧ (v.step a).map toDo ≠ some v.toDo) s rest ∧
      run step s rest = some u ∧ u.toDo = 1 :=
    ⟨_, _, rfl, by decide, rfl, by decide⟩
  have hmoves : EachStep step Moves s rest := hpolls.mono fun v a hv =>
    ⟨hv.1, fun hsame => hv.2 (by rw [hsame]; rfl)⟩
  exact ⟨_, s, u, rfl, hrun, hrun', (calls_settle rfl hrun hmoves hrun').1, htoDo⟩

end Network

end FungiTransport
