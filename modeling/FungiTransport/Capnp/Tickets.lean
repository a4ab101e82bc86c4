import FungiTransport.Capnp.Tasks

/-!
# One sender for each reply

The sending half of a call's reply travels with its command: it sits in the queue, in the task
that the command spawned, or in the receive state of a channel.  It is never in two places, and
while it is somewhere the call is waiting or was dropped (`Sys.Tickets`).
-/

namespace FungiTransport

open Lib

/-- What a call is for; the creation of a connector is part of its `connect`. -/
inductive Topic where
  | listen
  | configure
  | connect
  | accept (id : ℕ)
  | send (id : ℕ)
  | recv (id : ℕ)
deriving DecidableEq

def Op.topic : Op → Topic
  | .listen _ => .listen
  | .configure _ => .configure
  | .ensure _ _ | .connect _ _ _ => .connect
  | .accept _ id => .accept id
  | .send _ id _ => .send id
  | .recv _ id => .recv id

/-- The ticket whose reply the command's sender is for. -/
def Command.ticket : Command → Option ℕ
  | .connector _ t | .listen _ _ _ t | .connect _ _ t | .accept _ t | .send _ _ t | .recv _ t
  | .configurePrivateNet _ t => some t
  | .release _ => none

def Command.topic : Command → Option Topic
  | .listen _ _ _ _ => some .listen
  | .configurePrivateNet _ _ => some .configure
  | .connector _ _ | .connect _ _ _ => some .connect
  | .accept i _ => some (.accept i)
  | .send i _ _ => some (.send i)
  | .recv i _ => some (.recv i)
  | .release _ => none

/-- The reply's sender can still be somewhere. -/
def Status.isOpen : Status → Bool
  | .waiting | .dropped => true
  | .parked | .sending | .replied _ | .closed | .done _ => false

/-- Where the sender of a reply is. -/
inductive Place where
  | queue (n : ℕ)
  | task (k : ℕ)
  | waiter (i : ℕ)
deriving DecidableEq

/-- A place behind the head of the queue, seen before the head was taken. -/
def Place.behind : Place → Place
  | .queue n => .queue (n + 1)
  | .task k => .task k
  | .waiter i => .waiter i

lemma Place.behind_injective : Function.Injective Place.behind := by
  intro p q hpq
  cases p <;> cases q <;> simp_all [Place.behind]

lemma Place.behind_ne (p : Place) : p.behind ≠ .queue 0 := by
  cases p <;> simp [Place.behind]

namespace Sys

/-- The ticket of the sender at a place. -/
def senderAt (s : Sys) : Place → Option ℕ
  | .queue n => (s.queue[n]?).bind Command.ticket
  | .task k => (s.tasks k).bind fun x => x.call.ticket
  | .waiter i => (s.reg.recvStates i).bind fun st => st.waiter

/-- What the call of a task is for. -/
def About (s : Sys) : Call → Topic → Prop
  | .listen _ _ _ _, x | .onionAddr _ _, x => x = .listen
  | .configure _ _ _, x => x = .configure
  | .connect _ _ _, x => x = .connect
  | .accept c _, x => ∃ i o, c = some o ∧ s.created[i]? = some (.listener, o) ∧ x = .accept i
  | .send c _ _, x => ∃ i o, c = some o ∧ s.created[i]? = some (.channel, o) ∧ x = .send i
  | .recv _ _, _ => False

/-- What the sender at a place is for. -/
def TopicAt (s : Sys) : Place → Topic → Prop
  | .queue n, x => ∃ c, s.queue[n]? = some c ∧ c.topic = some x
  | .task k, x => ∃ y, s.tasks k = some y ∧ s.About y.call x
  | .waiter i, x => x = .recv i

/-- Each reply has one sender, which is for the call that waits for it or was dropped; each call
resolves once, and speaks of an id that was allocated. -/
structure Tickets (s : Sys) : Prop where
  ids : ∀ t f h k i, s.futs t = some f → f.op.carried = some (h, k, i) → i < s.created.length
  sender : ∀ p t, s.senderAt p = some t →
    ∃ f, s.futs t = some f ∧ f.status.isOpen ∧ s.TopicAt p f.op.topic
  unique : ∀ p q t, s.senderAt p = some t → s.senderAt q = some t → p = q
  resolved : s.resolved.Nodup
  done : ∀ t ∈ s.resolved, ∃ op r, s.futs t = some ⟨op, .done r⟩

lemma About.mono {s s' : Sys} (hcreated : s.created <+: s'.created) {call : Call} {x : Topic}
    (h : s.About call x) : s'.About call x := by
  cases call with
  | accept c t | send c m t =>
    obtain ⟨i, o, hc, hi, hx⟩ := h
    exact ⟨i, o, hc, getElem?_of_isPrefix hcreated hi, hx⟩
  | listen | onionAddr | configure | connect | recv => exact h

/-- Senders are dropped or change their places. -/
lemma Tickets.move {s s' : Sys} (h : Tickets s) (σ : Place → Place)
    (hat : ∀ p t, s'.senderAt p = some t → s.senderAt (σ p) = some t)
    (htopic : ∀ p t x, s'.senderAt p = some t → s.TopicAt (σ p) x → s'.TopicAt p x)
    (hinj : ∀ p q, (s'.senderAt p).isSome → (s'.senderAt q).isSome → σ p = σ q → p = q)
    (hfuts : s'.futs = s.futs) (hcreated : s.created <+: s'.created)
    (hresolved : s'.resolved = s.resolved) : Tickets s' where
  ids := fun t f j k i hf hc => (h.ids t f j k i (hfuts ▸ hf) hc).trans_le hcreated.length_le
  sender := fun p t hp => by
    obtain ⟨f, hf, ho, hx⟩ := h.sender _ t (hat p t hp)
    exact ⟨f, hfuts ▸ hf, ho, htopic p t _ hp hx⟩
  unique := fun p q t hp hq =>
    hinj p q (by simp [hp]) (by simp [hq]) (h.unique _ _ t (hat p t hp) (hat q t hq))
  resolved := hresolved ▸ h.resolved
  done := by rw [hresolved, hfuts]; exact h.done

/-- The senders stay where they are, or are dropped. -/
lemma Tickets.stay {s s' : Sys} (h : Tickets s)
    (hat : ∀ p t, s'.senderAt p = some t → s.senderAt p = some t)
    (htopic : ∀ p t x, s'.senderAt p = some t → s.TopicAt p x → s'.TopicAt p x)
    (hfuts : s'.futs = s.futs) (hcreated : s.created <+: s'.created)
    (hresolved : s'.resolved = s.resolved) : Tickets s' :=
  h.move id hat htopic (fun _ _ _ _ hpq => hpq) hfuts hcreated hresolved

lemma TopicAt.congr {s s' : Sys} (hqueue : s'.queue = s.queue) (htasks : s'.tasks = s.tasks)
    (hcreated : s.created <+: s'.created) {p : Place} {x : Topic} (h : s.TopicAt p x) :
    s'.TopicAt p x := by
  cases p with
  | queue n => simpa only [TopicAt, hqueue] using h
  | task k =>
    obtain ⟨y, hy, hx⟩ := h
    exact ⟨y, htasks ▸ hy, hx.mono hcreated⟩
  | waiter i => exact h

lemma Tickets.congr {s s' : Sys} (h : Tickets s) (hfuts : s'.futs = s.futs)
    (hqueue : s'.queue = s.queue) (htasks : s'.tasks = s.tasks)
    (hstates : s'.reg.recvStates = s.reg.recvStates) (hcreated : s.created <+: s'.created)
    (hresolved : s'.resolved = s.resolved) : Tickets s' := by
  have hat : s'.senderAt = s.senderAt := by
    funext p
    cases p <;> simp only [senderAt, hqueue, htasks, hstates]
  exact h.stay (fun p t hp => hat ▸ hp) (fun p t x _ hx => hx.congr hqueue htasks hcreated) hfuts
    hcreated hresolved

/-- No sender is for the ticket. -/
def Unsent (s : Sys) (t : ℕ) : Prop := ∀ p, s.senderAt p ≠ some t

/-- A call whose reply has no sender left may change in any way, any other call be dropped. -/
lemma Tickets.setFut {s : Sys} (h : Tickets s) {t : ℕ} {op op' : Op} {st st' : Status}
    (hf : s.futs t = some ⟨op, st⟩) (hl : st.live)
    (hids : ∀ j k i, op'.carried = some (j, k, i) → i < s.created.length)
    (hopen : s.Unsent t ∨ st'.isOpen ∧ op'.topic = op.topic) : Tickets (s.setFut t ⟨op', st'⟩) where
  ids := fun u f j k i hu hc => by
    rcases futs_setFut hu with ⟨rfl, rfl⟩ | ⟨-, hu'⟩
    · exact hids j k i hc
    · exact h.ids u f j k i hu' hc
  sender := fun p u hp => by
    have hp' : s.senderAt p = some u := hp
    obtain ⟨f, hfu, ho, hx⟩ := h.sender p u hp'
    by_cases hut : u = t
    · subst hut
      rcases hopen with hun | ⟨ho', htop⟩
      · exact absurd hp' (hun p)
      · obtain rfl : ⟨op, st⟩ = f := Option.some.inj (hf.symm.trans hfu)
        exact ⟨⟨op', st'⟩, by simp [Sys.setFut], ho', htop ▸ hx.congr rfl rfl List.prefix_rfl⟩
    · exact ⟨f, by simp [Sys.setFut, Function.update_of_ne hut, hfu], ho,
        hx.congr rfl rfl List.prefix_rfl⟩
  unique := h.unique
  resolved := h.resolved
  done := fun u hu => by
    obtain ⟨op'', r, hdone⟩ := h.done u hu
    have hut : u ≠ t := by
      rintro rfl
      obtain ⟨rfl, rfl⟩ := Fut.mk.inj (Option.some.inj (hf.symm.trans hdone))
      exact absurd hl (by simp [Status.live])
    exact ⟨op'', r, by simp [Sys.setFut, Function.update_of_ne hut, hdone]⟩

lemma Tickets.unsent {s : Sys} (h : Tickets s) {t : ℕ} {f : Fut} (hf : s.futs t = some f)
    (hopen : f.status.isOpen = false) : s.Unsent t := by
  intro p hp
  obtain ⟨g, hg, ho, -⟩ := h.sender p t hp
  obtain rfl : f = g := Option.some.inj (hf.symm.trans hg)
  simp [hopen] at ho

/-- The sender that was at a place is gone when nothing has come from there. -/
lemma Tickets.unsent_of_move {s s' : Sys} (h : Tickets s) {p : Place} {t : ℕ}
    (hp : s.senderAt p = some t) (σ : Place → Place)
    (hat : ∀ q u, s'.senderAt q = some u → s.senderAt (σ q) = some u)
    (hne : ∀ q, (s'.senderAt q).isSome → σ q ≠ p) : s'.Unsent t := by
  intro q hq
  exact hne q (by simp [hq]) (h.unique _ _ t (hat q t hq) hp)

lemma Tickets.reply {s : Sys} (h : Tickets s) {t : ℕ} (hun : s.Unsent t) (r : Reply) :
    Tickets (s.reply t r) := by
  rcases reply_cases s t r with ⟨op, hf, heq⟩ | ⟨-, heq⟩
  · rw [heq]
    exact h.setFut hf rfl (fun j k i hc => h.ids t _ j k i hf hc) (.inl hun)
  · rw [heq]
    exact h

lemma Tickets.closeReply {s : Sys} (h : Tickets s) {t : ℕ} (hun : s.Unsent t) :
    Tickets (s.closeReply t) := by
  rcases closeReply_cases s t with ⟨op, hf, heq⟩ | heq
  · rw [heq]
    exact h.setFut hf rfl (fun j k i hc => h.ids t _ j k i hf hc) (.inl hun)
  · rw [heq]
    exact h

lemma Tickets.closeWaiter {s : Sys} (h : Tickets s) {o : Option ℕ}
    (hun : ∀ w, o = some w → s.Unsent w) : Tickets (s.closeWaiter o) := by
  cases o with
  | none => exact h
  | some w => exact h.closeReply (hun w rfl)

/-! ## Commands -/

lemma senderAt_pop {s : Sys} {c : Command} {rest : List Command} (hq : s.queue = c :: rest)
    (p : Place) : ({ s with queue := rest } : Sys).senderAt p = s.senderAt p.behind := by
  cases p <;> simp [senderAt, Place.behind, hq]

lemma senderAt_head {s : Sys} {c : Command} {rest : List Command} (hq : s.queue = c :: rest) :
    s.senderAt (.queue 0) = c.ticket := by
  simp [senderAt, hq]

lemma topicAt_pop {s : Sys} {c : Command} {rest : List Command} (hq : s.queue = c :: rest)
    {p : Place} {x : Topic} (h : s.TopicAt p.behind x) :
    ({ s with queue := rest } : Sys).TopicAt p x := by
  cases p with
  | queue n => simpa [TopicAt, Place.behind, hq] using h
  | task k => exact h
  | waiter i => exact h

/-- The head of the queue is taken, and its sender dropped. -/
lemma Tickets.pop {s : Sys} (h : Tickets s) {c : Command} {rest : List Command}
    (hq : s.queue = c :: rest) : Tickets { s with queue := rest } :=
  h.move Place.behind (fun p _ hp => senderAt_pop hq p ▸ hp) (fun _ _ _ _ hx => topicAt_pop hq hx)
    (fun _ _ _ _ hpq => Place.behind_injective hpq) rfl List.prefix_rfl rfl

lemma Tickets.unsent_head {s : Sys} (h : Tickets s) {c : Command} {rest : List Command}
    (hq : s.queue = c :: rest) {t : ℕ} (ht : c.ticket = some t) :
    ({ s with queue := rest } : Sys).Unsent t :=
  h.unsent_of_move (senderAt_head hq ▸ ht) Place.behind (fun p _ hp => senderAt_pop hq p ▸ hp)
    fun p _ => Place.behind_ne p

/-- Where a sender was before its command was made a task. -/
def dispatched (s : Sys) : Place → Place
  | .task k => if k = s.fresh then .queue 0 else .task k
  | p => p.behind

lemma dispatched_injective (s : Sys) : Function.Injective s.dispatched := by
  intro p q hpq
  cases p <;> cases q <;> simp only [dispatched, Place.behind] at hpq <;>
    (try split at hpq) <;> (try split at hpq) <;> simp_all

/-- The head of the queue is taken, and its sender moves into a new task. -/
lemma Tickets.dispatch {s : Sys} (h : Tickets s) {c : Command} {rest : List Command}
    (hq : s.queue = c :: rest) {call : Call} (hticket : call.ticket = c.ticket)
    (habout : ∀ x, c.topic = some x → s.About call x) :
    Tickets ({ s with queue := rest }.spawn call) := by
  have hat : ∀ p t, ({ s with queue := rest }.spawn call).senderAt p = some t →
      s.senderAt (s.dispatched p) = some t := by
    intro p t hp
    cases p with
    | queue n => simpa [senderAt, dispatched, Place.behind, hq, Sys.spawn] using hp
    | task k =>
      by_cases hk : k = s.fresh
      · subst hk
        simpa [senderAt, dispatched, hq, Sys.spawn, hticket] using hp
      · simpa [senderAt, dispatched, hk, Sys.spawn] using hp
    | waiter i => exact hp
  refine h.move s.dispatched hat (fun p _ x _ hx => ?_)
    (fun _ _ _ _ hpq => dispatched_injective s hpq) rfl List.prefix_rfl rfl
  cases p with
  | queue n => simpa [TopicAt, dispatched, Place.behind, hq, Sys.spawn] using hx
  | task k =>
    by_cases hk : k = s.fresh
    · subst hk
      obtain ⟨c', hc', hx'⟩ : s.TopicAt (.queue 0) x := by simpa [dispatched] using hx
      obtain rfl : c = c' := by simpa [hq] using hc'
      exact ⟨⟨call, .spawned⟩, by simp [Sys.spawn], habout x hx'⟩
    · obtain ⟨y, hy, hx'⟩ : s.TopicAt (.task k) x := by simpa [dispatched, hk] using hx
      exact ⟨y, by simp [Sys.spawn, hk, hy], hx'⟩
  | waiter i => exact hx

/-! ## Receive states -/

/-- A receive state is changed, and its waiter kept or dropped. -/
lemma senderAt_setRecvState {s : Sys} {i : ℕ} {st : RecvState}
    (hw : ∀ w, st.waiter = some w → s.senderAt (.waiter i) = some w) (p : Place) (t : ℕ)
    (hp : ({ s with reg := s.reg.setRecvState i st } : Sys).senderAt p = some t) :
    s.senderAt p = some t := by
  cases p with
  | queue n | task k => exact hp
  | waiter j =>
    by_cases hj : j = i
    · subst hj
      exact hw t (by simpa [senderAt, Registry.setRecvState] using hp)
    · simpa [senderAt, Registry.setRecvState, Function.update_of_ne hj] using hp

lemma Tickets.setRecvState {s : Sys} (h : Tickets s) {i : ℕ} {st : RecvState}
    (hw : ∀ w, st.waiter = some w → s.senderAt (.waiter i) = some w) :
    Tickets { s with reg := s.reg.setRecvState i st } :=
  h.stay (senderAt_setRecvState hw) (fun _ _ _ _ hx => hx.congr rfl rfl List.prefix_rfl) rfl
    List.prefix_rfl rfl

/-- Where a sender was before the head of the queue became the waiter of a channel. -/
def enlisted (i : ℕ) : Place → Place
  | .waiter j => if j = i then .queue 0 else .waiter j
  | p => p.behind

lemma enlisted_injective (i : ℕ) : Function.Injective (enlisted i) := by
  intro p q hpq
  cases p <;> cases q <;> simp only [enlisted, Place.behind] at hpq <;>
    (try split at hpq) <;> (try split at hpq) <;> simp_all

lemma senderAt_enlist {s : Sys} {i t : ℕ} {rest : List Command} (hq : s.queue = .recv i t :: rest)
    {st : RecvState} (hst : st.waiter = some t) (p : Place) (u : ℕ)
    (hp : ({ s with queue := rest, reg := s.reg.setRecvState i st } : Sys).senderAt p = some u) :
    s.senderAt (enlisted i p) = some u := by
  cases p with
  | queue n => simpa [senderAt, enlisted, Place.behind, hq] using hp
  | task k => exact hp
  | waiter j =>
    by_cases hj : j = i
    · subst hj
      simpa [senderAt, enlisted, Registry.setRecvState, hst, hq, Command.ticket] using hp
    · simpa [senderAt, enlisted, Registry.setRecvState, Function.update_of_ne hj, hj] using hp

/-- The head of the queue is taken, and its sender becomes the waiter of its channel. -/
lemma Tickets.enlist {s : Sys} (h : Tickets s) {i t : ℕ} {rest : List Command}
    (hq : s.queue = .recv i t :: rest) {st : RecvState} (hst : st.waiter = some t) :
    Tickets { s with queue := rest, reg := s.reg.setRecvState i st } := by
  refine h.move (enlisted i) (senderAt_enlist hq hst) (fun p u x _ hx => ?_)
    (fun _ _ _ _ hpq => enlisted_injective i hpq) rfl List.prefix_rfl rfl
  cases p with
  | queue n => simpa [TopicAt, enlisted, Place.behind, hq] using hx
  | task k => exact hx
  | waiter j =>
    by_cases hj : j = i
    · subst hj
      obtain ⟨c, hc, hx'⟩ : s.TopicAt (.queue 0) x := by simpa [enlisted] using hx
      obtain rfl : Command.recv j t = c := by simpa [hq] using hc
      exact (Option.some.inj hx').symm
    · simpa [TopicAt, enlisted, hj] using hx

lemma waiter_getD {s : Sys} {i w : ℕ} (hw : ((s.reg.recvStates i).getD .default).waiter = some w) :
    s.senderAt (.waiter i) = some w := by
  cases hst : s.reg.recvStates i with
  | none => simp [hst, RecvState.default] at hw
  | some st => simpa [senderAt, hst] using hw

/-- A task is spawned that holds no sender. -/
lemma Tickets.spawn {s : Sys} (h : Tickets s) {call : Call} (hcall : call.ticket = none) :
    Tickets (s.spawn call) := by
  have hat : ∀ p t, (s.spawn call).senderAt p = some t → p ≠ .task s.fresh := by
    rintro p t hp rfl
    simp [senderAt, Sys.spawn, hcall] at hp
  refine h.stay (fun p t hp => ?_) (fun p t x hp hx => ?_) rfl List.prefix_rfl rfl
  · have hne := hat p t hp
    cases p with
    | queue n | waiter i => exact hp
    | task k =>
      have hk : k ≠ s.fresh := fun hk => hne (hk ▸ rfl)
      simpa [senderAt, Sys.spawn, Function.update_of_ne hk] using hp
  · have hne := hat p t hp
    cases p with
    | queue n | waiter i => exact hx
    | task k =>
      have hk : k ≠ s.fresh := fun hk => hne (hk ▸ rfl)
      obtain ⟨y, hy, hx'⟩ := hx
      exact ⟨y, by simp [Sys.spawn, Function.update_of_ne hk, hy], hx'⟩

lemma enlisted_ne (i : ℕ) (p : Place) : enlisted i p ≠ .waiter i := by
  cases p with
  | queue n | task k => simp [enlisted, Place.behind]
  | waiter j => by_cases hj : j = i <;> simp [enlisted, hj]

lemma tickets_onRecv {s : Sys} (h : Tickets s) {i t : ℕ} {rest : List Command}
    (hq : s.queue = .recv i t :: rest) : Tickets ({ s with queue := rest }.onRecv i t) := by
  have hun := h.unsent_head hq (show (Command.recv i t).ticket = some t from rfl)
  have hpop := h.pop hq
  have hkeep : ∀ (buf : List Bytes) w,
      ({ (s.reg.recvStates i).getD .default with buffer := buf } : RecvState).waiter = some w →
        ({ s with queue := rest } : Sys).senderAt (.waiter i) = some w := fun _ _ hw => waiter_getD hw
  -- the sender that the state held is dropped, so nothing is sent for the old waiter any more
  have hwait : Tickets (({ s with
      queue := rest, reg := s.reg.setRecvState i ⟨true, some t, []⟩ } : Sys).closeWaiter
        ((s.reg.recvStates i).getD .default).waiter) :=
    (h.enlist hq rfl).closeWaiter fun w hw =>
      h.unsent_of_move (waiter_getD hw) (enlisted i) (senderAt_enlist hq rfl) fun p _ => enlisted_ne i p
  generalize hs' : ({ s with queue := rest } : Sys).onRecv i t = s'
  cases received_of_onRecv hs' with
  | @replied m buf hbuf hacc =>
    exact (hpop.setRecvState (hkeep buf)).reply
      (fun p hp => hun p (senderAt_setRecvState (hkeep buf) p t hp)) _
  | kept hbuf hacc => exact hpop.setRecvState (hkeep ((s.reg.recvStates i).getD .default).buffer)
  | joined hbuf hin => exact hwait
  | spawned hbuf hin => exact hwait.spawn rfl

lemma tickets_onRelease {s : Sys} (h : Tickets s) (i : ℕ) : Tickets (s.onRelease i) := by
  have hat : ∀ p t, ({ s with reg := s.reg.release i, released := i :: s.released } : Sys).senderAt
      p = some t → s.senderAt p = some t ∧ p ≠ .waiter i := by
    intro p t hp
    cases p with
    | queue n | task k => exact ⟨hp, by simp⟩
    | waiter j =>
      by_cases hj : j = i
      · subst hj
        simp [senderAt, Registry.release] at hp
      · exact ⟨by simpa [senderAt, Registry.release, Function.update_of_ne hj] using hp,
          by simpa using hj⟩
  unfold onRelease
  rw [closeWaiter_with]
  refine Tickets.closeWaiter (h.stay (fun p t hp => (hat p t hp).1)
    (fun _ _ _ _ hx => hx.congr rfl rfl List.prefix_rfl) rfl List.prefix_rfl rfl) fun w hw => ?_
  have hi : s.senderAt (.waiter i) = some w := hw
  -- the sender of the waiter was in the receive state, which is gone
  refine h.unsent_of_move hi id (fun p t hp => (hat p t hp).1) fun p hp => ?_
  obtain ⟨t, ht⟩ := Option.isSome_iff_exists.mp hp
  exact (hat p t ht).2

lemma tickets_completeRecv {s : Sys} (h : Tickets s) (i : ℕ) (result : Except RecvError Bytes) :
    Tickets (s.completeRecv i result) := by
  have hdrop : ∀ buf, Tickets { s with reg := s.reg.setRecvState i ⟨false, none, buf⟩ } :=
    fun buf => h.setRecvState (by simp)
  generalize hs' : s.completeRecv i result = s'
  cases completed_of_completeRecv hs' with
  | gone hst => exact h
  | kept hst => exact hdrop _
  | replied hst hw hacc =>
    refine (hdrop _).reply (h.unsent_of_move (p := .waiter i) (by simp [senderAt, hst, hw]) id
      (senderAt_setRecvState (by simp)) ?_) _
    rintro p hp rfl
    simp [senderAt, Registry.setRecvState] at hp

/-! ## The actor, its tasks and the server -/

/-- A command's capability is the one that the task is about. -/
lemma Sound.about {s : Sys} (h : Sound s) {c : Command} (hc : c ∈ s.queue) {k : Kind} {i : ℕ}
    (ht : c.target = some (k, i)) :
    ∃ o, s.reg.get k i = some o ∧ s.created[i]? = some (k, o) := by
  obtain ⟨o, hcreated, hget⟩ := h.target hc ht
  exact ⟨o, hget, hcreated⟩

lemma tickets_dequeue {s s' : Sys} (hs : Sound s) (h : Tickets s) (hstep : s.dequeue = some s') :
    Tickets s' := by
  obtain ⟨c, rest, hq, hdeq⟩ := dequeued_of_dequeue hstep
  have hc : c ∈ s.queue := hq ▸ List.mem_cons_self
  cases hdeq with
  | @created i t o ho =>
    have hun := h.unsent_head hq (show (Command.connector i t).ticket = some t from rfl)
    have hinst : Tickets ({ s with queue := rest, fresh := s.fresh + 1 }.install .connector
        s.fresh) :=
      (h.pop hq).congr rfl rfl rfl (by simp [install]) (List.prefix_append _ _) rfl
    exact hinst.reply (fun p hp => hun p (by cases p <;> simpa [senderAt, install] using hp)) _
  | closed => exact (h.pop hq).closeReply (h.unsent_head hq rfl)
  | spawned hne hcall =>
    -- the task speaks of the capability that the command's handle was given
    cases c with
    | listen i p n t | connect i a t =>
      obtain rfl := Option.some.inj hcall
      exact h.dispatch hq rfl fun x hx => (Option.some.inj hx).symm
    | accept i t =>
      obtain rfl := Option.some.inj hcall
      obtain ⟨o, hget, hcreated⟩ := hs.about hc (k := .listener) rfl
      exact h.dispatch hq rfl fun x hx => ⟨i, o, hget, hcreated, (Option.some.inj hx).symm⟩
    | send i m t =>
      obtain rfl := Option.some.inj hcall
      obtain ⟨o, hget, hcreated⟩ := hs.about hc (k := .channel) rfl
      exact h.dispatch hq rfl fun x hx => ⟨i, o, hget, hcreated, (Option.some.inj hx).symm⟩
    | configurePrivateNet nf t =>
      obtain ⟨plugin, -, rfl⟩ := Option.map_eq_some_iff.mp hcall
      exact h.dispatch hq rfl fun x hx => (Option.some.inj hx).symm
    | recv i t => exact absurd rfl (hne i t)
    | connector i t | release i => exact absurd hcall (by simp [calls])
  | received => exact tickets_onRecv h hq
  | released => exact tickets_onRelease (h.pop hq) _
  | refused => exact (h.pop hq).reply (h.unsent_head hq rfl) _

/-- A task goes on to another stage of its call, or to another call for the same reply. -/
lemma Tickets.setTask {s : Sys} (h : Tickets s) {k : ℕ} {x y : Task} (hk : s.tasks k = some x)
    (hticket : y.call.ticket = x.call.ticket)
    (habout : ∀ topic, s.About x.call topic → s.About y.call topic) :
    Tickets (s.setTask k (some y)) := by
  refine h.stay (fun p t hp => ?_) (fun p t topic hp htopic => ?_) rfl List.prefix_rfl rfl
  · cases p with
    | queue n | waiter i => exact hp
    | task j =>
      by_cases hj : j = k
      · subst hj
        simpa [senderAt, Sys.setTask, hk, hticket] using hp
      · simpa [senderAt, Sys.setTask, Function.update_of_ne hj] using hp
  · cases p with
    | queue n | waiter i => exact htopic
    | task j =>
      obtain ⟨z, hz, htop⟩ := htopic
      by_cases hj : j = k
      · subst hj
        obtain rfl : x = z := Option.some.inj (hk.symm.trans hz)
        exact ⟨y, by simp [Sys.setTask], habout topic htop⟩
      · exact ⟨z, by simp [Sys.setTask, Function.update_of_ne hj, hz], htop⟩

/-- A task ends, and its sender is dropped. -/
lemma senderAt_remove {s : Sys} {k : ℕ} (p : Place) (t : ℕ)
    (hp : (s.setTask k none).senderAt p = some t) : s.senderAt p = some t ∧ p ≠ .task k := by
  cases p with
  | queue n | waiter i => exact ⟨hp, by simp⟩
  | task j =>
    by_cases hj : j = k
    · subst hj
      simp [senderAt, Sys.setTask] at hp
    · exact ⟨by simpa [senderAt, Sys.setTask, Function.update_of_ne hj] using hp, by simpa using hj⟩

lemma Tickets.remove {s : Sys} (h : Tickets s) (k : ℕ) : Tickets (s.setTask k none) := by
  refine h.stay (fun p t hp => (senderAt_remove p t hp).1) (fun p t x hp hx => ?_) rfl
    List.prefix_rfl rfl
  have hne := (senderAt_remove p t hp).2
  cases p with
  | queue n | waiter i => exact hx
  | task j =>
    have hj : j ≠ k := fun hj => hne (hj ▸ rfl)
    obtain ⟨y, hy, hx'⟩ := hx
    exact ⟨y, by simp [Sys.setTask, Function.update_of_ne hj, hy], hx'⟩

lemma Tickets.unsent_remove {s : Sys} (h : Tickets s) {k t : ℕ} {x : Task} (hk : s.tasks k = some x)
    (ht : x.call.ticket = some t) : (s.setTask k none).Unsent t := by
  refine h.unsent_of_move (p := .task k) (by simp [senderAt, hk, ht]) id
    (fun p u hp => (senderAt_remove p u hp).1) fun p hp => ?_
  obtain ⟨u, hu⟩ := Option.isSome_iff_exists.mp hp
  exact (senderAt_remove p u hu).2

lemma tickets_poll {s s' : Sys} (h : Tickets s) {k : ℕ} (hstep : s.poll k = some s') :
    Tickets s' := by
  have hrem := h.remove k
  cases polled_of_poll hstep with
  | @issued call hk =>
    have hset := h.setTask (y := ⟨call, .issued⟩) hk rfl fun _ hx => hx
    rw [issue_eq]
    exact hset.congr rfl rfl rfl rfl List.prefix_rfl rfl
  | replied hk ht hid hr => exact hrem.reply (h.unsent_remove hk ht) _
  | received hk => exact tickets_completeRecv hrem _ _

lemma tickets_answer {s s' : Sys} (h : Tickets s) {k : ℕ} {o : Outcome}
    (hstep : s.answer k o = some s') : Tickets s' := by
  obtain ⟨call, r, u, hk, -, -, rfl⟩ := answer_cases hstep
  exact (h.setTask (y := ⟨call, .answered r⟩) hk rfl fun _ hx => hx).congr rfl rfl rfl rfl
    List.prefix_rfl rfl

lemma tickets_resume {s s' : Sys} (h : Tickets s) {k : ℕ} (hstep : s.resume k = some s') :
    Tickets s' := by
  have hrem := h.remove k
  cases resumed_of_resume hstep with
  | listened hk => exact h.setTask hk rfl fun _ hx => hx
  | @created call a kind c t r hk hnew =>
    have hun := h.unsent_remove hk hnew.ticket
    have hinst : Tickets ((s.setTask k none).install kind c) :=
      hrem.congr rfl rfl rfl (by simp [install, Sys.setTask]) (List.prefix_append _ _) rfl
    exact hinst.reply
      (fun p hp => hun p (by cases p <;> simpa [senderAt, install, Sys.setTask] using hp)) _
  | replied hk ht hid hr => exact hrem.reply (h.unsent_remove hk ht) _
  | received hk hx => exact tickets_completeRecv hrem _ _

/-! ## Callers -/

lemma Callers.futs_fresh {s : Sys} (h : Callers s) {t : ℕ} (ht : s.fresh ≤ t) : s.futs t = none := by
  by_contra hne
  obtain ⟨f, hf⟩ := Option.ne_none_iff_exists'.mp hne
  exact absurd (h.futs t f hf).lt (not_lt.mpr ht)

/-- A call starts, or is rejected at once. -/
lemma Tickets.start {s : Sys} (h : Tickets s) (hc : Callers s) {op : Op}
    (hids : ∀ j k i, op.carried = some (j, k, i) → i < s.created.length) (st : Status) :
    Tickets (s.start op st) ∧ ∀ r, st = .done r →
      Tickets { s.start op st with resolved := s.resolved ++ [s.fresh] } := by
  have hnone := hc.futs_fresh le_rfl
  have hfut : ∀ u g, s.futs u = some g → (s.start op st).futs u = some g := fun u g hu => by
    have hne : u ≠ s.fresh := fun hne => by simp [hne, hnone] at hu
    simpa [Sys.start, Sys.setFut, Function.update_of_ne hne] using hu
  have hdone : ∀ t ∈ s.resolved, ∃ op' r, (s.start op st).futs t = some ⟨op', .done r⟩ := fun t ht => by
    obtain ⟨op', r, hr⟩ := h.done t ht
    exact ⟨op', r, hfut t _ hr⟩
  have hnew : s.fresh ∉ s.resolved := fun hmem => by
    obtain ⟨op', r, hr⟩ := h.done _ hmem
    simp [hnone] at hr
  have hstart : Tickets (s.start op st) := by
    refine ⟨fun t f j k i hf hcar => ?_, fun p t hp => ?_, h.unique, h.resolved, hdone⟩
    · rcases futs_setFut hf with ⟨-, rfl⟩ | ⟨-, hf'⟩
      · exact hids j k i hcar
      · exact h.ids t f j k i hf' hcar
    · obtain ⟨f, hf, ho, hx⟩ := h.sender p t hp
      exact ⟨f, hfut t f hf, ho, hx.congr rfl rfl List.prefix_rfl⟩
  refine ⟨hstart, fun r hr => ⟨hstart.ids, fun p t hp => ?_, hstart.unique, ?_, fun t ht => ?_⟩⟩
  · obtain ⟨f, hf, ho, hx⟩ := hstart.sender p t hp
    exact ⟨f, hf, ho, hx.congr rfl rfl List.prefix_rfl⟩
  · exact List.nodup_append.mpr ⟨h.resolved, by simp, fun a ha b hb => by
      rintro rfl
      obtain rfl := List.mem_singleton.mp hb
      exact hnew ha⟩
  · rcases List.mem_append.mp ht with ht | ht
    · exact hdone t ht
    · obtain rfl := List.mem_singleton.mp ht
      exact ⟨op, r, by simp [Sys.start, Sys.setFut, hr]⟩

lemma Tickets.resolveTo {s : Sys} (h : Tickets s) {t : ℕ} {op : Op} {st : Status}
    (hf : s.futs t = some ⟨op, st⟩) (hl : st.live) (hopen : st.isOpen = false) (r : Reply) :
    Tickets (s.resolveTo t op r) := by
  have hset : Tickets (s.setFut t ⟨op, .done r⟩) := h.setFut hf hl
    (fun j k i hc => h.ids t _ j k i hf hc) (.inl (h.unsent hf hopen))
  have hnew : t ∉ s.resolved := fun hmem => by
    obtain ⟨op', r', hr⟩ := h.done t hmem
    obtain ⟨-, rfl⟩ := Fut.mk.inj (Option.some.inj (hf.symm.trans hr))
    exact absurd hl (by simp [Status.live])
  refine ⟨hset.ids, fun p u hp => ?_, hset.unique, ?_, fun u hu => ?_⟩
  · obtain ⟨f, hf, ho, hx⟩ := hset.sender p u hp
    exact ⟨f, hf, ho, hx.congr rfl rfl List.prefix_rfl⟩
  · exact List.nodup_append.mpr ⟨h.resolved, by simp, fun a ha b hb => by
      rintro rfl
      obtain rfl := List.mem_singleton.mp hb
      exact hnew ha⟩
  · rcases List.mem_append.mp hu with hu | hu
    · exact hset.done u hu
    · obtain rfl := List.mem_singleton.mp hu
      exact ⟨op, r, by simp [Sys.resolveTo, Sys.setFut]⟩

/-- The command of a call enters the queue with the sender of its reply. -/
lemma tickets_enqueue {s s' : Sys} (h : Tickets s) {t : ℕ} (hstep : s.enqueue t = some s') :
    Tickets s' := by
  obtain ⟨op, hf, rfl⟩ := enqueue_cases hstep
  have hun := h.unsent hf rfl
  have hset : Tickets (s.setFut t ⟨op, .waiting⟩) := h.setFut hf rfl
    (fun j k i hc => h.ids t _ j k i hf hc) (.inl hun)
  have hticket : (op.command t).ticket = some t := by cases op <;> rfl
  have htopic : (op.command t).topic = some op.topic := by cases op <;> rfl
  have hcases : ∀ p u, ({ s.setFut t ⟨op, .waiting⟩ with
      queue := s.queue ++ [op.command t] } : Sys).senderAt p = some u →
      s.senderAt p = some u ∨ p = .queue s.queue.length ∧ u = t := by
    intro p u hp
    cases p with
    | task k | waiter i => exact .inl hp
    | queue n =>
      obtain ⟨c, hc, hcu⟩ := Option.bind_eq_some_iff.mp hp
      rcases getElem?_concat_eq_some.mp hc with hc | ⟨rfl, rfl⟩
      · exact .inl (Option.bind_eq_some_iff.mpr ⟨c, hc, hcu⟩)
      · exact .inr ⟨rfl, (Option.some.inj (hticket.symm.trans hcu)).symm⟩
  refine ⟨hset.ids, fun p u hp => ?_, fun p q u hp hq => ?_, hset.resolved, hset.done⟩
  · rcases hcases p u hp with hold | ⟨rfl, rfl⟩
    · obtain ⟨f, hfu, ho, hx⟩ := hset.sender p u hold
      refine ⟨f, hfu, ho, ?_⟩
      cases p with
      | task k | waiter i => exact hx
      | queue n =>
        obtain ⟨c, hc, hcx⟩ := hx
        exact ⟨c, getElem?_concat_eq_some.mpr (.inl hc), hcx⟩
    · exact ⟨⟨op, .waiting⟩, by simp [Sys.setFut], rfl, op.command u,
        getElem?_concat_eq_some.mpr (.inr ⟨rfl, rfl⟩), htopic⟩
  · rcases hcases p u hp with hp' | ⟨rfl, rfl⟩ <;> rcases hcases q u hq with hq' | ⟨rfl, hu⟩
    · exact h.unique p q u hp' hq'
    · exact absurd (hu ▸ hp') (hun p)
    · exact absurd hq' (hun q)
    · rfl

lemma HandleOk.id_lt {s : Sys} {j i : ℕ} {x : Handle} (h : HandleOk s j x) (hi : x.id = some i) :
    i < s.created.length := by
  obtain ⟨c, hc⟩ := h.typed i hi
  exact (List.getElem?_eq_some_iff.mp hc).1

/-- The ids that a call speaks of are its handle's and the transport's. -/
lemma Callers.carried_lt {s : Sys} (h : Callers s) {op : Op}
    (hop : ∀ j k i, op.carried = some (j, k, i) → s.handles j = some ⟨k, some i, true⟩) :
    ∀ j k i, op.carried = some (j, k, i) → i < s.created.length :=
  fun j k i hc => (h.handles j _ (hop j k i hc)).id_lt rfl

lemma tickets_startTransport {s s' : Sys} (hc : Callers s) (h : Tickets s) {op : Op}
    (hop : ∀ j k i, op.carried = some (j, k, i) → (j, k, i) = (0, .transport, bootstrapId))
    (hstep : s.startTransport op = some s') : Tickets s' := by
  obtain ⟨x, hx, rfl⟩ := Option.map_eq_some_iff.mp hstep
  obtain ⟨hx, -, hk⟩ := liveHandle_eq_some hx
  refine (h.start hc (hc.carried_lt fun j k i hcar => ?_) .sending).1
  obtain ⟨rfl, rfl, rfl⟩ : j = 0 ∧ k = .transport ∧ i = bootstrapId := by simpa using hop j k i hcar
  rw [hx, ((hc.handles 0 x hx).transport hk).2.2, transportHandle]

lemma tickets_startConnect {s s' : Sys} (hc : Callers s) (h : Tickets s) {j : ℕ} {addr : String}
    (hstep : s.startConnect j addr = some s') : Tickets s' := by
  obtain ⟨⟨k, id, l⟩, hx, rfl⟩ := Option.map_eq_some_iff.mp hstep
  obtain ⟨hx, rfl, rfl⟩ := liveHandle_eq_some hx
  cases id with
  | some id =>
    refine (h.start hc (hc.carried_lt fun j' k' i' hcar => ?_) .sending).1
    obtain ⟨rfl, rfl, rfl⟩ : j = j' ∧ Kind.connector = k' ∧ id = i' := by
      simpa [Op.carried] using hcar
    exact hx
  | none =>
    refine (h.start hc (hc.carried_lt fun j' k' i' hcar => ?_) _).1
    obtain ⟨rfl, rfl, rfl⟩ : 0 = j' ∧ Kind.transport = k' ∧ bootstrapId = i' := by
      simpa [Op.carried] using hcar
    exact (hc.handles j _ hx).connector rfl

lemma Callers.exclusive_lt {s : Sys} (hc : Callers s) {j id : ℕ} {k : Kind} {op : Op}
    (hid : (s.liveHandle j k).bind (·.id) = some id) (hcar : op.carried = some (j, k, id)) :
    ∀ j' k' i', op.carried = some (j', k', i') → i' < s.created.length := by
  intro j' k' i' hcar'
  obtain ⟨x, hx, hi⟩ := Option.bind_eq_some_iff.mp hid
  obtain ⟨rfl, rfl, rfl⟩ : j = j' ∧ k = k' ∧ id = i' := by simpa [hcar] using hcar'
  exact (hc.handles j x (liveHandle_eq_some hx).1).id_lt hi

lemma tickets_startSend {s s' : Sys} (hc : Callers s) (h : Tickets s) {j : ℕ} {m : Bytes}
    (hstep : s.startSend j m = some s') : Tickets s' := by
  obtain ⟨id, -, hid, hs'⟩ := startSend_cases hstep
  have hcar : (Op.send j id m).carried = some (j, .channel, id) := rfl
  have hstart := h.start hc (hc.exclusive_lt hid hcar)
  rcases hs' with ⟨-, rfl⟩ | ⟨-, rfl⟩
  · exact (hstart _).2 _ rfl
  · exact (hstart _).1

lemma tickets_wake {s s' : Sys} (hc : Callers s) (h : Tickets s) {t : ℕ}
    (hstep : s.wake t = some s') : Tickets s' := by
  obtain ⟨j, addr, hf, hcell⟩ := wake_cases hstep
  have hun := h.unsent hf rfl
  rcases hcell with ⟨id, hid, rfl⟩ | ⟨-, -, rfl⟩
  · obtain ⟨x, hx, hi⟩ := Option.bind_eq_some_iff.mp hid
    refine h.setFut hf rfl (fun j' k i hcar => ?_) (.inl hun)
    obtain ⟨-, -, rfl⟩ : j = j' ∧ Kind.connector = k ∧ id = i := by simpa [Op.carried] using hcar
    exact (hc.handles j x hx).id_lt hi
  · exact h.setFut hf rfl (fun j' k i hcar => h.ids t _ j' k i hf hcar) (.inl hun)

lemma tickets_resolve {s s' : Sys} (hc : Callers s) (h : Tickets s) {t : ℕ}
    (hstep : s.resolve t = some s') : Tickets s' := by
  have hset : ∀ {u j x}, Tickets u → Tickets (Sys.setHandle u j x) := fun hu =>
    hu.congr rfl rfl rfl rfl List.prefix_rfl rfl
  cases resolving_of_resolve hstep with
  | named hf hid hk => exact (hset h).resolveTo hf rfl rfl _
  | unparsed hf hparses => exact h.resolveTo hf rfl rfl _
  | @filled j id addr x hf hx =>
    refine (hset h).setFut hf rfl (fun j' k i hcar => ?_) (.inl (h.unsent hf rfl))
    obtain ⟨-, -, rfl⟩ : j = j' ∧ Kind.connector = k ∧ id = i := by simpa [Op.carried] using hcar
    obtain ⟨c, hcreated⟩ := (hc.futs t _ hf).slot _ rfl .connector id rfl
    exact (List.getElem?_eq_some_iff.mp hcreated).1
  | returned hf hid => exact h.resolveTo hf rfl rfl _
  | disconnected hf => exact h.resolveTo hf rfl rfl _

/-- A call that is dropped leaves the sender of its reply where it is. -/
lemma tickets_dropFut {s s' : Sys} (h : Tickets s) {t : ℕ} (hstep : s.dropFut t = some s') :
    Tickets s' := by
  obtain ⟨op, st, hf, hl, rfl⟩ := dropFut_cases hstep
  exact h.setFut hf hl (fun j k i hcar => h.ids t _ j k i hf hcar) (.inr ⟨rfl, rfl⟩)

/-- The `Release` of a handle holds no sender. -/
lemma tickets_dropHandle {s s' : Sys} (h : Tickets s) {j : ℕ} {d : Bool}
    (hstep : s.dropHandle j d = some s') : Tickets s' := by
  have hset : ∀ {x}, Tickets (s.setHandle j x) := h.congr rfl rfl rfl rfl List.prefix_rfl rfl
  obtain ⟨k, id, -, -, -, ⟨-, rfl⟩ | ⟨i, -, rfl⟩⟩ := dropHandle_cases hstep
  · exact hset
  · have hold : ∀ {n : ℕ} {c : Command}, (s.queue ++ [.release i])[n]? = some c →
        c.ticket.isSome → s.queue[n]? = some c := by
      intro n c hc hsome
      rcases getElem?_concat_eq_some.mp hc with hc | ⟨-, rfl⟩
      · exact hc
      · exact absurd hsome (by simp [Command.ticket])
    refine h.stay (fun p t hp => ?_) (fun p t x _ hx => ?_) rfl List.prefix_rfl rfl
    · cases p with
      | task k | waiter i => exact hp
      | queue n =>
        obtain ⟨c, hc, ht⟩ := Option.bind_eq_some_iff.mp hp
        exact Option.bind_eq_some_iff.mpr ⟨c, hold hc (by simp [ht]), ht⟩
    · cases p with
      | task k | waiter i => exact hx
      | queue n =>
        obtain ⟨c, hc, hcx⟩ := hx
        exact ⟨c, getElem?_concat_eq_some.mpr (.inl hc), hcx⟩

/-! ## Every reachable state -/

lemma tickets_init (cfg : Config) : Tickets (init cfg) where
  ids := by simp [init]
  sender := fun p t hp => by cases p <;> simp [senderAt, init, Registry.new] at hp
  unique := fun p q t hp => by cases p <;> simp [senderAt, init, Registry.new] at hp
  resolved := List.nodup_nil
  done := by simp [init]

/-- **Each reply has one sender**: a step of a sound connection only drops senders or moves them
along. -/
theorem step_tickets {s s' : Sys} {a : Action} (hs : Sound s) (h : Tickets s)
    (hstep : s.step a = some s') : Tickets s' := by
  have hc := hs.base.callers
  cases a with
  | newConnector =>
    obtain ⟨x, -, rfl⟩ := Option.map_eq_some_iff.mp hstep
    exact h.congr rfl rfl rfl rfl List.prefix_rfl rfl
  | listen p => exact tickets_startTransport hc h (by simp [Op.carried, eq_comm]) hstep
  | configure nf => exact tickets_startTransport hc h (by simp [Op.carried]) hstep
  | connect j addr => exact tickets_startConnect hc h hstep
  | accept j =>
    obtain ⟨id, -, hid, rfl⟩ := startAccept_cases hstep
    exact (h.start hc (hc.exclusive_lt hid rfl) .sending).1
  | recv j =>
    obtain ⟨id, -, hid, rfl⟩ := startRecv_cases hstep
    exact (h.start hc (hc.exclusive_lt hid rfl) .sending).1
  | send j m => exact tickets_startSend hc h hstep
  | wake t => exact tickets_wake hc h hstep
  | enqueue t => exact tickets_enqueue h hstep
  | resolve t => exact tickets_resolve hc h hstep
  | dropFut t => exact tickets_dropFut h hstep
  | dropHandle j d => exact tickets_dropHandle h hstep
  | dequeue => exact tickets_dequeue hs h hstep
  | poll k => exact tickets_poll h hstep
  | answer k o => exact tickets_answer h hstep
  | resume k => exact tickets_resume h hstep
  | arriveMsg c m | arriveConn c n =>
    obtain rfl := Option.some.inj hstep
    exact h.congr rfl rfl rfl rfl List.prefix_rfl rfl

/-- What every reachable state has: a sound connection with one sender for each reply. -/
structure Regular (s : Sys) : Prop where
  sound : Sound s
  tickets : Tickets s

/-- The invariant rule of the connection, over regular states. -/
theorem regular_induction {P : Sys → Action → Prop} {I : Sys → Prop} {cfg : Config}
    {as : List Action} {s : Sys} (hinit : I (Sys.init cfg))
    (hstep : ∀ s a s', Regular s → Regular s' → I s → P s a → s.step a = some s' → I s')
    (hP : EachStep step P (Sys.init cfg) as) (hrun : run step (Sys.init cfg) as = some s)
    (hfew : s.created.length < 2 ^ 64) : Regular s ∧ I s := by
  obtain ⟨hs, ht, hI⟩ := sound_induction (I := fun s => Tickets s ∧ I s) ⟨tickets_init cfg, hinit⟩
    (fun u a u' hu hu' h hPa ha =>
      have ht' := step_tickets hu h.1 ha
      ⟨ht', hstep u a u' ⟨hu, h.1⟩ ⟨hu', ht'⟩ h.2 hPa ha⟩) hP hrun hfew
  exact ⟨⟨hs, ht⟩, hI⟩

/-- The ids suffice for every step of a run for which they suffice at the end. -/
lemma few_of_run {as : List Action} {s u : Sys} (hrun : run step s as = some u)
    (hfew : u.created.length < 2 ^ 64) :
    EachStep step (fun s a => ∀ s', s.step a = some s' → s'.created.length < 2 ^ 64) s as ∧
      s.created.length < 2 ^ 64 :=
  eachStep_of_last (Q := fun s => s.created.length < 2 ^ 64)
    (fun _ _ _ hstep hlt => (step_created hstep).length_le.trans_lt hlt) hrun hfew

end Sys

end FungiTransport
