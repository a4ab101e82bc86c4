import FungiTransport.Capnp.Recv
import FungiTransport.Capnp.Parcels

/-!
# The way of a message

A message that the backend of a channel hands to the server is carried by the answered `recv` of
the channel's task, then kept in the buffer or put in the reply slot of the call that waits, and
at last returned by that call.  As long as no call is dropped with a message in its reply slot,
these places hold all messages in the backend's order (`Sys.recv_delivers`); a call that is
dropped there takes its message along (`Sys.message_lost_in_slot`).
-/

namespace FungiTransport

open Lib

/-- The message that a backend's `recv` handed to the server. -/
def BackendCall.pulled (o : Cap) : BackendCall → Option Bytes
  | .recv c (.ok m) => if c = o then some m else none
  | _ => none

/-- The message in the reply slot of a pending `recv`. -/
def Fut.held (i : ℕ) : Fut → Option Bytes
  | ⟨.recv _ j, .replied (.recv (.ok m))⟩ => if j = i then some m else none
  | _ => none

/-- The message that a `recv` returned to its caller. -/
def Fut.returned (i : ℕ) : Fut → Option Bytes
  | ⟨.recv _ j, .done (.recv (.ok m))⟩ => if j = i then some m else none
  | _ => none

/-- The message that the answer of a `recv` task carries. -/
def Task.carried (i : ℕ) : Task → Option Bytes
  | ⟨.recv j _, .answered (.ok (.msg m))⟩ => if j = i then some m else none
  | _ => none

namespace Sys

/-- The messages that the backend of `o` handed to the server, in order. -/
def pulled (s : Sys) (o : Cap) : List Bytes := s.backend.filterMap (BackendCall.pulled o)

def heldBy (s : Sys) (i t : ℕ) : Option Bytes := (s.futs t).bind (Fut.held i)

def returnedBy (s : Sys) (i t : ℕ) : Option Bytes := (s.futs t).bind (Fut.returned i)

def carriedBy (s : Sys) (i k : ℕ) : Option Bytes := (s.tasks k).bind (Task.carried i)

/-- The messages that calls of `recv` on channel `i` returned, in the order they resolved. -/
def returned (s : Sys) (i : ℕ) : List Bytes := s.resolved.filterMap (s.returnedBy i)

/-- The messages in the reply slots of the pending `recv`s of channel `i`. -/
def slots (s : Sys) (i : ℕ) : List Bytes := gather s.fresh (s.heldBy i)

def buffered (s : Sys) (i : ℕ) : List Bytes := ((s.reg.recvStates i).getD .default).buffer

/-- The messages that the outstanding capnp `recv` of channel `i` carries. -/
def inTransit (s : Sys) (i : ℕ) : List Bytes := gather s.fresh (s.carriedBy i)

/-- Every message that the backend handed out is returned or held, in order. -/
def Delivered (s : Sys) (i : ℕ) (o : Cap) : Prop :=
  s.pulled o = s.returned i ++ s.slots i ++ s.buffered i ++ s.inTransit i

/-- No `recv` of channel `i` is dropped with a message in its reply slot. -/
def RecvKept (i : ℕ) (s : Sys) : Action → Prop
  | .dropFut t => s.heldBy i t = none
  | _ => True

/-! ## What happens to nobody's message -/

/-- The messages of channel `i` stay where they are. -/
structure Quiet (i : ℕ) (s s' : Sys) : Prop where
  held : s'.heldBy i = s.heldBy i
  returned : s'.returnedBy i = s.returnedBy i
  carried : s'.carriedBy i = s.carriedBy i
  buffered : s'.buffered i = s.buffered i
  resolved : s'.resolved = s.resolved
  backend : s'.backend = s.backend

namespace Quiet

variable {i : ℕ} {s u s' : Sys}

lemma refl : Quiet i s s := ⟨rfl, rfl, rfl, rfl, rfl, rfl⟩

lemma trans (h : Quiet i s u) (h' : Quiet i u s') : Quiet i s s' :=
  ⟨h'.held.trans h.held, h'.returned.trans h.returned, h'.carried.trans h.carried,
    h'.buffered.trans h.buffered, h'.resolved.trans h.resolved, h'.backend.trans h.backend⟩

/-- A state that differs where there are no messages. -/
lemma congr (hfuts : s'.futs = s.futs) (htasks : s'.tasks = s.tasks)
    (hstates : s'.reg.recvStates = s.reg.recvStates) (hresolved : s'.resolved = s.resolved)
    (hbackend : s'.backend = s.backend) : Quiet i s s' where
  held := by unfold heldBy; rw [hfuts]
  returned := by unfold returnedBy; rw [hfuts]
  carried := by unfold carriedBy; rw [htasks]
  buffered := by unfold Sys.buffered; rw [hstates]
  resolved := hresolved
  backend := hbackend

/-- A call goes on that neither holds nor returns a message. -/
lemma setFut {t : ℕ} {f : Fut} (hold : s.heldBy i t = none) (hret : s.returnedBy i t = none)
    (hold' : f.held i = none) (hret' : f.returned i = none) : Quiet i s (s.setFut t f) :=
  ⟨bind_update hold hold', bind_update hret hret', rfl, rfl, rfl, rfl⟩

/-- A call that is waiting holds no message, and gets none by this reply. -/
lemma reply (t : ℕ) {r : Reply} (hr : ∀ m, r ≠ .recv (.ok m)) : Quiet i s (s.reply t r) := by
  rcases reply_cases s t r with ⟨op, hf, heq⟩ | ⟨-, heq⟩
  · rw [heq]
    refine setFut (by simp [heldBy, hf, Fut.held]) (by simp [returnedBy, hf, Fut.returned]) ?_ ?_
    · unfold Fut.held
      split
      · rename_i h
        exact absurd (Status.replied.inj (Fut.mk.inj h).2) (hr _)
      · rfl
    · unfold Fut.returned
      split
      · rename_i h
        exact absurd (Fut.mk.inj h).2 (by simp)
      · rfl
  · rw [heq]
    exact refl

lemma closeReply (t : ℕ) : Quiet i s (s.closeReply t) := by
  rcases closeReply_cases s t with ⟨op, hf, heq⟩ | heq
  · rw [heq]
    exact setFut (by simp [heldBy, hf, Fut.held]) (by simp [returnedBy, hf, Fut.returned])
      (by simp [Fut.held]) (by simp [Fut.returned])
  · rw [heq]
    exact refl

lemma closeWaiter (o : Option ℕ) : Quiet i s (s.closeWaiter o) := by
  cases o with
  | none => exact refl
  | some w => exact closeReply w

lemma spawn (hfresh : s.tasks s.fresh = none) (call : Call) : Quiet i s (s.spawn call) :=
  ⟨rfl, rfl, bind_update (by simp [hfresh]) (by simp [Task.carried]), rfl, rfl, rfl⟩

lemma install (kind : Kind) (c : Cap) : Quiet i s (s.install kind c) :=
  congr rfl rfl (by simp [Sys.install]) rfl rfl

/-- A task ends or goes on that carries no message. -/
lemma setTask {k : ℕ} {x : Task} {y : Option Task} (hk : s.tasks k = some x)
    (hx : x.carried i = none) (hy : y.bind (Task.carried i) = none) : Quiet i s (s.setTask k y) := by
  refine ⟨rfl, rfl, ?_, rfl, rfl, rfl⟩
  ext1 j
  by_cases hj : j = k
  · subst hj
    simp [carriedBy, Sys.setTask, hk, hx, hy]
  · simp [carriedBy, Sys.setTask, Function.update_of_ne hj]

end Quiet

lemma Callers.heldBy_fresh {s : Sys} (h : Callers s) (i : ℕ) {t : ℕ} (ht : s.fresh ≤ t) :
    s.heldBy i t = none := by simp [heldBy, h.futs_fresh ht]

lemma Tasks.carriedBy_fresh {s : Sys} (h : Tasks s) (i : ℕ) {k : ℕ} (hk : s.fresh ≤ k) :
    s.carriedBy i k = none := by
  cases hx : s.tasks k with
  | none => simp [carriedBy, hx]
  | some x => exact absurd (h.ok k x hx).lt (not_lt.mpr hk)

lemma slots_congr {i : ℕ} {s s' : Sys} (h : s'.heldBy i = s.heldBy i) (hs : Sound s)
    (hs' : Sound s') : s'.slots i = s.slots i :=
  gather_congr (congrFun h) (fun _ ht => hs.base.callers.heldBy_fresh i ht)
    fun _ ht => hs'.base.callers.heldBy_fresh i ht

lemma inTransit_congr {i : ℕ} {s s' : Sys} (h : s'.carriedBy i = s.carriedBy i) (hs : Sound s)
    (hs' : Sound s') : s'.inTransit i = s.inTransit i :=
  gather_congr (congrFun h) (fun _ hk => hs.tasks.carriedBy_fresh i hk)
    fun _ hk => hs'.tasks.carriedBy_fresh i hk

/-- Where nothing happens to a message, nothing gets lost. -/
lemma Quiet.delivered {i : ℕ} {s s' : Sys} {o : Cap} (hq : Quiet i s s') (hs : Sound s)
    (hs' : Sound s') (h : s.Delivered i o) : s'.Delivered i o := by
  unfold Delivered pulled Sys.returned
  rw [hq.backend, hq.resolved, hq.returned, slots_congr hq.held hs hs', hq.buffered,
    inTransit_congr hq.carried hs hs']
  exact h

/-! ## Callers -/

lemma held_eq_some {i : ℕ} {f : Fut} {m : Bytes} (h : f.held i = some m) :
    ∃ j, f = ⟨.recv j i, .replied (.recv (.ok m))⟩ := by
  unfold Fut.held at h
  split at h
  · split at h
    · rename_i j n m' hj
      obtain rfl : m' = m := Option.some.inj h
      exact ⟨j, hj ▸ rfl⟩
    · exact absurd h (by simp)
  · exact absurd h (by simp)

/-- What the replies to `recv` on channel `i` bring: messages. -/
def messageParcel (i : ℕ) : Parcel Bytes where
  kind := .channel
  id := i
  item op r := Fut.held i ⟨op, .replied r⟩
  own := fun op r m hm => by
    obtain ⟨h, heq⟩ := held_eq_some hm
    obtain ⟨rfl, -⟩ := Fut.mk.inj heq
    exact ⟨rfl, h, rfl⟩
  disconnected := fun op => by cases op <;> rfl
  rejected := fun _ _ _ _ => rfl

lemma held_messageParcel (i : ℕ) : (messageParcel i).held = Fut.held i := by
  ext1 ⟨op, st⟩
  cases st <;> first | rfl | simp [Parcel.held, Fut.held]

lemma returned_messageParcel (i : ℕ) : (messageParcel i).returned = Fut.returned i := by
  ext1 ⟨op, st⟩
  cases st with
  | done r =>
    show Fut.held i ⟨op, .replied r⟩ = Fut.returned i ⟨op, .done r⟩
    unfold Fut.held Fut.returned
    cases op <;> cases r <;> first | rfl | (rename_i r; cases r <;> rfl)
  | parked | sending | waiting | closed | replied r | dropped =>
    simp [Parcel.returned, Fut.returned]

lemma heldBy_messageParcel (s : Sys) (i : ℕ) : (messageParcel i).heldBy s = s.heldBy i := by
  unfold Parcel.heldBy Sys.heldBy
  rw [held_messageParcel]

/-- A reply slot with a message is the only one of its channel. -/
lemma Sound.slots_eq {s : Sys} (hs : Sound s) {i t h : ℕ} {st : Status}
    (ht : s.futs t = some ⟨.recv h i, st⟩) (hl : st.live) :
    s.slots i = (s.heldBy i t).toList := by
  have heq := (messageParcel i).slots_eq hs ht hl rfl rfl
  unfold Parcel.slots at heq
  rwa [heldBy_messageParcel] at heq

/-- A caller only takes messages out of its own reply slot. -/
lemma caller_messages {s s' : Sys} {a : Action} (hs : Sound s) (hs' : Sound s') (ht : Tickets s)
    {i : ℕ} (ha : isRemote a = false) (hkept : RecvKept i s a) (hstep : s.step a = some s') :
    s'.returned i ++ s'.slots i = s.returned i ++ s.slots i := by
  have hcaller := (messageParcel i).caller hs hs' ht
    (callStep_of_step (hs.base.callers.futs_fresh le_rfl) ha hstep)
    fun t hat => by
      subst hat
      rw [heldBy_messageParcel]
      exact hkept
  unfold Parcel.returns Parcel.slots Parcel.returnedBy at hcaller
  rwa [returned_messageParcel, heldBy_messageParcel, heldBy_messageParcel] at hcaller

/-! ## The actor, its tasks and the server -/

/-- What is known of the messages of channel `i` in every state of a careful run. -/
structure Delivery (i : ℕ) (s : Sys) : Prop where
  channel : ∀ o, s.created[i]? = some (.channel, o) → i ∉ s.released → s.Delivered i o
  logged : ∀ c r, .recv c r ∈ s.backend → ∃ j : ℕ, s.created[j]? = some (.channel, c)

/-- Nothing was received from an object that no id was allocated for. -/
lemma Delivery.pulled_eq_nil {i : ℕ} {s : Sys} (h : Delivery i s) {o : Cap}
    (hno : ∀ (j : ℕ) kind, s.created[j]? ≠ some (kind, o)) : s.pulled o = [] := by
  refine List.filterMap_eq_nil_iff.mpr fun b hb => ?_
  unfold BackendCall.pulled
  split
  · rename_i c m
    have hco : c ≠ o := by
      rintro rfl
      obtain ⟨j, hj⟩ := h.logged _ _ hb
      exact hno j _ hj
    simp [hco]
  · rfl

lemma returned_eq_some {i : ℕ} {f : Fut} {m : Bytes} (h : f.returned i = some m) :
    ∃ j, f = ⟨.recv j i, .done (.recv (.ok m))⟩ := by
  unfold Fut.returned at h
  split at h
  · split at h
    · rename_i j n m' hj
      obtain rfl : m' = m := Option.some.inj h
      exact ⟨j, hj ▸ rfl⟩
    · exact absurd h (by simp)
  · exact absurd h (by simp)

lemma carried_eq_some {i : ℕ} {x : Task} {m : Bytes} (h : x.carried i = some m) :
    ∃ o, x = ⟨.recv i o, .answered (.ok (.msg m))⟩ := by
  unfold Task.carried at h
  split at h
  · split at h
    · rename_i j o m' hj
      obtain rfl : m' = m := Option.some.inj h
      exact ⟨o, hj ▸ rfl⟩
    · exact absurd h (by simp)
  · exact absurd h (by simp)

/-- No call, task or receive state speaks of an id that was not allocated yet. -/
lemma unallocated {s : Sys} (hs : Sound s) (ht : Tickets s) (hr : s.Receives) {i : ℕ}
    (hi : s.created[i]? = none) :
    s.returned i ++ s.slots i ++ s.buffered i ++ s.inTransit i = [] := by
  have hlen : s.created.length ≤ i := List.getElem?_eq_none_iff.mp hi
  have hfut : ∀ t h st, s.futs t ≠ some ⟨.recv h i, st⟩ := fun t h st hf =>
    absurd (ht.ids t _ h .channel i hf rfl) (not_lt.mpr hlen)
  have hreturned : s.returned i = [] := by
    refine List.filterMap_eq_nil_iff.mpr fun t _ => ?_
    by_contra hne
    obtain ⟨m, hm⟩ := Option.ne_none_iff_exists'.mp hne
    obtain ⟨f, hf, hret⟩ := Option.bind_eq_some_iff.mp hm
    obtain ⟨h, rfl⟩ := returned_eq_some hret
    exact hfut t h _ hf
  have hslots : s.slots i = [] := by
    refine gather_eq_nil fun t => ?_
    by_contra hne
    obtain ⟨m, hm⟩ := Option.ne_none_iff_exists'.mp hne
    obtain ⟨f, hf, hheld⟩ := Option.bind_eq_some_iff.mp hm
    obtain ⟨h, rfl⟩ := held_eq_some hheld
    exact hfut t h _ hf
  have hbuffered : s.buffered i = [] := by
    cases hst : s.reg.recvStates i with
    | none => simp [Sys.buffered, hst, RecvState.default]
    | some st => exact absurd ((hr i).typed st hst) (not_lt.mpr hlen)
  have htransit : s.inTransit i = [] := by
    refine gather_eq_nil fun k => ?_
    by_contra hne
    obtain ⟨m, hm⟩ := Option.ne_none_iff_exists'.mp hne
    obtain ⟨x, hx, hcar⟩ := Option.bind_eq_some_iff.mp hm
    obtain ⟨o, rfl⟩ := carried_eq_some hcar
    obtain ⟨c, -, hc⟩ := (hs.tasks.ok k _ hx).recv i o rfl
    simp [hi] at hc
  rw [hreturned, hslots, hbuffered, htransit]
  rfl

/-- A step that moves no message of the channel; ids may be allocated and released. -/
lemma Quiet.delivery {i : ℕ} {s s' : Sys} {a : Action} (hq : Quiet i s s')
    (hstep : s.step a = some s') (hs : Sound s) (hs' : Sound s') (ht : Tickets s) (hr : s.Receives)
    (h : Delivery i s)
    (hnew : ∀ o, s.created[i]? = none → s'.created[i]? = some (.channel, o) → s.pulled o = []) :
    Delivery i s' where
  channel := fun o ho hrel => by
    refine hq.delivered hs hs' ?_
    cases hi : s.created[i]? with
    | none =>
      unfold Delivered
      rw [unallocated hs ht hr hi, hnew o hi ho]
    | some p =>
      have hp := getElem?_of_isPrefix (step_created hstep) hi
      obtain rfl : p = (.channel, o) := Option.some.inj (hp.symm.trans ho)
      exact h.channel o hi fun hr => hrel (step_released hstep hr)
  logged := fun c r hb => by
    obtain ⟨j, hj⟩ := h.logged c r (hq.backend ▸ hb)
    exact ⟨j, getElem?_of_isPrefix (step_created hstep) hj⟩

/-- The receive state of another channel changes, or one keeps its buffer. -/
lemma Quiet.setRecvState {i j : ℕ} {s : Sys} {st : RecvState} (h : j = i → st.buffer = s.buffered i) :
    Quiet i s { s with reg := s.reg.setRecvState j st } where
  held := rfl
  returned := rfl
  carried := rfl
  buffered := by
    unfold Sys.buffered
    by_cases hij : i = j
    · subst hij
      simp [Registry.setRecvState, h rfl, Sys.buffered]
    · simp [Registry.setRecvState, Function.update_of_ne hij]
  resolved := rfl
  backend := rfl

/-- The call of another channel gets a message. -/
lemma Quiet.replyOther {i j t h : ℕ} {s : Sys} (hij : j ≠ i) {st : Status}
    (hf : s.futs t = some ⟨.recv h j, st⟩) (r : Reply) : Quiet i s (s.reply t r) := by
  rcases reply_cases s t r with ⟨op, hf', heq⟩ | ⟨-, heq⟩
  · obtain ⟨rfl, rfl⟩ := Fut.mk.inj (Option.some.inj (hf.symm.trans hf'))
    rw [heq]
    refine Quiet.setFut (by simp [heldBy, hf, Fut.held]) (by simp [returnedBy, hf, Fut.returned]) ?_
      (by simp [Fut.returned])
    unfold Fut.held
    split
    · rename_i heq'
      simp [← (Op.recv.inj (Fut.mk.inj heq').1).2, hij]
    · rfl
  · rw [heq]
    exact Quiet.refl

/-- The slot of a call that waits is filled. -/
lemma slots_reply {s s' : Sys} (hs : Sound s) (hs' : Sound s') {i t h : ℕ}
    {result : Except RecvError Bytes} (hf : s.futs t = some ⟨.recv h i, .waiting⟩)
    (hfuts : s'.futs = Function.update s.futs t (some ⟨.recv h i, .replied (.recv result)⟩)) :
    s.slots i = [] ∧ s'.slots i = messages result := by
  have hf' : s'.futs t = some ⟨.recv h i, .replied (.recv result)⟩ := by simp [hfuts]
  rw [hs.slots_eq hf rfl, hs'.slots_eq hf' rfl]
  cases result <;> simp [heldBy, hf, hf', Fut.held, messages]

/-- A call that waits gets its result: a message moves into its slot from the buffer, or from the
task that carries it. -/
lemma Delivered.fill {s s' : Sys} {i t h : ℕ} {o : Cap} {result : Except RecvError Bytes}
    (hd : s.Delivered i o) (hs : Sound s) (hs' : Sound s')
    (hf : s.futs t = some ⟨.recv h i, .waiting⟩)
    (hfuts : s'.futs = Function.update s.futs t (some ⟨.recv h i, .replied (.recv result)⟩))
    (hresolved : s'.resolved = s.resolved) (hbackend : s'.backend = s.backend)
    (hrest : s.buffered i ++ s.inTransit i =
      messages result ++ (s'.buffered i ++ s'.inTransit i)) : s'.Delivered i o := by
  have hby : s'.returnedBy i = s.returnedBy i := by
    simp only [funext_iff, returnedBy, hfuts]
    exact congrFun (bind_update (by simp [hf, Fut.returned]) (by simp [Fut.returned]))
  have hreturned : s'.returned i = s.returned i := by simp only [Sys.returned, hby, hresolved]
  have hpulled : s'.pulled o = s.pulled o := by simp only [pulled, hbackend]
  obtain ⟨hold, hnew⟩ := slots_reply hs hs' hf hfuts
  calc s'.pulled o = s.returned i ++ s.slots i ++ s.buffered i ++ s.inTransit i := hpulled.trans hd
    _ = s.returned i ++ (s.buffered i ++ s.inTransit i) := by simp [hold]
    _ = s'.returned i ++ s'.slots i ++ s'.buffered i ++ s'.inTransit i := by
      simp [hrest, hreturned, hnew]

/-- What `Command::Recv` does to the messages of a channel. -/
lemma delivered_onRecv {s s' : Sys} (hs : Sound s) (hs' : Sound s') (ht : Tickets s) {i j t : ℕ}
    {rest : List Command} (hq : s.queue = .recv j t :: rest)
    (hstep : { s with queue := rest }.onRecv j t = s') {o : Cap} (h : s.Delivered i o) :
    s'.Delivered i o := by
  have hset : ∀ st : RecvState, (j = i → st.buffer = s.buffered i) → Quiet i s
      { s with queue := rest, reg := s.reg.setRecvState j st } := fun _ hst =>
    (Quiet.congr rfl rfl rfl rfl rfl : Quiet i s { s with queue := rest }).trans
      (Quiet.setRecvState hst)
  have hstate : j = i → ((s.reg.recvStates j).getD .default).buffer = s.buffered i := by
    rintro rfl
    rfl
  have hwait : ((s.reg.recvStates j).getD .default).buffer = [] → Quiet i s
      (({ s with queue := rest, reg := s.reg.setRecvState j ⟨true, some t, []⟩ } : Sys).closeWaiter
        ((s.reg.recvStates j).getD .default).waiter) := fun hbuf =>
    (hset ⟨true, some t, []⟩ fun hji => hbuf.symm.trans (hstate hji)).trans (Quiet.closeWaiter _)
  cases received_of_onRecv hstep with
  | @replied m buf hbuf hacc =>
    obtain ⟨⟨op, st⟩, hf, -, c, hc, htopic⟩ := ht.sender (.queue 0) t
      (by simp [senderAt, hq, Command.ticket])
    obtain rfl : Command.recv j t = c := by simpa [hq] using hc
    obtain ⟨h', rfl⟩ : ∃ h', op = .recv h' j := by
      cases op <;> simp_all [Command.topic, Op.topic]
    obtain ⟨op, hf'⟩ := accepts_iff.mp hacc
    obtain ⟨rfl, rfl⟩ := Fut.mk.inj (Option.some.inj (hf.symm.trans hf'))
    by_cases hji : j = i
    · subst hji
      -- the first message of the buffer goes into the reply slot
      rw [reply_waiting (by exact hf)] at hs' ⊢
      refine h.fill hs hs' hf rfl rfl rfl ?_
      rw [inTransit_congr (by rfl) hs hs', show s.buffered j = m :: buf from hbuf]
      simp [Sys.buffered, Registry.setRecvState, messages, setFut]
    · refine Quiet.delivered (Quiet.trans (hset { (s.reg.recvStates j).getD .default with
        buffer := buf } fun hji' => absurd hji' hji) ?_) hs hs' h
      exact Quiet.replyOther hji (by exact hf) _
  | kept hbuf hacc => exact (hset _ hstate).delivered hs hs' h
  | joined hbuf hin => exact (hwait hbuf).delivered hs hs' h
  | spawned hbuf hin =>
    obtain ⟨f, hf⟩ := closeWaiter_eq { s with
      queue := rest, reg := s.reg.setRecvState j ⟨true, some t, []⟩ }
        ((s.reg.recvStates j).getD .default).waiter
    refine ((hwait hbuf).trans (Quiet.spawn ?_ _)).delivered hs hs' h
    rw [hf]
    exact hs.tasks.tasks_fresh

/-- The `recv` of a channel is the only one that can carry a message of it. -/
lemma Receives.inTransit_eq {s : Sys} (hr : s.Receives) (hs : Tasks s) {i k : ℕ}
    (hk : s.RecvTask i k) : s.inTransit i = (s.carriedBy i k).toList := by
  refine gather_single (fun u hu => ?_) fun u hu => hs.carriedBy_fresh i hu
  by_contra hne
  obtain ⟨m, hm⟩ := Option.ne_none_iff_exists'.mp hne
  obtain ⟨x, hx, hcar⟩ := Option.bind_eq_some_iff.mp hm
  obtain ⟨o, rfl⟩ := carried_eq_some hcar
  exact hu ((hr i).oneTask u k ⟨o, _, hx⟩ hk)

/-- Without a `recv` task no message is in transit. -/
lemma inTransit_eq_nil {s : Sys} {i : ℕ} (h : ∀ k, ¬ s.RecvTask i k) : s.inTransit i = [] := by
  refine gather_eq_nil fun k => ?_
  by_contra hne
  obtain ⟨m, hm⟩ := Option.ne_none_iff_exists'.mp hne
  obtain ⟨x, hx, hcar⟩ := Option.bind_eq_some_iff.mp hm
  obtain ⟨o, rfl⟩ := carried_eq_some hcar
  exact h k ⟨o, _, hx⟩

/-- The waiter of a channel is a call of `recv` on it. -/
lemma Tickets.waiter {s : Sys} (ht : Tickets s) {j w : ℕ} {st : RecvState}
    (hst : s.reg.recvStates j = some st) (hw : st.waiter = some w) :
    ∃ h fs, s.futs w = some ⟨.recv h j, fs⟩ := by
  obtain ⟨⟨op, fs⟩, hf, -, htopic⟩ := ht.sender (.waiter j) w (by simp [senderAt, hst, hw])
  have htopic' : op.topic = .recv j := htopic
  obtain ⟨h, rfl⟩ : ∃ h, op = .recv h j := by
    cases op <;> simp_all [Op.topic]
  exact ⟨h, fs, hf⟩

/-- The end of a `recv` task: its message goes to the call that waits, or into the buffer. -/
lemma delivered_completeRecv {s s' : Sys} (hs : Sound s) (hs' : Sound s') (ht : Tickets s)
    (hr : s.Receives) {i j k : ℕ} {c : Option Cap} {st : Stage} {result : Except RecvError Bytes}
    (hk : s.tasks k = some ⟨.recv j c, st⟩)
    (hcar : Task.carried j ⟨.recv j c, st⟩ = (messages result).head?)
    (hstep : (s.setTask k none).completeRecv j result = s') {o : Cap} (hlive : i ∉ s.released)
    (h : s.Delivered i o) : s'.Delivered i o := by
  have hmsgs : (messages result).head?.toList = messages result := by
    cases result <;> rfl
  by_cases hji : j = i
  · subst hji
    have htask : s.RecvTask j k := ⟨c, st, hk⟩
    have htr : s.inTransit j = messages result := by
      rw [hr.inTransit_eq hs.tasks htask, carriedBy, hk, Option.bind_some, hcar, hmsgs]
    have htr' : ∀ {u : Sys}, u.tasks = Function.update s.tasks k none → u.inTransit j = [] := by
      intro u hu
      refine inTransit_eq_nil fun k' hk' => ?_
      obtain ⟨hne, hk'⟩ := (recvTask_remove hu j k').mp hk'
      exact hne ((hr j).oneTask k' k hk' htask)
    have hin := ((hr j).inFlight hlive).mpr ⟨k, htask⟩
    -- a capnp `recv` is outstanding only while the buffer is empty
    have hempty : ∀ {rst : RecvState}, s.reg.recvStates j = some rst →
        rst.buffer = [] ∧ s.buffered j = [] := fun {rst} hrst => by
      have hbuf : rst.buffer = [] := (hr j).buffer rst hrst (by simpa [hrst] using hin)
      exact ⟨hbuf, by simp [Sys.buffered, hrst, hbuf]⟩
    cases completed_of_completeRecv hstep with
    | gone hnone =>
      have hnone' : s.reg.recvStates j = none := hnone
      simp [hnone', RecvState.default] at hin
    | @kept rst hrst =>
      -- no call takes the message, so it stays in the buffer
      obtain ⟨hbuf, hbuf'⟩ := hempty hrst
      have hd : s.pulled o = s.returned j ++ s.slots j ++ messages result := by
        rw [show s.pulled o = _ from h, hbuf', htr, List.append_nil]
      rw [Delivered, slots_congr (by rfl) hs hs', htr' rfl, List.append_nil]
      refine hd.trans (congrArg (s.returned j ++ s.slots j ++ ·) ?_)
      simp [Sys.buffered, Registry.setRecvState, hbuf]
    | @replied rst w hrst hw hacc =>
      obtain ⟨hbuf, hbuf'⟩ := hempty hrst
      obtain ⟨h', fs, hf⟩ := ht.waiter hrst hw
      obtain ⟨op, hf'⟩ := accepts_iff.mp hacc
      obtain ⟨rfl, rfl⟩ := Fut.mk.inj (Option.some.inj (hf.symm.trans hf'))
      rw [reply_waiting (by exact hf)] at hs' ⊢
      refine h.fill hs hs' hf rfl rfl rfl ?_
      rw [hbuf', htr, htr' rfl]
      simp [Sys.buffered, Registry.setRecvState, setFut, hbuf]
  · have hset : Quiet i s (s.setTask k none) := by
      refine Quiet.setTask hk ?_ rfl
      unfold Task.carried
      split
      · rename_i heq
        simp [← (Call.recv.inj (Task.mk.inj heq).1).1, hji]
      · rfl
    have hstate : ∀ buf, Quiet i s { s.setTask k none with
        reg := s.reg.setRecvState j ⟨false, none, buf⟩ } := fun buf =>
      hset.trans (Quiet.setRecvState fun hji' => absurd hji' hji)
    cases completed_of_completeRecv hstep with
    | gone hnone => exact hset.delivered hs hs' h
    | kept hrst => exact (hstate _).delivered hs hs' h
    | replied hrst hw hacc =>
      obtain ⟨h', fs, hf⟩ := ht.waiter hrst hw
      exact ((hstate _).trans (Quiet.replyOther hji (by exact hf) _)).delivered hs hs' h

/-- The answer that a task gets carries what the server took from the backend for it. -/
lemma pulled_answer {s u : Sys} (hs : Sound s) {k : ℕ} {call : Call} {out : Outcome}
    {r : Except CapnpError Answer} (hk : s.tasks k = some ⟨call, .issued⟩)
    (hserve : s.serve k call out = some (u, r)) {i : ℕ} {o : Cap}
    (ho : s.created[i]? = some (.channel, o)) :
    u.pulled o = s.pulled o ++ (Task.carried i ⟨call, .answered r⟩).toList := by
  rcases serve_cases hserve with ⟨j, c, m, rest, rfl, -, rfl, rfl⟩ | ⟨c, t, n, rest, rfl, -, rfl, rfl⟩ | hun
  · obtain ⟨d, hd, hj⟩ := (hs.tasks.ok k _ hk).recv j _ rfl
    obtain rfl : c = d := Option.some.inj hd
    by_cases hji : j = i
    · subst hji
      obtain rfl : c = o := (Prod.mk.inj (Option.some.inj (hj.symm.trans ho))).2
      simp [pulled, Sys.log, BackendCall.pulled, Task.carried]
    · have hco : c ≠ o := by
        rintro rfl
        exact hji (hs.tasks.distinct j i _ _ c hj ho)
      simp [pulled, Sys.log, BackendCall.pulled, Task.carried, hji, hco]
  · simp [pulled, Sys.log, BackendCall.pulled, Task.carried]
  · obtain ⟨bs, hbs, hquiet⟩ := hun.backend
    have hnone : bs.filterMap (BackendCall.pulled o) = [] := by
      refine List.filterMap_eq_nil_iff.mpr fun b hb => ?_
      unfold BackendCall.pulled
      split
      · exact absurd (hquiet _ hb).1 (by simp [BackendCall.takes])
      · rfl
    have hcar : Task.carried i ⟨call, .answered r⟩ = none := by
      by_contra hne
      obtain ⟨m, hm⟩ := Option.ne_none_iff_exists'.mp hne
      obtain ⟨c, heq⟩ := carried_eq_some hm
      exact hun.msg m (Stage.answered.inj (Task.mk.inj heq).2)
    unfold pulled
    rw [hbs, List.filterMap_append, hnone, hcar]
    simp

lemma logged_answer {s u : Sys} (hs : Sound s) {k : ℕ} {call : Call} {out : Outcome}
    {r : Except CapnpError Answer} (hk : s.tasks k = some ⟨call, .issued⟩)
    (hserve : s.serve k call out = some (u, r)) {c : Cap} {x : Except RecvError Bytes}
    (hb : .recv c x ∈ u.backend) :
    .recv c x ∈ s.backend ∨ ∃ j : ℕ, s.created[j]? = some (.channel, c) := by
  have hfrom : ∀ j, call = .recv j (some c) → ∃ j : ℕ, s.created[j]? = some (.channel, c) := by
    rintro j rfl
    obtain ⟨d, hd, hj⟩ := (hs.tasks.ok k _ hk).recv j _ rfl
    exact ⟨j, Option.some.inj hd ▸ hj⟩
  rcases serve_cases hserve with ⟨j, d, m, rest, hcall, -, rfl, rfl⟩ | ⟨d, t, n, rest, rfl, -, rfl, rfl⟩ | hun
  · rcases List.mem_append.mp hb with hb | hb
    · exact .inl hb
    · obtain ⟨rfl, -⟩ := BackendCall.recv.inj (List.mem_singleton.mp hb)
      exact .inr (hfrom j hcall)
  · rcases List.mem_append.mp hb with hb | hb
    · exact .inl hb
    · exact absurd (List.mem_singleton.mp hb) (by simp)
  · obtain ⟨bs, hbs, hquiet⟩ := hun.backend
    rw [hbs] at hb
    rcases List.mem_append.mp hb with hb | hb
    · exact .inl hb
    · obtain ⟨j, hj⟩ := (hquiet _ hb).2 c x rfl
      exact .inr (hfrom j hj)

/-- The server answers a call: what it takes from the backend of the channel, the answer carries. -/
lemma delivery_answer {s s' : Sys} (hs : Sound s) (hs' : Sound s') (hr : s.Receives) {i k : ℕ}
    {out : Outcome} (hstep : s.answer k out = some s') (h : Delivery i s) : Delivery i s' := by
  have hr' : s'.Receives := step_receives (a := .answer k out) hs hr hstep
  obtain ⟨call, r, u, hk, -, hserve, heq⟩ := answer_cases hstep
  have hcreated : s'.created = s.created := by rw [heq]
  have htransit : s'.inTransit i = s.inTransit i ++ (Task.carried i ⟨call, .answered r⟩).toList := by
    -- only the one `recv` task of the channel can be given a message of it
    by_cases htask : s.RecvTask i k
    · obtain ⟨c, st, hk'⟩ := htask
      obtain ⟨rfl, rfl⟩ := Task.mk.inj (Option.some.inj (hk.symm.trans hk'))
      have hafter : s'.tasks k = some ⟨.recv i c, .answered r⟩ := by simp [heq]
      rw [hr.inTransit_eq hs.tasks ⟨c, _, hk⟩, hr'.inTransit_eq hs'.tasks ⟨c, _, hafter⟩]
      simp [carriedBy, hk, hafter, Task.carried]
    · have hnone : Task.carried i ⟨call, .answered r⟩ = none := by
        by_contra hne
        obtain ⟨m, hm⟩ := Option.ne_none_iff_exists'.mp hne
        obtain ⟨c, hc⟩ := carried_eq_some hm
        exact htask ⟨c, _, (Task.mk.inj hc).1 ▸ hk⟩
      have hsame : s'.carriedBy i = s.carriedBy i := by
        rw [heq]
        exact bind_update (by simp [hk, Task.carried]) hnone
      rw [inTransit_congr hsame hs hs', hnone, Option.toList_none, List.append_nil]
  refine ⟨fun o ho hrel => ?_, fun c x hb => ?_⟩
  · have ho' : s.created[i]? = some (.channel, o) := hcreated ▸ ho
    have hrel' : i ∉ s.released := by rwa [heq] at hrel
    have hparts : s'.pulled o = u.pulled o ∧ s'.returned i = s.returned i ∧
        s'.slots i = s.slots i ∧ s'.buffered i = s.buffered i := by
      rw [heq]
      exact ⟨rfl, rfl, rfl, rfl⟩
    have hold := h.channel o ho' hrel'
    unfold Delivered at hold ⊢
    rw [htransit, hparts.1, hparts.2.1, hparts.2.2.1, hparts.2.2.2, pulled_answer hs hk hserve ho',
      hold, List.append_assoc _ (s.inTransit i)]
  · have hb' : .recv c x ∈ u.backend := by rwa [heq] at hb
    rw [hcreated]
    rcases logged_answer hs hk hserve hb' with hold | hnew
    · exact h.logged c x hold
    · exact hnew

lemma delivery_dequeue {s s' : Sys} (hs : Sound s) (hs' : Sound s') (ht : Tickets s)
    (hr : s.Receives) {i : ℕ} (hstep : s.dequeue = some s') (h : Delivery i s) : Delivery i s' := by
  -- a command that allocates no id for a channel and moves no message
  have hquiet : Quiet i s s' → (∀ o, s.created[i]? = none → s'.created[i]? ≠ some (.channel, o)) →
      Delivery i s' := fun hq hnew =>
    hq.delivery (a := .dequeue) hstep hs hs' ht hr h fun o hnone ho => absurd ho (hnew o hnone)
  have hsame : s'.created = s.created → ∀ o, s.created[i]? = none →
      s'.created[i]? ≠ some (.channel, o) := fun heq o hnone => by simp [heq, hnone]
  obtain ⟨c, rest, hq, hdeq⟩ := dequeued_of_dequeue hstep
  have hpop : Quiet i s { s with queue := rest } := Quiet.congr rfl rfl rfl rfl rfl
  have hfresh : ({ s with queue := rest } : Sys).tasks s.fresh = none := hs.tasks.tasks_fresh
  cases hdeq with
  | @created j t c hc =>
    have hinst : Quiet i s ({ s with queue := rest, fresh := s.fresh + 1 }.install .connector
        s.fresh) :=
      (Quiet.congr rfl rfl rfl rfl rfl :
        Quiet i s { s with queue := rest, fresh := s.fresh + 1 }).trans (Quiet.install _ _)
    refine hquiet (hinst.trans (Quiet.reply t (by simp))) fun o hnone ho => ?_
    rw [created_reply] at ho
    rcases getElem?_concat_eq_some.mp ho with ho | ⟨-, ho⟩
    · exact absurd (hnone.symm.trans ho) (by simp)
    · exact absurd (Prod.mk.inj ho).1 (by simp)
  | @closed j t => exact hquiet (hpop.trans (Quiet.closeReply t)) (hsame (created_closeReply _ _))
  | spawned hne hcall => exact hquiet (hpop.trans (Quiet.spawn hfresh _)) (hsame rfl)
  | @received j t =>
    obtain ⟨f, g, heq⟩ := onRecv_eq { s with queue := rest } j t
    have hrest : ({ s with queue := rest }.onRecv j t).created = s.created ∧
        ({ s with queue := rest }.onRecv j t).released = s.released ∧
        ({ s with queue := rest }.onRecv j t).backend = s.backend := by
      rcases heq with heq | heq <;> rw [heq] <;> exact ⟨rfl, rfl, rfl⟩
    obtain ⟨hcreated', hreleased, hbackend⟩ := hrest
    refine ⟨fun o ho hrel => ?_, fun c x hb => ?_⟩
    · exact delivered_onRecv hs hs' ht hq rfl (h.channel o (hcreated' ▸ ho) (hreleased ▸ hrel))
    · rw [hcreated']
      exact h.logged c x (hbackend ▸ hb)
  | @released j =>
    obtain ⟨f, hf⟩ := onRelease_eq { s with queue := rest } j
    by_cases hji : j = i
    · -- nothing is claimed about a released channel
      subst hji
      rw [hf]
      exact ⟨fun o _ hrel => absurd List.mem_cons_self hrel, fun c x hb => h.logged c x hb⟩
    · have hrelease : Quiet i s { s with
          queue := rest, reg := s.reg.release j, released := j :: s.released } := by
        refine ⟨rfl, rfl, rfl, ?_, rfl, rfl⟩
        have hij : i ≠ j := fun hij => hji hij.symm
        simp [Sys.buffered, Registry.release, Function.update_of_ne hij]
      have hq' : Quiet i s ({ s with queue := rest }.onRelease j) := by
        simp only [onRelease]
        rw [closeWaiter_with]
        exact hrelease.trans (Quiet.closeWaiter _)
      exact hquiet hq' (hsame (by rw [hf]))
  | @refused nf t =>
    exact hquiet (hpop.trans (Quiet.reply t (by simp))) (hsame (created_reply _ _ _))

/-- A task moves on without a message, and allocates at most an id for what it has created. -/
lemma Quiet.task {s s' : Sys} {a : Action} {i k : ℕ} {x : Task} (hq : Quiet i s s')
    (hstep : s.step a = some s') (hs : Sound s) (hs' : Sound s') (ht : Tickets s) (hr : s.Receives)
    (h : Delivery i s) (hk : s.tasks k = some x)
    (hcreated : s'.created = s.created ∨ ∃ kind, s'.created = s.created ++ [(kind, k)]) :
    Delivery i s' := by
  refine hq.delivery hstep hs hs' ht hr h fun o hnone ho => ?_
  rcases hcreated with heq | ⟨kind, heq⟩
  · exact absurd (hnone.symm.trans (heq ▸ ho)) (by simp)
  · rcases getElem?_concat_eq_some.mp (heq ▸ ho) with ho | ⟨-, ho⟩
    · exact absurd (hnone.symm.trans ho) (by simp)
    · obtain rfl : k = o := (Prod.mk.inj ho).2
      exact h.pulled_eq_nil fun j kind' hj => by simpa [hk] using (hs.tasks.caps j kind' k hj).2

lemma delivery_poll {s s' : Sys} (hs : Sound s) (hs' : Sound s') (ht : Tickets s) (hr : s.Receives)
    {i k : ℕ} (hstep : s.poll k = some s') (h : Delivery i s) : Delivery i s' := by
  cases polled_of_poll hstep with
  | @issued call hk =>
    have hset : Quiet i s (s.setTask k (some ⟨call, .issued⟩)) :=
      Quiet.setTask hk (by simp [Task.carried]) (by simp [Task.carried])
    have hissue : Quiet i s (s.issue k call) := by
      rw [issue_eq]
      exact hset.trans (Quiet.congr rfl rfl rfl rfl rfl)
    exact hissue.task (a := .poll k) hstep hs hs' ht hr h hk (.inl (by rw [issue_eq]))
  | replied hk hticket hid hrecv =>
    have hrem : Quiet i s (s.setTask k none) := Quiet.setTask hk (by simp [Task.carried]) rfl
    exact (hrem.trans (Quiet.reply _ hrecv)).task (a := .poll k) hstep hs hs' ht hr h hk
      (.inl (created_reply _ _ _))
  | @received j hk =>
    -- a `recv` task has its channel
    obtain ⟨c, hc, -⟩ := (hs.tasks.ok k _ hk).recv j none rfl
    exact absurd hc (by simp)

/-- A task that replies on a ticket carries no message. -/
lemma carried_of_ticket {i t : ℕ} {call : Call} {st : Stage} (ht : call.ticket = some t) :
    Task.carried i ⟨call, st⟩ = none := by
  cases call <;> first | rfl | exact absurd ht (by simp [Call.ticket])

lemma delivery_resume {s s' : Sys} (hs : Sound s) (hs' : Sound s') (ht : Tickets s)
    (hr : s.Receives) {i k : ℕ} (hstep : s.resume k = some s') (h : Delivery i s) :
    Delivery i s' := by
  have hresume := hstep
  cases resumed_of_resume hstep with
  | @listened o p n t c hk =>
    have hset : Quiet i s (s.setTask k (some ⟨.onionAddr c t, .issued⟩)) :=
      Quiet.setTask hk (by simp [Task.carried]) (by simp [Task.carried])
    exact hset.task (a := .resume k) hstep hs hs' ht hr h hk (.inl rfl)
  | @created call a kind c t r hk hnew =>
    obtain rfl : c = k := (hs.tasks.ok k _ hk).creates hnew
    have hrem : Quiet i s (s.setTask c none) :=
      Quiet.setTask hk (carried_of_ticket hnew.ticket) rfl
    exact ((hrem.trans (Quiet.install _ _)).trans (Quiet.reply _ hnew.not_recv)).task
      (a := .resume c) hstep hs hs' ht hr h hk (.inr ⟨kind, created_reply _ _ _⟩)
  | replied hk hticket hid hrecv =>
    have hrem : Quiet i s (s.setTask k none) := Quiet.setTask hk (carried_of_ticket hticket) rfl
    exact (hrem.trans (Quiet.reply _ hrecv)).task (a := .resume k) hstep hs hs' ht hr h hk
      (.inl (created_reply _ _ _))
  | @received j o x result hk hx =>
    have hcar : Task.carried j ⟨.recv j o, .answered x⟩ = (messages result).head? := by
      cases result with
      | ok m =>
        obtain rfl := (hx m).mp rfl
        simp [Task.carried, messages]
      | error e =>
        have hnot : ∀ m, x ≠ .ok (.msg m) := fun m hm => absurd ((hx m).mpr hm) (by simp)
        rcases x with e' | (_ | m | c | text) <;> simp_all [Task.carried, messages]
    obtain ⟨f, g, hfg⟩ := completeRecv_eq (s.setTask k none) j result
    have hrest := resume_rest hresume
    refine ⟨fun o ho hrel => ?_, fun c x hb => ?_⟩
    · have hrel' : i ∉ s.released := by rwa [hfg] at hrel
      refine delivered_completeRecv hs hs' ht hr hk hcar rfl hrel' (h.channel o ?_ hrel')
      rwa [hfg] at ho
    · rw [hfg] at hb ⊢
      exact h.logged c x hb

/-! ## Every careful run -/

/-- A step that drops no call of `recv` with a message in its slot loses no message. -/
lemma step_delivery {s s' : Sys} {a : Action} (hs : Sound s) (hs' : Sound s') (ht : Tickets s)
    (hr : s.Receives) {i : ℕ} (hkept : RecvKept i s a) (hstep : s.step a = some s')
    (h : Delivery i s) : Delivery i s' := by
  cases ha : isRemote a with
  | false =>
    have hrest := (step_caller_rest ha hstep).1
    have hmsgs := caller_messages hs hs' ht ha hkept hstep
    have htransit : s'.inTransit i = s.inTransit i :=
      inTransit_congr (by unfold carriedBy; rw [hrest]) hs hs'
    have hparts : s'.created = s.created ∧ s'.released = s.released ∧ s'.backend = s.backend ∧
        s'.buffered i = s.buffered i := by
      rw [hrest]
      exact ⟨rfl, rfl, rfl, rfl⟩
    refine ⟨fun o ho hrel => ?_, fun c x hb => ?_⟩
    · have hold := h.channel o (hparts.1 ▸ ho) (hparts.2.1 ▸ hrel)
      unfold Delivered pulled at hold ⊢
      rw [hparts.2.2.1, hold, hmsgs, hparts.2.2.2, htransit]
    · rw [hparts.1]
      exact h.logged c x (hparts.2.2.1 ▸ hb)
  | true =>
    cases a with
    | dequeue => exact delivery_dequeue hs hs' ht hr hstep h
    | poll k => exact delivery_poll hs hs' ht hr hstep h
    | answer k o => exact delivery_answer hs hs' hr hstep h
    | resume k => exact delivery_resume hs hs' ht hr hstep h
    | arriveMsg c m | arriveConn c n =>
      have hsame : Quiet i s s' ∧ s'.created = s.created := by
        obtain rfl := Option.some.inj hstep
        exact ⟨Quiet.congr rfl rfl rfl rfl rfl, rfl⟩
      exact hsame.1.delivery hstep hs hs' ht hr h fun o hnone ho =>
        absurd (hnone.symm.trans (hsame.2 ▸ ho)) (by simp)
    | _ => exact absurd ha (by simp [isRemote])

lemma delivery_init (cfg : Config) (i : ℕ) : Delivery i (init cfg) where
  channel := fun o _ _ => by
    have hslots : (init cfg).slots i = [] := gather_eq_nil fun t => by simp [heldBy, init]
    have htransit : (init cfg).inTransit i = [] := gather_eq_nil fun k => by simp [carriedBy, init]
    unfold Delivered
    rw [hslots, htransit]
    simp [pulled, Sys.returned, Sys.buffered, init, Registry.new, RecvState.default]
  logged := by simp [init]

instance (i : ℕ) (s : Sys) : DecidablePred (RecvKept i s)
  | .dropFut t => inferInstanceAs (Decidable (s.heldBy i t = none))
  | .newConnector | .listen _ | .configure _ | .connect _ _ | .accept _ | .send _ _ | .recv _
  | .wake _ | .enqueue _ | .resolve _ | .dropHandle _ _ | .dequeue | .poll _ | .answer _ _ | .resume _
  | .arriveMsg _ _ | .arriveConn _ _ => inferInstanceAs (Decidable True)

/-- **No message is lost** on a channel whose handle lives, when no `recv` is dropped with a message
in its reply slot: what the backend handed out is what the calls of `recv` returned, each once,
followed by what is in the reply slot, the buffer and the outstanding capnp `recv`. -/
theorem recv_delivers {cfg : Config} {as : List Action} {s : Sys}
    (hrun : run step (Sys.init cfg) as = some s) (hfew : s.created.length < 2 ^ 64) {h i : ℕ}
    (hh : s.handles h = some ⟨.channel, some i, true⟩)
    (hkept : EachStep step (RecvKept i) (Sys.init cfg) as) :
    ∃ o, s.created[i]? = some (.channel, o) ∧ s.reg.get .channel i = some o ∧ s.Delivered i o ∧
      s.resolved.Nodup := by
  obtain ⟨hs, -, hdel⟩ := regular_induction (I := fun s => s.Receives ∧ Delivery i s)
    ⟨receives_init cfg, delivery_init cfg i⟩
    (fun u a u' hu hu' hI hP hstep => ⟨step_receives hu.sound hI.1 hstep,
      step_delivery hu.sound hu'.sound hu.tickets hI.1 hP hstep hI.2⟩) hkept hrun hfew
  obtain ⟨o, ho⟩ := (hs.sound.base.callers.handles h _ hh).typed i rfl
  have hlive : i ∉ s.released := (hs.sound.wf.carried h i (owner_of_handle hh)).2.1
  exact ⟨o, ho, hs.sound.mapped ho hlive, hdel.channel o ho hlive, hs.tickets.resolved⟩

/-- A connection whose bootstrapped capability is a channel, for runs on fixed inputs. -/
def channelConfig : Config where
  boot := .channel
  maxMsgLen := 1024
  parses _ := true
  backendParses _ := true
  remoteText t := t

/-- A `recv` is dropped while its capnp call is outstanding; the next one gets the message. -/
theorem recv_delivers_after_drop :
    ∃ s, run step (Sys.init channelConfig) [.recv 0, .enqueue 2, .dequeue, .poll 3, .dropFut 2,
        .arriveMsg 0 [7], .answer 3 .ok, .resume 3, .recv 0, .enqueue 4, .dequeue, .resolve 4] = some s ∧
      ∃ o, s.created[0]? = some (.channel, o) ∧ s.reg.get .channel 0 = some o ∧ s.Delivered 0 o ∧
        s.resolved.Nodup := by
  refine ⟨_, Option.eq_some_of_isSome (by decide), ?_⟩
  exact recv_delivers (h := 0) (Option.eq_some_of_isSome (by decide)) (by decide) (by decide)
    (by decide)

/-- A `recv` that is dropped between the actor's reply and its own next poll takes the message
along. -/
theorem message_lost_in_slot :
    ¬ ∀ (cfg : Config) (as : List Action) (s : Sys) (h i : ℕ) (o : Cap),
      run step (Sys.init cfg) as = some s → s.created.length < 2 ^ 64 →
      s.handles h = some ⟨.channel, some i, true⟩ → s.created[i]? = some (.channel, o) →
      s.Delivered i o := by
  intro hall
  have hrun : (run step (Sys.init channelConfig) [.recv 0, .enqueue 2, .dequeue, .poll 3,
      .arriveMsg 0 [7], .answer 3 .ok, .resume 3, .dropFut 2]).any (fun s => decide
        (s.created.length < 2 ^ 64 ∧ s.handles 0 = some ⟨.channel, some 0, true⟩ ∧
          s.created[0]? = some (.channel, 0) ∧ s.pulled 0 = [[7]] ∧
          s.returned 0 ++ s.slots 0 ++ s.buffered 0 ++ s.inTransit 0 = [])) := by decide
  obtain ⟨s, hs, hdec⟩ := (Option.any_eq_true _ _).mp hrun
  obtain ⟨hfew, hh, ho, hpulled, hparts⟩ := of_decide_eq_true hdec
  have hdel := hall channelConfig _ s 0 0 0 hs hfew hh ho
  unfold Delivered at hdel
  rw [hpulled, hparts] at hdel
  exact absurd hdel (by simp)

end Sys

end FungiTransport
