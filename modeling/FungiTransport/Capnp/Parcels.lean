import FungiTransport.Capnp.Tickets
import FungiTransport.Lib.Gather

/-!
# What replies bring to their callers

The reply of a call on one capability may bring something to its caller: a message, or the id of
a new channel.  It lies in the reply slot until the caller polls, and is returned when the call
resolves.  `Sys.CallStep` says what a step of the callers does to the calls; from it follows that
the callers lose nothing of what their slots hold as long as no such call is dropped
(`Sys.Parcel.caller`).
-/

namespace FungiTransport

open Lib

/-- The reply that a call has got, polled or not. -/
def Status.reply : Status → Option Reply
  | .replied r | .done r => some r
  | .parked | .sending | .waiting | .closed | .dropped => none

namespace Sys

/-- What a step of the callers does to the calls. -/
inductive CallStep (s s' : Sys) : Action → Prop where
  | kept {a : Action} (hfuts : s'.futs = s.futs) (hresolved : s'.resolved = s.resolved) :
      CallStep s s' a
  /-- A call begins or goes on. -/
  | moved {a : Action} {t : ℕ} {f : Fut}
      (hold : ∀ x, s.futs t = some x → x.status.reply = none ∨ x.op.exclusive = false)
      (hnew : f.status.reply = none) (hlive : f.status.live)
      (hfuts : s'.futs = Function.update s.futs t (some f)) (hresolved : s'.resolved = s.resolved) :
      CallStep s s' a
  | dropped {t : ℕ} {op : Op} {st : Status} (hf : s.futs t = some ⟨op, st⟩) (hl : st.live)
      (hfuts : s'.futs = Function.update s.futs t (some ⟨op, .dropped⟩))
      (hresolved : s'.resolved = s.resolved) : CallStep s s' (.dropFut t)
  /-- A call resolves, with the reply in its slot if it borrows its handle exclusively. -/
  | resolved {t : ℕ} {op : Op} {st : Status} {r : Reply}
      (hf : s.futs t = some ⟨op, st⟩) (hl : st.live)
      (hr : st = .replied r ∨ st = .closed ∧ r = op.disconnected ∨ op.exclusive = false)
      (hfuts : s'.futs = Function.update s.futs t (some ⟨op, .done r⟩))
      (hresolved : s'.resolved = s.resolved ++ [t]) : CallStep s s' (.resolve t)
  /-- A message over the limit is rejected at once. -/
  | rejected {a : Action} {h i : ℕ} {msg : Bytes} {e : SendError}
      (hid : (s.liveHandle h .channel).bind (·.id) = some i)
      (hfuts : s'.futs = Function.update s.futs s.fresh
        (some ⟨.send h i msg, .done (.send (.error e))⟩))
      (hresolved : s'.resolved = s.resolved ++ [s.fresh]) : CallStep s s' a

lemma callStep_start {s s' : Sys} {a : Action} (hfree : s.futs s.fresh = none) {op : Op}
    {st : Status} (hst : st.reply = none) (hl : st.live) (hs' : s.start op st = s') :
    s.CallStep s' a := by
  subst hs'
  exact .moved (by simp [hfree]) hst hl rfl rfl

lemma callStep_move {s s' : Sys} {a : Action} {t : ℕ} {op op' : Op} {st st' : Status}
    (hf : s.futs t = some ⟨op, st⟩) (hst : st.reply = none ∨ op.exclusive = false)
    (hst' : st'.reply = none) (hl : st'.live)
    (hfuts : s'.futs = Function.update s.futs t (some ⟨op', st'⟩))
    (hresolved : s'.resolved = s.resolved) : s.CallStep s' a := by
  refine .moved (fun x hx => ?_) hst' hl hfuts hresolved
  obtain rfl := Option.some.inj (hf.symm.trans hx)
  exact hst

lemma callStep_resolve {s s' : Sys} {t : ℕ} (hstep : s.resolve t = some s') :
    s.CallStep s' (.resolve t) := by
  cases resolving_of_resolve hstep with
  | named hf hid hk => exact .resolved hf rfl (.inl rfl) rfl rfl
  | unparsed hf hparses => exact .resolved hf rfl (.inr (.inr rfl)) rfl rfl
  | filled hf hx => exact callStep_move hf (.inr rfl) rfl rfl rfl rfl
  | returned hf hid => exact .resolved hf rfl (.inl rfl) rfl rfl
  | disconnected hf => exact .resolved hf rfl (.inr (.inl ⟨rfl, rfl⟩)) rfl rfl

theorem callStep_of_step {s s' : Sys} {a : Action} (hfree : s.futs s.fresh = none)
    (ha : isRemote a = false) (hstep : s.step a = some s') : s.CallStep s' a := by
  cases a with
  | dequeue | poll k | answer k o | resume k | arriveMsg c m | arriveConn c n =>
    exact absurd ha (by simp [isRemote])
  | newConnector =>
    obtain ⟨x, -, rfl⟩ := Option.map_eq_some_iff.mp hstep
    exact .kept rfl rfl
  | listen p | configure nf =>
    obtain ⟨x, -, hs'⟩ := Option.map_eq_some_iff.mp hstep
    exact callStep_start hfree rfl rfl hs'
  | connect h addr =>
    obtain ⟨x, -, hs'⟩ := Option.map_eq_some_iff.mp hstep
    split at hs'
    · exact callStep_start hfree rfl rfl hs'
    · refine callStep_start hfree ?_ ?_ hs' <;> split <;> rfl
  | accept h =>
    obtain ⟨id, -, -, hs'⟩ := startAccept_cases hstep
    exact callStep_start hfree rfl rfl hs'.symm
  | recv h =>
    obtain ⟨id, -, -, hs'⟩ := startRecv_cases hstep
    exact callStep_start hfree rfl rfl hs'.symm
  | send h m =>
    obtain ⟨id, -, hid, ⟨-, rfl⟩ | ⟨-, hs'⟩⟩ := startSend_cases hstep
    · exact .rejected hid rfl rfl
    · exact callStep_start hfree rfl rfl hs'.symm
  | wake t =>
    obtain ⟨j, addr, hf, ⟨id, -, rfl⟩ | ⟨-, -, rfl⟩⟩ := wake_cases hstep
    · exact callStep_move hf (.inl rfl) rfl rfl rfl rfl
    · exact callStep_move hf (.inl rfl) rfl rfl rfl rfl
  | enqueue t =>
    obtain ⟨op, hf, rfl⟩ := enqueue_cases hstep
    exact callStep_move hf (.inl rfl) rfl rfl rfl rfl
  | dropFut t =>
    obtain ⟨op, st, hf, hl, rfl⟩ := dropFut_cases hstep
    exact .dropped hf hl rfl rfl
  | dropHandle h d =>
    obtain ⟨k, id, -, -, -, ⟨-, rfl⟩ | ⟨i, -, rfl⟩⟩ := dropHandle_cases hstep
    · exact .kept rfl rfl
    · exact .kept rfl rfl
  | resolve t => exact callStep_resolve hstep

/-! ## Replies -/

/-- What a step of the actor, a task, the server or the world does to the calls: at most one of
them that waits gets its reply, and the id of an accepted channel comes from its own task. -/
inductive ReplyStep (s s' : Sys) : Action → Prop where
  | kept {a : Action} (hfuts : s'.futs = s.futs) : ReplyStep s s' a
  | closed {a : Action} {t : ℕ} {op : Op} (hf : s.futs t = some ⟨op, .waiting⟩)
      (hfuts : s'.futs = Function.update s.futs t (some ⟨op, .closed⟩)) : ReplyStep s s' a
  | replied {a : Action} {t : ℕ} {op : Op} {r : Reply} (hf : s.futs t = some ⟨op, .waiting⟩)
      (hfuts : s'.futs = Function.update s.futs t (some ⟨op, .replied r⟩))
      (hr : ∀ n, r = .accept (.ok n) → ∃ k c d, a = .resume k ∧
        s.tasks k = some ⟨.accept c t, .answered (.ok (.cap d))⟩) : ReplyStep s s' a

lemma not_accepted_of_id? {P : Prop} {r : Reply} (hid : r.id? = none) (n : ℕ)
    (hr : r = .accept (.ok n)) : P := by
  subst hr
  exact absurd hid (by simp [Reply.id?])

lemma replyStep_reply {s u : Sys} {a : Action} {t : ℕ} {r : Reply} (hu : u.futs = s.futs)
    (hr : ∀ n, r = .accept (.ok n) → ∃ k c d, a = .resume k ∧
      s.tasks k = some ⟨.accept c t, .answered (.ok (.cap d))⟩) : s.ReplyStep (u.reply t r) a := by
  rcases reply_cases u t r with ⟨op, hf, heq⟩ | ⟨-, heq⟩ <;> rw [heq]
  · exact .replied (hu ▸ hf) (by rw [← hu]; rfl) hr
  · exact .kept hu

lemma replyStep_closeReply {s u : Sys} {a : Action} {t : ℕ} (hu : u.futs = s.futs) :
    s.ReplyStep (u.closeReply t) a := by
  rcases closeReply_cases u t with ⟨op, hf, heq⟩ | heq <;> rw [heq]
  · exact .closed (hu ▸ hf) (by rw [← hu]; rfl)
  · exact .kept hu

lemma replyStep_closeWaiter {s u : Sys} {a : Action} {o : Option ℕ} (hu : u.futs = s.futs) :
    s.ReplyStep (u.closeWaiter o) a := by
  cases o with
  | none => exact .kept hu
  | some w => exact replyStep_closeReply hu

lemma replyStep_completeRecv {s u : Sys} {a : Action} {i : ℕ} {result : Except RecvError Bytes}
    (hu : u.futs = s.futs) : s.ReplyStep (u.completeRecv i result) a := by
  generalize hs' : u.completeRecv i result = s'
  cases completed_of_completeRecv hs' with
  | gone hst => exact .kept hu
  | kept hst => exact .kept hu
  | replied hst hw hacc => exact replyStep_reply hu (by simp)

lemma ReplyStep.congr {s s' u : Sys} {a : Action} (h : s.ReplyStep u a) (hu : s'.futs = u.futs) :
    s.ReplyStep s' a := by
  cases h with
  | kept hfuts => exact .kept (hu.trans hfuts)
  | closed hf hfuts => exact .closed hf (hu.trans hfuts)
  | replied hf hfuts hr => exact .replied hf (hu.trans hfuts) hr

lemma replyStep_dequeue {s s' : Sys} (hstep : s.dequeue = some s') : s.ReplyStep s' .dequeue := by
  obtain ⟨c, rest, hq, hdeq⟩ := dequeued_of_dequeue hstep
  cases hdeq with
  | created ho => exact replyStep_reply rfl (by simp)
  | closed => exact replyStep_closeReply rfl
  | spawned hne hcall => exact .kept rfl
  | @received i t =>
    have hclose : s.ReplyStep (({ s with
        queue := rest, reg := s.reg.setRecvState i ⟨true, some t, []⟩ } : Sys).closeWaiter
          ((s.reg.recvStates i).getD .default).waiter) .dequeue := replyStep_closeWaiter rfl
    generalize hs' : ({ s with queue := rest } : Sys).onRecv i t = s'
    cases received_of_onRecv hs' with
    | replied hbuf hacc => exact replyStep_reply rfl (by simp)
    | kept hbuf hacc => exact .kept rfl
    | joined hbuf hin => exact hclose
    | spawned hbuf hin => exact hclose.congr rfl
  | @released i =>
    have hclose : s.ReplyStep ({ s with queue := rest }.closeWaiter
        ((s.reg.recvStates i).bind (·.waiter))) .dequeue := replyStep_closeWaiter rfl
    exact hclose.congr rfl
  | refused => exact replyStep_reply rfl (by simp)

lemma replyStep_poll {s s' : Sys} {k : ℕ} (hstep : s.poll k = some s') :
    s.ReplyStep s' (.poll k) := by
  cases polled_of_poll hstep with
  | issued hk => exact .kept (by rw [issue_eq])
  | replied hk ht hid hr => exact replyStep_reply rfl (not_accepted_of_id? hid)
  | received hk => exact replyStep_completeRecv rfl

lemma replyStep_resume {s s' : Sys} {k : ℕ} (hstep : s.resume k = some s') :
    s.ReplyStep s' (.resume k) := by
  cases resumed_of_resume hstep with
  | listened hk => exact .kept rfl
  | @created call a kind c t r hk hnew =>
    refine replyStep_reply rfl fun n hn => ?_
    cases hnew with
    | listener | connected => exact absurd hn (by simp)
    | accepted => exact ⟨k, _, _, rfl, hk⟩
  | replied hk ht hid hr => exact replyStep_reply rfl (not_accepted_of_id? hid)
  | received hk hx => exact replyStep_completeRecv rfl

theorem replyStep_of_step {s s' : Sys} {a : Action} (ha : isRemote a = true)
    (hstep : s.step a = some s') : s.ReplyStep s' a := by
  cases a with
  | dequeue => exact replyStep_dequeue hstep
  | poll k => exact replyStep_poll hstep
  | answer k o =>
    obtain ⟨call, r, u, -, -, -, rfl⟩ := answer_cases hstep
    exact .kept rfl
  | resume k => exact replyStep_resume hstep
  | arriveMsg c m | arriveConn c n =>
    obtain rfl := Option.some.inj hstep
    exact .kept rfl
  | _ => exact absurd ha (by simp [isRemote])

/-- Only its caller drops a call. -/
lemma dropped_cases {s s' : Sys} {a : Action} (hc : Callers s) (hstep : s.step a = some s') {t : ℕ}
    {op : Op} (hf : s'.futs t = some ⟨op, .dropped⟩) :
    s.futs t = some ⟨op, .dropped⟩ ∨ a = .dropFut t ∧ ∃ st, s.futs t = some ⟨op, st⟩ := by
  -- a call that is moved to any other status is not this one
  have hupdate : ∀ {u : ℕ} {f : Fut}, f.status ≠ .dropped →
      s'.futs = Function.update s.futs u (some f) → s.futs t = some ⟨op, .dropped⟩ := by
    intro u f hstatus hfuts
    rcases update_eq_some (hfuts ▸ hf) with ⟨-, hput⟩ | ⟨-, hkept⟩
    · rw [Option.some.inj hput] at hstatus
      exact absurd rfl hstatus
    · exact hkept
  cases ha : isRemote a with
  | false =>
    cases callStep_of_step (hc.futs_fresh le_rfl) ha hstep with
    | kept hfuts hresolved => exact .inl (hfuts ▸ hf)
    | moved hold hnew hlive hfuts hresolved =>
      refine .inl (hupdate (fun hst => ?_) hfuts)
      rw [hst] at hlive
      exact absurd hlive (by simp [Status.live])
    | @dropped u op' st hf' hl hfuts hresolved =>
      rcases update_eq_some (hfuts ▸ hf) with ⟨rfl, hput⟩ | ⟨-, hkept⟩
      · obtain ⟨rfl, -⟩ := Fut.mk.inj (Option.some.inj hput)
        exact .inr ⟨rfl, st, hf'⟩
      · exact .inl hkept
    | resolved hf' hl hr hfuts hresolved => exact .inl (hupdate (by simp) hfuts)
    | rejected hid hfuts hresolved => exact .inl (hupdate (by simp) hfuts)
  | true =>
    cases replyStep_of_step ha hstep with
    | kept hfuts => exact .inl (hfuts ▸ hf)
    | closed hf' hfuts => exact .inl (hupdate (by simp) hfuts)
    | replied hf' hfuts hr => exact .inl (hupdate (by simp) hfuts)

/-! ## Parcels -/

/-- What the replies of one kind of call on one capability bring to their callers. -/
structure Parcel (β : Type) where
  kind : Kind
  id : ℕ
  item : Op → Reply → Option β
  own : ∀ op r b, item op r = some b → op.exclusive = true ∧ ∃ h, op.carried = some (h, kind, id)
  disconnected : ∀ op, item op op.disconnected = none
  rejected : ∀ h i msg e, item (.send h i msg) (.send (.error e)) = none

namespace Parcel

variable {β : Type} (p : Parcel β)

/-- What lies in the reply slot of a call. -/
def held : Fut → Option β
  | ⟨op, .replied r⟩ => p.item op r
  | _ => none

/-- What a call returned. -/
def returned : Fut → Option β
  | ⟨op, .done r⟩ => p.item op r
  | _ => none

def heldBy (s : Sys) (t : ℕ) : Option β := (s.futs t).bind p.held

def returnedBy (s : Sys) (t : ℕ) : Option β := (s.futs t).bind p.returned

/-- What the calls returned, in the order they resolved. -/
def returns (s : Sys) : List β := s.resolved.filterMap (p.returnedBy s)

/-- What lies in the reply slots. -/
def slots (s : Sys) : List β := gather s.fresh (p.heldBy s)

lemma held_eq_some {f : Fut} {b : β} (h : p.held f = some b) :
    ∃ r, f.status = .replied r ∧ p.item f.op r = some b := by
  obtain ⟨op, st⟩ := f
  cases st with
  | replied r => exact ⟨r, rfl, h⟩
  | parked | sending | waiting | closed | done r | dropped => simp [held] at h

lemma held_of_reply {f : Fut} (h : f.status.reply = none ∨ f.op.exclusive = false) :
    p.held f = none := by
  by_contra hne
  obtain ⟨b, hb⟩ := Option.ne_none_iff_exists'.mp hne
  obtain ⟨r, hr, hitem⟩ := p.held_eq_some hb
  rcases h with h | h
  · simp [hr, Status.reply] at h
  · simp [(p.own _ _ _ hitem).1] at h

lemma returned_of_reply {f : Fut} (h : f.status.reply = none ∨ f.op.exclusive = false) :
    p.returned f = none := by
  obtain ⟨op, st⟩ := f
  cases st with
  | done r =>
    by_contra hne
    obtain ⟨b, hb⟩ := Option.ne_none_iff_exists'.mp hne
    rcases h with h | h
    · simp [Status.reply] at h
    · simp [(p.own op r b hb).1] at h
  | parked | sending | waiting | closed | replied r | dropped => rfl

lemma heldBy_fresh {s : Sys} (hs : Callers s) {t : ℕ} (ht : s.fresh ≤ t) : p.heldBy s t = none := by
  simp [heldBy, hs.futs_fresh ht]

lemma slots_congr {s s' : Sys} (h : p.heldBy s' = p.heldBy s) (hs : Callers s) (hs' : Callers s') :
    p.slots s' = p.slots s :=
  gather_congr (congrFun h) (fun _ ht => p.heldBy_fresh hs ht) fun _ ht => p.heldBy_fresh hs' ht

end Parcel

lemma bind_update {α γ : Type} {f : ℕ → Option α} {g : α → Option γ} {t : ℕ} {x : α}
    (hold : (f t).bind g = none) (hnew : g x = none) :
    (fun u => (Function.update f t (some x) u).bind g) = fun u => (f u).bind g := by
  ext1 u
  by_cases hu : u = t
  · subst hu
    simp [hold, hnew]
  · simp [Function.update_of_ne hu]

/-- Two pending calls on one capability that borrow its handle exclusively are one. -/
lemma Sound.call_unique {s : Sys} (hs : Sound s) {t u h h' i : ℕ} {k k' : Kind} {op op' : Op}
    {st st' : Status} (ht : s.futs t = some ⟨op, st⟩) (hu : s.futs u = some ⟨op', st'⟩)
    (hl : st.live) (hl' : st'.live) (hx : op.exclusive) (hx' : op'.exclusive)
    (hc : op.carried = some (h, k, i)) (hc' : op'.carried = some (h', k', i)) : t = u := by
  have hcallers := hs.base.callers
  have hh := (hcallers.futs t _ ht).carried hl h k i hc
  have hh' := (hcallers.futs u _ hu).carried hl' h' k' i hc'
  have heq : h = h' := hs.wf.unique h h' i (owner_of_handle hh) (owner_of_handle hh')
  have hhandle : ∀ {op : Op} {h : ℕ} {k : Kind}, op.exclusive → op.carried = some (h, k, i) →
      op.handle = h := by
    intro op h k hx hc
    cases op <;> simp_all [Op.exclusive, Op.carried, Op.handle]
  refine hcallers.exclusive t u _ _ ht hu hl hl' hx ?_
  show op.handle = op'.handle
  rw [hhandle hx hc, hhandle hx' hc', heq]

namespace Parcel

variable {β : Type} (p : Parcel β) {s s' : Sys}

/-- While a call on the capability is pending, what lies in its slot is all there is. -/
lemma slots_eq (hs : Sound s) {t h : ℕ} {op : Op} {st : Status} (ht : s.futs t = some ⟨op, st⟩)
    (hl : st.live) (hx : op.exclusive) (hc : op.carried = some (h, p.kind, p.id)) :
    p.slots s = (p.heldBy s t).toList := by
  refine gather_single (fun u hu => ?_) fun u hu => p.heldBy_fresh hs.base.callers hu
  by_contra hne
  obtain ⟨b, hb⟩ := Option.ne_none_iff_exists'.mp hne
  obtain ⟨⟨op', st'⟩, hf, hheld⟩ := Option.bind_eq_some_iff.mp hb
  obtain ⟨r, hr, hitem⟩ := p.held_eq_some hheld
  obtain rfl : st' = .replied r := hr
  obtain ⟨hx', h', hc'⟩ := p.own op' r b hitem
  exact hu (hs.call_unique hf ht rfl hl hx' hx hc' hc)

/-- A call resolves that had not resolved before. -/
lemma returns_concat {t : ℕ} {f : Fut} (hfuts : s'.futs = Function.update s.futs t (some f))
    (hresolved : s'.resolved = s.resolved ++ [t]) (hnew : t ∉ s.resolved) :
    p.returns s' = p.returns s ++ (p.returned f).toList := by
  have hother : ∀ u ∈ s.resolved, p.returnedBy s' u = p.returnedBy s u := fun u hu => by
    have hut : u ≠ t := fun hut => hnew (hut ▸ hu)
    simp [returnedBy, hfuts, Function.update_of_ne hut]
  have hlast : p.returnedBy s' t = p.returned f := by simp [returnedBy, hfuts]
  unfold returns
  rw [hresolved, List.filterMap_append, List.filterMap_congr hother]
  cases hf : p.returned f <;> simp [hlast, hf]

/-- Nothing happens to what the calls hold and have returned. -/
lemma caller_quiet (hs : Sound s) (hs' : Sound s') (hheld : p.heldBy s' = p.heldBy s)
    (hret : p.returnedBy s' = p.returnedBy s) (hresolved : s'.resolved = s.resolved) :
    p.returns s' ++ p.slots s' = p.returns s ++ p.slots s := by
  unfold returns
  rw [hresolved, hret, p.slots_congr hheld hs.base.callers hs'.base.callers]

/-- A call resolves with what its reply slot held. -/
lemma caller_resolved (hs : Sound s) (hs' : Sound s') (ht : Tickets s) {t : ℕ} {op : Op}
    {st : Status} {r : Reply} (hf : s.futs t = some ⟨op, st⟩) (hl : st.live)
    (hr : st = .replied r ∨ st = .closed ∧ r = op.disconnected ∨ op.exclusive = false)
    (hfuts : s'.futs = Function.update s.futs t (some ⟨op, .done r⟩))
    (hresolved : s'.resolved = s.resolved ++ [t]) :
    p.returns s' ++ p.slots s' = p.returns s ++ p.slots s := by
  have hnew : t ∉ s.resolved := fun hmem => by
    obtain ⟨op', r', hdone⟩ := ht.done t hmem
    obtain ⟨-, rfl⟩ := Fut.mk.inj (Option.some.inj (hf.symm.trans hdone))
    exact absurd hl (by simp [Status.live])
  have hitem : p.item op r = p.held ⟨op, st⟩ := by
    rcases hr with rfl | ⟨rfl, rfl⟩ | hx
    · rfl
    · exact p.disconnected op
    · rw [p.held_of_reply (.inr hx)]
      by_contra hne
      obtain ⟨b, hb⟩ := Option.ne_none_iff_exists'.mp hne
      simp [(p.own op r b hb).1] at hx
  rw [p.returns_concat hfuts hresolved hnew, returned, hitem]
  cases hheld : p.held ⟨op, st⟩ with
  | none =>
    have hsame : p.heldBy s' = p.heldBy s := by
      unfold heldBy
      rw [hfuts]
      exact bind_update (by simp [hf, hheld]) rfl
    rw [p.slots_congr hsame hs.base.callers hs'.base.callers, Option.toList_none, List.append_nil]
  | some b =>
    -- the slot of this call is the only one that holds anything
    obtain ⟨r', hst, hb⟩ := p.held_eq_some hheld
    obtain ⟨hx, h, hc⟩ := p.own op r' b hb
    have hbefore : p.slots s = [b] := by
      rw [p.slots_eq hs hf hl hx hc, heldBy, hf]
      simp [hheld]
    have hafter : p.slots s' = [] := by
      refine gather_eq_nil fun u => ?_
      by_contra hne
      obtain ⟨b', hb'⟩ := Option.ne_none_iff_exists'.mp hne
      obtain ⟨⟨op', st'⟩, hu, hheld'⟩ := Option.bind_eq_some_iff.mp hb'
      obtain ⟨r'', hst', hitem'⟩ := p.held_eq_some hheld'
      obtain rfl : st' = .replied r'' := hst'
      by_cases hut : u = t
      · rw [hut, hfuts, Function.update_self] at hu
        simp at hu
      · rw [hfuts, Function.update_of_ne hut] at hu
        obtain ⟨hx', h', hc'⟩ := p.own op' r'' b' hitem'
        exact hut (hs.call_unique hu hf rfl hl hx' hx hc' hc)
    rw [hafter, hbefore]
    simp

/-- **The callers lose nothing of what their reply slots hold** in a step that does not drop such
a call: what they returned and what they hold stays the same, in this order. -/
theorem caller {a : Action} (hs : Sound s) (hs' : Sound s') (ht : Tickets s)
    (hstep : s.CallStep s' a) (hkept : ∀ t, a = .dropFut t → p.heldBy s t = none) :
    p.returns s' ++ p.slots s' = p.returns s ++ p.slots s := by
  cases hstep with
  | kept hfuts hresolved =>
    exact p.caller_quiet hs hs' (by unfold heldBy; rw [hfuts]) (by unfold returnedBy; rw [hfuts])
      hresolved
  | @moved _ t f hold hnew hlive hfuts hresolved =>
    have hnone : ∀ g : Fut → Option β, (∀ x, s.futs t = some x → g x = none) →
        (s.futs t).bind g = none := by
      intro g hg
      cases hx : s.futs t with
      | none => rfl
      | some x => exact hg x hx
    refine p.caller_quiet hs hs' ?_ ?_ hresolved
    · unfold heldBy
      rw [hfuts]
      exact bind_update (hnone _ fun x hx => p.held_of_reply (hold x hx)) (p.held_of_reply (.inl hnew))
    · unfold returnedBy
      rw [hfuts]
      exact bind_update (hnone _ fun x hx => p.returned_of_reply (hold x hx))
        (p.returned_of_reply (.inl hnew))
  | @dropped t op st hf hl hfuts hresolved =>
    refine p.caller_quiet hs hs' ?_ ?_ hresolved
    · unfold heldBy
      rw [hfuts]
      exact bind_update (hkept t rfl) rfl
    · have hret : p.returned ⟨op, st⟩ = none := by
        cases st <;> first | rfl | exact absurd hl (by simp [Status.live])
      unfold returnedBy
      rw [hfuts]
      exact bind_update (by simp [hf, hret]) rfl
  | resolved hf hl hr hfuts hresolved => exact p.caller_resolved hs hs' ht hf hl hr hfuts hresolved
  | @rejected _ h i msg e hid hfuts hresolved =>
    have hfree : s.futs s.fresh = none := hs.base.callers.futs_fresh le_rfl
    have hnew : s.fresh ∉ s.resolved := fun hmem => by
      obtain ⟨op, r, hr⟩ := ht.done _ hmem
      simp [hfree] at hr
    have hheld : p.heldBy s' = p.heldBy s := by
      unfold heldBy
      rw [hfuts]
      exact bind_update (by simp [hfree]) rfl
    rw [p.returns_concat hfuts hresolved hnew, returned, p.rejected,
      p.slots_congr hheld hs.base.callers hs'.base.callers, Option.toList_none, List.append_nil]

end Parcel

end Sys

end FungiTransport
