import FungiTransport.Addr
import FungiTransport.Capnp.Origin
import FungiTransport.Capnp.Parcels

/-!
# Listen parameters and addresses across the connection

The parameters of a `listen` travel from the future through its command, its task and a capnp
call to the backend, with an absent nickname sent as the empty text; the address of a `connect`
travels the same way, and the published address of a listener travels back.  Along the whole way
they stay what the caller, or the backend, said (`Sys.Traced`), in every run and without any
assumption on ids.  An empty nickname is the one value that arrives as another one
(`ListenParams.received`).
-/

namespace FungiTransport

open Lib

/-! ## Parameters and addresses -/

/-- The parameters as the backend gets them: the empty text stands for no nickname. -/
def ListenParams.received (p : ListenParams) : ListenParams :=
  ⟨p.virtPort, p.nickname.filter fun n => n ≠ ""⟩

namespace ListenParams

/-- What the server makes of the text that the client has sent. -/
lemma received_mk (v : UInt16) (n : Option String) :
    (⟨v, if n.getD "" = "" then none else some (n.getD "")⟩ : ListenParams) =
      (⟨v, n⟩ : ListenParams).received := by
  cases n with
  | none => rfl
  | some n => by_cases hn : n = "" <;> simp [received, hn, Option.filter]

lemma received_of_ne {p : ListenParams} (hp : p.nickname ≠ some "") : p.received = p := by
  obtain ⟨v, n⟩ := p
  cases n with
  | none => rfl
  | some n =>
    have hn : n ≠ "" := fun h => hp (h ▸ rfl)
    simp [received, hn, Option.filter]

lemma received_of_eq {p : ListenParams} (hp : p.nickname = some "") :
    p.received = ⟨p.virtPort, none⟩ := by
  simp [received, hp, Option.filter]

/-- Two parameters look the same to the backend only if one of them is absent and the other one
empty. -/
lemma received_eq_iff {p q : ListenParams} : p.received = q.received ↔
    p = q ∨ p.virtPort = q.virtPort ∧
      (p.nickname = none ∧ q.nickname = some "" ∨ p.nickname = some "" ∧ q.nickname = none) := by
  by_cases hp : p.nickname = some "" <;> by_cases hq : q.nickname = some ""
  · rw [received_of_eq hp, received_of_eq hq]
    obtain ⟨v, n⟩ := p
    obtain ⟨w, m⟩ := q
    simp_all
  · rw [received_of_eq hp, received_of_ne hq]
    obtain ⟨v, n⟩ := p
    obtain ⟨w, m⟩ := q
    simp_all [eq_comm]
  · rw [received_of_ne hp, received_of_eq hq]
    obtain ⟨v, n⟩ := p
    obtain ⟨w, m⟩ := q
    simp_all
  · rw [received_of_ne hp, received_of_ne hq]
    simp [hp, hq]

end ListenParams

/-- An address type: its `Display` and its `FromStr`. -/
structure AddrFormat (α : Type) where
  display : α → String
  fromStr : String → Option α

/-- A plugin connection whose client and backend have the address type `α`. -/
def AddrFormat.config {α : Type} (F : AddrFormat α) (maxMsgLen : ℕ) (remoteText : String → String) :
    Config where
  boot := .plugin
  maxMsgLen := maxMsgLen
  parses := fun text => (F.fromStr text).isSome
  backendParses := fun text => (F.fromStr text).isSome
  remoteText := remoteText

/-- What was parsed from the text of an address is that address. -/
lemma AddrFormat.parsed_eq {α : Type} {F : AddrFormat α} {text : String} {a b : α}
    (ha : F.fromStr text = some a) (hb : text = F.display b)
    (hinv : F.fromStr (F.display b) = some b) : a = b := by
  subst hb
  exact Option.some.inj (ha.symm.trans hinv)

/-- The future is to create the connector of a `connect`. -/
def Op.isEnsure : Op → Bool
  | .ensure _ _ => true
  | .listen _ | .configure _ | .connect _ _ _ | .accept _ _ | .send _ _ _ | .recv _ _ => false

/-- The future may go on with another command: it waits for its connector, or has its reply. -/
def Status.turns : Status → Bool
  | .parked | .replied _ => true
  | .sending | .waiting | .closed | .done _ | .dropped => false

/-- The call asks for no listener and no connection. -/
def Call.isOther : Call → Bool
  | .accept _ _ | .send _ _ _ | .recv _ _ | .configure _ _ _ => true
  | .listen _ _ _ _ | .onionAddr _ _ | .connect _ _ _ => false

/-- The reply brings nothing that the backend made for a `listen` or a `connect`. -/
def Reply.plain : Reply → Bool
  | .listen (.ok _) | .connect (.ok _) => false
  | .connector _ | .listen (.error _) | .connect (.error _) | .accept _ | .send _ | .recv _
  | .configure _ => true

lemma plain_of_id? {r : Reply} (h : r.id? = none) : r.plain := by
  unfold Reply.id? at h
  split at h <;> simp_all [Reply.plain]

lemma plain_disconnected (op : Op) : op.disconnected.plain := by
  cases op <;> rfl

namespace Sys

/-! ## What a step does to a future -/

/-- The call of the ticket is `op`. -/
def Calls (s : Sys) (t : ℕ) (op : Op) : Prop := ∃ st, s.futs t = some ⟨op, st⟩

/-- The future behind a ticket stays, is new, or moves on: the creation of a connector may become
its `connect`, and a reply that is there was there before or is plain. -/
inductive FutStep (s s' : Sys) (t : ℕ) : Prop where
  | kept (hf : s'.futs t = s.futs t)
  | started {f : Fut} (hold : s.futs t = none) (hlt : t < s'.fresh) (hf : s'.futs t = some f)
      (hr : ∀ r, f.status.reply = some r → r.plain)
  | moved {op op' : Op} {st st' : Status} (hold : s.futs t = some ⟨op, st⟩)
      (hf : s'.futs t = some ⟨op', st'⟩) (hop : op' = op ∨ op.isEnsure ∧ st.turns)
      (hr : ∀ r, st'.reply = some r → st.reply = some r ∨ r.plain)

lemma FutStep.calls {s s' : Sys} {t : ℕ} (h : s.FutStep s' t) {op : Op} (hop : op.isEnsure = false)
    (ht : s.Calls t op) : s'.Calls t op := by
  obtain ⟨st, ht⟩ := ht
  cases h with
  | kept hf => exact ⟨st, hf.trans ht⟩
  | started hold hlt hf hr => simp [hold] at ht
  | moved hold hf hop' hr =>
    obtain ⟨rfl, -⟩ := Fut.mk.inj (Option.some.inj (hold.symm.trans ht))
    rcases hop' with rfl | ⟨hop', -⟩
    · exact ⟨_, hf⟩
    · simp [hop] at hop'

/-- A future that is not about to go on with another command stays the same call. -/
lemma FutStep.stays {s s' : Sys} {t : ℕ} (h : s.FutStep s' t) {op : Op} {st : Status}
    (ht : s.futs t = some ⟨op, st⟩) (hst : st.turns = false) : s'.Calls t op := by
  cases h with
  | kept hf => exact ⟨st, hf.trans ht⟩
  | started hold hlt hf hr => simp [hold] at ht
  | moved hold hf hop' hr =>
    obtain ⟨rfl, rfl⟩ := Fut.mk.inj (Option.some.inj (hold.symm.trans ht))
    rcases hop' with rfl | ⟨-, hturns⟩
    · exact ⟨_, hf⟩
    · simp [hst] at hturns

lemma futStep_update {s s' : Sys} {t : ℕ} {f : Fut} (hfuts : s'.futs = Function.update s.futs t (some f))
    (ht : s.FutStep s' t) (u : ℕ) : s.FutStep s' u := by
  by_cases hut : u = t
  · exact hut ▸ ht
  · exact .kept (by rw [hfuts, Function.update_of_ne hut])

lemma futStep_start {s s' : Sys} (hfree : s.futs s.fresh = none) {op : Op} {st : Status}
    (hst : ∀ r, st.reply = some r → r.plain) (hfresh : s'.fresh = s.fresh + 1)
    (hfuts : s'.futs = Function.update s.futs s.fresh (some ⟨op, st⟩)) (t : ℕ) :
    s.FutStep s' t :=
  futStep_update hfuts (.started hfree (by omega) (by rw [hfuts, Function.update_self]) hst) t

lemma futStep_move {s s' : Sys} {t : ℕ} {op op' : Op} {st st' : Status}
    (hf : s.futs t = some ⟨op, st⟩)
    (hfuts : s'.futs = Function.update s.futs t (some ⟨op', st'⟩))
    (hop : op' = op ∨ op.isEnsure ∧ st.turns)
    (hr : ∀ r, st'.reply = some r → st.reply = some r ∨ r.plain) (u : ℕ) : s.FutStep s' u :=
  futStep_update hfuts (.moved hf (by rw [hfuts, Function.update_self]) hop hr) u

lemma futStep_done {s s' : Sys} {t : ℕ} {op : Op} {st : Status} {r : Reply}
    (hf : s.futs t = some ⟨op, st⟩)
    (hfuts : s'.futs = Function.update s.futs t (some ⟨op, .done r⟩))
    (hr : st = .replied r ∨ r.plain) (u : ℕ) : s.FutStep s' u := by
  refine futStep_move hf hfuts (.inl rfl) (fun r' hr' => ?_) u
  obtain rfl : r = r' := Option.some.inj hr'
  rcases hr with rfl | hr
  · exact .inl rfl
  · exact .inr hr

lemma futStep_resolve {s s' : Sys} {t : ℕ} (hstep : s.resolve t = some s') (u : ℕ) :
    s.FutStep s' u := by
  cases resolving_of_resolve hstep with
  | named hf hid hk => exact futStep_done hf rfl (.inl rfl) u
  | unparsed hf hparses => exact futStep_done hf rfl (.inr rfl) u
  | filled hf hx =>
    exact futStep_move hf rfl (.inr ⟨rfl, rfl⟩) (fun _ hr => absurd hr (by simp [Status.reply])) u
  | returned hf hid => exact futStep_done hf rfl (.inl rfl) u
  | disconnected hf => exact futStep_done hf rfl (.inr (plain_disconnected _)) u

/-- A step of the callers moves futures on, and queues the commands of calls and `Release`s. -/
lemma step_caller_futs {s s' : Sys} {a : Action} (hfree : s.futs s.fresh = none)
    (ha : isRemote a = false) (hstep : s.step a = some s') : (∀ t, s.FutStep s' t) ∧
      ∀ c ∈ s'.queue, c ∈ s.queue ∨ (∃ i, c = .release i) ∨
        ∃ t op, c = op.command t ∧ s.Calls t op := by
  have hold : ∀ {u : Sys}, (∀ t, s.FutStep u t) → u.queue = s.queue → (∀ t, s.FutStep u t) ∧
      ∀ c ∈ u.queue, c ∈ s.queue ∨ (∃ i, c = .release i) ∨
        ∃ t op, c = op.command t ∧ s.Calls t op :=
    fun hu hq => ⟨hu, fun c hc => .inl (hq ▸ hc)⟩
  have hsend : ∀ st : Status, st = .sending ∨ st = .parked → ∀ r, st.reply = some r → r.plain := by
    rintro st (rfl | rfl) r hr <;> exact absurd hr (by simp [Status.reply])
  cases a with
  | dequeue | poll k | answer k o | resume k | arriveMsg c m | arriveConn c n =>
    exact absurd ha (by simp [isRemote])
  | newConnector =>
    obtain ⟨x, -, rfl⟩ := Option.map_eq_some_iff.mp hstep
    exact hold (fun t => .kept rfl) rfl
  | listen p | configure nf =>
    obtain ⟨x, -, rfl⟩ := Option.map_eq_some_iff.mp hstep
    exact hold (futStep_start hfree (hsend .sending (.inl rfl)) rfl rfl) rfl
  | connect h addr =>
    obtain ⟨x, -, rfl⟩ := Option.map_eq_some_iff.mp hstep
    split
    · exact hold (futStep_start hfree (hsend .sending (.inl rfl)) rfl rfl) rfl
    · refine hold (futStep_start hfree (hsend _ ?_) rfl rfl) rfl
      split <;> simp
  | accept h =>
    obtain ⟨id, -, -, rfl⟩ := startAccept_cases hstep
    exact hold (futStep_start hfree (hsend .sending (.inl rfl)) rfl rfl) rfl
  | recv h =>
    obtain ⟨id, -, -, rfl⟩ := startRecv_cases hstep
    exact hold (futStep_start hfree (hsend .sending (.inl rfl)) rfl rfl) rfl
  | send h m =>
    obtain ⟨id, -, -, ⟨-, rfl⟩ | ⟨-, rfl⟩⟩ := startSend_cases hstep
    · refine hold (futStep_start hfree (fun r hr => ?_) rfl rfl) rfl
      obtain rfl := Option.some.inj hr
      rfl
    · exact hold (futStep_start hfree (hsend .sending (.inl rfl)) rfl rfl) rfl
  | wake t =>
    obtain ⟨j, addr, hf, ⟨id, -, rfl⟩ | ⟨-, -, rfl⟩⟩ := wake_cases hstep
    · exact hold (futStep_move hf rfl (.inr ⟨rfl, rfl⟩)
        fun r hr => absurd hr (by simp [Status.reply])) rfl
    · exact hold (futStep_move hf rfl (.inr ⟨rfl, rfl⟩)
        fun r hr => absurd hr (by simp [Status.reply])) rfl
  | enqueue t =>
    obtain ⟨op, hf, rfl⟩ := enqueue_cases hstep
    refine ⟨futStep_move hf rfl (.inl rfl) fun r hr => absurd hr (by simp [Status.reply]),
      fun c hc => ?_⟩
    rcases List.mem_append.mp hc with hc | hc
    · exact .inl hc
    · exact .inr (.inr ⟨t, op, List.mem_singleton.mp hc, _, hf⟩)
  | dropFut t =>
    obtain ⟨op, st, hf, -, rfl⟩ := dropFut_cases hstep
    exact hold (futStep_move hf rfl (.inl rfl) fun r hr => absurd hr (by simp [Status.reply])) rfl
  | dropHandle h d =>
    obtain ⟨k, id, -, -, -, ⟨-, rfl⟩ | ⟨i, -, rfl⟩⟩ := dropHandle_cases hstep
    · exact hold (fun t => .kept rfl) rfl
    · refine ⟨fun t => .kept rfl, fun c hc => ?_⟩
      rcases List.mem_append.mp hc with hc | hc
      · exact .inl hc
      · exact .inr (.inl ⟨i, List.mem_singleton.mp hc⟩)
  | resolve t =>
    refine hold (futStep_resolve hstep) ?_
    cases resolving_of_resolve hstep <;> rfl

/-! ## Replies -/

lemma futStep_reply {s u : Sys} (hu : u.futs = s.futs) (t : ℕ) {r : Reply} (hr : r.plain) (v : ℕ) :
    s.FutStep (u.reply t r) v := by
  rcases reply_cases u t r with ⟨op, hf, heq⟩ | ⟨-, heq⟩ <;> rw [heq]
  · refine futStep_move (hu ▸ hf) (by rw [← hu]; rfl) (.inl rfl) (fun r' hr' => .inr ?_) v
    obtain rfl := Option.some.inj hr'
    exact hr
  · exact .kept (congrFun hu v)

lemma futStep_closeReply {s u : Sys} (hu : u.futs = s.futs) (t v : ℕ) :
    s.FutStep (u.closeReply t) v := by
  rcases closeReply_cases u t with ⟨op, hf, heq⟩ | heq <;> rw [heq]
  · exact futStep_move (hu ▸ hf) (by rw [← hu]; rfl) (.inl rfl)
      (fun r hr => absurd hr (by simp [Status.reply])) v
  · exact .kept (congrFun hu v)

lemma futStep_closeWaiter {s u : Sys} (hu : u.futs = s.futs) (o : Option ℕ) (v : ℕ) :
    s.FutStep (u.closeWaiter o) v := by
  cases o with
  | none => exact .kept (congrFun hu v)
  | some w => exact futStep_closeReply hu w v

lemma futStep_completeRecv {s u : Sys} (hu : u.futs = s.futs) (i : ℕ)
    (result : Except RecvError Bytes) (v : ℕ) : s.FutStep (u.completeRecv i result) v := by
  generalize hs' : u.completeRecv i result = s'
  cases completed_of_completeRecv hs' with
  | gone hst => exact .kept (congrFun hu v)
  | kept hst => exact .kept (congrFun hu v)
  | replied hst hw hacc => exact futStep_reply (by exact hu) _ (by rfl) v

lemma FutStep.congr {s u v : Sys} {t : ℕ} (h : s.FutStep u t) (hfuts : v.futs = u.futs)
    (hfresh : u.fresh ≤ v.fresh) : s.FutStep v t := by
  cases h with
  | kept hf => exact .kept (by rw [hfuts, hf])
  | started hold hlt hf hr => exact .started hold (hlt.trans_le hfresh) (by rw [hfuts, hf]) hr
  | moved hold hf hop hr => exact .moved hold (by rw [hfuts, hf]) hop hr

lemma futStep_dequeue {s s' : Sys} (hstep : s.dequeue = some s') (t : ℕ) : s.FutStep s' t := by
  obtain ⟨c, rest, hq, hdeq⟩ := dequeued_of_dequeue hstep
  cases hdeq with
  | created ho => exact futStep_reply (by rfl) _ (by rfl) t
  | closed => exact futStep_closeReply (by rfl) _ t
  | spawned hne hcall => exact .kept rfl
  | @received i u =>
    generalize hs' : ({ s with queue := rest } : Sys).onRecv i u = s'
    cases received_of_onRecv hs' with
    | replied hbuf hacc => exact futStep_reply (by rfl) u (by rfl) t
    | kept hbuf hacc => exact .kept rfl
    | joined hbuf hin => exact futStep_closeWaiter (by rfl) _ t
    | spawned hbuf hin => exact (futStep_closeWaiter (by rfl) _ t).congr rfl (Nat.le_succ _)
  | @released i =>
    have hclose := futStep_closeWaiter (s := s) (u := { s with queue := rest }) rfl
      ((s.reg.recvStates i).bind (·.waiter)) t
    exact hclose.congr rfl le_rfl
  | refused => exact futStep_reply (by rfl) _ (by rfl) t

/-! ## Ids -/

/-- The next id is the number of ids allocated so far, as a `u64`. -/
def Numbered (s : Sys) : Prop := s.reg.nextId = s.created.length % 2 ^ 64

lemma Numbered.install {s : Sys} (h : Numbered s) (k : Kind) (c : Cap) :
    Numbered (s.install k c) := by
  simp only [Numbered, Sys.install, Registry.nextId_insert, Registry.allocId, List.length_append,
    List.length_singleton]
  rw [h, Nat.mod_add_mod]

lemma Numbered.congr {s s' : Sys} (h : Numbered s) (hnext : s'.reg.nextId = s.reg.nextId)
    (hcreated : s'.created = s.created) : Numbered s' := by
  rw [Numbered, hnext, hcreated]
  exact h

lemma Numbered.setTask {s : Sys} (h : Numbered s) (k : ℕ) (x : Option Task) :
    Numbered (s.setTask k x) := h

lemma Numbered.reply {s : Sys} (h : Numbered s) (t : ℕ) (r : Reply) : Numbered (s.reply t r) := by
  obtain ⟨hreg, hcreated, -⟩ := reply_rest s t r
  exact h.congr (by rw [hreg]) hcreated

lemma Numbered.closeReply {s : Sys} (h : Numbered s) (t : ℕ) : Numbered (s.closeReply t) := by
  obtain ⟨hreg, hcreated, -⟩ := closeReply_rest s t
  exact h.congr (by rw [hreg]) hcreated

lemma Numbered.closeWaiter {s : Sys} (h : Numbered s) (o : Option ℕ) :
    Numbered (s.closeWaiter o) := by
  cases o with
  | none => exact h
  | some w => exact h.closeReply w

lemma Numbered.completeRecv {s : Sys} (h : Numbered s) (i : ℕ) (result : Except RecvError Bytes) :
    Numbered (s.completeRecv i result) := by
  have hset : ∀ st, Numbered { s with reg := s.reg.setRecvState i st } := fun st =>
    h.congr rfl rfl
  generalize hs' : s.completeRecv i result = s'
  cases completed_of_completeRecv hs' with
  | gone hst => exact h
  | kept hst => exact hset _
  | replied hst hw hacc => exact (hset _).reply _ _

lemma Numbered.onRecv {s : Sys} (h : Numbered s) (i t : ℕ) : Numbered (s.onRecv i t) := by
  have hset : ∀ st, Numbered { s with reg := s.reg.setRecvState i st } := fun st =>
    h.congr rfl rfl
  generalize hs' : s.onRecv i t = s'
  cases received_of_onRecv hs' with
  | replied hbuf hacc => exact (hset _).reply _ _
  | kept hbuf hacc => exact hset _
  | joined hbuf hin => exact (hset _).closeWaiter _
  | spawned hbuf hin => exact (hset _).closeWaiter _

lemma numbered_dequeue {s s' : Sys} (h : Numbered s) (hstep : s.dequeue = some s') :
    Numbered s' := by
  obtain ⟨c, rest, hq, hdeq⟩ := dequeued_of_dequeue hstep
  have hpop : Numbered { s with queue := rest } := h
  cases hdeq with
  | created ho =>
    have hnext : Numbered { s with queue := rest, fresh := s.fresh + 1 } := h
    exact (hnext.install _ _).reply _ _
  | closed => exact hpop.closeReply _
  | spawned hne hcall => exact hpop.congr rfl rfl
  | received => exact hpop.onRecv _ _
  | @released i =>
    obtain ⟨f, hf⟩ := onRelease_eq { s with queue := rest } i
    rw [hf]
    exact hpop.congr rfl rfl
  | refused => exact hpop.reply _ _

lemma step_numbered {s s' : Sys} {a : Action} (h : Numbered s) (hstep : s.step a = some s') :
    Numbered s' := by
  cases ha : isRemote a with
  | false =>
    have hrest := (step_caller_rest ha hstep).1
    exact h.congr (by rw [hrest]) (by rw [hrest])
  | true =>
    cases a with
    | dequeue => exact numbered_dequeue h hstep
    | poll k =>
      cases polled_of_poll hstep with
      | issued hk => exact h.congr (by rw [issue_eq]) (by rw [issue_eq])
      | replied hk ht hid hr => exact (h.setTask k none).reply _ _
      | received hk => exact (h.setTask k none).completeRecv _ _
    | answer k o =>
      obtain ⟨call, r, u, -, -, -, rfl⟩ := answer_cases hstep
      exact h.congr rfl rfl
    | resume k =>
      cases resumed_of_resume hstep with
      | listened hk => exact h.congr rfl rfl
      | created hk hnew => exact ((h.setTask k none).install _ _).reply _ _
      | replied hk ht hid hr => exact (h.setTask k none).reply _ _
      | received hk hx => exact (h.setTask k none).completeRecv _ _
    | arriveMsg c m | arriveConn c n =>
      obtain rfl := Option.some.inj hstep
      exact h.congr rfl rfl
    | _ => exact absurd ha (by simp [isRemote])

/-! ## What was said stays said -/

/-- A command carries what the caller gave to its call. -/
def CommandSays (s : Sys) : Command → Prop
  | .listen _ virtPort nickname t => s.Calls t (.listen ⟨virtPort, nickname⟩)
  | .connect _ addr t => ∃ h id, s.Calls t (.connect h id addr)
  | _ => True

/-- A task carries what the caller gave to its call, and its answer is what the backend made and
published for that. -/
def TaskSays (s : Sys) (k : ℕ) : Task → Prop
  | ⟨.listen _ virtPort nickname t, st⟩ => s.Calls t (.listen ⟨virtPort, nickname⟩) ∧
      ∀ c, st = .answered (.ok (.cap c)) → c = k ∧
        .listen (ListenParams.received ⟨virtPort, nickname⟩) (.ok (c, s.addr c)) ∈ s.backend
  | ⟨.onionAddr c t, st⟩ => c = k ∧
      (∃ p, s.Calls t (.listen p) ∧ .listen p.received (.ok (c, s.addr c)) ∈ s.backend) ∧
      ∀ text, st = .answered (.ok (.addr text)) → text = s.addr c
  | ⟨.connect _ addr t, st⟩ => (∃ h id, s.Calls t (.connect h id addr)) ∧
      ∀ c, st = .answered (.ok (.cap c)) → ∃ o, .connect o addr (.ok c) ∈ s.backend
  | _ => True

/-- The id in a reply was allocated for what the backend made for the call, and the address is the
one that it published. -/
def ReplySays (s : Sys) (op : Op) : Reply → Prop
  | .listen (.ok (id, text)) => ∃ p c n, op = .listen p ∧ id = n % 2 ^ 64 ∧
      s.created[n]? = some (.listener, c) ∧ .listen p.received (.ok (c, text)) ∈ s.backend
  | .connect (.ok id) => ∃ h i addr o c n, op = .connect h i addr ∧ id = n % 2 ^ 64 ∧
      s.created[n]? = some (.channel, c) ∧ .connect o addr (.ok c) ∈ s.backend
  | _ => True

/-- A backend is only asked for what a caller has asked for. -/
def Asked (s : Sys) : BackendCall → Prop
  | .listen params _ => ∃ t p, s.Calls t (.listen p) ∧ params = p.received
  | .connect _ addr _ => ∃ t h id, s.Calls t (.connect h id addr)
  | _ => True

/-- Nothing is altered on its way between the callers and the backend. -/
structure Traced (s : Sys) : Prop where
  lt : ∀ t f, s.futs t = some f → t < s.fresh
  numbered : Numbered s
  queue : ∀ c ∈ s.queue, s.CommandSays c
  task : ∀ k x, s.tasks k = some x → s.TaskSays k x
  slot : ∀ t op st r, s.futs t = some ⟨op, st⟩ → st.reply = some r → s.ReplySays op r
  backend : ∀ b ∈ s.backend, s.Asked b

/-- The new state knows all calls, all ids and all that the backend did. -/
structure Grows (s s' : Sys) : Prop where
  calls : ∀ t op, op.isEnsure = false → s.Calls t op → s'.Calls t op
  created : s.created <+: s'.created
  backend : s.backend <+: s'.backend

lemma CommandSays.mono {s s' : Sys} (hs : Grows s s') {c : Command} (h : s.CommandSays c) :
    s'.CommandSays c := by
  cases c with
  | listen i v n t => exact hs.calls t _ rfl h
  | connect i addr t =>
    obtain ⟨j, id, hc⟩ := h
    exact ⟨j, id, hs.calls t _ rfl hc⟩
  | _ => trivial

lemma TaskSays.mono {s s' : Sys} (hs : Grows s s') {k : ℕ} {x : Task} (h : s.TaskSays k x)
    (haddr : s'.addr k = s.addr k) : s'.TaskSays k x := by
  obtain ⟨call, st⟩ := x
  cases call with
  | listen o v n t =>
    refine ⟨hs.calls t _ rfl h.1, fun c hc => ?_⟩
    obtain ⟨rfl, hmem⟩ := h.2 c hc
    exact ⟨rfl, haddr ▸ hs.backend.subset hmem⟩
  | onionAddr c t =>
    obtain ⟨rfl, ⟨p, hp, hmem⟩, htext⟩ := h
    exact ⟨rfl, ⟨p, hs.calls t _ rfl hp, haddr ▸ hs.backend.subset hmem⟩, haddr ▸ htext⟩
  | connect o addr t =>
    obtain ⟨⟨j, id, hj⟩, hc⟩ := h
    refine ⟨⟨j, id, hs.calls t _ rfl hj⟩, fun c hcap => ?_⟩
    obtain ⟨d, hmem⟩ := hc c hcap
    exact ⟨d, hs.backend.subset hmem⟩
  | _ => trivial

lemma ReplySays.of_plain {s : Sys} {op : Op} {r : Reply} (hr : r.plain) : s.ReplySays op r := by
  unfold Reply.plain at hr
  split at hr <;> trivial

lemma ReplySays.mono {s s' : Sys} (hs : Grows s s') {op : Op} {r : Reply} (h : s.ReplySays op r) :
    s'.ReplySays op r := by
  unfold ReplySays at h ⊢
  split
  · obtain ⟨p, c, n, hop, hid, hc, hmem⟩ := h
    exact ⟨p, c, n, hop, hid, getElem?_of_isPrefix hs.created hc, hs.backend.subset hmem⟩
  · obtain ⟨j, i, addr, o, c, n, hop, hid, hc, hmem⟩ := h
    exact ⟨j, i, addr, o, c, n, hop, hid, getElem?_of_isPrefix hs.created hc,
      hs.backend.subset hmem⟩
  · trivial

lemma Asked.mono {s s' : Sys} (hs : Grows s s') {b : BackendCall} (h : s.Asked b) : s'.Asked b := by
  cases b with
  | listen params r =>
    obtain ⟨t, p, hp, heq⟩ := h
    exact ⟨t, p, hs.calls t _ rfl hp, heq⟩
  | connect c addr r =>
    obtain ⟨t, j, id, hj⟩ := h
    exact ⟨t, j, id, hs.calls t _ rfl hj⟩
  | _ => trivial

/-- The creation of a connector has only plain replies, so it may become its `connect`. -/
lemma ReplySays.op {s : Sys} {op op' : Op} {r : Reply} (h : s.ReplySays op r)
    (hop : op' = op ∨ op.isEnsure) : s.ReplySays op' r := by
  rcases hop with rfl | hop
  · exact h
  · unfold ReplySays at h ⊢
    split
    · obtain ⟨p, c, n, rfl, -⟩ := h
      simp [Op.isEnsure] at hop
    · obtain ⟨j, i, addr, o, c, n, rfl, -⟩ := h
      simp [Op.isEnsure] at hop
    · trivial

/-! ## Steps -/

lemma Grows.of_futs {s s' : Sys} (hfuts : ∀ t, s.FutStep s' t) (hcreated : s.created <+: s'.created)
    (hbackend : s.backend <+: s'.backend) : Grows s s' :=
  ⟨fun t _ hop hc => (hfuts t).calls hop hc, hcreated, hbackend⟩

/-- Replies that bring nothing, commands and tasks that are as they were or say the truth, and
calls of the backend that were asked for. -/
lemma Traced.advance {s s' : Sys} (h : Traced s) (hfuts : ∀ t, s.FutStep s' t) (hs : Grows s s')
    (hfresh : s.fresh ≤ s'.fresh) (hnumbered : Numbered s')
    (hqueue : ∀ c ∈ s'.queue, c ∈ s.queue ∨ s'.CommandSays c)
    (htask : ∀ k x, s'.tasks k = some x →
      s.tasks k = some x ∧ s'.addr k = s.addr k ∨ s'.TaskSays k x)
    (hbackend : ∀ b ∈ s'.backend, b ∈ s.backend ∨ s'.Asked b) : Traced s' where
  lt := fun t f hf => by
    cases hfuts t with
    | kept hkept => exact (h.lt t f (hkept ▸ hf)).trans_le hfresh
    | started hold hlt hnew hr => exact hlt
    | moved hold hnew hop hr => exact (h.lt t _ hold).trans_le hfresh
  numbered := hnumbered
  queue := fun c hc => by
    rcases hqueue c hc with hc | hc
    · exact (h.queue c hc).mono hs
    · exact hc
  task := fun k x hk => by
    rcases htask k x hk with ⟨hk, haddr⟩ | hx
    · exact (h.task k x hk).mono hs haddr
    · exact hx
  slot := fun t op st r hf hr => by
    cases hfuts t with
    | kept hkept => exact (h.slot t op st r (hkept ▸ hf) hr).mono hs
    | started hold hlt hnew hplain =>
      obtain rfl := Option.some.inj (hnew.symm.trans hf)
      exact .of_plain (hplain r hr)
    | moved hold hnew hop hplain =>
      obtain ⟨rfl, rfl⟩ := Fut.mk.inj (Option.some.inj (hnew.symm.trans hf))
      rcases hplain r hr with hr | hr
      · exact ((h.slot t _ _ r hold hr).op (hop.imp_right And.left)).mono hs
      · exact .of_plain hr
  backend := fun b hb => by
    rcases hbackend b hb with hb | hb
    · exact (h.backend b hb).mono hs
    · exact hb

lemma Traced.futs_fresh {s : Sys} (h : Traced s) : s.futs s.fresh = none := by
  by_contra hne
  obtain ⟨f, hf⟩ := Option.ne_none_iff_exists'.mp hne
  exact absurd (h.lt _ f hf) (lt_irrefl _)

/-- The command of a call carries what the caller gave. -/
lemma Calls.command {s : Sys} {t : ℕ} {op : Op} (h : s.Calls t op) :
    s.CommandSays (op.command t) := by
  cases op with
  | listen p => exact h
  | connect j id addr => exact ⟨j, id, h⟩
  | _ => trivial

lemma Grows.command {s s' : Sys} (hs : Grows s s') {t : ℕ} {op : Op} (h : s.Calls t op) :
    s'.CommandSays (op.command t) :=
  CommandSays.mono hs h.command

lemma traced_caller {s s' : Sys} {a : Action} (h : Traced s) (ha : isRemote a = false)
    (hstep : s.step a = some s') : Traced s' := by
  obtain ⟨hrest, hfresh⟩ := step_caller_rest ha hstep
  obtain ⟨hfuts, hqueue⟩ := step_caller_futs h.futs_fresh ha hstep
  have hbackend : s'.backend = s.backend := by rw [hrest]
  have hs : Grows s s' := .of_futs hfuts (step_created hstep) (hbackend ▸ List.prefix_rfl)
  refine h.advance hfuts hs hfresh (step_numbered h.numbered hstep) (fun c hc => ?_)
    (fun k x hk => .inl ⟨by rw [hrest] at hk; exact hk, by rw [hrest]⟩)
    (fun b hb => .inl (hbackend ▸ hb))
  rcases hqueue c hc with hc | ⟨i, rfl⟩ | ⟨t, op, rfl, hop⟩
  · exact .inl hc
  · exact .inr trivial
  · exact .inr (hs.command hop)

/-- The task of a command carries what the command carried. -/
lemma CommandSays.calls {s : Sys} {c : Command} (h : s.CommandSays c) {call : Call}
    (hcall : s.calls c = some call) {k : ℕ} : s.TaskSays k ⟨call, .spawned⟩ := by
  cases c with
  | listen i v n t =>
    obtain rfl := Option.some.inj hcall
    exact ⟨h, by simp⟩
  | connect i addr t =>
    obtain rfl := Option.some.inj hcall
    exact ⟨h, by simp⟩
  | accept i t | send i m t =>
    obtain rfl := Option.some.inj hcall
    trivial
  | recv i t =>
    obtain ⟨-, rfl⟩ : _ ∧ Call.recv i (s.reg.channels i) = call := by
      simpa only [Sys.calls, Option.ite_none_right_eq_some, Option.some.injEq] using hcall
    trivial
  | configurePrivateNet nf t =>
    obtain ⟨p, -, rfl⟩ := Option.map_eq_some_iff.mp hcall
    trivial
  | connector i t | release i => exact absurd hcall (by simp [Sys.calls])

lemma traced_dequeue {s s' : Sys} (h : Traced s) (hstep : s.dequeue = some s') : Traced s' := by
  have hrest := dequeue_rest hstep
  have hfuts := futStep_dequeue hstep
  have hbackend : s'.backend = s.backend := by rw [hrest]
  have hs : Grows s s' :=
    .of_futs hfuts (step_created (a := .dequeue) hstep) (hbackend ▸ List.prefix_rfl)
  have haddr : s'.addr = s.addr := by rw [hrest]
  have hqueue : s'.queue = s.queue.tail := by rw [hrest]
  refine h.advance hfuts hs (step_fresh (a := .dequeue) hstep) (numbered_dequeue h.numbered hstep)
    (fun d hd => .inl (List.mem_of_mem_tail (hqueue ▸ hd))) (fun k x hk => ?_)
    (fun b hb => .inl (hbackend ▸ hb))
  cases taskStep_dequeue hstep hk with
  | kept hold => exact .inl ⟨hold, congrFun haddr k⟩
  | @spawned d rest call hq hcall =>
    have hd : s.CommandSays d := h.queue d (hq ▸ List.mem_cons_self)
    exact .inr ((hd.calls hcall).mono hs (congrFun haddr _))

lemma traced_poll {s s' : Sys} {k : ℕ} (h : Traced s) (hstep : s.poll k = some s') : Traced s' := by
  have hrest := poll_rest hstep
  have haddr : s'.addr = s.addr := by rw [hrest]
  have hfuts : ∀ t, s.FutStep s' t := fun t => by
    cases polled_of_poll hstep with
    | issued hk => exact .kept (by rw [issue_eq])
    | replied hk ht hid hr => exact futStep_reply (by rfl) _ (plain_of_id? hid) t
    | received hk => exact futStep_completeRecv (by rfl) _ _ t
  have hbackend : s'.backend = s.backend := by rw [hrest]
  have hs : Grows s s' :=
    .of_futs hfuts (step_created (a := .poll k) hstep) (hbackend ▸ List.prefix_rfl)
  refine h.advance hfuts hs (by rw [hrest]) (step_numbered (a := .poll k) h.numbered hstep)
    (fun c hc => .inl (by rw [hrest] at hc; exact hc)) (fun j x hj => ?_)
    (fun b hb => .inl (hbackend ▸ hb))
  cases taskStep_poll hstep hj with
  | kept hold => exact .inl ⟨hold, congrFun haddr j⟩
  | @issued _ call hold =>
    refine .inr (TaskSays.mono hs ?_ (congrFun haddr _))
    have htask := h.task _ _ hold
    cases call with
    | listen o v n t => exact ⟨htask.1, by simp⟩
    | onionAddr c t => exact ⟨htask.1, htask.2.1, by simp⟩
    | connect o addr t => exact ⟨htask.1, by simp⟩
    | _ => trivial

/-- A task whose call fails says no more than its call. -/
lemma TaskSays.error {s u : Sys} {k : ℕ} {call : Call} {st : Stage} {e : CapnpError}
    (h : s.TaskSays k ⟨call, st⟩) (hfuts : u.futs = s.futs) (hbackend : s.backend <+: u.backend)
    (haddr : u.addr k = s.addr k) : u.TaskSays k ⟨call, .answered (.error e)⟩ := by
  have hcalls : ∀ {t op}, s.Calls t op → u.Calls t op := fun {t op} h => by
    obtain ⟨st, ht⟩ := h
    exact ⟨st, hfuts ▸ ht⟩
  cases call with
  | listen o v n t => exact ⟨hcalls h.1, by simp⟩
  | onionAddr c t =>
    obtain ⟨rfl, ⟨p, hp, hmem⟩, -⟩ := h
    exact ⟨rfl, ⟨p, hcalls hp, haddr ▸ hbackend.subset hmem⟩, by simp⟩
  | connect o addr t =>
    obtain ⟨j, id, hj⟩ := h.1
    exact ⟨⟨j, id, hcalls hj⟩, by simp⟩
  | _ => trivial

lemma asked_log {s : Sys} {b : BackendCall} (hb : s.Asked b) :
    ∀ d ∈ (s.log b).backend, d ∈ s.backend ∨ s.Asked d := fun d hd => by
  rcases List.mem_append.mp hd with hd | hd
  · exact .inl hd
  · exact .inr (List.mem_singleton.mp hd ▸ hb)

/-- What the server has done for the call of task `k`: the backend was asked for nothing else, and
the answer is what it made. -/
structure Served (s u : Sys) (k : ℕ) (call : Call) (r : Except CapnpError Answer) : Prop where
  backend : s.backend <+: u.backend
  asked : ∀ b ∈ u.backend, b ∈ s.backend ∨ s.Asked b
  addr : ∀ j, j ≠ k → u.addr j = s.addr j
  task : u.TaskSays k ⟨call, .answered r⟩

lemma Served.of_error {s u : Sys} {k : ℕ} {call : Call} {e : CapnpError} (bs : List BackendCall)
    (htask : s.TaskSays k ⟨call, .issued⟩) (hfuts : u.futs = s.futs) (haddr : u.addr = s.addr)
    (hbackend : u.backend = s.backend ++ bs) (hbs : ∀ b ∈ bs, s.Asked b) :
    Served s u k call (.error e) where
  backend := hbackend ▸ List.prefix_append _ _
  asked := fun b hb => (List.mem_append.mp (hbackend ▸ hb)).imp_right (hbs b)
  addr := fun j _ => congrFun haddr j
  task := htask.error hfuts (hbackend ▸ List.prefix_append _ _) (congrFun haddr k)

lemma Served.of_other {s u : Sys} {k : ℕ} {call : Call} {r : Except CapnpError Answer}
    (htask : ∀ (w : Sys) st, w.TaskSays k ⟨call, st⟩) (bs : List BackendCall)
    (hbackend : u.backend = s.backend ++ bs) (hbs : ∀ b ∈ bs, s.Asked b) (haddr : u.addr = s.addr) :
    Served s u k call r where
  backend := hbackend ▸ List.prefix_append _ _
  asked := fun b hb => (List.mem_append.mp (hbackend ▸ hb)).imp_right (hbs b)
  addr := fun j _ => congrFun haddr j
  task := htask u _

lemma serve_other {s u : Sys} {k : ℕ} {call : Call} {o : Outcome} {r : Except CapnpError Answer}
    (h : s.serve k call o = some (u, r)) (hcall : call.isOther) :
    ∃ bs, u.backend = s.backend ++ bs ∧ (∀ b ∈ bs, s.Asked b) ∧ u.addr = s.addr := by
  have hsame : ∃ bs, s.backend = s.backend ++ bs ∧ (∀ b ∈ bs, s.Asked b) ∧ s.addr = s.addr :=
    ⟨[], (List.append_nil _).symm, by simp, rfl⟩
  unfold serve at h
  dsimp only at h
  repeat' split at h
  all_goals first
    | obtain ⟨rfl, rfl⟩ := Prod.mk.inj (Option.some.inj h)
    | exact absurd h (by simp)
  all_goals first
    | exact Bool.noConfusion hcall
    | exact hsame
    | exact ⟨[_], rfl, by simp [Asked], rfl⟩

/-- The call fails outside of the backend. -/
lemma serve_rpcErr {s u : Sys} {k : ℕ} {call : Call} {e : CapnpError} {r : Except CapnpError Answer}
    (h : s.serve k call (.rpcErr e) = some (u, r)) : s = u ∧ .error e = r := by
  cases call with
  | listen c v n t | connect c text t | accept c t | send c m t | recv i c =>
    cases c <;> simpa [serve] using h
  | onionAddr c t | configure p nf t => simpa [serve] using h

lemma Served.of_rpcErr {s u : Sys} {k : ℕ} {call : Call} {e : CapnpError}
    {r : Except CapnpError Answer} (htask : s.TaskSays k ⟨call, .issued⟩)
    (h : s.serve k call (.rpcErr e) = some (u, r)) : Served s u k call r := by
  obtain ⟨rfl, rfl⟩ := serve_rpcErr h
  exact .of_error [] htask rfl rfl (List.append_nil _).symm (by simp)

/-- The backend is asked for the parameters as they are received, and publishes an address. -/
lemma served_listen {s u : Sys} {k : ℕ} {o : Outcome} {r : Except CapnpError Answer} {c : Option Cap}
    {v : UInt16} {n : Option String} {t : ℕ} (h : s.serve k (.listen c v n t) o = some (u, r))
    (htask : s.TaskSays k ⟨.listen c v n t, .issued⟩) : Served s u k (.listen c v n t) r := by
  have hasked : ∀ x, s.Asked (.listen (ListenParams.received ⟨v, n⟩) x) := fun x =>
    ⟨t, _, htask.1, rfl⟩
  cases o with
  | rpcErr e => exact .of_rpcErr htask h
  | listening text =>
    cases c with
    | none => exact absurd h (by simp [serve])
    | some c =>
      simp only [serve, ListenParams.received_mk, Option.some.injEq, Prod.mk.injEq] at h
      obtain ⟨rfl, rfl⟩ := h
      refine ⟨List.prefix_append _ _, asked_log (hasked _), fun j hj =>
        Function.update_of_ne hj _ _, htask.1, fun d hd => ?_⟩
      obtain rfl : k = d := by simpa using hd
      exact ⟨rfl, List.mem_append_right _ (by simp)⟩
  | connErr e =>
    cases c with
    | none => exact absurd h (by simp [serve])
    | some c =>
      simp only [serve, ListenParams.received_mk, Option.some.injEq, Prod.mk.injEq] at h
      obtain ⟨rfl, rfl⟩ := h
      exact .of_error [_] htask rfl rfl rfl (by simpa using hasked _)
  | ok | sendErr e | recvErr e | configErr e => cases c <;> exact absurd h (by simp [serve])

/-- The listener tells the address that it published. -/
lemma served_onionAddr {s u : Sys} {k : ℕ} {o : Outcome} {r : Except CapnpError Answer} {c : Cap}
    {t : ℕ} (h : s.serve k (.onionAddr c t) o = some (u, r))
    (htask : s.TaskSays k ⟨.onionAddr c t, .issued⟩) : Served s u k (.onionAddr c t) r := by
  cases o with
  | rpcErr e => exact .of_rpcErr htask h
  | ok =>
    obtain ⟨rfl, rfl⟩ : s = u ∧ Except.ok (.addr (s.addr c)) = r := by simpa [serve] using h
    refine ⟨List.prefix_rfl, fun b hb => .inl hb, fun j _ => rfl, htask.1, htask.2.1,
      fun text htext => ?_⟩
    simpa [eq_comm] using htext
  | listening a | connErr e | sendErr e | recvErr e | configErr e =>
    exact absurd h (by simp [serve])

/-- The backend's connector gets the address of the call, if it parses. -/
lemma served_connect {s u : Sys} {k : ℕ} {o : Outcome} {r : Except CapnpError Answer} {c : Option Cap}
    {text : String} {t : ℕ} (h : s.serve k (.connect c text t) o = some (u, r))
    (htask : s.TaskSays k ⟨.connect c text t, .issued⟩) : Served s u k (.connect c text t) r := by
  obtain ⟨j, id, hj⟩ := htask.1
  have hasked : ∀ d x, s.Asked (.connect d text x) := fun d x => ⟨t, j, id, hj⟩
  cases o with
  | rpcErr e => exact .of_rpcErr htask h
  | ok =>
    cases c with
    | none => exact absurd h (by simp [serve])
    | some c =>
      simp only [serve] at h
      split at h
      · obtain ⟨rfl, rfl⟩ := Prod.mk.inj (Option.some.inj h)
        refine ⟨List.prefix_append _ _, asked_log (hasked _ _), fun j _ => rfl, ⟨j, id, hj⟩,
          fun d hd => ?_⟩
        obtain rfl : k = d := by simpa using hd
        exact ⟨c, List.mem_append_right _ (List.mem_singleton_self _)⟩
      · -- the backend never hears of a text that is no address
        obtain ⟨rfl, rfl⟩ := Prod.mk.inj (Option.some.inj h)
        exact .of_error [] htask rfl rfl (List.append_nil _).symm (by simp)
  | connErr e =>
    cases c with
    | none => exact absurd h (by simp [serve])
    | some c =>
      simp only [serve] at h
      split at h
      · obtain ⟨rfl, rfl⟩ := Prod.mk.inj (Option.some.inj h)
        exact .of_error [_] htask rfl rfl rfl (by simpa using hasked _ _)
      · exact absurd h (by simp)
  | listening a | sendErr e | recvErr e | configErr e =>
    cases c <;> exact absurd h (by simp [serve])

/-- The backend gets what the call carries, and its answer is handed on. -/
lemma served_of_serve {s u : Sys} {k : ℕ} {call : Call} {o : Outcome} {r : Except CapnpError Answer}
    (h : s.serve k call o = some (u, r)) (htask : s.TaskSays k ⟨call, .issued⟩) :
    Served s u k call r := by
  cases call with
  | listen c v n t => exact served_listen h htask
  | onionAddr c t => exact served_onionAddr h htask
  | connect c text t => exact served_connect h htask
  | accept c t | send c m t | recv i c | configure p nf t =>
    obtain ⟨bs, hbackend, hbs, haddr⟩ := serve_other h rfl
    exact .of_other (fun _ _ => trivial) bs hbackend hbs haddr

lemma traced_answer {s s' : Sys} {k : ℕ} {o : Outcome} (h : Traced s)
    (hstep : s.answer k o = some s') : Traced s' := by
  obtain ⟨call, r, u, hk, -, hserve, hs'⟩ := answer_cases hstep
  have hu := served_of_serve hserve (h.task k _ hk)
  have hrest := serve_rest hserve
  have hfuts : ∀ t, s.FutStep s' t := fun t => .kept (by rw [hs'])
  have hcreated : s'.created = s.created := by rw [hs']
  have hqueue : s'.queue = s.queue := by rw [hs']
  have haddr : s'.addr = u.addr := by rw [hs']
  have hbackend : s'.backend = u.backend := by rw [hs']
  have htasks : s'.tasks = Function.update s.tasks k (some ⟨call, .answered r⟩) := by rw [hs']
  have hs : Grows s s' := .of_futs hfuts (hcreated ▸ List.prefix_rfl) (hbackend ▸ hu.backend)
  -- `u` is the connection as the server leaves it, before the task has the answer
  have hgrow : Grows u s' := by
    have hcreated' : u.created = s'.created := by rw [hrest, hcreated]
    exact .of_futs (fun t => .kept (by rw [hs', hrest])) (hcreated' ▸ List.prefix_rfl)
      (hbackend ▸ List.prefix_rfl)
  refine h.advance hfuts hs (step_fresh (a := .answer k o) hstep)
    (step_numbered (a := .answer k o) h.numbered hstep) (fun c hc => .inl (hqueue ▸ hc))
    (fun j x hj => ?_)
    (fun b hb => (hu.asked b (hbackend ▸ hb)).imp_right fun hb => hb.mono hs)
  rw [htasks] at hj
  rcases update_eq_some hj with ⟨rfl, hx⟩ | ⟨hjk, hj'⟩
  · obtain rfl := Option.some.inj hx
    exact .inr (hu.task.mono hgrow (congrFun haddr j))
  · exact .inl ⟨hj', (congrFun haddr j).trans (hu.addr j hjk)⟩

/-- A reply that says the truth is put into its slot. -/
lemma Traced.reply {s : Sys} (h : Traced s) (t : ℕ) {r : Reply}
    (hr : ∀ op, s.Calls t op → s.ReplySays op r) : Traced (s.reply t r) := by
  rcases reply_cases s t r with ⟨op, hf, heq⟩ | ⟨-, heq⟩
  · rw [heq]
    -- the reply changes the status of the call, not what it asked for
    have hcalls : ∀ u op', s.Calls u op' → (s.setFut t ⟨op, .replied r⟩).Calls u op' := by
      rintro u op' ⟨st, hu⟩
      by_cases hut : u = t
      · subst hut
        obtain ⟨rfl, -⟩ := Fut.mk.inj (Option.some.inj (hf.symm.trans hu))
        exact ⟨_, Function.update_self _ _ _⟩
      · exact ⟨st, by simp [setFut, Function.update_of_ne hut, hu]⟩
    have hs : Grows s (s.setFut t ⟨op, .replied r⟩) :=
      ⟨fun u op' _ => hcalls u op', List.prefix_rfl, List.prefix_rfl⟩
    refine ⟨fun u f hu => ?_, h.numbered, fun c hc => (h.queue c hc).mono hs,
      fun k x hk => (h.task k x hk).mono hs rfl, fun u op' st r' hu hr' => ?_,
      fun b hb => (h.backend b hb).mono hs⟩
    · rcases futs_setFut hu with ⟨rfl, -⟩ | ⟨-, hu'⟩
      · exact h.lt u _ hf
      · exact h.lt u f hu'
    · rcases futs_setFut hu with ⟨rfl, hnew⟩ | ⟨-, hu'⟩
      · obtain ⟨rfl, rfl⟩ := Fut.mk.inj hnew
        obtain rfl := Option.some.inj hr'
        exact (hr _ ⟨_, hf⟩).mono hs
      · exact (h.slot u op' st r' hu' hr').mono hs
  · rw [heq]
    exact h

/-- A task ends and stores what the backend has made for its call. -/
lemma Traced.install {s : Sys} (h : Traced s) (k : ℕ) (kind : Kind) (c : Cap) :
    Traced ((s.setTask k none).install kind c) := by
  have hs : Grows s ((s.setTask k none).install kind c) :=
    .of_futs (fun t => .kept rfl) (List.prefix_append _ _) List.prefix_rfl
  refine h.advance (fun t => .kept rfl) hs le_rfl ((h.numbered.setTask k none).install kind c)
    (fun d hd => .inl hd) (fun j x hj => .inl ⟨?_, rfl⟩) (fun b hb => .inl hb)
  rcases update_eq_some hj with ⟨-, hx⟩ | ⟨-, hj'⟩
  · exact absurd hx (by simp)
  · exact hj'

/-- The id that is allocated for a created capability. -/
lemma Traced.allocated {s : Sys} (h : Traced s) (k : ℕ) (kind : Kind) (c : Cap) :
    s.reg.allocId.1 = s.created.length % 2 ^ 64 ∧
      ((s.setTask k none).install kind c).created[s.created.length]? = some (kind, c) :=
  ⟨h.numbered, getElem?_concat_eq_some.mpr (.inr ⟨rfl, rfl⟩)⟩

lemma traced_resume {s s' : Sys} {k : ℕ} (h : Traced s) (hstep : s.resume k = some s') :
    Traced s' := by
  have hremove : Traced (s.setTask k none) :=
    h.advance (fun t => .kept rfl) (.of_futs (fun t => .kept rfl) List.prefix_rfl List.prefix_rfl)
      le_rfl h.numbered (fun c hc => .inl hc)
      (fun j x hj => by
        rcases update_eq_some hj with ⟨-, hx⟩ | ⟨-, hj'⟩
        · exact absurd hx (by simp)
        · exact .inl ⟨hj', rfl⟩) (fun b hb => .inl hb)
  cases resumed_of_resume hstep with
  | @listened o p n t c hk =>
    obtain ⟨hp, hc⟩ := h.task k _ hk
    obtain ⟨rfl, hmem⟩ := hc c rfl
    refine h.advance (fun t => .kept rfl)
      (.of_futs (fun t => .kept rfl) List.prefix_rfl List.prefix_rfl) le_rfl h.numbered
      (fun d hd => .inl hd) (fun j x hj => ?_) (fun b hb => .inl hb)
    rcases update_eq_some hj with ⟨rfl, hx⟩ | ⟨-, hj'⟩
    · obtain rfl := Option.some.inj hx
      exact .inr ⟨rfl, ⟨_, hp, hmem⟩, by simp⟩
    · exact .inl ⟨hj', rfl⟩
  | @created call a kind c t r hk hnew =>
    obtain ⟨hid, hlast⟩ := h.allocated k kind c
    refine (h.install k kind c).reply t fun op hop => ?_
    cases hnew with
    | @listener _ _ text =>
      -- the id and the address in the reply are those of the listener the backend made
      obtain ⟨rfl, ⟨p, ⟨st, hp⟩, hmem⟩, htext⟩ := h.task k _ hk
      obtain rfl := htext text rfl
      obtain ⟨st', hop⟩ := hop
      obtain ⟨rfl, -⟩ := Fut.mk.inj (Option.some.inj (hp.symm.trans hop))
      exact ⟨p, c, _, rfl, hid, hlast, hmem⟩
    | @connected o addr =>
      obtain ⟨⟨j, i, ⟨st, hj⟩⟩, hc⟩ := h.task k _ hk
      obtain ⟨d, hmem⟩ := hc c rfl
      obtain ⟨st', hop⟩ := hop
      obtain ⟨rfl, -⟩ := Fut.mk.inj (Option.some.inj (hj.symm.trans hop))
      exact ⟨j, i, addr, d, c, _, rfl, hid, hlast, hmem⟩
    | accepted => trivial
  | replied hk ht hid hr => exact hremove.reply _ fun op _ => .of_plain (plain_of_id? hid)
  | @received i o x result hk hx =>
    have hfuts := futStep_completeRecv (s := s.setTask k none) rfl i result
    obtain ⟨f, g, hfg⟩ := completeRecv_eq (s.setTask k none) i result
    have hnumbered := hremove.numbered.completeRecv i result
    rw [hfg] at hfuts hnumbered ⊢
    exact hremove.advance hfuts (.of_futs hfuts List.prefix_rfl List.prefix_rfl) le_rfl hnumbered
      (fun c hc => .inl hc) (fun j x hj => .inl ⟨hj, rfl⟩) (fun b hb => .inl hb)

lemma traced_init (cfg : Config) : Traced (init cfg) where
  lt := by simp [init]
  numbered := by simp [Numbered, init, Registry.new, bootstrapId]
  queue := by simp [init]
  task := by simp [init]
  slot := by simp [init]
  backend := by simp [init]

theorem step_traced {s s' : Sys} {a : Action} (h : Traced s) (hstep : s.step a = some s') :
    Traced s' := by
  cases ha : isRemote a with
  | false => exact traced_caller h ha hstep
  | true =>
    cases a with
    | dequeue => exact traced_dequeue h hstep
    | poll k => exact traced_poll h hstep
    | answer k o => exact traced_answer h hstep
    | resume k => exact traced_resume h hstep
    | arriveMsg c m | arriveConn c n =>
      obtain rfl := Option.some.inj hstep
      exact h.advance (fun t => .kept rfl)
        (.of_futs (fun t => .kept rfl) List.prefix_rfl List.prefix_rfl) le_rfl h.numbered
        (fun c hc => .inl hc) (fun j x hj => .inl ⟨hj, rfl⟩) (fun b hb => .inl hb)
    | _ => exact absurd ha (by simp [isRemote])

theorem traced_of_run {cfg : Config} {as : List Action} {s : Sys}
    (hrun : run step (Sys.init cfg) as = some s) : Traced s :=
  run_invariant (fun _ _ _ h ha => step_traced h ha) (traced_init cfg) hrun

/-! ## Addresses are parsed where they arrive -/

/-- Only the server asks the backend. -/
lemma unserved_of_step {s s' : Sys} {a : Action} (hstep : s.step a = some s')
    (hne : ∀ k o, a ≠ .answer k o) :
    s'.backend = s.backend ∧ s'.addr = s.addr ∧ s'.serves = s.serves := by
  cases ha : isRemote a with
  | false =>
    have hrest := (step_caller_rest ha hstep).1
    exact ⟨by rw [hrest], by rw [hrest], by rw [hrest]⟩
  | true =>
    cases a with
    | dequeue =>
      exact ⟨by rw [dequeue_rest hstep], by rw [dequeue_rest hstep], by rw [dequeue_rest hstep]⟩
    | poll k => exact ⟨by rw [poll_rest hstep], by rw [poll_rest hstep], by rw [poll_rest hstep]⟩
    | answer k o => exact absurd rfl (hne k o)
    | resume k =>
      exact ⟨by rw [resume_rest hstep], by rw [resume_rest hstep], by rw [resume_rest hstep]⟩
    | arriveMsg c m | arriveConn c n =>
      obtain rfl := Option.some.inj hstep
      exact ⟨rfl, rfl, rfl⟩
    | _ => exact absurd ha (by simp [isRemote])

/-- The backend's connector is asked behind the parser, and so is the caller of a `listen`. -/
structure Parsed (s : Sys) : Prop where
  asked : ∀ c text r, .connect c text r ∈ s.backend → s.cfg.backendParses text
  listened : ∀ t p id text, s.futs t = some ⟨.listen p, .done (.listen (.ok (id, text)))⟩ →
    s.cfg.parses text

/-- `ConnectorServer` parses an address before it asks the backend. -/
lemma serve_parses {s u : Sys} {k : ℕ} {call : Call} {o : Outcome} {r : Except CapnpError Answer}
    (h : s.serve k call o = some (u, r)) {c : Cap} {text : String} {x : Except ConnectError Cap}
    (hmem : .connect c text x ∈ u.backend) :
    .connect c text x ∈ s.backend ∨ s.cfg.backendParses text := by
  unfold serve at h
  dsimp only at h
  repeat' split at h
  all_goals first
    | obtain ⟨rfl, rfl⟩ := Prod.mk.inj (Option.some.inj h)
    | exact absurd h (by simp)
  all_goals first
    | exact .inl hmem
    | exact (List.mem_append.mp hmem).imp_right fun hlast => by simp_all

/-- A `listen` returns an address that it has parsed, in this step or before. -/
lemma listened_of_step {s s' : Sys} {a : Action} (hfree : s.futs s.fresh = none)
    (hstep : s.step a = some s') {t id : ℕ} {p : ListenParams} {text : String}
    (hf : s'.futs t = some ⟨.listen p, .done (.listen (.ok (id, text)))⟩) :
    s.futs t = some ⟨.listen p, .done (.listen (.ok (id, text)))⟩ ∨ s.cfg.parses text := by
  have hother : ∀ {u : ℕ} {f : Fut}, f ≠ ⟨.listen p, .done (.listen (.ok (id, text)))⟩ →
      s'.futs = Function.update s.futs u (some f) →
      s.futs t = some ⟨.listen p, .done (.listen (.ok (id, text)))⟩ := by
    intro u f hne hfuts
    rcases update_eq_some (hfuts ▸ hf) with ⟨-, heq⟩ | ⟨-, hold⟩
    · exact absurd (Option.some.inj heq) hne
    · exact hold
  cases ha : isRemote a with
  | true =>
    cases replyStep_of_step ha hstep with
    | kept hfuts => exact .inl (hfuts ▸ hf)
    | closed hold hfuts => exact .inl (hother (by simp) hfuts)
    | replied hold hfuts hr => exact .inl (hother (by simp) hfuts)
  | false =>
    cases callStep_of_step hfree ha hstep with
    | kept hfuts hresolved => exact .inl (hfuts ▸ hf)
    | moved hold hnew hlive hfuts hresolved =>
      exact .inl (hother (fun heq => absurd hlive (by simp [heq, Status.live])) hfuts)
    | dropped hold hl hfuts hresolved => exact .inl (hother (by simp) hfuts)
    | rejected hid hfuts hresolved => exact .inl (hother (by simp) hfuts)
    | resolved hold hl hr hfuts hresolved =>
      cases resolving_of_resolve hstep with
      | named hrep hid hk hparses =>
        rcases update_eq_some hf with ⟨-, heq⟩ | ⟨-, hold⟩
        · obtain ⟨-, hst⟩ := Fut.mk.inj (Option.some.inj heq)
          exact .inr (hparses id text (Status.done.inj hst))
        · exact .inl hold
      | unparsed hrep hparses => exact .inl (hother (by simp) rfl)
      | filled hrep hx => exact .inl (hother (by simp) rfl)
      | returned hrep hid =>
        refine .inl (hother (fun heq => ?_) rfl)
        obtain ⟨-, hst⟩ := Fut.mk.inj heq
        exact absurd hid (by simp [Status.done.inj hst, Reply.id?])
      | @disconnected op hrep =>
        refine .inl (hother (fun heq => ?_) rfl)
        obtain ⟨rfl, hst⟩ := Fut.mk.inj heq
        exact absurd hst (by simp [Op.disconnected])

lemma step_parsed {s s' : Sys} {a : Action} (h : Parsed s) (hfree : s.futs s.fresh = none)
    (hstep : s.step a = some s') : Parsed s' where
  asked := fun c text r hmem => by
    rw [step_cfg hstep]
    by_cases ha : ∃ k o, a = .answer k o
    · obtain ⟨k, o, rfl⟩ := ha
      obtain ⟨call, x, u, -, -, hserve, hs'⟩ := answer_cases hstep
      have hbackend : s'.backend = u.backend := by rw [hs']
      exact (serve_parses hserve (hbackend ▸ hmem)).elim (h.asked c text r) id
    · have hbackend := (unserved_of_step hstep fun k o hko => ha ⟨k, o, hko⟩).1
      exact h.asked c text r (hbackend ▸ hmem)
  listened := fun t p id text hf => by
    rw [step_cfg hstep]
    exact (listened_of_step hfree hstep hf).elim (h.listened t p id text) fun hparses => hparses

theorem parsed_of_run {cfg : Config} {as : List Action} {s : Sys}
    (hrun : run step (Sys.init cfg) as = some s) : Parsed s :=
  (run_invariant (I := fun s => Traced s ∧ Parsed s)
    (fun _ _ _ h ha => ⟨step_traced h.1 ha, step_parsed h.2 h.1.futs_fresh ha⟩)
    ⟨traced_init cfg, by simp [init], by simp [init]⟩ hrun).2

/-! ## Calls that run to their end -/

/-- No call is under way, the actor has no command to process, and the transport is there. -/
structure Idle (s : Sys) : Prop where
  queue : s.queue = []
  futs : ∀ t f, s.futs t = some f → f.status.live = false
  transport : s.handles 0 = some transportHandle
  capability : (s.reg.transports bootstrapId).isSome

/-- A `listen` that runs to its end asks the backend once. -/
lemma listen_runs {s : Sys} (h : Idle s) (p : ListenParams) {text : String}
    (htext : s.cfg.parses text) : (run step s [.listen p, .enqueue s.fresh, .dequeue,
        .poll (s.fresh + 1), .answer (s.fresh + 1) (.listening text), .resume (s.fresh + 1),
        .answer (s.fresh + 1) .ok, .resume (s.fresh + 1), .resolve s.fresh]).map
      (fun s' => (s'.backend, s'.futs s.fresh)) =
      some (s.backend ++ [.listen p.received (.ok (s.fresh + 1, text))],
        some ⟨.listen p, .done (.listen (.ok (s.reg.nextId, text)))⟩) := by
  obtain ⟨c, hc⟩ := Option.isSome_iff_exists.mp h.capability
  have hlive : s.liveHandle 0 .transport = some transportHandle := by
    simp [liveHandle, h.transport, transportHandle, Option.filter]
  have hne : s.fresh ≠ s.fresh + 1 := by omega
  simp [run, step, startTransport, hlive, start, setFut, enqueue, h.queue, commandQueueDepth,
    Op.command, dequeue, onCommand, spawn, hc, poll, issue, Call.mutex, setTask, answer, holds, serve,
    ListenParams.received_mk, log, resume, onAnswer, install, reply, accepts, Status.isWaiting,
    setStatus, resolve, onReply, htext, setHandle, resolveTo]

/-- So does a `connect` on a new connector. -/
lemma connect_runs {s : Sys} (h : Idle s) {text : String} (htext : s.cfg.backendParses text) :
    (run step s [.newConnector, .connect s.fresh text, .enqueue (s.fresh + 1), .dequeue,
        .resolve (s.fresh + 1), .enqueue (s.fresh + 1), .dequeue, .poll (s.fresh + 3),
        .answer (s.fresh + 3) .ok, .resume (s.fresh + 3), .resolve (s.fresh + 1)]).map
      (fun s' => (s'.backend, s'.futs (s.fresh + 1))) =
      some (s.backend ++ [.connect (s.fresh + 2) text (.ok (s.fresh + 3))],
        some ⟨.connect s.fresh s.reg.nextId text,
          .done (.connect (.ok ((s.reg.nextId + 1) % 2 ^ 64)))⟩) := by
  obtain ⟨c, hc⟩ := Option.isSome_iff_exists.mp h.capability
  have hfree : ∀ {u : Sys} (j : ℕ), u.futs = s.futs → u.initialising j = false := by
    intro u j hu
    simp only [initialising, hu, List.any_eq_false]
    intro t _ ht
    obtain ⟨f, hf, hinit⟩ := (Option.any_eq_true _ _).mp ht
    split at hinit
    · simp [h.futs t f hf] at hinit
    · exact absurd hinit (by simp)
  simp [run, step, newConnector, startConnect, liveHandle, h.transport, transportHandle,
    Option.filter, setHandle, hfree, start, setFut, enqueue, h.queue, commandQueueDepth, Op.command,
    dequeue, onCommand, onConnector, spawn, hc, poll, issue, Call.mutex, setTask, answer, holds,
    serve, htext, log, resume, onAnswer, install, Registry.insert, Registry.allocId, reply, accepts,
    Status.isWaiting, setStatus, resolve, onReply, resolveTo]

/-! ## The parameters arrive -/

/-- Parameters and addresses cross the connection: the backend is asked for what the calls of the
client say, and these return what it made. -/
structure ParamsArrive {α : Type} (F : AddrFormat α) (s : Sys) : Prop where
  /-- The backend's `listen` is invoked for a call of the client, with its parameters. -/
  listen : ∀ params r, .listen params r ∈ s.backend →
    ∃ t p, s.Calls t (.listen p) ∧ params = p.received
  /-- The backend's connector gets an address that was parsed from the text of a `connect`: the one
  that was passed to it, if `FromStr` inverts the `Display` of that. -/
  connect : ∀ c text r, .connect c text r ∈ s.backend → ∃ t h id a, s.Calls t (.connect h id text) ∧
    F.fromStr text = some a ∧
    ∀ b, text = F.display b → F.fromStr (F.display b) = some b → a = b
  /-- A `listen` returns the listener that was made for its parameters, with an address that was
  parsed from the text that the backend published for it: the one that it published, if `FromStr`
  inverts the `Display` of that. -/
  listened : ∀ t p id text, s.futs t = some ⟨.listen p, .done (.listen (.ok (id, text)))⟩ →
    ∃ c n a, id = n % 2 ^ 64 ∧ s.created[n]? = some (.listener, c) ∧
      .listen p.received (.ok (c, text)) ∈ s.backend ∧ F.fromStr text = some a ∧
      ∀ b, text = F.display b → F.fromStr (F.display b) = some b → a = b
  /-- A `connect` returns the channel that was made for its address. -/
  connected : ∀ t h i text id, s.futs t = some ⟨.connect h i text, .done (.connect (.ok id))⟩ →
    ∃ o c n, id = n % 2 ^ 64 ∧ s.created[n]? = some (.channel, c) ∧
      .connect o text (.ok c) ∈ s.backend
  /-- Any parameters get through to the backend, and any address back. -/
  listens : Idle s → ∀ p b, F.fromStr (F.display b) = some b → ∃ as s' t c id,
    run step s as = some s' ∧ s'.backend = s.backend ++ [.listen p.received (.ok (c, F.display b))] ∧
      s'.futs t = some ⟨.listen p, .done (.listen (.ok (id, F.display b)))⟩
  /-- Any address gets through to the backend's connector. -/
  connects : Idle s → ∀ a, F.fromStr (F.display a) = some a → ∃ as s' t h i o c id,
    run step s as = some s' ∧ s'.backend = s.backend ++ [.connect o (F.display a) (.ok c)] ∧
      s'.futs t = some ⟨.connect h i (F.display a), .done (.connect (.ok id))⟩

lemma Traced.paramsArrive {α : Type} {F : AddrFormat α} {maxMsgLen : ℕ} {remoteText : String → String}
    {s : Sys} (h : Traced s) (hparsed : Parsed s) (hcfg : s.cfg = F.config maxMsgLen remoteText) :
    ParamsArrive F s where
  listen := fun params r hmem => h.backend _ hmem
  connect := fun c text r hmem => by
    obtain ⟨t, j, id, hj⟩ := h.backend _ hmem
    have hparses := hparsed.asked c text r hmem
    rw [hcfg] at hparses
    obtain ⟨a, ha⟩ := Option.isSome_iff_exists.mp hparses
    exact ⟨t, j, id, a, hj, ha, fun b hb hinv => F.parsed_eq ha hb hinv⟩
  listened := fun t p id text hf => by
    obtain ⟨q, c, n, hq, hid, hc, hmem⟩ := h.slot t _ _ _ hf rfl
    obtain rfl : p = q := Op.listen.inj hq
    have hparses := hparsed.listened t p id text hf
    rw [hcfg] at hparses
    obtain ⟨a, ha⟩ := Option.isSome_iff_exists.mp hparses
    exact ⟨c, n, a, hid, hc, hmem, ha, fun b hb hinv => F.parsed_eq ha hb hinv⟩
  connected := fun t j i text id hf => by
    obtain ⟨j', i', addr, o, c, n, hop, hid, hc, hmem⟩ := h.slot t _ _ _ hf rfl
    obtain ⟨-, -, rfl⟩ := Op.connect.inj hop
    exact ⟨o, c, n, hid, hc, hmem⟩
  listens := fun hidle p b hb => by
    have htext : s.cfg.parses (F.display b) := by simp [hcfg, AddrFormat.config, hb]
    obtain ⟨s', hrun, hs'⟩ := Option.map_eq_some_iff.mp (listen_runs hidle p htext)
    obtain ⟨hbackend, hfut⟩ := Prod.mk.inj hs'
    exact ⟨_, s', _, _, _, hrun, hbackend, hfut⟩
  connects := fun hidle a ha => by
    have htext : s.cfg.backendParses (F.display a) := by simp [hcfg, AddrFormat.config, ha]
    obtain ⟨s', hrun, hs'⟩ := Option.map_eq_some_iff.mp (connect_runs hidle htext)
    obtain ⟨hbackend, hfut⟩ := Prod.mk.inj hs'
    exact ⟨_, s', _, _, _, _, _, _, hrun, hbackend, hfut⟩

lemma cfg_of_run {cfg : Config} {as : List Action} {s : Sys}
    (hrun : run step (Sys.init cfg) as = some s) : s.cfg = cfg :=
  run_invariant (I := fun s => s.cfg = cfg) (fun _ _ _ h ha => (step_cfg ha).trans h) rfl hrun

/-- **Parameters survive the plugin protocol**, but for the empty nickname, which stands for none:
in every run the backend is asked for what the client's calls say and the calls return what it
published; the parameters it gets are equal to the caller's unless the nickname is empty, and two
that look the same to it differ at most in an absent and an empty nickname. -/
theorem params_arrive {α : Type} (F : AddrFormat α) {maxMsgLen : ℕ} {remoteText : String → String}
    {as : List Action} {s : Sys}
    (hrun : run step (Sys.init (F.config maxMsgLen remoteText)) as = some s) :
    ParamsArrive F s ∧ (∀ p : ListenParams, p.nickname ≠ some "" → p.received = p) ∧
      ∀ p q : ListenParams, p.received = q.received ↔ p = q ∨ p.virtPort = q.virtPort ∧
        (p.nickname = none ∧ q.nickname = some "" ∨ p.nickname = some "" ∧ q.nickname = none) := by
  exact ⟨(traced_of_run hrun).paramsArrive (parsed_of_run hrun) (cfg_of_run hrun),
    fun p hp => ListenParams.received_of_ne hp, fun p q => ListenParams.received_eq_iff⟩

/-- Addresses that are texts. -/
def textFormat : AddrFormat String := ⟨id, some⟩

/-- A `listen` and a `connect` at the same time. -/
theorem params_arrive_interleaved :
    ∃ s, run step (init (textFormat.config 1024 id)) [.newConnector, .listen ⟨80, some "alice"⟩,
        .connect 2 "peer", .enqueue 4, .enqueue 3, .dequeue, .dequeue, .resolve 4, .enqueue 4,
        .dequeue, .poll 7, .poll 6, .answer 7 .ok, .answer 6 (.listening "a.onion"), .resume 7,
        .resume 6, .answer 6 .ok, .resume 6, .resolve 3, .resolve 4] = some s ∧
      ParamsArrive textFormat s := by
  refine ⟨_, Option.eq_some_of_isSome (by decide), ?_⟩
  exact (params_arrive textFormat (Option.eq_some_of_isSome (by decide))).1

/-- A `listen` from its start to its end. -/
def listenRun (p : ListenParams) : List Action :=
  [.listen p, .enqueue 2, .dequeue, .poll 3, .answer 3 (.listening "a.onion"), .resume 3,
    .answer 3 .ok, .resume 3, .resolve 2]

/-- The backend gets no nickname for an empty one, and cannot tell the two apart. -/
theorem empty_nickname_lost : (⟨80, some ""⟩ : ListenParams) ≠ ⟨80, none⟩ ∧
    ∀ p ∈ [(⟨80, some ""⟩ : ListenParams), ⟨80, none⟩],
      (run step (init (textFormat.config 1024 id)) (listenRun p)).map (fun s => s.backend) =
        some [.listen ⟨80, none⟩ (.ok (3, "a.onion"))] := by
  decide

/-! ## Onion addresses -/

/-- The text form of onion addresses. -/
def onionFormat : AddrFormat OnionAddr where
  display := OnionAddr.toString
  fromStr := fun text => (OnionAddr.fromStr text).toOption

/-- Every onion address with a host gets through to the backend's connector, which parses the same
address from its text. -/
theorem onion_addr_arrives {maxMsgLen : ℕ} {remoteText : String → String} {as : List Action}
    {s : Sys} (hrun : run step (Sys.init (onionFormat.config maxMsgLen remoteText)) as = some s)
    (hidle : Idle s) {a : OnionAddr} (ha : a.host ≠ "") : OnionAddr.fromStr a.toString = .ok a ∧
      ∃ as' s' t h i o c id, run step s as' = some s' ∧
        s'.backend = s.backend ++ [.connect o a.toString (.ok c)] ∧
        s'.futs t = some ⟨.connect h i a.toString, .done (.connect (.ok id))⟩ := by
  have hparse := OnionAddr.fromStr_toString ha
  have harrive : ParamsArrive onionFormat s :=
    (traced_of_run hrun).paramsArrive (parsed_of_run hrun) (cfg_of_run hrun)
  exact ⟨hparse, harrive.connects hidle a (by simp [onionFormat, hparse, Except.toOption])⟩

end Sys

end FungiTransport
