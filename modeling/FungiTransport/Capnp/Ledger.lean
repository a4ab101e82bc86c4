import FungiTransport.Capnp.Attended
import FungiTransport.Capnp.Handoff

/-!
# The backend is asked once for each call

A call crosses the connection in four pieces: its command, its task, the capnp call, and the answer
that becomes its reply.  The *ledger* of a state says which call each call of a backend was made for
(`Sys.Ledger`): a call asks its backend at most once, for what it says and of the object behind its
handle, and a call that returns a result has asked, and returns what its own call of the backend
brought.  Receiving is different, as a message may be handed to a later `recv`; it is the subject of
`Sys.recv_delivers`.
-/

namespace FungiTransport

open Lib

def BackendCall.isRecv : BackendCall → Bool
  | .recv _ _ => true
  | .listen _ _ | .connect _ _ _ | .accept _ _ | .send _ _ _ | .configure _ _ => false

/-- The reply carries a result that only a backend can have brought. -/
def Reply.isMade : Reply → Bool
  | .listen (.ok _) | .connect (.ok _) | .accept (.ok _) | .send (.ok _) | .configure (.ok _) => true
  | .listen (.error _) | .connect (.error _) | .accept (.error _) | .send (.error _)
  | .configure (.error _) | .connector _ | .recv _ => false

/-- The command of the call is not sent yet. -/
def Status.isEarly : Status → Bool
  | .parked | .sending => true
  | .waiting | .replied _ | .closed | .done _ | .dropped => false

/-- The call is still to be put to the backend. -/
def Task.isAhead (x : Task) : Bool :=
  match x.call, x.stage with
  | .onionAddr _ _, _ | _, .answered _ => false
  | _, .spawned | _, .issued => true

lemma Task.isAhead_answered {call : Call} {r : Except CapnpError Answer} :
    (⟨call, .answered r⟩ : Task).isAhead = false := by
  cases call <;> rfl

lemma Task.isAhead_issued {call : Call} :
    (⟨call, .issued⟩ : Task).isAhead = (⟨call, .spawned⟩ : Task).isAhead := by
  cases call <;> rfl

namespace Sys

/-! ## Calls, tasks and calls of the backend -/

/-- What a call asks its backend for. -/
inductive Asks (s : Sys) : Op → BackendCall → Prop where
  | listen {p : ListenParams} {r : Except ConnectError (Cap × String)} :
      Asks s (.listen p) (.listen p.received r)
  | configure {netFile : Bytes} {r : Except String Unit} :
      Asks s (.configure netFile) (.configure netFile r)
  | connect {h i : ℕ} {addr : String} {c : Cap} {r : Except ConnectError Cap}
      (hc : s.created[i]? = some (.connector, c)) : Asks s (.connect h i addr) (.connect c addr r)
  | accept {h i : ℕ} {c : Cap} {r : Except ConnectError ℕ}
      (hc : s.created[i]? = some (.listener, c)) : Asks s (.accept h i) (.accept c r)
  | send {h i : ℕ} {m : Bytes} {c : Cap} {r : Except SendError Unit}
      (hc : s.created[i]? = some (.channel, c)) : Asks s (.send h i m) (.send c m r)

/-- The task makes the call of a future, on the capability created under the id that it names. -/
inductive Carries (s : Sys) : Op → Call → Prop where
  | listen {p : ListenParams} {c : Cap} {t : ℕ}
      (hc : s.created[bootstrapId]? = some (.transport, c)) :
      Carries s (.listen p) (.listen (some c) p.virtPort p.nickname t)
  | onionAddr {p : ListenParams} {c : Cap} {t : ℕ} : Carries s (.listen p) (.onionAddr c t)
  | configure {netFile : Bytes} {c : Cap} {t : ℕ} (hc : s.plugin = some c) :
      Carries s (.configure netFile) (.configure c netFile t)
  | connect {h i : ℕ} {addr : String} {c : Cap} {t : ℕ}
      (hc : s.created[i]? = some (.connector, c)) :
      Carries s (.connect h i addr) (.connect (some c) addr t)
  | accept {h i : ℕ} {c : Cap} {t : ℕ} (hc : s.created[i]? = some (.listener, c)) :
      Carries s (.accept h i) (.accept (some c) t)
  | send {h i : ℕ} {m : Bytes} {c : Cap} {t : ℕ} (hc : s.created[i]? = some (.channel, c)) :
      Carries s (.send h i m) (.send (some c) m t)

/-- The answer of task `k` is what the call of the backend has brought. -/
inductive Yields (s : Sys) (k : ℕ) : Call → BackendCall → Answer → Prop where
  | listened {o : Option Cap} {v : UInt16} {n : Option String} {t : ℕ} {p : ListenParams}
      {text : String} (haddr : s.addr k = text) :
      Yields s k (.listen o v n t) (.listen p (.ok (k, text))) (.cap k)
  | told {c : Cap} {t : ℕ} {p : ListenParams} {text : String} (haddr : s.addr k = text) :
      Yields s k (.onionAddr c t) (.listen p (.ok (k, text))) (.addr text)
  | connected {o : Option Cap} {addr : String} {t : ℕ} {c : Cap} :
      Yields s k (.connect o addr t) (.connect c addr (.ok k)) (.cap k)
  | accepted {o : Option Cap} {t : ℕ} {c : Cap} {n : ℕ} (hn : s.serves k = some n) :
      Yields s k (.accept o t) (.accept c (.ok n)) (.cap k)
  | sent {o : Option Cap} {m : Bytes} {t : ℕ} {c : Cap} :
      Yields s k (.send o m t) (.send c m (.ok ())) .done
  | configured {p : Cap} {netFile : Bytes} {t : ℕ} :
      Yields s k (.configure p netFile t) (.configure netFile (.ok ())) .done

/-- The reply is what the call of the backend has brought, with the id of the new object. -/
inductive Brings (s : Sys) : BackendCall → Reply → Prop where
  | listened {p : ListenParams} {c : Cap} {text : String} {i : ℕ}
      (hc : s.created[i]? = some (.listener, c)) :
      Brings s (.listen p (.ok (c, text))) (.listen (.ok (i, text)))
  | connected {o : Cap} {addr : String} {c : Cap} {i : ℕ}
      (hc : s.created[i]? = some (.channel, c)) :
      Brings s (.connect o addr (.ok c)) (.connect (.ok i))
  | accepted {l : Cap} {n : ℕ} {c : Cap} {i : ℕ} (hc : s.created[i]? = some (.channel, c))
      (hn : s.serves c = some n) : Brings s (.accept l (.ok n)) (.accept (.ok i))
  | sent {c : Cap} {m : Bytes} : Brings s (.send c m (.ok ())) (.send (.ok ()))
  | configured {netFile : Bytes} : Brings s (.configure netFile (.ok ())) (.configure (.ok ()))

/-- The call of a ticket has not been put to its backend yet. -/
inductive Ahead (s : Sys) (t : ℕ) : Prop where
  | early {f : Fut} (hf : s.futs t = some f) (hst : f.status.isEarly)
  | queued {c : Command} (hc : c ∈ s.queue) (ht : c.ticket = some t)
  | tasked {k : ℕ} {x : Task} (hk : s.tasks k = some x) (ht : x.call.ticket = some t)
      (hx : x.isAhead)

/-- The calls of the backend, each with the ticket of the call that it was made for. -/
structure Booked (s : Sys) (us : List (ℕ × BackendCall)) : Prop where
  /-- Nothing is asked of the backend but for a call, or to receive. -/
  backend : us.map Prod.snd = s.backend.filter fun b => !b.isRecv
  /-- A call asks at most once. -/
  once : (us.map Prod.fst).Nodup
  /-- It asks for what it says, of the object behind its handle. -/
  asks : ∀ t b, (t, b) ∈ us → ∃ op, s.Calls t op ∧ s.Asks op b
  /-- A call that returns a result has asked for it. -/
  made : ∀ t op st r, s.futs t = some ⟨op, st⟩ → st.reply = some r → r.isMade →
    ∃ b, (t, b) ∈ us ∧ s.Brings b r

/-- The books, with what is under way. -/
structure Ledger (s : Sys) (us : List (ℕ × BackendCall)) : Prop extends Booked s us where
  ahead : ∀ t b, (t, b) ∈ us → ¬ s.Ahead t
  queue : ∀ c ∈ s.queue, ∀ t, c.ticket = some t → ∃ op, s.Calls t op ∧ c = op.command t
  carries : ∀ k x t, s.tasks k = some x → x.call.ticket = some t →
    ∃ op, s.Calls t op ∧ s.Carries op x.call
  listened : ∀ k c t st, s.tasks k = some ⟨.onionAddr c t, st⟩ →
    c = k ∧ ∃ p, (t, .listen p (.ok (k, s.addr k))) ∈ us
  yields : ∀ k call a t, s.tasks k = some ⟨call, .answered (.ok a)⟩ → call.ticket = some t →
    ∃ b, (t, b) ∈ us ∧ s.Yields k call b a

/-! ## What stays -/

section Congr

variable {s s' : Sys}

lemma Asks.mono (h : s.created <+: s'.created) {op : Op} {b : BackendCall} (hb : s.Asks op b) :
    s'.Asks op b := by
  cases hb with
  | listen => exact .listen
  | configure => exact .configure
  | connect hc => exact .connect (getElem?_of_isPrefix h hc)
  | accept hc => exact .accept (getElem?_of_isPrefix h hc)
  | send hc => exact .send (getElem?_of_isPrefix h hc)

lemma Carries.mono (h : s.created <+: s'.created) (hplugin : s'.plugin = s.plugin) {op : Op}
    {call : Call} (hc : s.Carries op call) : s'.Carries op call := by
  cases hc with
  | listen hc => exact .listen (getElem?_of_isPrefix h hc)
  | onionAddr => exact .onionAddr
  | configure hc => exact .configure (hplugin.trans hc)
  | connect hc => exact .connect (getElem?_of_isPrefix h hc)
  | accept hc => exact .accept (getElem?_of_isPrefix h hc)
  | send hc => exact .send (getElem?_of_isPrefix h hc)

lemma Brings.mono (h : s.created <+: s'.created)
    (hserves : ∀ (i : ℕ) kind c, s.created[i]? = some (kind, c) → s'.serves c = s.serves c)
    {b : BackendCall} {r : Reply} (hb : s.Brings b r) : s'.Brings b r := by
  cases hb with
  | listened hc => exact .listened (getElem?_of_isPrefix h hc)
  | connected hc => exact .connected (getElem?_of_isPrefix h hc)
  | accepted hc hn =>
    exact .accepted (getElem?_of_isPrefix h hc) ((hserves _ _ _ hc).trans hn)
  | sent => exact .sent
  | configured => exact .configured

lemma Yields.congr {k : ℕ} (haddr : s'.addr k = s.addr k) (hserves : s'.serves k = s.serves k)
    {call : Call} {b : BackendCall} {a : Answer} (h : s.Yields k call b a) :
    s'.Yields k call b a := by
  cases h with
  | listened htext => exact .listened (haddr.trans htext)
  | told htext => exact .told (haddr.trans htext)
  | connected => exact .connected
  | accepted hn => exact .accepted (hserves.trans hn)
  | sent => exact .sent
  | configured => exact .configured

end Congr

/-! ## What a step does to a call -/

/-- Where a future is from that a step of the callers leaves as `f`: it stays, is new, or moves on,
and then has no result that it did not have, and is early only if it was or created a connector. -/
inductive CallerFut (s : Sys) (t : ℕ) (f : Fut) : Prop where
  | kept (hf : s.futs t = some f)
  | started (hnone : s.futs t = none) (hr : ∀ r, f.status.reply = some r → r.isMade = false)
  | moved {g : Fut} (hg : s.futs t = some g)
      (hearly : f.status.isEarly → g.status.isEarly ∨ ∃ h addr, g.op = .ensure h addr)
      (hr : ∀ r, f.status.reply = some r → r.isMade → g.status.reply = some r)

lemma callerFut_start {s s' : Sys} (hfree : s.futs s.fresh = none) {f : Fut}
    (hfuts : s'.futs = Function.update s.futs s.fresh (some f))
    (hr : ∀ r, f.status.reply = some r → r.isMade = false) {t : ℕ} {x : Fut}
    (hx : s'.futs t = some x) : s.CallerFut t x := by
  rw [hfuts] at hx
  by_cases ht : t = s.fresh
  · subst ht
    obtain rfl : f = x := by simpa using hx
    exact .started hfree hr
  · exact .kept (by simpa [Function.update_of_ne ht] using hx)

lemma callerFut_move {s s' : Sys} {u : ℕ} {f g : Fut} (hg : s.futs u = some g)
    (hfuts : s'.futs = Function.update s.futs u (some f))
    (hearly : f.status.isEarly → g.status.isEarly ∨ ∃ h addr, g.op = .ensure h addr)
    (hr : ∀ r, f.status.reply = some r → r.isMade → g.status.reply = some r) {t : ℕ} {x : Fut}
    (hx : s'.futs t = some x) : s.CallerFut t x := by
  rw [hfuts] at hx
  by_cases ht : t = u
  · subst ht
    obtain rfl : f = x := by simpa using hx
    exact .moved hg hearly hr
  · exact .kept (by simpa [Function.update_of_ne ht] using hx)

lemma not_isMade_disconnected (op : Op) : op.disconnected.isMade = false := by
  cases op <;> rfl

lemma callerFut_resolve {s s' : Sys} {u : ℕ} (hstep : s.resolve u = some s') {t : ℕ} {x : Fut}
    (hx : s'.futs t = some x) : s.CallerFut t x := by
  have hdone : ∀ {r : Reply}, (Status.done r).isEarly → False := by simp [Status.isEarly]
  cases resolving_of_resolve hstep with
  | named hf hid hk =>
    refine callerFut_move hf rfl ?_ ?_ hx
    · exact fun h => (hdone h).elim
    · exact fun r hr _ => hr
  | unparsed hf hparses =>
    refine callerFut_move hf rfl (fun h => (hdone h).elim) (fun r hr hmade => ?_) hx
    obtain rfl := Option.some.inj hr
    cases hmade
  | filled hf hy =>
    exact callerFut_move hf rfl (fun _ => .inr ⟨_, _, rfl⟩) (fun r hr => by cases hr) hx
  | returned hf hid =>
    refine callerFut_move hf rfl ?_ ?_ hx
    · exact fun h => (hdone h).elim
    · exact fun r hr _ => hr
  | @disconnected op hf =>
    refine callerFut_move hf rfl (fun h => (hdone h).elim) (fun r hr hmade => ?_) hx
    obtain rfl := Option.some.inj hr
    simp [not_isMade_disconnected] at hmade

lemma callerFut_of_step {s s' : Sys} {a : Action} (hfree : s.futs s.fresh = none)
    (ha : isRemote a = false) (hstep : s.step a = some s') {t : ℕ} {x : Fut}
    (hx : s'.futs t = some x) : s.CallerFut t x := by
  have hsending : ∀ r, Status.sending.reply = some r → r.isMade = false := by
    intro r hr
    cases hr
  cases a with
  | dequeue | poll k | answer k o | resume k | arriveMsg c m | arriveConn c n => cases ha
  | newConnector =>
    obtain ⟨y, -, rfl⟩ := Option.map_eq_some_iff.mp hstep
    exact .kept hx
  | listen p | configure nf =>
    obtain ⟨y, -, rfl⟩ := Option.map_eq_some_iff.mp hstep
    exact callerFut_start hfree rfl hsending hx
  | connect h addr =>
    obtain ⟨y, -, rfl⟩ := Option.map_eq_some_iff.mp hstep
    split at hx
    · exact callerFut_start hfree rfl hsending hx
    · refine callerFut_start hfree rfl (fun r hr => ?_) hx
      split at hr <;> cases hr
  | accept h =>
    obtain ⟨id, -, -, rfl⟩ := startAccept_cases hstep
    exact callerFut_start hfree rfl hsending hx
  | recv h =>
    obtain ⟨id, -, -, rfl⟩ := startRecv_cases hstep
    exact callerFut_start hfree rfl hsending hx
  | send h m =>
    obtain ⟨id, -, -, ⟨-, rfl⟩ | ⟨-, rfl⟩⟩ := startSend_cases hstep
    · refine callerFut_start hfree rfl (fun r hr => ?_) hx
      obtain rfl := Option.some.inj hr
      rfl
    · exact callerFut_start hfree rfl hsending hx
  | wake u =>
    obtain ⟨j, addr, hf, ⟨id, -, rfl⟩ | ⟨-, -, rfl⟩⟩ := wake_cases hstep
    · exact callerFut_move hf rfl (fun _ => .inl rfl) (fun r hr => by cases hr) hx
    · exact callerFut_move hf rfl (fun _ => .inl rfl) (fun r hr => by cases hr) hx
  | enqueue u =>
    obtain ⟨op, hf, rfl⟩ := enqueue_cases hstep
    exact callerFut_move hf rfl (fun _ => .inl rfl) (fun r hr => by cases hr) hx
  | dropFut u =>
    obtain ⟨op, st, hf, -, rfl⟩ := dropFut_cases hstep
    exact callerFut_move hf rfl (fun h => by cases h) (fun r hr => by cases hr) hx
  | dropHandle h d =>
    obtain ⟨k, id, -, -, -, ⟨-, rfl⟩ | ⟨i, -, rfl⟩⟩ := dropHandle_cases hstep <;> exact .kept hx
  | resolve u => exact callerFut_resolve hstep hx

/-- A command comes into the queue from a future that was sending it, or from a handle. -/
lemma queued_of_step {s s' : Sys} {a : Action} (hstep : s.step a = some s') {c : Command}
    (hc : c ∈ s'.queue) : c ∈ s.queue ∨ (∃ i, c = .release i) ∨
      ∃ t op, c = op.command t ∧ s.futs t = some ⟨op, .sending⟩ := by
  have hadd : ∀ {d : Command}, c ∈ s.queue ++ [d] → c ∈ s.queue ∨ c = d := by simp
  cases a with
  | newConnector | listen p | configure nf =>
    obtain ⟨y, -, rfl⟩ := Option.map_eq_some_iff.mp hstep
    exact .inl hc
  | connect h addr =>
    obtain ⟨y, -, rfl⟩ := Option.map_eq_some_iff.mp hstep
    split at hc <;> exact .inl hc
  | accept h =>
    obtain ⟨id, -, -, rfl⟩ := startAccept_cases hstep
    exact .inl hc
  | recv h =>
    obtain ⟨id, -, -, rfl⟩ := startRecv_cases hstep
    exact .inl hc
  | send h m =>
    obtain ⟨id, -, -, ⟨-, rfl⟩ | ⟨-, rfl⟩⟩ := startSend_cases hstep <;> exact .inl hc
  | wake u =>
    obtain ⟨j, addr, -, ⟨id, -, rfl⟩ | ⟨-, -, rfl⟩⟩ := wake_cases hstep <;> exact .inl hc
  | enqueue u =>
    obtain ⟨op, hf, rfl⟩ := enqueue_cases hstep
    exact (hadd hc).imp_right fun h => .inr ⟨u, op, h, hf⟩
  | dropFut u =>
    obtain ⟨op, st, -, -, rfl⟩ := dropFut_cases hstep
    exact .inl hc
  | dropHandle h d =>
    obtain ⟨k, id, -, -, -, ⟨-, rfl⟩ | ⟨i, -, rfl⟩⟩ := dropHandle_cases hstep
    · exact .inl hc
    · exact (hadd hc).imp_right fun h => .inl ⟨i, h⟩
  | resolve u =>
    cases resolving_of_resolve hstep <;> exact .inl hc
  | dequeue =>
    rw [dequeue_rest hstep] at hc
    exact .inl (List.mem_of_mem_tail hc)
  | poll k =>
    rw [poll_rest hstep] at hc
    exact .inl hc
  | answer k o =>
    obtain ⟨call, r, u, -, -, -, rfl⟩ := answer_cases hstep
    exact .inl hc
  | resume k =>
    rw [resume_rest hstep] at hc
    exact .inl hc
  | arriveMsg d m | arriveConn d n =>
    obtain rfl := Option.some.inj hstep
    exact .inl hc

lemma ticket_command (t : ℕ) (op : Op) : (op.command t).ticket = some t := by
  cases op <;> rfl

/-- The ticket of a task is that of the command that it was spawned for. -/
lemma ticket_of_calls {s : Sys} {c : Command} {call : Call} {t : ℕ} (h : s.calls c = some call)
    (ht : call.ticket = some t) : c.ticket = some t := by
  cases c with
  | recv i u =>
    simp only [calls] at h
    split at h
    · obtain rfl := Option.some.inj h
      cases ht
    · cases h
  | configurePrivateNet nf u =>
    obtain ⟨p, -, rfl⟩ := Option.map_eq_some_iff.mp h
    exact ht
  | connector i u | release i => cases h
  | listen i v n u | connect i addr u | accept i u | send i m u =>
    obtain rfl := Option.some.inj h
    exact ht

/-- A call is ahead of its backend only if it was so before, is new, or was to create a
connector. -/
lemma ahead_of_step {s s' : Sys} {a : Action} (hs : Sound s) (hstep : s.step a = some s') {t : ℕ}
    (h : s'.Ahead t) : s.Ahead t ∨ s.futs t = none ∨ ∃ j addr, s.Calls t (.ensure j addr) := by
  have hfree : s.futs s.fresh = none := hs.base.callers.futs_fresh le_rfl
  cases h with
  | @early f hf hst =>
    cases ha : isRemote a with
    | false =>
      cases callerFut_of_step hfree ha hstep hf with
      | kept hf => exact .inl (.early hf hst)
      | started hnone hr => exact .inr (.inl hnone)
      | @moved g hg hearly hr =>
        rcases hearly hst with hg' | ⟨j, addr, hop⟩
        · exact .inl (.early hg hg')
        · exact .inr (.inr ⟨j, addr, g.status, by rw [hg, ← hop]⟩)
    | true =>
      rcases (passes_of_step hs.tasks.tasks_fresh ha hstep).futs t with hsame | ⟨op, -, hcl | ⟨r, hrep, -⟩⟩
      · exact .inl (.early (hsame ▸ hf) hst)
      · obtain rfl := Option.some.inj (hcl.symm.trans hf)
        cases hst
      · obtain rfl := Option.some.inj (hrep.symm.trans hf)
        cases hst
  | @queued c hc ht =>
    rcases queued_of_step hstep hc with hold | ⟨i, rfl⟩ | ⟨u, op, rfl, hu⟩
    · exact .inl (.queued hold ht)
    · cases ht
    · obtain rfl : u = t := Option.some.inj ((ticket_command u op).symm.trans ht)
      exact .inl (.early hu rfl)
  | @tasked k x hk ht hx =>
    refine .inl ?_
    cases taskStep_of_step hstep hk with
    | kept hk => exact .tasked hk ht hx
    | spawned hq hcall =>
      exact .queued (hq ▸ List.mem_cons_self) (ticket_of_calls hcall ht)
    | issued hold => exact .tasked hold ht (Task.isAhead_issued ▸ hx)
    | answered hold => simp [Task.isAhead_answered] at hx
    | listened hold => simp [Task.isAhead] at hx

/-! ## What the server does for a call -/

/-- The server writes down nothing but what it has made for the task. -/
lemma serve_frame {s u : Sys} {k : ℕ} {call : Call} {o : Outcome} {r : Except CapnpError Answer}
    (h : s.serve k call o = some (u, r)) {j : ℕ} (hj : j ≠ k) :
    u.addr j = s.addr j ∧ u.serves j = s.serves j := by
  unfold serve at h
  dsimp only at h
  repeat' split at h
  all_goals first
    | (obtain ⟨rfl, -⟩ := Prod.mk.inj (Option.some.inj h)
       simp [log, Function.update_of_ne hj])
    | exact absurd h (by simp)

/-- For a `recv` task the server only receives. -/
lemma booked_recv {s u : Sys} {k i : ℕ} {c : Option Cap} {o : Outcome}
    {r : Except CapnpError Answer} (h : s.serve k (.recv i c) o = some (u, r)) :
    ∃ bs, u.backend = s.backend ++ bs ∧ ∀ b ∈ bs, b.isRecv := by
  cases o with
  | rpcErr e =>
    obtain ⟨rfl, -⟩ := serve_rpcErr h
    exact ⟨[], by simp, by simp⟩
  | ok =>
    cases c with
    | none => exact absurd h (by simp [serve])
    | some c =>
      simp only [serve] at h
      split at h
      · obtain ⟨rfl, -⟩ := Prod.mk.inj (Option.some.inj h)
        exact ⟨_, rfl, by simp [BackendCall.isRecv]⟩
      · exact absurd h (by simp)
  | recvErr e =>
    cases c with
    | none => exact absurd h (by simp [serve])
    | some c =>
      obtain ⟨rfl, -⟩ := Prod.mk.inj (Option.some.inj h)
      exact ⟨_, rfl, by simp [BackendCall.isRecv]⟩
  | listening a | connErr e | sendErr e | configErr e =>
    cases c <;> exact absurd h (by simp [serve])

/-- What the server does for the call of a future: it asks nothing of the backend, and then only
tells a published address, or it asks for what the call says, and answers what that brings. -/
inductive Booking (s u : Sys) (k : ℕ) (op : Op) (call : Call) (r : Except CapnpError Answer) :
    Prop where
  | none (hbackend : u.backend = s.backend) (haddr : u.addr = s.addr)
      (hr : ∀ a, r = .ok a → ∃ c t, call = .onionAddr c t ∧ a = .addr (s.addr c))
  | asked {b : BackendCall} (hbackend : u.backend = s.backend ++ [b]) (hb : b.isRecv = false)
      (hasks : s.Asks op b) (hcall : ∀ c t, call ≠ .onionAddr c t)
      (hr : ∀ a, r = .ok a → u.Yields k call b a)

namespace Booking

variable {s u : Sys} {k : ℕ} {op : Op} {call : Call} {o : Outcome} {r : Except CapnpError Answer}

lemma of_error {e : CapnpError} {b : BackendCall} (hb : b.isRecv = false) (hasks : s.Asks op b)
    (hcall : ∀ c t, call ≠ .onionAddr c t) : Booking s (s.log b) k op call (.error e) :=
  .asked rfl hb hasks hcall fun a ha => by cases ha

lemma of_rpcErr {e : CapnpError} (h : s.serve k call (.rpcErr e) = some (u, r)) :
    Booking s u k op call r := by
  obtain ⟨rfl, rfl⟩ := serve_rpcErr h
  exact .none rfl rfl fun a ha => by cases ha

lemma of_listen {p : ListenParams} {c : Option Cap} {t : ℕ}
    (h : s.serve k (.listen c p.virtPort p.nickname t) o = some (u, r)) :
    Booking s u k (.listen p) (.listen c p.virtPort p.nickname t) r := by
  cases o with
  | rpcErr e => exact .of_rpcErr h
  | listening text =>
    cases c with
    | none => exact absurd h (by simp [serve])
    | some c =>
      simp only [serve, ListenParams.received_mk, Option.some.injEq, Prod.mk.injEq] at h
      obtain ⟨rfl, rfl⟩ := h
      refine .asked rfl rfl .listen (by simp) fun a ha => ?_
      obtain rfl := Except.ok.inj ha
      exact .listened (by simp)
  | connErr e =>
    cases c with
    | none => exact absurd h (by simp [serve])
    | some c =>
      simp only [serve, ListenParams.received_mk, Option.some.injEq, Prod.mk.injEq] at h
      obtain ⟨rfl, rfl⟩ := h
      exact .of_error rfl .listen (by simp)
  | ok | sendErr e | recvErr e | configErr e => cases c <;> exact absurd h (by simp [serve])

lemma of_onionAddr {c : Cap} {t : ℕ} (h : s.serve k (.onionAddr c t) o = some (u, r)) :
    Booking s u k op (.onionAddr c t) r := by
  cases o with
  | rpcErr e => exact .of_rpcErr h
  | ok =>
    obtain ⟨rfl, rfl⟩ : s = u ∧ Except.ok (.addr (s.addr c)) = r := by simpa [serve] using h
    refine .none rfl rfl fun a ha => ⟨c, t, rfl, ?_⟩
    exact (Except.ok.inj ha).symm
  | listening a | connErr e | sendErr e | recvErr e | configErr e =>
    exact absurd h (by simp [serve])

lemma of_connect {i j : ℕ} {addr : String} {c : Cap} {t : ℕ}
    (hc : s.created[i]? = some (.connector, c))
    (h : s.serve k (.connect (some c) addr t) o = some (u, r)) :
    Booking s u k (.connect j i addr) (.connect (some c) addr t) r := by
  cases o with
  | rpcErr e => exact .of_rpcErr h
  | ok =>
    simp only [serve] at h
    split at h
    · obtain ⟨rfl, rfl⟩ := Prod.mk.inj (Option.some.inj h)
      refine .asked rfl rfl (.connect hc) (by simp) fun a ha => ?_
      obtain rfl := Except.ok.inj ha
      exact .connected
    · obtain ⟨rfl, rfl⟩ := Prod.mk.inj (Option.some.inj h)
      exact .none rfl rfl fun a ha => by cases ha
  | connErr e =>
    simp only [serve] at h
    split at h
    · obtain ⟨rfl, rfl⟩ := Prod.mk.inj (Option.some.inj h)
      exact .of_error rfl (.connect hc) (by simp)
    · exact absurd h (by simp)
  | listening a | sendErr e | recvErr e | configErr e => exact absurd h (by simp [serve])

lemma of_accept {i j : ℕ} {c : Cap} {t : ℕ} (hc : s.created[i]? = some (.listener, c))
    (h : s.serve k (.accept (some c) t) o = some (u, r)) :
    Booking s u k (.accept j i) (.accept (some c) t) r := by
  cases o with
  | rpcErr e => exact .of_rpcErr h
  | ok =>
    simp only [serve] at h
    split at h
    · obtain ⟨rfl, rfl⟩ := Prod.mk.inj (Option.some.inj h)
      refine .asked rfl rfl (.accept hc) (by simp) fun a ha => ?_
      obtain rfl := Except.ok.inj ha
      exact .accepted (by simp)
    · exact absurd h (by simp)
  | connErr e =>
    obtain ⟨rfl, rfl⟩ := Prod.mk.inj (Option.some.inj h)
    exact .of_error rfl (.accept hc) (by simp)
  | listening a | sendErr e | recvErr e | configErr e => exact absurd h (by simp [serve])

lemma of_send {i j : ℕ} {m : Bytes} {c : Cap} {t : ℕ} (hc : s.created[i]? = some (.channel, c))
    (h : s.serve k (.send (some c) m t) o = some (u, r)) :
    Booking s u k (.send j i m) (.send (some c) m t) r := by
  cases o with
  | rpcErr e => exact .of_rpcErr h
  | ok =>
    obtain ⟨rfl, rfl⟩ := Prod.mk.inj (Option.some.inj h)
    refine .asked rfl rfl (.send hc) (by simp) fun a ha => ?_
    obtain rfl := Except.ok.inj ha
    exact .sent
  | sendErr e =>
    obtain ⟨rfl, rfl⟩ := Prod.mk.inj (Option.some.inj h)
    exact .of_error rfl (.send hc) (by simp)
  | listening a | connErr e | recvErr e | configErr e => exact absurd h (by simp [serve])

lemma of_configure {netFile : Bytes} {c : Cap} {t : ℕ}
    (h : s.serve k (.configure c netFile t) o = some (u, r)) :
    Booking s u k (.configure netFile) (.configure c netFile t) r := by
  cases o with
  | rpcErr e => exact .of_rpcErr h
  | ok =>
    obtain ⟨rfl, rfl⟩ := Prod.mk.inj (Option.some.inj h)
    refine .asked rfl rfl .configure (by simp) fun a ha => ?_
    obtain rfl := Except.ok.inj ha
    exact .configured
  | configErr e =>
    obtain ⟨rfl, rfl⟩ := Prod.mk.inj (Option.some.inj h)
    exact .of_error rfl .configure (by simp)
  | listening a | connErr e | sendErr e | recvErr e => exact absurd h (by simp [serve])

end Booking

lemma booking_of_serve {s u : Sys} {k : ℕ} {op : Op} {call : Call} {o : Outcome}
    {r : Except CapnpError Answer} (hc : s.Carries op call)
    (h : s.serve k call o = some (u, r)) : Booking s u k op call r := by
  cases hc with
  | listen => exact .of_listen h
  | onionAddr => exact .of_onionAddr h
  | configure => exact .of_configure h
  | connect hc => exact .of_connect hc h
  | accept hc => exact .of_accept hc h
  | send hc => exact .of_send hc h

/-! ## What brings a result -/

/-- A step that brings no call a result that it did not have. -/
def KeepsMade (s s' : Sys) : Prop :=
  ∀ t f r, s'.futs t = some f → f.status.reply = some r → r.isMade → s.futs t = some f

lemma keepsMade_of_futs {s s' : Sys} (h : s'.futs = s.futs) : KeepsMade s s' :=
  fun _ _ _ hf _ _ => h ▸ hf

lemma KeepsMade.trans {s u v : Sys} (h : KeepsMade s u) (h' : KeepsMade u v) : KeepsMade s v :=
  fun t f r hf hr hmade => h t f r (h' t f r hf hr hmade) hr hmade

lemma keepsMade_reply (s : Sys) (t : ℕ) {r : Reply} (hr : r.isMade = false) :
    KeepsMade s (s.reply t r) := by
  intro u f r' hf hr' hmade
  rcases reply_cases s t r with ⟨op, -, heq⟩ | ⟨-, heq⟩ <;> rw [heq] at hf
  · rcases futs_setFut hf with ⟨rfl, rfl⟩ | ⟨-, hf⟩
    · obtain rfl := Option.some.inj hr'
      simp [hr] at hmade
    · exact hf
  · exact hf

lemma keepsMade_closeReply (s : Sys) (t : ℕ) : KeepsMade s (s.closeReply t) := by
  intro u f r' hf hr' hmade
  rcases closeReply_cases s t with ⟨op, -, heq⟩ | heq <;> rw [heq] at hf
  · rcases futs_setFut hf with ⟨rfl, rfl⟩ | ⟨-, hf⟩
    · cases hr'
    · exact hf
  · exact hf

lemma keepsMade_closeWaiter (s : Sys) (o : Option ℕ) : KeepsMade s (s.closeWaiter o) := by
  cases o with
  | none => exact keepsMade_of_futs rfl
  | some w => exact keepsMade_closeReply s w

lemma keepsMade_completeRecv (s : Sys) (i : ℕ) (result : Except RecvError Bytes) :
    KeepsMade s (s.completeRecv i result) := by
  generalize hs' : s.completeRecv i result = s'
  cases completed_of_completeRecv hs' with
  | gone hst => exact keepsMade_of_futs rfl
  | kept hst => exact keepsMade_of_futs rfl
  | replied hst hw hacc => exact (keepsMade_of_futs (by rfl)).trans (keepsMade_reply _ _ rfl)

lemma keepsMade_dequeue {s s' : Sys} (hstep : s.dequeue = some s') : KeepsMade s s' := by
  obtain ⟨c, rest, hq, hdeq⟩ := dequeued_of_dequeue hstep
  cases hdeq with
  | created ho => exact (keepsMade_of_futs (by rfl)).trans (keepsMade_reply _ _ rfl)
  | closed => exact (keepsMade_of_futs (by rfl)).trans (keepsMade_closeReply _ _)
  | spawned hne hcall => exact keepsMade_of_futs rfl
  | @received i t =>
    generalize hs' : ({ s with queue := rest } : Sys).onRecv i t = s'
    cases received_of_onRecv hs' with
    | replied hbuf hacc => exact (keepsMade_of_futs (by rfl)).trans (keepsMade_reply _ _ rfl)
    | kept hbuf hacc => exact keepsMade_of_futs rfl
    | joined hbuf hin => exact (keepsMade_of_futs (by rfl)).trans (keepsMade_closeWaiter _ _)
    | spawned hbuf hin =>
      exact ((keepsMade_of_futs (by rfl)).trans (keepsMade_closeWaiter _ _)).trans
        (keepsMade_of_futs rfl)
  | @released i =>
    have hclose := keepsMade_closeWaiter { s with queue := rest } ((s.reg.recvStates i).bind (·.waiter))
    exact (keepsMade_of_futs rfl).trans (hclose.trans (keepsMade_of_futs rfl))
  | refused => exact (keepsMade_of_futs (by rfl)).trans (keepsMade_reply _ _ rfl)

lemma keepsMade_poll {s s' : Sys} {k : ℕ} (hstep : s.poll k = some s') : KeepsMade s s' := by
  unfold poll at hstep
  split at hstep
  · split at hstep <;> obtain rfl := Option.some.inj hstep
    · exact (keepsMade_of_futs (by rfl)).trans (keepsMade_reply _ _ rfl)
    · exact (keepsMade_of_futs (by rfl)).trans (keepsMade_reply _ _ rfl)
    · exact (keepsMade_of_futs (by rfl)).trans (keepsMade_reply _ _ rfl)
    · exact (keepsMade_of_futs (by rfl)).trans (keepsMade_reply _ _ rfl)
    · exact (keepsMade_of_futs (by rfl)).trans (keepsMade_completeRecv _ _ _)
    · exact keepsMade_of_futs (by rw [issue_eq])
  · exact absurd hstep (by simp)

/-- The one result that a step may bring: a task replies `r` to the call `t`, as it was answered. -/
structure Brought (s s' : Sys) (k : ℕ) (call : Call) (a : Answer) (t : ℕ) (r : Reply) : Prop where
  task : s.tasks k = some ⟨call, .answered (.ok a)⟩
  ticket : call.ticket = some t
  brings : ∀ b, s.Yields k call b a → s'.Brings b r
  only : ∀ u f x, s'.futs u = some f → f.status.reply = some x → x.isMade →
    s.futs u = some f ∨ u = t ∧ x = r

lemma made_reply {s v : Sys} (hv : v.futs = s.futs) {t : ℕ} {r : Reply} {u : ℕ} {f : Fut} {x : Reply}
    (hf : (v.reply t r).futs u = some f) (hx : f.status.reply = some x) :
    s.futs u = some f ∨ u = t ∧ x = r := by
  rcases reply_cases v t r with ⟨op, -, heq⟩ | ⟨-, heq⟩ <;> rw [heq] at hf
  · rcases futs_setFut hf with ⟨rfl, rfl⟩ | ⟨-, hf⟩
    · exact .inr ⟨rfl, (Option.some.inj hx).symm⟩
    · exact .inl (hv ▸ hf)
  · exact .inl (hv ▸ hf)

/-- A new object is stored under the next id, which is replied with what the server has made. -/
lemma brought_created {s : Sys} (hs : Sound s) {k : ℕ} {call : Call} {a : Answer} {kind : Kind}
    {c : Cap} {t : ℕ} {r : Reply} (hk : s.tasks k = some ⟨call, .answered (.ok a)⟩)
    (hnew : Creates s.reg.allocId.1 call a kind c t r) :
    Brought s (((s.setTask k none).install kind c).reply t r) k call a t r where
  task := hk
  ticket := hnew.ticket
  only := fun u f x hf hx _ => made_reply (by rfl) hf hx
  brings := fun b hb => by
    obtain rfl : c = k := (hs.tasks.ok k _ hk).creates hnew
    have hnext : s.reg.allocId.1 = s.created.length := hs.base.reg.nextId
    have hid : (s.created ++ [(kind, c)])[s.reg.allocId.1]? = some (kind, c) := by
      rw [hnext, List.getElem?_concat_length]
    refine Brings.mono (s := (s.setTask c none).install kind c) ?_ ?_ ?_
    · exact (reply_rest _ t r).2.1 ▸ List.prefix_rfl
    · obtain ⟨f, hf⟩ := reply_eq ((s.setTask c none).install kind c) t r
      exact fun i kind' d _ => by rw [hf]
    · cases hnew with
      | listener =>
        cases hb with
        | told haddr => exact .listened hid
      | connected =>
        cases hb with
        | connected => exact .connected hid
      | accepted =>
        cases hb with
        | accepted hn => exact .accepted hid hn

lemma brought_of_resume {s s' : Sys} (hs : Sound s) {k : ℕ} (hstep : s.resume k = some s') :
    KeepsMade s s' ∨ ∃ call a t r, Brought s s' k call a t r := by
  have hplain : ∀ {t : ℕ} {r : Reply}, r.isMade = false →
      KeepsMade s ((s.setTask k none).reply t r) := fun hr =>
    (keepsMade_of_futs (by rfl)).trans (keepsMade_reply _ _ hr)
  have hrecv : ∀ {i : ℕ} {result : Except RecvError Bytes},
      KeepsMade s ((s.setTask k none).completeRecv i result) :=
    (keepsMade_of_futs (by rfl)).trans (keepsMade_completeRecv _ _ _)
  unfold resume at hstep
  split at hstep
  · rename_i call x hk
    unfold onAnswer at hstep
    split at hstep <;> first | obtain rfl := Option.some.inj hstep | exact absurd hstep (by simp)
    · exact .inl (keepsMade_of_futs rfl)
    · exact .inl (hplain rfl)
    · exact .inr ⟨_, _, _, _, brought_created hs hk .listener⟩
    · exact .inl (hplain rfl)
    · exact .inr ⟨_, _, _, _, brought_created hs hk .connected⟩
    · exact .inl (hplain rfl)
    · exact .inr ⟨_, _, _, _, brought_created hs hk .accepted⟩
    · exact .inl (hplain rfl)
    · refine .inr ⟨_, _, _, _, hk, rfl, fun b hb => ?_, fun u f x hf hx _ => made_reply (by rfl) hf hx⟩
      cases hb with
      | sent => exact .sent
    · exact .inl (hplain rfl)
    · exact .inl hrecv
    · exact .inl hrecv
    · refine .inr ⟨_, _, _, _, hk, rfl, fun b hb => ?_, fun u f x hf hx _ => made_reply (by rfl) hf hx⟩
      cases hb with
      | configured => exact .configured
    · exact .inl (hplain rfl)
  · exact absurd hstep (by simp)

/-- A call has a result after a step only if it had it before, or a task has just replied it. -/
lemma brought_of_step {s s' : Sys} {a : Action} (hs : Sound s) (ha : isRemote a = true)
    (hstep : s.step a = some s') : KeepsMade s s' ∨ ∃ k call x t r, Brought s s' k call x t r := by
  cases a with
  | dequeue => exact .inl (keepsMade_dequeue hstep)
  | poll k => exact .inl (keepsMade_poll hstep)
  | answer k o =>
    obtain ⟨call, r, u, -, -, -, rfl⟩ := answer_cases hstep
    exact .inl (keepsMade_of_futs rfl)
  | resume k => exact (brought_of_resume hs hstep).imp_right fun h => ⟨k, h⟩
  | arriveMsg c m | arriveConn c n =>
    obtain rfl := Option.some.inj hstep
    exact .inl (keepsMade_of_futs rfl)
  | _ => exact absurd ha (by simp [isRemote])

/-! ## Steps -/

lemma Calls.op_eq {s : Sys} {t : ℕ} {op op' : Op} (h : s.Calls t op) (h' : s.Calls t op') :
    op = op' := by
  obtain ⟨st, h⟩ := h
  obtain ⟨st', h'⟩ := h'
  exact (Fut.mk.inj (Option.some.inj (h.symm.trans h'))).1

lemma Carries.isEnsure {s : Sys} {op : Op} {call : Call} (h : s.Carries op call) :
    op.isEnsure = false := by
  cases h <;> rfl

lemma Asks.isEnsure {s : Sys} {op : Op} {b : BackendCall} (h : s.Asks op b) :
    op.isEnsure = false := by
  cases h <;> rfl

/-- No command makes a task ask for an address at once. -/
lemma calls_ne_onionAddr {s : Sys} (c : Command) {d : Cap} {t : ℕ} :
    s.calls c ≠ some (.onionAddr d t) := by
  intro h
  cases c with
  | recv i u =>
    simp only [calls] at h
    split at h <;> cases h
  | configurePrivateNet nf u =>
    obtain ⟨p, -, hp⟩ := Option.map_eq_some_iff.mp h
    cases hp
  | _ => cases h

namespace Ledger

variable {s s' : Sys} {us : List (ℕ × BackendCall)} {a : Action}

/-- A call that has asked its backend is not put to it again. -/
lemma not_ahead (h : Ledger s us) (hs : Sound s) (hstep : s.step a = some s') {t : ℕ}
    {b : BackendCall} (hb : (t, b) ∈ us) : ¬ s'.Ahead t := by
  intro hahead
  obtain ⟨op, hop, hasks⟩ := h.asks t b hb
  rcases ahead_of_step hs hstep hahead with hold | hnone | ⟨j, addr, hens⟩
  · exact h.ahead t b hb hold
  · obtain ⟨st, hf⟩ := hop
    simp [hnone] at hf
  · obtain rfl := hop.op_eq hens
    cases hasks

/-- While its command is in the queue, a call does not turn to another one. -/
lemma step_queue (h : Ledger s us) (hr : Regular s) (hstep : s.step a = some s') :
    ∀ c ∈ s'.queue, ∀ t, c.ticket = some t → ∃ op, s'.Calls t op ∧ c = op.command t := by
  have hfree : s.futs s.fresh = none := hr.sound.base.callers.futs_fresh le_rfl
  intro c hc t ht
  rcases queued_of_step hstep hc with hold | ⟨i, rfl⟩ | ⟨u, op, rfl, hu⟩
  · obtain ⟨op, ⟨st, hf⟩, hcmd⟩ := h.queue c hold t ht
    obtain ⟨n, hn⟩ := List.mem_iff_getElem?.mp hold
    obtain ⟨f, hf', hopen, -⟩ := hr.tickets.sender (.queue n) t (by simp [senderAt, hn, ht])
    obtain rfl := Option.some.inj (hf.symm.trans hf')
    refine ⟨op, calls_of_stays hfree hstep hf ?_, hcmd⟩
    cases st <;> first | rfl | cases hopen
  · cases ht
  · obtain rfl : u = t := Option.some.inj ((ticket_command u op).symm.trans ht)
    exact ⟨op, calls_of_stays hfree hstep hu rfl, rfl⟩

/-- The task of a command makes the call that the command was sent for. -/
lemma carries_spawned (h : Ledger s us) (hs : Sound s) {c : Command} (hc : c ∈ s.queue) {call : Call}
    (hcall : s.calls c = some call) {t : ℕ} (ht : call.ticket = some t) :
    ∃ op, s.Calls t op ∧ s.Carries op call := by
  obtain ⟨op, hcalls, rfl⟩ := h.queue c hc t (ticket_of_calls hcall ht)
  refine ⟨op, hcalls, ?_⟩
  cases op with
  | ensure j addr => cases hcall
  | listen p =>
    obtain rfl := Option.some.inj hcall
    obtain ⟨cap, hcap, hget⟩ := hs.target hc rfl
    exact (show s.reg.transports bootstrapId = some cap from hget) ▸ .listen hcap
  | configure nf =>
    obtain ⟨p, hp, rfl⟩ := Option.map_eq_some_iff.mp hcall
    exact .configure hp
  | connect j i addr =>
    obtain rfl := Option.some.inj hcall
    obtain ⟨cap, hcap, hget⟩ := hs.target hc rfl
    exact (show s.reg.connectors i = some cap from hget) ▸ .connect hcap
  | accept j i =>
    obtain rfl := Option.some.inj hcall
    obtain ⟨cap, hcap, hget⟩ := hs.target hc rfl
    exact (show s.reg.listeners i = some cap from hget) ▸ .accept hcap
  | send j i m =>
    obtain rfl := Option.some.inj hcall
    obtain ⟨cap, hcap, hget⟩ := hs.target hc rfl
    exact (show s.reg.channels i = some cap from hget) ▸ .send hcap
  | recv j i =>
    simp only [calls, Op.command] at hcall
    split at hcall
    · obtain rfl := Option.some.inj hcall
      cases ht
    · cases hcall

lemma step_carries (h : Ledger s us) (hs : Sound s) (hstep : s.step a = some s') :
    ∀ k x t, s'.tasks k = some x → x.call.ticket = some t →
      ∃ op, s'.Calls t op ∧ s'.Carries op x.call := by
  have hfree : s.futs s.fresh = none := hs.base.callers.futs_fresh le_rfl
  have hmono : ∀ {t call}, (∃ op, s.Calls t op ∧ s.Carries op call) →
      ∃ op, s'.Calls t op ∧ s'.Carries op call :=
    fun ⟨op, hcalls, hcarries⟩ => ⟨op, calls_of_step hfree hstep hcarries.isEnsure hcalls,
      hcarries.mono (step_created hstep) (step_plugin hstep)⟩
  intro k x t hk ht
  refine hmono ?_
  cases taskStep_of_step hstep hk with
  | kept hold => exact h.carries k x t hold ht
  | spawned hq hcall => exact h.carries_spawned hs (hq ▸ List.mem_cons_self) hcall ht
  | issued hold => exact h.carries k ⟨_, .spawned⟩ t hold ht
  | answered hold => exact h.carries k ⟨_, .issued⟩ t hold ht
  | listened hold =>
    obtain ⟨op, hcalls, hcarries⟩ := h.carries k _ t hold ht
    cases hcarries with
    | listen => exact ⟨_, hcalls, .onionAddr⟩

/-- The objects of allocated ids serve what they did. -/
lemma serves_created (hs : Sound s) (hstep : s.step a = some s') {i : ℕ} {kind : Kind} {c : Cap}
    (hc : s.created[i]? = some (kind, c)) : s'.serves c = s.serves c := by
  cases ha : isRemote a with
  | false => rw [(step_caller_rest ha hstep).1]
  | true =>
    cases a with
    | dequeue => rw [dequeue_rest hstep]
    | poll k => rw [poll_rest hstep]
    | answer k o =>
      obtain ⟨call, r, u, hk, -, hserve, rfl⟩ := answer_cases hstep
      refine (serve_frame hserve ?_).2
      rintro rfl
      simp [(hs.tasks.caps i kind c hc).2] at hk
    | resume k => rw [resume_rest hstep]
    | arriveMsg d m | arriveConn d n =>
      obtain rfl := Option.some.inj hstep
      rfl
    | _ => exact absurd ha (by simp [isRemote])

lemma step_made (h : Ledger s us) (hs : Sound s) (hstep : s.step a = some s') :
    ∀ t op st r, s'.futs t = some ⟨op, st⟩ → st.reply = some r → r.isMade →
      ∃ b, (t, b) ∈ us ∧ s'.Brings b r := by
  have hfree : s.futs s.fresh = none := hs.base.callers.futs_fresh le_rfl
  have hmono : ∀ {t r}, (∃ b, (t, b) ∈ us ∧ s.Brings b r) → ∃ b, (t, b) ∈ us ∧ s'.Brings b r :=
    fun ⟨b, hb, hbrings⟩ =>
      ⟨b, hb, hbrings.mono (step_created hstep) fun i kind c hc => serves_created hs hstep hc⟩
  intro t op st r hf hr hmade
  cases ha : isRemote a with
  | false =>
    cases callerFut_of_step hfree ha hstep hf with
    | kept hold => exact hmono (h.made t op st r hold hr hmade)
    | started hnone hno => simp [hno r hr] at hmade
    | @moved g hg hearly hkeep => exact hmono (h.made t g.op g.status r hg (hkeep r hr hmade) hmade)
  | true =>
    rcases brought_of_step hs ha hstep with hkeep | ⟨k, call, x, u, r', hb⟩
    · exact hmono (h.made t op st r (hkeep t _ r hf hr hmade) hr hmade)
    · rcases hb.only t _ r hf hr hmade with hold | ⟨rfl, rfl⟩
      · exact hmono (h.made t op st r hold hr hmade)
      · obtain ⟨b, hmem, hyields⟩ := h.yields k call x t hb.task hb.ticket
        exact ⟨b, hmem, hb.brings b hyields⟩

/-- The books after a step, with what the backend was asked in it. -/
lemma extend (h : Ledger s us) (hr : Regular s) (hstep : s.step a = some s')
    {vs : List (ℕ × BackendCall)} (hone : (vs.map Prod.fst).Nodup)
    (hbackend : (s'.backend.filter fun b => !b.isRecv) =
      (s.backend.filter fun b => !b.isRecv) ++ vs.map Prod.snd)
    (hvs : ∀ t b, (t, b) ∈ vs → s.Ahead t ∧ ¬ s'.Ahead t ∧ ∃ op, s.Calls t op ∧ s.Asks op b)
    (hlistened : ∀ k c t st, s'.tasks k = some ⟨.onionAddr c t, st⟩ →
      c = k ∧ ∃ p, (t, .listen p (.ok (k, s'.addr k))) ∈ us ++ vs)
    (hyields : ∀ k call x t, s'.tasks k = some ⟨call, .answered (.ok x)⟩ → call.ticket = some t →
      ∃ b, (t, b) ∈ us ++ vs ∧ s'.Yields k call b x) : Ledger s' (us ++ vs) where
  backend := by rw [List.map_append, h.backend, hbackend]
  once := by
    rw [List.map_append]
    refine List.nodup_append.mpr ⟨h.once, hone, fun t hus u hv htu => ?_⟩
    obtain ⟨⟨v, b⟩, hb, rfl⟩ := List.mem_map.mp hus
    obtain ⟨⟨w, d⟩, hd, rfl⟩ := List.mem_map.mp hv
    obtain rfl : v = w := htu
    exact h.ahead v b hb (hvs v d hd).1
  asks := fun t b hb => by
    have hfree : s.futs s.fresh = none := hr.sound.base.callers.futs_fresh le_rfl
    have hold : ∃ op, s.Calls t op ∧ s.Asks op b := by
      rcases List.mem_append.mp hb with hb | hb
      · exact h.asks t b hb
      · exact (hvs t b hb).2.2
    obtain ⟨op, hop, hasks⟩ := hold
    exact ⟨op, calls_of_step hfree hstep hasks.isEnsure hop, hasks.mono (step_created hstep)⟩
  made := fun t op st r hf hx hmade => by
    obtain ⟨b, hb, hbrings⟩ := h.step_made hr.sound hstep t op st r hf hx hmade
    exact ⟨b, List.mem_append_left _ hb, hbrings⟩
  ahead := fun t b hb => by
    rcases List.mem_append.mp hb with hb | hb
    · exact h.not_ahead hr.sound hstep hb
    · exact (hvs t b hb).2.1
  queue := h.step_queue hr hstep
  carries := h.step_carries hr.sound hstep
  listened := hlistened
  yields := hyields

/-- Where the server answers nothing, nothing is added to the books. -/
lemma step_unasked (h : Ledger s us) (hr : Regular s) (hstep : s.step a = some s')
    (ha : ∀ k o, a ≠ .answer k o) : Ledger s' us := by
  obtain ⟨hbackend, haddr, hserves⟩ := unserved_of_step hstep ha
  have hsame : Ledger s' (us ++ []) := by
    refine h.extend hr hstep List.nodup_nil (by simp [hbackend]) (by simp) ?_ ?_
    · intro k c t st hk
      rw [List.append_nil, haddr]
      cases taskStep_of_step hstep hk with
      | kept hold => exact h.listened k c t st hold
      | spawned hq hcall => exact absurd hcall (calls_ne_onionAddr _)
      | issued hold => exact h.listened k c t _ hold
      | answered hold => exact absurd rfl (ha k _)
      | listened hold =>
        obtain rfl : c = k := (hr.sound.tasks.ok k _ hold).answered c rfl
        obtain ⟨b, hb, hyields⟩ := h.yields c _ _ t hold rfl
        cases hyields with
        | listened htext => exact ⟨rfl, _, htext ▸ hb⟩
    · intro k call x t hk ht
      rw [List.append_nil]
      cases taskStep_of_step hstep hk with
      | kept hold =>
        obtain ⟨b, hb, hyields⟩ := h.yields k call x t hold ht
        exact ⟨b, hb, hyields.congr (by rw [haddr]) (by rw [hserves])⟩
      | answered hold => exact absurd rfl (ha k _)
  simpa using hsame

/-- A call whose task has just been answered is not ahead of its backend any more. -/
lemma not_ahead_answered (hr : Regular s) {k : ℕ} {call : Call} {st : Stage}
    (hk : s.tasks k = some ⟨call, st⟩) {t : ℕ} (ht : call.ticket = some t)
    (hqueue : s'.queue = s.queue) (hfuts : s'.futs = s.futs) {r : Except CapnpError Answer}
    (htasks : s'.tasks = Function.update s.tasks k (some ⟨call, .answered r⟩)) : ¬ s'.Ahead t := by
  have hat : s.senderAt (.task k) = some t := by simp [senderAt, hk, ht]
  intro hahead
  cases hahead with
  | early hf hst =>
    obtain ⟨g, hg, hopen, -⟩ := hr.tickets.sender _ _ hat
    obtain rfl := Option.some.inj (hg.symm.trans (hfuts ▸ hf))
    revert hst hopen
    cases g.status <;> simp [Status.isEarly, Status.isOpen]
  | @queued c hc hct =>
    obtain ⟨n, hn⟩ := List.mem_iff_getElem?.mp (hqueue ▸ hc)
    have hqueued : s.senderAt (.queue n) = some t := by simp [senderAt, hn, hct]
    cases hr.tickets.unique _ _ t hat hqueued
  | @tasked j x hj hjt hx =>
    rw [htasks] at hj
    rcases update_eq_some hj with ⟨-, heq⟩ | ⟨hne, hj⟩
    · obtain rfl := Option.some.inj heq
      simp [Task.isAhead_answered] at hx
    · have hother : s.senderAt (.task j) = some t := by simp [senderAt, hj, hjt]
      exact hne (Place.task.inj (hr.tickets.unique _ _ t hother hat))

/-- The books after an answer: what has to be said is what the answered task has from them. -/
lemma extend_answered (h : Ledger s us) (hr : Regular s) {k : ℕ} {o : Outcome}
    (hstep : s.step (.answer k o) = some s') {call : Call} {r : Except CapnpError Answer}
    (htasks : s'.tasks = Function.update s.tasks k (some ⟨call, .answered r⟩))
    (hframe : ∀ j, j ≠ k → s'.addr j = s.addr j ∧ s'.serves j = s.serves j)
    {vs : List (ℕ × BackendCall)} (hone : (vs.map Prod.fst).Nodup)
    (hbackend : (s'.backend.filter fun b => !b.isRecv) =
      (s.backend.filter fun b => !b.isRecv) ++ vs.map Prod.snd)
    (hvs : ∀ t b, (t, b) ∈ vs → s.Ahead t ∧ ¬ s'.Ahead t ∧ ∃ op, s.Calls t op ∧ s.Asks op b)
    (hlistened : ∀ c t, call = .onionAddr c t →
      c = k ∧ ∃ p, (t, .listen p (.ok (k, s'.addr k))) ∈ us ++ vs)
    (hyields : ∀ x t, r = .ok x → call.ticket = some t →
      ∃ b, (t, b) ∈ us ++ vs ∧ s'.Yields k call b x) : Ledger s' (us ++ vs) := by
  refine h.extend hr hstep hone hbackend hvs ?_ ?_
  · intro j c t st hj
    rw [htasks] at hj
    rcases update_eq_some hj with ⟨rfl, heq⟩ | ⟨hne, hj⟩
    · obtain ⟨rfl, -⟩ := Task.mk.inj (Option.some.inj heq)
      exact hlistened c t rfl
    · obtain ⟨hc, p, hp⟩ := h.listened j c t st hj
      exact ⟨hc, p, (hframe j hne).1 ▸ List.mem_append_left _ hp⟩
  · intro j call' x t hj ht
    rw [htasks] at hj
    rcases update_eq_some hj with ⟨rfl, heq⟩ | ⟨hne, hj⟩
    · obtain ⟨rfl, hst⟩ := Task.mk.inj (Option.some.inj heq)
      exact hyields x t (Stage.answered.inj hst) ht
    · obtain ⟨b, hb, hy⟩ := h.yields j call' x t hj ht
      exact ⟨b, List.mem_append_left _ hb, hy.congr (hframe j hne).1 (hframe j hne).2⟩

lemma step_asked (h : Ledger s us) (hr : Regular s) {k : ℕ} {o : Outcome}
    (hstep : s.step (.answer k o) = some s') : ∃ vs, Ledger s' (us ++ vs) := by
  obtain ⟨call, r, u, hk, -, hserve, hs'⟩ := answer_cases hstep
  have htasks : s'.tasks = Function.update s.tasks k (some ⟨call, .answered r⟩) := by rw [hs']
  have hbackend : s'.backend = u.backend := by rw [hs']
  have haddr : s'.addr = u.addr := by rw [hs']
  have hserves : s'.serves = u.serves := by rw [hs']
  have hframe : ∀ j, j ≠ k → s'.addr j = s.addr j ∧ s'.serves j = s.serves j := fun j hj =>
    haddr ▸ hserves ▸ serve_frame hserve hj
  cases ht : call.ticket with
  | none =>
    obtain ⟨i, c, rfl⟩ : ∃ i c, call = .recv i c := by
      cases call <;> first | exact ⟨_, _, rfl⟩ | cases ht
    obtain ⟨bs, hbs, hrecv⟩ := booked_recv hserve
    refine ⟨[], h.extend_answered hr hstep htasks hframe List.nodup_nil ?_ (by simp) (by simp)
      (by simp [Call.ticket])⟩
    have hnone : (bs.filter fun b => !b.isRecv) = [] := by simpa using hrecv
    rw [hbackend, hbs, List.filter_append, hnone, List.map_nil]
  | some t =>
    obtain ⟨op, hcalls, hcarries⟩ := h.carries k _ t hk ht
    cases booking_of_serve hcarries hserve with
    | none hsame hsaddr hx =>
      refine ⟨[], h.extend_answered hr hstep htasks hframe List.nodup_nil ?_ (by simp) ?_ ?_⟩
      · rw [hbackend, hsame, List.map_nil, List.append_nil]
      · rintro c v rfl
        rw [haddr, hsaddr, List.append_nil]
        exact h.listened k c v _ hk
      · intro x v hrx hv
        obtain ⟨c, w, rfl, rfl⟩ := hx x hrx
        obtain rfl : w = v := Option.some.inj hv
        obtain ⟨rfl, p, hp⟩ := h.listened k c w _ hk
        exact ⟨_, by simpa using hp, .told (by rw [haddr, hsaddr])⟩
    | @asked b hadd hb hasks hcall hx =>
      refine ⟨[(t, b)], h.extend_answered hr hstep htasks hframe (by simp) ?_ ?_ ?_ ?_⟩
      · simp [hbackend, hadd, List.filter_append, hb]
      · intro v d hvd
        obtain ⟨rfl, rfl⟩ := Prod.mk.inj (List.mem_singleton.mp hvd)
        refine ⟨.tasked hk ht ?_, not_ahead_answered hr hk ht (by rw [hs']) (by rw [hs']) htasks, op,
          hcalls, hasks⟩
        cases call <;> first | rfl | exact absurd rfl (hcall _ _)
      · exact fun c v heq => absurd heq (hcall c v)
      · intro x v hrx hv
        obtain rfl : t = v := Option.some.inj (ht.symm.trans hv)
        exact ⟨b, by simp, (hx x hrx).congr (by rw [haddr]) (by rw [hserves])⟩

end Ledger

lemma ledger_init (cfg : Config) : Ledger (init cfg) [] := by
  refine ⟨⟨?_, ?_, ?_, ?_⟩, ?_, ?_, ?_, ?_, ?_⟩ <;> simp [init]

/-- **The step lemma** of the books: a step only adds to them. -/
theorem step_ledger {s s' : Sys} {a : Action} {us : List (ℕ × BackendCall)} (h : Ledger s us)
    (hr : Regular s) (hstep : s.step a = some s') : ∃ vs, Ledger s' (us ++ vs) := by
  cases a with
  | answer k o => exact h.step_asked hr hstep
  | _ => exact ⟨[], by simpa using h.step_unasked hr hstep (by simp)⟩

/-- **The backend is asked once for each call.**  In every run the calls of the backend that are no
`recv` can be told apart by the calls they were made for: each was made for a call that says so, of
the object behind its handle; no two for the same call; and a call that has returned a result has
asked its backend, and returned what that brought.  Over the rest of the run the books are only
added to, so what is asked for a call that starts later comes later. -/
theorem asked_once {cfg : Config} {as bs : List Action} {s u : Sys}
    (hrun : run step (Sys.init cfg) as = some s) (hrun' : run step s bs = some u)
    (hfew : u.created.length < 2 ^ 64) : ∃ us vs, Booked s us ∧ Booked u (us ++ vs) := by
  obtain ⟨hsteps, hfews⟩ := few_of_run hrun' hfew
  obtain ⟨hr, us, hus⟩ := regular_induction (P := fun _ _ => True) (I := fun v => ∃ us, Ledger v us)
    ⟨[], ledger_init cfg⟩
    (fun v a v' hr _ ⟨us, hus⟩ _ hstep =>
      have ⟨vs, hvs⟩ := step_ledger hus hr hstep
      ⟨us ++ vs, hvs⟩)
    (eachStep_true _ _) hrun hfews
  obtain ⟨-, vs, hvs⟩ := run_induction (I := fun v => Regular v ∧ ∃ vs, Ledger v (us ++ vs))
    (fun v a v' ⟨hr, ws, hws⟩ hlt hstep => by
      obtain ⟨xs, hxs⟩ := step_ledger hws hr hstep
      exact ⟨⟨step_sound hr.sound hstep (hlt v' hstep), step_tickets hr.sound hr.tickets hstep⟩,
        ws ++ xs, by rwa [← List.append_assoc]⟩)
    ⟨hr, [], by rwa [List.append_nil]⟩ hsteps hrun'
  exact ⟨us, vs, hus.toBooked, hvs.toBooked⟩

/-- A message is sent; the call of a second one is dropped when its command is in the queue. -/
theorem asked_once_dropped :
    let first := [.send 0 [1], .enqueue 2, .dequeue, .poll 3, .answer 3 .ok, .resume 3, .resolve 2]
    let second := [.send 0 [2], .enqueue 4, .dropFut 4, .dequeue, .poll 5, .answer 5 .ok, .resume 5]
    ∃ s u us vs, run step (Sys.init ⟨.channel, 8, fun _ => true, fun _ => true, id⟩) first = some s ∧
      run step s second = some u ∧ Booked s us ∧ Booked u (us ++ vs) ∧
      u.backend = [.send 0 [1] (.ok ()), .send 0 [2] (.ok ())] := by
  intro first second
  obtain ⟨s, u, hrun, hrun', hfew, hbackend⟩ : ∃ s u,
      run step (Sys.init ⟨.channel, 8, fun _ => true, fun _ => true, id⟩) first = some s ∧
      run step s second = some u ∧ u.created.length < 2 ^ 64 ∧
      u.backend = [.send 0 [1] (.ok ()), .send 0 [2] (.ok ())] :=
    ⟨_, _, rfl, Option.eq_some_of_isSome (by decide), by decide, by decide⟩
  obtain ⟨us, vs, hus, hvs⟩ := asked_once hrun hrun' hfew
  exact ⟨s, u, us, vs, hrun, hrun', hus, hvs, hbackend⟩

end Sys

end FungiTransport
