import FungiTransport.Capnp.Callers

/-!
# One call after the other

A served channel that is used by one call after the other, each of them awaited to its end, on a
connection that stays up.  At most one call is under way, and its future, its command, its task
and its capnp call take their turns (`Sys.UnderWay`); so the backend sees the calls of the client,
in their order and with their messages, and the client sees the backend's results, relayed by
`relaySend` and `relayRecv` (`Sys.bridge_transparent`).
-/

namespace FungiTransport

open Lib

/-! ## Calls and their results -/

/-- A call on a channel that has ended, with its result. -/
inductive ChannelCall where
  | send (msg : Bytes) (r : Except SendError Unit)
  | recv (r : Except RecvError Bytes)
deriving DecidableEq

/-- The backend's result of a `send` as the client gets it. -/
def relaySend (remoteText : String → String) : Except SendError Unit → Except SendError Unit
  | .ok () => .ok ()
  | .error .closed => .error .closed
  | .error e => .error (.transport (remoteText e.toString))

/-- The backend's result of a `recv` as the client gets it. -/
def relayRecv (remoteText : String → String) : Except RecvError Bytes → Except RecvError Bytes
  | .ok m => .ok m
  | .error .closed => .error .closed
  | .error e => .error (.transport (remoteText e.toString))

namespace ChannelCall

def relay (remoteText : String → String) : ChannelCall → ChannelCall
  | .send m r => .send m (relaySend remoteText r)
  | .recv r => .recv (relayRecv remoteText r)

/-- The message is within the limit of the adapter. -/
def fits (max : ℕ) : ChannelCall → Bool
  | .send m _ => m.length ≤ max
  | .recv _ => true

end ChannelCall

def Fut.channelCall : Fut → Option ChannelCall
  | ⟨.send _ _ m, .done (.send r)⟩ => some (.send m r)
  | ⟨.recv _ _, .done (.recv r)⟩ => some (.recv r)
  | _ => none

def BackendCall.channelCall : BackendCall → Option ChannelCall
  | .send _ m r => some (.send m r)
  | .recv _ r => some (.recv r)
  | .listen _ _ | .connect _ _ _ | .accept _ _ | .configure _ _ => none

/-- The call is one on the channel object. -/
def BackendCall.isOn (c : Cap) : BackendCall → Bool
  | .send d _ _ | .recv d _ => d == c
  | .listen _ _ | .connect _ _ _ | .accept _ _ | .configure _ _ => false

/-- The caller awaits its calls and keeps the channel, and the connection does not fail. -/
def Action.awaited : Action → Bool
  | .dropFut _ | .dropHandle _ _ => false
  | .answer _ o => !o.isRpcErr
  | .newConnector | .listen _ | .configure _ | .connect _ _ | .accept _ | .send _ _ | .recv _
  | .wake _ | .enqueue _ | .resolve _ | .dequeue | .poll _ | .resume _ | .arriveMsg _ _
  | .arriveConn _ _ => true

/-! ## The way of a call -/

/-- How far the call under way has got. -/
inductive Progress where
  | sending
  | queued
  | spawned (k : ℕ)
  | issued (k : ℕ)
  | answered (k : ℕ) (x : Except CapnpError Answer)
  | replied (r : Reply)

/-- A call on the bootstrapped channel. -/
inductive Request where
  | send (msg : Bytes)
  | recv

namespace Request

def op : Request → Op
  | .send m => .send 0 bootstrapId m
  | .recv => .recv 0 bootstrapId

/-- The call that the command's task makes on the served channel. -/
def call (t : ℕ) : Request → Call
  | .send m => .send (some 0) m t
  | .recv => .recv bootstrapId (some 0)

/-- What the client makes of the answer. -/
def result : Request → Except CapnpError Answer → Option ChannelCall
  | .send m, .ok .done => some (.send m (.ok ()))
  | .send m, .error e => some (.send m (.error (mapSendError e)))
  | .recv, .ok (.msg m) => some (.recv (.ok m))
  | .recv, .error e => some (.recv (.error (mapRecvError e)))
  | _, _ => none

/-- The message is within the limit of the adapter. -/
def fits (max : ℕ) : Request → Bool
  | .send m => m.length ≤ max
  | .recv => true

end Request

namespace Progress

def status : Progress → Status
  | .sending => .sending
  | .queued | .spawned _ | .issued _ | .answered _ _ => .waiting
  | .replied r => .replied r

def queue (t : ℕ) (q : Request) : Progress → List Command
  | .queued => [q.op.command t]
  | .sending | .spawned _ | .issued _ | .answered _ _ | .replied _ => []

def stage : Progress → Option (ℕ × Stage)
  | .spawned k => some (k, .spawned)
  | .issued k => some (k, .issued)
  | .answered k x => some (k, .answered x)
  | .sending | .queued | .replied _ => none

def lock : Progress → List ℕ
  | .issued k => [k]
  | .sending | .queued | .spawned _ | .answered _ _ | .replied _ => []

/-- The tasks of the actor: the one of the call under way. -/
def tasks (t : ℕ) (q : Request) (p : Progress) : ℕ → Option Task := fun j =>
  match p.stage with
  | some (k, st) => if j = k then some ⟨q.call t, st⟩ else none
  | none => none

/-- The receive state of the channel: a `recv` under way is what it waits for. -/
def recvState (t : ℕ) : Request → Progress → RecvState
  | .recv, .spawned _ | .recv, .issued _ | .recv, .answered _ _ => ⟨true, some t, []⟩
  | _, _ => .default

lemma eq_spawned {p : Progress} {k : ℕ} (h : p.stage = some (k, .spawned)) : p = .spawned k := by
  cases p <;> simp_all [stage]

lemma eq_issued {p : Progress} {k : ℕ} (h : p.stage = some (k, .issued)) : p = .issued k := by
  cases p <;> simp_all [stage]

lemma eq_answered {p : Progress} {k : ℕ} {x : Except CapnpError Answer}
    (h : p.stage = some (k, .answered x)) : p = .answered k x := by
  cases p <;> simp_all [stage]

/-- The result that is on its way to the caller. -/
def pending (q : Request) : Progress → List ChannelCall
  | .answered _ x => (q.result x).toList
  | .replied r => (Fut.channelCall ⟨q.op, .done r⟩).toList
  | .sending | .queued | .spawned _ | .issued _ => []

end Progress

namespace Sys

/-- The calls of the client that have resolved, in order. -/
def clientCalls (s : Sys) : List ChannelCall :=
  s.resolved.filterMap fun t => (s.futs t).bind Fut.channelCall

/-- The calls of the backend that have ended, in order. -/
def backendCalls (s : Sys) : List ChannelCall := s.backend.filterMap BackendCall.channelCall

/-- All calls but the one under way are done, and what their callers got, or will get, is what the
backend did, but for messages over the limit. -/
structure Relays (s : Sys) (live : Option ℕ) (pending : List ChannelCall) : Prop where
  handles : s.handles = Function.update (fun _ => none) 0 (some ⟨.channel, some bootstrapId, true⟩)
  channel : s.reg.channels bootstrapId = some 0
  lt : ∀ t f, s.futs t = some f → t < s.fresh
  done : ∀ t f, s.futs t = some f → live ≠ some t → ∃ r, f.status = .done r
  resolved : ∀ t ∈ s.resolved, t < s.fresh ∧ live ≠ some t
  served : ∀ b ∈ s.backend, b.isOn 0
  relayed : s.clientCalls.filter (·.fits s.cfg.maxMsgLen) ++ pending =
    s.backendCalls.map (·.relay s.cfg.remoteText)
  tooLarge : ∀ m r, .send m r ∈ s.clientCalls → s.cfg.maxMsgLen < m.length →
    r = .error (.tooLarge s.cfg.maxMsgLen)

/-- No call is under way. -/
structure Resting (s : Sys) : Prop where
  relays : Relays s none []
  queue : s.queue = []
  tasks : ∀ k, s.tasks k = none
  lock : s.lock 0 = []
  recvState : (s.reg.recvStates bootstrapId).getD .default = .default

/-- One call is under way, and everything about it is as its progress says. -/
structure UnderWay (s : Sys) (t : ℕ) (q : Request) (p : Progress) : Prop where
  relays : Relays s (some t) (p.pending q)
  fits : q.fits s.cfg.maxMsgLen
  fut : s.futs t = some ⟨q.op, p.status⟩
  queue : s.queue = p.queue t q
  tasks : s.tasks = p.tasks t q
  lock : s.lock 0 = p.lock
  recvState : (s.reg.recvStates bootstrapId).getD .default = p.recvState t q

/-- What holds when calls are made one after the other. -/
inductive Sequential (s : Sys) : Prop where
  | resting (h : Resting s)
  | underWay {t : ℕ} {q : Request} {p : Progress} (h : UnderWay s t q p)

/-! ## What the callers got -/

lemma clientCalls_congr {s s' : Sys} (hresolved : s'.resolved = s.resolved)
    (hfuts : ∀ t ∈ s.resolved, s'.futs t = s.futs t) : s'.clientCalls = s.clientCalls := by
  unfold clientCalls
  rw [hresolved]
  exact List.filterMap_congr fun t ht => by rw [hfuts t ht]

/-- Nothing that the callers or the backend see has changed. -/
lemma Relays.congr {s s' : Sys} {live : Option ℕ} {pending : List ChannelCall}
    (h : Relays s live pending) (hcfg : s'.cfg = s.cfg) (hhandles : s'.handles = s.handles)
    (hchannel : s'.reg.channels bootstrapId = s.reg.channels bootstrapId)
    (hfresh : s.fresh ≤ s'.fresh) (hfuts : s'.futs = s.futs) (hresolved : s'.resolved = s.resolved)
    (hbackend : s'.backend = s.backend) : Relays s' live pending := by
  have hclient : s'.clientCalls = s.clientCalls :=
    clientCalls_congr hresolved fun t _ => by rw [hfuts]
  have hback : s'.backendCalls = s.backendCalls := by rw [backendCalls, hbackend, backendCalls]
  exact
    { handles := hhandles ▸ h.handles
      channel := hchannel.trans h.channel
      lt := fun t f hf => (h.lt t f (hfuts ▸ hf)).trans_le hfresh
      done := hfuts ▸ h.done
      resolved := fun t ht => by
        obtain ⟨hlt, hne⟩ := h.resolved t (hresolved ▸ ht)
        exact ⟨hlt.trans_le hfresh, hne⟩
      served := hbackend ▸ h.served
      relayed := by rw [hclient, hback, hcfg]; exact h.relayed
      tooLarge := by rw [hclient, hcfg]; exact h.tooLarge }

/-- The future of the call under way is replaced. -/
lemma Relays.setFut {s : Sys} {t : ℕ} {pending : List ChannelCall} (h : Relays s (some t) pending)
    (ht : t < s.fresh) (f : Fut) : Relays (s.setFut t f) (some t) pending := by
  have hclient : (s.setFut t f).clientCalls = s.clientCalls := by
    refine clientCalls_congr rfl fun u hu => ?_
    have hut : u ≠ t := fun hut => (h.resolved u hu).2 (by rw [hut])
    exact Function.update_of_ne hut _ _
  exact
    { handles := h.handles
      channel := h.channel
      lt := fun u g hu => by
        rcases futs_setFut hu with ⟨rfl, -⟩ | ⟨-, hu'⟩
        · exact ht
        · exact h.lt u g hu'
      done := fun u g hu hne => by
        rcases futs_setFut hu with ⟨rfl, -⟩ | ⟨-, hu'⟩
        · exact absurd rfl hne
        · exact h.done u g hu' hne
      resolved := h.resolved
      served := h.served
      relayed := by rw [hclient]; exact h.relayed
      tooLarge := by rw [hclient]; exact h.tooLarge }

/-- A call gets its ticket. -/
lemma Relays.next {s : Sys} (h : Relays s none []) :
    Relays { s with fresh := s.fresh + 1 } (some s.fresh) [] where
  handles := h.handles
  channel := h.channel
  lt := fun t f hf => (h.lt t f hf).trans (Nat.lt_succ_self _)
  done := fun t f hf _ => h.done t f hf (by simp)
  resolved := fun t ht => by
    obtain ⟨hlt, -⟩ := h.resolved t ht
    exact ⟨hlt.trans (Nat.lt_succ_self _), by simpa using hlt.ne'⟩
  served := h.served
  relayed := h.relayed
  tooLarge := h.tooLarge

lemma clientCalls_done {s : Sys} {t : ℕ} {op : Op} {r : Reply} (hnew : t ∉ s.resolved) :
    (s.resolveTo t op r).clientCalls =
      s.clientCalls ++ (Fut.channelCall ⟨op, .done r⟩).toList := by
  have hold : s.resolved.filterMap (fun u => ((s.resolveTo t op r).futs u).bind Fut.channelCall) =
      s.clientCalls := by
    refine List.filterMap_congr fun u hu => ?_
    have hut : u ≠ t := fun hut => hnew (hut ▸ hu)
    simp [resolveTo, Sys.setFut, Function.update_of_ne hut]
  have hfut : (s.resolveTo t op r).futs t = some ⟨op, .done r⟩ := by simp [resolveTo, Sys.setFut]
  rw [clientCalls, show (s.resolveTo t op r).resolved = s.resolved ++ [t] from rfl,
    List.filterMap_append, hold]
  congr 1
  cases hcall : Fut.channelCall ⟨op, .done r⟩ <;> simp [hfut, hcall]

/-- The call under way resolves, with what was on its way to it or over the limit. -/
lemma Relays.resolveTo {s : Sys} {t : ℕ} {op : Op} {r : Reply} (h : Relays s (some t)
      ((Fut.channelCall ⟨op, .done r⟩).toList.filter (·.fits s.cfg.maxMsgLen)))
    (ht : t < s.fresh) (hlong : ∀ m x, Fut.channelCall ⟨op, .done r⟩ = some (.send m x) →
      s.cfg.maxMsgLen < m.length → x = .error (.tooLarge s.cfg.maxMsgLen)) :
    Relays (s.resolveTo t op r) none [] := by
  have hnew : t ∉ s.resolved := fun hmem => (h.resolved t hmem).2 rfl
  have hclient : (s.resolveTo t op r).clientCalls =
      s.clientCalls ++ (Fut.channelCall ⟨op, .done r⟩).toList := clientCalls_done hnew
  exact
    { handles := h.handles
      channel := h.channel
      lt := fun u g hu => by
        rcases futs_setFut hu with ⟨rfl, -⟩ | ⟨-, hu'⟩
        · exact ht
        · exact h.lt u g hu'
      done := fun u g hu _ => by
        rcases futs_setFut hu with ⟨-, rfl⟩ | ⟨hut, hu'⟩
        · exact ⟨r, rfl⟩
        · exact h.done u g hu' (by simpa [eq_comm] using hut)
      resolved := fun u hu => by
        rcases List.mem_append.mp hu with hu | hu
        · exact ⟨(h.resolved u hu).1, by simp⟩
        · exact ⟨List.mem_singleton.mp hu ▸ ht, by simp⟩
      served := h.served
      relayed := by
        rw [hclient, List.filter_append, List.append_nil]
        exact h.relayed
      tooLarge := fun m x hmem hlen => by
        rw [hclient] at hmem
        rcases List.mem_append.mp hmem with hmem | hmem
        · exact h.tooLarge m x hmem hlen
        · exact hlong m x (by simpa using hmem) hlen }

/-- A message over the limit is rejected at once. -/
lemma Relays.reject {s : Sys} (h : Relays s none []) {i j : ℕ} {m : Bytes}
    (hlong : s.cfg.maxMsgLen < m.length) :
    Relays { s.start (.send i j m) (.done (.send (.error (.tooLarge s.cfg.maxMsgLen)))) with
      resolved := s.resolved ++ [s.fresh] } none [] := by
  have hnext : Relays { s with fresh := s.fresh + 1 } (some s.fresh)
      ((Fut.channelCall ⟨.send i j m, .done (.send (.error (.tooLarge s.cfg.maxMsgLen)))⟩).toList.filter
        (·.fits s.cfg.maxMsgLen)) := by
    have hnone : [ChannelCall.send m (.error (.tooLarge s.cfg.maxMsgLen))].filter
        (·.fits s.cfg.maxMsgLen) = [] := by
      simp [ChannelCall.fits, hlong]
    show Relays _ _ ([ChannelCall.send m (.error (.tooLarge s.cfg.maxMsgLen))].filter _)
    rw [hnone]
    exact h.next
  refine hnext.resolveTo (Nat.lt_succ_self _) fun m' x hx _ => ?_
  obtain ⟨-, rfl⟩ := ChannelCall.send.inj (Option.some.inj hx)
  rfl

/-! ## The server -/

lemma relaySend_error (s : Sys) (e : SendError) : relaySend s.cfg.remoteText (.error e) =
    .error (mapSendError (s.remote (backendSendErrorToCapnp e))) := by
  cases e <;> rfl

lemma relayRecv_error (s : Sys) (e : RecvError) : relayRecv s.cfg.remoteText (.error e) =
    .error (mapRecvError (s.remote (backendRecvErrorToCapnp e))) := by
  cases e <;> rfl

/-- The backend does the call once, and the client makes of the answer what the bridge relays. -/
lemma serve_relays {s u : Sys} {k t : ℕ} {q : Request} {o : Outcome} {x : Except CapnpError Answer}
    (h : s.serve k (q.call t) o = some (u, x)) (ho : o.isRpcErr = false) :
    ∃ b c, u.backend = s.backend ++ [b] ∧ b.isOn 0 ∧ b.channelCall = some c ∧
      q.result x = some (c.relay s.cfg.remoteText) := by
  cases q with
  | send m =>
    cases o with
    | ok =>
      obtain ⟨rfl, rfl⟩ := Prod.mk.inj (Option.some.inj h)
      exact ⟨_, _, rfl, rfl, rfl, rfl⟩
    | sendErr e =>
      obtain ⟨rfl, rfl⟩ := Prod.mk.inj (Option.some.inj h)
      refine ⟨_, _, rfl, rfl, rfl, ?_⟩
      rw [ChannelCall.relay, relaySend_error]
      rfl
    | rpcErr e => exact absurd ho (by simp [Outcome.isRpcErr])
    | listening a | connErr e | recvErr e | configErr e =>
      exact absurd h (by simp [serve, Request.call])
  | recv =>
    cases o with
    | ok =>
      simp only [serve, Request.call] at h
      split at h
      · obtain ⟨rfl, rfl⟩ := Prod.mk.inj (Option.some.inj h)
        exact ⟨_, _, rfl, rfl, rfl, rfl⟩
      · exact absurd h (by simp)
    | recvErr e =>
      obtain ⟨rfl, rfl⟩ := Prod.mk.inj (Option.some.inj h)
      refine ⟨_, _, rfl, rfl, rfl, ?_⟩
      rw [ChannelCall.relay, relayRecv_error]
      rfl
    | rpcErr e => exact absurd ho (by simp [Outcome.isRpcErr])
    | listening a | connErr e | sendErr e | configErr e =>
      exact absurd h (by simp [serve, Request.call])

/-! ## The turns of a call -/

lemma Relays.liveHandle {s : Sys} {live : Option ℕ} {pending : List ChannelCall}
    (h : Relays s live pending) {j : ℕ} {k : Kind} {x : Handle} (hx : s.liveHandle j k = some x) :
    j = 0 ∧ k = .channel ∧ x.id = some bootstrapId := by
  obtain ⟨hj, -, rfl⟩ := liveHandle_eq_some hx
  rw [h.handles] at hj
  by_cases hj0 : j = 0
  · subst hj0
    obtain rfl : (⟨.channel, some bootstrapId, true⟩ : Handle) = x := by simpa using hj
    exact ⟨rfl, rfl, rfl⟩
  · simp [hj0] at hj

lemma UnderWay.borrowed {s : Sys} {t : ℕ} {q : Request} {p : Progress} (h : UnderWay s t q p) :
    s.borrowed 0 = true := by
  refine List.any_eq_true.mpr ⟨t, List.mem_range.mpr (h.relays.lt t _ h.fut), ?_⟩
  rw [h.fut]
  cases q <;> cases p <;> rfl

lemma underWay_enqueue {s s' : Sys} {t : ℕ} {q : Request} (h : UnderWay s t q .sending)
    (hstep : s.enqueue t = some s') : UnderWay s' t q .queued := by
  have hf : s.futs t = some ⟨q.op, .sending⟩ := h.fut
  rw [enqueue, hf] at hstep
  dsimp only at hstep
  split at hstep
  · obtain rfl := Option.some.inj hstep
    have hset := h.relays.setFut (h.relays.lt t _ hf) ⟨q.op, .waiting⟩
    exact
      { relays := hset.congr rfl rfl rfl le_rfl rfl rfl rfl
        fits := h.fits
        fut := Function.update_self _ _ _
        queue := by
          show s.queue ++ [q.op.command t] = [q.op.command t]
          rw [h.queue]
          rfl
        tasks := h.tasks
        lock := h.lock
        recvState := by
          rw [show Progress.recvState t q .queued = Progress.recvState t q .sending by cases q <;> rfl]
          exact h.recvState }
  · exact absurd hstep (by simp)

lemma tasks_of_ne {t k j : ℕ} {q : Request} {p : Progress} (hp : ∀ i st, p.stage = some (i, st) → i = k)
    (hj : j ≠ k) : p.tasks t q j = none := by
  unfold Progress.tasks
  split
  · rename_i i st hstage
    obtain rfl := hp i st hstage
    exact if_neg hj
  · rfl

/-- The task of the call is all that changes. -/
lemma update_tasks {t k : ℕ} {q : Request} {p p' : Progress} {y : Option Task}
    (hp : ∀ i st, p.stage = some (i, st) → i = k) (hp' : ∀ i st, p'.stage = some (i, st) → i = k)
    (hy : p'.tasks t q k = y) : Function.update (p.tasks t q) k y = p'.tasks t q := by
  funext j
  by_cases hj : j = k
  · subst hj
    simp [hy]
  · rw [Function.update_of_ne hj, tasks_of_ne hp hj, tasks_of_ne hp' hj]

lemma underWay_dequeue {s s' : Sys} {t : ℕ} {q : Request} (h : UnderWay s t q .queued)
    (hstep : s.dequeue = some s') : UnderWay s' t q (.spawned s.fresh) := by
  have hq : s.queue = [q.op.command t] := h.queue
  have htasks : s.tasks = Progress.queued.tasks t q := h.tasks
  rw [dequeue, hq] at hstep
  obtain rfl := Option.some.inj hstep
  cases q with
  | send m =>
    have hchannel : s.reg.channels bootstrapId = some 0 := h.relays.channel
    exact
      { relays := h.relays.congr rfl rfl rfl (Nat.le_succ _) rfl rfl rfl
        fits := h.fits
        fut := h.fut
        queue := rfl
        tasks := by
          show Function.update s.tasks s.fresh
            (some ⟨.send (s.reg.channels bootstrapId) m t, .spawned⟩) = _
          rw [hchannel, htasks]
          exact update_tasks (by simp [Progress.stage]) (by simp [Progress.stage, eq_comm])
            (by simp [Progress.tasks, Progress.stage, Request.call])
        lock := h.lock
        recvState := h.recvState }
  | recv =>
    have hchannel : s.reg.channels bootstrapId = some 0 := h.relays.channel
    have hrecv : (s.reg.recvStates bootstrapId).getD .default = .default := h.recvState
    have heq : ({ s with queue := [] } : Sys).onRecv bootstrapId t =
        { s with
          queue := []
          reg := s.reg.setRecvState bootstrapId ⟨true, some t, []⟩ }.spawn
            (.recv bootstrapId (some 0)) := by
      unfold onRecv
      simp only [hrecv]
      rw [hchannel]
      rfl
    show UnderWay (({ s with queue := [] } : Sys).onRecv bootstrapId t) t .recv _
    rw [heq]
    exact
      { relays := h.relays.congr rfl rfl rfl (Nat.le_succ _) rfl rfl rfl
        fits := h.fits
        fut := h.fut
        queue := rfl
        tasks := by
          show Function.update s.tasks s.fresh (some ⟨.recv bootstrapId (some 0), .spawned⟩) = _
          rw [htasks]
          exact update_tasks (by simp [Progress.stage]) (by simp [Progress.stage, eq_comm])
            (by simp [Progress.tasks, Progress.stage, Request.call])
        lock := h.lock
        recvState := by simp [Sys.spawn, Registry.setRecvState, Progress.recvState] }

lemma underWay_poll {s s' : Sys} {t k : ℕ} {q : Request} (h : UnderWay s t q (.spawned k))
    (hstep : s.poll k = some s') : UnderWay s' t q (.issued k) := by
  have hk : s.tasks k = some ⟨q.call t, .spawned⟩ := by
    rw [h.tasks]
    simp [Progress.tasks, Progress.stage]
  have hmutex : (q.call t).mutex = some 0 := by cases q <;> rfl
  have hs' : s' = s.issue k (q.call t) := by
    rw [poll, hk] at hstep
    cases q <;> exact (Option.some.inj hstep).symm
  rw [hs', issue_eq]
  exact
    { relays := h.relays.congr rfl rfl rfl le_rfl rfl rfl rfl
      fits := h.fits
      fut := h.fut
      queue := h.queue
      tasks := by
        show Function.update s.tasks k _ = _
        rw [h.tasks]
        exact update_tasks (by simp [Progress.stage, eq_comm]) (by simp [Progress.stage, eq_comm])
          (by simp [Progress.tasks, Progress.stage])
      lock := by
        have hlock : s.lock 0 = [] := h.lock
        simp [hmutex, hlock, Progress.lock]
      recvState := by
        rw [show Progress.recvState t q (.issued k) = Progress.recvState t q (.spawned k) by
          cases q <;> rfl]
        exact h.recvState }

lemma underWay_answer {s s' : Sys} {t k : ℕ} {q : Request} {o : Outcome}
    (h : UnderWay s t q (.issued k)) (ho : o.isRpcErr = false) (hstep : s.answer k o = some s') :
    ∃ x, UnderWay s' t q (.answered k x) := by
  obtain ⟨call, x, u, hk, -, hserve, rfl⟩ := answer_cases hstep
  obtain rfl : q.call t = call := by
    rw [h.tasks] at hk
    simpa [Progress.tasks, Progress.stage] using hk
  have hmutex : (q.call t).mutex = some 0 := by cases q <;> rfl
  obtain ⟨b, c, hbackend, hon, hb, hresult⟩ := serve_relays hserve ho
  refine ⟨x, ?_⟩
  exact
    { relays :=
        { handles := h.relays.handles
          channel := h.relays.channel
          lt := h.relays.lt
          done := h.relays.done
          resolved := h.relays.resolved
          served := fun d hd => by
            rcases List.mem_append.mp (hbackend ▸ hd) with hd | hd
            · exact h.relays.served d hd
            · exact List.mem_singleton.mp hd ▸ hon
          relayed := by
            have hold := h.relays.relayed
            have hcalls : u.backendCalls = s.backendCalls ++ [c] := by
              rw [backendCalls, hbackend, List.filterMap_append]
              simp [backendCalls, hb]
            show s.clientCalls.filter _ ++ (q.result x).toList = u.backendCalls.map _
            rw [hresult, hcalls, List.map_append, ← hold]
            simp [Progress.pending]
          tooLarge := h.relays.tooLarge }
      fits := h.fits
      fut := h.fut
      queue := h.queue
      tasks := by
        show Function.update s.tasks k _ = _
        rw [h.tasks]
        exact update_tasks (by simp [Progress.stage, eq_comm]) (by simp [Progress.stage, eq_comm])
          (by simp [Progress.tasks, Progress.stage])
      lock := by
        have hlock : s.lock 0 = [k] := h.lock
        simp [hmutex, hlock, Progress.lock]
      recvState := by
        rw [show Progress.recvState t q (.answered k x) = Progress.recvState t q (.issued k) by
          cases q <;> rfl]
        exact h.recvState }

/-- The `recv` under way gets its result; the receive state is as at the start. -/
lemma completeRecv_waiting {s : Sys} {t i : ℕ} {op : Op} (hf : s.futs t = some ⟨op, .waiting⟩)
    (hst : (s.reg.recvStates i).getD .default = ⟨true, some t, []⟩)
    (result : Except RecvError Bytes) : s.completeRecv i result =
      ({ s with reg := s.reg.setRecvState i .default } : Sys).setFut t
        ⟨op, .replied (.recv result)⟩ := by
  have hsome : s.reg.recvStates i = some ⟨true, some t, []⟩ := by
    cases hrecv : s.reg.recvStates i with
    | none => simp [hrecv, RecvState.default] at hst
    | some st => simpa [hrecv] using hst
  have hacc : s.accepts t = true := accepts_iff.mpr ⟨op, hf⟩
  unfold completeRecv
  simp only [hsome, hacc, if_true]
  exact reply_waiting (s := { s with reg := s.reg.setRecvState i .default }) hf _

/-- The task of the call ends with the reply that it makes of its answer. -/
lemma underWay_resume {s s' : Sys} {t k : ℕ} {q : Request} {x : Except CapnpError Answer}
    (h : UnderWay s t q (.answered k x)) (hstep : s.resume k = some s') :
    ∃ r, UnderWay s' t q (.replied r) := by
  have hk : s.tasks k = some ⟨q.call t, .answered x⟩ := by
    rw [h.tasks]
    simp [Progress.tasks, Progress.stage]
  have hf : (s.setTask k none).futs t = some ⟨q.op, .waiting⟩ := h.fut
  have htasks : ∀ r, Function.update s.tasks k none = (Progress.replied r).tasks t q := fun r => by
    rw [h.tasks]
    exact update_tasks (by simp [Progress.stage, eq_comm]) (by simp [Progress.stage])
      (by simp [Progress.tasks, Progress.stage])
  have hreplied : ∀ (r : Reply) (g : Registry),
      g.channels bootstrapId = s.reg.channels bootstrapId →
      (g.recvStates bootstrapId).getD .default = .default →
      Fut.channelCall ⟨q.op, .done r⟩ = q.result x →
      UnderWay (({ s.setTask k none with reg := g } : Sys).setFut t ⟨q.op, .replied r⟩) t q
        (.replied r) := by
    intro r g hchannel hrecv hcall
    have hset := h.relays.setFut (h.relays.lt t _ h.fut) ⟨q.op, .replied r⟩
    have hpending : (Progress.replied r).pending q = (Progress.answered k x).pending q := by
      show (Fut.channelCall ⟨q.op, .done r⟩).toList = (q.result x).toList
      rw [hcall]
    exact
      { relays := by
          rw [hpending]
          exact hset.congr rfl rfl hchannel le_rfl rfl rfl rfl
        fits := h.fits
        fut := Function.update_self _ _ _
        queue := h.queue
        tasks := htasks r
        lock := h.lock
        recvState := by
          rw [show Progress.recvState t q (.replied r) = .default by cases q <;> rfl]
          exact hrecv }
  have hrecv := h.recvState
  rw [resume, hk] at hstep
  cases q with
  | send m =>
    have hsend : ∀ y : Except SendError Unit, s' = (s.setTask k none).reply t (.send y) →
        Fut.channelCall ⟨(Request.send m).op, .done (.send y)⟩ = (Request.send m).result x →
        ∃ r, UnderWay s' t (.send m) (.replied r) := fun y hs' hcall => by
      rw [hs', reply_waiting hf]
      exact ⟨_, hreplied (.send y) s.reg rfl hrecv hcall⟩
    cases x with
    | error e => exact hsend _ (Option.some.inj hstep).symm rfl
    | ok a =>
      cases a with
      | done => exact hsend _ (Option.some.inj hstep).symm rfl
      | msg b | cap c | addr text => exact absurd hstep (by simp [onAnswer, Request.call])
  | recv =>
    have hstate : ((s.setTask k none).reg.recvStates bootstrapId).getD .default = ⟨true, some t, []⟩ :=
      hrecv
    have hdone : ∀ y : Except RecvError Bytes,
        s' = (s.setTask k none).completeRecv bootstrapId y →
        Fut.channelCall ⟨Request.recv.op, .done (.recv y)⟩ = Request.recv.result x →
        ∃ r, UnderWay s' t .recv (.replied r) := fun y hs' hcall => by
      rw [hs', completeRecv_waiting hf hstate]
      refine ⟨_, hreplied (.recv y) _ rfl ?_ hcall⟩
      simp [Registry.setRecvState, setTask]
    cases x with
    | error e => exact hdone _ (Option.some.inj hstep).symm rfl
    | ok a =>
      cases a with
      | msg b => exact hdone _ (Option.some.inj hstep).symm rfl
      | done | cap c | addr text => exact absurd hstep (by simp [onAnswer, Request.call])

/-- A reply that the call can have got is its result, and that of a call within the limit. -/
lemma Request.fits_channelCall {q : Request} {max : ℕ} (hq : q.fits max) {r : Reply}
    {c : ChannelCall} (hc : Fut.channelCall ⟨q.op, .done r⟩ = some c) : c.fits max := by
  cases q with
  | send m =>
    cases r with
    | send y =>
      obtain rfl := Option.some.inj hc
      exact hq
    | _ => exact absurd hc (by simp [Fut.channelCall, Request.op])
  | recv =>
    cases r with
    | recv y =>
      obtain rfl := Option.some.inj hc
      rfl
    | _ => exact absurd hc (by simp [Fut.channelCall, Request.op])

lemma underWay_resolve {s s' : Sys} {t : ℕ} {q : Request} {r : Reply}
    (h : UnderWay s t q (.replied r)) (hstep : s.resolve t = some s') : Resting s' := by
  have hf : s.futs t = some ⟨q.op, .replied r⟩ := h.fut
  have hfits : ∀ c, Fut.channelCall ⟨q.op, .done r⟩ = some c → c.fits s.cfg.maxMsgLen := fun c hc =>
    Request.fits_channelCall h.fits hc
  -- a call resolves only with a reply of its own kind
  have hs' : s' = s.resolveTo t q.op r := by
    rw [resolve, hf] at hstep
    cases q with
    | send m =>
      cases r with
      | send y => exact (Option.some.inj hstep).symm
      | _ => exact absurd hstep (by simp [onReply, Request.op])
    | recv =>
      cases r with
      | recv y => exact (Option.some.inj hstep).symm
      | _ => exact absurd hstep (by simp [onReply, Request.op])
  have hpending : (Fut.channelCall ⟨q.op, .done r⟩).toList.filter (·.fits s.cfg.maxMsgLen) =
      (Progress.replied r).pending q :=
    List.filter_eq_self.mpr fun c hc => hfits c (by simpa using hc)
  rw [hs']
  exact
    { relays := by
        refine Relays.resolveTo (hpending ▸ h.relays) (h.relays.lt t _ hf) fun m x hx hlong => ?_
        have hfit := hfits _ hx
        simp only [ChannelCall.fits, decide_eq_true_eq] at hfit
        exact absurd hfit (not_le.mpr hlong)
      queue := h.queue
      tasks := fun k => by
        show s.tasks k = none
        rw [h.tasks]
        rfl
      lock := h.lock
      recvState := by
        have hrecv := h.recvState
        rwa [show Progress.recvState t q (.replied r) = .default by cases q <;> rfl] at hrecv }

/-! ## Runs -/

/-- A future is done, or that of the call under way. -/
lemma Sequential.fut {s : Sys} (h : Sequential s) {u : ℕ} {f : Fut} (hu : s.futs u = some f) :
    (∃ r, f.status = .done r) ∨ ∃ q p, UnderWay s u q p ∧ f = ⟨q.op, p.status⟩ := by
  cases h with
  | resting h => exact .inl (h.relays.done u f hu (by simp))
  | @underWay t q p h =>
    by_cases hut : t = u
    · subst hut
      exact .inr ⟨q, p, h, Option.some.inj (hu.symm.trans h.fut)⟩
    · exact .inl (h.relays.done u f hu (by simpa using hut))

lemma Sequential.liveHandle {s : Sys} (h : Sequential s) {j : ℕ} {k : Kind} {x : Handle}
    (hx : s.liveHandle j k = some x) : j = 0 ∧ k = .channel ∧ x.id = some bootstrapId := by
  cases h with
  | resting h => exact h.relays.liveHandle hx
  | underWay h => exact h.relays.liveHandle hx

/-- A call on the channel begins only when no other is under way. -/
lemma Sequential.resting_of_begin {s : Sys} (h : Sequential s) {j id : ℕ}
    (hb : s.borrowed j = false) (hid : (s.liveHandle j .channel).bind (·.id) = some id) :
    Resting s ∧ j = 0 ∧ id = bootstrapId := by
  obtain ⟨x, hx, hxid⟩ := Option.bind_eq_some_iff.mp hid
  obtain ⟨rfl, -, hx'⟩ := h.liveHandle hx
  have hid' : id = bootstrapId := Option.some.inj (hxid.symm.trans hx')
  cases h with
  | resting h => exact ⟨h, rfl, hid'⟩
  | underWay h => exact absurd hb (by simp [h.borrowed])

lemma Resting.start {s : Sys} (h : Resting s) {q : Request} (hq : q.fits s.cfg.maxMsgLen) :
    UnderWay (s.start q.op .sending) s.fresh q .sending :=
  { relays := h.relays.next.setFut (Nat.lt_succ_self _) ⟨q.op, .sending⟩
    fits := hq
    fut := Function.update_self _ _ _
    queue := h.queue
    tasks := funext fun k => h.tasks k
    lock := h.lock
    recvState := by
      rw [show Progress.recvState s.fresh q .sending = .default by cases q <;> rfl]
      exact h.recvState }

lemma Resting.reject {s : Sys} (h : Resting s) {i j : ℕ} {m : Bytes}
    (hlong : s.cfg.maxMsgLen < m.length) :
    Resting { s.start (.send i j m) (.done (.send (.error (.tooLarge s.cfg.maxMsgLen)))) with
      resolved := s.resolved ++ [s.fresh] } :=
  ⟨h.relays.reject hlong, h.queue, h.tasks, h.lock, h.recvState⟩

/-- The world brings messages and connections to the backend. -/
lemma Sequential.arrive {s : Sys} (h : Sequential s) (inbox : Cap → List Bytes)
    (inbound : Cap → List ℕ) : Sequential { s with inbox := inbox, inbound := inbound } := by
  cases h with
  | resting h =>
    exact .resting ⟨h.relays.congr rfl rfl rfl le_rfl rfl rfl rfl, h.queue, h.tasks, h.lock,
      h.recvState⟩
  | underWay h =>
    exact .underWay ⟨h.relays.congr rfl rfl rfl le_rfl rfl rfl rfl, h.fits, h.fut, h.queue, h.tasks,
      h.lock, h.recvState⟩

lemma sequential_caller {s s' : Sys} {a : Action} (h : Sequential s) (hawaited : a.awaited)
    (ha : isRemote a = false) (hstep : s.step a = some s') : Sequential s' := by
  have hkind : ∀ {j : ℕ} {k : Kind} {x : Handle}, k ≠ .channel → s.liveHandle j k = some x → False :=
    fun hk hx => hk (h.liveHandle hx).2.1
  cases a with
  | dequeue | poll k | answer k o | resume k | arriveMsg c m | arriveConn c n =>
    exact absurd ha (by simp [isRemote])
  | dropFut t | dropHandle j d => exact absurd hawaited (by simp [Action.awaited])
  | newConnector | listen p | configure nf | connect j addr =>
    obtain ⟨x, hx, -⟩ := Option.map_eq_some_iff.mp hstep
    exact (hkind (by simp) hx).elim
  | accept j =>
    obtain ⟨id, -, hid, -⟩ := startAccept_cases hstep
    obtain ⟨x, hx, -⟩ := Option.bind_eq_some_iff.mp hid
    exact (hkind (by simp) hx).elim
  | send j m =>
    obtain ⟨id, hb, hid, hs'⟩ := startSend_cases hstep
    obtain ⟨hrest, rfl, rfl⟩ := h.resting_of_begin hb hid
    rcases hs' with ⟨hlong, rfl⟩ | ⟨hshort, rfl⟩
    · exact .resting (hrest.reject hlong)
    · have hfits : (Request.send m).fits s.cfg.maxMsgLen := by
        simpa [Request.fits] using hshort
      exact .underWay (hrest.start hfits)
  | recv j =>
    obtain ⟨id, hb, hid, rfl⟩ := startRecv_cases hstep
    obtain ⟨hrest, rfl, rfl⟩ := h.resting_of_begin hb hid
    exact .underWay (hrest.start (q := .recv) rfl)
  | wake t =>
    -- only a `connect` is ever parked
    obtain ⟨j, addr, hf, -⟩ := wake_cases hstep
    rcases h.fut hf with ⟨r, hr⟩ | ⟨q, p, -, heq⟩
    · exact absurd hr (by simp)
    · cases q <;> exact absurd (Fut.mk.inj heq).1 (by simp [Request.op])
  | enqueue t =>
    obtain ⟨op, hf, -⟩ := enqueue_cases hstep
    rcases h.fut hf with ⟨r, hr⟩ | ⟨q, p, hway, heq⟩
    · exact absurd hr (by simp)
    · cases p with
      | sending => exact .underWay (underWay_enqueue hway hstep)
      | _ => exact absurd (Fut.mk.inj heq).2 (by simp [Progress.status])
  | resolve t =>
    obtain ⟨op, st, hf, hst⟩ := (resolving_of_resolve hstep).fut
    rcases h.fut hf with ⟨r, rfl⟩ | ⟨q, p, hway, heq⟩
    · simp at hst
    · obtain ⟨-, rfl⟩ := Fut.mk.inj heq
      cases p with
      | replied y => exact .resting (underWay_resolve hway hstep)
      | _ => simp [Progress.status] at hst

/-- A task of the actor is the one of the call under way. -/
lemma Sequential.task {s : Sys} (h : Sequential s) {k : ℕ} {call : Call} {st : Stage}
    (hk : s.tasks k = some ⟨call, st⟩) :
    ∃ t q p, UnderWay s t q p ∧ p.stage = some (k, st) ∧ call = q.call t := by
  cases h with
  | resting h => exact absurd hk (by simp [h.tasks])
  | @underWay t q p h =>
    rw [h.tasks, Progress.tasks] at hk
    split at hk
    · rename_i j st' hstage
      split at hk
      · rename_i hkj
        obtain ⟨rfl, rfl⟩ := Task.mk.inj (Option.some.inj hk)
        exact ⟨t, q, p, h, hkj ▸ hstage, rfl⟩
      · exact absurd hk (by simp)
    · exact absurd hk (by simp)

/-- A step keeps the calls in their turns. -/
theorem step_sequential {s s' : Sys} {a : Action} (h : Sequential s) (hawaited : a.awaited)
    (hstep : s.step a = some s') : Sequential s' := by
  cases ha : isRemote a with
  | false => exact sequential_caller h hawaited ha hstep
  | true =>
    cases a with
    | dequeue =>
      cases h with
      | resting h => exact absurd hstep (by simp [step, dequeue, h.queue])
      | @underWay t q p h =>
        cases p with
        | queued => exact .underWay (underWay_dequeue h hstep)
        | _ => exact absurd hstep (by simp [step, dequeue, h.queue, Progress.queue])
    | poll k =>
      have hk : ∃ call, s.tasks k = some ⟨call, .spawned⟩ := by
        cases polled_of_poll hstep <;> exact ⟨_, ‹_›⟩
      obtain ⟨call, hk⟩ := hk
      obtain ⟨t, q, p, hway, hstage, -⟩ := h.task hk
      obtain rfl := Progress.eq_spawned hstage
      exact .underWay (underWay_poll hway hstep)
    | answer k o =>
      obtain ⟨call, r, u, hk, -⟩ := answer_cases hstep
      obtain ⟨t, q, p, hway, hstage, -⟩ := h.task hk
      obtain rfl := Progress.eq_issued hstage
      obtain ⟨x, hx⟩ := underWay_answer hway (by simpa [Action.awaited] using hawaited) hstep
      exact .underWay hx
    | resume k =>
      have hk : ∃ call x, s.tasks k = some ⟨call, .answered x⟩ := by
        cases resumed_of_resume hstep <;> exact ⟨_, _, ‹_›⟩
      obtain ⟨call, x, hk⟩ := hk
      obtain ⟨t, q, p, hway, hstage, -⟩ := h.task hk
      obtain rfl := Progress.eq_answered hstage
      obtain ⟨r, hr⟩ := underWay_resume hway hstep
      exact .underWay hr
    | arriveMsg c m =>
      obtain rfl := Option.some.inj hstep
      exact h.arrive _ s.inbound
    | arriveConn c n =>
      obtain rfl := Option.some.inj hstep
      exact h.arrive s.inbox _
    | _ => exact absurd ha (by simp [isRemote])

lemma sequential_init {cfg : Config} (hboot : cfg.boot = .channel) : Sequential (init cfg) := by
  refine .resting ⟨⟨?_, ?_, ?_, ?_, ?_, ?_, ?_, ?_⟩, rfl, fun _ => rfl, rfl, ?_⟩
  · simp [init, hboot, Bootstrap.kind]
  · simp [init, hboot, Bootstrap.kind, Registry.insert]
  · simp [init]
  · simp [init]
  · simp [init]
  · simp [init]
  · rfl
  · simp [init, clientCalls]
  · simp [init, Registry.new]

lemma Resting.not_borrowed {s : Sys} (h : Resting s) (j : ℕ) : s.borrowed j = false := by
  refine List.any_eq_false.mpr fun t _ ht => ?_
  obtain ⟨f, hf, hlive⟩ := (Option.any_eq_true _ _).mp ht
  obtain ⟨r, hr⟩ := h.relays.done t f hf (by simp)
  simp [hr, Status.live] at hlive

/-- The steps of a call from its start to its end. -/
def callSteps (s : Sys) (a : Action) (o : Outcome) : List Action :=
  [a, .enqueue s.fresh, .dequeue, .poll (s.fresh + 1), .answer (s.fresh + 1) o,
    .resume (s.fresh + 1), .resolve s.fresh]

/-- A `send` that runs to its end. -/
lemma send_runs {s : Sys} (h : Resting s) {m : Bytes} (hm : m.length ≤ s.cfg.maxMsgLen)
    (r : Except SendError Unit) :
    (run step s (s.callSteps (.send 0 m) (match r with | .ok () => .ok | .error e => .sendErr e))).map
      (fun s' => (s'.backend, s'.futs s.fresh)) =
      some (s.backend ++ [.send 0 m r],
        some ⟨.send 0 bootstrapId m, .done (.send (relaySend s.cfg.remoteText r))⟩) := by
  have hchannel := h.relays.channel
  have hlive : s.liveHandle 0 .channel = some ⟨.channel, some bootstrapId, true⟩ := by
    simp [liveHandle, h.relays.handles, Option.filter]
  have hle : ¬ s.cfg.maxMsgLen < m.length := not_lt.mpr hm
  cases r with
  | ok =>
    simp [callSteps, run, step, startSend, h.not_borrowed, hlive, hle, start, setFut, enqueue,
      h.queue, commandQueueDepth, Op.command, dequeue, onCommand, spawn, hchannel, poll, issue,
      Call.mutex, setTask, answer, holds, h.lock, serve, log, resume, onAnswer, reply, accepts,
      Status.isWaiting, setStatus, resolve, onReply, resolveTo, relaySend]
  | error e =>
    simp [callSteps, run, step, startSend, h.not_borrowed, hlive, hle, start, setFut, enqueue,
      h.queue, commandQueueDepth, Op.command, dequeue, onCommand, spawn, hchannel, poll, issue,
      Call.mutex, setTask, answer, holds, h.lock, serve, log, resume, onAnswer, reply, accepts,
      Status.isWaiting, setStatus, resolve, onReply, resolveTo, relaySend_error]
    rfl

/-- A `recv` that runs to its end. -/
lemma recv_runs {s : Sys} (h : Resting s) {r : Except RecvError Bytes}
    (hr : ∀ m, r = .ok m → ∃ rest, s.inbox 0 = m :: rest) :
    (run step s (s.callSteps (.recv 0) (match r with | .ok _ => .ok | .error e => .recvErr e))).map
      (fun s' => (s'.backend, s'.futs s.fresh)) =
      some (s.backend ++ [.recv 0 r],
        some ⟨.recv 0 bootstrapId, .done (.recv (relayRecv s.cfg.remoteText r))⟩) := by
  have hchannel := h.relays.channel
  have hrecv := h.recvState
  have hdefault : RecvState.default.buffer = [] ∧ RecvState.default.inFlight = false ∧
      RecvState.default.waiter = none := ⟨rfl, rfl, rfl⟩
  have hlive : s.liveHandle 0 .channel = some ⟨.channel, some bootstrapId, true⟩ := by
    simp [liveHandle, h.relays.handles, Option.filter]
  cases r with
  | ok m =>
    obtain ⟨rest, hinbox⟩ := hr m rfl
    simp [callSteps, run, step, startRecv, h.not_borrowed, hlive, start, setFut, enqueue, h.queue,
      commandQueueDepth, Op.command, dequeue, onCommand, onRecv, hrecv, hdefault, closeWaiter, spawn,
      hchannel, poll, issue, Call.mutex, setTask, answer, holds, h.lock, serve, hinbox, log, resume,
      onAnswer, completeRecv, Registry.setRecvState, reply, accepts, Status.isWaiting, setStatus,
      resolve, onReply, resolveTo, relayRecv]
  | error e =>
    simp [callSteps, run, step, startRecv, h.not_borrowed, hlive, start, setFut, enqueue, h.queue,
      commandQueueDepth, Op.command, dequeue, onCommand, onRecv, hrecv, hdefault, closeWaiter, spawn,
      hchannel, poll, issue, Call.mutex, setTask, answer, holds, h.lock, serve, log, resume,
      onAnswer, completeRecv, Registry.setRecvState, reply, accepts, Status.isWaiting, setStatus,
      resolve, onReply, resolveTo, relayRecv_error]
    rfl

/-! ## The bridge is transparent -/

/-- No call is under way. -/
def NoCall (s : Sys) : Prop := ∀ t f, s.futs t = some f → f.status.live = false

/-- The backend sees the client's calls and the client the backend's results, as the bridge relays
them. -/
structure Transparent (s : Sys) : Prop where
  /-- The calls within the limit are the backend's, in their order, with their messages and their
  relayed results; at most one of them is still on its way back. -/
  calls : ∃ pending : List ChannelCall, pending.length ≤ 1 ∧ (NoCall s → pending = []) ∧
    s.clientCalls.filter (·.fits s.cfg.maxMsgLen) ++ pending =
      s.backendCalls.map (·.relay s.cfg.remoteText)
  /-- The backend sees nothing else. -/
  served : ∀ b ∈ s.backend, b.isOn 0
  /-- A message over the limit is rejected with the limit. -/
  tooLarge : ∀ m r, .send m r ∈ s.clientCalls → s.cfg.maxMsgLen < m.length →
    r = .error (.tooLarge s.cfg.maxMsgLen)
  /-- It is rejected at once, and reaches neither the actor nor the backend. -/
  rejected : ∀ h m s', s.cfg.maxMsgLen < m.length → s.step (.send h m) = some s' →
    s'.queue = s.queue ∧ s'.tasks = s.tasks ∧ s'.backend = s.backend ∧
      s'.clientCalls = s.clientCalls ++ [.send m (.error (.tooLarge s.cfg.maxMsgLen))]
  /-- Any message within the limit gets through to the backend, and any result back. -/
  sends : NoCall s → ∀ m r, m.length ≤ s.cfg.maxMsgLen → ∃ as s' t, (∀ a ∈ as, a.awaited) ∧
    run step s as = some s' ∧ s'.backend = s.backend ++ [.send 0 m r] ∧
      s'.futs t = some ⟨.send 0 bootstrapId m, .done (.send (relaySend s.cfg.remoteText r))⟩
  /-- The backend's next message gets through to the caller, and any error. -/
  recvs : NoCall s → ∀ r, (∀ m, r = .ok m → ∃ rest, s.inbox 0 = m :: rest) → ∃ as s' t,
    (∀ a ∈ as, a.awaited) ∧ run step s as = some s' ∧ s'.backend = s.backend ++ [.recv 0 r] ∧
      s'.futs t = some ⟨.recv 0 bootstrapId, .done (.recv (relayRecv s.cfg.remoteText r))⟩

lemma UnderWay.not_noCall {s : Sys} {t : ℕ} {q : Request} {p : Progress} (h : UnderWay s t q p) :
    ¬ NoCall s := by
  intro hnone
  have hlive := hnone t _ h.fut
  cases p <;> simp [Progress.status, Status.live] at hlive

lemma Progress.length_pending (q : Request) (p : Progress) : (p.pending q).length ≤ 1 := by
  have htoList : ∀ o : Option ChannelCall, o.toList.length ≤ 1 := fun o => by cases o <;> simp
  cases p with
  | answered k x => exact htoList _
  | replied r => exact htoList _
  | sending | queued | spawned k | issued k => exact Nat.zero_le _

lemma Sequential.calls {s : Sys} (h : Sequential s) : ∃ live pending, Relays s live pending ∧
    pending.length ≤ 1 ∧ (NoCall s → pending = []) := by
  cases h with
  | resting h => exact ⟨none, [], h.relays, Nat.zero_le _, fun _ => rfl⟩
  | underWay h =>
    exact ⟨_, _, h.relays, Progress.length_pending _ _, fun hnone => absurd hnone h.not_noCall⟩

lemma Sequential.resting_of_noCall {s : Sys} (h : Sequential s) (hnone : NoCall s) : Resting s := by
  cases h with
  | resting h => exact h
  | underWay h => exact absurd hnone h.not_noCall

lemma Sequential.rejected {s s' : Sys} (h : Sequential s) {j : ℕ} {m : Bytes}
    (hlong : s.cfg.maxMsgLen < m.length) (hstep : s.step (.send j m) = some s') :
    s'.queue = s.queue ∧ s'.tasks = s.tasks ∧ s'.backend = s.backend ∧
      s'.clientCalls = s.clientCalls ++ [.send m (.error (.tooLarge s.cfg.maxMsgLen))] := by
  obtain ⟨id, hb, hid, ⟨-, rfl⟩ | ⟨hshort, -⟩⟩ := startSend_cases hstep
  · obtain ⟨hrest, -, -⟩ := h.resting_of_begin hb hid
    have hnew : s.fresh ∉ s.resolved := fun hmem =>
      absurd (hrest.relays.resolved _ hmem).1 (lt_irrefl _)
    exact ⟨rfl, rfl, rfl, clientCalls_done (s := { s with fresh := s.fresh + 1 }) hnew⟩
  · exact absurd hlong (not_lt.mpr hshort)

lemma awaited_callSteps {s : Sys} {a : Action} {o : Outcome} (ha : a.awaited)
    (ho : o.isRpcErr = false) : ∀ b ∈ s.callSteps a o, b.awaited := by
  simp only [callSteps, List.forall_mem_cons]
  exact ⟨ha, rfl, rfl, rfl, by simp [Action.awaited, ho], rfl, rfl, by simp⟩

lemma Sequential.transparent {s : Sys} (h : Sequential s) : Transparent s := by
  obtain ⟨live, pending, hrelays, hlen, hnone⟩ := h.calls
  exact
    { calls := ⟨pending, hlen, hnone, hrelays.relayed⟩
      served := hrelays.served
      tooLarge := hrelays.tooLarge
      rejected := fun j m s' hlong hstep => h.rejected hlong hstep
      sends := fun hnone m r hm => by
        have hruns := send_runs (h.resting_of_noCall hnone) hm r
        obtain ⟨s', hrun, hs'⟩ := Option.map_eq_some_iff.mp hruns
        obtain ⟨hbackend, hfut⟩ := Prod.mk.inj hs'
        exact ⟨_, s', _, awaited_callSteps rfl (by cases r <;> rfl), hrun, hbackend, hfut⟩
      recvs := fun hnone r hr => by
        have hruns := recv_runs (h.resting_of_noCall hnone) hr
        obtain ⟨s', hrun, hs'⟩ := Option.map_eq_some_iff.mp hruns
        obtain ⟨hbackend, hfut⟩ := Prod.mk.inj hs'
        exact ⟨_, s', _, awaited_callSteps rfl (by cases r <;> rfl), hrun, hbackend, hfut⟩ }

/-- **The bridge is transparent for completed calls**, but for a backend's own limit: on a
connection that stays up and whose calls are awaited, the backend sees the client's calls and the
client the backend's results, and a backend's `TooLarge` arrives as an opaque error. -/
theorem bridge_transparent {cfg : Config} (hboot : cfg.boot = .channel) {as : List Action} {s : Sys}
    (hawaited : ∀ a ∈ as, a.awaited) (hrun : run step (Sys.init cfg) as = some s) :
    Transparent s := by
  have heach : EachStep step (fun _ a => a.awaited = true) (Sys.init cfg) as :=
    eachStep_iff.mpr fun pre a post u hcut _ => hawaited a (by simp [hcut])
  have hseq : Sequential s :=
    run_induction (fun _ _ _ h ha hstep => step_sequential h ha hstep) (sequential_init hboot)
      heach hrun
  exact hseq.transparent

/-- A served channel, for runs on fixed inputs. -/
def servedConfig : Config where
  boot := .channel
  maxMsgLen := 4
  parses _ := true
  backendParses _ := true
  remoteText t := "remote exception: " ++ t

/-- A send that the backend fails, one over the limit, and a message received. -/
theorem bridge_transparent_mixed :
    ∃ s, run step (init servedConfig) [.send 0 [1, 2], .enqueue 2, .dequeue, .poll 3,
        .answer 3 (.sendErr .closed), .resume 3, .resolve 2, .send 0 [1, 2, 3, 4, 5], .recv 0,
        .enqueue 5, .dequeue, .poll 6, .arriveMsg 0 [7], .answer 6 .ok, .resume 6, .resolve 5] =
      some s ∧ Transparent s := by
  refine ⟨_, Option.eq_some_of_isSome (by decide), ?_⟩
  exact bridge_transparent rfl (by decide) (Option.eq_some_of_isSome (by decide))

/-- A `send` from its start to its end, with a backend that has a lower limit. -/
def tooLargeRun : List Action :=
  [.send 0 [1, 2], .enqueue 2, .dequeue, .poll 3, .answer 3 (.sendErr (.tooLarge 1)), .resume 3,
    .resolve 2]

/-- A backend's `TooLarge` is an opaque error for the client. -/
theorem backend_tooLarge_opaque : (∀ a ∈ tooLargeRun, a.awaited) ∧
    (run step (init servedConfig) tooLargeRun).map (fun s => (s.backendCalls, s.clientCalls)) =
      some ([.send [1, 2] (.error (.tooLarge 1))], [.send [1, 2] (.error (.transport
        "remote exception: message exceeds transport maximum of 1 bytes"))]) := by
  decide

end Sys

end FungiTransport
