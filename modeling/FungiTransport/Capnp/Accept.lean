import FungiTransport.Capnp.Handles
import FungiTransport.Capnp.Origin
import FungiTransport.Capnp.Parcels

/-!
# The way of an inbound connection

A connection that the backend of a listener hands to the server becomes the object of a new
channel: the answered `accept` of a task carries it, the task gives it an id and replies with the
id, and the call returns it.  When the call is still there whenever the backend hands out a
connection for it, and is not dropped before it takes the reply, these places hold all
connections that have arrived, in order, and the rest still waits at the backend
(`Sys.accept_in_order`).  A call that is dropped while the server waits for a connection takes
the next one along (`Sys.connection_swallowed`).
-/

namespace FungiTransport

open Lib

/-- The connection that a backend's `accept` handed to the server. -/
def BackendCall.accepted (o : Cap) : BackendCall → Option ℕ
  | .accept c (.ok n) => if c = o then some n else none
  | _ => none

/-- The object of a new channel that the answer of an `accept` task carries. -/
def Task.conveyed (o : Cap) : Task → Option Cap
  | ⟨.accept (some c) _, .answered (.ok (.cap d))⟩ => if c = o then some d else none
  | _ => none

/-- The task's `accept` was answered with a channel. -/
def Task.accepted : Task → Bool
  | ⟨.accept _ _, .answered (.ok (.cap _))⟩ => true
  | _ => false

/-- The connection that arrives at the backend of a listener. -/
def Action.arrival (o : Cap) : Action → Option ℕ
  | .arriveConn c n => if c = o then some n else none
  | _ => none

/-- The id that a reply to `accept` on listener `i` brings. -/
def acceptedId (i : ℕ) : Op → Reply → Option ℕ
  | .accept _ j, .accept (.ok n) => if j = i then some n else none
  | _, _ => none

lemma acceptedId_eq_some {i : ℕ} {op : Op} {r : Reply} {n : ℕ} (h : acceptedId i op r = some n) :
    ∃ j, op = .accept j i ∧ r = .accept (.ok n) := by
  unfold acceptedId at h
  split at h
  · split at h
    · rename_i j l n' hl
      obtain rfl : n' = n := Option.some.inj h
      exact ⟨j, hl ▸ rfl, rfl⟩
    · exact absurd h (by simp)
  · exact absurd h (by simp)

lemma Task.conveyed_eq_some {o d : Cap} {x : Task} (h : x.conveyed o = some d) :
    ∃ t, x = ⟨.accept (some o) t, .answered (.ok (.cap d))⟩ := by
  unfold Task.conveyed at h
  split at h
  · split at h
    · rename_i c t d' hc
      obtain rfl : d' = d := Option.some.inj h
      exact ⟨t, hc ▸ rfl⟩
    · exact absurd h (by simp)
  · exact absurd h (by simp)

namespace Sys

/-- What the replies to `accept` on listener `i` bring: the ids of new channels. -/
def channelParcel (i : ℕ) : Parcel ℕ where
  kind := .listener
  id := i
  item := acceptedId i
  own := fun op r n hn => by
    obtain ⟨h, rfl, -⟩ := acceptedId_eq_some hn
    exact ⟨rfl, h, rfl⟩
  disconnected := fun op => by cases op <;> rfl
  rejected := fun _ _ _ _ => rfl

/-- The connections that the backend of `o` handed to the server, in order. -/
def taken (s : Sys) (o : Cap) : List ℕ := s.backend.filterMap (BackendCall.accepted o)

def conveyedBy (s : Sys) (o : Cap) (k : ℕ) : Option Cap := (s.tasks k).bind (Task.conveyed o)

/-- The channel objects that the answers of the `accept` tasks on `o` carry. -/
def conveyed (s : Sys) (o : Cap) : List Cap := gather s.fresh (s.conveyedBy o)

/-- The connection behind a registry id. -/
def connection (s : Sys) (j : ℕ) : Option ℕ := (s.created[j]?).bind fun x => s.serves x.2

/-- The ids of the channels that calls of `accept` on listener `i` returned, in the order they
resolved, and then those in the reply slots. -/
def acceptedIds (s : Sys) (i : ℕ) : List ℕ := (channelParcel i).returns s ++ (channelParcel i).slots s

/-- Every connection that the backend handed out is behind an id that was returned or replied, or
is carried by an answer; all in the backend's order. -/
def Accepted (s : Sys) (i : ℕ) (o : Cap) : Prop :=
  (s.taken o).map some = (s.acceptedIds i).map s.connection ++ (s.conveyed o).map s.serves

/-- A call of `accept` on listener `i` waits for its reply when the backend answers it, and is not
dropped from then on until it has taken the reply. -/
def AcceptKept (i : ℕ) (s : Sys) : Action → Prop
  | .answer k .ok => ∀ x ∈ s.tasks k, ∀ t ∈ x.call.ticket, ∀ f ∈ s.futs t,
      f.op.topic = .accept i → f.status = .waiting
  | .dropFut t => ∀ f ∈ s.futs t, f.op.topic = .accept i → (channelParcel i).held f = none ∧
      ∀ k < s.fresh, ∀ x ∈ s.tasks k, x.accepted → x.call.ticket ≠ some t
  | _ => True

instance (i : ℕ) (s : Sys) : DecidablePred (AcceptKept i s)
  | .answer k .ok => inferInstanceAs (Decidable (∀ x ∈ s.tasks k, ∀ t ∈ x.call.ticket,
      ∀ f ∈ s.futs t, f.op.topic = .accept i → f.status = .waiting))
  | .dropFut t => inferInstanceAs (Decidable (∀ f ∈ s.futs t, f.op.topic = .accept i →
      (channelParcel i).held f = none ∧
        ∀ k < s.fresh, ∀ x ∈ s.tasks k, x.accepted → x.call.ticket ≠ some t))
  | .answer _ (.listening _) | .answer _ (.connErr _) | .answer _ (.sendErr _)
  | .answer _ (.recvErr _) | .answer _ (.configErr _) | .answer _ (.rpcErr _) | .newConnector
  | .listen _ | .configure _ | .connect _ _ | .accept _ | .send _ _ | .recv _ | .wake _ | .enqueue _
  | .resolve _ | .dropHandle _ _ | .dequeue | .poll _ | .resume _ | .arriveMsg _ _
  | .arriveConn _ _ => inferInstanceAs (Decidable True)

/-! ## Connections do not change -/

lemma Tasks.conveyedBy_fresh {s : Sys} (h : Tasks s) (o : Cap) {k : ℕ} (hk : s.fresh ≤ k) :
    s.conveyedBy o k = none := by
  cases hx : s.tasks k with
  | none => simp [conveyedBy, hx]
  | some x => exact absurd (h.ok k x hx).lt (not_lt.mpr hk)

/-- Only the answer of an `accept` says which connection an object serves. -/
lemma serves_cases {s s' : Sys} {a : Action} (hstep : s.step a = some s') (c : Cap) :
    s'.serves c = s.serves c ∨ ∃ call, s.tasks c = some ⟨call, .issued⟩ := by
  cases ha : isRemote a with
  | false => exact .inl (by rw [(step_caller_rest ha hstep).1])
  | true =>
    cases a with
    | dequeue => exact .inl (by rw [dequeue_rest hstep])
    | poll k => exact .inl (by rw [poll_rest hstep])
    | answer k o =>
      obtain ⟨call, r, u, hk, -, hserve, rfl⟩ := answer_cases hstep
      rcases serve_cases hserve with ⟨j, d, m, rest, rfl, -, rfl, rfl⟩ |
        ⟨d, t, n, rest, rfl, -, rfl, rfl⟩ | hun
      · exact .inl rfl
      · by_cases hck : c = k
        · exact .inr ⟨_, hck ▸ hk⟩
        · exact .inl (Function.update_of_ne hck _ _)
      · exact .inl (by rw [← hun.serves])
    | resume k => exact .inl (by rw [resume_rest hstep])
    | arriveMsg d m | arriveConn d n =>
      obtain rfl := Option.some.inj hstep
      exact .inl rfl
    | _ => exact absurd ha (by simp [isRemote])

/-- The connection behind an allocated id stays the same. -/
lemma connection_step {s s' : Sys} {a : Action} (hs : Tasks s) (hstep : s.step a = some s') {j : ℕ}
    {n : ℕ} (hj : s.connection j = some n) : s'.connection j = some n := by
  obtain ⟨⟨kind, c⟩, hcreated, hserves⟩ := Option.bind_eq_some_iff.mp hj
  have hcreated' := getElem?_of_isPrefix (step_created hstep) hcreated
  rcases serves_cases hstep c with hsame | ⟨call, hcall⟩
  · simp [connection, hcreated', hsame, hserves]
  · simp [(hs.caps j kind c hcreated).2] at hcall

/-- An answered `accept` is named like the object that it carries. -/
lemma Tasks.conveyedBy_eq_some {s : Sys} (h : Tasks s) {o d : Cap} {k : ℕ}
    (hk : s.conveyedBy o k = some d) :
    d = k ∧ ∃ t, s.tasks k = some ⟨.accept (some o) t, .answered (.ok (.cap k))⟩ := by
  obtain ⟨x, hx, hd⟩ := Option.bind_eq_some_iff.mp hk
  obtain ⟨t, rfl⟩ := Task.conveyed_eq_some hd
  obtain rfl := (h.ok k _ hx).answered d rfl
  exact ⟨rfl, t, hx⟩

lemma serves_step {s s' : Sys} {a : Action} (hs : Tasks s) (hstep : s.step a = some s') (o : Cap) :
    (s.conveyed o).map s'.serves = (s.conveyed o).map s.serves := by
  refine List.map_congr_left fun d hd => ?_
  obtain ⟨k, -, hk⟩ := List.mem_filterMap.mp hd
  obtain ⟨rfl, t, htask⟩ := hs.conveyedBy_eq_some hk
  rcases serves_cases hstep d with hsame | ⟨call, hcall⟩
  · exact hsame
  · simp [htask] at hcall

/-- The ids that count have a connection, and so keep it. -/
lemma Accepted.connections {s s' : Sys} {a : Action} {i : ℕ} {o : Cap} (h : s.Accepted i o)
    (hs : Tasks s) (hstep : s.step a = some s') :
    (s.acceptedIds i).map s'.connection = (s.acceptedIds i).map s.connection := by
  refine List.map_congr_left fun j hj => ?_
  have hmem : s.connection j ∈ (s.taken o).map some := by
    rw [h]
    exact List.mem_append_left _ (List.mem_map_of_mem hj)
  obtain ⟨n, -, hn⟩ := List.mem_map.mp hmem
  rw [connection_step hs hstep hn.symm, hn]

/-- A step that hands out no connection and moves none on. -/
lemma Accepted.congr {s s' : Sys} {a : Action} {i : ℕ} {o : Cap} (h : s.Accepted i o) (hs : Sound s)
    (hs' : Sound s') (hstep : s.step a = some s') (htaken : s'.taken o = s.taken o)
    (hids : s'.acceptedIds i = s.acceptedIds i) (hconveyed : s'.conveyedBy o = s.conveyedBy o) :
    s'.Accepted i o := by
  have hgather : s'.conveyed o = s.conveyed o :=
    gather_congr (congrFun hconveyed) (fun _ hk => hs.tasks.conveyedBy_fresh o hk)
      fun _ hk => hs'.tasks.conveyedBy_fresh o hk
  unfold Accepted
  rw [htaken, hids, hgather, h.connections hs.tasks hstep, serves_step hs.tasks hstep]
  exact h

/-! ## The calls -/

/-- An `accept` task has the sender of a call on its listener. -/
lemma Tickets.acceptTask {s : Sys} (ht : Tickets s) {k t : ℕ} {c : Option Cap} {st : Stage}
    (hk : s.tasks k = some ⟨.accept c t, st⟩) :
    ∃ (j : ℕ) (d : Cap) (f : Fut), c = some d ∧ s.created[j]? = some (.listener, d) ∧
      s.futs t = some f ∧ f.op.topic = .accept j ∧ f.status.isOpen := by
  obtain ⟨f, hf, hopen, x, hx, habout⟩ := ht.sender (.task k) t (by simp [senderAt, hk, Call.ticket])
  obtain rfl := Option.some.inj (hk.symm.trans hx)
  obtain ⟨j, d, hd, hj, htopic⟩ := habout
  exact ⟨j, d, f, hd, hj, hf, htopic, hopen⟩

/-- The call behind an `accept` task on the object of listener `i`. -/
lemma Tickets.acceptCall {s : Sys} (ht : Tickets s) (hs : Tasks s) {i k t : ℕ} {o : Cap} {st : Stage}
    (ho : s.created[i]? = some (.listener, o)) (hk : s.tasks k = some ⟨.accept (some o) t, st⟩) :
    ∃ h fs, s.futs t = some ⟨.accept h i, fs⟩ := by
  obtain ⟨j, d, ⟨op, fs⟩, hd, hj, hf, htopic, -⟩ := ht.acceptTask hk
  obtain rfl := Option.some.inj hd
  obtain rfl := hs.distinct j i _ _ o hj ho
  have htopic' : op.topic = .accept j := htopic
  obtain ⟨h, rfl⟩ : ∃ h, op = .accept h j := by
    cases op <;> simp_all [Op.topic]
  exact ⟨h, fs, hf⟩

/-- What lies in a reply slot of listener `i` belongs to a call on it. -/
lemma heldBy_eq_some {s : Sys} {i t n : ℕ} (h : (channelParcel i).heldBy s t = some n) :
    ∃ j, s.futs t = some ⟨.accept j i, .replied (.accept (.ok n))⟩ := by
  obtain ⟨⟨op, st⟩, hf, hheld⟩ := Option.bind_eq_some_iff.mp h
  obtain ⟨r, hr, hitem⟩ := (channelParcel i).held_eq_some hheld
  obtain ⟨j, hop, rfl⟩ := acceptedId_eq_some hitem
  exact ⟨j, by rw [hf, ← show op = .accept j i from hop, ← show st = _ from hr]⟩

lemma accepted_caller {s s' : Sys} {a : Action} (hs : Sound s) (hs' : Sound s') (ht : Tickets s)
    {i : ℕ} {o : Cap} (ha : isRemote a = false) (hkept : AcceptKept i s a)
    (hstep : s.step a = some s') (h : s.Accepted i o) : s'.Accepted i o := by
  have hrest := (step_caller_rest ha hstep).1
  have hcaller := (channelParcel i).caller hs hs' ht
    (callStep_of_step (hs.base.callers.futs_fresh le_rfl) ha hstep)
    fun t hat => by
      subst hat
      by_contra hne
      obtain ⟨n, hn⟩ := Option.ne_none_iff_exists'.mp hne
      obtain ⟨j, hf⟩ := heldBy_eq_some hn
      have hnone := (hkept _ hf rfl).1
      simp [Parcel.held, channelParcel, acceptedId] at hnone
  exact h.congr hs hs' hstep (by rw [hrest]; rfl) hcaller (by rw [hrest]; rfl)

/-! ## The actor, its tasks and the server -/

/-- A step of the other side that replies with no accepted channel. -/
lemma ReplyStep.quiet {s s' : Sys} {a : Action} (h : s.ReplyStep s' a) (i : ℕ)
    (hno : ∀ k c t d, a = .resume k →
      s.tasks k ≠ some ⟨.accept c t, .answered (.ok (.cap d))⟩) :
    (channelParcel i).heldBy s' = (channelParcel i).heldBy s ∧
      (channelParcel i).returnedBy s' = (channelParcel i).returnedBy s := by
  cases h with
  | kept hfuts =>
    unfold Parcel.heldBy Parcel.returnedBy
    rw [hfuts]
    exact ⟨rfl, rfl⟩
  | closed hf hfuts =>
    unfold Parcel.heldBy Parcel.returnedBy
    rw [hfuts]
    exact ⟨bind_update (by rw [hf]; rfl) rfl, bind_update (by rw [hf]; rfl) rfl⟩
  | @replied t op r hf hfuts hr =>
    have hnone : acceptedId i op r = none := by
      by_contra hne
      obtain ⟨n, hn⟩ := Option.ne_none_iff_exists'.mp hne
      obtain ⟨j, -, hrn⟩ := acceptedId_eq_some hn
      obtain ⟨k, c, d, hak, hk⟩ := hr n hrn
      exact hno k c t d hak hk
    unfold Parcel.heldBy Parcel.returnedBy
    rw [hfuts]
    exact ⟨bind_update (by rw [hf]; rfl) hnone, bind_update (by rw [hf]; rfl) rfl⟩

lemma remote_resolved {s s' : Sys} {a : Action} (ha : isRemote a = true)
    (hstep : s.step a = some s') : s'.resolved = s.resolved := by
  cases a with
  | dequeue => rw [dequeue_rest hstep]
  | poll k => rw [poll_rest hstep]
  | answer k o =>
    obtain ⟨call, r, u, -, -, -, rfl⟩ := answer_cases hstep
    rfl
  | resume k => rw [resume_rest hstep]
  | arriveMsg c m | arriveConn c n =>
    obtain rfl := Option.some.inj hstep
    rfl
  | _ => exact absurd ha (by simp [isRemote])

lemma acceptedIds_remote {s s' : Sys} {a : Action} (hs : Sound s) (hs' : Sound s')
    (ha : isRemote a = true) (hstep : s.step a = some s') (i : ℕ)
    (hno : ∀ k c t d, a = .resume k →
      s.tasks k ≠ some ⟨.accept c t, .answered (.ok (.cap d))⟩) :
    s'.acceptedIds i = s.acceptedIds i := by
  obtain ⟨hheld, hret⟩ := (replyStep_of_step ha hstep).quiet i hno
  exact (channelParcel i).caller_quiet hs hs' hheld hret (remote_resolved ha hstep)

/-- A task comes, goes or moves on that carries no channel of the listener. -/
lemma conveyedBy_update {s s' : Sys} {o : Cap} {k : ℕ} {y : Option Task}
    (htasks : s'.tasks = Function.update s.tasks k y) (hold : s.conveyedBy o k = none)
    (hnew : y.bind (Task.conveyed o) = none) : s'.conveyedBy o = s.conveyedBy o := by
  ext1 j
  unfold conveyedBy at hold ⊢
  rw [htasks]
  by_cases hj : j = k
  · subst hj
    rw [Function.update_self, hold, hnew]
  · rw [Function.update_of_ne hj]

lemma accepted_dequeue {s s' : Sys} (hs : Sound s) (hs' : Sound s') {i : ℕ} {o : Cap}
    (hstep : s.step .dequeue = some s') (h : s.Accepted i o) : s'.Accepted i o := by
  refine h.congr hs hs' hstep (by unfold taken; rw [dequeue_rest hstep])
    (acceptedIds_remote hs hs' rfl hstep i (by simp)) ?_
  rcases tasks_dequeue_cases hstep with ⟨htasks, -⟩ | ⟨c, rest, call, -, -, -, htasks⟩
  · unfold conveyedBy
    rw [htasks]
  · exact conveyedBy_update htasks (by simp [conveyedBy, hs.tasks.tasks_fresh]) (by simp [Task.conveyed])

lemma accepted_poll {s s' : Sys} (hs : Sound s) (hs' : Sound s') {i k : ℕ} {o : Cap}
    (hstep : s.step (.poll k) = some s') (h : s.Accepted i o) : s'.Accepted i o := by
  refine h.congr hs hs' hstep (by unfold taken; rw [poll_rest hstep])
    (acceptedIds_remote hs hs' rfl hstep i (by simp)) ?_
  obtain ⟨call, hk, htasks | htasks⟩ := tasks_poll_cases hstep
  · exact conveyedBy_update htasks (by simp [conveyedBy, hk, Task.conveyed]) rfl
  · exact conveyedBy_update htasks (by simp [conveyedBy, hk, Task.conveyed]) (by simp [Task.conveyed])

/-- The backend of a listener hands out a connection only when its call of `accept` succeeds. -/
lemma serve_accept_ok {s u : Sys} {k t : ℕ} {c : Option Cap} {out : Outcome} {x : Answer}
    (h : s.serve k (.accept c t) out = some (u, .ok x)) : out = .ok := by
  cases out with
  | ok => rfl
  | _ => cases c <;> simp [serve] at h

/-- An answer that brings nothing from a peer hands out no connection. -/
lemma Untaken.taken {s u : Sys} {call : Call} {r : Except CapnpError Answer}
    (h : Untaken s u call r) (o : Cap) : u.taken o = s.taken o := by
  obtain ⟨bs, hbs, hquiet⟩ := h.backend
  have hnone : bs.filterMap (BackendCall.accepted o) = [] := by
    refine List.filterMap_eq_nil_iff.mpr fun b hb => ?_
    unfold BackendCall.accepted
    split
    · exact absurd (hquiet _ hb).1 (by simp [BackendCall.takes])
    · rfl
  unfold Sys.taken
  rw [hbs, List.filterMap_append, hnone, List.append_nil]

lemma Untaken.conveyed {s u : Sys} {call : Call} {r : Except CapnpError Answer}
    (h : Untaken s u call r) (o : Cap) : Task.conveyed o ⟨call, .answered r⟩ = none := by
  by_contra hne
  obtain ⟨d, hd⟩ := Option.ne_none_iff_exists'.mp hne
  obtain ⟨t, heq⟩ := Task.conveyed_eq_some hd
  obtain ⟨hcall, hr⟩ := Task.mk.inj heq
  obtain ⟨e, he⟩ := h.accept _ t hcall
  simp [he] at hr

/-- The calls of the `accept`s of listener `i` that were answered with a channel wait for it. -/
def Awaited (i : ℕ) (s : Sys) : Prop :=
  ∀ k c t d f, s.tasks k = some ⟨.accept c t, .answered (.ok (.cap d))⟩ → s.futs t = some f →
    f.op.topic = .accept i → f.status = .waiting

/-- While a call waits for the backend, no connection is on its way to another one. -/
lemma conveyed_eq_nil {s : Sys} (hs : Sound s) (ht : Tickets s) {i : ℕ} {o : Cap}
    (hwait : Awaited i s) (ho : s.created[i]? = some (.listener, o)) {k t h : ℕ}
    (hk : s.tasks k = some ⟨.accept (some o) t, .issued⟩)
    (hf : s.futs t = some ⟨.accept h i, .waiting⟩) : s.conveyed o = [] := by
  refine gather_eq_nil fun k' => ?_
  by_contra hne
  obtain ⟨d, hd⟩ := Option.ne_none_iff_exists'.mp hne
  obtain ⟨rfl, t', hk'⟩ := hs.tasks.conveyedBy_eq_some hd
  obtain ⟨h', fs, hf'⟩ := ht.acceptCall hs.tasks ho hk'
  obtain rfl : fs = .waiting := hwait d _ t' d _ hk' hf' rfl
  -- both calls are pending on one listener, so they are one, and so are their tasks
  obtain rfl : t' = t := hs.call_unique hf' hf rfl rfl rfl rfl rfl rfl
  have hsame : Place.task d = .task k := ht.unique _ _ t' (by simp [senderAt, hk', Call.ticket])
    (by simp [senderAt, hk, Call.ticket])
  obtain rfl := Place.task.inj hsame
  simp [hk] at hk'

lemma accepted_answer {s s' : Sys} (hs : Sound s) (hs' : Sound s') (ht : Tickets s) {i k : ℕ}
    {o : Cap} {out : Outcome} (hwait : Awaited i s) (hkept : AcceptKept i s (.answer k out))
    (ho : s.created[i]? = some (.listener, o)) (hstep : s.step (.answer k out) = some s')
    (h : s.Accepted i o) : s'.Accepted i o := by
  have hids := acceptedIds_remote hs hs' rfl hstep i (by simp)
  obtain ⟨call, r, u, hk, -, hserve, heq⟩ := answer_cases hstep
  have htasks : s'.tasks = Function.update s.tasks k (some ⟨call, .answered r⟩) := by rw [heq]
  have htaken : s'.taken o = u.taken o := by rw [heq]; rfl
  have hold : s.conveyedBy o k = none := by simp [conveyedBy, hk, Task.conveyed]
  rcases serve_cases hserve with ⟨j, c, m, rest, rfl, -, rfl, rfl⟩ |
    ⟨c, t, n, rest, rfl, -, rfl, rfl⟩ | hun
  · refine h.congr hs hs' hstep ?_ hids (conveyedBy_update htasks hold (by simp [Task.conveyed]))
    rw [htaken]
    simp [taken, Sys.log, BackendCall.accepted]
  · by_cases hco : c = o
    · subst hco
      obtain rfl := serve_accept_ok hserve
      obtain ⟨h', fs, hf⟩ := ht.acceptCall hs.tasks ho hk
      -- the call was not abandoned, so the connection has a caller to go to
      obtain rfl : fs = .waiting := hkept _ hk t rfl _ hf rfl
      have hbefore : s.conveyed c = [] := conveyed_eq_nil hs ht hwait ho hk hf
      -- the answer of `k` is now the only one that carries a connection of this listener
      have hafter : s'.conveyed c = [k] := by
        have hnone : ∀ j, j ≠ k → s'.conveyedBy c j = none := by
          intro j hj
          have hsame : s'.conveyedBy c j = s.conveyedBy c j := by
            simp [conveyedBy, htasks, Function.update_of_ne hj]
          rw [hsame]
          by_contra hne
          obtain ⟨d, hd⟩ := Option.ne_none_iff_exists'.mp hne
          obtain ⟨rfl, t', hj'⟩ := hs.tasks.conveyedBy_eq_some hd
          have hmem : d ∈ s.conveyed c :=
            List.mem_filterMap.mpr ⟨d, List.mem_range.mpr (hs.tasks.ok d _ hj').lt, hd⟩
          simp [hbefore] at hmem
        have hlast : s'.conveyedBy c k = some k := by
          simp [conveyedBy, htasks, Task.conveyed]
        rw [conveyed, gather_single hnone fun _ hj => hs'.tasks.conveyedBy_fresh c hj, hlast]
        rfl
      have hserves : s'.serves k = some n := by simp [heq]
      have htaken' : s'.taken c = s.taken c ++ [n] := by
        rw [htaken]
        simp [taken, Sys.log, BackendCall.accepted]
      unfold Accepted at h ⊢
      rw [htaken', hids, hafter, List.map_append, h, hbefore,
        Accepted.connections h hs.tasks hstep]
      simp [hserves]
    · refine h.congr hs hs' hstep ?_ hids
        (conveyedBy_update htasks hold (by simp [Task.conveyed, hco]))
      rw [htaken]
      simp [taken, Sys.log, BackendCall.accepted, hco]
  · refine h.congr hs hs' hstep (htaken.trans (hun.taken o)) hids ?_
    exact conveyedBy_update htasks hold (by simp [hun.conveyed o])

/-- The end of an `accept` task that was answered with a channel. -/
lemma resume_accept {s s' : Sys} {k t : ℕ} {c : Option Cap} {d : Cap}
    (hk : s.tasks k = some ⟨.accept c t, .answered (.ok (.cap d))⟩) (hstep : s.resume k = some s') :
    s' = ((s.setTask k none).install .channel d).reply t (.accept (.ok s.reg.allocId.1)) := by
  simp only [resume, hk, onAnswer] at hstep
  exact (Option.some.inj hstep).symm

/-- A channel for a call on another listener. -/
lemma acceptedIds_other {s s' : Sys} (hs : Sound s) (hs' : Sound s') {i j k t : ℕ} {d : Cap}
    {c : Option Cap} (hk : s.tasks k = some ⟨.accept c t, .answered (.ok (.cap d))⟩)
    (hstep : s.step (.resume k) = some s') {f : Fut} (hf : s.futs t = some f)
    (htopic : f.op.topic = .accept j) (hji : j ≠ i) : s'.acceptedIds i = s.acceptedIds i := by
  have hnone : acceptedId i f.op (.accept (.ok s.reg.allocId.1)) = none := by
    by_contra hne
    obtain ⟨n, hn⟩ := Option.ne_none_iff_exists'.mp hne
    obtain ⟨l, hop, -⟩ := acceptedId_eq_some hn
    rw [hop] at htopic
    exact hji (Topic.accept.inj htopic).symm
  have hfuts : (channelParcel i).heldBy s' = (channelParcel i).heldBy s ∧
      (channelParcel i).returnedBy s' = (channelParcel i).returnedBy s := by
    rw [resume_accept hk hstep]
    rcases reply_cases ((s.setTask k none).install .channel d) t (.accept (.ok s.reg.allocId.1)) with
      ⟨op, hop, heq⟩ | ⟨-, heq⟩ <;> rw [heq]
    · have hop' : s.futs t = some ⟨op, .waiting⟩ := hop
      obtain rfl := Option.some.inj (hf.symm.trans hop')
      exact ⟨bind_update (by rw [hop]; rfl) hnone, bind_update (by rw [hop]; rfl) rfl⟩
    · exact ⟨rfl, rfl⟩
  exact (channelParcel i).caller_quiet hs hs' hfuts.1 hfuts.2 (remote_resolved rfl hstep)

/-- The channel of a task goes into the slot of the call that waits for it. -/
lemma accepted_replied {s s' : Sys} (hs : Sound s) (hs' : Sound s') (ht : Tickets s) {i k t h : ℕ}
    {o : Cap} (ho : s.created[i]? = some (.listener, o))
    (hk : s.tasks k = some ⟨.accept (some o) t, .answered (.ok (.cap k))⟩)
    (hf : s.futs t = some ⟨.accept h i, .waiting⟩) (hwait : Awaited i s)
    (hstep : s.step (.resume k) = some s') (hacc : s.Accepted i o) : s'.Accepted i o := by
  have hrest := resume_rest hstep
  have heq := resume_accept hk hstep
  have hfuts : s'.futs = Function.update s.futs t
      (some ⟨.accept h i, .replied (.accept (.ok s.reg.allocId.1))⟩) := by
    have hacc : ((s.setTask k none).install .channel k).accepts t = true :=
      accepts_iff.mpr ⟨_, hf⟩
    have hf' : ((s.setTask k none).install .channel k).futs t = some ⟨.accept h i, .waiting⟩ := hf
    rw [heq, reply, if_pos hacc, setStatus, hf']
    rfl
  have hlast : s'.futs t = some ⟨.accept h i, .replied (.accept (.ok s.reg.allocId.1))⟩ := by
    rw [hfuts, Function.update_self]
  have htasks : s'.tasks = Function.update s.tasks k none := by
    rw [heq]
    exact tasks_reply _ _ _
  -- the answer carried the only channel that was on its way
  have hconveyed : ∀ j, j ≠ k → s.conveyedBy o j = none := by
    intro j hj
    by_contra hne
    obtain ⟨d, hd⟩ := Option.ne_none_iff_exists'.mp hne
    obtain ⟨rfl, t', hj'⟩ := hs.tasks.conveyedBy_eq_some hd
    obtain ⟨h', fs, hf'⟩ := ht.acceptCall hs.tasks ho hj'
    obtain rfl : fs = .waiting := hwait d _ t' d _ hj' hf' rfl
    obtain rfl : t' = t := hs.call_unique hf' hf rfl rfl rfl rfl rfl rfl
    exact hj (Place.task.inj (ht.unique (.task d) (.task k) t' (by simp [senderAt, hj', Call.ticket])
      (by simp [senderAt, hk, Call.ticket])))
  have hbefore : s.conveyed o = [k] := by
    rw [conveyed, gather_single hconveyed fun _ hj => hs.tasks.conveyedBy_fresh o hj]
    simp [conveyedBy, hk, Task.conveyed]
  have hafter : s'.conveyed o = [] := by
    refine gather_eq_nil fun j => ?_
    by_cases hj : j = k
    · simp [conveyedBy, htasks, hj]
    · simpa [conveyedBy, htasks, Function.update_of_ne hj] using hconveyed j hj
  have hslots : (channelParcel i).slots s = [] := by
    rw [(channelParcel i).slots_eq hs hf rfl rfl rfl, Parcel.heldBy, hf]
    rfl
  have hslots' : (channelParcel i).slots s' = [s.reg.allocId.1] := by
    rw [(channelParcel i).slots_eq hs' hlast rfl rfl rfl, Parcel.heldBy, hlast]
    simp [Parcel.held, channelParcel, acceptedId]
  have hreturns : (channelParcel i).returns s' = (channelParcel i).returns s := by
    unfold Parcel.returns Parcel.returnedBy
    rw [remote_resolved rfl hstep, hfuts, bind_update (by rw [hf]; rfl) rfl]
  have hids : s'.acceptedIds i = s.acceptedIds i ++ [s.reg.allocId.1] := by
    unfold acceptedIds
    rw [hreturns, hslots', hslots, List.append_nil]
  have hconnection : s'.connection s.reg.allocId.1 = s.serves k := by
    have hid : s.reg.allocId.1 = s.created.length := hs.base.reg.nextId
    have hcreated : s'.created = s.created ++ [(.channel, k)] := by
      rw [heq, created_reply]
      rfl
    have hserves : s'.serves = s.serves := by rw [hrest]
    rw [connection, hcreated, hid, List.getElem?_concat_length, hserves]
    rfl
  have htaken : s'.taken o = s.taken o := by
    unfold taken
    rw [hrest]
  unfold Accepted at hacc ⊢
  rw [htaken, hids, hafter, hacc, hbefore, List.map_append, Accepted.connections hacc hs.tasks hstep]
  simp only [List.map_cons, List.map_nil, List.append_nil, hconnection]

lemma accepted_resume {s s' : Sys} (hs : Sound s) (hs' : Sound s') (ht : Tickets s) {i k : ℕ}
    {o : Cap} (hwait : Awaited i s)
    (hnames : ∀ j c, s.created[j]? = some (.listener, c) → (j = i ↔ c = o))
    (hstep : s.step (.resume k) = some s') (h : s.Accepted i o) : s'.Accepted i o := by
  have htaken : s'.taken o = s.taken o := by
    unfold taken
    rw [resume_rest hstep]
  obtain ⟨call, r, hk, htasks⟩ := tasks_resume_cases hstep
  have hupdate : s.conveyedBy o k = none → s'.conveyedBy o = s.conveyedBy o := by
    intro hold
    rcases htasks with htasks | ⟨c, c', v, n, t, -, -, htasks⟩
    · exact conveyedBy_update htasks hold rfl
    · exact conveyedBy_update htasks hold (by simp [Task.conveyed])
  by_cases hacc : ∃ c t d, call = .accept c t ∧ r = .ok (.cap d)
  · obtain ⟨c, t, d, rfl, rfl⟩ := hacc
    obtain rfl := (hs.tasks.ok k _ hk).answered d rfl
    obtain ⟨j, c, f, rfl, hj, hf, htopic, -⟩ := ht.acceptTask hk
    by_cases hco : c = o
    · subst hco
      obtain rfl := (hnames j c hj).mpr rfl
      obtain ⟨h', fs, hf'⟩ := ht.acceptCall hs.tasks hj hk
      obtain rfl : fs = .waiting := hwait d _ t d _ hk hf' rfl
      exact accepted_replied hs hs' ht hj hk hf' hwait hstep h
    · have hji : j ≠ i := fun hji => hco ((hnames j c hj).mp hji)
      exact h.congr hs hs' hstep htaken (acceptedIds_other hs hs' hk hstep hf htopic hji)
        (hupdate (by simp [conveyedBy, hk, Task.conveyed, hco]))
  · have hno : ∀ k' c t d, Action.resume k = .resume k' →
        s.tasks k' ≠ some ⟨.accept c t, .answered (.ok (.cap d))⟩ := by
      intro k' c t d hkk' hk'
      obtain rfl := Action.resume.inj hkk'
      obtain ⟨rfl, hr⟩ := Task.mk.inj (Option.some.inj (hk.symm.trans hk'))
      exact hacc ⟨c, t, d, rfl, Stage.answered.inj hr⟩
    refine h.congr hs hs' hstep htaken (acceptedIds_remote hs hs' rfl hstep i hno) (hupdate ?_)
    by_contra hne
    obtain ⟨d, hd⟩ := Option.ne_none_iff_exists'.mp hne
    obtain ⟨rfl, t, hk'⟩ := hs.tasks.conveyedBy_eq_some hd
    exact hno d _ t d rfl hk'

/-! ## Calls that wait -/

/-- A call whose `accept` was answered goes on waiting until the reply comes. -/
lemma step_awaited {s s' : Sys} {a : Action} (hs : Sound s) (ht' : Tickets s') {i : ℕ}
    (hkept : AcceptKept i s a) (hstep : s.step a = some s') (h : Awaited i s) :
    Awaited i s' := by
  intro k c t d f hk hf htopic
  cases taskStep_of_step hstep hk with
  | kept hold =>
    obtain ⟨j, c', f', -, -, hf', -, hopen⟩ := ht'.acceptTask hk
    obtain rfl : f = f' := Option.some.inj (hf.symm.trans hf')
    obtain ⟨op, st⟩ := f
    cases st with
    | waiting => rfl
    | dropped =>
      rcases dropped_cases hs.base.callers hstep hf with hdropped | ⟨rfl, st, hst⟩
      · exact absurd (h k c t d _ hold hdropped htopic) (by simp)
      · exact absurd rfl ((hkept _ hst htopic).2 k (hs.tasks.ok k _ hold).lt _ hold rfl)
    | parked | sending | replied r | closed | done r => exact absurd hopen (by simp [Status.isOpen])
  | answered hold =>
    obtain ⟨call, r, u, hold', -, hserve, rfl⟩ := answer_cases hstep
    have hnew : (⟨call, .answered r⟩ : Task) = ⟨.accept c t, .answered (.ok (.cap d))⟩ :=
      Option.some.inj ((Function.update_self k _ s.tasks).symm.trans hk)
    obtain ⟨rfl, hr⟩ := Task.mk.inj hnew
    obtain rfl := Stage.answered.inj hr
    obtain rfl := serve_accept_ok hserve
    exact hkept _ hold t rfl f hf htopic

/-- The listeners that have handed out connections were created. -/
def AcceptLogged (s : Sys) : Prop :=
  ∀ c n, .accept c (.ok n) ∈ s.backend → ∃ j : ℕ, s.created[j]? = some (.listener, c)

lemma step_acceptLogged {s s' : Sys} {a : Action} (hs : Tasks s) (hstep : s.step a = some s')
    (h : AcceptLogged s) : AcceptLogged s' := by
  intro c n hmem
  have hprefix := step_created hstep
  have hold : .accept c (.ok n) ∈ s.backend → ∃ j : ℕ, s'.created[j]? = some (.listener, c) := by
    intro hmem
    obtain ⟨j, hj⟩ := h c n hmem
    exact ⟨j, getElem?_of_isPrefix hprefix hj⟩
  cases ha : isRemote a with
  | false => exact hold (by rwa [(step_caller_rest ha hstep).1] at hmem)
  | true =>
    cases a with
    | dequeue => exact hold (by rwa [dequeue_rest hstep] at hmem)
    | poll k => exact hold (by rwa [poll_rest hstep] at hmem)
    | answer k o =>
      obtain ⟨call, r, u, hk, -, hserve, rfl⟩ := answer_cases hstep
      have hmem' : .accept c (.ok n) ∈ u.backend := hmem
      rcases serve_cases hserve with ⟨j, d, m, rest, rfl, -, rfl, rfl⟩ |
        ⟨d, t, n', rest, rfl, -, rfl, rfl⟩ | hun
      · rcases List.mem_append.mp hmem' with hmem' | hmem'
        · exact hold hmem'
        · exact absurd (List.mem_singleton.mp hmem') (by simp)
      · rcases List.mem_append.mp hmem' with hmem' | hmem'
        · exact hold hmem'
        · obtain ⟨rfl, -⟩ := BackendCall.accept.inj (List.mem_singleton.mp hmem')
          obtain ⟨c', j, hc', hj⟩ := (hs.ok k _ hk).captured .listener _ rfl
          obtain rfl := Option.some.inj hc'
          exact ⟨j, getElem?_of_isPrefix hprefix hj⟩
      · obtain ⟨bs, hbs, hquiet⟩ := hun.backend
        rw [hbs] at hmem'
        rcases List.mem_append.mp hmem' with hmem' | hmem'
        · exact hold hmem'
        · exact absurd (hquiet _ hmem').1 (by simp [BackendCall.takes])
    | resume k => exact hold (by rwa [resume_rest hstep] at hmem)
    | arriveMsg d m | arriveConn d m =>
      obtain rfl := Option.some.inj hstep
      exact hold hmem
    | _ => exact absurd ha (by simp [isRemote])

/-! ## Every careful run -/

/-- Nothing was accepted, and nothing is on its way, for a listener without an id. -/
lemma accepted_unallocated {s : Sys} (hs : Sound s) (ht : Tickets s) (hlog : AcceptLogged s) {i : ℕ}
    {o : Cap} (hi : s.created[i]? = none) (ho : ∀ j : ℕ, s.created[j]? ≠ some (.listener, o)) :
    s.Accepted i o := by
  have hcall : ∀ t h st, s.futs t ≠ some ⟨.accept h i, st⟩ := fun t h st hf =>
    absurd (ht.ids t _ h .listener i hf rfl) (not_lt.mpr (List.getElem?_eq_none_iff.mp hi))
  have htaken : s.taken o = [] := by
    refine List.filterMap_eq_nil_iff.mpr fun b hb => ?_
    unfold BackendCall.accepted
    split
    · rename_i c n
      obtain ⟨j, hj⟩ := hlog c n hb
      have hco : c ≠ o := fun hco => ho j (hco ▸ hj)
      simp [hco]
    · rfl
  have hreturns : (channelParcel i).returns s = [] := by
    refine List.filterMap_eq_nil_iff.mpr fun t _ => ?_
    by_contra hne
    obtain ⟨n, hn⟩ := Option.ne_none_iff_exists'.mp hne
    obtain ⟨⟨op, st⟩, hf, hret⟩ := Option.bind_eq_some_iff.mp hn
    cases st with
    | done r =>
      obtain ⟨h, rfl, -⟩ := acceptedId_eq_some (show acceptedId i op r = some n from hret)
      exact hcall t h _ hf
    | parked | sending | waiting | closed | replied r | dropped => simp [Parcel.returned] at hret
  have hslots : (channelParcel i).slots s = [] := by
    refine gather_eq_nil fun t => ?_
    by_contra hne
    obtain ⟨n, hn⟩ := Option.ne_none_iff_exists'.mp hne
    obtain ⟨h, hf⟩ := heldBy_eq_some hn
    exact hcall t h _ hf
  have hconveyed : s.conveyed o = [] := by
    refine gather_eq_nil fun k => ?_
    by_contra hne
    obtain ⟨d, hd⟩ := Option.ne_none_iff_exists'.mp hne
    obtain ⟨rfl, t, hk⟩ := hs.tasks.conveyedBy_eq_some hd
    obtain ⟨j, c, f, hc, hj, -⟩ := ht.acceptTask hk
    obtain rfl := Option.some.inj hc
    exact ho j hj
  unfold Accepted acceptedIds
  rw [htaken, hreturns, hslots, hconveyed]
  rfl

/-- What is known of the connections of listener `i` in every state of a careful run. -/
structure Acceptance (i : ℕ) (s : Sys) : Prop where
  accepted : ∀ o, s.created[i]? = some (.listener, o) → s.Accepted i o
  awaited : Awaited i s
  logged : AcceptLogged s

/-- A step that abandons no call to which a connection was handed out loses no connection. -/
lemma step_accepted {s s' : Sys} {a : Action} (hs : Regular s) (hs' : Regular s') {i : ℕ} {o : Cap}
    (hkept : AcceptKept i s a) (hstep : s.step a = some s') (h : Acceptance i s)
    (ho' : s'.created[i]? = some (.listener, o)) : s'.Accepted i o := by
  have hnames : ∀ j c, s.created[j]? = some (.listener, c) → (j = i ↔ c = o) := by
    intro j c hj
    have hj' := getElem?_of_isPrefix (step_created hstep) hj
    constructor
    · rintro rfl
      exact (Prod.mk.inj (Option.some.inj (hj'.symm.trans ho'))).2
    · rintro rfl
      exact hs'.sound.tasks.distinct j i _ _ c hj' ho'
  -- the listener may get its id in this very step; then nothing was accepted on it so far
  have hacc : s.Accepted i o := by
    cases hi : s.created[i]? with
    | none =>
      refine accepted_unallocated hs.sound hs.tickets h.logged hi fun j hj => ?_
      obtain rfl := (hnames j o hj).mpr rfl
      simp [hi] at hj
    | some x =>
      have hx := getElem?_of_isPrefix (step_created hstep) hi
      obtain rfl : x = (.listener, o) := Option.some.inj (hx.symm.trans ho')
      exact h.accepted o hi
  cases ha : isRemote a with
  | false => exact accepted_caller hs.sound hs'.sound hs.tickets ha hkept hstep hacc
  | true =>
    cases a with
    | dequeue => exact accepted_dequeue hs.sound hs'.sound hstep hacc
    | poll k => exact accepted_poll hs.sound hs'.sound hstep hacc
    | answer k out =>
      have ho : s.created[i]? = some (.listener, o) := by
        obtain ⟨call, r, u, -, -, -, rfl⟩ := answer_cases hstep
        exact ho'
      exact accepted_answer hs.sound hs'.sound hs.tickets h.awaited hkept ho hstep hacc
    | resume k => exact accepted_resume hs.sound hs'.sound hs.tickets h.awaited hnames hstep hacc
    | arriveMsg c m | arriveConn c n =>
      refine hacc.congr hs.sound hs'.sound hstep ?_
        (acceptedIds_remote hs.sound hs'.sound rfl hstep i (by simp)) ?_
      · obtain rfl := Option.some.inj hstep
        rfl
      · obtain rfl := Option.some.inj hstep
        rfl
    | _ => exact absurd ha (by simp [isRemote])

lemma acceptance_init (cfg : Config) (i : ℕ) : Acceptance i (init cfg) where
  accepted := fun o ho => by
    have hslots : (channelParcel i).slots (init cfg) = [] :=
      gather_eq_nil fun t => by simp [Parcel.heldBy, init]
    have hconveyed : (init cfg).conveyed o = [] := gather_eq_nil fun k => by simp [conveyedBy, init]
    unfold Accepted acceptedIds
    rw [hslots, hconveyed]
    simp [taken, Parcel.returns, init]
  awaited := by simp [Awaited, init]
  logged := by simp [AcceptLogged, init]

/-! ## Connections that have arrived -/

/-- The backend hands out its connections in the order in which they arrive. -/
lemma step_arrival {s s' : Sys} {a : Action} (hstep : s.step a = some s') (o : Cap) :
    s'.taken o ++ s'.inbound o = s.taken o ++ s.inbound o ++ (a.arrival o).toList := by
  have hsame : a.arrival o = none → s'.backend = s.backend → s'.inbound = s.inbound →
      s'.taken o ++ s'.inbound o = s.taken o ++ s.inbound o ++ (a.arrival o).toList := by
    intro ha hb hin
    simp [taken, ha, hb, hin]
  cases ha : isRemote a with
  | false =>
    have hrest := (step_caller_rest ha hstep).1
    refine hsame ?_ (by rw [hrest]) (by rw [hrest])
    cases a <;> first | rfl | simp [isRemote] at ha
  | true =>
    cases a with
    | dequeue => exact hsame rfl (by rw [dequeue_rest hstep]) (by rw [dequeue_rest hstep])
    | poll k => exact hsame rfl (by rw [poll_rest hstep]) (by rw [poll_rest hstep])
    | answer k out =>
      obtain ⟨call, r, u, hk, -, hserve, rfl⟩ := answer_cases hstep
      show u.taken o ++ u.inbound o = s.taken o ++ s.inbound o ++ []
      rw [List.append_nil]
      rcases serve_cases hserve with ⟨j, d, m, rest, rfl, -, rfl, rfl⟩ |
        ⟨d, t, n, rest, rfl, hin, rfl, rfl⟩ | hun
      · simp [taken, Sys.log, BackendCall.accepted]
      · by_cases hdo : d = o
        · subst hdo
          simp [taken, Sys.log, BackendCall.accepted, hin]
        · simp [taken, Sys.log, BackendCall.accepted, hdo, Function.update_of_ne (Ne.symm hdo)]
      · rw [hun.taken, hun.inbound]
    | resume k => exact hsame rfl (by rw [resume_rest hstep]) (by rw [resume_rest hstep])
    | arriveMsg c m =>
      obtain rfl := Option.some.inj hstep
      exact hsame rfl rfl rfl
    | arriveConn c n =>
      obtain rfl := Option.some.inj hstep
      by_cases hco : c = o
      · subst hco
        simp [taken, Action.arrival]
      · simp [taken, Action.arrival, hco, Function.update_of_ne (Ne.symm hco)]
    | _ => exact absurd ha (by simp [isRemote])

/-- The connections that arrive at the backend of a listener in a run. -/
def arrivals (o : Cap) (as : List Action) : List ℕ := as.filterMap (Action.arrival o)

lemma run_arrivals {as : List Action} {s t : Sys} (hrun : run step s as = some t) (o : Cap) :
    t.taken o ++ t.inbound o = s.taken o ++ s.inbound o ++ arrivals o as := by
  induction as generalizing s with
  | nil =>
    obtain rfl : s = t := by simpa using hrun
    simp [arrivals]
  | cons a as ih =>
    obtain ⟨u, hu, hrun'⟩ := run_cons.mp hrun
    rw [ih hrun', step_arrival hu]
    cases ha : a.arrival o <;> simp [arrivals, ha]

/-- The calls of `accept` on listener `i` return what arrives at its backend `o`: each connection
once, in the order of arrival, behind the id of a channel; the next ones are on their way to a
pending call, and the rest waits at the backend. -/
structure AcceptsInOrder (s : Sys) (i : ℕ) (o : Cap) (arrived : List ℕ) : Prop where
  order : arrived.map some = ((channelParcel i).returns s).map s.connection ++
    ((channelParcel i).slots s).map s.connection ++ (s.conveyed o).map s.serves ++
    (s.inbound o).map some
  once : s.resolved.Nodup
  /-- Without a pending call nothing is on its way. -/
  idle : (∀ t f, s.futs t = some f → f.op.topic = .accept i → f.status.live = false) →
    (channelParcel i).slots s = [] ∧ s.conveyed o = []

/-- **`accept` through the bridge is `accept` on the backend** for a listener whose handle lives,
when no call is abandoned to which the backend hands out a connection: the connections that have
arrived are those the calls returned, then those on their way to the pending call, then those that
wait for the next one. -/
theorem accept_in_order {cfg : Config} {as : List Action} {s : Sys}
    (hrun : run step (Sys.init cfg) as = some s) (hfew : s.created.length < 2 ^ 64) {h i : ℕ}
    (hh : s.handles h = some ⟨.listener, some i, true⟩)
    (hkept : EachStep step (AcceptKept i) (Sys.init cfg) as) :
    ∃ o, s.created[i]? = some (.listener, o) ∧ s.reg.get .listener i = some o ∧
      s.AcceptsInOrder i o (arrivals o as) := by
  obtain ⟨hs, hacc⟩ := regular_induction (I := Acceptance i) (acceptance_init cfg i)
    (fun u a u' hu hu' hI hP hstep => ⟨fun o ho => step_accepted hu hu' hP hstep hI ho,
      step_awaited hu.sound hu'.tickets hP hstep hI.awaited,
      step_acceptLogged hu.sound.tasks hstep hI.logged⟩) hkept hrun hfew
  obtain ⟨o, ho⟩ := (hs.sound.base.callers.handles h _ hh).typed i rfl
  have hlive : i ∉ s.released := (hs.sound.wf.carried h i (owner_of_handle hh)).2.1
  refine ⟨o, ho, hs.sound.mapped ho hlive, ?_, hs.tickets.resolved, fun hidle => ?_⟩
  -- what arrived splits at the backend, and what it handed out splits on the way to the callers
  · have harrived : s.taken o ++ s.inbound o = arrivals o as := by
      simpa [taken, init] using run_arrivals hrun o
    have haccepted := hacc.accepted o ho
    unfold Accepted acceptedIds at haccepted
    rw [← harrived, List.map_append, haccepted, List.map_append]
  · constructor
    · refine gather_eq_nil fun t => ?_
      by_contra hne
      obtain ⟨n, hn⟩ := Option.ne_none_iff_exists'.mp hne
      obtain ⟨j, hf⟩ := heldBy_eq_some hn
      exact absurd (hidle t _ hf rfl) (by simp [Status.live])
    · refine gather_eq_nil fun k => ?_
      by_contra hne
      obtain ⟨d, hd⟩ := Option.ne_none_iff_exists'.mp hne
      obtain ⟨rfl, t, hk⟩ := hs.sound.tasks.conveyedBy_eq_some hd
      obtain ⟨j, fs, hf⟩ := hs.tickets.acceptCall hs.sound.tasks ho hk
      obtain rfl : fs = .waiting := hacc.awaited d _ t d _ hk hf rfl
      exact absurd (hidle t _ hf rfl) (by simp [Status.live])

/-- A call of `accept` is dropped before its command is sent; the next one gets the connection, and
another one waits at the backend. -/
theorem accept_in_order_after_drop :
    ∃ s, run step (Sys.init pluginConfig) [.listen ⟨80, none⟩, .enqueue 2, .dequeue, .poll 3,
        .answer 3 (.listening "here"), .resume 3, .answer 3 .ok, .resume 3, .resolve 2, .accept 2,
        .dropFut 4, .accept 2, .enqueue 5, .dequeue, .poll 6, .arriveConn 3 9, .answer 6 .ok,
        .resume 6, .resolve 5, .arriveConn 3 10] = some s ∧
      ∃ o, s.created[1]? = some (.listener, o) ∧ s.reg.get .listener 1 = some o ∧
        s.AcceptsInOrder 1 o (arrivals o [.listen ⟨80, none⟩, .enqueue 2, .dequeue, .poll 3,
          .answer 3 (.listening "here"), .resume 3, .answer 3 .ok, .resume 3, .resolve 2, .accept 2,
          .dropFut 4, .accept 2, .enqueue 5, .dequeue, .poll 6, .arriveConn 3 9, .answer 6 .ok,
          .resume 6, .resolve 5, .arriveConn 3 10]) := by
  refine ⟨_, Option.eq_some_of_isSome (by decide), ?_⟩
  exact accept_in_order (h := 2) (Option.eq_some_of_isSome (by decide)) (by decide) (by decide)
    (by decide)

/-- A call of `accept` that is dropped while the server waits for a connection takes the next
connection along. -/
theorem connection_swallowed :
    ¬ ∀ (cfg : Config) (as : List Action) (s : Sys) (h i : ℕ),
      run step (Sys.init cfg) as = some s → s.created.length < 2 ^ 64 →
      s.handles h = some ⟨.listener, some i, true⟩ →
      ∃ o, s.created[i]? = some (.listener, o) ∧ s.reg.get .listener i = some o ∧
        s.AcceptsInOrder i o (arrivals o as) := by
  intro hall
  let as : List Action := [.listen ⟨80, none⟩, .enqueue 2, .dequeue, .poll 3,
    .answer 3 (.listening "here"), .resume 3, .answer 3 .ok, .resume 3, .resolve 2, .accept 2,
    .enqueue 4, .dequeue, .poll 5, .dropFut 4, .arriveConn 3 9, .answer 5 .ok, .resume 5]
  have hrun : (run step (Sys.init pluginConfig) as).any (fun s => decide
      (s.created.length < 2 ^ 64 ∧ s.handles 2 = some ⟨.listener, some 1, true⟩ ∧
        s.created[1]? = some (.listener, 3) ∧ (channelParcel 1).returns s = [] ∧
        (channelParcel 1).slots s = [] ∧ s.conveyed 3 = [] ∧ s.inbound 3 = [])) := by decide
  obtain ⟨s, hs, hdec⟩ := (Option.any_eq_true _ _).mp hrun
  obtain ⟨hfew, hh, ho, hreturns, hslots, hconveyed, hinbound⟩ := of_decide_eq_true hdec
  obtain ⟨o, ho', -, horder, -, -⟩ := hall pluginConfig as s 2 1 hs hfew hh
  obtain rfl : o = 3 := (Prod.mk.inj (Option.some.inj (ho'.symm.trans ho))).2
  rw [hreturns, hslots, hconveyed, hinbound] at horder
  have harrived : arrivals 3 as = [9] := by decide
  rw [harrived] at horder
  exact absurd horder (by simp)

end Sys

end FungiTransport
