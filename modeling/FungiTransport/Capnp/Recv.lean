import FungiTransport.Capnp.Tickets

/-!
# The receive state of a channel

At most one capnp `recv` is outstanding for each channel, and exactly while its receive state says
so; a message is kept in the buffer only while none is; a released channel has no receive state
(`Sys.Agrees`).  That holds of a channel as long as no `recv` of it is dequeued behind its `Release`
(`Sys.RecvOwned`), which its handle sees to (`Sys.Sound.recv_head`).  Of the receive states a step
changes one at most, and only with a `recv`, a `Release` or the end of a task (`Sys.RecvStep`).
-/

namespace FungiTransport

open Lib

def Call.isRecv : Call → Bool
  | .recv _ _ => true
  | .listen _ _ _ _ | .onionAddr _ _ | .connect _ _ _ | .accept _ _ | .send _ _ _
  | .configure _ _ _ => false

lemma isRecv_of_calls {s : Sys} {c : Command} {call : Call} (hc : ∀ i t, c ≠ .recv i t)
    (hcall : s.calls c = some call) : call.isRecv = false := by
  cases call with
  | recv i o =>
    obtain ⟨⟨t, rfl⟩, -⟩ := Sys.calls_recv hcall
    exact absurd rfl (hc i t)
  | _ => rfl

lemma isRecv_of_ticket {call : Call} {t : ℕ} (ht : call.ticket = some t) :
    call.isRecv = false := by
  cases call <;> first | rfl | exact absurd ht (by simp [Call.ticket])

lemma ne_recv_of_isRecv {call : Call} (h : call.isRecv = false) (i : ℕ) (o : Option Cap) :
    call ≠ .recv i o := by
  rintro rfl
  exact absurd h (by simp [Call.isRecv])

namespace Sys

/-- The task `k` makes the capnp `recv` of channel `i`. -/
def RecvTask (s : Sys) (i k : ℕ) : Prop := ∃ o st, s.tasks k = some ⟨.recv i o, st⟩

/-- The receive state of a channel agrees with its outstanding `recv` task. -/
structure ReceivesAt (s : Sys) (i : ℕ) : Prop where
  typed : ∀ st, s.reg.recvStates i = some st → i < s.created.length
  oneTask : ∀ k k', s.RecvTask i k → s.RecvTask i k' → k = k'
  inFlight : i ∉ s.released →
    (((s.reg.recvStates i).getD .default).inFlight = true ↔ ∃ k, s.RecvTask i k)
  buffer : ∀ st, s.reg.recvStates i = some st → st.inFlight = true → st.buffer = []
  released : i ∈ s.released → s.reg.recvStates i = none

/-- The receive states and the outstanding `recv` tasks agree. -/
def Receives (s : Sys) : Prop := ∀ i, s.ReceivesAt i

/-- What `ReceivesAt` says of a channel, created or not. -/
structure Agrees (s : Sys) (i : ℕ) : Prop where
  oneTask : ∀ k k', s.RecvTask i k → s.RecvTask i k' → k = k'
  inFlight : i ∉ s.released →
    (((s.reg.recvStates i).getD .default).inFlight = true ↔ ∃ k, s.RecvTask i k)
  buffer : ∀ st, s.reg.recvStates i = some st → st.inFlight = true → st.buffer = []
  released : i ∈ s.released → s.reg.recvStates i = none

lemma ReceivesAt.agrees {s : Sys} {i : ℕ} (h : s.ReceivesAt i) : s.Agrees i :=
  ⟨h.oneTask, h.inFlight, h.buffer, h.released⟩

/-- No `recv` of channel `i` is taken from the queue behind the `Release` of the channel. -/
def RecvOwned (i : ℕ) (s : Sys) : Action → Prop
  | .dequeue => ∀ t rest, s.queue = .recv i t :: rest → i ∉ s.released
  | _ => True

/-- A channel whose `recv` is at the head of the queue was created and is not released. -/
lemma Sound.recv_head {s : Sys} (h : Sound s) {i t : ℕ} {rest : List Command}
    (hq : s.queue = .recv i t :: rest) : i < s.created.length ∧ i ∉ s.released := by
  have hc : Command.recv i t ∈ s.queue := hq ▸ List.mem_cons_self
  obtain ⟨o, hcreated, hget⟩ := h.target hc (k := .channel) rfl
  exact ⟨(List.getElem?_eq_some_iff.mp hcreated).1, ((h.base.reg.get _ _ _).mp hget).2⟩

lemma Sound.recvOwned {s : Sys} (h : Sound s) (i : ℕ) (a : Action) : RecvOwned i s a := by
  cases a with
  | dequeue => exact fun t rest hq => (h.recv_head hq).2
  | _ => trivial

/-! ## Tasks -/

lemma recvTask_of_tasks {s s' : Sys} (h : s'.tasks = s.tasks) (i k : ℕ) :
    s'.RecvTask i k ↔ s.RecvTask i k := by
  simp only [RecvTask, h]

lemma recvTask_update {s s' : Sys} {k : ℕ} {y : Option Task}
    (h : s'.tasks = Function.update s.tasks k y) (i j : ℕ) :
    s'.RecvTask i j ↔ (j = k ∧ ∃ o st, y = some ⟨.recv i o, st⟩) ∨ (j ≠ k ∧ s.RecvTask i j) := by
  by_cases hj : j = k
  · subst hj
    simp [RecvTask, h]
  · simp [RecvTask, h, hj]

lemma recvTask_remove {s s' : Sys} {k : ℕ} (h : s'.tasks = Function.update s.tasks k none)
    (i j : ℕ) : s'.RecvTask i j ↔ j ≠ k ∧ s.RecvTask i j := by
  rw [recvTask_update h]
  simp

/-- A task comes, goes or moves on that makes no `recv` of the channel. -/
lemma recvTask_quiet {s s' : Sys} {i k : ℕ} {y : Option Task}
    (h : s'.tasks = Function.update s.tasks k y)
    (hold : ∀ x, s.tasks k = some x → ∀ o, x.call ≠ .recv i o)
    (hnew : ∀ x, y = some x → ∀ o, x.call ≠ .recv i o) (j : ℕ) :
    s'.RecvTask i j ↔ s.RecvTask i j := by
  rw [recvTask_update h]
  constructor
  · rintro (⟨rfl, o, st, hy⟩ | ⟨-, hj⟩)
    · exact absurd rfl (hnew _ hy o)
    · exact hj
  · rintro ⟨o, st, hj⟩
    refine .inr ⟨?_, o, st, hj⟩
    rintro rfl
    exact absurd rfl (hold _ hj o)

/-- A task stays with its call. -/
lemma recvTask_stage {s s' : Sys} {k : ℕ} {call : Call} {st st' : Stage}
    (h : s'.tasks = Function.update s.tasks k (some ⟨call, st'⟩))
    (hk : s.tasks k = some ⟨call, st⟩) (i j : ℕ) : s'.RecvTask i j ↔ s.RecvTask i j := by
  rw [recvTask_update h]
  by_cases hj : j = k
  · subst hj
    simp [RecvTask, hk]
  · simp [hj]

/-- Nothing changes about the `recv` of channel `i`. -/
structure SameRecv (i : ℕ) (s s' : Sys) : Prop where
  task : ∀ k, s'.RecvTask i k ↔ s.RecvTask i k
  state : s'.reg.recvStates i = s.reg.recvStates i
  released : i ∈ s'.released ↔ i ∈ s.released

namespace SameRecv

variable {i : ℕ} {s u s' : Sys}

lemma congr (htasks : s'.tasks = s.tasks) (hstate : s'.reg.recvStates i = s.reg.recvStates i)
    (hreleased : i ∈ s'.released ↔ i ∈ s.released) : SameRecv i s s' :=
  ⟨recvTask_of_tasks htasks i, hstate, hreleased⟩

lemma trans (h : SameRecv i s u) (h' : SameRecv i u s') : SameRecv i s s' :=
  ⟨fun k => (h'.task k).trans (h.task k), h'.state.trans h.state, h'.released.trans h.released⟩

lemma reply (t : ℕ) (r : Reply) : SameRecv i s (s.reply t r) := by
  obtain ⟨f, hf⟩ := reply_eq s t r
  exact hf ▸ congr rfl rfl Iff.rfl

lemma closeWaiter (o : Option ℕ) : SameRecv i s (s.closeWaiter o) := by
  obtain ⟨f, hf⟩ := closeWaiter_eq s o
  exact hf ▸ congr rfl rfl Iff.rfl

/-- An id is allocated for a new capability. -/
lemma install (kind : Kind) (c : Cap) : SameRecv i s (s.install kind c) :=
  congr rfl (by simp [Sys.install]) Iff.rfl

lemma setRecvState {j : ℕ} (hij : i ≠ j) (st : RecvState) :
    SameRecv i s { s with reg := s.reg.setRecvState j st } :=
  congr rfl (by simp [Registry.setRecvState, Function.update_of_ne hij]) Iff.rfl

lemma spawn (hfree : s.tasks s.fresh = none) {call : Call} (hcall : ∀ o, call ≠ .recv i o) :
    SameRecv i s (s.spawn call) := by
  refine ⟨recvTask_quiet rfl (by simp [hfree]) ?_, rfl, Iff.rfl⟩
  rintro x hx
  obtain rfl := Option.some.inj hx
  exact hcall

/-- A task ends or goes on that makes no `recv` of the channel. -/
lemma setTask {k : ℕ} {x : Task} {y : Option Task} (hk : s.tasks k = some x)
    (hx : ∀ o, x.call ≠ .recv i o) (hy : ∀ z, y = some z → ∀ o, z.call ≠ .recv i o) :
    SameRecv i s (s.setTask k y) := by
  refine ⟨recvTask_quiet rfl ?_ hy, rfl, Iff.rfl⟩
  rintro z hz
  obtain rfl := Option.some.inj (hk.symm.trans hz)
  exact hx

lemma remove {k : ℕ} {x : Task} (hk : s.tasks k = some x) (hx : ∀ o, x.call ≠ .recv i o) :
    SameRecv i s (s.setTask k none) :=
  setTask hk hx (by simp)

lemma stage {k : ℕ} {call : Call} {st : Stage} (hk : s.tasks k = some ⟨call, st⟩) (st' : Stage) :
    SameRecv i s (s.setTask k (some ⟨call, st'⟩)) :=
  ⟨recvTask_stage rfl hk i, rfl, Iff.rfl⟩

end SameRecv

lemma Agrees.congr {s s' : Sys} {i : ℕ} (h : s.Agrees i) (hsame : SameRecv i s s') :
    s'.Agrees i where
  oneTask := fun k k' hk hk' => h.oneTask k k' ((hsame.task k).mp hk) ((hsame.task k').mp hk')
  inFlight := fun hi => by
    rw [hsame.state, exists_congr hsame.task]
    exact h.inFlight fun hr => hi (hsame.released.mpr hr)
  buffer := fun st hst => h.buffer st (hsame.state ▸ hst)
  released := fun hi => hsame.state ▸ h.released (hsame.released.mp hi)

/-! ## What a step does -/

/-- No pending call gets a message. -/
def Unfed (s s' : Sys) : Prop :=
  ∀ t op m, s.accepts t = true → s'.futs t ≠ some ⟨op, .replied (.recv (.ok m))⟩

/-- What a step does about the `recv`s of the channels: nothing, or it takes a `recv` or a `Release`
from the queue, or the task of a `recv` ends. -/
inductive RecvStep (s s' : Sys) : Action → Prop where
  | quiet {a : Action} (hsame : ∀ i, SameRecv i s s') (hunfed : Unfed s s') : RecvStep s s' a
  | received {i t : ℕ} {rest : List Command} (hq : s.queue = .recv i t :: rest)
      (h : Received { s with queue := rest } i t ((s.reg.recvStates i).getD .default) s') :
      RecvStep s s' .dequeue
  | released {i : ℕ} {rest : List Command} (hq : s.queue = .release i :: rest)
      (h : { s with queue := rest }.onRelease i = s') : RecvStep s s' .dequeue
  | completed {a : Action} {i k : ℕ} {o : Option Cap} {st : Stage} {result : Except RecvError Bytes}
      (ha : a ≠ .dequeue) (hk : s.tasks k = some ⟨.recv i o, st⟩)
      (hmsg : ∀ m, result = .ok m ↔ st = .answered (.ok (.msg m)))
      (h : Completed (s.setTask k none) i result s') : RecvStep s s' a

lemma unfed_of_futs {s s' : Sys} (hfuts : s'.futs = s.futs) : Unfed s s' := by
  intro t op m hacc hf
  obtain ⟨op', hw⟩ := accepts_iff.mp hacc
  simp [← hfuts, hf] at hw

lemma unfed_update {s s' : Sys} {t : ℕ} {f : Fut}
    (hfuts : s'.futs = Function.update s.futs t (some f))
    (hf : ∀ m, f.status ≠ .replied (.recv (.ok m))) : Unfed s s' := by
  intro u op m hacc hu
  by_cases hut : u = t
  · subst hut
    rw [hfuts, Function.update_self] at hu
    obtain rfl := Option.some.inj hu
    exact hf m rfl
  · rw [hfuts, Function.update_of_ne hut] at hu
    exact unfed_of_futs rfl u op m hacc hu

lemma unfed_reply {s u : Sys} (hu : u.futs = s.futs) (t : ℕ) {r : Reply}
    (hr : ∀ m, r ≠ .recv (.ok m)) : Unfed s (u.reply t r) := by
  rcases reply_cases u t r with ⟨op, -, heq⟩ | ⟨-, heq⟩ <;> rw [heq]
  · exact unfed_update (by rw [← hu]; rfl) fun m hm => hr m (Status.replied.inj hm)
  · exact unfed_of_futs hu

lemma unfed_closeReply {s u : Sys} (hu : u.futs = s.futs) (t : ℕ) : Unfed s (u.closeReply t) := by
  rcases closeReply_cases u t with ⟨op, -, heq⟩ | heq <;> rw [heq]
  · exact unfed_update (by rw [← hu]; rfl) (by simp)
  · exact unfed_of_futs hu

lemma unfed_closeWaiter {s u : Sys} (hu : u.futs = s.futs) (o : Option ℕ) :
    Unfed s (u.closeWaiter o) := by
  cases o with
  | none => exact unfed_of_futs hu
  | some w => exact unfed_closeReply hu w

/-- The callers fill no reply slots. -/
lemma unfed_caller {s s' : Sys} {a : Action} (ha : isRemote a = false)
    (hstep : s.step a = some s') : Unfed s s' := by
  cases a with
  | dequeue | poll k | answer k o | resume k | arriveMsg c m | arriveConn c n =>
    exact absurd ha (by simp [isRemote])
  | newConnector =>
    obtain ⟨x, -, rfl⟩ := Option.map_eq_some_iff.mp hstep
    exact unfed_of_futs rfl
  | listen p | configure nf =>
    obtain ⟨x, -, rfl⟩ := Option.map_eq_some_iff.mp hstep
    exact unfed_update rfl (by simp)
  | connect h addr =>
    obtain ⟨x, -, rfl⟩ := Option.map_eq_some_iff.mp hstep
    split
    · exact unfed_update rfl (by simp)
    · refine unfed_update rfl fun m => ?_
      dsimp only
      split <;> simp
  | accept h =>
    obtain ⟨id, -, -, rfl⟩ := startAccept_cases hstep
    exact unfed_update rfl (by simp)
  | recv h =>
    obtain ⟨id, -, -, rfl⟩ := startRecv_cases hstep
    exact unfed_update rfl (by simp)
  | send h m =>
    obtain ⟨id, -, -, ⟨-, rfl⟩ | ⟨-, rfl⟩⟩ := startSend_cases hstep
    · exact unfed_update rfl (by simp)
    · exact unfed_update rfl (by simp)
  | wake t =>
    obtain ⟨h, addr, -, ⟨id, -, rfl⟩ | ⟨-, -, rfl⟩⟩ := wake_cases hstep
    · exact unfed_update rfl (by simp)
    · exact unfed_update rfl (by simp)
  | enqueue t =>
    obtain ⟨op, -, rfl⟩ := enqueue_cases hstep
    exact unfed_update rfl (by simp)
  | dropFut t =>
    obtain ⟨op, st, -, -, rfl⟩ := dropFut_cases hstep
    exact unfed_update rfl (by simp)
  | dropHandle h d =>
    obtain ⟨k, id, -, -, -, ⟨-, rfl⟩ | ⟨i, -, rfl⟩⟩ := dropHandle_cases hstep
    · exact unfed_of_futs rfl
    · exact unfed_of_futs rfl
  | resolve t => cases resolving_of_resolve hstep <;> exact unfed_update rfl (by simp)

lemma recvStep_dequeue {s s' : Sys} (hfree : s.tasks s.fresh = none)
    (hstep : s.dequeue = some s') : s.RecvStep s' .dequeue := by
  obtain ⟨c, rest, hq, hdeq⟩ := dequeued_of_dequeue hstep
  have hpop : ∀ i, SameRecv i s { s with queue := rest } := fun i => .congr rfl rfl Iff.rfl
  cases hdeq with
  | created ho =>
    have hnext : ∀ i, SameRecv i s { s with queue := rest, fresh := s.fresh + 1 } :=
      fun i => .congr rfl rfl Iff.rfl
    exact .quiet (fun i => ((hnext i).trans (.install _ _)).trans (.reply _ _))
      (unfed_reply (by rfl) _ (by simp))
  | @closed i t =>
    exact .quiet (fun j => (hpop j).trans (.closeWaiter (some t))) (unfed_closeReply (by rfl) t)
  | spawned hne hcall =>
    have hno := isRecv_of_calls hne hcall
    exact .quiet (fun i => (hpop i).trans (.spawn (by exact hfree) (ne_recv_of_isRecv hno i)))
      (unfed_of_futs (by rfl))
  | received => exact .received hq (received_of_onRecv rfl)
  | released => exact .released hq rfl
  | refused =>
    exact .quiet (fun i => (hpop i).trans (.reply _ _)) (unfed_reply (by rfl) _ (by simp))

lemma recvStep_poll {s s' : Sys} {k : ℕ} (hstep : s.poll k = some s') :
    s.RecvStep s' (.poll k) := by
  cases polled_of_poll hstep with
  | issued hk =>
    rw [issue_eq]
    exact .quiet (fun i => (SameRecv.stage hk .issued).trans (.congr rfl rfl Iff.rfl))
      (unfed_of_futs rfl)
  | replied hk ht hid hr =>
    have hno := isRecv_of_ticket ht
    exact .quiet (fun i => (SameRecv.remove hk (ne_recv_of_isRecv hno i)).trans (.reply _ _))
      (unfed_reply (by rfl) _ hr)
  | received hk =>
    exact .completed (by simp) hk (by simp) (completed_of_completeRecv rfl)

lemma recvStep_answer {s s' : Sys} {k : ℕ} {o : Outcome} (hstep : s.answer k o = some s') :
    s.RecvStep s' (.answer k o) := by
  obtain ⟨call, r, u, hk, -, -, rfl⟩ := answer_cases hstep
  exact .quiet (fun i => (SameRecv.stage hk (.answered r)).trans (.congr rfl rfl Iff.rfl))
    (unfed_of_futs rfl)

lemma recvStep_resume {s s' : Sys} {k : ℕ} (hstep : s.resume k = some s') :
    s.RecvStep s' (.resume k) := by
  cases resumed_of_resume hstep with
  | listened hk =>
    refine .quiet (fun i => .setTask hk (by simp) fun x hx => ?_) (unfed_of_futs (by rfl))
    obtain rfl := Option.some.inj hx
    simp
  | created hk hnew =>
    have hno := isRecv_of_ticket hnew.ticket
    exact .quiet (fun i => ((SameRecv.remove hk (ne_recv_of_isRecv hno i)).trans
      (.install _ _)).trans (.reply _ _)) (unfed_reply (by rfl) _ hnew.not_recv)
  | replied hk ht hid hr =>
    have hno := isRecv_of_ticket ht
    exact .quiet (fun i => (SameRecv.remove hk (ne_recv_of_isRecv hno i)).trans (.reply _ _))
      (unfed_reply (by rfl) _ hr)
  | received hk hx =>
    exact .completed (by simp) hk (by simpa using hx) (completed_of_completeRecv rfl)

theorem recvStep_of_step {s s' : Sys} {a : Action} (hfree : s.tasks s.fresh = none)
    (hstep : s.step a = some s') : s.RecvStep s' a := by
  cases ha : isRemote a with
  | false =>
    have hrest := (step_caller_rest ha hstep).1
    exact .quiet (fun i => .congr (by rw [hrest]) (by rw [hrest]) (by rw [hrest]))
      (unfed_caller ha hstep)
  | true =>
    cases a with
    | dequeue => exact recvStep_dequeue hfree hstep
    | poll k => exact recvStep_poll hstep
    | answer k o => exact recvStep_answer hstep
    | resume k => exact recvStep_resume hstep
    | arriveMsg c m | arriveConn c n =>
      obtain rfl := Option.some.inj hstep
      exact .quiet (fun i => .congr rfl rfl Iff.rfl) (unfed_of_futs rfl)
    | _ => exact absurd ha (by simp [isRemote])

/-! ## Agreement -/

/-- The receive state of a channel is set, and is true to its `recv` task. -/
lemma Agrees.of_state {s : Sys} {i : ℕ} {st : RecvState} (hst : s.reg.recvStates i = some st)
    (hlive : i ∉ s.released) (hone : ∀ k k', s.RecvTask i k → s.RecvTask i k' → k = k')
    (htask : st.inFlight = true ↔ ∃ k, s.RecvTask i k)
    (hbuf : st.inFlight = true → st.buffer = []) : s.Agrees i where
  oneTask := hone
  inFlight := fun _ => by simpa [hst] using htask
  buffer := fun st' hst' hin => by
    obtain rfl : st = st' := Option.some.inj (hst.symm.trans hst')
    exact hbuf hin
  released := fun hr => absurd hr hlive

/-- A message is waiting in the buffer only while no capnp `recv` is outstanding. -/
lemma Agrees.idle {s : Sys} {i : ℕ} (h : s.Agrees i) {m : Bytes} {buf : List Bytes}
    (hbuf : ((s.reg.recvStates i).getD .default).buffer = m :: buf) :
    ((s.reg.recvStates i).getD .default).inFlight = false := by
  cases hst : s.reg.recvStates i with
  | none => rfl
  | some st =>
    by_contra hin
    have hempty := h.buffer st hst (by simpa [hst] using hin)
    simp [hst, hempty] at hbuf

lemma Received.other {s s' : Sys} {i j t : ℕ} {st : RecvState} (h : s.Received i t st s')
    (hfree : s.tasks s.fresh = none) (hji : j ≠ i) : SameRecv j s s' := by
  cases h with
  | replied hbuf hacc => exact (SameRecv.setRecvState hji _).trans (.reply _ _)
  | kept hbuf hacc => exact .setRecvState hji _
  | joined hbuf hin => exact (SameRecv.setRecvState hji _).trans (.closeWaiter _)
  | spawned hbuf hin =>
    obtain ⟨f, hf⟩ := closeWaiter_eq { s with reg := s.reg.setRecvState i ⟨true, some t, []⟩ }
      st.waiter
    refine ((SameRecv.setRecvState hji _).trans (.closeWaiter _)).trans (.spawn ?_ ?_)
    · rw [hf]
      exact hfree
    · simp [Ne.symm hji]

/-- A `recv` of the channel is served from the buffer, or waits for the one task of the channel. -/
lemma agrees_received {s s' : Sys} {i t : ℕ} (h : s.Agrees i) (hlive : i ∉ s.released)
    (hrec : s.Received i t ((s.reg.recvStates i).getD .default) s') :
    s'.Agrees i := by
  have htask := h.inFlight hlive
  have hstate : ∀ st, (s.reg.setRecvState i st).recvStates i = some st := fun st => by
    simp [Registry.setRecvState]
  have hset : ∀ {m : Bytes} {more : List Bytes} (buf : List Bytes),
      ((s.reg.recvStates i).getD .default).buffer = m :: more → Agrees { s with
        reg := s.reg.setRecvState i { (s.reg.recvStates i).getD .default with buffer := buf } } i :=
    fun buf hbuf => .of_state (hstate _) hlive h.oneTask htask fun hin =>
      absurd ((h.idle hbuf).symm.trans hin) (by simp)
  cases hrec with
  | replied hbuf hacc => exact (hset _ hbuf).congr (.reply t _)
  | kept hbuf hacc => exact hset ((s.reg.recvStates i).getD .default).buffer hbuf
  | joined hbuf hin =>
    refine Agrees.congr ?_ (.closeWaiter _)
    exact .of_state (hstate _) hlive h.oneTask (iff_of_true rfl (htask.mp hin)) fun _ => rfl
  | spawned hbuf hin =>
    obtain ⟨f, hf⟩ := closeWaiter_eq { s with reg := s.reg.setRecvState i ⟨true, some t, []⟩ }
      ((s.reg.recvStates i).getD .default).waiter
    rw [hf]
    -- no `recv` of this channel is outstanding, so the task that is spawned is the only one
    have hno : ∀ k, ¬ s.RecvTask i k := fun k hk =>
      absurd (hin.symm.trans (htask.mpr ⟨k, hk⟩)) (by simp)
    have hspawn : ∀ {u : Sys}, u.tasks = Function.update s.tasks s.fresh
        (some ⟨.recv i (s.reg.channels i), .spawned⟩) → ∀ k, u.RecvTask i k ↔ k = s.fresh := by
      intro u hu k
      rw [recvTask_update hu]
      simp [hno k]
    refine .of_state (hstate _) hlive (fun k k' hk hk' => ?_)
      (iff_of_true rfl ⟨s.fresh, (hspawn rfl s.fresh).mpr rfl⟩) fun _ => rfl
    exact ((hspawn rfl k).mp hk).trans ((hspawn rfl k').mp hk').symm

lemma SameRecv.onRelease {s : Sys} {i j : ℕ} (hji : j ≠ i) : SameRecv j s (s.onRelease i) := by
  obtain ⟨f, hf⟩ := onRelease_eq s i
  rw [hf]
  exact .congr rfl (by simp [Registry.release, Function.update_of_ne hji]) (by simp [hji])

lemma agrees_onRelease {s : Sys} {j : ℕ} (h : s.Agrees j) (i : ℕ) : (s.onRelease i).Agrees j := by
  by_cases hji : j = i
  · subst hji
    obtain ⟨f, hf⟩ := onRelease_eq s j
    have hnone : (s.reg.release j).recvStates j = none := by simp [Registry.release]
    rw [hf]
    exact ⟨h.oneTask, fun hr => absurd List.mem_cons_self hr, by simp [hnone], fun _ => hnone⟩
  · exact h.congr (.onRelease hji)

lemma Completed.other {s s' : Sys} {i j : ℕ} {result : Except RecvError Bytes}
    (h : s.Completed i result s') (hji : j ≠ i) : SameRecv j s s' := by
  cases h with
  | gone hst => exact .congr rfl rfl Iff.rfl
  | kept hst => exact .setRecvState hji _
  | replied hst hw hacc => exact (SameRecv.setRecvState hji _).trans (.reply _ _)

/-- The `recv` task of the channel ends with its result. -/
lemma agrees_completed {s s' : Sys} {i k : ℕ} (h : s.Agrees i) (hk : s.RecvTask i k)
    {result : Except RecvError Bytes} (hend : (s.setTask k none).Completed i result s') :
    s'.Agrees i := by
  have hgone : ∀ {u : Sys}, u.tasks = Function.update s.tasks k none → ∀ j, ¬ u.RecvTask i j := by
    intro u hu j hj
    obtain ⟨hne, hj⟩ := (recvTask_remove hu i j).mp hj
    exact hne (h.oneTask j k hj hk)
  -- no `recv` is outstanding now, which is what the new state holds
  have hset : ∀ {rst : RecvState} (buf : List Bytes), s.reg.recvStates i = some rst →
      Agrees { s.setTask k none with reg := s.reg.setRecvState i ⟨false, none, buf⟩ } i := by
    intro rst buf hrst
    have hlive : i ∉ s.released := fun hr => by simp [h.released hr] at hrst
    have hstate : (s.reg.setRecvState i ⟨false, none, buf⟩).recvStates i =
        some ⟨false, none, buf⟩ := by simp [Registry.setRecvState]
    exact .of_state hstate hlive
      (fun k₁ _ hk₁ => absurd hk₁ (hgone rfl k₁))
      (iff_of_false (by simp) fun hex => hex.elim (hgone rfl)) (by simp)
  cases hend with
  | gone hnone =>
    have hnone' : s.reg.recvStates i = none := hnone
    -- without a receive state the channel was released
    have hrel : i ∈ s.released := by
      by_contra hr
      have hin := (h.inFlight hr).mpr ⟨k, hk⟩
      simp [hnone', RecvState.default] at hin
    exact ⟨fun k₁ _ hk₁ => absurd hk₁ (hgone rfl k₁), fun hr => absurd hrel hr, h.buffer,
      h.released⟩
  | kept hrst => exact hset _ hrst
  | replied hrst hw hacc => exact (hset _ hrst).congr (.reply _ _)

/-- **The step lemma** of a channel's receive state. -/
theorem step_agrees {s s' : Sys} {a : Action} {i : ℕ} (h : s.Agrees i)
    (hfree : s.tasks s.fresh = none) (hown : RecvOwned i s a) (hstep : s.step a = some s') :
    s'.Agrees i := by
  cases recvStep_of_step hfree hstep with
  | quiet hsame hunfed => exact h.congr (hsame i)
  | @received j t rest hq hrec =>
    have hpop : ({ s with queue := rest } : Sys).Agrees i := h.congr (.congr rfl rfl Iff.rfl)
    by_cases hij : i = j
    · subst hij
      exact agrees_received hpop (hown t rest hq) hrec
    · exact hpop.congr (hrec.other hfree hij)
  | @released j rest hq hrel =>
    have hpop : ({ s with queue := rest } : Sys).Agrees i := h.congr (.congr rfl rfl Iff.rfl)
    exact hrel ▸ agrees_onRelease hpop j
  | @completed a j k o st result ha hk hmsg hend =>
    by_cases hij : i = j
    · subst hij
      exact agrees_completed h ⟨o, st, hk⟩ hend
    · exact h.congr ((SameRecv.remove hk (by simp [Ne.symm hij])).trans (hend.other hij))

lemma agrees_init (cfg : Config) (i : ℕ) : (init cfg).Agrees i :=
  ⟨by simp [RecvTask, init], fun _ => by simp [RecvTask, init, Registry.new, RecvState.default],
    by simp [init, Registry.new], fun _ => by simp [init, Registry.new]⟩

/-! ## The states that a step leads to -/

/-- What a step makes of the receive state of channel `i`. -/
inductive StateStep (i : ℕ) (s s' : Sys) : Action → Prop where
  | kept {a : Action} (hst' : s'.reg.recvStates i = s.reg.recvStates i) : StateStep i s s' a
  | served {a : Action} {st : RecvState} {m : Bytes} {buf : List Bytes}
      (hst : s.reg.recvStates i = some st) (hbuf : st.buffer = m :: buf)
      (hst' : s'.reg.recvStates i = some { st with buffer := buf }) : StateStep i s s' a
  | waits {t : ℕ} {rest : List Command} (hq : s.queue = .recv i t :: rest)
      (hst' : s'.reg.recvStates i = some ⟨true, some t, []⟩) : StateStep i s s' .dequeue
  | released {a : Action} (hst' : s'.reg.recvStates i = none) : StateStep i s s' a
  | ended {a : Action} {k : ℕ} {st : RecvState} {more : List Bytes}
      (hst : s.reg.recvStates i = some st) (hk : s.RecvTask i k)
      (hmore : more = st.buffer ∨ ∃ result, more = st.buffer ++ messages result)
      (hst' : s'.reg.recvStates i = some ⟨false, none, more⟩) : StateStep i s s' a

/-- Only a receive state that exists has a message in its buffer. -/
lemma recvState_of_buffer {s : Sys} {i : ℕ} {m : Bytes} {buf : List Bytes}
    (hbuf : ((s.reg.recvStates i).getD .default).buffer = m :: buf) :
    s.reg.recvStates i = some ((s.reg.recvStates i).getD .default) := by
  cases hst : s.reg.recvStates i with
  | none => simp [hst, RecvState.default] at hbuf
  | some st => rfl

lemma stateStep_received {s s' : Sys} {i t : ℕ} {rest : List Command}
    (hq : s.queue = .recv i t :: rest)
    (h : Received { s with queue := rest } i t ((s.reg.recvStates i).getD .default) s') :
    StateStep i s s' .dequeue := by
  have hset : ∀ st, (s.reg.setRecvState i st).recvStates i = some st := fun st => by
    simp [Registry.setRecvState]
  cases h with
  | @replied m buf hbuf hacc =>
    refine .served (recvState_of_buffer hbuf) hbuf ?_
    rw [(SameRecv.reply (i := i) t (.recv (.ok m))).state]
    exact hset _
  | kept hbuf hacc => exact .kept ((hset _).trans (recvState_of_buffer hbuf).symm)
  | joined hbuf hin =>
    refine .waits (t := t) hq ?_
    rw [(SameRecv.closeWaiter (i := i) _).state]
    exact hset _
  | spawned hbuf hin =>
    refine .waits (t := t) hq ?_
    show (Sys.closeWaiter _ _).reg.recvStates i = _
    rw [(SameRecv.closeWaiter (i := i) _).state]
    exact hset _

theorem stateStep_of_step {s s' : Sys} {a : Action} (hfree : s.tasks s.fresh = none)
    (hstep : s.step a = some s') (i : ℕ) : StateStep i s s' a := by
  cases recvStep_of_step hfree hstep with
  | quiet hsame hunfed => exact .kept (hsame i).state
  | @received j t rest hq hrec =>
    by_cases hij : i = j
    · subst hij
      exact stateStep_received hq hrec
    · exact .kept (hrec.other hfree hij).state
  | @released j rest hq hrel =>
    by_cases hij : i = j
    · subst hij
      obtain ⟨f, hf⟩ := onRelease_eq { s with queue := rest } i
      exact .released (by rw [← hrel, hf]; simp [Registry.release])
    · have hsame : SameRecv i { s with queue := rest } s' := hrel ▸ .onRelease hij
      exact .kept hsame.state
  | @completed a j k o x result ha hk hmsg hend =>
    by_cases hij : i = j
    · subst hij
      cases hend with
      | gone hnone => exact .kept rfl
      | kept hst =>
        exact .ended hst ⟨o, x, hk⟩ (.inr ⟨result, rfl⟩) (by simp [Registry.setRecvState])
      | replied hst hw hacc =>
        refine .ended hst ⟨o, x, hk⟩ (.inl rfl) ?_
        rw [(SameRecv.reply (i := i) _ _).state]
        simp [Registry.setRecvState]
    · have hsame : SameRecv i (s.setTask k none) s' := hend.other hij
      exact .kept hsame.state

/-! ## Every reachable state -/

/-- Only a `recv` that is taken from the queue creates a receive state. -/
lemma recvStates_of_step {s s' : Sys} {a : Action} (hfree : s.tasks s.fresh = none)
    (hstep : s.step a = some s') {i : ℕ} {st : RecvState} (hst : s'.reg.recvStates i = some st) :
    (∃ st', s.reg.recvStates i = some st') ∨
      a = .dequeue ∧ ∃ t rest, s.queue = .recv i t :: rest := by
  cases stateStep_of_step hfree hstep i with
  | kept hst' => exact .inl ⟨st, hst' ▸ hst⟩
  | served hold hbuf hst' => exact .inl ⟨_, hold⟩
  | waits hq hst' => exact .inr ⟨rfl, _, _, hq⟩
  | released hst' => exact absurd (hst'.symm.trans hst) (by simp)
  | ended hold hk hmore hst' => exact .inl ⟨_, hold⟩

lemma receives_init (cfg : Config) : (init cfg).Receives := fun i =>
  have h := agrees_init cfg i
  ⟨by simp [init, Registry.new], h.oneTask, h.inFlight, h.buffer, h.released⟩

theorem step_receives {s s' : Sys} {a : Action} (hs : Sound s) (h : s.Receives)
    (hstep : s.step a = some s') : s'.Receives := by
  intro i
  have hfree : s.tasks s.fresh = none := hs.tasks.tasks_fresh
  have hagrees := step_agrees (h i).agrees hfree (hs.recvOwned i a) hstep
  refine ⟨fun st hst => ?_, hagrees.oneTask, hagrees.inFlight, hagrees.buffer, hagrees.released⟩
  have hlt : i < s.created.length := by
    rcases recvStates_of_step hfree hstep hst with ⟨st', hst'⟩ | ⟨rfl, t, rest, hq⟩
    · exact (h i).typed st' hst'
    · exact (hs.recv_head hq).1
  exact hlt.trans_le (step_created hstep).length_le

end Sys

end FungiTransport
