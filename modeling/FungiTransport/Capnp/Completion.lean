import FungiTransport.Capnp.Attended
import FungiTransport.Capnp.Params
import FungiTransport.Lib.Progress

/-!
# Every call comes to an end

Once the callers start nothing new, the rest of a connection's life is bounded: each step uses up
some of what there is to do (`Sys.toDo`).  Where nothing more can happen, with every capnp call
answered by the server or failed with the connection, the queue and the tasks are gone and every
call that was not dropped has resolved.
-/

namespace FungiTransport

open Lib

/-- The callers start nothing new, and nothing more arrives at the backends. -/
def Action.winds : Action → Bool
  | .wake _ | .enqueue _ | .resolve _ | .dropFut _ | .dropHandle _ _ | .dequeue | .poll _
  | .answer _ _ | .resume _ => true
  | .newConnector | .listen _ | .configure _ | .connect _ _ | .accept _ | .send _ _ | .recv _
  | .arriveMsg _ _ | .arriveConn _ _ => false

/-- A step that no caller has to decide on: a future is polled, the actor or a task runs, or a capnp
call is answered. -/
def Action.runs : Action → Bool
  | .wake _ | .enqueue _ | .resolve _ | .dequeue | .poll _ | .answer _ _ | .resume _ => true
  | .dropFut _ | .dropHandle _ _ | .newConnector | .listen _ | .configure _ | .connect _ _
  | .accept _ | .send _ _ | .recv _ | .arriveMsg _ _ | .arriveConn _ _ => false

/-! ## What there is to do -/

/-- What a call has to do, its command and its task apart; one that creates a connector has its
`connect` ahead of it, and one that resolves may leave a handle to be dropped. -/
def Fut.toDo : Fut → ℕ
  | ⟨op, .waiting⟩ | ⟨op, .replied _⟩ | ⟨op, .closed⟩ => if op.isEnsure then 18 else 9
  | ⟨op, .sending⟩ => if op.isEnsure then 26 else 17
  | ⟨_, .parked⟩ => 27
  | ⟨_, .done _⟩ | ⟨_, .dropped⟩ => 0

/-- A live handle has its `Release` ahead of it. -/
def Handle.toDo (x : Handle) : ℕ := if x.live then 8 else 0

/-- What a task has to do; a `listen` has a second call ahead of it. -/
def Task.toDo : Task → ℕ
  | ⟨.listen _ _ _ _, .spawned⟩ => 6
  | ⟨.listen _ _ _ _, .issued⟩ => 5
  | ⟨.listen _ _ _ _, .answered _⟩ => 4
  | ⟨_, .spawned⟩ => 3
  | ⟨_, .issued⟩ => 2
  | ⟨_, .answered _⟩ => 1

/-- What a connection has to do. -/
def Sys.toDo (s : Sys) : ℕ :=
  tableWeight Fut.toDo s.fresh s.futs + tableWeight Handle.toDo s.fresh s.handles +
    7 * s.queue.length + tableWeight Task.toDo s.fresh s.tasks

lemma Task.toDo_le (call : Call) : Task.toDo ⟨call, .spawned⟩ ≤ 6 := by
  cases call <;> simp [Task.toDo]

lemma Task.toDo_issued (call : Call) : Task.toDo ⟨call, .issued⟩ < Task.toDo ⟨call, .spawned⟩ := by
  cases call <;> simp [Task.toDo]

lemma Task.toDo_answered (call : Call) (r : Except CapnpError Answer) :
    Task.toDo ⟨call, .answered r⟩ < Task.toDo ⟨call, .issued⟩ := by
  cases call <;> simp [Task.toDo]

lemma Task.toDo_pos (x : Task) : 0 < x.toDo := by
  obtain ⟨call, st⟩ := x
  cases call <;> cases st <;> simp [Task.toDo]

@[simp] lemma Fut.toDo_done (op : Op) (r : Reply) : Fut.toDo ⟨op, .done r⟩ = 0 := rfl

@[simp] lemma Fut.toDo_dropped (op : Op) : Fut.toDo ⟨op, .dropped⟩ = 0 := rfl

lemma Fut.toDo_le {f : Fut} (h : f.status.live) : 9 ≤ f.toDo := by
  obtain ⟨op, st⟩ := f
  cases st <;> simp only [Status.live] at h <;> cases op <;> simp_all [Fut.toDo, Op.isEnsure]

namespace Sys

/-! ## What a step uses up -/

/-- A task goes on or ends. -/
lemma tasks_of_run {s s' : Sys} {a : Action} (ha : isRemote a = true) (hruns : a.runs = true)
    (hne : a ≠ .dequeue) (hstep : s.step a = some s') :
    ∃ k x y, s.tasks k = some x ∧ s'.tasks = Function.update s.tasks k y ∧
      y.elim 0 Task.toDo < x.toDo ∧ s'.queue = s.queue ∧ s'.fresh = s.fresh ∧
      s'.handles = s.handles := by
  cases a with
  | dequeue => exact absurd rfl hne
  | poll k =>
    have hrest := poll_rest hstep
    refine ⟨k, ?_⟩
    rw [hrest]
    cases polled_of_poll hstep with
    | @issued call hk =>
      exact ⟨_, some ⟨call, .issued⟩, hk, by rw [issue_eq], Task.toDo_issued call, rfl, rfl, rfl⟩
    | replied hk ht hid hr =>
      exact ⟨_, none, hk, by rw [tasks_reply]; rfl, Task.toDo_pos _, rfl, rfl, rfl⟩
    | received hk =>
      exact ⟨_, none, hk, by rw [tasks_completeRecv]; rfl, Task.toDo_pos _, rfl, rfl, rfl⟩
  | answer k o =>
    obtain ⟨call, r, u, hk, -, -, rfl⟩ := answer_cases hstep
    exact ⟨k, _, some ⟨call, .answered r⟩, hk, rfl, Task.toDo_answered call r, rfl, rfl, rfl⟩
  | resume k =>
    have hrest := resume_rest hstep
    refine ⟨k, ?_⟩
    rw [hrest]
    cases resumed_of_resume hstep with
    | @listened o p n t c hk =>
      exact ⟨_, some ⟨.onionAddr c t, .issued⟩, hk, rfl, by simp [Task.toDo], rfl, rfl, rfl⟩
    | created hk hnew =>
      exact ⟨_, none, hk, by rw [tasks_reply]; rfl, Task.toDo_pos _, rfl, rfl, rfl⟩
    | replied hk ht hid hr =>
      exact ⟨_, none, hk, by rw [tasks_reply]; rfl, Task.toDo_pos _, rfl, rfl, rfl⟩
    | received hk hx =>
      exact ⟨_, none, hk, by rw [tasks_completeRecv]; rfl, Task.toDo_pos _, rfl, rfl, rfl⟩
  | arriveMsg c m | arriveConn c n => cases hruns
  | _ => exact absurd ha (by simp [isRemote])

/-- A command becomes a task at most. -/
lemma tasks_of_dequeue {s s' : Sys} (hstep : s.dequeue = some s') :
    s.fresh ≤ s'.fresh ∧ s'.handles = s.handles ∧ s'.queue.length + 1 = s.queue.length ∧
      (s'.tasks = s.tasks ∨
        ∃ call, s'.tasks = Function.update s.tasks s.fresh (some ⟨call, .spawned⟩)) := by
  obtain ⟨c, rest, hq, hdeq⟩ := dequeued_of_dequeue hstep
  have hlen : rest.length + 1 = s.queue.length := by rw [hq, List.length_cons]
  cases hdeq with
  | @created i t o ho =>
    obtain ⟨f, hf⟩ := reply_eq ({ s with queue := rest, fresh := s.fresh + 1 }.install .connector
      s.fresh) t (.connector s.reg.allocId.1)
    rw [hf]
    exact ⟨Nat.le_succ _, rfl, hlen, .inl rfl⟩
  | @closed i t =>
    obtain ⟨f, hf⟩ := closeReply_eq { s with queue := rest } t
    rw [hf]
    exact ⟨le_rfl, rfl, hlen, .inl rfl⟩
  | spawned hne hcall => exact ⟨Nat.le_succ _, rfl, hlen, .inr ⟨_, rfl⟩⟩
  | @received i t =>
    obtain ⟨f, g, heq | heq⟩ := onRecv_eq { s with queue := rest } i t
    · rw [heq]
      exact ⟨le_rfl, rfl, hlen, .inl rfl⟩
    · rw [heq]
      exact ⟨Nat.le_succ _, rfl, hlen, .inr ⟨_, rfl⟩⟩
  | @released i =>
    obtain ⟨f, hf⟩ := onRelease_eq { s with queue := rest } i
    rw [hf]
    exact ⟨le_rfl, rfl, hlen, .inl rfl⟩
  | @refused nf t =>
    obtain ⟨f, hf⟩ := reply_eq { s with queue := rest } t (.configure (.error .unreachable))
    rw [hf]
    exact ⟨le_rfl, rfl, hlen, .inl rfl⟩

/-- A reply costs its call nothing. -/
lemma futs_of_passes {s s' : Sys} (h : Passes s s') (t : ℕ) :
    (s'.futs t).elim 0 Fut.toDo = (s.futs t).elim 0 Fut.toDo := by
  rcases h.futs t with hsame | ⟨op, hold, hcl | ⟨r, hrep, -⟩⟩
  · rw [hsame]
  · rw [hold, hcl]
    rfl
  · rw [hold, hrep]
    rfl

lemma toDo_remote {s s' : Sys} {a : Action} (hr : Regular s) (ha : isRemote a = true)
    (hruns : a.runs = true) (hstep : s.step a = some s') : s'.toDo < s.toDo := by
  have hfree : s.tasks s.fresh = none := hr.sound.tasks.tasks_fresh
  have hfuts := futs_of_passes (passes_of_step hfree ha hstep)
  by_cases hne : a = .dequeue
  · subst hne
    obtain ⟨hfresh, hhandles, hlen, htasks⟩ := tasks_of_dequeue hstep
    have hF : tableWeight Fut.toDo s'.fresh s'.futs = tableWeight Fut.toDo s.fresh s.futs := by
      rw [tableWeight_congr hfuts]
      exact tableWeight_of_le hfresh fun i hi => hr.sound.base.callers.futs_fresh hi
    have hH : tableWeight Handle.toDo s'.fresh s'.handles =
        tableWeight Handle.toDo s.fresh s.handles := by
      rw [hhandles]
      refine tableWeight_of_le hfresh fun i hi => ?_
      by_contra hsome
      obtain ⟨x, hx⟩ := Option.ne_none_iff_exists'.mp hsome
      exact absurd (hr.sound.base.callers.handles i x hx).lt (by omega)
    have hT : tableWeight Task.toDo s'.fresh s.tasks = tableWeight Task.toDo s.fresh s.tasks := by
      refine tableWeight_of_le hfresh fun i hi => ?_
      by_contra hsome
      obtain ⟨x, hx⟩ := Option.ne_none_iff_exists'.mp hsome
      exact absurd (hr.sound.tasks.ok i x hx).lt (by omega)
    have hT' : tableWeight Task.toDo s'.fresh s'.tasks ≤ tableWeight Task.toDo s.fresh s.tasks + 6 := by
      rcases htasks with htasks | ⟨call, htasks⟩
      · rw [htasks, hT]
        omega
      · have hadd := tableWeight_add (w := Task.toDo) (n := s'.fresh) hfree (some ⟨call, .spawned⟩)
        have hle := Task.toDo_le call
        rw [hT, Option.elim_some] at hadd
        rw [htasks]
        omega
    simp only [toDo, hF, hH]
    omega
  · obtain ⟨k, x, y, hk, htasks, hlt, hqueue, hfresh, hhandles⟩ := tasks_of_run ha hruns hne hstep
    have hupdate := tableWeight_update (w := Task.toDo) (f := s.tasks) (hr.sound.tasks.ok k x hk).lt y
    rw [hk, Option.elim_some] at hupdate
    simp only [toDo, hqueue, hfresh, hhandles, htasks, tableWeight_congr hfuts]
    omega

lemma toDo_setFut {s : Sys} {t : ℕ} {f g : Fut} (hc : Callers s) (hf : s.futs t = some f) :
    tableWeight Fut.toDo s.fresh (Function.update s.futs t (some g)) + f.toDo =
      tableWeight Fut.toDo s.fresh s.futs + g.toDo := by
  have hupdate := tableWeight_update (w := Fut.toDo) (f := s.futs) (hc.futs t f hf).lt (some g)
  rwa [hf] at hupdate

lemma toDo_setHandle {s : Sys} {j : ℕ} (hj : j < s.fresh) (x : Handle) :
    tableWeight Handle.toDo s.fresh (Function.update s.handles j (some x)) +
        (s.handles j).elim 0 Handle.toDo =
      tableWeight Handle.toDo s.fresh s.handles + x.toDo :=
  tableWeight_update hj (some x)

lemma toDo_caller {s s' : Sys} {a : Action} (hr : Regular s) (ha : isRemote a = false)
    (hwinds : a.winds = true) (hstep : s.step a = some s') : s'.toDo < s.toDo := by
  have hc := hr.sound.base.callers
  cases a with
  | wake t =>
    obtain ⟨j, addr, hf, ⟨id, -, rfl⟩ | ⟨-, -, rfl⟩⟩ := wake_cases hstep
    · have hset := toDo_setFut (g := ⟨.connect j id addr, .sending⟩) hc hf
      simp [Fut.toDo, Op.isEnsure] at hset
      simp only [toDo, setFut]
      omega
    · have hset := toDo_setFut (g := ⟨.ensure j addr, .sending⟩) hc hf
      simp [Fut.toDo, Op.isEnsure] at hset
      simp only [toDo, setFut]
      omega
  | enqueue t =>
    obtain ⟨op, hf, rfl⟩ := enqueue_cases hstep
    have hset := toDo_setFut (g := ⟨op, .waiting⟩) hc hf
    have hlt : Fut.toDo ⟨op, .waiting⟩ + 7 < Fut.toDo ⟨op, .sending⟩ := by
      cases op <;> simp [Fut.toDo, Op.isEnsure]
    simp only [toDo, setFut, List.length_append, List.length_singleton]
    omega
  | dropFut t =>
    obtain ⟨op, st, hf, hl, rfl⟩ := dropFut_cases hstep
    have hset := toDo_setFut (g := ⟨op, .dropped⟩) hc hf
    have hle := Fut.toDo_le (f := ⟨op, st⟩) hl
    rw [Fut.toDo_dropped] at hset
    simp only [toDo, setFut]
    omega
  | dropHandle j d =>
    obtain ⟨k, id, hj, -, -, hcases⟩ := dropHandle_cases hstep
    have hset := toDo_setHandle (hc.handles j _ hj).lt ⟨k, id, false⟩
    simp only [hj, Option.elim_some, Handle.toDo] at hset
    rcases hcases with ⟨-, rfl⟩ | ⟨i, -, rfl⟩
    · simp only [toDo, setHandle]
      simp at hset
      omega
    · simp only [toDo, setHandle, List.length_append, List.length_singleton]
      simp at hset
      omega
  | resolve t =>
    -- a call that is polled has at least the handle to pay for that it may leave
    have hdone : ∀ {op : Op} {st : Status} (r : Reply), s.futs t = some ⟨op, st⟩ → st.live →
        tableWeight Fut.toDo s.fresh (Function.update s.futs t (some ⟨op, .done r⟩)) + 9 ≤
          tableWeight Fut.toDo s.fresh s.futs := by
      intro op st r hf hl
      have hset := toDo_setFut (g := ⟨op, .done r⟩) hc hf
      have hle := Fut.toDo_le (f := ⟨op, st⟩) hl
      rw [Fut.toDo_done] at hset
      omega
    cases resolving_of_resolve hstep with
    | @named op r k i hf hid hk =>
      have hset := toDo_setHandle (s := s) (hc.futs t _ hf).lt ⟨k, some i, true⟩
      have hle := hdone r hf rfl
      simp only [(hc.futs t _ hf).unnamed rfl, Option.elim_none, Handle.toDo] at hset
      simp only [toDo, resolveTo, setHandle, setFut]
      simp at hset
      omega
    | @filled j id addr x hf hx =>
      have hset := toDo_setFut (g := ⟨.connect j id addr, .sending⟩) hc hf
      have hset' := toDo_setHandle (hc.handles j x hx).lt { x with id := some id }
      simp [Fut.toDo, Op.isEnsure] at hset
      simp only [hx, Option.elim_some, Handle.toDo] at hset'
      simp only [toDo, setHandle, setFut]
      omega
    | unparsed hf hparses =>
      have hle := hdone (.listen (.error (.transport "unparseable listener address"))) hf rfl
      simp only [toDo, resolveTo, setFut]
      omega
    | @returned op r hf hid =>
      have hle := hdone r hf rfl
      simp only [toDo, resolveTo, setFut]
      omega
    | @disconnected op hf =>
      have hle := hdone op.disconnected hf rfl
      simp only [toDo, resolveTo, setFut]
      omega
  | dequeue | poll k | answer k o | resume k => exact absurd ha (by simp [isRemote])
  | _ => cases hwinds

/-- **A step that starts nothing new uses up some of what there is to do.** -/
theorem step_toDo {s s' : Sys} {a : Action} (hr : Regular s) (hwinds : a.winds = true)
    (hstep : s.step a = some s') : s'.toDo < s.toDo := by
  cases ha : isRemote a with
  | false => exact toDo_caller hr ha hwinds hstep
  | true =>
    refine toDo_remote hr ha ?_ hstep
    cases a with
    | dequeue | poll k | answer k o | resume k => rfl
    | arriveMsg c m | arriveConn c n => cases hwinds
    | _ => exact absurd ha (by simp [isRemote])

/-! ## Where nothing more can happen -/

/-- A task goes on with any answer that its call can get. -/
lemma onAnswer_isSome (s : Sys) (k : ℕ) {call : Call} {r : Except CapnpError Answer}
    (h : call.Takes r) : (s.onAnswer k call r).isSome := by
  cases r with
  | error e => cases call <;> rfl
  | ok a => cases call <;> cases a <;> first | rfl | exact absurd h (by simp [Call.Takes])

/-- A capnp call can always fail with the connection. -/
lemma answer_rpcErr_isSome {s : Sys} {k : ℕ} {call : Call} (hk : s.tasks k = some ⟨call, .issued⟩)
    (e : CapnpError) : (s.answer k (.rpcErr e)).isSome := by
  have hserve : s.serve k call (.rpcErr e) = some (s, .error e) := by
    cases call with
    | listen c v n t | connect c text t | accept c t | send c m t | recv i c => cases c <;> rfl
    | onionAddr c t | configure p nf t => rfl
  simp [answer, hk, Outcome.isRpcErr, hserve]

/-- A task can always be run. -/
lemma task_runs {s : Sys} (h : Attended s) {k : ℕ} {x : Task} (hk : s.tasks k = some x) :
    ∃ a s', a.runs = true ∧ s.step a = some s' := by
  obtain ⟨call, st⟩ := x
  cases st with
  | spawned =>
    have hpoll : (s.poll k).isSome := by
      simp only [poll, hk]
      split <;> rfl
    obtain ⟨s', hs'⟩ := Option.isSome_iff_exists.mp hpoll
    exact ⟨.poll k, s', rfl, hs'⟩
  | issued =>
    obtain ⟨s', hs'⟩ := Option.isSome_iff_exists.mp (answer_rpcErr_isSome hk ⟨.disconnected, ""⟩)
    exact ⟨.answer k _, s', rfl, hs'⟩
  | answered r =>
    obtain ⟨s', hs'⟩ := Option.isSome_iff_exists.mp (onAnswer_isSome s k (h.answered k call r hk))
    exact ⟨.resume k, s', rfl, by simpa [step, resume, hk] using hs'⟩

/-- A reply that has arrived can be taken. -/
lemma resolve_isSome {s : Sys} (h : Attended s) (hc : Callers s) {t : ℕ} {op : Op} {r : Reply}
    (hf : s.futs t = some ⟨op, .replied r⟩) : (s.resolve t).isSome := by
  have hshape := h.slot t op r hf
  simp only [resolve, hf]
  cases op with
  | ensure j addr =>
    obtain ⟨id, hj, -⟩ := (hc.futs t _ hf).ensure rfl j addr rfl
    cases r with
    | connector id => simp [onReply, hj]
    | _ => exact absurd hshape (by simp [Op.shape, Reply.shape])
  | listen p =>
    cases r with
    | listen x =>
      rcases x with e | ⟨id, addr⟩
      · rfl
      · simp only [onReply]
        split <;> rfl
    | _ => exact absurd hshape (by simp [Op.shape, Reply.shape])
  | connect j id addr =>
    cases r with
    | connect x => cases x <;> rfl
    | _ => exact absurd hshape (by simp [Op.shape, Reply.shape])
  | accept j id =>
    cases r with
    | accept x => cases x <;> rfl
    | _ => exact absurd hshape (by simp [Op.shape, Reply.shape])
  | send j id m | recv j id | configure nf =>
    cases r <;> first | rfl | exact absurd hshape (by simp [Op.shape, Reply.shape])

section Stuck

variable {s : Sys} (hstuck : Stuck step (fun _ a => a.runs = true) s) (h : Attended s)

include hstuck

lemma queue_of_stuck : s.queue = [] := by
  cases hq : s.queue with
  | nil => rfl
  | cons c rest =>
    have hnone : s.step .dequeue = none := hstuck.step_eq_none rfl
    simp [step, dequeue, hq] at hnone

include h

lemma tasks_of_stuck (k : ℕ) : s.tasks k = none := by
  by_contra hk
  obtain ⟨x, hk⟩ := Option.ne_none_iff_exists'.mp hk
  obtain ⟨a, s', ha, hs'⟩ := task_runs h hk
  exact hstuck a s' ha hs'

/-- Only a call that waits for the connector is left, and nobody is creating that. -/
lemma parked_of_stuck (hc : Callers s) (hrecv : s.Receives) {t : ℕ} {f : Fut}
    (hf : s.futs t = some f) (hl : f.status.live) : f.status = .parked := by
  obtain ⟨op, st⟩ := f
  cases st with
  | parked => rfl
  | sending =>
    have hnone : s.step (.enqueue t) = none := hstuck.step_eq_none rfl
    simp [step, enqueue, hf, queue_of_stuck hstuck, commandQueueDepth] at hnone
  | waiting =>
    -- the reply is owed by nobody that is left
    exfalso
    have howes := h.owed t op hf
    generalize op.shape = x at howes
    cases howes with
    | queued hmem hx => simp [queue_of_stuck hstuck] at hmem
    | tasked hk hx => simp [tasks_of_stuck hstuck h] at hk
    | waits hst hw =>
      obtain ⟨k, o, stage, hk⟩ := recvTask_of_waiter h hrecv hst hw
      simp [tasks_of_stuck hstuck h] at hk
  | replied r =>
    have hnone : s.step (.resolve t) = none := hstuck.step_eq_none rfl
    have hsome := resolve_isSome h hc hf
    rw [show s.resolve t = none from hnone] at hsome
    cases hsome
  | closed =>
    have hnone : s.step (.resolve t) = none := hstuck.step_eq_none rfl
    simp [step, resolve, hf] at hnone
  | done r | dropped => cases hl

/-- Where nothing more can happen, no call is left. -/
lemma futs_of_stuck (hc : Callers s) (hrecv : s.Receives) {t : ℕ} {f : Fut}
    (hf : s.futs t = some f) : f.status.live = false := by
  by_contra hl
  have hl : f.status.live = true := by simpa using hl
  have hparked := parked_of_stuck hstuck h hc hrecv hf hl
  obtain ⟨op, st⟩ := f
  obtain rfl : st = .parked := hparked
  have hshape := h.parked t op hf
  cases op with
  | ensure j addr =>
    -- the cell is filled or free, so the call can go on
    have hnone : s.step (.wake t) = none := hstuck.step_eq_none rfl
    have hfree : s.initialising j = false := by
      rw [Bool.eq_false_iff]
      intro hinit
      simp only [initialising, List.any_eq_true] at hinit
      obtain ⟨u, -, hu⟩ := hinit
      obtain ⟨g, hg, hg'⟩ := (Option.any_eq_true _ _).mp hu
      obtain ⟨op', st'⟩ := g
      cases op' with
      | ensure j' addr' =>
        simp only [Bool.and_eq_true, bne_iff_ne] at hg'
        exact hg'.1.2 (parked_of_stuck hstuck h hc hrecv hg hg'.1.1)
      | _ => cases hg'
    simp only [step, wake, hf] at hnone
    split at hnone
    · cases hnone
    · simp [hfree] at hnone
  | _ => cases hshape

end Stuck

/-- Where no call, no command and no task is left, nothing more can happen. -/
lemma stuck_of_quiet {s : Sys} (hr : Regular s) (hqueue : s.queue = [])
    (htasks : ∀ k < s.fresh, s.tasks k = none)
    (hfuts : ∀ t < s.fresh, (s.futs t).all fun f => !f.status.live) :
    Stuck step (fun _ a => a.runs = true) s := by
  have hnone : ∀ k, s.tasks k = none := fun k => by
    by_contra hk
    obtain ⟨x, hx⟩ := Option.ne_none_iff_exists'.mp hk
    exact hk (htasks k (hr.sound.tasks.ok k x hx).lt)
  have hdead : ∀ t op st, s.futs t = some ⟨op, st⟩ → st.live = false := fun t op st hf => by
    simpa [hf] using hfuts t (hr.sound.base.callers.futs t _ hf).lt
  intro a s' ha hstep
  cases a with
  | wake t =>
    obtain ⟨j, addr, hf, -⟩ := wake_cases hstep
    cases hdead t _ _ hf
  | enqueue t =>
    obtain ⟨op, hf, -⟩ := enqueue_cases hstep
    cases hdead t _ _ hf
  | resolve t =>
    obtain ⟨op, st, hf, ⟨r, rfl⟩ | rfl⟩ := (resolving_of_resolve hstep).fut
    · cases hdead t _ _ hf
    · cases hdead t _ _ hf
  | dequeue => simp [step, dequeue, hqueue] at hstep
  | poll k => simp [step, poll, hnone k] at hstep
  | answer k o => simp [step, answer, hnone k] at hstep
  | resume k => simp [step, resume, hnone k] at hstep
  | _ => cases ha

/-- A call stays a call. -/
lemma fut_of_step {s s' : Sys} {a : Action} (hr : Regular s) (hstep : s.step a = some s') {t : ℕ}
    {f : Fut} (hf : s.futs t = some f) : ∃ g, s'.futs t = some g := by
  have hc := hr.sound.base.callers
  cases ha : isRemote a with
  | false =>
    cases (step_caller_futs (hc.futs_fresh le_rfl) ha hstep).1 t with
    | kept hsame => exact ⟨f, hsame.trans hf⟩
    | started hold hlt hnew hplain => simp [hold] at hf
    | moved hold hnew hop hplain => exact ⟨_, hnew⟩
  | true =>
    rcases (passes_of_step hr.sound.tasks.tasks_fresh ha hstep).futs t with
      hsame | ⟨op, -, hcl | ⟨r, hrep, -⟩⟩
    · exact ⟨f, hsame.trans hf⟩
    · exact ⟨_, hcl⟩
    · exact ⟨_, hrep⟩

/-! ## To the end -/

/-- What every reachable state has. -/
structure Orderly (s : Sys) : Prop where
  regular : Regular s
  attended : Attended s
  receives : s.Receives

lemma orderly_of_run {cfg : Config} {as : List Action} {s : Sys}
    (hrun : run step (Sys.init cfg) as = some s) (hfew : s.created.length < 2 ^ 64) : Orderly s := by
  obtain ⟨hr, h, hrecv⟩ := attended_of_run hrun hfew
  exact ⟨hr, h, hrecv⟩

lemma step_orderly {s s' : Sys} {a : Action} (h : Orderly s) (hstep : s.step a = some s')
    (hfew : s'.created.length < 2 ^ 64) : Orderly s' where
  regular := ⟨step_sound h.regular.sound hstep hfew, step_tickets h.regular.sound h.regular.tickets hstep⟩
  attended := step_attended h.attended h.regular hstep
  receives := step_receives h.regular.sound h.receives hstep

/-- A call that its caller does not drop is not dropped. -/
lemma not_dropped_of_run {as : List Action} {s u : Sys} {t : ℕ} (h : Orderly s)
    (hrun : run step s as = some u) (hfew : u.created.length < 2 ^ 64) (ht : .dropFut t ∉ as)
    (hs : ∃ f, s.futs t = some f ∧ f.status ≠ .dropped) :
    ∃ f, u.futs t = some f ∧ f.status ≠ .dropped := by
  have hkeep : EachStep step (fun _ a => a ≠ .dropFut t) s as :=
    eachStep_iff.mpr fun pre a post v hcut _ ha => ht (hcut ▸ ha ▸ by simp)
  refine (run_induction (I := fun s => Orderly s ∧ ∃ f, s.futs t = some f ∧ f.status ≠ .dropped)
    (fun s a s' hI hP hstep => ?_) ⟨h, hs⟩ (hkeep.and (few_of_run hrun hfew).1) hrun).2
  obtain ⟨ho, f, hf, hne⟩ := hI
  refine ⟨step_orderly ho hstep (hP.2 s' hstep), ?_⟩
  obtain ⟨⟨op, st⟩, hg⟩ := fut_of_step ho.regular hstep hf
  refine ⟨_, hg, ?_⟩
  rintro rfl
  rcases dropped_cases ho.regular.sound.base.callers hstep hg with hold | ⟨ha, -⟩
  · rw [hf] at hold
    exact hne (by rw [Option.some.inj hold])
  · exact hP.1 ha

/-- **Every call comes to an end.**  From any reachable state, as soon as the callers start nothing
new, the run is bounded by what there is to do, whatever is dropped and in whatever order the actor,
the tasks and the server go on.  And where no further step is possible, with every capnp call
answered or failed with the connection, the queue is empty, no task is left, and every call that
was alive and was not dropped has resolved. -/
theorem calls_complete {cfg : Config} {as bs : List Action} {s u : Sys}
    (hrun : run step (Sys.init cfg) as = some s)
    (hwinds : EachStep step (fun _ a => a.winds = true) s bs) (hrun' : run step s bs = some u)
    (hfew : u.created.length < 2 ^ 64) :
    bs.length + u.toDo ≤ s.toDo ∧
      (Stuck step (fun _ a => a.runs = true) u →
        u.queue = [] ∧ (∀ k, u.tasks k = none) ∧
          ∀ t f, s.futs t = some f → f.status.live → .dropFut t ∉ bs →
            ∃ op r, u.futs t = some ⟨op, .done r⟩) := by
  obtain ⟨hfews, hfew'⟩ := few_of_run hrun' hfew
  have hs : Orderly s := orderly_of_run hrun hfew'
  have hu : Orderly u := run_induction (I := Orderly)
    (fun v a v' h hP hstep => step_orderly h hstep (hP v' hstep)) hs hfews hrun'
  refine ⟨length_add_rank_le (I := Orderly) (fun v a v' h hP hstep =>
    ⟨step_orderly h hstep (hP.2 v' hstep), step_toDo h.regular hP.1 hstep⟩) hs (hwinds.and hfews) hrun',
    fun hstuck => ⟨queue_of_stuck hstuck, tasks_of_stuck hstuck hu.attended, fun t f hf hl ht => ?_⟩⟩
  have hne : f.status ≠ .dropped := by
    intro hd
    rw [hd] at hl
    cases hl
  obtain ⟨⟨op, st⟩, hg, hst⟩ := not_dropped_of_run hs hrun' hfew ht ⟨f, hf, hne⟩
  have hdead := futs_of_stuck hstuck hu.attended hu.regular.sound.base.callers hu.receives hg
  cases st with
  | done r => exact ⟨op, r, hg⟩
  | dropped => exact absurd rfl hst
  | _ => cases hdead

/-- Two `connect`s over one new connector, of which the second waits for the first to create it; the
connection is lost before the server answers. -/
theorem calls_complete_lost :
    let start := [.newConnector, .connect 2 "a", .connect 2 "b"]
    let rest := [.enqueue 3, .dequeue, .resolve 3, .wake 4, .enqueue 4, .enqueue 3, .dequeue,
      .dequeue, .poll 6, .poll 7, .answer 7 (.rpcErr ⟨.disconnected, ""⟩),
      .answer 6 (.rpcErr ⟨.disconnected, ""⟩), .resume 6, .resume 7, .resolve 3, .resolve 4]
    ∃ s u, run step (Sys.init ⟨.plugin, 8, fun _ => true, fun _ => true, id⟩) start = some s ∧
      run step s rest = some u ∧ rest.length ≤ s.toDo ∧ u.queue = [] ∧
      (∃ op r, u.futs 3 = some ⟨op, .done r⟩) ∧
      u.futs 4 = some ⟨.connect 2 1 "b", .done (.connect (.error .unreachable))⟩ := by
  intro start rest
  obtain ⟨s, u, hrun, hwinds, hrun', hfew, hqueue, htasks, hfuts, hf3, hf4⟩ : ∃ s u,
      run step (Sys.init ⟨.plugin, 8, fun _ => true, fun _ => true, id⟩) start = some s ∧
      EachStep step (fun _ a => a.winds = true) s rest ∧ run step s rest = some u ∧
      u.created.length < 2 ^ 64 ∧ u.queue = [] ∧ (∀ k < u.fresh, u.tasks k = none) ∧
      (∀ t < u.fresh, (u.futs t).all fun f => !f.status.live) ∧
      s.futs 3 = some ⟨.ensure 2 "a", .sending⟩ ∧
      u.futs 4 = some ⟨.connect 2 1 "b", .done (.connect (.error .unreachable))⟩ :=
    ⟨_, _, rfl, by decide, Option.eq_some_of_isSome (by decide), by decide, by decide, by decide,
      by decide, by decide, by decide⟩
  obtain ⟨hle, hend⟩ := calls_complete hrun hwinds hrun' hfew
  have hrun'' : run step (Sys.init ⟨.plugin, 8, fun _ => true, fun _ => true, id⟩)
      (start ++ rest) = some u := run_append.mpr ⟨s, hrun, hrun'⟩
  have hstuck := stuck_of_quiet (orderly_of_run hrun'' hfew).regular hqueue htasks hfuts
  exact ⟨s, u, hrun, hrun', by omega, hqueue,
    (hend hstuck).2.2 3 _ hf3 rfl (by decide), hf4⟩

end Sys

end FungiTransport
