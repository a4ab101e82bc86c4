import FungiTransport.Capnp.Tasks

/-!
# What a step does to the tasks

A task is spawned for the command at the head of the queue, its call is issued and answered, and
it ends; a `listen` task goes on with a second call.  `Sys.TaskStep` says where a task that is
there after a step comes from, and `Sys.step_lock` what a step does to the calls at a mutex.
Invariants about tasks are derived from these, without a look at the step function.
-/

namespace FungiTransport

open Lib

namespace Sys

/-- Where the task `k` is from that a step leaves as `x`. -/
inductive TaskStep (s : Sys) : Action → ℕ → Task → Prop where
  | kept {a : Action} {k : ℕ} {x : Task} (hk : s.tasks k = some x) : TaskStep s a k x
  | spawned {c : Command} {rest : List Command} {call : Call} (hq : s.queue = c :: rest)
      (hcall : s.calls c = some call) : TaskStep s .dequeue s.fresh ⟨call, .spawned⟩
  | issued {k : ℕ} {call : Call} (hk : s.tasks k = some ⟨call, .spawned⟩) :
      TaskStep s (.poll k) k ⟨call, .issued⟩
  | answered {k : ℕ} {o : Outcome} {call : Call} {r : Except CapnpError Answer}
      (hk : s.tasks k = some ⟨call, .issued⟩) : TaskStep s (.answer k o) k ⟨call, .answered r⟩
  | listened {k t : ℕ} {c : Option Cap} {c' : Cap} {v : UInt16} {n : Option String}
      (hk : s.tasks k = some ⟨.listen c v n t, .answered (.ok (.cap c'))⟩) :
      TaskStep s (.resume k) k ⟨.onionAddr c' t, .issued⟩

/-! ## Commands -/

/-- `Command::Recv` leaves the tasks alone or spawns one. -/
lemma tasks_onRecv_cases (s : Sys) (i t : ℕ) (rest : List Command) :
    let s' := { s with queue := rest }.onRecv i t
    (s'.tasks = s.tasks ∧ s'.fresh = s.fresh) ∨
      ∃ call, s.calls (.recv i t) = some call ∧ s'.fresh = s.fresh + 1 ∧
        s'.tasks = Function.update s.tasks s.fresh (some ⟨call, .spawned⟩) := by
  dsimp only
  generalize hs' : ({ s with queue := rest } : Sys).onRecv i t = s'
  cases received_of_onRecv hs' with
  | @replied m buf hbuf hacc =>
    obtain ⟨f, hf⟩ := reply_eq _ t (.recv (.ok m))
    exact .inl ⟨by rw [hf], by rw [hf]⟩
  | kept hbuf hacc => exact .inl ⟨rfl, rfl⟩
  | joined hbuf hin =>
    obtain ⟨f, hf⟩ := closeWaiter_eq _ ((s.reg.recvStates i).getD .default).waiter
    exact .inl ⟨by rw [hf], by rw [hf]⟩
  | spawned hbuf hin =>
    obtain ⟨f, hf⟩ := closeWaiter_eq _ ((s.reg.recvStates i).getD .default).waiter
    rw [hf]
    exact .inr ⟨_, if_pos ⟨hbuf, hin⟩, rfl, rfl⟩

/-- The actor takes a command: it may take a name, and spawns the task of the command under it. -/
lemma tasks_dequeue_cases {s s' : Sys} (hstep : s.dequeue = some s') :
    (s'.tasks = s.tasks ∧ s.fresh ≤ s'.fresh) ∨
      ∃ c rest call, s.queue = c :: rest ∧ s.calls c = some call ∧ s'.fresh = s.fresh + 1 ∧
        s'.tasks = Function.update s.tasks s.fresh (some ⟨call, .spawned⟩) := by
  obtain ⟨c, rest, hq, hdeq⟩ := dequeued_of_dequeue hstep
  cases hdeq with
  | @created i t o ho =>
    obtain ⟨f, hf⟩ := reply_eq ({ s with queue := rest, fresh := s.fresh + 1 }.install
      .connector s.fresh) t (.connector s.reg.allocId.1)
    rw [hf]
    exact .inl ⟨rfl, Nat.le_succ _⟩
  | @closed i t =>
    obtain ⟨f, hf⟩ := closeReply_eq { s with queue := rest } t
    rw [hf]
    exact .inl ⟨rfl, le_rfl⟩
  | spawned hne hcall => exact .inr ⟨c, rest, _, hq, hcall, rfl, rfl⟩
  | @received i t =>
    rcases tasks_onRecv_cases s i t rest with ⟨htasks, hfresh⟩ | ⟨call, hcall, hfresh, htasks⟩
    · exact .inl ⟨htasks, hfresh.ge⟩
    · exact .inr ⟨_, rest, call, hq, hcall, hfresh, htasks⟩
  | @released i =>
    obtain ⟨f, hf⟩ := onRelease_eq { s with queue := rest } i
    rw [hf]
    exact .inl ⟨rfl, le_rfl⟩
  | @refused nf t =>
    obtain ⟨f, hf⟩ := reply_eq { s with queue := rest } t (.configure (.error .unreachable))
    rw [hf]
    exact .inl ⟨rfl, le_rfl⟩

lemma taskStep_dequeue {s s' : Sys} (hstep : s.dequeue = some s') {k : ℕ} {x : Task}
    (hk : s'.tasks k = some x) : s.TaskStep .dequeue k x := by
  rcases tasks_dequeue_cases hstep with ⟨htasks, -⟩ | ⟨c, rest, call, hq, hcall, -, htasks⟩
  · exact .kept (htasks ▸ hk)
  · rw [htasks] at hk
    rcases update_eq_some hk with ⟨rfl, hx⟩ | ⟨-, hk⟩
    · exact Option.some.inj hx ▸ .spawned hq hcall
    · exact .kept hk

/-! ## Tasks -/

/-- A task ends; the others stay. -/
lemma taskStep_remove {s s' : Sys} {j : ℕ} (h : s'.tasks = Function.update s.tasks j none)
    {a : Action} {k : ℕ} {x : Task} (hk : s'.tasks k = some x) : s.TaskStep a k x := by
  rw [h] at hk
  rcases update_eq_some hk with ⟨-, hx⟩ | ⟨-, hk⟩
  · exact absurd hx (by simp)
  · exact .kept hk

/-- A task that is polled first makes its call, or ends without its capability. -/
lemma tasks_poll_cases {s s' : Sys} {j : ℕ} (hstep : s.poll j = some s') :
    ∃ call, s.tasks j = some ⟨call, .spawned⟩ ∧
      (s'.tasks = Function.update s.tasks j none ∨
        s'.tasks = Function.update s.tasks j (some ⟨call, .issued⟩)) := by
  cases polled_of_poll hstep with
  | issued hk => exact ⟨_, hk, .inr (by rw [issue_eq])⟩
  | replied hk ht hid hr => exact ⟨_, hk, .inl (tasks_reply _ _ _)⟩
  | received hk => exact ⟨_, hk, .inl (tasks_completeRecv _ _ _)⟩

lemma taskStep_poll {s s' : Sys} {j : ℕ} (hstep : s.poll j = some s') {k : ℕ} {x : Task}
    (hk : s'.tasks k = some x) : s.TaskStep (.poll j) k x := by
  obtain ⟨call, hj, h | h⟩ := tasks_poll_cases hstep
  · exact taskStep_remove h hk
  · rw [h] at hk
    rcases update_eq_some hk with ⟨rfl, hx⟩ | ⟨-, hk⟩
    · exact Option.some.inj hx ▸ .issued hj
    · exact .kept hk

lemma taskStep_answer {s s' : Sys} {j : ℕ} {o : Outcome} (hstep : s.answer j o = some s') {k : ℕ}
    {x : Task} (hk : s'.tasks k = some x) : s.TaskStep (.answer j o) k x := by
  obtain ⟨call, r, u, hj, -, -, rfl⟩ := answer_cases hstep
  rcases update_eq_some hk with ⟨rfl, hx⟩ | ⟨-, hk⟩
  · exact Option.some.inj hx ▸ .answered hj
  · exact .kept hk

/-- How a task ends, or a `listen` task goes on. -/
lemma tasks_resume_cases {s s' : Sys} {j : ℕ} (hstep : s.resume j = some s') :
    ∃ call r, s.tasks j = some ⟨call, .answered r⟩ ∧
      (s'.tasks = Function.update s.tasks j none ∨
        ∃ c c' v n t, call = .listen c v n t ∧ r = .ok (.cap c') ∧
          s'.tasks = Function.update s.tasks j (some ⟨.onionAddr c' t, .issued⟩)) := by
  cases resumed_of_resume hstep with
  | listened hk => exact ⟨_, _, hk, .inr ⟨_, _, _, _, _, rfl, rfl, rfl⟩⟩
  | created hk hnew => exact ⟨_, _, hk, .inl (tasks_reply _ _ _)⟩
  | replied hk ht hid hr => exact ⟨_, _, hk, .inl (tasks_reply _ _ _)⟩
  | received hk hx => exact ⟨_, _, hk, .inl (tasks_completeRecv _ _ _)⟩

lemma taskStep_resume {s s' : Sys} {j : ℕ} (hstep : s.resume j = some s') {k : ℕ} {x : Task}
    (hk : s'.tasks k = some x) : s.TaskStep (.resume j) k x := by
  obtain ⟨call, r, hj, h | ⟨c, c', v, n, t, rfl, rfl, h⟩⟩ := tasks_resume_cases hstep
  · exact taskStep_remove h hk
  · rw [h] at hk
    rcases update_eq_some hk with ⟨rfl, hx⟩ | ⟨-, hk⟩
    · exact Option.some.inj hx ▸ .listened hj
    · exact .kept hk

/-- **Where a task comes from.** -/
theorem taskStep_of_step {s s' : Sys} {a : Action} (hstep : s.step a = some s') {k : ℕ} {x : Task}
    (hk : s'.tasks k = some x) : s.TaskStep a k x := by
  cases ha : isRemote a with
  | false =>
    rw [(step_caller_rest ha hstep).1] at hk
    exact .kept hk
  | true =>
    cases a with
    | dequeue => exact taskStep_dequeue hstep hk
    | poll j => exact taskStep_poll hstep hk
    | answer j o => exact taskStep_answer hstep hk
    | resume j => exact taskStep_resume hstep hk
    | arriveMsg c m | arriveConn c n =>
      obtain rfl := Option.some.inj hstep
      exact .kept hk
    | _ => exact absurd ha (by simp [isRemote])

/-- A task is left as it is by a step that is not its own. -/
lemma task_kept {s s' : Sys} {a : Action} (hstep : s.step a = some s')
    (hfresh : s.tasks s.fresh = none) {k : ℕ} {x : Task} (hk : s.tasks k = some x)
    (hpoll : a ≠ .poll k) (hanswer : ∀ o, a ≠ .answer k o) (hresume : a ≠ .resume k) :
    s'.tasks k = some x := by
  have hother : ∀ {j : ℕ} {y : Option Task}, k ≠ j → s'.tasks = Function.update s.tasks j y →
      s'.tasks k = some x := by
    intro j y hkj h
    rw [h, Function.update_of_ne hkj, hk]
  cases ha : isRemote a with
  | false => rw [(step_caller_rest ha hstep).1, hk]
  | true =>
    cases a with
    | dequeue =>
      rcases tasks_dequeue_cases hstep with ⟨htasks, -⟩ | ⟨c, rest, call, -, -, -, htasks⟩
      · rw [htasks, hk]
      · refine hother ?_ htasks
        rintro rfl
        simp [hfresh] at hk
    | poll j =>
      have hkj : k ≠ j := by
        rintro rfl
        exact hpoll rfl
      obtain ⟨call, -, h | h⟩ := tasks_poll_cases hstep <;> exact hother hkj h
    | answer j o =>
      obtain ⟨call, r, u, -, -, -, rfl⟩ := answer_cases hstep
      refine hother ?_ rfl
      rintro rfl
      exact hanswer o rfl
    | resume j =>
      have hkj : k ≠ j := by
        rintro rfl
        exact hresume rfl
      obtain ⟨call, r, -, h | ⟨c, c', v, n, t, -, -, h⟩⟩ := tasks_resume_cases hstep <;>
        exact hother hkj h
    | arriveMsg c m | arriveConn c n =>
      obtain rfl := Option.some.inj hstep
      exact hk
    | _ => exact absurd ha (by simp [isRemote])

/-! ## The calls at a mutex -/

/-- What a step makes of the calls at the mutex of an object: a call is issued and joins them, or
is answered and leaves them. -/
inductive LockStep (s s' : Sys) (c : Cap) : Action → Prop where
  | kept {a : Action} (hlock : s'.lock c = s.lock c) : LockStep s s' c a
  | issued {k : ℕ} {call : Call} (hk : s.tasks k = some ⟨call, .spawned⟩)
      (hk' : s'.tasks k = some ⟨call, .issued⟩) (hmutex : call.mutex = some c)
      (hlock : s'.lock c = s.lock c ++ [k]) : LockStep s s' c (.poll k)
  | answered {k : ℕ} {o : Outcome} (hlock : s'.lock c = (s.lock c).erase k) :
      LockStep s s' c (.answer k o)

theorem step_lock {s s' : Sys} {a : Action} (hstep : s.step a = some s') (c : Cap) :
    s.LockStep s' c a := by
  cases ha : isRemote a with
  | false => exact .kept (by rw [(step_caller_rest ha hstep).1])
  | true =>
    cases a with
    | dequeue => exact .kept (by rw [dequeue_rest hstep])
    | poll k =>
      cases polled_of_poll hstep with
      | @issued call hk =>
        rw [issue_eq]
        by_cases hmutex : call.mutex = some c
        · exact .issued hk (Function.update_self _ _ _) hmutex (if_pos hmutex)
        · exact .kept (if_neg hmutex)
      | replied hk ht hid hr => exact .kept (congrFun (lock_reply _ _ _) c)
      | received hk => exact .kept (congrFun (lock_completeRecv _ _ _) c)
    | answer k o =>
      obtain ⟨call, r, u, hk, -, -, rfl⟩ := answer_cases hstep
      by_cases hmutex : call.mutex = some c
      · exact .answered (if_pos hmutex)
      · exact .kept (if_neg hmutex)
    | resume k => exact .kept (by rw [resume_rest hstep])
    | arriveMsg d m | arriveConn d n =>
      obtain rfl := Option.some.inj hstep
      exact .kept rfl
    | _ => exact absurd ha (by simp [isRemote])

/-! ## Names, ids and the plugin -/

/-- Names are never given back. -/
lemma step_fresh {s s' : Sys} {a : Action} (hstep : s.step a = some s') : s.fresh ≤ s'.fresh := by
  cases ha : isRemote a with
  | false => exact (step_caller_rest ha hstep).2
  | true =>
    cases a with
    | dequeue =>
      rcases tasks_dequeue_cases hstep with ⟨-, hfresh⟩ | ⟨c, rest, call, -, -, hfresh, -⟩
      · exact hfresh
      · omega
    | poll k => rw [poll_rest hstep]
    | answer k o =>
      obtain ⟨call, r, u, -, -, -, rfl⟩ := answer_cases hstep
      exact le_rfl
    | resume k => rw [resume_rest hstep]
    | arriveMsg c m | arriveConn c n =>
      obtain rfl := Option.some.inj hstep
      exact le_rfl
    | _ => exact absurd ha (by simp [isRemote])

/-- An id is released by its command at the head of the queue. -/
lemma released_cases {s s' : Sys} {a : Action} (hstep : s.step a = some s') :
    s'.released = s.released ∨
      ∃ i rest, a = .dequeue ∧ s.queue = .release i :: rest ∧ s'.released = i :: s.released := by
  cases ha : isRemote a with
  | false => exact .inl (by rw [(step_caller_rest ha hstep).1])
  | true =>
    cases a with
    | dequeue =>
      obtain ⟨c, rest, hq, hdeq⟩ := dequeued_of_dequeue hstep
      cases hdeq with
      | created ho => exact .inl (released_reply _ _ _)
      | closed => exact .inl (closeReply_rest _ _).2.2
      | spawned hne hcall => exact .inl rfl
      | @received i t =>
        obtain ⟨f, g, heq | heq⟩ := onRecv_eq { s with queue := rest } i t <;> rw [heq]
        · exact .inl rfl
        · exact .inl rfl
      | @released i =>
        obtain ⟨f, hf⟩ := onRelease_eq { s with queue := rest } i
        exact .inr ⟨i, rest, rfl, hq, by rw [hf]⟩
      | refused => exact .inl (released_reply _ _ _)
    | poll k => exact .inl (by rw [poll_rest hstep])
    | answer k o =>
      obtain ⟨call, r, u, -, -, -, rfl⟩ := answer_cases hstep
      exact .inl rfl
    | resume k => exact .inl (by rw [resume_rest hstep])
    | arriveMsg c m | arriveConn c n =>
      obtain rfl := Option.some.inj hstep
      exact .inl rfl
    | _ => exact absurd ha (by simp [isRemote])

/-- The parameters of the connection stay, and so does its plugin. -/
lemma step_fixed {s s' : Sys} {a : Action} (hstep : s.step a = some s') :
    s'.cfg = s.cfg ∧ s'.plugin = s.plugin := by
  cases ha : isRemote a with
  | false =>
    have hrest := (step_caller_rest ha hstep).1
    exact ⟨by rw [hrest], by rw [hrest]⟩
  | true =>
    cases a with
    | dequeue => exact ⟨by rw [dequeue_rest hstep], by rw [dequeue_rest hstep]⟩
    | poll k => exact ⟨by rw [poll_rest hstep], by rw [poll_rest hstep]⟩
    | answer k o =>
      obtain ⟨call, r, u, -, -, -, rfl⟩ := answer_cases hstep
      exact ⟨rfl, rfl⟩
    | resume k => exact ⟨by rw [resume_rest hstep], by rw [resume_rest hstep]⟩
    | arriveMsg c m | arriveConn c n =>
      obtain rfl := Option.some.inj hstep
      exact ⟨rfl, rfl⟩
    | _ => exact absurd ha (by simp [isRemote])

lemma step_cfg {s s' : Sys} {a : Action} (hstep : s.step a = some s') : s'.cfg = s.cfg :=
  (step_fixed hstep).1

lemma step_plugin {s s' : Sys} {a : Action} (hstep : s.step a = some s') : s'.plugin = s.plugin :=
  (step_fixed hstep).2

/-- The name of a capability for which a step allocates an id: a new one, or that of the task
whose call has created it. -/
lemma name_cases {s s' : Sys} {a : Action} (hs : Tasks s) (hstep : s.step a = some s') {j : ℕ}
    {kind : Kind} {c : Cap} (hj : s'.created[j]? = some (kind, c)) :
    s.created[j]? = some (kind, c) ∨ c = s.fresh ∨ ∃ x, s.tasks c = some x := by
  rcases created_cases hstep with heq | ⟨kind', c', heq, hc'⟩ <;> rw [heq] at hj
  · exact .inl hj
  rcases getElem?_concat_eq_some.mp hj with hj | ⟨-, hj⟩
  · exact .inl hj
  obtain ⟨-, rfl⟩ := Prod.mk.inj hj
  rcases hc' with hfresh | ⟨k, call, ans, t, r, hk, hnew⟩
  · exact .inr (.inl hfresh)
  · exact .inr (.inr ⟨_, (hs.ok k _ hk).creates hnew ▸ hk⟩)

end Sys

end FungiTransport
