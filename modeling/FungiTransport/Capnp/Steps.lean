import FungiTransport.Capnp.System
import Mathlib.Tactic.Common

/-!
# What a step can do

The steps of the actor and of its tasks end in a reply, in the end of a `recv` or in a new task.
This is said here once for each of them: which part of the state a reply or a command touches,
what the first poll of a task does (`Sys.Polled`), how a task ends (`Sys.Resumed`), and what the
callers leave alone.  The invariants of the later modules are proved from these cases.
-/

namespace FungiTransport

open Lib

/-- The ticket of the sender that a task holds. -/
def Call.ticket : Call → Option ℕ
  | .listen _ _ _ t | .onionAddr _ t | .connect _ _ t | .accept _ t | .send _ _ t
  | .configure _ _ t => some t
  | .recv _ _ => none

/-- The ticket that the id of a created capability is replied to. -/
def Call.recipient : Call → Except CapnpError Answer → Option ℕ
  | .onionAddr _ t, .ok (.addr _) | .connect _ _ t, .ok (.cap _) | .accept _ t, .ok (.cap _) =>
    some t
  | _, _ => none

/-- The task of `call` stores the new capability `c` that the answer `a` brings, and replies with
the `id` that is allocated for it. -/
inductive Creates (id : ℕ) : Call → Answer → Kind → Cap → ℕ → Reply → Prop where
  | listener {c : Cap} {t : ℕ} {text : String} :
      Creates id (.onionAddr c t) (.addr text) .listener c t (.listen (.ok (id, text)))
  | connected {o : Option Cap} {addr : String} {t : ℕ} {c : Cap} :
      Creates id (.connect o addr t) (.cap c) .channel c t (.connect (.ok id))
  | accepted {o : Option Cap} {t : ℕ} {c : Cap} :
      Creates id (.accept o t) (.cap c) .channel c t (.accept (.ok id))

namespace Creates

variable {id t : ℕ} {call : Call} {a : Answer} {kind : Kind} {c : Cap} {r : Reply}

lemma id? (h : Creates id call a kind c t r) : r.id? = some (kind, id) := by
  cases h <;> rfl

lemma ticket (h : Creates id call a kind c t r) : call.ticket = some t := by
  cases h <;> rfl

lemma recipient (h : Creates id call a kind c t r) : call.recipient (.ok a) = some t := by
  cases h <;> rfl

lemma not_recv (h : Creates id call a kind c t r) (m : Bytes) : r ≠ .recv (.ok m) := by
  cases h <;> simp

end Creates

namespace Sys

/-! ## Replies -/

lemma accepts_iff {s : Sys} {t : ℕ} :
    s.accepts t = true ↔ ∃ op, s.futs t = some ⟨op, .waiting⟩ := by
  unfold accepts
  constructor
  · intro h
    obtain ⟨⟨op, st⟩, hf, hw⟩ := (Option.any_eq_true _ _).mp h
    cases st <;> first | exact ⟨op, hf⟩ | exact absurd hw (by simp [Status.isWaiting])
  · rintro ⟨op, hf⟩
    simp [hf, Status.isWaiting]

/-- A reply fills the slot of a waiting future, or changes nothing. -/
lemma reply_cases (s : Sys) (t : ℕ) (r : Reply) :
    (∃ op, s.futs t = some ⟨op, .waiting⟩ ∧ s.reply t r = s.setFut t ⟨op, .replied r⟩) ∨
      (s.accepts t = false ∧ s.reply t r = s) := by
  by_cases h : s.accepts t = true
  · obtain ⟨op, hf⟩ := accepts_iff.mp h
    exact .inl ⟨op, hf, by simp [reply, h, setStatus, hf]⟩
  · exact .inr ⟨by simpa using h, by simp [reply, h]⟩

lemma reply_waiting {s : Sys} {t : ℕ} {op : Op} (hf : s.futs t = some ⟨op, .waiting⟩) (r : Reply) :
    s.reply t r = s.setFut t ⟨op, .replied r⟩ := by
  simp [reply, accepts, hf, Status.isWaiting, setStatus]

lemma closeReply_cases (s : Sys) (t : ℕ) :
    (∃ op, s.futs t = some ⟨op, .waiting⟩ ∧ s.closeReply t = s.setFut t ⟨op, .closed⟩) ∨
      s.closeReply t = s := by
  by_cases h : s.accepts t = true
  · obtain ⟨op, hf⟩ := accepts_iff.mp h
    exact .inl ⟨op, hf, by simp [closeReply, h, setStatus, hf]⟩
  · exact .inr (by simp [closeReply, h])

lemma reply_eq (s : Sys) (t : ℕ) (r : Reply) : ∃ f, s.reply t r = { s with futs := f } := by
  rcases reply_cases s t r with ⟨op, -, heq⟩ | ⟨-, heq⟩
  · exact ⟨_, heq⟩
  · exact ⟨s.futs, heq⟩

lemma closeReply_eq (s : Sys) (t : ℕ) : ∃ f, s.closeReply t = { s with futs := f } := by
  rcases closeReply_cases s t with ⟨op, -, heq⟩ | heq
  · exact ⟨_, heq⟩
  · exact ⟨s.futs, heq⟩

lemma closeWaiter_eq (s : Sys) (o : Option ℕ) : ∃ f, s.closeWaiter o = { s with futs := f } := by
  cases o with
  | none => exact ⟨s.futs, rfl⟩
  | some w => exact closeReply_eq s w

lemma reply_rest (s : Sys) (t : ℕ) (r : Reply) :
    (s.reply t r).reg = s.reg ∧ (s.reply t r).created = s.created ∧
      (s.reply t r).released = s.released := by
  rcases reply_cases s t r with ⟨op, -, heq⟩ | ⟨-, heq⟩ <;> rw [heq] <;> exact ⟨rfl, rfl, rfl⟩

lemma closeReply_rest (s : Sys) (t : ℕ) :
    (s.closeReply t).reg = s.reg ∧ (s.closeReply t).created = s.created ∧
      (s.closeReply t).released = s.released := by
  rcases closeReply_cases s t with ⟨op, -, heq⟩ | heq <;> rw [heq] <;> exact ⟨rfl, rfl, rfl⟩

lemma closeWaiter_rest (s : Sys) (o : Option ℕ) :
    (s.closeWaiter o).reg = s.reg ∧ (s.closeWaiter o).created = s.created ∧
      (s.closeWaiter o).released = s.released := by
  cases o with
  | none => exact ⟨rfl, rfl, rfl⟩
  | some w => exact closeReply_rest s w

@[simp] lemma created_reply (s : Sys) (t : ℕ) (r : Reply) :
    (s.reply t r).created = s.created := (reply_rest s t r).2.1

@[simp] lemma created_closeReply (s : Sys) (t : ℕ) : (s.closeReply t).created = s.created :=
  (closeReply_rest s t).2.1

lemma tasks_reply (s : Sys) (t : ℕ) (r : Reply) : (s.reply t r).tasks = s.tasks := by
  obtain ⟨f, hf⟩ := reply_eq s t r
  rw [hf]

lemma lock_reply (s : Sys) (t : ℕ) (r : Reply) : (s.reply t r).lock = s.lock := by
  obtain ⟨f, hf⟩ := reply_eq s t r
  rw [hf]

lemma released_reply (s : Sys) (t : ℕ) (r : Reply) : (s.reply t r).released = s.released :=
  (reply_rest s t r).2.2

/-- The old waiter is dropped before or after the rest of a command. -/
lemma closeWaiter_with (s : Sys) (o : Option ℕ) (r : Registry) (l : List ℕ) :
    ({ s.closeWaiter o with reg := r, released := l } : Sys) =
      { s with reg := r, released := l }.closeWaiter o := by
  cases o with
  | none => rfl
  | some w =>
    have hacc : ({ s with reg := r, released := l } : Sys).accepts w = s.accepts w := rfl
    by_cases h : s.accepts w = true
    · obtain ⟨op, hf⟩ := accepts_iff.mp h
      simp only [Sys.closeWaiter, Sys.closeReply, hacc, h, if_true, setStatus, hf]
      rfl
    · simp only [Sys.closeWaiter, Sys.closeReply, hacc, h]
      rfl

lemma closeWaiter_reg (s : Sys) (o : Option ℕ) (r : Registry) :
    ({ s.closeWaiter o with reg := r } : Sys) = { s with reg := r }.closeWaiter o := by
  have h := closeWaiter_with s o r (s.closeWaiter o).released
  rw [(closeWaiter_rest s o).2.2] at h
  rw [← h, ← (closeWaiter_rest s o).2.2]

/-! ## The commands of `recv` and `Release` -/

/-- What `Command::Recv` does in the receive state `st`: it replies with the first message of the
buffer, or keeps the buffer when the caller is gone; or it names the new waiter, and spawns a task
if no capnp `recv` is outstanding. -/
inductive Received (s : Sys) (i t : ℕ) (st : RecvState) : Sys → Prop where
  | replied {m : Bytes} {rest : List Bytes} (hbuf : st.buffer = m :: rest)
      (hacc : s.accepts t = true) : Received s i t st
        ({ s with reg := s.reg.setRecvState i { st with buffer := rest } }.reply t (.recv (.ok m)))
  | kept {m : Bytes} {rest : List Bytes} (hbuf : st.buffer = m :: rest)
      (hacc : s.accepts t = false) : Received s i t st { s with reg := s.reg.setRecvState i st }
  | joined (hbuf : st.buffer = []) (hin : st.inFlight = true) : Received s i t st
      ({ s with reg := s.reg.setRecvState i ⟨true, some t, []⟩ }.closeWaiter st.waiter)
  | spawned (hbuf : st.buffer = []) (hin : st.inFlight = false) : Received s i t st
      (({ s with reg := s.reg.setRecvState i ⟨true, some t, []⟩ }.closeWaiter st.waiter).spawn
        (.recv i (s.reg.channels i)))

lemma received_of_onRecv {s s' : Sys} {i t : ℕ} (h : s.onRecv i t = s') :
    s.Received i t ((s.reg.recvStates i).getD .default) s' := by
  subst h
  unfold onRecv
  dsimp only
  split
  · rename_i m rest hbuf
    split
    · rename_i hacc
      exact .replied hbuf hacc
    · rename_i hacc
      exact .kept hbuf (by simpa using hacc)
  · rename_i hbuf
    rw [closeWaiter_reg, hbuf]
    split
    · rename_i hin
      exact .joined hbuf hin
    · rename_i hin
      exact .spawned hbuf (by simpa using hin)

lemma Received.released {s s' : Sys} {i t : ℕ} {st : RecvState} (h : s.Received i t st s') :
    s'.released = s.released := by
  cases h with
  | replied hbuf hacc => exact released_reply _ _ _
  | kept hbuf hacc => rfl
  | joined hbuf hin => exact (closeWaiter_rest _ _).2.2
  | spawned hbuf hin => exact (closeWaiter_rest _ _).2.2

/-- The end of a `recv` task: nothing is left of a released channel, the result goes to the waiter,
or its message is kept for the next `recv`. -/
inductive Completed (s : Sys) (i : ℕ) (result : Except RecvError Bytes) : Sys → Prop where
  | gone (hst : s.reg.recvStates i = none) : Completed s i result s
  | kept {st : RecvState} (hst : s.reg.recvStates i = some st) : Completed s i result
      { s with reg := s.reg.setRecvState i ⟨false, none, st.buffer ++ messages result⟩ }
  | replied {st : RecvState} {w : ℕ} (hst : s.reg.recvStates i = some st) (hw : st.waiter = some w)
      (hacc : s.accepts w = true) : Completed s i result
        ({ s with reg := s.reg.setRecvState i ⟨false, none, st.buffer⟩ }.reply w (.recv result))

lemma completed_of_completeRecv {s s' : Sys} {i : ℕ} {result : Except RecvError Bytes}
    (h : s.completeRecv i result = s') : s.Completed i result s' := by
  subst h
  unfold completeRecv
  split
  · exact .gone ‹_›
  · rename_i st hst
    dsimp only
    split
    · exact .kept hst
    · rename_i w hw
      split
      · rename_i hacc
        exact .replied hst hw hacc
      · exact .kept hst

lemma Completed.rest {s s' : Sys} {i : ℕ} {result : Except RecvError Bytes}
    (h : s.Completed i result s') : s'.tasks = s.tasks ∧ s'.released = s.released := by
  cases h with
  | gone hst => exact ⟨rfl, rfl⟩
  | kept hst => exact ⟨rfl, rfl⟩
  | replied hst hw hacc => exact ⟨tasks_reply _ _ _, released_reply _ _ _⟩

lemma completeRecv_eq (s : Sys) (i : ℕ) (result : Except RecvError Bytes) :
    ∃ f g, s.completeRecv i result = { s with futs := f, reg := g } := by
  generalize hs' : s.completeRecv i result = s'
  cases completed_of_completeRecv hs' with
  | gone hst => exact ⟨s.futs, s.reg, rfl⟩
  | kept hst => exact ⟨s.futs, _, rfl⟩
  | @replied st w hst hw hacc =>
    obtain ⟨f, hf⟩ := reply_eq { s with reg := s.reg.setRecvState i ⟨false, none, st.buffer⟩ } w
      (.recv result)
    exact ⟨f, _, hf⟩

lemma onRelease_eq (s : Sys) (i : ℕ) :
    ∃ f, s.onRelease i =
      { s with futs := f, reg := s.reg.release i, released := i :: s.released } := by
  obtain ⟨f, hf⟩ := closeWaiter_eq s ((s.reg.recvStates i).bind (·.waiter))
  exact ⟨f, by rw [onRelease, hf]⟩

/-- `Command::Recv` replies from the buffer or names the waiter; then it spawns a task if no
capnp `recv` is outstanding. -/
lemma onRecv_eq (s : Sys) (i t : ℕ) :
    ∃ f g, s.onRecv i t = { s with futs := f, reg := g } ∨
      s.onRecv i t = { s with futs := f, reg := g }.spawn (.recv i (s.reg.channels i)) := by
  obtain ⟨f, hf⟩ := closeWaiter_eq { s with reg := s.reg.setRecvState i ⟨true, some t, []⟩ }
    ((s.reg.recvStates i).getD .default).waiter
  generalize hs' : s.onRecv i t = s'
  cases received_of_onRecv hs' with
  | @replied m rest hbuf hacc =>
    let st := (s.reg.recvStates i).getD .default
    obtain ⟨f, hf⟩ := reply_eq { s with reg := s.reg.setRecvState i { st with buffer := rest } } t
      (.recv (.ok m))
    exact ⟨f, _, .inl hf⟩
  | kept hbuf hacc => exact ⟨s.futs, _, .inl rfl⟩
  | joined hbuf hin => exact ⟨f, _, .inl hf⟩
  | spawned hbuf hin => exact ⟨f, _, .inr (by rw [hf])⟩

@[simp] lemma created_completeRecv (s : Sys) (i : ℕ) (result : Except RecvError Bytes) :
    (s.completeRecv i result).created = s.created := by
  obtain ⟨f, g, hfg⟩ := completeRecv_eq s i result
  rw [hfg]

@[simp] lemma created_onRelease (s : Sys) (i : ℕ) : (s.onRelease i).created = s.created := by
  obtain ⟨f, hf⟩ := onRelease_eq s i
  rw [hf]

@[simp] lemma created_onRecv (s : Sys) (i t : ℕ) : (s.onRecv i t).created = s.created := by
  obtain ⟨f, g, heq | heq⟩ := onRecv_eq s i t
  · rw [heq]
  · rw [heq]
    rfl

lemma tasks_completeRecv (s : Sys) (i : ℕ) (result : Except RecvError Bytes) :
    (s.completeRecv i result).tasks = s.tasks := by
  obtain ⟨f, g, hfg⟩ := completeRecv_eq s i result
  rw [hfg]

lemma lock_completeRecv (s : Sys) (i : ℕ) (result : Except RecvError Bytes) :
    (s.completeRecv i result).lock = s.lock := by
  obtain ⟨f, g, hfg⟩ := completeRecv_eq s i result
  rw [hfg]

/-! ## Commands -/

/-- The call that the task of a command makes, with the capability it captures; a `recv` spawns
only where none is outstanding and no message is buffered. -/
def calls (s : Sys) : Command → Option Call
  | .listen i virtPort nickname t => some (.listen (s.reg.transports i) virtPort nickname t)
  | .connect i addr t => some (.connect (s.reg.connectors i) addr t)
  | .accept i t => some (.accept (s.reg.listeners i) t)
  | .send i msg t => some (.send (s.reg.channels i) msg t)
  | .recv i _ =>
    let st := (s.reg.recvStates i).getD .default
    if st.buffer = [] ∧ st.inFlight = false then some (.recv i (s.reg.channels i)) else none
  | .configurePrivateNet netFile t => s.plugin.map fun plugin => .configure plugin netFile t
  | .connector _ _ | .release _ => none

lemma calls_recv {s : Sys} {c : Command} {i : ℕ} {o : Option Cap}
    (h : s.calls c = some (.recv i o)) : (∃ t, c = .recv i t) ∧ o = s.reg.channels i ∧
      ((s.reg.recvStates i).getD .default).buffer = [] ∧
      ((s.reg.recvStates i).getD .default).inFlight = false := by
  cases c with
  | recv j u =>
    simp only [calls] at h
    split at h
    · rename_i hidle
      obtain ⟨rfl, rfl⟩ := Call.recv.inj (Option.some.inj h)
      exact ⟨⟨u, rfl⟩, rfl, hidle⟩
    · exact absurd h (by simp)
  | _ => simp [calls] at h

lemma calls_configure {s : Sys} {c : Command} {p : Cap} {netFile : Bytes} {t : ℕ}
    (h : s.calls c = some (.configure p netFile t)) : s.plugin = some p := by
  cases c with
  | configurePrivateNet nf u =>
    obtain ⟨q, hq, heq⟩ := Option.map_eq_some_iff.mp h
    obtain ⟨rfl, -, -⟩ := Call.configure.inj heq
    exact hq
  | _ => simp [calls] at h

/-- What the actor makes of the command at the head of its queue: it stores a new connector or drops
its reply, spawns the task of the command, serves a `recv` or a `Release`, or has no plugin. -/
inductive Dequeued (s : Sys) (rest : List Command) : Command → Sys → Prop where
  | created {i t : ℕ} {o : Cap} (ho : s.reg.transports i = some o) :
      Dequeued s rest (.connector i t)
        (({ s with queue := rest, fresh := s.fresh + 1 }.install .connector s.fresh).reply t
          (.connector s.reg.allocId.1))
  | closed {i t : ℕ} : Dequeued s rest (.connector i t) ({ s with queue := rest }.closeReply t)
  | spawned {c : Command} {call : Call} (hc : ∀ i t, c ≠ .recv i t) (hcall : s.calls c = some call) :
      Dequeued s rest c ({ s with queue := rest }.spawn call)
  | received {i t : ℕ} : Dequeued s rest (.recv i t) ({ s with queue := rest }.onRecv i t)
  | released {i : ℕ} : Dequeued s rest (.release i) ({ s with queue := rest }.onRelease i)
  | refused {netFile : Bytes} {t : ℕ} : Dequeued s rest (.configurePrivateNet netFile t)
      ({ s with queue := rest }.reply t (.configure (.error .unreachable)))

lemma dequeued_of_dequeue {s s' : Sys} (hstep : s.dequeue = some s') :
    ∃ c rest, s.queue = c :: rest ∧ s.Dequeued rest c s' := by
  unfold dequeue at hstep
  split at hstep
  · exact absurd hstep (by simp)
  · rename_i c rest hq
    obtain rfl := Option.some.inj hstep
    refine ⟨c, rest, hq, ?_⟩
    cases c with
    | connector i t =>
      simp only [onCommand, onConnector]
      split
      · exact .created ‹_›
      · exact .closed
    | listen i p n t | connect i a t | accept i t | send i m t => exact .spawned (by simp) rfl
    | recv i t => exact .received
    | release i => exact .released
    | configurePrivateNet nf t =>
      simp only [onCommand]
      split
      · rename_i plugin hplugin
        exact .spawned (by simp) (congrArg (Option.map _) hplugin)
      · exact .refused

/-- What the actor leaves alone when it takes a command. -/
lemma dequeue_rest {s s' : Sys} (hstep : s.dequeue = some s') : s' = { s with
    fresh := s'.fresh, futs := s'.futs, queue := s.queue.tail, reg := s'.reg, tasks := s'.tasks
    created := s'.created, released := s'.released } := by
  obtain ⟨c, rest, hq, hdeq⟩ := dequeued_of_dequeue hstep
  rw [hq, List.tail_cons]
  cases hdeq with
  | @created i t o ho =>
    obtain ⟨f, hf⟩ := reply_eq ({ s with queue := rest, fresh := s.fresh + 1 }.install
      .connector s.fresh) t (.connector s.reg.allocId.1)
    exact hf ▸ rfl
  | @closed i t =>
    obtain ⟨f, hf⟩ := closeReply_eq { s with queue := rest } t
    rw [hf]
  | spawned hc hcall => rfl
  | @received i t =>
    obtain ⟨f, g, heq | heq⟩ := onRecv_eq { s with queue := rest } i t
    · rw [heq]
    · rw [heq]
      rfl
  | @released i =>
    obtain ⟨f, hf⟩ := onRelease_eq { s with queue := rest } i
    rw [hf]
  | @refused nf t =>
    obtain ⟨f, hf⟩ := reply_eq { s with queue := rest } t (.configure (.error .unreachable))
    rw [hf]

/-- A `Release` at the head of the queue takes its id out of the registry. -/
lemma dequeue_release {s s' : Sys} {i : ℕ} {rest : List Command} (hq : s.queue = .release i :: rest)
    (hstep : s.dequeue = some s') : ∃ f, s' = { s with
      queue := rest, futs := f, reg := s.reg.release i, released := i :: s.released } := by
  obtain ⟨c, rest', hq', hdeq⟩ := dequeued_of_dequeue hstep
  obtain ⟨rfl, rfl⟩ := List.cons.inj (hq.symm.trans hq')
  cases hdeq with
  | spawned hne hcall => exact absurd hcall (by simp [calls])
  | released => exact onRelease_eq { s with queue := rest } i

/-! ## Tasks -/

/-- The call of a task is issued, at the mutex of its object if it needs that. -/
lemma issue_eq (s : Sys) (k : ℕ) (call : Call) : s.issue k call = { s with
    tasks := Function.update s.tasks k (some ⟨call, .issued⟩)
    lock := fun c => if call.mutex = some c then s.lock c ++ [k] else s.lock c } := by
  unfold issue
  split
  · rename_i c hmutex
    have hlock : Function.update s.lock c (s.lock c ++ [k]) =
        fun d => if call.mutex = some d then s.lock d ++ [k] else s.lock d := by
      funext d
      by_cases hd : d = c
      · subst hd
        simp [hmutex]
      · have hcd : ¬ c = d := fun h => hd h.symm
        simp [Function.update_of_ne hd, hmutex, hcd]
    rw [hlock]
    rfl
  · rename_i hmutex
    simp [hmutex, setTask]

/-- The first poll of a task: it makes its call, or ends without its capability. -/
inductive Polled (s : Sys) (k : ℕ) : Sys → Prop where
  | issued {call : Call} (hk : s.tasks k = some ⟨call, .spawned⟩) : Polled s k (s.issue k call)
  | replied {call : Call} {t : ℕ} {r : Reply} (hk : s.tasks k = some ⟨call, .spawned⟩)
      (ht : call.ticket = some t) (hid : r.id? = none) (hr : ∀ m, r ≠ .recv (.ok m)) :
      Polled s k ((s.setTask k none).reply t r)
  | received {i : ℕ} (hk : s.tasks k = some ⟨.recv i none, .spawned⟩) :
      Polled s k ((s.setTask k none).completeRecv i (.error .closed))

lemma polled_of_poll {s s' : Sys} {k : ℕ} (hstep : s.poll k = some s') : s.Polled k s' := by
  unfold poll at hstep
  split at hstep
  · rename_i call hk
    split at hstep <;> obtain rfl := Option.some.inj hstep
    · exact .replied hk rfl rfl (by simp)
    · exact .replied hk rfl rfl (by simp)
    · exact .replied hk rfl rfl (by simp)
    · exact .replied hk rfl rfl (by simp)
    · exact .received hk
    · exact .issued hk
  · exact absurd hstep (by simp)

/-- How a task goes on behind its call: a `listen` asks for the address of its listener, a new
capability is stored and replied, anything else is replied as it is, and a `recv` hands its
result over. -/
inductive Resumed (s : Sys) (k : ℕ) : Sys → Prop where
  | listened {o : Option Cap} {p : UInt16} {n : Option String} {t : ℕ} {c : Cap}
      (hk : s.tasks k = some ⟨.listen o p n t, .answered (.ok (.cap c))⟩) :
      Resumed s k (s.setTask k (some ⟨.onionAddr c t, .issued⟩))
  | created {call : Call} {a : Answer} {kind : Kind} {c : Cap} {t : ℕ} {r : Reply}
      (hk : s.tasks k = some ⟨call, .answered (.ok a)⟩)
      (hnew : Creates s.reg.allocId.1 call a kind c t r) :
      Resumed s k (((s.setTask k none).install kind c).reply t r)
  | replied {call : Call} {x : Except CapnpError Answer} {t : ℕ} {r : Reply}
      (hk : s.tasks k = some ⟨call, .answered x⟩) (ht : call.ticket = some t)
      (hid : r.id? = none) (hr : ∀ m, r ≠ .recv (.ok m)) : Resumed s k ((s.setTask k none).reply t r)
  | received {i : ℕ} {o : Option Cap} {x : Except CapnpError Answer}
      {result : Except RecvError Bytes} (hk : s.tasks k = some ⟨.recv i o, .answered x⟩)
      (hx : ∀ m, result = .ok m ↔ x = .ok (.msg m)) :
      Resumed s k ((s.setTask k none).completeRecv i result)

lemma resumed_of_resume {s s' : Sys} {k : ℕ} (hstep : s.resume k = some s') : s.Resumed k s' := by
  unfold resume at hstep
  split at hstep
  · rename_i call r hk
    unfold onAnswer at hstep
    split at hstep <;> first | obtain rfl := Option.some.inj hstep | exact absurd hstep (by simp)
    · exact .listened hk
    · exact .replied hk rfl rfl (by simp)
    · exact .created hk .listener
    · exact .replied hk rfl rfl (by simp)
    · exact .created hk .connected
    · exact .replied hk rfl rfl (by simp)
    · exact .created hk .accepted
    · exact .replied hk rfl rfl (by simp)
    · exact .replied hk rfl rfl (by simp)
    · exact .replied hk rfl rfl (by simp)
    · exact .received hk (by simp)
    · exact .received hk (by simp)
    · exact .replied hk rfl rfl (by simp)
    · exact .replied hk rfl rfl (by simp)
  · exact absurd hstep (by simp)

/-- What the first poll of a task leaves alone. -/
lemma poll_rest {s s' : Sys} {k : ℕ} (hstep : s.poll k = some s') : s' = { s with
    futs := s'.futs, reg := s'.reg, tasks := s'.tasks, lock := s'.lock } := by
  cases polled_of_poll hstep with
  | issued hk => rw [issue_eq]
  | replied hk ht hid hr =>
    obtain ⟨f, hf⟩ := reply_eq (s.setTask k none) _ _
    exact hf ▸ rfl
  | received hk =>
    obtain ⟨f, g, hfg⟩ := completeRecv_eq (s.setTask k none) _ _
    exact hfg ▸ rfl

/-- What the end of a task leaves alone. -/
lemma resume_rest {s s' : Sys} {k : ℕ} (hstep : s.resume k = some s') : s' = { s with
    futs := s'.futs, reg := s'.reg, tasks := s'.tasks, created := s'.created } := by
  cases resumed_of_resume hstep with
  | listened hk => rfl
  | @created call a kind c t r hk hnew =>
    obtain ⟨f, hf⟩ := reply_eq ((s.setTask k none).install kind c) t r
    exact hf ▸ rfl
  | replied hk ht hid hr =>
    obtain ⟨f, hf⟩ := reply_eq (s.setTask k none) _ _
    exact hf ▸ rfl
  | received hk hx =>
    obtain ⟨f, g, hfg⟩ := completeRecv_eq (s.setTask k none) _ _
    exact hfg ▸ rfl

/-! ## The server -/

/-- The server changes nothing on the client's side. -/
lemma serve_rest {s s' : Sys} {k : ℕ} {call : Call} {o : Outcome} {r : Except CapnpError Answer}
    (h : s.serve k call o = some (s', r)) :
    s' = { s with
      inbox := s'.inbox, inbound := s'.inbound, addr := s'.addr, serves := s'.serves,
      backend := s'.backend } := by
  unfold serve at h
  dsimp only at h
  repeat' split at h
  all_goals first
    | (have hs' := congrArg Prod.fst (Option.some.inj h)
       dsimp only at hs'
       subst hs'
       rfl)
    | exact absurd h (by simp)

/-- The server answers an issued call, which leaves the mutex of its object. -/
lemma answer_cases {s s' : Sys} {k : ℕ} {o : Outcome} (h : s.answer k o = some s') :
    ∃ call r u, s.tasks k = some ⟨call, .issued⟩ ∧ (s.holds k call ∨ o.isRpcErr) ∧
      s.serve k call o = some (u, r) ∧ s' = { s with
        tasks := Function.update s.tasks k (some ⟨call, .answered r⟩)
        lock := fun c => if call.mutex = some c then (s.lock c).erase k else s.lock c
        inbox := u.inbox, inbound := u.inbound, addr := u.addr, serves := u.serves
        backend := u.backend } := by
  unfold Sys.answer at h
  split at h
  · rename_i call hk
    split at h
    · rename_i hholds
      obtain ⟨⟨u, r⟩, hserve, rfl⟩ := Option.map_eq_some_iff.mp h
      refine ⟨call, r, u, hk, hholds, hserve, ?_⟩
      have hrest := serve_rest hserve
      dsimp only
      split
      · rename_i c hmutex
        have hlock : Function.update s.lock c ((s.lock c).erase k) =
            fun d => if call.mutex = some d then (s.lock d).erase k else s.lock d := by
          funext d
          by_cases hd : d = c
          · subst hd
            simp [hmutex]
          · have hcd : ¬ c = d := fun h => hd h.symm
            simp [Function.update_of_ne hd, hmutex, hcd]
        rw [hlock, hrest]
        rfl
      · rename_i hmutex
        rw [hrest]
        simp [hmutex, setTask]
    · exact absurd h (by simp)
  · exact absurd h (by simp)

/-! ## Callers -/

lemma startAccept_cases {s s' : Sys} {h : ℕ} (hstep : s.startAccept h = some s') :
    ∃ id, s.borrowed h = false ∧ (s.liveHandle h .listener).bind (·.id) = some id ∧
      s' = s.start (.accept h id) .sending := by
  unfold Sys.startAccept at hstep
  split at hstep
  · exact absurd hstep (by simp)
  · rename_i hb
    obtain ⟨id, hid, rfl⟩ := Option.map_eq_some_iff.mp hstep
    exact ⟨id, by simpa using hb, hid, rfl⟩

lemma startRecv_cases {s s' : Sys} {h : ℕ} (hstep : s.startRecv h = some s') :
    ∃ id, s.borrowed h = false ∧ (s.liveHandle h .channel).bind (·.id) = some id ∧
      s' = s.start (.recv h id) .sending := by
  unfold Sys.startRecv at hstep
  split at hstep
  · exact absurd hstep (by simp)
  · rename_i hb
    obtain ⟨id, hid, rfl⟩ := Option.map_eq_some_iff.mp hstep
    exact ⟨id, by simpa using hb, hid, rfl⟩

/-- A message over the limit is rejected at once. -/
lemma startSend_cases {s s' : Sys} {h : ℕ} {msg : Bytes} (hstep : s.startSend h msg = some s') :
    ∃ id, s.borrowed h = false ∧ (s.liveHandle h .channel).bind (·.id) = some id ∧
      (s.cfg.maxMsgLen < msg.length ∧
          s' = { s.start (.send h id msg) (.done (.send (.error (.tooLarge s.cfg.maxMsgLen)))) with
            resolved := s.resolved ++ [s.fresh] } ∨
        msg.length ≤ s.cfg.maxMsgLen ∧ s' = s.start (.send h id msg) .sending) := by
  unfold Sys.startSend at hstep
  split at hstep
  · exact absurd hstep (by simp)
  · rename_i hb
    obtain ⟨id, hid, hs'⟩ := Option.map_eq_some_iff.mp hstep
    refine ⟨id, by simpa using hb, hid, ?_⟩
    split at hs'
    · rename_i hlong
      exact .inl ⟨hlong, hs'.symm⟩
    · rename_i hshort
      exact .inr ⟨not_lt.mp hshort, hs'.symm⟩

/-- A parked `connect` goes on with the connector, or is the one to create it now. -/
lemma wake_cases {s s' : Sys} {t : ℕ} (hstep : s.wake t = some s') :
    ∃ h addr, s.futs t = some ⟨.ensure h addr, .parked⟩ ∧
      ((∃ id, (s.handles h).bind (·.id) = some id ∧
          s' = s.setFut t ⟨.connect h id addr, .sending⟩) ∨
        (s.handles h).bind (·.id) = none ∧ s.initialising h = false ∧
          s' = s.setFut t ⟨.ensure h addr, .sending⟩) := by
  unfold Sys.wake at hstep
  split at hstep
  · rename_i h addr hf
    refine ⟨h, addr, hf, ?_⟩
    split at hstep
    · rename_i id hid
      exact .inl ⟨id, hid, (Option.some.inj hstep).symm⟩
    · rename_i hid
      split at hstep
      · exact absurd hstep (by simp)
      · rename_i hinit
        exact .inr ⟨hid, by simpa using hinit, (Option.some.inj hstep).symm⟩
  · exact absurd hstep (by simp)

lemma enqueue_cases {s s' : Sys} {t : ℕ} (hstep : s.enqueue t = some s') :
    ∃ op, s.futs t = some ⟨op, .sending⟩ ∧
      s' = { s.setFut t ⟨op, .waiting⟩ with queue := s.queue ++ [op.command t] } := by
  unfold Sys.enqueue at hstep
  split at hstep
  · rename_i op hf
    split at hstep
    · exact ⟨op, hf, (Option.some.inj hstep).symm⟩
    · exact absurd hstep (by simp)
  · exact absurd hstep (by simp)

lemma dropFut_cases {s s' : Sys} {t : ℕ} (hstep : s.dropFut t = some s') :
    ∃ op st, s.futs t = some ⟨op, st⟩ ∧ st.live ∧ s' = s.setFut t ⟨op, .dropped⟩ := by
  unfold Sys.dropFut at hstep
  split at hstep
  · rename_i op st hf
    split at hstep
    · rename_i hl
      exact ⟨op, st, hf, hl, (Option.some.inj hstep).symm⟩
    · exact absurd hstep (by simp)
  · exact absurd hstep (by simp)

/-- A handle that is dropped has its `Release` queued, unless it has no id or the `Release` is
lost. -/
lemma dropHandle_cases {s s' : Sys} {h : ℕ} {d : Bool} (hstep : s.dropHandle h d = some s') :
    ∃ k id, s.handles h = some ⟨k, id, true⟩ ∧ k ≠ .transport ∧ s.borrowed h = false ∧
      ((id = none ∨ d = false) ∧ s' = s.setHandle h ⟨k, id, false⟩ ∨
        ∃ i, id = some i ∧
          s' = { s.setHandle h ⟨k, id, false⟩ with queue := s.queue ++ [.release i] }) := by
  unfold Sys.dropHandle at hstep
  split at hstep
  · rename_i k id hh
    split at hstep
    · exact absurd hstep (by simp)
    · rename_i hcond
      obtain ⟨hk, hb⟩ := not_or.mp hcond
      refine ⟨k, id, hh, hk, by simpa using hb, ?_⟩
      dsimp only at hstep
      split at hstep
      · exact .inl ⟨.inl rfl, (Option.some.inj hstep).symm⟩
      · rename_i i
        split at hstep
        · split at hstep
          · exact .inr ⟨i, rfl, (Option.some.inj hstep).symm⟩
          · exact absurd hstep (by simp)
        · rename_i hd
          exact .inl ⟨.inr (by simpa using hd), (Option.some.inj hstep).symm⟩
  · exact absurd hstep (by simp)

/-- How a future takes its reply: the handle of a new listener or channel gets the name of the
call, a listener with a strange address is lost, a new connector fills its cell, and any other
reply is returned as it is. -/
inductive Resolving (s : Sys) (t : ℕ) : Sys → Prop where
  | named {op : Op} {r : Reply} {k : Kind} {i : ℕ} (hf : s.futs t = some ⟨op, .replied r⟩)
      (hid : r.id? = some (k, i)) (hk : k = .listener ∨ k = .channel)
      (hparses : ∀ id addr, r = .listen (.ok (id, addr)) → s.cfg.parses addr) :
      Resolving s t ((s.setHandle t ⟨k, some i, true⟩).resolveTo t op r)
  | unparsed {p : ListenParams} {id : ℕ} {addr : String}
      (hf : s.futs t = some ⟨.listen p, .replied (.listen (.ok (id, addr)))⟩)
      (hparses : s.cfg.parses addr = false) : Resolving s t
        (s.resolveTo t (.listen p) (.listen (.error (.transport "unparseable listener address"))))
  | filled {h id : ℕ} {addr : String} {x : Handle}
      (hf : s.futs t = some ⟨.ensure h addr, .replied (.connector id)⟩) (hx : s.handles h = some x) :
      Resolving s t ((s.setHandle h { x with id := some id }).setFut t ⟨.connect h id addr, .sending⟩)
  | returned {op : Op} {r : Reply} (hf : s.futs t = some ⟨op, .replied r⟩) (hid : r.id? = none) :
      Resolving s t (s.resolveTo t op r)
  | disconnected {op : Op} (hf : s.futs t = some ⟨op, .closed⟩) :
      Resolving s t (s.resolveTo t op op.disconnected)

lemma resolving_of_resolve {s s' : Sys} {t : ℕ} (hstep : s.resolve t = some s') :
    s.Resolving t s' := by
  unfold Sys.resolve at hstep
  split at hstep
  · rename_i op r hf
    unfold onReply at hstep
    split at hstep
    · split at hstep
      · rename_i hparses
        exact Option.some.inj hstep ▸ .named hf rfl (.inl rfl) (by rintro _ _ ⟨⟩; exact hparses)
      · rename_i hparses
        exact Option.some.inj hstep ▸ .unparsed hf (by simpa using hparses)
    · obtain ⟨x, hx, rfl⟩ := Option.map_eq_some_iff.mp hstep
      exact .filled hf hx
    · exact Option.some.inj hstep ▸ .named hf rfl (.inr rfl) (by simp)
    · exact Option.some.inj hstep ▸ .named hf rfl (.inr rfl) (by simp)
    all_goals first
      | exact Option.some.inj hstep ▸ .returned hf rfl
      | exact absurd hstep (by simp)
  · rename_i op hf
    exact Option.some.inj hstep ▸ .disconnected hf
  · exact absurd hstep (by simp)

/-- The reply has arrived, or its sender was dropped. -/
lemma Resolving.fut {s s' : Sys} {t : ℕ} (h : s.Resolving t s') :
    ∃ op st, s.futs t = some ⟨op, st⟩ ∧ ((∃ r, st = .replied r) ∨ st = .closed) := by
  cases h with
  | named hf hid hk => exact ⟨_, _, hf, .inl ⟨_, rfl⟩⟩
  | unparsed hf hparses => exact ⟨_, _, hf, .inl ⟨_, rfl⟩⟩
  | filled hf hx => exact ⟨_, _, hf, .inl ⟨_, rfl⟩⟩
  | returned hf hid => exact ⟨_, _, hf, .inl ⟨_, rfl⟩⟩
  | disconnected hf => exact ⟨_, _, hf, .inr rfl⟩

/-- A step of the actor, a task, the server or the world, as opposed to one of the callers. -/
def isRemote : Action → Bool
  | .dequeue | .poll _ | .answer _ _ | .resume _ | .arriveMsg _ _ | .arriveConn _ _ => true
  | .newConnector | .listen _ | .configure _ | .connect _ _ | .accept _ | .send _ _ | .recv _
  | .wake _ | .enqueue _ | .resolve _ | .dropFut _ | .dropHandle _ _ => false

/-- What a step of the callers leaves alone: all that belongs to the actor and the server. -/
lemma step_caller_rest {s s' : Sys} {a : Action} (ha : isRemote a = false)
    (hstep : s.step a = some s') :
    s' = { s with
      fresh := s'.fresh, handles := s'.handles, futs := s'.futs, queue := s'.queue,
      resolved := s'.resolved } ∧ s.fresh ≤ s'.fresh := by
  cases a with
  | dequeue | poll k | answer k o | resume k | arriveMsg c m | arriveConn c n =>
    exact absurd ha (by simp [isRemote])
  | newConnector | listen p | configure nf =>
    obtain ⟨x, -, rfl⟩ := Option.map_eq_some_iff.mp hstep
    exact ⟨rfl, Nat.le_succ _⟩
  | connect h addr =>
    obtain ⟨x, -, rfl⟩ := Option.map_eq_some_iff.mp hstep
    split <;> exact ⟨rfl, Nat.le_succ _⟩
  | accept h =>
    obtain ⟨id, -, -, rfl⟩ := startAccept_cases hstep
    exact ⟨rfl, Nat.le_succ _⟩
  | recv h =>
    obtain ⟨id, -, -, rfl⟩ := startRecv_cases hstep
    exact ⟨rfl, Nat.le_succ _⟩
  | send h m =>
    obtain ⟨id, -, -, ⟨-, rfl⟩ | ⟨-, rfl⟩⟩ := startSend_cases hstep
    · exact ⟨rfl, Nat.le_succ _⟩
    · exact ⟨rfl, Nat.le_succ _⟩
  | wake t =>
    obtain ⟨h, addr, -, ⟨id, -, rfl⟩ | ⟨-, -, rfl⟩⟩ := wake_cases hstep
    · exact ⟨rfl, le_rfl⟩
    · exact ⟨rfl, le_rfl⟩
  | enqueue t =>
    obtain ⟨op, -, rfl⟩ := enqueue_cases hstep
    exact ⟨rfl, le_rfl⟩
  | dropFut t =>
    obtain ⟨op, st, -, -, rfl⟩ := dropFut_cases hstep
    exact ⟨rfl, le_rfl⟩
  | dropHandle h d =>
    obtain ⟨k, id, -, -, -, ⟨-, rfl⟩ | ⟨i, -, rfl⟩⟩ := dropHandle_cases hstep
    · exact ⟨rfl, le_rfl⟩
    · exact ⟨rfl, le_rfl⟩
  | resolve t => cases resolving_of_resolve hstep <;> exact ⟨rfl, le_rfl⟩

/-- An id that was released stays so. -/
lemma step_released {s s' : Sys} {a : Action} (hstep : s.step a = some s') :
    s.released ⊆ s'.released := by
  intro i hi
  cases ha : isRemote a with
  | false =>
    rw [(step_caller_rest ha hstep).1]
    exact hi
  | true =>
    cases a with
    | dequeue =>
      obtain ⟨c, rest, hq, hdeq⟩ := dequeued_of_dequeue hstep
      cases hdeq with
      | created ho =>
        rw [released_reply]
        exact hi
      | closed =>
        rw [(closeReply_rest _ _).2.2]
        exact hi
      | spawned hne hcall => exact hi
      | received =>
        rw [(received_of_onRecv rfl).released]
        exact hi
      | @released j =>
        obtain ⟨f, hf⟩ := onRelease_eq { s with queue := rest } j
        rw [hf]
        exact List.mem_cons_of_mem _ hi
      | refused =>
        rw [released_reply]
        exact hi
    | poll k =>
      rw [poll_rest hstep]
      exact hi
    | answer k o =>
      obtain ⟨call, r, u, hk, -, -, rfl⟩ := answer_cases hstep
      exact hi
    | resume k =>
      rw [resume_rest hstep]
      exact hi
    | arriveMsg c m | arriveConn c n =>
      obtain rfl := Option.some.inj hstep
      exact hi
    | _ => exact absurd ha (by simp [isRemote])

end Sys

end FungiTransport
