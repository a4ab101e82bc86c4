import FungiTransport.Capnp.Delivery
import FungiTransport.Capnp.Mutex
import FungiTransport.Capnp.Params

/-!
# The hand-off of received messages

Between the capnp `recv`s of a channel and the calls of `recv` stands its receive state.  As long as
no `recv` of the channel is dequeued behind its `Release`, the state holds at most one message, and
none while a capnp `recv` is outstanding; and what the reply slots took, followed by what the buffer
holds, is what the capnp `recv`s brought (`Sys.hand_off`).  No bound on the ids is needed for it.
-/

namespace FungiTransport

open Lib

namespace Sys

/-- The messages that the reply slots of `recv`s of channel `i` take in a step. -/
def accepted (i : ℕ) (s s' : Sys) : List Bytes :=
  gather s'.fresh fun t => if s.accepts t then s'.heldBy i t else none

/-- The messages of the capnp `recv`s of channel `i` that complete in a step. -/
def completed (i : ℕ) (s s' : Sys) : List Bytes :=
  gather s'.fresh fun k => if s'.tasks k = none then s.carriedBy i k else none

/-! ## Whose call a sender is for -/

/-- The sender of a `recv`, in the queue or in a receive state, is for a `recv` of that channel. -/
structure Addressed (s : Sys) : Prop where
  queue : ∀ i t, .recv i t ∈ s.queue → ∃ h, s.Calls t (.recv h i)
  waiter : ∀ i st w, s.reg.recvStates i = some st → st.waiter = some w →
    ∃ h, s.Calls w (.recv h i)

lemma Calls.update {s s' : Sys} {t u : ℕ} {op op' : Op} {st st' : Status} (h : s.Calls t op)
    (hf : s.futs u = some ⟨op', st⟩)
    (hfuts : s'.futs = Function.update s.futs u (some ⟨op', st'⟩)) : s'.Calls t op := by
  obtain ⟨x, hx⟩ := h
  by_cases htu : t = u
  · subst htu
    obtain ⟨rfl, -⟩ := Fut.mk.inj (Option.some.inj (hf.symm.trans hx))
    exact ⟨st', by rw [hfuts, Function.update_self]⟩
  · exact ⟨x, by rw [hfuts, Function.update_of_ne htu, hx]⟩

/-- The actor, its tasks and the server leave every call what it is. -/
lemma calls_of_remote {s s' : Sys} {a : Action} (ha : isRemote a = true)
    (hstep : s.step a = some s') {t : ℕ} {op : Op} (h : s.Calls t op) : s'.Calls t op := by
  cases replyStep_of_step ha hstep with
  | kept hfuts =>
    obtain ⟨st, hf⟩ := h
    exact ⟨st, hfuts ▸ hf⟩
  | closed hf hfuts => exact h.update hf hfuts
  | replied hf hfuts hr => exact h.update hf hfuts

/-- A call keeps its ticket. -/
lemma calls_of_step {s s' : Sys} {a : Action} (hfree : s.futs s.fresh = none)
    (hstep : s.step a = some s') {t : ℕ} {op : Op} (hop : op.isEnsure = false)
    (h : s.Calls t op) : s'.Calls t op := by
  cases ha : isRemote a with
  | false => exact ((step_caller_futs hfree ha hstep).1 t).calls hop h
  | true => exact calls_of_remote ha hstep h

/-- So does one that is to create a connector, until it turns to its `connect`. -/
lemma calls_of_stays {s s' : Sys} {a : Action} (hfree : s.futs s.fresh = none)
    (hstep : s.step a = some s') {t : ℕ} {op : Op} {st : Status} (hf : s.futs t = some ⟨op, st⟩)
    (hst : st.turns = false) : s'.Calls t op := by
  cases ha : isRemote a with
  | false => exact ((step_caller_futs hfree ha hstep).1 t).stays hf hst
  | true => exact calls_of_remote ha hstep ⟨st, hf⟩

lemma step_queue {s s' : Sys} {a : Action} (hfree : s.futs s.fresh = none)
    (hstep : s.step a = some s') {c : Command} (hc : c ∈ s'.queue) :
    c ∈ s.queue ∨ (∃ i, c = .release i) ∨ ∃ t op, c = op.command t ∧ s.Calls t op := by
  cases ha : isRemote a with
  | false => exact (step_caller_futs hfree ha hstep).2 c hc
  | true =>
    cases a with
    | dequeue =>
      rw [dequeue_rest hstep] at hc
      exact .inl (List.mem_of_mem_tail hc)
    | poll k =>
      rw [poll_rest hstep] at hc
      exact .inl hc
    | answer k o =>
      obtain ⟨call, r, u, hk, -, -, rfl⟩ := answer_cases hstep
      exact .inl hc
    | resume k =>
      rw [resume_rest hstep] at hc
      exact .inl hc
    | arriveMsg c m | arriveConn c n =>
      obtain rfl := Option.some.inj hstep
      exact .inl hc
    | _ => exact absurd ha (by simp [isRemote])

lemma step_addressed {s s' : Sys} {a : Action} (h : s.Addressed) (hfuts : s.futs s.fresh = none)
    (hfree : s.tasks s.fresh = none) (hstep : s.step a = some s') : s'.Addressed where
  queue := fun i t hc => by
    have hcalls : ∃ j, s.Calls t (.recv j i) := by
      rcases step_queue hfuts hstep hc with hold | ⟨j, hj⟩ | ⟨u, op, hop, hu⟩
      · exact h.queue i t hold
      · exact absurd hj (by simp)
      · cases op with
        | recv j i' =>
          obtain ⟨rfl, rfl⟩ := Command.recv.inj hop
          exact ⟨j, hu⟩
        | _ => exact absurd hop (by simp [Op.command])
    obtain ⟨j, hj⟩ := hcalls
    exact ⟨j, calls_of_step hfuts hstep rfl hj⟩
  waiter := fun i st w hst hw => by
    have hcalls : ∃ j, s.Calls w (.recv j i) := by
      cases stateStep_of_step hfree hstep i with
      | kept hst' => exact h.waiter i st w (hst' ▸ hst) hw
      | served hold hbuf hst' =>
        obtain rfl := Option.some.inj (hst'.symm.trans hst)
        exact h.waiter i _ w hold hw
      | @waits t rest hq hst' =>
        obtain rfl := Option.some.inj (hst'.symm.trans hst)
        obtain rfl : t = w := Option.some.inj hw
        exact h.queue i t (hq ▸ List.mem_cons_self)
      | released hst' => exact absurd (hst'.symm.trans hst) (by simp)
      | ended hold hk hmore hst' =>
        obtain rfl := Option.some.inj (hst'.symm.trans hst)
        exact absurd hw (by simp)
    obtain ⟨j, hj⟩ := hcalls
    exact ⟨j, calls_of_step hfuts hstep rfl hj⟩

lemma addressed_init (cfg : Config) : (init cfg).Addressed :=
  ⟨by simp [init], by simp [init, Registry.new]⟩

/-! ## What goes in and out -/

lemma accepted_unfed {i : ℕ} {s s' : Sys} (h : Unfed s s') : accepted i s s' = [] := by
  refine gather_eq_nil fun t => ?_
  split
  case isTrue hacc =>
    by_contra hne
    obtain ⟨m, hm⟩ := Option.ne_none_iff_exists'.mp hne
    obtain ⟨f, hf, hheld⟩ := Option.bind_eq_some_iff.mp hm
    obtain ⟨j, rfl⟩ := held_eq_some hheld
    exact h t _ m hacc hf
  case isFalse hacc => rfl

/-- A call of `recv` that waits gets its result. -/
lemma accepted_reply {i j h t : ℕ} {s u : Sys} {result : Except RecvError Bytes}
    (hs' : Traced (u.reply t (.recv result))) (hu : u.futs = s.futs)
    (hf : s.futs t = some ⟨.recv h j, .waiting⟩) :
    accepted i s (u.reply t (.recv result)) = if j = i then messages result else [] := by
  have hreply : (u.reply t (.recv result)).futs =
      Function.update s.futs t (some ⟨.recv h j, .replied (.recv result)⟩) := by
    rw [reply_waiting (hu ▸ hf), ← hu]
    rfl
  have hother : ∀ v, v ≠ t →
      (if s.accepts v then (u.reply t (.recv result)).heldBy i v else none) = none := by
    intro v hv
    split
    case isTrue hacc =>
      obtain ⟨op, hw⟩ := accepts_iff.mp hacc
      simp [heldBy, hreply, Function.update_of_ne hv, hw, Fut.held]
    case isFalse hacc => rfl
  have hbound : ∀ v, (u.reply t (.recv result)).fresh ≤ v →
      (if s.accepts v then (u.reply t (.recv result)).heldBy i v else none) = none := by
    intro v hv
    have hnone : (u.reply t (.recv result)).futs v = none := by
      by_contra hne
      obtain ⟨f, hfv⟩ := Option.ne_none_iff_exists'.mp hne
      exact absurd (hs'.lt v f hfv) (Nat.not_lt.mpr hv)
    simp [heldBy, hnone]
  unfold accepted
  rw [gather_single hother hbound, if_pos (accepts_iff.mpr ⟨_, hf⟩)]
  cases result with
  | ok m => by_cases hji : j = i <;> simp [heldBy, hreply, Fut.held, hji, messages]
  | error e => simp [heldBy, hreply, Fut.held, messages]

/-- Where the `recv` tasks of the channel stay, none of its `recv`s completes. -/
lemma completed_eq_nil {i : ℕ} {s s' : Sys} (h : ∀ k, s.RecvTask i k → s'.RecvTask i k) :
    completed i s s' = [] := by
  refine gather_eq_nil fun k => ?_
  split
  case isTrue hnone =>
    by_contra hne
    obtain ⟨m, hm⟩ := Option.ne_none_iff_exists'.mp hne
    obtain ⟨x, hx, hcar⟩ := Option.bind_eq_some_iff.mp hm
    obtain ⟨o, rfl⟩ := carried_eq_some hcar
    obtain ⟨o', st, hk⟩ := h k ⟨o, _, hx⟩
    exact absurd (hnone.symm.trans hk) (by simp)
  case isFalse hsome => rfl

lemma completed_end {i k : ℕ} {o : Option Cap} {st : Stage} {result : Except RecvError Bytes}
    {s s' : Sys} (hs : Mutexes s) (hfresh : s.fresh ≤ s'.fresh)
    (hk : s.tasks k = some ⟨.recv i o, st⟩)
    (hmsg : ∀ m, result = .ok m ↔ st = .answered (.ok (.msg m)))
    (htasks : s'.tasks = Function.update s.tasks k none) :
    completed i s s' = messages result := by
  have hother : ∀ j, j ≠ k → (if s'.tasks j = none then s.carriedBy i j else none) = none := by
    intro j hj
    split
    case isTrue hnone =>
      rw [htasks, Function.update_of_ne hj] at hnone
      simp [carriedBy, hnone]
    case isFalse hsome => rfl
  have hbound : ∀ j, s'.fresh ≤ j →
      (if s'.tasks j = none then s.carriedBy i j else none) = none := by
    intro j hj
    have hnone : s.tasks j = none := by
      by_contra hne
      obtain ⟨x, hx⟩ := Option.ne_none_iff_exists'.mp hne
      exact absurd (hs.lt j x hx) (Nat.not_lt.mpr (hfresh.trans hj))
    simp [carriedBy, hnone]
  unfold completed
  rw [gather_single hother hbound, htasks, Function.update_self, if_pos rfl]
  cases result with
  | ok m =>
    obtain rfl := (hmsg m).mp rfl
    simp [carriedBy, hk, Task.carried, messages]
  | error e =>
    have hnot : ∀ m, st ≠ .answered (.ok (.msg m)) := fun m hm =>
      absurd ((hmsg m).mpr hm) (by simp)
    rcases st with _ | _ | e' | (_ | m | c | text) <;>
      simp_all [carriedBy, Task.carried, messages]

/-- What is known about channel `i` in every state of a run that takes no `recv` of it behind its
`Release`. -/
structure HandOff (i : ℕ) (s : Sys) : Prop where
  traced : Traced s
  mutexes : Mutexes s
  addressed : s.Addressed
  agrees : s.Agrees i
  single : ∀ st, s.reg.recvStates i = some st → st.buffer.length ≤ 1
  waiting : ∀ st, s.reg.recvStates i = some st → st.waiter ≠ none → st.inFlight = true

lemma handOff_init (cfg : Config) (i : ℕ) : HandOff i (init cfg) :=
  ⟨traced_init cfg, mutexes_init cfg, addressed_init cfg, agrees_init cfg i,
    by simp [init, Registry.new], by simp [init, Registry.new]⟩

/-- While the task of its capnp `recv` is there, nothing is in the buffer of a receive state. -/
lemma Agrees.empty {s : Sys} {i k : ℕ} (h : s.Agrees i) {st : RecvState}
    (hst : s.reg.recvStates i = some st) (hk : s.RecvTask i k) : st.buffer = [] := by
  have hlive : i ∉ s.released := fun hr => by simp [h.released hr] at hst
  refine h.buffer st hst ?_
  simpa [hst] using (h.inFlight hlive).mpr ⟨k, hk⟩

lemma step_handOff {s s' : Sys} {a : Action} {i : ℕ} (h : HandOff i s) (hown : RecvOwned i s a)
    (hstep : s.step a = some s') : HandOff i s' where
  traced := step_traced h.traced hstep
  mutexes := step_mutexes h.mutexes hstep
  addressed := step_addressed h.addressed h.traced.futs_fresh h.mutexes.tasks_fresh hstep
  agrees := step_agrees h.agrees h.mutexes.tasks_fresh hown hstep
  single := fun st hst => by
    cases stateStep_of_step h.mutexes.tasks_fresh hstep i with
    | kept hst' => exact h.single st (hst' ▸ hst)
    | served hold hbuf hst' =>
      obtain rfl := Option.some.inj (hst'.symm.trans hst)
      have hlen := h.single _ hold
      rw [hbuf, List.length_cons] at hlen
      exact (Nat.le_succ _).trans hlen
    | waits hq hst' =>
      obtain rfl := Option.some.inj (hst'.symm.trans hst)
      exact Nat.zero_le _
    | released hst' => exact absurd (hst'.symm.trans hst) (by simp)
    | ended hold hk hmore hst' =>
      obtain rfl := Option.some.inj (hst'.symm.trans hst)
      -- one message at most joins a buffer that is empty
      have hempty := h.agrees.empty hold hk
      rcases hmore with rfl | ⟨result, rfl⟩
      · simp [hempty]
      · cases result <;> simp [hempty, messages]
  waiting := fun st hst hw => by
    cases stateStep_of_step h.mutexes.tasks_fresh hstep i with
    | kept hst' => exact h.waiting st (hst' ▸ hst) hw
    | @served _ old m buf hold hbuf hst' =>
      obtain rfl := Option.some.inj (hst'.symm.trans hst)
      exact h.waiting old hold hw
    | waits hq hst' =>
      obtain rfl := Option.some.inj (hst'.symm.trans hst)
      rfl
    | released hst' => exact absurd (hst'.symm.trans hst) (by simp)
    | ended hold hk hmore hst' =>
      obtain rfl := Option.some.inj (hst'.symm.trans hst)
      exact absurd rfl hw

/-! ## The balance of a step -/

lemma buffered_congr {i : ℕ} {s s' : Sys} (h : s'.reg.recvStates i = s.reg.recvStates i) :
    s'.buffered i = s.buffered i := by
  unfold buffered
  rw [h]

lemma buffered_setRecvState {s' : Sys} {i : ℕ} {r : Registry} {st : RecvState}
    (h : s'.reg.recvStates = (r.setRecvState i st).recvStates) : s'.buffered i = st.buffer := by
  simp [buffered, h, Registry.setRecvState]

/-- `Command::Recv` takes a message out of the buffer, or changes neither buffer nor replies. -/
lemma received_balance {s s' : Sys} {i j t : ℕ} {rest : List Command} (h : s.Addressed)
    (hs' : Traced s') (hfree : s.tasks s.fresh = none) (hq : s.queue = .recv j t :: rest)
    (hrec : Received { s with queue := rest } j t ((s.reg.recvStates j).getD .default) s') :
    accepted i s s' ++ s'.buffered i = s.buffered i := by
  have hother : i ≠ j → s'.buffered i = s.buffered i := fun hij =>
    buffered_congr (hrec.other hfree hij).state
  have hunfed : Unfed s s' → (i = j → s'.buffered i = s.buffered i) →
      accepted i s s' ++ s'.buffered i = s.buffered i := by
    intro hun hsame
    rw [accepted_unfed hun, List.nil_append]
    by_cases hij : i = j
    · exact hsame hij
    · exact hother hij
  cases hrec with
  | @replied m buf hbuf hacc =>
    obtain ⟨op, hf⟩ := accepts_iff.mp hacc
    obtain ⟨h', st, hcall⟩ := h.queue j t (hq ▸ List.mem_cons_self)
    obtain ⟨rfl, rfl⟩ := Fut.mk.inj (Option.some.inj (hcall.symm.trans hf))
    rw [accepted_reply (s := s) hs' rfl hcall]
    by_cases hij : i = j
    · subst hij
      rw [if_pos rfl, buffered_congr (SameRecv.reply (i := i) t _).state, buffered_setRecvState rfl]
      exact hbuf.symm
    · rw [if_neg (Ne.symm hij), List.nil_append, hother hij]
  | kept hbuf hacc =>
    refine hunfed (unfed_of_futs rfl) ?_
    rintro rfl
    exact buffered_setRecvState rfl
  | joined hbuf hin =>
    refine hunfed (unfed_closeWaiter (by rfl) _) ?_
    rintro rfl
    rw [buffered_congr (SameRecv.closeWaiter (i := i) _).state, buffered_setRecvState rfl]
    exact hbuf.symm
  | spawned hbuf hin =>
    refine hunfed (fun v op m => unfed_closeWaiter (by rfl) _ v op m) ?_
    rintro rfl
    refine (buffered_congr (SameRecv.closeWaiter (i := i) _).state).trans ?_
    rw [buffered_setRecvState rfl]
    exact hbuf.symm

/-- The end of a `recv` task puts its message in a reply slot or in the buffer. -/
lemma completed_balance {s s' : Sys} {i k : ℕ} {o : Option Cap} {st : Stage}
    {result : Except RecvError Bytes} (h : HandOff i s) (hlive : i ∉ s.released)
    (hs' : Traced s') (hk : s.tasks k = some ⟨.recv i o, st⟩)
    (hend : (s.setTask k none).Completed i result s') :
    accepted i s s' ++ s'.buffered i = s.buffered i ++ messages result := by
  have htask : s.RecvTask i k := ⟨o, st, hk⟩
  cases hend with
  | gone hnone =>
    -- the channel has a receive state, since its `recv` is outstanding
    have hin := (h.agrees.inFlight hlive).mpr ⟨k, htask⟩
    have hnone' : s.reg.recvStates i = none := hnone
    simp [hnone', RecvState.default] at hin
  | @kept rst hst =>
    have hst' : s.reg.recvStates i = some rst := hst
    rw [accepted_unfed (s := s) (unfed_of_futs (by rfl)), buffered_setRecvState rfl]
    simp [buffered, hst']
  | @replied rst w hst hw hacc =>
    have hst' : s.reg.recvStates i = some rst := hst
    obtain ⟨op, hf⟩ := accepts_iff.mp hacc
    obtain ⟨h', x, hcall⟩ := h.addressed.waiter i rst w hst hw
    obtain ⟨rfl, rfl⟩ := Fut.mk.inj (Option.some.inj (hcall.symm.trans hf))
    rw [accepted_reply (s := s) hs' rfl hcall, if_pos rfl,
      buffered_congr (SameRecv.reply (i := i) w _).state, buffered_setRecvState rfl]
    -- the buffer was empty, so the message overtakes none
    have hempty := h.agrees.empty hst htask
    simp [buffered, hst', hempty]

lemma accepted_other {s s' : Sys} {i j k : ℕ} {result : Except RecvError Bytes}
    (h : s.Addressed) (hs' : Traced s') (hij : i ≠ j)
    (hend : (s.setTask k none).Completed j result s') : accepted i s s' = [] := by
  cases hend with
  | gone hnone => exact accepted_unfed (unfed_of_futs (by rfl))
  | kept hst => exact accepted_unfed (unfed_of_futs (by rfl))
  | replied hst hw hacc =>
    obtain ⟨op, hf⟩ := accepts_iff.mp hacc
    obtain ⟨h', x, hcall⟩ := h.waiter j _ _ hst hw
    obtain ⟨rfl, rfl⟩ := Fut.mk.inj (Option.some.inj (hcall.symm.trans hf))
    rw [accepted_reply (s := s) hs' rfl hcall, if_neg (Ne.symm hij)]

lemma Received.recvTask {s s' : Sys} {i j t k : ℕ} {st : RecvState} (h : s.Received j t st s')
    (hfree : s.tasks s.fresh = none) (hk : s.RecvTask i k) : s'.RecvTask i k := by
  cases h with
  | replied hbuf hacc => exact (SameRecv.reply t _).task k |>.mpr hk
  | kept hbuf hacc => exact hk
  | joined hbuf hin => exact (SameRecv.closeWaiter _).task k |>.mpr hk
  | spawned hbuf hin =>
    obtain ⟨f, hf⟩ := closeWaiter_eq { s with reg := s.reg.setRecvState j ⟨true, some t, []⟩ }
      st.waiter
    rw [hf]
    refine (recvTask_update rfl i k).mpr (.inr ⟨?_, hk⟩)
    rintro rfl
    obtain ⟨o, x, hx⟩ := hk
    exact absurd (hfree.symm.trans hx) (by simp)

/-- **The step lemma** of the hand-off: what the reply slots take comes first out of the buffer, and
what the buffer gets behind it was brought by a capnp `recv`. -/
lemma step_balance {s s' : Sys} {a : Action} {i : ℕ} (h : HandOff i s) (hlive : i ∉ s'.released)
    (hstep : s.step a = some s') :
    accepted i s s' ++ s'.buffered i = s.buffered i ++ completed i s s' := by
  have hs' : Traced s' := step_traced h.traced hstep
  have hfree : s.tasks s.fresh = none := h.mutexes.tasks_fresh
  cases recvStep_of_step hfree hstep with
  | quiet hsame hunfed =>
    rw [accepted_unfed hunfed, buffered_congr (hsame i).state,
      completed_eq_nil fun k hk => ((hsame i).task k).mpr hk, List.nil_append, List.append_nil]
  | @received j t rest hq hrec =>
    rw [completed_eq_nil fun k hk => hrec.recvTask (by exact hfree) (by exact hk), List.append_nil]
    exact received_balance h.addressed hs' hfree hq hrec
  | @released j rest hq hrel =>
    have hunfed : Unfed s s' := by
      rw [← hrel]
      exact fun v op m => unfed_closeWaiter (by rfl) _ v op m
    have hij : i ≠ j := by
      rintro rfl
      obtain ⟨f, hf⟩ := onRelease_eq { s with queue := rest } i
      rw [← hrel, hf] at hlive
      exact hlive List.mem_cons_self
    have hsame : SameRecv i { s with queue := rest } s' := hrel ▸ .onRelease hij
    rw [accepted_unfed hunfed, completed_eq_nil fun k hk => (hsame.task k).mpr (by exact hk),
      List.nil_append, List.append_nil]
    exact buffered_congr hsame.state
  | @completed a j k o x result ha hk hmsg hend =>
    obtain ⟨htasks, hreleased⟩ := hend.rest
    by_cases hij : i = j
    · subst hij
      rw [completed_end h.mutexes (step_fresh hstep) hk hmsg htasks]
      exact completed_balance h (fun hr => hlive (hreleased ▸ hr)) hs' hk hend
    · have hsame : SameRecv i s s' :=
        (SameRecv.remove hk (by simp [Ne.symm hij])).trans (hend.other hij)
      rw [accepted_other h.addressed hs' hij hend, buffered_congr hsame.state,
        completed_eq_nil fun k hk => (hsame.task k).mpr hk, List.nil_append, List.append_nil]

/-! ## Every run -/

/-- A handle queues its `Release` behind its `recv`s, so on a run that does not exhaust the ids none
of them is dequeued behind it. -/
lemma recvOwned_of_run {cfg : Config} {as : List Action} {s : Sys}
    (hrun : run step (Sys.init cfg) as = some s) (hfew : s.created.length < 2 ^ 64) (i : ℕ) :
    EachStep step (RecvOwned i) (Sys.init cfg) as := by
  refine eachStep_iff.mpr fun pre a post u hcut hpre => ?_
  obtain ⟨u', hu', hpost⟩ := run_append.mp (hcut ▸ hrun)
  obtain rfl : u = u' := Option.some.inj (hpre.symm.trans hu')
  have hgrows : u.created <+: s.created :=
    run_invariant (I := fun v => u.created <+: v.created)
      (fun _ _ _ hv hstep => hv.trans (step_created hstep)) List.prefix_rfl hpost
  exact (sound_of_run hpre (hgrows.length_le.trans_lt hfew)).recvOwned i a

lemma handOff_of_run {cfg : Config} {as : List Action} {s : Sys} {i : ℕ}
    (hrun : run step (Sys.init cfg) as = some s)
    (hown : EachStep step (RecvOwned i) (Sys.init cfg) as) : HandOff i s :=
  run_induction (P := RecvOwned i) (I := HandOff i)
    (fun _ _ _ h hP hstep => step_handOff h hP hstep) (handOff_init cfg i) hown hrun

/-- What was accepted and what is in the buffer are the messages of the completed `recv`s. -/
lemma accepted_of_run {cfg : Config} {as : List Action} {s : Sys} {i : ℕ}
    (hrun : run step (Sys.init cfg) as = some s)
    (hown : EachStep step (RecvOwned i) (Sys.init cfg) as) (hlive : i ∉ s.released) :
    outputs step (accepted i) (Sys.init cfg) as ++ s.buffered i =
      outputs step (completed i) (Sys.init cfg) as := by
  -- the channel was not released in any state on the way
  have hback := (eachStep_of_last (Q := fun u => i ∉ u.released)
    (fun _ _ _ hstep hlive hrel => hlive (step_released hstep hrel)) hrun hlive).1
  have hbalance := outputs_balance (I := HandOff i) (accepted i) (completed i)
    (fun u => u.buffered i)
    (fun u a u' h hP hstep => ⟨step_handOff h hP.1 hstep, step_balance h (hP.2 u' hstep) hstep⟩)
    (handOff_init cfg i) (hown.and hback) hrun
  rw [hbalance]
  simp [buffered, Sys.init, Registry.new, RecvState.default]

/-- **The hand-off of a channel's messages**, in every run in which no `recv` of the channel is
dequeued behind its `Release`, as in every run that does not exhaust the ids: one capnp `recv` is
outstanding at most, and exactly while the receive state says so; while one is, nothing is in the
buffer, which never holds two messages; who waits has one to wait for; and until the `Release` what
the reply slots took, followed by what the buffer holds, is what the completed `recv`s brought.  A
channel that was released has no receive state, and no task that ends creates one. -/
theorem hand_off {cfg : Config} {as : List Action} {s : Sys}
    (hrun : run step (Sys.init cfg) as = some s) (i : ℕ) :
    (s.created.length < 2 ^ 64 → EachStep step (RecvOwned i) (Sys.init cfg) as) ∧
    (EachStep step (RecvOwned i) (Sys.init cfg) as →
      (∀ k k', s.RecvTask i k → s.RecvTask i k' → k = k') ∧
      ((∃ st, s.reg.recvStates i = some st ∧ st.inFlight = true) ↔
        (∃ k, s.RecvTask i k) ∧ s.reg.recvStates i ≠ none) ∧
      (∀ st, s.reg.recvStates i = some st → (st.inFlight = true → st.buffer = []) ∧
        st.buffer.length ≤ 1 ∧ (st.waiter ≠ none → st.inFlight = true)) ∧
      (i ∉ s.released → outputs step (accepted i) (Sys.init cfg) as ++ s.buffered i =
        outputs step (completed i) (Sys.init cfg) as) ∧
      (i ∈ s.released → s.reg.recvStates i = none)) ∧
    ∀ a s', s.step a = some s' → a ≠ .dequeue → s.reg.recvStates i = none →
      s'.reg.recvStates i = none := by
  refine ⟨fun hfew => recvOwned_of_run hrun hfew i, fun hown => ?_, ?_⟩
  · have h : HandOff i s := handOff_of_run hrun hown
    refine ⟨h.agrees.oneTask, ?_, fun st hst => ⟨h.agrees.buffer st hst, h.single st hst,
      h.waiting st hst⟩, accepted_of_run hrun hown, h.agrees.released⟩
    cases hst : s.reg.recvStates i with
    | none => simp
    | some st =>
      have hlive : i ∉ s.released := fun hr => by simp [h.agrees.released hr] at hst
      have hin := h.agrees.inFlight hlive
      simpa [hst] using hin
  · intro a s' hstep ha hnone
    have hmut : Mutexes s := run_invariant (fun _ _ _ h hstep => step_mutexes h hstep)
      (mutexes_init cfg) hrun
    by_contra hne
    obtain ⟨st, hst⟩ := Option.ne_none_iff_exists'.mp hne
    rcases recvStates_of_step hmut.tasks_fresh hstep hst with ⟨st', hst'⟩ | ⟨rfl, -⟩
    · exact absurd (hnone.symm.trans hst') (by simp)
    · exact ha rfl

/-- A `recv` is dropped and its message goes to the next one, and then another is dropped. -/
theorem hand_off_redelivery :
    ∃ as s, run step (Sys.init channelConfig) as = some s ∧ s.buffered 0 = [[8]] ∧
      outputs step (completed 0) (Sys.init channelConfig) as = [[7], [8]] ∧
      outputs step (accepted 0) (Sys.init channelConfig) as ++ s.buffered 0 = [[7], [8]] := by
  obtain ⟨as, s, hrun, hbuf, hcomp, hfew, hlive⟩ : ∃ as s,
      run step (Sys.init channelConfig) as = some s ∧ s.buffered 0 = [[8]] ∧
      outputs step (completed 0) (Sys.init channelConfig) as = [[7], [8]] ∧
      s.created.length < 2 ^ 64 ∧ 0 ∉ s.released :=
    ⟨[.recv 0, .enqueue 2, .dequeue, .poll 3, .dropFut 2, .arriveMsg 0 [7], .answer 3 .ok,
      .resume 3, .recv 0, .enqueue 4, .dequeue, .resolve 4, .recv 0, .enqueue 5, .dequeue, .poll 6,
      .arriveMsg 0 [8], .answer 6 .ok, .dropFut 5, .resume 6], _,
      Option.eq_some_of_isSome (by decide), by decide, by decide, by decide, by decide⟩
  obtain ⟨howned, hall, -⟩ := hand_off hrun 0
  obtain ⟨-, -, -, hsame, -⟩ := hall (howned hfew)
  exact ⟨as, s, hrun, hbuf, hcomp, (hsame hlive).trans hcomp⟩

end Sys

end FungiTransport
