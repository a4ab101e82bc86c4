import FungiTransport.Capnp.Teardown
import FungiTransport.Capnp.Delivery

/-!
# The order of calls at a channel's mutex

The server takes the calls on a channel one at a time, in the order in which they were issued.
A `send` waits behind a `recv` for as long as the peer is silent.  When the actor starts no `send`
of a channel while a capnp `recv` of it is unanswered, and no capnp `recv` while a `send` is not
issued yet, no `send` ever waits behind a `recv` (`Sys.send_not_blocked`).  A `recv` whose caller
has gone away stays at the mutex, and the next `send` waits behind it (`Sys.send_behind_recv`).
-/

namespace FungiTransport

open Lib

/-- The call is a `recv` on the object. -/
def Call.recvsOn (o : Cap) : Call → Bool
  | .recv _ c => c == some o
  | .listen _ _ _ _ | .onionAddr _ _ | .connect _ _ _ | .accept _ _ | .send _ _ _
  | .configure _ _ _ => false

/-- A `recv` on the object that is on its way to the server, or waits there. -/
def Task.unanswered (o : Cap) (x : Task) : Bool :=
  x.call.recvsOn o && (x.stage == .spawned || x.stage == .issued)

/-- A `send` on the object that is not issued yet. -/
def Task.unsent (o : Cap) (x : Task) : Bool := x.call.sendsOn o && x.stage == .spawned

namespace Sys

/-- A `recv` holds the mutex of the object and waits for a message of the peer, and a `send` waits
for the mutex. -/
def SendBlocked (s : Sys) (o : Cap) : Prop :=
  ∃ k rest, s.lock o = k :: rest ∧ (∃ i, s.tasks k = some ⟨.recv i (some o), .issued⟩) ∧
    s.inbox o = [] ∧ ∃ k' ∈ rest, ∃ msg t, s.tasks k' = some ⟨.send (some o) msg t, .issued⟩

/-- The actor starts no `send` on the object while a capnp `recv` is unanswered, and no capnp
`recv` while a `send` is not issued. -/
def Alternates (o : Cap) (s : Sys) : Action → Prop
  | .dequeue => ∀ c ∈ s.queue.head?, ∀ call ∈ s.calls c, ∀ k < s.fresh, ∀ x ∈ s.tasks k,
      ¬ (call.sendsOn o ∧ x.unanswered o) ∧ ¬ (call.recvsOn o ∧ x.unsent o)
  | _ => True

instance (o : Cap) (s : Sys) : DecidablePred (Alternates o s)
  | .dequeue => inferInstanceAs (Decidable (∀ c ∈ s.queue.head?, ∀ call ∈ s.calls c, ∀ k < s.fresh,
      ∀ x ∈ s.tasks k, ¬ (call.sendsOn o ∧ x.unanswered o) ∧ ¬ (call.recvsOn o ∧ x.unsent o)))
  | .newConnector | .listen _ | .configure _ | .connect _ _ | .accept _ | .send _ _ | .recv _
  | .wake _ | .enqueue _ | .resolve _ | .dropFut _ | .dropHandle _ _ | .poll _ | .answer _ _ | .resume _
  | .arriveMsg _ _ | .arriveConn _ _ => inferInstanceAs (Decidable True)

/-! ## Names and mutexes -/

/-- Tasks have names that were given out, and the calls at a mutex are issued ones. -/
structure Mutexes (s : Sys) : Prop where
  lt : ∀ k x, s.tasks k = some x → k < s.fresh
  lock : ∀ c k, k ∈ s.lock c → ∃ call, s.tasks k = some ⟨call, .issued⟩ ∧ call.mutex = some c
  nodup : ∀ c, (s.lock c).Nodup

lemma mutexes_init (cfg : Config) : Mutexes (init cfg) :=
  ⟨by simp [init], by simp [init], fun _ => List.nodup_nil⟩

lemma Mutexes.tasks_fresh {s : Sys} (h : Mutexes s) : s.tasks s.fresh = none := by
  by_contra hne
  obtain ⟨x, hx⟩ := Option.ne_none_iff_exists'.mp hne
  exact lt_irrefl _ (h.lt _ x hx)

lemma mutexes_lt {s s' : Sys} {a : Action} (h : Mutexes s) (hstep : s.step a = some s') {k : ℕ}
    {x : Task} (hk : s'.tasks k = some x) : k < s'.fresh := by
  cases taskStep_of_step hstep hk with
  | kept hold | issued hold | answered hold | listened hold =>
    exact (h.lt k _ hold).trans_le (step_fresh hstep)
  | spawned hq hcall =>
    rcases tasks_dequeue_cases hstep with ⟨hsame, -⟩ | ⟨c, rest, call, -, -, hfresh, -⟩
    · rw [hsame, h.tasks_fresh] at hk
      exact absurd hk (by simp)
    · omega

/-- A call that was issued stays so until it is answered. -/
lemma Mutexes.issued {s s' : Sys} {a : Action} (h : Mutexes s) (hstep : s.step a = some s') {k : ℕ}
    {call : Call} (hk : s.tasks k = some ⟨call, .issued⟩) (hanswer : ∀ o, a ≠ .answer k o) :
    s'.tasks k = some ⟨call, .issued⟩ := by
  refine task_kept hstep h.tasks_fresh hk ?_ hanswer ?_
  · rintro rfl
    obtain ⟨call', hk', -⟩ := tasks_poll_cases hstep
    simp [hk] at hk'
  · rintro rfl
    obtain ⟨call', r, hk', -⟩ := tasks_resume_cases hstep
    simp [hk] at hk'

lemma step_mutexes {s s' : Sys} {a : Action} (h : Mutexes s) (hstep : s.step a = some s') :
    Mutexes s' where
  lt := fun k x hk => mutexes_lt h hstep hk
  lock := fun c k hmem => by
    by_cases hanswer : ∃ o, a = .answer k o
    · -- an answered call is not at the mutex any more
      obtain ⟨o, rfl⟩ := hanswer
      obtain ⟨call, r, u, hk, -, -, rfl⟩ := answer_cases hstep
      have hmem' : k ∈ if call.mutex = some c then (s.lock c).erase k else s.lock c := hmem
      split at hmem'
      · exact absurd rfl ((h.nodup c).mem_erase_iff.mp hmem').1
      · rename_i hout
        obtain ⟨call', hk', hmutex⟩ := h.lock c k hmem'
        obtain rfl : call = call' := by simpa [hk] using hk'
        exact absurd hmutex hout
    · have hold : k ∈ s.lock c →
          ∃ call, s'.tasks k = some ⟨call, .issued⟩ ∧ call.mutex = some c := by
        intro hmem
        obtain ⟨call, hk, hmutex⟩ := h.lock c k hmem
        exact ⟨call, h.issued hstep hk fun o ho => hanswer ⟨o, ho⟩, hmutex⟩
      cases step_lock hstep c with
      | kept hlock => exact hold (hlock ▸ hmem)
      | issued hk hk' hmutex hlock =>
        rw [hlock] at hmem
        rcases List.mem_append.mp hmem with hmem | hmem
        · exact hold hmem
        · obtain rfl := List.mem_singleton.mp hmem
          exact ⟨_, hk', hmutex⟩
      | answered hlock => exact hold (List.mem_of_mem_erase (hlock ▸ hmem))
  nodup := fun c => by
    cases step_lock hstep c with
    | kept hlock => exact hlock ▸ h.nodup c
    | issued hk hk' hmutex hlock =>
      rw [hlock]
      refine List.nodup_append.mpr ⟨h.nodup c, by simp, fun j hj j' hj' => ?_⟩
      obtain rfl := List.mem_singleton.mp hj'
      rintro rfl
      -- whoever is at the mutex was issued before, and the new call was not
      obtain ⟨call', hold, -⟩ := h.lock c j hj
      simp [hk] at hold
    | answered hlock => exact hlock ▸ (h.nodup c).erase _

/-! ## Sends and receives -/

/-- The order of the calls on an object: no `send` is on its way to the server while a `recv` is,
and at the mutex no `send` stands behind a `recv`. -/
structure Ordered (o : Cap) (s : Sys) : Prop where
  mutexes : Mutexes s
  apart : ∀ k k' x x', s.tasks k = some x → s.tasks k' = some x' → x.unanswered o →
    ¬ x'.unsent o
  lock : (s.lock o).Pairwise fun k k' => ∀ x x', s.tasks k = some x → s.tasks k' = some x' →
    x.call.recvsOn o → ¬ x'.call.sendsOn o

lemma ordered_init (o : Cap) (cfg : Config) : Ordered o (init cfg) :=
  ⟨mutexes_init cfg, by simp [init], List.Pairwise.nil⟩

/-- Where a task is from that is to issue a `send`. -/
lemma unsent_cases {s s' : Sys} {a : Action} (hstep : s.step a = some s') {o : Cap} {k : ℕ}
    {x : Task} (hk : s'.tasks k = some x) (hx : x.unsent o) :
    s.tasks k = some x ∨ ∃ c rest call, a = .dequeue ∧ s.queue = c :: rest ∧
      s.calls c = some call ∧ k = s.fresh ∧ x = ⟨call, .spawned⟩ := by
  cases taskStep_of_step hstep hk with
  | kept hold => exact .inl hold
  | spawned hq hcall => exact .inr ⟨_, _, _, rfl, hq, hcall, rfl, rfl⟩
  | issued hold | answered hold | listened hold => simp [Task.unsent] at hx

/-- Where a task is from whose `recv` is unanswered. -/
lemma unanswered_cases {s s' : Sys} {a : Action} (hstep : s.step a = some s') {o : Cap} {k : ℕ}
    {x : Task} (hk : s'.tasks k = some x) (hx : x.unanswered o) :
    (∃ y, s.tasks k = some y ∧ y.unanswered o) ∨ ∃ c rest call, a = .dequeue ∧ s.queue = c :: rest ∧
      s.calls c = some call ∧ k = s.fresh ∧ x = ⟨call, .spawned⟩ := by
  cases taskStep_of_step hstep hk with
  | kept hold => exact .inl ⟨x, hold, hx⟩
  | spawned hq hcall => exact .inr ⟨_, _, _, rfl, hq, hcall, rfl, rfl⟩
  | issued hold =>
    refine .inl ⟨_, hold, ?_⟩
    simpa [Task.unanswered] using hx
  | answered hold => simp [Task.unanswered] at hx
  | listened hold => simp [Task.unanswered, Call.recvsOn] at hx

lemma ordered_apart {s s' : Sys} {a : Action} {o : Cap} (h : Ordered o s) (halt : Alternates o s a)
    (hstep : s.step a = some s') {k k' : ℕ} {x x' : Task} (hk : s'.tasks k = some x)
    (hk' : s'.tasks k' = some x') (hx : x.unanswered o) (hx' : x'.unsent o) : False := by
  rcases unanswered_cases hstep hk hx with ⟨y, hy, hyo⟩ | ⟨c, rest, call, rfl, hq, hcall, rfl, rfl⟩
  · rcases unsent_cases hstep hk' hx' with hold | ⟨c, rest, call, rfl, hq, hcall, rfl, rfl⟩
    · exact h.apart k k' y x' hy hold hyo hx'
    · refine (halt c (by simp [hq]) call hcall k (h.mutexes.lt k y hy) y hy).1 ⟨?_, hyo⟩
      simpa [Task.unsent] using hx'
  · rcases unsent_cases hstep hk' hx' with hold | ⟨c', rest', call', -, -, -, rfl, rfl⟩
    · refine (halt c (by simp [hq]) call hcall k' (h.mutexes.lt k' x' hold) x' hold).2 ⟨?_, hx'⟩
      simpa [Task.unanswered] using hx
    · obtain rfl : call = call' := by simpa [hk] using hk'
      simp only [Task.unanswered, Task.unsent] at hx hx'
      cases call <;> simp [Call.recvsOn, Call.sendsOn] at hx hx'

/-- A call at the mutex is the call that the task had before. -/
lemma call_of_mem {s s' : Sys} {a : Action} (h : Mutexes s) (hstep : s.step a = some s') {c : Cap}
    {k : ℕ} (hmem : k ∈ s.lock c) {x : Task} (hk : s'.tasks k = some x) :
    ∃ y, s.tasks k = some y ∧ y.call = x.call := by
  obtain ⟨call, hcall, -⟩ := h.lock c k hmem
  cases taskStep_of_step hstep hk with
  | kept hold | issued hold | answered hold => exact ⟨_, hold, rfl⟩
  | spawned hq hnew => simp [h.tasks_fresh] at hcall
  | listened hold => simp [hcall] at hold

/-- A `send` that joins the calls at the mutex finds no `recv` there. -/
lemma ordered_lock {s s' : Sys} {a : Action} {o : Cap} (h : Ordered o s)
    (hstep : s.step a = some s') :
    (s'.lock o).Pairwise fun k k' => ∀ x x', s'.tasks k = some x → s'.tasks k' = some x' →
      x.call.recvsOn o → ¬ x'.call.sendsOn o := by
  have hold : (s.lock o).Pairwise fun k k' => ∀ x x', s'.tasks k = some x → s'.tasks k' = some x' →
      x.call.recvsOn o → ¬ x'.call.sendsOn o := by
    refine h.lock.imp_of_mem fun hmem hmem' hR x x' hx hx' => ?_
    obtain ⟨y, hy, hcall⟩ := call_of_mem h.mutexes hstep hmem hx
    obtain ⟨y', hy', hcall'⟩ := call_of_mem h.mutexes hstep hmem' hx'
    exact hcall ▸ hcall' ▸ hR y y' hy hy'
  cases step_lock hstep o with
  | kept hlock => exact hlock ▸ hold
  | @issued k call hk hk' hmutex hlock =>
    rw [hlock]
    refine List.pairwise_append.mpr ⟨hold, by simp, fun j hj j' hj' x x' hx hx' hrecv hsend => ?_⟩
    obtain rfl := List.mem_singleton.mp hj'
    obtain rfl : (⟨call, .issued⟩ : Task) = x' := Option.some.inj (hk'.symm.trans hx')
    obtain ⟨y, hy, hcall⟩ := call_of_mem h.mutexes hstep hj hx
    obtain ⟨call', hissued, -⟩ := h.mutexes.lock o j hj
    obtain rfl : ⟨call', .issued⟩ = y := Option.some.inj (hissued.symm.trans hy)
    rw [← hcall] at hrecv
    refine h.apart j j' _ _ hissued hk ?_ ?_
    · simpa [Task.unanswered] using hrecv
    · simpa [Task.unsent] using hsend
  | answered hlock => exact hlock ▸ hold.sublist List.erase_sublist

lemma step_ordered {s s' : Sys} {a : Action} {o : Cap} (h : Ordered o s) (halt : Alternates o s a)
    (hstep : s.step a = some s') : Ordered o s' :=
  ⟨step_mutexes h.mutexes hstep,
    fun _ _ _ _ hk hk' hx hx' => ordered_apart h halt hstep hk hk' hx hx', ordered_lock h hstep⟩

lemma Ordered.not_blocked {s : Sys} {o : Cap} (h : Ordered o s) : ¬ s.SendBlocked o := by
  rintro ⟨k, rest, hlock, ⟨i, hrecv⟩, -, k', hmem, msg, t, hsend⟩
  have hfirst := (List.pairwise_cons.mp (hlock ▸ h.lock)).1 k' hmem
  exact hfirst _ _ hrecv hsend (by simp [Call.recvsOn]) (by simp [Call.sendsOn])

/-- **No `send` is blocked behind a parked `recv`** of its channel in a run in which the actor
starts neither of the two while the other is on its way to the server. -/
theorem send_not_blocked {cfg : Config} {as : List Action} {s : Sys} {o : Cap}
    (hrun : run step (Sys.init cfg) as = some s)
    (halt : EachStep step (Alternates o) (Sys.init cfg) as) : ¬ s.SendBlocked o := by
  have hordered : Ordered o s := run_induction (P := Alternates o) (I := Ordered o)
    (fun u a u' hu hP hstep => step_ordered hu hP hstep) (ordered_init o cfg) halt hrun
  exact hordered.not_blocked

/-- A `recv` is dropped while its capnp call waits; the next `send` comes when the peer has spoken. -/
theorem send_not_blocked_after_message :
    ∃ s, run step (Sys.init channelConfig) [.recv 0, .enqueue 2, .dequeue, .poll 3, .dropFut 2,
        .arriveMsg 0 [7], .answer 3 .ok, .send 0 [1], .enqueue 4, .dequeue, .poll 5] = some s ∧
      ¬ s.SendBlocked 0 := by
  refine ⟨_, Option.eq_some_of_isSome (by decide), ?_⟩
  exact send_not_blocked (Option.eq_some_of_isSome (by decide)) (by decide)

/-- A `recv` is dropped while its capnp call waits for a silent peer, and the next `send` waits
behind it. -/
theorem send_behind_recv :
    ¬ ∀ (cfg : Config) (as : List Action) (s : Sys) (o : Cap),
      run step (Sys.init cfg) as = some s → ¬ s.SendBlocked o := by
  intro hall
  have hrun : (run step (Sys.init channelConfig) [.recv 0, .enqueue 2, .dequeue, .poll 3,
      .dropFut 2, .send 0 [1], .enqueue 4, .dequeue, .poll 5]).any (fun s => decide
        (s.lock 0 = [3, 5] ∧ s.tasks 3 = some ⟨.recv 0 (some 0), .issued⟩ ∧ s.inbox 0 = [] ∧
          s.tasks 5 = some ⟨.send (some 0) [1] 4, .issued⟩)) := by decide
  obtain ⟨s, hs, hdec⟩ := (Option.any_eq_true _ _).mp hrun
  obtain ⟨hlock, hrecv, hinbox, hsend⟩ := of_decide_eq_true hdec
  exact hall channelConfig _ s 0 hs
    ⟨3, [5], hlock, ⟨0, hrecv⟩, hinbox, 5, List.mem_singleton_self 5, [1], 4, hsend⟩

end Sys

end FungiTransport
