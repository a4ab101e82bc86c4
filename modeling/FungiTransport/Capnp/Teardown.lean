import FungiTransport.Capnp.Handles
import FungiTransport.Capnp.Origin
import FungiTransport.Capnp.Recv

/-!
# What keeps a released channel alive

The object behind a channel is dropped when no client reference and no unfinished call on it is
left.  `Release` takes the references of the registry away; those of the tasks end with their
calls.  A channel that is released while none of its capnp `recv`s is outstanding is held by its
`send` tasks only (`Sys.torn_down`); an outstanding `recv` keeps the channel for as long as the
peer is silent (`Sys.parked_recv_holds`, `Sys.leaked_by_parked_recv`).
-/

namespace FungiTransport

open Lib

/-- The capabilities that a call holds. -/
def Call.caps : Call → List Cap
  | .listen c _ _ _ | .connect c _ _ | .accept c _ | .send c _ _ | .recv _ c => c.toList
  | .onionAddr c _ | .configure c _ _ => [c]

/-- The capabilities that a task holds: those of its call, and the one it was answered with. -/
def Task.caps (x : Task) : List Cap :=
  match x.stage with
  | .answered (.ok (.cap c)) => c :: x.call.caps
  | _ => x.call.caps

/-- The call is a `send` on the object. -/
def Call.sendsOn (o : Cap) : Call → Bool
  | .send c _ _ => c == some o
  | .listen _ _ _ _ | .onionAddr _ _ | .connect _ _ _ | .accept _ _ | .recv _ _ | .configure _ _ _ =>
    false

namespace Sys

/-- Neither the actor nor the server has a reference to the object `o` of channel `i`. -/
structure Unreferenced (s : Sys) (i : ℕ) (o : Cap) : Prop where
  plugin : s.plugin ≠ some o
  registry : ∀ kind j, s.reg.get kind j ≠ some o
  recvState : s.reg.recvStates i = none
  tasks : ∀ k x, s.tasks k = some x → o ∉ x.caps
  /-- No unfinished call is at the object's mutex. -/
  calls : s.lock o = []

/-- Every `send` on the object has come to its end. -/
def SendsDone (s : Sys) (o : Cap) : Prop := ∀ k x, s.tasks k = some x → x.call.sendsOn o = false

/-- Only names that were given out can be those of `send` tasks. -/
lemma Sound.sendsDone {s : Sys} (h : Sound s) {o : Cap}
    (hall : ∀ k < s.fresh, (s.tasks k).all fun x => !x.call.sendsOn o) : s.SendsDone o := by
  intro k x hk
  simpa [hk] using hall k (h.tasks.ok k x hk).lt

/-- No capnp `recv` of channel `i` is outstanding when its `Release` is processed. -/
def RecvSettled (i : ℕ) (s : Sys) : Action → Prop
  | .dequeue =>
    s.queue.head? = some (.release i) → ((s.reg.recvStates i).getD .default).inFlight = false
  | _ => True

instance (i : ℕ) (s : Sys) : DecidablePred (RecvSettled i s)
  | .dequeue => inferInstanceAs (Decidable (s.queue.head? = some (.release i) →
      ((s.reg.recvStates i).getD .default).inFlight = false))
  | .newConnector | .listen _ | .configure _ | .connect _ _ | .accept _ | .send _ _ | .recv _
  | .wake _ | .enqueue _ | .resolve _ | .dropFut _ | .dropHandle _ _ | .poll _ | .answer _ _ | .resume _
  | .arriveMsg _ _ | .arriveConn _ _ => inferInstanceAs (Decidable True)

/-! ## The plugin -/

/-- The bootstrapped plugin is an object of its own, and only `configure` calls are made on it. -/
structure PluginApart (s : Sys) : Prop where
  task : ∀ p, s.plugin = some p → p < s.fresh ∧ s.tasks p = none
  created : ∀ p (j : ℕ) kind, s.plugin = some p → s.created[j]? ≠ some (kind, p)
  configure : ∀ k p netFile t st, s.tasks k = some ⟨.configure p netFile t, st⟩ → s.plugin = some p

lemma pluginApart_init (cfg : Config) : PluginApart (init cfg) where
  task := fun p hp => by
    have hp' : (if cfg.boot = .plugin then some 1 else none) = some p := hp
    split at hp'
    · obtain rfl := Option.some.inj hp'
      exact ⟨by simp [init], rfl⟩
    · exact absurd hp' (by simp)
  created := fun p j kind hp hj => by
    have hp' : (if cfg.boot = .plugin then some 1 else none) = some p := hp
    split at hp'
    · obtain rfl := Option.some.inj hp'
      cases j <;> simp [init] at hj
    · exact absurd hp' (by simp)
  configure := by simp [init]

lemma step_pluginApart {s s' : Sys} {a : Action} (hs : Tasks s) (h : PluginApart s)
    (hstep : s.step a = some s') : PluginApart s' where
  task := fun p hp => by
    obtain ⟨hlt, hnone⟩ := h.task p (step_plugin hstep ▸ hp)
    refine ⟨hlt.trans_le (step_fresh hstep), ?_⟩
    by_contra hne
    obtain ⟨x, hx⟩ := Option.ne_none_iff_exists'.mp hne
    cases taskStep_of_step hstep hx with
    | kept hold | issued hold | answered hold | listened hold => simp [hnone] at hold
    | spawned hq hcall => exact absurd hlt (lt_irrefl _)
  created := fun p j kind hp hj => by
    have hp' := step_plugin hstep ▸ hp
    obtain ⟨hlt, hnone⟩ := h.task p hp'
    rcases name_cases hs hstep hj with hold | rfl | ⟨x, hx⟩
    · exact h.created p j kind hp' hold
    · exact absurd hlt (lt_irrefl _)
    · simp [hnone] at hx
  configure := fun k p netFile t st hk => by
    rw [step_plugin hstep]
    cases taskStep_of_step hstep hk with
    | kept hold | issued hold | answered hold => exact h.configure k p netFile t _ hold
    | spawned hq hcall => exact calls_configure hcall

/-! ## The capnp `recv`s of a released channel -/

/-- A released channel has no capnp `recv` outstanding. -/
def Parted (i : ℕ) (s : Sys) : Prop := i ∈ s.released → ∀ k, ¬ s.RecvTask i k

/-- Only a `recv` at the head of the queue makes a new capnp `recv` of a channel. -/
lemma recvTask_cases {s s' : Sys} {a : Action} (hstep : s.step a = some s') {i k : ℕ}
    (hk : s'.RecvTask i k) :
    s.RecvTask i k ∨ a = .dequeue ∧ ∃ t rest, s.queue = .recv i t :: rest := by
  obtain ⟨o, st, hk⟩ := hk
  cases taskStep_of_step hstep hk with
  | kept hold | issued hold | answered hold => exact .inl ⟨o, _, hold⟩
  | @spawned c rest call hq hcall =>
    obtain ⟨⟨t, rfl⟩, -⟩ := calls_recv hcall
    exact .inr ⟨rfl, t, rest, hq⟩

lemma Sound.release_head {s : Sys} (h : Sound s) {i : ℕ} {rest : List Command}
    (hq : s.queue = .release i :: rest) : i ∉ s.released := by
  have hentry : Entry.release i ∈ s.book.queue :=
    List.mem_filterMap.mpr ⟨.release i, hq ▸ List.mem_cons_self, rfl⟩
  exact (h.wf.queued _ hentry).2

/-- A released channel gets no new capnp `recv`, and it had none when it was released. -/
lemma step_parted {s s' : Sys} {a : Action} {i : ℕ} (hs : Sound s) (hr : s.Receives)
    (hsettled : RecvSettled i s a) (hstep : s.step a = some s') (h : Parted i s) : Parted i s' := by
  intro hi k hk
  rcases recvTask_cases hstep hk with hold | ⟨rfl, t, rest, hq⟩
  · rcases released_cases hstep with hsame | ⟨j, rest, rfl, hq, hrel⟩
    · exact h (hsame ▸ hi) k hold
    · rw [hrel] at hi
      rcases List.mem_cons.mp hi with rfl | hi
      · have hin := ((hr i).inFlight (hs.release_head hq)).mpr ⟨k, hold⟩
        have hout := hsettled (by simp [hq])
        exact absurd (hout.symm.trans hin) (by simp)
      · exact h hi k hold
  · have hlive := (hs.recv_head hq).2
    rcases released_cases hstep with hsame | ⟨j, rest', -, hq', -⟩
    · exact hlive (hsame ▸ hi)
    · simp [hq] at hq'

/-! ## Who holds an object -/

/-- A task holds what its command was about, what its call has created, or the plugin. -/
lemma holder_cases {s : Sys} (hs : Tasks s) (hp : PluginApart s) {k : ℕ} {x : Task}
    (hk : s.tasks k = some x) {o : Cap} (ho : o ∈ x.caps) :
    (∃ kind, x.call.captured = some (kind, some o)) ∨ o = k ∨ s.plugin = some o := by
  have hok := hs.ok k x hk
  obtain ⟨call, st⟩ := x
  have hcall : o ∈ call.caps →
      (∃ kind, call.captured = some (kind, some o)) ∨ o = k ∨ s.plugin = some o := by
    intro ho
    cases call with
    | listen c v n t | connect c a t | accept c t | send c m t | recv i c =>
      exact .inl ⟨_, by rw [Call.captured, Option.mem_toList.mp ho]⟩
    | onionAddr c t =>
      obtain rfl := List.mem_singleton.mp ho
      exact .inr (.inl (hok.onionAddr o t rfl))
    | configure p nf t =>
      obtain rfl := List.mem_singleton.mp ho
      exact .inr (.inr (hp.configure k o nf t st hk))
  unfold Task.caps at ho
  dsimp only at ho
  split at ho
  · rename_i c
    rcases List.mem_cons.mp ho with rfl | ho
    · exact .inr (.inl (hok.answered o rfl))
    · exact hcall ho
  · exact hcall ho

/-- Only the `send`s and `recv`s of a channel hold its object. -/
lemma Sound.holder {s : Sys} (hs : Sound s) (hp : PluginApart s) {i : ℕ} {o : Cap}
    (hcreated : s.created[i]? = some (.channel, o)) {k : ℕ} {x : Task} (hk : s.tasks k = some x)
    (ho : o ∈ x.caps) : (∃ msg t, x.call = .send (some o) msg t) ∨ s.RecvTask i k := by
  have hnone := (hs.tasks.caps i .channel o hcreated).2
  rcases holder_cases hs.tasks hp hk ho with ⟨kind, hcap⟩ | rfl | hplugin
  · obtain ⟨c, j, hc, hj⟩ := (hs.tasks.ok k x hk).captured kind _ hcap
    obtain rfl := Option.some.inj hc
    obtain rfl := hs.tasks.distinct j i kind .channel o hj hcreated
    obtain rfl : kind = .channel := (Prod.mk.inj (Option.some.inj (hj.symm.trans hcreated))).1
    obtain ⟨call, st⟩ := x
    cases call with
    | send c msg t =>
      obtain ⟨-, rfl⟩ : Kind.channel = .channel ∧ c = some o := by simpa [Call.captured] using hcap
      exact .inl ⟨msg, t, rfl⟩
    | recv j' c =>
      obtain ⟨-, rfl⟩ : Kind.channel = .channel ∧ c = some o := by simpa [Call.captured] using hcap
      obtain ⟨d, hd, hj'⟩ := (hs.tasks.ok k _ hk).recv j' _ rfl
      obtain rfl := Option.some.inj hd
      obtain rfl := hs.tasks.distinct j' j .channel .channel o hj' hcreated
      exact .inr ⟨_, st, hk⟩
    | _ => simp [Call.captured] at hcap
  · simp [hnone] at hk
  · exact absurd hcreated (hp.created o i .channel hplugin)

/-- **A released channel is torn down**: when none of its capnp `recv`s was outstanding at its
`Release`, its object is let go of by the actor and the server once its `send`s are over. -/
theorem torn_down {cfg : Config} {as : List Action} {s : Sys}
    (hrun : run step (Sys.init cfg) as = some s) (hfew : s.created.length < 2 ^ 64) {i : ℕ} {o : Cap}
    (hsettled : EachStep step (RecvSettled i) (Sys.init cfg) as)
    (hcreated : s.created[i]? = some (.channel, o)) (hreleased : i ∈ s.released)
    (hsends : s.SendsDone o) : s.Unreferenced i o := by
  obtain ⟨hs, hr, hp, hparted⟩ := sound_induction
    (I := fun s => s.Receives ∧ PluginApart s ∧ Parted i s)
    ⟨receives_init cfg, pluginApart_init cfg, by simp [Parted, init]⟩
    (fun u a u' hu _ hI hP hstep => ⟨step_receives hu hI.1 hstep,
      step_pluginApart hu.tasks hI.2.1 hstep, step_parted hu hI.1 hP hstep hI.2.2⟩)
    hsettled hrun hfew
  have htasks : ∀ k x, s.tasks k = some x → o ∉ x.caps := by
    intro k x hk ho
    rcases hs.holder hp hcreated hk ho with ⟨msg, t, hsend⟩ | hrecv
    · simpa [hsend, Call.sendsOn] using hsends k x hk
    · exact hparted hreleased k hrecv
  refine ⟨fun hplugin => hp.created o i .channel hplugin hcreated, fun kind j hget => ?_,
    (hr i).released hreleased, htasks, List.eq_nil_iff_forall_not_mem.mpr fun k hk => ?_⟩
  · obtain ⟨hj, hlive⟩ := (hs.base.reg.get kind j o).mp hget
    obtain rfl := hs.tasks.distinct j i kind .channel o hj hcreated
    exact hlive hreleased
  · -- a call at the mutex belongs to a task, which holds the object
    obtain ⟨call, hk, hmutex⟩ := (hs.tasks.lock o k).mp hk
    refine htasks k _ hk ?_
    cases call with
    | accept c t | send c m t | recv j c =>
      obtain rfl : c = some o := hmutex
      simp [Task.caps, Call.caps]
    | _ => simp [Call.mutex] at hmutex

/-- A channel is dialled, used and dropped; its object goes with it. -/
theorem torn_down_dialled :
    ∃ s, run step (init pluginConfig) [.newConnector, .connect 2 "peer", .enqueue 3, .dequeue,
        .resolve 3, .enqueue 3, .dequeue, .poll 5, .answer 5 .ok, .resume 5, .resolve 3, .recv 3,
        .enqueue 6, .dequeue, .poll 7, .arriveMsg 5 [1], .answer 7 .ok, .resume 7, .resolve 6,
        .dropHandle 3 true, .dequeue] = some s ∧ s.Unreferenced 2 5 := by
  refine ⟨_, Option.eq_some_of_isSome (by decide), ?_⟩
  exact torn_down (Option.eq_some_of_isSome (by decide)) (by decide) (by decide) (by decide)
    (by decide) ((sound_of_run (Option.eq_some_of_isSome (by decide)) (by decide)).sendsDone
      (by decide))

/-- A capnp `recv` that is outstanding when its channel is released keeps hold of the object. -/
theorem parked_recv_holds {s s' : Sys} (hs : Sound s) (hr : s.Receives) {i : ℕ} {o : Cap}
    {rest : List Command} (hq : s.queue = .release i :: rest)
    (hcreated : s.created[i]? = some (.channel, o))
    (hin : ((s.reg.recvStates i).getD .default).inFlight = true)
    (hstep : s.step .dequeue = some s') : ¬ s'.Unreferenced i o := by
  intro hun
  obtain ⟨k, c, st, hk⟩ := ((hr i).inFlight (hs.release_head hq)).mp hin
  obtain ⟨d, rfl, hd⟩ := (hs.tasks.ok k _ hk).recv i c rfl
  obtain rfl : d = o := (Prod.mk.inj (Option.some.inj (hd.symm.trans hcreated))).2
  have hkept : s'.tasks k = some ⟨.recv i (some d), st⟩ := by
    obtain ⟨f, rfl⟩ := dequeue_release hq hstep
    exact hk
  refine hun.tasks k _ hkept ?_
  unfold Task.caps
  split <;> simp [Call.caps]

/-- A `recv` that is dropped while its capnp call is outstanding keeps the released channel. -/
theorem leaked_by_parked_recv :
    ¬ ∀ (cfg : Config) (as : List Action) (s : Sys) (i : ℕ) (o : Cap),
      run step (Sys.init cfg) as = some s → s.created.length < 2 ^ 64 →
      s.created[i]? = some (.channel, o) → i ∈ s.released → s.SendsDone o →
      s.Unreferenced i o := by
  intro hall
  have hrun : (run step (Sys.init pluginConfig) [.newConnector, .connect 2 "peer", .enqueue 3,
      .dequeue, .resolve 3, .enqueue 3, .dequeue, .poll 5, .answer 5 .ok, .resume 5, .resolve 3,
      .recv 3, .enqueue 6, .dequeue, .poll 7, .dropFut 6, .dropHandle 3 true, .dequeue]).any
        (fun s => decide (s.created.length < 2 ^ 64 ∧ s.created[2]? = some (.channel, 5) ∧
          2 ∈ s.released ∧ s.tasks 7 = some ⟨.recv 2 (some 5), .issued⟩ ∧
          ∀ k < s.fresh, (s.tasks k).all fun x => !x.call.sendsOn 5)) := by decide
  obtain ⟨s, hs, hdec⟩ := (Option.any_eq_true _ _).mp hrun
  obtain ⟨hfew, hcreated, hreleased, htask, hsends⟩ := of_decide_eq_true hdec
  have hun := hall pluginConfig _ s 2 5 hs hfew hcreated hreleased
    ((sound_of_run hs hfew).sendsDone hsends)
  exact hun.tasks 7 _ htask (by simp [Task.caps, Call.caps])

end Sys

end FungiTransport
