import FungiTransport.Capnp.Callers

/-!
# The registry and the callers over whole runs

The maps of the registry hold exactly the capabilities that were created and not released, each
under the number of its creation (`Sys.RegOk`).  Together with the callers' side this is kept by
every step that does not wrap the id counter around (`Sys.Base`, `Sys.step_base`).
-/

namespace FungiTransport

open Lib

namespace Sys

/-- The registry holds the created capabilities that were not released, under the numbers of
their creation. -/
structure RegOk (s : Sys) : Prop where
  nextId : s.reg.nextId = s.created.length
  get : ∀ k i c, s.reg.get k i = some c ↔ s.created[i]? = some (k, c) ∧ i ∉ s.released
  released : ∀ i ∈ s.released, i < s.created.length

lemma RegOk.congr {s s' : Sys} (h : RegOk s) (hnext : s'.reg.nextId = s.reg.nextId)
    (hget : s'.reg.get = s.reg.get) (hcreated : s'.created = s.created)
    (hreleased : s'.released = s.released) : RegOk s' where
  nextId := by rw [hnext, hcreated, h.nextId]
  get := by rw [hget, hcreated, hreleased]; exact h.get
  released := by rw [hreleased, hcreated]; exact h.released

lemma RegOk.install {s : Sys} (h : RegOk s) (k : Kind) (c : Cap)
    (hfew : s.created.length + 1 < 2 ^ 64) : RegOk (s.install k c) where
  nextId := by
    simp only [Sys.install, Registry.nextId_insert, Registry.allocId, h.nextId,
      List.length_append, List.length_singleton, Nat.mod_eq_of_lt hfew]
  get := by
    intro k' i c'
    simp only [Sys.install, Registry.get_insert, Registry.allocId_fst, Registry.get_allocId, h.nextId,
      getElem?_concat_eq_some]
    by_cases hi : i = s.created.length
    · have hnew : i ∉ s.released := fun hr => hi.not_lt (h.released i hr)
      have hold : s.reg.get k' i = none := by
        by_contra hne
        obtain ⟨d, hd⟩ := Option.ne_none_iff_exists'.mp hne
        exact hi.not_lt (List.getElem?_eq_some_iff.mp ((h.get k' i d).mp hd).1).1
      have hnone : s.created[i]? = none := List.getElem?_eq_none hi.ge
      by_cases hk : k' = k
      · simp [hi ▸ hnew, hi, hk]
      · have hk' : ¬ k = k' := fun h => hk h.symm
        simp [hold, hnone, hk, hk']
    · simp only [hi, and_false, if_false, false_and, or_false]
      exact h.get k' i c'
  released := fun i hi => (h.released i hi).trans (by simp [Sys.install])

lemma RegOk.release {s : Sys} (h : RegOk s) {i : ℕ} (hi : i < s.created.length) :
    RegOk { s with reg := s.reg.release i, released := i :: s.released } where
  nextId := h.nextId
  get := by
    intro k j c
    simp only [Registry.get_release, List.mem_cons, not_or]
    by_cases hji : j = i
    · simp [hji]
    · simp [hji, h.get k j c]
  released := fun j hj => by
    rcases List.mem_cons.mp hj with rfl | hj
    · exact hi
    · exact h.released j hj

lemma RegOk.init (cfg : Config) : RegOk (Sys.init cfg) where
  nextId := by simp [Sys.init, Registry.new, bootstrapId]
  get := by
    intro k i c
    have hnew : ∀ k i, Registry.new.get k i = none := fun k i => by cases k <;> rfl
    simp only [Sys.init, Registry.get_insert, hnew, bootstrapId]
    cases i with
    | zero => by_cases hk : k = cfg.boot.kind <;> simp [hk, Ne.symm, eq_comm]
    | succ i => simp
  released := by simp [Sys.init]

/-! ## What the actor and its tasks do to the callers -/

/-- The registry and the callers' side of a connection are in order. -/
structure Base (s : Sys) : Prop where
  callers : Callers s
  reg : RegOk s

lemma Base.init (cfg : Config) : Base (Sys.init cfg) := ⟨Callers.init cfg, RegOk.init cfg⟩

/-- A state that differs only in what neither the registry's maps nor the callers see. -/
lemma Base.congr {s s' : Sys} (h : Base s) (hfresh : s.fresh ≤ s'.fresh) (hfuts : s'.futs = s.futs)
    (hhandles : s'.handles = s.handles) (hqueue : s'.queue ⊆ s.queue) (hplugin : s'.plugin = s.plugin)
    (hnext : s'.reg.nextId = s.reg.nextId) (hget : s'.reg.get = s.reg.get)
    (hcreated : s'.created = s.created) (hreleased : s'.released = s.released) : Base s' :=
  ⟨h.callers.mono ⟨hfresh, fun _ _ hx => hhandles ▸ hx, hplugin, hcreated ▸ List.prefix_rfl⟩ hfuts
    hhandles hqueue, h.reg.congr hnext hget hcreated hreleased⟩

lemma Base.reply {s : Sys} (h : Base s) (t : ℕ) {r : Reply}
    (hr : ∀ k i, r.id? = some (k, i) → ∃ c, s.created[i]? = some (k, c)) : Base (s.reply t r) := by
  obtain ⟨hreg, hcreated, hreleased⟩ := reply_rest s t r
  exact ⟨h.callers.reply t hr, h.reg.congr (by rw [hreg]) (by rw [hreg]) hcreated hreleased⟩

lemma Base.closeReply {s : Sys} (h : Base s) (t : ℕ) : Base (s.closeReply t) := by
  obtain ⟨hreg, hcreated, hreleased⟩ := closeReply_rest s t
  exact ⟨h.callers.closeReply t, h.reg.congr (by rw [hreg]) (by rw [hreg]) hcreated hreleased⟩

lemma Base.closeWaiter {s : Sys} (h : Base s) (o : Option ℕ) : Base (s.closeWaiter o) := by
  cases o with
  | none => exact h
  | some w => exact h.closeReply w

lemma Base.spawn {s : Sys} (h : Base s) (call : Call) : Base (s.spawn call) :=
  h.congr (Nat.le_succ _) rfl rfl (List.Subset.refl _) rfl rfl rfl rfl rfl

lemma Base.setTask {s : Sys} (h : Base s) (k : ℕ) (x : Option Task) : Base (s.setTask k x) :=
  h.congr le_rfl rfl rfl (List.Subset.refl _) rfl rfl rfl rfl rfl

lemma Base.setRecvState {s : Sys} (h : Base s) (i : ℕ) (st : RecvState) :
    Base { s with reg := s.reg.setRecvState i st } :=
  h.congr le_rfl rfl rfl (List.Subset.refl _) rfl rfl
    (by funext k; exact Registry.get_setRecvState _ _ _ _) rfl rfl

lemma Base.install {s : Sys} (h : Base s) (k : Kind) (c : Cap)
    (hfew : s.created.length + 1 < 2 ^ 64) : Base (s.install k c) :=
  ⟨h.callers.mono ⟨le_rfl, fun _ _ hx => hx, rfl, List.prefix_append _ _⟩ rfl rfl
    (List.Subset.refl _), h.reg.install k c hfew⟩

/-- The id that is allocated for a capability and handed to a caller is its own. -/
lemma Base.installReply {s : Sys} (h : Base s) {k : Kind} {c : Cap} {t : ℕ} {r : Reply}
    (hfew : s.created.length + 1 < 2 ^ 64) (hr : r.id? = some (k, s.reg.allocId.1)) :
    Base ((s.install k c).reply t r) := by
  refine (h.install k c hfew).reply t fun k' i hi => ⟨c, ?_⟩
  obtain ⟨rfl, rfl⟩ : k = k' ∧ s.reg.allocId.1 = i := by simpa [hr] using hi
  exact getElem?_concat_eq_some.mpr (.inr ⟨h.reg.nextId, rfl⟩)

/-- What `Command::Recv` does to the callers and the registry: it replies from the buffer, or
drops the old waiter; beside that it touches only the receive states and the tasks. -/
lemma Base.onRecv {s : Sys} (h : Base s) (i t : ℕ) : Base (s.onRecv i t) := by
  have hset : ∀ st, Base { s with reg := s.reg.setRecvState i st } := h.setRecvState i
  generalize hs' : s.onRecv i t = s'
  cases received_of_onRecv hs' with
  | replied hbuf hacc => exact (hset _).reply t (by simp [Reply.id?])
  | kept hbuf hacc => exact hset _
  | joined hbuf hin => exact (hset _).closeWaiter _
  | spawned hbuf hin => exact ((hset _).closeWaiter _).spawn _

lemma Base.onRelease {s : Sys} (h : Base s) {i : ℕ} (hi : i < s.created.length) :
    Base (s.onRelease i) := by
  unfold Sys.onRelease
  generalize (s.reg.recvStates i).bind (·.waiter) = w
  have hw := h.closeWaiter w
  obtain ⟨hreg, hcreated, hreleased⟩ := closeWaiter_rest s w
  rw [← hreg, ← hreleased]
  exact ⟨hw.callers.mono ⟨le_rfl, fun _ _ hx => hx, rfl, List.prefix_rfl⟩ rfl rfl
    (List.Subset.refl _), hw.reg.release (by rw [hcreated]; exact hi)⟩

lemma Base.dequeue {s s' : Sys} (h : Base s) (hstep : s.dequeue = some s')
    (hfew : s'.created.length < 2 ^ 64) : Base s' := by
  obtain ⟨c, rest, hq, hdeq⟩ := dequeued_of_dequeue hstep
  have hpop : Base { s with queue := rest } :=
    h.congr le_rfl rfl rfl (hq ▸ List.subset_cons_self _ _) rfl rfl rfl rfl rfl
  have hc := h.callers.queue c (hq ▸ List.mem_cons_self)
  cases hdeq with
  | created ho =>
    have hnext : Base { s with queue := rest, fresh := s.fresh + 1 } :=
      hpop.congr (Nat.le_succ _) rfl rfl (List.Subset.refl _) rfl rfl rfl rfl rfl
    refine hnext.installReply ?_ rfl
    rw [created_reply] at hfew
    simpa [Sys.install] using hfew
  | closed => exact hpop.closeReply _
  | spawned hne hcall => exact hpop.spawn _
  | received => exact hpop.onRecv _ _
  | released => exact hpop.onRelease (hc.release _ rfl)
  | refused => exact hpop.reply _ (by simp [Reply.id?])

lemma Base.completeRecv {s : Sys} (h : Base s) (i : ℕ) (result : Except RecvError Bytes) :
    Base (s.completeRecv i result) := by
  have hset : ∀ st, Base { s with reg := s.reg.setRecvState i st } := h.setRecvState i
  generalize hs' : s.completeRecv i result = s'
  cases completed_of_completeRecv hs' with
  | gone hst => exact h
  | kept hst => exact hset _
  | replied hst hw hacc => exact (hset _).reply _ (by simp [Reply.id?])

lemma Base.poll {s s' : Sys} (h : Base s) {k : ℕ} (hstep : s.poll k = some s') : Base s' := by
  have hissue : ∀ call, Base (s.issue k call) := by
    intro call
    rw [issue_eq]
    exact h.congr le_rfl rfl rfl (List.Subset.refl _) rfl rfl rfl rfl rfl
  cases polled_of_poll hstep with
  | issued hk => exact hissue _
  | replied hk ht hid hr => exact (h.setTask k none).reply _ (by simp [hid])
  | received hk => exact (h.setTask k none).completeRecv _ _

lemma Base.answer {s s' : Sys} (h : Base s) {k : ℕ} {o : Outcome}
    (hstep : s.answer k o = some s') : Base s' := by
  obtain ⟨call, r, u, -, -, -, rfl⟩ := answer_cases hstep
  exact h.congr le_rfl rfl rfl (List.Subset.refl _) rfl rfl rfl rfl rfl

lemma Base.resume {s s' : Sys} (h : Base s) {k : ℕ} (hstep : s.resume k = some s')
    (hfew : s'.created.length < 2 ^ 64) : Base s' := by
  have htask := h.setTask k
  cases resumed_of_resume hstep with
  | listened hk => exact htask _
  | created hk hnew =>
    refine (htask none).installReply ?_ hnew.id?
    simpa [Sys.install, Sys.setTask] using hfew
  | replied hk ht hid hr => exact (htask none).reply _ (by simp [hid])
  | received hk hx => exact (htask none).completeRecv _ _

/-! ## Steps of the callers -/

lemma Callers.startSend {s s' : Sys} (h : Callers s) {j : ℕ} {msg : Bytes}
    (hstep : s.startSend j msg = some s') : Callers s' := by
  obtain ⟨id, hb, hid, hs'⟩ := startSend_cases hstep
  have hstart : ∀ st, (∀ r, st ≠ .replied r) → Callers (s.start (.send j id msg) st) :=
    fun st hst => h.startExclusive hb hid rfl rfl rfl hst
  rcases hs' with ⟨-, rfl⟩ | ⟨-, rfl⟩
  · exact (hstart _ (by simp)).mono ⟨le_rfl, fun _ _ hx => hx, rfl, List.prefix_rfl⟩ rfl rfl
      (List.Subset.refl _)
  · exact hstart _ (by simp)

lemma Callers.startRecv {s s' : Sys} (h : Callers s) {j : ℕ} (hstep : s.startRecv j = some s') :
    Callers s' := by
  obtain ⟨id, hb, hid, rfl⟩ := startRecv_cases hstep
  exact h.startExclusive hb hid rfl rfl rfl (by simp)

lemma Callers.startAccept {s s' : Sys} (h : Callers s) {j : ℕ}
    (hstep : s.startAccept j = some s') : Callers s' := by
  obtain ⟨id, hb, hid, rfl⟩ := startAccept_cases hstep
  exact h.startExclusive hb hid rfl rfl rfl (by simp)

lemma Callers.newConnector {s s' : Sys} (h : Callers s) (hstep : s.newConnector = some s') :
    Callers s' := by
  obtain ⟨x, hx, rfl⟩ := Option.map_eq_some_iff.mp hstep
  obtain ⟨h0, -, hk⟩ := liveHandle_eq_some hx
  obtain ⟨-, -, rfl⟩ := (h.handles 0 x h0).transport hk
  have hfree : s.handles s.fresh = none := by
    by_contra hne
    obtain ⟨x, hx⟩ := Option.ne_none_iff_exists'.mp hne
    exact absurd (h.handles _ x hx).lt (lt_irrefl _)
  have hnofut : ∀ f, s.futs s.fresh = some f → f.status.live = false := fun f hf =>
    absurd (h.futs _ f hf).lt (lt_irrefl _)
  have hnext : Callers { s with fresh := s.fresh + 1 } :=
    h.mono ⟨Nat.le_succ _, fun _ _ hx => hx, rfl, List.prefix_rfl⟩ rfl rfl (List.Subset.refl _)
  exact hnext.setHandle hfree ⟨Nat.lt_succ_self _, by simp, by simp, fun _ => h0⟩ hnofut

lemma Callers.wake {s s' : Sys} (h : Callers s) {t : ℕ} (hstep : s.wake t = some s') :
    Callers s' := by
  obtain ⟨j, addr, hf, hcell⟩ := wake_cases hstep
  have hok := h.futs t _ hf
  obtain ⟨cell, hj, -⟩ := hok.ensure rfl j addr rfl
  rcases hcell with ⟨id, hid, rfl⟩ | ⟨hid, hinit, rfl⟩
  · obtain rfl : cell = some id := by simpa [hj] using hid
    exact h.putConnect hok.lt (hok.unnamed rfl) hj
  · obtain rfl : cell = none := by simpa [hj] using hid
    refine h.put ⟨hok.lt, fun _ => hok.unnamed rfl, fun _ => hok.carried rfl,
      fun _ i a hop => ?_, by simp, by simp⟩
      (fun _ u g _ hu hl hge => ⟨rfl, h.shared hj (.inr rfl) hu hl hge⟩)
      (fun _ _ i a hop u b su _ hu hsu => ?_)
    · obtain ⟨rfl, rfl⟩ := Op.ensure.inj hop
      exact ⟨none, hj, fun _ => rfl⟩
    · obtain ⟨rfl, rfl⟩ := Op.ensure.inj hop
      exact h.not_initialising hinit hu hsu

/-- The command of a live future is about a capability that was created. -/
lemma Callers.command {s : Sys} (h : Callers s) {t : ℕ} {op : Op} {st : Status}
    (hf : s.futs t = some ⟨op, st⟩) (hl : st.live) : CommandOk s (op.command t) := by
  have hok := h.futs t _ hf
  refine ⟨fun k i hi => ?_, fun i hi => ?_, fun nf u hc => ?_⟩
  · rw [Op.target_command] at hi
    obtain ⟨⟨j, k', i'⟩, hc, hki⟩ := Option.map_eq_some_iff.mp hi
    obtain ⟨rfl, rfl⟩ : k' = k ∧ i' = i := by simpa using hki
    exact (h.handles j _ (hok.carried hl j k' i' hc)).typed i' rfl
  · cases op <;> exact absurd hi (by simp [Op.command])
  · cases op <;> simp only [Op.command, reduceCtorEq] at hc
    exact hok.configure hl _ rfl

lemma Callers.enqueue {s s' : Sys} (h : Callers s) {t : ℕ} (hstep : s.enqueue t = some s') :
    Callers s' := by
  obtain ⟨op, hf, rfl⟩ := enqueue_cases hstep
  have hset : Callers (s.setFut t ⟨op, .waiting⟩) :=
    h.setFut hf (fun _ => rfl) (by simp) (by simp)
  have hc := h.command hf rfl
  exact hset.push ⟨hc.typed, hc.release, hc.plugin⟩

/-- The call that created a listener or a channel resolves to a handle of that name. -/
lemma Callers.resolveNew {s : Sys} (h : Callers s) {t i : ℕ} {op : Op} {r : Reply} {k : Kind}
    (hf : s.futs t = some ⟨op, .replied r⟩) (hr : r.id? = some (k, i))
    (hk : k = .listener ∨ k = .channel) (r' : Reply) :
    Callers ((s.setHandle t ⟨k, some i, true⟩).resolveTo t op r') := by
  have hok := h.futs t _ hf
  obtain ⟨c, hc⟩ := hok.slot r rfl k i hr
  have hres := h.resolveTo hf r'
  refine hres.setHandle (x := ⟨k, some i, true⟩) (hok.unnamed rfl) ⟨hok.lt, fun n hn => ?_, ?_, ?_⟩ ?_
  · obtain rfl := Option.some.inj hn
    exact ⟨c, hc⟩
  · rcases hk with rfl | rfl <;> simp
  · rcases hk with rfl | rfl <;> simp
  · intro f hf'
    obtain rfl : _ = f := by simpa [Sys.resolveTo, Sys.setFut] using hf'
    rfl

lemma Callers.resolve {s s' : Sys} (h : Callers s) {t : ℕ} (hstep : s.resolve t = some s') :
    Callers s' := by
  cases resolving_of_resolve hstep with
  | named hf hid hk => exact h.resolveNew hf hid hk _
  | unparsed hf hparses => exact h.resolveTo hf _
  | filled hf hx => exact h.fillCell hf hx
  | returned hf hid => exact h.resolveTo hf _
  | disconnected hf => exact h.resolveTo hf _

lemma Callers.dropFut {s s' : Sys} (h : Callers s) {t : ℕ} (hstep : s.dropFut t = some s') :
    Callers s' := by
  obtain ⟨op, st, hf, -, rfl⟩ := dropFut_cases hstep
  exact h.setFut hf (by simp [Status.live]) (by simp [Status.live]) (by simp)

lemma Callers.dropHandleStep {s s' : Sys} (h : Callers s) {j : ℕ} {d : Bool}
    (hstep : s.dropHandle j d = some s') : Callers s' := by
  obtain ⟨k, id, hj, hk, hb, hs'⟩ := dropHandle_cases hstep
  have hdrop := h.dropHandle hj hk hb
  rcases hs' with ⟨-, rfl⟩ | ⟨i, rfl, rfl⟩
  · exact hdrop
  · obtain ⟨c, hc⟩ := (h.handles j _ hj).typed i rfl
    refine hdrop.push ⟨by simp [Command.target], fun n hn => ?_, by simp⟩
    obtain rfl := Command.release.inj hn
    exact (List.getElem?_eq_some_iff.mp hc).1

lemma step_callers {s s' : Sys} {a : Action} (h : Callers s) (ha : isRemote a = false)
    (hstep : s.step a = some s') : Callers s' := by
  cases a with
  | dequeue | poll k | answer k o | resume k | arriveMsg c m | arriveConn c n =>
    exact absurd ha (by simp [isRemote])
  | newConnector => exact h.newConnector hstep
  | listen p => exact h.startTransport (.inl ⟨p, rfl⟩) hstep
  | configure nf => exact h.startTransport (.inr ⟨nf, rfl⟩) hstep
  | connect j addr => exact h.startConnect hstep
  | accept j => exact h.startAccept hstep
  | send j m => exact h.startSend hstep
  | recv j => exact h.startRecv hstep
  | wake t => exact h.wake hstep
  | enqueue t => exact h.enqueue hstep
  | resolve t => exact h.resolve hstep
  | dropFut t => exact h.dropFut hstep
  | dropHandle j d => exact h.dropHandleStep hstep

theorem step_base {s s' : Sys} {a : Action} (h : Base s) (hstep : s.step a = some s')
    (hfew : s'.created.length < 2 ^ 64) : Base s' := by
  cases ha : isRemote a with
  | false =>
    have hrest := (step_caller_rest ha hstep).1
    refine ⟨step_callers h.callers ha hstep, h.reg.congr ?_ ?_ ?_ ?_⟩ <;> rw [hrest]
  | true =>
    cases a with
    | dequeue => exact h.dequeue hstep hfew
    | poll k => exact h.poll hstep
    | answer k o => exact h.answer hstep
    | resume k => exact h.resume hstep hfew
    | arriveMsg c m | arriveConn c n =>
      obtain rfl := Option.some.inj hstep
      exact h.congr le_rfl rfl rfl (List.Subset.refl _) rfl rfl rfl rfl rfl
    | _ => exact absurd ha (by simp [isRemote])

end Sys

end FungiTransport
