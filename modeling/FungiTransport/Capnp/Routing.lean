import FungiTransport.Capnp.Ledger

/-!
# Every handle reaches its own capability

On a connection that does not exhaust its ids, a call names the id that its handle carries, the
command in the queue and the task behind it are those of the call, and the task has captured the
capability that was created under that id (`Sys.own_capability`).  The id that a call gets is that
of the object which its own call of the backend has made, and releasing one handle touches no other.
-/

namespace FungiTransport

open Lib

namespace Sys

/-! ## The id that a call names -/

/-- A call names the id that its handle carries, whether the handle is still there or was dropped. -/
def Issued (s : Sys) : Prop :=
  ∀ t op h k i, s.Calls t op → op.carried = some (h, k, i) →
    ∃ live, s.handles h = some ⟨k, some i, live⟩

/-- Another handle is put behind its name, or the same one with the same id. -/
lemma handle_setHandle {s : Sys} {j h i : ℕ} {k : Kind} {live : Bool} {x : Handle}
    (hh : s.handles h = some ⟨k, some i, live⟩)
    (hx : h = j → ∃ live', x = ⟨k, some i, live'⟩) :
    ∃ live', (s.setHandle j x).handles h = some ⟨k, some i, live'⟩ := by
  by_cases hhj : h = j
  · obtain ⟨live', rfl⟩ := hx hhj
    exact ⟨live', by simp [setHandle, hhj]⟩
  · exact ⟨live, by simp [setHandle, Function.update_of_ne hhj, hh]⟩

lemma handle_resolve {s s' : Sys} (hc : Callers s) {t : ℕ} (hstep : s.resolve t = some s') {h i : ℕ}
    {k : Kind} {live : Bool} (hh : s.handles h = some ⟨k, some i, live⟩) :
    ∃ live', s'.handles h = some ⟨k, some i, live'⟩ := by
  cases resolving_of_resolve hstep with
  | named hf hid hk =>
    refine handle_setHandle hh fun hht => ?_
    rw [hht, (hc.futs t _ hf).unnamed rfl] at hh
    cases hh
  | @filled j id addr x hf hx =>
    refine handle_setHandle hh fun hhj => ?_
    -- the cell of the connector was empty
    obtain ⟨cell, hj, hcell⟩ := (hc.futs t _ hf).ensure rfl j addr rfl
    rw [← hhj, hh, hcell (by simp)] at hj
    cases hj
  | unparsed hf hparses => exact ⟨live, hh⟩
  | returned hf hid => exact ⟨live, hh⟩
  | disconnected hf => exact ⟨live, hh⟩

/-- A handle keeps its kind and its id. -/
lemma handle_of_step {s s' : Sys} {a : Action} (hc : Callers s) (hstep : s.step a = some s')
    {h i : ℕ} {k : Kind} {live : Bool} (hh : s.handles h = some ⟨k, some i, live⟩) :
    ∃ live', s'.handles h = some ⟨k, some i, live'⟩ := by
  cases a with
  | newConnector =>
    obtain ⟨y, -, rfl⟩ := Option.map_eq_some_iff.mp hstep
    refine handle_setHandle hh fun hfresh => absurd (hc.handles h _ hh).lt ?_
    rw [hfresh]
    exact lt_irrefl _
  | dropHandle j d =>
    obtain ⟨k', id, hj, -, -, hs'⟩ := dropHandle_cases hstep
    have hdrop : ∃ live', (s.setHandle j ⟨k', id, false⟩).handles h = some ⟨k, some i, live'⟩ := by
      refine handle_setHandle hh fun hhj => ?_
      rw [hhj, hj] at hh
      cases hh
      exact ⟨false, rfl⟩
    rcases hs' with ⟨-, rfl⟩ | ⟨n, -, rfl⟩ <;> exact hdrop
  | resolve t => exact handle_resolve hc hstep hh
  | listen p | configure nf =>
    obtain ⟨y, -, rfl⟩ := Option.map_eq_some_iff.mp hstep
    exact ⟨live, hh⟩
  | connect j addr =>
    obtain ⟨y, -, rfl⟩ := Option.map_eq_some_iff.mp hstep
    split <;> exact ⟨live, hh⟩
  | accept j =>
    obtain ⟨id, -, -, rfl⟩ := startAccept_cases hstep
    exact ⟨live, hh⟩
  | recv j =>
    obtain ⟨id, -, -, rfl⟩ := startRecv_cases hstep
    exact ⟨live, hh⟩
  | send j m =>
    obtain ⟨id, -, -, ⟨-, rfl⟩ | ⟨-, rfl⟩⟩ := startSend_cases hstep <;> exact ⟨live, hh⟩
  | wake t =>
    obtain ⟨j, addr, -, ⟨id, -, rfl⟩ | ⟨-, -, rfl⟩⟩ := wake_cases hstep <;> exact ⟨live, hh⟩
  | enqueue t =>
    obtain ⟨op, -, rfl⟩ := enqueue_cases hstep
    exact ⟨live, hh⟩
  | dropFut t =>
    obtain ⟨op, st, -, -, rfl⟩ := dropFut_cases hstep
    exact ⟨live, hh⟩
  | dequeue => exact ⟨live, by rw [dequeue_rest hstep, hh]⟩
  | poll n => exact ⟨live, by rw [poll_rest hstep, hh]⟩
  | answer n o =>
    obtain ⟨call, r, u, -, -, -, rfl⟩ := answer_cases hstep
    exact ⟨live, hh⟩
  | resume n => exact ⟨live, by rw [resume_rest hstep, hh]⟩
  | arriveMsg c m | arriveConn c n =>
    obtain rfl := Option.some.inj hstep
    exact ⟨live, hh⟩

/-- Where a call is from that is there after a step: it was there, has its handle now, or was
rejected at once on a handle that was live. -/
lemma called_of_step {s s' : Sys} {a : Action} (hc : Callers s) (hstep : s.step a = some s') {t : ℕ}
    {op : Op} {st : Status} (hf : s'.futs t = some ⟨op, st⟩) : s.Calls t op ∨ st.live ∨
      ∃ h i m, op = .send h i m ∧ (s.liveHandle h .channel).bind (·.id) = some i := by
  have hsame : ∀ {u : ℕ} {op' : Op} {st₁ st₂ : Status}, s.futs u = some ⟨op', st₁⟩ →
      s'.futs = Function.update s.futs u (some ⟨op', st₂⟩) → s.Calls t op := by
    intro u op' st₁ st₂ hold hfuts
    rcases update_eq_some (hfuts ▸ hf) with ⟨rfl, heq⟩ | ⟨-, hkept⟩
    · obtain ⟨rfl, -⟩ := Fut.mk.inj (Option.some.inj heq)
      exact ⟨st₁, hold⟩
    · exact ⟨st, hkept⟩
  cases ha : isRemote a with
  | false =>
    cases callStep_of_step (hc.futs_fresh le_rfl) ha hstep with
    | kept hfuts hresolved => exact .inl ⟨st, hfuts ▸ hf⟩
    | moved hold hnew hlive hfuts hresolved =>
      rcases update_eq_some (hfuts ▸ hf) with ⟨-, heq⟩ | ⟨-, hkept⟩
      · obtain rfl := Option.some.inj heq
        exact .inr (.inl hlive)
      · exact .inl ⟨st, hkept⟩
    | dropped hold hl hfuts hresolved => exact .inl (hsame hold hfuts)
    | resolved hold hl hr hfuts hresolved => exact .inl (hsame hold hfuts)
    | @rejected _ h i m e hid hfuts hresolved =>
      rcases update_eq_some (hfuts ▸ hf) with ⟨-, heq⟩ | ⟨-, hkept⟩
      · obtain ⟨rfl, -⟩ := Fut.mk.inj (Option.some.inj heq)
        exact .inr (.inr ⟨h, i, m, rfl, hid⟩)
      · exact .inl ⟨st, hkept⟩
  | true =>
    cases replyStep_of_step ha hstep with
    | kept hfuts => exact .inl ⟨st, hfuts ▸ hf⟩
    | closed hold hfuts => exact .inl (hsame hold hfuts)
    | replied hold hfuts hr => exact .inl (hsame hold hfuts)

lemma step_issued {s s' : Sys} {a : Action} (h : Issued s) (hc : Callers s) (hc' : Callers s')
    (hstep : s.step a = some s') : Issued s' := by
  intro t op j k i ⟨st, hf⟩ hcar
  rcases called_of_step hc hstep hf with hold | hlive | ⟨j', i', m, rfl, hid⟩
  · obtain ⟨live, hh⟩ := h t op j k i hold hcar
    exact handle_of_step hc hstep hh
  · exact ⟨true, (hc'.futs t _ hf).carried hlive j k i hcar⟩
  · obtain ⟨x, hx, hxid⟩ := Option.bind_eq_some_iff.mp hid
    obtain ⟨kind, id, live⟩ := x
    obtain ⟨hh, -, hkind⟩ := liveHandle_eq_some hx
    obtain rfl : kind = .channel := hkind
    cases hxid
    cases hcar
    exact handle_of_step hc hstep hh

/-! ## Every handle reaches its own capability -/

/-- The ids of a connection are in order: an id names at most one capability, the one that was
created with it, for as long as its `Release` has not been processed, and every command of a handle
acts on the capability of the id that the handle carries. -/
structure OwnCapability (s : Sys) : Prop where
  /-- The maps of the registry have disjoint keys below the next id. -/
  keys : ∀ k i c, s.reg.get k i = some c → i < s.reg.nextId ∧ ∀ k', k' ≠ k → s.reg.get k' i = none
  /-- The next id is the number of the capabilities created so far. -/
  nextId : s.reg.nextId = s.created.length
  /-- The id of a handle maps to the capability created with it, in the map of the handle's kind,
  until the actor has processed its `Release`, and a live handle's is not processed. -/
  handle : ∀ h x i, s.handles h = some x → x.id = some i → (x.live → i ∉ s.released) ∧
    (i ∉ s.released → ∃ c, s.created[i]? = some (x.kind, c) ∧ s.reg.get x.kind i = some c)
  /-- So does an id on its way to a caller. -/
  slot : ∀ t op r k i, s.futs t = some ⟨op, .replied r⟩ → r.id? = some (k, i) →
    ∃ c, s.created[i]? = some (k, c) ∧ s.reg.get k i = some c
  /-- The id that a call gets is that of the object which its own call of the backend has made. -/
  made : ∀ t op st r, s.futs t = some ⟨op, st⟩ → st.reply = some r → r.isMade →
    ∃ b ∈ s.backend, s.Asks op b ∧ s.Brings b r
  /-- No two live handles share a capability. -/
  distinct : ∀ h h' x x' i i' c, s.handles h = some x → s.handles h' = some x' → x.live → x'.live →
    x.id = some i → x'.id = some i' → s.reg.get x.kind i = some c → s.reg.get x'.kind i' = some c →
    h = h'
  /-- A `Release` changes nothing that is stored under another id. -/
  release : ∀ i rest s', s.queue = .release i :: rest → s.step .dequeue = some s' → ∀ j, j ≠ i →
    (∀ k, s'.reg.get k j = s.reg.get k j) ∧ s'.reg.recvStates j = s.reg.recvStates j
  /-- A call names the id that its handle carries. -/
  issued : ∀ t op h k i, s.Calls t op → op.carried = some (h, k, i) →
    ∃ live, s.handles h = some ⟨k, some i, live⟩
  /-- A command in the queue is that of its call. -/
  queue : ∀ c ∈ s.queue, ∀ t, c.ticket = some t → ∃ op, s.Calls t op ∧ c = op.command t
  /-- It finds the capability created with the id that it names. -/
  command : ∀ c ∈ s.queue, ∀ k i, c.target = some (k, i) →
    ∃ cap, s.created[i]? = some (k, cap) ∧ s.reg.get k i = some cap
  plugin : ∀ netFile t, .configurePrivateNet netFile t ∈ s.queue → s.plugin.isSome
  /-- A task makes the capnp call of its call, on the capability created with the id that the call
  names. -/
  task : ∀ k x t, s.tasks k = some x → x.call.ticket = some t →
    ∃ op, s.Calls t op ∧ s.Carries op x.call
  /-- A new listener is asked for its address by the task that has created it. -/
  onionAddr : ∀ k x c t, s.tasks k = some x → x.call = .onionAddr c t → c = k
  /-- A capnp `recv` for the receive state of a channel is made on the capability of that channel. -/
  recv : ∀ k x i o, s.tasks k = some x → x.call = .recv i o →
    ∃ c, o = some c ∧ s.created[i]? = some (.channel, c)
  /-- A receive state is waited at by a `recv` that names its channel. -/
  waiter : ∀ i st t, s.reg.recvStates i = some st → st.waiter = some t →
    ∃ h, s.Calls t (.recv h i)

lemma Sound.disjoint {s : Sys} (h : Sound s) {k : Kind} {i : ℕ} {c : Cap}
    (hc : s.reg.get k i = some c) : i < s.reg.nextId ∧ ∀ k', k' ≠ k → s.reg.get k' i = none := by
  have hcreated := ((h.base.reg.get k i c).mp hc).1
  refine ⟨?_, fun k' hk' => ?_⟩
  · rw [h.base.reg.nextId]
    exact (List.getElem?_eq_some_iff.mp hcreated).1
  · by_contra hne
    obtain ⟨c', hc'⟩ := Option.ne_none_iff_exists'.mp hne
    have hcreated' := ((h.base.reg.get k' i c').mp hc').1
    exact hk' (Prod.mk.inj (Option.some.inj (hcreated'.symm.trans hcreated))).1

/-- Two live handles with one capability have one id, and an id has one carrier. -/
lemma Sound.handle_unique {s : Sys} (h : Sound s) {j j' i i' : ℕ} {x x' : Handle} {c : Cap}
    (hj : s.handles j = some x) (hj' : s.handles j' = some x') (hl : x.live) (hl' : x'.live)
    (hi : x.id = some i) (hi' : x'.id = some i') (hc : s.reg.get x.kind i = some c)
    (hc' : s.reg.get x'.kind i' = some c) : j = j' := by
  have hcreated := ((h.base.reg.get _ _ _).mp hc).1
  have hcreated' := ((h.base.reg.get _ _ _).mp hc').1
  obtain rfl : i = i' := h.tasks.distinct i i' _ _ c hcreated hcreated'
  obtain ⟨k, id, live⟩ := x
  obtain ⟨k', id', live'⟩ := x'
  obtain rfl : id = some i := hi
  obtain rfl : id' = some i := hi'
  obtain rfl : live = true := hl
  obtain rfl : live' = true := hl'
  exact h.wf.unique j j' i (owner_of_handle hj) (owner_of_handle hj')

lemma release_frame {s s' : Sys} {i : ℕ} {rest : List Command} (hq : s.queue = .release i :: rest)
    (hstep : s.step .dequeue = some s') {j : ℕ} (hj : j ≠ i) :
    (∀ k, s'.reg.get k j = s.reg.get k j) ∧ s'.reg.recvStates j = s.reg.recvStates j := by
  obtain ⟨f, rfl⟩ := dequeue_release hq hstep
  exact ⟨fun k => by simp [hj], by simp [Registry.release, Function.update_of_ne hj]⟩

/-- The waiter of a receive state is a `recv` of its channel. -/
lemma Tickets.recv_waiter {s : Sys} (h : Tickets s) {i t : ℕ} {st : RecvState}
    (hst : s.reg.recvStates i = some st) (hw : st.waiter = some t) :
    ∃ j, s.Calls t (.recv j i) := by
  obtain ⟨⟨op, st'⟩, hf, -, htopic⟩ := h.sender (.waiter i) t (by simp [senderAt, hst, hw])
  have hop : op.topic = .recv i := htopic
  cases op with
  | recv j i' =>
    obtain rfl := Topic.recv.inj hop
    exact ⟨j, st', hf⟩
  | _ => cases hop

lemma Booked.brought {s : Sys} {us : List (ℕ × BackendCall)} (h : Booked s us) {t : ℕ} {op : Op}
    {st : Status} {r : Reply} (hf : s.futs t = some ⟨op, st⟩) (hr : st.reply = some r)
    (hmade : r.isMade) : ∃ b ∈ s.backend, s.Asks op b ∧ s.Brings b r := by
  obtain ⟨b, hb, hbrings⟩ := h.made t op st r hf hr hmade
  obtain ⟨op', hcalls, hasks⟩ := h.asks t b hb
  obtain rfl := Calls.op_eq ⟨st, hf⟩ hcalls
  have hmem : b ∈ us.map Prod.snd := List.mem_map_of_mem hb
  rw [h.backend] at hmem
  exact ⟨b, (List.mem_filter.mp hmem).1, hasks, hbrings⟩

lemma Regular.ownCapability {s : Sys} (hr : Regular s) (hissued : Issued s)
    {us : List (ℕ × BackendCall)} (h : Ledger s us) : OwnCapability s where
  keys := fun _ _ _ hc => hr.sound.disjoint hc
  nextId := hr.sound.base.reg.nextId
  handle := fun j x i hj hi => by
    obtain ⟨c, hc⟩ := (hr.sound.base.callers.handles j x hj).typed i hi
    refine ⟨fun hlive => ?_, fun hrel => ⟨c, hc, hr.sound.mapped hc hrel⟩⟩
    obtain ⟨k, id, live⟩ := x
    obtain rfl : id = some i := hi
    obtain rfl : live = true := hlive
    exact (hr.sound.wf.carried j i (owner_of_handle hj)).2.1
  slot := fun t op r k i ht hid => by
    have hcallers := hr.sound.base.callers
    obtain ⟨c, hc⟩ := (hcallers.futs t _ ht).slot r rfl k i hid
    exact ⟨c, hc, hr.sound.mapped hc (hr.sound.wf.carried t i (owner_of_slot hcallers ht hid)).2.1⟩
  made := fun _ _ _ _ hf hrep hmade => h.brought hf hrep hmade
  distinct := fun _ _ _ _ _ _ _ hj hj' hl hl' hi hi' hc hc' =>
    hr.sound.handle_unique hj hj' hl hl' hi hi' hc hc'
  release := fun _ _ _ hq hstep _ hj => release_frame hq hstep hj
  issued := hissued
  queue := h.queue
  command := fun _ hc _ _ ht => hr.sound.target hc ht
  plugin := fun nf t hc => (hr.sound.base.callers.queue _ hc).plugin nf t rfl
  task := h.carries
  onionAddr := fun k x c t hk hcall => (hr.sound.tasks.ok k x hk).onionAddr c t hcall
  recv := fun k x i o hk hcall => (hr.sound.tasks.ok k x hk).recv i o hcall
  waiter := fun _ _ _ hst hw => hr.tickets.recv_waiter hst hw

/-- **Every handle's commands reach its own capability**, and releasing one handle touches no
other, in every state of every run that does not exhaust the ids. -/
theorem own_capability {cfg : Config} {as : List Action} {s : Sys}
    (hrun : run step (Sys.init cfg) as = some s) (hfew : s.created.length < 2 ^ 64) :
    OwnCapability s := by
  obtain ⟨hr, ⟨us, hus⟩, hissued⟩ := regular_induction (P := fun _ _ => True)
    (I := fun s => (∃ us, Ledger s us) ∧ Issued s)
    ⟨⟨[], ledger_init cfg⟩, fun t op h k i ⟨st, hf⟩ => by simp [init] at hf⟩
    (fun s a s' hr hr' ⟨⟨us, hus⟩, hissued⟩ _ hstep =>
      have ⟨vs, hvs⟩ := step_ledger hus hr hstep
      ⟨⟨us ++ vs, hvs⟩, step_issued hissued hr.sound.base.callers hr'.sound.base.callers hstep⟩)
    (eachStep_true _ _) hrun hfew
  exact hr.ownCapability hissued hus

/-- A connector is created and a channel dialled through it; the connector is dropped while a
message is on its way. -/
theorem own_capability_dialled :
    ∃ s, run step (init pluginConfig) [.newConnector, .connect 2 "peer", .enqueue 3, .dequeue,
        .resolve 3, .enqueue 3, .dequeue, .poll 5, .answer 5 .ok, .resume 5, .resolve 3, .send 3 [7],
        .enqueue 6, .dropHandle 2 true, .dequeue] = some s ∧ OwnCapability s := by
  refine ⟨_, Option.eq_some_of_isSome (by decide), ?_⟩
  exact own_capability (Option.eq_some_of_isSome (by decide)) (by decide)

end Sys

end FungiTransport
