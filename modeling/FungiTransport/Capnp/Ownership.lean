import FungiTransport.Capnp.Base
import FungiTransport.Lib.Ownership

/-!
# Who carries an id

An id is carried by the handle or by the reply slot it sits in.  Seen this way the connection is
an instance of owned resources behind a first-in first-out queue: callers queue uses of the ids
that their handles carry, a dropped handle queues the release of its id, and the actor works the
queue off (`Sys.step_book`).  An id is orphaned only by a step that is not `Sys.HandedOver`, or by
a `Release` that is lost.
-/

namespace FungiTransport

open Lib

/-- The id in a reply slot. -/
def Status.slot : Status → Option ℕ
  | .replied r => r.id?.map (·.2)
  | .parked | .sending | .waiting | .closed | .done _ | .dropped => none

/-- What a queued command is about. -/
def Command.entry : Command → Option (Entry ℕ)
  | .release i => some (.release i)
  | c => c.target.map fun p => .use p.2

namespace Sys

def handleId (s : Sys) (x : ℕ) : Option ℕ :=
  (s.handles x).bind fun h => if h.live then h.id else none

def slotId (s : Sys) (t : ℕ) : Option ℕ := (s.futs t).bind fun f => f.status.slot

/-- The id that a handle or the reply slot of a future carries. -/
def owner (s : Sys) (x : ℕ) : Option ℕ := (s.handleId x).or (s.slotId x)

/-- The connection as a book of owned ids. -/
def book (s : Sys) : Book ℕ ℕ where
  owner := s.owner
  queue := s.queue.filterMap Command.entry
  minted := {i | i < s.created.length}
  dead := {i | i ∈ s.released}

/-- The ticket that the id allocated in a step is replied to. -/
def recipient (s : Sys) : Action → Option ℕ
  | .dequeue =>
    match s.queue with
    | .connector i t :: _ => (s.reg.transports i).map fun _ => t
    | _ => none
  | .resume k =>
    match s.tasks k with
    | some ⟨call, .answered r⟩ => call.recipient r
    | _ => none
  | _ => none

/-- The address text that a `listen` is about to resolve with. -/
def published (s : Sys) (t : ℕ) : Option String :=
  match s.futs t with
  | some ⟨.listen _, .replied (.listen (.ok (_, addr)))⟩ => some addr
  | _ => none

/-- An id that is allocated finds the receiver of its reply waiting, no future is dropped with an
id in its reply slot, and the address text that a listener comes with parses. -/
def HandedOver (s : Sys) : Action → Prop
  | .dropFut t => s.slotId t = none
  | .resolve t => ∀ addr ∈ s.published t, s.cfg.parses addr = true
  | a => ∀ t ∈ s.recipient a, s.accepts t = true

/-- No `Release` is lost to a full queue. -/
def ReleaseDelivered (s : Sys) : Action → Prop
  | .dropHandle h delivered => s.handleId h = none ∨ delivered = true
  | _ => True

instance (s : Sys) : DecidablePred (HandedOver s)
  | .dropFut t => inferInstanceAs (Decidable (s.slotId t = none))
  | .resolve t => inferInstanceAs (Decidable (∀ addr ∈ s.published t, s.cfg.parses addr = true))
  | .newConnector | .listen _ | .configure _ | .connect _ _ | .accept _ | .send _ _ | .recv _
  | .wake _ | .enqueue _ | .dropHandle _ _ | .dequeue | .poll _ | .answer _ _ | .resume _
  | .arriveMsg _ _ | .arriveConn _ _ =>
    inferInstanceAs (Decidable (∀ t ∈ s.recipient _, s.accepts t = true))

instance (s : Sys) : DecidablePred (ReleaseDelivered s)
  | .dropHandle h delivered => inferInstanceAs (Decidable (s.handleId h = none ∨ delivered = true))
  | .newConnector | .listen _ | .configure _ | .connect _ _ | .accept _ | .send _ _ | .recv _
  | .wake _ | .enqueue _ | .resolve _ | .dropFut _ | .dequeue | .poll _ | .answer _ _ | .resume _
  | .arriveMsg _ _ | .arriveConn _ _ => inferInstanceAs (Decidable True)

/-! ## The book under small changes -/

lemma book_ext {s s' : Sys} (howner : s'.owner = s.owner) (hqueue : s'.queue = s.queue)
    (hcreated : s'.created = s.created) (hreleased : s'.released = s.released) :
    s'.book = s.book := by
  simp only [book, howner, hqueue, hcreated, hreleased]

/-- A future that moves on changes at most what its reply slot carries. -/
lemma owner_setFut {s : Sys} {t : ℕ} (f : Fut) (ht : s.handleId t = none) :
    (s.setFut t f).owner = Function.update s.owner t f.status.slot := by
  funext x
  by_cases hx : x = t
  · subst hx
    have ht' : (s.setFut x f).handleId x = none := ht
    simp only [owner, ht', Function.update_self, Option.none_or]
    simp [slotId, setFut]
  · simp [owner, handleId, slotId, setFut, Function.update_of_ne hx]

lemma owner_of_handleId_none {s : Sys} {t : ℕ} (ht : s.handleId t = none) :
    s.owner t = s.slotId t := by
  simp [owner, ht]

/-- A future that moves on with the same id in its reply slot, or with none as before. -/
lemma book_setFut {s : Sys} {t : ℕ} {f : Fut} (ht : s.handleId t = none)
    (hslot : f.status.slot = s.slotId t) : (s.setFut t f).book = s.book := by
  refine book_ext ?_ rfl rfl rfl
  rw [owner_setFut f ht, hslot, ← owner_of_handleId_none ht, Function.update_eq_self]

lemma Callers.handleId_none {s : Sys} (h : Callers s) {t : ℕ} {f : Fut} (hf : s.futs t = some f)
    (hl : f.status.live) : s.handleId t = none := by
  simp [handleId, (h.futs t f hf).unnamed hl]

/-- The token of a handle carries nothing in a reply slot. -/
lemma Callers.slotId_none {s : Sys} (h : Callers s) {j : ℕ} {x : Handle}
    (hj : s.handles j = some x) : s.slotId j = none := by
  unfold slotId
  cases hf : s.futs j with
  | none => rfl
  | some f =>
    have hdead : ¬ f.status.live := fun hl => by simp [(h.futs j f hf).unnamed hl] at hj
    cases hst : f.status <;> simp_all [Status.live, Status.slot]

lemma book_reply {s : Sys} (h : Callers s) (t : ℕ) {r : Reply} (hr : r.id? = none) :
    (s.reply t r).book = s.book := by
  rcases reply_cases s t r with ⟨op, hf, heq⟩ | ⟨-, heq⟩
  · rw [heq]
    exact book_setFut (h.handleId_none hf rfl) (by simp [Status.slot, hr, slotId, hf])
  · rw [heq]

lemma book_closeReply {s : Sys} (h : Callers s) (t : ℕ) : (s.closeReply t).book = s.book := by
  rcases closeReply_cases s t with ⟨op, hf, heq⟩ | heq
  · rw [heq]
    exact book_setFut (h.handleId_none hf rfl) (by simp [Status.slot, slotId, hf])
  · rw [heq]

lemma book_closeWaiter {s : Sys} (h : Callers s) (o : Option ℕ) :
    (s.closeWaiter o).book = s.book := by
  cases o with
  | none => rfl
  | some w => exact book_closeReply h w

/-- A created capability is handed to the call that waits for it, or orphaned at birth. -/
lemma steps_installReply {s : Sys} {careful : Prop} (h : Base s) {k : Kind} {c : Cap} {t : ℕ}
    {r : Reply} (hr : r.id? = some (k, s.reg.allocId.1)) (hc : careful → s.accepts t = true) :
    Book.Steps careful s.book ((s.install k c).reply t r).book := by
  have hminted : {i | i < (s.install k c).created.length} =
      insert s.created.length {i | i < s.created.length} := by
    ext i
    simp only [Sys.install, List.length_append, List.length_singleton, Set.mem_ofPred_eq,
      Set.mem_insert_iff]
    omega
  have hnew : s.created.length ∉ s.book.minted := by simp [book]
  have hinst : (s.install k c).book =
      { s.book with minted := insert s.created.length s.book.minted } := by
    simp only [book, hminted]
    rfl
  -- the slot of the call owns the new id; without a waiting call nobody does
  rcases reply_cases (s.install k c) t r with ⟨op, hf, heq⟩ | ⟨ha, heq⟩
  · have hhid := h.callers.handleId_none (f := ⟨op, .waiting⟩) hf rfl
    have hown : s.owner t = none := by
      rw [owner_of_handleId_none hhid]
      have hf' : s.futs t = some ⟨op, .waiting⟩ := hf
      simp [slotId, hf', Status.slot]
    have hbook : ((s.install k c).setFut t ⟨op, .replied r⟩).book =
        { s.book with
          owner := Function.update s.book.owner t (some s.created.length)
          minted := insert s.created.length s.book.minted } := by
      have hslot : (Status.replied r).slot = some s.created.length := by
        simp [Status.slot, hr, h.reg.nextId]
      have howner := owner_setFut (s := s.install k c) (t := t) ⟨op, .replied r⟩ hhid
      simp only [hslot] at howner
      simp only [book, howner]
      rw [show ((s.install k c).setFut t ⟨op, .replied r⟩).created = (s.install k c).created from rfl,
        hminted]
      rfl
    rw [heq, hbook]
    exact .one (.mint hown hnew)
  · rw [heq, hinst]
    exact .one (.leak (fun hcar => by
      have hacc := hc hcar
      rw [show (s.install k c).accepts t = s.accepts t from rfl, hacc] at ha
      exact absurd ha (by simp)) hnew)

/-! ## The actor and its tasks -/

lemma Callers.setRecvState {s : Sys} (h : Callers s) (i : ℕ) (st : RecvState) :
    Callers { s with reg := s.reg.setRecvState i st } :=
  h.mono ⟨le_rfl, fun _ _ hx => hx, rfl, List.prefix_rfl⟩ rfl rfl (List.Subset.refl _)

lemma book_onRecv {s : Sys} (h : Callers s) (i t : ℕ) : (s.onRecv i t).book = s.book := by
  have hset : ∀ st, ({ s with reg := s.reg.setRecvState i st } : Sys).book = s.book := fun st =>
    book_ext rfl rfl rfl rfl
  generalize hs' : s.onRecv i t = s'
  cases received_of_onRecv hs' with
  | replied hbuf hacc => exact (book_reply (h.setRecvState i _) t rfl).trans (hset _)
  | kept hbuf hacc => exact hset _
  | joined hbuf hin => exact (book_closeWaiter (h.setRecvState i _) _).trans (hset _)
  | spawned hbuf hin => exact (book_closeWaiter (h.setRecvState i _) _).trans (hset _)

lemma book_onRelease {s : Sys} (h : Callers s) (i : ℕ) :
    (s.onRelease i).book = { s.book with dead := insert i s.book.dead } := by
  have hdead : {j | j ∈ i :: s.released} = insert i {j | j ∈ s.released} := by
    ext j
    simp
  have hb := book_closeWaiter h ((s.reg.recvStates i).bind (·.waiter))
  unfold onRelease
  simp only [book, Book.mk.injEq] at hb ⊢
  obtain ⟨howner, hqueue, hminted, -⟩ := hb
  exact ⟨howner, hqueue, hminted, hdead⟩

lemma book_completeRecv {s : Sys} (h : Callers s) (i : ℕ) (result : Except RecvError Bytes) :
    (s.completeRecv i result).book = s.book := by
  have hset : ∀ st, ({ s with reg := s.reg.setRecvState i st } : Sys).book = s.book := fun st =>
    book_ext rfl rfl rfl rfl
  generalize hs' : s.completeRecv i result = s'
  cases completed_of_completeRecv hs' with
  | gone hst => rfl
  | kept hst => exact hset _
  | replied hst hw hacc => exact (book_reply (h.setRecvState i _) _ rfl).trans (hset _)

/-- Taking a command that is no release from the queue takes its entry, if it has one. -/
lemma steps_pop {s : Sys} {careful : Prop} {c : Command} {rest : List Command}
    (hq : s.queue = c :: rest) (hc : ∀ i, c ≠ .release i) :
    Book.Steps careful s.book { s with queue := rest }.book := by
  have hbook : { s with queue := rest }.book =
      { s.book with queue := rest.filterMap Command.entry } := rfl
  cases htarget : c.target with
  | some p =>
    have hentry : c.entry = some (.use p.2) := by
      cases c <;> simp_all [Command.entry]
    have hqueue : s.book.queue = .use p.2 :: rest.filterMap Command.entry := by
      simp [book, hq, hentry]
    exact hbook ▸ .one (.popUse hqueue)
  | none =>
    have hentry : c.entry = none := by
      cases c <;> simp_all [Command.entry]
    have hqueue : rest.filterMap Command.entry = s.book.queue := by
      simp [book, hq, hentry]
    exact .of_eq (hbook.trans (by rw [hqueue]))

lemma steps_dequeue {s s' : Sys} {careful : Prop} (h : Base s) (hstep : s.dequeue = some s')
    (hc : careful → HandedOver s .dequeue) : Book.Steps careful s.book s'.book := by
  obtain ⟨c, rest, hq, hdeq⟩ := dequeued_of_dequeue hstep
  have hpop : Base { s with queue := rest } :=
    h.congr le_rfl rfl rfl (hq ▸ List.subset_cons_self _ _) rfl rfl rfl rfl rfl
  cases hdeq with
  | @created i t o ho =>
    have hnext : Base { s with queue := rest, fresh := s.fresh + 1 } :=
      hpop.congr (Nat.le_succ _) rfl rfl (List.Subset.refl _) rfl rfl rfl rfl rfl
    refine (steps_pop hq (by simp)).trans (steps_installReply hnext rfl fun hcar => hc hcar t ?_)
    simp [recipient, hq, ho]
  | closed => exact (steps_pop hq (by simp)).trans (.of_eq (book_closeReply hpop.callers _))
  | spawned hne hcall =>
    refine steps_pop hq fun i hi => ?_
    rw [hi] at hcall
    exact absurd hcall (by simp [calls])
  | received => exact (steps_pop hq (by simp)).trans (.of_eq (book_onRecv hpop.callers _ _))
  | @released i =>
    have hqueue : s.book.queue = .release i :: rest.filterMap Command.entry := by
      simp [book, hq, Command.entry]
    have hrel : ({ s with queue := rest }.onRelease i).book =
        { s.book with
          queue := rest.filterMap Command.entry, dead := insert i s.book.dead } :=
      book_onRelease hpop.callers i
    exact hrel ▸ .one (.popRelease hqueue)
  | refused => exact (steps_pop hq (by simp)).trans (.of_eq (book_reply hpop.callers _ rfl))

lemma book_poll {s s' : Sys} (h : Base s) {k : ℕ} (hstep : s.poll k = some s') :
    s'.book = s.book := by
  have htask := (h.setTask k none).callers
  cases polled_of_poll hstep with
  | issued hk =>
    rw [issue_eq]
    rfl
  | replied hk ht hid hr => exact book_reply htask _ hid
  | received hk => exact book_completeRecv htask _ _

lemma book_answer {s s' : Sys} {k : ℕ} {o : Outcome} (hstep : s.answer k o = some s') :
    s'.book = s.book := by
  obtain ⟨call, r, u, -, -, -, rfl⟩ := answer_cases hstep
  rfl

lemma steps_resume {s s' : Sys} {careful : Prop} (h : Base s) {k : ℕ}
    (hstep : s.resume k = some s') (hc : careful → HandedOver s (.resume k)) :
    Book.Steps careful s.book s'.book := by
  have htask := h.setTask k none
  cases resumed_of_resume hstep with
  | listened hk => exact .of_eq rfl
  | @created call a kind c t r hk hnew =>
    have hacc : careful → (s.setTask k none).accepts t = true := fun hcar =>
      hc hcar t (by simp [recipient, hk, hnew.recipient])
    exact steps_installReply htask hnew.id? hacc
  | replied hk ht hid hr => exact .of_eq (book_reply htask.callers _ hid)
  | received hk hx => exact .of_eq (book_completeRecv htask.callers _ _)

/-! ## The callers -/

lemma owner_of_handle {s : Sys} {j i : ℕ} {k : Kind} (hj : s.handles j = some ⟨k, some i, true⟩) :
    s.owner j = some i := by
  simp [owner, handleId, hj]

lemma entry_command (op : Op) (t : ℕ) :
    (op.command t).entry = op.carried.map fun c => .use c.2.2 := by
  cases op <;> rfl

lemma book_push (s : Sys) (c : Command) :
    ({ s with queue := s.queue ++ [c] } : Sys).book =
      { s.book with queue := s.book.queue ++ c.entry.toList } := by
  have hone : [c].filterMap Command.entry = c.entry.toList := by
    cases he : c.entry <;> simp [he]
  simp only [book, List.filterMap_append, hone]
  rfl

lemma steps_enqueue {s s' : Sys} {careful : Prop} (h : Base s) {t : ℕ}
    (hstep : s.enqueue t = some s') : Book.Steps careful s.book s'.book := by
  obtain ⟨op, hf, rfl⟩ := enqueue_cases hstep
  have hslot : s.slotId t = none := by simp [slotId, hf, Status.slot]
  have hset : (s.setFut t ⟨op, .waiting⟩).book = s.book :=
    book_setFut (h.callers.handleId_none hf rfl) hslot.symm
  have hqueue := book_push (s.setFut t ⟨op, .waiting⟩) (op.command t)
  rw [hset] at hqueue
  refine Eq.subst (motive := fun b => Book.Steps careful s.book b) hqueue.symm ?_
  rw [entry_command]
  cases hcar : op.carried with
  | none => exact .of_eq (by simp)
  | some c =>
    obtain ⟨j, k, i⟩ := c
    exact .one (.use (owner_of_handle ((h.callers.futs t _ hf).carried rfl j k i hcar)))

/-- The token of the resolving future gets the handle that the future created. -/
lemma book_resolveNew {s : Sys} (h : Callers s) {t i : ℕ} {op : Op} {r : Reply} {k : Kind}
    (hf : s.futs t = some ⟨op, .replied r⟩) (hr : r.id? = some (k, i)) (r' : Reply) :
    ((s.setHandle t ⟨k, some i, true⟩).resolveTo t op r').book = s.book := by
  refine book_ext ?_ rfl rfl rfl
  funext x
  by_cases hx : x = t
  · subst hx
    have hslot : s.owner x = some i := by
      rw [owner_of_handleId_none (h.handleId_none hf rfl)]
      simp [slotId, hf, Status.slot, hr]
    rw [hslot]
    exact owner_of_handle (k := k) (by simp [resolveTo, setFut, setHandle])
  · simp [owner, handleId, slotId, resolveTo, setFut, setHandle, Function.update_of_ne hx]

/-- A resolving future loses the id in its reply slot, if there is one. -/
lemma steps_lose {s : Sys} {careful : Prop} (h : Callers s) {t : ℕ} {op op' : Op} {st st' : Status}
    (hf : s.futs t = some ⟨op, st⟩) (hl : st.live) (hst' : st'.slot = none)
    (hc : careful → st.slot = none) :
    Book.Steps careful s.book (s.setFut t ⟨op', st'⟩).book := by
  have hhid := h.handleId_none hf hl
  by_cases hslot : st.slot = none
  · exact .of_eq (book_setFut hhid (by simp [slotId, hf, hslot, hst']))
  · have hbook : (s.setFut t ⟨op', st'⟩).book =
        { s.book with owner := Function.update s.book.owner t none } := by
      have howner := owner_setFut (s := s) ⟨op', st'⟩ hhid
      simp only [hst'] at howner
      simp only [book, howner]
      rfl
    exact hbook ▸ .one (.lose fun hcar => hslot (hc hcar))

lemma steps_fillCell {s : Sys} {careful : Prop} (h : Callers s) {t j id : ℕ} {addr : String}
    (hf : s.futs t = some ⟨.ensure j addr, .replied (.connector id)⟩) {x : Handle}
    (hx : s.handles j = some x) :
    Book.Steps careful s.book
      ((s.setHandle j { x with id := some id }).setFut t ⟨.connect j id addr, .sending⟩).book := by
  obtain ⟨cell, hj, hcell⟩ := (h.futs t _ hf).ensure rfl j addr rfl
  obtain rfl := hcell (by simp)
  obtain rfl : x = ⟨.connector, none, true⟩ := Option.some.inj (hx.symm.trans hj)
  have hhid := h.handleId_none hf rfl
  have htj : t ≠ j := fun htj => by simp [htj ▸ (h.futs t _ hf).unnamed rfl] at hj
  have hownt : s.owner t = some id := by
    rw [owner_of_handleId_none hhid]
    simp [slotId, hf, Status.slot, Reply.id?]
  have hownj : s.owner j = none := by
    rw [owner, h.slotId_none hj]
    simp [handleId, hj]
  -- the id moves from the slot of the call to the handle of the connector
  have hbook : ((s.setHandle j ⟨.connector, some id, true⟩).setFut t
      ⟨.connect j id addr, .sending⟩).book = { s.book with
        owner := Function.update (Function.update s.book.owner t none) j (some id) } := by
    have howner : ((s.setHandle j ⟨.connector, some id, true⟩).setFut t
        ⟨.connect j id addr, .sending⟩).owner =
          Function.update (Function.update s.owner t none) j (some id) := by
      funext y
      by_cases hyj : y = j
      · subst hyj
        rw [Function.update_self]
        exact owner_of_handle (k := .connector) (by simp [setFut, setHandle])
      · rw [Function.update_of_ne hyj]
        by_cases hyt : y = t
        · subst hyt
          rw [handleId] at hhid
          simp [owner, handleId, slotId, setFut, setHandle, Function.update_of_ne hyj, Status.slot,
            hhid]
        · simp [owner, handleId, slotId, setFut, setHandle, Function.update_of_ne hyj,
            Function.update_of_ne hyt]
    simp only [book, howner]
    rfl
  exact hbook ▸ .one (.hand hownt hownj)

lemma steps_resolve {s s' : Sys} {careful : Prop} (h : Callers s) {t : ℕ}
    (hstep : s.resolve t = some s') (hc : careful → HandedOver s (.resolve t)) :
    Book.Steps careful s.book s'.book := by
  have hdone : ∀ {op : Op} {st : Status} (r : Reply), s.futs t = some ⟨op, st⟩ → st.live →
      (careful → st.slot = none) → Book.Steps careful s.book (s.resolveTo t op r).book :=
    fun r hf hl hslot =>
      (steps_lose h hf hl rfl hslot).trans (.of_eq (book_ext rfl rfl rfl rfl))
  cases resolving_of_resolve hstep with
  | named hf hid hk => exact .of_eq (book_resolveNew h hf hid _)
  | @unparsed p id addr hf hparses =>
    refine hdone _ hf rfl fun hcar => ?_
    have haddr := hc hcar addr (by simp [published, hf])
    exact absurd haddr (by simp [hparses])
  | filled hf hx => exact steps_fillCell h hf hx
  | returned hf hid => exact hdone _ hf rfl fun _ => by simp [Status.slot, hid]
  | disconnected hf => exact hdone _ hf rfl fun _ => rfl

lemma steps_dropFut {s s' : Sys} {careful : Prop} (h : Callers s) {t : ℕ}
    (hstep : s.dropFut t = some s') (hc : careful → HandedOver s (.dropFut t)) :
    Book.Steps careful s.book s'.book := by
  obtain ⟨op, st, hf, hl, rfl⟩ := dropFut_cases hstep
  refine steps_lose h hf hl rfl fun hcar => ?_
  simpa [HandedOver, slotId, hf] using hc hcar

lemma steps_dropHandle {s s' : Sys} {careful : Prop} (h : Callers s) {j : ℕ} {d : Bool}
    (hstep : s.dropHandle j d = some s') (hc : careful → ReleaseDelivered s (.dropHandle j d)) :
    Book.Steps careful s.book s'.book := by
  obtain ⟨k, id, hj, -, -, hs'⟩ := dropHandle_cases hstep
  have hslot := h.slotId_none hj
  have howner : (s.setHandle j ⟨k, id, false⟩).owner = Function.update s.owner j none := by
    funext y
    by_cases hyj : y = j
    · subst hyj
      rw [slotId] at hslot
      simp [owner, handleId, slotId, setHandle, hslot]
    · simp [owner, handleId, slotId, setHandle, Function.update_of_ne hyj]
  have hbook : (s.setHandle j ⟨k, id, false⟩).book =
      { s.book with owner := Function.update s.book.owner j none } := by
    simp only [book, howner]
    rfl
  rcases hs' with ⟨hlost, rfl⟩ | ⟨i, rfl, rfl⟩
  · cases id with
    | none =>
      have hnone : s.owner j = none := by simp [owner, hslot, handleId, hj]
      refine .of_eq (book_ext ?_ rfl rfl rfl)
      rw [howner, ← hnone, Function.update_eq_self]
    | some i =>
      -- the `Release` of the id is lost
      refine hbook ▸ .one (.lose fun hcar => ?_)
      rcases hc hcar with hnone | hd
      · simp [handleId, hj] at hnone
      · simp [hd] at hlost
  · have hrel := book_push (s.setHandle j ⟨k, some i, false⟩) (.release i)
    rw [hbook] at hrel
    exact hrel ▸ .one (.release (owner_of_handle hj))

/-- A new future carries nothing yet. -/
lemma book_start {s : Sys} (h : Callers s) (op : Op) (st : Status) (hst : st.slot = none) :
    (s.start op st).book = s.book := by
  have hhid : s.handleId s.fresh = none := by
    cases hx : s.handles s.fresh with
    | none => simp [handleId, hx]
    | some x => exact absurd (h.handles _ x hx).lt (lt_irrefl _)
  have hslot : s.slotId s.fresh = none := by
    cases hf : s.futs s.fresh with
    | none => simp [slotId, hf]
    | some f => exact absurd (h.futs _ f hf).lt (lt_irrefl _)
  have hset : (s.setFut s.fresh ⟨op, st⟩).book = s.book :=
    book_setFut hhid (by rw [hslot]; exact hst)
  exact (book_ext rfl rfl rfl rfl).trans hset

lemma book_newConnector {s s' : Sys} (h : Callers s) (hstep : s.newConnector = some s') :
    s'.book = s.book := by
  obtain ⟨x, hx, rfl⟩ := Option.map_eq_some_iff.mp hstep
  refine book_ext ?_ rfl rfl rfl
  funext y
  by_cases hy : y = s.fresh
  · subst hy
    have hx : s.handles s.fresh = none := by
      by_contra hne
      obtain ⟨x, hx⟩ := Option.ne_none_iff_exists'.mp hne
      exact absurd (h.handles _ x hx).lt (lt_irrefl _)
    simp [owner, handleId, slotId, setHandle, hx]
  · simp [owner, handleId, slotId, setHandle, Function.update_of_ne hy]

lemma book_wake {s s' : Sys} (h : Callers s) {t : ℕ} (hstep : s.wake t = some s') :
    s'.book = s.book := by
  obtain ⟨j, addr, hf, hcell⟩ := wake_cases hstep
  have hslot : s.slotId t = none := by simp [slotId, hf, Status.slot]
  have hset : ∀ op, (s.setFut t ⟨op, .sending⟩).book = s.book := fun op =>
    book_setFut (h.handleId_none hf rfl) hslot.symm
  rcases hcell with ⟨id, -, rfl⟩ | ⟨-, -, rfl⟩
  · exact hset _
  · exact hset _

/-- **The connection refines the book of owned ids**: each step is some steps of the book, careful
ones when the step hands over what it allocates and loses no `Release`. -/
theorem step_book {s s' : Sys} {a : Action} (h : Base s) (hstep : s.step a = some s') :
    Book.Steps (HandedOver s a ∧ ReleaseDelivered s a) s.book s'.book := by
  cases a with
  | newConnector => exact .of_eq (book_newConnector h.callers hstep)
  | listen p | configure nf =>
    obtain ⟨x, -, rfl⟩ := Option.map_eq_some_iff.mp hstep
    exact .of_eq (book_start h.callers _ _ rfl)
  | connect j addr =>
    obtain ⟨x, -, rfl⟩ := Option.map_eq_some_iff.mp hstep
    split
    · exact .of_eq (book_start h.callers _ _ rfl)
    · exact .of_eq (book_start h.callers _ _ (by split <;> rfl))
  | accept j =>
    obtain ⟨id, -, -, rfl⟩ := startAccept_cases hstep
    exact .of_eq (book_start h.callers _ _ rfl)
  | recv j =>
    obtain ⟨id, -, -, rfl⟩ := startRecv_cases hstep
    exact .of_eq (book_start h.callers _ _ rfl)
  | send j m =>
    obtain ⟨id, -, -, ⟨-, rfl⟩ | ⟨-, rfl⟩⟩ := startSend_cases hstep
    · exact .of_eq ((book_ext rfl rfl rfl rfl).trans
        (book_start h.callers (.send j id m) (.done _) rfl))
    · exact .of_eq (book_start h.callers _ _ rfl)
  | wake t => exact .of_eq (book_wake h.callers hstep)
  | enqueue t => exact steps_enqueue h hstep
  | resolve t => exact steps_resolve h.callers hstep And.left
  | dropFut t => exact steps_dropFut h.callers hstep And.left
  | dropHandle j d => exact steps_dropHandle h.callers hstep And.right
  | dequeue => exact steps_dequeue h hstep And.left
  | poll k => exact .of_eq (book_poll h hstep)
  | answer k o => exact .of_eq (book_answer hstep)
  | resume k => exact steps_resume h hstep And.left
  | arriveMsg c m | arriveConn c n =>
    obtain rfl := Option.some.inj hstep
    exact .of_eq (book_ext rfl rfl rfl rfl)

lemma wf_init (cfg : Config) : (init cfg).book.WF := by
  have howner : ∀ x i, (init cfg).owner x = some i → x = 0 ∧ i = 0 := by
    intro x i hx
    by_cases h0 : x = 0
    · subst h0
      exact ⟨rfl, by simpa [owner, handleId, slotId, init, bootstrapId] using hx.symm⟩
    · exact absurd hx (by simp [owner, handleId, slotId, init, Function.update_of_ne h0])
  refine ⟨fun x y i hx hy => (howner x i hx).1.trans (howner y i hy).1.symm, fun x i hx => ?_,
    by simp [book, init], by simp [book, init], by simp [book, init]⟩
  obtain ⟨-, rfl⟩ := howner x i hx
  simp [book, init]

end Sys

end FungiTransport
