import FungiTransport.Capnp.Recv

/-!
# A waiting call is attended to

The reply of a call that waits is owed to it: its command is in the queue, a task makes its call, or
it is the waiter of a channel whose capnp `recv` is outstanding; and what it is owed is a reply that
it can take (`Sys.Attended`).  A step of the actor or of a task passes on what is owed, or replies,
or closes the reply (`Sys.Passes`), so no call is ever left waiting for nobody.
-/

namespace FungiTransport

open Lib

/-- Which reply a call is waiting for. -/
inductive Shape where
  | listen
  | configure
  | connector
  | connect
  | accept
  | send
  | recv
deriving DecidableEq

def Op.shape : Op → Shape
  | .listen _ => .listen
  | .configure _ => .configure
  | .ensure _ _ => .connector
  | .connect _ _ _ => .connect
  | .accept _ _ => .accept
  | .send _ _ _ => .send
  | .recv _ _ => .recv

def Reply.shape : Reply → Shape
  | .listen _ => .listen
  | .configure _ => .configure
  | .connector _ => .connector
  | .connect _ => .connect
  | .accept _ => .accept
  | .send _ => .send
  | .recv _ => .recv

/-- The reply that the command owes, and to whom. -/
def Command.owes : Command → Option (ℕ × Shape)
  | .connector _ t => some (t, .connector)
  | .listen _ _ _ t => some (t, .listen)
  | .connect _ _ t => some (t, .connect)
  | .accept _ t => some (t, .accept)
  | .send _ _ t => some (t, .send)
  | .recv _ t => some (t, .recv)
  | .configurePrivateNet _ t => some (t, .configure)
  | .release _ => none

/-- The reply that the task of a call owes. -/
def Call.owes : Call → Option (ℕ × Shape)
  | .listen _ _ _ t | .onionAddr _ t => some (t, .listen)
  | .connect _ _ t => some (t, .connect)
  | .accept _ t => some (t, .accept)
  | .send _ _ t => some (t, .send)
  | .configure _ _ t => some (t, .configure)
  | .recv _ _ => none

/-- The answers that the call can get. -/
def Call.Takes : Call → Except CapnpError Answer → Prop
  | _, .error _ => True
  | .listen _ _ _ _, .ok (.cap _) | .onionAddr _ _, .ok (.addr _) | .connect _ _ _, .ok (.cap _)
  | .accept _ _, .ok (.cap _) | .send _ _ _, .ok .done | .recv _ _, .ok (.msg _)
  | .configure _ _ _, .ok .done => True
  | _, .ok _ => False

lemma owes_command (op : Op) (t : ℕ) : (op.command t).owes = some (t, op.shape) := by
  cases op <;> rfl

lemma ticket_of_owes {c : Command} {t : ℕ} {x : Shape} (h : c.owes = some (t, x)) :
    c.ticket = some t := by
  cases c <;> simp_all [Command.owes, Command.ticket]

lemma Call.ticket_of_owes {call : Call} {t : ℕ} {x : Shape} (h : call.owes = some (t, x)) :
    call.ticket = some t := by
  cases call <;> simp_all [Call.owes, Call.ticket]

namespace Sys

/-- A reply of the shape is owed to the call. -/
inductive Owes (s : Sys) (t : ℕ) : Shape → Prop where
  | queued {c : Command} {x : Shape} (hc : c ∈ s.queue) (hx : c.owes = some (t, x)) : Owes s t x
  | tasked {k : ℕ} {y : Task} {x : Shape} (hk : s.tasks k = some y)
      (hx : y.call.owes = some (t, x)) : Owes s t x
  | waits {i : ℕ} {st : RecvState} (hst : s.reg.recvStates i = some st)
      (hw : st.waiter = some t) : Owes s t .recv

/-- Each call that waits is owed its reply, and gets one that it can take. -/
structure Attended (s : Sys) : Prop where
  owed : ∀ t op, s.futs t = some ⟨op, .waiting⟩ → s.Owes t op.shape
  shaped : ∀ t op x, s.futs t = some ⟨op, .waiting⟩ → s.Owes t x → op.shape = x
  slot : ∀ t op r, s.futs t = some ⟨op, .replied r⟩ → op.shape = r.shape
  parked : ∀ t op, s.futs t = some ⟨op, .parked⟩ → op.shape = .connector
  waiter : ∀ i st w, s.reg.recvStates i = some st → st.waiter = some w → st.inFlight = true
  answered : ∀ k call r, s.tasks k = some ⟨call, .answered r⟩ → call.Takes r

/-! ## What is owed -/

namespace Owes

variable {s s' : Sys} {t : ℕ} {x : Shape}

lemma congr (h : s.Owes t x) (hqueue : s'.queue = s.queue) (htasks : s'.tasks = s.tasks)
    (hstates : s'.reg.recvStates = s.reg.recvStates) : s'.Owes t x := by
  cases h with
  | queued hc hx => exact .queued (hqueue ▸ hc) hx
  | tasked hk hx => exact .tasked (htasks ▸ hk) hx
  | waits hst hw => exact .waits (hstates ▸ hst) hw

lemma reply (h : s.Owes t x) (v : ℕ) (r : Reply) : (s.reply v r).Owes t x := by
  obtain ⟨f, hf⟩ := reply_eq s v r
  exact hf ▸ h.congr rfl rfl rfl

lemma of_reply {v : ℕ} {r : Reply} (h : (s.reply v r).Owes t x) : s.Owes t x := by
  obtain ⟨f, hf⟩ := reply_eq s v r
  rw [hf] at h
  exact h.congr rfl rfl rfl

lemma closeReply (h : s.Owes t x) (v : ℕ) : (s.closeReply v).Owes t x := by
  obtain ⟨f, hf⟩ := closeReply_eq s v
  exact hf ▸ h.congr rfl rfl rfl

lemma of_closeReply {v : ℕ} (h : (s.closeReply v).Owes t x) : s.Owes t x := by
  obtain ⟨f, hf⟩ := closeReply_eq s v
  rw [hf] at h
  exact h.congr rfl rfl rfl

lemma pop {c : Command} {rest : List Command} (hq : s.queue = c :: rest) (h : s.Owes t x) :
    ({ s with queue := rest } : Sys).Owes t x ∨ c.owes = some (t, x) := by
  cases h with
  | queued hc hx =>
    rw [hq] at hc
    rcases List.mem_cons.mp hc with rfl | hc
    · exact .inr hx
    · exact .inl (.queued hc hx)
  | tasked hk hx => exact .inl (.tasked hk hx)
  | waits hst hw => exact .inl (.waits hst hw)

lemma of_pop {c : Command} {rest : List Command} (hq : s.queue = c :: rest)
    (h : ({ s with queue := rest } : Sys).Owes t x) : s.Owes t x := by
  cases h with
  | queued hc hx => exact .queued (hq ▸ List.mem_cons_of_mem c hc) hx
  | tasked hk hx => exact .tasked hk hx
  | waits hst hw => exact .waits hst hw

/-- The sender that the head of the queue carries. -/
lemma head {c : Command} {rest : List Command} (hq : s.queue = c :: rest)
    (hx : c.owes = some (t, x)) : s.Owes t x :=
  .queued (hq ▸ List.mem_cons_self) hx

lemma setTask {k : ℕ} {y : Option Task} (h : s.Owes t x)
    (hk : ∀ z, s.tasks k = some z → z.call.owes = some (t, x) →
      ∃ z', y = some z' ∧ z'.call.owes = some (t, x)) : (s.setTask k y).Owes t x := by
  cases h with
  | queued hc hx => exact .queued hc hx
  | @tasked j z _ hj hx =>
    by_cases hjk : j = k
    · subst hjk
      obtain ⟨z', rfl, hz'⟩ := hk z hj hx
      exact .tasked (k := j) (by simp [Sys.setTask]) hz'
    · exact .tasked (k := j) (by simp [Sys.setTask, Function.update_of_ne hjk, hj]) hx
  | waits hst hw => exact .waits hst hw

lemma of_setTask {k : ℕ} {y : Option Task} (h : (s.setTask k y).Owes t x) :
    s.Owes t x ∨ ∃ z, y = some z ∧ z.call.owes = some (t, x) := by
  cases h with
  | queued hc hx => exact .inl (.queued hc hx)
  | @tasked j z _ hj hx =>
    by_cases hjk : j = k
    · subst hjk
      exact .inr ⟨z, by simpa [Sys.setTask] using hj, hx⟩
    · exact .inl (.tasked (k := j) (by simpa [Sys.setTask, Function.update_of_ne hjk] using hj) hx)
  | waits hst hw => exact .inl (.waits hst hw)

lemma setRecvState {i : ℕ} {st : RecvState} (h : s.Owes t x)
    (hi : ∀ w, (s.reg.recvStates i).bind (·.waiter) = some w → w = t → st.waiter = some t) :
    ({ s with reg := s.reg.setRecvState i st } : Sys).Owes t x := by
  cases h with
  | queued hc hx => exact .queued hc hx
  | tasked hk hx => exact .tasked hk hx
  | @waits j st' hst hw =>
    by_cases hji : j = i
    · subst hji
      exact .waits (i := j) (by simp [Registry.setRecvState]) (hi t (by simp [hst, hw]) rfl)
    · exact .waits (i := j) (by simp [Registry.setRecvState, Function.update_of_ne hji, hst]) hw

lemma of_setRecvState {i : ℕ} {st : RecvState}
    (h : ({ s with reg := s.reg.setRecvState i st } : Sys).Owes t x) :
    s.Owes t x ∨ st.waiter = some t ∧ x = .recv := by
  cases h with
  | queued hc hx => exact .inl (.queued hc hx)
  | tasked hk hx => exact .inl (.tasked hk hx)
  | @waits j st' hst hw =>
    by_cases hji : j = i
    · subst hji
      obtain rfl : st = st' := by simpa [Registry.setRecvState] using hst
      exact .inr ⟨hw, rfl⟩
    · exact .inl (.waits (i := j)
        (by simpa [Registry.setRecvState, Function.update_of_ne hji] using hst) hw)

/-- What is owed has a sender somewhere. -/
lemma sender (h : s.Owes t x) : ∃ p, s.senderAt p = some t := by
  cases h with
  | queued hc hx =>
    obtain ⟨n, hn⟩ := List.mem_iff_getElem?.mp hc
    exact ⟨.queue n, by simp [senderAt, hn, ticket_of_owes hx]⟩
  | @tasked k y _ hk hx => exact ⟨.task k, by simp [senderAt, hk, Call.ticket_of_owes hx]⟩
  | @waits i st hst hw => exact ⟨.waiter i, by simp [senderAt, hst, hw]⟩

end Owes

/-! ## What is passed on -/

/-- What is owed is passed on, replied or closed. -/
structure Passes (s s' : Sys) : Prop where
  old : ∀ t x, s'.Owes t x → s.Owes t x
  owed : ∀ t x, s.Owes t x → s'.accepts t = true → s'.Owes t x
  futs : ∀ t, s'.futs t = s.futs t ∨ ∃ op, s.futs t = some ⟨op, .waiting⟩ ∧
    (s'.futs t = some ⟨op, .closed⟩ ∨
      ∃ r, s'.futs t = some ⟨op, .replied r⟩ ∧ s.Owes t r.shape)

/-- Nobody gets a reply. -/
lemma passes_kept {s s' : Sys} (hfuts : s'.futs = s.futs) (hold : ∀ t x, s'.Owes t x → s.Owes t x)
    (howed : ∀ t x, s.Owes t x → s'.accepts t = true → s'.Owes t x) : Passes s s' :=
  ⟨hold, howed, fun t => .inl (by rw [hfuts])⟩

lemma accepts_reply (s : Sys) (t : ℕ) (r : Reply) : (s.reply t r).accepts t = false := by
  rcases reply_cases s t r with ⟨op, -, heq⟩ | ⟨hacc, heq⟩
  · rw [heq]
    simp [accepts, setFut, Status.isWaiting]
  · rw [heq, hacc]

lemma accepts_closeReply (s : Sys) (t : ℕ) : (s.closeReply t).accepts t = false := by
  rw [Bool.eq_false_iff]
  intro hacc
  rcases closeReply_cases s t with ⟨op, -, heq⟩ | heq
  · rw [heq] at hacc
    simp [accepts, setFut, Status.isWaiting] at hacc
  · rw [heq] at hacc
    have hsame : s.closeReply t = s.setStatus t .closed := by simp [closeReply, hacc]
    obtain ⟨op, hf⟩ := accepts_iff.mp hacc
    have hfut := congrArg (fun u => u.futs t) (hsame.symm.trans heq)
    simp [setStatus, hf, setFut] at hfut

/-- The reply that was owed is given; everybody else is owed what they were. -/
lemma passes_reply {s u : Sys} {t : ℕ} {r : Reply} (hu : u.futs = s.futs)
    (hold : ∀ v x, u.Owes v x → s.Owes v x) (howed : ∀ v x, s.Owes v x → v ≠ t → u.Owes v x)
    (ht : s.Owes t r.shape) : Passes s (u.reply t r) where
  old := fun v x hv => hold v x hv.of_reply
  owed := fun v x hv hacc => by
    by_cases hvt : v = t
    · rw [hvt, accepts_reply] at hacc
      cases hacc
    · exact (howed v x hv hvt).reply t r
  futs := fun v => by
    rcases reply_cases u t r with ⟨op, hf, heq⟩ | ⟨-, heq⟩
    · rw [heq]
      by_cases hvt : v = t
      · subst hvt
        exact .inr ⟨op, hu ▸ hf, .inr ⟨r, by simp [setFut], ht⟩⟩
      · exact .inl (by simp [setFut, Function.update_of_ne hvt, hu])
    · exact .inl (by rw [heq, hu])

/-- The reply that was owed is closed. -/
lemma passes_closeReply {s u : Sys} {t : ℕ} (hu : u.futs = s.futs)
    (hold : ∀ v x, u.Owes v x → s.Owes v x) (howed : ∀ v x, s.Owes v x → v ≠ t → u.Owes v x) :
    Passes s (u.closeReply t) where
  old := fun v x hv => hold v x hv.of_closeReply
  owed := fun v x hv hacc => by
    by_cases hvt : v = t
    · rw [hvt, accepts_closeReply] at hacc
      cases hacc
    · exact (howed v x hv hvt).closeReply t
  futs := fun v => by
    rcases closeReply_cases u t with ⟨op, hf, heq⟩ | heq
    · rw [heq]
      by_cases hvt : v = t
      · subst hvt
        exact .inr ⟨op, hu ▸ hf, .inl (by simp [setFut])⟩
      · exact .inl (by simp [setFut, Function.update_of_ne hvt, hu])
    · exact .inl (by rw [heq, hu])

lemma passes_closeWaiter {s u : Sys} {o : Option ℕ} (hu : u.futs = s.futs)
    (hold : ∀ v x, u.Owes v x → s.Owes v x)
    (howed : ∀ v x, s.Owes v x → o ≠ some v → u.Owes v x) : Passes s (u.closeWaiter o) := by
  cases o with
  | none => exact passes_kept hu hold fun v x hv _ => howed v x hv (by simp)
  | some w => exact passes_closeReply hu hold fun v x hv hne => howed v x hv (by simpa [eq_comm] using hne)

/-- A task without a sender is spawned behind. -/
lemma Passes.spawn {s u : Sys} (h : Passes s u) (hfree : u.tasks u.fresh = none) {call : Call}
    (hcall : call.owes = none) : Passes s (u.spawn call) := by
  have hsame : ∀ v x, (u.spawn call).Owes v x ↔ u.Owes v x := by
    intro v x
    constructor
    · intro hv
      have hset : (u.setTask u.fresh (some ⟨call, .spawned⟩)).Owes v x := hv.congr rfl rfl rfl
      rcases hset.of_setTask with hv | ⟨z, hz, hx⟩
      · exact hv
      · obtain rfl := Option.some.inj hz
        simp [hcall] at hx
    · intro hv
      have hset := hv.setTask (k := u.fresh) (y := some ⟨call, .spawned⟩) fun z hz => by
        simp [hfree] at hz
      exact hset.congr rfl rfl rfl
  exact ⟨fun v x hv => h.old v x ((hsame v x).mp hv),
    fun v x hv hacc => (hsame v x).mpr (h.owed v x hv hacc), h.futs⟩

/-- The head of the queue becomes a task. -/
lemma passes_dispatch {s : Sys} {c : Command} {rest : List Command} (hq : s.queue = c :: rest)
    (hfree : s.tasks s.fresh = none) {call : Call} (hcall : call.owes = c.owes) :
    Passes s ({ s with queue := rest }.spawn call) := by
  refine passes_kept rfl (fun t x ht => ?_) fun t x ht _ => ?_
  · have hset : (({ s with queue := rest } : Sys).setTask s.fresh (some ⟨call, .spawned⟩)).Owes t x :=
      ht.congr rfl rfl rfl
    rcases hset.of_setTask with ht | ⟨z, hz, hx⟩
    · exact ht.of_pop hq
    · obtain rfl := Option.some.inj hz
      exact .head hq (hcall ▸ hx)
  · have hset : (({ s with queue := rest } : Sys).setTask s.fresh (some ⟨call, .spawned⟩)).Owes t x := by
      rcases ht.pop hq with ht | hx
      · exact ht.setTask fun z hz => by simp [hfree] at hz
      · exact .tasked (k := s.fresh) (y := ⟨call, .spawned⟩) (by simp [Sys.setTask])
          (hcall.trans hx)
    exact hset.congr rfl rfl rfl

lemma owes_calls {s : Sys} {c : Command} {call : Call} (hc : ∀ i t, c ≠ .recv i t)
    (hcall : s.calls c = some call) : call.owes = c.owes := by
  cases c with
  | listen i p n t | connect i a t | accept i t | send i m t =>
    obtain rfl := Option.some.inj hcall
    rfl
  | configurePrivateNet nf t =>
    obtain ⟨plugin, -, rfl⟩ := Option.map_eq_some_iff.mp hcall
    rfl
  | recv i t => exact absurd rfl (hc i t)
  | connector i t | release i => exact absurd hcall (by simp [calls])

lemma passes_received {s s' : Sys} {i t : ℕ} {rest : List Command}
    (hq : s.queue = .recv i t :: rest) (hfree : s.tasks s.fresh = none)
    (h : Received { s with queue := rest } i t ((s.reg.recvStates i).getD .default) s') :
    Passes s s' := by
  have hwaiter : ∀ w, (s.reg.recvStates i).bind (·.waiter) = some w →
      ((s.reg.recvStates i).getD .default).waiter = some w := fun w hw => by
    obtain ⟨st, hst, hw⟩ := Option.bind_eq_some_iff.mp hw
    simpa [hst] using hw
  have hhead : s.Owes t .recv := .head hq rfl
  -- the state keeps its waiter when a message is buffered
  have hkeep : ∀ st : RecvState, st.waiter = ((s.reg.recvStates i).getD .default).waiter → ∀ v x,
      (({ s with queue := rest, reg := s.reg.setRecvState i st } : Sys).Owes v x → s.Owes v x) ∧
      (s.Owes v x → v ≠ t → ({ s with queue := rest, reg := s.reg.setRecvState i st } : Sys).Owes v x) := by
    intro st hst v x
    refine ⟨fun hv => ?_, fun hv hne => ?_⟩
    · rcases Owes.of_setRecvState (s := { s with queue := rest }) hv with hv | ⟨hw, rfl⟩
      · exact hv.of_pop hq
      · rw [hst] at hw
        cases hold : s.reg.recvStates i with
        | none => simp [hold, RecvState.default] at hw
        | some st' => exact .waits hold (by simpa [hold] using hw)
    · rcases hv.pop hq with hv | hx
      · exact Owes.setRecvState (s := { s with queue := rest }) hv fun w hw hwv =>
          hst.trans (hwv ▸ hwaiter w hw)
      · exact absurd (Prod.mk.inj (Option.some.inj hx)).1.symm hne
  -- the sender that the state held is dropped, and the new one takes its place
  have hjoin : Passes s (({ s with
      queue := rest, reg := s.reg.setRecvState i ⟨true, some t, []⟩ } : Sys).closeWaiter
        ((s.reg.recvStates i).getD .default).waiter) := by
    refine passes_closeWaiter rfl (fun v x hv => ?_) fun v x hv hne => ?_
    · rcases Owes.of_setRecvState (s := { s with queue := rest }) hv with hv | ⟨hw, rfl⟩
      · exact hv.of_pop hq
      · obtain rfl : t = v := Option.some.inj hw
        exact hhead
    · rcases hv.pop hq with hv | hx
      · refine Owes.setRecvState (s := { s with queue := rest }) hv fun w hw hwv => ?_
        exact absurd (hwv ▸ hwaiter w hw) hne
      · obtain ⟨rfl, rfl⟩ := Prod.mk.inj (Option.some.inj hx)
        have hset : (s.reg.setRecvState i ⟨true, some t, []⟩).recvStates i = some ⟨true, some t, []⟩ := by
          simp [Registry.setRecvState]
        exact .waits hset rfl
  cases h with
  | @replied m buf hbuf hacc =>
    have hbuf := hkeep { (s.reg.recvStates i).getD .default with buffer := buf } rfl
    exact passes_reply rfl (fun v x => (hbuf v x).1) (fun v x => (hbuf v x).2) hhead
  | kept hbuf hacc =>
    have hsame := hkeep ((s.reg.recvStates i).getD .default) rfl
    refine passes_kept rfl (fun v x => (hsame v x).1) fun v x hv hv' => (hsame v x).2 hv ?_
    rintro rfl
    exact absurd (hacc.symm.trans hv') (by simp)
  | joined hbuf hin => exact hjoin
  | spawned hbuf hin =>
    refine hjoin.spawn ?_ rfl
    obtain ⟨f, hf⟩ := closeWaiter_eq ({ s with
      queue := rest, reg := s.reg.setRecvState i ⟨true, some t, []⟩ } : Sys)
      ((s.reg.recvStates i).getD .default).waiter
    rw [hf]
    exact hfree

lemma passes_onRelease (s : Sys) (i : ℕ) : Passes s (s.onRelease i) := by
  unfold onRelease
  rw [closeWaiter_with]
  refine passes_closeWaiter rfl (fun v x hv => ?_) fun v x hv hne => ?_
  · cases hv with
    | queued hc hx => exact .queued hc hx
    | tasked hk hx => exact .tasked hk hx
    | @waits j st hst hw =>
      by_cases hji : j = i
      · simp [Registry.release, hji] at hst
      · exact .waits (i := j) (by simpa [Registry.release, Function.update_of_ne hji] using hst) hw
  · cases hv with
    | queued hc hx => exact .queued hc hx
    | tasked hk hx => exact .tasked hk hx
    | @waits j st hst hw =>
      by_cases hji : j = i
      · exact absurd (by rw [← hji, hst]; exact hw) hne
      · exact .waits (i := j) (by simpa [Registry.release, Function.update_of_ne hji] using hst) hw

/-- The state behind a finished `recv` has no waiter any more. -/
lemma passes_completeRecv (s : Sys) (i : ℕ) (result : Except RecvError Bytes) :
    Passes s (s.completeRecv i result) := by
  have hold : ∀ buf v x,
      ({ s with reg := s.reg.setRecvState i ⟨false, none, buf⟩ } : Sys).Owes v x → s.Owes v x := by
    intro buf v x hv
    rcases hv.of_setRecvState with hv | ⟨hw, -⟩
    · exact hv
    · cases hw
  have howed : ∀ {st : RecvState} buf, s.reg.recvStates i = some st → ∀ v x, s.Owes v x →
      st.waiter ≠ some v →
        ({ s with reg := s.reg.setRecvState i ⟨false, none, buf⟩ } : Sys).Owes v x := by
    intro st buf hst v x hv hne
    refine hv.setRecvState fun w hw hwv => absurd ?_ hne
    rw [hst] at hw
    exact hwv ▸ hw
  unfold completeRecv
  split
  · exact passes_kept rfl (fun _ _ hv => hv) fun _ _ hv _ => hv
  · rename_i st hst
    dsimp only
    split
    · rename_i hw
      exact passes_kept rfl (hold _) fun v x hv _ => howed _ hst v x hv (by simp [hw])
    · rename_i w hw
      split
      · exact passes_reply rfl (hold _) (fun v x hv hne => howed _ hst v x hv (by simp [hw, hne.symm]))
          (.waits hst hw)
      · rename_i hacc
        refine passes_kept rfl (hold _) fun v x hv hv' => howed _ hst v x hv ?_
        rw [hw]
        rintro ⟨⟩
        exact hacc hv'

lemma Passes.of_same {s u s' : Sys} (h : Passes u s') (hsame : ∀ v x, u.Owes v x ↔ s.Owes v x)
    (hfuts : u.futs = s.futs) : Passes s s' where
  old := fun v x hv => (hsame v x).mp (h.old v x hv)
  owed := fun v x hv hacc => h.owed v x ((hsame v x).mpr hv) hacc
  futs := fun v => by
    rcases h.futs v with hv | ⟨op, hv, hcl | ⟨r, hr, howes⟩⟩
    · exact .inl (by rw [hv, hfuts])
    · exact .inr ⟨op, hfuts ▸ hv, .inl hcl⟩
    · exact .inr ⟨op, hfuts ▸ hv, .inr ⟨r, hr, (hsame v _).mp howes⟩⟩

/-! ## Tasks -/

/-- A task owes to the end what it owed. -/
lemma owes_setTask {s : Sys} {k : ℕ} {x : Task} {y : Option Task} (hk : s.tasks k = some x)
    (hy : (y.bind fun z => z.call.owes) = x.call.owes) (v : ℕ) (sh : Shape) :
    (s.setTask k y).Owes v sh ↔ s.Owes v sh := by
  constructor
  · intro hv
    rcases hv.of_setTask with hv | ⟨z, rfl, hz⟩
    · exact hv
    · exact .tasked hk (hy ▸ hz)
  · intro hv
    refine hv.setTask fun z hz howes => ?_
    obtain rfl := Option.some.inj (hk.symm.trans hz)
    exact Option.bind_eq_some_iff.mp (hy.trans howes)

/-- The task replies to the call that it owes a reply. -/
lemma passes_taskReply {s u : Sys} {k t : ℕ} {x : Task} {r : Reply} (hk : s.tasks k = some x)
    (hx : x.call.owes = some (t, r.shape)) (hqueue : u.queue = s.queue)
    (htasks : u.tasks = Function.update s.tasks k none)
    (hstates : u.reg.recvStates = s.reg.recvStates) (hfuts : u.futs = s.futs) :
    Passes s (u.reply t r) := by
  refine passes_reply hfuts (fun v sh hv => ?_) (fun v sh hv hne => ?_) (.tasked hk hx)
  · have hset : (s.setTask k none).Owes v sh := hv.congr hqueue.symm htasks.symm hstates.symm
    rcases hset.of_setTask with hv | ⟨z, hz, -⟩
    · exact hv
    · cases hz
  · have hset : (s.setTask k none).Owes v sh := by
      refine hv.setTask fun z hz howes => ?_
      obtain rfl := Option.some.inj (hk.symm.trans hz)
      exact absurd (Prod.mk.inj (Option.some.inj (hx.symm.trans howes))).1.symm hne
    exact hset.congr hqueue htasks hstates

/-- The task of a `recv` ends. -/
lemma passes_taskRecv {s : Sys} {k i : ℕ} {o : Option Cap} {st : Stage}
    (hk : s.tasks k = some ⟨.recv i o, st⟩) (result : Except RecvError Bytes) :
    Passes s ((s.setTask k none).completeRecv i result) :=
  (passes_completeRecv _ _ _).of_same (owes_setTask hk rfl) rfl

lemma passes_issue {s : Sys} {k : ℕ} {call : Call} {st : Stage} (hk : s.tasks k = some ⟨call, st⟩) :
    Passes s (s.issue k call) := by
  have hsame : ∀ v sh, (s.issue k call).Owes v sh ↔ s.Owes v sh := by
    intro v sh
    rw [← owes_setTask (y := some ⟨call, .issued⟩) hk rfl v sh, issue_eq]
    exact ⟨fun hv => hv.congr rfl rfl rfl, fun hv => hv.congr rfl rfl rfl⟩
  exact passes_kept (by rw [issue_eq]) (fun v sh => (hsame v sh).mp) fun v sh hv _ => (hsame v sh).mpr hv

lemma passes_poll {s s' : Sys} {k : ℕ} (hstep : s.poll k = some s') : Passes s s' := by
  unfold poll at hstep
  split at hstep
  · rename_i call hk
    split at hstep <;> obtain rfl := Option.some.inj hstep
    · exact passes_taskReply hk rfl rfl rfl rfl rfl
    · exact passes_taskReply hk rfl rfl rfl rfl rfl
    · exact passes_taskReply hk rfl rfl rfl rfl rfl
    · exact passes_taskReply hk rfl rfl rfl rfl rfl
    · exact passes_taskRecv hk _
    · exact passes_issue hk
  · exact absurd hstep (by simp)

lemma passes_answer {s s' : Sys} {k : ℕ} {o : Outcome} (hstep : s.answer k o = some s') :
    Passes s s' := by
  obtain ⟨call, r, u, hk, -, -, rfl⟩ := answer_cases hstep
  refine passes_kept rfl (fun v sh hv => ?_) fun v sh hv _ => ?_
  · have hset : (s.setTask k (some ⟨call, .answered r⟩)).Owes v sh := hv.congr rfl rfl rfl
    exact (owes_setTask hk rfl v sh).mp hset
  · exact ((owes_setTask (y := some ⟨call, .answered r⟩) hk rfl v sh).mpr hv).congr rfl rfl rfl

lemma passes_resume {s s' : Sys} {k : ℕ} (hstep : s.resume k = some s') : Passes s s' := by
  unfold resume at hstep
  split at hstep
  · rename_i call r hk
    unfold onAnswer at hstep
    split at hstep <;> first | obtain rfl := Option.some.inj hstep | exact absurd hstep (by simp)
    · exact passes_kept rfl (fun v sh => (owes_setTask hk rfl v sh).mp)
        fun v sh hv _ => (owes_setTask hk rfl v sh).mpr hv
    all_goals first
      | exact passes_taskReply hk rfl rfl rfl (by simp [install, setTask]) rfl
      | exact passes_taskRecv hk _
  · exact absurd hstep (by simp)

lemma passes_dequeue {s s' : Sys} (hfree : s.tasks s.fresh = none) (hstep : s.dequeue = some s') :
    Passes s s' := by
  obtain ⟨c, rest, hq, hdeq⟩ := dequeued_of_dequeue hstep
  -- only the call of the head loses its sender
  have hpop : ∀ {t : ℕ} {x : Shape}, c.owes = some (t, x) → ∀ v y, s.Owes v y → v ≠ t →
      ({ s with queue := rest } : Sys).Owes v y := by
    intro t x hx v y hv hne
    rcases hv.pop hq with hv | hy
    · exact hv
    · exact absurd (Prod.mk.inj (Option.some.inj (hx.symm.trans hy))).1.symm hne
  cases hdeq with
  | @created i t o ho =>
    refine passes_reply rfl (fun v x hv => ?_) (fun v x hv hne => ?_) (.head hq rfl)
    · exact Owes.of_pop hq (hv.congr rfl rfl (by simp [install]))
    · exact (hpop rfl v x hv hne).congr rfl rfl (by simp [install])
  | closed => exact passes_closeReply rfl (fun v x hv => hv.of_pop hq) (hpop rfl)
  | spawned hne hcall => exact passes_dispatch hq hfree (owes_calls hne hcall)
  | received => exact passes_received hq hfree (received_of_onRecv rfl)
  | released =>
    refine (passes_onRelease _ _).of_same (fun v x => ⟨fun hv => hv.of_pop hq, fun hv => ?_⟩) rfl
    rcases hv.pop hq with hv | hx
    · exact hv
    · cases hx
  | refused =>
    exact passes_reply rfl (fun v x hv => hv.of_pop hq) (hpop rfl) (.head hq rfl)

/-- **A step of the actor, a task, the server or the world passes on what is owed.** -/
theorem passes_of_step {s s' : Sys} {a : Action} (hfree : s.tasks s.fresh = none)
    (ha : isRemote a = true) (hstep : s.step a = some s') : Passes s s' := by
  cases a with
  | dequeue => exact passes_dequeue hfree hstep
  | poll k => exact passes_poll hstep
  | answer k o => exact passes_answer hstep
  | resume k => exact passes_resume hstep
  | arriveMsg c m | arriveConn c n =>
    obtain rfl := Option.some.inj hstep
    exact passes_kept rfl (fun v x hv => hv.congr rfl rfl rfl) fun v x hv _ => hv.congr rfl rfl rfl
  | _ => exact absurd ha (by simp [isRemote])

/-! ## Answers -/

/-- The server answers a call with what the call can take. -/
lemma takes_of_serve {s u : Sys} {k : ℕ} {call : Call} {o : Outcome} {r : Except CapnpError Answer}
    (h : s.serve k call o = some (u, r)) : call.Takes r := by
  unfold serve at h
  dsimp only at h
  repeat' split at h
  all_goals first
    | (have hr := congrArg Prod.snd (Option.some.inj h)
       dsimp only at hr
       subst hr
       trivial)
    | exact absurd h (by simp)

lemma answered_update {s s' : Sys} {k : ℕ} {y : Option Task}
    (h : ∀ k call r, s.tasks k = some ⟨call, .answered r⟩ → call.Takes r)
    (htasks : s'.tasks = Function.update s.tasks k y)
    (hy : ∀ call r, y = some ⟨call, .answered r⟩ → call.Takes r) :
    ∀ k call r, s'.tasks k = some ⟨call, .answered r⟩ → call.Takes r := by
  intro j call r hj
  rcases update_eq_some (htasks ▸ hj) with ⟨-, hput⟩ | ⟨-, hkept⟩
  · exact hy call r hput
  · exact h j call r hkept

lemma step_answered {s s' : Sys} {a : Action}
    (h : ∀ k call r, s.tasks k = some ⟨call, .answered r⟩ → call.Takes r)
    (hstep : s.step a = some s') :
    ∀ k call r, s'.tasks k = some ⟨call, .answered r⟩ → call.Takes r := by
  cases ha : isRemote a with
  | false =>
    rw [(step_caller_rest ha hstep).1]
    exact h
  | true =>
    cases a with
    | dequeue =>
      obtain ⟨c, rest, hq, hdeq⟩ := dequeued_of_dequeue hstep
      cases hdeq with
      | created ho =>
        rw [tasks_reply]
        exact h
      | @closed i t =>
        obtain ⟨f, hf⟩ := closeReply_eq { s with queue := rest } t
        rw [hf]
        exact h
      | spawned hne hcall => exact answered_update h rfl (by simp)
      | @received i t =>
        obtain ⟨f, g, heq | heq⟩ := onRecv_eq { s with queue := rest } i t
        · rw [heq]
          exact h
        · rw [heq]
          exact answered_update h rfl (by simp)
      | @released i =>
        obtain ⟨f, hf⟩ := onRelease_eq { s with queue := rest } i
        rw [hf]
        exact h
      | refused =>
        rw [tasks_reply]
        exact h
    | poll k =>
      cases polled_of_poll hstep with
      | issued hk => exact answered_update h (by rw [issue_eq]) (by simp)
      | replied hk ht hid hr => exact answered_update h (by rw [tasks_reply]; rfl) (by simp)
      | received hk => exact answered_update h (by rw [tasks_completeRecv]; rfl) (by simp)
    | answer k o =>
      obtain ⟨call, r, u, hk, -, hserve, rfl⟩ := answer_cases hstep
      refine answered_update h rfl fun call' r' hy => ?_
      obtain ⟨rfl, hst⟩ := Task.mk.inj (Option.some.inj hy)
      obtain rfl := Stage.answered.inj hst
      exact takes_of_serve hserve
    | resume k =>
      cases resumed_of_resume hstep with
      | listened hk => exact answered_update h rfl (by simp)
      | created hk hnew => exact answered_update h (by rw [tasks_reply]; rfl) (by simp)
      | replied hk ht hid hr => exact answered_update h (by rw [tasks_reply]; rfl) (by simp)
      | received hk hx => exact answered_update h (by rw [tasks_completeRecv]; rfl) (by simp)
    | arriveMsg c m | arriveConn c n =>
      obtain rfl := Option.some.inj hstep
      exact h
    | _ => exact absurd ha (by simp [isRemote])

/-! ## Callers -/

lemma Attended.congr {s s' : Sys} (h : Attended s) (hfuts : s'.futs = s.futs)
    (howes : ∀ t x, s'.Owes t x ↔ s.Owes t x) (htasks : s'.tasks = s.tasks) (hreg : s'.reg = s.reg) :
    Attended s' where
  owed := fun t op hf => (howes t _).mpr (h.owed t op (hfuts ▸ hf))
  shaped := fun t op x hf hx => h.shaped t op x (hfuts ▸ hf) ((howes t x).mp hx)
  slot := hfuts ▸ h.slot
  parked := hfuts ▸ h.parked
  waiter := hreg ▸ h.waiter
  answered := htasks ▸ h.answered

/-- A command that owes nobody is queued. -/
lemma owes_push {s : Sys} {c : Command} (hc : c.owes = none) (t : ℕ) (x : Shape) :
    ({ s with queue := s.queue ++ [c] } : Sys).Owes t x ↔ s.Owes t x := by
  constructor
  · intro h
    cases h with
    | queued hmem hx =>
      rcases List.mem_append.mp hmem with hmem | hmem
      · exact .queued hmem hx
      · rw [List.mem_singleton.mp hmem, hc] at hx
        cases hx
    | tasked hk hx => exact .tasked hk hx
    | waits hst hw => exact .waits hst hw
  · intro h
    cases h with
    | queued hmem hx => exact .queued (List.mem_append_left _ hmem) hx
    | tasked hk hx => exact .tasked hk hx
    | waits hst hw => exact .waits hst hw

/-- A call is in a state where nothing is owed to it. -/
structure Unowed (f : Fut) : Prop where
  waiting : f.status ≠ .waiting
  replied : ∀ r, f.status ≠ .replied r
  parked : f.status = .parked → f.op.shape = .connector

/-- A step of a caller that is owed nothing, before or behind it. -/
lemma Attended.unowed {s s' : Sys} (h : Attended s) {t : ℕ} {f : Fut} (hf : Unowed f)
    (hfuts : s'.futs = Function.update s.futs t (some f)) (hqueue : s'.queue = s.queue)
    (htasks : s'.tasks = s.tasks) (hreg : s'.reg = s.reg) : Attended s' := by
  -- another call, or this one
  have hother : ∀ u g, s'.futs u = some g → s.futs u = some g ∨ g = f := by
    intro u g hu
    rcases update_eq_some (hfuts ▸ hu) with ⟨-, hput⟩ | ⟨-, hkept⟩
    · exact .inr (Option.some.inj hput).symm
    · exact .inl hkept
  refine ⟨fun u op hu => ?_, fun u op x hu hx => ?_, fun u op r hu => ?_, fun u op hu => ?_, ?_, ?_⟩
  · rcases hother u _ hu with hu | rfl
    · exact (h.owed u op hu).congr hqueue htasks (by rw [hreg])
    · exact absurd rfl hf.waiting
  · rcases hother u _ hu with hu | rfl
    · exact h.shaped u op x hu (hx.congr hqueue.symm htasks.symm (by rw [hreg]))
    · exact absurd rfl hf.waiting
  · rcases hother u _ hu with hu | rfl
    · exact h.slot u op r hu
    · exact absurd rfl (hf.replied r)
  · rcases hother u _ hu with hu | rfl
    · exact h.parked u op hu
    · exact hf.parked rfl
  · rw [hreg]
    exact h.waiter
  · rw [htasks]
    exact h.answered

/-- The command of a call is queued, with the sender of its reply. -/
lemma attended_enqueue {s s' : Sys} (h : Attended s) (ht : Tickets s) {t : ℕ}
    (hstep : s.enqueue t = some s') : Attended s' := by
  obtain ⟨op, hf, rfl⟩ := enqueue_cases hstep
  have hun : s.Unsent t := ht.unsent hf rfl
  have howes : ∀ {v : ℕ} {x : Shape}, s.Owes v x →
      ({ s.setFut t ⟨op, .waiting⟩ with queue := s.queue ++ [op.command t] } : Sys).Owes v x := by
    intro v x hv
    cases hv with
    | queued hc hx => exact .queued (List.mem_append_left _ hc) hx
    | tasked hk hx => exact .tasked hk hx
    | waits hst hw => exact .waits hst hw
  have hback : ∀ {v : ℕ} {x : Shape},
      ({ s.setFut t ⟨op, .waiting⟩ with queue := s.queue ++ [op.command t] } : Sys).Owes v x →
        s.Owes v x ∨ (v = t ∧ x = op.shape) := by
    intro v x hv
    cases hv with
    | queued hc hx =>
      rcases List.mem_append.mp hc with hc | hc
      · exact .inl (.queued hc hx)
      · obtain rfl := List.mem_singleton.mp hc
        rw [owes_command] at hx
        obtain ⟨rfl, rfl⟩ := Prod.mk.inj (Option.some.inj hx)
        exact .inr ⟨rfl, rfl⟩
    | tasked hk hx => exact .inl (.tasked hk hx)
    | waits hst hw => exact .inl (.waits hst hw)
  refine ⟨fun u op' hu => ?_, fun u op' x hu hx => ?_, fun u op' r hu => ?_, fun u op' hu => ?_,
    h.waiter, h.answered⟩
  · rcases futs_setFut (s := s) hu with ⟨rfl, hg⟩ | ⟨-, hu⟩
    · obtain ⟨rfl, -⟩ := Fut.mk.inj hg
      exact .queued (List.mem_append_right _ List.mem_cons_self) (owes_command _ _)
    · exact howes (h.owed u op' hu)
  · rcases futs_setFut (s := s) hu with ⟨rfl, hg⟩ | ⟨hne, hu⟩
    · obtain ⟨rfl, -⟩ := Fut.mk.inj hg
      rcases hback hx with hx | ⟨-, rfl⟩
      · obtain ⟨p, hp⟩ := hx.sender
        exact absurd hp (hun p)
      · rfl
    · rcases hback hx with hx | ⟨rfl, -⟩
      · exact h.shaped u op' x hu hx
      · exact absurd rfl hne
  · rcases futs_setFut (s := s) hu with ⟨rfl, hg⟩ | ⟨-, hu⟩
    · exact absurd (Fut.mk.inj hg).2 (by simp)
    · exact h.slot u op' r hu
  · rcases futs_setFut (s := s) hu with ⟨rfl, hg⟩ | ⟨-, hu⟩
    · exact absurd (Fut.mk.inj hg).2 (by simp)
    · exact h.parked u op' hu

lemma attended_caller {s s' : Sys} {a : Action} (h : Attended s) (ht : Tickets s)
    (ha : isRemote a = false) (hstep : s.step a = some s') : Attended s' := by
  cases a with
  | dequeue | poll k | answer k o | resume k | arriveMsg c m | arriveConn c n =>
    exact absurd ha (by simp [isRemote])
  | newConnector =>
    obtain ⟨x, -, rfl⟩ := Option.map_eq_some_iff.mp hstep
    exact h.congr rfl (fun t x => ⟨fun hx => hx.congr rfl rfl rfl, fun hx => hx.congr rfl rfl rfl⟩)
      rfl rfl
  | listen p | configure nf =>
    obtain ⟨x, -, rfl⟩ := Option.map_eq_some_iff.mp hstep
    exact h.unowed ⟨by simp, by simp, by simp⟩ rfl rfl rfl rfl
  | connect j addr =>
    obtain ⟨x, -, rfl⟩ := Option.map_eq_some_iff.mp hstep
    split
    · exact h.unowed ⟨by simp, by simp, by simp⟩ rfl rfl rfl rfl
    · refine h.unowed (f := ⟨.ensure j addr, _⟩) ⟨?_, ?_, fun _ => rfl⟩ rfl rfl rfl rfl
      · split <;> simp
      · split <;> simp
  | accept j =>
    obtain ⟨id, -, -, rfl⟩ := startAccept_cases hstep
    exact h.unowed ⟨by simp, by simp, by simp⟩ rfl rfl rfl rfl
  | recv j =>
    obtain ⟨id, -, -, rfl⟩ := startRecv_cases hstep
    exact h.unowed ⟨by simp, by simp, by simp⟩ rfl rfl rfl rfl
  | send j m =>
    obtain ⟨id, -, -, ⟨-, rfl⟩ | ⟨-, rfl⟩⟩ := startSend_cases hstep
    · exact h.unowed ⟨by simp, by simp, by simp⟩ rfl rfl rfl rfl
    · exact h.unowed ⟨by simp, by simp, by simp⟩ rfl rfl rfl rfl
  | wake t =>
    obtain ⟨j, addr, -, ⟨id, -, rfl⟩ | ⟨-, -, rfl⟩⟩ := wake_cases hstep
    · exact h.unowed ⟨by simp, by simp, by simp⟩ rfl rfl rfl rfl
    · exact h.unowed ⟨by simp, by simp, by simp⟩ rfl rfl rfl rfl
  | enqueue t => exact attended_enqueue h ht hstep
  | dropFut t =>
    obtain ⟨op, st, -, -, rfl⟩ := dropFut_cases hstep
    exact h.unowed ⟨by simp, by simp, by simp⟩ rfl rfl rfl rfl
  | dropHandle j d =>
    obtain ⟨k, id, -, -, -, ⟨-, rfl⟩ | ⟨i, -, rfl⟩⟩ := dropHandle_cases hstep
    · exact h.congr rfl (fun t x => ⟨fun hx => hx.congr rfl rfl rfl, fun hx => hx.congr rfl rfl rfl⟩)
        rfl rfl
    · refine h.congr rfl (fun t x => ?_) rfl rfl
      rw [← owes_push (c := .release i) rfl (s := s)]
      exact ⟨fun hx => hx.congr rfl rfl rfl, fun hx => hx.congr rfl rfl rfl⟩
  | resolve t =>
    cases resolving_of_resolve hstep <;>
      exact h.unowed ⟨by simp, by simp, by simp⟩ rfl rfl rfl rfl

/-- **The step lemma** of the calls that wait. -/
theorem step_attended {s s' : Sys} {a : Action} (h : Attended s) (hr : Regular s)
    (hstep : s.step a = some s') : Attended s' := by
  have hfree : s.tasks s.fresh = none := hr.sound.tasks.tasks_fresh
  cases ha : isRemote a with
  | false => exact attended_caller h hr.tickets ha hstep
  | true =>
    have hp := passes_of_step hfree ha hstep
    have hwaits : ∀ t op, s'.futs t = some ⟨op, .waiting⟩ → s.futs t = some ⟨op, .waiting⟩ := by
      intro t op hf
      rcases hp.futs t with hsame | ⟨op', -, hcl | ⟨r, hrep, -⟩⟩
      · rw [← hsame, hf]
      · simp [hcl] at hf
      · simp [hrep] at hf
    refine ⟨fun t op hf => ?_, fun t op x hf hx => h.shaped t op x (hwaits t op hf) (hp.old t x hx),
      fun t op r hf => ?_, fun t op hf => ?_, fun i st w hst hw => ?_, step_answered h.answered hstep⟩
    · exact hp.owed t _ (h.owed t op (hwaits t op hf)) (accepts_iff.mpr ⟨op, hf⟩)
    · rcases hp.futs t with hsame | ⟨op', hold, hcl | ⟨r', hrep, howes⟩⟩
      · exact h.slot t op r (hsame ▸ hf)
      · simp [hcl] at hf
      · rw [hrep] at hf
        obtain ⟨rfl, hst⟩ := Fut.mk.inj (Option.some.inj hf)
        obtain rfl := Status.replied.inj hst
        exact h.shaped t op' _ hold howes
    · rcases hp.futs t with hsame | ⟨op', -, hcl | ⟨r, hrep, -⟩⟩
      · exact h.parked t op (hsame ▸ hf)
      · simp [hcl] at hf
      · simp [hrep] at hf
    · cases stateStep_of_step hfree hstep i with
      | kept hst' => exact h.waiter i st w (hst' ▸ hst) hw
      | served hold hbuf hst' =>
        obtain rfl := Option.some.inj (hst'.symm.trans hst)
        exact (h.waiter i _ w hold hw :)
      | waits hq hst' =>
        obtain rfl := Option.some.inj (hst'.symm.trans hst)
        rfl
      | released hst' => exact absurd (hst'.symm.trans hst) (by simp)
      | ended hold hk hmore hst' =>
        obtain rfl := Option.some.inj (hst'.symm.trans hst)
        cases hw

lemma attended_init (cfg : Config) : Attended (init cfg) := by
  refine ⟨?_, ?_, ?_, ?_, ?_, ?_⟩ <;> simp [init, Registry.new]

/-- The invariant rule over regular states whose waiting calls are attended to. -/
lemma attended_of_run {cfg : Config} {as : List Action} {s : Sys}
    (hrun : run step (Sys.init cfg) as = some s) (hfew : s.created.length < 2 ^ 64) :
    Regular s ∧ Attended s ∧ s.Receives :=
  regular_induction (P := fun _ _ => True) (I := fun s => Attended s ∧ s.Receives)
    ⟨attended_init cfg, receives_init cfg⟩
    (fun _ _ _ hr _ h _ hstep => ⟨step_attended h.1 hr hstep, step_receives hr.sound h.2 hstep⟩)
    (eachStep_true _ _) hrun hfew

/-- The waiter of a channel waits for a capnp `recv` that is outstanding. -/
lemma recvTask_of_waiter {s : Sys} (h : Attended s) (hr : s.Receives) {i w : ℕ} {st : RecvState}
    (hst : s.reg.recvStates i = some st) (hw : st.waiter = some w) : ∃ k, s.RecvTask i k := by
  have hlive : i ∉ s.released := fun hi => by simp [(hr i).released hi] at hst
  exact ((hr i).inFlight hlive).mp (by simpa [hst] using h.waiter i st w hst hw)

/-- **No call is left waiting for nobody.**  In every reachable state, the reply of a call that waits
has its sender in exactly one place: with its command in the queue, with a task, or in the receive
state of a channel, and there a capnp `recv` of the channel is outstanding. -/
theorem waiting_attended {cfg : Config} {as : List Action} {s : Sys}
    (hrun : run step (Sys.init cfg) as = some s) (hfew : s.created.length < 2 ^ 64) {t : ℕ} {op : Op}
    (hf : s.futs t = some ⟨op, .waiting⟩) :
    ∃ p, s.senderAt p = some t ∧ (∀ q, s.senderAt q = some t → q = p) ∧
      ∀ i, p = .waiter i → ∃ k, s.RecvTask i k := by
  obtain ⟨hr, h, hrecv⟩ := attended_of_run hrun hfew
  obtain ⟨p, hp⟩ := (h.owed t op hf).sender
  refine ⟨p, hp, fun q hq => hr.tickets.unique q p t hq hp, ?_⟩
  rintro i rfl
  obtain ⟨st, hst, hw⟩ := Option.bind_eq_some_iff.mp hp
  exact recvTask_of_waiter h hrecv hst hw

/-- A second `recv` of a channel takes the place of a first one that was dropped. -/
theorem waiting_attended_second : ∃ s, run step (Sys.init ⟨.channel, 8, fun _ => true, fun _ => true,
      id⟩) [.recv 0, .enqueue 2, .dequeue, .dropFut 2, .recv 0, .enqueue 4, .dequeue] = some s ∧
    s.senderAt (.waiter 0) = some 4 ∧ ∃ k, s.RecvTask 0 k := by
  obtain ⟨s, hrun, hf, hat, hfew⟩ : ∃ s, run step (Sys.init ⟨.channel, 8, fun _ => true,
      fun _ => true, id⟩) [.recv 0, .enqueue 2, .dequeue, .dropFut 2, .recv 0, .enqueue 4, .dequeue]
        = some s ∧ s.futs 4 = some ⟨.recv 0 0, .waiting⟩ ∧ s.senderAt (.waiter 0) = some 4 ∧
      s.created.length < 2 ^ 64 :=
    ⟨_, Option.eq_some_of_isSome (by decide), by decide, by decide, by decide⟩
  obtain ⟨p, hp, hunique, htask⟩ := waiting_attended hrun hfew hf
  exact ⟨s, hrun, hat, htask 0 (hunique _ hat).symm⟩

end Sys

end FungiTransport
