import FungiTransport.Capnp.Completion
import FungiTransport.Capnp.Ledger

/-!
# A connection that serves a loopback

`serve_loopback` answers the calls of one channel from a queue of its own, at once and in the order
of their arrival.  A state is that of the connection with the loopback behind it; the server's
answers are the loopback's.  Whatever the interleaving, what was sent is in the queue, on its way
back or received, in order (`Looped.loopback_serves`), and no call waits for ever.
-/

namespace FungiTransport

open Lib

/-- `Loopback` -/
structure Loopback where
  queue : List Bytes
deriving DecidableEq

namespace Loopback

def send (l : Loopback) (msg : Bytes) : Loopback := ⟨l.queue ++ [msg]⟩

/-- `recv`, which does not wait. -/
def recv (l : Loopback) : Except CapnpError Bytes × Loopback :=
  match l.queue with
  | msg :: rest => (.ok msg, ⟨rest⟩)
  | [] => (.error ⟨.failed, "channel empty"⟩, l)

end Loopback

/-- The call fails with the connection. -/
def Action.fails : Action → Bool
  | .answer _ o => o.isRpcErr
  | _ => false

/-- A connection and the loopback that it serves. -/
structure Looped where
  sys : Sys
  loopback : Loopback

namespace Looped

/-- `serve_loopback`, with a client connected to it. -/
def init (cfg : Config) : Looped := ⟨Sys.init cfg, ⟨[]⟩⟩

/-- The loopback answers the call of task `k`, when it is the next one at the object.  A message
that it returns arrives and is taken in one step. -/
def answer (s : Looped) (k : ℕ) : Option Looped :=
  match s.sys.tasks k with
  | some ⟨.send (some _) msg _, .issued⟩ =>
    (s.sys.step (.answer k .ok)).map fun u => ⟨u, s.loopback.send msg⟩
  | some ⟨.recv i (some c), .issued⟩ =>
    match s.loopback.recv with
    | (.ok msg, l) => (run Sys.step s.sys [.arriveMsg c msg, .answer k .ok]).map fun u => ⟨u, l⟩
    | (.error e, l) =>
      if s.sys.holds k (.recv i (some c)) then
        (s.sys.step (.answer k (.rpcErr (s.sys.remote e)))).map fun u => ⟨u, l⟩
      else none
  | _ => none

/-- One step of the connection; the server's answers are the loopback's, but for a call that fails
with the connection. -/
def step (s : Looped) : Action → Option Looped
  | .answer k o =>
    if o.isRpcErr then (s.sys.step (.answer k o)).map fun u => { s with sys := u } else s.answer k
  | .arriveMsg _ _ | .arriveConn _ _ => none
  | a => (s.sys.step a).map fun u => { s with sys := u }

/-- What a step does to the connection and to the loopback. -/
inductive Moved (s : Looped) : Action → Looped → Prop
  | other {a : Action} {u : Sys} (ha : ∀ k o, a ≠ .answer k o) (hm : ∀ c m, a ≠ .arriveMsg c m)
      (h : s.sys.step a = some u) : Moved s a { s with sys := u }
  /-- The call ends with an error that is the connection's, or that of an empty queue. -/
  | failed {k : ℕ} {o : Outcome} {e : CapnpError} {u : Sys}
      (h : s.sys.step (.answer k (.rpcErr e)) = some u) : Moved s (.answer k o) { s with sys := u }
  | sent {k t : ℕ} {o : Outcome} {c : Cap} {msg : Bytes} {u : Sys}
      (hk : s.sys.tasks k = some ⟨.send (some c) msg t, .issued⟩)
      (h : s.sys.step (.answer k .ok) = some u) : Moved s (.answer k o) ⟨u, s.loopback.send msg⟩
  | received {k i : ℕ} {o : Outcome} {c : Cap} {msg : Bytes} {rest : List Bytes} {v u : Sys}
      (hk : s.sys.tasks k = some ⟨.recv i (some c), .issued⟩)
      (hqueue : s.loopback.queue = msg :: rest)
      (harrive : s.sys.step (.arriveMsg c msg) = some v) (h : v.step (.answer k .ok) = some u) :
      Moved s (.answer k o) ⟨u, ⟨rest⟩⟩

lemma moved_of_answer {s s' : Looped} {k : ℕ} {o : Outcome} (hstep : s.answer k = some s') :
    Moved s (.answer k o) s' := by
  unfold answer at hstep
  split at hstep
  · rename_i c msg t hk
    obtain ⟨u, hu, rfl⟩ := Option.map_eq_some_iff.mp hstep
    exact .sent hk hu
  · rename_i i c hk
    unfold Loopback.recv at hstep
    split at hstep
    · rename_i msg l hrecv
      split at hrecv
      · rename_i m rest hqueue
        cases hrecv
        obtain ⟨u, hu, rfl⟩ := Option.map_eq_some_iff.mp hstep
        obtain ⟨v, hv, hu⟩ := run_cons.mp hu
        obtain ⟨u', hu', hrun⟩ := run_cons.mp hu
        obtain rfl : u' = u := by simpa using hrun
        exact .received hk hqueue hv hu'
      · cases hrecv
    · rename_i e l hrecv
      split at hrecv
      · cases hrecv
      · cases hrecv
        split at hstep
        · obtain ⟨u, hu, rfl⟩ := Option.map_eq_some_iff.mp hstep
          exact .failed hu
        · cases hstep
  · cases hstep

lemma moved_of_step {s s' : Looped} {a : Action} (hstep : s.step a = some s') : Moved s a s' := by
  cases a with
  | answer k o =>
    simp only [step] at hstep
    split at hstep
    · rename_i ho
      cases o with
      | rpcErr e =>
        obtain ⟨u, hu, rfl⟩ := Option.map_eq_some_iff.mp hstep
        exact .failed hu
      | _ => cases ho
    · exact moved_of_answer hstep
  | arriveMsg c m | arriveConn c n => cases hstep
  | _ =>
    obtain ⟨u, hu, rfl⟩ := Option.map_eq_some_iff.mp hstep
    exact .other (by simp) (by simp) hu

/-- **The rule of the connection**: what its own steps keep, as long as they meet `P`, is kept by
the steps of the two together. -/
lemma keeps {P : Sys → Action → Prop} {I : Sys → Prop}
    (hI : ∀ v b v', I v → P v b → v.step b = some v' → I v')
    (hanswer : ∀ v k o, P v (.answer k o)) (harrive : ∀ v c m, P v (.arriveMsg c m))
    {s s' : Looped} {a : Action} (hs : I s.sys) (ha : P s.sys a) (hstep : s.step a = some s') :
    I s'.sys := by
  cases moved_of_step hstep with
  | other _ _ h => exact hI _ _ _ hs ha h
  | failed h | sent hk h => exact hI _ _ _ hs (hanswer _ _ _) h
  | received hk hqueue hv h =>
    exact hI _ _ _ (hI _ _ _ hs (harrive _ _ _) hv) (hanswer _ _ _) h

end Looped

/-- The message that a `send` has put into the object. -/
def BackendCall.given (c : Cap) : BackendCall → Option Bytes
  | .send d m (.ok ()) => if d = c then some m else none
  | _ => none

/-! ## One channel -/

namespace Sys

/-- All that there is on a connection whose bootstrapped capability is a channel. -/
structure OneChannel (s : Sys) : Prop where
  plugin : s.plugin = none
  created : s.created = [(.channel, 0)]
  tasks : ∀ k x, s.tasks k = some x →
    (∃ msg t, x.call = .send (some 0) msg t) ∨ ∃ i, x.call = .recv i (some 0)

lemma oneChannel_init {cfg : Config} (hboot : cfg.boot = .channel) : OneChannel (init cfg) := by
  refine ⟨?_, ?_, ?_⟩ <;> simp [init, hboot, Bootstrap.kind]

lemma OneChannel.get {s : Sys} (h : OneChannel s) (hs : Sound s) {kind : Kind} {i : ℕ} {c : Cap}
    (hget : s.reg.get kind i = some c) : kind = .channel ∧ c = 0 := by
  have hc := ((hs.base.reg.get kind i c).mp hget).1
  rw [h.created] at hc
  cases i with
  | zero => simpa [eq_comm] using hc
  | succ i => simp at hc

/-- The call that a command is about is one on the channel. -/
lemma OneChannel.calls {s : Sys} (h : OneChannel s) (hs : Sound s) {c : Command} (hc : c ∈ s.queue)
    {call : Call} (hcall : s.calls c = some call) :
    (∃ msg t, call = .send (some 0) msg t) ∨ ∃ i, call = .recv i (some 0) := by
  have htarget : ∀ {kind i}, c.target = some (kind, i) →
      kind = .channel ∧ s.reg.get kind i = some 0 := by
    intro kind i ht
    obtain ⟨cap, -, hget⟩ := hs.target hc ht
    obtain ⟨hkind, rfl⟩ := h.get hs hget
    exact ⟨hkind, hget⟩
  cases c with
  | listen i v n t => cases (htarget rfl).1
  | connect i addr t => cases (htarget rfl).1
  | accept i t => cases (htarget rfl).1
  | connector i t => cases hcall
  | release i => cases hcall
  | send i msg t =>
    have hget : s.reg.channels i = some 0 := (htarget rfl).2
    obtain rfl := Option.some.inj hcall
    exact .inl ⟨msg, t, by rw [hget]⟩
  | recv i t =>
    have hget : s.reg.channels i = some 0 := (htarget rfl).2
    simp only [Sys.calls] at hcall
    split at hcall
    · obtain rfl := Option.some.inj hcall
      exact .inr ⟨i, by rw [hget]⟩
    · cases hcall
  | configurePrivateNet nf t => simp [Sys.calls, h.plugin] at hcall

lemma plugin_of_step {s s' : Sys} {a : Action} (hstep : s.step a = some s') :
    s'.plugin = s.plugin := by
  cases ha : isRemote a with
  | false => rw [(step_caller_rest ha hstep).1]
  | true =>
    cases a with
    | dequeue => rw [dequeue_rest hstep]
    | poll k => rw [poll_rest hstep]
    | resume k => rw [resume_rest hstep]
    | answer k o =>
      obtain ⟨call, r, u, -, -, -, rfl⟩ := answer_cases hstep
      rfl
    | arriveMsg c m | arriveConn c n =>
      obtain rfl := Option.some.inj hstep
      rfl
    | _ => exact absurd ha (by simp [isRemote])

/-- Nothing is created but through the capabilities that a channel does not have. -/
lemma OneChannel.created_of_step {s s' : Sys} {a : Action} (h : OneChannel s) (hs : Sound s)
    (hstep : s.step a = some s') : s'.created = s.created := by
  cases ha : isRemote a with
  | false => rw [(step_caller_rest ha hstep).1]
  | true =>
    cases a with
    | dequeue =>
      obtain ⟨cmd, rest, hq, hdeq⟩ := dequeued_of_dequeue hstep
      cases hdeq with
      | created ho => cases (h.get hs (show s.reg.get .transport _ = _ from ho)).1
      | closed => exact created_closeReply _ _
      | spawned hc hcall => rfl
      | received => exact created_onRecv _ _ _
      | released => exact created_onRelease _ _
      | refused => exact created_reply _ _ _
    | poll k => rw [poll_rest hstep]
    | answer k o =>
      obtain ⟨call, r, u, -, -, -, rfl⟩ := answer_cases hstep
      rfl
    | resume k =>
      cases resumed_of_resume hstep with
      | listened hk => rfl
      | created hk hnew =>
        obtain ⟨msg, t, hcall⟩ | ⟨i, hcall⟩ := h.tasks k _ hk <;> cases hcall <;> cases hnew
      | replied hk ht hid hr => exact created_reply _ _ _
      | received hk hx => exact created_completeRecv _ _ _
    | arriveMsg c m | arriveConn c n =>
      obtain rfl := Option.some.inj hstep
      rfl
    | _ => exact absurd ha (by simp [isRemote])

lemma step_oneChannel {s s' : Sys} {a : Action} (h : OneChannel s) (hs : Sound s)
    (hstep : s.step a = some s') : OneChannel s' where
  plugin := (plugin_of_step hstep).trans h.plugin
  created := (h.created_of_step hs hstep).trans h.created
  tasks := fun k x hk => by
    cases taskStep_of_step hstep hk with
    | kept hold => exact h.tasks k x hold
    | spawned hq hcall => exact h.calls hs (by simp [hq]) hcall
    | issued hold | answered hold => exact (h.tasks k _ hold :)
    | listened hold => obtain ⟨msg, t, hcall⟩ | ⟨i, hcall⟩ := h.tasks k _ hold <;> cases hcall

/-! ## What the object is given and gives -/

/-- The messages that sends have put into the object, in order. -/
def given (s : Sys) (c : Cap) : List Bytes := s.backend.filterMap (BackendCall.given c)

/-- The inbox changes only by an answer or an arrival. -/
lemma inbox_of_step {s s' : Sys} {a : Action} (hstep : s.step a = some s')
    (hanswer : ∀ k o, a ≠ .answer k o) (harrive : ∀ c m, a ≠ .arriveMsg c m) :
    s'.inbox = s.inbox := by
  cases ha : isRemote a with
  | false => rw [(step_caller_rest ha hstep).1]
  | true =>
    cases a with
    | dequeue => rw [dequeue_rest hstep]
    | poll k => rw [poll_rest hstep]
    | resume k => rw [resume_rest hstep]
    | answer k o => exact absurd rfl (hanswer k o)
    | arriveMsg c m => exact absurd rfl (harrive c m)
    | arriveConn c n =>
      obtain rfl := Option.some.inj hstep
      rfl
    | _ => exact absurd ha (by simp [isRemote])

lemma answer_failed {s u : Sys} {k : ℕ} {e : CapnpError} (h : s.answer k (.rpcErr e) = some u) :
    u.backend = s.backend ∧ u.inbox = s.inbox := by
  obtain ⟨call, r, v, -, -, hserve, rfl⟩ := answer_cases h
  have hv : v = s := by
    unfold serve at hserve
    split at hserve <;> simp_all
  subst hv
  exact ⟨rfl, rfl⟩

lemma answer_sent {s u : Sys} {k t : ℕ} {c : Cap} {msg : Bytes}
    (hk : s.tasks k = some ⟨.send (some c) msg t, .issued⟩) (h : s.answer k .ok = some u) :
    u.backend = s.backend ++ [.send c msg (.ok ())] ∧ u.inbox = s.inbox := by
  obtain ⟨call, r, v, hk', -, hserve, rfl⟩ := answer_cases h
  obtain rfl : .send (some c) msg t = call := by simpa [hk] using hk'
  obtain ⟨rfl, -⟩ := Prod.mk.inj (Option.some.inj hserve)
  exact ⟨rfl, rfl⟩

lemma answer_received {s u : Sys} {k i : ℕ} {c : Cap} {msg : Bytes} {rest : List Bytes}
    (hk : s.tasks k = some ⟨.recv i (some c), .issued⟩) (hinbox : s.inbox c = msg :: rest)
    (h : s.answer k .ok = some u) :
    u.backend = s.backend ++ [.recv c (.ok msg)] ∧ u.inbox = Function.update s.inbox c rest := by
  obtain ⟨call, r, v, hk', -, hserve, rfl⟩ := answer_cases h
  obtain rfl : .recv i (some c) = call := by simpa [hk] using hk'
  simp only [serve, hinbox] at hserve
  obtain ⟨rfl, -⟩ := Prod.mk.inj (Option.some.inj hserve)
  exact ⟨rfl, rfl⟩

end Sys

namespace Looped

/-- What was put into the loopback was taken out or is in its queue, in order. -/
structure Fifo (s : Looped) : Prop where
  inbox : ∀ c, s.sys.inbox c = []
  order : s.sys.given 0 = s.sys.pulled 0 ++ s.loopback.queue

lemma fifo_init (cfg : Config) : Fifo (init cfg) :=
  ⟨fun _ => rfl, by simp [init, Sys.init, Sys.given, Sys.pulled]⟩

lemma Fifo.congr {s s' : Looped} (h : Fifo s) (hbackend : s'.sys.backend = s.sys.backend)
    (hinbox : s'.sys.inbox = s.sys.inbox) (hloop : s'.loopback = s.loopback) : Fifo s' := by
  refine ⟨fun c => by rw [hinbox, h.inbox], ?_⟩
  have horder := h.order
  unfold Sys.given Sys.pulled at horder ⊢
  rw [hbackend, hloop, horder]

lemma step_fifo {s s' : Looped} {a : Action} (h : Fifo s) (hone : s.sys.OneChannel)
    (hstep : s.step a = some s') : Fifo s' := by
  have horder := h.order
  unfold Sys.given Sys.pulled at horder
  cases moved_of_step hstep with
  | other ha hm hu =>
    exact h.congr (Sys.unserved_of_step hu ha).1 (Sys.inbox_of_step hu ha hm) rfl
  | failed hu =>
    obtain ⟨hbackend, hinbox⟩ := Sys.answer_failed hu
    exact h.congr hbackend hinbox rfl
  | @sent k t o c msg u hk hu =>
    obtain ⟨hbackend, hinbox⟩ := Sys.answer_sent hk hu
    obtain rfl : c = 0 := by
      obtain ⟨m, t', hcall⟩ | ⟨i, hcall⟩ := hone.tasks k _ hk <;> cases hcall
      rfl
    refine ⟨fun c => by rw [hinbox, h.inbox], ?_⟩
    simp only [Sys.given, Sys.pulled, hbackend, List.filterMap_append, horder, Loopback.send]
    simp [BackendCall.given, BackendCall.pulled]
  | @received k i o c msg rest v u hk hqueue hv hu =>
    obtain ⟨htasks, harrived, hsame⟩ : v.tasks = s.sys.tasks ∧
        v.inbox = Function.update s.sys.inbox c [msg] ∧ v.backend = s.sys.backend := by
      obtain rfl := Option.some.inj hv
      exact ⟨rfl, by simp [h.inbox], rfl⟩
    have hnext : v.inbox c = [msg] := by simp [harrived]
    obtain ⟨hbackend, hinbox⟩ := Sys.answer_received (htasks ▸ hk) hnext hu
    obtain rfl : c = 0 := by
      obtain ⟨m, t', hcall⟩ | ⟨i, hcall⟩ := hone.tasks k _ hk <;> cases hcall
      rfl
    refine ⟨fun c => ?_, ?_⟩
    · rw [hinbox, harrived]
      by_cases hc : c = 0 <;> simp [hc, h.inbox]
    · simp only [Sys.given, Sys.pulled, hbackend, hsame, List.filterMap_append, horder, hqueue]
      simp [BackendCall.given, BackendCall.pulled]

/-! ## Every run -/

/-- What holds in every reachable state. -/
structure Inv (s : Looped) : Prop where
  orderly : s.sys.Orderly
  one : s.sys.OneChannel
  ledger : ∃ us, s.sys.Ledger us
  fifo : Fifo s

lemma inv_init {cfg : Config} (hboot : cfg.boot = .channel) : Inv (init cfg) where
  orderly :=
    have hrun : run Sys.step (Sys.init cfg) [] = some (Sys.init cfg) := rfl
    Sys.orderly_of_run hrun (by simp [init, Sys.init])
  one := Sys.oneChannel_init hboot
  ledger := ⟨[], Sys.ledger_init cfg⟩
  fifo := fifo_init cfg

lemma sys_step {v v' : Sys} {b : Action}
    (h : v.Orderly ∧ v.OneChannel ∧ ∃ us, v.Ledger us) (hstep : v.step b = some v') :
    v'.Orderly ∧ v'.OneChannel ∧ ∃ us, v'.Ledger us := by
  obtain ⟨ho, hone, us, hus⟩ := h
  have hone' := Sys.step_oneChannel hone ho.regular.sound hstep
  obtain ⟨vs, hvs⟩ := Sys.step_ledger hus ho.regular hstep
  exact ⟨Sys.step_orderly ho hstep (by simp [hone'.created]), hone', _, hvs⟩

/-- **The step lemma** of the two together. -/
lemma step_inv {s s' : Looped} {a : Action} (h : Inv s) (hstep : s.step a = some s') : Inv s' := by
  obtain ⟨ho, hone, hledger⟩ := keeps (P := fun _ _ => True)
    (fun v b v' hv _ hb => sys_step hv hb) (fun _ _ _ => trivial) (fun _ _ _ => trivial)
    ⟨h.orderly, h.one, h.ledger⟩ trivial hstep
  exact ⟨ho, hone, hledger, step_fifo h.fifo h.one hstep⟩

/-- No `recv` is dropped with a message in its reply slot. -/
def Kept (s : Looped) (a : Action) : Prop := s.sys.RecvKept 0 a

lemma step_delivery {s s' : Looped} {a : Action} (h : Inv s) (hd : s.sys.Delivery 0)
    (hkept : Kept s a) (hstep : s.step a = some s') : s'.sys.Delivery 0 := by
  refine (keeps (P := Sys.RecvKept 0)
    (I := fun v => v.Delivery 0 ∧ v.Orderly ∧ v.OneChannel ∧ ∃ us, v.Ledger us) ?_
    (fun _ _ _ => trivial) (fun _ _ _ => trivial) ⟨hd, h.orderly, h.one, h.ledger⟩ hkept hstep).1
  rintro v b v' ⟨hv, hone⟩ hP hb
  have hone' := sys_step hone hb
  have hr := hone.1.regular
  have hsound' := hone'.1.regular.sound
  exact ⟨Sys.step_delivery hr.sound hsound' hr.tickets hone.1.receives hP hb hv, hone'⟩

/-- **The connection is run as it is by itself**: a run of the two together is one of its own. -/
lemma sys_run {as : List Action} {s u : Looped} (hrun : run step s as = some u) :
    ∃ bs, run Sys.step s.sys bs = some u.sys ∧ ∀ t, .dropFut t ∈ bs → .dropFut t ∈ as := by
  induction as generalizing s with
  | nil =>
    obtain rfl : s = u := by simpa using hrun
    exact ⟨[], rfl, fun _ h => h⟩
  | cons a as ih =>
    obtain ⟨s', hs', hrun'⟩ := run_cons.mp hrun
    obtain ⟨bs, hbs, hdrop⟩ := ih hrun'
    have hone : ∃ cs, run Sys.step s.sys cs = some s'.sys ∧
        ∀ t, .dropFut t ∈ cs → a = .dropFut t := by
      cases moved_of_step hs' with
      | other _ _ h => exact ⟨[_], run_cons.mpr ⟨_, h, rfl⟩, by simp [eq_comm]⟩
      | failed h | sent hk h => exact ⟨[_], run_cons.mpr ⟨_, h, rfl⟩, by simp⟩
      | received hk hqueue hv h =>
        exact ⟨[_, _], run_cons.mpr ⟨_, hv, run_cons.mpr ⟨_, h, rfl⟩⟩, by simp⟩
    obtain ⟨cs, hcs, hdrop'⟩ := hone
    refine ⟨cs ++ bs, run_append.mpr ⟨_, hcs, hbs⟩, fun t ht => ?_⟩
    rcases List.mem_append.mp ht with ht | ht
    · exact hdrop' t ht ▸ List.mem_cons_self
    · exact List.mem_cons_of_mem _ (hdrop t ht)

/-- A step that starts nothing new uses up some of what there is to do. -/
lemma step_toDo {s s' : Looped} {a : Action} (h : Inv s) (hwinds : a.winds = true)
    (hstep : s.step a = some s') : s'.sys.toDo < s.sys.toDo := by
  have hr := h.orderly.regular
  cases moved_of_step hstep with
  | other _ _ hu => exact Sys.step_toDo hr hwinds hu
  | failed hu | sent hk hu => exact Sys.step_toDo hr rfl hu
  | @received k i o c msg rest v u hk hqueue hv hu =>
    obtain ⟨hv', -⟩ := sys_step ⟨h.orderly, h.one, h.ledger⟩ hv
    have hlt := Sys.step_toDo hv'.regular rfl hu
    have hsame : v.toDo = s.sys.toDo := by
      obtain rfl := Option.some.inj hv
      rfl
    exact hsame ▸ hlt

/-! ## Where nothing more can happen -/

/-- A step that no caller has to decide on, on a connection that does not fail. -/
def Runs (_ : Looped) (a : Action) : Prop := a.runs = true ∧ a.fails = false

/-- The next call at the object is answered. -/
lemma answers {s : Looped} (h : Inv s) {k : ℕ} {call : Call}
    (hk : s.sys.tasks k = some ⟨call, .issued⟩) : ∃ j s', s.step (.answer j .ok) = some s' := by
  have hlock := h.orderly.regular.sound.tasks.lock 0
  have hmem : k ∈ s.sys.lock 0 := by
    refine (hlock k).mpr ⟨call, hk, ?_⟩
    obtain ⟨m, t, hcall⟩ | ⟨i, hcall⟩ := h.one.tasks k _ hk <;> cases hcall <;> rfl
  obtain ⟨j, rest, hfirst⟩ : ∃ j rest, s.sys.lock 0 = j :: rest :=
    List.exists_cons_of_ne_nil (List.ne_nil_of_mem hmem)
  obtain ⟨call', hj, hmutex⟩ := (hlock j).mp (by simp [hfirst])
  have hholds : s.sys.holds j call' = true := by simp [Sys.holds, hmutex, hfirst]
  refine ⟨j, ?_⟩
  obtain ⟨m, t, hcall⟩ | ⟨i, hcall⟩ := h.one.tasks j _ hj
  · obtain rfl : call' = .send (some 0) m t := hcall
    simp [step, Outcome.isRpcErr, answer, hj, Sys.step, Sys.answer, hholds, Sys.serve]
  · obtain rfl : call' = .recv i (some 0) := hcall
    cases hqueue : s.loopback.queue with
    | nil =>
      simp [step, Outcome.isRpcErr, answer, hj, Loopback.recv, hqueue, Sys.step, Sys.answer, hholds,
        Sys.serve]
    | cons msg rest' =>
      simp [step, Outcome.isRpcErr, answer, hj, Loopback.recv, hqueue, run_cons, Sys.step,
        Sys.answer, Sys.holds, hfirst, hmutex, Sys.serve, h.fifo.inbox]

/-- The connection goes on by itself. -/
lemma step_of_sys {s : Looped} {a : Action} {u : Sys} (ha : a.runs = true)
    (hne : ∀ k o, a ≠ .answer k o) (hu : s.sys.step a = some u) :
    s.step a = some { s with sys := u } := by
  cases a with
  | answer k o => exact absurd rfl (hne k o)
  | wake t | enqueue t | resolve t | dequeue | poll k | resume k => simp [step, hu]
  | _ => cases ha

/-- The two together can do nothing more where the connection by itself cannot. -/
lemma stuck_iff {s : Looped} (h : Inv s) :
    Stuck step Runs s ↔ Stuck Sys.step (fun _ a => a.runs = true) s.sys := by
  constructor
  · intro hstuck a u ha hu
    by_cases hanswer : ∃ k o, a = .answer k o
    · obtain ⟨k, o, rfl⟩ := hanswer
      obtain ⟨call, r, v, hk, -⟩ := Sys.answer_cases hu
      obtain ⟨j, s', hs'⟩ := answers h hk
      exact hstuck _ s' ⟨rfl, rfl⟩ hs'
    · have hne : ∀ k o, a ≠ .answer k o := fun k o ha => hanswer ⟨k, o, ha⟩
      refine hstuck a _ ⟨ha, ?_⟩ (step_of_sys ha hne hu)
      cases a with
      | answer k o => exact absurd rfl (hne k o)
      | _ => rfl
  · intro hstuck a s' ha hstep
    cases moved_of_step hstep with
    | other _ _ hu => exact hstuck _ _ ha.1 hu
    | failed hu | sent hk hu => exact hstuck _ _ rfl hu
    | received hk hqueue hv hu => simp [Sys.tasks_of_stuck hstuck h.orderly.attended] at hk

/-- The books tell what was put into the loopback. -/
lemma given_of_booked {s : Sys} {us : List (ℕ × BackendCall)} (h : s.Booked us) :
    us.filterMap (fun x => x.2.given 0) = s.given 0 := by
  have hrecv : ∀ b : BackendCall, b.isRecv = true → b.given 0 = none := by
    rintro (_ | _ | _ | _ | ⟨c, r⟩ | _) hb <;> first | rfl | cases hb
  calc us.filterMap (fun x => x.2.given 0) = (us.map Prod.snd).filterMap (BackendCall.given 0) :=
        by rw [List.filterMap_map]; rfl
    _ = (s.backend.filter fun b => !b.isRecv).filterMap (BackendCall.given 0) := by rw [h.backend]
    _ = s.given 0 := by
      rw [List.filterMap_filter, Sys.given]
      refine List.filterMap_congr fun b _ => ?_
      cases hb : b.isRecv <;> simp [hrecv, hb]

/-- **A served loopback.**  On a connection that serves a loopback, in every run: each message in
the loopback was put there for one call of `send`; what was put there is what was taken out and
what is in its queue, in order; and while the channel lives and no `recv` is dropped with a message
in its reply slot, what was taken out is what `recv` has returned and what is on its way, in order.
As soon as the callers start nothing new the run is bounded, and where nothing more can happen on a
connection that does not fail, every call that was not dropped has resolved: none waits for the
other side. -/
theorem loopback_serves {cfg : Config} (hboot : cfg.boot = .channel) {as bs : List Action}
    {s u : Looped} (hrun : run step (init cfg) as = some s)
    (hwinds : EachStep step (fun _ a => a.winds = true) s bs) (hrun' : run step s bs = some u) :
    (∃ us, s.sys.Booked us ∧ us.filterMap (fun x => x.2.given 0) = s.sys.given 0) ∧
      s.sys.given 0 = s.sys.pulled 0 ++ s.loopback.queue ∧
      (EachStep step Kept (init cfg) as → 0 ∉ s.sys.released → s.sys.given 0 = s.sys.returned 0 ++
        s.sys.slots 0 ++ s.sys.buffered 0 ++ s.sys.inTransit 0 ++ s.loopback.queue) ∧
      bs.length + u.sys.toDo ≤ s.sys.toDo ∧
      (Stuck step Runs u → u.sys.queue = [] ∧ (∀ k, u.sys.tasks k = none) ∧
        ∀ t f, s.sys.futs t = some f → f.status.live → .dropFut t ∉ bs →
          ∃ op r, u.sys.futs t = some ⟨op, .done r⟩) := by
  have hs : Inv s := run_invariant (fun _ _ _ h hstep => step_inv h hstep) (inv_init hboot) hrun
  have hu : Inv u := run_invariant (fun _ _ _ h hstep => step_inv h hstep) hs hrun'
  refine ⟨?_, hs.fifo.order, fun hkept hlive => ?_, ?_, fun hstuck => ?_⟩
  · obtain ⟨us, hus⟩ := hs.ledger
    exact ⟨us, hus.toBooked, given_of_booked hus.toBooked⟩
  · have hd : s.sys.Delivery 0 := (run_induction (I := fun v => Inv v ∧ v.sys.Delivery 0)
      (fun v a v' hv hP hstep => ⟨step_inv hv.1 hstep, step_delivery hv.1 hv.2 hP hstep⟩)
      ⟨inv_init hboot, Sys.delivery_init cfg 0⟩ hkept hrun).2
    rw [hs.fifo.order, hd.channel 0 (by simp [hs.one.created]) hlive]
  · exact length_add_rank_le (I := Inv) (fun v a v' hv hP hstep =>
      ⟨step_inv hv hstep, step_toDo hv hP hstep⟩) hs hwinds hrun'
  · have hsys := (stuck_iff hu).mp hstuck
    have ho := hu.orderly
    refine ⟨Sys.queue_of_stuck hsys, Sys.tasks_of_stuck hsys ho.attended, fun t f hf hl ht => ?_⟩
    obtain ⟨cs, hcs, hdrop⟩ := sys_run hrun'
    have hne : f.status ≠ .dropped := by
      intro hd
      rw [hd] at hl
      cases hl
    obtain ⟨⟨op, st⟩, hg, hst⟩ := Sys.not_dropped_of_run hs.orderly hcs (by simp [hu.one.created])
      (fun hmem => ht (hdrop t hmem)) ⟨f, hf, hne⟩
    have hdead := Sys.futs_of_stuck hsys ho.attended ho.regular.sound.base.callers ho.receives hg
    cases st with
    | done r => exact ⟨op, r, hg⟩
    | dropped => exact absurd rfl hst
    | _ => cases hdead

/-- A message is sent, and a `recv` is dropped while the loopback has not answered; the next `recv`
gets the message. -/
theorem loopback_serves_dropped :
    let first := [.send 0 [7], .enqueue 2, .dequeue, .poll 3, .answer 3 .ok, .resume 3, .resolve 2,
      .recv 0, .enqueue 4, .dequeue, .poll 5, .dropFut 4, .recv 0]
    let rest := [.enqueue 6, .dequeue, .answer 5 .ok, .resume 5, .resolve 6]
    ∃ s u, run step (init Sys.channelConfig) first = some s ∧ run step s rest = some u ∧
      s.sys.given 0 = [[7]] ∧ rest.length + u.sys.toDo ≤ s.sys.toDo ∧ u.sys.returned 0 = [[7]] ∧
      ∃ op r, u.sys.futs 6 = some ⟨op, .done r⟩ := by
  intro first rest
  obtain ⟨s, u, hrun, hwinds, hrun', hgiven, hreturned, hqueue, htasks, hfuts, hf6⟩ : ∃ s u,
      run step (init Sys.channelConfig) first = some s ∧
      EachStep step (fun _ a => a.winds = true) s rest ∧ run step s rest = some u ∧
      s.sys.given 0 = [[7]] ∧ u.sys.returned 0 = [[7]] ∧ u.sys.queue = [] ∧
      (∀ k < u.sys.fresh, u.sys.tasks k = none) ∧
      (∀ t < u.sys.fresh, (u.sys.futs t).all fun f => !f.status.live) ∧
      s.sys.futs 6 = some ⟨.recv 0 0, .sending⟩ :=
    ⟨_, _, rfl, by decide, Option.eq_some_of_isSome (by decide), by decide, by decide, by decide,
      by decide, by decide, by decide⟩
  obtain ⟨-, -, -, hle, hend⟩ := loopback_serves rfl hrun hwinds hrun'
  have hu : Inv u := run_invariant (fun _ _ _ h hstep => step_inv h hstep) (inv_init rfl)
    (run_append.mpr ⟨s, hrun, hrun'⟩)
  have hstuck := (stuck_iff hu).mpr (Sys.stuck_of_quiet hu.orderly.regular hqueue htasks hfuts)
  exact ⟨s, u, hrun, hrun', hgiven, hle, hreturned, (hend hstuck).2.2 6 _ hf6 rfl (by decide)⟩

end Looped

end FungiTransport
