import FungiTransport.Capnp.Ownership

/-!
# Tasks and calls

A task has captured the capability that its command was about, and that capability is one that
was created; the object that a task creates is named by the task, so created capabilities are
pairwise distinct; the calls at the mutex of an object are those that were issued on it and not
answered (`Sys.Tasks`).  With the callers, the registry and the book of ids this makes up what
holds in every reachable state (`Sys.Sound`).
-/

namespace FungiTransport

open Lib

/-- What a task has captured from the registry. -/
def Call.captured : Call → Option (Kind × Option Cap)
  | .listen c _ _ _ => some (.transport, c)
  | .connect c _ _ => some (.connector, c)
  | .accept c _ => some (.listener, c)
  | .send c _ _ | .recv _ c => some (.channel, c)
  | .onionAddr _ _ | .configure _ _ _ => none

/-- A call of a backend that took something from its peer. -/
def BackendCall.takes : BackendCall → Bool
  | .recv _ (.ok _) | .accept _ (.ok _) => true
  | .recv _ (.error _) | .accept _ (.error _) | .listen _ _ | .connect _ _ _ | .send _ _ _
  | .configure _ _ => false

namespace Sys

/-- A task has its capability, and what it creates goes by its own name. -/
structure TaskOk (s : Sys) (k : ℕ) (x : Task) : Prop where
  lt : k < s.fresh
  captured : ∀ kind o, x.call.captured = some (kind, o) →
    ∃ (c : Cap) (i : ℕ), o = some c ∧ s.created[i]? = some (kind, c)
  recv : ∀ (i : ℕ) o, x.call = .recv i o → ∃ c, o = some c ∧ s.created[i]? = some (.channel, c)
  onionAddr : ∀ c t, x.call = .onionAddr c t → c = k
  answered : ∀ c, x.stage = .answered (.ok (.cap c)) → c = k

/-- Tasks, capabilities and mutexes are in order. -/
structure Tasks (s : Sys) : Prop where
  ok : ∀ k x, s.tasks k = some x → TaskOk s k x
  caps : ∀ (i : ℕ) kind c, s.created[i]? = some (kind, c) → c < s.fresh ∧ s.tasks c = none
  distinct : ∀ (i j : ℕ) kind kind' c, s.created[i]? = some (kind, c) →
    s.created[j]? = some (kind', c) → i = j
  lock : ∀ c k, k ∈ s.lock c ↔ ∃ call, s.tasks k = some ⟨call, .issued⟩ ∧ call.mutex = some c
  nodup : ∀ c, (s.lock c).Nodup

lemma TaskOk.mono {s s' : Sys} {k : ℕ} {x : Task} (h : TaskOk s k x) (hfresh : s.fresh ≤ s'.fresh)
    (hcreated : s.created <+: s'.created) : TaskOk s' k x where
  lt := h.lt.trans_le hfresh
  captured := fun kind o ho => by
    obtain ⟨c, i, hc, hi⟩ := h.captured kind o ho
    exact ⟨c, i, hc, getElem?_of_isPrefix hcreated hi⟩
  recv := fun i o ho => by
    obtain ⟨c, hc, hi⟩ := h.recv i o ho
    exact ⟨c, hc, getElem?_of_isPrefix hcreated hi⟩
  onionAddr := h.onionAddr
  answered := h.answered

lemma Tasks.congr {s s' : Sys} (h : Tasks s) (hfresh : s.fresh ≤ s'.fresh)
    (htasks : s'.tasks = s.tasks) (hlock : s'.lock = s.lock) (hcreated : s'.created = s.created) :
    Tasks s' where
  ok := fun k x hk => (h.ok k x (htasks ▸ hk)).mono hfresh (hcreated ▸ List.prefix_rfl)
  caps := fun i kind c hc => by
    obtain ⟨hlt, hnone⟩ := h.caps i kind c (hcreated ▸ hc)
    exact ⟨hlt.trans_le hfresh, htasks ▸ hnone⟩
  distinct := by rw [hcreated]; exact h.distinct
  lock := by rw [htasks, hlock]; exact h.lock
  nodup := by rw [hlock]; exact h.nodup

lemma Tasks.tasks_fresh {s : Sys} (h : Tasks s) : s.tasks s.fresh = none := by
  by_contra hne
  obtain ⟨x, hx⟩ := Option.ne_none_iff_exists'.mp hne
  exact absurd (h.ok _ x hx).lt (lt_irrefl _)

/-- The registry and the created capabilities change together when an id is allocated. -/
lemma Tasks.install {s : Sys} (h : Tasks s) (kind : Kind) {c : Cap} (hlt : c < s.fresh)
    (hnone : s.tasks c = none) (hnew : ∀ (i : ℕ) kind', s.created[i]? ≠ some (kind', c)) :
    Tasks (s.install kind c) where
  ok := fun k x hk => (h.ok k x hk).mono le_rfl (List.prefix_append _ _)
  caps := fun i kind' d hd => by
    rcases getElem?_concat_eq_some.mp hd with hd | ⟨-, hd⟩
    · exact h.caps i kind' d hd
    · obtain ⟨-, rfl⟩ := Prod.mk.inj hd
      exact ⟨hlt, hnone⟩
  distinct := fun i j kind₁ kind₂ d hi hj => by
    rcases getElem?_concat_eq_some.mp hi with hi | ⟨hi, hd⟩ <;>
      rcases getElem?_concat_eq_some.mp hj with hj | ⟨hj, hd'⟩
    · exact h.distinct i j kind₁ kind₂ d hi hj
    · obtain ⟨-, rfl⟩ := Prod.mk.inj hd'
      exact absurd hi (hnew i kind₁)
    · obtain ⟨-, rfl⟩ := Prod.mk.inj hd
      exact absurd hj (hnew j kind₂)
    · exact hi.trans hj.symm
  lock := h.lock
  nodup := h.nodup

/-- A task ends that is not at a mutex. -/
lemma Tasks.remove {s : Sys} (h : Tasks s) {k : ℕ} {call : Call} {st : Stage}
    (hk : s.tasks k = some ⟨call, st⟩) (hst : st ≠ .issued) : Tasks (s.setTask k none) where
  ok := fun j x hj => by
    rcases update_eq_some hj with ⟨-, hx⟩ | ⟨-, hj'⟩
    · exact absurd hx (by simp)
    · exact (h.ok j x hj').mono le_rfl List.prefix_rfl
  caps := fun i kind c hc => by
    obtain ⟨hlt, hnone⟩ := h.caps i kind c hc
    refine ⟨hlt, ?_⟩
    by_cases hck : c = k <;> simp [setTask, hck, hnone]
  distinct := h.distinct
  lock := fun c j => by
    refine (h.lock c j).trans (exists_congr fun call' => and_congr_left fun _ => ?_)
    by_cases hjk : j = k
    · subst hjk
      simp [setTask, hk, hst]
    · simp [setTask, Function.update_of_ne hjk]
  nodup := h.nodup

/-- A task is spawned. -/
lemma Tasks.spawn {s : Sys} (h : Tasks s) {call : Call}
    (hok : TaskOk (s.spawn call) s.fresh ⟨call, .spawned⟩) : Tasks (s.spawn call) where
  ok := fun j x hj => by
    rcases update_eq_some hj with ⟨rfl, hx⟩ | ⟨-, hj'⟩
    · exact Option.some.inj hx ▸ hok
    · exact (h.ok j x hj').mono (Nat.le_succ _) List.prefix_rfl
  caps := fun i kind c hc => by
    obtain ⟨hlt, hnone⟩ := h.caps i kind c hc
    have hne : c ≠ s.fresh := hlt.ne
    exact ⟨hlt.trans (Nat.lt_succ_self _), by simpa [Sys.spawn, Function.update_of_ne hne] using hnone⟩
  distinct := h.distinct
  lock := fun c j => by
    refine (h.lock c j).trans (exists_congr fun call' => and_congr_left fun _ => ?_)
    by_cases hj : j = s.fresh
    · subst hj
      simp [Sys.spawn, h.tasks_fresh]
    · simp [Sys.spawn, Function.update_of_ne hj]
  nodup := h.nodup

/-- What changes a task, not its name, keeps the created capabilities apart from it. -/
lemma caps_setTask {s : Sys} (h : Tasks s) {k : ℕ} {x y : Task} (hk : s.tasks k = some x) (i : ℕ)
    (kind : Kind) (c : Cap) (hc : s.created[i]? = some (kind, c)) :
    c < s.fresh ∧ Function.update s.tasks k (some y) c = none := by
  obtain ⟨hlt, hnone⟩ := h.caps i kind c hc
  have hck : c ≠ k := fun hck => by simp [hck, hk] at hnone
  exact ⟨hlt, by simpa [Function.update_of_ne hck] using hnone⟩

/-- The call of a task is made. -/
lemma Tasks.issue {s : Sys} (h : Tasks s) {k : ℕ} {call : Call}
    (hk : s.tasks k = some ⟨call, .spawned⟩) : Tasks (s.issue k call) := by
  have hok := h.ok k _ hk
  have hnew : TaskOk s k ⟨call, .issued⟩ :=
    ⟨hok.lt, hok.captured, hok.recv, hok.onionAddr, by simp⟩
  have hoks : ∀ j x, Function.update s.tasks k (some ⟨call, .issued⟩) j = some x → TaskOk s j x := by
    intro j x hj
    rcases update_eq_some hj with ⟨rfl, hx⟩ | ⟨-, hj'⟩
    · exact Option.some.inj hx ▸ hnew
    · exact h.ok j x hj'
  have hout : ∀ c, k ∉ s.lock c := fun c hmem => by
    obtain ⟨call', hcall', -⟩ := (h.lock c k).mp hmem
    simp [hk] at hcall'
  unfold Sys.issue
  split
  · rename_i o hmutex
    refine ⟨fun j x hj => (hoks j x hj).mono le_rfl List.prefix_rfl, fun i kind c hc =>
      caps_setTask h hk i kind c hc, h.distinct, fun c j => ?_, fun c => ?_⟩
    · by_cases hjk : j = k
      · subst hjk
        by_cases hco : c = o
        · subst hco
          simp [setTask, hmutex]
        · have hoc : ¬ o = c := fun h => hco h.symm
          simp [setTask, Function.update_of_ne hco, hout c, hmutex, hoc]
      · have hlock := h.lock c j
        by_cases hco : c = o
        · subst hco
          simpa [setTask, Function.update_of_ne hjk, hjk] using hlock
        · simpa [setTask, Function.update_of_ne hjk, Function.update_of_ne hco] using hlock
    · by_cases hco : c = o
      · subst hco
        simp only [Function.update_self]
        exact List.nodup_append.mpr ⟨h.nodup c, by simp, fun a ha b hb => by
          rintro rfl
          obtain rfl := List.mem_singleton.mp hb
          exact hout c ha⟩
      · simpa [Function.update_of_ne hco] using h.nodup c
  · rename_i hmutex
    refine ⟨fun j x hj => (hoks j x hj).mono le_rfl List.prefix_rfl, fun i kind c hc =>
      caps_setTask h hk i kind c hc, h.distinct, fun c j => ?_, h.nodup⟩
    by_cases hjk : j = k
    · subst hjk
      simp [setTask, hout c, hmutex]
    · simpa [setTask, Function.update_of_ne hjk] using h.lock c j

/-- A call is answered and leaves the mutex of its object. -/
lemma Tasks.answered {s : Sys} (h : Tasks s) {k : ℕ} {call : Call}
    (hk : s.tasks k = some ⟨call, .issued⟩) {r : Except CapnpError Answer}
    (hr : ∀ c, r = .ok (.cap c) → c = k) (lock : Cap → List ℕ)
    (hlock : ∀ c, lock c = if call.mutex = some c then (s.lock c).erase k else s.lock c) :
    Tasks { s.setTask k (some ⟨call, .answered r⟩) with lock := lock } := by
  have hok := h.ok k _ hk
  have hnew : TaskOk s k ⟨call, .answered r⟩ :=
    ⟨hok.lt, hok.captured, hok.recv, hok.onionAddr, fun c hc => hr c (by simpa using hc)⟩
  refine ⟨fun j x hj => ?_, fun i kind c hc => caps_setTask h hk i kind c hc, h.distinct,
    fun c j => ?_, fun c => ?_⟩
  · rcases update_eq_some hj with ⟨rfl, hx⟩ | ⟨-, hj'⟩
    · exact (Option.some.inj hx ▸ hnew).mono le_rfl List.prefix_rfl
    · exact (h.ok j x hj').mono le_rfl List.prefix_rfl
  · have hmem := h.lock c j
    rw [show ({ s.setTask k (some ⟨call, .answered r⟩) with lock := lock } : Sys).lock c = lock c
      from rfl, hlock c]
    by_cases hjk : j = k
    · subst hjk
      by_cases hm : call.mutex = some c
      · simp [setTask, hm, (h.nodup c).mem_erase_iff]
      · have hout : j ∉ s.lock c := fun hj => by
          obtain ⟨call', hcall', hm'⟩ := hmem.mp hj
          simp [hk] at hcall'
          exact hm (hcall' ▸ hm')
        simp [setTask, hm, hout]
    · have herase : ∀ l : List ℕ, j ∈ l.erase k ↔ j ∈ l := fun l => List.mem_erase_of_ne hjk
      split <;> simpa [setTask, Function.update_of_ne hjk, herase] using hmem
  · rw [show ({ s.setTask k (some ⟨call, .answered r⟩) with lock := lock } : Sys).lock c = lock c
      from rfl, hlock c]
    split
    · exact (h.nodup c).erase k
    · exact h.nodup c

/-! ## Every reachable state -/

/-- What holds in every reachable state. -/
structure Sound (s : Sys) : Prop where
  base : Base s
  wf : s.book.WF
  tasks : Tasks s

lemma Sound.mapped {s : Sys} (h : Sound s) {k : Kind} {i : ℕ} {c : Cap}
    (hc : s.created[i]? = some (k, c)) (hi : i ∉ s.released) : s.reg.get k i = some c :=
  (h.base.reg.get k i c).mpr ⟨hc, hi⟩

/-- **A command finds its capability**: when it is at the head of the queue, the capability that
was created under its id is in the map of its kind. -/
lemma Sound.target {s : Sys} (h : Sound s) {c : Command} (hc : c ∈ s.queue) {k : Kind} {i : ℕ}
    (ht : c.target = some (k, i)) :
    ∃ cap, s.created[i]? = some (k, cap) ∧ s.reg.get k i = some cap := by
  obtain ⟨cap, hcap⟩ := (h.base.callers.queue c hc).typed k i ht
  have hentry : Entry.use i ∈ s.book.queue := by
    refine List.mem_filterMap.mpr ⟨c, hc, ?_⟩
    cases c <;> simp_all [Command.entry, Command.target]
  exact ⟨cap, hcap, h.mapped hcap (h.wf.queued _ hentry).2⟩

/-- What the actor looks up for a command is what the task captures. -/
lemma captured_of {s : Sys} {c : Command} {call : Call} {k : Kind} {i : ℕ}
    (hcall : call.captured = some (k, s.reg.get k i)) (ht : c.target = some (k, i)) :
    ∀ kind o, call.captured = some (kind, o) →
      ∃ i, c.target = some (kind, i) ∧ o = s.reg.get kind i := by
  intro kind o ho
  rw [hcall] at ho
  obtain ⟨rfl, rfl⟩ := Prod.mk.inj (Option.some.inj ho)
  exact ⟨i, ht, rfl⟩

/-- A task for a command at the head of the queue has its capability. -/
lemma Sound.spawn {s : Sys} (h : Sound s) {c : Command} (hc : c ∈ s.queue) {q : List Command}
    {call : Call} (hcap : ∀ kind o, call.captured = some (kind, o) →
      ∃ i, c.target = some (kind, i) ∧ o = s.reg.get kind i)
    (hrecv : ∀ i o, call = .recv i o → c.target = some (.channel, i))
    (honion : ∀ d t, call ≠ .onionAddr d t) {f : ℕ → Option Fut} {g : Registry} :
    Tasks ({ s with queue := q, futs := f, reg := g }.spawn call) := by
  have hs : Tasks { s with queue := q, futs := f, reg := g } := h.tasks.congr le_rfl rfl rfl rfl
  refine hs.spawn ⟨Nat.lt_succ_self _, fun kind o ho => ?_, fun i o ho => ?_,
    fun d t hd => absurd hd (honion d t), by simp⟩
  · obtain ⟨i, hi, rfl⟩ := hcap kind o ho
    obtain ⟨cap, hcreated, hget⟩ := h.target hc hi
    exact ⟨cap, i, hget, hcreated⟩
  · have ho' : call = .recv i o := ho
    obtain ⟨cap, hcreated, hget⟩ := h.target hc (hrecv i o ho')
    obtain ⟨j, hj, rfl⟩ := hcap .channel o (by rw [ho', Call.captured])
    obtain ⟨-, rfl⟩ : Kind.channel = Kind.channel ∧ i = j := by
      rw [hrecv i _ ho'] at hj
      exact Prod.mk.inj (Option.some.inj hj)
    exact ⟨cap, hget, hcreated⟩

lemma tasks_dequeue {s s' : Sys} (h : Sound s) (hstep : s.dequeue = some s') : Tasks s' := by
  obtain ⟨c, rest, hq, hdeq⟩ := dequeued_of_dequeue hstep
  have hc : c ∈ s.queue := hq ▸ List.mem_cons_self
  have hpop : Tasks { s with queue := rest } := h.tasks.congr le_rfl rfl rfl rfl
  cases hdeq with
  | @created i t o ho =>
    have hfree : s.tasks s.fresh = none := h.tasks.tasks_fresh
    have hnext : Tasks { s with queue := rest, fresh := s.fresh + 1 } :=
      h.tasks.congr (Nat.le_succ _) rfl rfl rfl
    have hinst := hnext.install .connector (c := s.fresh) (Nat.lt_succ_self _) hfree
      fun i kind hi => absurd (h.tasks.caps i kind _ hi).1 (lt_irrefl _)
    obtain ⟨f, hf⟩ := reply_eq ({ s with queue := rest, fresh := s.fresh + 1 }.install
      .connector s.fresh) t (.connector s.reg.allocId.1)
    exact hf ▸ hinst.congr le_rfl rfl rfl rfl
  | @closed i t =>
    obtain ⟨f, hf⟩ := closeReply_eq { s with queue := rest } t
    exact hf ▸ hpop.congr le_rfl rfl rfl rfl
  | spawned hne hcall =>
    cases c with
    | listen i p n t =>
      obtain rfl := Option.some.inj hcall
      exact h.spawn hc (captured_of (k := .transport) rfl rfl) (by simp) (by simp)
    | connect i a t =>
      obtain rfl := Option.some.inj hcall
      exact h.spawn hc (captured_of (k := .connector) rfl rfl) (by simp) (by simp)
    | accept i t =>
      obtain rfl := Option.some.inj hcall
      exact h.spawn hc (captured_of (k := .listener) rfl rfl) (by simp) (by simp)
    | send i m t =>
      obtain rfl := Option.some.inj hcall
      exact h.spawn hc (captured_of (k := .channel) rfl rfl) (by simp) (by simp)
    | recv i t => exact absurd rfl (hne i t)
    | configurePrivateNet nf t =>
      obtain ⟨plugin, -, rfl⟩ := Option.map_eq_some_iff.mp hcall
      exact h.spawn hc (by simp [Call.captured]) (by simp) (by simp)
    | connector i t | release i => exact absurd hcall (by simp [calls])
  | @received i t =>
    obtain ⟨f, g, heq | heq⟩ := onRecv_eq { s with queue := rest } i t <;> rw [heq]
    · exact hpop.congr le_rfl rfl rfl rfl
    · exact h.spawn hc (captured_of (k := .channel) rfl rfl) (by simp [Command.target]) (by simp)
  | @released i =>
    obtain ⟨f, hf⟩ := onRelease_eq { s with queue := rest } i
    exact hf ▸ hpop.congr le_rfl rfl rfl rfl
  | @refused nf t =>
    obtain ⟨f, hf⟩ := reply_eq { s with queue := rest } t (.configure (.error .unreachable))
    exact hf ▸ hpop.congr le_rfl rfl rfl rfl

lemma Tasks.reply {s : Sys} (h : Tasks s) (t : ℕ) (r : Reply) : Tasks (s.reply t r) := by
  obtain ⟨f, hf⟩ := reply_eq s t r
  exact hf ▸ h.congr le_rfl rfl rfl rfl

lemma Tasks.completeRecv {s : Sys} (h : Tasks s) (i : ℕ) (result : Except RecvError Bytes) :
    Tasks (s.completeRecv i result) := by
  obtain ⟨f, g, hfg⟩ := completeRecv_eq s i result
  exact hfg ▸ h.congr le_rfl rfl rfl rfl

lemma tasks_poll {s s' : Sys} (h : Tasks s) {k : ℕ} (hstep : s.poll k = some s') : Tasks s' := by
  cases polled_of_poll hstep with
  | issued hk => exact h.issue hk
  | replied hk ht hid hr => exact (h.remove hk (by simp)).reply _ _
  | received hk => exact (h.remove hk (by simp)).completeRecv _ _

/-- The server names the object that a call creates after the call's task. -/
lemma serve_cap {s s' : Sys} {k : ℕ} {call : Call} {o : Outcome} {r : Except CapnpError Answer}
    (h : s.serve k call o = some (s', r)) {c : Cap} (hr : r = .ok (.cap c)) : c = k := by
  subst hr
  unfold serve at h
  dsimp only at h
  repeat' split at h
  all_goals simp_all

/-- An answer that took nothing from a peer. -/
structure Untaken (s u : Sys) (call : Call) (r : Except CapnpError Answer) : Prop where
  msg : ∀ m, r ≠ .ok (.msg m)
  accept : ∀ c t, call = .accept c t → ∃ e, r = .error e
  inbox : u.inbox = s.inbox
  inbound : u.inbound = s.inbound
  serves : u.serves = s.serves
  backend : ∃ bs, u.backend = s.backend ++ bs ∧ ∀ b ∈ bs, b.takes = false ∧
    ∀ c x, b = .recv c x → ∃ j, call = .recv j (some c)

/-- The server's answer takes a message, or a connection, or nothing from a peer. -/
lemma serve_cases {s u : Sys} {k : ℕ} {call : Call} {out : Outcome} {r : Except CapnpError Answer}
    (h : s.serve k call out = some (u, r)) :
    (∃ j c m rest, call = .recv j (some c) ∧ s.inbox c = m :: rest ∧ r = .ok (.msg m) ∧
        u = { s.log (.recv c (.ok m)) with inbox := Function.update s.inbox c rest }) ∨
      (∃ c t n rest, call = .accept (some c) t ∧ s.inbound c = n :: rest ∧ r = .ok (.cap k) ∧
        u = { s.log (.accept c (.ok n)) with
          inbound := Function.update s.inbound c rest
          serves := Function.update s.serves k (some n) }) ∨
      Untaken s u call r := by
  have hnone : ∀ {x}, (∀ m, x ≠ .ok (.msg m)) → (∀ c t, call = .accept c t → ∃ e, x = .error e) →
      Untaken s s call x := fun hm ha =>
    ⟨hm, ha, rfl, rfl, rfl, [], (List.append_nil _).symm, by simp⟩
  have hlog : ∀ {x v} (b : BackendCall), v.backend = s.backend ++ [b] → v.inbox = s.inbox →
      v.inbound = s.inbound → v.serves = s.serves → b.takes = false →
      (∀ c y, b = .recv c y → ∃ j, call = .recv j (some c)) → (∀ m, x ≠ .ok (.msg m)) →
      (∀ c t, call = .accept c t → ∃ e, x = .error e) → Untaken s v call x :=
    fun b hb hi hin hs ht hr hm ha => ⟨hm, ha, hi, hin, hs, [b], hb, by simpa using ⟨ht, hr⟩⟩
  unfold serve at h
  dsimp only at h
  repeat' split at h
  all_goals first
    | obtain ⟨rfl, rfl⟩ := Prod.mk.inj (Option.some.inj h)
    | exact absurd h (by simp)
  all_goals first
    | exact .inl ⟨_, _, _, _, rfl, ‹_›, rfl, rfl⟩
    | exact .inr (.inl ⟨_, _, _, _, rfl, ‹_›, rfl, rfl⟩)
    | exact .inr (.inr (hlog _ rfl rfl rfl rfl rfl (by simp) (by simp) (by simp)))
    | exact .inr (.inr (hnone (by simp) (by simp)))

lemma tasks_answer {s s' : Sys} (h : Tasks s) {k : ℕ} {o : Outcome}
    (hstep : s.answer k o = some s') : Tasks s' := by
  obtain ⟨call, r, u, hk, -, hserve, rfl⟩ := answer_cases hstep
  exact (h.answered hk (fun c => serve_cap hserve) _ fun _ => rfl).congr le_rfl rfl rfl rfl

/-- A listener was created, and its address is asked for. -/
lemma Tasks.onionAddr {s : Sys} (h : Tasks s) {k : ℕ} {call : Call} {r : Except CapnpError Answer}
    (hk : s.tasks k = some ⟨call, .answered r⟩) (t : ℕ) :
    Tasks (s.setTask k (some ⟨.onionAddr k t, .issued⟩)) where
  ok := fun j x hj => by
    rcases update_eq_some hj with ⟨rfl, hx⟩ | ⟨-, hj'⟩
    · obtain rfl := Option.some.inj hx
      exact ⟨(h.ok j _ hk).lt, by simp [Call.captured], by simp, by simp_all, by simp⟩
    · exact (h.ok j x hj').mono le_rfl List.prefix_rfl
  caps := fun i kind c hc => caps_setTask h hk i kind c hc
  distinct := h.distinct
  lock := fun c j => by
    refine (h.lock c j).trans (exists_congr fun call' => ?_)
    by_cases hjk : j = k
    · subst hjk
      have hne : ¬ (call = call' ∧ (Stage.answered r = .issued)) := by simp
      constructor
      · rintro ⟨hcall', -⟩
        simp [hk] at hcall'
      · rintro ⟨hcall', hm⟩
        obtain rfl : Call.onionAddr j t = call' := by simpa [setTask] using hcall'
        simp [Call.mutex] at hm
    · simp [setTask, Function.update_of_ne hjk]
  nodup := h.nodup

/-- A task ends and stores the capability that its call has created. -/
lemma Tasks.created {s : Sys} (h : Tasks s) {k : ℕ} {call : Call} {r : Except CapnpError Answer}
    (hk : s.tasks k = some ⟨call, .answered r⟩) (kind : Kind) :
    Tasks ((s.setTask k none).install kind k) :=
  (h.remove hk (by simp)).install kind (h.ok k _ hk).lt (by simp [setTask])
    fun i kind' hi => by simpa [hk] using (h.caps i kind' k hi).2

/-- The capability that a task stores goes by the task's name. -/
lemma TaskOk.creates {s : Sys} {id k t : ℕ} {call : Call} {a : Answer} {kind : Kind} {c : Cap}
    {r : Reply} (h : TaskOk s k ⟨call, .answered (.ok a)⟩) (hnew : Creates id call a kind c t r) :
    c = k := by
  cases hnew with
  | listener => exact h.onionAddr c t rfl
  | connected | accepted => exact h.answered c rfl

lemma tasks_resume {s s' : Sys} (h : Tasks s) {k : ℕ} (hstep : s.resume k = some s') :
    Tasks s' := by
  cases resumed_of_resume hstep with
  | @listened o p n t c hk =>
    obtain rfl : c = k := (h.ok k _ hk).answered c rfl
    exact h.onionAddr hk t
  | @created call a kind c t r hk hnew =>
    obtain rfl : c = k := (h.ok k _ hk).creates hnew
    exact (h.created hk kind).reply _ _
  | replied hk ht hid hr => exact (h.remove hk (by simp)).reply _ _
  | received hk hx => exact (h.remove hk (by simp)).completeRecv _ _

lemma step_tasks {s s' : Sys} {a : Action} (h : Sound s) (hstep : s.step a = some s') :
    Tasks s' := by
  cases ha : isRemote a with
  | false =>
    obtain ⟨hrest, hfresh⟩ := step_caller_rest ha hstep
    exact h.tasks.congr hfresh (by rw [hrest]) (by rw [hrest]) (by rw [hrest])
  | true =>
    cases a with
    | dequeue => exact tasks_dequeue h hstep
    | poll k => exact tasks_poll h.tasks hstep
    | answer k o => exact tasks_answer h.tasks hstep
    | resume k => exact tasks_resume h.tasks hstep
    | arriveMsg c m | arriveConn c n =>
      obtain rfl := Option.some.inj hstep
      exact h.tasks.congr le_rfl rfl rfl rfl
    | _ => exact absurd ha (by simp [isRemote])

lemma tasks_init (cfg : Config) : Tasks (init cfg) where
  ok := fun k x hk => absurd hk (by simp [init])
  caps := fun i kind c hc => by
    cases i with
    | zero =>
      obtain ⟨-, rfl⟩ : cfg.boot.kind = kind ∧ 0 = c := by simpa [init] using hc
      exact ⟨by simp [init], rfl⟩
    | succ i => simp [init] at hc
  distinct := fun i j kind kind' c hi hj => by
    cases i <;> cases j <;> simp_all [init]
  lock := fun c k => by simp [init]
  nodup := fun c => List.nodup_nil

/-- The capability for which a step allocates an id: a new one that the actor pipelines, or what the
call of a task has created. -/
lemma created_cases {s s' : Sys} {a : Action} (hstep : s.step a = some s') :
    s'.created = s.created ∨ ∃ kind c, s'.created = s.created ++ [(kind, c)] ∧
      (c = s.fresh ∨ ∃ k call ans t r, s.tasks k = some ⟨call, .answered (.ok ans)⟩ ∧
        Creates s.reg.allocId.1 call ans kind c t r) := by
  cases ha : isRemote a with
  | false => exact .inl (by rw [(step_caller_rest ha hstep).1])
  | true =>
    cases a with
    | dequeue =>
      obtain ⟨cmd, rest, hq, hdeq⟩ := dequeued_of_dequeue hstep
      cases hdeq with
      | created ho => exact .inr ⟨.connector, s.fresh, created_reply _ _ _, .inl rfl⟩
      | closed => exact .inl (created_closeReply _ _)
      | spawned hne hcall => exact .inl rfl
      | received => exact .inl (created_onRecv _ _ _)
      | released => exact .inl (created_onRelease _ _)
      | refused => exact .inl (created_reply _ _ _)
    | poll k => exact .inl (by rw [poll_rest hstep])
    | answer k o =>
      obtain ⟨call, r, u, -, -, -, rfl⟩ := answer_cases hstep
      exact .inl rfl
    | resume k =>
      cases resumed_of_resume hstep with
      | listened hk => exact .inl rfl
      | created hk hnew =>
        exact .inr ⟨_, _, created_reply _ _ _, .inr ⟨k, _, _, _, _, hk, hnew⟩⟩
      | replied hk ht hid hr => exact .inl (created_reply _ _ _)
      | received hk hx => exact .inl (created_completeRecv _ _ _)
    | arriveMsg c m | arriveConn c n =>
      obtain rfl := Option.some.inj hstep
      exact .inl rfl
    | _ => exact absurd ha (by simp [isRemote])

/-- Ids are only ever added. -/
lemma step_created {s s' : Sys} {a : Action} (hstep : s.step a = some s') :
    s.created <+: s'.created := by
  rcases created_cases hstep with heq | ⟨kind, c, heq, -⟩
  · exact heq ▸ List.prefix_rfl
  · exact heq ▸ List.prefix_append _ _

lemma Sound.init (cfg : Config) : Sound (init cfg) :=
  ⟨Base.init cfg, wf_init cfg, tasks_init cfg⟩

theorem step_sound {s s' : Sys} {a : Action} (h : Sound s) (hstep : s.step a = some s')
    (hfew : s'.created.length < 2 ^ 64) : Sound s' :=
  ⟨step_base h.base hstep hfew, (step_book h.base hstep).wf h.wf, step_tasks h hstep⟩

/-- **The invariant rule of the connection.**  On a run that does not exhaust the ids, what holds
of a fresh connection and is kept by the steps that meet `P` holds at the end, and each step may
take it for granted that the state before it and the state after it are sound. -/
theorem sound_induction {P : Sys → Action → Prop} {I : Sys → Prop} {cfg : Config}
    {as : List Action} {s : Sys} (hinit : I (Sys.init cfg))
    (hstep : ∀ s a s', Sound s → Sound s' → I s → P s a → s.step a = some s' → I s')
    (hP : EachStep step P (Sys.init cfg) as) (hrun : run step (Sys.init cfg) as = some s)
    (hfew : s.created.length < 2 ^ 64) : Sound s ∧ I s := by
  have hback : ∀ (s : Sys) a (s' : Sys), s.step a = some s' → s'.created.length < 2 ^ 64 →
      s.created.length < 2 ^ 64 := fun s a s' h hlt => (step_created h).length_le.trans_lt hlt
  obtain ⟨hlens, -⟩ := eachStep_of_last hback hrun hfew
  refine run_induction (P := fun s a => P s a ∧ ∀ s', s.step a = some s' →
    s'.created.length < 2 ^ 64) (I := fun s => Sound s ∧ I s) ?_ ⟨Sound.init cfg, hinit⟩
    (hP.and hlens) hrun
  rintro s a s' ⟨hs, hI⟩ ⟨hPa, hlen⟩ ha
  have hs' : Sound s' := step_sound hs ha (hlen s' ha)
  exact ⟨hs', hstep s a s' hs hs' hI hPa ha⟩

/-- Every reachable state is sound. -/
theorem sound_of_run {cfg : Config} {as : List Action} {s : Sys}
    (hrun : run step (Sys.init cfg) as = some s) (hfew : s.created.length < 2 ^ 64) : Sound s :=
  (sound_induction (I := fun _ => True) trivial (fun _ _ _ _ _ _ _ _ => trivial)
    (eachStep_true _ _) hrun hfew).1

end Sys

end FungiTransport
