import FungiTransport.Capnp.Steps

/-!
# Handles, futures and queued commands

What holds of the callers' side in every reachable state: a live future borrows a live handle
and names the id that the handle carries, `&mut self` futures have their handle to themselves,
one call at a time creates a connector, and every id in a handle, a reply slot or a queued
command was allocated for a capability of the right kind (`Sys.Callers`).
-/

namespace FungiTransport

open Lib

namespace Op

/-- The handle that the command's id comes from, its kind and the id. -/
def carried : Op → Option (ℕ × Kind × ℕ)
  | .listen _ | .ensure _ _ => some (0, .transport, bootstrapId)
  | .configure _ => none
  | .connect h id _ => some (h, .connector, id)
  | .accept h id => some (h, .listener, id)
  | .send h id _ | .recv h id => some (h, .channel, id)

/-- The call takes `&mut self`. -/
def exclusive : Op → Bool
  | .accept _ _ | .send _ _ _ | .recv _ _ => true
  | .listen _ | .configure _ | .ensure _ _ | .connect _ _ _ => false

lemma target_command (op : Op) (t : ℕ) : (op.command t).target = op.carried.map (·.2) := by
  cases op <;> rfl

end Op

namespace Sys

/-- What a future says is true of its handle, and the id in its reply slot was allocated. -/
structure FutOk (s : Sys) (t : ℕ) (f : Fut) : Prop where
  lt : t < s.fresh
  unnamed : f.status.live → s.handles t = none
  carried : f.status.live → ∀ h k i, f.op.carried = some (h, k, i) →
    s.handles h = some ⟨k, some i, true⟩
  ensure : f.status.live → ∀ h addr, f.op = .ensure h addr →
    ∃ id, s.handles h = some ⟨.connector, id, true⟩ ∧ (f.status ≠ .parked → id = none)
  configure : f.status.live → ∀ netFile, f.op = .configure netFile → s.plugin.isSome
  slot : ∀ r, f.status = .replied r → ∀ k i, r.id? = some (k, i) →
    ∃ c, s.created[i]? = some (k, c)

/-- The transport handle of a connection. -/
def transportHandle : Handle := ⟨.transport, some bootstrapId, true⟩

/-- The id of a handle was allocated for its kind; the only transport handle is the first one,
and only on a connection that has it there are connectors. -/
structure HandleOk (s : Sys) (h : ℕ) (x : Handle) : Prop where
  lt : h < s.fresh
  typed : ∀ i, x.id = some i → ∃ c, s.created[i]? = some (x.kind, c)
  transport : x.kind = .transport → s.plugin.isSome ∧ h = 0 ∧ x = transportHandle
  connector : x.kind = .connector → s.handles 0 = some transportHandle

/-- The capability that a command acts on was created. -/
structure CommandOk (s : Sys) (c : Command) : Prop where
  typed : ∀ k i, c.target = some (k, i) → ∃ cap, s.created[i]? = some (k, cap)
  release : ∀ i, c = .release i → i < s.created.length
  plugin : ∀ netFile t, c = .configurePrivateNet netFile t → s.plugin.isSome

/-- The callers' side of a connection is in order. -/
structure Callers (s : Sys) : Prop where
  futs : ∀ t f, s.futs t = some f → FutOk s t f
  handles : ∀ h x, s.handles h = some x → HandleOk s h x
  queue : ∀ c ∈ s.queue, CommandOk s c
  exclusive : ∀ t u f g, s.futs t = some f → s.futs u = some g → f.status.live → g.status.live →
    f.op.exclusive → f.op.handle = g.op.handle → t = u
  oneEnsure : ∀ t u h a b st su, s.futs t = some ⟨.ensure h a, st⟩ →
    s.futs u = some ⟨.ensure h b, su⟩ → st.live → su.live → st ≠ .parked → su ≠ .parked → t = u

/-! ## States that say the same about the callers -/

lemma getElem?_of_isPrefix {α : Type*} {l l' : List α} (h : l <+: l') {i : ℕ} {a : α}
    (hi : l[i]? = some a) : l'[i]? = some a := by
  obtain ⟨r, rfl⟩ := h
  rw [List.getElem?_append_left (List.getElem?_eq_some_iff.mp hi).1, hi]

lemma getElem?_concat_eq_some {α : Type*} {l : List α} {a b : α} {i : ℕ} :
    (l ++ [a])[i]? = some b ↔ l[i]? = some b ∨ i = l.length ∧ a = b := by
  rcases lt_trichotomy i l.length with hi | rfl | hi
  · simp [List.getElem?_append_left hi, hi.ne]
  · simp
  · have hlen : (l ++ [a]).length ≤ i := by simpa using Nat.succ_le_of_lt hi
    simp [List.getElem?_eq_none hlen, List.getElem?_eq_none hi.le, hi.ne']

/-- The new state knows everything about handles and created capabilities that the old one
knew. -/
structure Extends (s s' : Sys) : Prop where
  fresh : s.fresh ≤ s'.fresh
  handles : ∀ h x, s.handles h = some x → s'.handles h = some x
  plugin : s'.plugin = s.plugin
  created : s.created <+: s'.created

lemma FutOk.mono {s s' : Sys} {t : ℕ} {f : Fut} (h : FutOk s t f) (hs : Extends s s')
    (hun : f.status.live → s'.handles t = none) : FutOk s' t f where
  lt := h.lt.trans_le hs.fresh
  unnamed := hun
  carried := fun hl j k i hc => hs.handles _ _ (h.carried hl j k i hc)
  ensure := fun hl j addr hop => by
    obtain ⟨id, hj, hid⟩ := h.ensure hl j addr hop
    exact ⟨id, hs.handles _ _ hj, hid⟩
  configure := fun hl nf hop => hs.plugin ▸ h.configure hl nf hop
  slot := fun r hr k i hi => by
    obtain ⟨c, hc⟩ := h.slot r hr k i hi
    exact ⟨c, getElem?_of_isPrefix hs.created hc⟩

lemma HandleOk.mono {s s' : Sys} {h : ℕ} {x : Handle} (hx : HandleOk s h x)
    (hs : Extends s s') : HandleOk s' h x where
  lt := hx.lt.trans_le hs.fresh
  typed := fun i hi => by
    obtain ⟨c, hc⟩ := hx.typed i hi
    exact ⟨c, getElem?_of_isPrefix hs.created hc⟩
  transport := fun hk => hs.plugin ▸ hx.transport hk
  connector := fun hk => hs.handles _ _ (hx.connector hk)

lemma CommandOk.mono {s s' : Sys} {c : Command} (hc : CommandOk s c) (hs : Extends s s') :
    CommandOk s' c where
  typed := fun k i hi => by
    obtain ⟨cap, hcap⟩ := hc.typed k i hi
    exact ⟨cap, getElem?_of_isPrefix hs.created hcap⟩
  release := fun i hi => (hc.release i hi).trans_le hs.created.length_le
  plugin := fun nf t h => hs.plugin ▸ hc.plugin nf t h

/-- Steps of the actor, its tasks and the server that touch no future and no handle. -/
lemma Callers.mono {s s' : Sys} (h : Callers s) (hs : Extends s s') (hfuts : s'.futs = s.futs)
    (hhandles : s'.handles = s.handles) (hqueue : s'.queue ⊆ s.queue) : Callers s' where
  futs := fun t f hf => by
    rw [hfuts] at hf
    exact (h.futs t f hf).mono hs fun hl => by rw [hhandles]; exact (h.futs t f hf).unnamed hl
  handles := fun j x hx => (h.handles j x (hhandles ▸ hx)).mono hs
  queue := fun c hc => (h.queue c (hqueue hc)).mono hs
  exclusive := by rw [hfuts]; exact h.exclusive
  oneEnsure := by rw [hfuts]; exact h.oneEnsure

/-- What lies behind a name was put there, or was there before under another name. -/
lemma update_eq_some {α : Type*} {f : ℕ → Option α} {k j : ℕ} {y : Option α} {x : α}
    (h : Function.update f k y j = some x) : (j = k ∧ y = some x) ∨ (j ≠ k ∧ f j = some x) := by
  by_cases hjk : j = k
  · subst hjk
    exact .inl ⟨rfl, by simpa using h⟩
  · exact .inr ⟨hjk, by simpa [Function.update_of_ne hjk] using h⟩

/-- The future behind a ticket is replaced. -/
lemma futs_setFut {s : Sys} {t u : ℕ} {f g : Fut} (h : (s.setFut t f).futs u = some g) :
    (u = t ∧ g = f) ∨ (u ≠ t ∧ s.futs u = some g) :=
  (update_eq_some h).imp_left (And.imp_right fun hf => (Option.some.inj hf).symm)

/-- A future is put behind a ticket: it says the truth, excludes no other one, and is not a
second one to create a connector. -/
lemma Callers.put {s : Sys} (h : Callers s) {t : ℕ} {f : Fut} (hok : FutOk s t f)
    (hexclusive : f.status.live → ∀ u g, u ≠ t → s.futs u = some g → g.status.live →
      g.op.handle = f.op.handle → f.op.exclusive = false ∧ g.op.exclusive = false)
    (hone : f.status.live → f.status ≠ .parked → ∀ j a, f.op = .ensure j a → ∀ u b su, u ≠ t →
      s.futs u = some ⟨.ensure j b, su⟩ → su.live → su = .parked) : Callers (s.setFut t f) := by
  have hs : Extends s (s.setFut t f) := ⟨le_rfl, fun _ _ h => h, rfl, List.prefix_rfl⟩
  refine ⟨fun u g hu => ?_, fun j x hx => (h.handles j x hx).mono hs,
    fun c hc => (h.queue c hc).mono hs, fun u v g e hu hv hgl hel hex hge => ?_,
    fun u v j a b su sv hu hv hul hvl hup hvp => ?_⟩
  · rcases futs_setFut hu with ⟨rfl, rfl⟩ | ⟨-, hu'⟩
    · exact hok.mono hs hok.unnamed
    · exact (h.futs u g hu').mono hs (h.futs u g hu').unnamed
  · rcases futs_setFut hu with ⟨rfl, rfl⟩ | ⟨hut, hu'⟩ <;>
      rcases futs_setFut hv with ⟨rfl, rfl⟩ | ⟨hvt, hv'⟩
    · rfl
    · exact absurd hex (by simp [(hexclusive hgl v e hvt hv' hel hge.symm).1])
    · exact absurd hex (by simp [(hexclusive hel u g hut hu' hgl hge).2])
    · exact h.exclusive u v g e hu' hv' hgl hel hex hge
  · rcases futs_setFut hu with ⟨rfl, rfl⟩ | ⟨hut, hu'⟩ <;>
      rcases futs_setFut hv with ⟨rfl, he⟩ | ⟨hvt, hv'⟩
    · rfl
    · exact absurd (hone hul hup j a rfl v b sv hvt hv' hvl) hvp
    · subst he
      exact absurd (hone hvl hvp j b rfl u a su hut hu' hul) hup
    · exact h.oneEnsure u v j a b su sv hu' hv' hul hvl hup hvp

/-- A future moves on without changing what it says. -/
lemma Callers.setFut {s : Sys} (h : Callers s) {t : ℕ} {f : Fut} {st : Status}
    (hf : s.futs t = some f) (hlive : st.live → f.status.live)
    (hparked : st.live → f.status = .parked → st = .parked)
    (hslot : ∀ r, st = .replied r → ∀ k i, r.id? = some (k, i) → ∃ c, s.created[i]? = some (k, c)) :
    Callers (s.setFut t ⟨f.op, st⟩) := by
  have hok := h.futs t f hf
  refine h.put ⟨hok.lt, fun hl => hok.unnamed (hlive hl), fun hl => hok.carried (hlive hl),
    fun hl j addr hop => ?_, fun hl => hok.configure (hlive hl), hslot⟩
    (fun hl u g hut hu hgl hge => ⟨?_, ?_⟩) (fun hl hp j a hop u b su hut hu hsu => ?_)
  · obtain ⟨id, hj, hid⟩ := hok.ensure (hlive hl) j addr hop
    exact ⟨id, hj, fun hp => hid fun hfp => hp (hparked hl hfp)⟩
  · by_contra hex
    exact hut (h.exclusive t u f g hf hu (hlive hl) hgl (by simpa using hex) hge.symm).symm
  · by_contra hex
    exact hut (h.exclusive u t g f hu hf hgl (hlive hl) (by simpa using hex) hge)
  · by_contra hsp
    have hf' : s.futs t = some ⟨.ensure j a, f.status⟩ := by
      rw [hf, ← show f.op = .ensure j a from hop]
    exact hut (h.oneEnsure u t j b a su _ hu hf' hsu (hlive hl) hsp
      fun hfp => hp (hparked hl hfp))

/-! ## One-shot replies -/

lemma Callers.reply {s : Sys} (h : Callers s) (t : ℕ) {r : Reply}
    (hr : ∀ k i, r.id? = some (k, i) → ∃ c, s.created[i]? = some (k, c)) :
    Callers (s.reply t r) := by
  rcases reply_cases s t r with ⟨op, hf, heq⟩ | ⟨-, heq⟩
  · rw [heq]
    exact h.setFut hf (fun _ => rfl) (by simp) fun r' hr' => (Status.replied.inj hr') ▸ hr
  · rw [heq]
    exact h

lemma Callers.closeReply {s : Sys} (h : Callers s) (t : ℕ) : Callers (s.closeReply t) := by
  rcases closeReply_cases s t with ⟨op, hf, heq⟩ | heq
  · rw [heq]
    exact h.setFut hf (fun _ => rfl) (by simp) (by simp)
  · rw [heq]
    exact h

/-! ## Starting and ending a call -/

lemma Callers.not_borrowed {s : Sys} (h : Callers s) {j : ℕ} (hb : s.borrowed j = false) {t : ℕ}
    {f : Fut} (hf : s.futs t = some f) (hl : f.status.live) : f.op.handle ≠ j := by
  intro hj
  unfold borrowed at hb
  rw [List.any_eq_false] at hb
  have ht := hb t (List.mem_range.mpr (h.futs t f hf).lt)
  exact ht (by simp [hf, hl, hj])

lemma Callers.not_initialising {s : Sys} (h : Callers s) {j : ℕ} (hi : s.initialising j = false)
    {t : ℕ} {addr : String} {st : Status} (hf : s.futs t = some ⟨.ensure j addr, st⟩)
    (hl : st.live) : st = .parked := by
  by_contra hp
  unfold initialising at hi
  rw [List.any_eq_false] at hi
  have ht := hi t (List.mem_range.mpr (h.futs t _ hf).lt)
  exact ht (by simp [hf, hl, hp])

/-- A new call on a handle that is as the call says and is not borrowed in a way that excludes
it. -/
lemma Callers.start {s : Sys} (h : Callers s) {op : Op} {st : Status}
    (hslot : ∀ r, st ≠ .replied r)
    (hcarried : ∀ j k i, op.carried = some (j, k, i) → s.handles j = some ⟨k, some i, true⟩)
    (hensure : ∀ j addr, op = .ensure j addr →
      ∃ id, s.handles j = some ⟨.connector, id, true⟩ ∧ (st ≠ .parked → id = none))
    (hconfigure : ∀ netFile, op = .configure netFile → s.plugin.isSome)
    (hexclusive : ∀ t f, s.futs t = some f → f.status.live → f.op.handle = op.handle →
      op.exclusive = false ∧ f.op.exclusive = false)
    (hone : ∀ j a, op = .ensure j a → st ≠ .parked → ∀ t b su, s.futs t = some ⟨.ensure j b, su⟩ →
      su.live → su = .parked) : Callers (s.start op st) := by
  have hfree : s.handles s.fresh = none := by
    by_contra hne
    obtain ⟨x, hx⟩ := Option.ne_none_iff_exists'.mp hne
    exact absurd (h.handles _ x hx).lt (lt_irrefl _)
  have hnext : Callers { s with fresh := s.fresh + 1 } :=
    h.mono ⟨Nat.le_succ _, fun _ _ hx => hx, rfl, List.prefix_rfl⟩ rfl rfl (List.Subset.refl _)
  exact hnext.put ⟨Nat.lt_succ_self _, fun _ => hfree, fun _ => hcarried, fun _ => hensure,
      fun _ => hconfigure, fun r hr => absurd hr (hslot r)⟩
    (fun _ u g _ hu hl hge => hexclusive u g hu hl hge)
    (fun _ hp j a hop u b su _ hu hsu => hone j a hop hp u b su hu hsu)

lemma Callers.resolveTo {s : Sys} (h : Callers s) {t : ℕ} {f : Fut} (hf : s.futs t = some f)
    (r : Reply) : Callers (s.resolveTo t f.op r) := by
  have hset : Callers (s.setFut t ⟨f.op, .done r⟩) :=
    h.setFut hf (by simp [Status.live]) (by simp [Status.live]) (by simp)
  exact hset.mono ⟨le_rfl, fun _ _ hx => hx, rfl, List.prefix_rfl⟩ rfl rfl (List.Subset.refl _)

/-! ## Handles -/

lemma handles_setHandle {s : Sys} {j u : ℕ} {x y : Handle}
    (h : (s.setHandle j x).handles u = some y) : (u = j ∧ y = x) ∨ (u ≠ j ∧ s.handles u = some y) :=
  (update_eq_some h).imp_left (And.imp_right fun hx => (Option.some.inj hx).symm)

lemma extends_setHandle {s : Sys} {j : ℕ} {x : Handle} (hj : s.handles j = none) :
    Extends s (s.setHandle j x) := by
  refine ⟨le_rfl, fun u y hu => ?_, rfl, List.prefix_rfl⟩
  have huj : u ≠ j := fun huj => by simp [huj, hj] at hu
  simpa [setHandle, Function.update_of_ne huj] using hu

/-- A handle gets a name that no live future goes by. -/
lemma Callers.setHandle {s : Sys} (h : Callers s) {j : ℕ} {x : Handle} (hj : s.handles j = none)
    (hx : HandleOk s j x) (hfut : ∀ f, s.futs j = some f → f.status.live = false) :
    Callers (s.setHandle j x) := by
  have hs := extends_setHandle (x := x) hj
  refine ⟨fun u g hu => ?_, fun u y hu => ?_, fun c hc => (h.queue c hc).mono hs, h.exclusive,
    h.oneEnsure⟩
  · refine (h.futs u g hu).mono hs fun hl => ?_
    have huj : u ≠ j := fun huj => absurd hl (by simp [hfut g (huj ▸ hu)])
    simpa [Sys.setHandle, Function.update_of_ne huj] using (h.futs u g hu).unnamed hl
  · rcases handles_setHandle hu with ⟨rfl, rfl⟩ | ⟨-, hu'⟩
    · exact hx.mono hs
    · exact (h.handles u y hu').mono hs

/-- A handle that no live future borrows is dropped. -/
lemma Callers.dropHandle {s : Sys} (h : Callers s) {j : ℕ} {k : Kind} {id : Option ℕ}
    (hj : s.handles j = some ⟨k, id, true⟩) (hk : k ≠ .transport) (hb : s.borrowed j = false) :
    Callers (s.setHandle j ⟨k, id, false⟩) := by
  have hne : ∀ t f, s.futs t = some f → f.status.live → f.op.handle ≠ j := fun t f hf hl =>
    h.not_borrowed hb hf hl
  have hkeep : ∀ u y, u ≠ j → s.handles u = some y →
      (s.setHandle j ⟨k, id, false⟩).handles u = some y := fun u y huj hu => by
    simpa [Sys.setHandle, Function.update_of_ne huj] using hu
  refine ⟨fun u g hu => ?_, fun u y hu => ?_,
    fun c hc => ⟨(h.queue c hc).typed, (h.queue c hc).release, (h.queue c hc).plugin⟩, h.exclusive, h.oneEnsure⟩
  · have hok := h.futs u g hu
    refine ⟨hok.lt, fun hl => ?_, fun hl i k' n hc => ?_, fun hl i addr hop => ?_, hok.configure,
      hok.slot⟩
    · have huj : u ≠ j := fun huj => by simp [huj ▸ hok.unnamed hl] at hj
      simpa [Sys.setHandle, Function.update_of_ne huj] using hok.unnamed hl
    · refine hkeep i _ (fun hij => ?_) (hok.carried hl i k' n hc)
      -- a call that names the id of `j` borrows `j`, or uses the transport
      have hij' := hok.carried hl i k' n hc
      rw [hij, hj] at hij'
      obtain ⟨rfl, -⟩ : k = k' ∧ id = some n := by simpa using hij'
      have hg := hne u g hu hl
      cases hop : g.op <;> simp_all [Op.carried, Op.handle]
    · obtain ⟨id', hi, hid'⟩ := hok.ensure hl i addr hop
      refine ⟨id', hkeep i _ (fun hij => ?_) hi, hid'⟩
      exact hne u g hu hl (by rw [hop]; exact hij)
  · have hzero : s.handles 0 = some transportHandle →
        (s.setHandle j ⟨k, id, false⟩).handles 0 = some transportHandle := fun h0 =>
      hkeep 0 _ (fun h0j => by
        rw [h0j, hj] at h0
        exact hk (congrArg Handle.kind (Option.some.inj h0))) h0
    rcases handles_setHandle hu with ⟨rfl, rfl⟩ | ⟨-, hu'⟩
    · exact ⟨(h.handles u _ hj).lt, (h.handles u _ hj).typed, fun ht => absurd ht hk,
        fun hc => hzero ((h.handles u _ hj).connector hc)⟩
    · exact ⟨(h.handles u y hu').lt, (h.handles u y hu').typed, (h.handles u y hu').transport,
        fun hc => hzero ((h.handles u y hu').connector hc)⟩

lemma Callers.push {s : Sys} (h : Callers s) {c : Command} (hc : CommandOk s c) :
    Callers { s with queue := s.queue ++ [c] } := by
  have hs : Extends s { s with queue := s.queue ++ [c] } :=
    ⟨le_rfl, fun _ _ hx => hx, rfl, List.prefix_rfl⟩
  refine ⟨fun u g hu => (h.futs u g hu).mono hs (h.futs u g hu).unnamed,
    fun j x hx => (h.handles j x hx).mono hs, fun d hd => ?_, h.exclusive, h.oneEnsure⟩
  rcases List.mem_append.mp hd with hd | hd
  · exact (h.queue d hd).mono hs
  · exact (List.mem_singleton.mp hd) ▸ hc.mono hs

/-- On a transport or a connector no call is exclusive. -/
lemma Callers.shared {s : Sys} (h : Callers s) {j : ℕ} {x : Handle} (hx : s.handles j = some x)
    (hk : x.kind = .transport ∨ x.kind = .connector) {t : ℕ} {f : Fut} (hf : s.futs t = some f)
    (hl : f.status.live) (hfj : f.op.handle = j) : f.op.exclusive = false := by
  have hc := (h.futs t f hf).carried hl
  cases hop : f.op with
  | accept i id | send i id m | recv i id =>
    obtain rfl : i = j := by rw [hop] at hfj; exact hfj
    have hi := hc i _ id (by rw [hop, Op.carried])
    obtain rfl := Option.some.inj (hx.symm.trans hi)
    rcases hk with hk | hk <;> exact absurd hk (by simp)
  | listen p | configure nf | ensure i a | connect i id a => rfl

/-- The empty cell of a connector is filled when no call is creating it any more. -/
lemma Callers.setCell {s : Sys} (h : Callers s) {j id : ℕ} {c : Cap}
    (hj : s.handles j = some ⟨.connector, none, true⟩) (hc : s.created[id]? = some (.connector, c))
    (hnone : ∀ t a st, s.futs t = some ⟨.ensure j a, st⟩ → st.live → st = .parked) :
    Callers (s.setHandle j ⟨.connector, some id, true⟩) := by
  have hkeep : ∀ u y, u ≠ j → s.handles u = some y →
      (s.setHandle j ⟨.connector, some id, true⟩).handles u = some y := fun u y huj hu => by
    simpa [Sys.setHandle, Function.update_of_ne huj] using hu
  have h0 : s.handles 0 = some transportHandle := (h.handles j _ hj).connector rfl
  have hzero := hkeep 0 _ (fun h0j => by rw [h0j, hj] at h0; exact absurd h0 (by decide)) h0
  refine ⟨fun u g hu => ?_, fun u y hu => ?_,
    fun c hc => ⟨(h.queue c hc).typed, (h.queue c hc).release, (h.queue c hc).plugin⟩, h.exclusive, h.oneEnsure⟩
  · have hg := h.futs u g hu
    refine ⟨hg.lt, fun hl => ?_, fun hl i k n hin => ?_, fun hl i a hop => ?_, hg.configure,
      hg.slot⟩
    · have huj : u ≠ j := fun huj => by simp [huj ▸ hg.unnamed hl] at hj
      simpa [Sys.setHandle, Function.update_of_ne huj] using hg.unnamed hl
    · have hi := hg.carried hl i k n hin
      exact hkeep i _ (fun hij => by simp [hij, hj] at hi) hi
    · obtain ⟨id', hi, hid'⟩ := hg.ensure hl i a hop
      by_cases hij : i = j
      · subst hij
        have hp : g.status = .parked := hnone u a g.status (hop ▸ hu) hl
        exact ⟨some id, by simp [Sys.setHandle], fun hnp => absurd hp hnp⟩
      · exact ⟨id', hkeep i _ hij hi, hid'⟩
  · rcases handles_setHandle hu with ⟨rfl, rfl⟩ | ⟨-, hu'⟩
    · exact ⟨(h.handles u _ hj).lt, fun n hn => ⟨c, by simpa using (Option.some.inj hn) ▸ hc⟩,
        by simp, fun _ => hzero⟩
    · exact ⟨(h.handles u y hu').lt, (h.handles u y hu').typed, (h.handles u y hu').transport,
        fun _ => hzero⟩

/-- A `connect` goes on with the connector that its handle has now. -/
lemma Callers.putConnect {s : Sys} (h : Callers s) {t j id : ℕ} {addr : String} (ht : t < s.fresh)
    (hun : s.handles t = none) (hj : s.handles j = some ⟨.connector, some id, true⟩) :
    Callers (s.setFut t ⟨.connect j id addr, .sending⟩) := by
  refine h.put ⟨ht, fun _ => hun, fun _ i k n hin => ?_, by simp, by simp, by simp⟩
    (fun _ u g _ hu hl hge => ⟨rfl, h.shared hj (.inr rfl) hu hl hge⟩) (by simp)
  obtain ⟨rfl, rfl, rfl⟩ : j = i ∧ Kind.connector = k ∧ id = n := by simpa [Op.carried] using hin
  exact hj

/-- The call that has created a connector fills the cell and goes on to connect. -/
lemma Callers.fillCell {s : Sys} (h : Callers s) {t j id : ℕ} {addr : String}
    (hf : s.futs t = some ⟨.ensure j addr, .replied (.connector id)⟩) {x : Handle}
    (hx : s.handles j = some x) :
    Callers ((s.setHandle j { x with id := some id }).setFut t ⟨.connect j id addr, .sending⟩) := by
  have hok := h.futs t _ hf
  obtain ⟨cell, hj, hcell⟩ := hok.ensure rfl j addr rfl
  obtain rfl := hcell (by simp)
  obtain rfl : x = ⟨.connector, none, true⟩ := Option.some.inj (hx.symm.trans hj)
  obtain ⟨c, hc⟩ := hok.slot _ rfl .connector id rfl
  have htj : t ≠ j := fun htj => by simp [htj ▸ hok.unnamed rfl] at hj
  -- with its call out of the way the connector has no other one that is creating it
  have hrest : Callers (s.setFut t ⟨.ensure j addr, .dropped⟩) :=
    h.setFut hf (by simp [Status.live]) (by simp [Status.live]) (by simp)
  have hcell : Callers ((s.setFut t ⟨.ensure j addr, .dropped⟩).setHandle j
      ⟨.connector, some id, true⟩) := by
    refine hrest.setCell hj hc fun u a st hu hl => ?_
    rcases futs_setFut hu with ⟨-, hg⟩ | ⟨hut, hu'⟩
    · obtain ⟨-, rfl⟩ := Fut.mk.inj hg
      exact absurd hl (by simp [Status.live])
    · by_contra hp
      exact hut (h.oneEnsure u t j a addr st _ hu' hf hl rfl hp (by simp))
  have hput : Callers (((s.setFut t ⟨.ensure j addr, .dropped⟩).setHandle j
      ⟨.connector, some id, true⟩).setFut t ⟨.connect j id addr, .sending⟩) := hcell.putConnect hok.lt
    (by simpa [Sys.setHandle, Sys.setFut, Function.update_of_ne htj] using hok.unnamed rfl)
    (by simp [Sys.setHandle])
  simpa only [Sys.setFut, Sys.setHandle, Function.update_idem] using hput

/-! ## Every step -/

lemma liveHandle_eq_some {s : Sys} {j : ℕ} {k : Kind} {x : Handle}
    (h : s.liveHandle j k = some x) : s.handles j = some x ∧ x.live = true ∧ x.kind = k := by
  obtain ⟨hx, hp⟩ := Option.filter_eq_some_iff.mp h
  simpa using ⟨hx, of_decide_eq_true hp⟩

lemma Callers.init (cfg : Config) : Callers (Sys.init cfg) := by
  refine ⟨by simp [Sys.init], fun j x hx => ?_, by simp [Sys.init], by simp [Sys.init],
    by simp [Sys.init]⟩
  have hj : j = 0 := by
    by_contra hj
    simp [Sys.init, Function.update_of_ne hj] at hx
  subst hj
  obtain rfl : ⟨cfg.boot.kind, some bootstrapId, true⟩ = x := by simpa [Sys.init] using hx
  refine ⟨by simp [Sys.init], fun i hi => ?_, fun hk => ?_, fun hk => ?_⟩
  · obtain rfl : bootstrapId = i := by simpa using hi
    exact ⟨0, rfl⟩
  · have hboot : cfg.boot = .plugin := by
      cases hb : cfg.boot
      · simp [hb, Bootstrap.kind] at hk
      · rfl
    simp [Sys.init, hboot, Bootstrap.kind, transportHandle]
  · cases hb : cfg.boot <;> simp [hb, Bootstrap.kind] at hk

lemma Callers.startTransport {s s' : Sys} (h : Callers s) {op : Op}
    (hop : (∃ p, op = .listen p) ∨ ∃ nf, op = .configure nf)
    (hstep : s.startTransport op = some s') : Callers s' := by
  obtain ⟨x, hx, rfl⟩ := Option.map_eq_some_iff.mp hstep
  obtain ⟨hj, -, hk⟩ := liveHandle_eq_some hx
  obtain ⟨hplugin, -, rfl⟩ := (h.handles 0 x hj).transport hk
  refine h.start (by simp) (fun j k i hc => ?_) (fun j addr he => ?_) (fun _ _ => hplugin)
    (fun t f hf hl hjf => ⟨?_, ?_⟩) (fun j a he => ?_)
  · rcases hop with ⟨p, rfl⟩ | ⟨nf, rfl⟩
    · obtain ⟨rfl, rfl, rfl⟩ : 0 = j ∧ Kind.transport = k ∧ bootstrapId = i := by
        simpa [Op.carried] using hc
      exact hj
    · exact absurd hc (by simp [Op.carried])
  · rcases hop with ⟨p, rfl⟩ | ⟨nf, rfl⟩ <;> exact absurd he (by simp)
  · rcases hop with ⟨p, rfl⟩ | ⟨nf, rfl⟩ <;> rfl
  · refine h.shared hj (.inl rfl) hf hl ?_
    rcases hop with ⟨p, rfl⟩ | ⟨nf, rfl⟩ <;> exact hjf
  · rcases hop with ⟨p, rfl⟩ | ⟨nf, rfl⟩ <;> exact absurd he (by simp)

lemma Callers.startConnect {s s' : Sys} (h : Callers s) {j : ℕ} {addr : String}
    (hstep : s.startConnect j addr = some s') : Callers s' := by
  obtain ⟨x, hx, hs'⟩ := Option.map_eq_some_iff.mp hstep
  obtain ⟨hj, hl, hk⟩ := liveHandle_eq_some hx
  have hshared : ∀ t f, s.futs t = some f → f.status.live → f.op.handle = j →
      f.op.exclusive = false := fun t f hf hl hfj => h.shared hj (.inr hk) hf hl hfj
  have h0 := (h.handles j x hj).connector hk
  obtain ⟨k, id, live⟩ := x
  obtain rfl : live = true := hl
  obtain rfl : k = .connector := hk
  cases id with
  | some id =>
    subst hs'
    refine h.start (by simp) (fun i k n hc => ?_) (by simp) (by simp)
      (fun t f hf hl hfj => ⟨rfl, hshared t f hf hl hfj⟩) (by simp)
    obtain ⟨rfl, rfl, rfl⟩ : j = i ∧ Kind.connector = k ∧ id = n := by simpa [Op.carried] using hc
    exact hj
  | none =>
    subst hs'
    refine h.start (fun r => ?_) (fun i k n hc => ?_) (fun i a he => ?_) (by simp)
      (fun t f hf hl hfj => ⟨rfl, hshared t f hf hl hfj⟩) (fun i a he hp t b su hf hsu => ?_)
    · split <;> simp
    · obtain ⟨rfl, rfl, rfl⟩ : 0 = i ∧ Kind.transport = k ∧ bootstrapId = n := by
        simpa [Op.carried] using hc
      exact h0
    · obtain ⟨rfl, rfl⟩ := Op.ensure.inj he
      exact ⟨none, hj, fun _ => rfl⟩
    · obtain ⟨rfl, rfl⟩ := Op.ensure.inj he
      refine h.not_initialising (j := j) ?_ hf hsu
      by_contra hi
      exact hp (by simp [hi])

/-- The start of a call that takes `&mut self`. -/
lemma Callers.startExclusive {s : Sys} (h : Callers s) {j id : ℕ} {k : Kind} {op : Op}
    {st : Status} (hb : s.borrowed j = false) (hid : (s.liveHandle j k).bind (·.id) = some id)
    (hcarried : op.carried = some (j, k, id)) (hhandle : op.handle = j) (hex : op.exclusive)
    (hslot : ∀ r, st ≠ .replied r) : Callers (s.start op st) := by
  obtain ⟨x, hx, hxid⟩ := Option.bind_eq_some_iff.mp hid
  obtain ⟨hj, hl, hk⟩ := liveHandle_eq_some hx
  refine h.start hslot (fun i k' n hc => ?_) (fun i a he => ?_) (fun nf he => ?_)
    (fun t f hf hl hfj => absurd (hfj.trans hhandle) (h.not_borrowed hb hf hl)) (fun i a he => ?_)
  · obtain ⟨rfl, rfl, rfl⟩ : j = i ∧ k = k' ∧ id = n := by simpa [hcarried] using hc
    rw [hj, ← hk, ← hxid, ← hl]
  · exact absurd hex (by simp [he, Op.exclusive])
  · exact absurd hex (by simp [he, Op.exclusive])
  · exact absurd hex (by simp [he, Op.exclusive])

end Sys

end FungiTransport
