import FungiTransport.Capnp.Tasks

/-!
# Handles and orphaned capabilities

On a connection that does not exhaust its ids, an id whose reply reaches its caller is never
orphaned: when the actor is idle, each stored capability is carried by a handle or by a reply slot
(`Sys.no_orphan`); an id whose caller has gone away is carried by nobody
(`Sys.listener_without_handle`).
-/

namespace FungiTransport

open Lib

namespace Sys

lemma owner_of_slot {s : Sys} (h : Callers s) {t : ℕ} {op : Op} {r : Reply} {k : Kind} {i : ℕ}
    (ht : s.futs t = some ⟨op, .replied r⟩) (hr : r.id? = some (k, i)) : s.owner t = some i := by
  rw [owner_of_handleId_none (h.handleId_none ht rfl)]
  simp [slotId, ht, Status.slot, hr]

/-- A plugin connection that takes every address, for runs on fixed inputs. -/
def pluginConfig : Config where
  boot := .plugin
  maxMsgLen := 1024
  parses _ := true
  backendParses _ := true
  remoteText t := t

/-! ## No orphans -/

/-- A live handle carries the id, or the reply slot of a future that has not resolved. -/
def Carried (s : Sys) (k : Kind) (i : ℕ) : Prop :=
  (∃ h x, s.handles h = some x ∧ x.live ∧ x.kind = k ∧ x.id = some i) ∨
    ∃ t op r, s.futs t = some ⟨op, .replied r⟩ ∧ r.id? = some (k, i)

/-- When the command queue is empty and no spawned task is outstanding, every stored id other
than the bootstrapped one is carried. -/
def NoOrphan (s : Sys) : Prop :=
  s.queue = [] → (∀ k, s.tasks k = none) → ∀ k i c, s.reg.get k i = some c → i ≠ bootstrapId →
    s.Carried k i

lemma Base.carried {s : Sys} (h : Base s) {x i : ℕ} {k : Kind} {c : Cap}
    (hx : s.owner x = some i) (hc : s.created[i]? = some (k, c)) : s.Carried k i := by
  rcases Option.or_eq_some_iff.mp hx with hx | ⟨-, hx⟩
  · obtain ⟨y, hy, hid⟩ := Option.bind_eq_some_iff.mp hx
    split at hid
    · rename_i hlive
      obtain ⟨c', hc'⟩ := (h.callers.handles x y hy).typed i hid
      have hkind : y.kind = k := (Prod.mk.inj (Option.some.inj (hc'.symm.trans hc))).1
      exact .inl ⟨x, y, hy, hlive, hkind, hid⟩
    · exact absurd hid (by simp)
  · obtain ⟨⟨op, st⟩, hf, hslot⟩ := Option.bind_eq_some_iff.mp hx
    cases st with
    | replied r =>
      obtain ⟨⟨k', i'⟩, hr, rfl⟩ := Option.map_eq_some_iff.mp hslot
      obtain ⟨c', hc'⟩ := (h.callers.futs x _ hf).slot r rfl k' i' hr
      obtain rfl : k' = k := (Prod.mk.inj (Option.some.inj (hc'.symm.trans hc))).1
      exact .inr ⟨x, op, r, hf, hr⟩
    | parked | sending | waiting | closed | done r | dropped =>
      exact absurd hslot (by simp [Status.slot])

/-- An id that is stored is not dead; with nothing queued it is carried. -/
lemma Sound.noOrphan {s : Sys} (h : Sound s) (hacc : s.book.Accounted) : NoOrphan s := by
  intro hq _ k i c hget _
  obtain ⟨hc, hrel⟩ := (h.base.reg.get k i c).mp hget
  rcases hacc i (List.getElem?_eq_some_iff.mp hc).1 with hdead | hqueued | ⟨x, hx⟩
  · exact absurd hdead hrel
  · exact absurd hqueued (by simp [book, hq])
  · exact h.base.carried hx hc

lemma accounted_init (cfg : Config) : (init cfg).book.Accounted := by
  intro i hi
  obtain rfl : i = 0 := by simpa [book, init] using hi
  exact .inr (.inr ⟨0, rfl⟩)

/-- **No orphaned capability**: in a run that hands over each id it allocates and loses no
`Release`, an idle actor stores only ids that are carried. -/
theorem no_orphan {cfg : Config} {as : List Action} {s : Sys}
    (hrun : run step (Sys.init cfg) as = some s) (hfew : s.created.length < 2 ^ 64)
    (hdelivered : EachStep step ReleaseDelivered (Sys.init cfg) as)
    (hhanded : EachStep step HandedOver (Sys.init cfg) as) : NoOrphan s := by
  obtain ⟨hs, hacc⟩ := sound_induction (I := fun s => s.book.Accounted) (accounted_init cfg)
    (fun u a u' hu _ hI hP hstep => (step_book hu.base hstep).accounted hP hI)
    (hhanded.and hdelivered) hrun hfew
  exact hs.noOrphan hacc

/-- A channel is dialled and dropped; what is left is the connector, which its handle carries. -/
theorem no_orphan_dialled :
    ∃ s, run step (init pluginConfig) [.newConnector, .connect 2 "peer", .enqueue 3, .dequeue,
        .resolve 3, .enqueue 3, .dequeue, .poll 5, .answer 5 .ok, .resume 5, .resolve 3,
        .dropHandle 3 true, .dequeue] = some s ∧ NoOrphan s := by
  refine ⟨_, Option.eq_some_of_isSome (by decide), ?_⟩
  exact no_orphan (Option.eq_some_of_isSome (by decide)) (by decide) (by decide) (by decide)

/-- Only names that were given out can name something. -/
lemma Sound.not_carried {s : Sys} (h : Sound s) {k : Kind} {i : ℕ}
    (hnone : (List.range s.fresh).all (fun x => s.owner x != some i)) : ¬ s.Carried k i := by
  have hno : ∀ x, x < s.fresh → s.owner x ≠ some i := fun x hx => by
    simpa using List.all_eq_true.mp hnone x (List.mem_range.mpr hx)
  rintro (⟨j, ⟨kind, id, live⟩, hj, hl, -, hid⟩ | ⟨t, op, r, ht, hr⟩)
  · obtain rfl : live = true := hl
    obtain rfl : id = some i := hid
    exact hno j (h.base.callers.handles j _ hj).lt (owner_of_handle hj)
  · exact hno t (h.base.callers.futs t _ ht).lt (owner_of_slot h.base.callers ht hr)

lemma Sound.idle {s : Sys} (h : Sound s)
    (hnone : (List.range s.fresh).all (fun k => (s.tasks k).isNone)) (k : ℕ) :
    s.tasks k = none := by
  by_contra hne
  obtain ⟨x, hx⟩ := Option.ne_none_iff_exists'.mp hne
  have hk := List.all_eq_true.mp hnone k (List.mem_range.mpr (h.tasks.ok k x hx).lt)
  simp [hx] at hk

/-- A `listen` whose future is dropped before the actor allocates the id leaves its listener in
the registry, and no handle carries it. -/
theorem listener_without_handle :
    ¬ ∀ (cfg : Config) (as : List Action) (s : Sys), run step (Sys.init cfg) as = some s →
      s.created.length < 2 ^ 64 → EachStep step ReleaseDelivered (Sys.init cfg) as →
      NoOrphan s := by
  intro h
  let as : List Action := [.listen ⟨80, none⟩, .enqueue 2, .dequeue, .poll 3, .dropFut 2,
    .answer 3 (.listening "here"), .resume 3, .answer 3 .ok, .resume 3]
  have hrun : (run step (Sys.init pluginConfig) as).any (fun s => decide
      (s.created.length < 2 ^ 64 ∧ s.queue = [] ∧ s.reg.get .listener 1 = some 3 ∧
        (List.range s.fresh).all (fun k => (s.tasks k).isNone) ∧
        (List.range s.fresh).all (fun x => s.owner x != some 1))) := by decide
  obtain ⟨s, hs, hdec⟩ := (Option.any_eq_true _ _).mp hrun
  obtain ⟨hfew, hqueue, hget, htasks, howner⟩ := of_decide_eq_true hdec
  have hsound := sound_of_run hs hfew
  exact hsound.not_carried howner
    (h pluginConfig as s hs hfew (by decide) hqueue (hsound.idle htasks) .listener 1 3 hget
      (by decide))

end Sys

end FungiTransport
