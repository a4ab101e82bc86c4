import Mathlib.Data.Set.Insert
import Mathlib.Data.List.Pairwise
import Mathlib.Logic.Relation
import Mathlib.Logic.Function.Basic
import Mathlib.Tactic.Common

/-!
# Owned resources behind a first-in first-out queue

Resources are minted, carried by tokens, and used and released through one queue that is
worked off in order.  A token that carries a resource may queue a use of it; when it queues
the release it stops carrying the resource.  If at most one token carries a resource at a
time, then every use is taken from the queue before the release of its resource
(`Book.WF.queued`), and a resource that no careless step orphaned is dead, about to be
released, or carried (`Book.Accounted`).  This file names nothing of the repository.
-/

namespace FungiTransport.Lib

/-- What is queued about a resource. -/
inductive Entry (ι : Type*) where
  | use (i : ι)
  | release (i : ι)

/-- The resource that an entry is about. -/
def Entry.id {ι : Type*} : Entry ι → ι
  | .use i | .release i => i

/-- Who carries which resource, what is queued, which resources were minted and which were
released. -/
structure Book (τ ι : Type*) where
  owner : τ → Option ι
  queue : List (Entry ι)
  minted : Set ι
  dead : Set ι

namespace Book

variable {τ ι : Type*}

/-- The steps of the protocol; only a careless one orphans a resource. -/
inductive Step [DecidableEq τ] (careful : Prop) : Book τ ι → Book τ ι → Prop where
  /-- A new resource is minted into the hands of a token. -/
  | mint {b : Book τ ι} {x : τ} {i : ι} (hx : b.owner x = none) (hi : i ∉ b.minted) :
      Step careful b
        { b with owner := Function.update b.owner x (some i), minted := insert i b.minted }
  /-- A resource changes hands. -/
  | hand {b : Book τ ι} {x y : τ} {i : ι} (hx : b.owner x = some i) (hy : b.owner y = none) :
      Step careful b
        { b with owner := Function.update (Function.update b.owner x none) y (some i) }
  | use {b : Book τ ι} {x : τ} {i : ι} (hx : b.owner x = some i) :
      Step careful b { b with queue := b.queue ++ [.use i] }
  | release {b : Book τ ι} {x : τ} {i : ι} (hx : b.owner x = some i) :
      Step careful b
        { b with owner := Function.update b.owner x none, queue := b.queue ++ [.release i] }
  | popUse {b : Book τ ι} {i : ι} {rest : List (Entry ι)} (hq : b.queue = .use i :: rest) :
      Step careful b { b with queue := rest }
  | popRelease {b : Book τ ι} {i : ι} {rest : List (Entry ι)} (hq : b.queue = .release i :: rest) :
      Step careful b { b with queue := rest, dead := insert i b.dead }
  /-- A token forgets its resource. -/
  | lose {b : Book τ ι} {x : τ} (hc : ¬ careful) :
      Step careful b { b with owner := Function.update b.owner x none }
  /-- A new resource is minted into nobody's hands. -/
  | leak {b : Book τ ι} {i : ι} (hc : ¬ careful) (hi : i ∉ b.minted) :
      Step careful b { b with minted := insert i b.minted }

/-- Some steps, none included. -/
def Steps [DecidableEq τ] (careful : Prop) : Book τ ι → Book τ ι → Prop := Relation.ReflTransGen (Step careful)

namespace Steps

variable [DecidableEq τ] {careful : Prop} {a b c : Book τ ι}

lemma of_eq (h : b = a) : Steps careful a b := h ▸ .refl

lemma one (h : Step careful a b) : Steps careful a b := .single h

lemma trans (hab : Steps careful a b) (hbc : Steps careful b c) : Steps careful a c :=
  Relation.ReflTransGen.trans hab hbc

end Steps

/-- A resource has one carrier, who knows that it is neither released nor about to be; behind
the release of a resource nothing is queued about it. -/
structure WF (b : Book τ ι) : Prop where
  unique : ∀ x y i, b.owner x = some i → b.owner y = some i → x = y
  carried : ∀ x i, b.owner x = some i → i ∈ b.minted ∧ i ∉ b.dead ∧ Entry.release i ∉ b.queue
  order : b.queue.Pairwise fun e f => ∀ i, e = .release i → f.id ≠ i
  queued : ∀ e ∈ b.queue, e.id ∈ b.minted ∧ e.id ∉ b.dead
  dead_minted : b.dead ⊆ b.minted

/-- No resource is orphaned: each is dead, about to be released, or carried. -/
def Accounted (b : Book τ ι) : Prop :=
  ∀ i ∈ b.minted, i ∈ b.dead ∨ Entry.release i ∈ b.queue ∨ ∃ x, b.owner x = some i

/-- An entry about a carried resource may be queued behind all others. -/
lemma order_concat {b : Book τ ι} (h : WF b) {x : τ} {i : ι} (hx : b.owner x = some i)
    {e : Entry ι} (he : e.id = i) :
    (b.queue ++ [e]).Pairwise fun e f => ∀ i, e = .release i → f.id ≠ i := by
  refine List.pairwise_append.mpr ⟨h.order, by simp, fun d hd f hf j hj => ?_⟩
  rintro rfl
  obtain rfl := List.mem_singleton.mp hf
  exact (h.carried x i hx).2.2 (he ▸ hj ▸ hd)

lemma queued_concat {b : Book τ ι} (h : WF b) {x : τ} {i : ι} (hx : b.owner x = some i)
    {e : Entry ι} (he : e.id = i) :
    ∀ f ∈ b.queue ++ [e], f.id ∈ b.minted ∧ f.id ∉ b.dead := by
  intro f hf
  rcases List.mem_append.mp hf with hf | hf
  · exact h.queued f hf
  · obtain rfl := List.mem_singleton.mp hf
    exact he ▸ ⟨(h.carried x i hx).1, (h.carried x i hx).2.1⟩

variable [DecidableEq τ]

lemma update_some {owner : τ → Option ι} {x y : τ} {i j : ι}
    (h : Function.update owner x (some i) y = some j) : y = x ∧ j = i ∨ owner y = some j := by
  by_cases hyx : y = x
  · subst hyx
    exact .inl ⟨rfl, by simpa using h.symm⟩
  · exact .inr (by simpa [Function.update_of_ne hyx] using h)

lemma update_none {owner : τ → Option ι} {x y : τ} {j : ι}
    (h : Function.update owner x none y = some j) : y ≠ x ∧ owner y = some j := by
  by_cases hyx : y = x
  · subst hyx
    exact absurd h (by simp)
  · exact ⟨hyx, by simpa [Function.update_of_ne hyx] using h⟩

/-- Handing a resource on keeps each one with one carrier. -/
lemma hand_owner {owner : τ → Option ι} {x y z : τ} {i j : ι}
    (hz : Function.update (Function.update owner x none) y (some i) z = some j) :
    (z = y ∧ j = i) ∨ (z ≠ x ∧ owner z = some j) := by
  rcases update_some hz with h | h
  · exact .inl h
  · exact .inr (update_none h)

theorem Step.wf {careful : Prop} {a b : Book τ ι} (hstep : Step careful a b) (h : WF a) :
    WF b := by
  cases hstep with
  | @mint x i hx hi =>
    -- a carried resource is minted, so nobody carries the new one
    have hnew : ∀ y, a.owner y ≠ some i := fun y hy => hi (h.carried y i hy).1
    refine ⟨fun y z j hy hz => ?_, fun y j hy => ?_, h.order, fun e he => ?_,
      h.dead_minted.trans (Set.subset_insert i _)⟩
    · rcases update_some hy with ⟨hyx, hj⟩ | hy' <;> rcases update_some hz with ⟨hzx, hj'⟩ | hz'
      · exact hyx.trans hzx.symm
      · exact absurd (hj ▸ hz') (hnew z)
      · exact absurd (hj' ▸ hy') (hnew y)
      · exact h.unique y z j hy' hz'
    · rcases update_some hy with ⟨-, rfl⟩ | hy'
      · exact ⟨Set.mem_insert j _, fun hd => hi (h.dead_minted hd),
          fun hq => hi (h.queued _ hq).1⟩
      · exact ⟨Set.mem_insert_of_mem _ (h.carried y j hy').1, (h.carried y j hy').2⟩
    · exact ⟨Set.mem_insert_of_mem _ (h.queued e he).1, (h.queued e he).2⟩
  | @hand x y i hx hy =>
    refine ⟨fun u v j hu hv => ?_, fun u j hu => ?_, h.order, h.queued, h.dead_minted⟩
    · rcases hand_owner hu with ⟨hu', hj⟩ | ⟨hux, hu'⟩ <;>
        rcases hand_owner hv with ⟨hv', hj'⟩ | ⟨hvx, hv'⟩
      · exact hu'.trans hv'.symm
      · exact absurd (h.unique v x j hv' (hj ▸ hx)) hvx
      · exact absurd (h.unique u x j hu' (hj' ▸ hx)) hux
      · exact h.unique u v j hu' hv'
    · rcases hand_owner hu with ⟨-, rfl⟩ | ⟨-, hu'⟩
      · exact h.carried x j hx
      · exact h.carried u j hu'
  | @use x i hx =>
    refine ⟨h.unique, fun y j hy => ?_, order_concat h hx rfl, queued_concat h hx rfl,
      h.dead_minted⟩
    exact ⟨(h.carried y j hy).1, (h.carried y j hy).2.1, by simp [(h.carried y j hy).2.2]⟩
  | @release x i hx =>
    refine ⟨fun y z j hy hz => ?_, fun y j hy => ?_, order_concat h hx rfl, queued_concat h hx rfl,
      h.dead_minted⟩
    · exact h.unique y z j (update_none hy).2 (update_none hz).2
    · obtain ⟨hyx, hy'⟩ := update_none hy
      have hji : j ≠ i := fun hji => hyx (h.unique y x j hy' (hji ▸ hx))
      refine ⟨(h.carried y j hy').1, (h.carried y j hy').2.1, ?_⟩
      simp [(h.carried y j hy').2.2, hji]
  | @popUse i rest hq =>
    have hrest : ∀ e ∈ rest, e ∈ a.queue := fun e he => hq ▸ List.mem_cons_of_mem _ he
    refine ⟨h.unique, fun y j hy => ?_, (hq ▸ h.order).of_cons, fun e he => h.queued e (hrest e he),
      h.dead_minted⟩
    exact ⟨(h.carried y j hy).1, (h.carried y j hy).2.1,
      fun hr => (h.carried y j hy).2.2 (hrest _ hr)⟩
  | @popRelease i rest hq =>
    have hhead : Entry.release i ∈ a.queue := hq ▸ List.mem_cons_self
    have hrest : ∀ e ∈ rest, e ∈ a.queue := fun e he => hq ▸ List.mem_cons_of_mem _ he
    have horder := h.order
    rw [hq] at horder
    -- nothing about the released resource is queued behind its release
    have hne : ∀ e ∈ rest, e.id ≠ i := fun e he =>
      (List.pairwise_cons.mp horder).1 e he i rfl
    refine ⟨h.unique, fun y j hy => ?_, (hq ▸ h.order).of_cons, fun e he => ?_, ?_⟩
    · have hji : j ≠ i := fun hji => (h.carried y j hy).2.2 (hji ▸ hhead)
      exact ⟨(h.carried y j hy).1, by simp [hji, (h.carried y j hy).2.1],
        fun hr => (h.carried y j hy).2.2 (hrest _ hr)⟩
    · exact ⟨(h.queued e (hrest e he)).1, by simp [hne e he, (h.queued e (hrest e he)).2]⟩
    · exact Set.insert_subset (h.queued _ hhead).1 h.dead_minted
  | @lose x hc =>
    exact ⟨fun y z j hy hz => h.unique y z j (update_none hy).2 (update_none hz).2,
      fun y j hy => h.carried y j (update_none hy).2, h.order, h.queued, h.dead_minted⟩
  | @leak i hc hi =>
    refine ⟨h.unique, fun y j hy => ?_, h.order, fun e he => ?_,
      h.dead_minted.trans (Set.subset_insert i _)⟩
    · exact ⟨Set.mem_insert_of_mem _ (h.carried y j hy).1, (h.carried y j hy).2⟩
    · exact ⟨Set.mem_insert_of_mem _ (h.queued e he).1, (h.queued e he).2⟩

theorem Steps.wf {careful : Prop} {a b : Book τ ι} (hsteps : Steps careful a b) (h : WF a) :
    WF b := by
  induction hsteps with
  | refl => exact h
  | tail _ hstep ih => exact hstep.wf ih

/-- Steps that are all careful orphan nothing. -/
theorem Step.accounted {careful : Prop} (hc : careful) {a b : Book τ ι}
    (hstep : Step careful a b) (h : Accounted a) : Accounted b := by
  cases hstep with
  | @mint x i hx hi =>
    intro j hj
    rcases Set.mem_insert_iff.mp hj with rfl | hj'
    · exact .inr (.inr ⟨x, by simp⟩)
    · rcases h j hj' with hd | hq | ⟨y, hy⟩
      · exact .inl hd
      · exact .inr (.inl hq)
      · have hyx : y ≠ x := fun hyx => by simp [hyx ▸ hy] at hx
        exact .inr (.inr ⟨y, by simpa [Function.update_of_ne hyx] using hy⟩)
  | @hand x y i hx hy =>
    intro j hj
    rcases h j hj with hd | hq | ⟨z, hz⟩
    · exact .inl hd
    · exact .inr (.inl hq)
    · by_cases hzx : z = x
      · obtain rfl : j = i := by simpa [hzx, hx] using hz.symm
        exact .inr (.inr ⟨y, by simp⟩)
      · have hzy : z ≠ y := fun hzy => by simp [hzy ▸ hz] at hy
        exact .inr (.inr ⟨z, by
          simpa [Function.update_of_ne hzy, Function.update_of_ne hzx] using hz⟩)
  | @use x i hx =>
    intro j hj
    rcases h j hj with hd | hq | hy
    · exact .inl hd
    · exact .inr (.inl (List.mem_append_left _ hq))
    · exact .inr (.inr hy)
  | @release x i hx =>
    intro j hj
    rcases h j hj with hd | hq | ⟨y, hy⟩
    · exact .inl hd
    · exact .inr (.inl (List.mem_append_left _ hq))
    · by_cases hyx : y = x
      · obtain rfl : j = i := by simpa [hyx, hx] using hy.symm
        exact .inr (.inl (by simp))
      · exact .inr (.inr ⟨y, by simpa [Function.update_of_ne hyx] using hy⟩)
  | @popUse i rest hq =>
    intro j hj
    rcases h j hj with hd | hr | hy
    · exact .inl hd
    · exact .inr (.inl (by simpa [hq] using hr))
    · exact .inr (.inr hy)
  | @popRelease i rest hq =>
    intro j hj
    rcases h j hj with hd | hr | hy
    · exact .inl (Set.mem_insert_of_mem _ hd)
    · rcases List.mem_cons.mp (hq ▸ hr) with hji | hr'
      · obtain rfl := Entry.release.inj hji
        exact .inl (Set.mem_insert j _)
      · exact .inr (.inl hr')
    · exact .inr (.inr hy)
  -- only these two orphan a resource, and a careful step is neither
  | lose hn => exact absurd hc hn
  | leak hn hi => exact absurd hc hn

theorem Steps.accounted {careful : Prop} (hc : careful) {a b : Book τ ι}
    (hsteps : Steps careful a b) (h : Accounted a) : Accounted b := by
  induction hsteps with
  | refl => exact h
  | tail _ hstep ih => exact hstep.accounted hc ih

end Book

end FungiTransport.Lib
