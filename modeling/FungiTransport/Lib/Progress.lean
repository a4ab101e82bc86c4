import FungiTransport.Lib.Run
import Mathlib.Algebra.BigOperators.Group.Finset.Basic

/-!
# Runs that come to an end

A rank that every step lowers bounds the length of every run, so that a run which goes on as
long as it can ends in a state where no further step is possible.  What such a state looks like
is then what the component always arrives at, whatever the interleaving.  This file names
nothing of the repository.
-/

namespace FungiTransport.Lib

variable {σ α : Type*} (step : σ → α → Option σ)

/-- No step that meets `P` is possible. -/
def Stuck (P : σ → α → Prop) (s : σ) : Prop := ∀ a s', P s a → step s a ≠ some s'

variable {step}

lemma Stuck.step_eq_none {P : σ → α → Prop} {s : σ} {a : α} (h : Stuck step P s) (ha : P s a) :
    step s a = none :=
  Option.eq_none_iff_forall_ne_some.mpr fun s' => h a s' ha

section Rank

variable {P : σ → α → Prop} {I : σ → Prop} {rank : σ → ℕ}
  (hstep : ∀ s a s', I s → P s a → step s a = some s' → I s' ∧ rank s' < rank s)

include hstep

/-- **The rank rule.**  When every step lowers the rank, a run is no longer than the rank that
it uses up. -/
theorem length_add_rank_le {as : List α} {s t : σ} (hs : I s) (hP : EachStep step P s as)
    (hrun : run step s as = some t) : as.length + rank t ≤ rank s := by
  induction as generalizing s with
  | nil =>
    obtain rfl : s = t := by simpa using hrun
    simp
  | cons a as ih =>
    obtain ⟨s', hs', hrun'⟩ := run_cons.mp hrun
    obtain ⟨hI, hlt⟩ := hstep s a s' hs hP.1 hs'
    have hrest := ih hI (hP.2 s' hs') hrun'
    rw [List.length_cons]
    omega

end Rank

/-! ## Ranks of tables -/

section Table

variable {β : Type*} {w : β → ℕ} {n : ℕ} {f g : ℕ → Option β}

/-- The weight of the entries of a table below `n`. -/
def tableWeight (w : β → ℕ) (n : ℕ) (f : ℕ → Option β) : ℕ :=
  ∑ i ∈ Finset.range n, (f i).elim 0 w

lemma tableWeight_congr (h : ∀ i, (f i).elim 0 w = (g i).elim 0 w) :
    tableWeight w n f = tableWeight w n g :=
  Finset.sum_congr rfl fun i _ => h i

/-- What is empty weighs nothing. -/
lemma tableWeight_of_le {m : ℕ} (hle : n ≤ m) (hnone : ∀ i, n ≤ i → f i = none) :
    tableWeight w m f = tableWeight w n f := by
  refine (Finset.sum_subset (Finset.range_subset_range.mpr hle) fun i _ hi => ?_).symm
  rw [hnone i (by simpa using hi)]
  rfl

/-- An entry is replaced by another one. -/
lemma tableWeight_update {i : ℕ} (hi : i < n) (y : Option β) :
    tableWeight w n (Function.update f i y) + (f i).elim 0 w = tableWeight w n f + y.elim 0 w := by
  have hmem : i ∈ Finset.range n := Finset.mem_range.mpr hi
  have hrest : ∑ j ∈ (Finset.range n).erase i, (Function.update f i y j).elim 0 w =
      ∑ j ∈ (Finset.range n).erase i, (f j).elim 0 w :=
    Finset.sum_congr rfl fun j hj => by
      rw [Function.update_of_ne (Finset.ne_of_mem_erase hj)]
  unfold tableWeight
  rw [← Finset.add_sum_erase _ _ hmem, ← Finset.add_sum_erase _ (fun j => (f j).elim 0 w) hmem, hrest,
    Function.update_self]
  omega

/-- An entry is added where there was none. -/
lemma tableWeight_add {i : ℕ} (hi : f i = none) (y : Option β) :
    tableWeight w n (Function.update f i y) ≤ tableWeight w n f + y.elim 0 w := by
  rcases Nat.lt_or_ge i n with hlt | hge
  · have hupdate := tableWeight_update (w := w) (f := f) hlt y
    rw [hi, Option.elim_none] at hupdate
    omega
  · have hsame : tableWeight w n (Function.update f i y) = tableWeight w n f :=
      Finset.sum_congr rfl fun j hj => by
        rw [Function.update_of_ne (by have := Finset.mem_range.mp hj; omega)]
    omega

end Table

end FungiTransport.Lib
