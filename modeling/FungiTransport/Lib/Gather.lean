import Mathlib.Data.List.Range
import Mathlib.Tactic.Common

/-!
# Gathering what named slots hold

Slots are named by numbers, and all names are below a bound that grows.  `gather` lists what the
slots hold; most often at most one of them holds anything, and the list is that thing or empty.
This file names nothing of the repository.
-/

namespace FungiTransport.Lib

variable {α : Type*}

/-- What the slots with names below `n` hold. -/
def gather (n : ℕ) (g : ℕ → Option α) : List α := (List.range n).filterMap g

lemma gather_succ (n : ℕ) (g : ℕ → Option α) : gather (n + 1) g = gather n g ++ (g n).toList := by
  simp only [gather, List.range_succ, List.filterMap_append]
  cases h : g n <;> simp [h]

lemma gather_eq_nil {n : ℕ} {g : ℕ → Option α} (h : ∀ t, g t = none) : gather n g = [] := by
  simp [gather, h]

/-- Empty slots behind the bound may be counted or not. -/
lemma gather_of_le {n m : ℕ} {g : ℕ → Option α} (hnm : n ≤ m) (hg : ∀ t, n ≤ t → g t = none) :
    gather m g = gather n g := by
  induction m, hnm using Nat.le_induction with
  | base => rfl
  | succ m hm ih => rw [gather_succ, ih, hg m hm, Option.toList_none, List.append_nil]

/-- The list depends only on what the slots hold. -/
lemma gather_congr {n m : ℕ} {g g' : ℕ → Option α} (h : ∀ t, g' t = g t)
    (hg : ∀ t, n ≤ t → g t = none) (hg' : ∀ t, m ≤ t → g' t = none) :
    gather m g' = gather n g := by
  obtain rfl : g' = g := funext h
  rcases le_total n m with hnm | hmn
  · exact gather_of_le hnm hg
  · exact (gather_of_le hmn hg').symm

/-- A single slot is all there is. -/
lemma gather_single {n t : ℕ} {g : ℕ → Option α} (h : ∀ u, u ≠ t → g u = none)
    (hg : ∀ u, n ≤ u → g u = none) : gather n g = (g t).toList := by
  rw [← gather_of_le (le_max_left n (t + 1)) hg,
    gather_of_le (n := t + 1) (le_max_right n (t + 1)) fun u hu => h u (by omega), gather_succ]
  have hbelow : gather t g = [] := by
    refine List.filterMap_eq_nil_iff.mpr fun u hu => h u ?_
    have hut : u < t := List.mem_range.mp hu
    omega
  rw [hbelow, List.nil_append]

end FungiTransport.Lib
