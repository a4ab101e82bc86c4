import FungiTransport.Lib.Lines
import Mathlib.Data.List.TakeWhile
import Mathlib.Data.List.Infix
import Mathlib.Data.List.Induction
import Mathlib.Tactic.Common

/-!
# Fields of a line

The fields of a line are its pieces between whitespace.  They contain none themselves, they
do not change when whitespace is added next to whitespace or at an end of the line, and
trimming neither adds nor removes one.  The second part follows a piece of text into the lines
that it lands in.  This file names nothing of the repository.
-/

namespace FungiTransport.Lib

/-- A position in a text where adding whitespace splits no field: the front part ends in
whitespace, or the back part starts with some, or one of them is empty. -/
def FieldBoundary (u v : Text) : Prop :=
  (∀ c, u.getLast? = some c → isWhitespace c = true) ∨
    ∀ c, v.head? = some c → isWhitespace c = true

@[simp] lemma splitWhitespace_nil : splitWhitespace [] = [] := rfl

/-- Whitespace ends a field. -/
lemma splitWhitespace_append_cons {c : Char} (hc : isWhitespace c = true) (x y : Text) :
    splitWhitespace (x ++ c :: y) = splitWhitespace x ++ splitWhitespace y := by
  rw [splitWhitespace, List.splitOnP_append_cons x y hc, List.filter_append]
  rfl

lemma splitWhitespace_append_left {w : Text} (hw : ∀ c ∈ w, isWhitespace c = true) (y : Text) :
    splitWhitespace (w ++ y) = splitWhitespace y := by
  induction w with
  | nil => rfl
  | cons c w ih =>
    have hc : isWhitespace c = true := hw c (List.mem_cons_self ..)
    have hrest : ∀ d ∈ w, isWhitespace d = true := fun d hd => hw d (List.mem_cons_of_mem _ hd)
    calc splitWhitespace (c :: w ++ y)
        = splitWhitespace [] ++ splitWhitespace (w ++ y) :=
          splitWhitespace_append_cons hc [] (w ++ y)
      _ = splitWhitespace y := by rw [splitWhitespace_nil, List.nil_append, ih hrest]

lemma splitWhitespace_append_right {w : Text} (hw : ∀ c ∈ w, isWhitespace c = true) (x : Text) :
    splitWhitespace (x ++ w) = splitWhitespace x := by
  cases w with
  | nil => rw [List.append_nil]
  | cons c w =>
    have hc : isWhitespace c = true := hw c (List.mem_cons_self ..)
    have hrest : ∀ d ∈ w, isWhitespace d = true := fun d hd => hw d (List.mem_cons_of_mem _ hd)
    have hnone : splitWhitespace w = [] := by
      simpa using splitWhitespace_append_left hrest []
    rw [splitWhitespace_append_cons hc, hnone, List.append_nil]

/-- Whitespace added at a field boundary leaves the fields alone. -/
lemma splitWhitespace_insert {u w v : Text} (hw : ∀ c ∈ w, isWhitespace c = true)
    (huv : FieldBoundary u v) :
    splitWhitespace (u ++ w ++ v) = splitWhitespace (u ++ v) := by
  rcases huv with hu | hv
  · -- the front part is empty or ends in whitespace, which ends its last field
    rcases List.eq_nil_or_concat u with rfl | ⟨u, c, rfl⟩
    · simpa using splitWhitespace_append_left hw v
    · have hc : isWhitespace c = true := hu c (by simp)
      have hcut : ∀ y, u.concat c ++ y = u ++ c :: y := fun y => by simp
      rw [List.append_assoc, hcut, hcut, splitWhitespace_append_cons hc,
        splitWhitespace_append_cons hc, splitWhitespace_append_left hw]
  · cases v with
    | nil =>
      rw [List.append_nil, List.append_nil]
      exact splitWhitespace_append_right hw u
    | cons c v =>
      have hc : isWhitespace c = true := hv c rfl
      rw [splitWhitespace_append_cons hc, splitWhitespace_append_cons hc,
        splitWhitespace_append_right hw]

lemma mem_splitOnP {α : Type} {p : α → Bool} {xs piece : List α} (h : piece ∈ xs.splitOnP p) :
    ∀ x ∈ piece, p x = false := by
  induction xs generalizing piece with
  | nil => simp_all
  | cons y xs ih =>
    rw [List.splitOnP_cons_eq_if_modifyHead] at h
    split at h
    · rcases List.mem_cons.mp h with rfl | h
      · simp
      · exact ih h
    · rename_i hy
      obtain ⟨first, rest, hpieces⟩ := List.exists_cons_of_ne_nil (List.splitOnP_ne_nil p xs)
      rw [hpieces] at h ih
      simp only [List.modifyHead_cons, List.mem_cons] at h
      rcases h with rfl | h
      · intro x hx
        rcases List.mem_cons.mp hx with rfl | hx
        · simpa using hy
        · exact ih (List.mem_cons_self ..) x hx
      · exact ih (List.mem_cons_of_mem _ h)

/-- What can be a field: it is not empty and contains no whitespace. -/
def IsField (f : Text) : Prop := f ≠ [] ∧ ∀ c ∈ f, isWhitespace c = false

instance (f : Text) : Decidable (IsField f) :=
  @instDecidableAnd _ _ _ (List.decidableBAll (fun c => isWhitespace c = false) f)

lemma isField_of_mem {line f : Text} (h : f ∈ splitWhitespace line) : IsField f := by
  obtain ⟨hpiece, hne⟩ := List.mem_filter.mp h
  exact ⟨by simpa using hne, mem_splitOnP hpiece⟩

lemma splitWhitespace_of_isField {f : Text} (h : IsField f) : splitWhitespace f = [f] := by
  rw [splitWhitespace, List.splitOnP_eq_singleton h.2]
  simp [h.1]

/-- A field followed by a blank is split off. -/
lemma splitWhitespace_field_append {f : Text} (h : IsField f) (rest : Text) :
    splitWhitespace (f ++ ' ' :: rest) = f :: splitWhitespace rest := by
  rw [splitWhitespace_append_cons (by decide), splitWhitespace_of_isField h]
  rfl

/-- Fields with one blank between two of them are told apart. -/
lemma splitWhitespace_intercalate {fs : List Text} (h : ∀ f ∈ fs, IsField f) :
    splitWhitespace ([' '].intercalate fs) = fs := by
  induction fs with
  | nil => rfl
  | cons f fs ih =>
    have hf : IsField f := h f (List.mem_cons_self ..)
    have hrest : ∀ f ∈ fs, IsField f := fun g hg => h g (List.mem_cons_of_mem _ hg)
    cases fs with
    | nil => rw [List.intercalate_singleton, splitWhitespace_of_isField hf]
    | cons g fs =>
      rw [List.intercalate_cons_cons, List.append_assoc]
      exact (splitWhitespace_field_append hf _).trans (congrArg (f :: ·) (ih hrest))

lemma notMem_intercalate {fs : List Text} (h : ∀ f ∈ fs, IsField f) :
    '\n' ∉ [' '].intercalate fs := by
  induction fs with
  | nil => exact List.not_mem_nil
  | cons f fs ih =>
    have hf : '\n' ∉ f := fun hlf => by
      have := (h f (List.mem_cons_self ..)).2 _ hlf
      revert this
      decide
    have hrest : '\n' ∉ [' '].intercalate fs := ih fun g hg => h g (List.mem_cons_of_mem _ hg)
    cases fs with
    | nil => rwa [List.intercalate_singleton]
    | cons g fs =>
      rw [List.intercalate_cons_cons]
      simp only [List.mem_append, List.mem_singleton, not_or]
      exact ⟨⟨hf, by decide⟩, hrest⟩

/-! ## Trimming -/

lemma trimEnd_append (line : Text) :
    ∃ w, line = trimEnd line ++ w ∧ ∀ c ∈ w, isWhitespace c = true := by
  refine ⟨(line.reverse.takeWhile isWhitespace).reverse, ?_, ?_⟩
  · rw [trimEnd, ← List.reverse_append, List.takeWhile_append_dropWhile, List.reverse_reverse]
  · intro c hc
    exact List.mem_takeWhile_imp (List.mem_reverse.mp hc)

lemma splitWhitespace_dropWhile (line : Text) :
    splitWhitespace (line.dropWhile isWhitespace) = splitWhitespace line := by
  have hw : ∀ c ∈ line.takeWhile isWhitespace, isWhitespace c = true := fun c hc =>
    List.mem_takeWhile_imp hc
  conv_rhs => rw [← List.takeWhile_append_dropWhile (p := isWhitespace) (l := line)]
  exact (splitWhitespace_append_left hw _).symm

/-- Trimming neither adds nor removes a field. -/
lemma splitWhitespace_trim (line : Text) : splitWhitespace (trim line) = splitWhitespace line := by
  obtain ⟨w, hline, hw⟩ := trimEnd_append (line.dropWhile isWhitespace)
  calc splitWhitespace (trim line)
      = splitWhitespace (trimEnd (line.dropWhile isWhitespace) ++ w) :=
        (splitWhitespace_append_right hw _).symm
    _ = splitWhitespace line := by rw [← hline, splitWhitespace_dropWhile]

lemma head?_splitWhitespace {line : Text} (h : ∀ c, line.head? = some c → isWhitespace c = false) :
    (splitWhitespace line).head?.bind List.head? = line.head? := by
  cases line with
  | nil => rfl
  | cons c line =>
    have hc : ¬ isWhitespace c = true := by simpa using h c rfl
    obtain ⟨first, rest, hpieces⟩ :=
      List.exists_cons_of_ne_nil (List.splitOnP_ne_nil isWhitespace line)
    rw [splitWhitespace, List.splitOnP_cons_eq_if_modifyHead, if_neg hc, hpieces]
    simp

/-- A trimmed line starts with the first character of its first field. -/
lemma head?_trim (line : Text) :
    (trim line).head? = (splitWhitespace line).head?.bind List.head? := by
  rw [← splitWhitespace_trim]
  refine (head?_splitWhitespace fun c hc => ?_).symm
  obtain ⟨w, hline, -⟩ := trimEnd_append (line.dropWhile isWhitespace)
  have hhead : (line.dropWhile isWhitespace).head? = some c := by
    rw [hline, List.head?_append, show (trimEnd (line.dropWhile isWhitespace)).head? = some c from hc]
    rfl
  have hnot := List.head?_dropWhile_not isWhitespace line
  rw [hhead] at hnot
  simpa using hnot

lemma trim_eq_nil (line : Text) : trim line = [] ↔ splitWhitespace line = [] := by
  rw [← List.head?_eq_none_iff, head?_trim]
  rcases hsplit : splitWhitespace line with _ | ⟨f, fs⟩
  · simp
  · have hmem : f ∈ splitWhitespace line := hsplit ▸ List.mem_cons_self ..
    simp [(isField_of_mem hmem).1]

/-! ## Pieces of text in their lines -/

section Pieces

variable {α : Type} [DecidableEq α] (sep : α)

/-- What is appended to a text goes to its last line. -/
lemma splitOn_append_right (u : List α) :
    ∃ before x, sep ∉ x ∧ x <:+ u ∧
      ∀ rest, (u ++ rest).splitOn sep = before ++ (x ++ rest).splitOn sep := by
  induction u using List.reverseRecOn with
  | nil => exact ⟨[], [], List.not_mem_nil, List.suffix_rfl, fun rest => rfl⟩
  | append_singleton u c ih =>
    by_cases hc : c = sep
    · subst hc
      refine ⟨u.splitOn c, [], List.not_mem_nil, List.nil_suffix, fun rest => ?_⟩
      rw [List.append_assoc]
      exact List.splitOnP_append_cons u rest (beq_self_eq_true c)
    · obtain ⟨before, x, hx, hsuf, hsplit⟩ := ih
      refine ⟨before, x ++ [c], ?_, ?_, fun rest => ?_⟩
      · simp only [List.mem_append, List.mem_singleton, not_or]
        exact ⟨hx, fun h => hc h.symm⟩
      · obtain ⟨front, rfl⟩ := hsuf
        exact ⟨front, by rw [List.append_assoc]⟩
      · rw [List.append_assoc, List.append_assoc, hsplit]

/-- What is put in front of a text goes to its first line. -/
lemma splitOn_append_left (v : List α) :
    ∃ y after, y <+: v ∧
      ∀ front, sep ∉ front → (front ++ v).splitOn sep = (front ++ y) :: after := by
  induction v with
  | nil =>
    refine ⟨[], [], List.prefix_rfl, fun front hfront => ?_⟩
    rw [List.append_nil, splitOn_eq_singleton hfront]
  | cons c v ih =>
    by_cases hc : c = sep
    · subst hc
      refine ⟨[], v.splitOn c, List.nil_prefix, fun front hfront => ?_⟩
      rw [splitOn_append_cons hfront, List.append_nil]
    · obtain ⟨y, after, hpre, hsplit⟩ := ih
      refine ⟨c :: y, after, ?_, fun front hfront => ?_⟩
      · exact List.cons_prefix_cons.mpr ⟨rfl, hpre⟩
      · have hfront' : sep ∉ front ++ [c] := by
          simp only [List.mem_append, List.mem_singleton, not_or]
          exact ⟨hfront, fun h => hc h.symm⟩
        simpa using hsplit (front ++ [c]) hfront'

/-- The last line of the front part and the first line of the back part become one. -/
lemma splitOn_insert (u v : List α) :
    ∃ before x y after, x <:+ u ∧ y <+: v ∧
      ∀ w, sep ∉ w → (u ++ w ++ v).splitOn sep = before ++ (x ++ w ++ y) :: after := by
  obtain ⟨before, x, hx, hsuf, hu⟩ := splitOn_append_right sep u
  obtain ⟨y, after, hpre, hv⟩ := splitOn_append_left sep v
  refine ⟨before, x, y, after, hsuf, hpre, fun w hw => ?_⟩
  have hxw : sep ∉ x ++ w := by
    simp only [List.mem_append, not_or]
    exact ⟨hx, hw⟩
  rw [List.append_assoc, hu, ← List.append_assoc, hv (x ++ w) hxw]

end Pieces

lemma FieldBoundary.of_pieces {u v x y : Text} (h : FieldBoundary u v) (hx : x <:+ u)
    (hy : y <+: v) : FieldBoundary x y := by
  obtain ⟨front, rfl⟩ := hx
  obtain ⟨back, rfl⟩ := hy
  rcases h with h | h
  · left
    intro c hc
    exact h c (by rw [List.getLast?_append, hc]; rfl)
  · right
    intro c hc
    exact h c (by rw [List.head?_append, hc]; rfl)

/-- A line keeps its fields without its carriage return. -/
lemma splitWhitespace_stripCr (line : Text) :
    splitWhitespace (stripCr line) = splitWhitespace line := by
  rw [stripCr]
  split
  · rename_i hcr
    obtain ⟨front, rfl⟩ := List.getLast?_eq_some_iff.mp hcr
    have hw : ∀ c ∈ ['\r'], isWhitespace c = true := List.forall_mem_singleton.mpr (by decide)
    rw [List.dropLast_concat, splitWhitespace_append_right hw]
  · rfl

end FungiTransport.Lib
