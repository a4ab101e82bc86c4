import FungiTransport.Lib.Text
import Mathlib.Tactic.Common

/-!
# Lines of bytes and of text

A text cut at its line feeds, as bytes and as characters: reading one line leaves the lines
behind it, decoding does not mind the line feed, and trimming drops it.  This file names nothing of
the repository.
-/

namespace FungiTransport.Lib

/-- The pieces between separators; what follows the last one is a piece unless it is empty. -/
def splitLines {α : Type} [DecidableEq α] (sep : α) (xs : List α) : List (List α) :=
  let ls := xs.splitOn sep
  ls.dropLast ++ ls.getLast?.toList.filter (· ≠ [])

section SplitLines

variable {α : Type} [DecidableEq α] {sep : α} {line : List α}

/-- Cutting a first piece off. -/
lemma splitOn_append_cons (h : sep ∉ line) (rest : List α) :
    (line ++ sep :: rest).splitOn sep = line :: rest.splitOn sep := by
  have hne : ∀ x ∈ line, (x == sep) = false := by
    intro x hx
    simp only [beq_eq_false_iff_ne, ne_eq]
    rintro rfl
    exact h hx
  exact List.splitOnP_append_cons_of_forall_mem hne sep (by simp) rest

lemma splitOn_eq_singleton (h : sep ∉ line) : line.splitOn sep = [line] := by
  refine List.splitOnP_eq_singleton fun x hx => ?_
  simp only [beq_eq_false_iff_ne, ne_eq]
  rintro rfl
  exact h hx

lemma splitOn_ne_nil (xs : List α) : xs.splitOn sep ≠ [] := List.splitOnP_ne_nil _ _

lemma splitLines_append_cons (h : sep ∉ line) (rest : List α) :
    splitLines sep (line ++ sep :: rest) = line :: splitLines sep rest := by
  obtain ⟨l, ls, hls⟩ := List.exists_cons_of_ne_nil (@splitOn_ne_nil _ _ sep rest)
  rw [splitLines, splitLines, splitOn_append_cons h, hls]
  rfl

@[simp] lemma splitLines_nil : splitLines sep [] = [] := rfl

lemma splitLines_of_notMem (h : sep ∉ line) :
    splitLines sep line = if line = [] then [] else [line] := by
  rw [splitLines, splitOn_eq_singleton h]
  by_cases hnil : line = [] <;> simp [hnil]

end SplitLines

/-! ## Decoding a line -/

/-- A line feed is no continuation byte. -/
lemma decodeChar_append_lf (b : UInt8) (bs : List UInt8) :
    (∀ c n, decodeChar b bs = .ok (c, n) →
      decodeChar b (bs ++ [10]) = .ok (c, n) ∧ 0 < n ∧ n - 1 ≤ bs.length) ∧
    (∀ e, decodeChar b bs = .error e → ∃ e', decodeChar b (bs ++ [10]) = .error e') := by
  have hcont : isCont 10 = false := by decide
  have hthree : isSecondOfThree b 10 = false := by
    unfold isSecondOfThree
    split
    · decide
    · split <;> decide
  have hfour : isSecondOfFour b 10 = false := by
    unfold isSecondOfFour
    split
    · decide
    · split <;> decide
  have hwidth : utf8CharWidth b = 0 ∨ utf8CharWidth b = 1 ∨ utf8CharWidth b = 2 ∨
      utf8CharWidth b = 3 ∨ utf8CharWidth b = 4 := by
    unfold utf8CharWidth
    repeat' split
    all_goals simp
  -- by the width of the character; a line that ends inside one meets the line feed there
  rcases hwidth with hw | hw | hw | hw | hw
  · simp [decodeChar, hw]
  · refine ⟨fun c n h => ?_, by simp [decodeChar, hw]⟩
    simp only [decodeChar, hw] at h ⊢
    obtain ⟨-, rfl⟩ := Prod.mk.inj (Except.ok.inj h)
    exact ⟨h, Nat.one_pos, Nat.zero_le _⟩
  · rcases bs with _ | ⟨b₁, bs⟩
    · simp [decodeChar, hw, hcont]
    · by_cases h₁ : isCont b₁ = true <;> simp [decodeChar, hw, h₁]
  · rcases bs with _ | ⟨b₁, _ | ⟨b₂, bs⟩⟩
    · simp [decodeChar, hw, hthree]
    · by_cases h₁ : isSecondOfThree b b₁ = true <;> simp [decodeChar, hw, h₁, hcont]
    · by_cases h₁ : isSecondOfThree b b₁ = true <;> by_cases h₂ : isCont b₂ = true <;>
        simp [decodeChar, hw, h₁, h₂]
  · rcases bs with _ | ⟨b₁, _ | ⟨b₂, _ | ⟨b₃, bs⟩⟩⟩
    · simp [decodeChar, hw, hfour]
    · by_cases h₁ : isSecondOfFour b b₁ = true <;> simp [decodeChar, hw, h₁, hcont]
    · by_cases h₁ : isSecondOfFour b b₁ = true <;> by_cases h₂ : isCont b₂ = true <;>
        simp [decodeChar, hw, h₁, h₂, hcont]
    · by_cases h₁ : isSecondOfFour b b₁ = true <;> by_cases h₂ : isCont b₂ = true <;>
        by_cases h₃ : isCont b₃ = true <;> simp [decodeChar, hw, h₁, h₂, h₃]

lemma fromUtf8At_append_lf (pos skip : ℕ) (bs : List UInt8) (hskip : skip ≤ bs.length) :
    (∀ t, fromUtf8At pos skip bs = .ok t →
      fromUtf8At pos skip (bs ++ [10]) = .ok (t ++ ['\n'])) ∧
    (∀ e, fromUtf8At pos skip bs = .error e →
      ∃ e', fromUtf8At pos skip (bs ++ [10]) = .error e') := by
  induction bs generalizing pos skip with
  | nil =>
    obtain rfl : skip = 0 := by simpa using hskip
    refine ⟨fun t ht => ?_, fun e he => absurd he (by simp [fromUtf8At])⟩
    obtain rfl : [] = t := by simpa [fromUtf8At] using ht
    rfl
  | cons b bs ih =>
    cases skip with
    -- inside a character that was decoded at its first byte
    | succ skip => exact ih (pos + 1) skip (by simpa using hskip)
    | zero =>
      obtain ⟨hok, herr⟩ := decodeChar_append_lf b bs
      cases hdec : decodeChar b bs with
      | error len =>
        obtain ⟨len', hdec'⟩ := herr len hdec
        simp [fromUtf8At, hdec, hdec']
      | ok cn =>
        obtain ⟨c, n⟩ := cn
        obtain ⟨hdec', -, hlen⟩ := hok c n hdec
        obtain ⟨ihok, iherr⟩ := ih (pos + 1) (n - 1) hlen
        simp only [List.cons_append, fromUtf8At, hdec, hdec']
        constructor
        · intro t ht
          cases hrest : fromUtf8At (pos + 1) (n - 1) bs with
          | error e => simp [hrest, Except.map] at ht
          | ok t' =>
            obtain rfl : c :: t' = t := by simpa [hrest, Except.map] using ht
            rw [ihok t' hrest]
            rfl
        · intro e he
          cases hrest : fromUtf8At (pos + 1) (n - 1) bs with
          | error e' =>
            obtain ⟨e'', he''⟩ := iherr e' hrest
            exact ⟨e'', by rw [he'']; rfl⟩
          | ok t' => simp [hrest, Except.map] at he

/-- A line is decoded with its line feed as it is without. -/
lemma fromUtf8_append_lf (bs : List UInt8) :
    (∀ t, fromUtf8 bs = .ok t → fromUtf8 (bs ++ [10]) = .ok (t ++ ['\n'])) ∧
    (∀ e, fromUtf8 bs = .error e → ∃ e', fromUtf8 (bs ++ [10]) = .error e') :=
  fromUtf8At_append_lf 0 0 bs (Nat.zero_le _)

lemma trimEnd_append_lf (t : Text) : trimEnd (t ++ ['\n']) = trimEnd t := by
  have hlf : isWhitespace '\n' = true := by decide
  simp [trimEnd, hlf]

/-! ## Prefixes -/

lemma stripPrefix_eq_some {p t rest : Text} : stripPrefix p t = some rest ↔ t = p ++ rest := by
  induction p generalizing t with
  | nil => simp [stripPrefix]
  | cons c p ih =>
    cases t with
    | nil => simp [stripPrefix]
    | cons d t =>
      by_cases hcd : c = d
      · subst hcd
        simp [stripPrefix, ih]
      · have hdc : ¬ d = c := fun h => hcd h.symm
        simp [stripPrefix, hcd, hdc]

end FungiTransport.Lib
