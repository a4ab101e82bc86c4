import Mathlib.Data.List.Basic

/-!
# Text as the standard library reads it

Text is a list of characters.  The functions here are those of Rust's `str`: decoding from
UTF-8 with the position of the first error, lines, trimming and fields, the last three by the
Unicode property `White_Space`.  This file names nothing of the repository.
-/

namespace FungiTransport.Lib

/-- A text, as its characters. -/
abbrev Text := List Char

/-- `str::as_bytes` of a string. -/
def asBytes (s : String) : List UInt8 := s.toByteArray.data.toList

lemma asBytes_injective : Function.Injective asBytes := fun _ _ h =>
  String.toByteArray_inj.mp (ByteArray.ext (Array.toList_inj.mp h))

/-- `Utf8Error`: how many bytes are valid, and how many make up the invalid sequence behind
them (`none` when the input ends inside a sequence). -/
structure Utf8Error where
  validUpTo : ℕ
  errorLen : Option ℕ
deriving DecidableEq, Repr

/-- The `Display` text of a `Utf8Error`. -/
def Utf8Error.toString (e : Utf8Error) : String :=
  match e.errorLen with
  | some n => s!"invalid utf-8 sequence of {n} bytes from index {e.validUpTo}"
  | none => s!"incomplete utf-8 byte sequence from index {e.validUpTo}"

/-- A continuation byte. -/
def isCont (b : UInt8) : Bool := 0x80 ≤ b && b ≤ 0xBF

/-- The second bytes that may follow the first byte of a sequence of three. -/
def isSecondOfThree (first b : UInt8) : Bool :=
  if first = 0xE0 then 0xA0 ≤ b && b ≤ 0xBF
  else if first = 0xED then 0x80 ≤ b && b ≤ 0x9F
  else isCont b

/-- The second bytes that may follow the first byte of a sequence of four. -/
def isSecondOfFour (first b : UInt8) : Bool :=
  if first = 0xF0 then 0x90 ≤ b && b ≤ 0xBF
  else if first = 0xF4 then 0x80 ≤ b && b ≤ 0x8F
  else isCont b

/-- How many bytes a sequence has that starts with `first`, `0` for bytes that start none. -/
def utf8CharWidth (first : UInt8) : ℕ :=
  if first < 0x80 then 1
  else if first < 0xC2 then 0
  else if first < 0xE0 then 2
  else if first < 0xF0 then 3
  else if first < 0xF5 then 4
  else 0

/-- The payload bits of a continuation byte behind the bits in front of it. -/
def pushBits (acc : ℕ) (b : UInt8) : ℕ := acc * 64 + b.toNat % 64

/-- The sequence that starts with `first`, at the head of `first :: rest`: its character and its
length, or the length of the invalid sequence (`none` when the input ends inside it). -/
def decodeChar (first : UInt8) (rest : List UInt8) : Except (Option ℕ) (Char × ℕ) :=
  match utf8CharWidth first, rest with
  | 1, _ => .ok (Char.ofNat first.toNat, 1)
  | 2, b :: _ =>
    if isCont b then .ok (Char.ofNat (pushBits (first.toNat % 32) b), 2) else .error (some 1)
  | 3, b :: rest =>
    if isSecondOfThree first b then
      match rest with
      | c :: _ =>
        if isCont c then .ok (Char.ofNat (pushBits (pushBits (first.toNat % 16) b) c), 3)
        else .error (some 2)
      | [] => .error none
    else .error (some 1)
  | 4, b :: rest =>
    if isSecondOfFour first b then
      match rest with
      | c :: rest =>
        if isCont c then
          match rest with
          | d :: _ =>
            if isCont d then
              .ok (Char.ofNat (pushBits (pushBits (pushBits (first.toNat % 8) b) c) d), 4)
            else .error (some 3)
          | [] => .error none
        else .error (some 2)
      | [] => .error none
    else .error (some 1)
  | 0, _ => .error (some 1)
  | _, _ => .error none

/-- `str::from_utf8` from offset `pos` on, with `skip` bytes left of a sequence that was decoded
at its first byte. -/
def fromUtf8At : ℕ → ℕ → List UInt8 → Except Utf8Error Text
  | _, _, [] => .ok []
  | pos, skip + 1, _ :: bs => fromUtf8At (pos + 1) skip bs
  | pos, 0, b :: bs =>
    match decodeChar b bs with
    | .error len => .error ⟨pos, len⟩
    | .ok (c, n) => (fromUtf8At (pos + 1) (n - 1) bs).map (c :: ·)

/-- `str::from_utf8`. -/
def fromUtf8 (bs : List UInt8) : Except Utf8Error Text := fromUtf8At 0 0 bs

/-- `char::is_whitespace`, the Unicode property `White_Space`. -/
def isWhitespace (c : Char) : Bool :=
  (9 ≤ c.toNat && c.toNat ≤ 13) || c.toNat ∈ [0x20, 0x85, 0xA0, 0x1680] ||
    (0x2000 ≤ c.toNat && c.toNat ≤ 0x200A) ||
    c.toNat ∈ [0x2028, 0x2029, 0x202F, 0x205F, 0x3000]

/-- `char::is_ascii_hexdigit`. -/
def isAsciiHexdigit (c : Char) : Bool :=
  (0x30 ≤ c.toNat && c.toNat ≤ 0x39) || (0x41 ≤ c.toNat && c.toNat ≤ 0x46) ||
    (0x61 ≤ c.toNat && c.toNat ≤ 0x66)

/-- A line without the carriage return in front of its line feed. -/
def stripCr (line : Text) : Text :=
  if line.getLast? = some '\r' then line.dropLast else line

/-- `str::lines`: a final line feed ends the last line and starts no other one. -/
def lines (text : Text) : List Text :=
  let ls := text.splitOn '\n'
  ls.dropLast.map stripCr ++ ls.getLast?.toList.filter (· ≠ [])

/-- `str::trim`. -/
def trim (text : Text) : Text :=
  ((text.dropWhile isWhitespace).reverse.dropWhile isWhitespace).reverse

/-- `str::trim_end`. -/
def trimEnd (text : Text) : Text := (text.reverse.dropWhile isWhitespace).reverse

/-- `str::strip_prefix`. -/
def stripPrefix : Text → Text → Option Text
  | [], text => some text
  | _ :: _, [] => none
  | p :: ps, c :: text => if p = c then stripPrefix ps text else none

/-- `str::split_whitespace`: the non-empty pieces between whitespace. -/
def splitWhitespace (text : Text) : List Text := (text.splitOnP isWhitespace).filter (· ≠ [])

/-- `str::rsplit_once`: what is in front of the last `sep`, and what is behind it. -/
def rsplitOnce (sep : Char) : Text → Option (Text × Text)
  | [] => none
  | c :: text =>
    match rsplitOnce sep text with
    | some (front, back) => some (c :: front, back)
    | none => if c = sep then some ([], text) else none

lemma rsplitOnce_eq_none {sep : Char} {text : Text} : rsplitOnce sep text = none ↔ sep ∉ text := by
  induction text with
  | nil => simp [rsplitOnce]
  | cons c text ih =>
    rw [rsplitOnce, List.mem_cons, not_or]
    cases hrest : rsplitOnce sep text with
    | some cut =>
      have hmem : ¬ sep ∉ text := fun hnot => by simp [ih.mpr hnot] at hrest
      exact iff_of_false (by simp) fun h => hmem h.2
    | none =>
      have hnot : sep ∉ text := ih.mp hrest
      by_cases hc : c = sep
      · simp [hc]
      · simp [hc, hnot, Ne.symm hc]

/-- The cut is at the last separator. -/
lemma rsplitOnce_append {sep : Char} {back : Text} (h : sep ∉ back) (front : Text) :
    rsplitOnce sep (front ++ sep :: back) = some (front, back) := by
  induction front with
  | nil => simp [rsplitOnce, rsplitOnce_eq_none.mpr h]
  | cons c front ih => rw [List.cons_append, rsplitOnce, ih]

lemma rsplitOnce_eq_some {sep : Char} {text front back : Text} :
    rsplitOnce sep text = some (front, back) ↔ text = front ++ sep :: back ∧ sep ∉ back := by
  constructor
  · intro h
    induction text generalizing front with
    | nil => simp [rsplitOnce] at h
    | cons c text ih =>
      rw [rsplitOnce] at h
      cases hrest : rsplitOnce sep text with
      | some cut =>
        obtain ⟨rfl, rfl⟩ : c :: cut.1 = front ∧ cut.2 = back := by simpa [hrest] using h
        obtain ⟨htext, hback⟩ := ih hrest
        exact ⟨by rw [htext, List.cons_append], hback⟩
      | none =>
        obtain ⟨rfl, rfl, rfl⟩ : c = sep ∧ [] = front ∧ text = back := by simpa [hrest] using h
        exact ⟨rfl, rsplitOnce_eq_none.mp hrest⟩
  · rintro ⟨rfl, hback⟩
    exact rsplitOnce_append hback front

end FungiTransport.Lib
