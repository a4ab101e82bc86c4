import FungiTransport.Lib.Text
import Mathlib.Tactic.Common

/-!
# Bytes in base64

Base64 without padding: three bytes are written as four characters, and one or two bytes that are
left over as two or three, with zeros for the bits that are missing.  This file names nothing of
the repository.
-/

namespace FungiTransport.Lib

namespace Base64

/-- The character for six bits. -/
def sextet (n : ℕ) : Char :=
  if n < 26 then Char.ofNat ('A'.toNat + n)
  else if n < 52 then Char.ofNat ('a'.toNat + (n - 26))
  else if n < 62 then Char.ofNat ('0'.toNat + (n - 52))
  else if n = 62 then '+'
  else '/'

/-- The six bits of a character, `0` for one that stands for none. -/
def bits (c : Char) : ℕ :=
  if 'A' ≤ c ∧ c ≤ 'Z' then c.toNat - 'A'.toNat
  else if 'a' ≤ c ∧ c ≤ 'z' then c.toNat - 'a'.toNat + 26
  else if '0' ≤ c ∧ c ≤ '9' then c.toNat - '0'.toNat + 52
  else if c = '+' then 62
  else if c = '/' then 63
  else 0

def encode : List UInt8 → Text
  | a :: b :: c :: bytes =>
    sextet (a.toNat / 4) :: sextet (a.toNat % 4 * 16 + b.toNat / 16) ::
      sextet (b.toNat % 16 * 4 + c.toNat / 64) :: sextet (c.toNat % 64) :: encode bytes
  | [a, b] =>
    [sextet (a.toNat / 4), sextet (a.toNat % 4 * 16 + b.toNat / 16), sextet (b.toNat % 16 * 4)]
  | [a] => [sextet (a.toNat / 4), sextet (a.toNat % 4 * 16)]
  | [] => []

/-- The bytes that a text encodes, if it encodes any. -/
def decode : Text → List UInt8
  | p :: q :: r :: s :: text =>
    .ofNat (bits p * 4 + bits q / 16) :: .ofNat (bits q % 16 * 16 + bits r / 4) ::
      .ofNat (bits r % 4 * 64 + bits s) :: decode text
  | [p, q, r] => [.ofNat (bits p * 4 + bits q / 16), .ofNat (bits q % 16 * 16 + bits r / 4)]
  | [p, q] => [.ofNat (bits p * 4 + bits q / 16)]
  | _ => []

/-- The text encodes `n` bytes. -/
def Encodes (n : ℕ) (text : Text) : Prop := ∃ bytes, bytes.length = n ∧ encode bytes = text

lemma bits_sextet {n : ℕ} (h : n < 64) : bits (sextet n) = n := by
  have hall : ∀ n < 64, bits (sextet n) = n := by decide
  exact hall n h

lemma ofNat_eq {n : ℕ} {a : UInt8} (h : n = a.toNat) : UInt8.ofNat n = a := by
  rw [h, UInt8.ofNat_toNat]

lemma decode_encode (bytes : List UInt8) : decode (encode bytes) = bytes := by
  induction bytes using encode.induct with
  | case1 a b c bytes ih =>
    have ha := a.toNat_lt
    have hb := b.toNat_lt
    have hc := c.toNat_lt
    rw [encode, decode, ih, bits_sextet (by omega), bits_sextet (by omega), bits_sextet (by omega),
      bits_sextet (by omega), ofNat_eq (a := a) (by omega), ofNat_eq (a := b) (by omega),
      ofNat_eq (a := c) (by omega)]
  | case2 a b =>
    have ha := a.toNat_lt
    have hb := b.toNat_lt
    rw [encode, decode, bits_sextet (by omega), bits_sextet (by omega), bits_sextet (by omega),
      ofNat_eq (a := a) (by omega), ofNat_eq (a := b) (by omega)]
  | case3 a =>
    have ha := a.toNat_lt
    rw [encode, decode, bits_sextet (by omega), bits_sextet (by omega),
      ofNat_eq (a := a) (by omega)]
  | case4 => rfl

lemma encodes_iff {n : ℕ} {text : Text} :
    (decode text).length = n ∧ encode (decode text) = text ↔ Encodes n text := by
  constructor
  · rintro ⟨hlen, htext⟩
    exact ⟨_, hlen, htext⟩
  · rintro ⟨bytes, hlen, rfl⟩
    rw [decode_encode]
    exact ⟨hlen, rfl⟩

instance (n : ℕ) (text : Text) : Decidable (Encodes n text) := decidable_of_iff _ encodes_iff

example : Encodes 4 "3q2+7w".toList := by decide

end Base64

end FungiTransport.Lib
