import FungiTransport.Lib.Decimal

/-!
# Onion addresses as text

An `OnionAddr` crosses every text boundary as `host:port`.  The host is opaque, and may itself
have colons in it: the port is what is behind the last one.
-/

namespace FungiTransport

open Lib

/-- The transport-native address of a tor peer. -/
structure OnionAddr where
  host : String
  port : UInt16
deriving DecidableEq, Repr

/-- Failure to parse an `OnionAddr` from its text. -/
structure ParseOnionAddrError where
deriving DecidableEq, Repr

namespace OnionAddr

/-- `OnionAddr::new` -/
def new (host : String) (port : UInt16) : OnionAddr := ⟨host, port⟩

/-- `Display` -/
def toString (a : OnionAddr) : String :=
  a.host ++ ":" ++ String.ofList (printUnsigned a.port.toNat)

/-- `FromStr` -/
def fromStr (s : String) : Except ParseOnionAddrError OnionAddr :=
  match rsplitOnce ':' s.toList with
  | none => .error ⟨⟩
  | some (host, port) =>
    if host = [] then .error ⟨⟩
    else
      match parseUnsigned 65535 port with
      | none => .error ⟨⟩
      | some n => .ok (new (String.ofList host) (UInt16.ofNat n))

example : fromStr "a:b:+0080" = .ok (new "a:b" 80) := by decide

example : fromStr "host:70000" = .error ⟨⟩ := by decide

/-- The texts of an address: its host, which is not empty, a colon, and behind this last colon a
number that is the port. -/
structure IsText (s : String) (a : OnionAddr) : Prop where
  host : a.host ≠ ""
  cut : ∃ portText : Text, s.toList = a.host.toList ++ ':' :: portText ∧ ':' ∉ portText ∧
    Denotes portText a.port.toNat

lemma toList_toString (a : OnionAddr) :
    a.toString.toList = a.host.toList ++ ':' :: printUnsigned a.port.toNat := by
  simp [toString]

/-- A number has no colon in it. -/
lemma colon_not_mem_printUnsigned (n : ℕ) : ':' ∉ printUnsigned n := fun hmem =>
  absurd (isDigit_of_mem_printUnsigned hmem) (by decide)

lemma isText_toString {a : OnionAddr} (h : a.host ≠ "") : IsText a.toString a :=
  ⟨h, _, toList_toString a, colon_not_mem_printUnsigned _, denotes_printUnsigned _⟩

/-- The texts of an address are those that are parsed to it. -/
lemma fromStr_eq_ok {s : String} {a : OnionAddr} : fromStr s = .ok a ↔ IsText s a := by
  constructor
  · intro h
    unfold fromStr at h
    split at h
    · cases h
    · rename_i host port hcut
      split at h
      · cases h
      · rename_i hhost
        split at h
        · cases h
        · rename_i n hn
          obtain rfl := Except.ok.inj h
          obtain ⟨hs, hcolon⟩ := rsplitOnce_eq_some.mp hcut
          obtain ⟨hport, hmax⟩ := parseUnsigned_eq_some.mp hn
          have hvalue : (UInt16.ofNat n).toNat = n := by
            rw [UInt16.toNat_ofNat']
            omega
          refine ⟨fun hnil => hhost ?_, port, ?_, hcolon, ?_⟩
          · simpa [new] using hnil
          · rw [hs, new, String.toList_ofList]
          · simpa only [new, hvalue] using hport
  · rintro ⟨hhost, portText, hs, hcolon, hport⟩
    have hcut : rsplitOnce ':' s.toList = some (a.host.toList, portText) :=
      rsplitOnce_eq_some.mpr ⟨hs, hcolon⟩
    have hread : parseUnsigned 65535 portText = some a.port.toNat :=
      parseUnsigned_eq_some.mpr ⟨hport, by have := a.port.toNat_lt; omega⟩
    have hne : a.host.toList ≠ [] := by simpa using hhost
    simp only [fromStr, hcut, if_neg hne, hread, new, String.ofList_toList, UInt16.ofNat_toNat]

lemma fromStr_toString {a : OnionAddr} (h : a.host ≠ "") : fromStr a.toString = .ok a :=
  fromStr_eq_ok.mpr (isText_toString h)

/-- **The text form of an address round-trips.**  Every address with a host is read back from what
it prints, so two of them print alike only if they are equal; what is accepted are the texts of
addresses, each is parsed to the address whose text it is, and printing that address gives a text
that is parsed to it again; every other text is rejected. -/
theorem text_roundtrip :
    (∀ host port, host ≠ "" → fromStr (new host port).toString = .ok (new host port)) ∧
    (∀ a b : OnionAddr, a.host ≠ "" → b.host ≠ "" → a ≠ b → a.toString ≠ b.toString) ∧
    (∀ s a, fromStr s = .ok a ↔ IsText s a) ∧
    (∀ s a, fromStr s = .ok a → fromStr a.toString = .ok a) ∧
    ∀ s, fromStr s = .error ⟨⟩ ↔ ∀ a, ¬ IsText s a := by
  refine ⟨fun host port => fromStr_toString (a := ⟨host, port⟩), fun a b ha hb hab htext => ?_,
    fun s a => fromStr_eq_ok, fun s a hok => fromStr_toString (fromStr_eq_ok.mp hok).host,
    fun s => ?_⟩
  · have hparsed := fromStr_toString ha
    rw [htext, fromStr_toString hb] at hparsed
    exact hab (Except.ok.inj hparsed).symm
  · simp only [← fromStr_eq_ok]
    cases fromStr s <;> simp

end OnionAddr

end FungiTransport
