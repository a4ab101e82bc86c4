import FungiTransport.Lib.Text
import Mathlib.Data.List.TakeWhile
import Mathlib.Tactic.Common

/-!
# Socket addresses as text

The parser of socket addresses, as the standard library has it: an IPv4 address in four decimal
octets, or an IPv6 address in brackets, with `::` for some of its groups, an embedded IPv4 address
at its end and a scope behind it, and then a port.  It reads the longest number and the longest row
of groups that it finds; that it accepts exactly the texts of the grammar, each as the address whose
text it is, is `SockAddr.parse_eq_some`.  This file names nothing of the repository.
-/

namespace FungiTransport.Lib

/-- A socket address. -/
inductive SockAddr where
  | v4 (octets : List ℕ) (port : ℕ)
  | v6 (groups : List ℕ) (scopeId port : ℕ)
deriving DecidableEq, Repr

namespace SockAddr

/-! ## The reader -/

/-- How a number is written: its radix, how many digits it has at most, whether it may begin with a
zero, and the largest value. -/
structure NumberKind where
  radix : ℕ
  maxDigits : Option ℕ
  zeros : Bool
  max : ℕ

def octet : NumberKind := ⟨10, some 3, false, 255⟩

def group : NumberKind := ⟨16, some 4, true, 65535⟩

def port : NumberKind := ⟨10, none, true, 65535⟩

def scopeId : NumberKind := ⟨10, none, true, 4294967295⟩

/-- `char::to_digit`, for a radix of at most sixteen. -/
def digit (radix : ℕ) (c : Char) : Option ℕ :=
  let value :=
    if '0' ≤ c ∧ c ≤ '9' then some (c.toNat - '0'.toNat)
    else if 'a' ≤ c ∧ c ≤ 'f' then some (c.toNat - 'a'.toNat + 10)
    else if 'A' ≤ c ∧ c ≤ 'F' then some (c.toNat - 'A'.toNat + 10)
    else none
  value.filter (· < radix)

def isDigit (radix : ℕ) (c : Char) : Bool := (digit radix c).isSome

/-- The value of a row of digits. -/
def value (radix : ℕ) (digits : Text) : ℕ :=
  digits.foldl (fun n c => n * radix + (digit radix c).getD 0) 0

/-- What a number of the kind is written as. -/
structure IsNumber (k : NumberKind) (digits : Text) (n : ℕ) : Prop where
  ne : digits ≠ []
  all : ∀ c ∈ digits, isDigit k.radix c = true
  short : ∀ m, k.maxDigits = some m → digits.length ≤ m
  zeros : k.zeros = false → digits.head? = some '0' → digits.length = 1
  value : value k.radix digits = n
  le : n ≤ k.max

/-- `read_number` -/
def readNumber (k : NumberKind) (text : Text) : Option (ℕ × Text) :=
  let digits := text.takeWhile (isDigit k.radix)
  if digits = [] then none
  else if k.maxDigits.any (· < digits.length) then none
  else if k.zeros = false ∧ digits.head? = some '0' ∧ 1 < digits.length then none
  else if k.max < value k.radix digits then none
  else some (value k.radix digits, text.dropWhile (isDigit k.radix))

/-- `read_given_char` -/
def readGiven (target : Char) : Text → Option Text
  | [] => none
  | c :: text => if c = target then some text else none

/-- `read_ipv4_addr` -/
def readIpv4 (text : Text) : Option (List ℕ × Text) := do
  let (a, text) ← readNumber octet text
  let text ← readGiven '.' text
  let (b, text) ← readNumber octet text
  let text ← readGiven '.' text
  let (c, text) ← readNumber octet text
  let text ← readGiven '.' text
  let (d, text) ← readNumber octet text
  return ([a, b, c, d], text)

/-- The two groups of an embedded IPv4 address. -/
def embedded : List ℕ → List ℕ
  | [a, b, c, d] => [a * 256 + b, c * 256 + d]
  | _ => []

/-- A colon stands in front of every group but the first one. -/
def readSeparator (first : Bool) (text : Text) : Option Text :=
  if first then some text else readGiven ':' text

/-- `read_groups`, up to `left` of them, and whether an IPv4 address is at their end. -/
def readGroups (first : Bool) : ℕ → Text → List ℕ × Bool × Text
  | 0, text => ([], false, text)
  | left + 1, text =>
    -- an embedded address takes the place of two groups
    match if 1 ≤ left then (readSeparator first text).bind readIpv4 else none with
    | some (octets, text) => (embedded octets, true, text)
    | none =>
      match (readSeparator first text).bind (readNumber group) with
      | some (g, text) =>
        let (gs, ipv4, text) := readGroups false left text
        (g :: gs, ipv4, text)
      | none => ([], false, text)

/-- `read_ipv6_addr` -/
def readIpv6 (text : Text) : Option (List ℕ × Text) :=
  let (head, ipv4, text) := readGroups true 8 text
  if head.length = 8 then some (head, text)
  else if ipv4 then none
  else do
    let text ← readGiven ':' text
    let text ← readGiven ':' text
    let (tail, _, text) := readGroups true (7 - head.length) text
    return (head ++ List.replicate (8 - head.length - tail.length) 0 ++ tail, text)

/-- `read_port` -/
def readPort (text : Text) : Option (ℕ × Text) := (readGiven ':' text).bind (readNumber port)

/-- `read_scope_id` -/
def readScopeId (text : Text) : Option (ℕ × Text) := (readGiven '%' text).bind (readNumber scopeId)

/-- `read_socket_addr_v4` -/
def readV4 (text : Text) : Option (SockAddr × Text) := do
  let (octets, text) ← readIpv4 text
  let (port, text) ← readPort text
  return (.v4 octets port, text)

/-- `read_socket_addr_v6` -/
def readV6 (text : Text) : Option (SockAddr × Text) := do
  let text ← readGiven '[' text
  let (groups, text) ← readIpv6 text
  let (scopeId, text) := (readScopeId text).getD (0, text)
  let text ← readGiven ']' text
  let (port, text) ← readPort text
  return (.v6 groups scopeId port, text)

/-- The `Display` text of an `AddrParseError` for a socket address. -/
def parseError : String := "invalid socket address syntax"

/-- `from_str` of a socket address: nothing may be left. -/
def parse (text : Text) : Option SockAddr :=
  match (readV4 text).or (readV6 text) with
  | some (addr, []) => some addr
  | _ => none

example : parse "[1::a.b]:80".toList = none := by decide

example : parse "[ff02::1:1.2.3.4%7]:00080".toList =
    some (.v6 [0xff02, 0, 0, 0, 0, 1, 0x102, 0x304] 7 80) := by decide

/-! ## The grammar -/

/-- What an IPv4 address is written as. -/
def IsIpv4 (text : Text) (octets : List ℕ) : Prop :=
  ∃ ta tb tc td a b c d, text = ta ++ '.' :: (tb ++ '.' :: (tc ++ '.' :: td)) ∧
    octets = [a, b, c, d] ∧ IsNumber octet ta a ∧ IsNumber octet tb b ∧ IsNumber octet tc c ∧
    IsNumber octet td d

def separator (first : Bool) : Text := if first then [] else [':']

/-- A row of groups, each in hex, the last two perhaps as an IPv4 address. -/
inductive IsGroups : Bool → Text → List ℕ → Bool → Prop where
  | nil {first : Bool} : IsGroups first [] [] false
  | embedded {first : Bool} {text : Text} {octets : List ℕ} (h : IsIpv4 text octets) :
      IsGroups first (separator first ++ text) (embedded octets) true
  | cons {first ipv4 : Bool} {digits rest : Text} {g : ℕ} {gs : List ℕ}
      (hg : IsNumber group digits g) (hgs : IsGroups false rest gs ipv4) :
      IsGroups first (separator first ++ (digits ++ rest)) (g :: gs) ipv4

/-- What an IPv6 address is written as: eight groups, or at most seven and `::` for the others. -/
inductive IsIpv6 : Text → List ℕ → Prop where
  | full {text : Text} {gs : List ℕ} {ipv4 : Bool} (h : IsGroups true text gs ipv4)
      (hlen : gs.length = 8) : IsIpv6 text gs
  | short {front back : Text} {head tail : List ℕ} {ipv4 : Bool}
      (hhead : IsGroups true front head false) (htail : IsGroups true back tail ipv4)
      (hlen : head.length + tail.length ≤ 7) :
      IsIpv6 (front ++ ':' :: ':' :: back)
        (head ++ List.replicate (8 - head.length - tail.length) 0 ++ tail)

/-- A scope may stand behind an IPv6 address. -/
inductive IsScope : Text → ℕ → Prop where
  | none : IsScope [] 0
  | some {digits : Text} {s : ℕ} (h : IsNumber scopeId digits s) : IsScope ('%' :: digits) s

/-- What a socket address is written as. -/
inductive IsSockAddr : Text → SockAddr → Prop where
  | v4 {ip digits : Text} {octets : List ℕ} {n : ℕ} (hip : IsIpv4 ip octets)
      (hport : IsNumber port digits n) : IsSockAddr (ip ++ ':' :: digits) (.v4 octets n)
  | v6 {ip scope digits : Text} {groups : List ℕ} {s n : ℕ} (hip : IsIpv6 ip groups)
      (hscope : IsScope scope s) (hport : IsNumber port digits n) :
      IsSockAddr ('[' :: (ip ++ (scope ++ ']' :: ':' :: digits))) (.v6 groups s n)

/-! ## Numbers -/

/-- A text at whose head no digit stands. -/
def NoDigit (radix : ℕ) (text : Text) : Prop := ∀ c, text.head? = some c → isDigit radix c = false

lemma takeWhile_digits {radix : ℕ} {digits rest : Text}
    (hall : ∀ c ∈ digits, isDigit radix c = true) (hrest : NoDigit radix rest) :
    (digits ++ rest).takeWhile (isDigit radix) = digits ∧
      (digits ++ rest).dropWhile (isDigit radix) = rest := by
  rw [List.takeWhile_append_of_pos hall, List.dropWhile_append_of_pos hall]
  cases rest with
  | nil => simp
  | cons c rest =>
    have hc := hrest c rfl
    simp [hc]

lemma noDigit_dropWhile (radix : ℕ) (text : Text) :
    NoDigit radix (text.dropWhile (isDigit radix)) := by
  intro c hc
  have h := List.head?_dropWhile_not (isDigit radix) text
  rw [hc] at h
  simpa using h

/-- A number is read to its last digit. -/
lemma readNumber_eq_some {k : NumberKind} {text rest : Text} {n : ℕ} :
    readNumber k text = some (n, rest) ↔
      ∃ digits, text = digits ++ rest ∧ IsNumber k digits n ∧ NoDigit k.radix rest := by
  constructor
  · intro h
    simp only [readNumber] at h
    split at h
    · cases h
    · rename_i hne
      split at h
      · cases h
      · rename_i hshort
        split at h
        · cases h
        · rename_i hzeros
          split at h
          · cases h
          · rename_i hle
            obtain ⟨rfl, rfl⟩ := Prod.mk.inj (Option.some.inj h)
            refine ⟨_, (List.takeWhile_append_dropWhile).symm, ⟨hne, ?_, ?_, ?_, rfl, ?_⟩,
              noDigit_dropWhile _ _⟩
            · exact fun c hc => List.mem_takeWhile_imp hc
            · intro m hm
              simpa [hm] using hshort
            · intro hz hhead
              have hpos := List.length_pos_iff.mpr hne
              have hle : ¬ 1 < _ := fun hlt => hzeros ⟨hz, hhead, hlt⟩
              omega
            · omega
  · rintro ⟨digits, rfl, hnum, hrest⟩
    obtain ⟨htake, hdrop⟩ := takeWhile_digits hnum.all hrest
    simp only [readNumber, htake, hdrop, hnum.value]
    rw [if_neg hnum.ne, if_neg, if_neg, if_neg (not_lt.mpr hnum.le)]
    · rintro ⟨hz, hhead, hlen⟩
      have := hnum.zeros hz hhead
      omega
    · cases hm : k.maxDigits with
      | none => simp
      | some m => simpa using hnum.short m hm

lemma readGiven_eq_some {target : Char} {text rest : Text} :
    readGiven target text = some rest ↔ text = target :: rest := by
  cases text with
  | nil => simp [readGiven]
  | cons c text =>
    rw [readGiven, List.cons.injEq]
    split <;> simp_all

lemma noDigit_cons {radix : ℕ} {c : Char} (hc : isDigit radix c = false) (text : Text) :
    NoDigit radix (c :: text) := by
  rintro _ ⟨⟩
  exact hc

/-- A number and what separates it from the rest. -/
lemma readNumber_cons {k : NumberKind} {digits : Text} {n : ℕ} (h : IsNumber k digits n) {c : Char}
    (hc : isDigit k.radix c = false) (rest : Text) :
    readNumber k (digits ++ c :: rest) = some (n, c :: rest) :=
  readNumber_eq_some.mpr ⟨digits, rfl, h, noDigit_cons hc rest⟩

/-- An IPv4 address is read to its last digit. -/
lemma readIpv4_eq_some {text rest : Text} {octets : List ℕ} :
    readIpv4 text = some (octets, rest) ↔
      ∃ ip, text = ip ++ rest ∧ IsIpv4 ip octets ∧ NoDigit 10 rest := by
  constructor
  · intro h
    simp only [readIpv4, Option.bind_eq_bind, Option.bind_eq_some_iff, Option.pure_def,
      Option.some.injEq, Prod.mk.injEq, Prod.exists] at h
    obtain ⟨a, t₁, ha, t₂, hdot₁, b, t₃, hb, t₄, hdot₂, c, t₅, hc, t₆, hdot₃, d, t₇, hd, rfl,
      rfl⟩ := h
    obtain ⟨ta, rfl, hta, -⟩ := readNumber_eq_some.mp ha
    obtain rfl := readGiven_eq_some.mp hdot₁
    obtain ⟨tb, rfl, htb, -⟩ := readNumber_eq_some.mp hb
    obtain rfl := readGiven_eq_some.mp hdot₂
    obtain ⟨tc, rfl, htc, -⟩ := readNumber_eq_some.mp hc
    obtain rfl := readGiven_eq_some.mp hdot₃
    obtain ⟨td, rfl, htd, hrest⟩ := readNumber_eq_some.mp hd
    exact ⟨_, by simp, ⟨ta, tb, tc, td, a, b, c, d, rfl, rfl, hta, htb, htc, htd⟩, hrest⟩
  · rintro ⟨_, rfl, ⟨ta, tb, tc, td, a, b, c, d, rfl, rfl, hta, htb, htc, htd⟩, hrest⟩
    have hdot : isDigit octet.radix '.' = false := by decide
    have hlast : readNumber octet (td ++ rest) = some (d, rest) :=
      readNumber_eq_some.mpr ⟨td, rfl, htd, hrest⟩
    simp only [readIpv4, List.append_assoc, List.cons_append, readNumber_cons hta hdot,
      readNumber_cons htb hdot, readNumber_cons htc hdot, hlast, readGiven, if_true,
      Option.bind_eq_bind, Option.bind_some, Option.pure_def]

/-! ## Groups -/

/-- What may follow a row of groups: no digit and no dot, and no colon with a digit behind it. -/
structure Stops (text : Text) : Prop where
  noDigit : NoDigit 16 text
  noDot : text.head? ≠ some '.'
  colon : ∀ rest, text = ':' :: rest → NoDigit 16 rest

/-- A decimal digit is one in hex. -/
lemma isDigit_sixteen {c : Char} (h : isDigit 10 c = true) : isDigit 16 c = true := by
  obtain ⟨n, hn⟩ := Option.isSome_iff_exists.mp h
  obtain ⟨hvalue, hlt⟩ := Option.filter_eq_some_iff.mp hn
  refine Option.isSome_iff_exists.mpr ⟨n, Option.filter_eq_some_iff.mpr ⟨hvalue, ?_⟩⟩
  simp only [decide_eq_true_eq] at hlt ⊢
  omega

lemma noDigit_ten {text : Text} (h : NoDigit 16 text) : NoDigit 10 text := by
  intro c hc
  by_contra hdigit
  have hhex := isDigit_sixteen (by simpa using hdigit)
  rw [h c hc] at hhex
  cases hhex

lemma readSeparator_separator (first : Bool) (text : Text) :
    readSeparator first (separator first ++ text) = some text := by
  cases first <;> rfl

lemma readSeparator_eq_some {first : Bool} {text rest : Text} :
    readSeparator first text = some rest ↔ text = separator first ++ rest := by
  cases first with
  | true => simp [readSeparator, separator]
  | false => simp [readSeparator, separator, readGiven_eq_some]

/-- What is read as groups is a row of groups. -/
lemma isGroups_of_read {first ipv4 : Bool} {left : ℕ} {text rest : Text} {gs : List ℕ}
    (h : readGroups first left text = (gs, ipv4, rest)) :
    ∃ row, text = row ++ rest ∧ IsGroups first row gs ipv4 ∧ gs.length ≤ left := by
  induction left generalizing first text gs with
  | zero =>
    rw [readGroups] at h
    cases h
    exact ⟨[], rfl, .nil, le_rfl⟩
  | succ left ih =>
    rw [readGroups] at h
    split at h
    · rename_i octets after hread
      split at hread
      · obtain ⟨inner, hsep, hfound⟩ := Option.bind_eq_some_iff.mp hread
        obtain ⟨ip, rfl, hip, -⟩ := readIpv4_eq_some.mp hfound
        obtain rfl := readSeparator_eq_some.mp hsep
        cases h
        refine ⟨_, by simp, .embedded hip, ?_⟩
        obtain ⟨-, -, -, -, a, b, c, d, -, rfl, -⟩ := hip
        simpa [embedded] using ‹1 ≤ left›
      · cases hread
    · split at h
      · rename_i g after hread
        obtain ⟨inner, hsep, hfound⟩ := Option.bind_eq_some_iff.mp hread
        obtain ⟨digits, rfl, hnum, -⟩ := readNumber_eq_some.mp hfound
        obtain rfl := readSeparator_eq_some.mp hsep
        generalize hrest : readGroups false left after = others at h
        obtain ⟨gs', ipv4', rest'⟩ := others
        cases h
        obtain ⟨row, rfl, hrow, hlen⟩ := ih hrest
        exact ⟨_, by simp, .cons hnum hrow, by simpa using hlen⟩
      · cases h
        exact ⟨[], rfl, .nil, Nat.zero_le _⟩

lemma readNumber_eq_none {k : NumberKind} {text : Text} (h : NoDigit k.radix text) :
    readNumber k text = none := by
  have hnil : ∀ c ∈ ([] : Text), isDigit k.radix c = true := by simp
  have htake := (takeWhile_digits hnil h).1
  rw [List.nil_append] at htake
  simp [readNumber, htake]

/-- A group is not taken for an IPv4 address: no dot follows it. -/
lemma readIpv4_eq_none {digits rest : Text} (hall : ∀ c ∈ digits, isDigit 16 c = true)
    (hrest : NoDigit 16 rest) (hdot : rest.head? ≠ some '.') :
    readIpv4 (digits ++ rest) = none := by
  by_contra hne
  obtain ⟨⟨octets, after⟩, hread⟩ := Option.ne_none_iff_exists'.mp hne
  obtain ⟨_, htext, ⟨ta, tb, tc, td, a, b, c, d, rfl, -, hta, -⟩, -⟩ := readIpv4_eq_some.mp hread
  -- the first character that is no digit is both a dot and none
  have hcut := (takeWhile_digits hall hrest).2
  rw [htext, List.append_assoc, List.cons_append,
    (takeWhile_digits (fun x hx => isDigit_sixteen (hta.all x hx))
      (noDigit_cons (by decide) _)).2] at hcut
  exact hdot (by rw [← hcut]; rfl)

/-- What follows a separator that is read where no group is. -/
lemma Stops.readSeparator {rest after : Text} (h : Stops rest) {first : Bool}
    (hread : readSeparator first rest = some after) : NoDigit 16 after := by
  obtain rfl := readSeparator_eq_some.mp hread
  cases first with
  | true => exact h.noDigit
  | false => exact h.colon after rfl

lemma IsGroups.follow {row rest : Text} {gs : List ℕ} {ipv4 : Bool} (h : IsGroups false row gs ipv4)
    (hrest : Stops rest) : NoDigit 16 (row ++ rest) ∧ (row ++ rest).head? ≠ some '.' := by
  have hcolon : ∀ text, NoDigit 16 (':' :: text) ∧ (':' :: text).head? ≠ some '.' := fun text =>
    ⟨noDigit_cons (by decide) text, by simp⟩
  cases h with
  | nil => exact ⟨hrest.noDigit, hrest.noDot⟩
  | embedded => exact hcolon _
  | cons => exact hcolon _

/-- A row of groups is read to its end. -/
lemma readGroups_row {first ipv4 : Bool} {row rest : Text} {gs : List ℕ}
    (h : IsGroups first row gs ipv4) (hrest : Stops rest) (left : ℕ) (hle : gs.length ≤ left) :
    readGroups first left (row ++ rest) = (gs, ipv4, rest) := by
  induction h generalizing left with
  | @nil first =>
    cases left with
    | zero => rfl
    | succ left =>
      have hip : (readSeparator first rest).bind readIpv4 = none := by
        cases hsep : readSeparator first rest with
        | none => rfl
        | some after =>
          have hnone : readNumber octet after = none :=
            readNumber_eq_none (noDigit_ten (hrest.readSeparator hsep))
          simp [readIpv4, hnone]
      have hnum : (readSeparator first rest).bind (readNumber group) = none := by
        cases hsep : readSeparator first rest with
        | none => rfl
        | some after => exact readNumber_eq_none (hrest.readSeparator hsep)
      rw [List.nil_append, readGroups, hip, hnum, ite_self]
  | @embedded first ip octets hip =>
    have hread : readIpv4 (ip ++ rest) = some (octets, rest) :=
      readIpv4_eq_some.mpr ⟨ip, rfl, hip, noDigit_ten hrest.noDigit⟩
    obtain ⟨-, -, -, -, a, b, c, d, -, rfl, -⟩ := hip
    obtain ⟨left, rfl⟩ : ∃ n, left = n + 2 := ⟨left - 2, by simp [SockAddr.embedded] at hle; omega⟩
    rw [List.append_assoc, readGroups, if_pos (by omega), readSeparator_separator, Option.bind_some,
      hread]
  | @cons first ipv4 digits row g gs hg hgs ih =>
    obtain ⟨left, rfl⟩ : ∃ n, left = n + 1 := ⟨left - 1, by simp at hle; omega⟩
    obtain ⟨hdigit, hdot⟩ := hgs.follow hrest
    have hip : readIpv4 (digits ++ (row ++ rest)) = none := readIpv4_eq_none hg.all hdigit hdot
    have hnum : readNumber group (digits ++ (row ++ rest)) = some (g, row ++ rest) :=
      readNumber_eq_some.mpr ⟨digits, rfl, hg, hdigit⟩
    rw [List.append_assoc, List.append_assoc, readGroups, readSeparator_separator, Option.bind_some,
      Option.bind_some, hip, ite_self, hnum]
    simp only [ih left (Nat.le_of_succ_le_succ hle)]

/-! ## Addresses -/

lemma isIpv6_of_read {text rest : Text} {groups : List ℕ}
    (h : readIpv6 text = some (groups, rest)) : ∃ ip, text = ip ++ rest ∧ IsIpv6 ip groups := by
  simp only [readIpv6] at h
  generalize hhead : readGroups true 8 text = found at h
  obtain ⟨head, ipv4, text₁⟩ := found
  obtain ⟨front, rfl, hfront, hlen⟩ := isGroups_of_read hhead
  simp only at h
  split at h
  · rename_i hfull
    cases h
    exact ⟨front, rfl, .full hfront hfull⟩
  · rename_i hshort
    split at h
    · cases h
    · rename_i hipv4
      obtain rfl : ipv4 = false := by simpa using hipv4
      simp only [Option.bind_eq_bind, Option.bind_eq_some_iff, readGiven_eq_some, Option.pure_def,
        Option.some.injEq, Prod.mk.injEq] at h
      obtain ⟨_, rfl, text₂, rfl, hgroups, hrest⟩ := h
      generalize htail : readGroups true (7 - head.length) text₂ = found at hgroups hrest
      obtain ⟨tail, ipv4', text₃⟩ := found
      obtain ⟨back, rfl, hback, hlen'⟩ := isGroups_of_read htail
      simp only at hgroups hrest
      subst hgroups hrest
      exact ⟨front ++ ':' :: ':' :: back, by simp, .short hfront hback (by omega)⟩

lemma stops_colons (text : Text) : Stops (':' :: ':' :: text) where
  noDigit := noDigit_cons (by decide) _
  noDot := by simp
  colon := by
    rintro _ ⟨⟩
    exact noDigit_cons (by decide) _

/-- An IPv6 address is read to the end of its last group. -/
lemma readIpv6_text {ip rest : Text} {groups : List ℕ} (h : IsIpv6 ip groups) (hrest : Stops rest) :
    readIpv6 (ip ++ rest) = some (groups, rest) := by
  cases h with
  | full h hlen =>
    have hread := readGroups_row h hrest 8 (by omega)
    simp only [readIpv6, hread, if_pos hlen]
  | @short front back head tail ipv4 hhead htail hlen =>
    have hread := readGroups_row hhead (stops_colons (back ++ rest)) 8 (by omega)
    have hread' := readGroups_row htail hrest (7 - head.length) (by omega)
    have hne : ¬ head.length = 8 := by omega
    simp only [readIpv6, List.append_assoc, List.cons_append, hread, if_neg hne,
      Bool.false_eq_true, if_false, readGiven, if_true, hread', Option.bind_eq_bind,
      Option.bind_some, Option.pure_def]

/-- A number behind the character that introduces it. -/
lemma bind_readNumber_eq_some {target : Char} {k : NumberKind} {text rest : Text} {n : ℕ} :
    (readGiven target text).bind (readNumber k) = some (n, rest) ↔
      ∃ digits, text = target :: (digits ++ rest) ∧ IsNumber k digits n ∧ NoDigit k.radix rest := by
  rw [Option.bind_eq_some_iff]
  simp only [readGiven_eq_some, readNumber_eq_some]
  constructor
  · rintro ⟨_, rfl, digits, rfl, hnum, hrest⟩
    exact ⟨digits, rfl, hnum, hrest⟩
  · rintro ⟨digits, rfl, hnum, hrest⟩
    exact ⟨_, rfl, digits, rfl, hnum, hrest⟩

lemma readPort_eq_some {text rest : Text} {n : ℕ} : readPort text = some (n, rest) ↔
    ∃ digits, text = ':' :: (digits ++ rest) ∧ IsNumber port digits n ∧ NoDigit 10 rest :=
  bind_readNumber_eq_some

lemma readScopeId_eq_some {text rest : Text} {s : ℕ} : readScopeId text = some (s, rest) ↔
    ∃ digits, text = '%' :: (digits ++ rest) ∧ IsNumber scopeId digits s ∧ NoDigit 10 rest :=
  bind_readNumber_eq_some

lemma noDigit_nil (radix : ℕ) : NoDigit radix [] := by simp [NoDigit]

/-- A port at the end of a text. -/
lemma readPort_end {digits : Text} {n : ℕ} (h : IsNumber port digits n) :
    readPort (':' :: digits) = some (n, []) :=
  readPort_eq_some.mpr ⟨digits, by rw [List.append_nil], h, noDigit_nil 10⟩

lemma readV4_eq_some {text : Text} {addr : SockAddr} :
    readV4 text = some (addr, []) ↔
      ∃ ip digits octets n, text = ip ++ ':' :: digits ∧ addr = .v4 octets n ∧
        IsIpv4 ip octets ∧ IsNumber port digits n := by
  simp only [readV4, Option.bind_eq_bind, Option.bind_eq_some_iff, Option.pure_def,
    Option.some.injEq, Prod.mk.injEq, Prod.exists]
  constructor
  · rintro ⟨octets, after, hread, n, rest, hport, rfl, rfl⟩
    obtain ⟨ip, rfl, hip, -⟩ := readIpv4_eq_some.mp hread
    obtain ⟨digits, rfl, hnum, -⟩ := readPort_eq_some.mp hport
    exact ⟨ip, digits, octets, n, by simp, rfl, hip, hnum⟩
  · rintro ⟨ip, digits, octets, n, rfl, rfl, hip, hnum⟩
    have hread : readIpv4 (ip ++ ':' :: digits) = some (octets, ':' :: digits) :=
      readIpv4_eq_some.mpr ⟨ip, rfl, hip, noDigit_cons (by decide) digits⟩
    exact ⟨octets, _, hread, n, [], readPort_end hnum, rfl, rfl⟩

/-- What is read as a scope is one, perhaps none. -/
lemma isScope_of_read {text rest : Text} {s : ℕ}
    (h : (readScopeId text).getD (0, text) = (s, rest)) :
    ∃ scope, text = scope ++ rest ∧ IsScope scope s := by
  cases hread : readScopeId text with
  | none =>
    rw [hread] at h
    cases h
    exact ⟨[], rfl, .none⟩
  | some found =>
    rw [hread] at h
    obtain rfl : found = (s, rest) := h
    obtain ⟨digits, rfl, hnum, -⟩ := readScopeId_eq_some.mp hread
    exact ⟨'%' :: digits, rfl, .some hnum⟩

lemma readScopeId_text {scope : Text} {s : ℕ} (h : IsScope scope s) (rest : Text) :
    (readScopeId (scope ++ ']' :: rest)).getD (0, scope ++ ']' :: rest) = (s, ']' :: rest) := by
  cases h with
  | none => rfl
  | @some digits s hnum =>
    have hread : readScopeId ('%' :: (digits ++ ']' :: rest)) = some (s, ']' :: rest) :=
      readScopeId_eq_some.mpr ⟨digits, rfl, hnum, noDigit_cons (by decide) rest⟩
    rw [List.cons_append, hread, Option.getD_some]

/-- An IPv6 address ends in front of its scope or the bracket. -/
lemma IsScope.stops {scope : Text} {s : ℕ} (h : IsScope scope s) (rest : Text) :
    Stops (scope ++ ']' :: rest) := by
  have hstops : ∀ c text, isDigit 16 c = false → c ≠ '.' → c ≠ ':' → Stops (c :: text) :=
    fun c text hdigit hdot hcolon =>
      ⟨noDigit_cons hdigit text, by simpa using hdot,
        fun _ heq => absurd (List.cons.inj heq).1 hcolon⟩
  cases h with
  | none => exact hstops ']' rest (by decide) (by decide) (by decide)
  | some => exact hstops '%' _ (by decide) (by decide) (by decide)

lemma readV6_eq_some {text : Text} {addr : SockAddr} :
    readV6 text = some (addr, []) ↔
      ∃ ip scope digits groups s n, text = '[' :: (ip ++ (scope ++ ']' :: ':' :: digits)) ∧
        addr = .v6 groups s n ∧ IsIpv6 ip groups ∧ IsScope scope s ∧ IsNumber port digits n := by
  constructor
  · intro h
    simp only [readV6, Option.bind_eq_bind, Option.bind_eq_some_iff, Option.pure_def,
      Option.some.injEq, Prod.mk.injEq, Prod.exists, readGiven_eq_some] at h
    obtain ⟨_, rfl, groups, text₁, hread, text₂, hrest, n, rest, hport, rfl, rfl⟩ := h
    obtain ⟨ip, rfl, hip⟩ := isIpv6_of_read hread
    generalize hfound : (readScopeId text₁).getD (0, text₁) = found at hrest
    obtain ⟨s, text₃⟩ := found
    obtain rfl : text₃ = ']' :: text₂ := hrest
    obtain ⟨scope, rfl, hscope⟩ := isScope_of_read hfound
    obtain ⟨digits, rfl, hnum, -⟩ := readPort_eq_some.mp hport
    exact ⟨ip, scope, digits, groups, s, n, by simp, rfl, hip, hscope, hnum⟩
  · rintro ⟨ip, scope, digits, groups, s, n, rfl, rfl, hip, hscope, hnum⟩
    have hread := readIpv6_text hip (hscope.stops (':' :: digits))
    simp only [readV6, readGiven, if_true, hread, readScopeId_text hscope, readPort_end hnum,
      Option.bind_eq_bind, Option.bind_some, Option.pure_def]

/-- An IPv4 address does not begin with a bracket. -/
lemma readV4_bracket (text : Text) : readV4 ('[' :: text) = none := by
  have hnum : readNumber octet ('[' :: text) = none :=
    readNumber_eq_none (noDigit_cons (by decide) text)
  simp only [readV4, readIpv4, hnum, Option.bind_eq_bind, Option.bind_none]

/-- **The parser accepts the grammar**: a text is parsed exactly if it is that of a socket address,
and as this one. -/
theorem parse_eq_some {text : Text} {addr : SockAddr} :
    parse text = some addr ↔ IsSockAddr text addr := by
  have hparse : parse text = some addr ↔ (readV4 text).or (readV6 text) = some (addr, []) := by
    rw [parse]
    split
    · rename_i addr' hread
      rw [hread]
      simp
    · rename_i hother
      exact iff_of_false (by simp) (hother addr)
  rw [hparse, Option.or_eq_some_iff, readV4_eq_some, readV6_eq_some]
  constructor
  · rintro (⟨ip, digits, octets, n, rfl, rfl, hip, hport⟩ |
      ⟨-, ip, scope, digits, groups, s, n, rfl, rfl, hip, hscope, hport⟩)
    · exact .v4 hip hport
    · exact .v6 hip hscope hport
  · rintro (⟨hip, hport⟩ | ⟨hip, hscope, hport⟩)
    · exact .inl ⟨_, _, _, _, rfl, rfl, hip, hport⟩
    · exact .inr ⟨readV4_bracket _, _, _, _, _, _, _, rfl, rfl, hip, hscope, hport⟩

end SockAddr

end FungiTransport.Lib
