import Mathlib.Data.List.TakeWhile
import Mathlib.Tactic.Common

/-!
# Reading from a byte stream in pieces

A byte stream as its reader meets it: the pieces that successive reads deliver, and behind
them either the end of the stream or nothing more for now.  The two readers are Tokio's
`read_exact` and `read_until`; how the bytes are cut into pieces does not matter to them.  This
file names nothing of the repository.
-/

namespace FungiTransport.Lib

/-- The pieces that successive reads deliver, with the error of a read that fails. -/
abbrev Pieces (ε : Type) := List (Except ε (List UInt8))

/-- Why a reader gives no result: it failed, or it waits for more bytes. -/
inductive Stop (ε : Type) where
  | failed (e : ε)
  | blocked
deriving DecidableEq, Repr

/-- The stop of a reader whose errors are mapped. -/
def Stop.map {ε ε' : Type} (f : ε → ε') : Stop ε → Stop ε'
  | .failed e => .failed (f e)
  | .blocked => .blocked

variable {ε : Type}

lemma map_eq_ok {α β : Type} {x : Except ε α} {f : α → β} {b : β} :
    x.map f = .ok b ↔ ∃ a, x = .ok a ∧ f a = b := by
  cases x <;> simp [Except.map]

lemma map_eq_error {α β : Type} {x : Except ε α} {f : α → β} {e : ε} :
    x.map f = .error e ↔ x = .error e := by
  cases x <;> simp [Except.map]

/-- `read_exact` of `n` bytes, with its error `eof` for a stream that ends before; `ended` tells
whether the stream ends behind the pieces. -/
def readExact (eof : ε) (ended : Bool) :
    ℕ → Pieces ε → Except (Stop ε) (List UInt8 × Pieces ε)
  | 0, ps => .ok ([], ps)
  | _ + 1, [] => .error (if ended then .failed eof else .blocked)
  | _ + 1, .error e :: _ => .error (.failed e)
  | n + 1, .ok c :: ps =>
    if n + 1 ≤ c.length then .ok (c.take (n + 1), .ok (c.drop (n + 1)) :: ps)
    else (readExact eof ended (n + 1 - c.length) ps).map fun (bs, ps) => (c ++ bs, ps)

/-- `read_until`: the bytes up to and including the delimiter, or up to the end of the stream. -/
def readUntil (ended : Bool) (delim : UInt8) :
    Pieces ε → Except (Stop ε) (List UInt8 × Pieces ε)
  | [] => if ended then .ok ([], []) else .error .blocked
  | .error e :: _ => .error (.failed e)
  | .ok c :: ps =>
    match c.dropWhile (· ≠ delim) with
    | [] => (readUntil ended delim ps).map fun (bs, ps) => (c ++ bs, ps)
    | _ :: rest => .ok (c.takeWhile (· ≠ delim) ++ [delim], .ok rest :: ps)

/-- The number of bytes that are left to be read. -/
def unread : Pieces ε → ℕ
  | [] => 0
  | .error _ :: ps => unread ps
  | .ok c :: ps => c.length + unread ps

/-- A stream whose reads do not fail. -/
def delivered (cs : List (List UInt8)) : Pieces ε := cs.map .ok

/-- Enough bytes are read whatever the pieces are; else the reader fails at the end of the
stream, or waits. -/
lemma readExact_delivered (eof : ε) (ended : Bool) (n : ℕ) (cs : List (List UInt8)) :
    (∃ bs cs', readExact eof ended n (delivered cs) = .ok (bs, delivered cs') ∧
        cs.flatten = bs ++ cs'.flatten ∧ bs.length = n) ∨
      (readExact eof ended n (delivered cs) = .error (if ended then .failed eof else .blocked) ∧
        cs.flatten.length < n) := by
  induction cs generalizing n with
  | nil =>
    cases n with
    | zero => exact .inl ⟨[], [], rfl, rfl, rfl⟩
    | succ n => exact .inr ⟨rfl, Nat.succ_pos n⟩
  | cons c cs ih =>
    cases n with
    | zero => exact .inl ⟨[], c :: cs, rfl, rfl, rfl⟩
    | succ n =>
      by_cases hlen : n + 1 ≤ c.length
      · refine .inl ⟨c.take (n + 1), c.drop (n + 1) :: cs, ?_, ?_, List.length_take_of_le hlen⟩
        · simp [delivered, readExact, hlen]
        · rw [List.flatten_cons, List.flatten_cons, ← List.append_assoc, List.take_append_drop]
      · -- the first piece is too short, and is read whole
        have hread : readExact eof ended (n + 1) (delivered (c :: cs)) =
            (readExact eof ended (n + 1 - c.length) (delivered cs)).map
              fun (bs, ps) => (c ++ bs, ps) := by
          simp [delivered, readExact, hlen]
        rw [hread, List.flatten_cons]
        rcases ih (n + 1 - c.length) with ⟨bs, cs', heq, hflat, hbs⟩ | ⟨heq, hshort⟩
        · refine .inl ⟨c ++ bs, cs', by rw [heq]; rfl, by rw [hflat, List.append_assoc], ?_⟩
          rw [List.length_append, hbs]
          omega
        · refine .inr ⟨by rw [heq]; rfl, ?_⟩
          rw [List.length_append]
          omega

/-- What `read_exact` gives on a stream that begins with the bytes it wants. -/
lemma readExact_append (eof : ε) (ended : Bool) {n : ℕ} {cs : List (List UInt8)}
    {bs rest : List UInt8} (h : cs.flatten = bs ++ rest) (hbs : bs.length = n) :
    ∃ cs', readExact eof ended n (delivered cs) = .ok (bs, delivered cs') ∧ cs'.flatten = rest := by
  rcases readExact_delivered eof ended n cs with ⟨bs', cs', heq, hflat, hbs'⟩ | ⟨-, hshort⟩
  · obtain ⟨rfl, rfl⟩ := List.append_inj (hflat.symm.trans h) (hbs'.trans hbs.symm)
    exact ⟨cs', heq, rfl⟩
  · rw [h, List.length_append] at hshort
    omega

/-- What `read_until` reads is gone from the stream. -/
lemma unread_readUntil {ended : Bool} {delim : UInt8} {ps ps' : Pieces ε} {bs : List UInt8}
    (h : readUntil ended delim ps = .ok (bs, ps')) : bs.length + unread ps' = unread ps := by
  induction ps generalizing bs with
  | nil =>
    cases ended with
    | false => exact absurd h (by simp [readUntil])
    | true =>
      obtain ⟨rfl, rfl⟩ : [] = bs ∧ [] = ps' := by simpa [readUntil] using h
      rfl
  | cons p ps ih =>
    cases p with
    | error e => exact absurd h (by simp [readUntil])
    | ok c =>
      have hsplit := List.takeWhile_append_dropWhile (p := (· ≠ delim)) (l := c)
      unfold readUntil at h
      split at h
      · obtain ⟨⟨bs', ps''⟩, hread, heq⟩ : ∃ x, readUntil ended delim ps = .ok x ∧
            (c ++ x.1, x.2) = (bs, ps') := by
          cases hx : readUntil ended delim ps with
          | error e => exact absurd h (by simp [hx, Except.map])
          | ok x => exact ⟨x, rfl, by simpa [hx, Except.map] using h⟩
        obtain ⟨rfl, rfl⟩ := Prod.mk.inj heq
        rw [List.length_append, unread, ← ih hread, Nat.add_assoc]
      · rename_i d rest hrest
        obtain ⟨rfl, rfl⟩ := Prod.mk.inj (Except.ok.inj h)
        have hlen := congrArg List.length hsplit
        rw [hrest] at hlen
        simp only [List.length_append, List.length_cons, List.length_nil, unread] at hlen ⊢
        omega

/-- The bytes up to the delimiter are read whatever the pieces are; without one, all bytes are
read at the end of the stream, and the reader waits else. -/
lemma readUntil_delivered (ended : Bool) (delim : UInt8) (cs : List (List UInt8)) :
    (∃ line rest cs', delim ∉ line ∧ cs.flatten = line ++ delim :: rest ∧
        readUntil (ε := ε) ended delim (delivered cs) = .ok (line ++ [delim], delivered cs') ∧
        cs'.flatten = rest) ∨
      (delim ∉ cs.flatten ∧ readUntil (ε := ε) ended delim (delivered cs) =
        if ended then .ok (cs.flatten, []) else .error .blocked) := by
  induction cs with
  | nil => exact .inr ⟨by simp, rfl⟩
  | cons c cs ih =>
    have hsplit := List.takeWhile_append_dropWhile (p := (· ≠ delim)) (l := c)
    have htake : delim ∉ c.takeWhile (· ≠ delim) := fun hmem => by
      simpa using List.mem_takeWhile_imp hmem
    cases hdrop : c.dropWhile (· ≠ delim) with
    | nil =>
      -- no delimiter in this piece: it is read whole
      have hread : readUntil (ε := ε) ended delim (delivered (c :: cs)) =
          (readUntil ended delim (delivered cs)).map fun (bs, ps) => (c ++ bs, ps) := by
        simp only [delivered, List.map_cons, readUntil, hdrop]
      have hc : delim ∉ c := by
        rw [hdrop, List.append_nil] at hsplit
        exact hsplit ▸ htake
      rcases ih with ⟨line, rest, cs', hline, hflat, heq, hrest⟩ | ⟨hnone, heq⟩
      · refine .inl ⟨c ++ line, rest, cs', by simp [hc, hline], ?_, ?_, hrest⟩
        · rw [List.flatten_cons, hflat, List.append_assoc]
        · rw [hread, heq, List.append_assoc]
          rfl
      · refine .inr ⟨by simp [hc, hnone], ?_⟩
        rw [hread, heq]
        cases ended <;> rfl
    | cons d rest =>
      have hd : d = delim := by
        have hhead := List.head?_dropWhile_not (· ≠ delim) c
        rw [hdrop] at hhead
        simpa using hhead
      subst hd
      refine .inl ⟨c.takeWhile (· ≠ d), rest ++ cs.flatten, rest :: cs, htake, ?_, ?_, rfl⟩
      · rw [List.flatten_cons, ← List.cons_append, ← List.append_assoc, ← hdrop, hsplit]
      · simp only [delivered, List.map_cons, readUntil, hdrop]

end FungiTransport.Lib
