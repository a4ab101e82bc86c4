import FungiTransport.Lib.LengthPrefix

/-!
# The SOCKS5 wire format

The messages of RFC 1928 as its text has them, independent of any program: the request as a
server decodes it, and the bound address of a reply.  This file names nothing of the repository.
-/

namespace FungiTransport.Lib.Socks5

/-- A destination address. -/
inductive Dest where
  | ipv4 (addr : List UInt8)
  | domain (name : List UInt8)
  | ipv6 (addr : List UInt8)
deriving DecidableEq, Repr

/-- A request: its command code (`1` is CONNECT), the destination and its port. -/
structure Request where
  cmd : UInt8
  dest : Dest
  port : ℕ
deriving DecidableEq, Repr

/-- The address behind the address type, and what follows it. -/
def decodeDest : List UInt8 → Option (Dest × List UInt8)
  | 1 :: bs => if 4 ≤ bs.length then some (.ipv4 (bs.take 4), bs.drop 4) else none
  | 3 :: n :: bs =>
    if n.toNat ≤ bs.length then some (.domain (bs.take n.toNat), bs.drop n.toNat) else none
  | 4 :: bs => if 16 ≤ bs.length then some (.ipv6 (bs.take 16), bs.drop 16) else none
  | _ => none

/-- The request at the head of a byte string, and what follows it. -/
def decodeRequest : List UInt8 → Option (Request × List UInt8)
  | 5 :: cmd :: 0 :: bs =>
    match decodeDest bs with
    | some (dest, hi :: lo :: rest) => some (⟨cmd, dest, ofBe [hi, lo]⟩, rest)
    | _ => none
  | _ => none

/-- A request for a domain name is decoded to the name and the port, for every name whose length
fits in its byte. -/
lemma decodeRequest_domain (cmd : UInt8) {name : List UInt8} (hname : name.length ≤ 255)
    {port : ℕ} (hport : port < 2 ^ 16) (rest : List UInt8) :
    decodeRequest ([5, cmd, 0, 3, UInt8.ofNat name.length] ++ name ++ toBe 2 port ++ rest) =
      some (⟨cmd, .domain name, port⟩, rest) := by
  have hlen : (UInt8.ofNat name.length).toNat = name.length := by
    rw [UInt8.toNat_ofNat']
    omega
  obtain ⟨hi, lo, hbe⟩ : ∃ hi lo, toBe 2 port = [hi, lo] :=
    List.length_eq_two.mp (length_toBe 2 port)
  have hport' : ofBe [hi, lo] = port := hbe ▸ ofBe_toBe (by simpa using hport)
  have hdest : decodeDest (3 :: UInt8.ofNat name.length :: (name ++ hi :: lo :: rest)) =
      some (.domain name, hi :: lo :: rest) := by
    simp [decodeDest, hlen]
  rw [hbe]
  show decodeRequest (5 :: cmd :: 0 :: 3 :: UInt8.ofNat name.length :: (name ++ [hi, lo] ++ rest)) = _
  rw [List.append_assoc]
  simp only [decodeRequest, List.cons_append, List.nil_append, hdest, hport']

/-- The address type and the bound address of a reply. -/
inductive BoundAddr : List UInt8 → Prop where
  | ipv4 (addr : List UInt8) (hlen : addr.length = 4) : BoundAddr (1 :: addr)
  | ipv6 (addr : List UInt8) (hlen : addr.length = 16) : BoundAddr (4 :: addr)
  | domain (n : UInt8) (name : List UInt8) (hlen : name.length = n.toNat) :
      BoundAddr (3 :: n :: name)

end FungiTransport.Lib.Socks5
