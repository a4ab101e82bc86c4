import FungiTransport.Error
import FungiTransport.Lib.Reader
import FungiTransport.Lib.Socks5
import FungiTransport.Lib.Text

/-!
# The SOCKS5h client

`socks5::connect` opens a stream through a SOCKS5 proxy: a greeting, the request with the
hostname unresolved, and the reply, which is consumed to its last byte because the tunnel starts
right behind it.  The proxy is known by what it does: whether it can be dialled, whether the
client's writes succeed, and the pieces in which its bytes arrive.
-/

namespace FungiTransport

open Lib Lib.Socks5

/-- What the client meets: an error of the dialling, the errors of its two writes, and what the
proxy sends. -/
structure Proxy where
  dialErr : Option IoError
  greetingErr : Option IoError
  requestErr : Option IoError
  reads : Pieces IoError
  /-- The proxy closes the connection behind `reads`. -/
  ended : Bool

/-- A client whose dialling and writes succeed. -/
structure Proxy.Willing (p : Proxy) : Prop where
  dial : p.dialErr = none
  greeting : p.greetingErr = none
  request : p.requestErr = none

/-- What a call of `connect` comes to. -/
structure Dialled where
  /-- The proxy was dialled. -/
  contacted : Bool
  /-- The bytes of the writes that succeeded. -/
  written : Bytes
  /-- On success, what is left unread on the stream. -/
  result : Except (Stop ConnectError) (Pieces IoError)

namespace Socks5

/-- `io_err` -/
def ioErr (e : IoError) : ConnectError := .transport e.text

/-- The error of `read_exact` at the end of the stream. -/
def earlyEof : IoError := ⟨.unexpectedEof, "early eof"⟩

/-- `stream.read_exact(..).await.map_err(io_err)` -/
def readIo (ended : Bool) (n : ℕ) (reads : Pieces IoError) :
    Except (Stop ConnectError) (Bytes × Pieces IoError) :=
  (readExact earlyEof ended n reads).mapError (Stop.map ioErr)

/-- Version 5, one auth method, `0x00` for no authentication. -/
def greeting : Bytes := [0x05, 0x01, 0x00]

/-- The CONNECT request: address type `0x03` (domain name), then the name behind its length. -/
def request (host : String) (port : UInt16) : Bytes :=
  [0x05, 0x01, 0x00, 0x03, UInt8.ofNat (asBytes host).length] ++ asBytes host ++
    toBe 2 port.toNat

/-- The proxy's choice of the auth method. -/
def readChosen (ended : Bool) (reads : Pieces IoError) :
    Except (Stop ConnectError) (Pieces IoError) :=
  (readIo ended 2 reads).bind fun (chosen, reads) =>
    if chosen ≠ [0x05, 0x00] then
      .error (.failed (.transport "SOCKS5 proxy refused no-auth method"))
    else .ok reads

/-- Network unreachable, host unreachable and connection refused mean that the peer cannot be
reached. -/
def checkCode (code : UInt8) : Except (Stop ConnectError) Unit :=
  if code = 0x00 then .ok ()
  else if 0x03 ≤ code ∧ code ≤ 0x05 then .error (.failed .unreachable)
  else .error (.failed (.transport s!"SOCKS5 CONNECT failed with reply code {code}"))

/-- The length of the bound address. -/
def readAddrLen (ended : Bool) (atyp : UInt8) (reads : Pieces IoError) :
    Except (Stop ConnectError) (ℕ × Pieces IoError) :=
  if atyp = 0x01 then .ok (4, reads)
  else if atyp = 0x04 then .ok (16, reads)
  else if atyp = 0x03 then
    (readIo ended 1 reads).map fun (l, reads) => ((l.getD 0 0).toNat, reads)
  else .error (.failed (.transport s!"SOCKS5 reply with unknown address type {atyp}"))

/-- The reply to the request, up to the last byte of the bound port. -/
def readReply (ended : Bool) (reads : Pieces IoError) :
    Except (Stop ConnectError) (Pieces IoError) :=
  (readIo ended 4 reads).bind fun (head, reads) =>
    if head.getD 0 0 ≠ 0x05 then
      .error (.failed (.transport "SOCKS5 reply with wrong version byte"))
    else
      (checkCode (head.getD 1 0)).bind fun _ =>
        (readAddrLen ended (head.getD 3 0) reads).bind fun (addrLen, reads) =>
          (readIo ended (addrLen + 2) reads).map Prod.snd

/-- `socks5::connect` -/
def connect (p : Proxy) (host : String) (port : UInt16) : Dialled :=
  if 255 < (asBytes host).length then
    ⟨false, [], .error (.failed (.transport "hostname longer than SOCKS5's 255-byte limit"))⟩
  else
    match p.dialErr with
    | some e => ⟨true, [], .error (.failed (ioErr e))⟩
    | none =>
      match p.greetingErr with
      | some e => ⟨true, [], .error (.failed (ioErr e))⟩
      | none =>
        match readChosen p.ended p.reads with
        | .error e => ⟨true, greeting, .error e⟩
        | .ok reads =>
          match p.requestErr with
          | some e => ⟨true, greeting, .error (.failed (ioErr e))⟩
          | none => ⟨true, greeting ++ request host port, readReply p.ended reads⟩

/-! ## The request -/

/-- A server decodes the request to the host and the port, and no byte is left over. -/
lemma decodeRequest_request {host : String} (hhost : (asBytes host).length ≤ 255) (port : UInt16) :
    decodeRequest (request host port) = some (⟨1, .domain (asBytes host), port.toNat⟩, []) := by
  have h := decodeRequest_domain 1 hhost port.toNat_lt []
  rwa [List.append_nil] at h

lemma request_injective {host host' : String} (hhost : (asBytes host).length ≤ 255)
    (hhost' : (asBytes host').length ≤ 255) {port port' : UInt16}
    (h : request host port = request host' port') : host = host' ∧ port = port' := by
  have heq := (decodeRequest_request hhost port).symm.trans
    (h ▸ decodeRequest_request hhost' port')
  obtain ⟨hreq, -⟩ := Prod.mk.inj (Option.some.inj heq)
  obtain ⟨-, hdest, hport⟩ := Request.mk.inj hreq
  exact ⟨asBytes_injective (Dest.domain.inj hdest), UInt16.toNat_inj.mp hport⟩

/-- All is written by the time that the tunnel is up. -/
lemma written_of_ok {p : Proxy} {host : String} {port : UInt16} {unread : Pieces IoError}
    (h : (connect p host port).result = .ok unread) :
    (asBytes host).length ≤ 255 ∧ (connect p host port).written = greeting ++ request host port := by
  unfold connect at h ⊢
  split at h
  · exact absurd h (by simp)
  · rename_i hlen
    refine ⟨not_lt.mp hlen, ?_⟩
    rw [if_neg hlen]
    split at h
    · exact absurd h (by simp)
    · split at h
      · exact absurd h (by simp)
      · split at h
        · exact absurd h (by simp)
        · split at h
          · exact absurd h (by simp)
          · rfl

/-- **The request is lossless.**  What is written on the way to a tunnel is the greeting and a
CONNECT request that a server decodes to exactly the host and the port, so the requests for
distinct addresses differ; a host that is too long for its length byte is rejected before the
proxy is dialled. -/
theorem request_lossless (p : Proxy) (host : String) (port : UInt16) :
    ((asBytes host).length ≤ 255 → ∀ unread, (connect p host port).result = .ok unread →
      ∃ req, (connect p host port).written = greeting ++ req ∧
        decodeRequest req = some (⟨1, .domain (asBytes host), port.toNat⟩, []) ∧
        ∀ p' host' port' unread', (connect p' host' port').result = .ok unread' →
          (connect p' host' port').written = greeting ++ req → host' = host ∧ port' = port) ∧
    (255 < (asBytes host).length → ∃ e,
      connect p host port = ⟨false, [], .error (.failed (.transport e))⟩) := by
  constructor
  · intro hhost unread hok
    refine ⟨request host port, (written_of_ok hok).2, decodeRequest_request hhost port, ?_⟩
    intro p' host' port' unread' hok' hwritten
    obtain ⟨hhost', hwritten'⟩ := written_of_ok hok'
    have hreq := List.append_cancel_left (hwritten'.symm.trans hwritten)
    exact request_injective hhost' hhost hreq
  · intro hlong
    exact ⟨_, if_pos hlong⟩

/-- A proxy that opens the tunnel, with one byte sent through it. -/
def openingProxy : Proxy where
  dialErr := none
  greetingErr := none
  requestErr := none
  reads := delivered [[0x05], [0x00, 0x05, 0x00], [0x00, 0x01, 127, 0, 0, 1, 0, 80, 0x42]]
  ended := false

theorem request_lossless_opened : ∃ req,
    (connect openingProxy "a.onion" 9735).written = greeting ++ req ∧
      decodeRequest req = some (⟨1, .domain (asBytes "a.onion"), 9735⟩, []) ∧
      ∀ p' host' port' unread', (connect p' host' port').result = .ok unread' →
        (connect p' host' port').written = greeting ++ req → host' = "a.onion" ∧ port' = 9735 :=
  (request_lossless openingProxy "a.onion" 9735).1 (by decide) [.ok [0x42]] (by rfl)

/-! ## The reply -/

/-- The answer of a proxy that has opened the tunnel, up to its last byte. -/
def SuccessReply (bs : Bytes) : Prop :=
  ∃ rsv addr port, BoundAddr addr ∧ port.length = 2 ∧
    bs = [0x05, 0x00] ++ ([0x05, 0x00, rsv] ++ addr ++ port)

/-- The answer of a proxy that cannot reach the peer. -/
def UnreachableReply (bs : Bytes) : Prop :=
  ∃ code rsv atyp rest, 0x03 ≤ code ∧ code ≤ 0x05 ∧
    bs = [0x05, 0x00] ++ ([0x05, code, rsv, atyp] ++ rest)

/-- The answers that decide a failure: a method is refused, or behind the choice of no authentication
there is another version, a code that means neither success nor an unreachable peer, or the success
of a tunnel with an address of no known type. -/
inductive Violation : Bytes → Prop where
  | method {first second : UInt8} {rest : Bytes} (h : [first, second] ≠ [0x05, 0x00]) :
      Violation ([first, second] ++ rest)
  | version {ver code rsv atyp : UInt8} {rest : Bytes} (h : ver ≠ 0x05) :
      Violation ([0x05, 0x00] ++ ([ver, code, rsv, atyp] ++ rest))
  | code {code rsv atyp : UInt8} {rest : Bytes} (hne : code ≠ 0x00)
      (h : ¬ (0x03 ≤ code ∧ code ≤ 0x05)) :
      Violation ([0x05, 0x00] ++ ([0x05, code, rsv, atyp] ++ rest))
  | addrType {rsv atyp : UInt8} {rest : Bytes} (hv4 : atyp ≠ 0x01) (hdomain : atyp ≠ 0x03)
      (hv6 : atyp ≠ 0x04) : Violation ([0x05, 0x00] ++ ([0x05, 0x00, rsv, atyp] ++ rest))

/-- The stop of a reader that finds too few bytes. -/
def tooShort (ended : Bool) : Stop ConnectError :=
  if ended then .failed (ioErr earlyEof) else .blocked

lemma readIo_append (ended : Bool) {n : ℕ} {cs : List Bytes} {bs rest : Bytes}
    (h : cs.flatten = bs ++ rest) (hbs : bs.length = n) :
    ∃ cs', readIo ended n (delivered cs) = .ok (bs, delivered cs') ∧ cs'.flatten = rest := by
  obtain ⟨cs', heq, hrest⟩ := readExact_append earlyEof ended h hbs
  exact ⟨cs', by rw [readIo, heq]; rfl, hrest⟩

lemma readIo_delivered (ended : Bool) (n : ℕ) (cs : List Bytes) :
    (∃ bs cs', readIo ended n (delivered cs) = .ok (bs, delivered cs') ∧
        cs.flatten = bs ++ cs'.flatten ∧ bs.length = n) ∨
      readIo ended n (delivered cs) = .error (tooShort ended) := by
  rcases readExact_delivered earlyEof ended n cs with ⟨bs, cs', heq, hflat, hbs⟩ | ⟨heq, -⟩
  · exact .inl ⟨bs, cs', by rw [readIo, heq]; rfl, hflat, hbs⟩
  · refine .inr ?_
    rw [readIo, heq]
    cases ended <;> rfl

/-- The bound address and port are read to their last byte. -/
lemma readAddr_append (ended : Bool) {addr port rest : Bytes} (haddr : BoundAddr addr)
    (hport : port.length = 2) {cs : List Bytes} (h : cs.flatten = addr.tail ++ port ++ rest) :
    ∃ cs', ((readAddrLen ended (addr.headD 0) (delivered cs)).bind fun (addrLen, reads) =>
        (readIo ended (addrLen + 2) reads).map Prod.snd) = .ok (delivered cs') ∧
      cs'.flatten = rest := by
  cases haddr with
  | ipv4 addr hlen =>
    obtain ⟨cs', heq, hrest⟩ := readIo_append (n := 4 + 2) ended h (by simp [hlen, hport])
    exact ⟨cs', by simp [readAddrLen, Except.bind, heq, Except.map], hrest⟩
  | ipv6 addr hlen =>
    obtain ⟨cs', heq, hrest⟩ := readIo_append (n := 16 + 2) ended h (by simp [hlen, hport])
    exact ⟨cs', by simp [readAddrLen, Except.bind, heq, Except.map], hrest⟩
  | domain n name hlen =>
    have hlength : cs.flatten = [n] ++ (name ++ port ++ rest) := h
    obtain ⟨cs₁, heq₁, h₁⟩ := readIo_append (n := 1) ended hlength rfl
    obtain ⟨cs₂, heq₂, h₂⟩ := readIo_append (n := n.toNat + 2) ended h₁ (by simp [hlen, hport])
    exact ⟨cs₂, by simp [readAddrLen, Except.bind, heq₁, heq₂, Except.map], h₂⟩

section Reply

variable {p : Proxy} {host : String} {cs : List Bytes}

/-- What is left of `connect` when all writes succeed. -/
lemma result_of_willing (hp : Proxy.Willing p) (hhost : (asBytes host).length ≤ 255)
    (port : UInt16) : (connect p host port).result =
      (readChosen p.ended p.reads).bind (readReply p.ended) := by
  unfold connect
  rw [if_neg (not_lt.mpr hhost), hp.dial, hp.greeting]
  simp only
  cases readChosen p.ended p.reads with
  | error e => rfl
  | ok reads => rw [hp.request]; rfl

/-- The choice of no authentication is read to its last byte. -/
lemma readChosen_append (ended : Bool) {rest : Bytes} (h : cs.flatten = [0x05, 0x00] ++ rest) :
    ∃ cs', readChosen ended (delivered cs) = .ok (delivered cs') ∧ cs'.flatten = rest := by
  obtain ⟨cs', heq, hrest⟩ := readIo_append (n := 2) ended h rfl
  exact ⟨cs', by simp [readChosen, heq, Except.bind], hrest⟩

/-- The reply of a proxy that has opened the tunnel is consumed, and nothing behind it. -/
lemma result_of_success (hp : Proxy.Willing p) (hreads : p.reads = delivered cs)
    (hhost : (asBytes host).length ≤ 255) (port : UInt16) {pre rest : Bytes}
    (hpre : SuccessReply pre) (h : cs.flatten = pre ++ rest) :
    ∃ cs', (connect p host port).result = .ok (delivered cs') ∧ cs'.flatten = rest := by
  obtain ⟨rsv, addr, prt, haddr, hprt, rfl⟩ := hpre
  obtain ⟨atyp, addr', rfl⟩ : ∃ atyp addr', addr = atyp :: addr' := by
    cases haddr <;> exact ⟨_, _, rfl⟩
  rw [List.append_assoc] at h
  obtain ⟨cs₁, heq₁, h₁⟩ := readChosen_append p.ended h
  have hhead : cs₁.flatten = [0x05, 0x00, rsv, atyp] ++ (addr' ++ prt ++ rest) := by
    simp [h₁]
  obtain ⟨cs₂, heq₂, h₂⟩ := readIo_append (n := 4) p.ended hhead rfl
  obtain ⟨cs₃, heq₃, h₃⟩ := readAddr_append p.ended haddr hprt h₂
  refine ⟨cs₃, ?_, h₃⟩
  rw [result_of_willing hp hhost, hreads, heq₁]
  show readReply p.ended (delivered cs₁) = _
  rw [readReply, heq₂]
  exact heq₃

lemma checkCode_unreachable {code : UInt8} (hlo : 0x03 ≤ code) (hhi : code ≤ 0x05) :
    checkCode code = .error (.failed .unreachable) := by
  have hne : code ≠ 0x00 := by
    rintro rfl
    exact absurd hlo (by decide)
  rw [checkCode, if_neg hne, if_pos ⟨hlo, hhi⟩]

lemma result_of_unreachable (hp : Proxy.Willing p) (hreads : p.reads = delivered cs)
    (hhost : (asBytes host).length ≤ 255) (port : UInt16) (h : UnreachableReply cs.flatten) :
    (connect p host port).result = .error (.failed .unreachable) := by
  obtain ⟨code, rsv, atyp, rest, hlo, hhi, hflat⟩ := h
  obtain ⟨cs₁, heq₁, h₁⟩ := readChosen_append p.ended hflat
  obtain ⟨cs₂, heq₂, h₂⟩ := readIo_append (n := 4) p.ended h₁ rfl
  rw [result_of_willing hp hhost, hreads, heq₁]
  show readReply p.ended (delivered cs₁) = _
  rw [readReply, heq₂]
  show (checkCode code).bind _ = _
  rw [checkCode_unreachable hlo hhi]
  rfl

/-- An answer that decides a failure is reported, whether or not the stream goes on. -/
lemma result_of_violation (hp : Proxy.Willing p) (hreads : p.reads = delivered cs)
    (hhost : (asBytes host).length ≤ 255) (port : UInt16) (h : Violation cs.flatten) :
    ∃ text, (connect p host port).result = .error (.failed (.transport text)) := by
  rw [result_of_willing hp hhost, hreads]
  generalize hflat : cs.flatten = bs at h
  -- the reply behind the choice of no authentication, and the four bytes at its head
  have hreply {head rest : Bytes} (hlen : head.length = 4)
      (hbytes : cs.flatten = [0x05, 0x00] ++ (head ++ rest)) : ∃ cs₁ cs₂,
        (readChosen p.ended (delivered cs)).bind (readReply p.ended) =
          readReply p.ended (delivered cs₁) ∧
        readIo p.ended 4 (delivered cs₁) = .ok (head, delivered cs₂) := by
    obtain ⟨cs₁, heq₁, h₁⟩ := readChosen_append p.ended hbytes
    obtain ⟨cs₂, heq₂, -⟩ := readIo_append (n := 4) p.ended h₁ hlen
    exact ⟨cs₁, cs₂, by rw [heq₁]; rfl, heq₂⟩
  cases h with
  | method hchosen =>
    obtain ⟨cs₁, heq₁, -⟩ := readIo_append (n := 2) p.ended hflat rfl
    refine ⟨"SOCKS5 proxy refused no-auth method", ?_⟩
    simp [readChosen, heq₁, hchosen, Except.bind]
  | version hver =>
    obtain ⟨cs₁, cs₂, heq, heq₂⟩ := hreply rfl hflat
    refine ⟨"SOCKS5 reply with wrong version byte", ?_⟩
    rw [heq]
    simp [readReply, heq₂, hver, Except.bind]
  | @code code _ _ _ hne hcode =>
    obtain ⟨cs₁, cs₂, heq, heq₂⟩ := hreply rfl hflat
    have hfail : checkCode code =
        .error (.failed (.transport s!"SOCKS5 CONNECT failed with reply code {code}")) := by
      rw [checkCode, if_neg hne, if_neg hcode]
    refine ⟨s!"SOCKS5 CONNECT failed with reply code {code}", ?_⟩
    rw [heq]
    simp [readReply, heq₂, hfail, Except.bind]
  | @addrType _ atyp _ hv4 hdomain hv6 =>
    obtain ⟨cs₁, cs₂, heq, heq₂⟩ := hreply rfl hflat
    refine ⟨s!"SOCKS5 reply with unknown address type {atyp}", ?_⟩
    rw [heq]
    simp [readReply, heq₂, checkCode, readAddrLen, hv4, hdomain, hv6, Except.bind]

/-- A failure with a text, which the bytes or the end of the stream have decided, or a wait on a
stream that is open. -/
def Opaque (ended : Bool) (decided : Prop) (e : Stop ConnectError) : Prop :=
  (∃ text, e = .failed (.transport text)) ∧ (decided ∨ ended = true) ∨
    ended = false ∧ e = .blocked

lemma opaque_tooShort (ended : Bool) (decided : Prop) : Opaque ended decided (tooShort ended) := by
  cases ended with
  | false => exact .inr ⟨rfl, rfl⟩
  | true => exact .inl ⟨⟨_, rfl⟩, .inr rfl⟩

lemma opaque_transport {ended : Bool} {decided : Prop} (h : decided) (text : String) :
    Opaque ended decided (.failed (.transport text)) :=
  .inl ⟨⟨text, rfl⟩, .inl h⟩

lemma Opaque.imp {ended : Bool} {decided decided' : Prop} {e : Stop ConnectError}
    (h : Opaque ended decided e) (himp : decided → decided') : Opaque ended decided' e :=
  h.imp_left (And.imp_right (Or.imp_left himp))

lemma readChosen_cases (ended : Bool) (cs : List Bytes) :
    (∃ cs', readChosen ended (delivered cs) = .ok (delivered cs') ∧
        cs.flatten = [0x05, 0x00] ++ cs'.flatten) ∨
      ∃ e, readChosen ended (delivered cs) = .error e ∧ Opaque ended (Violation cs.flatten) e := by
  rcases readIo_delivered ended 2 cs with ⟨chosen, cs', heq, hflat, hlen⟩ | heq
  · by_cases hchosen : chosen = [0x05, 0x00]
    · exact .inl ⟨cs', by simp [readChosen, heq, hchosen, Except.bind], hchosen ▸ hflat⟩
    · obtain ⟨first, second, rfl⟩ := List.length_eq_two.mp hlen
      refine .inr ⟨.failed (.transport "SOCKS5 proxy refused no-auth method"), ?_,
        opaque_transport (hflat ▸ .method hchosen) _⟩
      simp [readChosen, heq, hchosen, Except.bind]
  · exact .inr ⟨_, by simp [readChosen, heq, Except.bind], opaque_tooShort ended _⟩

lemma checkCode_cases (code : UInt8) :
    (code = 0x00 ∧ checkCode code = .ok ()) ∨
      (0x03 ≤ code ∧ code ≤ 0x05 ∧ checkCode code = .error (.failed .unreachable)) ∨
      (code ≠ 0x00 ∧ ¬ (0x03 ≤ code ∧ code ≤ 0x05) ∧
        ∃ text, checkCode code = .error (.failed (.transport text))) := by
  unfold checkCode
  split
  · exact .inl ⟨‹_›, rfl⟩
  · split
    · rename_i hcode
      exact .inr (.inl ⟨hcode.1, hcode.2, rfl⟩)
    · exact .inr (.inr ⟨‹_›, ‹_›, _, rfl⟩)

/-- The bound address and port are read from a stream that has them, and from no other. -/
lemma readAddr_cases (ended : Bool) (atyp : UInt8) (cs : List Bytes) :
    (∃ addr port cs', BoundAddr (atyp :: addr) ∧ port.length = 2 ∧
        cs.flatten = addr ++ port ++ cs'.flatten ∧
        ((readAddrLen ended atyp (delivered cs)).bind fun (addrLen, reads) =>
          (readIo ended (addrLen + 2) reads).map Prod.snd) = .ok (delivered cs')) ∨
      ∃ e, ((readAddrLen ended atyp (delivered cs)).bind fun (addrLen, reads) =>
          (readIo ended (addrLen + 2) reads).map Prod.snd) = .error e ∧
        Opaque ended (atyp ≠ 0x01 ∧ atyp ≠ 0x03 ∧ atyp ≠ 0x04) e := by
  -- an address of known length, behind which the port is read
  have hfixed : ∀ (len : ℕ) (cs : List Bytes),
      (∃ addr port cs', addr.length = len ∧ port.length = 2 ∧
          cs.flatten = addr ++ port ++ cs'.flatten ∧
          (readIo ended (len + 2) (delivered cs)).map Prod.snd = .ok (delivered cs')) ∨
        ∃ e, (readIo ended (len + 2) (delivered cs)).map Prod.snd = .error e ∧
          Opaque ended (atyp ≠ 0x01 ∧ atyp ≠ 0x03 ∧ atyp ≠ 0x04) e := by
    intro len cs
    rcases readIo_delivered ended (len + 2) cs with ⟨bound, cs', heq, hflat, hlen⟩ | heq
    · refine .inl ⟨bound.take len, bound.drop len, cs', ?_, ?_, ?_, ?_⟩
      · rw [List.length_take]
        omega
      · rw [List.length_drop]
        omega
      · rw [List.take_append_drop, hflat]
      · rw [heq]
        rfl
    · exact .inr ⟨_, by rw [heq]; rfl, opaque_tooShort ended _⟩
  by_cases h1 : atyp = 0x01
  · subst h1
    rcases hfixed 4 cs with ⟨addr, port, cs', hlen, hport, hflat, heq⟩ | ⟨e, heq, he⟩
    · exact .inl ⟨addr, port, cs', .ipv4 addr hlen, hport, hflat, heq⟩
    · exact .inr ⟨e, heq, he⟩
  by_cases h4 : atyp = 0x04
  · subst h4
    rcases hfixed 16 cs with ⟨addr, port, cs', hlen, hport, hflat, heq⟩ | ⟨e, heq, he⟩
    · exact .inl ⟨addr, port, cs', .ipv6 addr hlen, hport, hflat, heq⟩
    · exact .inr ⟨e, heq, he⟩
  by_cases h3 : atyp = 0x03
  · subst h3
    rcases readIo_delivered ended 1 cs with ⟨l, cs₁, heq₁, hflat₁, hl⟩ | heq₁
    · obtain ⟨n, rfl⟩ := List.length_eq_one_iff.mp hl
      have hlen : readAddrLen ended 0x03 (delivered cs) = .ok (n.toNat, delivered cs₁) := by
        simp [readAddrLen, heq₁, Except.map]
      rw [hlen]
      rcases hfixed n.toNat cs₁ with ⟨name, port, cs', hname, hport, hflat, heq⟩ | ⟨e, heq, he⟩
      · refine .inl ⟨n :: name, port, cs', .domain n name hname, hport, ?_, heq⟩
        rw [hflat₁, hflat]
        rfl
      · exact .inr ⟨e, heq, he⟩
    · refine .inr ⟨_, ?_, opaque_tooShort ended _⟩
      simp [readAddrLen, heq₁, Except.map, Except.bind]
  · refine .inr ⟨.failed (.transport s!"SOCKS5 reply with unknown address type {atyp}"), ?_,
      opaque_transport ⟨h1, h3, h4⟩ _⟩
    simp only [readAddrLen, if_neg h1, if_neg h4, if_neg h3]
    rfl

/-- What `connect` comes to, for every answer of the proxy. -/
lemma result_cases (hp : Proxy.Willing p) (hreads : p.reads = delivered cs)
    (hhost : (asBytes host).length ≤ 255) (port : UInt16) :
    (∃ pre cs', SuccessReply pre ∧ cs.flatten = pre ++ cs'.flatten ∧
        (connect p host port).result = .ok (delivered cs')) ∨
      (UnreachableReply cs.flatten ∧
        (connect p host port).result = .error (.failed .unreachable)) ∨
      ∃ e, (connect p host port).result = .error e ∧
        Opaque p.ended (Violation cs.flatten) e := by
  rw [result_of_willing hp hhost, hreads]
  rcases readChosen_cases p.ended cs with ⟨cs₁, heq₁, h₁⟩ | ⟨e, heq₁, he⟩
  swap
  · exact .inr (.inr ⟨e, by rw [heq₁]; rfl, he⟩)
  rw [heq₁]
  show (∃ pre cs', _ ∧ _ ∧ readReply p.ended (delivered cs₁) = _) ∨
    (_ ∧ readReply p.ended (delivered cs₁) = _) ∨ ∃ e, readReply p.ended (delivered cs₁) = _ ∧ _
  -- the version, the code, a reserved byte and the type of the address
  rcases readIo_delivered p.ended 4 cs₁ with ⟨head, cs₂, heq₂, h₂, hhead⟩ | heq₂
  swap
  · exact .inr (.inr ⟨_, by rw [readReply, heq₂]; rfl, opaque_tooShort _ _⟩)
  obtain ⟨ver, code, rsv, atyp, rfl⟩ : ∃ a b c d, head = [a, b, c, d] := by
    match head, hhead with
    | [a, b, c, d], _ => exact ⟨a, b, c, d, rfl⟩
  rw [h₂] at h₁
  by_cases hver : ver = 0x05
  swap
  · refine .inr (.inr ⟨.failed (.transport "SOCKS5 reply with wrong version byte"), ?_,
      opaque_transport (h₁ ▸ .version hver) _⟩)
    simp [readReply, heq₂, Except.bind, hver]
  subst hver
  have hreply : readReply p.ended (delivered cs₁) = (checkCode code).bind fun _ =>
      (readAddrLen p.ended atyp (delivered cs₂)).bind fun (addrLen, reads) =>
        (readIo p.ended (addrLen + 2) reads).map Prod.snd := by
    rw [readReply, heq₂]
    rfl
  rw [hreply]
  rcases checkCode_cases code with
      ⟨rfl, hcode⟩ | ⟨hlo, hhi, hcode⟩ | ⟨hne, hcode', text, hcode⟩ <;> rw [hcode]
  · rcases readAddr_cases p.ended atyp cs₂ with ⟨addr, prt, cs', haddr, hprt, h₃, heq⟩ | ⟨e, heq, he⟩
    · refine .inl ⟨_, cs', ⟨rsv, atyp :: addr, prt, haddr, hprt, rfl⟩, ?_, heq⟩
      rw [h₁, h₃]
      simp
    · exact .inr (.inr ⟨e, heq, he.imp fun ⟨hv4, hdomain, hv6⟩ => h₁ ▸ .addrType hv4 hdomain hv6⟩)
  · exact .inr (.inl ⟨⟨code, rsv, atyp, cs₂.flatten, hlo, hhi, h₁⟩, rfl⟩)
  · exact .inr (.inr ⟨_, rfl, opaque_transport (h₁ ▸ .code hne hcode') text⟩)

end Reply

/-- **The reply is parsed exactly.**  For every answer of the proxy, in any pieces: a tunnel is
returned exactly for a success reply, with exactly the bytes behind the reply left unread;
`Unreachable` exactly for the replies with code 3, 4 or 5; an answer that decides another failure is
a `Transport` error at once, and so is anything else on a stream that ends, while on one that is
open the client waits for more. -/
theorem reply_parsed_exactly {p : Proxy} (hp : p.Willing) {cs : List Bytes}
    (hreads : p.reads = delivered cs) {host : String} (hhost : (asBytes host).length ≤ 255)
    (port : UInt16) :
    (∀ pre rest, SuccessReply pre → cs.flatten = pre ++ rest →
      ∃ cs', (connect p host port).result = .ok (delivered cs') ∧ cs'.flatten = rest) ∧
    (∀ reads, (connect p host port).result = .ok reads →
      ∃ pre cs', SuccessReply pre ∧ cs.flatten = pre ++ cs'.flatten ∧ reads = delivered cs') ∧
    ((connect p host port).result = .error (.failed .unreachable) ↔
      UnreachableReply cs.flatten) ∧
    (p.ended = true → (∀ pre, SuccessReply pre → ¬ pre <+: cs.flatten) →
      ¬ UnreachableReply cs.flatten →
      ∃ text, (connect p host port).result = .error (.failed (.transport text))) ∧
    (Violation cs.flatten →
      ∃ text, (connect p host port).result = .error (.failed (.transport text))) ∧
    (p.ended = false → (∀ pre, SuccessReply pre → ¬ pre <+: cs.flatten) →
      ¬ UnreachableReply cs.flatten → ¬ Violation cs.flatten →
      (connect p host port).result = .error .blocked) := by
  have hcases := result_cases hp hreads hhost port
  refine ⟨fun pre rest hpre h => result_of_success hp hreads hhost port hpre h, ?_, ?_, ?_,
    result_of_violation hp hreads hhost port, ?_⟩
  · intro reads hok
    rcases hcases with ⟨pre, cs', hpre, hflat, heq⟩ | ⟨-, heq⟩ | ⟨e, heq, -⟩
    · exact ⟨pre, cs', hpre, hflat, Except.ok.inj (hok.symm.trans heq)⟩
    · exact absurd (hok.symm.trans heq) (by simp)
    · exact absurd (hok.symm.trans heq) (by simp)
  · refine ⟨fun herr => ?_, result_of_unreachable hp hreads hhost port⟩
    rcases hcases with ⟨pre, cs', -, -, heq⟩ | ⟨hun, -⟩ | ⟨e, heq, he⟩
    · exact absurd (herr.symm.trans heq) (by simp)
    · exact hun
    · obtain rfl := Except.error.inj (herr.symm.trans heq)
      rcases he with ⟨⟨text, he⟩, -⟩ | ⟨-, he⟩ <;> exact absurd he (by simp)
  · intro hended hno hun
    rcases hcases with ⟨pre, cs', hpre, hflat, -⟩ | ⟨h, -⟩ | ⟨e, heq, he⟩
    · exact absurd ⟨_, hflat.symm⟩ (hno pre hpre)
    · exact absurd h hun
    · rcases he with ⟨⟨text, rfl⟩, -⟩ | ⟨hopen, -⟩
      · exact ⟨text, heq⟩
      · exact absurd (hopen.symm.trans hended) (by simp)
  · intro hopen hno hun hviolation
    rcases hcases with ⟨pre, cs', hpre, hflat, -⟩ | ⟨h, -⟩ | ⟨e, heq, he⟩
    · exact absurd ⟨_, hflat.symm⟩ (hno pre hpre)
    · exact absurd h hun
    · rcases he with ⟨-, h | hended⟩ | ⟨-, rfl⟩
      · exact absurd h hviolation
      · exact absurd (hopen.symm.trans hended) (by simp)
      · exact heq

theorem reply_parsed_exactly_opened : ∃ cs',
    (connect openingProxy "a.onion" 9735).result = .ok (delivered cs') ∧ cs'.flatten = [0x42] :=
  (reply_parsed_exactly (p := openingProxy) ⟨rfl, rfl, rfl⟩ rfl (by decide) 9735).1
    [0x05, 0x00, 0x05, 0x00, 0x00, 0x01, 127, 0, 0, 1, 0, 80] [0x42]
    ⟨0x00, [0x01, 127, 0, 0, 1], [0, 80], .ipv4 [127, 0, 0, 1] rfl, rfl, rfl⟩ rfl

end Socks5

end FungiTransport
