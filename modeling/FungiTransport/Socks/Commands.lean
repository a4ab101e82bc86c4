import FungiTransport.Lib.Decimal
import FungiTransport.Lib.Fields
import FungiTransport.Socks.Control

/-!
# What the daemon is asked for

The commands that `create_onion` writes, as a daemon reads them: two lines, of which the first one
authenticates with the bytes of a cookie in hex, and the second one asks for an onion service with
a virtual port and a local address to which it forwards.  A call that has published a service has
written its cookie and its two ports, and nothing else (`Control.read_written`).
-/

namespace FungiTransport

open Lib

namespace Control

/-! ## The reader -/

/-- The value of a hex digit. -/
def hexValue (c : Char) : Option ℕ :=
  if '0' ≤ c ∧ c ≤ '9' then some (c.toNat - '0'.toNat)
  else if 'A' ≤ c ∧ c ≤ 'F' then some (c.toNat - 'A'.toNat + 10)
  else if 'a' ≤ c ∧ c ≤ 'f' then some (c.toNat - 'a'.toNat + 10)
  else none

/-- Bytes that are written with two hex digits each. -/
def unhex : Text → Option Bytes
  | [] => some []
  | [_] => none
  | hi :: lo :: rest => do
    let h ← hexValue hi
    let l ← hexValue lo
    let bytes ← unhex rest
    return UInt8.ofNat (16 * h + l) :: bytes

/-- The cookie in an `AUTHENTICATE` command; a command without one has the empty cookie. -/
def readAuthenticate (command : Text) : Option Bytes :=
  match stripPrefix "AUTHENTICATE".toList command with
  | some [] => some []
  | some (' ' :: digits) => unhex digits
  | _ => none

/-- A request for an onion service. -/
structure AddOnion where
  key : Text
  flags : Text
  virtPort : ℕ
  /-- The host and the port to which the daemon takes what comes to the service. -/
  target : Text × ℕ
deriving DecidableEq

/-- An address, its port behind the last colon. -/
def readTarget (target : Text) : Option (Text × ℕ) := do
  let (host, port) ← rsplitOnce ':' target
  let port ← parseUnsigned 65535 port
  return (host, port)

/-- The request in an `ADD_ONION` command. -/
def readAddOnion (command : Text) : Option AddOnion :=
  match splitWhitespace command with
  | [verb, key, flags, port] =>
    if verb = "ADD_ONION".toList then do
      let flags ← stripPrefix "Flags=".toList flags
      let port ← stripPrefix "Port=".toList port
      let (virt, target) ← rsplitOnce ',' port
      let virtPort ← parseUnsigned 65535 virt
      let target ← readTarget target
      return ⟨key, flags, virtPort, target⟩
    else none
  | _ => none

/-- A command without the carriage return at its end, which must be there. -/
def command (line : Text) : Option Text :=
  if line.getLast? = some '\r' then some line.dropLast else none

/-- The two commands of a client that publishes a service, a line for each. -/
def readCommands (text : Text) : Option (Bytes × AddOnion) :=
  match text.splitOn '\n' with
  | [auth, add, []] => do
    let auth ← command auth
    let add ← command add
    return (← readAuthenticate auth, ← readAddOnion add)
  | _ => none

/-- The cookie with which the client authenticates, the empty one when it needs none. -/
def cookie (d : Daemon) : ControlAuth → Except IoError Bytes
  | .null => .ok []
  | .cookieFile path => d.readFile path

example : readCommands ("AUTHENTICATE 0A\r\n" ++ addOnion 9735 40001).toList =
    some ([10], ⟨"NEW:ED25519-V3".toList, "DiscardPK".toList, 9735, ("127.0.0.1".toList, 40001)⟩) := by
  decide

/-! ## The cookie -/

/-- The digits of a byte are read back. -/
lemma hexValue_digit : ∀ n < 16,
    hexValue ("0123456789ABCDEF".toList.getD n '0') = some n := by
  decide

lemma digit_ne_lf : ∀ n < 16, "0123456789ABCDEF".toList.getD n '0' ≠ '\n' := by
  decide

lemma unhex_hex (bytes : Bytes) : unhex (hex bytes).toList = some bytes := by
  rw [hex, String.toList_ofList]
  induction bytes with
  | nil => rfl
  | cons b bytes ih =>
    have hb := b.toNat_lt
    have hhi := hexValue_digit (b.toNat / 16) (by omega)
    have hlo := hexValue_digit (b.toNat % 16) (by omega)
    have hvalue : 16 * (b.toNat / 16) + b.toNat % 16 = b.toNat := by omega
    simp only [List.flatMap_cons, List.cons_append, List.nil_append, unhex, hhi, hlo, ih, hvalue,
      UInt8.ofNat_toNat, Option.bind_eq_bind, Option.bind_some, Option.pure_def]

lemma lf_notMem_hex (bytes : Bytes) : '\n' ∉ (hex bytes).toList := by
  rw [hex, String.toList_ofList]
  intro hmem
  obtain ⟨b, -, hb⟩ := List.mem_flatMap.mp hmem
  have hlt := b.toNat_lt
  rcases List.mem_cons.mp hb with hhi | hlo
  · exact digit_ne_lf (b.toNat / 16) (by omega) hhi.symm
  · exact digit_ne_lf (b.toNat % 16) (by omega) (List.mem_singleton.mp hlo).symm

/-- The first line is an `AUTHENTICATE` command with the cookie. -/
lemma authLine_eq_ok {d : Daemon} {auth : ControlAuth} {line : String}
    (h : authLine d auth = .ok line) : ∃ text secret, line.toList = text ++ ['\r', '\n'] ∧
      '\n' ∉ text ∧ cookie d auth = .ok secret ∧ readAuthenticate text = some secret := by
  cases auth with
  | null =>
    obtain rfl := Except.ok.inj h
    exact ⟨"AUTHENTICATE".toList, [], by decide, by decide, rfl, by decide⟩
  | cookieFile path =>
    rw [authLine] at h
    split at h
    · cases h
    · rename_i secret hread
      obtain rfl := Except.ok.inj h
      refine ⟨"AUTHENTICATE ".toList ++ (hex secret).toList, secret, ?_, ?_, hread, ?_⟩
      · change ("AUTHENTICATE " ++ hex secret ++ "\r\n").toList = _
        simp
      · rw [List.mem_append, not_or]
        exact ⟨by decide, lf_notMem_hex secret⟩
      · have hstrip : stripPrefix "AUTHENTICATE".toList
            ("AUTHENTICATE ".toList ++ (hex secret).toList) = some (' ' :: (hex secret).toList) :=
          stripPrefix_eq_some.mpr (by simp)
        rw [readAuthenticate, hstrip]
        exact unhex_hex secret

/-! ## The service -/

lemma read_port (port : UInt16) : parseUnsigned 65535 (printUnsigned port.toNat) = some port.toNat :=
  have hport := port.toNat_lt
  parseUnsigned_eq_some.mpr ⟨denotes_printUnsigned _, by omega⟩

/-- Neither a blank nor a separator stands in a printed number. -/
lemma notMem_printUnsigned {c : Char} (hc : c.isDigit = false) (n : ℕ) : c ∉ printUnsigned n :=
  fun hmem => absurd (isDigit_of_mem_printUnsigned hmem) (by simp [hc])

lemma readTarget_append (host : Text) (port : UInt16) :
    readTarget (host ++ ':' :: printUnsigned port.toNat) = some (host, port.toNat) := by
  simp [readTarget, rsplitOnce_append (notMem_printUnsigned (c := ':') (by decide) _), read_port]

lemma isWhitespace_of_isDigit {c : Char} (hc : c.isDigit = true) : isWhitespace c = false := by
  simp only [Char.isDigit, ge_iff_le, Bool.and_eq_true, decide_eq_true_eq,
    UInt32.le_iff_toNat_le] at hc
  have hlow : 48 ≤ c.toNat := hc.1
  have hhigh : c.toNat ≤ 57 := hc.2
  simp only [isWhitespace, Bool.or_eq_false_iff, Bool.and_eq_false_iff, decide_eq_false_iff_not,
    List.mem_cons, List.not_mem_nil, or_false, not_or]
  omega

/-- The fields of the request of a client. -/
def onionFields (virtPort localPort : UInt16) : List Text :=
  ["ADD_ONION".toList, "NEW:ED25519-V3".toList, "Flags=DiscardPK".toList,
    "Port=".toList ++ printUnsigned virtPort.toNat ++ ',' :: "127.0.0.1:".toList ++
      printUnsigned localPort.toNat]

/-- The second line is these fields, with a blank between two of them. -/
lemma toList_addOnion (virtPort localPort : UInt16) : (addOnion virtPort localPort).toList =
    [' '].intercalate (onionFields virtPort localPort) ++ ['\r', '\n'] := by
  change ("ADD_ONION NEW:ED25519-V3 Flags=DiscardPK Port=" ++ toString virtPort ++ ",127.0.0.1:" ++
    toString localPort ++ "\r\n").toList = _
  have hprint (port : UInt16) : (toString port).toList = printUnsigned port.toNat := by
    change (Nat.repr port.toNat).toList = _
    simp [Nat.repr, printUnsigned]
  simp [hprint, onionFields, List.intercalate]

lemma isField_onionFields (virtPort localPort : UInt16) :
    ∀ f ∈ onionFields virtPort localPort, IsField f := by
  have hblank (n : ℕ) : ∀ c ∈ printUnsigned n, isWhitespace c = false := fun c hc =>
    isWhitespace_of_isDigit (isDigit_of_mem_printUnsigned hc)
  have hport : "Port=".toList ++ printUnsigned virtPort.toNat ++ ',' :: "127.0.0.1:".toList ++
      printUnsigned localPort.toNat = "Port=".toList ++ (printUnsigned virtPort.toNat ++
        (",127.0.0.1:".toList ++ printUnsigned localPort.toNat)) := by
    simp
  simp only [onionFields, List.forall_mem_cons, hport]
  refine ⟨by decide, by decide, by decide, ⟨by simp, fun c hc => ?_⟩, by simp⟩
  rcases List.mem_append.mp hc with hc | hc
  · exact (by decide : IsField "Port=".toList).2 c hc
  · rcases List.mem_append.mp hc with hc | hc
    · exact hblank _ c hc
    · rcases List.mem_append.mp hc with hc | hc
      · exact (by decide : IsField ",127.0.0.1:".toList).2 c hc
      · exact hblank _ c hc

/-- The second line is an `ADD_ONION` command with the two ports. -/
lemma readAddOnion_onionFields (virtPort localPort : UInt16) :
    readAddOnion ([' '].intercalate (onionFields virtPort localPort)) =
      some ⟨"NEW:ED25519-V3".toList, "DiscardPK".toList, virtPort.toNat,
        ("127.0.0.1".toList, localPort.toNat)⟩ := by
  have hflags : stripPrefix "Flags=".toList "Flags=DiscardPK".toList = some "DiscardPK".toList := by
    decide
  have hport : stripPrefix "Port=".toList ("Port=".toList ++ printUnsigned virtPort.toNat ++
      ',' :: "127.0.0.1:".toList ++ printUnsigned localPort.toNat) =
        some (printUnsigned virtPort.toNat ++
          ',' :: ("127.0.0.1:".toList ++ printUnsigned localPort.toNat)) :=
    stripPrefix_eq_some.mpr (by simp)
  have hcomma : rsplitOnce ',' (printUnsigned virtPort.toNat ++
      ',' :: ("127.0.0.1:".toList ++ printUnsigned localPort.toNat)) =
        some (printUnsigned virtPort.toNat, "127.0.0.1:".toList ++ printUnsigned localPort.toNat) := by
    refine rsplitOnce_append (fun hmem => ?_) _
    rcases List.mem_append.mp hmem with hmem | hmem
    · exact absurd hmem (by decide)
    · exact notMem_printUnsigned (by decide) _ hmem
  have htarget : readTarget ("127.0.0.1:".toList ++ printUnsigned localPort.toNat) =
      some ("127.0.0.1".toList, localPort.toNat) :=
    readTarget_append "127.0.0.1".toList localPort
  rw [readAddOnion, splitWhitespace_intercalate (isField_onionFields virtPort localPort)]
  simp only [onionFields, hflags, hport, hcomma, read_port, htarget, if_true, Option.bind_eq_bind,
    Option.bind_some, Option.pure_def]

/-! ## Both commands -/

lemma command_append_cr (text : Text) : command (text ++ ['\r']) = some text := by
  simp [command]

/-- A call that publishes a service has written both commands. -/
lemma written_of_ok {d : Daemon} {auth : ControlAuth} {virtPort localPort : UInt16}
    {service : OnionService} (h : (createOnion d auth virtPort localPort).result = .ok service) :
    ∃ line, authLine d auth = .ok line ∧ (createOnion d auth virtPort localPort).written =
      asBytes line ++ asBytes (addOnion virtPort localPort) := by
  unfold createOnion at h ⊢
  repeat' split at h
  all_goals first
    | cases h
    | exact ⟨_, ‹_›, by simp [*]⟩

lemma asBytes_append (s t : String) : asBytes (s ++ t) = asBytes s ++ asBytes t := by
  simp [asBytes]

/-- **The daemon is asked for the service.**  A call that publishes a service has written two
commands: the daemon reads from them the cookie of the configuration, and a request for a new
service, forgotten with its key, that takes what comes to the virtual port to the local one. -/
lemma read_written {d : Daemon} {auth : ControlAuth} {virtPort localPort : UInt16}
    {service : OnionService} (h : (createOnion d auth virtPort localPort).result = .ok service) :
    ∃ text secret, (createOnion d auth virtPort localPort).written = asBytes text ∧
      cookie d auth = .ok secret ∧ readCommands text.toList = some (secret,
        ⟨"NEW:ED25519-V3".toList, "DiscardPK".toList, virtPort.toNat,
          ("127.0.0.1".toList, localPort.toNat)⟩) := by
  obtain ⟨line, hline, hwritten⟩ := written_of_ok h
  obtain ⟨auth', secret, hauth, hlf, hcookie, hread⟩ := authLine_eq_ok hline
  refine ⟨line ++ addOnion virtPort localPort, secret, ?_, hcookie, ?_⟩
  · rw [hwritten, asBytes_append]
  · have hline' : (line ++ addOnion virtPort localPort).toList = (auth' ++ ['\r']) ++ '\n' ::
        (([' '].intercalate (onionFields virtPort localPort) ++ ['\r']) ++ '\n' :: []) := by
      simp [hauth, toList_addOnion]
    have hfirst : '\n' ∉ auth' ++ ['\r'] := by simp [hlf]
    have hsecond : '\n' ∉ [' '].intercalate (onionFields virtPort localPort) ++ ['\r'] := by
      simp [notMem_intercalate (isField_onionFields virtPort localPort)]
    have hsplit : (line ++ addOnion virtPort localPort).toList.splitOn '\n' = [auth' ++ ['\r'],
        [' '].intercalate (onionFields virtPort localPort) ++ ['\r'], []] := by
      rw [hline', splitOn_append_cons hfirst, splitOn_append_cons hsecond]
      rfl
    simp only [readCommands, hsplit, command_append_cr, hread, readAddOnion_onionFields,
      Option.bind_eq_bind, Option.bind_some, Option.pure_def]

end Control

end FungiTransport
