import FungiTransport.Error
import FungiTransport.Lib.Lines
import FungiTransport.Lib.Reader

/-!
# The control-port client

`create_onion` authenticates on the control port of a Tor daemon and publishes one onion service.
It reads the daemon's replies line by line, and the last line of a reply is the first one that
does not start with `250-`: reading one more would wait for ever.  What it does is first read off
line by line (`Control.scan`), for all ways in which the bytes may arrive.
-/

namespace FungiTransport

open Lib

/-- How to authenticate on the daemon's control port. -/
inductive ControlAuth where
  | null
  | cookieFile (path : String)
deriving DecidableEq, Repr

/-- What the client meets: an error of the dialling, the files it can read, the errors of its two
writes, and what the daemon sends. -/
structure Daemon where
  dialErr : Option IoError
  readFile : String → Except IoError Bytes
  authErr : Option IoError
  cmdErr : Option IoError
  reads : Pieces IoError
  /-- The daemon closes the connection behind `reads`. -/
  ended : Bool

/-- A published onion service, with the rest of its control connection. -/
structure OnionService where
  serviceId : Text
  conn : Pieces IoError

/-- What a call of `create_onion` comes to, with the bytes of the writes that succeeded. -/
structure Created where
  written : Bytes
  result : Except (Stop ConnectError) OnionService

namespace Control

/-- `io_err` -/
def ioErr (e : IoError) : ConnectError := .transport e.text

/-- Two upper-case hex digits for each byte. -/
def hex (bytes : Bytes) : String :=
  let digit (n : ℕ) : Char := "0123456789ABCDEF".toList.getD n '0'
  String.ofList (bytes.flatMap fun b => [digit (b.toNat / 16), digit (b.toNat % 16)])

/-- The error of `read_line` for bytes that are no text. -/
def invalidUtf8 : IoError := ⟨.other "InvalidData", "stream did not contain valid UTF-8"⟩

/-- `read_reply_line` -/
def readReplyLine (ended : Bool) (reads : Pieces IoError) :
    Except (Stop ConnectError) (Text × Pieces IoError) :=
  match readUntil ended 10 reads with
  | .error e => .error (e.map ioErr)
  | .ok (bytes, reads) =>
    match fromUtf8 bytes with
    | .error _ => .error (.failed (ioErr invalidUtf8))
    | .ok line =>
      if bytes = [] then .error (.failed (.transport "control connection closed by daemon"))
      else .ok (trimEnd line, reads)

/-- `expect_ok`, behind the read of the line. -/
def expectOk (line : Text) : Except ConnectError Unit :=
  match stripPrefix "250-".toList line with
  | some rest =>
    .error (.transport ("control port desynchronized: expected a single-line reply but got a " ++
      s!"continuation line: 250-{String.ofList rest}"))
  | none =>
    if line = "250".toList ∨ "250 ".toList <+: line then .ok ()
    else .error (.transport s!"control port replied: {String.ofList line}")

lemma unread_readReplyLine {ended : Bool} {reads reads' : Pieces IoError} {line : Text}
    (h : readReplyLine ended reads = .ok (line, reads')) : unread reads' < unread reads := by
  unfold readReplyLine at h
  split at h
  · exact absurd h (by simp)
  · rename_i bytes rest hread
    split at h
    · exact absurd h (by simp)
    · split at h
      · exact absurd h (by simp)
      · rename_i hne
        obtain ⟨-, rfl⟩ := Prod.mk.inj (Except.ok.inj h)
        have hlen := unread_readUntil hread
        have hpos := List.length_pos_iff.mpr hne
        omega

/-- The loop over the lines of the reply to `ADD_ONION`. -/
def readServiceId (ended : Bool) (serviceId : Option Text) (reads : Pieces IoError) :
    Except (Stop ConnectError) (Option Text × Pieces IoError) :=
  match _h : readReplyLine ended reads with
  | .error e => .error e
  | .ok (line, reads') =>
    match stripPrefix "250-ServiceID=".toList line with
    | some id => readServiceId ended (some id) reads'
    | none =>
      -- other continuation lines are ignored
      if "250-".toList <+: line then readServiceId ended serviceId reads'
      else if line = "250 OK".toList then .ok (serviceId, reads')
      else .error (.failed (.transport s!"ADD_ONION failed: {String.ofList line}"))
termination_by unread reads
decreasing_by all_goals exact unread_readReplyLine _h

/-- The `AUTHENTICATE` line. -/
def authLine (d : Daemon) : ControlAuth → Except ConnectError String
  | .null => .ok "AUTHENTICATE\r\n"
  | .cookieFile path =>
    match d.readFile path with
    | .error e => .error (ioErr e)
    | .ok cookie => .ok s!"AUTHENTICATE {hex cookie}\r\n"

/-- The `ADD_ONION` command; the identity is ephemeral. -/
def addOnion (virtPort localPort : UInt16) : String :=
  s!"ADD_ONION NEW:ED25519-V3 Flags=DiscardPK Port={virtPort},127.0.0.1:{localPort}\r\n"

/-- The reply to `ADD_ONION`. -/
def readService (ended : Bool) (reads : Pieces IoError) :
    Except (Stop ConnectError) OnionService :=
  match readServiceId ended none reads with
  | .error e => .error e
  | .ok (none, _) => .error (.failed (.transport "ADD_ONION reply carried no ServiceID"))
  | .ok (some serviceId, conn) => .ok ⟨serviceId, conn⟩

/-- `create_onion` -/
def createOnion (d : Daemon) (auth : ControlAuth) (virtPort localPort : UInt16) : Created :=
  match d.dialErr with
  | some e => ⟨[], .error (.failed (ioErr e))⟩
  | none =>
    match authLine d auth with
    | .error e => ⟨[], .error (.failed e)⟩
    | .ok authLine =>
      match d.authErr with
      | some e => ⟨[], .error (.failed (ioErr e))⟩
      | none =>
        match readReplyLine d.ended d.reads with
        | .error e => ⟨asBytes authLine, .error e⟩
        | .ok (line, reads) =>
          match expectOk line with
          | .error e => ⟨asBytes authLine, .error (.failed e)⟩
          | .ok () =>
            match d.cmdErr with
            | some e => ⟨asBytes authLine, .error (.failed (ioErr e))⟩
            | none =>
              ⟨asBytes authLine ++ asBytes (addOnion virtPort localPort),
                readService d.ended reads⟩

/-! ## Line by line -/

/-- A line of the daemon as the client reads it: valid UTF-8, without trailing whitespace. -/
def readable (line : Bytes) : Option Text := (fromUtf8 line).toOption.map trimEnd

/-- The lines that can be read: the last one may end with the stream. -/
def linesOf (ended : Bool) (bs : Bytes) : List Bytes :=
  if ended then splitLines 10 bs else (bs.splitOn 10).dropLast

/-- The stop of a reader that finds no further line. -/
def exhausted (ended : Bool) : Stop ConnectError :=
  if ended then .failed (.transport "control connection closed by daemon") else .blocked

/-- What `read_reply_line` makes of a line. -/
def lineResult (line : Bytes) (reads : Pieces IoError) :
    Except (Stop ConnectError) (Text × Pieces IoError) :=
  match readable line with
  | none => .error (.failed (ioErr invalidUtf8))
  | some t => .ok (t, reads)

lemma linesOf_append_cons (ended : Bool) {line : Bytes} (h : 10 ∉ line) (rest : Bytes) :
    linesOf ended (line ++ 10 :: rest) = line :: linesOf ended rest := by
  cases ended with
  | true => exact splitLines_append_cons h rest
  | false =>
    have hne : rest.splitOn 10 ≠ [] := splitOn_ne_nil rest
    simp only [linesOf, splitOn_append_cons h, Bool.false_eq_true, if_false,
      List.dropLast_cons_of_ne_nil hne]

lemma linesOf_of_notMem (ended : Bool) {bs : Bytes} (h : 10 ∉ bs) :
    linesOf ended bs = if ended = true ∧ bs ≠ [] then [bs] else [] := by
  cases ended with
  | true => by_cases hnil : bs = [] <;> simp [linesOf, splitLines_of_notMem h, hnil]
  | false => simp [linesOf, splitOn_eq_singleton h]

/-- The next line is read whatever the pieces are. -/
lemma readReplyLine_delivered (ended : Bool) (cs : List Bytes) :
    (∃ line cs', linesOf ended cs.flatten = line :: linesOf ended cs'.flatten ∧
        readReplyLine ended (delivered cs) = lineResult line (delivered cs')) ∨
      (linesOf ended cs.flatten = [] ∧
        readReplyLine ended (delivered cs) = .error (exhausted ended)) := by
  rcases readUntil_delivered (ε := IoError) ended 10 cs with
    ⟨line, rest, cs', hline, hflat, heq, rfl⟩ | ⟨hnone, heq⟩
  · refine .inl ⟨line, cs', by rw [hflat, linesOf_append_cons ended hline], ?_⟩
    obtain ⟨hok, herr⟩ := fromUtf8_append_lf line
    rw [readReplyLine, heq]
    cases hutf : fromUtf8 line with
    | error e =>
      obtain ⟨e', he'⟩ := herr e hutf
      simp [lineResult, readable, hutf, he', Except.toOption]
    | ok t => simp [lineResult, readable, hutf, hok t hutf, Except.toOption, trimEnd_append_lf]
  · cases ended with
    | false =>
      refine .inr ⟨by rw [linesOf_of_notMem false hnone]; simp, ?_⟩
      rw [readReplyLine, heq]
      rfl
    | true =>
      by_cases hnil : cs.flatten = []
      · refine .inr ⟨by rw [linesOf_of_notMem true hnone]; simp [hnil], ?_⟩
        rw [readReplyLine, heq, hnil]
        rfl
      · -- the last line ends with the stream
        refine .inl ⟨cs.flatten, [], by rw [linesOf_of_notMem true hnone]; simp [hnil, linesOf], ?_⟩
        rw [readReplyLine, heq]
        cases hutf : fromUtf8 cs.flatten with
        | error e => simp [lineResult, readable, hutf, Except.toOption]
        | ok t =>
          simp only [lineResult, readable, hutf, Except.toOption, Option.map_some, if_true,
            if_neg hnil]
          rfl

/-- The loop over the reply's lines, as long as there is no line that ends it. -/
def scanReply : Option Text → List Bytes → Option (Except ConnectError (Option Text))
  | _, [] => none
  | serviceId, line :: lines =>
    match readable line with
    | none => some (.error (ioErr invalidUtf8))
    | some t =>
      match stripPrefix "250-ServiceID=".toList t with
      | some id => scanReply (some id) lines
      | none =>
        if "250-".toList <+: t then scanReply serviceId lines
        else if t = "250 OK".toList then some (.ok serviceId)
        else some (.error (.transport s!"ADD_ONION failed: {String.ofList t}"))

/-- What `create_onion` makes of the lines of the daemon, `none` as long as it needs more. -/
def scan : List Bytes → Option (Except ConnectError Text)
  | [] => none
  | line :: lines =>
    match readable line with
    | none => some (.error (ioErr invalidUtf8))
    | some t =>
      match expectOk t with
      | .error e => some (.error e)
      | .ok () =>
        match scanReply none lines with
        | none => none
        | some (.error e) => some (.error e)
        | some (.ok none) => some (.error (.transport "ADD_ONION reply carried no ServiceID"))
        | some (.ok (some id)) => some (.ok id)

/-- The result of a reader whose lines come to `r`. -/
def verdict {α : Type} (ended : Bool) (r : Option (Except ConnectError α)) :
    Except (Stop ConnectError) α :=
  match r with
  | some r => r.mapError .failed
  | none => .error (exhausted ended)

lemma verdict_eq_ok {α : Type} {ended : Bool} {r : Option (Except ConnectError α)} {a : α} :
    verdict ended r = .ok a ↔ r = some (.ok a) := by
  rcases r with _ | (e | b) <;> simp [verdict, Except.mapError]

lemma readServiceId_delivered (ended : Bool) (serviceId : Option Text) (cs : List Bytes) :
    (readServiceId ended serviceId (delivered cs)).map Prod.fst =
      verdict ended (scanReply serviceId (linesOf ended cs.flatten)) := by
  induction hls : linesOf ended cs.flatten generalizing serviceId cs with
  | nil =>
    rcases readReplyLine_delivered ended cs with ⟨line, cs', hlines, -⟩ | ⟨-, heq⟩
    · exact absurd (hls.symm.trans hlines) (by simp)
    · rw [readServiceId, heq]
      rfl
  | cons line lines ih =>
    rcases readReplyLine_delivered ended cs with ⟨line', cs', hlines, heq⟩ | ⟨hnil, -⟩
    swap
    · exact absurd (hls.symm.trans hnil) (by simp)
    obtain ⟨rfl, rfl⟩ := List.cons.inj (hls.symm.trans hlines)
    rw [readServiceId, heq, lineResult, scanReply]
    cases readable line with
    | none => rfl
    | some t =>
      simp only
      cases stripPrefix "250-ServiceID=".toList t with
      | some id => exact ih (some id) cs' rfl
      | none =>
        simp only
        split
        · exact ih serviceId cs' rfl
        · split <;> rfl

/-- A client whose dialling, cookie read and writes succeed. -/
structure Willing (d : Daemon) (auth : ControlAuth) : Prop where
  dial : d.dialErr = none
  cookie : ∀ path, auth = .cookieFile path → ∃ bytes, d.readFile path = .ok bytes
  authLine : d.authErr = none
  cmd : d.cmdErr = none

/-- What `create_onion` returns depends on the lines only, not on how they arrive. -/
lemma createOnion_delivered {d : Daemon} {auth : ControlAuth} (hd : Willing d auth)
    {cs : List Bytes} (hreads : d.reads = delivered cs) (virtPort localPort : UInt16) :
    (createOnion d auth virtPort localPort).result.map (·.serviceId) =
      verdict d.ended (scan (linesOf d.ended cs.flatten)) := by
  obtain ⟨line, hline⟩ : ∃ line, authLine d auth = .ok line := by
    cases auth with
    | null => exact ⟨_, rfl⟩
    | cookieFile path =>
      obtain ⟨bytes, hbytes⟩ := hd.cookie path rfl
      exact ⟨_, by rw [authLine, hbytes]⟩
  simp only [createOnion, hd.dial, hline, hd.authLine, hreads]
  rcases readReplyLine_delivered d.ended cs with ⟨line, cs', hlines, heq⟩ | ⟨hnil, heq⟩
  swap
  · rw [heq, hnil]
    rfl
  rw [heq, hlines, lineResult, scan]
  cases readable line with
  | none => rfl
  | some t =>
    simp only
    cases expectOk t with
    | error e => rfl
    | ok u =>
      -- from here on both sides run the same loop, over the pieces and over the lines
      have hscan := readServiceId_delivered d.ended none cs'
      simp only [hd.cmd, readService]
      cases hreply : readServiceId d.ended none (delivered cs') with
      | error e =>
        rw [hreply] at hscan
        cases hr : scanReply none (linesOf d.ended cs'.flatten) with
        | none =>
          rw [hr] at hscan
          obtain rfl : e = exhausted d.ended := by simpa [verdict, Except.map] using hscan
          rfl
        | some r =>
          rw [hr] at hscan
          cases r with
          | error e' =>
            obtain rfl : e = .failed e' := by
              simpa [verdict, Except.map, Except.mapError] using hscan
            rfl
          | ok sid => exact absurd hscan (by simp [verdict, Except.map, Except.mapError])
      | ok sr =>
        obtain ⟨sid, conn⟩ := sr
        rw [hreply] at hscan
        cases hr : scanReply none (linesOf d.ended cs'.flatten) with
        | none => exact absurd (hr ▸ hscan) (by simp [verdict, Except.map])
        | some r =>
          rw [hr] at hscan
          cases r with
          | error e' => exact absurd hscan (by simp [verdict, Except.map, Except.mapError])
          | ok sid' =>
            obtain rfl : sid = sid' := by simpa [verdict, Except.map, Except.mapError] using hscan
            cases sid <;> rfl

/-! ## The grammar of the replies -/

/-- The last service id that continuation lines name. -/
def lastServiceId (conts : List Text) : Option Text :=
  (conts.filterMap (stripPrefix "250-ServiceID=".toList)).getLast?

/-- Continuation lines and the final line, with the last service id that they name, or
`serviceId`. -/
def Concluded (serviceId r : Option Text) (lines : List (Option Text)) : Prop :=
  ∃ (conts : List Text) (after : List (Option Text)),
    lines = conts.map some ++ some "250 OK".toList :: after ∧
    (∀ c ∈ conts, "250-".toList <+: c) ∧ r = (lastServiceId conts).or serviceId

/-- The lines of a daemon that has published the service `id`: a reply to `AUTHENTICATE` on one
line, continuation lines that name a service id, the last of them `id`, and the final line. -/
def Accepted (id : Text) (lines : List (Option Text)) : Prop :=
  ∃ (auth : Text) (conts : List Text) (after : List (Option Text)),
    lines = some auth :: (conts.map some ++ some "250 OK".toList :: after) ∧
    (auth = "250".toList ∨ "250 ".toList <+: auth) ∧
    (∀ c ∈ conts, "250-".toList <+: c) ∧ lastServiceId conts = some id

lemma prefix_of_stripPrefix {t id : Text} (h : stripPrefix "250-ServiceID=".toList t = some id) :
    "250-".toList <+: t := by
  obtain rfl := stripPrefix_eq_some.mp h
  exact ⟨"ServiceID=".toList ++ id, rfl⟩

lemma ok_not_prefix : ¬ "250-".toList <+: "250 OK".toList := by decide

lemma expectOk_eq_ok {t : Text} :
    expectOk t = .ok () ↔ t = "250".toList ∨ "250 ".toList <+: t := by
  unfold expectOk
  cases hstrip : stripPrefix "250-".toList t with
  | none =>
    by_cases h : t = "250".toList ∨ "250 ".toList <+: t
    · exact iff_of_true (if_pos h) h
    · exact iff_of_false (by simp only [if_neg h, reduceCtorEq, not_false_eq_true]) h
  | some rest =>
    obtain rfl := stripPrefix_eq_some.mp hstrip
    refine iff_of_false (by simp) ?_
    rintro (h | ⟨u, h⟩) <;> exact absurd h (by simp)

lemma lastServiceId_cons (t : Text) (conts : List Text) (serviceId : Option Text) :
    (lastServiceId (t :: conts)).or serviceId =
      (lastServiceId conts).or ((stripPrefix "250-ServiceID=".toList t).or serviceId) := by
  unfold lastServiceId
  cases hstrip : stripPrefix "250-ServiceID=".toList t with
  | none => rw [List.filterMap_cons_none hstrip, Option.none_or]
  | some id =>
    rw [List.filterMap_cons_some hstrip, List.getLast?_cons]
    cases (conts.filterMap (stripPrefix "250-ServiceID=".toList)).getLast? <;> rfl

section Concluded

variable {serviceId r : Option Text} {t : Text} {lines : List (Option Text)}

lemma concluded_cons (ht : "250-".toList <+: t) : Concluded serviceId r (some t :: lines) ↔
    Concluded ((stripPrefix "250-ServiceID=".toList t).or serviceId) r lines := by
  constructor
  · rintro ⟨_ | ⟨c, conts⟩, after, hlines, hconts, hr⟩
    · obtain ⟨rfl, -⟩ : t = "250 OK".toList ∧ _ := by simpa using hlines
      exact absurd ht ok_not_prefix
    · obtain ⟨rfl, htail⟩ : t = c ∧ lines = conts.map some ++ some "250 OK".toList :: after := by
        simpa using hlines
      exact ⟨conts, after, htail, fun c hc => hconts c (List.mem_cons_of_mem _ hc),
        by rw [hr, lastServiceId_cons]⟩
  · rintro ⟨conts, after, rfl, hconts, hr⟩
    refine ⟨t :: conts, after, rfl, ?_, by rw [hr, lastServiceId_cons]⟩
    intro c hc
    rcases List.mem_cons.mp hc with rfl | hc
    · exact ht
    · exact hconts c hc

/-- No continuation line: the reply is concluded by the final line or not at all. -/
lemma concluded_cons_of_last (ht : ¬ "250-".toList <+: t) :
    Concluded serviceId r (some t :: lines) ↔ t = "250 OK".toList ∧ r = serviceId := by
  constructor
  · rintro ⟨_ | ⟨c, conts⟩, after, hlines, hconts, hr⟩
    · obtain ⟨rfl, -⟩ : t = "250 OK".toList ∧ _ := by simpa using hlines
      exact ⟨rfl, hr⟩
    · obtain ⟨rfl, -⟩ : t = c ∧ _ := by simpa using hlines
      exact absurd (hconts t List.mem_cons_self) ht
  · rintro ⟨rfl, rfl⟩
    exact ⟨[], lines, rfl, by simp, rfl⟩

lemma not_concluded_none : ¬ Concluded serviceId r (none :: lines) := by
  rintro ⟨_ | ⟨c, conts⟩, after, hlines, -⟩ <;> exact absurd hlines (by simp)

lemma not_concluded_nil : ¬ Concluded serviceId r [] := by
  rintro ⟨_ | ⟨c, conts⟩, after, hlines, -⟩ <;> exact absurd hlines (by simp)

end Concluded

/-- The loop succeeds behind continuation lines, with the last service id they name. -/
lemma scanReply_eq_ok {serviceId r : Option Text} {lines : List Bytes} :
    scanReply serviceId lines = some (.ok r) ↔ Concluded serviceId r (lines.map readable) := by
  induction lines generalizing serviceId with
  | nil => exact iff_of_false (by simp [scanReply]) not_concluded_nil
  | cons line lines ih =>
    rw [scanReply, List.map_cons]
    cases readable line with
    | none => exact iff_of_false (by simp) not_concluded_none
    | some t =>
      simp only
      by_cases ht : "250-".toList <+: t
      · rw [concluded_cons ht]
        cases stripPrefix "250-ServiceID=".toList t with
        | some id => exact ih
        | none =>
          simp only [if_pos ht]
          exact ih
      · have hnone : stripPrefix "250-ServiceID=".toList t = none := by
          by_contra hne
          obtain ⟨id, hid⟩ := Option.ne_none_iff_exists'.mp hne
          exact ht (prefix_of_stripPrefix hid)
        rw [concluded_cons_of_last ht]
        simp only [hnone, if_neg ht]
        by_cases hok : t = "250 OK".toList
        · rw [if_pos hok]
          constructor
          · intro h
            exact ⟨hok, (Except.ok.inj (Option.some.inj h)).symm⟩
          · rintro ⟨-, rfl⟩
            rfl
        · rw [if_neg hok]
          exact iff_of_false (by simp) fun h => hok h.1

/-- Every failure of the client is a `Transport` error. -/
lemma scanReply_error {serviceId : Option Text} {lines : List Bytes} {e : ConnectError}
    (h : scanReply serviceId lines = some (.error e)) : ∃ text, e = .transport text := by
  induction lines generalizing serviceId with
  | nil => exact absurd h (by simp [scanReply])
  | cons line lines ih =>
    rw [scanReply] at h
    split at h
    · exact ⟨_, (Except.error.inj (Option.some.inj h)).symm⟩
    · split at h
      · exact ih h
      · split at h
        · exact ih h
        · split at h
          · exact absurd h (by simp)
          · exact ⟨_, (Except.error.inj (Option.some.inj h)).symm⟩

lemma expectOk_error {t : Text} {e : ConnectError} (h : expectOk t = .error e) :
    ∃ text, e = .transport text := by
  unfold expectOk at h
  split at h
  · exact ⟨_, (Except.error.inj h).symm⟩
  · split at h
    · exact absurd h (by simp)
    · exact ⟨_, (Except.error.inj h).symm⟩

lemma scan_error {lines : List Bytes} {e : ConnectError} (h : scan lines = some (.error e)) :
    ∃ text, e = .transport text := by
  cases lines with
  | nil => exact absurd h (by simp [scan])
  | cons line lines =>
    rw [scan] at h
    split at h
    · exact ⟨_, (Except.error.inj (Option.some.inj h)).symm⟩
    · split at h
      · rename_i hok
        exact Except.error.inj (Option.some.inj h) ▸ expectOk_error hok
      · split at h
        · exact absurd h (by simp)
        · rename_i hreply
          exact Except.error.inj (Option.some.inj h) ▸ scanReply_error hreply
        · exact ⟨_, (Except.error.inj (Option.some.inj h)).symm⟩
        · exact absurd h (by simp)

lemma scan_eq_ok {lines : List Bytes} {id : Text} :
    scan lines = some (.ok id) ↔ Accepted id (lines.map readable) := by
  cases lines with
  | nil =>
    refine iff_of_false (by simp [scan]) ?_
    rintro ⟨auth, conts, after, h, -⟩
    exact absurd h (by simp)
  | cons line lines =>
    rw [scan, List.map_cons]
    cases readable line with
    | none =>
      refine iff_of_false (by simp) ?_
      rintro ⟨auth, conts, after, h, -⟩
      exact absurd h (by simp)
    | some t =>
      have hacc : Accepted id (some t :: lines.map readable) ↔
          expectOk t = .ok () ∧ scanReply none lines = some (.ok (some id)) := by
        rw [expectOk_eq_ok, scanReply_eq_ok]
        constructor
        · rintro ⟨auth, conts, after, h, hauth, hconts, hid⟩
          obtain ⟨rfl, hlines⟩ : t = auth ∧ _ := by simpa using h
          exact ⟨hauth, conts, after, hlines, hconts, by rw [hid]; rfl⟩
        · rintro ⟨hauth, conts, after, hlines, hconts, hid⟩
          refine ⟨t, conts, after, by rw [hlines], hauth, hconts, ?_⟩
          rw [hid, Option.or_none]
      rw [hacc]
      simp only
      cases expectOk t with
      | error e => exact iff_of_false (by simp) (by simp)
      | ok u =>
        cases scanReply none lines with
        | none => simp
        | some r =>
          rcases r with e | (_ | id') <;> simp

/-! ## Where the reply is decided -/

/-- A continuation line. -/
def Continues (line : Bytes) : Prop := ∃ t, readable line = some t ∧ "250-".toList <+: t

/-- The lines up to the one that decides: a reply to `AUTHENTICATE` that is no success, or the
first line behind it that is no continuation line. -/
inductive Decisive : List Bytes → Prop where
  | auth {line : Bytes} (h : ∀ t, readable line = some t → expectOk t ≠ .ok ()) : Decisive [line]
  | reply {line final : Bytes} {conts : List Bytes} (hconts : ∀ c ∈ conts, Continues c)
      (hfinal : ¬ Continues final) : Decisive (line :: (conts ++ [final]))

/-- Lines as they are sent. -/
def wire (lines : List Bytes) : Bytes := lines.flatMap (· ++ [10])

lemma linesOf_wire (ended : Bool) {lines : List Bytes} (h : ∀ line ∈ lines, 10 ∉ line)
    (rest : Bytes) : linesOf ended (wire lines ++ rest) = lines ++ linesOf ended rest := by
  induction lines with
  | nil => rfl
  | cons line lines ih =>
    have hwire : wire (line :: lines) ++ rest = line ++ 10 :: (wire lines ++ rest) := by
      simp [wire]
    rw [hwire, linesOf_append_cons ended (h line List.mem_cons_self),
      ih fun l hl => h l (List.mem_cons_of_mem _ hl)]
    rfl

/-- What is decided stays so, whatever follows. -/
lemma scanReply_append {serviceId : Option Text} {lines : List Bytes}
    {r : Except ConnectError (Option Text)} (h : scanReply serviceId lines = some r)
    (more : List Bytes) : scanReply serviceId (lines ++ more) = some r := by
  induction lines generalizing serviceId with
  | nil => exact absurd h (by simp [scanReply])
  | cons line lines ih =>
    rw [scanReply] at h
    rw [List.cons_append, scanReply]
    cases hline : readable line with
    | none => simpa [hline] using h
    | some t =>
      simp only [hline] at h ⊢
      cases hstrip : stripPrefix "250-ServiceID=".toList t with
      | some id =>
        simp only [hstrip] at h ⊢
        exact ih h
      | none =>
        simp only [hstrip] at h ⊢
        split
        · rename_i ht
          exact ih (by rwa [if_pos ht] at h)
        · rename_i ht
          rwa [if_neg ht] at h

lemma scan_append {lines : List Bytes} {r : Except ConnectError Text} (h : scan lines = some r)
    (more : List Bytes) : scan (lines ++ more) = some r := by
  cases lines with
  | nil => exact absurd h (by simp [scan])
  | cons line lines =>
    rw [scan] at h
    rw [List.cons_append, scan]
    cases hline : readable line with
    | none => simpa [hline] using h
    | some t =>
      simp only [hline] at h ⊢
      cases hok : expectOk t with
      | error e => simpa [hok] using h
      | ok u =>
        simp only [hok] at h ⊢
        cases hreply : scanReply none lines with
        | none => exact absurd h (by simp [hreply])
        | some r' =>
          rw [hreply] at h
          rw [scanReply_append hreply]
          exact h

/-- The line that is no continuation line ends the loop. -/
lemma scanReply_decided {conts : List Bytes} (hconts : ∀ c ∈ conts, Continues c) {final : Bytes}
    (hfinal : ¬ Continues final) (serviceId : Option Text) :
    ∃ r, scanReply serviceId (conts ++ [final]) = some r := by
  induction conts generalizing serviceId with
  | nil =>
    rw [List.nil_append, scanReply]
    cases hline : readable final with
    | none => exact ⟨_, rfl⟩
    | some t =>
      have ht : ¬ "250-".toList <+: t := fun ht => hfinal ⟨t, hline, ht⟩
      have hnone : stripPrefix "250-ServiceID=".toList t = none := by
        by_contra hne
        obtain ⟨id, hid⟩ := Option.ne_none_iff_exists'.mp hne
        exact ht (prefix_of_stripPrefix hid)
      simp only [hnone, if_neg ht]
      split <;> exact ⟨_, rfl⟩
  | cons c conts ih =>
    obtain ⟨t, hline, ht⟩ := hconts c List.mem_cons_self
    have ih := ih fun d hd => hconts d (List.mem_cons_of_mem _ hd)
    rw [List.cons_append, scanReply]
    simp only [hline]
    cases stripPrefix "250-ServiceID=".toList t with
    | some id => exact ih (some id)
    | none =>
      simp only [if_pos ht]
      exact ih serviceId

lemma scan_decided {lines : List Bytes} (h : Decisive lines) : ∃ r, scan lines = some r := by
  cases h with
  | @auth line h =>
    rw [scan]
    cases hline : readable line with
    | none => exact ⟨_, rfl⟩
    | some t =>
      cases hok : expectOk t with
      | error e => exact ⟨.error e, by simp [hok]⟩
      | ok u => exact absurd hok (h t hline)
  | @reply line final conts hconts hfinal =>
    rw [scan]
    cases readable line with
    | none => exact ⟨_, rfl⟩
    | some t =>
      simp only
      cases expectOk t with
      | error e => exact ⟨_, rfl⟩
      | ok u =>
        obtain ⟨r, hr⟩ := scanReply_decided hconts hfinal none
        rw [hr]
        rcases r with e | (_ | id) <;> exact ⟨_, rfl⟩

/-- **The control port's replies are parsed exactly.**  On a stream that ends, in any pieces, a
service is returned exactly for the lines of the success grammar, with the last service id they
name, and anything else is a `Transport` error.  On any stream the result is decided by the lines up to
the first one behind the authentication reply that is no continuation line: the client waits for
none behind it. -/
theorem replies_parsed_exactly :
    (∀ d auth cs virtPort localPort, Willing d auth → d.reads = delivered cs → d.ended = true →
      (∀ id, (∃ conn, (createOnion d auth virtPort localPort).result = .ok ⟨id, conn⟩) ↔
        Accepted id ((splitLines 10 cs.flatten).map readable)) ∧
      ((∀ id, ¬ Accepted id ((splitLines 10 cs.flatten).map readable)) →
        ∃ text, (createOnion d auth virtPort localPort).result =
          .error (.failed (.transport text)))) ∧
    (∀ lines, (∀ line ∈ lines, 10 ∉ line) → Decisive lines → ∃ r : Except ConnectError Text,
      ∀ d auth cs virtPort localPort, Willing d auth → d.reads = delivered cs →
        wire lines <+: cs.flatten →
        (createOnion d auth virtPort localPort).result.map (·.serviceId) =
          r.mapError .failed) := by
  constructor
  · intro d auth cs virtPort localPort hd hreads hended
    have heq := createOnion_delivered hd hreads virtPort localPort
    have hlines : linesOf true cs.flatten = splitLines 10 cs.flatten := rfl
    rw [hended, hlines] at heq
    constructor
    · intro id
      rw [← scan_eq_ok]
      constructor
      · rintro ⟨conn, hok⟩
        exact verdict_eq_ok.mp (heq.symm.trans (map_eq_ok.mpr ⟨_, hok, rfl⟩))
      · intro hscan
        obtain ⟨service, hok, rfl⟩ := map_eq_ok.mp (heq.trans (verdict_eq_ok.mpr hscan))
        exact ⟨service.conn, hok⟩
    · intro hno
      have herror : ∃ text, verdict true (scan (splitLines 10 cs.flatten)) =
          .error (.failed (.transport text)) := by
        cases hscan : scan (splitLines 10 cs.flatten) with
        | none => exact ⟨_, rfl⟩
        | some r =>
          cases r with
          | ok id => exact absurd (scan_eq_ok.mp hscan) (hno id)
          | error e =>
            obtain ⟨text, rfl⟩ := scan_error hscan
            exact ⟨text, rfl⟩
      obtain ⟨text, htext⟩ := herror
      exact ⟨text, map_eq_error.mp (heq.trans htext)⟩
  · intro lines hlf hdec
    obtain ⟨r, hr⟩ := scan_decided hdec
    refine ⟨r, fun d auth cs virtPort localPort hd hreads hprefix => ?_⟩
    obtain ⟨rest, hrest⟩ := hprefix
    rw [createOnion_delivered hd hreads, ← hrest, linesOf_wire d.ended hlf, scan_append hr]
    rfl

/-- A daemon that answers in two pieces. -/
def publishingDaemon : Daemon where
  dialErr := none
  readFile := fun _ => .ok []
  authErr := none
  cmdErr := none
  reads := delivered [asBytes "250 OK\r\n250-Servi", asBytes "ceID=abc\r\n250 OK\r\n"]
  ended := true

theorem replies_parsed_exactly_published :
    ∃ conn, (createOnion publishingDaemon .null 9735 40001).result = .ok ⟨"abc".toList, conn⟩ :=
  ((replies_parsed_exactly.1 publishingDaemon .null _ 9735 40001
    ⟨rfl, fun _ h => absurd h (by simp), rfl, rfl⟩ rfl rfl).1 "abc".toList).mpr
    ⟨"250 OK".toList, ["250-ServiceID=abc".toList], [], by decide, by decide, by decide, by decide⟩

end Control

end FungiTransport
