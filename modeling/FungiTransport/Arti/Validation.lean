import FungiTransport.Arti.Grammar
import FungiTransport.Arti.Lazy

/-!
# The eager check of a descriptor

A descriptor is looked at twice: `configure_private_net` parses it, and the bootstrap parses and
applies it.  Parsing checks that an authority's identity is in hex, applying decodes every
field, and the fields that only the second decodes are the ones that can be bad in an accepted
descriptor (`applied_iff_decodable`): they have to be forty hex digits, base64 of 32 bytes and a
socket address (`Entry.InFormat`).
-/

namespace FungiTransport

open Lib

/-- `RsaIdentity::from_hex` accepts 40 hex digits, in either case. -/
def TorCrates.HexIdentities (T : TorCrates) : Prop :=
  ∀ t, (T.rsaFromHex t).isSome ↔ t.length = 40 ∧ ∀ c ∈ t, isAsciiHexdigit c = true

/-- `Ed25519Identity::from_base64` accepts 32 bytes in base64. -/
def TorCrates.Base64Identities (T : TorCrates) : Prop :=
  ∀ t, (T.edFromBase64 t).isSome ↔ Base64.Encodes 32 t

namespace PrivateNet

variable {T : TorCrates}

/-- What applying the entry asks for beyond its parsing. -/
def Entry.Decodable (T : TorCrates) : Entry → Prop
  | .authority a => a.v3ident.length = 40
  | .fallback f => (f.rsa.length = 40 ∧ ∀ c ∈ f.rsa, isAsciiHexdigit c = true) ∧
      (T.edFromBase64 f.ed).isSome ∧ ∃ addr, SockAddr.parse f.orport = some addr

/-- The fields of the entry that parsing does not look into, as they have to be written. -/
def Entry.InFormat : Entry → Prop
  | .authority a => a.v3ident.length = 40
  | .fallback f => (f.rsa.length = 40 ∧ ∀ c ∈ f.rsa, isAsciiHexdigit c = true) ∧
      Base64.Encodes 32 f.ed ∧ ∃ addr, SockAddr.IsSockAddr f.orport addr

lemma Entry.decodable_iff_inFormat (hbase64 : T.Base64Identities) (e : Entry) :
    e.Decodable T ↔ e.InFormat := by
  cases e with
  | authority a => rfl
  | fallback f => simp only [Decodable, InFormat, hbase64 f.ed, SockAddr.parse_eq_some]

/-- A loop that stops at the first error ends without one if no element has one. -/
lemma exists_mapM_eq_ok {ε α β : Type} {f : α → Except ε β} {xs : List α} :
    (∃ ys, xs.mapM f = .ok ys) ↔ ∀ x ∈ xs, ∃ y, f x = .ok y := by
  induction xs with
  | nil => exact iff_of_true ⟨[], rfl⟩ (by simp)
  | cons x xs ih =>
    rw [List.mapM_cons, List.forall_mem_cons, ← ih]
    cases f x with
    | error e =>
      refine iff_of_false ?_ ?_
      · rintro ⟨ys, ⟨⟩⟩
      · rintro ⟨⟨y, ⟨⟩⟩, -⟩
    | ok y =>
      cases xs.mapM f with
      | error e =>
        refine iff_of_false ?_ ?_
        · rintro ⟨ys, ⟨⟩⟩
        · rintro ⟨-, ys, ⟨⟩⟩
      | ok ys => exact iff_of_true ⟨y :: ys, rfl⟩ ⟨⟨y, rfl⟩, ys, rfl⟩

lemma applyAuthority_ok (hhex : T.HexIdentities) {a : Authority}
    (ha : (Entry.authority a).Valid) :
    (∃ id, applyAuthority T a = .ok id) ↔ (Entry.authority a).Decodable T := by
  have hsome : (T.rsaFromHex a.v3ident).isSome ↔ a.v3ident.length = 40 :=
    (hhex a.v3ident).trans (and_iff_left ha)
  rw [Entry.Decodable, ← hsome, applyAuthority]
  cases T.rsaFromHex a.v3ident with
  | some id => exact iff_of_true ⟨id, rfl⟩ rfl
  | none =>
    refine iff_of_false ?_ (by simp)
    rintro ⟨id, ⟨⟩⟩

lemma applyFallback_ok (hhex : T.HexIdentities) {f : Fallback} :
    (∃ dir, applyFallback T f = .ok dir) ↔ (Entry.fallback f).Decodable T := by
  rw [Entry.Decodable, ← hhex, applyFallback]
  cases T.rsaFromHex f.rsa with
  | none =>
    refine iff_of_false ?_ (by simp)
    rintro ⟨dir, ⟨⟩⟩
  | some rsa =>
    cases T.edFromBase64 f.ed with
    | none =>
      refine iff_of_false ?_ (by simp)
      rintro ⟨dir, ⟨⟩⟩
    | some ed =>
      cases SockAddr.parse f.orport with
      | none =>
        refine iff_of_false ?_ (by simp)
        rintro ⟨dir, ⟨⟩⟩
      | some addr => exact iff_of_true ⟨_, rfl⟩ ⟨rfl, rfl, addr, rfl⟩

/-- Whether a descriptor can be applied does not depend on the builder. -/
lemma apply_ok (net : PrivateNet)
    (b : TorClientConfigBuilder T.RsaIdentity T.Ed25519Identity) :
    (∃ b', net.apply T b = .ok b') ↔
      (∀ a ∈ net.authorities, ∃ id, applyAuthority T a = .ok id) ∧
        ∀ f ∈ net.fallbacks, ∃ dir, applyFallback T f = .ok dir := by
  rw [← exists_mapM_eq_ok, ← exists_mapM_eq_ok, apply]
  cases net.authorities.mapM (applyAuthority T) with
  | error e =>
    refine iff_of_false ?_ ?_
    · rintro ⟨b', ⟨⟩⟩
    · rintro ⟨⟨ids, ⟨⟩⟩, -⟩
  | ok ids =>
    cases net.fallbacks.mapM (applyFallback T) with
    | error e =>
      refine iff_of_false ?_ ?_
      · rintro ⟨b', ⟨⟩⟩
      · rintro ⟨-, dirs, ⟨⟩⟩
    | ok dirs => exact iff_of_true ⟨_, rfl⟩ ⟨⟨ids, rfl⟩, dirs, rfl⟩

/-- A descriptor of valid entries is applied exactly if all of them are decodable. -/
lemma apply_ofEntries_ok (hhex : T.HexIdentities) {es : List Entry} (hes : ∀ e ∈ es, e.Valid)
    (b : TorClientConfigBuilder T.RsaIdentity T.Ed25519Identity) :
    (∃ b', (ofEntries es).apply T b = .ok b') ↔ ∀ e ∈ es, e.Decodable T := by
  rw [apply_ok]
  constructor
  · rintro ⟨hauth, hfall⟩ (a | f) he
    · exact (applyAuthority_ok hhex (hes _ he)).mp (hauth a (mem_authorities.mpr he))
    · exact (applyFallback_ok hhex).mp (hfall f (mem_fallbacks.mpr he))
  · intro h
    refine ⟨fun a ha => ?_, fun f hf => ?_⟩
    · have he := mem_authorities.mp ha
      exact (applyAuthority_ok hhex (hes _ he)).mpr (h _ he)
    · exact (applyFallback_ok hhex).mpr (h _ (mem_fallbacks.mp hf))

end PrivateNet

namespace LazyInner

open PrivateNet

variable {T : TorCrates}

/-- The parse and apply steps of `get` succeed on the stored descriptor, so that only the build of
the config is left to fail. -/
def Applied (inner : LazyInner T) (text : Text) : Prop :=
  ∃ net b, parse text = .ok net ∧ net.apply T (.fromDirectories inner.stateDir inner.cacheDir) = .ok b ∧
    inner.config inner.pending = (T.build b).mapError .transport

/-- An accepted descriptor can be applied exactly if every entry of its lines is decodable. -/
lemma applied_iff (hhex : T.HexIdentities) {inner inner' : LazyInner T} {netFile : Bytes}
    {text : Text} (h : inner.configurePrivateNet netFile = .ok (inner', text)) :
    inner'.Applied text ↔
      ∀ line ∈ lines text, ¬ Skipped line → ∀ e, IsEntry line e → e.Decodable T := by
  obtain ⟨-, rfl, net, hparse⟩ := LazySystem.configurePrivateNet_ok h
  obtain ⟨⟨es, hdesc, hnet⟩, -⟩ := parse_eq_ok.mp hparse
  have hvalid : ∀ e ∈ es, e.Valid := fun e he => (hdesc.printable e he).2
  have happlied : LazyInner.Applied { inner with pending := some text } text ↔
      ∃ b, (ofEntries es).apply T (.fromDirectories inner.stateDir inner.cacheDir) = .ok b := by
    subst hnet
    constructor
    · rintro ⟨net, b, hparse', hb, -⟩
      obtain rfl := Except.ok.inj (hparse.symm.trans hparse')
      exact ⟨b, hb⟩
    · rintro ⟨b, hb⟩
      refine ⟨_, b, hparse, hb, ?_⟩
      simp only [config, hparse, Except.bind, buildConfig, hb]
  rw [happlied, apply_ofEntries_ok hhex hvalid]
  constructor
  · intro hall line hline hs e he
    exact hall e (hdesc.mem_iff.mpr ⟨line, hline, hs, he⟩)
  · intro hall e he
    obtain ⟨line, hline, hs, he⟩ := hdesc.mem_iff.mp he
    exact hall line hline hs e he

/-- **An accepted descriptor can be applied** exactly if the fields that parsing does not look
into are in the formats of the Tor client's crates, on every line that is an entry.  With 32 bytes
in base64 as the crates' ed25519 identities, these formats are a grammar. -/
theorem applied_iff_decodable (hhex : T.HexIdentities) {inner inner' : LazyInner T}
    {netFile : Bytes} {text : Text}
    (h : inner.configurePrivateNet netFile = .ok (inner', text)) :
    (inner'.Applied text ↔
      ∀ line ∈ lines text, ¬ Skipped line → ∀ e, IsEntry line e → e.Decodable T) ∧
    (T.Base64Identities →
      (inner'.Applied text ↔
        ∀ line ∈ lines text, ¬ Skipped line → ∀ e, IsEntry line e → e.InFormat)) := by
  refine ⟨applied_iff hhex h, fun hbase64 => ?_⟩
  rw [applied_iff hhex h]
  simp only [Entry.decodable_iff_inFormat hbase64]

/-- Printed entries are accepted. -/
lemma configurePrivateNet_print (inner : LazyInner T) (hbooted : inner.booted = none)
    {es : List Entry} (hprint : ∀ e ∈ es, e.Printable) (hauth : (ofEntries es).authorities ≠ [])
    (hfall : (ofEntries es).fallbacks ≠ []) {netFile : Bytes}
    (hutf8 : fromUtf8 netFile = .ok (print es)) :
    inner.configurePrivateNet netFile =
      .ok ({ inner with pending := some (print es) }, print es) := by
  have hparse : parse (print es) = .ok (ofEntries es) :=
    parse_eq_ok.mpr ⟨⟨es, describes_print hprint, rfl⟩, hauth, hfall⟩
  rw [configurePrivateNet, hbooted, hutf8]
  simp only [Option.isSome_none, Bool.false_eq_true, if_false, hparse]
  rfl

lemma hexIdentities_textCrates : LazySystem.textCrates.HexIdentities := by
  intro t
  change (if t.length = 40 ∧ t.all isAsciiHexdigit then some t else none).isSome ↔ _
  rw [← List.all_eq_true]
  split
  · exact iff_of_true rfl ‹_›
  · exact iff_of_false (by simp) ‹_›

lemma base64Identities_textCrates : LazySystem.textCrates.Base64Identities := by
  intro t
  change (if Base64.Encodes 32 t then some t else none).isSome ↔ _
  split
  · exact iff_of_true rfl ‹_›
  · exact iff_of_false (by simp) ‹_›

/-- The entries of a descriptor whose fields are all in their formats. -/
def sampleEntries : List Entry :=
  [.authority ⟨"test-da1".toList, "27102BC123E7AF1D4741AE047E160C91ADC76B21".toList⟩,
    .fallback ⟨"27102BC123E7AF1D4741AE047E160C91ADC76B21".toList,
      "xGYRXQ2b1SDpLoNjKilDNzrqAX2XCEBEyYlVmIGSjTo".toList, "192.168.1.11:9001".toList⟩]

set_option maxRecDepth 10000 in
/-- An accepted descriptor that can be applied. -/
theorem applied_iff_decodable_sample :
    ∃ inner' text, (new "state" "cache" 1024 : LazyInner LazySystem.textCrates).configurePrivateNet
      LazySystem.sampleNet = .ok (inner', text) ∧ inner'.Applied text := by
  have hprint : ∀ e ∈ sampleEntries, e.Printable := by decide +kernel
  have hutf8 : fromUtf8 LazySystem.sampleNet = .ok (print sampleEntries) := by decide +kernel
  have hok := configurePrivateNet_print
    (new "state" "cache" 1024 : LazyInner LazySystem.textCrates) rfl hprint (by decide)
    (by decide) hutf8
  refine ⟨_, _, hok, ?_⟩
  refine ((applied_iff_decodable hexIdentities_textCrates hok).2
    base64Identities_textCrates).mpr fun line hline hs e he => ?_
  have hmem : e ∈ sampleEntries := (describes_print hprint).mem_iff.mpr ⟨line, hline, hs, he⟩
  rcases List.mem_pair.mp hmem with rfl | rfl
  · exact (by decide : "27102BC123E7AF1D4741AE047E160C91ADC76B21".toList.length = 40)
  · exact ⟨⟨by decide, List.all_eq_true.mp (by decide)⟩, by decide +kernel, _,
      SockAddr.parse_eq_some.mp (by decide +kernel : _ = some (.v4 [192, 168, 1, 11] 9001))⟩

/-- A descriptor with a fallback cache whose identities are none. -/
def unappliableEntries : List Entry :=
  [.authority ⟨"testda".toList, "AAAAAAAAAAAAAAAAAAAAAAAAAAAAAAAAAAAAAAAA".toList⟩,
    .fallback ⟨"RSAHEX".toList, "EDBASE64".toList, "192.168.1.11:9001".toList⟩]

def unappliableNet : Bytes := (print unappliableEntries).map fun c => UInt8.ofNat c.toNat

/-- A descriptor is accepted and cannot be applied, whatever the crates do beyond reading RSA
identities in hex. -/
theorem descriptor_accepted_and_unappliable :
    LazySystem.textCrates.HexIdentities ∧ LazySystem.textCrates.Base64Identities ∧
      ∀ T : TorCrates, T.HexIdentities →
        ¬ ∀ (inner inner' : LazyInner T) (netFile : Bytes) (text : Text),
          inner.configurePrivateNet netFile = .ok (inner', text) → inner'.Applied text := by
  refine ⟨hexIdentities_textCrates, base64Identities_textCrates, fun T hhex h => ?_⟩
  have hprint : ∀ e ∈ unappliableEntries, e.Printable := by decide +kernel
  have hutf8 : fromUtf8 unappliableNet = .ok (print unappliableEntries) := by decide +kernel
  have hok := configurePrivateNet_print (new "state" "cache" 1024 : LazyInner T)
    rfl hprint (by decide) (by decide) hutf8
  obtain ⟨net, b, hparse, hb, -⟩ := h _ _ _ _ hok
  obtain ⟨⟨es, hdesc, rfl⟩, -⟩ := parse_eq_ok.mp hparse
  have hvalid : ∀ e ∈ es, e.Valid := fun e he => (hdesc.printable e he).2
  have hdec := (apply_ofEntries_ok hhex hvalid _).mp ⟨b, hb⟩
  -- both lists of entries are those of the same text
  have hmem : Entry.fallback ⟨"RSAHEX".toList, "EDBASE64".toList, "192.168.1.11:9001".toList⟩ ∈ es :=
    hdesc.mem_iff.mpr ((describes_print hprint).mem_iff.mp (by decide))
  exact absurd (hdec _ hmem).1.1 (by decide)

end LazyInner

end FungiTransport
