import FungiTransport.Lib.SockAddr
import Mathlib.Tactic.Common

/-!
# The private-network descriptor

A descriptor names the directory authorities and the fallback caches of a private test
network, one a line: `authority <name> <v3ident-hex>` and
`fallback <rsa-id-hex> <ed-id-base64> <ip:orport>`, with `#` in front of a comment.  It is
parsed, applied onto the config builder of the Tor client, and built into a config.  What
the Tor client's crates do with the fields is a parameter, `TorCrates`.
-/

namespace FungiTransport

open Lib

/-- A single directory authority: a name and its v3 identity in hex. -/
structure Authority where
  name : Text
  v3ident : Text
deriving DecidableEq, Repr

/-- A single fallback directory cache: RSA and ed25519 identities and its ORPort. -/
structure Fallback where
  rsa : Text
  ed : Text
  orport : Text
deriving DecidableEq, Repr

/-- A parsed private-network descriptor. -/
structure PrivateNet where
  authorities : List Authority
  fallbacks : List Fallback
deriving DecidableEq, Repr

namespace PrivateNet

/-- What one line adds to the descriptor; `n` counts the lines in front of it. -/
def parseLine (n : ℕ) (line : Text) (net : PrivateNet) : Except String PrivateNet :=
  let line := trim line
  if line = [] ∨ line.head? = some '#' then .ok net
  else
    match splitWhitespace line with
    | [directive, name, v3ident] =>
      if directive = "authority".toList then
        if v3ident.all isAsciiHexdigit then
          .ok { net with authorities := net.authorities ++ [⟨name, v3ident⟩] }
        else .error s!"line {n + 1}: v3ident is not hex"
      else .error s!"line {n + 1}: unrecognized directive"
    | [directive, rsa, ed, orport] =>
      if directive = "fallback".toList then
        .ok { net with fallbacks := net.fallbacks ++ [⟨rsa, ed, orport⟩] }
      else .error s!"line {n + 1}: unrecognized directive"
    | _ => .error s!"line {n + 1}: unrecognized directive"

/-- The loop over the lines, up to the first bad one. -/
def parseLines : ℕ → List Text → PrivateNet → Except String PrivateNet
  | _, [], net => .ok net
  | n, line :: rest, net => (parseLine n line net).bind (parseLines (n + 1) rest)

/-- Parse a descriptor from its text form. -/
def parse (text : Text) : Except String PrivateNet :=
  (parseLines 0 (lines text) ⟨[], []⟩).bind fun net =>
    if net.authorities = [] then .error "no authorities in private-net file"
    else if net.fallbacks = [] then .error "no fallback caches in private-net file"
    else .ok net

end PrivateNet

/-! ## Applying a descriptor -/

/-- A fallback cache with its fields decoded. -/
structure FallbackDir (Rsa Ed : Type) where
  rsaIdentity : Rsa
  edIdentity : Ed
  orports : List SockAddr
deriving DecidableEq, Repr

/-- The settings of the Tor client's config builder that a private network touches; durations
in seconds, `none` for the builder's own default. -/
structure TorClientConfigBuilder (Rsa Ed : Type) where
  stateDir : String
  cacheDir : String
  authorities : Option (List Rsa)
  fallbackCaches : Option (List (FallbackDir Rsa Ed))
  preValidTolerance : Option ℕ
  postValidTolerance : Option ℕ
  ipv4SubnetFamilyPrefix : Option ℕ
  ipv6SubnetFamilyPrefix : Option ℕ
  requestTimeout : Option ℕ
  hsDescFetchAttempts : Option ℕ
  hsIntroRendAttempts : Option ℕ
  hsDirRequeryInterval : Option ℕ
deriving DecidableEq, Repr

/-- A builder rooted at two directories, with the public network's defaults. -/
def TorClientConfigBuilder.fromDirectories {Rsa Ed : Type} (stateDir cacheDir : String) :
    TorClientConfigBuilder Rsa Ed :=
  ⟨stateDir, cacheDir, none, none, none, none, none, none, none, none, none, none⟩

/-- What the backend takes from the Tor client's crates. -/
structure TorCrates where
  RsaIdentity : Type
  Ed25519Identity : Type
  TorClientConfig : Type
  rsaFromHex : Text → Option RsaIdentity
  edFromBase64 : Text → Option Ed25519Identity
  build : TorClientConfigBuilder RsaIdentity Ed25519Identity → Except String TorClientConfig

namespace PrivateNet

variable (T : TorCrates)

def applyAuthority (a : Authority) : Except String T.RsaIdentity :=
  match T.rsaFromHex a.v3ident with
  | some id => .ok id
  | none => .error s!"failed to parse v3ident {String.ofList a.name}: invalid hex or length"

def applyFallback (f : Fallback) : Except String (FallbackDir T.RsaIdentity T.Ed25519Identity) :=
  match T.rsaFromHex f.rsa with
  | none => .error "fallback rsa: invalid hex or length"
  | some rsa =>
    match T.edFromBase64 f.ed with
    | none => .error "fallback ed: invalid base64 or length"
    | some ed =>
      match SockAddr.parse f.orport with
      | none => .error s!"fallback orport: {SockAddr.parseError}"
      | some addr => .ok ⟨rsa, ed, [addr]⟩

/-- Apply onto the config builder: custom authorities and fallbacks, and the tolerances of a
testing network. -/
def apply (net : PrivateNet) (b : TorClientConfigBuilder T.RsaIdentity T.Ed25519Identity) :
    Except String (TorClientConfigBuilder T.RsaIdentity T.Ed25519Identity) :=
  (net.authorities.mapM (applyAuthority T)).bind fun authorities =>
    (net.fallbacks.mapM (applyFallback T)).bind fun fallbacks =>
      .ok { b with
        authorities := some authorities
        fallbackCaches := some fallbacks
        preValidTolerance := some 300
        postValidTolerance := some 300
        ipv4SubnetFamilyPrefix := some 32
        ipv6SubnetFamilyPrefix := some 128
        requestTimeout := some 240
        hsDescFetchAttempts := some 32
        hsIntroRendAttempts := some 32
        hsDirRequeryInterval := some 5 }

/-- Build a ready-to-bootstrap config rooted at two directories, with this network applied. -/
def buildConfig (net : PrivateNet) (stateDir cacheDir : String) : Except String T.TorClientConfig :=
  (net.apply T (.fromDirectories stateDir cacheDir)).bind T.build

end PrivateNet

end FungiTransport
