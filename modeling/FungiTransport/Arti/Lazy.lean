import FungiTransport.Arti.PrivateNet
import FungiTransport.Error
import FungiTransport.Lib.Base64
import FungiTransport.Lib.Run
import Mathlib.Logic.Function.Basic

/-!
# The transport that defers its bootstrap

`LazyArtiTransport` bootstraps the Tor client on first use, from the private-network
descriptor installed by then or from the public network.  The bootstrap takes seconds and runs
in whichever `LazyInner::get` call holds the `OnceCell`; meanwhile other calls wait and
`configure_private_net` may be called.  That call tests whether a bootstrap has finished, but the
descriptor is read when a bootstrap starts: a descriptor accepted in between is stored and never
used (`descriptor_accepted_and_ignored`), and this is the only way to lose one
(`honoured_iff_current`).
-/

namespace FungiTransport

open Lib

/-- The kinds of the Tor client's errors: those that mean that the peer is unreachable, and all
others by name. -/
inductive TorErrorKind where
  | onionServiceNotFound
  | onionServiceNotRunning
  | onionServiceConnectionFailed
  | remoteHostNotFound
  | other (name : String)
deriving DecidableEq, Repr

/-- An error of the Tor client: its kind and the text it displays. -/
structure TorError where
  kind : TorErrorKind
  text : String
deriving DecidableEq, Repr

def kindIsUnreachable : TorErrorKind → Bool
  | .onionServiceNotFound | .onionServiceNotRunning | .onionServiceConnectionFailed
  | .remoteHostNotFound => true
  | .other _ => false

/-- The trait-level connect error of a Tor client's error. -/
def connectError (e : TorError) : ConnectError :=
  if kindIsUnreachable e.kind then .unreachable else .transport e.text

variable {T : TorCrates}

/-- A bootstrapped transport: the config its client runs on, and the descriptor that the config
was built from (`none` for the public network). -/
structure ArtiTransport (T : TorCrates) where
  config : T.TorClientConfig
  maxMsgLen : ℕ
  source : Option Text

/-- Boot state shared by the lazy transport, its connectors and the fixtures. -/
structure LazyInner (T : TorCrates) where
  booted : Option (ArtiTransport T)
  pending : Option Text
  stateDir : String
  cacheDir : String
  maxMsgLen : ℕ

namespace LazyInner

def new (stateDir cacheDir : String) (maxMsgLen : ℕ) : LazyInner T :=
  ⟨none, none, stateDir, cacheDir, maxMsgLen⟩

/-- The config that the initialiser of the `OnceCell` builds from the pending descriptor before
it bootstraps: `PrivateNet::build_config`, or `tor_config` for the public network. -/
def config (inner : LazyInner T) (pending : Option Text) : Except ConnectError T.TorClientConfig :=
  match pending with
  | some text =>
    ((PrivateNet.parse text).bind fun net =>
      net.buildConfig T inner.stateDir inner.cacheDir).mapError .transport
  | none => (T.build (.fromDirectories inner.stateDir inner.cacheDir)).mapError .transport

/-- `LazyArtiTransport::configure_private_net`: the new state and the descriptor it stored. -/
def configurePrivateNet (inner : LazyInner T) (netFile : Bytes) :
    Except String (LazyInner T × Text) :=
  if inner.booted.isSome then .error "configure_private_net called after arti bootstrapped"
  else
    match fromUtf8 netFile with
    | .error e => .error s!"private-net descriptor is not UTF-8: {e.toString}"
    | .ok text => (PrivateNet.parse text).map fun _ => ({ inner with pending := some text }, text)

end LazyInner

/-- A call of `LazyInner::get`. -/
inductive GetCall (T : TorCrates) where
  /-- Waiting for the `OnceCell`. -/
  | waiting
  /-- Running the initialiser: suspended in the bootstrap, with the descriptor it read and the
  config it built from it. -/
  | bootstrapping (pending : Option Text) (config : T.TorClientConfig)
  /-- Resolved. -/
  | returned (result : Except ConnectError (ArtiTransport T))

/-- The lazy transport with its calls of `get`. -/
structure LazySystem (T : TorCrates) where
  inner : LazyInner T
  /-- The call that holds the permit of the `OnceCell`: one initialiser runs at a time. -/
  permit : Option ℕ
  calls : ℕ → Option (GetCall T)
  /-- The descriptors that `configure_private_net` returned `Ok` for, in order. -/
  accepted : List Text

inductive LazyAction where
  | configure (netFile : Bytes)
  /-- A new call of `get` is made and polled. -/
  | get (k : ℕ)
  /-- A waiting call of `get` is polled again. -/
  | poll (k : ℕ)
  /-- The bootstrap of an initialiser succeeds. -/
  | bootstrapped (k : ℕ)
  /-- The bootstrap of an initialiser fails. -/
  | bootFailed (k : ℕ) (e : TorError)
  /-- The future of a call that has not resolved is dropped. -/
  | cancel (k : ℕ)
deriving DecidableEq, Repr

namespace LazySystem

def new (stateDir cacheDir : String) (maxMsgLen : ℕ) : LazySystem T :=
  ⟨.new stateDir cacheDir maxMsgLen, none, fun _ => none, []⟩

def setCall (s : LazySystem T) (k : ℕ) (c : Option (GetCall T)) : LazySystem T :=
  { s with calls := Function.update s.calls k c }

/-- Poll a call of `get` that has not entered its initialiser: the value when the cell is
initialised, the initialiser up to its `await` when the permit is free, and waiting else. -/
def pollGet (s : LazySystem T) (k : ℕ) : LazySystem T :=
  match s.inner.booted, s.permit with
  | some t, _ => s.setCall k (some (.returned (.ok t)))
  | none, some _ => s.setCall k (some .waiting)
  | none, none =>
    match s.inner.config s.inner.pending with
    | .error e => s.setCall k (some (.returned (.error e)))
    | .ok cfg => { s with permit := some k }.setCall k (some (.bootstrapping s.inner.pending cfg))

/-- One step of the transport, its callers and the Tor client. -/
def step (s : LazySystem T) : LazyAction → Option (LazySystem T)
  | .configure netFile =>
    match s.inner.configurePrivateNet netFile with
    | .ok (inner, text) => some { s with inner := inner, accepted := s.accepted ++ [text] }
    | .error _ => some s
  | .get k =>
    match s.calls k with
    | none => some (s.pollGet k)
    | some _ => none
  | .poll k =>
    match s.calls k with
    | some .waiting => some (s.pollGet k)
    | _ => none
  | .bootstrapped k =>
    match s.calls k with
    | some (.bootstrapping pending cfg) =>
      let t := ⟨cfg, s.inner.maxMsgLen, pending⟩
      some ({ s with inner := { s.inner with booted := some t }, permit := none }.setCall k
        (some (.returned (.ok t))))
    | _ => none
  | .bootFailed k e =>
    match s.calls k with
    | some (.bootstrapping _ _) =>
      some ({ s with permit := none }.setCall k (some (.returned (.error (connectError e)))))
    | _ => none
  | .cancel k =>
    match s.calls k with
    | some .waiting => some (s.setCall k none)
    | some (.bootstrapping _ _) => some ({ s with permit := none }.setCall k none)
    | _ => none

/-! ## Which descriptor is used -/

/-- The booted transport runs on the config of the last accepted descriptor, or of the public
network when none was accepted. -/
def Honoured (s : LazySystem T) : Prop :=
  ∀ t, s.inner.booted = some t →
    t.source = s.accepted.getLast? ∧ s.inner.config s.accepted.getLast? = .ok t.config

/-- The bootstrap that succeeds in this step was started with the descriptor that is stored
now. -/
def Current (s : LazySystem T) (a : LazyAction) : Prop :=
  ∀ k, a = .bootstrapped k → ∀ pending cfg, s.calls k = some (.bootstrapping pending cfg) →
    pending = s.inner.pending

/-- The stored descriptor is the last accepted one; an initialiser runs while the cell is empty
and holds the permit, with the config of the descriptor it read. -/
structure Inv (s : LazySystem T) : Prop where
  pending : s.inner.pending = s.accepted.getLast?
  config : ∀ k p cfg, s.calls k = some (.bootstrapping p cfg) →
    s.inner.config p = .ok cfg ∧ s.permit = some k ∧ s.inner.booted = none

lemma inv_new (stateDir cacheDir : String) (maxMsgLen : ℕ) :
    Inv (new (T := T) stateDir cacheDir maxMsgLen) :=
  ⟨rfl, fun _ _ _ h => absurd h (by simp [new])⟩

/-- What was accepted and what runs stays so when a call that is not an initialiser is recorded
for one that was none, or for the one that gives the permit back. -/
lemma inv_setCall {s : LazySystem T} {k : ℕ} {c : Option (GetCall T)} (h : Inv s)
    (hc : ∀ p cfg, c ≠ some (.bootstrapping p cfg)) : Inv (s.setCall k c) where
  pending := h.pending
  config := by
    intro j p cfg hj
    by_cases hjk : j = k
    · subst hjk
      exact absurd (by simpa [setCall] using hj) (hc p cfg)
    · exact h.config j p cfg (by simpa [setCall, Function.update_of_ne hjk] using hj)

/-- The same when the call was the initialiser and gives the permit back. -/
lemma inv_release {s : LazySystem T} {k : ℕ} {p : Option Text} {cfg : T.TorClientConfig}
    {c : Option (GetCall T)} (h : Inv s) (hk : s.calls k = some (.bootstrapping p cfg))
    (hc : ∀ p cfg, c ≠ some (.bootstrapping p cfg)) (booted : Option (ArtiTransport T)) :
    Inv ({ s with inner := { s.inner with booted := booted }, permit := none }.setCall k c) where
  pending := h.pending
  config := by
    intro j q cfg' hj
    by_cases hjk : j = k
    · subst hjk
      exact absurd (by simpa [setCall] using hj) (hc q cfg')
    · -- another initialiser would hold the permit too
      have hj' : s.calls j = some (.bootstrapping q cfg') := by
        simpa [setCall, Function.update_of_ne hjk] using hj
      have heq := (h.config j q cfg' hj').2.1.symm.trans (h.config k p cfg hk).2.1
      exact absurd (Option.some.inj heq) hjk

lemma inv_pollGet {s : LazySystem T} (h : Inv s) (k : ℕ) : Inv (s.pollGet k) := by
  unfold pollGet
  split
  · exact inv_setCall h (by simp)
  · exact inv_setCall h (by simp)
  · rename_i hbooted hpermit
    split
    · exact inv_setCall h (by simp)
    · rename_i cfg hcfg
      refine ⟨h.pending, fun j p cfg' hj => ?_⟩
      by_cases hjk : j = k
      · subst hjk
        obtain ⟨rfl, rfl⟩ : s.inner.pending = p ∧ cfg = cfg' := by simpa [setCall] using hj
        exact ⟨hcfg, rfl, hbooted⟩
      · have hj' : s.calls j = some (.bootstrapping p cfg') := by
          simpa [setCall, Function.update_of_ne hjk] using hj
        exact absurd ((h.config j p cfg' hj').2.1.symm.trans hpermit) (by simp)

lemma inner_pollGet (s : LazySystem T) (k : ℕ) :
    (s.pollGet k).inner = s.inner ∧ (s.pollGet k).accepted = s.accepted := by
  unfold pollGet
  split
  · exact ⟨rfl, rfl⟩
  · exact ⟨rfl, rfl⟩
  · split <;> exact ⟨rfl, rfl⟩

/-- A descriptor is accepted only while nothing is booted and if it can be parsed; it then becomes
the stored one. -/
lemma configurePrivateNet_ok {inner inner' : LazyInner T} {netFile : Bytes} {text : Text}
    (h : inner.configurePrivateNet netFile = .ok (inner', text)) :
    inner.booted = none ∧ inner' = { inner with pending := some text } ∧
      ∃ net, PrivateNet.parse text = .ok net := by
  rw [LazyInner.configurePrivateNet] at h
  split at h
  · cases h
  · rename_i hbooted
    split at h
    · cases h
    · rename_i text' _
      cases hparse : PrivateNet.parse text' with
      | error e =>
        rw [hparse] at h
        cases h
      | ok net =>
        rw [hparse] at h
        cases h
        exact ⟨by simpa using hbooted, rfl, net, hparse⟩

lemma step_inv {s s' : LazySystem T} {a : LazyAction} (h : Inv s) (hstep : s.step a = some s') :
    Inv s' := by
  cases a with
  | configure netFile =>
    simp only [step] at hstep
    split at hstep
    · rename_i inner' text hok
      obtain ⟨-, rfl, -⟩ := configurePrivateNet_ok hok
      obtain rfl := Option.some.inj hstep
      exact ⟨by simp, h.config⟩
    · exact Option.some.inj hstep ▸ h
  | get k | poll k =>
    simp only [step] at hstep
    split at hstep
    · exact Option.some.inj hstep ▸ inv_pollGet h k
    · exact absurd hstep (by simp)
  | bootstrapped k | bootFailed k e =>
    simp only [step] at hstep
    split at hstep
    · rename_i hk
      exact Option.some.inj hstep ▸ inv_release h hk (by simp) _
    · exact absurd hstep (by simp)
  | cancel k =>
    simp only [step] at hstep
    split at hstep
    · exact Option.some.inj hstep ▸ inv_setCall h (by simp)
    · rename_i hk
      exact Option.some.inj hstep ▸ inv_release h hk (by simp) _
    · exact absurd hstep (by simp)

/-- A step that boots nothing keeps the last descriptor honoured. -/
lemma honoured_of_same {s s' : LazySystem T} (h : Honoured s) (hinner : s'.inner = s.inner)
    (haccepted : s'.accepted = s.accepted) : Honoured s' := by
  intro t ht
  rw [hinner] at ht ⊢
  rw [haccepted]
  exact h t ht

/-- A step keeps the last descriptor honoured exactly if it is no bootstrap of another one. -/
lemma step_honoured {s s' : LazySystem T} {a : LazyAction} (hinv : Inv s) (h : Honoured s)
    (hstep : s.step a = some s') : Honoured s' ↔ Current s a := by
  cases a with
  | configure netFile =>
    refine iff_of_true ?_ (by simp [Current])
    simp only [step] at hstep
    split at hstep
    · rename_i inner' text hok
      -- a descriptor is accepted only while nothing is booted
      obtain ⟨hbooted, rfl, -⟩ := configurePrivateNet_ok hok
      obtain rfl := Option.some.inj hstep
      intro t ht
      exact absurd (ht.symm.trans hbooted) (by simp)
    · exact Option.some.inj hstep ▸ h
  | get k | poll k =>
    refine iff_of_true ?_ (by simp [Current])
    simp only [step] at hstep
    split at hstep
    · obtain rfl := Option.some.inj hstep
      exact honoured_of_same h (inner_pollGet s k).1 (inner_pollGet s k).2
    · exact absurd hstep (by simp)
  | bootFailed k e =>
    refine iff_of_true ?_ (by simp [Current])
    simp only [step] at hstep
    split at hstep
    · exact Option.some.inj hstep ▸ honoured_of_same h rfl rfl
    · exact absurd hstep (by simp)
  | cancel k =>
    refine iff_of_true ?_ (by simp [Current])
    simp only [step] at hstep
    split at hstep
    · exact Option.some.inj hstep ▸ honoured_of_same h rfl rfl
    · exact Option.some.inj hstep ▸ honoured_of_same h rfl rfl
    · exact absurd hstep (by simp)
  | bootstrapped k =>
    simp only [step] at hstep
    split at hstep
    · rename_i pending cfg hk
      obtain rfl := Option.some.inj hstep
      -- the client is booted with the descriptor that its call had copied
      obtain ⟨hcfg, -, -⟩ := hinv.config k pending cfg hk
      constructor
      · intro hon j hj p cfg' hjk
        obtain rfl := LazyAction.bootstrapped.inj hj
        obtain ⟨rfl, rfl⟩ : pending = p ∧ cfg = cfg' := by simpa using hk.symm.trans hjk
        exact (hon _ rfl).1.trans hinv.pending.symm
      · intro hcur t ht
        obtain rfl := Option.some.inj ht
        have hp : pending = s.accepted.getLast? :=
          (hcur k rfl pending cfg hk).trans hinv.pending
        exact ⟨hp, hp ▸ hcfg⟩
    · exact absurd hstep (by simp)

/-- **An accepted descriptor is honoured** in every state of a run exactly if every bootstrap
that succeeds was started with the descriptor that is stored when it does. -/
theorem honoured_iff_current {stateDir cacheDir : String} {maxMsgLen : ℕ} {as : List LazyAction}
    {s : LazySystem T} (hrun : run step (new stateDir cacheDir maxMsgLen) as = some s) :
    Always step Honoured (new (T := T) stateDir cacheDir maxMsgLen) as ↔
      EachStep step Current (new (T := T) stateDir cacheDir maxMsgLen) as :=
  always_iff_eachStep (fun _ _ _ => step_inv) (fun _ _ _ => step_honoured)
    (inv_new stateDir cacheDir maxMsgLen) (fun _ h => absurd h (by simp [new, LazyInner.new])) hrun

/-- Crates for runs on fixed inputs: identities in the right format are their own texts, and the
config is the builder's content. -/
def textCrates : TorCrates where
  RsaIdentity := Text
  Ed25519Identity := Text
  TorClientConfig := TorClientConfigBuilder Text Text
  rsaFromHex t := if t.length = 40 ∧ t.all isAsciiHexdigit then some t else none
  edFromBase64 t := if Base64.Encodes 32 t then some t else none
  build b := .ok b

/-- A descriptor with one authority and one fallback cache, as UTF-8 (all of it is ASCII). -/
def sampleNet : Bytes :=
  ("authority test-da1 27102BC123E7AF1D4741AE047E160C91ADC76B21\n" ++
    "fallback 27102BC123E7AF1D4741AE047E160C91ADC76B21 " ++
    "xGYRXQ2b1SDpLoNjKilDNzrqAX2XCEBEyYlVmIGSjTo 192.168.1.11:9001\n").toList.map
      fun c => UInt8.ofNat c.toNat

/-- A descriptor is accepted, a first bootstrap fails, a second one succeeds. -/
theorem honoured_iff_current_retried :
    ∃ s, run step (new (T := textCrates) "state" "cache" 1024)
        [.configure sampleNet, .get 0, .get 1, .bootFailed 0 ⟨.other "TorAccessFailed", "timeout"⟩,
          .poll 1, .bootstrapped 1] = some s ∧
      (Always step Honoured (new (T := textCrates) "state" "cache" 1024)
          [.configure sampleNet, .get 0, .get 1, .bootFailed 0 ⟨.other "TorAccessFailed", "timeout"⟩,
            .poll 1, .bootstrapped 1] ↔
        EachStep step Current (new (T := textCrates) "state" "cache" 1024)
          [.configure sampleNet, .get 0, .get 1, .bootFailed 0 ⟨.other "TorAccessFailed", "timeout"⟩,
            .poll 1, .bootstrapped 1]) := by
  have hrun : (run step (new (T := textCrates) "state" "cache" 1024)
      [.configure sampleNet, .get 0, .get 1, .bootFailed 0 ⟨.other "TorAccessFailed", "timeout"⟩,
        .poll 1, .bootstrapped 1]).isSome := by decide +kernel
  exact ⟨_, Option.eq_some_of_isSome hrun, honoured_iff_current (Option.eq_some_of_isSome hrun)⟩

/-- A descriptor that is accepted while the bootstrap onto the public network is under way is
not used: the transport stays on the public network. -/
theorem descriptor_accepted_and_ignored :
    ¬ ∀ (T : TorCrates) (stateDir cacheDir : String) (maxMsgLen : ℕ) (as : List LazyAction)
        (s : LazySystem T), run step (new stateDir cacheDir maxMsgLen) as = some s → Honoured s := by
  intro h
  have hrun : (run step (new (T := textCrates) "state" "cache" 1024)
      [.get 0, .configure sampleNet, .bootstrapped 0]).any (fun s =>
        decide (s.inner.booted.map ArtiTransport.source = some none ∧ s.accepted ≠ [])) := by
    decide +kernel
  obtain ⟨s, hs, hdec⟩ := (Option.any_eq_true _ _).mp hrun
  obtain ⟨hpublic, haccepted⟩ := of_decide_eq_true hdec
  obtain ⟨t, ht, hsource⟩ := Option.map_eq_some_iff.mp hpublic
  have hon := (h textCrates "state" "cache" 1024 _ s hs t ht).1
  rw [hsource] at hon
  exact haccepted (List.getLast?_eq_none_iff.mp hon.symm)

end LazySystem

end FungiTransport
