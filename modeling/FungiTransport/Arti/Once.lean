import FungiTransport.Arti.Lazy
import FungiTransport.Lib.Progress

/-!
# The transport bootstraps once

However many calls of `get` there are, one initialiser runs at a time, and at most one of them
succeeds; its transport is the one that every call returns.  A bootstrap that fails or is dropped
gives the permit of the `OnceCell` back, so that a waiting call runs its own: no call waits for ever,
and none gets the error of another one's bootstrap.

What a step does is said once (`LazySystem.Went`), and read by the invariant (`LazySystem.Single`)
and by the rank (`LazySystem.left`).
-/

namespace FungiTransport

open Lib

variable {T : TorCrates}

/-- A bootstrap succeeds. -/
def LazyAction.isBooted : LazyAction → Bool
  | .bootstrapped _ => true
  | _ => false

/-- A call of `get` is made. -/
def LazyAction.isGet : LazyAction → Bool
  | .get _ => true
  | _ => false

/-- The turns that a call has still to take. -/
def GetCall.left : GetCall T → ℕ
  | .waiting => 2
  | .bootstrapping _ _ => 1
  | .returned _ => 0

namespace LazySystem

/-! ## What a step does -/

/-- The call `k` is polled: it is new, or it waits. -/
def Polls (s : LazySystem T) (k : ℕ) (a : LazyAction) : Prop :=
  a = .get k ∧ s.calls k = none ∨ a = .poll k ∧ s.calls k = some .waiting

/-- What a step comes to. -/
inductive Went (s s' : LazySystem T) : LazyAction → Prop
  | configured {netFile} (hcalls : s'.calls = s.calls) (hpermit : s'.permit = s.permit)
      (hbooted : s'.inner.booted = s.inner.booted)
      (hconfig : s'.inner.config = s.inner.config) : Went s s' (.configure netFile)
  | found {a k t} (hpolls : s.Polls k a) (hbooted : s.inner.booted = some t)
      (hs' : s' = s.setCall k (some (.returned (.ok t)))) : Went s s' a
  | waits {a k} (hpolls : s.Polls k a) (hbooted : s.inner.booted = none) (hpermit : s.permit ≠ none)
      (hs' : s' = s.setCall k (some .waiting)) : Went s s' a
  | misconfigured {a k e} (hpolls : s.Polls k a) (hbooted : s.inner.booted = none)
      (hpermit : s.permit = none) (hconfig : s.inner.config s.inner.pending = .error e)
      (hs' : s' = s.setCall k (some (.returned (.error e)))) : Went s s' a
  | begins {a k p cfg} (hpolls : s.Polls k a) (hbooted : s.inner.booted = none)
      (hpermit : s.permit = none)
      (hs' : s' = { s with permit := some k }.setCall k (some (.bootstrapping p cfg))) : Went s s' a
  | boots {k p cfg t} (hk : s.calls k = some (.bootstrapping p cfg))
      (hs' : s' = { s with inner := { s.inner with booted := some t }, permit := none }.setCall k
        (some (.returned (.ok t)))) : Went s s' (.bootstrapped k)
  | fails {k p cfg e} (hk : s.calls k = some (.bootstrapping p cfg))
      (hs' : s' = { s with permit := none }.setCall k (some (.returned (.error (connectError e))))) :
      Went s s' (.bootFailed k e)
  | leaves {k} (hk : s.calls k = some .waiting) (hs' : s' = s.setCall k none) :
      Went s s' (.cancel k)
  | stops {k p cfg} (hk : s.calls k = some (.bootstrapping p cfg))
      (hs' : s' = { s with permit := none }.setCall k none) : Went s s' (.cancel k)

lemma went_pollGet {s : LazySystem T} {k : ℕ} {a : LazyAction} (h : s.Polls k a) :
    Went s (s.pollGet k) a := by
  unfold pollGet
  split
  · rename_i t _ hbooted
    exact .found h hbooted rfl
  · rename_i j hbooted hpermit
    exact .waits h hbooted (by simp [hpermit]) rfl
  · rename_i hbooted hpermit
    split
    · rename_i e hconfig
      exact .misconfigured h hbooted hpermit hconfig rfl
    · exact .begins h hbooted hpermit rfl

lemma went_of_step {s s' : LazySystem T} {a : LazyAction} (hstep : s.step a = some s') :
    Went s s' a := by
  cases a with
  | configure netFile =>
    simp only [step] at hstep
    split at hstep
    · rename_i inner' text hok
      obtain ⟨-, rfl, -⟩ := configurePrivateNet_ok hok
      obtain rfl := Option.some.inj hstep
      exact .configured rfl rfl rfl rfl
    · obtain rfl := Option.some.inj hstep
      exact .configured rfl rfl rfl rfl
  | get k =>
    simp only [step] at hstep
    split at hstep
    · rename_i hk
      exact Option.some.inj hstep ▸ went_pollGet (.inl ⟨rfl, hk⟩)
    · cases hstep
  | poll k =>
    simp only [step] at hstep
    split at hstep
    · rename_i hk
      exact Option.some.inj hstep ▸ went_pollGet (.inr ⟨rfl, hk⟩)
    · cases hstep
  | bootstrapped k =>
    simp only [step] at hstep
    split at hstep
    · rename_i hk
      exact .boots hk (Option.some.inj hstep).symm
    · cases hstep
  | bootFailed k e =>
    simp only [step] at hstep
    split at hstep
    · rename_i hk
      exact .fails hk (Option.some.inj hstep).symm
    · cases hstep
  | cancel k =>
    simp only [step] at hstep
    split at hstep
    · rename_i hk
      exact .leaves hk (Option.some.inj hstep).symm
    · rename_i hk
      exact .stops hk (Option.some.inj hstep).symm
    · cases hstep

lemma calls_setCall (s : LazySystem T) (k j : ℕ) (c : Option (GetCall T)) :
    (s.setCall k c).calls j = if j = k then c else s.calls j := by
  simp [setCall, Function.update_apply]

/-! ## One initialiser, and one transport -/

/-- The permit is held by the call that runs the initialiser, while the cell is empty; and what has
been returned is the transport in the cell. -/
structure Single (s : LazySystem T) : Prop where
  permit : ∀ k, s.permit = some k → ∃ p cfg, s.calls k = some (.bootstrapping p cfg)
  held : ∀ k p cfg, s.calls k = some (.bootstrapping p cfg) →
    s.permit = some k ∧ s.inner.booted = none
  shared : ∀ k t, s.calls k = some (.returned (.ok t)) → s.inner.booted = some t

lemma single_new (stateDir cacheDir : String) (maxMsgLen : ℕ) :
    Single (new (T := T) stateDir cacheDir maxMsgLen) :=
  ⟨by simp [new], by simp [new], by simp [new]⟩

/-- A call that runs no initialiser is recorded anew, and runs none. -/
lemma Single.setCall {s : LazySystem T} {k : ℕ} {c : Option (GetCall T)} (h : Single s)
    (hk : s.permit ≠ some k) (hc : ∀ p cfg, c ≠ some (.bootstrapping p cfg))
    (hshared : ∀ t, c = some (.returned (.ok t)) → s.inner.booted = some t) :
    Single (s.setCall k c) := by
  constructor
  · intro j hj
    obtain ⟨p, cfg, hcall⟩ := h.permit j hj
    have hjk : j ≠ k := fun hjk => hk (hjk ▸ hj)
    exact ⟨p, cfg, by rw [calls_setCall, if_neg hjk, hcall]⟩
  · intro j p cfg hj
    rw [calls_setCall] at hj
    split at hj
    · exact absurd hj (hc p cfg)
    · exact h.held j p cfg hj
  · intro j t hj
    rw [calls_setCall] at hj
    split at hj
    · exact hshared t hj
    · exact h.shared j t hj

/-- The initialiser ends and gives the permit back. -/
lemma Single.release {s : LazySystem T} {k : ℕ} {p : Option Text} {cfg : T.TorClientConfig}
    {booted : Option (ArtiTransport T)} {c : Option (GetCall T)} (h : Single s)
    (hk : s.calls k = some (.bootstrapping p cfg)) (hc : ∀ p cfg, c ≠ some (.bootstrapping p cfg))
    (hshared : ∀ t, c = some (.returned (.ok t)) → booted = some t) :
    Single ({ s with inner := { s.inner with booted := booted }, permit := none }.setCall k c) := by
  obtain ⟨hpermit, hempty⟩ := h.held k p cfg hk
  constructor
  · intro j hj
    cases hj
  · intro j q cfg' hj
    rw [calls_setCall] at hj
    split at hj
    · exact absurd hj (hc q cfg')
    · -- another initialiser would hold the permit too
      rename_i hjk
      exact absurd (Option.some.inj ((h.held j q cfg' hj).1.symm.trans hpermit)) hjk
  · intro j t hj
    rw [calls_setCall] at hj
    split at hj
    · exact hshared t hj
    · exact absurd (h.shared j t hj) (by simp [hempty])

/-- A call that is polled runs no initialiser. -/
lemma Single.permit_ne {s : LazySystem T} {k : ℕ} {a : LazyAction} (h : Single s)
    (hpolls : s.Polls k a) : s.permit ≠ some k := by
  intro hk
  obtain ⟨p, cfg, hcall⟩ := h.permit k hk
  rcases hpolls with ⟨-, hnone⟩ | ⟨-, hwaits⟩
  · simp [hcall] at hnone
  · simp [hcall] at hwaits

lemma step_single {s s' : LazySystem T} {a : LazyAction} (h : Single s)
    (hstep : s.step a = some s') : Single s' := by
  cases went_of_step hstep with
  | configured hcalls hpermit hbooted _ =>
    exact ⟨by rw [hcalls, hpermit]; exact h.permit, by rw [hcalls, hpermit, hbooted]; exact h.held,
      by rw [hcalls, hbooted]; exact h.shared⟩
  | found hpolls hbooted hs' =>
    exact hs' ▸ h.setCall (h.permit_ne hpolls) (by simp) (by simpa using hbooted)
  | waits hpolls _ _ hs' => exact hs' ▸ h.setCall (h.permit_ne hpolls) (by simp) (by simp)
  | misconfigured hpolls _ _ _ hs' => exact hs' ▸ h.setCall (h.permit_ne hpolls) (by simp) (by simp)
  | @begins _ k p cfg _ hbooted hpermit hs' =>
    subst hs'
    constructor
    · intro j hj
      obtain rfl : k = j := Option.some.inj hj
      exact ⟨p, cfg, by rw [calls_setCall, if_pos rfl]⟩
    · intro j q cfg' hj
      rw [calls_setCall] at hj
      split at hj
      · rename_i hjk
        exact ⟨congrArg some hjk.symm, hbooted⟩
      · exact absurd (h.held j q cfg' hj).1 (by simp [hpermit])
    · intro j t hj
      rw [calls_setCall] at hj
      split at hj
      · simp at hj
      · exact h.shared j t hj
  | boots hk hs' => exact hs' ▸ h.release hk (by simp) (by simp)
  | fails hk hs' => exact hs' ▸ h.release hk (by simp) (by simp)
  | @leaves k hk hs' =>
    refine hs' ▸ h.setCall (fun hpermit => ?_) (by simp) (by simp)
    obtain ⟨p, cfg, hcall⟩ := h.permit k hpermit
    simp [hk] at hcall
  | stops hk hs' => exact hs' ▸ h.release hk (by simp) (by simp)

/-- The cell has room for one transport. -/
def room (s : LazySystem T) : ℕ := if s.inner.booted.isSome then 0 else 1

/-- What is in the cell stays there, and a bootstrap succeeds only while it is empty. -/
lemma step_booted {s s' : LazySystem T} {a : LazyAction} (h : Single s)
    (hstep : s.step a = some s') :
    (s'.inner.booted = s.inner.booted ∧ a.isBooted = false) ∨
      (s.inner.booted = none ∧ s'.inner.booted.isSome = true ∧ a.isBooted = true) := by
  have hpoll : ∀ k, s.Polls k a → a.isBooted = false := by
    rintro k (⟨rfl, -⟩ | ⟨rfl, -⟩) <;> rfl
  cases went_of_step hstep with
  | configured _ _ hbooted _ => exact .inl ⟨hbooted, rfl⟩
  | found hpolls _ hs' => exact .inl ⟨by rw [hs']; rfl, hpoll _ hpolls⟩
  | waits hpolls _ _ hs' => exact .inl ⟨by rw [hs']; rfl, hpoll _ hpolls⟩
  | misconfigured hpolls _ _ _ hs' => exact .inl ⟨by rw [hs']; rfl, hpoll _ hpolls⟩
  | begins hpolls _ _ hs' => exact .inl ⟨by rw [hs']; rfl, hpoll _ hpolls⟩
  | boots hk hs' => exact .inr ⟨(h.held _ _ _ hk).2, by rw [hs']; rfl, rfl⟩
  | fails _ hs' => exact .inl ⟨by rw [hs']; rfl, rfl⟩
  | leaves _ hs' => exact .inl ⟨by rw [hs']; rfl, rfl⟩
  | stops _ hs' => exact .inl ⟨by rw [hs']; rfl, rfl⟩

lemma step_room {s s' : LazySystem T} {a : LazyAction} (h : Single s)
    (hstep : s.step a = some s') : s'.room + (if a.isBooted then 1 else 0) ≤ s.room := by
  rcases step_booted h hstep with ⟨hsame, ha⟩ | ⟨hnone, hsome, ha⟩
  · simp [room, hsame, ha]
  · simp [room, hnone, hsome, ha]

/-! ## Whose error it is -/

/-- The error that a call has returned is that of its own bootstrap, which fails with an error in
`F`, or one of a config that cannot be built. -/
structure Blamed (F : ℕ → TorError → Prop)
    (config : Option Text → Except ConnectError T.TorClientConfig) (s : LazySystem T) : Prop where
  same : s.inner.config = config
  own : ∀ k e, s.calls k = some (.returned (.error e)) →
    (∃ err, F k err ∧ e = connectError err) ∨ ∃ p, config p = .error e

lemma step_blamed {F : ℕ → TorError → Prop}
    {config : Option Text → Except ConnectError T.TorClientConfig} {s s' : LazySystem T}
    {a : LazyAction} (h : Blamed F config s) (ha : ∀ k e, a = .bootFailed k e → F k e)
    (hstep : s.step a = some s') : Blamed F config s' := by
  have hset : ∀ (u : LazySystem T) k c, u.inner.config = s.inner.config → u.calls = s.calls →
      (∀ e, c = some (.returned (.error e)) →
        (∃ err, F k err ∧ e = connectError err) ∨ ∃ p, config p = .error e) →
      Blamed F config (u.setCall k c) := by
    intro u k c hu hcalls hc
    refine ⟨hu.trans h.same, fun j e hj => ?_⟩
    rw [calls_setCall, hcalls] at hj
    split at hj
    · rename_i hjk
      exact hjk ▸ hc e hj
    · exact h.own j e hj
  cases went_of_step hstep with
  | configured hcalls _ _ hconfig => exact ⟨hconfig.trans h.same, hcalls ▸ h.own⟩
  | found _ _ hs' => exact hs' ▸ hset _ _ _ rfl rfl (by simp)
  | waits _ _ _ hs' => exact hs' ▸ hset _ _ _ rfl rfl (by simp)
  | misconfigured _ _ _ hconfig hs' =>
    refine hs' ▸ hset _ _ _ rfl rfl fun e' he => .inr ⟨s.inner.pending, ?_⟩
    simp only [Option.some.injEq, GetCall.returned.injEq, Except.error.injEq] at he
    rw [← h.same, hconfig, he]
  | begins _ _ _ hs' => exact hs' ▸ hset _ _ _ rfl rfl (by simp)
  | boots _ hs' => exact hs' ▸ hset _ _ _ rfl rfl (by simp)
  | @fails k p cfg e _ hs' =>
    refine hs' ▸ hset _ _ _ rfl rfl fun e' he => .inl ⟨e, ha k e rfl, ?_⟩
    simp only [Option.some.injEq, GetCall.returned.injEq, Except.error.injEq] at he
    exact he.symm
  | leaves _ hs' => exact hs' ▸ hset _ _ _ rfl rfl (by simp)
  | stops _ hs' => exact hs' ▸ hset _ _ _ rfl rfl (by simp)

/-! ## No call waits for ever -/

/-- The turns that the calls below `n` have still to take. -/
def left (n : ℕ) (s : LazySystem T) : ℕ := tableWeight GetCall.left n s.calls

/-- A step that goes on with a call: it is not polled while another one runs the initialiser. -/
def Useful (s : LazySystem T) : LazyAction → Prop
  | .configure _ | .get _ => False
  | .poll _ => s.inner.booted.isSome = true ∨ s.permit = none
  | .bootstrapped _ | .bootFailed _ _ | .cancel _ => True

instance (s : LazySystem T) (a : LazyAction) : Decidable (s.Useful a) := by
  cases a <;> simp only [Useful] <;> infer_instance

/-- The calls have numbers below `n`. -/
def Below (n : ℕ) (s : LazySystem T) : Prop := ∀ k, s.calls k ≠ none → k < n

variable {n : ℕ}

lemma left_setCall (s : LazySystem T) {k : ℕ} (hk : k < n) (c : Option (GetCall T)) :
    (s.setCall k c).left n + (s.calls k).elim 0 GetCall.left =
      s.left n + c.elim 0 GetCall.left :=
  tableWeight_update hk c

lemma below_setCall {s : LazySystem T} {k : ℕ} (h : Below n s) (hk : k < n)
    (c : Option (GetCall T)) : Below n (s.setCall k c) := by
  intro j hj
  by_cases hjk : j = k
  · exact hjk ▸ hk
  · exact h j (by rwa [calls_setCall, if_neg hjk] at hj)

/-- A new call has two turns to take; a step that goes on with one takes a turn, and no other step
gives one back. -/
lemma step_left {s s' : LazySystem T} {a : LazyAction} (h : Below n s)
    (ha : ∀ k, a = .get k → k < n) (hstep : s.step a = some s') :
    Below n s' ∧ s'.left n ≤ s.left n + (if a.isGet then 2 else 0) ∧
      (s.Useful a → s'.left n < s.left n) := by
  -- a call is recorded that had turns to take, or is new
  have hcall : ∀ (u : LazySystem T) k (c : Option (GetCall T)), u.calls = s.calls →
      (s.Polls k a ∧ c.elim 0 GetCall.left ≤ 2 ∧ (s.Useful a → c.elim 0 GetCall.left < 2) ∨
        c.elim 0 GetCall.left < (s.calls k).elim 0 GetCall.left) →
      Below n (u.setCall k c) ∧ (u.setCall k c).left n ≤ s.left n + (if a.isGet then 2 else 0) ∧
        (s.Useful a → (u.setCall k c).left n < s.left n) := by
    intro u k c hu hc
    have hsame : u.left n = s.left n := by rw [left, left, hu]
    have hbelow : Below n u := by rw [Below, hu]; exact h
    have hk : k < n := by
      rcases hc with ⟨⟨rfl, -⟩ | ⟨-, hwaits⟩, -⟩ | hless
      · exact ha k rfl
      · exact h k (by simp [hwaits])
      · refine h k fun hnone => ?_
        simp [hnone] at hless
    have hset := left_setCall u hk c
    rw [hu, hsame] at hset
    refine ⟨below_setCall hbelow hk c, ?_⟩
    rcases hc with ⟨⟨rfl, hnone⟩ | ⟨rfl, hwaits⟩, htwo, huseful⟩ | hless
    · rw [hnone, Option.elim_none] at hset
      exact ⟨by simp only [LazyAction.isGet, if_true]; omega, fun hu => absurd hu (by simp [Useful])⟩
    · rw [hwaits] at hset
      simp only [Option.elim_some, GetCall.left] at hset
      exact ⟨by omega, fun hu => by have := huseful hu; omega⟩
    · exact ⟨by omega, fun _ => by omega⟩
  cases went_of_step hstep with
  | configured hcalls _ _ _ =>
    have hsame : s'.left n = s.left n := by rw [left, left, hcalls]
    exact ⟨by rw [Below, hcalls]; exact h, by omega, fun hu => absurd hu (by simp [Useful])⟩
  | found hpolls _ hs' => exact hs' ▸ hcall s _ _ rfl (.inl ⟨hpolls, by simp [GetCall.left]⟩)
  | waits hpolls hbooted hpermit hs' =>
    refine hs' ▸ hcall s _ _ rfl (.inl ⟨hpolls, le_rfl, fun hu => ?_⟩)
    rcases hpolls with ⟨rfl, -⟩ | ⟨rfl, -⟩
    · exact absurd hu (by simp [Useful])
    · simp [Useful, hbooted, hpermit] at hu
  | misconfigured hpolls _ _ _ hs' =>
    exact hs' ▸ hcall s _ _ rfl (.inl ⟨hpolls, by simp [GetCall.left]⟩)
  | begins hpolls _ _ hs' =>
    exact hs' ▸ hcall _ _ _ rfl (.inl ⟨hpolls, by simp [GetCall.left]⟩)
  | boots hk hs' => exact hs' ▸ hcall _ _ _ rfl (.inr (by simp [hk, GetCall.left]))
  | fails hk hs' => exact hs' ▸ hcall _ _ _ rfl (.inr (by simp [hk, GetCall.left]))
  | leaves hk hs' => exact hs' ▸ hcall _ _ _ rfl (.inr (by simp [hk, GetCall.left]))
  | stops hk hs' => exact hs' ▸ hcall _ _ _ rfl (.inr (by simp [hk, GetCall.left]))

lemma exists_gt_gets (as : List LazyAction) : ∃ n, ∀ k, .get k ∈ as → k < n := by
  induction as with
  | nil => exact ⟨0, by simp⟩
  | cons a as ih =>
    obtain ⟨n, hn⟩ := ih
    cases a with
    | get j =>
      refine ⟨max n (j + 1), fun k hk => ?_⟩
      rcases List.mem_cons.mp hk with hk | hk
      · obtain rfl := LazyAction.get.inj hk
        omega
      · have := hn k hk
        omega
    | _ => exact ⟨n, fun k hk => hn k (by simpa using hk)⟩

/-- Where nothing goes on, every call has returned. -/
lemma returned_of_stuck {s : LazySystem T} (h : Single s) (hstuck : Stuck step Useful s) (k : ℕ)
    {c : GetCall T} (hk : s.calls k = some c) : ∃ r, c = .returned r := by
  have hboot : ∀ j p cfg, s.calls j ≠ some (.bootstrapping p cfg) := fun j p cfg hj => by
    have hnone : s.step (.bootstrapped j) = none := hstuck.step_eq_none trivial
    simp [step, hj] at hnone
  rcases c with _ | ⟨p, cfg⟩ | r
  · -- the one that holds the permit could end
    have hfree : s.permit = none := by
      cases hpermit : s.permit with
      | none => rfl
      | some j =>
        obtain ⟨p, cfg, hj⟩ := h.permit j hpermit
        exact absurd hj (hboot j p cfg)
    exact absurd (by simp only [step, hk]) (hstuck (.poll k) (s.pollGet k) (.inr hfree))
  · exact absurd hk (hboot k p cfg)
  · exact ⟨r, rfl⟩

/-- **The bootstrap is done once.**  In every run, whatever is dropped and however bootstraps fail,
at most one bootstrap succeeds, no two are in progress at a time, and every call that returns a
transport returns the one in the cell, which stays there.  An error is that of the call's own
bootstrap or of a config that cannot be built.  Once no new call is made, the rest of the run is
bounded, and where it cannot go on every call has returned. -/
theorem boots_once {stateDir cacheDir : String} {maxMsgLen : ℕ} {as bs : List LazyAction}
    {s u : LazySystem T} (hrun : run step (new stateDir cacheDir maxMsgLen) as = some s)
    (hrun' : run step s bs = some u) :
    (as ++ bs).countP LazyAction.isBooted ≤ 1 ∧
    (∀ j k p q cfg cfg', u.calls j = some (.bootstrapping p cfg) →
      u.calls k = some (.bootstrapping q cfg') → j = k) ∧
    (∀ t, s.inner.booted = some t → u.inner.booted = some t) ∧
    (∀ k t, u.calls k = some (.returned (.ok t)) → u.inner.booted = some t) ∧
    (∀ k e, u.calls k = some (.returned (.error e)) →
      (∃ err, .bootFailed k err ∈ as ++ bs ∧ e = connectError err) ∨
        ∃ p, (LazyInner.new stateDir cacheDir maxMsgLen : LazyInner T).config p = .error e) ∧
    (EachStep step Useful s bs → bs.length ≤ 2 * as.countP LazyAction.isGet) ∧
    (Stuck step Useful u → ∀ k c, u.calls k = some c → ∃ r, c = .returned r) := by
  have hrun'' : run step (new stateDir cacheDir maxMsgLen) (as ++ bs) = some u :=
    run_append.mpr ⟨s, hrun, hrun'⟩
  have hs : Single s := run_invariant (fun _ _ _ => step_single) (single_new _ _ _) hrun
  have hu : Single u := run_invariant (fun _ _ _ => step_single) hs hrun'
  refine ⟨?_, ?_, ?_, hu.shared, ?_, ?_, fun hstuck k c => returned_of_stuck hu hstuck k⟩
  · have hcount := account_of_run (P := fun _ _ => True) (I := Single) (p := LazyAction.isBooted)
      (q := fun _ => false) (f := room) (c := 1) (d := 0)
      (fun v a v' hv _ hstep => ⟨step_single hv hstep, by simpa using step_room hv hstep⟩)
      (single_new _ _ _) (eachStep_true _ _) hrun''
    have hroom : room (new (T := T) stateDir cacheDir maxMsgLen) = 1 := rfl
    omega
  · intro j k p q cfg cfg' hj hk
    exact Option.some.inj ((hu.held j p cfg hj).1.symm.trans (hu.held k q cfg' hk).1)
  · intro t ht
    have hkept : Single u ∧ u.inner.booted = some t := by
      refine run_invariant (I := fun v => Single v ∧ v.inner.booted = some t) ?_ ⟨hs, ht⟩ hrun'
      rintro v a v' ⟨hv, hvt⟩ hstep
      refine ⟨step_single hv hstep, ?_⟩
      rcases step_booted hv hstep with ⟨hsame, -⟩ | ⟨hnone, -⟩
      · rw [hsame, hvt]
      · simp [hvt] at hnone
    exact hkept.2
  · have hfails : EachStep step (fun _ a => ∀ k e, a = .bootFailed k e → .bootFailed k e ∈ as ++ bs)
        (new (T := T) stateDir cacheDir maxMsgLen) (as ++ bs) :=
      eachStep_iff.mpr fun pre a post v hcut _ k e ha => by rw [hcut, ha]; simp
    have hblamed : Blamed (fun k e => .bootFailed k e ∈ as ++ bs)
        (LazyInner.new stateDir cacheDir maxMsgLen : LazyInner T).config u :=
      run_induction (fun _ _ _ hv ha hstep => step_blamed hv ha hstep)
        ⟨rfl, fun k e hk => by simp [new] at hk⟩ hfails hrun''
    exact hblamed.own
  · intro huseful
    obtain ⟨n, hn⟩ := exists_gt_gets as
    have hgets : EachStep step (fun _ a => ∀ k, a = .get k → k < n)
        (new (T := T) stateDir cacheDir maxMsgLen) as :=
      eachStep_iff.mpr fun pre a post v hcut _ k ha => hn k (by rw [hcut, ha]; simp)
    have hbelow : Below n (new (T := T) stateDir cacheDir maxMsgLen) := by simp [Below, new]
    have hpaid := account_of_run (I := Below n) (p := fun _ => false) (q := LazyAction.isGet)
      (f := left n) (c := 0) (d := 2)
      (fun v a v' hv ha hstep => by
        obtain ⟨hbelow', hleft, -⟩ := step_left hv ha hstep
        exact ⟨hbelow', by simpa using hleft⟩) hbelow hgets hrun
    have hlast : Below n s :=
      run_induction (fun v a v' hv ha hstep => (step_left hv ha hstep).1) hbelow hgets hrun
    have hbound := length_add_rank_le (I := Below n) (fun v a v' hv ha hstep => by
        obtain ⟨hbelow', -, hless⟩ := step_left hv (by rintro k rfl; exact ha.elim) hstep
        exact ⟨hbelow', hless ha⟩) hlast huseful hrun'
    have hzero : left n (new (T := T) stateDir cacheDir maxMsgLen) = 0 := by
      simp [left, tableWeight, new]
    omega

/-- Three calls: the first one's bootstrap fails, the second one runs its own, and the third one
returns the transport of the second. -/
theorem boots_once_retried :
    ∃ s u t, run step (new (T := textCrates) "state" "cache" 1024)
        [.get 0, .get 1, .bootFailed 0 ⟨.other "TorAccessFailed", "timeout"⟩, .poll 1, .get 2,
          .bootstrapped 1] = some s ∧
      run step s [.poll 2] = some u ∧ u.calls 2 = some (.returned (.ok t)) ∧
      u.inner.booted = some t := by
  obtain ⟨s, u, t, hrun, hrun', hcall⟩ : ∃ s u t,
      run step (new (T := textCrates) "state" "cache" 1024)
        [.get 0, .get 1, .bootFailed 0 ⟨.other "TorAccessFailed", "timeout"⟩, .poll 1, .get 2,
          .bootstrapped 1] = some s ∧
      run step s [.poll 2] = some u ∧ u.calls 2 = some (.returned (.ok t)) :=
    ⟨_, _, _, rfl, rfl, rfl⟩
  obtain ⟨-, -, -, hshared, -⟩ := boots_once hrun hrun'
  exact ⟨s, u, t, hrun, hrun', hcall, hshared 2 t hcall⟩

end LazySystem

end FungiTransport
