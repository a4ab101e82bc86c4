import Mathlib.Logic.Function.Basic
import Mathlib.Data.List.Basic
import Mathlib.Tactic.Common

/-!
# Runs of a partial step function

A component is modelled by a step function that takes a state and an action to the next
state, or to `none` when the action is not enabled.  All interleavings of a concurrent
component are then the lists of actions, and what holds in every reachable state is what
holds after every list that can be run.  This file names nothing of the repository.
-/

namespace FungiTransport.Lib

variable {σ α β : Type*} (step : σ → α → Option σ)

/-- The state that a list of actions leads to, `none` as soon as one is not enabled. -/
def run : σ → List α → Option σ
  | s, [] => some s
  | s, a :: as => (step s a).bind fun s' => run s' as

/-- Every action of the list meets `P` in the state it is taken in. -/
def EachStep (P : σ → α → Prop) : σ → List α → Prop
  | _, [] => True
  | s, a :: as => P s a ∧ ∀ s', step s a = some s' → EachStep P s' as

/-- Every state on the way, the first and the last one included, meets `Q`. -/
def Always (Q : σ → Prop) : σ → List α → Prop
  | s, [] => Q s
  | s, a :: as => Q s ∧ ∀ s', step s a = some s' → Always Q s' as

/-- What the steps of a run put out, in order. -/
def outputs (out : σ → σ → List β) : σ → List α → List β
  | _, [] => []
  | s, a :: as =>
    match step s a with
    | some s' => out s s' ++ outputs out s' as
    | none => []

instance instDecidableEachStep {P : σ → α → Prop} [∀ s a, Decidable (P s a)] :
    ∀ (s : σ) (as : List α), Decidable (EachStep step P s as)
  | _, [] => .isTrue trivial
  | s, a :: as =>
    match hs : step s a with
    | none => decidable_of_iff (P s a) (by simp [EachStep, hs])
    | some s' =>
      haveI := instDecidableEachStep (P := P) s' as
      decidable_of_iff (P s a ∧ EachStep step P s' as) (by simp [EachStep, hs])

variable {step}

@[simp] lemma run_nil (s : σ) : run step s [] = some s := rfl

lemma run_cons {s : σ} {a : α} {as : List α} {t : σ} :
    run step s (a :: as) = some t ↔ ∃ s', step s a = some s' ∧ run step s' as = some t := by
  simp only [run, Option.bind_eq_some_iff]

lemma run_append {as bs : List α} {s t : σ} :
    run step s (as ++ bs) = some t ↔ ∃ u, run step s as = some u ∧ run step u bs = some t := by
  induction as generalizing s with
  | nil => simp
  | cons a as ih =>
    simp only [List.cons_append, run_cons, ih]
    constructor
    · rintro ⟨s', hs', u, hu, ht⟩
      exact ⟨u, ⟨s', hs', hu⟩, ht⟩
    · rintro ⟨u, ⟨s', hs', hu⟩, ht⟩
      exact ⟨s', hs', u, hu, ht⟩

/-- The step condition can be read off at every cut of the list. -/
lemma eachStep_iff {P : σ → α → Prop} {as : List α} {s : σ} :
    EachStep step P s as ↔
      ∀ pre a post u, as = pre ++ a :: post → run step s pre = some u → P u a := by
  induction as generalizing s with
  | nil => simp [EachStep]
  | cons a as ih =>
    constructor
    · rintro ⟨ha, hrest⟩ pre b post u hcut hrun
      cases pre with
      | nil =>
        simp only [List.nil_append, List.cons.injEq] at hcut
        simp only [run_nil, Option.some.injEq] at hrun
        exact hrun ▸ hcut.1 ▸ ha
      | cons c pre =>
        simp only [List.cons_append, List.cons.injEq] at hcut
        obtain ⟨s', hs', hu⟩ := run_cons.mp hrun
        exact (ih.mp (hrest s' (hcut.1 ▸ hs'))) pre b post u hcut.2 hu
    · intro h
      refine ⟨h [] a as s rfl rfl, fun s' hs' => ih.mpr ?_⟩
      intro pre b post u hcut hrun
      exact h (a :: pre) b post u (by rw [hcut, List.cons_append]) (run_cons.mpr ⟨s', hs', hrun⟩)

lemma EachStep.mono {P Q : σ → α → Prop} (hPQ : ∀ s a, P s a → Q s a) {as : List α} {s : σ}
    (h : EachStep step P s as) : EachStep step Q s as :=
  eachStep_iff.mpr fun pre a post u hcut hrun =>
    hPQ u a (eachStep_iff.mp h pre a post u hcut hrun)

lemma eachStep_true (s : σ) (as : List α) : EachStep step (fun _ _ => True) s as :=
  eachStep_iff.mpr fun _ _ _ _ _ _ => trivial

/-- What holds at the end, and before a step whenever it holds after it, holds after every step
of the run. -/
lemma eachStep_of_last {Q : σ → Prop} (hback : ∀ s a s', step s a = some s' → Q s' → Q s)
    {as : List α} {s t : σ} (hrun : run step s as = some t) (ht : Q t) :
    EachStep step (fun s a => ∀ s', step s a = some s' → Q s') s as ∧ Q s := by
  induction as generalizing s with
  | nil =>
    obtain rfl : s = t := by simpa using hrun
    exact ⟨trivial, ht⟩
  | cons a as ih =>
    obtain ⟨s', hs', hrun'⟩ := run_cons.mp hrun
    obtain ⟨hrest, hQ⟩ := ih hrun'
    have hfirst : ∀ s'', step s a = some s'' → s'' = s' := fun s'' h =>
      Option.some.inj (h.symm.trans hs')
    exact ⟨⟨fun s'' h => hfirst s'' h ▸ hQ, fun s'' h => hfirst s'' h ▸ hrest⟩,
      hback s a s' hs' hQ⟩

lemma EachStep.and {P Q : σ → α → Prop} {as : List α} {s : σ} (hP : EachStep step P s as)
    (hQ : EachStep step Q s as) : EachStep step (fun s a => P s a ∧ Q s a) s as :=
  eachStep_iff.mpr fun pre a post u hcut hrun =>
    ⟨eachStep_iff.mp hP pre a post u hcut hrun, eachStep_iff.mp hQ pre a post u hcut hrun⟩

/-- **The invariant rule.**  What holds at the start and is kept by every step that meets
`P` holds after every run whose steps all meet `P`. -/
theorem run_induction {P : σ → α → Prop} {I : σ → Prop}
    (hstep : ∀ s a s', I s → P s a → step s a = some s' → I s')
    {as : List α} {s t : σ} (hs : I s) (hP : EachStep step P s as)
    (hrun : run step s as = some t) : I t := by
  induction as generalizing s with
  | nil =>
    simp only [run_nil, Option.some.injEq] at hrun
    exact hrun ▸ hs
  | cons a as ih =>
    obtain ⟨s', hs', hrun'⟩ := run_cons.mp hrun
    exact ih (hstep s a s' hs hP.1 hs') (hP.2 s' hs') hrun'

/-- The invariant rule for runs without a condition on their steps. -/
theorem run_invariant {I : σ → Prop} (hstep : ∀ s a s', I s → step s a = some s' → I s')
    {as : List α} {s t : σ} (hs : I s) (hrun : run step s as = some t) : I t :=
  run_induction (P := fun _ _ => True) (fun s a s' hI _ h => hstep s a s' hI h) hs
    (eachStep_true s as) hrun

lemma outputs_cons {out : σ → σ → List β} {s s' : σ} {a : α} {as : List α}
    (hs' : step s a = some s') :
    outputs step out s (a :: as) = out s s' ++ outputs step out s' as := by
  simp only [outputs, hs']

/-- **The rule of a buffer.**  If in every step what goes out, followed by what is held then, is
what was held followed by what comes in, then so it is over a whole run. -/
theorem outputs_balance {P : σ → α → Prop} {I : σ → Prop} (out inp : σ → σ → List β)
    (held : σ → List β)
    (hstep : ∀ s a s', I s → P s a → step s a = some s' →
      I s' ∧ out s s' ++ held s' = held s ++ inp s s')
    {as : List α} {s t : σ} (hs : I s) (hP : EachStep step P s as)
    (hrun : run step s as = some t) :
    outputs step out s as ++ held t = held s ++ outputs step inp s as := by
  induction as generalizing s with
  | nil =>
    simp only [run_nil, Option.some.injEq] at hrun
    simp [outputs, hrun]
  | cons a as ih =>
    obtain ⟨s', hs', hrun'⟩ := run_cons.mp hrun
    obtain ⟨hI, hbalance⟩ := hstep s a s' hs hP.1 hs'
    have hrest := ih hI (hP.2 s' hs') hrun'
    rw [outputs_cons hs', outputs_cons hs', List.append_assoc, hrest, ← List.append_assoc, hbalance,
      List.append_assoc]

/-- **The rule of an account.**  When a step is paid for by what the balance `f` loses in it, `c` where
it meets `p`, and the balance gains at most `d`, where the step meets `q`, then so it is over a whole
run. -/
theorem account_of_run {P : σ → α → Prop} {I : σ → Prop} {p q : α → Bool} {f : σ → ℕ} {c d : ℕ}
    (hstep : ∀ s a s', I s → P s a → step s a = some s' →
      I s' ∧ f s' + (if p a then c else 0) ≤ f s + if q a then d else 0)
    {as : List α} {s t : σ} (hs : I s) (hP : EachStep step P s as)
    (hrun : run step s as = some t) : f t + c * as.countP p ≤ f s + d * as.countP q := by
  induction as generalizing s with
  | nil =>
    obtain rfl : s = t := by simpa using hrun
    simp
  | cons a as ih =>
    obtain ⟨s', hs', hrun'⟩ := run_cons.mp hrun
    obtain ⟨hI, hpaid⟩ := hstep s a s' hs hP.1 hs'
    have hrest := ih hI (hP.2 s' hs') hrun'
    cases hp : p a <;> cases hq : q a <;>
      simp [hp, hq, Nat.mul_add] at hpaid ⊢ <;> omega

/-- **The rule of a log.**  What every step extends by the entry of its action is the log of the
run. -/
theorem log_of_run {I : σ → Prop} {f : σ → List β} {g : α → Option β}
    (hstep : ∀ s a s', I s → step s a = some s' → I s' ∧ f s' = f s ++ (g a).toList)
    {as : List α} {s t : σ} (hs : I s) (hrun : run step s as = some t) :
    f t = f s ++ as.filterMap g := by
  induction as generalizing s with
  | nil =>
    obtain rfl : s = t := by simpa using hrun
    simp
  | cons a as ih =>
    obtain ⟨s', hs', hrun'⟩ := run_cons.mp hrun
    obtain ⟨hI, hlog⟩ := hstep s a s' hs hs'
    rw [ih hI hrun', hlog, List.append_assoc]
    cases hg : g a <;> simp [hg]

/-- `Always` speaks of the states after the first actions of the list. -/
lemma always_iff {Q : σ → Prop} {as : List α} {s : σ} :
    Always step Q s as ↔ ∀ pre post u, as = pre ++ post → run step s pre = some u → Q u := by
  induction as generalizing s with
  | nil =>
    constructor
    · intro h pre post u hcut hrun
      obtain ⟨rfl, -⟩ := List.append_eq_nil_iff.mp hcut.symm
      obtain rfl : s = u := by simpa using hrun
      exact h
    · intro h
      exact h [] [] s rfl rfl
  | cons a as ih =>
    constructor
    · rintro ⟨hs, hrest⟩ (_ | ⟨b, pre⟩) post u hcut hrun
      · obtain rfl : s = u := by simpa using hrun
        exact hs
      · simp only [List.cons_append, List.cons.injEq] at hcut
        obtain ⟨s', hs', hu⟩ := run_cons.mp hrun
        exact ih.mp (hrest s' (hcut.1 ▸ hs')) pre post u hcut.2 hu
    · intro h
      refine ⟨h [] (a :: as) s rfl rfl, fun s' hs' => ih.mpr ?_⟩
      intro pre post u hcut hrun
      exact h (a :: pre) post u (by rw [hcut, List.cons_append]) (run_cons.mpr ⟨s', hs', hrun⟩)

/-- When a step from a good state leads to a good state exactly if it meets `P`, a run stays
good exactly if all its steps meet `P`. -/
theorem always_iff_eachStep {P : σ → α → Prop} {I Q : σ → Prop}
    (hinv : ∀ s a s', I s → step s a = some s' → I s')
    (hiff : ∀ s a s', I s → Q s → step s a = some s' → (Q s' ↔ P s a))
    {as : List α} {s t : σ} (hI : I s) (hQ : Q s) (hrun : run step s as = some t) :
    Always step Q s as ↔ EachStep step P s as := by
  induction as generalizing s with
  | nil => exact ⟨fun _ => trivial, fun _ => hQ⟩
  | cons a as ih =>
    obtain ⟨s', hs', hrun'⟩ := run_cons.mp hrun
    have hfirst : ∀ s'', step s a = some s'' → s'' = s' := fun s'' h =>
      Option.some.inj (h.symm.trans hs')
    have hhead : Q s' ↔ P s a := hiff s a s' hI hQ hs'
    have htail : Q s' → (Always step Q s' as ↔ EachStep step P s' as) := fun hQ' =>
      ih (hinv s a s' hI hs') hQ' hrun'
    constructor
    · rintro ⟨-, hrest⟩
      have hall := hrest s' hs'
      have hQ' : Q s' := always_iff.mp hall [] as s' rfl rfl
      refine ⟨hhead.mp hQ', fun s'' hs'' => ?_⟩
      rw [hfirst s'' hs'']
      exact (htail hQ').mp hall
    · rintro ⟨hP, hrest⟩
      refine ⟨hQ, fun s'' hs'' => ?_⟩
      rw [hfirst s'' hs'']
      exact (htail (hhead.mpr hP)).mpr (hrest s' hs')

end FungiTransport.Lib
