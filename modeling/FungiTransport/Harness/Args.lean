import FungiTransport.Addr
import Mathlib.Data.List.Induction
import Mathlib.Data.List.Perm.Basic

/-!
# The command line of the harness

`parse_args` reads a subcommand and then options, each with its value, and at most one target, in
any order; of an option given twice it keeps the last value.  The loop is related to what the words
of a command line mean (`Args.Arg`): a line is accepted exactly when it is a list of such arguments
that the subcommand can do with.  The texts of onion addresses are targets, so that what one peer
prints is what the other one is started with.
-/

namespace FungiTransport

open Lib

/-- `Cmd` -/
inductive Cmd where
  | listen (virtPort : UInt16)
  | dial (target : OnionAddr)
deriving DecidableEq, Repr

/-- Parsed CLI. -/
structure Cli where
  cmd : Cmd
  privateNet : Option String
  stateDir : Option String
  plugin : String
deriving DecidableEq, Repr

namespace Args

/-- The options, each with a value. -/
inductive Opt where
  | privateNet
  | virtPort
  | stateDir
  | plugin
deriving DecidableEq, Repr

def Opt.flag : Opt → String
  | .privateNet => "--private-net"
  | .virtPort => "--virt-port"
  | .stateDir => "--state-dir"
  | .plugin => "--plugin"

/-- The error for an option without a value. -/
def Opt.needs : Opt → String
  | .privateNet => "--private-net needs a file"
  | .virtPort => "--virt-port needs a number"
  | .stateDir => "--state-dir needs a path"
  | .plugin => "--plugin needs a path"

/-- The option that a word is the flag of. -/
def Opt.ofFlag (word : String) : Option Opt :=
  [privateNet, virtPort, stateDir, plugin].find? fun o => o.flag = word

/-- What the loop of `parse_args` has seen. -/
structure Seen where
  privateNet : Option String
  virtPort : Option UInt16
  target : Option OnionAddr
  plugin : Option String
  stateDir : Option String
deriving DecidableEq, Repr

/-- `parse::<u16>()`, with its error as a text. -/
def parsePort (text : Text) : Except String UInt16 :=
  match parseUnsigned 65535 text with
  | some n => .ok (UInt16.ofNat n)
  | none => .error (unsignedError 65535 text).toString

/-- `host:port`, where the host may be empty. -/
def parseTarget (word : String) : Except String OnionAddr :=
  match rsplitOnce ':' word.toList with
  | none => .error "target must be host:port"
  | some (host, port) => (parsePort port).map fun port => OnionAddr.new (String.ofList host) port

/-- A word that begins with two hyphens. -/
def Dashed (word : String) : Prop := "--".toList <+: word.toList

instance (word : String) : Decidable (Dashed word) := by unfold Dashed; infer_instance

namespace Seen

/-- Nothing. -/
def none : Seen := ⟨.none, .none, .none, .none, .none⟩

/-- An option is given a value. -/
def set (seen : Seen) (value : String) : Opt → Except String Seen
  | .privateNet => .ok { seen with privateNet := some value }
  | .virtPort => (parsePort value.toList).map fun port => { seen with virtPort := some port }
  | .stateDir => .ok { seen with stateDir := some value }
  | .plugin => .ok { seen with plugin := some value }

/-- A word that is no flag is the target, if it is the first one and has no hyphens. -/
def setTarget (seen : Seen) (word : String) : Except String Seen :=
  if ¬ Dashed word ∧ seen.target.isNone then
    (parseTarget word).map fun target => { seen with target := some target }
  else .error s!"unknown argument {word}"

end Seen

/-- The loop of `parse_args`. -/
def parseLoop : Seen → List String → Except String Seen
  | seen, [] => .ok seen
  | seen, word :: words =>
    match Opt.ofFlag word with
    | some o =>
      match words with
      | [] => .error o.needs
      | value :: words => (seen.set value o).bind fun seen => parseLoop seen words
    | none => (seen.setTarget word).bind fun seen => parseLoop seen words

/-- What follows the loop. -/
def finish (word : String) (seen : Seen) : Except String Cli :=
  match seen.plugin with
  | none => .error "--plugin is required"
  | some plugin =>
    let cli (cmd : Cmd) : Cli := ⟨cmd, seen.privateNet, seen.stateDir, plugin⟩
    if word = "listen" then
      match seen.virtPort with
      | none => .error "listen needs --virt-port"
      | some port => .ok (cli (.listen port))
    else if word = "dial" then
      match seen.target with
      | none => .error "dial needs a host:port target"
      | some target => .ok (cli (.dial target))
    else .error s!"unknown subcommand {word}"

/-- `parse_args`; the first word is the program's own name. -/
def parseArgs (args : List String) : Except String Cli :=
  match args.drop 1 with
  | [] => .error "usage: fungi-harness listen|dial ..."
  | word :: words => (parseLoop .none words).bind (finish word)

example : parseArgs ["fungi-harness", "dial", "a:80", "--plugin", "p", "--plugin", "q"] =
    .ok ⟨.dial ⟨"a", 80⟩, none, none, "q"⟩ := by decide

/-! ## Words and arguments -/

/-- What stands on a command line: an option with its value, or a target. -/
inductive Arg where
  | option (o : Opt) (value : String)
  | target (word : String)
deriving DecidableEq, Repr

namespace Arg

def words : Arg → List String
  | option o value => [o.flag, value]
  | target word => [word]

/-- The value of an option. -/
def value? (o : Opt) : Arg → Option String
  | option o' value => if o' = o then some value else none
  | target _ => none

def isTarget : Arg → Bool
  | option _ _ => false
  | target _ => true

/-- It is no target that begins with hyphens. -/
def Plain : Arg → Prop
  | option _ _ => True
  | target word => ¬ Dashed word

end Arg

/-- The loop of `parse_args` over arguments. -/
def Seen.add (seen : Seen) : List Arg → Except String Seen
  | [] => .ok seen
  | .option o value :: args => (seen.set value o).bind fun seen => seen.add args
  | .target word :: args => (seen.setTarget word).bind fun seen => seen.add args

lemma ofFlag_flag (o : Opt) : Opt.ofFlag o.flag = some o := by
  cases o <;> decide

lemma eq_flag_of_ofFlag {word : String} {o : Opt} (h : Opt.ofFlag word = some o) :
    word = o.flag := by
  simpa [eq_comm] using List.find?_some h

lemma ofFlag_of_not_dashed {word : String} (h : ¬ Dashed word) : Opt.ofFlag word = none := by
  cases ho : Opt.ofFlag word with
  | none => rfl
  | some o =>
    obtain rfl := eq_flag_of_ofFlag ho
    exact absurd (by cases o <;> decide) h

lemma parseLoop_words {args : List Arg} (h : ∀ a ∈ args, a.Plain) (seen : Seen) :
    parseLoop seen (args.flatMap Arg.words) = seen.add args := by
  induction args generalizing seen with
  | nil => rfl
  | cons a args ih =>
    have hrest := ih fun b hb => h b (List.mem_cons_of_mem _ hb)
    cases a with
    | option o value =>
      simp only [List.flatMap_cons, Arg.words, List.cons_append, List.nil_append, parseLoop,
        ofFlag_flag, Seen.add, hrest]
    | target word =>
      simp only [List.flatMap_cons, Arg.words, List.cons_append, List.nil_append, parseLoop,
        ofFlag_of_not_dashed (h (.target word) List.mem_cons_self), Seen.add, hrest]

lemma bind_eq_ok {α β : Type} {x : Except String α} {f : α → Except String β} {b : β} :
    x.bind f = .ok b ↔ ∃ a, x = .ok a ∧ f a = .ok b := by
  cases x <;> simp [Except.bind]

lemma toOption_eq_some {α : Type} {x : Except String α} {a : α} :
    x.toOption = some a ↔ x = .ok a := by
  cases x <;> simp [Except.toOption]

/-- What the loop accepts are the words of arguments. -/
lemma exists_args {seen seen' : Seen} {words : List String}
    (h : parseLoop seen words = .ok seen') :
    ∃ args : List Arg, words = args.flatMap Arg.words ∧ ∀ a ∈ args, a.Plain := by
  fun_induction parseLoop seen words with
  | case1 => exact ⟨[], rfl, by simp⟩
  | case2 => cases h
  | case3 seen word o ho value words ih =>
    obtain ⟨seen₁, -, hrest⟩ := bind_eq_ok.mp h
    obtain ⟨args, rfl, hargs⟩ := ih seen₁ hrest
    obtain rfl := eq_flag_of_ofFlag ho
    exact ⟨.option o value :: args, rfl, by simpa [Arg.Plain] using hargs⟩
  | case4 seen word words ho ih =>
    obtain ⟨seen₁, hset, hrest⟩ := bind_eq_ok.mp h
    obtain ⟨args, rfl, hargs⟩ := ih seen₁ hrest
    have hplain : ¬ Dashed word := by
      intro hdashed
      simp [Seen.setTarget, hdashed] at hset
    exact ⟨.target word :: args, rfl, by simpa [Arg.Plain, hplain] using hargs⟩

/-! ## What arguments come to -/

/-- The texts of a target: its host, which may be empty, a colon, and behind this last colon a
number that is the port. -/
def IsTarget (word : String) (a : OnionAddr) : Prop :=
  ∃ portText : Text, word.toList = a.host.toList ++ ':' :: portText ∧ ':' ∉ portText ∧
    Denotes portText a.port.toNat

lemma parsePort_eq_ok {text : Text} {port : UInt16} :
    parsePort text = .ok port ↔ Denotes text port.toNat := by
  unfold parsePort
  have hmax := port.toNat_lt
  constructor
  · intro h
    split at h
    · rename_i n hn
      obtain rfl := Except.ok.inj h
      obtain ⟨hdenotes, hle⟩ := parseUnsigned_eq_some.mp hn
      have hvalue : (UInt16.ofNat n).toNat = n := by
        rw [UInt16.toNat_ofNat']
        omega
      rwa [hvalue]
    · cases h
  · intro h
    rw [parseUnsigned_eq_some.mpr ⟨h, by omega⟩]
    simp

lemma parseTarget_eq_ok {word : String} {a : OnionAddr} :
    parseTarget word = .ok a ↔ IsTarget word a := by
  unfold parseTarget
  constructor
  · intro h
    split at h
    · cases h
    · rename_i host port hcut
      obtain ⟨hword, hcolon⟩ := rsplitOnce_eq_some.mp hcut
      cases hport : parsePort port with
      | error e =>
        rw [hport] at h
        cases h
      | ok n =>
        rw [hport] at h
        obtain rfl := Except.ok.inj h
        exact ⟨port, by simpa [OnionAddr.new] using hword, hcolon, parsePort_eq_ok.mp hport⟩
  · rintro ⟨portText, hword, hcolon, hport⟩
    rw [rsplitOnce_eq_some.mpr ⟨hword, hcolon⟩]
    simp [parsePort_eq_ok.mpr hport, Except.map, OnionAddr.new]

/-- The last of what arguments give, or else what there was. -/
def lastOr {β : Type} (f : Arg → Option β) (args : List Arg) (x : Option β) : Option β :=
  (args.filterMap f).getLast?.or x

lemma lastOr_nil {β : Type} (f : Arg → Option β) (x : Option β) : lastOr f [] x = x := by
  simp [lastOr]

lemma lastOr_cons {β : Type} (f : Arg → Option β) (a : Arg) (args : List Arg) (x : Option β) :
    lastOr f (a :: args) x = lastOr f args ((f a).or x) := by
  unfold lastOr
  cases hf : f a with
  | none => rw [List.filterMap_cons_none hf, Option.none_or]
  | some b =>
    rw [List.filterMap_cons_some hf, List.getLast?_cons]
    cases (args.filterMap f).getLast? <;> rfl

namespace Arg

/-- The port that a value of `--virt-port` is. -/
def port? (a : Arg) : Option UInt16 :=
  (a.value? .virtPort).bind fun value => (parsePort value.toList).toOption

/-- The address that a target is. -/
def address? : Arg → Option OnionAddr
  | option _ _ => none
  | target word => (parseTarget word).toOption

end Arg

/-- What has been seen behind arguments. -/
def Seen.after (seen : Seen) (args : List Arg) : Seen where
  privateNet := lastOr (Arg.value? .privateNet) args seen.privateNet
  virtPort := lastOr Arg.port? args seen.virtPort
  target := lastOr Arg.address? args seen.target
  plugin := lastOr (Arg.value? .plugin) args seen.plugin
  stateDir := lastOr (Arg.value? .stateDir) args seen.stateDir

/-- Arguments that can be read: ports are ports, targets are targets, and there is one at most. -/
structure Fits (seen : Seen) (args : List Arg) : Prop where
  ports : ∀ value, .option .virtPort value ∈ args → ∃ port : UInt16, Denotes value.toList port.toNat
  targets : ∀ word, .target word ∈ args → ¬ Dashed word ∧ ∃ a, IsTarget word a
  once : seen.target.toList.length + args.countP Arg.isTarget ≤ 1

lemma after_nil (seen : Seen) : seen.after [] = seen := by
  simp [Seen.after, lastOr_nil]

lemma after_cons (seen : Seen) (a : Arg) (args : List Arg) :
    seen.after (a :: args) = (seen.after [a]).after args := by
  simp [Seen.after, lastOr_cons, lastOr_nil]

lemma fits_nil (seen : Seen) : Fits seen [] :=
  ⟨by simp, by simp, by cases seen.target <;> simp⟩

lemma add_cons {seen seen' : Seen} {a : Arg} {args : List Arg} :
    seen.add (a :: args) = .ok seen' ↔
      ∃ seen₁, seen.add [a] = .ok seen₁ ∧ seen₁.add args = .ok seen' := by
  cases a <;> simp [Seen.add, bind_eq_ok]

lemma fits_option {seen : Seen} {o : Opt} {value : String} :
    Fits seen [.option o value] ↔
      (o = .virtPort → ∃ port : UInt16, Denotes value.toList port.toNat) := by
  constructor
  · rintro h rfl
    exact h.ports value (by simp)
  · intro h
    refine ⟨fun v hv => ?_, by simp, ?_⟩
    · obtain ⟨rfl, rfl⟩ : Opt.virtPort = o ∧ v = value := by simpa using hv
      exact h rfl
    · cases seen.target <;> simp [Arg.isTarget]

lemma fits_target {seen : Seen} {word : String} :
    Fits seen [.target word] ↔
      seen.target = none ∧ ¬ Dashed word ∧ ∃ a, IsTarget word a := by
  constructor
  · intro h
    have honce := h.once
    refine ⟨?_, h.targets word (by simp)⟩
    cases htarget : seen.target with
    | none => rfl
    | some a => simp [htarget, Arg.isTarget] at honce
  · rintro ⟨hnone, hword⟩
    refine ⟨by simp, fun w hw => ?_, by simp [hnone, Arg.isTarget]⟩
    obtain rfl : w = word := by simpa using hw
    exact hword

/-- One argument. -/
lemma add_singleton {seen seen' : Seen} {a : Arg} :
    seen.add [a] = .ok seen' ↔ Fits seen [a] ∧ seen' = seen.after [a] := by
  cases a with
  | option o value =>
    rw [fits_option, after_cons, after_nil]
    cases o with
    | virtPort =>
      cases hport : parsePort value.toList with
      | error e =>
        refine iff_of_false (by simp [Seen.add, Seen.set, hport, Except.map, Except.bind]) ?_
        rintro ⟨h, -⟩
        obtain ⟨port, hport'⟩ := h rfl
        rw [parsePort_eq_ok.mpr hport'] at hport
        cases hport
      | ok port =>
        have hvalue : ∃ port : UInt16, Denotes value.toList port.toNat :=
          ⟨port, parsePort_eq_ok.mp hport⟩
        simp [Seen.add, Seen.set, hport, Except.map, Except.bind, hvalue, Seen.after, lastOr,
          Arg.value?, Arg.port?, Arg.address?, Except.toOption, eq_comm]
    | privateNet | stateDir | plugin =>
      simp [Seen.add, Seen.set, Except.bind, Seen.after, lastOr, Arg.value?, Arg.port?,
        Arg.address?, eq_comm]
  | target word =>
    rw [fits_target, after_cons, after_nil]
    by_cases hfirst : ¬ Dashed word ∧ seen.target.isNone
    · obtain ⟨hplain, hnone⟩ := hfirst
      rw [Option.isNone_iff_eq_none] at hnone
      cases htarget : parseTarget word with
      | error e =>
        refine iff_of_false
          (by simp [Seen.add, Seen.setTarget, hplain, hnone, htarget, Except.map, Except.bind]) ?_
        rintro ⟨⟨-, -, a, ha⟩, -⟩
        rw [parseTarget_eq_ok.mpr ha] at htarget
        cases htarget
      | ok a =>
        have hword : ∃ a, IsTarget word a := ⟨a, parseTarget_eq_ok.mp htarget⟩
        simp [Seen.add, Seen.setTarget, hplain, hnone, htarget, Except.map, Except.bind, hword,
          Seen.after, lastOr, Arg.value?, Arg.port?, Arg.address?, Except.toOption, eq_comm]
    · have hrefused : seen.setTarget word = .error s!"unknown argument {word}" := if_neg hfirst
      refine iff_of_false (by simp [Seen.add, hrefused, Except.bind]) ?_
      rintro ⟨⟨hnone, hplain, -⟩, -⟩
      exact hfirst ⟨hplain, by simp [hnone]⟩

lemma countP_option (o : Opt) (value : String) (args : List Arg) :
    (.option o value :: args : List Arg).countP Arg.isTarget = args.countP Arg.isTarget :=
  List.countP_cons_of_neg (by simp [Arg.isTarget])

lemma countP_target (word : String) (args : List Arg) :
    (.target word :: args : List Arg).countP Arg.isTarget = args.countP Arg.isTarget + 1 :=
  List.countP_cons_of_pos rfl

lemma fits_cons {seen : Seen} {a : Arg} {args : List Arg} :
    Fits seen (a :: args) ↔ Fits seen [a] ∧ Fits (seen.after [a]) args := by
  cases a with
  | option o value =>
    have htarget : (seen.after [.option o value]).target = seen.target := by
      simp [Seen.after, lastOr, Arg.address?]
    rw [fits_option]
    constructor
    · intro h
      refine ⟨fun ho => h.ports value (by simp [ho]), fun v hv => h.ports v (by simp [hv]),
        fun w hw => h.targets w (by simp [hw]), ?_⟩
      rw [htarget, ← countP_option o value]
      exact h.once
    · rintro ⟨hone, h⟩
      refine ⟨fun v hv => ?_, fun w hw => h.targets w (by simpa using hw), ?_⟩
      · rcases List.mem_cons.mp hv with hv | hv
        · obtain ⟨rfl, rfl⟩ : Opt.virtPort = o ∧ v = value := by simpa using hv
          exact hone rfl
        · exact h.ports v hv
      · rw [countP_option, ← htarget]
        exact h.once
  | target word =>
    rw [fits_target]
    constructor
    · intro h
      have honce := h.once
      rw [countP_target] at honce
      have hcount : seen.target = none ∧ args.countP Arg.isTarget = 0 := by
        cases htarget : seen.target with
        | none =>
          rw [htarget, Option.toList_none, List.length_nil] at honce
          exact ⟨rfl, by omega⟩
        | some a =>
          rw [htarget, Option.toList_some, List.length_singleton] at honce
          omega
      refine ⟨⟨hcount.1, h.targets word (by simp)⟩, fun v hv => h.ports v (by simp [hv]),
        fun w hw => h.targets w (by simp [hw]), ?_⟩
      rw [hcount.2]
      cases (seen.after [.target word]).target <;> simp
    · rintro ⟨⟨hnone, hplain, a, ha⟩, h⟩
      have htarget : (seen.after [.target word]).target = some a := by
        simp [Seen.after, lastOr, Arg.address?, parseTarget_eq_ok.mpr ha, Except.toOption]
      have honce := h.once
      rw [htarget, Option.toList_some, List.length_singleton] at honce
      refine ⟨fun v hv => h.ports v (by simpa using hv), fun w hw => ?_, ?_⟩
      · rcases List.mem_cons.mp hw with hw | hw
        · obtain rfl : w = word := by simpa using hw
          exact ⟨hplain, a, ha⟩
        · exact h.targets w hw
      · rw [hnone, countP_target, Option.toList_none, List.length_nil]
        omega

/-- **The loop reads arguments.** -/
lemma add_eq_ok {seen seen' : Seen} {args : List Arg} :
    seen.add args = .ok seen' ↔ Fits seen args ∧ seen' = seen.after args := by
  induction args generalizing seen with
  | nil => simp [Seen.add, fits_nil, after_nil, eq_comm]
  | cons a args ih =>
    rw [add_cons, after_cons, fits_cons]
    constructor
    · rintro ⟨seen₁, hone, hrest⟩
      obtain ⟨hfits, rfl⟩ := add_singleton.mp hone
      obtain ⟨hfits', rfl⟩ := ih.mp hrest
      exact ⟨⟨hfits, hfits'⟩, rfl⟩
    · rintro ⟨⟨hfits, hfits'⟩, rfl⟩
      exact ⟨_, add_singleton.mpr ⟨hfits, rfl⟩, ih.mpr ⟨hfits', rfl⟩⟩

/-! ## What a command line means -/

/-- The value of an option that counts: the last one. -/
def last (o : Opt) (args : List Arg) : Option String :=
  (args.filterMap (Arg.value? o)).getLast?

/-- What a subcommand and its arguments mean. -/
structure Means (word : String) (args : List Arg) (cli : Cli) : Prop where
  fits : Fits .none args
  plugin : last .plugin args = some cli.plugin
  privateNet : last .privateNet args = cli.privateNet
  stateDir : last .stateDir args = cli.stateDir
  cmd :
    (word = "listen" ∧ ∃ value port, last .virtPort args = some value ∧
      Denotes value.toList (UInt16.toNat port) ∧ cli.cmd = .listen port) ∨
    (word = "dial" ∧ ∃ text a, .target text ∈ args ∧ IsTarget text a ∧ cli.cmd = .dial a)

lemma plain_of_fits {seen : Seen} {args : List Arg} (h : Fits seen args) :
    ∀ a ∈ args, a.Plain := by
  intro a ha
  cases a with
  | option o value => trivial
  | target word => exact (h.targets word ha).1

lemma getLast?_filterMap {α β : Type} {f : α → Option β} {l : List α}
    (h : ∀ a ∈ l, (f a).isSome) : (l.filterMap f).getLast? = l.getLast?.bind f := by
  induction l using List.reverseRecOn with
  | nil => rfl
  | append_singleton l a _ =>
    obtain ⟨b, hb⟩ := Option.isSome_iff_exists.mp (h a (by simp))
    simp [List.filterMap_append, hb]

/-- Ports that can be read: the last one read is the last one given. -/
lemma lastOr_port {seen : Seen} {args : List Arg} (h : Fits seen args) :
    lastOr Arg.port? args none =
      (last .virtPort args).bind fun value => (parsePort value.toList).toOption := by
  have hsplit : args.filterMap Arg.port? = (args.filterMap (Arg.value? .virtPort)).filterMap
      fun value => (parsePort value.toList).toOption := by
    rw [List.filterMap_filterMap]
    rfl
  rw [lastOr, Option.or_none, hsplit, last]
  refine getLast?_filterMap fun value hvalue => ?_
  obtain ⟨a, ha, hvalue⟩ := List.mem_filterMap.mp hvalue
  cases a with
  | target word => cases hvalue
  | option o v =>
    obtain ⟨rfl, rfl⟩ : o = .virtPort ∧ v = value := by simpa [Arg.value?] using hvalue
    obtain ⟨port, hport⟩ := h.ports v ha
    rw [parsePort_eq_ok.mpr hport]
    rfl

/-- There is one target at most: the last one read is the one given. -/
lemma lastOr_address {seen : Seen} {args : List Arg} (h : Fits seen args) {a : OnionAddr} :
    lastOr Arg.address? args none = some a ↔ ∃ text, .target text ∈ args ∧ IsTarget text a := by
  have hmem : a ∈ args.filterMap Arg.address? ↔ ∃ text, .target text ∈ args ∧ IsTarget text a := by
    rw [List.mem_filterMap]
    constructor
    · rintro ⟨b, hb, haddress⟩
      cases b with
      | option o value => cases haddress
      | target text =>
        cases htarget : parseTarget text with
        | error e => simp [Arg.address?, htarget, Except.toOption] at haddress
        | ok a' =>
          obtain rfl : a' = a := by simpa [Arg.address?, htarget, Except.toOption] using haddress
          exact ⟨text, hb, parseTarget_eq_ok.mp htarget⟩
    · rintro ⟨text, htext, ha⟩
      exact ⟨.target text, htext, by simp [Arg.address?, parseTarget_eq_ok.mpr ha, Except.toOption]⟩
  have hlength : (args.filterMap Arg.address?).length ≤ 1 := by
    have honce := h.once
    rw [List.length_filterMap_eq_countP]
    refine Nat.le_trans (List.countP_mono_left (q := Arg.isTarget) fun b _ hb => ?_) (by omega)
    cases b with
    | option o value => cases hb
    | target text => rfl
  rw [lastOr, Option.or_none, ← hmem]
  match hlist : args.filterMap Arg.address? with
  | [] => simp
  | [b] => simp [eq_comm]
  | b :: c :: l => simp [hlist] at hlength

lemma after_option (args : List Arg) :
    (Seen.none.after args).plugin = last .plugin args ∧
    (Seen.none.after args).privateNet = last .privateNet args ∧
    (Seen.none.after args).stateDir = last .stateDir args := by
  simp [Seen.after, Seen.none, lastOr, last]

/-- What `finish` makes of what has been seen is what the arguments mean. -/
lemma finish_eq_ok {word : String} {args : List Arg} {cli : Cli} (h : Fits .none args) :
    finish word (Seen.none.after args) = .ok cli ↔ Means word args cli := by
  obtain ⟨hplugin, hnet, hdir⟩ := after_option args
  have hport : (Seen.none.after args).virtPort = _ := lastOr_port h
  have htarget : ∀ a, (Seen.none.after args).target = some a ↔ _ := fun a => lastOr_address h
  unfold finish
  rw [hplugin, hnet, hdir, hport]
  constructor
  · intro hok
    split at hok
    · cases hok
    · rename_i plugin hgiven
      dsimp only at hok
      split at hok
      · rename_i hword
        split at hok
        · cases hok
        · rename_i port hread
          obtain ⟨value, hvalue, hread⟩ := Option.bind_eq_some_iff.mp hread
          obtain rfl := Except.ok.inj hok
          refine ⟨h, hgiven, rfl, rfl, .inl ⟨hword, value, port, hvalue, ?_, rfl⟩⟩
          exact parsePort_eq_ok.mp (toOption_eq_some.mp hread)
      · split at hok
        · rename_i hword
          split at hok
          · cases hok
          · rename_i a hread
            obtain ⟨text, htext, ha⟩ := (htarget a).mp hread
            obtain rfl := Except.ok.inj hok
            exact ⟨h, hgiven, rfl, rfl, .inr ⟨hword, text, a, htext, ha, rfl⟩⟩
        · cases hok
  · obtain ⟨cmd, net, dir, plugin⟩ := cli
    rintro ⟨-, hplugin', hnet', hdir', ⟨rfl, value, port, hvalue, hden, hcmd⟩ |
      ⟨rfl, text, a, htext, ha, hcmd⟩⟩
    · dsimp only at hplugin' hnet' hdir' hcmd
      rw [hplugin', hnet', hdir', hvalue, Option.bind_some, parsePort_eq_ok.mpr hden, hcmd]
      rfl
    · dsimp only at hplugin' hnet' hdir' hcmd
      rw [hplugin', hnet', hdir', (htarget a).mpr ⟨text, htext, ha⟩, hcmd]
      rfl

lemma parseArgs_words {exe word : String} {args : List Arg} {cli : Cli}
    (h : ∀ a ∈ args, a.Plain) :
    parseArgs (exe :: word :: args.flatMap Arg.words) = .ok cli ↔ Means word args cli := by
  simp only [parseArgs, List.drop_succ_cons, List.drop_zero, parseLoop_words h]
  rw [bind_eq_ok]
  constructor
  · rintro ⟨seen, hadd, hfinish⟩
    obtain ⟨hfits, rfl⟩ := add_eq_ok.mp hadd
    exact (finish_eq_ok hfits).mp hfinish
  · intro hmeans
    exact ⟨_, add_eq_ok.mpr ⟨hmeans.fits, rfl⟩, (finish_eq_ok hmeans.fits).mpr hmeans⟩

/-- A line that is accepted has a program name and a subcommand. -/
lemma parseArgs_eq_ok {line : List String} {cli : Cli} : parseArgs line = .ok cli ↔
    ∃ (exe word : String) (args : List Arg),
      line = exe :: word :: args.flatMap Arg.words ∧ Means word args cli := by
  constructor
  · intro h
    match line with
    | [] | [_] => simp [parseArgs] at h
    | exe :: word :: words =>
      obtain ⟨seen, hloop, -⟩ := bind_eq_ok.mp h
      obtain ⟨args, rfl, hplain⟩ := exists_args hloop
      exact ⟨exe, word, args, rfl, (parseArgs_words hplain).mp h⟩
  · rintro ⟨exe, word, args, rfl, hmeans⟩
    exact (parseArgs_words (plain_of_fits hmeans.fits)).mpr hmeans

/-! ## Command lines as they are written -/

/-- The subcommand. -/
def subcommand (cli : Cli) : String :=
  match cli.cmd with
  | .listen _ => "listen"
  | .dial _ => "dial"

/-- One way to say the rest: the target last, as the listening peer prints it. -/
def ofCli (cli : Cli) : List Arg :=
  .option .plugin cli.plugin ::
    (cli.privateNet.toList.map (.option .privateNet) ++
      cli.stateDir.toList.map (.option .stateDir) ++
        match cli.cmd with
        | .listen port => [.option .virtPort (String.ofList (printUnsigned port.toNat))]
        | .dial target => [.target target.toString])

lemma isTarget_toString (a : OnionAddr) : IsTarget a.toString a :=
  ⟨_, OnionAddr.toList_toString a, OnionAddr.colon_not_mem_printUnsigned _, denotes_printUnsigned _⟩

lemma dashed_toString {a : OnionAddr} (h : Dashed a.toString) : Dashed a.host := by
  unfold Dashed at h ⊢
  rw [OnionAddr.toList_toString] at h
  generalize a.host.toList = host at h ⊢
  match host with
  | [] => simp at h
  | [c] => simp at h
  | c :: d :: rest => simpa using h

lemma means_ofCli {cli : Cli} (h : ∀ a, cli.cmd = .dial a → ¬ Dashed a.host) :
    Means (subcommand cli) (ofCli cli) cli := by
  obtain ⟨cmd, net, dir, plugin⟩ := cli
  cases cmd with
  | listen port =>
    have hport : Denotes (String.ofList (printUnsigned port.toNat)).toList port.toNat := by
      simpa using denotes_printUnsigned port.toNat
    refine ⟨⟨fun value hvalue => ?_, ?_, ?_⟩, ?_, ?_, ?_, .inl ⟨rfl, _, port, ?_, hport, rfl⟩⟩
    · obtain rfl : value = String.ofList (printUnsigned port.toNat) := by
        simpa [ofCli] using hvalue
      exact ⟨port, hport⟩
    all_goals
      cases net <;> cases dir <;> simp [ofCli, last, Arg.value?, Arg.isTarget, Seen.none]
  | dial target =>
    have hplain : ¬ Dashed target.toString := fun hdashed => h target rfl (dashed_toString hdashed)
    refine ⟨⟨?_, fun text htext => ?_, ?_⟩, ?_, ?_, ?_,
      .inr ⟨rfl, _, target, ?_, isTarget_toString target, rfl⟩⟩
    rotate_left
    · obtain rfl : text = target.toString := by simpa [ofCli] using htext
      exact ⟨hplain, target, isTarget_toString target⟩
    all_goals
      cases net <;> cases dir <;>
        simp [ofCli, last, List.filterMap_cons, Arg.value?, Arg.isTarget, Seen.none]

/-! ## The order of arguments -/

lemma eq_of_perm {α : Type} {l l' : List α} (h : l.Perm l') (hlength : l.length ≤ 1) : l = l' := by
  match l with
  | [] => exact (List.nil_perm.mp h).symm
  | [a] => exact (List.perm_singleton.mp h.symm).symm
  | a :: b :: l => simp at hlength

lemma means_perm {word : String} {args args' : List Arg} {cli : Cli} (h : args.Perm args')
    (honce : ∀ o, (args.filterMap (Arg.value? o)).length ≤ 1) (hmeans : Means word args cli) :
    Means word args' cli := by
  have hlast (o : Opt) : last o args' = last o args := by
    rw [last, last, eq_of_perm (h.filterMap _) (honce o)]
  have hfits := hmeans.fits
  refine ⟨⟨?_, ?_, ?_⟩, ?_, ?_, ?_, ?_⟩
  · exact fun value hvalue => hfits.ports value (h.mem_iff.mpr hvalue)
  · exact fun text htext => hfits.targets text (h.mem_iff.mpr htext)
  · rw [← h.countP_eq]
    exact hfits.once
  · rw [hlast, hmeans.plugin]
  · rw [hlast, hmeans.privateNet]
  · rw [hlast, hmeans.stateDir]
  · simpa only [hlast, ← h.mem_iff] using hmeans.cmd

/-- **The command line.**  A line is accepted exactly when it is the program's name, a subcommand
and then arguments that mean something to it: options and at most one target, in any order; and the
result is what they mean.  Every `Cli` whose target does not begin with hyphens is what some line
means, the target being written as the listening peer prints its address.  Arguments without a
repeated option mean the same in every order. -/
theorem parse_args_exact :
    (∀ line cli, parseArgs line = .ok cli ↔ ∃ (exe word : String) (args : List Arg),
      line = exe :: word :: args.flatMap Arg.words ∧ Means word args cli) ∧
    (∀ exe cli, (∀ a, cli.cmd = .dial a → ¬ Dashed a.host) →
      parseArgs (exe :: subcommand cli :: (ofCli cli).flatMap Arg.words) = .ok cli) ∧
    (∀ exe word cli (args args' : List Arg), (∀ a ∈ args, a.Plain) → args.Perm args' →
      (∀ o, (args.filterMap (Arg.value? o)).length ≤ 1) →
      (parseArgs (exe :: word :: args.flatMap Arg.words) = .ok cli ↔
        parseArgs (exe :: word :: args'.flatMap Arg.words) = .ok cli)) := by
  refine ⟨fun line cli => parseArgs_eq_ok, fun exe cli h => ?_,
    fun exe word cli args args' hplain hperm honce => ?_⟩
  · have hmeans := means_ofCli h
    exact (parseArgs_words (plain_of_fits hmeans.fits)).mpr hmeans
  · have hplain' : ∀ a ∈ args', a.Plain := fun a ha => hplain a (hperm.mem_iff.mpr ha)
    have honce' (o : Opt) : (args'.filterMap (Arg.value? o)).length ≤ 1 := by
      rw [← (hperm.filterMap _).length_eq]
      exact honce o
    rw [parseArgs_words hplain, parseArgs_words hplain']
    exact ⟨means_perm hperm honce, means_perm hperm.symm honce'⟩

end Args

end FungiTransport
