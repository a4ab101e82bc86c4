import FungiTransport.Arti.PrivateNet
import FungiTransport.Lib.Fields
import Mathlib.Data.List.Forall2
import Mathlib.Logic.Relation
import Mathlib.Tactic.Common

/-!
# The grammar of a descriptor

What `PrivateNet.parse` accepts, stated over the lines of the text: blank lines and comments
are skipped, every other line is an entry, and the descriptor lists the entries of each kind in
line order.
-/

namespace FungiTransport

open Lib

namespace PrivateNet

/-- What one line of a descriptor stands for. -/
inductive Entry
  | authority (a : Authority)
  | fallback (f : Fallback)
deriving DecidableEq, Repr

def Entry.authority? : Entry → Option Authority
  | .authority a => some a
  | .fallback _ => none

def Entry.fallback? : Entry → Option Fallback
  | .authority _ => none
  | .fallback f => some f

/-- The fields of an entry, as they stand on its line. -/
def Entry.fields : Entry → List Text
  | .authority a => ["authority".toList, a.name, a.v3ident]
  | .fallback f => ["fallback".toList, f.rsa, f.ed, f.orport]

/-- The identity of an authority is in hex. -/
def Entry.Valid : Entry → Prop
  | .authority a => ∀ c ∈ a.v3ident, isAsciiHexdigit c = true
  | .fallback _ => True

instance : DecidablePred Entry.Valid
  | .authority a => List.decidableBAll (fun c => isAsciiHexdigit c = true) a.v3ident
  | .fallback _ => inferInstanceAs (Decidable True)

/-- A blank line or a comment. -/
def Skipped (line : Text) : Prop := trim line = [] ∨ (trim line).head? = some '#'

instance : DecidablePred Skipped := fun line =>
  inferInstanceAs (Decidable (trim line = [] ∨ (trim line).head? = some '#'))

/-- The line splits into the fields of the entry. -/
def IsEntry (line : Text) (e : Entry) : Prop := splitWhitespace line = e.fields ∧ e.Valid

/-- A line that is neither skipped nor an entry. -/
def Violates (line : Text) : Prop := ¬ Skipped line ∧ ∀ e, ¬ IsEntry line e

/-- The lines that are not skipped are the entries `es`, in this order. -/
def Describes (text : Text) (es : List Entry) : Prop :=
  List.Forall₂ IsEntry ((lines text).filter fun line => ¬ Skipped line) es

/-- The descriptor that lists the entries. -/
def ofEntries (es : List Entry) : PrivateNet :=
  ⟨es.filterMap Entry.authority?, es.filterMap Entry.fallback?⟩

/-! ## One line -/

def add (net : PrivateNet) : Entry → PrivateNet
  | .authority a => { net with authorities := net.authorities ++ [a] }
  | .fallback f => { net with fallbacks := net.fallbacks ++ [f] }

lemma parseLine_skipped {line : Text} (h : Skipped line) (n : ℕ) (net : PrivateNet) :
    parseLine n line net = .ok net := if_pos h

/-- An error that names the line behind `n` others. -/
def blame (n : ℕ) (why : String) : String := s!"line {n + 1}: {why}"

lemma blame_notHex (n : ℕ) :
    s!"line {n + 1}: v3ident is not hex" = blame n "v3ident is not hex" := by
  have h : ": v3ident is not hex" = ": " ++ "v3ident is not hex" := rfl
  rw [h]
  exact (String.append_assoc ..).symm

lemma blame_unrecognized (n : ℕ) :
    s!"line {n + 1}: unrecognized directive" = blame n "unrecognized directive" := by
  have h : ": unrecognized directive" = ": " ++ "unrecognized directive" := rfl
  rw [h]
  exact (String.append_assoc ..).symm

/-- What the fields of a line make of it. -/
def parseFields (n : ℕ) (net : PrivateNet) : List Text → Except String PrivateNet
  | [directive, name, v3ident] =>
    if directive = "authority".toList then
      if v3ident.all isAsciiHexdigit then .ok (net.add (.authority ⟨name, v3ident⟩))
      else .error s!"line {n + 1}: v3ident is not hex"
    else .error s!"line {n + 1}: unrecognized directive"
  | [directive, rsa, ed, orport] =>
    if directive = "fallback".toList then .ok (net.add (.fallback ⟨rsa, ed, orport⟩))
    else .error s!"line {n + 1}: unrecognized directive"
  | _ => .error s!"line {n + 1}: unrecognized directive"

lemma parseLine_eq_parseFields {line : Text} (h : ¬ Skipped line) (n : ℕ) (net : PrivateNet) :
    parseLine n line net = parseFields n net (splitWhitespace line) := by
  have hline : ¬ (trim line = [] ∨ (trim line).head? = some '#') := h
  simp only [parseLine, if_neg hline, splitWhitespace_trim]
  rfl

lemma parseFields_entry {e : Entry} (h : e.Valid) (n : ℕ) (net : PrivateNet) :
    parseFields n net e.fields = .ok (net.add e) := by
  cases e with
  | authority a =>
    have hhex : a.v3ident.all isAsciiHexdigit = true := List.all_eq_true.mpr h
    simp only [Entry.fields, parseFields, if_pos, hhex]
  | fallback f => simp only [Entry.fields, parseFields, if_pos]

/-- A list of fields is that of an entry, or it is blamed on its line. -/
lemma parseFields_cases (n : ℕ) (net : PrivateNet) (fields : List Text) :
    (∃ e : Entry, fields = e.fields ∧ e.Valid) ∨
      ∃ why , parseFields n net fields = .error (blame n why) := by
  rw [parseFields.eq_def, blame_notHex, blame_unrecognized]
  split
  · rename_i directive name v3ident
    split
    · rename_i hdir
      split
      · rename_i hhex
        exact .inl ⟨.authority ⟨name, v3ident⟩, by rw [hdir]; rfl, List.all_eq_true.mp hhex⟩
      · exact .inr ⟨"v3ident is not hex", rfl⟩
    · exact .inr ⟨"unrecognized directive", rfl⟩
  · rename_i directive rsa ed orport
    split
    · rename_i hdir
      exact .inl ⟨.fallback ⟨rsa, ed, orport⟩, by rw [hdir]; rfl, trivial⟩
    · exact .inr ⟨"unrecognized directive", rfl⟩
  · exact .inr ⟨"unrecognized directive", rfl⟩

lemma parseLine_isEntry {line : Text} {e : Entry} (hs : ¬ Skipped line) (he : IsEntry line e)
    (n : ℕ) (net : PrivateNet) : parseLine n line net = .ok (net.add e) := by
  rw [parseLine_eq_parseFields hs, he.1, parseFields_entry he.2]

lemma parseLine_violates {line : Text} (h : Violates line) (n : ℕ) (net : PrivateNet) :
    ∃ why, parseLine n line net = .error (blame n why) := by
  obtain ⟨hs, hnone⟩ := h
  rw [parseLine_eq_parseFields hs]
  rcases parseFields_cases n net (splitWhitespace line) with ⟨e, he⟩ | hwhy
  · exact absurd he (hnone e)
  · exact hwhy

/-- A line is skipped, an entry, or a violation. -/
lemma line_cases (line : Text) :
    Skipped line ∨ (¬ Skipped line ∧ ∃ e, IsEntry line e) ∨ Violates line := by
  by_cases hs : Skipped line
  · exact .inl hs
  · by_cases he : ∃ e, IsEntry line e
    · exact .inr (.inl ⟨hs, he⟩)
    · exact .inr (.inr ⟨hs, not_exists.mp he⟩)

/-! ## All lines -/

lemma foldl_add (net : PrivateNet) (es : List Entry) :
    es.foldl add net = ⟨net.authorities ++ (ofEntries es).authorities,
      net.fallbacks ++ (ofEntries es).fallbacks⟩ := by
  induction es generalizing net with
  | nil => simp [ofEntries]
  | cons e es ih =>
    rw [List.foldl_cons, ih]
    cases e with
    | authority a => simp [add, ofEntries, Entry.authority?, Entry.fallback?, List.filterMap_cons]
    | fallback f => simp [add, ofEntries, Entry.authority?, Entry.fallback?, List.filterMap_cons]

/-- The loop accepts exactly the lists of entries, and adds them one after the other. -/
lemma parseLines_eq_ok {n : ℕ} {ls : List Text} {net net' : PrivateNet} :
    parseLines n ls net = .ok net' ↔
      ∃ es, List.Forall₂ IsEntry (ls.filter fun line => ¬ Skipped line) es ∧
        net' = es.foldl add net := by
  induction ls generalizing n net with
  | nil =>
    simp only [parseLines, Except.ok.injEq, List.filter_nil, List.forall₂_nil_left_iff,
      exists_eq_left, List.foldl_nil]
    exact eq_comm
  | cons line ls ih =>
    rw [parseLines]
    by_cases hs : Skipped line
    · rw [parseLine_skipped hs, List.filter_cons_of_neg (by simpa using hs)]
      exact ih
    · rw [List.filter_cons_of_pos (by simpa using hs)]
      constructor
      · intro hok
        -- of the three kinds of lines only an entry neither is skipped nor stops the loop
        rcases line_cases line with hs' | ⟨-, e, he⟩ | hv
        · exact absurd hs' hs
        · rw [parseLine_isEntry hs he] at hok
          obtain ⟨es, hes, hnet⟩ := ih.mp hok
          exact ⟨e :: es, .cons he hes, hnet⟩
        · obtain ⟨why, herr⟩ := parseLine_violates hv n net
          rw [herr] at hok
          cases hok
      · rintro ⟨_, _ | ⟨he, hes⟩, hnet⟩
        rw [parseLine_isEntry hs he]
        exact ih.mpr ⟨_, hes, hnet⟩

/-- The loop stops at the first line that violates the grammar. -/
lemma parseLines_violates {pre : List Text} {line : Text} (hpre : ∀ l ∈ pre, ¬ Violates l)
    (hline : Violates line) (n : ℕ) (post : List Text) (net : PrivateNet) :
    ∃ why, parseLines n (pre ++ line :: post) net = .error (blame (n + pre.length) why) := by
  induction pre generalizing n net with
  | nil =>
    obtain ⟨why, herr⟩ := parseLine_violates hline n net
    refine ⟨why, ?_⟩
    rw [List.nil_append, parseLines, herr]
    rfl
  | cons l pre ih =>
    have hrest : ∀ l ∈ pre, ¬ Violates l := fun l hl => hpre l (List.mem_cons_of_mem _ hl)
    have hcount : n + 1 + pre.length = n + (l :: pre).length := by
      rw [List.length_cons]
      omega
    rw [List.cons_append, parseLines]
    rcases line_cases l with hs | ⟨hs, e, he⟩ | hv
    · rw [parseLine_skipped hs, ← hcount]
      exact ih hrest _ _
    · rw [parseLine_isEntry hs he, ← hcount]
      exact ih hrest _ _
    · exact absurd hv (hpre l (List.mem_cons_self ..))

/-- The accepted texts and the values they are parsed to. -/
lemma parse_eq_ok {text : Text} {net : PrivateNet} :
    parse text = .ok net ↔
      (∃ es, Describes text es ∧ net = ofEntries es) ∧
        net.authorities ≠ [] ∧ net.fallbacks ≠ [] := by
  have hloop : ∀ net', parseLines 0 (lines text) ⟨[], []⟩ = .ok net' ↔
      ∃ es, Describes text es ∧ net' = ofEntries es := by
    intro net'
    simp only [parseLines_eq_ok, foldl_add, List.nil_append]
    rfl
  rw [← hloop, parse]
  -- behind the loop only the two checks for an empty list are left
  cases hres : parseLines 0 (lines text) ⟨[], []⟩ with
  | error e => simp [Except.bind]
  | ok net' =>
    simp only [Except.bind, Except.ok.injEq]
    split
    · rename_i hauth
      constructor
      · intro h
        cases h
      · rintro ⟨rfl, hne, -⟩
        exact absurd hauth hne
    · rename_i hauth
      split
      · rename_i hfall
        constructor
        · intro h
          cases h
        · rintro ⟨rfl, -, hne⟩
          exact absurd hfall hne
      · rename_i hfall
        constructor
        · intro h
          cases h
          exact ⟨rfl, hauth, hfall⟩
        · rintro ⟨rfl, -⟩
          rfl

/-! ## The content of the lines -/

/-- Fields that are not skipped. -/
def Counts (fields : List Text) : Prop :=
  ¬ (fields = [] ∨ fields.head?.bind List.head? = some '#')

instance : DecidablePred Counts := fun fields =>
  inferInstanceAs (Decidable ¬ (fields = [] ∨ fields.head?.bind List.head? = some '#'))

/-- The fields of the lines that are not skipped. -/
def content (ls : List Text) : List (List Text) := (ls.map splitWhitespace).filter fun fs => Counts fs

lemma counts_iff (line : Text) : Counts (splitWhitespace line) ↔ ¬ Skipped line := by
  rw [Counts, Skipped, trim_eq_nil, head?_trim]

@[simp] lemma content_append (ls ls' : List Text) : content (ls ++ ls') = content ls ++ content ls' := by
  rw [content, List.map_append, List.filter_append]
  rfl

lemma content_cons (l : Text) (ls : List Text) : content (l :: ls) = content [l] ++ content ls :=
  content_append [l] ls

lemma content_skipped {l : Text} (h : Skipped l) : content [l] = [] := by
  have hcounts : ¬ Counts (splitWhitespace l) := fun hc => (counts_iff l).mp hc h
  simp [content, hcounts]

lemma content_congr {l l' : Text} (h : splitWhitespace l = splitWhitespace l') :
    content [l] = content [l'] := by
  simp [content, h]

/-- Line endings and a last empty line have no content. -/
lemma content_lines (text : Text) : content (lines text) = content (text.splitOn '\n') := by
  have hstrip : ∀ ls : List Text, content (ls.map stripCr) = content ls := by
    intro ls
    simp only [content, List.map_map, Function.comp_def, splitWhitespace_stripCr]
  have hlast : ∀ l : Text, content ([l].filter (· ≠ [])) = content [l] := by
    intro l
    by_cases hl : l = []
    · subst hl
      rfl
    · rw [List.filter_cons_of_pos (by simpa using hl), List.filter_nil]
  obtain ⟨front, last, hcut⟩ : ∃ front last, text.splitOn '\n' = front ++ [last] :=
    ⟨_, _, (List.dropLast_append_getLast (splitOn_ne_nil text)).symm⟩
  simp only [lines, hcut, List.dropLast_concat, List.getLast?_concat, Option.toList_some,
    content_append, hstrip, hlast]

lemma describes_iff {text : Text} {es : List Entry} :
    Describes text es ↔
      List.Forall₂ (fun fields e => fields = e.fields ∧ e.Valid) (content (text.splitOn '\n')) es := by
  have hkept : content (lines text) =
      ((lines text).filter fun line => ¬ Skipped line).map splitWhitespace := by
    rw [content, List.filter_map]
    congr 1
    refine List.filter_congr fun line _ => ?_
    simp only [Function.comp_apply, counts_iff]
  rw [← content_lines, hkept, List.forall₂_map_left_iff]
  rfl

/-! ## Edits that do not matter -/

/-- One insertion of blanks, of a blank line or of a comment line. -/
inductive TextEdit : Text → Text → Prop
  | space {u w v : Text} (hw : ∀ c ∈ w, isWhitespace c = true ∧ c ≠ '\n')
      (huv : FieldBoundary u v) : TextEdit (u ++ v) (u ++ w ++ v)
  | lineBefore {u l v : Text} (hu : u = [] ∨ u.getLast? = some '\n') (hl : Skipped l)
      (hlf : '\n' ∉ l) : TextEdit (u ++ v) (u ++ (l ++ '\n' :: v))
  | lineAfter {u l v : Text} (hv : v = [] ∨ v.head? = some '\n') (hl : Skipped l)
      (hlf : '\n' ∉ l) : TextEdit (u ++ v) (u ++ '\n' :: (l ++ v))

lemma splitOn_append_lf (u v : Text) :
    (u ++ '\n' :: v).splitOn '\n' = u.splitOn '\n' ++ v.splitOn '\n' :=
  List.splitOnP_append_cons u v (beq_self_eq_true '\n')

lemma TextEdit.content_eq {text text' : Text} (h : TextEdit text text') :
    content (text'.splitOn '\n') = content (text.splitOn '\n') := by
  cases h with
  | @space u w v hw huv =>
    obtain ⟨before, x, y, after, hx, hy, hcut⟩ := splitOn_insert '\n' u v
    have hlf : '\n' ∉ w := fun h => (hw _ h).2 rfl
    have hold : (u ++ v).splitOn '\n' = before ++ (x ++ y) :: after := by
      simpa using hcut [] List.not_mem_nil
    have hfields : splitWhitespace (x ++ w ++ y) = splitWhitespace (x ++ y) :=
      splitWhitespace_insert (fun c hc => (hw c hc).1) (huv.of_pieces hx hy)
    rw [hcut w hlf, hold, content_append, content_append, content_cons, content_cons (x ++ y),
      content_congr hfields]
  | @lineBefore u l v hu hl hlf =>
    rcases hu with rfl | hu
    · rw [List.nil_append, List.nil_append, splitOn_append_lf, splitOn_eq_singleton hlf,
        content_append, content_skipped hl, List.nil_append]
    · obtain ⟨front, rfl⟩ := List.getLast?_eq_some_iff.mp hu
      have hcut : ∀ back, (front ++ ['\n'] ++ back).splitOn '\n' =
          front.splitOn '\n' ++ back.splitOn '\n' := fun back => by
        rw [List.append_assoc]
        exact splitOn_append_lf front back
      rw [hcut, hcut, splitOn_append_lf, splitOn_eq_singleton hlf, content_append, content_append,
        content_append, content_skipped hl, List.nil_append]
  | @lineAfter u l v hv hl hlf =>
    rcases hv with rfl | hv
    · rw [splitOn_append_lf, List.append_nil, List.append_nil, splitOn_eq_singleton hlf,
        content_append, content_skipped hl, List.append_nil]
    · obtain ⟨v, rfl⟩ := List.head?_eq_some_iff.mp hv
      rw [splitOn_append_lf, splitOn_append_lf, splitOn_append_lf, splitOn_eq_singleton hlf,
        content_append, content_append, content_append, content_skipped hl, List.nil_append]

lemma content_eq_of_edits {text text' : Text} (h : Relation.EqvGen TextEdit text text') :
    content (text.splitOn '\n') = content (text'.splitOn '\n') := by
  induction h with
  | rel text text' h => exact h.content_eq.symm
  | refl text => rfl
  | symm text text' _ ih => exact ih.symm
  | trans text text' text'' _ _ ih ih' => exact ih.trans ih'

/-! ## Printing -/

/-- An entry on its line, its fields behind one blank each. -/
def Entry.print (e : Entry) : Text := [' '].intercalate e.fields

/-- One entry per line. -/
def print (es : List Entry) : Text := es.flatMap fun e => e.print ++ ['\n']

/-- The fields of the entry can stand on a line. -/
def Entry.Printable (e : Entry) : Prop := (∀ f ∈ e.fields, IsField f) ∧ e.Valid

instance : DecidablePred Entry.Printable := fun e =>
  inferInstanceAs (Decidable ((∀ f ∈ e.fields, IsField f) ∧ e.Valid))

lemma IsEntry.printable {line : Text} {e : Entry} (h : IsEntry line e) : e.Printable := by
  refine ⟨fun f hf => ?_, h.2⟩
  have hmem : f ∈ splitWhitespace line := h.1.symm ▸ hf
  exact isField_of_mem hmem

lemma counts_fields (e : Entry) : Counts e.fields := by
  cases e with
  | authority a => simp [Counts, Entry.fields]
  | fallback f => simp [Counts, Entry.fields]

lemma splitOn_print {es : List Entry} (h : ∀ e ∈ es, e.Printable) :
    (print es).splitOn '\n' = es.map Entry.print ++ [[]] := by
  induction es with
  | nil => rfl
  | cons e es ih =>
    have hlf : '\n' ∉ e.print := notMem_intercalate (h e (List.mem_cons_self ..)).1
    have hrest : ∀ e ∈ es, e.Printable := fun e he => h e (List.mem_cons_of_mem _ he)
    have hcut : print (e :: es) = e.print ++ '\n' :: print es := by
      rw [print, List.flatMap_cons, List.append_assoc]
      rfl
    rw [hcut, splitOn_append_cons hlf, ih hrest]
    rfl

lemma content_print {es : List Entry} (h : ∀ e ∈ es, e.Printable) :
    content (es.map Entry.print) = es.map Entry.fields := by
  have hfields : (es.map Entry.print).map splitWhitespace = es.map Entry.fields := by
    rw [List.map_map]
    exact List.map_congr_left fun e he => splitWhitespace_intercalate (h e he).1
  rw [content, hfields, List.filter_eq_self]
  intro fs hfs
  obtain ⟨e, -, rfl⟩ := List.mem_map.mp hfs
  simpa using counts_fields e

/-- A printed list of entries describes these entries. -/
lemma describes_print {es : List Entry} (h : ∀ e ∈ es, e.Printable) : Describes (print es) es := by
  rw [describes_iff, splitOn_print h, content_append, content_print h,
    content_skipped (.inl rfl), List.append_nil, List.forall₂_map_left_iff, List.forall₂_same]
  exact fun e he => ⟨rfl, (h e he).2⟩

lemma mem_authorities {es : List Entry} {a : Authority} :
    a ∈ (ofEntries es).authorities ↔ .authority a ∈ es := by
  refine List.mem_filterMap.trans ⟨?_, fun h => ⟨_, h, rfl⟩⟩
  rintro ⟨_ | _, he, ⟨⟩⟩
  exact he

lemma mem_fallbacks {es : List Entry} {f : Fallback} :
    f ∈ (ofEntries es).fallbacks ↔ .fallback f ∈ es := by
  refine List.mem_filterMap.trans ⟨?_, fun h => ⟨_, h, rfl⟩⟩
  rintro ⟨_ | _, he, ⟨⟩⟩
  exact he

lemma Entry.fields_injective : Function.Injective Entry.fields := by
  rintro (⟨name, v3ident⟩ | ⟨rsa, ed, orport⟩) (⟨name', v3ident'⟩ | ⟨rsa', ed', orport'⟩) h
  · obtain ⟨rfl, rfl⟩ : name = name' ∧ v3ident = v3ident' := by simpa [Entry.fields] using h
    rfl
  · exact absurd (congrArg List.length h) (by simp [Entry.fields])
  · exact absurd (congrArg List.length h) (by simp [Entry.fields])
  · obtain ⟨rfl, rfl, rfl⟩ : rsa = rsa' ∧ ed = ed' ∧ orport = orport' := by
      simpa [Entry.fields] using h
    rfl

lemma IsEntry.unique {line : Text} {e e' : Entry} (h : IsEntry line e) (h' : IsEntry line e') :
    e = e' := Entry.fields_injective (h.1.symm.trans h'.1)

lemma mem_iff_of_forall₂ {ls : List Text} {es : List Entry} (h : List.Forall₂ IsEntry ls es)
    {e : Entry} : e ∈ es ↔ ∃ line ∈ ls, IsEntry line e := by
  induction h with
  | nil => simp
  | @cons line e' ls es he _ ih =>
    rw [List.mem_cons, ih]
    constructor
    · rintro (rfl | ⟨l, hl, hel⟩)
      · exact ⟨line, List.mem_cons_self .., he⟩
      · exact ⟨l, List.mem_cons_of_mem _ hl, hel⟩
    · rintro ⟨l, hl, hel⟩
      rcases List.mem_cons.mp hl with rfl | hl
      · exact .inl (hel.unique he)
      · exact .inr ⟨l, hl, hel⟩

/-- The entries of a text are those that its lines split into. -/
lemma Describes.mem_iff {text : Text} {es : List Entry} (h : Describes text es) {e : Entry} :
    e ∈ es ↔ ∃ line ∈ lines text, ¬ Skipped line ∧ IsEntry line e := by
  refine (mem_iff_of_forall₂ h).trans ⟨?_, ?_⟩
  · rintro ⟨line, hline, he⟩
    obtain ⟨hline, hs⟩ := List.mem_filter.mp hline
    exact ⟨line, hline, by simpa using hs, he⟩
  · rintro ⟨line, hline, hs, he⟩
    exact ⟨line, List.mem_filter.mpr ⟨hline, by simpa using hs⟩, he⟩

lemma Describes.printable {text : Text} {es : List Entry} (h : Describes text es) :
    ∀ e ∈ es, e.Printable := by
  intro e he
  obtain ⟨line, -, -, hline⟩ := h.mem_iff.mp he
  exact hline.printable

/-- Whatever the order in which the two kinds of entries are put together, they can be printed. -/
lemma printable_of_same {es es' : List Entry} (h : ∀ e ∈ es, e.Printable)
    (hsame : ofEntries es' = ofEntries es) : ∀ e ∈ es', e.Printable := by
  rintro (a | f) he
  · exact h _ (mem_authorities.mp (hsame ▸ mem_authorities.mpr he))
  · exact h _ (mem_fallbacks.mp (hsame ▸ mem_fallbacks.mpr he))

/-! ## The grammar -/

lemma toOption_eq_of_ok {ε α : Type} {x y : Except ε α} (h : ∀ a, x = .ok a ↔ y = .ok a) :
    x.toOption = y.toOption := by
  cases x with
  | ok a => rw [(h a).mp rfl]
  | error e =>
    cases y with
    | ok a => exact absurd ((h a).mpr rfl) (by simp)
    | error e' => rfl

/-- `parse` accepts the texts whose lines that are neither blank nor comments are entries, with an
entry of each kind among them, and lists the entries in line order.  Blanks, blank lines and
comments do not matter; a parsed descriptor, printed one entry per line, is parsed back; and
the error names the first line that violates the grammar. -/
theorem parse_grammar (text : Text) :
    (∀ net, parse text = .ok net ↔
      (∃ es, Describes text es ∧ net = ofEntries es) ∧
        net.authorities ≠ [] ∧ net.fallbacks ≠ []) ∧
    (∀ text', Relation.EqvGen TextEdit text text' →
      (parse text').toOption = (parse text).toOption) ∧
    (∀ net, parse text = .ok net → ∀ es, ofEntries es = net → parse (print es) = .ok net) ∧
    (∀ pre line post, lines text = pre ++ line :: post → (∀ l ∈ pre, ¬ Violates l) →
      Violates line → ∃ why, parse text = .error (blame pre.length why)) := by
  refine ⟨fun net => parse_eq_ok, fun text' hedits => ?_, fun net hok es hes => ?_,
    fun pre line post hcut hpre hline => ?_⟩
  · refine toOption_eq_of_ok fun net => ?_
    rw [parse_eq_ok, parse_eq_ok]
    simp only [describes_iff, content_eq_of_edits hedits]
  · obtain ⟨⟨es', hdesc, hnet⟩, hne⟩ := parse_eq_ok.mp hok
    have hprint : ∀ e ∈ es, e.Printable :=
      printable_of_same hdesc.printable (hes.trans hnet)
    exact parse_eq_ok.mpr ⟨⟨es, describes_print hprint, hes.symm⟩, hne⟩
  · obtain ⟨why, herr⟩ :=
      parseLines_violates hpre hline 0 post ⟨[], []⟩
    refine ⟨why, ?_⟩
    rw [parse, hcut, herr, Nat.zero_add]
    rfl

/-- A line between a good one and anything else is blamed by its number. -/
theorem parse_grammar_second_line :
    ∃ why, parse "authority da 1F\nfallback r e\nauthority x".toList = .error (blame 1 why) := by
  refine (parse_grammar _).2.2.2 ["authority da 1F".toList] "fallback r e".toList
    ["authority x".toList] (by decide +kernel) ?_ ?_
  · intro l hl
    obtain rfl := List.mem_singleton.mp hl
    exact fun hv => hv.2 (.authority ⟨"da".toList, "1F".toList⟩) ⟨by decide +kernel, by decide⟩
  · refine ⟨by decide +kernel, ?_⟩
    have hfields : splitWhitespace "fallback r e".toList =
        ["fallback".toList, "r".toList, "e".toList] := by decide +kernel
    rintro (a | f) ⟨he, -⟩
    · rw [hfields] at he
      exact absurd (List.cons.inj he).1 (by decide)
    · rw [hfields] at he
      simp [Entry.fields] at he

end PrivateNet

end FungiTransport
