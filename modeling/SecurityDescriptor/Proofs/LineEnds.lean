import Mathlib.Logic.Relation
import SecurityDescriptor.Proofs.AlikeContents
import SecurityDescriptor.Proofs.InputFile

/-!
# Line ends, blank lines and comments

Of a text without carriage returns the record lines are those of its lines that are neither blank
nor comments, each as it stands.  How a text's lines end does not matter, nor do lines that carry
no record, so texts that differ in these are interchangeable as inputs.

    Reended cs ds, '\r' ∉ cs → Interchangeable (the UTF-8 form of cs) (that of ds)
    EqvGen Inserts cs ds → Interchangeable (the UTF-8 form of cs) (that of ds)
                                                                        (readLines_lineEnds)

Writing a line feed as a carriage return can join it with the line feed of an empty line behind
it.  That line is lost, and would not have been a record: so it is the lines left by the filter
that stay the same, and not all lines (`filter_lines_of_reended`).
-/

namespace SecurityDescriptor

namespace Text

/-! ## Lines -/

/-- The lines of a text, cut after each line feed and nowhere else. -/
inductive FeedLines : List Char → List (List Char) → Prop where
  | nil : FeedLines [] []
  | unended {l : List Char} : '\n' ∉ l → l ≠ [] → FeedLines l [l]
  | line {l cs : List Char} {ls : List (List Char)} : '\n' ∉ l → FeedLines cs ls →
      FeedLines (l ++ '\n' :: cs) ((l ++ ['\n']) :: ls)

/-- One character more in front begins the first line or is a line of its own. -/
theorem FeedLines.cons {cs : List Char} {ls : List (List Char)} (h : FeedLines cs ls) (c : Char) :
    FeedLines (c :: cs) (consLine c ls) := by
  unfold consLine
  split
  · next hc =>
    subst hc
    exact .line (l := []) List.not_mem_nil h
  · next hc =>
    have hmem {l : List Char} (hl : '\n' ∉ l) : '\n' ∉ c :: l :=
      List.not_mem_cons_of_ne_of_not_mem (Ne.symm hc) hl
    cases h with
    | nil => exact .unended (hmem List.not_mem_nil) (List.cons_ne_nil c [])
    | unended hl _ => exact .unended (hmem hl) (List.cons_ne_nil c _)
    | line hl hcs => exact .line (hmem hl) hcs

theorem feedLines_cut (cs : List Char) : FeedLines cs (cut cs) := by
  induction cs with
  | nil => exact .nil
  | cons c cs ih => exact ih.cons c

theorem FeedLines.eq_cut {cs : List Char} {ls : List (List Char)} (h : FeedLines cs ls) :
    ls = cut cs := by
  induction h with
  | nil => rfl
  | unended hl hne => rw [cut_unended hl hne]
  | @line l cs ls hl _ ih =>
    have hfeed : (l ++ ['\n']).getLast? = some '\n' := by simp
    rw [List.append_cons l '\n' cs, cut_append hfeed, cut_line hl, ← ih]
    rfl

/-- Behind a line feed the lines of a text begin anew, and so they do at its begin. -/
theorem lines_append_of_begin {xs : List Char} (h : xs = [] ∨ xs.getLast? = some '\n')
    (ys : List Char) : lines (xs ++ ys) = lines xs ++ lines ys := by
  rcases h with rfl | h
  · rfl
  · exact lines_append_of_getLast? h ys

/-! ## Line ends -/

/-- The same text with each line feed written as one of the line ends. -/
inductive Reended : List Char → List Char → Prop where
  | nil : Reended [] []
  | feed {e cs ds : List Char} : e ∈ lineEnds → Reended cs ds → Reended ('\n' :: cs) (e ++ ds)
  | other {c : Char} {cs ds : List Char} : c ≠ '\n' → Reended cs ds → Reended (c :: cs) (c :: ds)

namespace Reended

variable {l cs ds : List Char}

/-- A text is written up to its first line feed as it is. -/
theorem of_append (hl : '\n' ∉ l) (h : Reended (l ++ cs) ds) :
    ∃ ds', ds = l ++ ds' ∧ Reended cs ds' := by
  induction l generalizing ds with
  | nil => exact ⟨ds, rfl, h⟩
  | cons c l ih =>
    obtain ⟨hc, hl⟩ := List.ne_and_not_mem_of_not_mem_cons hl
    cases h with
    | feed => exact absurd rfl hc
    | other _ h =>
      obtain ⟨ds', rfl, hrest⟩ := ih hl h
      exact ⟨ds', rfl, hrest⟩

theorem eq_of_not_mem (hl : '\n' ∉ l) (h : Reended l ds) : ds = l := by
  rw [← List.append_nil l] at h
  obtain ⟨ds', rfl, hrest⟩ := of_append hl h
  cases hrest
  exact List.append_nil l

theorem of_line (hl : '\n' ∉ l) (h : Reended (l ++ '\n' :: cs) ds) :
    ∃ e ds', ds = l ++ e ++ ds' ∧ e ∈ lineEnds ∧ Reended cs ds' := by
  obtain ⟨ds', rfl, hrest⟩ := of_append hl h
  cases hrest with
  | @feed e _ ds' he hrest => exact ⟨e, ds', (List.append_assoc ..).symm, he, hrest⟩
  | other hne => exact absurd rfl hne

end Reended

/-- Lines stay the same, however they end, if empty ones do not matter. -/
theorem filter_lines_of_reended {cs ds : List Char} {ls : List (List Char)} (h : FeedLines cs ls)
    (hr : '\r' ∉ cs) (hre : Reended cs ds) {p : List Char → Bool} (hp : p ['\n'] = false) :
    (lines ds).filter p = ls.filter p := by
  induction h generalizing ds with
  | nil =>
    cases hre
    rfl
  | unended hl hne =>
    obtain rfl := hre.eq_of_not_mem hl
    rw [lines_unended hr hl hne]
  | @line l cs ls hl _ ih =>
    obtain ⟨hrl, hrcs⟩ : '\r' ∉ l ∧ '\r' ∉ cs := by simpa using hr
    obtain ⟨e, ds', rfl, he, hre'⟩ := hre.of_line hl
    rw [filter_lines_append hrl hl he hp, ih hrcs hre', ← List.filter_append]
    rfl

theorem return_not_mem_unify (cs : List Char) : '\r' ∉ unify cs := by
  induction cs using unify.induct with
  | case1 => exact List.not_mem_nil
  | case2 cs ih =>
    rw [unify]
    exact List.not_mem_cons_of_ne_of_not_mem (by decide) ih
  | case3 c cs hne ih =>
    rw [unify]
    · refine List.not_mem_cons_of_ne_of_not_mem ?_ ih
      split
      · decide
      · exact Ne.symm ‹_›
    · exact hne

/-- Every text is one without carriage returns whose lines may end in other ways. -/
theorem reended_unify (cs : List Char) : Reended (unify cs) cs := by
  induction cs using unify.induct with
  | case1 => exact .nil
  | case2 cs ih => exact .feed (e := ['\r', '\n']) (by decide) ih
  | case3 c cs hne ih =>
    rw [unify]
    · split
      · next hc =>
        subst hc
        exact .feed (e := ['\r']) (by decide) ih
      · by_cases hn : c = '\n'
        · subst hn
          exact .feed (e := ['\n']) (by decide) ih
        · exact .other hn ih
    · exact hne

end Text

/-! ## Lines without a record -/

/-- A blank line or a comment: stripped, it is empty or begins with `#`. -/
def Idle (l : List Char) : Prop := Text.strip l = [] ∨ (Text.strip l).head? = some '#'

instance : DecidablePred Idle := fun _ => inferInstanceAs (Decidable (_ ∨ _))

theorem carriesRecord_iff (l : List Char) : carriesRecord l = true ↔ ¬Idle l := by
  unfold carriesRecord Idle
  cases Text.strip l with
  | nil => simp
  | cons c cs => simp

theorem Idle.not_carriesRecord {l : List Char} (h : Idle l) : carriesRecord l = false := by
  rw [← Bool.not_eq_true, carriesRecord_iff, not_not]
  exact h

theorem filter_carriesRecord (ls : List (List Char)) :
    ls.filter carriesRecord = ls.filter (¬Idle ·) := by
  refine List.filter_congr fun l _ => ?_
  rw [Bool.eq_iff_iff, carriesRecord_iff, decide_eq_true_iff]

/-- A line's end is a blank. -/
theorem Idle.feed {l : List Char} (h : Idle l) : Idle (l ++ ['\n']) := by
  have hfeed : Text.Blank ['\n'] := by decide
  have hstrip := Text.strip_surround Text.blank_nil hfeed l
  rw [Idle, ← List.nil_append l, hstrip]
  exact h

/-- An idle line is put into a text, where a line begins.  Behind the last line of the text, it
may go without an end. -/
inductive Inserts : List Char → List Char → Prop where
  | line {xs ys l e : List Char} : xs = [] ∨ xs.getLast? = some '\n' → Idle l → '\r' ∉ l →
      '\n' ∉ l → e ∈ Text.lineEnds → Inserts (xs ++ ys) (xs ++ (l ++ e ++ ys))
  | last {xs l : List Char} : xs = [] ∨ xs.getLast? = some '\n' → Idle l → '\r' ∉ l → '\n' ∉ l →
      Inserts xs (xs ++ l)

theorem Inserts.filter_lines_eq {cs ds : List Char} (h : Inserts cs ds) :
    (Text.lines ds).filter carriesRecord = (Text.lines cs).filter carriesRecord := by
  have hempty : carriesRecord ['\n'] = false := by decide
  cases h with
  | @line xs ys l e hxs hl hr hn he =>
    rw [Text.lines_append_of_begin hxs, Text.lines_append_of_begin hxs, List.filter_append,
      List.filter_append, Text.filter_lines_append hr hn he hempty,
      List.filter_singleton, hl.feed.not_carriesRecord]
    rfl
  | @last xs l hxs hl hr hn =>
    have hnone : (Text.lines l).filter carriesRecord = [] := by
      by_cases hne : l = []
      · subst hne
        rfl
      · rw [Text.lines_unended hr hn hne, List.filter_singleton, hl.not_carriesRecord]
        rfl
    rw [Text.lines_append_of_begin hxs, List.filter_append, hnone, List.append_nil]

/-- The same lines carry records, however many idle ones were put in or taken out. -/
theorem filter_lines_of_eqvGen {cs ds : List Char} (h : Relation.EqvGen Inserts cs ds) :
    (Text.lines ds).filter carriesRecord = (Text.lines cs).filter carriesRecord := by
  induction h with
  | rel _ _ h => exact h.filter_lines_eq
  | refl => rfl
  | symm _ _ _ ih => exact ih.symm
  | trans _ _ _ _ _ ih ih' => exact ih'.trans ih

/-! ## Reading -/

open CommandLine

theorem CommandLine.Settings.run_of_finds {σ ι : Type} [FileSystem σ ι] {s : Settings} {dir : σ}
    {stdin content : ByteArray} {lines : List String} (levels : LogLevels)
    (h : s.Finds dir stdin content) (hlines : readLines content = some lines) :
    s.run dir stdin levels = s.runLines dir (levels.configure s.verbosity) lines := by
  rw [run, content_of_finds h]
  simp only [hlines]

theorem readLines_ofList (cs : List Char) :
    readLines (String.ofList cs).toUTF8 =
      some (((Text.lines cs).filter carriesRecord).map String.ofList) := by
  rw [readLines, fromUTF8?_toUTF8, Option.map_some, recordLines, String.toList_ofList]

theorem interchangeable_of_filter_lines {cs ds : List Char}
    (h : (Text.lines ds).filter carriesRecord = (Text.lines cs).filter carriesRecord) :
    Interchangeable (String.ofList cs).toUTF8 (String.ofList ds).toUTF8 :=
  interchangeable_of_readLines (by rw [readLines_ofList, readLines_ofList, h])

/-- **Line ends, blank lines and comments.**  A text without carriage returns has, cut after each
line feed, the lines `ls`.  Read from its UTF-8 form, in a file or as a standard input that is
decoded as files are, it gives those of them that are not idle, in order and unchanged.

Whichever way the line feeds of such a text are written, it stays the same input: the records, the
numbers under which they are printed, the log and the exit do not change.  Nor do they if idle
lines are put into a text where lines begin, or taken out.

No text is cut at any other character: its lines are those of a text that has line feeds in place
of its line ends, cut after these. -/
theorem readLines_lineEnds (cs : List Char) :
    ('\r' ∉ cs → ∃ ls, (∀ ls', Text.FeedLines cs ls' ↔ ls' = ls) ∧
      (let records := (ls.filter (¬Idle ·)).map String.ofList
      readLines (String.ofList cs).toUTF8 = some records ∧
      ∀ {σ ι : Type} [FileSystem σ ι] (s : Settings) (dir : σ) stdin levels,
        s.Finds dir stdin (String.ofList cs).toUTF8 →
        s.run dir stdin levels = s.runLines dir (levels.configure s.verbosity) records) ∧
      ∀ ds, Text.Reended cs ds →
        Interchangeable (String.ofList cs).toUTF8 (String.ofList ds).toUTF8) ∧
    (∀ ds, Relation.EqvGen Inserts cs ds →
      Interchangeable (String.ofList cs).toUTF8 (String.ofList ds).toUTF8) ∧
    ∃ ds, '\r' ∉ ds ∧ Text.Reended ds cs ∧ Text.FeedLines ds (Text.lines cs) := by
  have hcut := Text.feedLines_cut cs
  refine ⟨fun hr => ⟨Text.cut cs, fun ls' => ?_, ?_, ?_⟩, ?_, ?_⟩
  · exact ⟨Text.FeedLines.eq_cut, fun h => h ▸ hcut⟩
  · have hread : readLines (String.ofList cs).toUTF8 =
        some (((Text.cut cs).filter (¬Idle ·)).map String.ofList) := by
      rw [readLines_ofList, filter_carriesRecord, Text.lines, Text.unify_eq_self hr]
    exact ⟨hread, fun s dir stdin levels hfinds => s.run_of_finds levels hfinds hread⟩
  · intro ds h
    have hlines : Text.lines cs = Text.cut cs := congrArg Text.cut (Text.unify_eq_self hr)
    apply interchangeable_of_filter_lines
    rw [hlines, Text.filter_lines_of_reended hcut hr h (by decide)]
  · intro ds h
    exact interchangeable_of_filter_lines (filter_lines_of_eqvGen h)
  · exact ⟨Text.unify cs, Text.return_not_mem_unify cs, Text.reended_unify cs,
      Text.feedLines_cut _⟩

/-- Blanks and separators of other kinds end no line, and a comment may hold any of them. -/
example : recordLines "\u000b\u000c\n0\u001c1\u0085\r\u2028# 2\u2029\r\n3\u2028" =
    ["0\u001c1\u0085\n", "3\u2028"] := by
  decide +kernel

end SecurityDescriptor
