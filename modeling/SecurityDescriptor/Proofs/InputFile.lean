import SecurityDescriptor.CommandLine.Session
import SecurityDescriptor.Proofs.Encodings
import SecurityDescriptor.Proofs.TextLines

/-!
# What an input file says

An input file holds byte strings, each written on a line of its own.  Between them there may be
blank lines and comments, around them blanks, and behind each line any of the three line ends.
Reading such a file gives the byte strings, in order.

    InputText format cs bss →
      the record lines of the text `cs`, each decoded in the format, give `bss`
                                                                  (readLines_of_inputText)

A line is read alone, since a line end never belongs to two lines that both count.  What is said
of the standard input rests on its being decoded as a file is, with all three line ends.
-/

namespace SecurityDescriptor

/-! ## Texts -/

/-- A line without its end, and the byte strings that it holds: one or none. -/
inductive InputLine (format : LineFormat) : List Char → List Bytes → Prop where
  | blank {l : List Char} : Text.Blank l → InputLine format l []
  | comment {pre l : List Char} : Text.Blank pre → InputLine format (pre ++ '#' :: l) []
  | record {pre w post : List Char} {bs : Bytes} : Text.Blank pre → Text.Blank post →
      Written format bs w → bs ≠ [] → InputLine format (pre ++ w ++ post) [bs]

/-- A text and the byte strings that its lines hold.  The last line may go without an end. -/
inductive InputText (format : LineFormat) : List Char → List Bytes → Prop where
  | nil : InputText format [] []
  | unended {l : List Char} {bss : List Bytes} : InputLine format l bss → '\r' ∉ l → '\n' ∉ l →
      InputText format l bss
  | line {l e cs : List Char} {bss bss' : List Bytes} : InputLine format l bss →
      '\r' ∉ l → '\n' ∉ l → e ∈ Text.lineEnds → InputText format cs bss' →
      InputText format (l ++ e ++ cs) (bss ++ bss')

/-! ## Lines that carry no record -/

theorem not_carriesRecord_of_blank {l : List Char} (h : Text.Blank l) :
    carriesRecord l = false := by
  rw [carriesRecord, Text.strip_eq_nil_of_blank h]

theorem not_carriesRecord_of_comment {pre : List Char} (hpre : Text.Blank pre) (l : List Char) :
    carriesRecord (pre ++ '#' :: l) = false := by
  have hstrip : Text.strip (pre ++ '#' :: l) = '#' :: l.rdropWhile Text.isBlank := by
    rw [← List.append_nil (pre ++ _), Text.strip_surround hpre Text.blank_nil,
      Text.strip_cons_of_neg (by decide)]
  rw [carriesRecord, hstrip]
  rfl

/-! ## Reading -/

/-- What a reader makes of lines: the records among them, each decoded. -/
def decodeLines (format : LineFormat) (ls : List (List Char)) : List (Except LineError Bytes) :=
  (ls.filter carriesRecord).map fun l => decodeLine format (String.ofList l)

section Reading

variable {format : LineFormat} {l tail : List Char} {bss : List Bytes}

/-- One line with blanks behind it. -/
theorem decodeLines_of_inputLine (h : InputLine format l bss) (htail : Text.Blank tail) :
    decodeLines format [l ++ tail] = bss.map .ok := by
  cases h with
  | blank hl =>
    simp [decodeLines, not_carriesRecord_of_blank (hl.append htail)]
  | @comment pre l hpre =>
    have hline : pre ++ '#' :: l ++ tail = pre ++ '#' :: (l ++ tail) := by simp
    simp [decodeLines, hline, not_carriesRecord_of_comment hpre (l ++ tail)]
  | @record pre w post bs hpre hpost hw hne =>
    have hpost' : Text.Blank (post ++ tail) := hpost.append htail
    rw [List.append_assoc (pre ++ w), decodeLines,
      List.filter_cons_of_pos (carriesRecord_of_written hpre hpost' hw hne), List.map_cons,
      decodeLine_of_written hpre hpost' hw]
    rfl

/-- A line is read alone, whichever way it ends, and then the rest. -/
theorem decodeLines_line {e : List Char} (h : InputLine format l bss) (hr : '\r' ∉ l)
    (hn : '\n' ∉ l) (he : e ∈ Text.lineEnds) (rest : List Char) :
    decodeLines format (Text.lines (l ++ e ++ rest)) =
      bss.map .ok ++ decodeLines format (Text.lines rest) := by
  have hfeed : Text.Blank ['\n'] := by decide
  rw [← decodeLines_of_inputLine h hfeed, decodeLines,
    Text.filter_lines_append hr hn he (not_carriesRecord_of_blank hfeed), List.map_append]
  rfl

theorem decodeLines_unended (h : InputLine format l bss) (hr : '\r' ∉ l) (hn : '\n' ∉ l) :
    decodeLines format (Text.lines l) = bss.map .ok := by
  have hline := decodeLines_of_inputLine h Text.blank_nil
  rw [List.append_nil] at hline
  rw [← hline]
  by_cases hl : l = []
  · subst hl
    rfl
  · rw [Text.lines_unended hr hn hl]

/-- All lines of a text. -/
theorem decodeLines_lines {cs : List Char} (h : InputText format cs bss) :
    decodeLines format (Text.lines cs) = bss.map .ok := by
  induction h with
  | nil => rfl
  | unended hl hr hn => exact decodeLines_unended hl hr hn
  | line hl hr hn he _ ih => rw [decodeLines_line hl hr hn he, ih, List.map_append]

end Reading

/-! ## Files -/

theorem fromUTF8?_toUTF8 (s : String) : String.fromUTF8? s.toUTF8 = some s := by
  unfold String.fromUTF8?
  rw [String.toUTF8_eq_toByteArray, dif_pos s.isValidUTF8]
  rfl

namespace CommandLine.Settings

open FileSystem

variable {σ ι : Type} [FileSystem σ ι] {s : Settings} {dir : σ} {stdin content : ByteArray}

/-- The input of a run is the standard input with this content, or a file with it. -/
def Finds (s : Settings) (dir : σ) (stdin content : ByteArray) : Prop :=
  s.input = "-" ∧ stdin = content ∨
    s.input ≠ "-" ∧ ∃ f, locate dir .reading s.input = .ok f ∧ read? dir f = some content

theorem content_of_finds (h : s.Finds dir stdin content) : s.content dir stdin = .ok content := by
  rcases h with ⟨hinput, rfl⟩ | ⟨hinput, f, hf, hfile⟩
  · rw [Settings.content, if_pos hinput]
  · rw [Settings.content, if_neg hinput, readPath, hf]
    simp only [hfile]

end CommandLine.Settings

open CommandLine

/-- **Input files.**  A text that holds byte strings in a format is read from its UTF-8 form, and
its record lines, decoded one by one in the format, give the byte strings in order.  The command
goes through these lines, whether it finds the text in a file, on any file system and by any path,
or in the standard input, if that is decoded as files are. -/
theorem readLines_of_inputText {format : LineFormat} {cs : List Char} {bss : List Bytes}
    (h : InputText format cs bss) :
    ∃ lines, readLines (String.ofList cs).toUTF8 = some lines ∧
      lines.map (decodeLine format) = bss.map .ok ∧
      ∀ {σ ι : Type} [FileSystem σ ι] (s : Settings) (dir : σ) stdin levels,
        s.Finds dir stdin (String.ofList cs).toUTF8 →
        s.run dir stdin levels = s.runLines dir (levels.configure s.verbosity) lines := by
  refine ⟨recordLines (String.ofList cs), ?_, ?_, ?_⟩
  · rw [readLines, fromUTF8?_toUTF8]
    rfl
  · rw [recordLines, String.toList_ofList, List.map_map]
    exact decodeLines_lines h
  · intro σ ι _ s dir stdin levels hfinds
    rw [Settings.run, Settings.content_of_finds hfinds]
    simp only [readLines, fromUTF8?_toUTF8, Option.map_some]

/-- The carriage return behind the comment and the line feed of the empty line behind it are read
as one line end. -/
theorem readLines_of_inputText_mixed :
    ∃ cs, cs = " # 0\r".toList ++ ['\n'] ++ "\t1 2\tA b\u3000\r\n".toList ++ "fF".toList ∧
      InputText .auto cs [[0x12, 0xab], [0xff]] ∧
      ∃ lines, readLines (String.ofList cs).toUTF8 = some lines ∧
        lines.map (decodeLine .auto) = [.ok [0x12, 0xab], .ok [0xff]] ∧
        ∀ {σ ι : Type} [FileSystem σ ι] (s : Settings) (dir : σ) stdin levels,
          s.Finds dir stdin (String.ofList cs).toUTF8 →
          s.run dir stdin levels = s.runLines dir (levels.configure s.verbosity) lines := by
  have hpair : Written .auto [0x12, 0xab] "1 2\tA b".toList :=
    .pair (by decide) (by decide) (.gap (by decide) (.pair (by decide) (by decide) .nil))
  have hsingle : Written .auto [0xff] "fF".toList := .pair (by decide) (by decide) .nil
  have hcomment : InputLine .auto (" ".toList ++ '#' :: " 0".toList) [] := .comment (by decide)
  have hfirst : InputLine .auto ("\t".toList ++ "1 2\tA b".toList ++ "\u3000".toList)
      [[0x12, 0xab]] :=
    .record (by decide) (by decide) hpair (by decide)
  have hsecond : InputLine .auto ([] ++ "fF".toList ++ []) [[0xff]] :=
    .record Text.blank_nil Text.blank_nil hsingle (by decide)
  have hempty : InputLine .auto [] [] := .blank Text.blank_nil
  have hrest : InputText .auto _ ([[0x12, 0xab]] ++ [[0xff]]) :=
    .line (e := ['\r', '\n']) hfirst (by decide) (by decide) (by decide)
      (.unended hsecond (by decide) (by decide))
  have htext := InputText.line (e := ['\r']) hcomment (by decide) (by decide) (by decide)
    (.line (e := ['\n']) hempty (by decide) (by decide) (by decide) hrest)
  exact ⟨_, rfl, htext, readLines_of_inputText htext⟩

end SecurityDescriptor
