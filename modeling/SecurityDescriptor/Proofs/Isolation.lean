import Mathlib.Data.List.Induction
import SecurityDescriptor.Dump
import SecurityDescriptor.Proofs.DumpText
import SecurityDescriptor.Proofs.TextLines

/-!
# A dump keeps its lines apart

What a record line gives, a descriptor or an error, and what is reported on the way to it, can be
told from the line alone (`describe`, `lineEvents`).  One line more adds to a dump what can be told
from these, and leaves what is there as it is (`Dump.Accounts.concat`).  So the dump of some lines
has one block for each line that gives a descriptor, headed by the line's index, and one error for
each other line, behind the events of that line.

    (ofLines format mode display lines).text = String.join (blocks format mode lines)
    ofLines format mode display (xs ++ ys) =
      ofLines format mode display xs ++
        ofOutcomes display (shift xs.length (outcomes format mode ys))
                                                                      (Dump.ofLines_isolates)

The heads can be counted in the text, since no line of a descriptor's text begins like one.
-/

namespace SecurityDescriptor

/-! ## Characters of a descriptor's text -/

section Hash

theorem hash_not_mem_of_isAlphanum {cs : List Char} (h : ∀ c ∈ cs, c.isAlphanum = true) :
    '#' ∉ cs := fun hc => absurd (h _ hc) (by decide)

@[simp] theorem hash_not_mem_fixed (w n : Nat) : '#' ∉ Hex.fixed w n :=
  hash_not_mem_of_isAlphanum fun _ => Hex.isAlphanum_of_mem_fixed

@[simp] theorem hash_not_mem_toDigits (n : Nat) : '#' ∉ Nat.toDigits 10 n := fun h =>
  absurd (Nat.isDigit_of_mem_toDigits (by decide) (by decide) h) (by decide)

@[simp] theorem Sid.hash_not_mem_text (s : Sid) : '#' ∉ s.text.toList := fun h =>
  absurd (Sid.mem_text h) (by decide)

@[simp] theorem Guid.hash_not_mem_text (g : Guid) : '#' ∉ g.text.toList := fun h =>
  absurd (Guid.mem_text h) (by decide)

@[simp] theorem Ace.hash_not_mem_name (a : Ace) : '#' ∉ a.aceType.name.toList := by
  unfold aceType
  cases a.access <;> cases a.payload.layout <;> decide

theorem hash_not_mem_orNone {α : Type} {f : α → String} (h : ∀ a, '#' ∉ (f a).toList)
    (x : Option α) : '#' ∉ (Text.orNone (x.map f)).toList := by
  cases x with
  | none => exact show '#' ∉ "None".toList by decide
  | some a => exact h a

theorem Ace.hash_not_mem_text (a : Ace) : '#' ∉ a.text.toList := by
  have hpayload : '#' ∉ a.payload.text.toList := by
    cases a.payload with
    | plain p => simp [Payload.text, PlainPayload.text, Text.line]
    | object p =>
      simp [Payload.text, ObjectPayload.text, Text.line,
        hash_not_mem_orNone Guid.hash_not_mem_text]
  simp [text, Text.line, hpayload]

theorem Acl.hash_not_mem_text (a : Acl) : '#' ∉ a.text.toList := by
  simp [text, Text.line, String.toList_join, Ace.hash_not_mem_text]

/-- No line of a descriptor's text looks like the head of a block. -/
theorem Descriptor.hash_not_mem_text (d : Descriptor) : '#' ∉ d.text.toList := by
  simp [text, Text.line, hash_not_mem_orNone Sid.hash_not_mem_text,
    hash_not_mem_orNone Acl.hash_not_mem_text]

end Hash

/-! ## One line -/

/-- A descriptor's text behind its index, and an empty line. -/
def block (index : Nat) (sd : Descriptor) : String :=
  "# record " ++ toString index ++ "\r\n" ++ sd.text ++ "\r\n"

/-- A line that begins like the head of a block. -/
def isHead (l : List Char) : Bool := "# record ".toList.isPrefixOf l

section Lines

variable (format : LineFormat) (mode : Mode)

/-- What a record line gives on its own. -/
def describe (line : String) : Except RecordError Descriptor :=
  match decodeLine format line with
  | .error e => .error (.line e)
  | .ok data => (Descriptor.decoder mode (.start data)).result.mapError .decode

/-- What the decode of a record line reports on its own. -/
def lineEvents (line : String) : List Event :=
  match decodeLine format line with
  | .error _ => []
  | .ok data => (Descriptor.decoder mode (.start data)).trace

/-- The error of a line with a given index, if it gives no descriptor. -/
def lineFailure? (line : String) (index : Nat) : Option Notice :=
  match describe format mode line with
  | .error e => some (.recordFailed index e)
  | .ok _ => none

/-- The block of a line with a given index, if it gives a descriptor. -/
def block? (line : String) (index : Nat) : Option String :=
  match describe format mode line with
  | .error _ => none
  | .ok sd => some (block index sd)

namespace Dump

/-- The blocks of the lines that give descriptors, in order. -/
def blocks (lines : List String) : List String :=
  lines.zipIdx.filterMap fun (line, i) => block? format mode line i

/-- The errors of the lines that give none, in order. -/
def errors (lines : List String) : List Notice :=
  lines.zipIdx.filterMap fun (line, i) => lineFailure? format mode line i

/-- What becomes of the lines, one by one. -/
def outcomes (lines : List String) : List Outcome := lines.mapIdx (Outcome.ofLine format mode)

/-- The same outcomes with `n` lines more in front. -/
def shift (n : Nat) (os : List Outcome) : List Outcome :=
  os.map fun o => { o with index := o.index + n }

/-- What a dump makes of outcomes. -/
def ofOutcomes (display : Bool) (os : List Outcome) : Dump := os.foldl (step display) start

/-- A dump and what another did after it. -/
instance : Append Dump where
  append d d' := ⟨d.text ++ d'.text, d.log ++ d'.log, d.failures + d'.failures,
    d.updates + d'.updates⟩

end Dump

namespace Outcome

/-- Only the index tells where a line stood. -/
theorem ofLine_eq (index : Nat) (line : String) :
    ofLine format mode index line =
      ⟨index, describe format mode line, lineEvents format mode line⟩ := by
  unfold ofLine describe lineEvents
  cases decodeLine format line <;> rfl

theorem text_ofLine (index : Nat) (line : String) :
    (ofLine format mode index line).text =
      String.join (block? format mode line index).toList := by
  rw [ofLine_eq, block?, text]
  cases describe format mode line with
  | error e => rfl
  | ok sd => simp [block, Text.line, String.append_assoc]

theorem log_ofLine (index : Nat) (line : String) :
    (ofLine format mode index line).log =
      (lineEvents format mode line).map .event ++ (lineFailure? format mode line index).toList := by
  rw [ofLine_eq, lineFailure?, log]
  cases describe format mode line <;> rfl

/-- Events are no errors. -/
theorem filter_log_ofLine (index : Nat) (line : String) :
    (ofLine format mode index line).log.filter (·.level = .error) =
      (lineFailure? format mode line index).toList := by
  have hevents :
      ((lineEvents format mode line).map Notice.event).filter (·.level = .error) = [] := by
    simp [Notice.level]
  rw [log_ofLine, List.filter_append, hevents, lineFailure?]
  cases describe format mode line <;> rfl

/-- A line either fails or makes a block. -/
theorem failed_ofLine (index : Nat) (line : String) :
    (ofLine format mode index line).failed = (block? format mode line index).isNone := by
  rw [ofLine_eq, block?]
  cases describe format mode line <;> rfl

end Outcome

end Lines

/-! ## Heads -/

theorem hash_mem_of_isHead {l : List Char} (h : isHead l = true) : '#' ∈ l :=
  (List.isPrefixOf_iff_prefix.1 h).subset (by simp)

/-- The first line of a block is a head. -/
theorem lines_head (index : Nat) :
    Text.lines ("# record ".toList ++ Nat.toDigits 10 index ++ ['\r', '\n']) =
      ["# record ".toList ++ Nat.toDigits 10 index ++ ['\n']] := by
  have hdigit : ∀ c ∈ Nat.toDigits 10 index, c.isDigit = true := fun c =>
    Nat.isDigit_of_mem_toDigits (by decide) (by decide)
  have hmem : ∀ c : Char, c ∈ "# record ".toList ++ Nat.toDigits 10 index →
      c ∈ "# record ".toList ∨ c.isDigit = true := by
    intro c hc
    exact (List.mem_append.1 hc).imp_right (hdigit c)
  apply Text.lines_line
  · intro hc
    exact absurd (hmem _ hc) (by decide)
  · intro hc
    exact absurd (hmem _ hc) (by decide)
  · simp [Text.lineEnds]

/-- The other lines of a block are not. -/
theorem countP_lines_text (sd : Descriptor) :
    (Text.lines (sd.text.toList ++ ['\r', '\n'])).countP isHead = 0 := by
  rw [List.countP_eq_zero]
  intro l hl hp
  rcases Text.mem_of_mem_lines hl (hash_mem_of_isHead hp) with hc | hc
  · exact absurd hc (by decide)
  · rcases List.mem_append.1 hc with hc | hc
    · exact sd.hash_not_mem_text hc
    · exact absurd hc (by decide)

theorem countP_lines_block_append (index : Nat) (sd : Descriptor) (rest : List Char) :
    (Text.lines ((block index sd).toList ++ rest)).countP isHead =
      (Text.lines rest).countP isHead + 1 := by
  have hblock : (block index sd).toList ++ rest =
      ("# record ".toList ++ Nat.toDigits 10 index ++ ['\r', '\n']) ++
        ((sd.text.toList ++ ['\r', '\n']) ++ rest) := by
    simp [block]
  have hfirst : isHead ("# record ".toList ++ Nat.toDigits 10 index ++ ['\n']) = true :=
    List.isPrefixOf_iff_prefix.2 ⟨_, (List.append_assoc ..).symm⟩
  rw [hblock, Text.lines_append_of_getLast? (Text.getLast?_append_crlf _),
    Text.lines_append_of_getLast? (Text.getLast?_append_crlf _), lines_head, List.countP_append,
    List.countP_append, countP_lines_text, List.countP_singleton, if_pos hfirst]
  omega

theorem countP_lines_join {bs : List String} (h : ∀ b ∈ bs, ∃ i sd, b = block i sd) :
    (Text.lines (String.join bs).toList).countP isHead = bs.length := by
  induction bs with
  | nil => rfl
  | cons b bs ih =>
    obtain ⟨i, sd, rfl⟩ := h b List.mem_cons_self
    rw [String.join_cons, String.toList_append, countP_lines_block_append,
      ih fun b hb => h b (List.mem_cons_of_mem _ hb), List.length_cons]

/-! ## Line after line -/

namespace Dump

variable (format : LineFormat) (mode : Mode) (display : Bool)

/-- What there is to say of the dump `d` of some lines: its text is their blocks; its log has for
each line its events and then its error, if it has one; lines that failed, blocks and steps of the
display are accounted for. -/
structure Accounts (lines : List String) (d : Dump) : Prop where
  text_eq : d.text = String.join (blocks format mode lines)
  failures_add : d.failures + (blocks format mode lines).length = lines.length
  log_eq : d.log = lines.zipIdx.flatMap fun (line, i) =>
    (lineEvents format mode line).map .event ++ (lineFailure? format mode line i).toList
  errors_eq : d.log.filter (·.level = .error) = errors format mode lines
  updates_eq : d.updates = if display then lines.length else 0

variable {format mode display} {lines : List String}

theorem blocks_concat (lines : List String) (line : String) :
    blocks format mode (lines ++ [line]) =
      blocks format mode lines ++ (block? format mode line lines.length).toList := by
  cases h : block? format mode line lines.length <;> simp [blocks, List.zipIdx_append, h]

theorem errors_concat (lines : List String) (line : String) :
    errors format mode (lines ++ [line]) =
      errors format mode lines ++ (lineFailure? format mode line lines.length).toList := by
  cases h : lineFailure? format mode line lines.length <;>
    simp [errors, List.zipIdx_append, h]

/-- One line more adds its block or its error, its events and a step of the display. -/
theorem Accounts.concat {d : Dump} (h : Accounts format mode display lines d) (line : String) :
    Accounts format mode display (lines ++ [line])
      (d.step display (Outcome.ofLine format mode lines.length line)) where
  text_eq := by
    rw [step, blocks_concat, String.join_append, h.text_eq, ← Outcome.text_ofLine]
  failures_add := by
    have hlines := h.failures_add
    rw [step, blocks_concat, Outcome.failed_ofLine, List.length_append, List.length_append,
      List.length_singleton]
    cases block? format mode line lines.length with
    | none =>
      simp only [Option.isNone_none, if_true, Option.toList_none, List.length_nil]
      omega
    | some b =>
      simp only [Option.isNone_some, Bool.false_eq_true, if_false, Option.toList_some,
        List.length_singleton]
      omega
  log_eq := by
    rw [step, h.log_eq, List.zipIdx_append, List.flatMap_append]
    simp [Outcome.log_ofLine]
  errors_eq := by
    rw [step, errors_concat, List.filter_append, h.errors_eq, Outcome.filter_log_ofLine]
  updates_eq := by
    rw [step, h.updates_eq, List.length_append, List.length_singleton]
    cases display <;> rfl

theorem ofLines_concat (lines : List String) (line : String) :
    ofLines format mode display (lines ++ [line]) =
      (ofLines format mode display lines).step display
        (Outcome.ofLine format mode lines.length line) := by
  rw [ofLines, List.zipIdx_append, List.foldl_append]
  simp [ofLines]

theorem accounts_ofLines (format : LineFormat) (mode : Mode) (display : Bool)
    (lines : List String) :
    Accounts format mode display lines (ofLines format mode display lines) := by
  induction lines using List.reverseRecOn with
  | nil => exact ⟨rfl, rfl, rfl, rfl, by cases display <;> rfl⟩
  | append_singleton lines line ih =>
    rw [ofLines_concat]
    exact ih.concat line

/-! ### Dumps one after the other -/

theorem append_start (d : Dump) : d ++ start = d := by
  show Dump.mk (d.text ++ "") (d.log ++ []) (d.failures + 0) (d.updates + 0) = _
  rw [String.append_empty, List.append_nil]
  rfl

/-- A step does not see what was done before. -/
theorem append_step (d d' : Dump) (o : Outcome) :
    (d ++ d').step display o = d ++ d'.step display o := by
  have hcount (b : Bool) (m n : Nat) :
      (if b then m + n + 1 else m + n) = m + if b then n + 1 else n := by
    cases b <;> rfl
  show Dump.mk ((d.text ++ d'.text) ++ o.text) ((d.log ++ d'.log) ++ o.log) _ _ =
    Dump.mk (d.text ++ (d'.text ++ o.text)) (d.log ++ (d'.log ++ o.log)) _ _
  rw [String.append_assoc, List.append_assoc]
  congr 1
  · exact hcount o.failed d.failures d'.failures
  · exact hcount display d.updates d'.updates

theorem foldl_step (d : Dump) (os : List Outcome) :
    os.foldl (step display) d = d ++ ofOutcomes display os := by
  induction os using List.reverseRecOn with
  | nil => exact (append_start d).symm
  | append_singleton os o ih =>
    rw [ofOutcomes, List.foldl_append, List.foldl_append, ih]
    exact append_step d _ o

theorem ofOutcomes_append (xs ys : List Outcome) :
    ofOutcomes display (xs ++ ys) = ofOutcomes display xs ++ ofOutcomes display ys := by
  rw [ofOutcomes, List.foldl_append, foldl_step]
  rfl

theorem ofLines_eq (format : LineFormat) (mode : Mode) (display : Bool) (lines : List String) :
    ofLines format mode display lines = ofOutcomes display (outcomes format mode lines) := by
  rw [ofLines, ofOutcomes, outcomes, List.mapIdx_eq_zipIdx_map, List.foldl_map]

/-- Lines in front move the indices of those behind them and nothing else. -/
theorem outcomes_append (xs ys : List String) :
    outcomes format mode (xs ++ ys) =
      outcomes format mode xs ++ shift xs.length (outcomes format mode ys) := by
  rw [outcomes, List.mapIdx_append]
  congr 1
  apply List.ext_getElem?
  intro i
  rw [shift, outcomes, List.getElem?_map, List.getElem?_mapIdx, List.getElem?_mapIdx,
    Option.map_map]
  congr 1
  funext line
  rw [Function.comp_apply, Outcome.ofLine_eq, Outcome.ofLine_eq]

theorem ofLines_append (xs ys : List String) :
    ofLines format mode display (xs ++ ys) = ofLines format mode display xs ++
      ofOutcomes display (shift xs.length (outcomes format mode ys)) := by
  rw [ofLines_eq, ofLines_eq, outcomes_append, ofOutcomes_append]

/-- One line between others does what it does between what theirs do. -/
theorem ofLines_append_cons (xs : List String) (line : String) (ys : List String) :
    ofLines format mode display (xs ++ line :: ys) =
      ofLines format mode display xs ++
        start.step display (Outcome.ofLine format mode xs.length line) ++
        ofOutcomes display (shift (xs.length + 1) (outcomes format mode ys)) := by
  have hline : ofLines format mode display (xs ++ [line]) = ofLines format mode display xs ++
      start.step display (Outcome.ofLine format mode xs.length line) := by
    rw [ofLines_concat, ← append_step, append_start]
  rw [List.append_cons, ofLines_append, hline, List.length_append, List.length_singleton]

theorem failures_ofOutcomes (os : List Outcome) :
    (ofOutcomes display os).failures = os.countP Outcome.failed := by
  induction os using List.reverseRecOn with
  | nil => rfl
  | append_singleton os o ih =>
    rw [ofOutcomes_append, List.countP_append, List.countP_singleton, ← ih]
    show _ + (if o.failed then 0 + 1 else 0) = _
    rw [Nat.zero_add]

/-- Indices do not count. -/
theorem failures_shift (n : Nat) (os : List Outcome) :
    (ofOutcomes display (shift n os)).failures = (ofOutcomes display os).failures := by
  rw [failures_ofOutcomes, failures_ofOutcomes, shift, List.countP_map]
  rfl

theorem heads_ofLines (format : LineFormat) (mode : Mode) (display : Bool) (lines : List String) :
    (Text.lines (ofLines format mode display lines).text.toList).countP isHead =
      (blocks format mode lines).length := by
  rw [(accounts_ofLines format mode display lines).text_eq]
  apply countP_lines_join
  intro b hb
  obtain ⟨⟨line, i⟩, -, hline⟩ := List.mem_filterMap.1 hb
  simp only [block?] at hline
  split at hline
  · cases hline
  · next sd _ => exact ⟨i, sd, (Option.some.inj hline).symm⟩

/-- A line that fails writes nothing, counts as one failure and moves the display. -/
theorem step_failing {line : String} {e : RecordError}
    (h : describe format mode line = .error e) (index : Nat) :
    start.step display (Outcome.ofLine format mode index line) =
      ⟨"", (lineEvents format mode line).map .event ++ [.recordFailed index e], 1,
        if display then 1 else 0⟩ := by
  rw [Outcome.ofLine_eq, h]
  rfl

/-- **A dump isolates its failures and accounts for every line.**  Its text is made of the blocks
of the lines that give descriptors, its log of the events of each line and the error of each line
that gives none, all told from the lines one by one.  Blocks and failures add up to the lines, as
do the steps of the display, and the lines of the text that begin like a head are as many as the
blocks.  So lines in front only move indices, and of two lines that fail one can stand for the
other: nothing but what is logged of that line changes. -/
theorem ofLines_isolates (format : LineFormat) (mode : Mode) (display : Bool)
    (lines : List String) :
    Accounts format mode display lines (ofLines format mode display lines) ∧
    (Text.lines (ofLines format mode display lines).text.toList).countP isHead =
      (blocks format mode lines).length ∧
    (∀ ys, ofLines format mode display ys = ofOutcomes display (outcomes format mode ys) ∧
      let behind := ofOutcomes display (shift lines.length (outcomes format mode ys))
      outcomes format mode (lines ++ ys) =
        outcomes format mode lines ++ shift lines.length (outcomes format mode ys) ∧
      ofLines format mode display (lines ++ ys) =
        ofLines format mode display lines ++ behind ∧
      (ofLines format mode display (lines ++ ys)).text =
        (ofLines format mode display lines).text ++ behind.text ∧
      (ofLines format mode display (lines ++ ys)).log =
        (ofLines format mode display lines).log ++ behind.log ∧
      (ofLines format mode display (lines ++ ys)).failures =
        (ofLines format mode display lines).failures +
          (ofLines format mode display ys).failures) ∧
    (∀ line line' e e' ys, describe format mode line = .error e →
      describe format mode line' = .error e' →
      let d := ofLines format mode display (lines ++ line :: ys)
      let d' := ofLines format mode display (lines ++ line' :: ys)
      d'.text = d.text ∧ d'.failures = d.failures ∧ d'.updates = d.updates ∧
      ∃ front back,
        d.log = front ++ ((lineEvents format mode line).map .event
          ++ [.recordFailed lines.length e]) ++ back ∧
        d'.log = front ++ ((lineEvents format mode line').map .event
          ++ [.recordFailed lines.length e']) ++ back) := by
  refine ⟨accounts_ofLines format mode display lines, heads_ofLines format mode display lines,
    ?_, ?_⟩
  · intro ys
    have happend : ofLines format mode display (lines ++ ys) = _ := ofLines_append lines ys
    refine ⟨ofLines_eq format mode display ys, outcomes_append lines ys, happend, ?_, ?_, ?_⟩
    · rw [happend]
      rfl
    · rw [happend]
      rfl
    · rw [happend, ofLines_eq format mode display ys, ← failures_shift lines.length]
      rfl
  · intro line line' e e' ys h h'
    simp only [ofLines_append_cons, step_failing h, step_failing h']
    exact ⟨rfl, rfl, rfl, (ofLines format mode display lines).log, _, rfl, rfl⟩

end Dump

end SecurityDescriptor
