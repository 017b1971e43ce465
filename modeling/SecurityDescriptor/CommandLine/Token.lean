import SecurityDescriptor.CommandLine.Opt
import SecurityDescriptor.Text.DecimalDigit

/-!
# Tokens of the command line

Every argument is sorted by its own look.  An option may be written by its long name in
full, by any start of it that no other name has, or by its letter.  Text may be attached
to it: after `=`, and behind a letter also at once.  A dash alone, a negative number, and
an argument with a space that names no option are plain.  From the mark `--` on all
arguments are plain.
-/

namespace SecurityDescriptor.CommandLine

/-- What an argument is. -/
inductive Token where
  /-- Not an option. -/
  | plain (text : String)
  /-- The end of the options. -/
  | mark
  /-- An option by its long name, with the text attached to it. -/
  | long (o : Opt) (attached : Option (List Char))
  /-- An option by its letter, with the text attached to it. -/
  | short (o : Opt) (attached : Option (List Char))
  /-- It looks like an option, but there is none of this name. -/
  | unknown (text : String)
deriving DecidableEq, Repr

namespace Token

/-- The text without one line feed at its end. -/
def dropFinalNewline (cs : List Char) : List Char :=
  if cs.getLast? = some '\n' then cs.dropLast else cs

/-- A dash and then digits, among them at most one point, which digits follow.  A line
feed may end it. -/
def isNegativeNumber (cs : List Char) : Bool :=
  match cs with
  | '-' :: number =>
    let digits := dropFinalNewline number
    match digits.dropWhile Text.isDecimalDigit with
    | [] => !digits.isEmpty
    | '.' :: fraction => !fraction.isEmpty && fraction.all Text.isDecimalDigit
    | _ => false
  | _ => false

/-- An argument that starts with a dash and names no option. -/
def ofOther (text : String) : Token :=
  if isNegativeNumber text.toList || text.toList.contains ' ' then plain text else unknown text

/-- The part before the first `=`, and the part after it if there is one. -/
def splitValue (cs : List Char) : List Char × Option (List Char) :=
  (cs.takeWhile (· != '='), (cs.dropWhile (· != '=')).tail?)

/-- An argument that starts with two dashes. -/
def ofLong (text : String) : Except UsageError Token :=
  let (name, value) := splitValue text.toList
  match Opt.ofLongName? text.toList, Opt.ofLongName? name, Opt.candidates name with
  | some o, _, _ => .ok (long o none)
  | none, some o, _ => .ok (long o value)
  | none, none, [] => .ok (ofOther text)
  | none, none, [o] => .ok (long o value)
  | none, none, os => .error (.ambiguous text os)

/-- The text that the characters behind a letter attach to it: one `=` in front is not
part of it. -/
def attachedText : List Char → Option (List Char)
  | [] => none
  | '=' :: cs => some cs
  | cs => some cs

/-- An argument of one dash, the character `c` and the rest. -/
def ofShort (text : String) (c : Char) (rest : List Char) : Token :=
  match Opt.ofLetter? c with
  | some o => short o (attachedText rest)
  | none => ofOther text

/-- Sorts an argument. -/
def ofArgument (text : String) : Except UsageError Token :=
  match text.toList with
  | '-' :: '-' :: _ => ofLong text
  | '-' :: c :: cs => .ok (ofShort text c cs)
  | _ => .ok (plain text)

/-- Sorts all arguments. -/
def ofArguments : List String → Except UsageError (List Token)
  | [] => .ok []
  | a :: as =>
    if a = "--" then .ok (mark :: as.map plain)
    else
      match ofArgument a with
      | .error e => .error e
      | .ok t => (ofArguments as).map (t :: ·)

end Token

end SecurityDescriptor.CommandLine
