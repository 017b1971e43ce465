import SecurityDescriptor.Text.Quoted

/-!
# Options of the command

Each option has a long name, and some have a letter.  The last two take a value.  An
argument that cannot be understood is a `UsageError`.
-/

namespace SecurityDescriptor.CommandLine

/-- The options. -/
inductive Opt where
  | help
  | verbose
  | strict
  | format
  | outfile
deriving DecidableEq, Repr

namespace Opt

/-- All options, in the order in which they are listed. -/
def all : List Opt := [help, verbose, strict, format, outfile]

/-- The letter of an option. -/
def letter? : Opt → Option Char
  | help => some 'h'
  | verbose => some 'v'
  | strict => none
  | format => none
  | outfile => some 'o'

/-- The long name, dashes included. -/
def longName : Opt → String
  | help => "--help"
  | verbose => "--verbose"
  | strict => "--strict"
  | format => "--format"
  | outfile => "--outfile"

/-- The names of an option as messages show them. -/
def title (o : Opt) : String :=
  match o.letter? with
  | some c => String.ofList ['-', c, '/'] ++ o.longName
  | none => o.longName

/-- The option needs a value. -/
def takesValue : Opt → Bool
  | help => false
  | verbose => false
  | strict => false
  | format => true
  | outfile => true

/-- The option with a given letter. -/
def ofLetter? (c : Char) : Option Opt := all.find? (·.letter? == some c)

/-- The option with a given long name. -/
def ofLongName? (name : List Char) : Option Opt := all.find? (·.longName.toList == name)

/-- The options whose long name starts with the given characters. -/
def candidates (start : List Char) : List Opt :=
  all.filter fun o => start.isPrefixOf o.longName.toList

end Opt

/-- The formats that may be asked for by name. -/
def formatNames : List String := ["auto", "hex", "base64"]

/-- What is wrong with the arguments. -/
inductive UsageError where
  /-- An abbreviation of several long names. -/
  | ambiguous (argument : String) (candidates : List Opt)
  /-- A value given to an option that takes none. -/
  | ignoredValue (o : Opt) (value : String)
  /-- An option without the value that it needs. -/
  | missingValue (o : Opt)
  /-- A format that there is not. -/
  | invalidFormat (value : String)
  /-- No input is named. -/
  | missingInput
  /-- Arguments that no rule explains. -/
  | unrecognized (arguments : List String)
deriving DecidableEq, Repr

/-- The text of an error. -/
def UsageError.message : UsageError → String
  | ambiguous argument candidates =>
    "ambiguous option: " ++ argument ++ " could match "
      ++ String.intercalate ", " (candidates.map Opt.longName)
  | ignoredValue o value =>
    "argument " ++ o.title ++ ": ignored explicit argument " ++ Text.quoted value
  | missingValue o => "argument " ++ o.title ++ ": expected one argument"
  | invalidFormat value =>
    "argument " ++ Opt.format.title ++ ": invalid choice: " ++ Text.quoted value
      ++ " (choose from " ++ String.intercalate ", " (formatNames.map Text.quoted) ++ ")"
  | missingInput => "the following arguments are required: infile"
  | unrecognized arguments =>
    "unrecognized arguments: " ++ String.intercalate " " arguments

end SecurityDescriptor.CommandLine
