import SecurityDescriptor.CommandLine.Token
import SecurityDescriptor.Input
import SecurityDescriptor.Mode

/-!
# Arguments of the command

Tokens are taken one by one, from left to right.  An option acts when it has all it
needs, so the last of several values counts, and a wrong value is met before what stands
behind it.  The first plain token names the input, and a mark next to it belongs to it;
every other plain token is one too many.  What is missing or too much is only told at
the end.

The text attached to an option is its value.  Attached to the letter of an option without
a value it holds the letters of more options, all of which have to be letters of options
before any of them acts.
-/

namespace SecurityDescriptor.CommandLine

/-- Where the dump goes. -/
inductive Target where
  | stdout
  | file (path : String)
  /-- A file is asked for, but not by a name. -/
  | nameless
deriving DecidableEq, Repr

/-- What a run is asked to do. -/
structure Settings where
  verbosity : Nat
  mode : Mode
  format : LineFormat
  target : Target
  input : String
deriving DecidableEq, Repr

/-- What the arguments ask for. -/
inductive Request where
  | help
  | error (e : UsageError)
  | run (s : Settings)
deriving DecidableEq, Repr

/-! ## Groups of options -/

/-- How a group of options ends. -/
inductive Ending where
  /-- No option of the group takes a value. -/
  | done
  /-- The value of the last option is the next argument. -/
  | awaiting (o : Opt)
  /-- The last option has its value. -/
  | value (o : Opt) (value : String)
deriving DecidableEq, Repr

/-- Options written together: some without a value, and how they end. -/
structure Group where
  flags : List Opt
  ending : Ending
deriving DecidableEq, Repr

namespace Group

/-- An option with nothing attached. -/
def ofBare (o : Opt) : Group := if o.takesValue then ⟨[], .awaiting o⟩ else ⟨[o], .done⟩

/-- An option with an attached value. -/
def ofValue (o : Opt) (value : List Char) : Except UsageError Group :=
  if o.takesValue then .ok ⟨[], .value o (String.ofList value)⟩
  else .error (.ignoredValue o (String.ofList value))

/-- An option by its long name. -/
def ofLong (o : Opt) : Option (List Char) → Except UsageError Group
  | none => .ok (ofBare o)
  | some value => ofValue o value

/-- An option by its letter, and the characters behind it. -/
def ofLetters (o : Opt) : List Char → Except UsageError Group
  | [] => .ok (ofBare o)
  | c :: cs =>
    match o.takesValue, Opt.ofLetter? c with
    | false, some o' => (ofLetters o' cs).map fun g => { g with flags := o :: g.flags }
    | _, _ => ofValue o (c :: cs)

/-- An option by its letter.  An empty text is a value, since it holds no letter. -/
def ofShort (o : Opt) : Option (List Char) → Except UsageError Group
  | some (c :: cs) => ofLetters o (c :: cs)
  | attached => ofLong o attached

end Group

/-! ## Progress -/

/-- What the last token leaves open. -/
inductive Pending where
  | nothing
  /-- The input was just named: a mark would belong to it. -/
  | markOfInput
  /-- An option waits for its value, behind options that have not acted yet. -/
  | value (flags : List Opt) (o : Opt)
deriving DecidableEq, Repr

/-- What the tokens so far have set. -/
structure Progress where
  verbosity : Nat
  mode : Mode
  format : LineFormat
  target : Target
  input : Option String
  /-- The arguments that no rule explains, in order. -/
  extras : List String
  pending : Pending
deriving DecidableEq, Repr

namespace Progress

/-- Nothing is set. -/
def initial : Progress := ⟨0, .lenient, .auto, .stdout, none, [], .nothing⟩

/-- One more argument that no rule explains. -/
def withExtra (p : Progress) (s : String) : Progress :=
  { p with extras := p.extras ++ [s], pending := .nothing }

/-- Takes a plain token that is no option's value. -/
def withPlain (p : Progress) (s : String) : Progress :=
  match p.input with
  | none => { p with input := some s, pending := .markOfInput }
  | some _ => p.withExtra s

/-- Takes the mark: before the input or next to it, it does nothing. -/
def withMark (p : Progress) : Progress :=
  if p.input = none ∨ p.pending = .markOfInput then { p with pending := .nothing }
  else p.withExtra "--"

/-- Options without values act in order, up to one that asks for help. -/
def withFlags (p : Progress) : List Opt → Except Request Progress
  | [] => .ok p
  | .help :: _ => .error .help
  | .verbose :: os => withFlags { p with verbosity := p.verbosity + 1 } os
  | .strict :: os => withFlags { p with mode := .strict } os
  | _ :: os => withFlags p os

/-- The value as the option takes it: the mark is no value, even where it is attached. -/
def valueOf (text : String) : Option String := if text = "--" then none else some text

/-- An option with a value acts. -/
def withValue (p : Progress) (o : Opt) (text : String) : Except Request Progress :=
  match o, valueOf text with
  | .format, none => .ok { p with format := .ofName none }
  | .format, some value =>
    if formatNames.contains value then .ok { p with format := .ofName (some value) }
    else .error (.error (.invalidFormat value))
  | .outfile, none => .ok { p with target := .nameless }
  | .outfile, some value => .ok { p with target := .file value }
  | _, _ => .ok p

/-- The options of a group act, the one with a value at last. -/
def withOptions (p : Progress) (flags : List Opt) (o : Opt) (value : String) :
    Except Request Progress :=
  match withFlags { p with pending := .nothing } flags with
  | .error r => .error r
  | .ok p => p.withValue o value

/-- Takes a group, whose options act unless a value has to come first. -/
def withGroup (p : Progress) : Except UsageError Group → Except Request Progress
  | .error e => .error (.error e)
  | .ok ⟨flags, .done⟩ => withFlags { p with pending := .nothing } flags
  | .ok ⟨flags, .awaiting o⟩ => .ok { p with pending := .value flags o }
  | .ok ⟨flags, .value o value⟩ => p.withOptions flags o value

/-- Takes a token. -/
def withToken (p : Progress) (t : Token) : Except Request Progress :=
  match p.pending, t with
  | .value flags o, .plain s => p.withOptions flags o s
  | .value _ o, _ => .error (.error (.missingValue o))
  | _, .plain s => .ok (p.withPlain s)
  | _, .mark => .ok p.withMark
  | _, .unknown s => .ok (p.withExtra s)
  | _, .long o attached => p.withGroup (Group.ofLong o attached)
  | _, .short o attached => p.withGroup (Group.ofShort o attached)

/-- What is asked for when all tokens are taken. -/
def finish (p : Progress) : Request :=
  match p.pending, p.input, p.extras with
  | .value _ o, _, _ => .error (.missingValue o)
  | _, none, _ => .error .missingInput
  | _, some input, [] => .run ⟨p.verbosity, p.mode, p.format, p.target, input⟩
  | _, some _, extras => .error (.unrecognized extras)

/-- Takes all tokens. -/
def run (p : Progress) : List Token → Request
  | [] => p.finish
  | t :: ts =>
    match p.withToken t with
    | .error r => r
    | .ok p => p.run ts

end Progress

/-- What a list of arguments asks for. -/
def Request.ofArguments (args : List String) : Request :=
  match Token.ofArguments args with
  | .error e => .error e
  | .ok ts => Progress.initial.run ts

end SecurityDescriptor.CommandLine
