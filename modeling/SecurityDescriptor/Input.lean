import SecurityDescriptor.Bytes
import SecurityDescriptor.Text.Base64
import SecurityDescriptor.Text.Blank
import SecurityDescriptor.Text.Hex
import SecurityDescriptor.Text.Newline

/-!
# Input text

An input is UTF-8 text with one record a line, and any of the three line ends behind it.
That is so for files, and assumed of the standard input, which a system may decode in other
ways.  Blank lines and lines whose first character that is not blank is `#` carry no record.
A record line holds the bytes of a descriptor in hexadecimal or base64 digits, with blanks
around them.

The automatic format reads a line as hexadecimal if it can, and else as base64.
-/

namespace SecurityDescriptor

/-! ## Lines -/

/-- A line that is neither blank nor a comment. -/
def carriesRecord (l : List Char) : Bool :=
  match Text.strip l with
  | [] => false
  | c :: _ => c != '#'

/-- The record lines of a text, in order. -/
def recordLines (text : String) : List String :=
  ((Text.lines text.toList).filter carriesRecord).map String.ofList

/-- The record lines of an input, a file or the standard input, unless it is not UTF-8. -/
def readLines (content : ByteArray) : Option (List String) :=
  (String.fromUTF8? content).map recordLines

/-! ## Formats -/

/-- How the bytes of a record are written. -/
inductive LineFormat where
  | auto
  | hex
  | base64
deriving DecidableEq, Repr

/-- The format with a given name.  Whatever is no such name, or no text, stands for
base64. -/
def LineFormat.ofName : Option String → LineFormat
  | some "auto" => auto
  | some "hex" => hex
  | _ => base64

/-- What is wrong with a record line. -/
inductive LineError where
  /-- A character that is not the hexadecimal digit it should be, or the end. -/
  | hex (position : Nat)
  | base64 (e : Base64.Error)
deriving DecidableEq, Repr

/-- The text of an error. -/
def LineError.message : LineError → String
  | hex i => "non-hexadecimal number found in fromhex() arg at position " ++ toString i
  | base64 .nonAscii => Base64.Error.nonAscii.message
  | base64 e => "Line is neither hex nor base64 encoded! " ++ e.message

/-- Reads hexadecimal digits; spaces may stand anywhere. -/
def readHex (cs : List Char) : Except LineError Bytes :=
  (Hex.read (cs.filter (· != ' '))).mapError .hex

/-- Reads base64 digits. -/
def readBase64 (cs : List Char) : Except LineError Bytes :=
  (Base64.decode cs).mapError .base64

/-- The bytes that a record line holds. -/
def decodeLine (format : LineFormat) (line : String) : Except LineError Bytes :=
  let cs := Text.strip line.toList
  match format with
  | .hex => readHex cs
  | .base64 => readBase64 cs
  | .auto =>
    match readHex cs with
    | .ok bs => .ok bs
    | .error _ => readBase64 cs

end SecurityDescriptor
