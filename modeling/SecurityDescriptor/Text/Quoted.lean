import SecurityDescriptor.Text.Hex
import SecurityDescriptor.Text.Printable

/-!
# Quoted text

Messages show a text they were given between quotes, on one line.  Apostrophes are
the quotes, unless the text has apostrophes and no double quotes.  The quote and the
backslash are escaped, and so is every character that is not printable.
-/

namespace SecurityDescriptor.Text

/-- The escape of a character that is not printable, by its code point. -/
def codeEscape (c : Char) : List Char :=
  let n := c.toNat
  if n < 0x100 then '\\' :: 'x' :: Hex.fixed 2 n
  else if n < 0x10000 then '\\' :: 'u' :: Hex.fixed 4 n
  else '\\' :: 'U' :: Hex.fixed 8 n

/-- One character inside the given quotes. -/
def quotedChar (quote c : Char) : List Char :=
  if c = quote ∨ c = '\\' then ['\\', c]
  else if c = '\t' then ['\\', 't']
  else if c = '\n' then ['\\', 'n']
  else if c = '\r' then ['\\', 'r']
  else if isPrintable c then [c]
  else codeEscape c

/-- A text between quotes. -/
def quoted (s : String) : String :=
  let cs := s.toList
  let quote := if cs.contains '\'' && !cs.contains '"' then '"' else '\''
  String.ofList (quote :: cs.flatMap (quotedChar quote) ++ [quote])

end SecurityDescriptor.Text
