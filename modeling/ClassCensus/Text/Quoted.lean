import ClassCensus.Text.Printable

/-!
# ClassCensus.Text.Quoted

A text as a message quotes it. Single quotes stand around it unless it holds a single quote and
no double one; a backslash, the surrounding quote and the characters that cannot be shown are
escaped.
-/

namespace ClassCensus
namespace Text

/-- A number in lower-case hexadecimal, filled with zeros up to a width. -/
def hexWidth (width n : Nat) : Text :=
  let digits := Nat.toDigits 16 n
  List.replicate (width - digits.length) '0' ++ digits

/-- The escape of a character that cannot be shown as it is. -/
def escape (c : Char) : Text :=
  let n := c.toNat
  if n < 0x100 then '\\' :: 'x' :: hexWidth 2 n
  else if n < 0x10000 then '\\' :: 'u' :: hexWidth 4 n
  else '\\' :: 'U' :: hexWidth 8 n

def quoteChar (mark c : Char) : Text :=
  if c = mark || c = '\\' then ['\\', c]
  else if c = '\n' then ['\\', 'n']
  else if c = '\r' then ['\\', 'r']
  else if c = '\t' then ['\\', 't']
  else if isPrintable c then [c]
  else escape c

/-- The quotation mark around a text. -/
def quoteMark (t : Text) : Char := if t.contains '\'' && !t.contains '"' then '"' else '\''

def quote (t : Text) : Text :=
  let mark := quoteMark t
  mark :: t.flatMap (quoteChar mark) ++ [mark]

end Text
end ClassCensus
