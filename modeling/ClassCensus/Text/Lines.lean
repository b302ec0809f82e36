import ClassCensus.Text.Basic

/-!
# ClassCensus.Text.Lines

The lines of a text. A line feed, a carriage return, and the two together each end a line, and
nothing else does.
-/

namespace ClassCensus
namespace Text

/-- Writes every line break as a line feed. -/
def unifyBreaks : Text → Text
  | [] => []
  | '\r' :: '\n' :: t => '\n' :: unifyBreaks t
  | '\r' :: t => '\n' :: unifyBreaks t
  | c :: t => c :: unifyBreaks t

/-- Drops the empty piece after a final break. -/
def dropOpenEnd (ps : List Text) : List Text :=
  match ps.getLast? with
  | some [] => ps.dropLast
  | _ => ps

/-- The lines of a text without their breaks; a break at the end opens no further line. -/
def lines (t : Text) : List Text := dropOpenEnd (pieces '\n' (unifyBreaks t))

end Text
end ClassCensus
