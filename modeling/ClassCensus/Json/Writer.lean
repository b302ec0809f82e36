import ClassCensus.Number.Shortest
import ClassCensus.Text.Quoted
import ClassCensus.Text.Sorted
import ClassCensus.Value.Basic

/-!
# ClassCensus.Json.Writer

Values as JSON text in ASCII: a character beyond it is written by its UTF-16 units, and a comma or
a colon is followed by a space.
-/

namespace ClassCensus
namespace Json

/-- One UTF-16 unit. -/
def unit (n : Nat) : Text := '\\' :: 'u' :: Text.hexWidth 4 n

def escaped (c : Char) : Text :=
  let n := c.toNat
  if c = '"' then ['\\', '"']
  else if c = '\\' then ['\\', '\\']
  else if c = '\n' then ['\\', 'n']
  else if c = '\r' then ['\\', 'r']
  else if c = '\t' then ['\\', 't']
  else if n = 8 then ['\\', 'b']
  else if n = 12 then ['\\', 'f']
  else if 0x20 ≤ n && n < 0x7F then [c]
  else if n < 0x10000 then unit n
  else unit (0xD800 + (n - 0x10000) / 0x400) ++ unit (0xDC00 + (n - 0x10000) % 0x400)

def writeText (t : Text) : Text := '"' :: t.flatMap escaped ++ ['"']

def writeDouble : Double → Text
  | .infinite negative => if negative then "-Infinity" else "Infinity"
  | .nan => "NaN"
  | x => x.toText

def writeScalar : Scalar → Text
  | .null => "null"
  | .bool b => if b then "true" else "false"
  | .int n => Text.ofInt n
  | .real x => writeDouble x
  | .text t => writeText t

/-- The text a key of an object is. -/
def keyText : Scalar → Text
  | .text t => t
  | s => writeScalar s

mutual

def write : Value → Text
  | .scalar s => writeScalar s
  | .list items => '[' :: writeItems items ++ [']']
  | .map entries => '{' :: writeEntries entries ++ ['}']

def writeItems : List Value → Text
  | [] => []
  | [v] => write v
  | v :: rest => write v ++ ", ".toList ++ writeItems rest

def writeEntries : List (Scalar × Value) → Text
  | [] => []
  | [(k, v)] => writeText (keyText k) ++ ": ".toList ++ write v
  | (k, v) :: rest =>
    writeText (keyText k) ++ ": ".toList ++ write v ++ ", ".toList ++ writeEntries rest

end

/-- The entries of an object in the order of their keys. -/
def sortEntries (entries : List (Scalar × Value)) : List (Scalar × Value) :=
  (Text.sortByName (entries.map fun (k, v) => (keyText k, (k, v)))).map (·.2)

mutual

/-- A value with the entries of all its maps in the order of their keys. -/
def sorted : Value → Value
  | .scalar s => .scalar s
  | .list items => .list (sortedItems items)
  | .map entries => .map (sortEntries (sortedEntries entries))

def sortedItems : List Value → List Value
  | [] => []
  | v :: rest => sorted v :: sortedItems rest

def sortedEntries : List (Scalar × Value) → List (Scalar × Value)
  | [] => []
  | (k, v) :: rest => (k, sorted v) :: sortedEntries rest

end

end Json
end ClassCensus
