import ClassCensus.Text.Basic

/-!
# ClassCensus.Yaml.Cursor

A place in a text that is being read: what remains of it, and the line and column reached. Line
breaks other than the line feed are those of the Unicode standard; carriage returns are expected
to be gone.
-/

namespace ClassCensus
namespace Yaml

def isBreak (c : Char) : Bool :=
  c = '\n' || c = '\x85' || c = Char.ofNat 0x2028 || c = Char.ofNat 0x2029

def isSpaceOrBreak (c : Char) : Bool := c = ' ' || isBreak c

/-- White space, a line break or the end of the text. -/
def isGap : Option Char → Bool
  | none => true
  | some c => c = ' ' || c = '\t' || isBreak c

/-- A line break or the end of the text. -/
def isEnd : Option Char → Bool
  | none => true
  | some c => isBreak c

/-- A line break as part of a scalar: the separators of Unicode stay, the others become line
feeds. -/
def breakText (c : Char) : Text := if c = '\n' || c = '\x85' then ['\n'] else [c]

structure Cursor where
  rest : Text
  index : Nat
  line : Nat
  column : Nat
  deriving DecidableEq, Repr

def byteOrderMark : Char := Char.ofNat 0xFEFF

namespace Cursor

def start (t : Text) : Cursor := ⟨t, 0, 0, 0⟩

def peek (c : Cursor) (n : Nat) : Option Char := c.rest[n]?

/-- Goes past one character; a byte order mark takes no column. -/
def step (c : Cursor) : Cursor :=
  match c.rest with
  | [] => c
  | ch :: t =>
    if isBreak ch then ⟨t, c.index + 1, c.line + 1, 0⟩
    else if ch = byteOrderMark then ⟨t, c.index + 1, c.line, c.column⟩
    else ⟨t, c.index + 1, c.line, c.column + 1⟩

def skip : (n : Nat) → Cursor → Cursor
  | 0, c => c
  | n + 1, c => skip n c.step

/-- Takes the longest run of characters of a kind. -/
def takeWhile (p : Char → Bool) (c : Cursor) : Text × Cursor :=
  let run := c.rest.takeWhile p
  (run, c.skip run.length)

def skipWhile (p : Char → Bool) (c : Cursor) : Cursor := (c.takeWhile p).2

/-- Whether a document marker stands here: three dashes or dots and a gap. -/
def atMarker (c : Cursor) : Bool :=
  match c.rest with
  | a :: b :: d :: t => a = b && b = d && (a = '-' || a = '.') && isGap t.head?
  | _ => false

end Cursor
end Yaml
end ClassCensus
