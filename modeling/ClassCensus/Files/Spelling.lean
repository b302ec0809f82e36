import ClassCensus.Text.Basic

/-!
# ClassCensus.Files.Spelling

Paths as they are written. A spelling collapses repeated slashes, single dots and a trailing
slash; it keeps double dots, which only the file system can resolve.
-/

namespace ClassCensus

/-- The slashes a path starts with: none, one, or exactly two, which some systems tell apart. -/
inductive Anchor where
  | relative
  | root
  | doubleRoot
  deriving DecidableEq, Repr

structure Spelling where
  anchor : Anchor
  parts : List Text
  deriving DecidableEq, Repr

namespace Spelling

def dot : Text := ['.']

def dotDot : Text := ['.', '.']

/-- A part that stays where it is. -/
def isIdle (part : Text) : Bool := part.isEmpty || part == dot

def anchorOf (t : Text) : Anchor :=
  match t with
  | '/' :: '/' :: '/' :: _ => .root
  | '/' :: '/' :: _ => .doubleRoot
  | '/' :: _ => .root
  | _ => .relative

def parse (t : Text) : Spelling := ⟨anchorOf t, (Text.pieces '/' t).filter (!isIdle ·)⟩

def Anchor.text : Anchor → Text
  | .relative => []
  | .root => ['/']
  | .doubleRoot => ['/', '/']

def text (s : Spelling) : Text :=
  match s.anchor, s.parts with
  | .relative, [] => dot
  | anchor, parts => Anchor.text anchor ++ Text.join ['/'] parts

/-- The spelling of a written path. -/
def clean (t : Text) : Text := (parse t).text

def isAbsolute (s : Spelling) : Bool := s.anchor != .relative

/-- A name below a directory, as a listing of that directory spells it. -/
def below (dir name : Text) : Text :=
  if dir.getLast? = some '/' then dir ++ name else dir ++ '/' :: name

/-- Puts a path after a directory; an absolute one replaces it. -/
def append (dir path : Text) : Text :=
  match dir, path with
  | _, '/' :: _ => path
  | [], _ => path
  | _, _ => below dir path

/-- Resolves the double dots of a list of parts by the parts before them. -/
def foldDots (start : List Text) (parts : List Text) : List Text :=
  parts.foldl (fun done part =>
    if isIdle part then done
    else if part = dotDot then done.dropLast
    else done ++ [part]) start

/-- The absolute path that a path names when double dots are taken by the letter. -/
def absolute (cwd path : Text) : Text :=
  let whole := append cwd path
  let anchor := anchorOf whole
  Anchor.text anchor ++ Text.join ['/'] (foldDots [] (Text.pieces '/' whole))

/-- Backslashes count as slashes. -/
def slashed (t : Text) : Text := t.map fun c => if c = '\\' then '/' else c

/-- The part of a name from its last dot on; a dot at either end of the name opens none. -/
def extension (name : Text) : Text :=
  match Text.splitLast? dot name with
  | some (stem, ending) => if stem.isEmpty || ending.isEmpty then [] else '.' :: ending
  | none => []

end Spelling
end ClassCensus
