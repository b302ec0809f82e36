import ClassCensus.Files.Errno
import ClassCensus.Files.Tree
import ClassCensus.Files.Spelling

/-!
# ClassCensus.Files.System

A file system: a tree, the locations that may not be opened or listed, the current directory, and
the characters that no octets stand for.

A name on disk may hold an octet that belongs to no character. In a path it is shown as a stray, a
character set aside for it, and text with a stray in it cannot be turned into octets.

Looking a path up follows its names from the current directory or the root. A double dot goes to
the parent of the place reached, a link is replaced by its target, and more than forty links on
one way are refused. A name that is not there may be too long to be looked for.
-/

namespace ClassCensus

structure FileSystem where
  tree : Tree
  denied : List Location
  cwd : Location
  strays : List Char

namespace FileSystem

/-- Whether a text has octets. -/
def encodes (fs : FileSystem) (t : Text) : Bool := t.all (· ∉ fs.strays)

/-- The longest name, in octets. -/
def nameLimit : Nat := 255

/-- Whether a name is longer than any on disk; a stray is one octet of it. -/
def isLong (strays : List Char) (name : Text) : Bool :=
  nameLimit < Text.octets (name.filter (· ∉ strays)) + name.countP (· ∈ strays)

/-- The number of links one look-up may follow. -/
def linkLimit : Nat := 40

/-- Where the look-up of a path starts. -/
def start (here : Location) (path : Text) : Location :=
  match path with
  | '/' :: _ => []
  | _ => here

/-- Goes down by names; at a link the rest is left to `onLink`, which gets the place of the link's
directory, its target and the names that remain. With `follow` off a link in last place is itself
the answer. -/
def descend (strays : List Char) (tree : Tree) (follow : Bool)
    (onLink : Location → Text → List Text → Except Errno Location) :
    Location → List Text → Except Errno Location
  | here, [] => .ok here
  | here, name :: rest =>
    match tree.at? here with
    | some (.dir entries) =>
      if Spelling.isIdle name then descend strays tree follow onLink here rest
      else if name = Spelling.dotDot then descend strays tree follow onLink here.dropLast rest
      else
        match Table.get? entries name with
        | none => .error (if isLong strays name then .nameTooLong else .noEntry)
        | some (.link target) =>
          if rest.isEmpty && !follow then .ok (here ++ [name]) else onLink here target rest
        | some _ => descend strays tree follow onLink (here ++ [name]) rest
    | _ => .error .notDirectory

/-- Goes down by names and follows at most `links` links. -/
def resolve (strays : List Char) (tree : Tree) (follow : Bool) :
    (links : Nat) → Location → List Text → Except Errno Location
  | 0 => descend strays tree follow fun _ _ _ => .error .tooManyLinks
  | links + 1 => descend strays tree follow fun here target rest =>
      resolve strays tree follow links (start here target) (Text.pieces '/' target ++ rest)

/-- The location a written path leads to. -/
def locate (fs : FileSystem) (follow : Bool) (path : Text) : Except Errno Location :=
  if path.isEmpty then .error .noEntry
  else resolve fs.strays fs.tree follow linkLimit (start fs.cwd path) (Text.pieces '/' path)

/-- The target of a path that is a link itself. -/
def readLink? (fs : FileSystem) (path : Text) : Option Text :=
  match fs.locate false path with
  | .error _ => none
  | .ok loc =>
    match fs.tree.at? loc with
    | some (.link target) => some target
    | _ => none

/-- The octets of the file a path leads to. -/
def openFile (fs : FileSystem) (path : Text) : Except Errno (List UInt8) :=
  match fs.locate true path with
  | .error e => .error e
  | .ok loc =>
    match fs.tree.at? loc with
    | some (.file content) => if loc ∈ fs.denied then .error .denied else .ok content
    | some (.dir _) => .error .isDirectory
    | _ => .error .noEntry

/-- The path of a location. -/
def pathOf (loc : Location) : Text := '/' :: Text.join ['/'] loc

end FileSystem
end ClassCensus
