import ClassCensus.Files.Access

/-!
# ClassCensus.Files.Making

Making directories and files where they are missing.
-/

namespace ClassCensus

namespace Spelling

/-- The directory a path stands in; one without parts stands in itself. -/
def parent (s : Spelling) : Spelling := { s with parts := s.parts.dropLast }

end Spelling

namespace FileSystem

/-- The place of a new entry: all names but the last lead to the directory it is to stand in, and
the last one is free there. If it is that of a link the place is left to `onLink`, which gets the
place of the link's directory and its target. -/
def freePlace (strays : List Char) (tree : Tree)
    (onLink : Location → Text → Except Errno Location) (here : Location) (names : List Text) :
    Except Errno Location :=
  match resolve strays tree true linkLimit here names.dropLast with
  | .error e => .error e
  | .ok dir =>
    match tree.at? dir with
    | some (.dir entries) =>
      let name := names.getLastD []
      if Spelling.isIdle name || name = Spelling.dotDot then .error .alreadyExists
      else
        match Table.get? entries name with
        | none => if isLong strays name then .error .nameTooLong else .ok (dir ++ [name])
        | some (.link target) => onLink dir target
        | some _ => .error .alreadyExists
    | _ => .error .notDirectory

/-- The place of a new entry, which may be the missing target of a link; at most `links` links in
last place are followed. -/
def vacancy (strays : List Char) (tree : Tree) :
    (links : Nat) → Location → List Text → Except Errno Location
  | 0 => freePlace strays tree fun _ _ => .error .alreadyExists
  | links + 1 => freePlace strays tree fun dir target =>
      vacancy strays tree links (start dir target) (Text.pieces '/' target)

/-- Makes one directory. A link in last place is in its way, wherever it leads. -/
def makeDir (fs : FileSystem) (path : Text) : Except Errno FileSystem :=
  match vacancy fs.strays fs.tree 0 (start fs.cwd path) (Text.pieces '/' path) with
  | .error e => .error e
  | .ok loc => .ok { fs with tree := fs.tree.put loc (.dir []) }

def isDirectory (fs : FileSystem) (path : Text) : Bool :=
  match fs.locate true path with
  | .ok loc => ((fs.tree.at? loc).map Tree.isDir).getD false
  | .error _ => false

/-- Makes a directory unless it is there. -/
def ensureDir (fs : FileSystem) (path : Text) : Except Failure FileSystem :=
  match fs.makeDir path with
  | .ok made => .ok made
  | .error e => if fs.isDirectory path then .ok fs else .error (.system e path)

/-- Makes a directory and those above it unless they are there; its parts are given from the last
one on. -/
def ensureDirs (fs : FileSystem) (anchor : Anchor) : List Text → Except Failure FileSystem
  | [] => fs.ensureDir (Spelling.text ⟨anchor, []⟩)
  | name :: above =>
    let path := Spelling.text ⟨anchor, (name :: above).reverse⟩
    match fs.makeDir path with
    | .error .noEntry =>
      match ensureDirs fs anchor above with
      | .error e => .error e
      | .ok fs => fs.ensureDir path
    | _ => fs.ensureDir path

/-- Makes an empty file if a path leads to nothing. -/
def touch (fs : FileSystem) (path : Text) : Except Errno FileSystem :=
  match fs.locate true path with
  | .error .noEntry =>
    match vacancy fs.strays fs.tree linkLimit (start fs.cwd path) (Text.pieces '/' path) with
    | .error e => .error e
    | .ok loc => .ok { fs with tree := fs.tree.put loc (.file []) }
  | _ => .ok fs

/-- Opens a file to write at its end, and makes it if need be. -/
def openEnd (fs : FileSystem) (path : Text) : Except Errno (Location × FileSystem) :=
  match fs.touch path with
  | .error e => .error e
  | .ok fs =>
    match fs.locate true path with
    | .error e => .error e
    | .ok loc =>
      if loc ∈ fs.denied then .error .denied
      else if ((fs.tree.at? loc).map Tree.isDir).getD false then .error .isDirectory
      else .ok (loc, fs)

end FileSystem
end ClassCensus
