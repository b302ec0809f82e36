import ClassCensus.Files.System

/-!
# ClassCensus.Files.Canonical

The canonical path of a file: absolute, without links, dots or repeated slashes, so that all
spellings of one file agree.

Links are replaced name by name. What does not exist or cannot be examined is kept as written.
A link met again while it is being replaced is a loop: its path is kept, the names after it are
added as they stand, and the whole is only cleaned of dots.
-/

namespace ClassCensus

/-- A path while its links are being replaced: relative ones may start with double dots. -/
structure Route where
  absolute : Bool
  parts : List Text
  deriving DecidableEq, Repr

namespace Route

def up (r : Route) : Route :=
  match r.parts.getLast? with
  | none => if r.absolute then r else { r with parts := [Spelling.dotDot] }
  | some last =>
    if last = Spelling.dotDot then { r with parts := r.parts ++ [Spelling.dotDot] }
    else { r with parts := r.parts.dropLast }

def down (r : Route) (name : Text) : Route := { r with parts := r.parts ++ [name] }

def text (r : Route) : Text :=
  (if r.absolute then ['/'] else []) ++ Text.join ['/'] r.parts

/-- The route that a path starts from: the root, or the given place. -/
def base (here : Route) (path : Text) : Route :=
  match path with
  | '/' :: _ => ⟨true, []⟩
  | _ => here

/-- The location of a route seen from the current directory. -/
def location (cwd : Location) (r : Route) : Location :=
  Spelling.foldDots (if r.absolute then [] else cwd) r.parts

end Route

/-- The outcome of replacing links. -/
inductive Trace where
  | reached (route : Route)
  | looped (path : Text)
  | nul
  deriving DecidableEq, Repr

namespace FileSystem

/-- Follows names and replaces links by `expand`; `seen` holds the links being replaced. -/
def trace (fs : FileSystem) (seen : List Route) (expand : Route → Route → Text → Trace) :
    Route → List Text → Trace
  | here, [] => .reached here
  | here, name :: rest =>
    if Spelling.isIdle name then trace fs seen expand here rest
    else if name = Spelling.dotDot then trace fs seen expand here.up rest
    else
      let next := here.down name
      if next.text.contains '\x00' then .nul
      else
        match fs.readLink? next.text with
        | none => trace fs seen expand next rest
        | some target =>
          let tail := Text.join ['/'] rest
          if next ∈ seen then .looped (Spelling.append next.text tail)
          else
            match expand next here target with
            | .reached there => trace fs seen expand there rest
            | .looped path => .looped (Spelling.append path tail)
            | .nul => .nul

/-- Replaces links nested at most `depth` deep. -/
def traceLinks (fs : FileSystem) : (depth : Nat) → List Route → Route → List Text → Trace
  | 0, seen => trace fs seen fun link _ _ => .looped link.text
  | depth + 1, seen => trace fs seen fun link here target =>
      traceLinks fs depth (link :: seen) (Route.base here target) (Text.pieces '/' target)

/-- No replacement nests deeper: every link has one spelling from the root and one from each
directory above the current one. -/
def traceDepth (fs : FileSystem) : Nat := (fs.tree.links + 1) * (fs.cwd.length + 2)

/-- The outcome of replacing the links of a written path. -/
def follow (fs : FileSystem) (path : Text) : Trace :=
  traceLinks fs fs.traceDepth [] (Route.base ⟨false, []⟩ path) (Text.pieces '/' path)

/-- The path with its links replaced; `none` if it holds a NUL where names are examined. -/
def realPath? (fs : FileSystem) (path : Text) : Option Text :=
  match fs.follow path with
  | .reached route => some (pathOf (route.location fs.cwd))
  | .looped path => some (Spelling.absolute (pathOf fs.cwd) path)
  | .nul => none

/-- The canonical path of a file. -/
def canonical? (fs : FileSystem) (path : Text) : Option Text :=
  (fs.realPath? (Spelling.slashed path)).map Spelling.slashed

end FileSystem
end ClassCensus
