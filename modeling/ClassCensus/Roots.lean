import ClassCensus.Fingerprint

/-!
# ClassCensus.Roots

The directories to scan, in the order they were first added, each with the word on whether its
subdirectories are scanned too. A path that ends in the marker is scanned without them unless
something else is asked for.
-/

namespace ClassCensus

structure Root where
  path : Text
  recursive : Bool
  deriving DecidableEq, Repr

/-- Whether the subdirectories of each root are scanned, by canonical path. -/
abbrev Roots := Table Text Bool

namespace Roots

/-- The path without the marker, and whether the marker was there. An empty marker would leave
nothing of any path. -/
def unmark (marker raw : Text) : Text × Bool :=
  if marker.isSuffixOf raw then
    let stem := if marker.isEmpty then [] else raw.take (raw.length - marker.length)
    (if stem.isEmpty then Spelling.dot else stem, true)
  else (raw, false)

/-- Adds a root; one that is there already keeps its place and takes the new word. -/
def add (fs : FileSystem) (marker : Text) (roots : Roots) (raw : Text) (recursive : Option Bool) :
    Except Failure (Root × Roots) :=
  let (path, marked) := unmark marker raw
  match fs.canonical path with
  | .error e => .error e
  | .ok key =>
    let deep := recursive.getD (!marked)
    .ok (⟨key, deep⟩, Table.put roots key deep)

def toList (roots : Roots) : List Root := roots.map fun (path, recursive) => ⟨path, recursive⟩

def contains (fs : FileSystem) (roots : Roots) (path : Text) : Except Failure Bool :=
  match fs.canonical path with
  | .error e => .error e
  | .ok key => .ok (Table.has roots key)

end Roots
end ClassCensus
