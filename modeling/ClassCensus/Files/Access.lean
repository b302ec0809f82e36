import ClassCensus.Failure
import ClassCensus.Files.Canonical

/-!
# ClassCensus.Files.Access

Asking the file system for paths and contents, with the failures that come of it.
-/

namespace ClassCensus
namespace FileSystem

/-- The canonical path of a file; a path with a NUL has none. -/
def canonical (fs : FileSystem) (path : Text) : Except Failure Text :=
  match fs.canonical? path with
  | some p => .ok p
  | none => .error (.misuse .nulInPath)

/-- Where a path leads, if it leads anywhere; only a name that is too long is an error. -/
def reach (fs : FileSystem) (path : Text) : Except Failure (Option Location) :=
  if path.contains '\x00' then .ok none
  else
    match fs.locate true path with
    | .ok loc => .ok (some loc)
    | .error .nameTooLong => .error (.system .nameTooLong path)
    | .error _ => .ok none

/-- The octets of the file a path leads to; the refusal names the path. -/
def contents (fs : FileSystem) (path : Text) : Except Failure (List UInt8) :=
  match fs.openFile path with
  | .error e => .error (.system e path)
  | .ok octets => .ok octets

end FileSystem
end ClassCensus
