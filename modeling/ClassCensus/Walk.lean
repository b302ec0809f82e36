import ClassCensus.Files.Access
import ClassCensus.Listing
import ClassCensus.Notice
import ClassCensus.Settings.Scanner
import ClassCensus.Text.Sorted

/-!
# ClassCensus.Walk

The candidate files below a directory: its own files by name, then each subdirectory in turn.
Hidden entries are passed over, links to directories are not entered, and a directory that cannot
be listed cuts the walk short.
-/

namespace ClassCensus
namespace Walk

/-- What an entry contributes: files of the directory itself, or the files below it. -/
inductive Sight where
  | beside (found : Listing Text)
  | below (found : Listing Text)

def Sight.ofFiles : Sight → Listing Text
  | .beside found => found
  | .below _ => .empty

def Sight.ofSubtree : Sight → Listing Text
  | .beside _ => .empty
  | .below found => found

/-- The files of a directory before those below its subdirectories, each by name. -/
def arrange (sights : List (Text × Sight)) : Listing Text :=
  let sorted := Text.sortByName sights
  (Listing.concat (sorted.map (·.2.ofFiles))).append
    (Listing.concat (sorted.map (·.2.ofSubtree)))

/-- A file counts if its name has the source extension. -/
def candidate (settings : ScannerSettings) (dir name : Text) : Listing Text :=
  if Spelling.extension name = settings.sourceExtension then
    .single (Spelling.clean (Spelling.below dir name))
  else .empty

/-- A link counts if it leads to a file; one that leads nowhere is passed over. -/
def linked (fs : FileSystem) (settings : ScannerSettings) (dir name : Text) : Listing Text :=
  let path := Spelling.below dir name
  match fs.locate true path with
  | .error .noEntry => .empty
  | .error e => .refused (.system e path)
  | .ok loc =>
    match fs.tree.at? loc with
    | some (.file _) => candidate settings dir name
    | _ => .empty

mutual

/-- The candidates below a directory, which stands at `loc` and is spelled `dir`. -/
def files (fs : FileSystem) (settings : ScannerSettings) (recursive : Bool) (loc : Location)
    (dir : Text) : Tree → Listing Text
  | .dir entries =>
    if loc ∈ fs.denied then .refused (.fault (.unreadable dir Errno.denied.message))
    else arrange (sights fs settings recursive loc dir entries)
  | .file _ => .empty
  | .link _ => .empty

/-- What each entry that is not hidden contributes. -/
def sights (fs : FileSystem) (settings : ScannerSettings) (recursive : Bool) (loc : Location)
    (dir : Text) : List (Text × Tree) → List (Text × Sight)
  | [] => []
  | (name, entry) :: rest =>
    if settings.hiddenPrefix.isPrefixOf name then sights fs settings recursive loc dir rest
    else
      let seen : Sight :=
        match entry with
        | .file _ => .beside (candidate settings dir name)
        | .link _ => .beside (linked fs settings dir name)
        | .dir below =>
          if recursive then
            .below (files fs settings recursive (loc ++ [name])
              (Spelling.clean (Spelling.below dir name)) (.dir below))
          else .below .empty
      (name, seen) :: sights fs settings recursive loc dir rest

end

/-- The walk of a root: the notice that it was listed, and its candidates. -/
def enumerate (fs : FileSystem) (settings : ScannerSettings) (recursive : Bool) (root : Text) :
    Except Failure (Notice × Listing Text) :=
  let dir := Spelling.clean root
  match fs.reach dir with
  | .error e => .error e
  | .ok none => .error (.fault (.pathNotFound dir))
  | .ok (some loc) =>
    match fs.tree.at? loc with
    | some (.dir entries) =>
      if loc ∈ fs.denied then .error (.fault (.unreadable dir Errno.denied.message))
      else
        .ok (.rootEnumerated dir recursive entries.length,
          files fs settings recursive loc dir (.dir entries))
    | _ => .error (.fault (.notDirectory dir))

end Walk
end ClassCensus
