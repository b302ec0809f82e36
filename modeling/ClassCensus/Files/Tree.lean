import ClassCensus.Table
import ClassCensus.Text.Basic

/-!
# ClassCensus.Files.Tree

A file tree: files with their octets, symbolic links with their targets as written, and
directories. A location is the list of names on the way down from the root.
-/

namespace ClassCensus

abbrev Location := List Text

instance : LawfulBEq Location := inferInstanceAs (LawfulBEq (List Text))

inductive Tree where
  | file (content : List UInt8)
  | link (target : Text)
  | dir (entries : List (Text × Tree))

namespace Tree

instance : Inhabited Tree := ⟨.dir []⟩

def isDir : Tree → Bool
  | .dir _ => true
  | _ => false

def child? (t : Tree) (name : Text) : Option Tree :=
  match t with
  | .dir entries => Table.get? entries name
  | _ => none

/-- What stands at a location; links are not followed. -/
def at? : Tree → Location → Option Tree
  | t, [] => some t
  | t, name :: rest =>
    match t.child? name with
    | some below => at? below rest
    | none => none

/-- Puts a tree at a location and makes the directories on the way. -/
def put : Tree → Location → Tree → Tree
  | _, [], new => new
  | t, name :: rest, new =>
    match t with
    | .dir entries =>
      let below := (Table.get? entries name).getD (.dir [])
      .dir (Table.put entries name (put below rest new))
    | other => other

/-- Makes a directory at a location unless something stands there already. -/
def makeDir (t : Tree) (loc : Location) : Tree :=
  match t.at? loc with
  | some _ => t
  | none => t.put loc (.dir [])

/-- Takes away what stands at a location. -/
def remove : Tree → Location → Tree
  | t, [] => t
  | t, [name] =>
    match t with
    | .dir entries => .dir (Table.erase entries name)
    | other => other
  | t, name :: rest =>
    match t with
    | .dir entries =>
      match Table.get? entries name with
      | some below => .dir (Table.put entries name (remove below rest))
      | none => .dir entries
    | other => other

mutual

/-- The number of symbolic links in a tree. -/
def links : Tree → Nat
  | .file _ => 0
  | .link _ => 1
  | .dir entries => linksIn entries

def linksIn : List (Text × Tree) → Nat
  | [] => 0
  | (_, t) :: rest => links t + linksIn rest

end

end Tree
end ClassCensus
