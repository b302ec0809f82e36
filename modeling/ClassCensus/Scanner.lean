import ClassCensus.Catalog.Basic
import ClassCensus.Fingerprint
import ClassCensus.Record
import ClassCensus.Settings.Scanner
import ClassCensus.Source.Header
import ClassCensus.Text.Encoding
import ClassCensus.Text.Lines

/-!
# ClassCensus.Scanner

The scan of one source file for the class it declares. What the text declares is a guess until the
catalog confirms it; a guess that is not confirmed is no error.
-/

namespace ClassCensus
namespace Scanner

/-- The lines of a file under a named encoding. -/
def readLines (fs : FileSystem) (encoding path : Text) : Except Failure (List Text) :=
  if encoding.contains '\x00' then .error (.misuse .nulInName)
  else if path.contains '\x00' then .error (.misuse .nulInPath)
  else
    match fs.openFile path with
    | .error e => .error (.fault (.unreadable path e.message))
    | .ok octets =>
      match Encoding.named? encoding with
      | none => .error (.unknownEncoding encoding)
      | some e =>
        match e.decode? octets with
        | none => .error .missingByteOrderMark
        | some text => .ok (Text.lines text)

/-- The header of the file at a canonical path. -/
def readHeader (fs : FileSystem) (settings : ScannerSettings) (path : Text) :
    Except Failure Source.Header :=
  match readLines fs settings.encoding path with
  | .error e => .error e
  | .ok lines => .ok (Source.header settings.stopTokens lines)

/-- The header of a file under any spelling of its path. -/
def headerOf (fs : FileSystem) (settings : ScannerSettings) (file : Text) :
    Except Failure (Text × Source.Header) :=
  match fs.canonical file with
  | .error e => .error e
  | .ok path =>
    match readHeader fs settings path with
    | .error e => .error e
    | .ok header => .ok (path, header)

/-- The namespace of a header without the characters of the separator at its ends. -/
def spaceOf (sep : Text) (header : Source.Header) : Text :=
  Text.trimSet sep.contains (header.namespaced.getD [])

variable {κ : Type} [TypeCatalog κ]

/-- Lets the catalog confirm a declaration found at a canonical path. -/
def confirm (sep : Text) (catalog : κ) (path space name : Text) : Reply κ (Option ClassFacts) :=
  let identity := Identity.join sep space name
  let reply := TypeCatalog.confirm catalog identity
  match reply.answer with
  | .error e => ⟨.error e, reply.catalog, reply.notices⟩
  | .ok false =>
    ⟨.ok none, reply.catalog, reply.notices ++ [.unresolved path identity]⟩
  | .ok true =>
    let notices := reply.notices ++ [.classDiscovered path identity]
    match ClassFacts.check identity name space sep with
    | .error m => ⟨.error (.misuse m), reply.catalog, notices⟩
    | .ok () =>
      let second := TypeCatalog.isLoaded reply.catalog identity
      ⟨second.answer.map fun loaded => some ⟨identity, name, space, path, sep, loaded⟩,
        second.catalog, notices ++ second.notices⟩

/-- Scans a file; nothing is found if it declares no class or the catalog knows none by that
name. -/
def scan (fs : FileSystem) (settings : ScannerSettings) (catalog : κ) (file : Text) :
    Reply κ (Option ClassFacts) :=
  match headerOf fs settings file with
  | .error e => ⟨.error e, catalog, []⟩
  | .ok (path, header) =>
    match header.basename with
    | none => ⟨.ok none, catalog, [.undeclared path]⟩
    | some name =>
      confirm settings.namespaceSeparator catalog path
        (spaceOf settings.namespaceSeparator header) name

end Scanner
end ClassCensus
