import ClassCensus.Value.Basic

/-!
# ClassCensus.Notice

What the library tells its log while it works.
-/

namespace ClassCensus

inductive Notice where
  | scanStarted (root : Text) (recursive : Bool)
  | rootEnumerated (root : Text) (recursive : Bool) (entries : Nat)
  | scanCompleted (root : Text) (discovered : Nat)
  | classDiscovered (file className : Text)
  | undeclared (file : Text)
  | unresolved (file className : Text)
  | classRegistered (className fingerprint : Text)
  | duplicateSkipped (file fingerprint : Text)
  | filterConfigured (names : List Text) (policy : Text)
  | moduleImported (name : Text)
  deriving DecidableEq, Repr

namespace Notice

/-- Whether a notice is of general interest; the others only serve tracing. -/
def isPublic : Notice → Bool
  | scanStarted .. => true
  | scanCompleted .. => true
  | _ => false

def title : Notice → Text
  | scanStarted .. => "scan_started"
  | rootEnumerated .. => "root_enumerated"
  | scanCompleted .. => "scan_completed"
  | classDiscovered .. => "class_discovered"
  | undeclared .. => "heuristic_miss"
  | unresolved .. => "heuristic_miss"
  | classRegistered .. => "class_registered"
  | duplicateSkipped .. => "duplicate_skipped"
  | filterConfigured .. => "attribute_filter_configured"
  | moduleImported .. => "module_imported"

def fields : Notice → Table Text Value
  | scanStarted root recursive =>
    [("root".toList, .text root), ("recursive".toList, .bool recursive)]
  | rootEnumerated root recursive entries =>
    [("root".toList, .text root), ("recursive".toList, .bool recursive),
      ("entries".toList, .int entries)]
  | scanCompleted root discovered =>
    [("root".toList, .text root), ("discovered".toList, .int discovered)]
  | classDiscovered file className =>
    [("file".toList, .text file), ("class_name".toList, .text className)]
  | undeclared file =>
    [("file".toList, .text file), ("reason".toList, .text "no_declaration")]
  | unresolved file className =>
    [("file".toList, .text file), ("class_name".toList, .text className),
      ("reason".toList, .text "unresolvable")]
  | classRegistered className fingerprint =>
    [("class_name".toList, .text className), ("fingerprint".toList, .text fingerprint)]
  | duplicateSkipped file fingerprint =>
    [("file".toList, .text file), ("fingerprint".toList, .text fingerprint)]
  | filterConfigured names policy =>
    [("attributes".toList, .list (names.map .text)), ("policy".toList, .text policy)]
  | moduleImported name => [("module".toList, .text name)]

end Notice
end ClassCensus
