import ClassCensus.Value.Shown

/-!
# ClassCensus.Fault

The errors of this library: each has a numbered code, a message, and the details the message was
made from. Faults compare by what they hold.
-/

namespace ClassCensus

inductive Code where
  | unparsableConfig
  | invalidSetting
  | unknownAttribute
  | pathNotFound
  | notDirectory
  | unreadable
  | unresolvable
  | reflectionFailed
  | ambiguousAttribute
  deriving DecidableEq, Repr

namespace Code

def all : List Code :=
  [unparsableConfig, invalidSetting, unknownAttribute, pathNotFound, notDirectory, unreadable,
  unresolvable, reflectionFailed, ambiguousAttribute]

def number : Code → Int
  | unparsableConfig => 2001
  | invalidSetting => 2002
  | unknownAttribute => 2003
  | pathNotFound => 3001
  | notDirectory => 3002
  | unreadable => 3003
  | unresolvable => 4001
  | reflectionFailed => 4002
  | ambiguousAttribute => 4003

def name : Code → Text
  | unparsableConfig => "CONFIG_PARSE_ERROR"
  | invalidSetting => "CONFIG_INVALID_VALUE"
  | unknownAttribute => "CONFIG_UNKNOWN_ATTRIBUTE"
  | pathNotFound => "FS_PATH_NOT_FOUND"
  | notDirectory => "FS_NOT_A_DIRECTORY"
  | unreadable => "FS_UNREADABLE"
  | unresolvable => "REFLECTION_UNRESOLVABLE"
  | reflectionFailed => "REFLECTION_FAILED"
  | ambiguousAttribute => "ATTRIBUTE_AMBIGUOUS"

def ofNumber? (n : Int) : Option Code := all.find? (·.number = n)

end Code

/-- The part of the library a fault comes from. -/
inductive Family where
  | general
  | config
  | fileSystem
  | reflection
  | ambiguity
  deriving DecidableEq, Repr

structure Fault where
  family : Family
  code : Code
  message : Text
  retryable : Bool
  details : Table Text Value

namespace Fault

/-- The code, its name and the message. -/
def shown (f : Fault) : Text :=
  List.flatten ["[", Text.ofInt f.code.number, "] ", f.code.name, ": ", f.message]

def same (a b : Fault) : Bool :=
  a.family = b.family && a.code = b.code && a.message = b.message && a.retryable = b.retryable &&
    Value.same (.record a.details) (.record b.details)

/-- A fault with text details. -/
def plain (family : Family) (code : Code) (message : List Text) (details : Table Text Text) :
    Fault :=
  ⟨family, code, message.flatten, false, details.map fun (k, t) => (k, .text t)⟩

def unparsableConfig (path reason : Text) : Fault :=
  plain .config .unparsableConfig ["Failed to parse config at ", path, ": ", reason]
    [("path".toList, path), ("reason".toList, reason)]

def invalidSetting (field : Text) (value : Value) (reason : Text) : Fault :=
  plain .config .invalidSetting ["Invalid value for '", field, "': ", reason]
    [("field".toList, field), ("value".toList, value.plain), ("reason".toList, reason)]

def unknownAttribute (name : Text) : Fault :=
  plain .config .unknownAttribute ["Attribute class ", name, " does not exist"]
    [("attribute".toList, name)]

def pathNotFound (path : Text) : Fault :=
  plain .fileSystem .pathNotFound ["Path does not exist: ", path] [("path".toList, path)]

def notDirectory (path : Text) : Fault :=
  plain .fileSystem .notDirectory ["Not a directory: ", path] [("path".toList, path)]

def unreadable (path reason : Text) : Fault :=
  plain .fileSystem .unreadable ["Unable to open ", path, ": ", reason]
    [("path".toList, path), ("reason".toList, reason)]

def unresolvable (identity : Text) : Fault :=
  plain .reflection .unresolvable ["Unable to load class: ", identity]
    [("identity".toList, identity)]

def reflectionFailed (identity reason : Text) : Fault :=
  plain .reflection .reflectionFailed ["Reflection failed for ", identity, ": ", reason]
    [("identity".toList, identity), ("reason".toList, reason)]

def ambiguousAttribute (identity wanted : Text) (count : Int) : Fault :=
  { plain .ambiguity .ambiguousAttribute
      [identity, " carries ", Text.ofInt count, " ", wanted,
        " attributes, expected at most one"] [] with
    details :=
      [("identity".toList, .text identity), ("attribute".toList, .text wanted),
        ("count".toList, .int count)] }

end Fault
end ClassCensus
