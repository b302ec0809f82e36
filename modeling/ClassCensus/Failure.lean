import ClassCensus.Fault
import ClassCensus.Files.Errno

/-!
# ClassCensus.Failure

Everything an operation can end with instead of an answer: a fault of the library, a refusal of
the operating system, an argument that makes no sense, or an error raised by code that belongs to
a class or a module.
-/

namespace ClassCensus

/-- An error raised by code outside the library, by the name of its kind. -/
structure Raised where
  kind : Text
  message : Text
  deriving DecidableEq, Repr

namespace Raised

/-- What the error says of itself; a missing key is quoted. -/
def shown (r : Raised) : Text :=
  if r.kind = "KeyError".toList then Text.quote r.message else r.message

end Raised

/-- Arguments that make no sense. -/
inductive Misuse where
  | nulInPath
  | nulInName
  | emptySeparator
  | emptyBasename
  | trailingSeparator (space : Text)
  | nameMismatch (given expected : Text)
  | unknownCode (number : Int)
  deriving DecidableEq, Repr

def Misuse.message : Misuse → Text
  | nulInPath => "embedded null byte"
  | nulInName => "embedded null character"
  | emptySeparator => "empty separator"
  | emptyBasename => "basename must not be empty"
  | trailingSeparator space =>
    List.flatten ["namespace has a trailing separator: ", Text.quote space]
  | nameMismatch given expected =>
    List.flatten ["class_name ", Text.quote given, " does not match ", Text.quote expected]
  | unknownCode number => List.flatten [Text.ofInt number, " is not a valid ErrorCode"]

inductive Failure where
  | fault (f : Fault)
  | system (errno : Errno) (path : Text)
  | misuse (m : Misuse)
  | unknownEncoding (name : Text)
  | missingByteOrderMark
  | undecodable
  | unencodable (text : Text)
  | unknownHome
  | unparsableVariable (field : Text)
  | unfitArgument
  | raised (r : Raised)

namespace Failure

/-- What a failure says; `none` where it says nothing that is kept. -/
def message? : Failure → Option Text
  | fault f => some f.shown
  | system errno path =>
    some <| List.flatten ["[Errno ", Text.ofNat errno.number, "] ", errno.message, ": ",
      Text.quote path]
  | misuse m => some m.message
  | unknownEncoding name => some <| List.flatten ["unknown encoding: ", name]
  | missingByteOrderMark => none
  | undecodable => none
  | unencodable _ => none
  | unknownHome => some "Could not determine home directory.".toList
  | unparsableVariable field =>
    some <| List.flatten ["error parsing value for field \"", field,
      "\" from source \"EnvSettingsSource\""]
  | unfitArgument => none
  | raised r => some r.shown

end Failure
end ClassCensus
