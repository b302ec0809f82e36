import ClassCensus.Text.Basic

/-!
# ClassCensus.Files.Errno

The reasons for which the operating system refuses to find, open or list a path.
-/

namespace ClassCensus

inductive Errno where
  | noEntry
  | denied
  | alreadyExists
  | notDirectory
  | isDirectory
  | nameTooLong
  | tooManyLinks
  deriving DecidableEq, Repr

namespace Errno

def number : Errno → Nat
  | noEntry => 2
  | denied => 13
  | alreadyExists => 17
  | notDirectory => 20
  | isDirectory => 21
  | nameTooLong => 36
  | tooManyLinks => 40

def message : Errno → Text
  | noEntry => "No such file or directory"
  | denied => "Permission denied"
  | alreadyExists => "File exists"
  | notDirectory => "Not a directory"
  | isDirectory => "Is a directory"
  | nameTooLong => "File name too long"
  | tooManyLinks => "Too many levels of symbolic links"

end Errno
end ClassCensus
