import ClassCensus.Digest.Sha256
import ClassCensus.Files.Access

/-!
# ClassCensus.Fingerprint

The fingerprint of a file: the first sixteen hexadecimal digits of the digest of its canonical
path, so that every spelling of the file has the same one. A path without octets has none.
-/

namespace ClassCensus

def fingerprintDigits : Nat := 16

/-- The fingerprint of a path that is canonical already. -/
def fingerprintOf (path : Text) : Text := (Sha256.hex (Text.utf8 path)).take fingerprintDigits

namespace FileSystem

def fingerprint (fs : FileSystem) (path : Text) : Except Failure Text :=
  match fs.canonical path with
  | .error e => .error e
  | .ok p => if fs.encodes p then .ok (fingerprintOf p) else .error (.unencodable p)

end FileSystem
end ClassCensus
