import ClassCensus.Fingerprint
import ClassCensus.World

/-!
# ClassCensus.Registry

The classes found so far, by the fingerprint of their file, in the order they were found. The
first record for a file stays.
-/

namespace ClassCensus

abbrev Registry := Table Text Record

namespace Registry

def count (r : Registry) : Nat := r.length

/-- Adds a record under a key that is free. -/
def insert (r : Registry) (key : Text) (record : Record) : Registry :=
  if Table.has r key then r else r ++ [(key, record)]

variable {κ : Type}

/-- Registers a record; true if it was new. -/
def register (r : Registry) (w : World κ) (record : Record) :
    Except Failure (Bool × Registry) × World κ :=
  match w.files.fingerprint record.facts.file with
  | .error e => (.error e, w)
  | .ok key =>
    if Table.has r key then
      (.ok (false, r), w.tell [.duplicateSkipped record.facts.file key])
    else
      (.ok (true, r.insert key record), w.tell [.classRegistered record.facts.className key])

/-- Registers what a scan found; it is kept as a record only if its file is new. -/
def enroll (r : Registry) (w : World κ) (facts : ClassFacts) :
    Except Failure Registry × World κ :=
  match w.files.fingerprint facts.file with
  | .error e => (.error e, w)
  | .ok key =>
    if Table.has r key then (.ok r, w.tell [.duplicateSkipped facts.file key])
    else
      let (record, w) := w.keep facts
      (.ok (r.insert key record), w.tell [.classRegistered facts.className key])

end Registry
end ClassCensus
