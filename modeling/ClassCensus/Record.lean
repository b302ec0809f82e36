import ClassCensus.Catalog.Reflection

/-!
# ClassCensus.Record

The record of a discovered class: its name and the parts it is made of, its file, and whether the
catalog had loaded it when the record was made. Records are equal if their class names are.
-/

namespace ClassCensus

structure ClassFacts where
  className : Text
  basename : Text
  space : Text
  file : Text
  separator : Text
  loaded : Bool
  deriving DecidableEq, Repr

namespace ClassFacts

/-- The parts of a record fit together: there is a basename, the namespace does not end in the
separator, and the two joined are the class name. -/
def check (className basename space separator : Text) : Except Misuse Unit :=
  if basename.isEmpty then .error .emptyBasename
  else if separator.isSuffixOf space then .error (.trailingSeparator space)
  else if className = Identity.join separator space basename then .ok ()
  else .error (.nameMismatch className (Identity.join separator space basename))

def same (a b : ClassFacts) : Bool := a.className = b.className

def shown (f : ClassFacts) : Text :=
  List.flatten ["ClassInfo(class_name=", Text.quote f.className, ", basename=",
    Text.quote f.basename, ", namespace=", Text.quote f.space, ", file=", Text.quote f.file,
    ", exists=", (Scalar.bool f.loaded).shown, ")"]

end ClassFacts

/-- A record that is kept; its serial number tells it from other records of the same class. -/
structure Record where
  facts : ClassFacts
  serial : Nat
  deriving DecidableEq, Repr

/-- The reflections obtained so far, by the serial number of their record. -/
structure Ledger where
  next : Nat
  reflections : Table Nat Reflection

namespace Ledger

def empty : Ledger := ⟨0, []⟩

/-- Gives a record the next serial number. -/
def enter (l : Ledger) (facts : ClassFacts) : Record × Ledger :=
  (⟨facts, l.next⟩, { l with next := l.next + 1 })

def remembered? (l : Ledger) (r : Record) : Option Reflection := Table.get? l.reflections r.serial

def remember (l : Ledger) (r : Record) (reflection : Reflection) : Ledger :=
  { l with reflections := Table.put l.reflections r.serial reflection }

end Ledger
end ClassCensus
