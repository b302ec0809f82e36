import ClassCensus.Failure

/-!
# ClassCensus.Listing

Items that are asked for one by one: those that came, and the failure that cut them short if one
did. Nothing comes after a cut.
-/

namespace ClassCensus

structure Listing (α : Type) where
  items : List α
  cut : Option Failure

namespace Listing

variable {α : Type}

def empty : Listing α := ⟨[], none⟩

def single (a : α) : Listing α := ⟨[a], none⟩

def refused (f : Failure) : Listing α := ⟨[], some f⟩

def append (a b : Listing α) : Listing α :=
  match a.cut with
  | some _ => a
  | none => ⟨a.items ++ b.items, b.cut⟩

def concat : List (Listing α) → Listing α
  | [] => empty
  | a :: rest => a.append (concat rest)

end Listing
end ClassCensus
