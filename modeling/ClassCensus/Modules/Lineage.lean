import ClassCensus.Catalog.Reflection

/-!
# ClassCensus.Modules.Lineage

The order in which a class and its ancestors are searched. A class comes before its ancestors, the
bases of a class keep their order, and the order of every base is kept; some hierarchies allow no
such order.
-/

namespace ClassCensus
namespace Lineage

/-- The first class that heads a list and stands behind another in none. -/
def nextHead? (lists : List (List TypeName)) : Option TypeName :=
  (lists.filterMap List.head?).find? fun c => lists.all fun l => !l.tail.contains c

/-- Takes a class off the lists it heads. -/
def drop (c : TypeName) (lists : List (List TypeName)) : List (List TypeName) :=
  lists.map fun l => if l.head? = some c then l.tail else l

/-- Merges lists that have at most `fuel` classes in all. -/
def mergeFrom : (fuel : Nat) → List (List TypeName) → Option (List TypeName)
  | 0, lists => if lists.all List.isEmpty then some [] else none
  | fuel + 1, lists =>
    if lists.all List.isEmpty then some []
    else
      match nextHead? lists with
      | none => none
      | some c => (mergeFrom fuel (drop c lists)).map (c :: ·)

/-- The ancestors of a class whose bases are searched in the given orders, each base first in its
own. -/
def ancestorsOf? (bases : List (List TypeName)) : Option (List TypeName) :=
  let lists := bases ++ [bases.filterMap List.head?]
  mergeFrom lists.flatten.length lists

/-- Makes a class out of bases, unless they allow no order. -/
def derive? (name : TypeName) (bases : List Lineage) : Option Lineage :=
  (ancestorsOf? (bases.map order)).map (make name bases)

end Lineage
end ClassCensus
