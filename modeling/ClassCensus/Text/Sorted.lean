import ClassCensus.Text.Basic

/-!
# ClassCensus.Text.Sorted

Putting named things in the order of their names, by code point. Things of one name keep their
order.
-/

namespace ClassCensus
namespace Text

/-- Puts a named item before the first one with a later name. -/
def insertByName {α : Type} (item : Text × α) : List (Text × α) → List (Text × α)
  | [] => [item]
  | head :: rest =>
    if precedes item.1 head.1 then item :: head :: rest else head :: insertByName item rest

def sortByName {α : Type} : List (Text × α) → List (Text × α)
  | [] => []
  | item :: rest => insertByName item (sortByName rest)

end Text
end ClassCensus
