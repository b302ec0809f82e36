import ClassCensus.Source.Line
import ClassCensus.Source.Reading

/-!
# ClassCensus.Source.Header

The header of a source file: the namespace it names and the class it declares. Reading ends at
the first declaration or stop; the first namespace line counts, even one without a name.
-/

namespace ClassCensus
namespace Source

structure Header where
  namespaced : Option Text
  basename : Option Text
  deriving DecidableEq, Repr

/-- Reads on, with the namespace found so far. -/
def headerFrom (stops : List Text) (found : Option Text) : List Text → Header
  | [] => ⟨found, none⟩
  | raw :: rest =>
    match read stops (normalize raw) with
    | .nothing => headerFrom stops found rest
    | .namespaced name => headerFrom stops (found.or (some name)) rest
    | .declares name => ⟨found, some name⟩
    | .stops => ⟨found, none⟩

def header (stops : List Text) (lines : List Text) : Header := headerFrom stops none lines

end Source
end ClassCensus
