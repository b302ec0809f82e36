import ClassCensus.Catalog.Reflection
import ClassCensus.Notice

/-!
# ClassCensus.Catalog.Basic

A catalog is the authority on which identities name live types. Confirming an identity may load
its type; asking whether it is loaded should not, but a catalog may be of things that load others
when they are looked at.
-/

namespace ClassCensus

/-- The answer of a catalog, the catalog afterwards, and what it told the log. -/
structure Reply (κ α : Type) where
  answer : Except Failure α
  catalog : κ
  notices : List Notice

class TypeCatalog (κ : Type) where
  /-- Whether an identity resolves, loading it if necessary. -/
  confirm : κ → Text → Reply κ Bool
  /-- Whether an identity is loaded already. -/
  isLoaded : κ → Text → Reply κ Bool
  /-- The reflection of an identity. -/
  reflect : κ → Text → Reply κ Reflection

end ClassCensus
