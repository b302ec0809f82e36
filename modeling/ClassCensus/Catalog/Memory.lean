import ClassCensus.Catalog.Basic

/-!
# ClassCensus.Catalog.Memory

A catalog of types defined one by one. A type defined as not loaded is loaded when it is first
confirmed.
-/

namespace ClassCensus

structure MemoryCatalog where
  types : Table Text Reflection
  loaded : List Text

namespace MemoryCatalog

def empty : MemoryCatalog := ⟨[], []⟩

def load (c : MemoryCatalog) (identity : Text) : MemoryCatalog :=
  if identity ∈ c.loaded then c else { c with loaded := c.loaded ++ [identity] }

def unload (c : MemoryCatalog) (identity : Text) : MemoryCatalog :=
  { c with loaded := c.loaded.filter (· != identity) }

/-- Defines a type; a new definition replaces an old one. -/
def define (c : MemoryCatalog) (r : Reflection) (loaded : Bool) : MemoryCatalog :=
  let c := { c with types := Table.put c.types r.identity r }
  if loaded then c.load r.identity else c.unload r.identity

def contains (c : MemoryCatalog) (identity : Text) : Bool := Table.has c.types identity

def size (c : MemoryCatalog) : Nat := c.types.length

def confirm (c : MemoryCatalog) (identity : Text) : Reply MemoryCatalog Bool :=
  if c.contains identity then ⟨.ok true, c.load identity, []⟩ else ⟨.ok false, c, []⟩

def isLoaded (c : MemoryCatalog) (identity : Text) : Bool := c.loaded.contains identity

def reflect (c : MemoryCatalog) (identity : Text) : Reply MemoryCatalog Reflection :=
  match Table.get? c.types identity with
  | some r => ⟨.ok r, c, []⟩
  | none => ⟨.error (.fault (.unresolvable identity)), c, []⟩

instance : TypeCatalog MemoryCatalog where
  confirm := confirm
  isLoaded c identity := ⟨.ok (c.isLoaded identity), c, []⟩
  reflect := reflect

end MemoryCatalog
end ClassCensus
