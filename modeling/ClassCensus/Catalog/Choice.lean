import ClassCensus.Catalog.Memory
import ClassCensus.Catalog.Modules

/-!
# ClassCensus.Catalog.Choice

A catalog chosen when the program runs: one in memory, one in memory that refuses some questions,
one that takes every identity for real, or the modules that can be loaded.
-/

namespace ClassCensus

inductive CatalogKind where
  | memory (c : MemoryCatalog)
  | refusing (c : MemoryCatalog) (onConfirm onReflect : Table Text Text)
  | anything
  | modules (sep : Text)

/-- A catalog of some kind, beside the modules that are there. -/
structure Catalog where
  kind : CatalogKind
  space : ModuleSpace

namespace Catalog

def memory? (c : Catalog) : Option MemoryCatalog :=
  match c.kind with
  | .memory m => some m
  | .refusing m _ _ => some m
  | _ => none

/-- Changes the catalog in memory, if that is what it is. -/
def onMemory (c : Catalog) (f : MemoryCatalog → MemoryCatalog) : Catalog :=
  match c.kind with
  | .memory m => { c with kind := .memory (f m) }
  | .refusing m a b => { c with kind := .refusing (f m) a b }
  | _ => c

def lift {α κ : Type} (r : Reply κ α) (f : κ → Catalog) : Reply Catalog α :=
  ⟨r.answer, f r.catalog, r.notices⟩

/-- Refuses a question for the reason kept for its identity, or else answers it. -/
def orRefuse {α : Type} (c : Catalog) (refusals : Table Text Text) (identity : Text)
    (answer : Reply Catalog α) : Reply Catalog α :=
  match Table.get? refusals identity with
  | some reason => ⟨.error (.fault (.reflectionFailed identity reason)), c, []⟩
  | none => answer

instance : TypeCatalog Catalog where
  confirm c identity :=
    match c.kind with
    | .memory m => lift (m.confirm identity) fun m => { c with kind := .memory m }
    | .refusing m a b =>
      c.orRefuse a identity (lift (m.confirm identity) fun m => { c with kind := .refusing m a b })
    | .anything => ⟨.ok true, c, []⟩
    | .modules sep =>
      lift (ModuleCatalog.confirm ⟨c.space, sep⟩ identity) fun m => { c with space := m.space }
  isLoaded c identity :=
    match c.kind with
    | .memory m => ⟨.ok (m.isLoaded identity), c, []⟩
    | .refusing m _ _ => ⟨.ok (m.isLoaded identity), c, []⟩
    | .anything => ⟨.ok false, c, []⟩
    | .modules sep =>
      lift (ModuleCatalog.isLoaded ⟨c.space, sep⟩ identity) fun m => { c with space := m.space }
  reflect c identity :=
    match c.kind with
    | .memory m => lift (m.reflect identity) fun m => { c with kind := .memory m }
    | .refusing m a b =>
      c.orRefuse b identity (lift (m.reflect identity) fun m => { c with kind := .refusing m a b })
    | .anything => ⟨.ok (.bare identity), c, []⟩
    | .modules sep =>
      lift (ModuleCatalog.reflect ⟨c.space, sep⟩ identity) fun m => { c with space := m.space }

end Catalog
end ClassCensus
