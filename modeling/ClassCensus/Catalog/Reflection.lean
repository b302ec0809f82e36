import ClassCensus.Failure
import ClassCensus.Identity

/-!
# ClassCensus.Catalog.Reflection

What is known of a type: its identity, the file that defines it, the attributes attached to it,
and how to build an object of it.

An attribute counts as of a type if that type is its own or one of its ancestors.
-/

namespace ClassCensus

/-- The name of a class: the module it lives in and its path inside the module. -/
structure TypeName where
  home : Text
  path : Text
  deriving DecidableEq, Repr

namespace TypeName

/-- The identity of a class under a separator, which replaces every dot. -/
def identity (sep : Text) (n : TypeName) : Text :=
  Text.replace ['.'] sep (n.home ++ '.' :: n.path)

end TypeName

/-- A type given by its identity or as a class. -/
inductive TypeArg where
  | named (identity : Text)
  | type (name : TypeName)
  deriving DecidableEq, Repr

def TypeArg.identity (sep : Text) : TypeArg → Text
  | named t => t
  | type n => n.identity sep

/-- What a class descends from: its bases, each by its name and what it descends from itself, and
the names of all its ancestors in the order in which they are searched. -/
inductive Ancestry where
  | of (bases : List (TypeName × Ancestry)) (ancestors : List TypeName)

/-- A class by its name and what it descends from. -/
structure Lineage where
  name : TypeName
  ancestry : Ancestry

namespace Lineage

def bases (l : Lineage) : List Lineage :=
  match l.ancestry with
  | .of bases _ => bases.map fun (name, ancestry) => ⟨name, ancestry⟩

def ancestors (l : Lineage) : List TypeName :=
  match l.ancestry with
  | .of _ ancestors => ancestors

/-- The class and its ancestors in the order in which they are searched. -/
def order (l : Lineage) : List TypeName := l.name :: l.ancestors

/-- A class of a name, with bases and ancestors. -/
def make (name : TypeName) (bases : List Lineage) (ancestors : List TypeName) : Lineage :=
  ⟨name, .of (bases.map fun b => (b.name, b.ancestry)) ancestors⟩

end Lineage

/-- An object: a plain value, or an instance with the arguments it was made from. -/
inductive Object where
  | value (v : Value)
  | made (type : Lineage) (arguments : List Value) (keywords : Table Text Value)

/-- Builds an object from arguments, or raises. -/
abbrev Factory := List Value → Table Text Value → Except Raised Object

structure AttributeRef where
  name : Text
  ancestors : List Text
  arguments : List Value
  keywords : Table Text Value
  factory : Option Factory

namespace AttributeRef

def bare (name : Text) : AttributeRef := ⟨name, [], [], [], none⟩

def hasType (a : AttributeRef) (name : Text) : Bool := name = a.name || a.ancestors.contains name

/-- Two references are the same if names and ancestors agree. -/
def same (a b : AttributeRef) : Bool := a.name = b.name && a.ancestors = b.ancestors

/-- Builds the attribute; whatever its factory raises becomes a fault. -/
def instantiate (a : AttributeRef) : Except Failure Object :=
  match a.factory with
  | none => .error (.fault (.reflectionFailed a.name "attribute is not instantiable"))
  | some build =>
    match build a.arguments a.keywords with
    | .ok object => .ok object
    | .error r => .error (.fault (.reflectionFailed a.name r.shown))

/-- A sequence as a message shows it: in parentheses, with a comma after a single item. -/
def shownTuple : List Text → Text
  | [t] => List.flatten ["(", t, ",)"]
  | ts => List.flatten ["(", Text.join ", " ts, ")"]

def shown (a : AttributeRef) : Text :=
  List.flatten ["AttributeRef(name=", Text.quote a.name, ", ancestors=",
    shownTuple (a.ancestors.map Text.quote), ", arguments=",
    shownTuple (a.arguments.map Value.shown), ", keywords=", (Value.record a.keywords).shown, ")"]

end AttributeRef

structure Reflection where
  identity : Text
  file : Option Text
  attributes : List AttributeRef
  factory : Option Factory

namespace Reflection

def bare (identity : Text) : Reflection := ⟨identity, none, [], none⟩

/-- The attributes of a type, in order; all of them if none is given. -/
def attributesOf (r : Reflection) : Option Text → List AttributeRef
  | none => r.attributes
  | some name => r.attributes.filter (·.hasType name)

/-- Builds an object of the type; what its factory raises stays as it is. -/
def instantiate (r : Reflection) (arguments : List Value) (keywords : Table Text Value) :
    Except Failure Object :=
  match r.factory with
  | none => .error (.fault (.reflectionFailed r.identity "type is not instantiable"))
  | some build =>
    match build arguments keywords with
    | .ok object => .ok object
    | .error e => .error (.raised e)

end Reflection
end ClassCensus
