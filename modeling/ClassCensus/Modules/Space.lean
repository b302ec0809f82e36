import ClassCensus.Modules.Builtin

/-!
# ClassCensus.Modules.Space

A world of modules: what can be imported, described by what happens on import, and what has been
imported, described by the names bound in it.
-/

namespace ClassCensus

/-- A class by its path, in a module that is imported for it or in the module at hand. -/
structure ClassRef where
  home : Option Text
  path : List Text
  deriving DecidableEq, Repr

/-- Something attached to a class: a fresh instance, or a plain value. -/
inductive Attachment where
  | fresh (type : ClassRef) (arguments : List Value)
  | value (v : Value)

/-- A member a module makes when it is imported. A hook is asked for the names that the module does
not bind: it knows some of them, each with the class it stands for or an error. -/
inductive Member where
  | type (name : Text) (bases : List ClassRef) (attached : List Attachment)
      (members : List Member)
  | value (name : Text)
  | alias (name : Text) (target : ClassRef)
  | hook (answers : Table Text (Except Raised ClassRef))

/-- What a name is bound to. Classes matter, and what can serve as a hook; a class has an ancestry,
attached objects and members of its own. The importer is the function that imports the module
whose name it is given. -/
inductive Binding where
  | type (name : TypeName) (ancestry : Ancestry) (attached : List Object)
      (members : List (Text × Binding))
  | hook (answers : Table Text (Except Raised ClassRef))
  | importer
  | other

/-- A class with nothing attached to it and no members. -/
def Binding.plain (l : Lineage) : Binding := .type l.name l.ancestry [] []

/-- What happens when a module is imported: it imports others, makes its members in order, and may
raise an error in the end. -/
structure ModuleSpec where
  imports : List Text
  members : List Member
  failure : Option Raised

structure ModuleSpace where
  /-- The directory that holds the modules' files. -/
  base : Text
  specs : Table Text ModuleSpec
  loaded : Table Text (Table Text Binding)

namespace Builtin

/-- The classes that are built in, and of the functions the importer. -/
def bindings : Table Text Binding :=
  ("__import__".toList, .importer) :: ("ExceptionGroup".toList, .plain exceptionGroup) ::
    classes.map fun (name, path) => (name.toList, .plain (line path))

end Builtin

namespace ModuleSpace

def new (base : Text) (specs : Table Text ModuleSpec) : ModuleSpace :=
  ⟨base, specs, [(Builtin.home, Builtin.bindings)]⟩

def isLoaded (s : ModuleSpace) (name : Text) : Bool := Table.has s.loaded name

/-- A module with modules below it. -/
def isPackage (s : ModuleSpace) (name : Text) : Bool :=
  (Table.keys s.specs).any fun listed => (name ++ ['.']).isPrefixOf listed

/-- A listed module, or the missing part above one, which is empty. -/
def isImportable (s : ModuleSpace) (name : Text) : Bool :=
  Table.has s.specs name || s.isPackage name

/-- What importing a module does. -/
def spec (s : ModuleSpace) (name : Text) : ModuleSpec :=
  (Table.get? s.specs name).getD ⟨[], [], none⟩

/-- Binds a name in a loaded module. -/
def bind (s : ModuleSpace) (home name : Text) (b : Binding) : ModuleSpace :=
  match Table.get? s.loaded home with
  | some bindings => { s with loaded := Table.put s.loaded home (Table.put bindings name b) }
  | none => s

/-- What a name is bound to in a loaded module. Every module has a class of its own. -/
def binding? (s : ModuleSpace) (home name : Text) : Option Binding :=
  match Table.get? s.loaded home with
  | none => none
  | some bindings =>
    match Table.get? bindings name with
    | some b => some b
    | none =>
      if name = "__class__".toList then
        some (.plain (Builtin.line ["module"]))
      else none

/-- The name under which a module binds its hook. -/
def hookName : Text := "__getattr__"

/-- The names that every module answers by itself, none of them with a class. -/
def ownNames : List String :=
  ["__annotations__", "__builtins__", "__cached__", "__delattr__", "__dict__", "__dir__", "__doc__",
  "__eq__", "__file__", "__format__", "__ge__", "__getattribute__", "__getstate__", "__gt__",
  "__hash__", "__init__", "__init_subclass__", "__le__", "__loader__", "__lt__", "__name__",
  "__ne__", "__new__", "__package__", "__reduce__", "__reduce_ex__", "__repr__", "__setattr__",
  "__sizeof__", "__spec__", "__str__", "__subclasshook__", "_attach"]

def isOwnName (s : ModuleSpace) (home name : Text) : Bool :=
  ownNames.any (·.toList = name) || (s.isPackage home && name = "__path__".toList)

/-- The hook that a module asks for a name, if it has one and does not know the name itself. -/
def hookFor? (s : ModuleSpace) (home name : Text) : Option Binding :=
  if (s.binding? home name).isSome || s.isOwnName home name then none
  else s.binding? home hookName

/-- What a path of names leads to, from module to class to inner class. -/
def follow : Option Binding → List Text → Option Binding
  | b, [] => b
  | some (.type _ _ _ members), name :: rest => follow (Table.get? members name) rest
  | _, _ :: _ => none

def find? (s : ModuleSpace) (home : Text) : List Text → Option Binding
  | [] => none
  | name :: rest => follow (s.binding? home name) rest

/-- The file of a loaded module. -/
def file? (s : ModuleSpace) (name : Text) : Option Text :=
  if name = Builtin.home || !s.isLoaded name then none
  else
    let path := s.base ++ '/' :: name.map fun c => if c = '.' then '/' else c
    some (path ++ if s.isPackage name then "/__init__.py".toList else ".py".toList)

end ModuleSpace
end ClassCensus
