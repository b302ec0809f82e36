import ClassCensus.Catalog.Basic
import ClassCensus.Files.Spelling
import ClassCensus.Modules.Loading

/-!
# ClassCensus.Catalog.Modules

The catalog of classes in importable modules. The last part of an identity names a class and the
parts before it a module, which is imported to confirm the class. A module that is loaded is asked
for the class in any case, and its hook may import others for that.
-/

namespace ClassCensus

structure ModuleCatalog where
  space : ModuleSpace
  separator : Text

namespace ModuleCatalog

/-- An error that says a module cannot be imported, rather than that it is broken. -/
def isAbsence (r : Raised) : Bool :=
  r.kind = "ImportError".toList || r.kind = "ModuleNotFoundError".toList

/-- The kinds of errors that are meant to end the program, which nothing here holds up. -/
def endingKinds : List Text :=
  ["BaseException", "BaseExceptionGroup", "GeneratorExit", "KeyboardInterrupt", "SystemExit"]

def isEnding (r : Raised) : Bool := endingKinds.contains r.kind

/-- The module and the class an identity names. -/
def split? (sep identity : Text) : Option (Text × Text) :=
  match Text.splitLast? sep identity with
  | none => none
  | some (path, name) =>
    if path.isEmpty || name.isEmpty then none else some (Text.replace sep ['.'] path, name)

/-- What is found, if it is a class. -/
def class? : Option Binding → Option Binding
  | some (.type name ancestry attached members) => some (.type name ancestry attached members)
  | _ => none

/-- The class that a loaded module has under a name. Whatever error its hook raises comes out as it
is. -/
def classIn (c : ModuleCatalog) (home name : Text) (notices : List Notice) :
    Reply ModuleCatalog (Option Binding) :=
  match c.space.look home name with
  | (.ok found, space) => ⟨.ok (class? found), { c with space }, notices⟩
  | (.error r, space) => ⟨.error (.raised r), { c with space }, notices⟩

/-- What an error that the import of a module raised is taken for. -/
def onFailure (identity home : Text) (r : Raised) : Except Failure (Option Binding) :=
  if isAbsence r then .ok none
  else if isEnding r then .error (.raised r)
  else
    .error (.fault (.reflectionFailed identity
      (List.flatten ["import of ", home, " failed: ", r.shown])))

/-- The class of an identity. Its module is imported if it is not loaded, or else, if that is not
wanted, there is none. -/
def lookUp (load : Bool) (c : ModuleCatalog) (identity : Text) :
    Reply ModuleCatalog (Option Binding) :=
  if c.separator.isEmpty then ⟨.error (.misuse .emptySeparator), c, []⟩
  else
    match split? c.separator identity with
    | none => ⟨.ok none, c, []⟩
    | some (home, name) =>
      if c.space.isLoaded home then c.classIn home name []
      else if !load then ⟨.ok none, c, []⟩
      else
        match c.space.load home with
        | (.ok (), space) => classIn { c with space } home name [.moduleImported home]
        | (.error r, space) => ⟨onFailure identity home r, { c with space }, []⟩

/-- Whether there is a class of an identity. -/
def finds (load : Bool) (c : ModuleCatalog) (identity : Text) : Reply ModuleCatalog Bool :=
  let reply := c.lookUp load identity
  match reply.answer with
  | .error e => ⟨.error e, reply.catalog, reply.notices⟩
  | .ok found => ⟨.ok found.isSome, reply.catalog, reply.notices⟩

def confirm (c : ModuleCatalog) (identity : Text) : Reply ModuleCatalog Bool :=
  c.finds true identity

/-- Whether the class of an identity can be found without importing its module. -/
def isLoaded (c : ModuleCatalog) (identity : Text) : Reply ModuleCatalog Bool :=
  c.finds false identity

/-- The lineage of an object. -/
def lineageOf : Object → Lineage
  | .value v => Builtin.lineageOf v
  | .made type _ _ => type

/-- The reference to an object that is attached to a class; building it gives that object. -/
def reference (sep : Text) (object : Object) : AttributeRef :=
  let lineage := lineageOf object
  ⟨lineage.name.identity sep,
    (lineage.ancestors.filter (· != Builtin.object)).map (·.identity sep), [], [],
    some fun _ _ => .ok object⟩

/-- Makes an instance of a class. -/
def construct (name : TypeName) (ancestry : Ancestry) : Factory := fun arguments keywords =>
  if name.home = Builtin.home then Builtin.construct name.path arguments
  else .ok (.made ⟨name, ancestry⟩ arguments keywords)

/-- The reflection of a class under an identity. -/
def describe (c : ModuleCatalog) (identity : Text) : Binding → Reflection
  | .type name ancestry attached _ =>
    ⟨identity, (c.space.file? name.home).map Spelling.slashed,
      attached.map (reference c.separator), some (construct name ancestry)⟩
  | _ => .bare identity

def reflect (c : ModuleCatalog) (identity : Text) : Reply ModuleCatalog Reflection :=
  let reply := c.lookUp true identity
  match reply.answer with
  | .error e => ⟨.error e, reply.catalog, reply.notices⟩
  | .ok none => ⟨.error (.fault (.unresolvable identity)), reply.catalog, reply.notices⟩
  | .ok (some b) => ⟨.ok (reply.catalog.describe identity b), reply.catalog, reply.notices⟩

instance : TypeCatalog ModuleCatalog where
  confirm := confirm
  isLoaded := isLoaded
  reflect := reflect

end ModuleCatalog
end ClassCensus
