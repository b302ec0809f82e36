import ClassCensus.Modules.Lineage
import ClassCensus.Modules.Space

/-!
# ClassCensus.Modules.Loading

Importing a module: its parents are imported first, then its body runs. A module is known by its
name while its body runs, so that modules may import each other, and is forgotten if its body
raises an error; what the body imported before stays.
-/

namespace ClassCensus

/-- A step that may load modules and may raise an error; what was loaded stays loaded. -/
abbrev Loading (α : Type) := ExceptT Raised (StateM ModuleSpace) α

namespace Loading

def missing (name : Text) : Raised :=
  ⟨"ModuleNotFoundError".toList, List.flatten ["No module named ", Text.quote name]⟩

def unbound (path : List Text) : Raised :=
  ⟨"AttributeError".toList, List.flatten ["nothing is bound to ", Text.join "." path]⟩

def noClass (path : List Text) : Raised :=
  ⟨"TypeError".toList, List.flatten [Text.join "." path, " is no class"]⟩

def unordered (name : Text) : Raised :=
  ⟨"TypeError".toList, List.flatten ["the ancestors of ", name, " allow no order"]⟩

/-- What a reference leads to from inside a module. -/
def resolve (fetch : Text → Loading Unit) (home : Text) (ref : ClassRef) : Loading Binding := do
  match ref.home with
  | some other => fetch other
  | none => pure ()
  match (← get).find? (ref.home.getD home) ref.path with
  | some b => pure b
  | none => throw (unbound ref.path)

/-- The class a reference leads to. -/
def resolveClass (fetch : Text → Loading Unit) (home : Text) (ref : ClassRef) :
    Loading Lineage := do
  match ← resolve fetch home ref with
  | .type name ancestry _ _ => pure ⟨name, ancestry⟩
  | _ => throw (noClass ref.path)

def attach (fetch : Text → Loading Unit) (home : Text) : Attachment → Loading Object
  | .value v => pure (.value v)
  | .fresh ref arguments => do
    let type ← resolveClass fetch home ref
    pure (.made type arguments [])

mutual

/-- Makes a member of a module, or of a class whose path is `outer`. -/
def makeMember (fetch : Text → Loading Unit) (home : Text) (outer : List Text) :
    Member → Loading (Text × Binding)
  | .value name => pure (name, .other)
  | .alias name target => do
    let b ← resolve fetch home target
    pure (name, b)
  | .type name bases attached members => do
    let classes ← bases.mapM (resolveClass fetch home)
    let inner ← makeMembers fetch home (outer ++ [name]) [] members
    let objects ← attached.mapM (attach fetch home)
    let classes := if classes.isEmpty then [Builtin.root] else classes
    match Lineage.derive? ⟨home, Text.join "." (outer ++ [name])⟩ classes with
    | none => throw (unordered name)
    | some l => pure (name, .type l.name l.ancestry objects inner)
  | .hook answers => pure (ModuleSpace.hookName, .hook answers)

/-- Makes the members of a class, after those made so far. -/
def makeMembers (fetch : Text → Loading Unit) (home : Text) (outer : List Text)
    (made : Table Text Binding) : List Member → Loading (Table Text Binding)
  | [] => pure made
  | m :: rest => do
    let (name, b) ← makeMember fetch home outer m
    makeMembers fetch home outer (Table.put made name b) rest

end

/-- Makes the members of a module one by one and binds each. -/
def bindMembers (fetch : Text → Loading Unit) (home : Text) : List Member → Loading Unit
  | [] => pure ()
  | m :: rest => do
    let (name, b) ← makeMember fetch home [] m
    modify (·.bind home name b)
    bindMembers fetch home rest

/-- The body of a module. -/
def body (fetch : Text → Loading Unit) (name : Text) : Loading Unit := do
  let spec := (← get).spec name
  spec.imports.forM fetch
  bindMembers fetch name spec.members
  match spec.failure with
  | some r => throw r
  | none => pure ()

/-- Runs the body of a module under its name and binds the module in its parent. -/
def execute (fetch : Text → Loading Unit) (name : Text) : Loading Unit := do
  modify fun s => { s with loaded := Table.put s.loaded name [] }
  tryCatch (body fetch name) fun r => do
    modify fun s => { s with loaded := Table.erase s.loaded name }
    throw r
  match Text.splitLast? ['.'] name with
  | some (parent, child) => modify (·.bind parent child .other)
  | none => pure ()

/-- Loads a module, given by its name's parts from the last to the first, and before it its
parents. -/
def ensure (run : Text → Loading Unit) : List Text → Loading Unit
  | [] => pure ()
  | child :: parents => do
    let name := Text.join "." (child :: parents).reverse
    if (← get).isLoaded name then pure ()
    else
      ensure run parents
      let s ← get
      let parent := Text.join "." parents.reverse
      if s.isLoaded name then pure ()
      else if s.isImportable name && (parents.isEmpty || s.isPackage parent) then run name
      else throw (missing name)

/-- Imports a module, its body importing others at most `depth` deep. -/
def fetch : (depth : Nat) → Text → Loading Unit
  | 0, name => throw (missing name)
  | depth + 1, name => ensure (execute (fetch depth)) (Text.pieces '.' name).reverse

/-! ## Attributes of modules -/

def notCallable : Raised := ⟨"TypeError".toList, "object is not callable".toList⟩

/-- An error that says there is no such attribute, which nobody gets to see. -/
def isUnbound (r : Raised) : Bool := r.kind = "AttributeError".toList

/-- What a module's hook makes of a name. What a hook knows it binds, so that it is not asked again.
A class makes an instance of itself, and the class of classes gives the class of the name. -/
def callHook (fetch : Text → Loading Unit) (home name : Text) : Binding → Loading (Option Binding)
  | .hook answers =>
    match Table.get? answers name with
    | none => throw (unbound [name])
    | some (.error r) => throw r
    | some (.ok ref) => do
      let b ← resolve fetch home ref
      modify (·.bind home name b)
      pure (some b)
  | .importer => do
    fetch name
    pure none
  | .type type _ _ _ =>
    if type = Builtin.named "type" then pure (some (.plain (Builtin.line ["str"])))
    else if type.home = Builtin.home then
      match Builtin.construct type.path [.text name] with
      | .error r => throw r
      | .ok _ => pure none
    else pure none
  | .other => throw notCallable

/-- What a loaded module has under a name: what is bound to it, or what the module's hook makes of
it. -/
def look (fetch : Text → Loading Unit) (home name : Text) : Loading (Option Binding) := do
  let s ← get
  match s.hookFor? home name with
  | none => pure (s.binding? home name)
  | some hook =>
    tryCatch (callHook fetch home name hook) fun r =>
      if isUnbound r then pure none else throw r

end Loading

namespace ModuleSpace

/-- Imports a module by its full name. -/
def load (s : ModuleSpace) (name : Text) : Except Raised Unit × ModuleSpace :=
  match name with
  | '.' :: _ =>
    (.error ⟨"TypeError".toList, List.flatten
      ["the 'package' argument is required to perform a relative import for ",
        Text.quote name]⟩, s)
  | _ => (Loading.fetch (s.specs.length + 1) name).run.run s

/-- What a loaded module has under a name. -/
def look (s : ModuleSpace) (home name : Text) :
    Except Raised (Option Binding) × ModuleSpace :=
  (Loading.look (Loading.fetch (s.specs.length + 1)) home name).run.run s

/-- The class at a path of a module, which is imported if need be. -/
def classAt (s : ModuleSpace) (home : Text) (path : List Text) :
    Except Raised Binding × ModuleSpace :=
  match s.load home with
  | (.error r, s) => (.error r, s)
  | (.ok (), s) =>
    match s.find? home path with
    | some b => (.ok b, s)
    | none => (.error (Loading.unbound path), s)

end ModuleSpace
end ClassCensus
