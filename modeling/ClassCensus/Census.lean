import ClassCensus.Filter
import ClassCensus.Registry
import ClassCensus.Roots
import ClassCensus.Scanner
import ClassCensus.Walk

/-!
# ClassCensus.Census

A census of the classes declared below a set of roots. Scanning is left until something is asked
for, and each root is scanned once unless it is added again.

Files are scanned one after the other, each class being registered before the next file is read,
or side by side, where all files are read first and registered in order afterwards.
-/

namespace ClassCensus

structure Finder where
  settings : ScannerSettings
  roots : Roots
  registry : Registry
  filter : Filter
  scanned : List Text

/-- A finder at work in a world. -/
structure Census (κ : Type) where
  finder : Finder
  world : World κ

def Finder.new (settings : ScannerSettings) : Finder := ⟨settings, [], [], .empty, []⟩

namespace Census

variable {κ : Type}

/-! ## Set-up -/

/-- Adds a root, which will be scanned even if it was before. -/
def addRoot (c : Census κ) (path : Text) (recursive : Option Bool) :
    Except Failure Unit × Census κ :=
  let f := c.finder
  match Roots.add c.world.files f.settings.nonRecursiveMarker f.roots path recursive with
  | .error e => (.error e, c)
  | .ok (root, roots) =>
    (.ok (), { c with finder :=
      { f with roots, scanned := f.scanned.filter (· != root.path) } })

def addRoots (c : Census κ) : List Text → Except Failure Unit × Census κ
  | [] => (.ok (), c)
  | path :: rest =>
    match c.addRoot path none with
    | (.error e, c) => (.error e, c)
    | (.ok (), c) => c.addRoots rest

/-- The roots that wait for their scan. -/
def pending (c : Census κ) : List Root :=
  c.finder.roots.toList.filter fun root => !c.finder.scanned.contains root.path

/-- Registers what a scan found. -/
def enroll (c : Census κ) (found : Option ClassFacts) : Except Failure Unit × Census κ :=
  match found with
  | none => (.ok (), c)
  | some facts =>
    match c.finder.registry.enroll c.world facts with
    | (.error e, w) => (.error e, { c with world := w })
    | (.ok registry, w) => (.ok (), ⟨{ c.finder with registry }, w⟩)

variable [TypeCatalog κ]

/-- Requires attributes of the classes that match. -/
def requireAttributes (c : Census κ) (types : List TypeArg) (requireAll : Bool) :
    Except Failure Unit × Census κ :=
  let f := c.finder
  match f.filter.require f.settings.namespaceSeparator c.world types requireAll with
  | (.error e, w) => (.error e, { c with world := w })
  | (.ok filter, w) => (.ok (), ⟨{ f with filter }, w⟩)

/-! ## Parsing files -/

/-- Scans files one after the other and registers each class at once. -/
def parseInTurn (c : Census κ) : List Text → Except Failure Unit × Census κ
  | [] => (.ok (), c)
  | file :: rest =>
    match c.world.ask (Scanner.scan c.world.files c.finder.settings · file) with
    | (.error e, w) => (.error e, { c with world := w })
    | (.ok found, w) =>
      match { c with world := w }.enroll found with
      | (.error e, c) => (.error e, c)
      | (.ok (), c) => c.parseInTurn rest

/-- Scans files as side tasks; every one of them is scanned whatever becomes of the others. -/
def scanAside (settings : ScannerSettings) (w : World κ) :
    List Text → List (Except Failure (Option ClassFacts)) × World κ
  | [] => ([], w)
  | file :: rest =>
    let reply := Scanner.scan w.files settings w.catalog file
    let w := { w with catalog := reply.catalog }.tellAside reply.notices
    let (answers, w) := scanAside settings w rest
    (reply.answer :: answers, w)

/-- Registers the answers of side tasks in order, up to the first failure. -/
def enrollAll (c : Census κ) :
    List (Except Failure (Option ClassFacts)) → Except Failure Unit × Census κ
  | [] => (.ok (), c)
  | .error e :: _ => (.error e, c)
  | .ok found :: rest =>
    match c.enroll found with
    | (.error e, c) => (.error e, c)
    | (.ok (), c) => c.enrollAll rest

/-- Scans the files that came of a listing. A listing cut short fails after its files in turn, and
before anything is registered side by side. -/
def parse (c : Census κ) (files : Listing Text) : Except Failure Unit × Census κ :=
  if c.finder.settings.isParallel then
    let (answers, w) := scanAside c.finder.settings c.world files.items
    let c := { c with world := w }
    match files.cut with
    | some e => (.error e, c)
    | none => c.enrollAll answers
  else
    match c.parseInTurn files.items with
    | (.error e, c) => (.error e, c)
    | (.ok (), c) =>
      match files.cut with
      | some e => (.error e, c)
      | none => (.ok (), c)

/-- Scans files given by path, without any root. -/
def parseFiles (c : Census κ) (files : List Text) : Except Failure Unit × Census κ :=
  c.parse ⟨files, none⟩

/-! ## Scanning roots -/

/-- Marks a root as scanned. -/
def markScanned (c : Census κ) (root : Text) : Census κ :=
  let f := c.finder
  { c with finder :=
    { f with scanned := if root ∈ f.scanned then f.scanned else f.scanned ++ [root] } }

def tell (c : Census κ) (notices : List Notice) : Census κ :=
  { c with world := c.world.tell notices }

/-- Scans one root. -/
def scanRoot (c : Census κ) (root : Root) : Except Failure Unit × Census κ :=
  let before := c.finder.registry.count
  let c := c.tell [.scanStarted root.path root.recursive]
  match Walk.enumerate c.world.files c.finder.settings root.recursive root.path with
  | .error e => (.error e, c)
  | .ok (notice, files) =>
    match (c.tell [notice]).parse files with
    | (.error e, c) => (.error e, c)
    | (.ok (), c) =>
      let c := c.markScanned root.path
      (.ok (), c.tell [.scanCompleted root.path (c.finder.registry.count - before)])

def scanRoots (c : Census κ) : List Root → Except Failure Unit × Census κ
  | [] => (.ok (), c)
  | root :: rest =>
    match c.scanRoot root with
    | (.error e, c) => (.error e, c)
    | (.ok (), c) => c.scanRoots rest

/-- Scans the roots that wait for it. A scan without an id runs under one of its own, which is gone
when the scan ends. -/
def scanFiles (c : Census κ) : Except Failure Unit × Census κ :=
  match c.pending with
  | [] => (.ok (), c)
  | roots =>
    match c.world.scanId with
    | some _ => c.scanRoots roots
    | none =>
      let (answer, c) := { c with world := c.world.setScanId none }.scanRoots roots
      (answer, { c with world := c.world.clearScanId })

/-! ## Answers -/

/-- The registry once every root has been scanned. -/
def all (c : Census κ) : Except Failure Registry × Census κ :=
  match c.scanFiles with
  | (.error e, c) => (.error e, c)
  | (.ok (), c) => (.ok c.finder.registry, c)

def count (c : Census κ) : Except Failure Nat × Census κ :=
  match c.all with
  | (.error e, c) => (.error e, c)
  | (.ok registry, c) => (.ok registry.count, c)

/-- The classes that pass the filter, once every root has been scanned. -/
def matching (c : Census κ) : Except Failure (Listing (Text × Record)) × Census κ :=
  match c.all with
  | (.error e, c) => (.error e, c)
  | (.ok registry, c) =>
    let (found, w) := c.finder.filter.select c.world registry
    (.ok found, { c with world := w })

end Census
end ClassCensus
