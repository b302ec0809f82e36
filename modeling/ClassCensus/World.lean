import ClassCensus.Catalog.Basic
import ClassCensus.Files.System
import ClassCensus.Record

/-!
# ClassCensus.World

What a census works in: the file system, the catalog, the reflections of the records it keeps, the
id of the scan under way, and the log.
-/

namespace ClassCensus

/-- The id of a scan: given by the caller or minted here, told apart by number. -/
inductive ScanId where
  | given (id : Text)
  | minted (number : Nat)
  deriving DecidableEq, Repr

/-- A notice in the log, with the id of the scan it belongs to if one was known. -/
structure Event where
  notice : Notice
  scanId : Option ScanId
  deriving DecidableEq, Repr

structure World (κ : Type) where
  files : FileSystem
  catalog : κ
  ledger : Ledger
  scanId : Option ScanId
  minted : Nat
  log : List Event

namespace World

variable {κ : Type}

/-- Writes notices to the log under the current scan id. -/
def tell (w : World κ) (notices : List Notice) : World κ :=
  { w with log := w.log ++ notices.map fun n => ⟨n, w.scanId⟩ }

/-- Writes notices to the log from a side task, which knows no scan id. -/
def tellAside (w : World κ) (notices : List Notice) : World κ :=
  { w with log := w.log ++ notices.map fun n => ⟨n, none⟩ }

/-- Takes the given id, or mints one if none or an empty one is given. -/
def setScanId (w : World κ) (id : Option Text) : World κ :=
  match id with
  | some (c :: t) => { w with scanId := some (.given (c :: t)) }
  | _ => { w with scanId := some (.minted w.minted), minted := w.minted + 1 }

def clearScanId (w : World κ) : World κ := { w with scanId := none }

/-- Puts a question to the catalog. -/
def ask {α : Type} (w : World κ) (question : κ → Reply κ α) : Except Failure α × World κ :=
  let reply := question w.catalog
  (reply.answer, { w with catalog := reply.catalog }.tell reply.notices)

/-- Keeps a record under a fresh serial number. -/
def keep (w : World κ) (facts : ClassFacts) : Record × World κ :=
  let (record, ledger) := w.ledger.enter facts
  (record, { w with ledger })

variable [TypeCatalog κ]

/-- Makes a record of parts that fit together, as the catalog stands. -/
def newRecord (w : World κ) (className basename space file separator : Text) :
    Except Failure Record × World κ :=
  match ClassFacts.check className basename space separator with
  | .error m => (.error (.misuse m), w)
  | .ok () =>
    match w.ask (TypeCatalog.isLoaded · className) with
    | (.error e, w) => (.error e, w)
    | (.ok loaded, w) =>
      let (record, w) := w.keep ⟨className, basename, space, file, separator, loaded⟩
      (.ok record, w)

/-- Makes a record of an identity the catalog can reflect, and remembers the reflection. -/
def recordOf (w : World κ) (identity separator : Text) : Except Failure Record × World κ :=
  match w.ask (TypeCatalog.reflect · identity) with
  | (.error e, w) => (.error e, w)
  | (.ok reflection, w) =>
    match reflection.file with
    | none | some [] =>
      (.error (.fault (.reflectionFailed identity "defining file is unknown")), w)
    | some file =>
      if separator.isEmpty then (.error (.misuse .emptySeparator), w)
      else
        let (space, basename) := Identity.split separator identity
        match w.newRecord identity basename space (Spelling.slashed file) separator with
        | (.error e, w) => (.error e, w)
        | (.ok record, w) =>
          (.ok record, { w with ledger := w.ledger.remember record reflection })

/-- The reflection of a record: the one remembered, or else the catalog's, remembered from now
on. -/
def reflect (w : World κ) (record : Record) : Except Failure Reflection × World κ :=
  match w.ledger.remembered? record with
  | some reflection => (.ok reflection, w)
  | none =>
    match w.ask (TypeCatalog.reflect · record.facts.className) with
    | (.error e, w) => (.error e, w)
    | (.ok reflection, w) =>
      (.ok reflection, { w with ledger := w.ledger.remember record reflection })

/-- Builds an object of a record's class. -/
def instantiate (w : World κ) (record : Record) (arguments : List Value)
    (keywords : Table Text Value) : Except Failure Object × World κ :=
  match w.reflect record with
  | (.error e, w) => (.error e, w)
  | (.ok reflection, w) => (reflection.instantiate arguments keywords, w)

/-- The attributes of a record's class, all or those of one type. -/
def attributes (w : World κ) (record : Record) (type : Option TypeArg) :
    Except Failure (List AttributeRef) × World κ :=
  match w.reflect record with
  | (.error e, w) => (.error e, w)
  | (.ok reflection, w) =>
    (.ok (reflection.attributesOf (type.map (·.identity record.facts.separator))), w)

def hasAttribute (w : World κ) (record : Record) (type : TypeArg) :
    Except Failure Bool × World κ :=
  match w.attributes record (some type) with
  | (.error e, w) => (.error e, w)
  | (.ok found, w) => (.ok (!found.isEmpty), w)

/-- Builds the one attribute of a type; there may be none, and more than one is a fault. -/
def soleAttribute (w : World κ) (record : Record) (type : TypeArg) :
    Except Failure (Option Object) × World κ :=
  match w.attributes record (some type) with
  | (.error e, w) => (.error e, w)
  | (.ok [], w) => (.ok none, w)
  | (.ok [found], w) =>
    match found.instantiate with
    | .error e => (.error e, w)
    | .ok object => (.ok (some object), w)
  | (.ok found, w) =>
    (.error (.fault (.ambiguousAttribute record.facts.className
      (type.identity record.facts.separator) found.length)), w)

end World
end ClassCensus
