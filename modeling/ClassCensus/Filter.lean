import ClassCensus.Listing
import ClassCensus.World

/-!
# ClassCensus.Filter

A filter by attributes: the types asked for, and whether one of them is enough. The first call
that succeeds fixes the policy; later calls only add types.
-/

namespace ClassCensus

inductive Policy where
  | any
  | all
  deriving DecidableEq, Repr

def Policy.text : Policy → Text
  | any => "any"
  | all => "all"

/-- The required types, each with its short name for display. -/
structure Filter where
  policy : Option Policy
  required : Table Text Text
  deriving DecidableEq, Repr

namespace Filter

def empty : Filter := ⟨none, []⟩

def isActive (f : Filter) : Bool := !f.required.isEmpty

/-- Adds names that are known to exist. -/
def add (f : Filter) (sep : Text) (names : List Text) (requireAll : Bool) : Filter :=
  let policy := f.policy.getD (if requireAll then .all else .any)
  ⟨some policy,
    names.foldl (fun table name => Table.put table name (Identity.shortName sep name)) f.required⟩

/-- The notice a successful call leaves in the log. -/
def notice (f : Filter) : Notice :=
  .filterConfigured (Table.keys f.required) ((f.policy.getD .any).text)

variable {κ : Type} [TypeCatalog κ]

/-- Lets the catalog confirm names one after the other. -/
def confirmAll (w : World κ) : List Text → Except Failure Unit × World κ
  | [] => (.ok (), w)
  | name :: rest =>
    match w.ask (TypeCatalog.confirm · name) with
    | (.error e, w) => (.error e, w)
    | (.ok false, w) => (.error (.fault (.unknownAttribute name)), w)
    | (.ok true, w) => confirmAll w rest

/-- Requires further types; if one of them does not exist the filter stays as it was. -/
def require (f : Filter) (sep : Text) (w : World κ) (types : List TypeArg) (requireAll : Bool) :
    Except Failure Filter × World κ :=
  let names := types.map (·.identity sep)
  match confirmAll w names with
  | (.error e, w) => (.error e, w)
  | (.ok (), w) =>
    let f := f.add sep names requireAll
    (.ok f, w.tell [f.notice])

/-- The answer for one type that settles whether a record passes: one it lacks if it needs all of
them, one it has if it needs any. -/
def settling (f : Filter) : Bool := f.policy != some .all

/-- Asks whether a record has attributes of types, one after the other up to the answer that
settles it. -/
def askEach (settling : Bool) (w : World κ) (record : Record) :
    List Text → Except Failure Bool × World κ
  | [] => (.ok !settling, w)
  | name :: rest =>
    match w.hasAttribute record (.named name) with
    | (.error e, w) => (.error e, w)
    | (.ok answer, w) =>
      if answer = settling then (.ok answer, w) else askEach settling w record rest

/-- Whether a record passes; a filter that requires nothing reflects nothing. -/
def passes (f : Filter) (w : World κ) (record : Record) : Except Failure Bool × World κ :=
  if f.required.isEmpty then (.ok true, w)
  else askEach f.settling w record (Table.keys f.required)

/-- The records that pass, in order. -/
def select (f : Filter) (w : World κ) :
    List (Text × Record) → Listing (Text × Record) × World κ
  | [] => (.empty, w)
  | (key, record) :: rest =>
    match f.passes w record with
    | (.error e, w) => (.refused e, w)
    | (.ok kept, w) =>
      let (found, w) := select f w rest
      (if kept then (Listing.single (key, record)).append found else found, w)

end Filter
end ClassCensus
