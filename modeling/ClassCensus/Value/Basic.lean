import ClassCensus.Number.Double
import ClassCensus.Table
import ClassCensus.Text.Basic

/-!
# ClassCensus.Value.Basic

The values settings, arguments and log fields are made of: scalars, lists, and maps keyed by
scalars.
-/

namespace ClassCensus

inductive Scalar where
  | null
  | bool (b : Bool)
  | int (n : Int)
  | real (x : Double)
  | text (t : Text)
  deriving DecidableEq, Repr

inductive Value where
  | scalar (s : Scalar)
  | list (items : List Value)
  | map (entries : List (Scalar × Value))
  deriving Repr

namespace Value

@[match_pattern] abbrev null : Value := .scalar .null
@[match_pattern] abbrev bool (b : Bool) : Value := .scalar (.bool b)
@[match_pattern] abbrev int (n : Int) : Value := .scalar (.int n)
@[match_pattern] abbrev real (x : Double) : Value := .scalar (.real x)
@[match_pattern] abbrev text (t : Text) : Value := .scalar (.text t)

instance : Inhabited Value := ⟨null⟩

/-- A map keyed by texts. -/
def record (entries : Table Text Value) : Value := .map (entries.map fun (k, v) => (.text k, v))

/-- The entry of a map under a text. -/
def field? (v : Value) (key : Text) : Option Value :=
  match v with
  | .map entries => Table.get? entries (.text key)
  | _ => none

/-- Null, false, zero and whatever is empty count as nothing given. -/
def isVoid : Value → Bool
  | .null => true
  | .bool b => !b
  | .int n => n = 0
  | .real x => x.isZero
  | .text t => t.isEmpty
  | .list items => items.isEmpty
  | .map entries => entries.isEmpty

end Value

/-! ## Equality of meaning -/

namespace Scalar

/-- The whole number a scalar stands for in a comparison; true and false count as one and zero. -/
def asInt? : Scalar → Option Int
  | .bool b => some (if b then 1 else 0)
  | .int n => some n
  | .real x => x.toInt?
  | _ => none

/-- Numbers are the same if their values are; a value that is no number differs from itself. -/
def same (a b : Scalar) : Bool :=
  match a.asInt?, b.asInt? with
  | some m, some n => m = n
  | none, none =>
    match a, b with
    | .real .nan, _ => false
    | _, _ => a = b
  | _, _ => false

end Scalar

mutual

/-- Two values mean the same; the order of a map's entries does not matter. -/
def Value.same : Value → Value → Bool
  | .scalar a, .scalar b => a.same b
  | .list xs, .list ys => sameItems xs ys
  | .map xs, .map ys => xs.length = ys.length && sameEntries xs ys
  | _, _ => false

def sameItems : List Value → List Value → Bool
  | [], [] => true
  | x :: xs, y :: ys => Value.same x y && sameItems xs ys
  | _, _ => false

def sameEntries : List (Scalar × Value) → List (Scalar × Value) → Bool
  | [], _ => true
  | (k, x) :: xs, ys =>
    (match ys.find? fun e => k.same e.1 with
      | some (_, y) => Value.same x y
      | none => false) && sameEntries xs ys

end

/-! ## Entries of a map -/

/-- The value under a key that means the same. -/
def entryAt? : List (Scalar × Value) → Scalar → Option Value
  | [], _ => none
  | (k, v) :: rest, key => if k.same key then some v else entryAt? rest key

/-- Puts a value under a key; one that means the same keeps its place. -/
def putEntry : List (Scalar × Value) → Scalar × Value → List (Scalar × Value)
  | [], e => [e]
  | (k, v) :: rest, e =>
    if k.same e.1 then (k, e.2) :: rest else (k, v) :: putEntry rest e

end ClassCensus
