import ClassCensus.Failure

/-!
# ClassCensus.Settings.Verdict

The verdict on a piece of configuration: a valid setting, or all that is wrong with it, each issue
with its place, its complaint and the value at fault. A check that cannot be carried out at all
aborts the whole.
-/

namespace ClassCensus

/-- A step on the way to a value inside a configuration. -/
inductive Step where
  | key (name : Text)
  | index (i : Nat)
  deriving DecidableEq, Repr

def Step.text : Step → Text
  | key name => name
  | index i => Text.ofNat i

inductive Complaint where
  | notText
  | notList
  | notModel (name : Text)
  | notChoice (choices : Text)
  | notInteger
  | unreadableInteger
  | fractional
  | notFinite
  | tooLarge
  | rejected (reason : Text)
  | extra
  deriving DecidableEq, Repr

namespace Complaint

/-- The kind of a complaint, by which callers tell complaints apart. -/
def kind : Complaint → Text
  | notText => "string_type"
  | notList => "list_type"
  | notModel _ => "model_type"
  | notChoice _ => "literal_error"
  | notInteger => "int_type"
  | unreadableInteger => "int_parsing"
  | fractional => "int_from_float"
  | notFinite => "finite_number"
  | tooLarge => "int_parsing_size"
  | rejected _ => "value_error"
  | extra => "extra_forbidden"

def message : Complaint → Text
  | notText => "Input should be a valid string"
  | notList => "Input should be a valid list"
  | notModel name =>
    List.flatten ["Input should be a valid dictionary or instance of ", name]
  | notChoice choices => List.flatten ["Input should be ", choices]
  | notInteger => "Input should be a valid integer"
  | unreadableInteger =>
    "Input should be a valid integer, unable to parse string as an integer"
  | fractional => "Input should be a valid integer, got a number with a fractional part"
  | notFinite => "Input should be a finite number"
  | tooLarge => "Unable to parse input string as an integer, exceeded maximum size"
  | rejected reason => List.flatten ["Value error, ", reason]
  | extra => "Extra inputs are not permitted"

end Complaint

structure Issue where
  place : List Step
  complaint : Complaint
  given : Value

inductive Verdict (α : Type) where
  | valid (a : α)
  | invalid (issues : List Issue)
  | aborted (f : Failure)

namespace Verdict

variable {α β : Type}

/-- Complains about a value. -/
def complain (c : Complaint) (given : Value) : Verdict α := .invalid [⟨[], c, given⟩]

/-- Puts the issues one step further down. -/
def under (step : Step) : Verdict α → Verdict α
  | .invalid issues => .invalid (issues.map fun i => { i with place := step :: i.place })
  | other => other

def map (f : α → β) : Verdict α → Verdict β
  | .valid a => .valid (f a)
  | .invalid issues => .invalid issues
  | .aborted f => .aborted f

/-- Two verdicts at once: the issues of both are kept, and an abort of either aborts. -/
def and (f : Verdict (α → β)) (a : Verdict α) : Verdict β :=
  match f, a with
  | .aborted e, _ => .aborted e
  | _, .aborted e => .aborted e
  | .valid f, .valid a => .valid (f a)
  | .valid _, .invalid ys => .invalid ys
  | .invalid xs, .valid _ => .invalid xs
  | .invalid xs, .invalid ys => .invalid (xs ++ ys)

/-- Rejects a valid setting that has a flaw. -/
def barring (flaw : α → Option Text) (given : Value) : Verdict α → Verdict α
  | .valid a =>
    match flaw a with
    | none => .valid a
    | some r => complain (.rejected r) given
  | other => other

/-- The verdict on each item of a list, under its index. -/
def each (check : Value → Verdict α) : (start : Nat) → List Value → Verdict (List α)
  | _, [] => .valid []
  | i, v :: rest =>
    (((check v).under (.index i)).map List.cons).and (each check (i + 1) rest)

/-- The verdict on the entry under a key, which may be left out. -/
def entry (entries : List (Scalar × Value)) (key : Text) (default : α)
    (check : Value → Verdict α) : Verdict α :=
  match Table.get? entries (.text key) with
  | none => .valid default
  | some v => (check v).under (.key key)

end Verdict
end ClassCensus
