import ClassCensus.Source.Opening
import ClassCensus.Text.Blank
import ClassCensus.Text.Word

/-!
# ClassCensus.Source.Reading

What one canonical line says by itself: it names the namespace, declares a class, ends the part
worth reading, or says nothing of interest. Comments, imports and statements say nothing.
-/

namespace ClassCensus
namespace Source

inductive Reading where
  | nothing
  | namespaced (name : Text)
  | declares (name : Text)
  | stops
  deriving DecidableEq, Repr

def defaultStops : List Text := ["return", "exit", "die"]

/-- What follows the bracket that closes the `depth` brackets opened so far. -/
def afterGroup? : (depth : Nat) → Text → Option Text
  | _, [] => none
  | depth, '[' :: t => afterGroup? (depth + 1) t
  | depth, ']' :: t => if depth ≤ 1 then some t else afterGroup? (depth - 1) t
  | depth, _ :: t => afterGroup? depth t

/-- What follows the complete attribute group `#[...]` a line starts with. -/
def afterAttribute? (line : Text) : Option Text :=
  (Text.after? "#[" line).bind (afterGroup? 1)

/-- Drops up to `fuel` attribute groups in front of a line, with the white space after each. -/
def dropAttributesFrom : (fuel : Nat) → Text → Text
  | 0, line => line
  | fuel + 1, line =>
    match afterAttribute? line with
    | none => line
    | some rest => dropAttributesFrom fuel (Text.trimLeft rest)

/-- Drops the complete attribute groups in front of a line. A group that is not closed on the line
stays, with everything after it. -/
def dropAttributes (line : Text) : Text := dropAttributesFrom line.length line

/-- The name in a namespace line, up to its end mark or its opening brace. -/
def namespaceName (rest : Text) : Text := Text.trim (Text.upTo '{' (Text.upTo ';' rest))

/-- The class a line without leading attributes declares. -/
def declaredName? (line : Text) : Option Text :=
  (classOpenings.findSome? (Text.after? · line)).bind Text.leadingWord?

def startsWithStop (stops : List Text) (line : Text) : Bool :=
  match Text.leadingWord? line with
  | none => false
  | some word => stops.contains word

/-- The reading of a canonical line. -/
def read (stops : List Text) (line : Text) : Reading :=
  match Text.after? "namespace " line with
  | some rest => .namespaced (namespaceName rest)
  | none =>
    if startsWithStop stops line then .stops
    else if Text.occursIn "class " line then
      match declaredName? (dropAttributes line) with
      | some name => .declares name
      | none => .nothing
    else .nothing

end Source
end ClassCensus
