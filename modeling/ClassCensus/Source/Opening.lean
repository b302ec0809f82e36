import ClassCensus.Text.Basic

/-!
# ClassCensus.Source.Opening

The texts a class declaration can open with: some modifiers in some order, the keyword, and a
space after each. Openings with more modifiers come first.
-/

namespace ClassCensus
namespace Source

/-- Each member of a list with the list of the others. -/
def picks {α : Type} : List α → List (α × List α)
  | [] => []
  | x :: xs => (x, xs) :: (picks xs).map fun (y, rest) => (y, x :: rest)

/-- The ordered choices of `size` members of a list, in the order of their positions. -/
def arrangements {α : Type} : (size : Nat) → List α → List (List α)
  | 0, _ => [[]]
  | size + 1, xs => (picks xs).flatMap fun (x, rest) => (arrangements size rest).map (x :: ·)

/-- Whether some set of modifiers that exclude one another is wholly present. -/
def clashes (exclusive : List (List Text)) (chosen : List Text) : Bool :=
  exclusive.any fun set => set.all chosen.contains

/-- The opening made of the chosen modifiers and the keyword. -/
def opening (chosen : List Text) (keyword : Text) : Text :=
  Text.join " " (chosen ++ [keyword]) ++ " ".toList

/-- The openings with exactly `size` modifiers. -/
def openingsOf (modifiers : List Text) (keyword : Text) (exclusive : List (List Text))
    (size : Nat) : List Text :=
  ((arrangements size modifiers).filter (!clashes exclusive ·)).map (opening · keyword)

/-- Every opening, most modifiers first. -/
def openings (modifiers : List Text) (keyword : Text) (exclusive : List (List Text)) : List Text :=
  (List.range (modifiers.length + 1)).reverse.flatMap (openingsOf modifiers keyword exclusive)

def classModifiers : List Text := ["final", "abstract", "readonly"]

def classKeyword : Text := "class"

/-- A class is not both final and abstract. -/
def exclusiveModifiers : List (List Text) := [["final", "abstract"]]

/-- The openings of a class declaration. -/
def classOpenings : List Text := openings classModifiers classKeyword exclusiveModifiers

end Source
end ClassCensus
