import ClassCensus.Number.Shortest
import ClassCensus.Text.Quoted
import ClassCensus.Value.Basic

/-!
# ClassCensus.Value.Shown

How a value reads in a message: texts inside lists and maps are quoted, a text by itself is not.
-/

namespace ClassCensus

def Scalar.shown : Scalar → Text
  | .null => "None"
  | .bool b => if b then "True" else "False"
  | .int n => Text.ofInt n
  | .real x => x.toText
  | .text t => Text.quote t

mutual

def Value.shown : Value → Text
  | .scalar s => s.shown
  | .list items => '[' :: shownItems items ++ [']']
  | .map entries => '{' :: shownEntries entries ++ ['}']

def shownItems : List Value → Text
  | [] => []
  | [v] => v.shown
  | v :: rest => v.shown ++ ", ".toList ++ shownItems rest

def shownEntries : List (Scalar × Value) → Text
  | [] => []
  | [(k, v)] => k.shown ++ ": ".toList ++ v.shown
  | (k, v) :: rest => k.shown ++ ": ".toList ++ v.shown ++ ", ".toList ++ shownEntries rest

end

/-- A value as the subject of a message: a text stands without quotes. -/
def Value.plain : Value → Text
  | .text t => t
  | v => v.shown

end ClassCensus
