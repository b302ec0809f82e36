import ClassCensus.Text.Basic
import ClassCensus.Text.Lowercase

/-!
# ClassCensus.Identity

Qualified names: a namespace and a basename with a separator between them, or a basename alone.
-/

namespace ClassCensus
namespace Identity

/-- The separator when none is configured. -/
def backslash : Text := ['\\']

/-- Cuts an identity at the last separator; without one all of it is the basename. -/
def split (sep identity : Text) : Text × Text :=
  match Text.splitLast? sep identity with
  | some parts => parts
  | none => ([], identity)

/-- The empty namespace takes its separator with it. -/
def join (sep space basename : Text) : Text :=
  if space.isEmpty then basename else space ++ sep ++ basename

def basename (sep identity : Text) : Text := (split sep identity).2

/-- The basename in lower case, by which an attribute is shown. -/
def shortName (sep identity : Text) : Text := Text.lower (basename sep identity)

end Identity
end ClassCensus
