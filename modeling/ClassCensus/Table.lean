/-!
# ClassCensus.Table

Finite maps that keep the order in which their keys first came. A key written again keeps its
place and takes the new value.
-/

namespace ClassCensus

abbrev Table (κ α : Type) := List (κ × α)

namespace Table

variable {κ α : Type} [DecidableEq κ]

def get? : Table κ α → κ → Option α
  | [], _ => none
  | (k, v) :: rest, key => if k = key then some v else get? rest key

def has (t : Table κ α) (key : κ) : Bool := (get? t key).isSome

def put : Table κ α → κ → α → Table κ α
  | [], key, v => [(key, v)]
  | (k, w) :: rest, key, v => if k = key then (k, v) :: rest else (k, w) :: put rest key v

def erase : Table κ α → κ → Table κ α
  | [], _ => []
  | (k, v) :: rest, key => if k = key then rest else (k, v) :: erase rest key

def keys (t : Table κ α) : List κ := t.map Prod.fst

end Table
end ClassCensus
