import ClassCensus.Value.Basic

/-!
# ClassCensus.Value.Merge

Laying one map over another. Where both hold a map at a key the two are merged in turn; anywhere
else the upper value wins.
-/

namespace ClassCensus

mutual

/-- `Value.over old new` is what stands where `new` is laid over `old`. -/
def Value.over (old : Value) : Value → Value
  | .map upper =>
    match old with
    | .map lower => .map (mergeEntries lower upper)
    | _ => .map upper
  | .scalar s => .scalar s
  | .list items => .list items

/-- The entries of `upper` laid over those of `lower`, whose keys keep their places. Keys that mean
the same are one key. -/
def mergeEntries (lower : List (Scalar × Value)) :
    (upper : List (Scalar × Value)) → List (Scalar × Value)
  | [] => lower
  | (k, v) :: rest =>
    match entryAt? lower k with
    | some old => mergeEntries (putEntry lower (k, Value.over old v)) rest
    | none => mergeEntries (putEntry lower (k, v)) rest

end

end ClassCensus
