import ClassCensus.Text.Blank

/-!
# ClassCensus.Source.Line

The canonical form of a source line: runs of white space become one space, the space after the
opener `#[` of an attribute goes, and so does white space at both ends.
-/

namespace ClassCensus
namespace Source

/-- Turns each run of white space into one space; `inRun` says that the run's space has been
written already. -/
def collapse (inRun : Bool) : Text → Text
  | [] => []
  | c :: t =>
    if Text.isBlank c then
      if inRun then collapse true t else ' ' :: collapse true t
    else c :: collapse false t

/-- Drops the spaces that follow `#[`; `opened` says that only spaces came since the opener. -/
def tighten (opened : Bool) : Text → Text
  | [] => []
  | '#' :: '[' :: t => '#' :: '[' :: tighten true t
  | c :: t => if opened && c = ' ' then tighten true t else c :: tighten false t

def normalize (raw : Text) : Text := Text.trim (tighten false (collapse false raw))

end Source
end ClassCensus
