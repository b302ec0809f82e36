import ClassCensus.Identity
import ClassCensus.Source.Reading

/-!
# ClassCensus.Settings.Scanner

The settings of a scan: which files are candidates, which entries are passed over, and how their
text is read.
-/

namespace ClassCensus

structure ScannerSettings where
  sourceExtension : Text := ".php"
  hiddenPrefix : Text := "."
  nonRecursiveMarker : Text := "^"
  namespaceSeparator : Text := Identity.backslash
  stopTokens : List Text := Source.defaultStops
  encoding : Text := "utf-8"
  maxWorkers : Int := 1
  deriving DecidableEq, Repr

namespace ScannerSettings

/-- Files are scanned side by side. -/
def isParallel (s : ScannerSettings) : Bool := decide (1 < s.maxWorkers)

end ScannerSettings
end ClassCensus
