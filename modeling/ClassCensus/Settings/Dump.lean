import ClassCensus.Settings.Check

/-!
# ClassCensus.Settings.Dump

Settings written back as configuration, every key given.
-/

namespace ClassCensus

def ScannerSettings.toValue (s : ScannerSettings) : Value :=
  .record
    [("source_extension".toList, .text s.sourceExtension),
    ("hidden_prefix".toList, .text s.hiddenPrefix),
    ("non_recursive_marker".toList, .text s.nonRecursiveMarker),
    ("namespace_separator".toList, .text s.namespaceSeparator),
    ("stop_tokens".toList, .list (s.stopTokens.map .text)),
    ("encoding".toList, .text s.encoding),
    ("max_workers".toList, .int s.maxWorkers)]

def LogOutput.toValue (o : LogOutput) : Value :=
  .record
    [("format".toList, .text o.format.text),
    ("destination".toList, .text o.destination),
    ("level".toList, match o.level with | none => .null | some l => .text l.text)]

def LoggingSettings.toValue (l : LoggingSettings) : Value :=
  .record
    [("level".toList, .text l.level.text),
    ("outputs".toList, .list (l.outputs.map LogOutput.toValue))]

def Settings.toValue (s : Settings) : Value :=
  .record [("logging".toList, s.logging.toValue), ("scanner".toList, s.scanner.toValue)]

end ClassCensus
