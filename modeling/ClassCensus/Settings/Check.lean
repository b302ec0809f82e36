import ClassCensus.Files.Spelling
import ClassCensus.Settings.Logging
import ClassCensus.Settings.Scanner
import ClassCensus.Settings.Verdict
import ClassCensus.Text.Identifier

/-!
# ClassCensus.Settings.Check

The checks that turn configuration into settings. Keys that mean nothing are passed over, keys left
out take their defaults, and a setting of the right kind has to be sensible as well.
-/

namespace ClassCensus

structure Settings where
  logging : LoggingSettings := {}
  scanner : ScannerSettings := {}
  deriving DecidableEq, Repr

namespace Settings

/-! ## Texts and lists -/

def checkText : Value → Verdict Text
  | .text t => .valid t
  | v => .complain .notText v

def checkTexts : Value → Verdict (List Text)
  | .list items => Verdict.each checkText 0 items
  | v => .complain .notList v

/-! ## Whole numbers -/

/-- White space around a number. -/
def isPadding (c : Char) : Bool := Text.isBlank c && !(0x1C ≤ c.toNat && c.toNat ≤ 0x1F)

def isDigit (c : Char) : Bool := '0' ≤ c && c ≤ '9'

/-- Digits with single underscores between them, as the digits alone. -/
def digits? : Text → Option Text
  | [] => none
  | [c] => if isDigit c then some [c] else none
  | c :: '_' :: t => if isDigit c then (digits? t).map (c :: ·) else none
  | c :: t => if isDigit c then (digits? t).map (c :: ·) else none

/-- Digits without a sign; a point and zeros may follow. -/
def unsigned? (t : Text) : Option Nat :=
  let (whole, zeros) :=
    match Text.splitFirst? ['.'] t with
    | none => (t, true)
    | some (whole, places) => (whole, !places.isEmpty && places.all (· = '0'))
  if zeros then (digits? whole).map (·.foldl (fun n c => n * 10 + (c.toNat - 48)) 0) else none

/-- The whole number a text spells. Left out: texts of over 4300 digits, which are refused. -/
def integer? (t : Text) : Option Int :=
  match Text.trimSet isPadding t with
  | '-' :: rest => (unsigned? rest).map fun n => -(n : Int)
  | '+' :: rest => (unsigned? rest).map (↑·)
  | rest => (unsigned? rest).map (↑·)

def checkInteger (v : Value) : Verdict Int :=
  match v with
  | .int n => .valid n
  | .bool b => .valid (if b then 1 else 0)
  | .real x =>
    if !x.isFinite then .complain .notFinite v
    else
      match x.toInt? with
      | none => .complain .fractional v
      | some n => if n.natAbs < Nat.pow 2 63 then .valid n else .complain .tooLarge v
  | .text t =>
    match integer? t with
    | some n => .valid n
    | none => .complain .unreadableInteger v
  | _ => .complain .notInteger v

/-! ## Scanner -/

def extensionFlaw (t : Text) : Option Text :=
  if t.head? = some '.' && 2 ≤ t.length then none
  else some (List.flatten ["Extension must start with '.', got ", Text.quote t])

def emptinessFlaw (t : Text) : Option Text :=
  if t.isEmpty then some "Must not be empty".toList else none

def stopTokensFlaw (tokens : List Text) : Option Text :=
  (tokens.find? (!Text.isIdentifier ·)).map fun t =>
    List.flatten ["Stop token must be a single word, got ", Text.quote t]

def workersFlaw (n : Int) : Option Text :=
  if n < 1 then some (List.flatten ["max_workers must be >= 1, got ", Text.ofInt n]) else none

def checkNonEmpty (v : Value) : Verdict Text := (checkText v).barring emptinessFlaw v

def scannerName : Text := "ScannerConfig"

def checkScanner (v : Value) : Verdict ScannerSettings :=
  match v with
  | .map entries =>
    let d : ScannerSettings := {}
    Verdict.valid ScannerSettings.mk
      |>.and (.entry entries "source_extension" d.sourceExtension fun v =>
        (checkText v).barring extensionFlaw v)
      |>.and (.entry entries "hidden_prefix" d.hiddenPrefix checkNonEmpty)
      |>.and (.entry entries "non_recursive_marker" d.nonRecursiveMarker checkNonEmpty)
      |>.and (.entry entries "namespace_separator" d.namespaceSeparator checkNonEmpty)
      |>.and (.entry entries "stop_tokens" d.stopTokens fun v =>
        (checkTexts v).barring stopTokensFlaw v)
      |>.and (.entry entries "encoding" d.encoding checkText)
      |>.and (.entry entries "max_workers" d.maxWorkers fun v =>
        (checkInteger v).barring workersFlaw v)
  | _ => .complain (.notModel scannerName) v

/-! ## Logging -/

def checkLevel (v : Value) : Verdict LogLevel :=
  let refused := Verdict.complain
    (.notChoice "'DEBUG', 'INFO', 'WARNING', 'ERROR' or 'CRITICAL'") v
  match v with
  | .text t =>
    match LogLevel.ofText? t with
    | some level => .valid level
    | none => refused
  | _ => refused

def checkOwnLevel : Value → Verdict (Option LogLevel)
  | .null => .valid none
  | v => (checkLevel v).map some

def checkFormat (v : Value) : Verdict LogFormat :=
  let refused := Verdict.complain (.notChoice "'json' or 'console'") v
  match v with
  | .text t =>
    match LogFormat.ofText? t with
    | some format => .valid format
    | none => refused
  | _ => refused

/-- Puts the home directory for a tilde in first place; `none` if another user's is meant. Left out:
the homes of users that exist. `~root/x.log` is taken where there is such a user; here no other user
has a home. -/
def expandHome (home : Text) (s : Spelling) : Option Spelling :=
  match s.anchor, s.parts with
  | .relative, first :: rest =>
    match first with
    | ['~'] =>
      let h := Spelling.parse home
      some { h with parts := h.parts ++ rest }
    | '~' :: _ => none
    | _ => some s
  | _, _ => some s

/-- The standard streams are destinations by name; any other is an absolute path. -/
def isStream (t : Text) : Bool := t = "stderr".toList || t = "stdout".toList

def checkDestination (home : Text) (v : Value) : Verdict Text :=
  match checkText v with
  | .valid t =>
    if isStream t then .valid t
    else
      match expandHome home (Spelling.parse t) with
      | none => .aborted .unknownHome
      | some s =>
        if s.isAbsolute then .valid s.text
        else .complain (.rejected
          (List.flatten ["File destination must be absolute path: ", t])) v
  | other => other

def outputName : Text := "LogOutputConfig"

def checkOutput (home : Text) (v : Value) : Verdict LogOutput :=
  match v with
  | .map entries =>
    let d : LogOutput := {}
    Verdict.valid LogOutput.mk
      |>.and (.entry entries "format" d.format checkFormat)
      |>.and (.entry entries "destination" d.destination (checkDestination home))
      |>.and (.entry entries "level" d.level checkOwnLevel)
  | _ => .complain (.notModel outputName) v

def checkOutputs (home : Text) : Value → Verdict (List LogOutput)
  | .list items => Verdict.each (checkOutput home) 0 items
  | v => .complain .notList v

def loggingName : Text := "LoggingConfig"

def checkLogging (home : Text) (v : Value) : Verdict LoggingSettings :=
  match v with
  | .map entries =>
    let d : LoggingSettings := {}
    Verdict.valid LoggingSettings.mk
      |>.and (.entry entries "level" d.level checkLevel)
      |>.and (.entry entries "outputs" d.outputs (checkOutputs home))
  | _ => .complain (.notModel loggingName) v

/-! ## All settings -/

def settingsName : Text := "ClassFinderConfig"

/-- The verdict on the sections of a configuration. -/
def checkSections (home : Text) (entries : List (Scalar × Value)) : Verdict Settings :=
  Verdict.valid Settings.mk
    |>.and (.entry entries "logging" {} (checkLogging home))
    |>.and (.entry entries "scanner" {} checkScanner)

def check (home : Text) (v : Value) : Verdict Settings :=
  match v with
  | .map entries => checkSections home entries
  | _ => .complain (.notModel settingsName) v

end Settings
end ClassCensus
