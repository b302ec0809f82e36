import ClassCensus.Files.Making
import ClassCensus.Log.Entry
import ClassCensus.Settings.Check
import ClassCensus.Text.Encoding

/-!
# ClassCensus.Log.Book

The log at work: its set-up, the id of the scan under way, and all that was written.

A set-up replaces the one before it. A message is written once for each handler whose level it
reaches, provided it reaches the level of the whole log. Without handlers grave messages go to the
error stream, and before the first set-up every message goes to the output stream.

Not every sink takes every line: a file takes no text without octets. A line that a handler cannot
write is dropped, and the error stream gets a report of it.
-/

namespace ClassCensus

/-- Where lines end up. -/
inductive Sink where
  | stdout
  | stderr
  | file (place : Location)
  deriving DecidableEq, Repr

structure Handler where
  sink : Sink
  name : Text
  level : LogLevel
  format : LogFormat
  deriving DecidableEq, Repr

structure LogSetup where
  level : LogLevel
  handlers : List Handler
  deriving DecidableEq, Repr

/-- What sinks make of lines: which ones they take, and what is said of one that is refused. -/
structure Intake where
  takes : Sink → Text → Bool
  report : Text → Text

/-- Streams that take any line, and files that take what has octets. -/
def Intake.ofFiles (files : FileSystem) : Intake where
  takes sink line :=
    match sink with
    | .file _ => files.encodes line
    | _ => true
  report _ := "--- Logging error ---"

/-- What becomes of a line: its sink takes it, or the error stream gets the report. -/
def Intake.settle (i : Intake) (line : Sink × Text) : Sink × Text :=
  if i.takes line.1 line.2 then line else (.stderr, i.report line.2)

structure Logbook where
  files : FileSystem
  intake : Intake := .ofFiles files
  setup : Option LogSetup := none
  scanId : Option Text := none
  opened : List Location := []
  written : List (Sink × Text) := []

namespace LogLevel

/-- A level is reached by itself and the graver ones. -/
def reachedBy (least l : LogLevel) : Bool := least.severity ≤ l.severity

end LogLevel

namespace Logbook

/-! ## Set-up -/

def stdoutName : Text := "stdout"
def stderrName : Text := "stderr"

/-- The settings of a log with one output to the error stream. -/
def simple (home : Text) (level : Value) (json : Bool) : Verdict LoggingSettings :=
  let format : LogFormat := if json then .json else .console
  Settings.checkLogging home (.record [("level".toList, level),
    ("outputs".toList, .list [.record [("format".toList, .text format.text)]])])

/-- Opens the file of an output, with the directories above it. -/
def openFile (b : Logbook) (path : Text) : Except Failure (Text × Location × FileSystem) :=
  if path.contains '\x00' then .error (.misuse .nulInPath)
  else
    let s := Spelling.parse path
    match b.files.ensureDirs s.anchor s.parent.parts.reverse with
    | .error e => .error e
    | .ok fs =>
      let whole := Spelling.absolute (FileSystem.pathOf fs.cwd) path
      match fs.openEnd whole with
      | .error e => .error (.system e whole)
      | .ok (place, fs) => .ok (whole, place, fs)

/-- Adds the handler of an output. -/
def addOutput (b : Logbook) (s : LogSetup) (o : LogOutput) : Except Failure Unit × Logbook :=
  let level := o.level.getD s.level
  let extend (b : Logbook) (h : Handler) : Logbook :=
    { b with setup := some { s with handlers := s.handlers ++ [h] } }
  if o.destination = stderrName then
    (.ok (), extend b ⟨.stderr, stderrName, level, o.format⟩)
  else if o.destination = stdoutName then
    (.ok (), extend b ⟨.stdout, stdoutName, level, o.format⟩)
  else
    match b.openFile o.destination with
    | .error e => (.error e, b)
    | .ok (name, place, files) =>
      let opened := if place ∈ b.opened then b.opened else b.opened ++ [place]
      (.ok (), extend { b with files, opened } ⟨.file place, name, level, o.format⟩)

/-- Adds the handlers of outputs up to the first that cannot be opened. -/
def addOutputs (b : Logbook) : List LogOutput → Except Failure Unit × Logbook
  | [] => (.ok (), b)
  | o :: rest =>
    match b.setup with
    | none => (.ok (), b)
    | some s =>
      match b.addOutput s o with
      | (.error e, b) => (.error e, b)
      | (.ok (), b) => b.addOutputs rest

/-- Sets the log up anew; what was set up before receives nothing from now on. -/
def configure (b : Logbook) (settings : LoggingSettings) : Except Failure Unit × Logbook :=
  addOutputs { b with setup := some ⟨settings.level, []⟩ } settings.outputs

/-! ## The id of the scan -/

/-- Takes the given id, or the fresh one if none or an empty one is given. -/
def setScanId (b : Logbook) (fresh : Text) (id : Option Text) : Logbook :=
  match id with
  | some (c :: t) => { b with scanId := some (c :: t) }
  | _ => { b with scanId := some fresh }

def clearScanId (b : Logbook) : Logbook := { b with scanId := none }

/-! ## Writing -/

def write (b : Logbook) (lines : List (Sink × Text)) : Logbook :=
  { b with written := b.written ++
      (lines.map b.intake.settle).map fun (sink, t) => (sink, t ++ ['\n']) }

/-- The lines of an entry for the handlers whose level it reaches. -/
def linesFor (handlers : List Handler) (l : LogLevel) (e : Entry) : List (Sink × Text) :=
  (handlers.filter (·.level.reachedBy l)).map fun h => (h.sink, e.line h.format)

/-- Writes an entry under a set-up; `bare` is what it reads like without handlers. -/
def enter (b : Logbook) (s : LogSetup) (l : LogLevel) (e : Entry) (bare : Text) : Logbook :=
  if s.level.reachedBy l then
    if s.handlers.isEmpty then
      if LogLevel.warning.reachedBy l then b.write [(.stderr, bare)] else b
    else b.write (linesFor s.handlers l e)
  else b

/-- The widths of lines before the first set-up. -/
def wide : Entry.Widths := ⟨30, 9⟩

/-- Names a message cannot give to a field. -/
def taken : List Text := ["event", "self"]

/-- One more such name, of messages that are written. -/
def takenInside : Text := "method_name"

/-- Logs a message at a time. -/
def log (b : Logbook) (now : Text) (m : Message) : Except Failure Logbook :=
  let reached := match b.setup with
    | none => true
    | some s => s.level.reachedBy m.level
  if m.fields.any fun (name, _) => name ∈ taken || (reached && name = takenInside) then
    .error .unfitArgument
  else
    match b.setup with
    | none =>
      -- no handler is there yet to report a line that is refused
      let line := (Entry.ofMessage m now none).console wide
      if b.intake.takes .stdout line then .ok (b.write [(.stdout, line)])
      else .error (.unencodable line)
    | some s =>
      let e := Entry.ofMessage m now b.scanId
      .ok (b.enter s m.level e (Value.record e).shown)

/-- Logs the plain text that code outside the library logs. -/
def logPlain (b : Logbook) (now : Text) (l : LogLevel) (said : Text) : Logbook :=
  match b.setup with
  | none => if LogLevel.warning.reachedBy l then b.write [(.stderr, said)] else b
  | some s => b.enter s l (Entry.ofText l said now b.scanId) said

/-! ## Reading -/

/-- What a sink held before it was written to. -/
def held (b : Logbook) : Sink → Text
  | .file place =>
    match b.files.tree.at? place with
    | some (.file octets) => Encoding.decodeUtf8 octets
    | _ => []
  | _ => []

/-- All that a sink holds. -/
def contents (b : Logbook) (sink : Sink) : Text :=
  b.held sink ++ ((b.written.filter (·.1 = sink)).map (·.2)).flatten

end Logbook
end ClassCensus
