import ClassCensus.Json.Writer
import ClassCensus.Settings.Logging
import ClassCensus.Value.Shown

/-!
# ClassCensus.Log.Entry

An entry of the log and the lines it is written as: JSON for programs, or a line for the console
that starts with the time, the level, the event and the logger, and lists the other fields by
name.
-/

namespace ClassCensus

/-- What a caller logs; an empty logger has no name. -/
structure Message where
  level : LogLevel
  event : Text
  logger : Text := []
  fields : Table Text Value := []

/-- The fields of a log line, in the order in which they were first set. -/
abbrev Entry := Table Text Value

def LogLevel.word : LogLevel → Text
  | debug => "debug"
  | info => "info"
  | warning => "warning"
  | error => "error"
  | critical => "critical"

namespace Entry

def event : Text := "event"
def level : Text := "level"
def timestamp : Text := "timestamp"
def logger : Text := "logger"
def loggerName : Text := "logger_name"
def scanId : Text := "scan_id"

/-- The entry of a message: its own fields, and over them the event, the level, the time and the
id of the scan. -/
def ofMessage (m : Message) (now : Text) (id : Option Text) : Entry :=
  let named : Entry := if m.logger.isEmpty then [] else [(logger, .text m.logger)]
  let own := m.fields.foldl (fun e (name, value) => Table.put e name value) named
  let timed := Table.put (Table.put (Table.put own event (.text m.event))
    level (.text m.level.word)) timestamp (.text now)
  match id with
  | none => timed
  | some t => Table.put timed scanId (.text t)

/-- The entry of a message that has nothing but its text. -/
def ofText (severity : LogLevel) (said now : Text) (id : Option Text) : Entry :=
  ofMessage ⟨severity, said, [], []⟩ now id

def json (e : Entry) : Text := Json.write (.record e)

/-! ## Lines for the console -/

/-- The least widths of the event and the level. -/
structure Widths where
  event : Nat := 0
  level : Nat := 0

def pad (width : Nat) (t : Text) : Text := t ++ List.replicate (width - t.length) ' '

def trimEnd (t : Text) : Text := (t.reverse.dropWhile (· = ' ')).reverse

/-- Characters that make a text stand in quotes. -/
def needsQuotes (c : Char) : Bool :=
  c ∈ [' ', '\t', '\n', '\r', '"', '\'', '=']

def fieldText : Value → Text
  | .text t => if t.any needsQuotes then Text.quote t else t
  | v => v.shown

def bracketed (t : Text) : Text := '[' :: t ++ [']']

/-- The fields with a place of their own, and how they look there. -/
def columns (w : Widths) : List (Text × (Text → Text)) :=
  [(timestamp, id), (level, fun t => bracketed (pad w.level t)), (event, pad w.event),
    (logger, bracketed), (loggerName, bracketed)]

def stack : Text := "stack"
def exception : Text := "exception"

/-- Fields that follow the line or are left out. -/
def trailing : List Text := [stack, exception, "exc_info"]

/-- The fields that are listed by name. -/
def listed (e : Entry) : List (Text × Value) :=
  Text.sortByName (e.filter fun (name, _) =>
    !((columns {}).map (·.1)).contains name && !trailing.contains name)

/-- What follows the line: the stack and the error that were handed over. -/
def trail (e : Entry) : Text :=
  match Table.get? e stack, Table.get? e exception with
  | some (.text s), some (.text x) =>
    List.flatten [['\n'], s, ['\n', '\n'], List.replicate 79 '=', ['\n', '\n'], x]
  | some (.text s), _ => '\n' :: s
  | _, some (.text x) => '\n' :: x
  | _, _ => []

def console (w : Widths) (e : Entry) : Text :=
  let placed := (columns w).filterMap fun (name, look) =>
    (Table.get? e name).map fun v => look v.plain
  let others := e.listed.map fun (name, v) => List.flatten [name, ['='], fieldText v]
  trimEnd (Text.join [' '] ((placed ++ others).filter (!·.isEmpty))) ++ e.trail

def line (format : LogFormat) (e : Entry) : Text :=
  match format with
  | .json => e.json
  | .console => e.console {}

end Entry
end ClassCensus
