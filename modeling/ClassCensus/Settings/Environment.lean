import ClassCensus.Failure
import ClassCensus.Json.Reader
import ClassCensus.Text.Lowercase
import ClassCensus.Value.Merge

/-!
# ClassCensus.Settings.Environment

Configuration from environment variables. The name of a variable is read without regard to case:
a section by itself holds JSON, and a longer name, cut at double underscores, leads to a place
inside the section. Longer names win over the section's own variable.
-/

namespace ClassCensus

/-- Environment variables by name. -/
abbrev Environment := Table Text Text

/-- A section of the configuration: its name, its keys, and the key that holds a list. -/
structure Section where
  name : Text
  keys : List Text
  listKey : Text

namespace Section

def logging : Section := ⟨"logging", ["level", "outputs"], "outputs"⟩

def scanner : Section :=
  ⟨"scanner", ["source_extension", "hidden_prefix", "non_recursive_marker", "namespace_separator",
    "stop_tokens", "encoding", "max_workers"], "stop_tokens"⟩

end Section

namespace Environment

def delimiter : Text := "__"

/-- The name of a section's variable. -/
def variableOf (s : Section) : Text := List.flatten ["classfinder", delimiter, s.name]

/-- The environment with its names in lower case; of two names that agree the later counts. -/
def lowered (env : Environment) : Environment :=
  env.foldl (fun found (name, value) => Table.put found (Text.lower name) value) []

/-- Puts a value at a path; where something other than a map stands on the way it is dropped. -/
def place (entries : List (Scalar × Value)) : List Text → Value → List (Scalar × Value)
  | [], _ => entries
  | [last], v => Table.put entries (.text last) v
  | key :: rest, v =>
    match Table.get? entries (.text key) with
    | none => Table.put entries (.text key) (.map (place [] rest v))
    | some (.map inner) => Table.put entries (.text key) (.map (place inner rest v))
    | some _ => entries

/-- The value of a variable that leads to a path of a section: lists are given in JSON. -/
def valueAt (s : Section) (path : List Text) (value : Text) : Except Failure Value :=
  if path = [s.listKey] && !value.isEmpty then
    match Json.parse? value with
    | some v => .ok v
    | none => .error (.unparsableVariable s.name)
  else .ok (.text value)

/-- What the variables with longer names put into a section. -/
def nested (s : Section) (found : List (Scalar × Value)) :
    Environment → Except Failure (List (Scalar × Value))
  | [] => .ok found
  | (name, value) :: rest =>
    match Text.after? (variableOf s ++ delimiter) name with
    | none => nested s found rest
    | some tail =>
      let path := Text.cut delimiter tail
      match valueAt s path value with
      | .error e => .error e
      | .ok v => nested s (place found path v) rest

/-- Writes the keys of a section in their own case. -/
def recase (s : Section) (entries : List (Scalar × Value)) : List (Scalar × Value) :=
  entries.foldl (fun found (key, value) =>
    let key := match key with
      | .text t => .text ((s.keys.find? (Text.lower · = Text.lower t)).getD t)
      | other => other
    Table.put found key value) []

/-- A section as the environment gives it, if it does. -/
def sectionValue (env : Environment) (s : Section) : Except Failure (Option Value) :=
  match nested s [] env with
  | .error e => .error e
  | .ok inner =>
    match Table.get? env (variableOf s) with
    | none => .ok (if inner.isEmpty then none else some (.map (recase s inner)))
    | some t =>
      match Json.parse? t with
      | none => .error (.unparsableVariable s.name)
      | some .null => .ok none
      | some (.map entries) => .ok (some (.map (recase s (mergeEntries entries inner))))
      | some v => .ok (some v)

/-- The sections the environment gives. -/
def sections (env : Environment) : Except Failure (List (Scalar × Value)) :=
  let env := lowered env
  match sectionValue env .logging, sectionValue env .scanner with
  | .error e, _ => .error e
  | _, .error e => .error e
  | .ok logging, .ok scanner =>
    let entry (s : Section) (v : Option Value) : List (Scalar × Value) :=
      (v.map fun v => (.text s.name, v)).toList
    .ok (entry .logging logging ++ entry .scanner scanner)

end Environment
end ClassCensus
