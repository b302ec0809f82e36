import ClassCensus.Files.Access
import ClassCensus.Settings.Dump
import ClassCensus.Settings.Environment
import ClassCensus.Text.Encoding
import ClassCensus.Yaml.Value

/-!
# ClassCensus.Settings.Load

Settings from all their sources. Arguments win over the environment, that over the project's file,
that over the user's file, and that over the defaults; sections are merged key by key, and
anything else is taken whole from one source.
-/

namespace ClassCensus
namespace Settings

/-- The configuration below a directory: its folder and the name of the file in it. -/
def projectFolder : Text := ".classfinder"

def fileName : Text := "config.yaml"

def projectPath (root : Text) : Text :=
  let s := Spelling.parse root
  { s with parts := s.parts ++ ([projectFolder, fileName] : List Text) }.text

def userPath (home : Text) : Text :=
  let s := Spelling.parse home
  { s with parts := s.parts ++ ([".config", "classfinder", fileName] : List Text) }.text

/-- The entries of a configuration file; a file that is not there or says nothing has none. -/
def entriesOf (fs : FileSystem) (path : Text) : Except Failure (List (Scalar × Value)) :=
  match fs.reach path with
  | .error e => .error e
  | .ok none => .ok []
  | .ok (some _) =>
    match fs.contents path with
    | .error e => .error e
    | .ok octets =>
      if Encoding.isUtf8 octets then
        match Yaml.parse? (Encoding.decodeUtf8 octets) with
        | none => .error (.fault (.unparsableConfig path "not well formed"))
        | some (.map entries) => .ok entries
        | some v =>
          if v.isVoid then .ok []
          else .error (.fault (.unparsableConfig path "top level must be a mapping"))
      else .error .undecodable

/-- The configuration of both files, the project's laid over the user's. -/
def filesEntries (fs : FileSystem) (home root : Text) : Except Failure (List (Scalar × Value)) :=
  match entriesOf fs (projectPath root) with
  | .error e => .error e
  | .ok project =>
    match entriesOf fs (userPath home) with
    | .error e => .error e
    | .ok user => .ok (if user.isEmpty then project else mergeEntries user project)

/-- Arguments by the names of the sections, which are read without regard to case. -/
def recaseArguments (entries : Table Text Value) : List (Scalar × Value) :=
  entries.foldl (fun found (name, value) =>
    let lower := Text.lower name
    let name := if lower = Section.logging.name || lower = Section.scanner.name then lower else name
    Table.put found (.text name) value) []

/-- The entries that no section is named for. -/
def extras (entries : List (Scalar × Value)) : List Issue :=
  entries.filterMap fun (key, value) =>
    match key with
    | .text t =>
      if t = Section.logging.name || t = Section.scanner.name then none
      else some ⟨[.key t], .extra, value⟩
    | _ => none

/-- The verdict on a whole configuration, in which nothing else may stand. -/
def checkAll (home : Text) (entries : List (Scalar × Value)) : Verdict Settings :=
  match checkSections home entries, extras entries with
  | .valid s, [] => .valid s
  | .valid _, more => .invalid more
  | .invalid issues, more => .invalid (issues ++ more)
  | .aborted e, _ => .aborted e

/-- The fault for the first of some issues. -/
def faultOf (issues : List Issue) : Fault :=
  match issues with
  | [] => .invalidSetting [] .null []
  | i :: _ =>
    .invalidSetting (Text.join ['.'] (i.place.map Step.text)) i.given i.complaint.message

/-- All sources laid over each other. -/
def gather (fs : FileSystem) (home root : Text) (env : Environment)
    (arguments : Table Text Value) : Except Failure (List (Scalar × Value)) :=
  match filesEntries fs home root with
  | .error e => .error e
  | .ok files =>
    match env.sections with
    | .error e => .error e
    | .ok fromEnv =>
      .ok (mergeEntries files (mergeEntries fromEnv (recaseArguments arguments)))

def hasTextKeys (entries : List (Scalar × Value)) : Bool :=
  entries.all fun (key, _) =>
    match key with
    | .text _ => true
    | _ => false

/-- The settings of a verdict, or the failure it amounts to. -/
def outcome : Verdict Settings → Except Failure Settings
  | .valid s => .ok s
  | .invalid issues => .error (.fault (faultOf issues))
  | .aborted e => .error e

/-- The settings for a project, whose directory is the current one unless another is given. What
all sources come to is checked, written back and checked once more. -/
def load (fs : FileSystem) (home : Text) (root : Option Text) (env : Environment)
    (arguments : Table Text Value) : Except Failure Settings :=
  match gather fs home (root.getD (FileSystem.pathOf fs.cwd)) env arguments with
  | .error e => .error e
  | .ok entries =>
    if hasTextKeys entries then
      match outcome (checkAll home entries) with
      | .error e => .error e
      | .ok s => outcome (check home s.toValue)
    else .error .unfitArgument

end Settings
end ClassCensus
