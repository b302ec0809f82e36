import ClassCensus.Proofs.LoadFailures
import ClassCensus.Proofs.Utf8

/-!
# ClassCensus.Proofs.Documents

What the document in a configuration file may be. A mapping gives its entries and null gives none.
Any other document is a fault that names the file, but for those that count as nothing given before
anyone asks what they are (`Hollow`): false, zero, and the empty text and list pass for a file that
is not there.
-/

namespace ClassCensus

/-- Values other than null and mappings that count as nothing given. -/
inductive Value.Hollow : Value → Prop where
  | no : Hollow (.bool false)
  | zero : Hollow (.int 0)
  | realZero (negative : Bool) (exponent : Int) : Hollow (.real (.finite negative 0 exponent))
  | text : Hollow (.text [])
  | list : Hollow (.list [])

theorem Value.isVoid_iff {v : Value} (hnull : v ≠ .null) (hmap : ∀ entries, v ≠ .map entries) :
    v.isVoid = true ↔ v.Hollow := by
  constructor
  · intro h
    cases v with
    | map entries => exact absurd rfl (hmap entries)
    | list items =>
      obtain rfl := List.isEmpty_iff.1 h
      exact .list
    | scalar s =>
      cases s with
      | null => exact absurd rfl hnull
      | bool b =>
        cases b with
        | true => cases h
        | false => exact .no
      | int n =>
        obtain rfl : n = 0 := by simpa [isVoid] using h
        exact .zero
      | text t =>
        obtain rfl := List.isEmpty_iff.1 h
        exact .text
      | real x =>
        cases x with
        | finite negative mantissa exponent =>
          obtain rfl : mantissa = 0 := by simpa [isVoid, Double.isZero] using h
          exact .realZero negative exponent
        | infinite negative => cases h
        | nan => cases h
  · intro h
    cases h <;> rfl

namespace Settings

variable {fs : FileSystem} {home root path other text : Text} {env : Environment}
  {arguments : Table Text Value} {v : Value} {e : Failure}

/-! ## One file -/

/-- There is a file at the path that can be opened, and it holds the text. -/
structure Holds (fs : FileSystem) (path text : Text) : Prop where
  named : '\x00' ∉ path
  opened : fs.openFile path = .ok (Text.utf8 text)

/-- There is no file at the path, or it holds a mapping or nothing. -/
inductive WellFormed (fs : FileSystem) (path : Text) : Prop where
  | absent (h : fs.reach path = .ok none)
  | silent {text : Text} (h : Holds fs path text) (hdocument : Yaml.parse? text = some .null)
  | mapping {text : Text} {entries : List (Scalar × Value)} (h : Holds fs path text)
      (hdocument : Yaml.parse? text = some (.map entries))

/-- The failure says of a file that its top level is no mapping. -/
def BlamesTopLevel (path : Text) (e : Failure) : Prop :=
  ∃ f, e = .fault f ∧ f.family = .config ∧ f.code.number = 2001 ∧
    f.details = [("path".toList, .text path),
      ("reason".toList, .text "top level must be a mapping".toList)]

theorem entriesOf_of_absent (h : fs.reach path = .ok none) : entriesOf fs path = .ok [] := by
  simp only [entriesOf, h]

theorem entriesOf_of_document (h : Holds fs path text) (hv : Yaml.parse? text = some v) :
    entriesOf fs path =
      match v with
      | .map entries => .ok entries
      | v =>
        if v.isVoid then .ok []
        else .error (.fault (.unparsableConfig path "top level must be a mapping")) := by
  obtain ⟨loc, hthere, -⟩ := FileSystem.exists_of_openFile h.opened
  have hreach := FileSystem.reach_eq_some.2 ⟨h.named, hthere⟩
  simp only [entriesOf, hreach, FileSystem.contents, h.opened, Encoding.isUtf8_utf8, if_true,
    Encoding.decodeUtf8_utf8, hv]
  cases v <;> rfl

theorem WellFormed.exists_entries (h : WellFormed fs path) :
    ∃ entries, entriesOf fs path = .ok entries := by
  cases h with
  | absent h => exact ⟨[], entriesOf_of_absent h⟩
  | silent h hdocument => exact ⟨[], entriesOf_of_document h hdocument⟩
  | mapping h hdocument => exact ⟨_, entriesOf_of_document h hdocument⟩

theorem entriesOf_of_hollow (h : Holds fs path text) (hv : Yaml.parse? text = some v)
    (hhollow : v.Hollow) : entriesOf fs path = .ok [] := by
  rw [entriesOf_of_document h hv]
  cases hhollow <;> rfl

theorem entriesOf_of_other (h : Holds fs path text) (hv : Yaml.parse? text = some v)
    (hnull : v ≠ .null) (hmap : ∀ entries, v ≠ .map entries) (hhollow : ¬ v.Hollow) :
    ∃ e, entriesOf fs path = .error e ∧ BlamesTopLevel path e := by
  have hvoid : v.isVoid = false := by
    rw [← Bool.not_eq_true, Value.isVoid_iff hnull hmap]
    exact hhollow
  refine ⟨.fault (.unparsableConfig path "top level must be a mapping"), ?_, _, rfl, rfl, rfl, rfl⟩
  rw [entriesOf_of_document h hv]
  cases v with
  | map entries => exact absurd rfl (hmap entries)
  | scalar s => simp only [hvoid, Bool.false_eq_true, if_false]
  | list items => simp only [hvoid, Bool.false_eq_true, if_false]

/-! ## Both files -/

/-- One of the two files that are read, and the other. -/
inductive FilePair (home root : Text) : Text → Text → Prop where
  | project : FilePair home root (projectPath root) (userPath home)
  | user : FilePair home root (userPath home) (projectPath root)

theorem filesEntries_of_error (hpair : FilePair home root path other) (hother : WellFormed fs other)
    (h : entriesOf fs path = .error e) : filesEntries fs home root = .error e := by
  obtain ⟨entries, hentries⟩ := hother.exists_entries
  cases hpair with
  | project => simp only [filesEntries, h]
  | user => simp only [filesEntries, hentries, h]

theorem filesEntries_of_nil (hpair : FilePair home root path other)
    (h : entriesOf fs path = .ok []) : filesEntries fs home root = entriesOf fs other := by
  cases hpair with
  | project =>
    simp only [filesEntries, h]
    cases entriesOf fs (userPath home) with
    | error e => rfl
    | ok user => cases user <;> simp [mergeEntries]
  | user =>
    simp only [filesEntries, h, List.isEmpty_nil, if_true]
    cases entriesOf fs (projectPath root) <;> rfl

theorem code_faultOf (issues : List Issue) : (faultOf issues).code = .invalidSetting := by
  cases issues <;> rfl

/-- What comes after reading the files blames none of them. -/
theorem not_blames_of_files {root : Option Text} {files : List (Scalar × Value)}
    (hfiles : filesEntries fs home (root.getD (FileSystem.pathOf fs.cwd)) = .ok files)
    (h : load fs home root env arguments = .error e) : ¬ BlamesTopLevel path e := by
  rintro ⟨f, rfl, -, hcode, -⟩
  rw [load_eq] at h
  simp only [gather, hfiles] at h
  cases hsections : env.sections with
  | error e =>
    rw [hsections] at h
    cases h
    rcases (Environment.sections_error_iff env).1 hsections with ⟨-, h⟩ | ⟨-, -, h⟩ <;> cases h
  | ok fromEnv =>
    rw [hsections] at h
    dsimp only at h
    split at h
    · cases hcheck : checkAll home (mergeEntries files
          (mergeEntries fromEnv (recaseArguments arguments))) with
      | valid s =>
        rw [hcheck] at h
        cases h
      | invalid issues =>
        rw [hcheck] at h
        cases h
        rw [code_faultOf] at hcode
        exact absurd hcode (by decide)
      | aborted e =>
        rw [hcheck] at h
        cases h
        cases ((abort?_checkAll home _ _).1 (Verdict.abort?_eq_some.2 hcheck)).1
    · cases h

/-- If one of the files holds a document that is neither null nor a mapping, and the other one is
well formed or not there, loading fails for the top level of that file unless the document is false,
zero or empty. Such a document is passed over: the file might as well not be there. -/
theorem other_documents_fail_unless_hollow (fs : FileSystem) (home : Text) (root : Option Text)
    (env : Environment) (arguments : Table Text Value) {path other text : Text} {v : Value}
    (hpair : FilePair home (root.getD (FileSystem.pathOf fs.cwd)) path other)
    (hother : WellFormed fs other) (hholds : Holds fs path text)
    (hv : Yaml.parse? text = some v) (hnull : v ≠ .null) (hmap : ∀ entries, v ≠ .map entries) :
    ((∃ e, load fs home root env arguments = .error e ∧ BlamesTopLevel path e) ↔ ¬ v.Hollow) ∧
      (v.Hollow → ∀ fs' : FileSystem, fs'.cwd = fs.cwd → fs'.reach path = .ok none →
        entriesOf fs' other = entriesOf fs other →
        load fs' home root env arguments = load fs home root env arguments) := by
  refine ⟨⟨?_, fun hhollow => ?_⟩, fun hhollow fs' hcwd habsent hsame => ?_⟩
  · rintro ⟨e, hload, hblames⟩ hhollow
    obtain ⟨entries, hentries⟩ := hother.exists_entries
    have hfiles := filesEntries_of_nil hpair (entriesOf_of_hollow hholds hv hhollow)
    exact not_blames_of_files (hfiles.trans hentries) hload hblames
  · obtain ⟨e, hentries, hblames⟩ := entriesOf_of_other hholds hv hnull hmap hhollow
    have hfiles := filesEntries_of_error hpair hother hentries
    exact ⟨e, by simp only [load_eq, gather, hfiles], hblames⟩
  · have hfiles := filesEntries_of_nil hpair (entriesOf_of_hollow hholds hv hhollow)
    have hfiles' := filesEntries_of_nil hpair (entriesOf_of_absent habsent)
    simp only [load_eq, gather, hcwd, hfiles, hfiles', hsame]

/-- The user's configuration file, and the project's if there is one, with the texts they hold. -/
def bothFiles (user : Text) (project : Option Text) : FileSystem :=
  ⟨.dir
    [("h".toList, .dir [(".config".toList, .dir [("classfinder".toList, .dir
      [(fileName, .file (Text.utf8 user))])])]),
    ("p".toList, .dir [(projectFolder,
      .dir (project.toList.map fun text => (fileName, .file (Text.utf8 text))))])],
    [], ["p".toList], []⟩

theorem holds_user (user : Text) (project : Option Text) :
    Holds (bothFiles user project) (userPath "/h".toList) user := ⟨by decide, rfl⟩

theorem holds_project (user project : Text) :
    Holds (bothFiles user (some project)) (projectPath "/p".toList) project := ⟨by decide, rfl⟩

/-- A list in the user's file is a fault, and a negative zero in the project's file is not. -/
theorem listed_document_fails_and_zero_passes :
    (∃ e, load (bothFiles "- a".toList (some "scanner: 1".toList)) "/h".toList none [] [] =
        .error e ∧ BlamesTopLevel "/h/.config/classfinder/config.yaml".toList e) ∧
      load (bothFiles "scanner: 1".toList none) "/h".toList none [] [] =
        load (bothFiles "scanner: 1".toList (some "-0.0".toList)) "/h".toList none [] [] := by
  have hmap : Yaml.parse? "scanner: 1".toList =
      some (.map [(.text "scanner".toList, .int 1)]) := by decide +kernel
  have hlist : Yaml.parse? "- a".toList = some (.list [.text "a".toList]) := by decide +kernel
  have hzero : Yaml.parse? "-0.0".toList = some (.real (.finite true 0 (-1074))) := by
    decide +kernel
  have hpath : userPath "/h".toList = "/h/.config/classfinder/config.yaml".toList := by decide
  have hlisted := other_documents_fail_unless_hollow
    (bothFiles "- a".toList (some "scanner: 1".toList)) "/h".toList none [] [] .user
    (.mapping (holds_project _ _) hmap) (holds_user _ _) hlist nofun nofun
  have hpassed := other_documents_fail_unless_hollow
    (bothFiles "scanner: 1".toList (some "-0.0".toList)) "/h".toList none [] [] .project
    (.mapping (holds_user _ _) hmap) (holds_project _ _) hzero nofun nofun
  rw [← hpath]
  exact ⟨hlisted.1.2 nofun, hpassed.2 (.realZero _ _) _ rfl rfl rfl⟩

/-- An empty list, false, zero and an empty text are no mappings and are not null, and they load as
the defaults. -/
theorem hollow_documents_load :
    ([("[]", .list []), ("false", .bool false), ("0", .int 0), ("''", .text [])] :
      List (String × Value)).all (fun (text, v) =>
        Yaml.parse? text.toList = some v ∧
          (load (projectWith (Text.utf8 text.toList)) "/w/home".toList none [] []).toOption =
            some {}) = true := by
  decide +kernel

end Settings
end ClassCensus
