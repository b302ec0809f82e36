import ClassCensus.Proofs.Sources

/-!
# ClassCensus.Proofs.SameFile

Whether the canonical path of a source file leads back to that file. Backslashes count as slashes
in canonical paths, so this is a matter of them alone: a path without one, to a file whose real
path has none, keeps its file, and nothing else about names or links matters. With a backslash in a
name two files can share one canonical path.
-/

namespace ClassCensus

namespace FileSystem

variable {fs : FileSystem} {path : Text} {loc : Location}

theorem noNul_of_locate (hnames : fs.tree.wellNamed = true) (h : fs.locate true path = .ok loc) :
    '\x00' ∉ path :=
  not_mem_of_locate (by decide) (by decide) (fun _ _ hdir name hname =>
    (proper_of_isName ((Tree.wellNamed_at? hnames hdir).2 name hname)).noNul) h

/-- Paths that lead to one place are opened alike. -/
theorem openFile_congr {path' : Text} (h : fs.locate true path = fs.locate true path') :
    fs.openFile path = fs.openFile path' := by
  simp only [openFile, h]

end FileSystem

namespace Walk

variable {fs : FileSystem} {settings settings' : ScannerSettings} {recursive recursive' : Bool}
  {root root' f f' : Text} {notice notice' : Notice} {found found' : Listing Text}

/-- Neither the path nor the real path of what it leads to has a backslash. -/
structure Straight (fs : FileSystem) (f : Text) : Prop where
  written : '\\' ∉ f
  real : ∀ p, fs.realPath? f = some p → '\\' ∉ p

theorem Straight.canonical (hnames : fs.tree.wellNamed = true) (h : Straight fs f) {loc : Location}
    (hlocate : fs.locate true f = .ok loc) : fs.canonical f = .ok (FileSystem.pathOf loc) := by
  have hreal := FileSystem.realPath?_of_locate hnames hlocate
  simp only [FileSystem.canonical, FileSystem.canonical?, Spelling.slashed_eq_self h.written, hreal,
    Option.map_some, Spelling.slashed_eq_self (h.real _ hreal)]

/-- Headers are read off the octets, whatever path they are opened under. -/
theorem readHeader_congr {s : ScannerSettings} {path path' : Text} {header : Source.Header}
    (hpath : '\x00' ∉ path) (hpath' : '\x00' ∉ path')
    (h : fs.openFile path = fs.openFile path') :
    Scanner.readHeader fs s path = .ok header ↔ Scanner.readHeader fs s path' = .ok header := by
  simp only [Scanner.readHeader, Scanner.readLines, List.contains_eq_mem, hpath, hpath',
    decide_false, Bool.false_eq_true, if_false, h]
  by_cases hencoding : '\x00' ∈ s.encoding
  · simp [hencoding]
  · cases fs.openFile path' <;> simp [hencoding]

theorem headerOf_eq_ok {s : ScannerSettings} {path : Text} {header : Source.Header}
    (h : fs.canonical f = .ok path) :
    Scanner.headerOf fs s f = .ok (path, header) ↔ Scanner.readHeader fs s path = .ok header := by
  rw [Scanner.headerOf, h]
  cases hread : Scanner.readHeader fs s path <;> simp [hread]

/-- A source whose path and real path have no backslash: its canonical path leads to the same file,
so that scanning it reads the file's own octets, and no other such source has that canonical path
unless it leads to the same file. -/
theorem canonical_path_keeps_file (hnames : fs.tree.wellNamed = true)
    (hwalk : enumerate fs settings recursive root = .ok (notice, found)) (hf : f ∈ found.items)
    (hstraight : Straight fs f)
    (hwalk' : enumerate fs settings' recursive' root' = .ok (notice', found'))
    (hf' : f' ∈ found'.items) (hstraight' : Straight fs f') :
    ∃ path loc content, fs.canonical f = .ok path ∧ fs.locate true f = .ok loc ∧
      fs.tree.at? loc = some (.file content) ∧ fs.locate true path = .ok loc ∧
      fs.openFile path = fs.openFile f ∧
      (∀ s header, Scanner.headerOf fs s f = .ok (path, header) ↔
        Scanner.readHeader fs s f = .ok header) ∧
      (fs.canonical f' = .ok path → fs.locate true f' = .ok loc) := by
  obtain ⟨loc, content, hlocate, hat⟩ := leads_of_enumerate hnames hwalk hf
  obtain ⟨loc', content', hlocate', hat'⟩ := leads_of_enumerate hnames hwalk' hf'
  have hcanonical := hstraight.canonical hnames hlocate
  have hback := FileSystem.locate_pathOf hnames hlocate
  have hopen := FileSystem.openFile_congr (hback.trans hlocate.symm)
  refine ⟨_, loc, content, hcanonical, hlocate, hat, hback, hopen, fun s header => ?_, fun h => ?_⟩
  · rw [headerOf_eq_ok hcanonical]
    exact readHeader_congr (FileSystem.noNul_of_locate hnames hback)
      (FileSystem.noNul_of_locate hnames hlocate) hopen
  · rw [hstraight'.canonical hnames hlocate'] at h
    have hback' := FileSystem.locate_pathOf hnames hlocate'
    rw [Except.ok.inj h, hback] at hback'
    rw [hlocate', Except.ok.inj hback']

/-- Two files of which one has a backslash where the other has a slash, and a link to the other. -/
def twins : Grounds :=
  ⟨⟨.dir [("src".toList, .dir
      [("a".toList, .dir [("b.php".toList, .file (Text.utf8 "class A".toList))]),
        ("a\\b.php".toList, .file (Text.utf8 "class B".toList)),
        ("l.php".toList, .link "a/b.php".toList)])], [], [], []⟩, {}, []⟩

def twinsRoot : Root := ⟨"src".toList, true⟩

/-- The link and the file it leads to keep the file, beside its twin. -/
theorem link_keeps_file :
    ∃ path loc content, twins.files.canonical "src/l.php".toList = .ok path ∧
      twins.files.locate true "src/l.php".toList = .ok loc ∧
      twins.files.tree.at? loc = some (.file content) ∧
      twins.files.locate true path = .ok loc ∧
      (twins.files.canonical "src/a/b.php".toList = .ok path →
        twins.files.locate true "src/a/b.php".toList = .ok loc) := by
  obtain ⟨notice, found, hwalk, hf⟩ := Grounds.exists_of_mem_sources
    (by decide +kernel : "src/l.php".toList ∈ twins.sources twinsRoot)
  obtain ⟨notice', found', hwalk', hf'⟩ := Grounds.exists_of_mem_sources
    (by decide +kernel : "src/a/b.php".toList ∈ twins.sources twinsRoot)
  have hreal : ∀ f ∈ ["src/l.php".toList, "src/a/b.php".toList],
      twins.files.realPath? f = some "/src/a/b.php".toList := by decide +kernel
  have hstraight : ∀ f ∈ ["src/l.php".toList, "src/a/b.php".toList], '\\' ∉ f →
      Straight twins.files f := by
    intro f hf hwritten
    refine ⟨hwritten, fun p hp => ?_⟩
    rw [hreal f hf] at hp
    cases hp
    decide
  obtain ⟨path, loc, content, hcanonical, hlocate, hat, hback, -, -, hother⟩ :=
    canonical_path_keeps_file (by decide +kernel) hwalk hf (hstraight _ (by simp) (by decide))
      hwalk' hf' (hstraight _ (by simp) (by decide))
  exact ⟨path, loc, content, hcanonical, hlocate, hat, hback, hother⟩

/-- A walk yields both twins. They have one canonical path, which leads to the one without a
backslash, so that the octets of the other are never read. -/
theorem backslash_leads_to_other_file :
    twins.files.tree.wellNamed = true ∧
      twins.sources twinsRoot =
        ["src/a\\b.php".toList, "src/l.php".toList, "src/a/b.php".toList] ∧
      twins.files.canonical? "src/a\\b.php".toList = some "/src/a/b.php".toList ∧
      twins.files.canonical? "src/a/b.php".toList = some "/src/a/b.php".toList ∧
      (twins.files.locate true "src/a\\b.php".toList).toOption =
        some ["src".toList, "a\\b.php".toList] ∧
      (twins.files.locate true "/src/a/b.php".toList).toOption =
        some ["src".toList, "a".toList, "b.php".toList] ∧
      (twins.files.openFile "src/a\\b.php".toList).toOption ≠
        (twins.files.openFile "/src/a/b.php".toList).toOption := by
  decide +kernel

end Walk
end ClassCensus
