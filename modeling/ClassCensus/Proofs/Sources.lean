import ClassCensus.Proofs.Harvest
import ClassCensus.Proofs.Visits

/-!
# ClassCensus.Proofs.Sources

The source files of a root. Every candidate of a walk leads to a file, so its canonical path is
the path of that file's place, its fingerprint is that of the canonical path, and what its scan
finds depends on the place only.
-/

namespace ClassCensus

namespace Walk

variable {fs : FileSystem} {settings : ScannerSettings} {recursive : Bool} {dir name f : Text}

/-- A path without backslashes that leads to the file at `loc`. -/
structure IsSource (fs : FileSystem) (f : Text) (loc : Location) : Prop where
  plain : '\\' ∉ f
  leads : fs.locate true f = .ok loc
  file : ∃ content, fs.tree.at? loc = some (.file content)

theorem not_mem_clean_below (hdir : '\\' ∉ dir) (hname : '\\' ∉ name) :
    '\\' ∉ Spelling.clean (Spelling.below dir name) := by
  intro h
  rcases Spelling.mem_clean h with h | h | h
  · rcases Spelling.mem_below h with h | h | h
    · exact hdir h
    · exact hname h
    · simp at h
  · simp at h
  · simp at h

theorem Visits.plain (hplain : fs.tree.noBackslash = true) (hnames : fs.tree.wellNamed = true)
    {first s : Spot} (hfirst : fs.locate true first.dir = .ok first.loc)
    (hat : fs.tree.at? first.loc = some (.dir first.entries)) (hdir : '\\' ∉ first.dir)
    (h : Visits settings recursive first s) : '\\' ∉ s.dir := by
  induction h with
  | here => exact hdir
  | deeper hvisit _ hentry _ ih =>
    have hhere := (hvisit.leads hnames hfirst hat).2
    exact not_mem_clean_below ih
      (Tree.noBackslash_at? hplain hhere (Table.mem_keys_of_mem hentry))

theorem isSource_of_enumerate (hnames : fs.tree.wellNamed = true)
    (hplain : fs.tree.noBackslash = true) {root : Text} (hroot : '\\' ∉ root) {notice : Notice}
    {found : Listing Text} (h : enumerate fs settings recursive root = .ok (notice, found))
    (hf : f ∈ found.items) : ∃ place, IsSource fs f place := by
  obtain ⟨place, content, hlocate, hfile⟩ := leads_of_enumerate hnames h hf
  refine ⟨place, ?_, hlocate, content, hfile⟩
  obtain ⟨first, hopens, rfl⟩ := opens_of_enumerate h
  obtain ⟨s, name, hvisit, -, hentry, -, rfl⟩ := mem_files hf
  have hclean : '\\' ∉ first.dir := by
    rw [hopens.spelled]
    intro hmem
    rcases Spelling.mem_clean hmem with hmem | hmem | hmem
    · exact hroot hmem
    · simp at hmem
    · simp at hmem
  have hhere := (hvisit.leads hnames hopens.leads hopens.isDir).2
  exact not_mem_clean_below (hvisit.plain hplain hnames hopens.leads hopens.isDir hclean)
    (Tree.noBackslash_at? hplain hhere hentry.mem_keys)

namespace IsSource

variable {loc : Location} (h : IsSource fs f loc) (hnames : fs.tree.wellNamed = true)
  (hplain : fs.tree.noBackslash = true)

include h hnames hplain

theorem canonical : fs.canonical f = .ok (FileSystem.pathOf loc) :=
  FileSystem.canonical_of_locate hnames hplain h.plain h.leads

/-- The path of the place is a source too, with the same place. -/
theorem pathOf : IsSource fs (FileSystem.pathOf loc) loc where
  plain := by
    obtain ⟨content, hat⟩ := h.file
    exact FileSystem.not_mem_pathOf (FileSystem.noBackslash_of_at? hplain hat)
  leads := FileSystem.locate_pathOf hnames h.leads
  file := h.file

theorem fingerprint :
    fs.fingerprint f =
      if fs.encodes (FileSystem.pathOf loc) then .ok (fingerprintOf (FileSystem.pathOf loc))
      else .error (.unencodable (FileSystem.pathOf loc)) := by
  simp only [FileSystem.fingerprint, h.canonical hnames hplain]

theorem eq_of_fingerprint {key : Text} (hkey : fs.fingerprint f = .ok key) :
    key = fingerprintOf (FileSystem.pathOf loc) := by
  rw [h.fingerprint hnames hplain] at hkey
  split at hkey
  · exact (Except.ok.inj hkey).symm
  · cases hkey

end IsSource
end Walk

/-! ## What the sources of a root declare -/

namespace Grounds

variable {g : Grounds} {root : Root} {f f' : Text} {loc : Location}

/-- The source files of a root. -/
def sources (g : Grounds) (root : Root) : List Text :=
  match Walk.enumerate g.files g.settings root.recursive root.path with
  | .error _ => []
  | .ok (_, files) => files.items

/-- The header of a file has an identity, and that is a defined one. -/
def Declares (g : Grounds) (f : Text) : Prop :=
  ∃ path header identity, Scanner.headerOf g.files g.settings f = .ok (path, header) ∧
    g.identity? header = some identity ∧ Table.has g.types identity = true

theorem exists_of_mem_sources (hf : f ∈ g.sources root) :
    ∃ notice found, Walk.enumerate g.files g.settings root.recursive root.path = .ok (notice, found) ∧
      f ∈ found.items := by
  unfold sources at hf
  split at hf
  · cases hf
  · rename_i notice found henum
    exact ⟨notice, found, henum, hf⟩

theorem isSource_of_mem_sources (hnames : g.files.tree.wellNamed = true)
    (hplain : g.files.tree.noBackslash = true) (hroot : '\\' ∉ root.path)
    (hf : f ∈ g.sources root) : ∃ loc, Walk.IsSource g.files f loc := by
  obtain ⟨notice, found, henum, hmem⟩ := exists_of_mem_sources hf
  exact Walk.isSource_of_enumerate hnames hplain hroot henum hmem

theorem yield_cut_eq_none {files : Listing Text} (h : (g.yield files).cut = none) :
    files.cut = none := by
  unfold yield at h
  split at h
  · split at h
    · cases h
    · assumption
  · exact (Listing.append_cut_eq_none.1 h).2

/-- A root that is scanned to its end yields what its sources hold. -/
theorem rootYield_of_whole (h : (g.rootYield root).cut = none) :
    g.rootYield root = g.harvest (g.sources root) := by
  unfold rootYield sources at *
  cases henum : Walk.enumerate g.files g.settings root.recursive root.path with
  | error e =>
    rw [henum] at h
    cases h
  | ok listed =>
    obtain ⟨notice, items, cut⟩ := listed
    rw [henum] at h
    obtain rfl : cut = none := yield_cut_eq_none h
    exact yield_whole g items

theorem mem_rootYield (h : (g.rootYield root).cut = none) {x : Finding} :
    x ∈ (g.rootYield root).items ↔ ∃ f ∈ g.sources root, x ∈ (g.finding f).items := by
  have heq := rootYield_of_whole h
  rw [heq] at h ⊢
  rw [harvest, Listing.mem_concat h]
  simp

theorem finding_whole (h : (g.rootYield root).cut = none) (hf : f ∈ g.sources root) :
    (g.finding f).cut = none := by
  rw [rootYield_of_whole h, harvest, Listing.concat_cut_eq_none] at h
  exact h _ (List.mem_map_of_mem hf)

/-- What is found depends on the canonical path only. -/
theorem found_congr (h : g.files.canonical f = g.files.canonical f') : g.found f = g.found f' := by
  simp only [found, Scanner.headerOf, h]

theorem found_some {facts : ClassFacts} (h : g.found f = .ok (some facts)) :
    g.Declares f ∧ g.files.canonical f = .ok facts.file := by
  unfold found at h
  cases hread : Scanner.headerOf g.files g.settings f with
  | error e => simp [hread] at h
  | ok read =>
    obtain ⟨path, header⟩ := read
    cases hname : header.basename with
    | none => simp [hread, hname] at h
    | some name =>
      simp only [hread, hname, Grounds.facts] at h
      split at h
      · rename_i hhas
        split at h
        · cases h
        · cases h
          exact ⟨⟨path, header, _, hread, by simp only [identity?, hname, Option.map_some], hhas⟩,
            (Scanner.headerOf_ok hread).1⟩
      · cases h

/-- A file that declares a class has one found, unless its scan fails. -/
theorem found_of_declares (h : g.Declares f) {found : Option ClassFacts}
    (hfound : g.found f = .ok found) : ∃ facts, found = some facts := by
  obtain ⟨path, header, identity, hread, hid, hhas⟩ := h
  cases hname : header.basename with
  | none => simp [identity?, hname] at hid
  | some name =>
    simp only [identity?, hname, Option.map_some, Option.some.injEq] at hid
    simp only [Grounds.found, hread, hname, Grounds.facts, hid, hhas, if_true] at hfound
    split at hfound
    · cases hfound
    · cases hfound
      exact ⟨_, rfl⟩

/-- What a source holds is registered under its fingerprint, if it has one. -/
theorem mem_finding (hnames : g.files.tree.wellNamed = true)
    (hplain : g.files.tree.noBackslash = true) (h : Walk.IsSource g.files f loc) {x : Finding} :
    x ∈ (g.finding f).items ↔
      g.found f = .ok (some x.2) ∧ g.files.fingerprint f = .ok x.1 := by
  unfold finding
  cases hfound : g.found f with
  | error e => simp [keyed, Listing.refused]
  | ok found =>
    cases found with
    | none => simp [keyed, Listing.empty]
    | some facts =>
      have hfile : facts.file = FileSystem.pathOf loc :=
        Except.ok.inj ((found_some hfound).2.symm.trans (h.canonical hnames hplain))
      have hsame : g.files.fingerprint facts.file = g.files.fingerprint f := by
        rw [hfile, (h.pathOf hnames hplain).fingerprint hnames hplain,
          h.fingerprint hnames hplain]
      simp only [keyed, hsame]
      cases g.files.fingerprint f with
      | error e => simp [Listing.refused]
      | ok key => simp [Listing.single, Prod.ext_iff, and_comm, eq_comm]

/-- A source whose scan does not fail holds something exactly if it declares a class. -/
theorem exists_mem_finding (hnames : g.files.tree.wellNamed = true)
    (hplain : g.files.tree.noBackslash = true) (h : Walk.IsSource g.files f loc)
    (hwhole : (g.finding f).cut = none) :
    (∃ facts, (fingerprintOf (FileSystem.pathOf loc), facts) ∈ (g.finding f).items) ↔
      g.Declares f := by
  constructor
  · rintro ⟨facts, hmem⟩
    exact (found_some ((mem_finding hnames hplain h).1 hmem).1).1
  · intro hdeclares
    cases hfound : g.found f with
    | error e => simp [finding, hfound, keyed, Listing.refused] at hwhole
    | ok found =>
      obtain ⟨facts, rfl⟩ := found_of_declares hdeclares hfound
      -- without a fingerprint the scan would have failed
      obtain ⟨key, hkey⟩ : ∃ key, g.files.fingerprint facts.file = .ok key := by
        cases hkey : g.files.fingerprint facts.file with
        | error e => simp [finding, hfound, keyed, hkey, Listing.refused] at hwhole
        | ok key => exact ⟨key, rfl⟩
      have hmem : (key, facts) ∈ (g.finding f).items := by
        simp [finding, hfound, keyed, hkey, Listing.single]
      have hprint : key = fingerprintOf (FileSystem.pathOf loc) :=
        h.eq_of_fingerprint hnames hplain ((mem_finding hnames hplain h).1 hmem).2
      exact ⟨facts, hprint ▸ hmem⟩

end Grounds
end ClassCensus
