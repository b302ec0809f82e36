import ClassCensus.Proofs.Sources
import ClassCensus.Proofs.Steps
import ClassCensus.Proofs.Upkeep

/-!
# ClassCensus.Proofs.Loaded

What a census in turn leaves behind in the catalog and in its records. A class is loaded when the
catalog confirms it, which comes before its file is known to be new and before its path has a
fingerprint. In an orderly file system whose paths have distinct fingerprints the classes that are
loaded are those loaded before, those that are registered, and those that were lost in between
because their path has no octets.

* `Grounds.lost` — the class that an operation has lost, told by how it ended.
* `Accounted` — the loaded classes are accounted for by the registry and a list of others. Every
  operation adds to that list what it has lost (`Balances`).
* `Unreflected` — what every step of a scan keeps: no reflection has been remembered since.
-/

namespace ClassCensus

/-! ## The files of a file system -/

namespace Tree

mutual

/-- The places of the files of a tree. -/
def fileList : Tree → List Location
  | .file _ => [[]]
  | .link _ => []
  | .dir entries => fileListIn entries

def fileListIn : List (Text × Tree) → List Location
  | [] => []
  | (name, t) :: rest => (fileList t).map (name :: ·) ++ fileListIn rest

end

theorem mem_fileListIn {entries : List (Text × Tree)} {e : Text × Tree} (he : e ∈ entries)
    {loc : Location} (h : loc ∈ e.2.fileList) : e.1 :: loc ∈ fileListIn entries := by
  induction entries with
  | nil => cases he
  | cons e' entries ih =>
    rw [fileListIn, List.mem_append]
    rcases List.mem_cons.1 he with rfl | he
    · exact .inl (List.mem_map.2 ⟨_, h, rfl⟩)
    · exact .inr (ih he)

theorem mem_fileList {t : Tree} {loc : Location} {content : List UInt8}
    (h : t.at? loc = some (.file content)) : loc ∈ t.fileList := by
  induction loc generalizing t with
  | nil =>
    cases h
    simp [fileList]
  | cons name loc ih =>
    cases t with
    | file content => simp [at?, child?] at h
    | link target => simp [at?, child?] at h
    | dir entries =>
      cases hget : Table.get? entries name with
      | none => simp [at?, child?, hget] at h
      | some below =>
        exact mem_fileListIn (Table.mem_of_get? hget) (ih (by simpa [at?, child?, hget] using h))

end Tree

namespace FileSystem

def filePaths (fs : FileSystem) : List Text := fs.tree.fileList.map pathOf

/-- The paths of files that have a fingerprint. -/
def printedPaths (fs : FileSystem) : List Text := fs.filePaths.filter fs.encodes

/-- No two paths of files have the same fingerprint. -/
def DistinctPrints (fs : FileSystem) : Prop :=
  ∀ p ∈ fs.printedPaths, ∀ q ∈ fs.printedPaths, fingerprintOf p = fingerprintOf q → p = q

instance (fs : FileSystem) : Decidable fs.DistinctPrints :=
  inferInstanceAs (Decidable (∀ p ∈ fs.printedPaths, ∀ q ∈ fs.printedPaths,
    fingerprintOf p = fingerprintOf q → p = q))

end FileSystem

/-! ## What a file declares and loads -/

/-- A header is read from the path of a file. -/
theorem Scanner.mem_filePaths {fs : FileSystem} (hfiles : fs.Orderly) {settings : ScannerSettings}
    {file path : Text} {header : Source.Header}
    (h : headerOf fs settings file = .ok (path, header)) : path ∈ fs.filePaths := by
  obtain ⟨hpath, hheader⟩ := headerOf_ok h
  have hopen : ∃ octets, fs.openFile path = .ok octets := by
    unfold readHeader readLines at hheader
    split_ifs at hheader
    cases hopen : fs.openFile path with
    | error e => simp [hopen] at hheader
    | ok octets => exact ⟨octets, rfl⟩
  obtain ⟨octets, hopen⟩ := hopen
  obtain ⟨loc, hloc, hat⟩ := FileSystem.exists_of_openFile hopen
  obtain ⟨there, rfl, -, hnames⟩ := hfiles.exists_place hpath
  have hplain := FileSystem.not_mem_pathOf fun name hname => (hnames name hname).2
  have hsame := FileSystem.canonical_of_locate hfiles.wellNamed hfiles.noBackslash hplain hloc
  rw [hfiles.canonical_canonical hpath] at hsame
  rw [Except.ok.inj hsame]
  exact List.mem_map_of_mem (Tree.mem_fileList hat)

namespace Grounds

variable {g : Grounds} {file : Text} {facts : ClassFacts}

/-- What is found in a file is found under its canonical path too. -/
theorem found_file (hfiles : g.files.Orderly) (h : g.found file = .ok (some facts)) :
    g.found facts.file = .ok (some facts) ∧ facts.file ∈ g.files.filePaths := by
  obtain ⟨⟨path, header, identity, hread, -, -⟩, hcanonical⟩ := found_some h
  have hpath : path = facts.file :=
    Except.ok.inj ((Scanner.headerOf_ok hread).1.symm.trans hcanonical)
  subst hpath
  refine ⟨?_, Scanner.mem_filePaths hfiles hread⟩
  rw [← h]
  exact found_congr ((hfiles.canonical_canonical hcanonical).trans hcanonical.symm)

theorem finding_of_found (hfiles : g.files.Orderly) (h : g.found file = .ok (some facts)) :
    g.finding file =
      if g.files.encodes facts.file then .single (fingerprintOf facts.file, facts)
      else .refused (.unencodable facts.file) := by
  have hfile := hfiles.canonical_canonical (found_some h).2
  simp only [finding, h, keyed, FileSystem.fingerprint, hfile]
  by_cases hoctets : g.files.encodes facts.file = true
  · simp only [hoctets, if_true]
  · simp only [hoctets, if_false, Bool.false_eq_true]

/-- A scan that fails does so before anything is kept. -/
theorem found_error (hfiles : g.files.Orderly) (hsep : g.settings.namespaceSeparator ≠ [])
    {e : Failure} (h : g.found file = .error e) : e.isOfKeeping = false := by
  have hrecord : e.isOfRecord = false :=
    (finding_fit hfiles hsep file).cut e (by simp [finding, h, keyed, Listing.refused])
  unfold found at h
  split at h
  · rename_i hread
    cases h
    exact Scanner.headerOf_error hread
  · split at h
    · cases h
    · simp only [Grounds.facts] at h
      split at h
      · split at h
        · cases h
          exact hrecord
        · cases h
      · cases h

/-- A file without a class to find brings nothing in, and does not fail on keeping it. -/
theorem finding_of_not_found (hfiles : g.files.Orderly)
    (hsep : g.settings.namespaceSeparator ≠ []) (h : ∀ facts, g.found file ≠ .ok (some facts)) :
    (g.finding file).items = [] ∧ ∀ e, (g.finding file).cut = some e → e.isOfKeeping = false := by
  unfold finding
  cases hfound : g.found file with
  | error e =>
    refine ⟨rfl, fun e' he' => ?_⟩
    cases he'
    exact found_error hfiles hsep hfound
  | ok found =>
    cases found with
    | none => exact ⟨rfl, by simp [keyed, Listing.empty]⟩
    | some facts => exact absurd hfound (h facts)

/-- A scan loads a class exactly if it finds one. -/
theorem loads_eq_some (hfiles : g.files.Orderly) (hsep : g.settings.namespaceSeparator ≠ [])
    {i : Text} :
    g.loads file = some i ↔ ∃ facts, g.found file = .ok (some facts) ∧ facts.className = i := by
  have hfit := (finding_fit hfiles hsep file).cut
  unfold finding at hfit
  unfold loads found at *
  cases hread : Scanner.headerOf g.files g.settings file with
  | error e => simp
  | ok read =>
    obtain ⟨path, header⟩ := read
    rw [hread] at hfit
    cases hname : header.basename with
    | none => simp [hname, confirmed?, identity?]
    | some name =>
      simp only [hname, Grounds.facts] at hfit
      simp only [hname, Grounds.facts, confirmed?, identity?, Option.map_some, Option.filter_some]
      set identity := Identity.join g.settings.namespaceSeparator
        (Scanner.spaceOf g.settings.namespaceSeparator header) name
      cases hhas : Table.has g.types identity with
      | false => simp
      | true =>
        -- the parts of what is confirmed fit together
        cases hcheck : ClassFacts.check identity name
            (Scanner.spaceOf g.settings.namespaceSeparator header)
            g.settings.namespaceSeparator with
        | error m =>
          have hfails := hfit (.misuse m) (by simp [hhas, hcheck, keyed, Listing.refused])
          rw [ClassFacts.isOfRecord_of_check hcheck] at hfails
          cases hfails
        | ok _ => simp

end Grounds

/-! ## Accounting for what is loaded -/

/-- The class that was loaded and then not registered when an operation ends like this: the one of
the file that the failure names, if that has no octets. -/
def Grounds.lost (g : Grounds) : Except Failure Unit → List Text
  | .error (.unencodable path) =>
    match g.found path with
    | .ok (some facts) => if g.files.encodes facts.file then [] else [facts.className]
    | _ => []
  | _ => []

theorem Grounds.lost_ok (g : Grounds) : g.lost (.ok ()) = [] := rfl

theorem Grounds.lost_error {g : Grounds} {e : Failure} (he : e.isOfKeeping = false) :
    g.lost (.error e) = [] := by
  cases e with
  | unencodable path => cases he
  | _ => rfl

/-- Nothing is lost where every path of a file has octets. -/
theorem Grounds.lost_eq_nil {g : Grounds} (hfiles : g.files.Orderly)
    (h : ∀ path ∈ g.files.filePaths, g.files.encodes path = true) (r : Except Failure Unit) :
    g.lost r = [] := by
  unfold lost
  split
  · split
    · rename_i facts hfound
      rw [if_pos (h _ (found_file hfiles hfound).2)]
    · rfl
  · rfl

def Registry.classNames (r : Registry) : List Text := r.map fun e => e.2.facts.className

theorem Roll.mem_classNames_enter {r : Roll} {x : Finding} {i : Text}
    (h : ∀ record, (x.1, record) ∈ r.registry → record.facts = x.2) :
    i ∈ (r.enter x).registry.classNames ↔ i ∈ r.registry.classNames ∨ i = x.2.className := by
  unfold enter
  split
  · rename_i hhas
    obtain ⟨⟨k, record⟩, hmem, rfl⟩ := List.mem_map.1 (Table.has_iff.1 hhas)
    have hclass : x.2.className ∈ r.registry.classNames :=
      List.mem_map.2 ⟨(x.1, record), hmem, by rw [h record hmem]⟩
    constructor
    · exact .inl
    · rintro (hi | rfl)
      · exact hi
      · exact hclass
  · simp [Registry.classNames]

namespace Census

theorem parseInTurn_one_catalog (c : Census MemoryCatalog) (file : Text) :
    (c.parseInTurn [file]).2.world.catalog = c.world.catalog.loadFor (c.grounds.loads file) := by
  obtain ⟨w, hask, -, -, hcatalog⟩ := ask_scan c file
  rw [parseInTurn_one, hask]
  cases c.grounds.found file with
  | error e => exact hcatalog
  | ok found => exact (enroll_catalog { c with world := w } found).trans hcatalog

/-- Every record is what its own file declares, under that file's fingerprint, and besides the
classes of the records only those of `others` are loaded. -/
structure Accounted (g : Grounds) (others : List Text) (c : Census MemoryCatalog) : Prop where
  grounds : c.grounds = g
  entries : ∀ k record, (k, record) ∈ c.finder.registry →
    g.found record.facts.file = .ok (some record.facts) ∧
      g.files.encodes record.facts.file = true ∧ k = fingerprintOf record.facts.file
  loaded : ∀ i, i ∈ c.world.catalog.loaded ↔ i ∈ others ∨ i ∈ c.finder.registry.classNames

/-- Whatever was accounted for before an operation, what is loaded afterwards is accounted for by
adding what its end has lost. -/
def Balances (g : Grounds) (c : Census MemoryCatalog)
    (r : Except Failure Unit × Census MemoryCatalog) : Prop :=
  ∀ others, Accounted g others c → Accounted g (others ++ g.lost r.1) r.2

section

variable {g : Grounds} {others : List Text} {c d : Census MemoryCatalog}

/-- A change that leaves the registry alone and loads classes adds them to the others. -/
theorem Accounted.load (h : Accounted g others c) (loaded : List Text) (hgrounds : d.grounds = g)
    (hregistry : d.finder.registry = c.finder.registry)
    (hloaded : ∀ i, i ∈ d.world.catalog.loaded ↔ i ∈ c.world.catalog.loaded ∨ i ∈ loaded) :
    Accounted g (others ++ loaded) d where
  grounds := hgrounds
  entries := by
    rw [hregistry]
    exact h.entries
  loaded i := by
    rw [hloaded, h.loaded, hregistry, List.mem_append]
    exact or_right_comm

theorem Accounted.of_same (h : Accounted g others c) (hgrounds : d.grounds = c.grounds)
    (hregistry : d.finder.registry = c.finder.registry)
    (hcatalog : d.world.catalog = c.world.catalog) : Accounted g others d := by
  have hsame := h.load [] (hgrounds.trans h.grounds) hregistry (by simp [hcatalog])
  rw [List.append_nil] at hsame
  exact hsame

/-- What is registered under the fingerprint of a file is what the file declares. -/
theorem Accounted.facts_eq (hfiles : g.files.Orderly) (hprints : g.files.DistinctPrints)
    (h : Accounted g others c) {file : Text} {facts : ClassFacts}
    (hfound : g.found file = .ok (some facts)) (hoctets : g.files.encodes facts.file = true)
    {record : Record} (hmem : (fingerprintOf facts.file, record) ∈ c.finder.registry) :
    record.facts = facts := by
  obtain ⟨hrecord, hoctets', hkey⟩ := h.entries _ record hmem
  obtain ⟨hself, hpath⟩ := Grounds.found_file hfiles hfound
  have hpath' := (Grounds.found_file hfiles hrecord).2
  have hfile : facts.file = record.facts.file :=
    hprints _ (List.mem_filter.2 ⟨hpath, hoctets⟩) _ (List.mem_filter.2 ⟨hpath', hoctets'⟩) hkey
  rw [← hfile, hself] at hrecord
  exact (Option.some.inj (Except.ok.inj hrecord)).symm

/-- A file whose class is loaded and entered. The class is new, or it is the one of the record that
stands there already. -/
theorem Accounted.enter (hfiles : g.files.Orderly) (hprints : g.files.DistinctPrints)
    (h : Accounted g others c) {file : Text} {facts : ClassFacts}
    (hfound : g.found file = .ok (some facts)) (hoctets : g.files.encodes facts.file = true)
    (hgrounds : d.grounds = g)
    (hregistry : d.finder.registry = (c.roll.enter (fingerprintOf facts.file, facts)).registry)
    (hloaded : ∀ i, i ∈ d.world.catalog.loaded ↔
      i ∈ c.world.catalog.loaded ∨ i ∈ [facts.className]) : Accounted g others d where
  grounds := hgrounds
  entries k record hmem := by
    rw [hregistry, ← Roll.enterAll_nil (Roll.enter _ _), ← Roll.enterAll_cons] at hmem
    rcases Roll.mem_enterAll hmem with hmem | hmem
    · exact h.entries k record hmem
    · obtain ⟨rfl, rfl⟩ := Prod.mk.inj (List.mem_singleton.1 hmem)
      exact ⟨(Grounds.found_file hfiles hfound).1, hoctets, rfl⟩
  loaded i := by
    have henter := Roll.mem_classNames_enter (r := c.roll)
      (x := (fingerprintOf facts.file, facts)) (i := i) fun record hmem =>
        h.facts_eq hfiles hprints hfound hoctets hmem
    rw [hloaded, h.loaded, hregistry, henter, List.mem_singleton, or_assoc]
    rfl

namespace Balances

variable {r : Except Failure Unit × Census MemoryCatalog} {e : Failure}

theorem refl (g : Grounds) (c : Census MemoryCatalog) : Balances g c (.ok (), c) := by
  intro others h
  rw [Grounds.lost_ok, List.append_nil]
  exact h

theorem failed (g : Grounds) (c : Census MemoryCatalog) (he : e.isOfKeeping = false) :
    Balances g c (.error e, c) := by
  intro others h
  rw [Grounds.lost_error he, List.append_nil]
  exact h

/-- One operation after another that went well. -/
theorem andThen (h : Balances g c (.ok (), d)) (k : Balances g d r) : Balances g c r := by
  intro others hc
  have hd := h others hc
  rw [Grounds.lost_ok, List.append_nil] at hd
  exact k others hd

theorem of_same (h : Balances g d r) (hgrounds : d.grounds = c.grounds)
    (hregistry : d.finder.registry = c.finder.registry)
    (hcatalog : d.world.catalog = c.world.catalog) : Balances g c r :=
  fun others hc => h others (hc.of_same hgrounds hregistry hcatalog)

end Balances

/-! ### Files -/

variable (hfiles : g.files.Orderly) (hsep : g.settings.namespaceSeparator ≠ [])
  (hprints : g.files.DistinctPrints)

include hfiles hsep hprints

/-- The class of a file is loaded first. Then it is entered, or it is lost. -/
theorem parseInTurn_one_balances (c : Census MemoryCatalog) (file : Text) :
    Balances g c (c.parseInTurn [file]) := by
  intro others h
  have hreaps := parseInTurn_reaps [file] c
  rw [h.grounds, Grounds.harvest_cons, Grounds.harvest_nil, Listing.append_empty] at hreaps
  have hgrounds := hreaps.grounds.trans h.grounds
  have hregistry := congrArg Roll.registry hreaps.roll
  have hloads : ∀ i, i ∈ (c.parseInTurn [file]).2.world.catalog.loaded ↔
      i ∈ c.world.catalog.loaded ∨
        ∃ facts, g.found file = .ok (some facts) ∧ facts.className = i := by
    intro i
    rw [parseInTurn_one_catalog, MemoryCatalog.mem_loadFor, h.grounds,
      Grounds.loads_eq_some hfiles hsep]
  rw [hreaps.answer]
  by_cases hfound : ∃ facts, g.found file = .ok (some facts)
  · obtain ⟨facts, hfound⟩ := hfound
    have hloaded : ∀ i, i ∈ (c.parseInTurn [file]).2.world.catalog.loaded ↔
        i ∈ c.world.catalog.loaded ∨ i ∈ [facts.className] := by
      simp [hloads, hfound, eq_comm]
    rw [Grounds.finding_of_found hfiles hfound] at hregistry ⊢
    by_cases hoctets : g.files.encodes facts.file = true
    · rw [if_pos hoctets] at hregistry ⊢
      rw [show (Listing.single (fingerprintOf facts.file, facts)).answer = .ok () from rfl,
        Grounds.lost_ok, List.append_nil]
      exact h.enter hfiles hprints hfound hoctets hgrounds hregistry hloaded
    · rw [if_neg hoctets] at hregistry ⊢
      have hlost : g.lost (.error (.unencodable facts.file)) = [facts.className] := by
        simp only [Grounds.lost, (Grounds.found_file hfiles hfound).1, if_neg hoctets]
      rw [← hlost] at hloaded
      exact h.load _ hgrounds hregistry hloaded
  · simp only [not_exists] at hfound
    obtain ⟨hnone, hcut⟩ := Grounds.finding_of_not_found hfiles hsep hfound
    have hlost : g.lost (g.finding file).answer = [] := by
      cases hends : (g.finding file).cut with
      | none => rw [Listing.answer_eq_ok.2 hends, Grounds.lost_ok]
      | some e => rw [Listing.answer_eq_error.2 hends, Grounds.lost_error (hcut e hends)]
    rw [hnone] at hregistry
    rw [hlost]
    exact h.load [] hgrounds hregistry (by simp [hloads, hfound])

theorem parseInTurn_balances (files : List Text) (c : Census MemoryCatalog) :
    Balances g c (c.parseInTurn files) := by
  induction files generalizing c with
  | nil => exact .refl g c
  | cons file files ih =>
    have hfirst := parseInTurn_one_balances hfiles hsep hprints c file
    rw [parseInTurn_cons]
    rcases hres : c.parseInTurn [file] with ⟨e | _, d⟩
    · rw [hres] at hfirst
      exact hfirst
    · rw [hres] at hfirst
      exact hfirst.andThen (ih d)

variable (hturn : g.settings.isParallel = false)

include hturn

theorem parse_balances (c : Census MemoryCatalog) (files : Listing Text)
    (hcut : ∀ e, files.cut = some e → e.isOfKeeping = false) : Balances g c (c.parse files) := by
  intro others h
  have hworkers : c.finder.settings.isParallel = false := by
    rw [← hturn, ← h.grounds]
    rfl
  have hparse := parseInTurn_balances hfiles hsep hprints files.items c
  simp only [parse, hworkers, Bool.false_eq_true, if_false]
  rcases hres : c.parseInTurn files.items with ⟨e | _, d⟩
  · rw [hres] at hparse
    exact hparse others h
  · rw [hres] at hparse
    cases hends : files.cut with
    | none => exact hparse others h
    | some e => exact hparse.andThen (.failed g d (hcut e hends)) others h

/-! ### Roots -/

theorem scanRoot_balances (c : Census MemoryCatalog) (root : Root) :
    Balances g c (c.scanRoot root) := by
  simp only [scanRoot]
  cases henum : Walk.enumerate (c.tell [.scanStarted root.path root.recursive]).world.files
      (c.tell [.scanStarted root.path root.recursive]).finder.settings root.recursive root.path with
  | error e =>
    have he : e.isOfKeeping = false :=
      Walk.isOfKeeping_of_failure? (by rw [Walk.failure?, henum])
    exact (Balances.failed g _ he).of_same rfl rfl rfl
  | ok listed =>
    obtain ⟨notice, files⟩ := listed
    have hcut : ∀ e, files.cut = some e → e.isOfKeeping = false := fun e he =>
      Walk.isOfKeeping_of_failure? (by rw [Walk.failure?, henum]; exact he)
    let told := (c.tell [.scanStarted root.path root.recursive]).tell [notice]
    have hparse : Balances g c (told.parse files) :=
      (parse_balances hfiles hsep hprints hturn told files hcut).of_same rfl rfl rfl
    simp only
    rcases hres : told.parse files with ⟨e | _, d⟩
    · rw [hres] at hparse
      exact hparse
    · rw [hres] at hparse
      exact hparse.andThen ((Balances.refl g _).of_same rfl rfl rfl)

theorem scanRoots_balances (roots : List Root) (c : Census MemoryCatalog) :
    Balances g c (c.scanRoots roots) := by
  induction roots generalizing c with
  | nil => exact .refl g c
  | cons root roots ih =>
    have hroot := scanRoot_balances hfiles hsep hprints hturn c root
    simp only [scanRoots]
    rcases hres : c.scanRoot root with ⟨e | _, d⟩
    · rw [hres] at hroot
      exact hroot
    · rw [hres] at hroot
      exact hroot.andThen (ih d)

theorem scanFiles_balances (c : Census MemoryCatalog) : Balances g c c.scanFiles := by
  unfold scanFiles
  cases c.pending with
  | nil => exact .refl g c
  | cons root roots =>
    cases c.world.scanId with
    | some id => exact scanRoots_balances hfiles hsep hprints hturn (root :: roots) c
    | none =>
      have hscan := scanRoots_balances hfiles hsep hprints hturn (root :: roots)
        { c with world := c.world.setScanId none }
      exact fun others h => (hscan others (h.of_same rfl rfl rfl)).of_same rfl rfl rfl

end

end Census

/-! ## Remembered reflections -/

/-- A ledger remembers reflections only of records it has given out. -/
def Ledger.Sound (l : Ledger) : Prop := ∀ serial ∈ Table.keys l.reflections, serial < l.next

/-- A filter that requires nothing passes everything and asks for nothing. -/
theorem Filter.select_of_required_nil {κ : Type} [TypeCatalog κ] {f : Filter}
    (h : f.required = []) (w : World κ) (records : List (Text × Record)) :
    f.select w records = (⟨records, none⟩, w) := by
  induction records with
  | nil => rfl
  | cons entry records ih =>
    obtain ⟨key, record⟩ := entry
    simp only [select, passes, h, List.isEmpty_nil, if_true, ih]
    rfl

namespace Census

section

variable {κ : Type} {l : Ledger} {c d : Census κ}

/-- No reflection was remembered since the ledger was `l`, and all records are of a later time. -/
structure Unreflected (l : Ledger) (c : Census κ) : Prop where
  reflections : c.world.ledger.reflections = l.reflections
  next : l.next ≤ c.world.ledger.next
  serials : ∀ k record, (k, record) ∈ c.finder.registry → l.next ≤ record.serial

namespace Unreflected

theorem enroll (h : Unreflected l c) (found : Option ClassFacts) :
    Unreflected l (c.enroll found).2 := by
  cases found with
  | none => exact h
  | some facts =>
    simp only [Census.enroll, Registry.enroll]
    cases c.world.files.fingerprint facts.file with
    | error e => exact h
    | ok key =>
      cases hhas : Table.has c.finder.registry key with
      | true =>
        simp only [hhas, if_true]
        exact ⟨h.reflections, h.next, h.serials⟩
      | false =>
        simp only [hhas, Bool.false_eq_true, if_false]
        refine ⟨h.reflections, Nat.le_succ_of_le h.next, fun k record hmem => ?_⟩
        simp only [Registry.insert, hhas, Bool.false_eq_true, if_false, List.mem_append,
          List.mem_singleton, Prod.mk.injEq] at hmem
        rcases hmem with hmem | ⟨-, rfl⟩
        · exact h.serials k record hmem
        · exact h.next

variable [TypeCatalog κ]

theorem file (h : Unreflected l c) (file : Text) : Unreflected l (c.parseInTurn [file]).2 := by
  rw [parseInTurn_one]
  set asked := c.world.ask (Scanner.scan c.world.files c.finder.settings · file) with hasked
  have hworld : Unreflected l { c with world := asked.2 } := ⟨h.reflections, h.next, h.serials⟩
  rcases asked with ⟨e | found, w⟩
  · exact hworld
  · exact hworld.enroll found

theorem step (hstep : Step c d) (h : Unreflected l c) : Unreflected l d := by
  cases hstep with
  | tell notices => exact ⟨h.reflections, h.next, h.serials⟩
  | file path _ => exact h.file path
  | aside path _ => exact ⟨h.reflections, h.next, h.serials⟩
  | enroll found _ => exact h.enroll found
  | mark root => exact ⟨h.reflections, h.next, h.serials⟩
  | setScanId => exact ⟨h.reflections, h.next, h.serials⟩
  | clearScanId => exact ⟨h.reflections, h.next, h.serials⟩

omit [TypeCatalog κ] in
theorem remembered?_eq_none (h : Unreflected l c) (hl : l.Sound) {k : Text} {record : Record}
    (hmem : (k, record) ∈ c.finder.registry) : c.world.ledger.remembered? record = none := by
  rw [Ledger.remembered?, h.reflections, Table.get?_eq_none_iff]
  intro hkey
  have hold := hl _ hkey
  have hnew := h.serials k record hmem
  omega

end Unreflected

variable [TypeCatalog κ]

theorem matching_steps (h : c.finder.filter.required = []) : Steps c c.matching.2 := by
  have hscan := scanFiles_steps c
  simp only [matching, all]
  rcases hres : c.scanFiles with ⟨e | _, d⟩
  · rw [hres] at hscan
    exact hscan
  · rw [hres] at hscan
    have hfilter : d.finder.filter.required = [] := by rw [hscan.filter, h]
    simp only [Filter.select_of_required_nil hfilter]
    exact hscan

theorem matching_reflections (h : c.finder.filter.required = []) :
    c.matching.2.world.ledger.reflections = c.world.ledger.reflections := by
  have hstart : Unreflected ⟨0, c.world.ledger.reflections⟩ c :=
    ⟨rfl, Nat.zero_le _, fun _ _ _ => Nat.zero_le _⟩
  exact ((matching_steps h).keeps .step hstart).reflections

end

end Census

/-! ## Runs -/

/-- A request that neither defines a type nor requires attributes. -/
def Request.isPlain : Request → Bool
  | .define _ _ => false
  | .requireAttributes _ _ => false
  | _ => true

namespace Census

variable {c : Census MemoryCatalog}

theorem perform_plain (c : Census MemoryCatalog) (call : RootCall) :
    Steps c (c.perform call).2 ∨ ∃ root, (c.perform call).2 = c.withRoot root := by
  by_cases hroot : call.root? = none
  · rw [perform_of_root?_eq_none hroot]
    exact .inl (scanFiles_steps c)
  · cases call with
    | add path recursive =>
      rw [perform_add c (path, recursive)]
      cases Roots.rootOf c.world.files c.finder.settings.nonRecursiveMarker (path, recursive) with
      | error e => exact .inl .refl
      | ok root => exact .inr ⟨root, rfl⟩
    | scanFiles => exact absurd rfl hroot
    | count => exact absurd rfl hroot
    | all => exact absurd rfl hroot

theorem serve_matching (c : Census MemoryCatalog) : (c.serve .matching).2 = c.matching.2 := by
  simp only [serve]
  rcases c.matching with ⟨e | found, d⟩ <;> rfl

/-- What a plain request can do. -/
theorem serve_plain {request : Request} (hplain : request.isPlain = true)
    (hnone : c.finder.filter.required = []) :
    Steps c (c.serve request).2 ∨ ∃ root, (c.serve request).2 = c.withRoot root := by
  cases request with
  | define type loaded => cases hplain
  | requireAttributes types requireAll => cases hplain
  | parseFiles files => exact .inl (parse_steps c ⟨files, none⟩)
  | matching =>
    rw [serve_matching]
    exact .inl (matching_steps hnone)
  | roots call => exact perform_plain c call

theorem serve_filter {request : Request} (hplain : request.isPlain = true)
    (hnone : c.finder.filter.required = []) :
    (c.serve request).2.finder.filter.required = [] := by
  rcases serve_plain hplain hnone with hsteps | ⟨root, hadd⟩
  · rw [hsteps.filter, hnone]
  · rw [hadd]
    exact hnone

theorem serveAll_keeps {P : Census MemoryCatalog → Prop}
    (hstep : ∀ {c d}, Step c d → P c → P d) (hroot : ∀ {c} root, P c → P (c.withRoot root))
    {requests : List Request} (hplain : ∀ request ∈ requests, request.isPlain = true)
    (hnone : c.finder.filter.required = []) (hc : P c) : P (c.serveAll requests) := by
  induction requests generalizing c with
  | nil => exact hc
  | cons request requests ih =>
    have hfirst := hplain request (by simp)
    have hserved : P (c.serve request).2 := by
      rcases serve_plain hfirst hnone with hsteps | ⟨root, hadd⟩
      · exact hsteps.keeps hstep hc
      · rw [hadd]
        exact hroot root hc
    exact ih (fun r hr => hplain r (by simp [hr])) (serve_filter hfirst hnone) hserved

/-- How each of several requests ends. -/
def answers (c : Census MemoryCatalog) : List Request → List (Except Failure Unit)
  | [] => []
  | request :: rest => (c.serve request).1 :: (c.serve request).2.answers rest

section

variable {g : Grounds} (hfiles : g.files.Orderly) (hsep : g.settings.namespaceSeparator ≠ [])
  (hprints : g.files.DistinctPrints) (hturn : g.settings.isParallel = false)

include hfiles hsep hprints hturn

theorem perform_balances (c : Census MemoryCatalog) (call : RootCall) :
    Balances g c (c.perform call) := by
  by_cases hroot : call.root? = none
  · rw [perform_of_root?_eq_none hroot]
    exact scanFiles_balances hfiles hsep hprints hturn c
  · cases call with
    | add path recursive =>
      rw [perform_add c (path, recursive)]
      cases hadd : Roots.rootOf c.world.files c.finder.settings.nonRecursiveMarker
          (path, recursive) with
      | error e => exact .failed g c (Roots.rootOf_error hadd)
      | ok root => exact fun others h => (Balances.refl g c others h).of_same rfl rfl rfl
    | scanFiles => exact absurd rfl hroot
    | count => exact absurd rfl hroot
    | all => exact absurd rfl hroot

theorem serve_balances {request : Request} (hplain : request.isPlain = true)
    (hnone : c.finder.filter.required = []) : Balances g c (c.serve request) := by
  cases request with
  | define type loaded => cases hplain
  | requireAttributes types requireAll => cases hplain
  | parseFiles files =>
    exact parse_balances hfiles hsep hprints hturn c ⟨files, none⟩ (by simp)
  | matching =>
    have hscan := scanFiles_balances hfiles hsep hprints hturn c
    have hfilter := (scanFiles_steps c).filter
    simp only [serve, matching, all]
    rcases hres : c.scanFiles with ⟨e | _, d⟩
    · rw [hres] at hscan
      exact hscan
    · rw [hres] at hscan hfilter
      have hd : d.finder.filter.required = [] := by rw [hfilter, hnone]
      simp only [Filter.select_of_required_nil hd]
      exact hscan
  | roots call => exact perform_balances hfiles hsep hprints hturn c call

theorem Accounted.serveAll {others : List Text} (h : Accounted g others c)
    {requests : List Request} (hplain : ∀ request ∈ requests, request.isPlain = true)
    (hnone : c.finder.filter.required = []) :
    Accounted g (others ++ (c.answers requests).flatMap g.lost) (c.serveAll requests) := by
  induction requests generalizing c others with
  | nil =>
    rw [answers, List.flatMap_nil, List.append_nil]
    exact h
  | cons request requests ih =>
    have hfirst := hplain request (by simp)
    have hserved := serve_balances hfiles hsep hprints hturn hfirst hnone others h
    rw [answers, List.flatMap_cons, ← List.append_assoc]
    exact ih hserved (fun r hr => hplain r (by simp [hr])) (serve_filter hfirst hnone)

end

/-- A new census in turn, on orderly files whose paths have distinct fingerprints, with a catalog
whose definitions stay. After any requests that require no attributes, failing ones included, the
classes loaded are those loaded at the start, those registered, and those lost by a request that
ended on a path without octets; where every path of a file has octets they are the first two. No
registered record has a reflection that is remembered. Nor is one remembered by matching in any
census without required attributes. -/
theorem loaded_as_registered_or_lost {settings : ScannerSettings} {w : World MemoryCatalog}
    (hfiles : w.files.Orderly) (hsep : settings.namespaceSeparator ≠ [])
    (hturn : settings.isParallel = false)
    (hprints : w.files.DistinctPrints) (hledger : w.ledger.Sound)
    {requests : List Request} (hplain : ∀ request ∈ requests, request.isPlain = true) :
    (∀ i, i ∈ (serveAll ⟨Finder.new settings, w⟩ requests).world.catalog.loaded ↔
      i ∈ w.catalog.loaded ∨
        i ∈ (serveAll ⟨Finder.new settings, w⟩ requests).finder.registry.classNames ∨
        i ∈ (answers ⟨Finder.new settings, w⟩ requests).flatMap
          (Grounds.lost ⟨w.files, settings, w.catalog.types⟩)) ∧
    ((∀ path ∈ w.files.filePaths, w.files.encodes path = true) →
      ∀ i, i ∈ (serveAll ⟨Finder.new settings, w⟩ requests).world.catalog.loaded ↔
        i ∈ w.catalog.loaded ∨
          i ∈ (serveAll ⟨Finder.new settings, w⟩ requests).finder.registry.classNames) ∧
    (∀ k record, (k, record) ∈ (serveAll ⟨Finder.new settings, w⟩ requests).finder.registry →
      (serveAll ⟨Finder.new settings, w⟩ requests).world.ledger.remembered? record = none) ∧
    ∀ (κ : Type) [TypeCatalog κ] (c : Census κ), c.finder.filter.required = [] →
      c.matching.2.world.ledger.reflections = c.world.ledger.reflections := by
  let g : Grounds := ⟨w.files, settings, w.catalog.types⟩
  have hnew : Accounted g w.catalog.loaded ⟨Finder.new settings, w⟩ :=
    ⟨rfl, by simp [Finder.new], by simp [Finder.new, Registry.classNames]⟩
  have haccounted := hnew.serveAll hfiles hsep hprints hturn hplain rfl
  have hfresh : Unreflected w.ledger ⟨Finder.new settings, w⟩ :=
    ⟨rfl, Nat.le_refl _, by simp [Finder.new]⟩
  have hunreflected := serveAll_keeps (Unreflected.step (l := w.ledger))
    (fun _ h => ⟨h.reflections, h.next, h.serials⟩) hplain rfl hfresh
  refine ⟨fun i => ?_, fun hoctets i => ?_,
    fun k record hmem => hunreflected.remembered?_eq_none hledger hmem,
    fun κ _ c hnone => matching_reflections hnone⟩
  · rw [haccounted.loaded, List.mem_append, or_assoc]
    exact or_congr_right or_comm
  · have hlost : g.lost = fun _ => [] := funext (Grounds.lost_eq_nil (g := g) hfiles hoctets)
    rw [haccounted.loaded, hlost]
    simp

/-- Three types are defined, of which the one that no file declares is loaded. -/
def sharedWorld : World MemoryCatalog :=
  let w := World.fresh sharedFiles ["App\\A".toList, "B".toList, "C".toList]
  { w with catalog := w.catalog.load "C".toList }

/-- A file that is not there, the same class by two paths, and at the end a root that is no
directory. -/
def plainRequests : List Request :=
  [.parseFiles ["src/no.php".toList], .parseFiles ["lib/b.php".toList],
    .roots (.add "src".toList none), .roots (.add "src/a.php".toList none), .matching]

def plainlyServed : Census MemoryCatalog := serveAll ⟨Finder.new {}, sharedWorld⟩ plainRequests

theorem duplicates_and_failures_loaded :
    plainlyServed.finder.registry.classNames = ["B".toList, "App\\A".toList] ∧
      ∀ i, i ∈ plainlyServed.world.catalog.loaded ↔
        i ∈ sharedWorld.catalog.loaded ∨ i ∈ plainlyServed.finder.registry.classNames := by
  refine ⟨by decide +kernel, ?_⟩
  have hsep : ({} : ScannerSettings).namespaceSeparator ≠ [] := by decide
  have hprints : sharedFiles.DistinctPrints := by decide +kernel
  have hledger : Ledger.empty.Sound := by simp [Ledger.Sound, Ledger.empty, Table.keys]
  have hplain : ∀ request ∈ plainRequests, request.isPlain = true := by
    simp [plainRequests, Request.isPlain]
  have hoctets : ∀ path ∈ sharedWorld.files.filePaths, sharedWorld.files.encodes path = true := by
    decide +kernel
  have hloaded := @loaded_as_registered_or_lost {} sharedWorld sharedFiles_orderly hsep rfl hprints
    hledger plainRequests hplain
  unfold plainlyServed
  exact hloaded.2.1 hoctets

/-- One source, whose name holds an octet that belongs to no character. -/
def strayFiles : FileSystem :=
  ⟨.dir [("w".toList, .dir [("src".toList, .dir
    [("\uE0FF.php".toList, .file (Text.utf8 "class A".toList))])])], [], ["w".toList], ['\uE0FF']⟩

def strayServed : Census MemoryCatalog :=
  serveAll ⟨Finder.new {}, .fresh strayFiles ["A".toList]⟩
    [.roots (.add "src".toList none), .roots .scanFiles]

/-- The class was loaded before its path turned out to have no fingerprint, and it stays loaded. -/
theorem unregistered_class_stays_loaded :
    strayFiles.Orderly ∧ strayFiles.DistinctPrints ∧
      (World.fresh strayFiles ["A".toList]).catalog.loaded = [] ∧
      strayServed.finder.registry.classNames = [] ∧
      strayServed.world.catalog.loaded = ["A".toList] := by
  have hlinks : strayFiles.tree.linkList = [] := by decide +kernel
  have hnone : ∀ loc target, strayFiles.tree.linkAt? loc ≠ some target := by
    intro loc target hlink
    have hmem := Tree.mem_linkList (Tree.linkAt?_eq_some.1 hlink)
    rw [hlinks] at hmem
    cases hmem
  have horderly : strayFiles.Orderly :=
    ⟨by decide +kernel, by decide +kernel, fun loc target hlink => absurd hlink (hnone loc target),
      fun loc target hlink => absurd hlink (hnone loc target), _, rfl⟩
  exact ⟨horderly, by decide +kernel, rfl, by decide +kernel, by decide +kernel⟩

end Census
end ClassCensus
