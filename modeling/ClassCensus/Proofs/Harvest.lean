import ClassCensus.Catalog.Memory
import ClassCensus.Census
import ClassCensus.Proofs.Listing
import ClassCensus.Proofs.Roll
import Mathlib.Data.List.TakeWhile

/-!
# ClassCensus.Proofs.Harvest

What a census with a catalog in memory brings in, as a function of what it rests on: the file
system, the settings and the defined types. Which types are loaded, what the registry holds and
what the log says have no part in it.

* `Grounds.finding`, `Grounds.harvest`, `Grounds.yield`, `Grounds.rootYield` — the findings of a
  file, of several files, of a walk and of a root, each listed up to the first failure.
* `Reaps c l r` — the operation that led from `c` to `r` ended as the listing `l` does, and entered
  its items in the registry.

`parse_reaps`, `scanRoot_reaps` and `scanRoots_reaps` say that of each operation; no proof about
scanning opens an operation again.
-/

namespace ClassCensus

/-- What the outcome of a scan rests on. -/
structure Grounds where
  files : FileSystem
  settings : ScannerSettings
  types : Table Text Reflection

namespace Grounds

/-- The identity that a file with this header declares. -/
def identity? (g : Grounds) (header : Source.Header) : Option Text :=
  let sep := g.settings.namespaceSeparator
  header.basename.map (Identity.join sep (Scanner.spaceOf sep header))

/-- The identity a file declares, if it is a defined one. -/
def confirmed? (g : Grounds) (header : Source.Header) : Option Text :=
  (g.identity? header).filter (Table.has g.types)

/-- The facts of the class that the file at a canonical path declares. -/
def facts (g : Grounds) (path name : Text) (header : Source.Header) :
    Except Failure (Option ClassFacts) :=
  let sep := g.settings.namespaceSeparator
  let space := Scanner.spaceOf sep header
  let identity := Identity.join sep space name
  if Table.has g.types identity then
    match ClassFacts.check identity name space sep with
    | .error m => .error (.misuse m)
    | .ok () => .ok (some ⟨identity, name, space, path, sep, true⟩)
  else .ok none

def found (g : Grounds) (file : Text) : Except Failure (Option ClassFacts) :=
  match Scanner.headerOf g.files g.settings file with
  | .error e => .error e
  | .ok (path, header) =>
    match header.basename with
    | none => .ok none
    | some name => g.facts path name header

/-- The identity that the scan of a file loads. -/
def loads (g : Grounds) (file : Text) : Option Text :=
  match Scanner.headerOf g.files g.settings file with
  | .error _ => none
  | .ok (_, header) => g.confirmed? header

/-- The facts with the fingerprint they are registered under. -/
def keyed (g : Grounds) : Except Failure (Option ClassFacts) → Listing Finding
  | .error e => .refused e
  | .ok none => .empty
  | .ok (some facts) =>
    match g.files.fingerprint facts.file with
    | .error e => .refused e
    | .ok key => .single (key, facts)

def finding (g : Grounds) (file : Text) : Listing Finding := g.keyed (g.found file)

/-- The findings of files scanned one after the other. -/
def harvest (g : Grounds) (files : List Text) : Listing Finding :=
  Listing.concat (files.map g.finding)

/-- The findings of a walk. Side by side, a walk that is cut short has none. -/
def yield (g : Grounds) (files : Listing Text) : Listing Finding :=
  if g.settings.isParallel then
    match files.cut with
    | some e => .refused e
    | none => g.harvest files.items
  else (g.harvest files.items).append ⟨[], files.cut⟩

def rootYield (g : Grounds) (root : Root) : Listing Finding :=
  match Walk.enumerate g.files g.settings root.recursive root.path with
  | .error e => .refused e
  | .ok (_, files) => g.yield files

def rootsYield (g : Grounds) (roots : List Root) : Listing Finding :=
  Listing.concat (roots.map g.rootYield)

/-- The roots that are scanned to their end before the first one that fails. -/
def completed (g : Grounds) (roots : List Root) : List Root :=
  roots.takeWhile fun root => (g.rootYield root).cut.isNone

@[simp] theorem harvest_nil (g : Grounds) : g.harvest [] = .empty := rfl

@[simp] theorem harvest_cons (g : Grounds) (file : Text) (files : List Text) :
    g.harvest (file :: files) = (g.finding file).append (g.harvest files) := rfl

theorem harvest_append (g : Grounds) (as bs : List Text) :
    g.harvest (as ++ bs) = (g.harvest as).append (g.harvest bs) := by
  simp [harvest, Listing.concat_append]

theorem harvest_stop {g : Grounds} {taken : List Text} {file : Text} {e : Failure}
    (rest : List Text) (hcut : (g.harvest taken).cut = none)
    (he : (g.finding file).cut = some e) :
    g.harvest (taken ++ file :: rest) =
      ⟨(g.harvest taken).items ++ (g.finding file).items, some e⟩ := by
  rw [harvest_append, harvest_cons, Listing.append_of_cut he, Listing.append_of_whole hcut, he]

@[simp] theorem rootsYield_nil (g : Grounds) : g.rootsYield [] = .empty := rfl

@[simp] theorem rootsYield_cons (g : Grounds) (root : Root) (roots : List Root) :
    g.rootsYield (root :: roots) = (g.rootYield root).append (g.rootsYield roots) := rfl

theorem rootsYield_append (g : Grounds) (as bs : List Root) :
    g.rootsYield (as ++ bs) = (g.rootsYield as).append (g.rootsYield bs) := by
  simp [rootsYield, Listing.concat_append]

def withWorkers (g : Grounds) (n : Int) : Grounds :=
  { g with settings := { g.settings with maxWorkers := n } }

@[simp] theorem harvest_withWorkers (g : Grounds) (n : Int) (files : List Text) :
    (g.withWorkers n).harvest files = g.harvest files := rfl

theorem rootsYield_cut_eq_none {g : Grounds} {roots : List Root} :
    (g.rootsYield roots).cut = none ↔ ∀ root ∈ roots, (g.rootYield root).cut = none := by
  simp [rootsYield, Listing.concat_cut_eq_none]

theorem completed_append_drop (g : Grounds) (roots : List Root) :
    g.completed roots ++ roots.drop (g.completed roots).length = roots :=
  List.prefix_iff_eq_append.1 (List.takeWhile_prefix _)

theorem completed_whole (g : Grounds) (roots : List Root) :
    (g.rootsYield (g.completed roots)).cut = none := by
  rw [rootsYield_cut_eq_none]
  intro root hr
  simpa using List.mem_takeWhile_imp hr

theorem completed_eq_self {g : Grounds} {roots : List Root} (h : (g.rootsYield roots).cut = none) :
    g.completed roots = roots := by
  rw [completed, List.takeWhile_eq_self_iff]
  intro root hr
  simp [rootsYield_cut_eq_none.1 h root hr]

theorem yield_whole (g : Grounds) (files : List Text) : g.yield ⟨files, none⟩ = g.harvest files := by
  unfold yield
  split
  · rfl
  · exact Listing.append_empty _

end Grounds

/-! ## Scanning one file -/

theorem Scanner.headerOf_ok {fs : FileSystem} {settings : ScannerSettings} {file path : Text}
    {header : Source.Header} (h : headerOf fs settings file = .ok (path, header)) :
    fs.canonical file = .ok path ∧ readHeader fs settings path = .ok header := by
  unfold headerOf at h
  split at h
  · cases h
  · rename_i hpath
    split at h
    · cases h
    · rename_i hheader
      cases h
      exact ⟨hpath, hheader⟩

namespace MemoryCatalog

@[simp] theorem load_types (c : MemoryCatalog) (identity : Text) :
    (c.load identity).types = c.types := by
  unfold load
  split <;> rfl

theorem mem_load {c : MemoryCatalog} {identity i : Text} :
    i ∈ (c.load identity).loaded ↔ i ∈ c.loaded ∨ i = identity := by
  unfold load
  split
  · rename_i h
    constructor
    · exact .inl
    · rintro (hi | rfl)
      · exact hi
      · exact h
  · simp

/-- A catalog after it was asked to confirm what a file declares. -/
def loadFor (c : MemoryCatalog) (identity : Option Text) : MemoryCatalog :=
  match identity with
  | none => c
  | some i => c.load i

@[simp] theorem loadFor_types (c : MemoryCatalog) (identity : Option Text) :
    (c.loadFor identity).types = c.types := by
  cases identity <;> simp [loadFor]

theorem mem_loadFor {c : MemoryCatalog} {identity : Option Text} {i : Text} :
    i ∈ (c.loadFor identity).loaded ↔ i ∈ c.loaded ∨ identity = some i := by
  cases identity with
  | none => simp [loadFor]
  | some j => simp [loadFor, mem_load, eq_comm]

end MemoryCatalog

namespace Grounds

theorem scan_spec (g : Grounds) {c : MemoryCatalog} (hc : c.types = g.types) (file : Text) :
    (Scanner.scan g.files g.settings c file).answer = g.found file ∧
      (Scanner.scan g.files g.settings c file).catalog = c.loadFor (g.loads file) := by
  unfold Scanner.scan found loads
  cases Scanner.headerOf g.files g.settings file with
  | error e => exact ⟨rfl, rfl⟩
  | ok read =>
    obtain ⟨path, header⟩ := read
    cases hname : header.basename with
    | none => simp [hname, confirmed?, identity?, MemoryCatalog.loadFor]
    | some name =>
      set identity := Identity.join g.settings.namespaceSeparator
        (Scanner.spaceOf g.settings.namespaceSeparator header) name with hid
      have hload : g.confirmed? header = if Table.has g.types identity then some identity else none := by
        simp [confirmed?, identity?, hname, hid, Option.filter_some]
      simp only [hname, hload, Scanner.confirm, facts, TypeCatalog.confirm, MemoryCatalog.confirm,
        MemoryCatalog.contains, hc, ← hid]
      cases hhas : Table.has g.types identity with
      | false => simp [MemoryCatalog.loadFor]
      | true =>
        have hloaded : (c.load identity).isLoaded identity = true := by
          simp [MemoryCatalog.isLoaded, MemoryCatalog.mem_load]
        cases ClassFacts.check identity name
            (Scanner.spaceOf g.settings.namespaceSeparator header)
            g.settings.namespaceSeparator <;>
          simp [MemoryCatalog.loadFor, TypeCatalog.isLoaded, hloaded, Except.map]

end Grounds

/-- A world in which nothing has happened yet, with bare types of which none is loaded. -/
def World.fresh (files : FileSystem) (identities : List Text) : World MemoryCatalog :=
  ⟨files, ⟨identities.map fun i => (i, .bare i), []⟩, .empty, none, 0, []⟩

namespace Census

/-! ## What an operation brings in -/

def grounds (c : Census MemoryCatalog) : Grounds :=
  ⟨c.world.files, c.finder.settings, c.world.catalog.types⟩

def roll {κ : Type} (c : Census κ) : Roll := ⟨c.finder.registry, c.world.ledger.next⟩

def withWorkers {κ : Type} (c : Census κ) (n : Int) : Census κ :=
  { c with finder := { c.finder with settings := { c.finder.settings with maxWorkers := n } } }

@[simp] theorem withWorkers_grounds (c : Census MemoryCatalog) (n : Int) :
    (c.withWorkers n).grounds = c.grounds.withWorkers n := rfl

def marked (scanned : List Text) (root : Root) : List Text :=
  if root.path ∈ scanned then scanned else scanned ++ [root.path]

theorem mem_foldl_marked {done : List Root} {scanned : List Text} {path : Text} :
    path ∈ done.foldl marked scanned ↔ path ∈ scanned ∨ ∃ root ∈ done, root.path = path := by
  induction done generalizing scanned with
  | nil => simp
  | cons root done ih =>
    have hstep : path ∈ marked scanned root ↔ path ∈ scanned ∨ root.path = path := by
      unfold marked
      split
      · rename_i h
        constructor
        · exact .inl
        · rintro (hp | rfl)
          · exact hp
          · exact h
      · simp [eq_comm]
    simp [ih, hstep, or_assoc]

/-- The operation that led from `c` to the result `r` ended as `l` does, entered the items of `l`,
and completed the roots `done`. -/
structure Reaps (c : Census MemoryCatalog) (l : Listing Finding) (done : List Root)
    (r : Except Failure Unit × Census MemoryCatalog) : Prop where
  answer : r.1 = l.answer
  roll : r.2.roll = c.roll.enterAll l.items
  grounds : r.2.grounds = c.grounds
  roots : r.2.finder.roots = c.finder.roots
  scanned : r.2.finder.scanned = done.foldl marked c.finder.scanned

namespace Reaps

variable {c d : Census MemoryCatalog} {l m : Listing Finding} {done done' : List Root}
  {r : Except Failure Unit × Census MemoryCatalog} {e : Failure}

theorem cut_eq_none (h : Reaps c l done (.ok (), d)) : l.cut = none :=
  Listing.answer_eq_ok.1 h.answer.symm

theorem cut_eq_some (h : Reaps c l done (.error e, d)) : l.cut = some e :=
  Listing.answer_eq_error.1 h.answer.symm

/-- One operation after another that went well. -/
theorem andThen (h : Reaps c l done (.ok (), d)) (k : Reaps d m done' r) :
    Reaps c (l.append m) (done ++ done') r where
  answer := by
    rw [k.answer, Listing.append_of_whole h.cut_eq_none]
    rfl
  roll := by
    rw [k.roll, h.roll, Listing.append_of_whole h.cut_eq_none, Roll.enterAll_append]
  grounds := k.grounds.trans h.grounds
  roots := k.roots.trans h.roots
  scanned := by rw [k.scanned, h.scanned, List.foldl_append]

/-- What would come after a failure does not matter. -/
theorem stop (h : Reaps c l done (.error e, d)) (m : Listing Finding) :
    Reaps c (l.append m) done (.error e, d) := by
  rw [Listing.append_of_cut h.cut_eq_some]
  exact h

/-- A change that touches nothing an operation depends on may come before it. -/
theorem of_same (h : Reaps d l done r) (hr : d.roll = c.roll) (hg : d.grounds = c.grounds)
    (hf : d.finder.roots = c.finder.roots) (hs : d.finder.scanned = c.finder.scanned) :
    Reaps c l done r where
  answer := h.answer
  roll := by rw [h.roll, hr]
  grounds := h.grounds.trans hg
  roots := h.roots.trans hf
  scanned := by rw [h.scanned, hs]

end Reaps

theorem nothing_reaps (c : Census MemoryCatalog) : Reaps c .empty [] (.ok (), c) :=
  ⟨rfl, rfl, rfl, rfl, rfl⟩

theorem failed_reaps (c : Census MemoryCatalog) (e : Failure) :
    Reaps c (.refused e) [] (.error e, c) :=
  ⟨rfl, rfl, rfl, rfl, rfl⟩

theorem enroll_reaps (c : Census MemoryCatalog) (found : Option ClassFacts) :
    Reaps c (c.grounds.keyed (.ok found)) [] (c.enroll found) := by
  cases found with
  | none => exact nothing_reaps c
  | some facts =>
    simp only [Grounds.keyed, grounds, enroll, Registry.enroll]
    cases hkey : c.world.files.fingerprint facts.file with
    | error e => exact failed_reaps c e
    | ok key =>
      cases hhas : Table.has c.finder.registry key with
      | true =>
        simp only [hhas, if_true]
        refine ⟨rfl, ?_, rfl, rfl, rfl⟩
        simp [Listing.single, roll, Roll.enter, hhas, World.tell]
      | false =>
        simp only [hhas, Bool.false_eq_true, if_false]
        refine ⟨rfl, ?_, rfl, rfl, rfl⟩
        simp [Listing.single, roll, Roll.enter, hhas, World.tell, World.keep, Ledger.enter,
          Registry.insert]

theorem enroll_catalog {κ : Type} (c : Census κ) (found : Option ClassFacts) :
    (c.enroll found).2.world.catalog = c.world.catalog := by
  cases found with
  | none => rfl
  | some facts =>
    simp only [enroll, Registry.enroll]
    cases c.world.files.fingerprint facts.file with
    | error e => rfl
    | ok key =>
      by_cases hhas : Table.has c.finder.registry key = true
      · simp only [hhas, if_true]
        rfl
      · simp only [hhas]
        rfl

/-! ## Files -/

/-- Asking for the scan of a file changes the catalog and the log only. -/
theorem ask_scan (c : Census MemoryCatalog) (file : Text) :
    ∃ w, c.world.ask (Scanner.scan c.world.files c.finder.settings · file) =
        (c.grounds.found file, w) ∧
      w.files = c.world.files ∧ w.ledger = c.world.ledger ∧
      w.catalog = c.world.catalog.loadFor (c.grounds.loads file) := by
  obtain ⟨ha, hc⟩ := c.grounds.scan_spec (c := c.world.catalog) rfl file
  refine ⟨_, Prod.ext ha rfl, rfl, rfl, ?_⟩
  exact hc

theorem parseInTurn_reaps (files : List Text) (c : Census MemoryCatalog) :
    Reaps c (c.grounds.harvest files) [] (c.parseInTurn files) := by
  induction files generalizing c with
  | nil => exact nothing_reaps c
  | cons file files ih =>
    obtain ⟨w, hask, hfiles, hledger, hcat⟩ := ask_scan c file
    simp only [parseInTurn, hask, Grounds.harvest_cons, Grounds.finding]
    -- the census after the question, before anything is registered
    let d : Census MemoryCatalog := { c with world := w }
    have hroll : d.roll = c.roll := by simp [d, roll, hledger]
    have hgrounds : d.grounds = c.grounds := by simp [d, grounds, hfiles, hcat]
    cases hfound : c.grounds.found file with
    | error e => exact ((failed_reaps d e).of_same hroll hgrounds rfl rfl).stop _
    | ok found =>
      have henroll := (enroll_reaps d found).of_same hroll hgrounds rfl rfl
      rw [hgrounds] at henroll
      simp only
      rcases hres : d.enroll found with ⟨_ | _, d'⟩
      · rw [hres] at henroll
        exact henroll.stop _
      · rw [hres] at henroll
        have hrest := ih d'
        rw [henroll.grounds] at hrest
        exact henroll.andThen hrest

/-- What is loaded once files were scanned in turn: all that they declare, and nothing else. -/
theorem parseInTurn_loaded {files : List Text} {c d : Census MemoryCatalog}
    (h : c.parseInTurn files = (.ok (), d)) (i : Text) :
    i ∈ d.world.catalog.loaded ↔
      i ∈ c.world.catalog.loaded ∨ ∃ file ∈ files, c.grounds.loads file = some i := by
  induction files generalizing c with
  | nil =>
    cases h
    simp
  | cons file files ih =>
    obtain ⟨w, hask, hfiles, hledger, hcat⟩ := ask_scan c file
    simp only [parseInTurn, hask] at h
    cases hfound : c.grounds.found file with
    | error e =>
      rw [hfound] at h
      cases h
    | ok found =>
      rw [hfound] at h
      have hreaps := enroll_reaps { c with world := w } found
      have hkeep := enroll_catalog { c with world := w } found
      have hgrounds : grounds { c with world := w } = c.grounds := by simp [grounds, hfiles, hcat]
      rcases hres : enroll { c with world := w } found with ⟨_ | _, d'⟩
      · simp only [hres] at h
        cases h
      · simp only [hres] at h
        rw [hres] at hreaps hkeep
        have hg : d'.grounds = c.grounds := hreaps.grounds.trans hgrounds
        rw [ih h, hg, show d'.world.catalog = w.catalog from hkeep, hcat, MemoryCatalog.mem_loadFor]
        simp [or_assoc]

/-- Side tasks hand in what each file holds, in the order of the files. -/
theorem scanAside_spec (g : Grounds) (files : List Text) (w : World MemoryCatalog)
    (hf : w.files = g.files) (ht : w.catalog.types = g.types) :
    ∃ w', scanAside g.settings w files = (files.map g.found, w') ∧ w'.files = w.files ∧
      w'.ledger = w.ledger ∧ w'.catalog.types = w.catalog.types := by
  induction files generalizing w with
  | nil => exact ⟨w, rfl, rfl, rfl, rfl⟩
  | cons file files ih =>
    obtain ⟨ha, hc⟩ := g.scan_spec ht file
    rw [← hf] at ha hc
    set reply := Scanner.scan w.files g.settings w.catalog file with hreply
    obtain ⟨w', hrest, hfiles, hledger, htypes⟩ :=
      ih ({ w with catalog := reply.catalog }.tellAside reply.notices) hf
        (by simp [World.tellAside, hc, ht])
    refine ⟨w', ?_, hfiles, hledger, ?_⟩
    · simp only [scanAside, ← hreply, hrest, List.map_cons, ha]
    · simp [htypes, World.tellAside, hc]

theorem enrollAll_reaps (files : List Text) (c : Census MemoryCatalog) :
    Reaps c (c.grounds.harvest files) [] (c.enrollAll (files.map c.grounds.found)) := by
  induction files generalizing c with
  | nil => exact nothing_reaps c
  | cons file files ih =>
    simp only [List.map_cons, Grounds.harvest_cons, Grounds.finding]
    cases hfound : c.grounds.found file with
    | error e => exact (failed_reaps c e).stop _
    | ok found =>
      have henroll := enroll_reaps c found
      simp only [enrollAll]
      rcases hres : c.enroll found with ⟨_ | _, d⟩
      · rw [hres] at henroll
        exact henroll.stop _
      · rw [hres] at henroll
        have hrest := ih d
        rw [henroll.grounds] at hrest
        exact henroll.andThen hrest

theorem parse_reaps (c : Census MemoryCatalog) (files : Listing Text) :
    Reaps c (c.grounds.yield files) [] (c.parse files) := by
  unfold parse Grounds.yield
  by_cases hpar : c.finder.settings.isParallel
  · obtain ⟨w, hscan, hfiles, hledger, htypes⟩ :=
      scanAside_spec c.grounds files.items c.world rfl rfl
    simp only [grounds] at hscan
    simp only [grounds, hpar, if_true, hscan]
    let d : Census MemoryCatalog := { c with world := w }
    have hroll : d.roll = c.roll := by simp [d, roll, hledger]
    have hgrounds : d.grounds = c.grounds := by simp [d, grounds, hfiles, htypes]
    cases files.cut with
    | some e => exact (failed_reaps d e).of_same hroll hgrounds rfl rfl
    | none =>
      have h := (enrollAll_reaps files.items d).of_same hroll hgrounds rfl rfl
      rw [hgrounds] at h
      exact h
  · have h := parseInTurn_reaps files.items c
    simp only [grounds, hpar, Bool.false_eq_true, if_false]
    rcases hres : c.parseInTurn files.items with ⟨_ | _, d⟩
    · rw [hres] at h
      exact h.stop _
    · rw [hres] at h
      cases files.cut with
      | none => exact h.andThen (nothing_reaps d)
      | some e => exact h.andThen (failed_reaps d e)

theorem parseFiles_oneWorker (c : Census MemoryCatalog) (files : List Text) :
    (c.withWorkers 1).parseFiles files = (c.withWorkers 1).parseInTurn files := by
  have hpar : (c.withWorkers 1).finder.settings.isParallel = false := rfl
  simp only [parseFiles, parse, hpar, Bool.false_eq_true, if_false]
  rcases (c.withWorkers 1).parseInTurn files with ⟨_ | _, d⟩ <;> rfl

/-! ## Roots -/

theorem scanRoot_reaps (c : Census MemoryCatalog) (root : Root) :
    Reaps c (c.grounds.rootYield root) (c.grounds.completed [root]) (c.scanRoot root) := by
  have hwalk : Walk.enumerate (c.tell [.scanStarted root.path root.recursive]).world.files
      (c.tell [.scanStarted root.path root.recursive]).finder.settings root.recursive root.path =
      Walk.enumerate c.grounds.files c.grounds.settings root.recursive root.path := rfl
  simp only [scanRoot, hwalk, Grounds.completed, List.takeWhile_cons, List.takeWhile_nil]
  have hyield : c.grounds.rootYield root = match
      Walk.enumerate c.grounds.files c.grounds.settings root.recursive root.path with
    | .error e => .refused e
    | .ok (_, files) => c.grounds.yield files := rfl
  cases henum : Walk.enumerate c.grounds.files c.grounds.settings root.recursive root.path with
  | error e =>
    rw [henum] at hyield
    rw [hyield]
    exact (failed_reaps _ e).of_same (d := c.tell _) rfl rfl rfl rfl
  | ok listed =>
    obtain ⟨notice, files⟩ := listed
    rw [henum] at hyield
    let d := (c.tell [.scanStarted root.path root.recursive]).tell [notice]
    have hparse : Reaps c (c.grounds.yield files) [] (d.parse files) :=
      (parse_reaps d files).of_same rfl rfl rfl rfl
    rw [hyield]
    simp only
    rcases hres : d.parse files with ⟨e | _, d'⟩
    · rw [hres] at hparse
      simp only [hparse.cut_eq_some, Option.isNone_some, Bool.false_eq_true, if_false]
      exact hparse
    · rw [hres] at hparse
      simp only [hparse.cut_eq_none, Option.isNone_none, if_true]
      refine ⟨hparse.answer, hparse.roll, hparse.grounds, hparse.roots, ?_⟩
      have hs : d'.finder.scanned = c.finder.scanned := hparse.scanned
      simp [marked, markScanned, tell, hs]

theorem scanRoots_reaps (roots : List Root) (c : Census MemoryCatalog) :
    Reaps c (c.grounds.rootsYield roots) (c.grounds.completed roots) (c.scanRoots roots) := by
  induction roots generalizing c with
  | nil => exact nothing_reaps c
  | cons root roots ih =>
    have hroot := scanRoot_reaps c root
    simp only [scanRoots, Grounds.rootsYield_cons]
    rcases hres : c.scanRoot root with ⟨e | _, d⟩
    · rw [hres] at hroot
      have hdone : c.grounds.completed (root :: roots) = c.grounds.completed [root] := by
        simp [Grounds.completed, hroot.cut_eq_some]
      rw [hdone]
      exact hroot.stop _
    · rw [hres] at hroot
      have hdone : c.grounds.completed (root :: roots) =
          c.grounds.completed [root] ++ c.grounds.completed roots := by
        simp [Grounds.completed, hroot.cut_eq_none]
      have hrest := ih d
      rw [hroot.grounds] at hrest
      rw [hdone]
      exact hroot.andThen hrest

theorem scanFiles_reaps (c : Census MemoryCatalog) :
    Reaps c (c.grounds.rootsYield c.pending) (c.grounds.completed c.pending) c.scanFiles := by
  unfold scanFiles
  cases c.pending with
  | nil => exact nothing_reaps c
  | cons root roots =>
    cases hid : c.world.scanId with
    | some id => exact scanRoots_reaps (root :: roots) c
    | none =>
      have h := (scanRoots_reaps (root :: roots) { c with world := c.world.setScanId none }).of_same
        (c := c) rfl rfl rfl rfl
      exact ⟨h.answer, h.roll, h.grounds, h.roots, h.scanned⟩

end Census
end ClassCensus
