import ClassCensus.Proofs.Calls
import ClassCensus.Proofs.Findings
import ClassCensus.Proofs.Passing

/-!
# ClassCensus.Proofs.Upkeep

A census that serves requests of all kinds, each of them whether or not those before it went well.

What a request brings in is known beforehand (`Request.brings`), and serving it enters that in the
registry and does nothing else to it (`serve_spec`). So the registry only grows at its end, and as
all findings are well made, so is every entry there ever is.
-/

namespace ClassCensus

/-- A request to a census, or to its catalog in memory to define a type. -/
inductive Request where
  | define (type : Reflection) (loaded : Bool)
  | requireAttributes (types : List TypeArg) (requireAll : Bool)
  | parseFiles (files : List Text)
  | matching
  | roots (call : RootCall)

/-! ## Questions to the catalog -/

/-- What happened left the files alone and entered no record. -/
structure World.Keeps {κ : Type} (w w' : World κ) : Prop where
  files : w'.files = w.files
  next : w'.ledger.next = w.ledger.next

namespace World.Keeps

variable {κ : Type} {w w' w'' : World κ}

theorem refl (w : World κ) : Keeps w w := ⟨rfl, rfl⟩

theorem trans (h : Keeps w w') (h' : Keeps w' w'') : Keeps w w'' :=
  ⟨h'.files.trans h.files, h'.next.trans h.next⟩

end World.Keeps

theorem World.reflect_spec (w : World MemoryCatalog) (record : Record) :
    Keeps w (w.reflect record).2 ∧
      ∀ e, (w.reflect record).1 = .error e → e.isOfRecord = false := by
  unfold reflect
  cases w.ledger.remembered? record with
  | some reflection => exact ⟨.refl w, by simp⟩
  | none =>
    simp only [ask, TypeCatalog.reflect, MemoryCatalog.reflect]
    cases Table.get? w.catalog.types record.facts.className with
    | some reflection => exact ⟨⟨rfl, rfl⟩, by simp⟩
    | none =>
      refine ⟨⟨rfl, rfl⟩, fun e he => ?_⟩
      cases he
      rfl

namespace Filter

theorem passes_spec (f : Filter) (w : World MemoryCatalog) (record : Record) :
    w.Keeps (f.passes w record).2 ∧
      ∀ e, (f.passes w record).1 = .error e → e.isOfRecord = false := by
  obtain ⟨hkeeps, herror⟩ := w.reflect_spec record
  rw [passes_eq]
  split
  · exact ⟨.refl w, by simp⟩
  · rcases hreflect : w.reflect record with ⟨e | reflection, w'⟩
    · rw [hreflect] at hkeeps herror
      refine ⟨hkeeps, fun e' he' => ?_⟩
      cases he'
      exact herror e rfl
    · rw [hreflect] at hkeeps
      exact ⟨hkeeps, by simp⟩

theorem select_spec (f : Filter) (records : List (Text × Record)) (w : World MemoryCatalog) :
    w.Keeps (f.select w records).2 ∧
      ∀ e, (f.select w records).1.cut = some e → e.isOfRecord = false := by
  induction records generalizing w with
  | nil => exact ⟨.refl w, by simp [select, Listing.empty]⟩
  | cons entry records ih =>
    obtain ⟨key, record⟩ := entry
    obtain ⟨hkeeps, herror⟩ := f.passes_spec w record
    simp only [select]
    rcases hpasses : f.passes w record with ⟨e | kept, w'⟩
    · rw [hpasses] at hkeeps herror
      refine ⟨hkeeps, fun e' he' => ?_⟩
      cases he'
      exact herror e rfl
    · rw [hpasses] at hkeeps
      obtain ⟨hrest, hcut⟩ := ih w'
      refine ⟨hkeeps.trans hrest, fun e he => ?_⟩
      cases kept with
      | false => exact hcut e he
      | true =>
        simp only [if_true] at he
        rcases Listing.cut_of_append he with he | he
        · cases he
        · exact hcut e he

theorem confirmAll_spec (names : List Text) (w : World MemoryCatalog) :
    w.Keeps (confirmAll w names).2 ∧
      ∀ e, (confirmAll w names).1 = .error e → e.isOfRecord = false := by
  induction names generalizing w with
  | nil => exact ⟨.refl w, by simp [confirmAll]⟩
  | cons name names ih =>
    simp only [confirmAll, World.ask, TypeCatalog.confirm, MemoryCatalog.confirm]
    cases w.catalog.contains name with
    | true =>
      simp only [if_true]
      obtain ⟨hrest, herror⟩ := ih _
      exact ⟨⟨hrest.files, hrest.next⟩, herror⟩
    | false =>
      refine ⟨⟨rfl, rfl⟩, fun e he => ?_⟩
      cases he
      rfl

end Filter

theorem Roots.rootOf_error {fs : FileSystem} {marker : Text} {raw : Text × Option Bool}
    {e : Failure} (h : rootOf fs marker raw = .error e) : e.isOfKeeping = false := by
  unfold rootOf at h
  split at h
  · rename_i hcanonical
    cases h
    exact FileSystem.canonical_error hcanonical
  · cases h

/-! ## Serving requests -/

/-- The findings that a request brings in. -/
def Request.brings (c : Census MemoryCatalog) : Request → Listing Finding
  | .define _ _ => .empty
  | .requireAttributes _ _ => .empty
  | .parseFiles files => c.grounds.harvest files
  | .matching => c.grounds.rootsYield c.pending
  | .roots call => if call.root? = none then c.grounds.rootsYield c.pending else .empty

namespace Census

def serve (c : Census MemoryCatalog) : Request → Except Failure Unit × Census MemoryCatalog
  | .define type loaded =>
    (.ok (), { c with world := { c.world with catalog := c.world.catalog.define type loaded } })
  | .requireAttributes types requireAll => c.requireAttributes types requireAll
  | .parseFiles files => c.parseFiles files
  | .matching =>
    match c.matching with
    | (.error e, c) => (.error e, c)
    | (.ok found, c) => (found.answer, c)
  | .roots call => c.perform call

/-- The census after requests, whatever has become of each. -/
def serveAll (c : Census MemoryCatalog) (requests : List Request) : Census MemoryCatalog :=
  requests.foldl (fun c request => (c.serve request).2) c

/-- The items of `l` were entered and nothing else was done to the registry, the files or the
settings. A failure is the one that cuts `l` short, or at least not one of the check of a record. -/
structure Serves (c : Census MemoryCatalog) (l : Listing Finding)
    (r : Except Failure Unit × Census MemoryCatalog) : Prop where
  roll : r.2.roll = c.roll.enterAll l.items
  files : r.2.world.files = c.world.files
  settings : r.2.finder.settings = c.finder.settings
  failure : ∀ e, r.1 = .error e → l.cut = some e ∨ e.isOfRecord = false

theorem Reaps.serves {c : Census MemoryCatalog} {l : Listing Finding} {done : List Root}
    {r : Except Failure Unit × Census MemoryCatalog} (h : Reaps c l done r) : Serves c l r where
  roll := h.roll
  files := congrArg Grounds.files h.grounds
  settings := congrArg Grounds.settings h.grounds
  failure _ he := .inl (Listing.answer_eq_error.1 (h.answer.symm.trans he))

theorem requireAttributes_serves (c : Census MemoryCatalog) (types : List TypeArg)
    (requireAll : Bool) : Serves c .empty (c.requireAttributes types requireAll) := by
  obtain ⟨hkeeps, herror⟩ := Filter.confirmAll_spec
    (types.map (·.identity c.finder.settings.namespaceSeparator)) c.world
  simp only [requireAttributes, Filter.require]
  rcases hconfirm : Filter.confirmAll c.world
      (types.map (·.identity c.finder.settings.namespaceSeparator)) with ⟨e | _, w⟩
  · rw [hconfirm] at hkeeps herror
    simp only [hconfirm]
    refine ⟨congrArg (Roll.mk c.finder.registry) hkeeps.next, hkeeps.files, rfl, fun e' he' => ?_⟩
    cases he'
    exact .inr (herror e rfl)
  · rw [hconfirm] at hkeeps
    simp only [hconfirm]
    exact ⟨congrArg (Roll.mk c.finder.registry) hkeeps.next, hkeeps.files, rfl, by simp⟩

theorem matching_serves (c : Census MemoryCatalog) :
    Serves c (c.grounds.rootsYield c.pending) (c.serve .matching) := by
  have hscan := (scanFiles_reaps c).serves
  simp only [serve, matching, all]
  rcases hres : c.scanFiles with ⟨e | _, d⟩
  · rw [hres] at hscan
    exact hscan
  · rw [hres] at hscan
    obtain ⟨hkeeps, hcut⟩ := d.finder.filter.select_spec d.finder.registry d.world
    refine ⟨?_, hkeeps.files.trans hscan.files, hscan.settings, fun e he => ?_⟩
    · rw [← hscan.roll]
      simp only [roll, hkeeps.next]
    · exact .inr (hcut e (Listing.answer_eq_error.1 he))

theorem perform_serves (c : Census MemoryCatalog) (call : RootCall) :
    Serves c (Request.brings c (.roots call)) (c.perform call) := by
  by_cases hroot : call.root? = none
  · rw [perform_of_root?_eq_none hroot, Request.brings, if_pos hroot]
    exact (scanFiles_reaps c).serves
  · cases call with
    | add path recursive =>
      rw [Request.brings, if_neg hroot, perform_add c (path, recursive)]
      cases hadd : Roots.rootOf c.world.files c.finder.settings.nonRecursiveMarker
          (path, recursive) with
      | error e =>
        refine ⟨rfl, rfl, rfl, fun e' he' => ?_⟩
        cases he'
        exact .inr (Failure.isOfRecord_of_isOfKeeping (Roots.rootOf_error hadd))
      | ok root => exact ⟨rfl, rfl, rfl, by simp⟩
    | scanFiles => exact absurd rfl hroot
    | count => exact absurd rfl hroot
    | all => exact absurd rfl hroot

theorem serve_spec (c : Census MemoryCatalog) (request : Request) :
    Serves c (request.brings c) (c.serve request) := by
  cases request with
  | define type loaded => exact ⟨rfl, rfl, rfl, by simp [serve]⟩
  | requireAttributes types requireAll => exact requireAttributes_serves c types requireAll
  | parseFiles files =>
    have hparse := (parse_reaps c ⟨files, none⟩).serves
    rw [Grounds.yield_whole] at hparse
    exact hparse
  | matching => exact matching_serves c
  | roots call => exact perform_serves c call

theorem registry_serve (c : Census MemoryCatalog) (request : Request) :
    c.finder.registry <+: (c.serve request).2.finder.registry := by
  have hroll := (serve_spec c request).roll
  have hgrows := c.roll.registry_grows (request.brings c).items
  rw [← hroll] at hgrows
  exact hgrows

theorem registry_serveAll (c : Census MemoryCatalog) (requests : List Request) :
    c.finder.registry <+: (c.serveAll requests).finder.registry := by
  induction requests generalizing c with
  | nil => exact List.prefix_rfl
  | cons request requests ih => exact (registry_serve c request).trans (ih _)

/-! ## Well-made entries -/

/-- The census is on the files `fs` with the given settings, and all it has registered is well
made. -/
structure Upkept (fs : FileSystem) (settings : ScannerSettings) (c : Census MemoryCatalog) :
    Prop where
  files : c.world.files = fs
  config : c.finder.settings = settings
  distinct : (Table.keys c.finder.registry).Nodup
  entries : ∀ k record, (k, record) ∈ c.finder.registry →
    WellMade settings.namespaceSeparator (k, record.facts)

namespace Upkept

variable {fs : FileSystem} {settings : ScannerSettings} {c : Census MemoryCatalog}

theorem brings (h : Upkept fs settings c) (hfiles : fs.Orderly)
    (hsep : settings.namespaceSeparator ≠ []) (request : Request) :
    (request.brings c).Holds (WellMade settings.namespaceSeparator)
      fun e => e.isOfRecord = false := by
  obtain ⟨rfl, rfl, -, -⟩ := h
  cases request with
  | define type loaded => exact .empty
  | requireAttributes types requireAll => exact .empty
  | parseFiles files => exact Grounds.harvest_fit (g := c.grounds) hfiles hsep files
  | matching => exact Grounds.rootsYield_fit (g := c.grounds) hfiles hsep c.pending
  | roots call =>
    rw [Request.brings]
    split
    · exact Grounds.rootsYield_fit (g := c.grounds) hfiles hsep c.pending
    · exact .empty

theorem serve (h : Upkept fs settings c) (hfiles : fs.Orderly)
    (hsep : settings.namespaceSeparator ≠ []) (request : Request) :
    Upkept fs settings (c.serve request).2 := by
  have hserves := serve_spec c request
  have hregistry : (c.serve request).2.finder.registry =
      (c.roll.enterAll (request.brings c).items).registry := congrArg Roll.registry hserves.roll
  refine ⟨hserves.files.trans h.files, hserves.settings.trans h.config, ?_, fun k record hmem => ?_⟩
  · rw [hregistry]
    exact Roll.nodup_enterAll h.distinct _
  · rw [hregistry] at hmem
    rcases Roll.mem_enterAll hmem with hmem | hmem
    · exact h.entries k record hmem
    · exact (h.brings hfiles hsep request).items _ hmem

theorem serveAll (h : Upkept fs settings c) (hfiles : fs.Orderly)
    (hsep : settings.namespaceSeparator ≠ []) (requests : List Request) :
    Upkept fs settings (c.serveAll requests) := by
  induction requests generalizing c with
  | nil => exact h
  | cons request requests ih => exact ih (h.serve hfiles hsep request)

theorem failure (h : Upkept fs settings c) (hfiles : fs.Orderly)
    (hsep : settings.namespaceSeparator ≠ []) {request : Request} {e : Failure}
    (he : (c.serve request).1 = .error e) : e.isOfRecord = false := by
  rcases (serve_spec c request).failure e he with hcut | hother
  · exact (h.brings hfiles hsep request).cut e hcut
  · exact hother

end Upkept

/-- A new census on orderly files serves requests, failing ones included. Whatever comes after, its
registry only grows at the end; at any time its keys are distinct and its entries well made; and no
request ever fails on the check of a record. -/
theorem registry_grows_well_made {settings : ScannerSettings} {w : World MemoryCatalog}
    (hfiles : w.files.Orderly) (hsep : settings.namespaceSeparator ≠ []) (before : List Request) :
    (∀ after, (serveAll ⟨Finder.new settings, w⟩ before).finder.registry <+:
      (serveAll ⟨Finder.new settings, w⟩ (before ++ after)).finder.registry) ∧
    (Table.keys (serveAll ⟨Finder.new settings, w⟩ before).finder.registry).Nodup ∧
    (∀ k record, (k, record) ∈ (serveAll ⟨Finder.new settings, w⟩ before).finder.registry →
      WellMade settings.namespaceSeparator (k, record.facts)) ∧
    ∀ request className basename space sep m,
      ClassFacts.check className basename space sep = .error m →
      ((serveAll ⟨Finder.new settings, w⟩ before).serve request).1 ≠ .error (.misuse m) := by
  have hnew : Upkept w.files settings ⟨Finder.new settings, w⟩ :=
    ⟨rfl, rfl, List.nodup_nil, by simp [Finder.new]⟩
  have hbefore := hnew.serveAll hfiles hsep before
  refine ⟨fun after => ?_, hbefore.distinct, hbefore.entries,
    fun request _ _ _ _ m hcheck hfails => ?_⟩
  · rw [serveAll, serveAll, List.foldl_append]
    exact registry_serveAll _ after
  · have hrecord := ClassFacts.isOfRecord_of_check hcheck
    rw [hbefore.failure hfiles hsep hfails] at hrecord
    cases hrecord

/-- A source and a link to another one outside the directory. -/
def sharedFiles : FileSystem :=
  ⟨.dir [("w".toList, .dir
    [("lib".toList, .dir [("b.php".toList, .file (Text.utf8 "class B".toList))]),
      ("src".toList, .dir
        [("a.php".toList, .file (Text.utf8 "namespace \\App\\;\nclass A".toList)),
          ("b.php".toList, .link "../lib/b.php".toList)])])], [], ["w".toList], []⟩

theorem sharedFiles_orderly : sharedFiles.Orderly := by
  have hlinks : sharedFiles.tree.linkList =
      [(["w".toList, "src".toList, "b.php".toList], "../lib/b.php".toList)] := by decide +kernel
  have honly : ∀ {loc target}, sharedFiles.tree.linkAt? loc = some target →
      loc = ["w".toList, "src".toList, "b.php".toList] ∧ target = "../lib/b.php".toList := by
    intro loc target hlink
    have hmem := Tree.mem_linkList (Tree.linkAt?_eq_some.1 hlink)
    rw [hlinks, List.mem_singleton, Prod.mk.injEq] at hmem
    exact hmem
  refine ⟨by decide +kernel, by decide +kernel, fun loc target hlink => ?_,
    fun loc target hlink => ?_, _, rfl⟩
  · obtain ⟨-, rfl⟩ := honly hlink
    decide
  · obtain ⟨rfl, rfl⟩ := honly hlink
    have hlib : FileSystem.Proper "lib".toList := FileSystem.proper_of_isName (by decide +kernel)
    have hfile : FileSystem.Proper "b.php".toList := FileSystem.proper_of_isName (by decide +kernel)
    exact ⟨0, ["w".toList, "lib".toList, "b.php".toList],
      .up (.down hlib (by decide +kernel) (.down hfile (by decide +kernel) (.done _)))⟩

/-- Three of these fail: a file that is not there, an unknown attribute and, at the end, a root that
is no directory. The link is read under a path that leads nowhere. -/
def sharedRequests : List Request :=
  [.parseFiles ["src/no.php".toList], .define (.bare "App\\A".toList) false,
    .roots (.add "src".toList none), .roots .count, .define (.bare "B".toList) true,
    .requireAttributes [.named "C".toList] false, .parseFiles ["src/no/../b.php".toList],
    .roots (.add "src/a.php".toList none), .matching]

/-- Both classes end up in the registry, well made. -/
theorem link_and_failures_well_made :
    sharedFiles.Orderly ∧
      (serveAll ⟨Finder.new {}, .fresh sharedFiles []⟩ sharedRequests).finder.registry.findings.map
        (fun x => (x.2.className, x.2.file)) =
        [("App\\A".toList, "/w/src/a.php".toList), ("B".toList, "/w/lib/b.php".toList)] ∧
      ∀ k record, (k, record) ∈
          (serveAll ⟨Finder.new {}, .fresh sharedFiles []⟩ sharedRequests).finder.registry →
        WellMade Identity.backslash (k, record.facts) := by
  refine ⟨sharedFiles_orderly, by decide +kernel, ?_⟩
  have hgrows := @registry_grows_well_made {} (.fresh sharedFiles []) sharedFiles_orderly (by decide)
    sharedRequests
  exact hgrows.2.2.1

end Census
end ClassCensus
