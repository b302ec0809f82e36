import ClassCensus.Proofs.ScanId
import ClassCensus.Proofs.Sources
import ClassCensus.Proofs.Steps

/-!
# ClassCensus.Proofs.Rescan

Scanning again. A root that was scanned without its subdirectories and is then added with them
ends up as if it had been added with them at once: the files of the directory itself come first
in either walk, so the second scan starts with what is registered already and goes on from there.

A scan that went well leaves no root waiting (`Settled`). Only a new root changes that, so any
later scan does nothing at all, whatever has become of the files.
-/

namespace ClassCensus

namespace Grounds

variable {g : Grounds} {path : Text}

theorem sources_deep (g : Grounds) (path : Text) :
    g.sources ⟨path, false⟩ <+: g.sources ⟨path, true⟩ := by
  simp only [sources]
  cases henum : Walk.enumerate g.files g.settings false path with
  | error e => exact List.nil_prefix
  | ok listed =>
    obtain ⟨notice, found⟩ := listed
    obtain ⟨loc, entries, hreach, hat, hdenied, rfl⟩ := Walk.enumerate_ok henum
    obtain ⟨below, hdeep⟩ :=
      Walk.files_deep g.files g.settings loc (Spelling.clean path) entries
    rw [Walk.enumerate_of_dir hreach hat hdenied]
    simp only [hdeep]
    exact Listing.items_prefix_append _ below

theorem rootYield_deep (hshallow : (g.rootYield ⟨path, false⟩).cut = none)
    (hdeep : (g.rootYield ⟨path, true⟩).cut = none) :
    (g.rootYield ⟨path, false⟩).items <+: (g.rootYield ⟨path, true⟩).items := by
  obtain ⟨rest, hrest⟩ := sources_deep g path
  have heq := rootYield_of_whole hshallow
  rw [heq] at hshallow ⊢
  rw [rootYield_of_whole hdeep, ← hrest, harvest_append, Listing.append_of_whole hshallow]
  exact List.prefix_append _ _

end Grounds

namespace Census

/-! ## A root on its own -/

section Lone

variable {c d : Census MemoryCatalog} {root : Root}

theorem pending_withRoot_lone
    (h : Table.put c.finder.roots root.path root.recursive = [(root.path, root.recursive)]) :
    (c.withRoot root).pending = [root] := by
  simp [pending, withRoot, h, Roots.toList]

/-- A new root, or the only one there is, is added and scanned. -/
theorem scan_lone
    (h : Table.put c.finder.roots root.path root.recursive = [(root.path, root.recursive)]) :
    Reaps (c.withRoot root) (c.grounds.rootYield root) (c.grounds.completed [root])
      (c.withRoot root).scanFiles := by
  have hscan := scanFiles_reaps (c.withRoot root)
  rw [pending_withRoot_lone h, Grounds.rootsYield_cons, Grounds.rootsYield_nil,
    Listing.append_empty] at hscan
  exact hscan

/-- Calls that start with the adding and the scan of a lone root. -/
theorem run_lone {raw : Text × Option Bool}
    (hraw : Roots.rootOf c.world.files c.finder.settings.nonRecursiveMarker raw = .ok root)
    (hput : Table.put c.finder.roots root.path root.recursive = [(root.path, root.recursive)])
    (calls : List RootCall) :
    ∃ r d, Reaps (c.withRoot root) (c.grounds.rootYield root) (c.grounds.completed [root]) (r, d) ∧
      c.run (.ofRoot raw :: .scanFiles :: calls) =
        match r with
        | .error e => (.error e, d)
        | .ok () => d.run calls := by
  have hreaps := scan_lone hput
  have hadd : c.perform (.ofRoot raw) = (.ok (), c.withRoot root) := by
    rw [RootCall.ofRoot, perform_add, hraw]
  have hscan : (c.withRoot root).perform .scanFiles = (c.withRoot root).scanFiles := rfl
  rcases hres : (c.withRoot root).scanFiles with ⟨r, d⟩
  rw [hres] at hreaps hscan
  refine ⟨r, d, hreaps, ?_⟩
  simp only [run, hadd, hscan]
  cases r <;> rfl

variable {settings : ScannerSettings} {w : World MemoryCatalog} {path : Text}

/-- A new finder that adds a root and scans it. -/
theorem scan_once {once : Text × Option Bool} {deep : Bool}
    (honce : Roots.rootOf w.files settings.nonRecursiveMarker once = .ok ⟨path, deep⟩)
    (hcut : (Grounds.rootYield ⟨w.files, settings, w.catalog.types⟩ ⟨path, deep⟩).cut = none) :
    ∃ fresh, run ⟨Finder.new settings, w⟩ [.ofRoot once, .scanFiles] = (.ok (), fresh) ∧
      fresh.roll = Roll.enterAll ⟨[], w.ledger.next⟩
        (Grounds.rootYield ⟨w.files, settings, w.catalog.types⟩ ⟨path, deep⟩).items := by
  obtain ⟨r, fresh, hreaps, hrun⟩ := run_lone (c := ⟨Finder.new settings, w⟩) honce rfl []
  obtain rfl : r = .ok () := hreaps.answer.trans (Listing.answer_eq_ok.2 hcut)
  exact ⟨fresh, hrun, hreaps.roll⟩

/-- A new finder that scans a root without its subdirectories and then with them enters what it
would have entered with them at once. -/
theorem scan_deeper {shallow deep : Text × Option Bool} {final : Census MemoryCatalog}
    (hshallow : Roots.rootOf w.files settings.nonRecursiveMarker shallow = .ok ⟨path, false⟩)
    (hdeep : Roots.rootOf w.files settings.nonRecursiveMarker deep = .ok ⟨path, true⟩)
    (h : run ⟨Finder.new settings, w⟩ [.ofRoot shallow, .scanFiles, .ofRoot deep, .scanFiles] =
      (.ok (), final)) :
    (Grounds.rootYield ⟨w.files, settings, w.catalog.types⟩ ⟨path, true⟩).cut = none ∧
      final.roll = Roll.enterAll ⟨[], w.ledger.next⟩
        (Grounds.rootYield ⟨w.files, settings, w.catalog.types⟩ ⟨path, true⟩).items := by
  obtain ⟨r, m, hfirst, hrun⟩ := run_lone (c := ⟨Finder.new settings, w⟩) hshallow rfl
    [.ofRoot deep, .scanFiles]
  rw [h] at hrun
  cases r with
  | error e => cases hrun
  | ok _ =>
    have hgrounds : m.grounds = ⟨w.files, settings, w.catalog.types⟩ := hfirst.grounds
    have hroots : m.finder.roots = [(path, false)] := hfirst.roots
    -- the root keeps its place and takes the new word
    have hput : Table.put m.finder.roots path true = [(path, true)] := by
      simp [hroots, Table.put]
    have hagain : Roots.rootOf m.world.files m.finder.settings.nonRecursiveMarker deep =
        .ok ⟨path, true⟩ := by
      rw [show m.world.files = w.files from congrArg Grounds.files hgrounds,
        show m.finder.settings = settings from congrArg Grounds.settings hgrounds, hdeep]
    obtain ⟨r, d, hsecond, hrest⟩ := run_lone hagain hput []
    rw [hrest] at hrun
    cases r with
    | error e => cases hrun
    | ok _ =>
      cases hrun
      have hroll := hsecond.roll
      have hwhole := hsecond.cut_eq_none
      rw [hgrounds] at hroll hwhole
      have hfront := Grounds.rootYield_deep hfirst.cut_eq_none hwhole
      refine ⟨hwhole, hroll.trans ?_⟩
      rw [show (m.withRoot ⟨path, true⟩).roll = m.roll from rfl, hfirst.roll]
      exact Roll.enterAll_front hfront _

end Lone

/-! ## No root waiting -/

section Settled

variable {κ : Type} {c d : Census κ}

/-- No root waits for its scan. -/
def Settled (c : Census κ) : Prop :=
  ∀ root ∈ c.finder.roots.toList, root.path ∈ c.finder.scanned

theorem settled_iff : c.Settled ↔ c.pending = [] := by
  simp [Settled, pending]

/-- The roots stay, and those that are scanned stay so. -/
structure Advances (c d : Census κ) : Prop where
  roots : d.finder.roots = c.finder.roots
  scanned : c.finder.scanned ⊆ d.finder.scanned

namespace Advances

variable {e : Census κ}

theorem of_finder (h : d.finder = c.finder) : Advances c d := by
  constructor <;> rw [h]
  exact List.Subset.refl _

theorem trans (h : Advances c d) (h' : Advances d e) : Advances c e :=
  ⟨h'.roots.trans h.roots, fun _ hp => h'.scanned (h.scanned hp)⟩

theorem settled (h : Advances c d) (hc : c.Settled) : d.Settled := by
  intro root hroot
  rw [h.roots] at hroot
  exact h.scanned (hc root hroot)

end Advances

variable [TypeCatalog κ]

theorem Step.advances (h : Step c d) : Advances c d := by
  cases h with
  | tell notices => exact .of_finder rfl
  | file file h =>
    obtain ⟨registry, hfinder⟩ := parseInTurn_one_finder c file
    constructor <;> rw [hfinder]
    exact List.Subset.refl _
  | aside file h => exact .of_finder rfl
  | enroll found h =>
    obtain ⟨registry, hfinder⟩ := enroll_finder c found
    constructor <;> rw [hfinder]
    exact List.Subset.refl _
  | mark root =>
    refine ⟨rfl, fun path hpath => ?_⟩
    simp only [markScanned]
    split
    · exact hpath
    · exact List.mem_append_left _ hpath
  | setScanId => exact .of_finder rfl
  | clearScanId => exact .of_finder rfl

theorem Steps.advances (h : Steps c d) : Advances c d :=
  h.keeps (P := Advances c) (fun hstep hc => hc.trans hstep.advances) (.of_finder rfl)

/-- A root that is scanned to its end is marked. -/
theorem scanRoot_marks {root : Root} (h : c.scanRoot root = (.ok (), d)) :
    root.path ∈ d.finder.scanned := by
  simp only [scanRoot] at h
  split at h
  · cases h
  · split at h
    · cases h
    · cases h
      simp only [tell, markScanned]
      split
      · assumption
      · simp

theorem scanRoots_marks {roots : List Root} (h : c.scanRoots roots = (.ok (), d)) :
    ∀ root ∈ roots, root.path ∈ d.finder.scanned := by
  induction roots generalizing c with
  | nil => simp
  | cons root roots ih =>
    simp only [scanRoots] at h
    split at h
    · cases h
    · rename_i m hroot
      have hrest := (scanRoots_steps roots m).advances
      rw [h] at hrest
      intro root' hmem
      rcases List.mem_cons.1 hmem with rfl | hmem
      · exact hrest.scanned (scanRoot_marks hroot)
      · exact ih h root' hmem

theorem scanFiles_settles (h : c.scanFiles = (.ok (), d)) : d.Settled := by
  have hadvances := (scanFiles_steps c).advances
  rw [h] at hadvances
  -- a root is scanned already, or it waits and is scanned now
  have hpending : ∀ root ∈ c.pending, root.path ∈ d.finder.scanned := by
    unfold scanFiles at h
    split at h
    · rename_i hnone
      simp [hnone]
    · split at h
      · exact scanRoots_marks h
      · rcases hres : scanRoots { c with world := c.world.setScanId none } c.pending with ⟨r, m⟩
        rw [hres] at h
        cases h
        exact scanRoots_marks (d := m) hres
  intro root hroot
  rw [hadvances.roots] at hroot
  by_cases hdone : root.path ∈ c.finder.scanned
  · exact hadvances.scanned hdone
  · exact hpending root (List.mem_filter.2 ⟨hroot, by simpa using hdone⟩)

theorem scanFiles_of_settled (h : c.Settled) : c.scanFiles = (.ok (), c) := by
  simp only [scanFiles, settled_iff.1 h]

end Settled

end Census

/-! ## Turns between two scans -/

/-- What may come between two scans: an operation of the finder, or a change of the world by
others. -/
inductive Turn (κ : Type) where
  | operation (op : Operation)
  | elsewhere (change : World κ → World κ)

namespace Turn

variable {κ : Type}

def addsRoot : Turn κ → Bool
  | operation (.roots call) => call.root?.isSome
  | _ => false

def take [TypeCatalog κ] (c : Census κ) : Turn κ → Census κ
  | operation op => (c.operate op).2
  | elsewhere change => { c with world := change c.world }

end Turn

namespace Census

variable {κ : Type} [TypeCatalog κ]

theorem matching_advances (c : Census κ) : Advances c c.matching.2 := by
  have hscan := (scanFiles_steps c).advances
  simp only [matching, all]
  rcases hres : c.scanFiles with ⟨e | _, d⟩
  · rw [hres] at hscan
    exact hscan
  · rw [hres] at hscan
    exact hscan.trans (.of_finder rfl)

theorem operate_matching (c : Census κ) : (c.operate .matching).2 = c.matching.2 := by
  simp only [operate]
  rcases c.matching with ⟨e | found, d⟩ <;> rfl

theorem requireAttributes_advances (c : Census κ) (types : List TypeArg) (requireAll : Bool) :
    Advances c (c.requireAttributes types requireAll).2 := by
  simp only [requireAttributes]
  rcases c.finder.filter.require c.finder.settings.namespaceSeparator c.world types requireAll with
    ⟨e | filter, w⟩
  · exact .of_finder rfl
  · exact ⟨rfl, List.Subset.refl _⟩

theorem take_advances (c : Census κ) {turn : Turn κ} (h : turn.addsRoot = false) :
    Advances c (turn.take c) := by
  cases turn with
  | elsewhere change => exact .of_finder rfl
  | operation op =>
    cases op with
    | roots call =>
      have hcall : call.root? = none := by simpa [Turn.addsRoot] using h
      simp only [Turn.take, operate, perform_of_root?_eq_none hcall]
      exact (scanFiles_steps c).advances
    | requireAttributes types requireAll => exact requireAttributes_advances c types requireAll
    | parseFiles files => exact (parse_steps c ⟨files, none⟩).advances
    | matching =>
      rw [Turn.take, operate_matching]
      exact matching_advances c

theorem settled_turns {c : Census κ} (hc : c.Settled) {turns : List (Turn κ)}
    (h : ∀ turn ∈ turns, turn.addsRoot = false) : (turns.foldl Turn.take c).Settled := by
  induction turns generalizing c with
  | nil => exact hc
  | cons turn turns ih =>
    have hfirst := take_advances c (h turn (by simp))
    exact ih (hfirst.settled hc) fun turn' hmem => h turn' (by simp [hmem])

/-- A root that is scanned without its subdirectories, then added again with them under any
spelling and scanned, leaves the registry of a new finder that adds it with them at once. And
after a scan that went well a further one does nothing, whatever has been done since without adding
a root, and whatever has become of the files. -/
theorem rescans_add_only_the_new :
    (∀ (settings : ScannerSettings) (w w' : World MemoryCatalog)
      (shallow deep once : Text × Option Bool) (path : Text) (final : Census MemoryCatalog),
      Roots.rootOf w.files settings.nonRecursiveMarker shallow = .ok ⟨path, false⟩ →
      Roots.rootOf w.files settings.nonRecursiveMarker deep = .ok ⟨path, true⟩ →
      Roots.rootOf w.files settings.nonRecursiveMarker once = .ok ⟨path, true⟩ →
      w'.files = w.files → w'.catalog.types = w.catalog.types →
      run ⟨Finder.new settings, w⟩ [.ofRoot shallow, .scanFiles, .ofRoot deep, .scanFiles] =
        (.ok (), final) →
      ∃ fresh, run ⟨Finder.new settings, w'⟩ [.ofRoot once, .scanFiles] = (.ok (), fresh) ∧
        final.finder.registry.findings = fresh.finder.registry.findings ∧
        (w'.ledger.next = w.ledger.next → final.finder.registry = fresh.finder.registry)) ∧
    ∀ (κ : Type) [TypeCatalog κ] (c d : Census κ), c.scanFiles = (.ok (), d) →
      ∀ turns : List (Turn κ), (∀ turn ∈ turns, turn.addsRoot = false) →
        (turns.foldl Turn.take d).scanFiles = (.ok (), turns.foldl Turn.take d) := by
  constructor
  · intro settings w w' shallow deep once path final hshallow hdeep honce hfiles htypes hrun
    obtain ⟨hcut, hfinal⟩ := scan_deeper hshallow hdeep hrun
    rw [← hfiles, ← htypes] at hcut hfinal
    rw [← hfiles] at honce
    obtain ⟨fresh, hfresh, hroll⟩ := scan_once honce hcut
    refine ⟨fresh, hfresh, ?_, fun hnext => ?_⟩
    · show final.roll.registry.findings = fresh.roll.registry.findings
      rw [hfinal, hroll]
      exact Roll.findings_enterAll rfl
    · rw [← hnext, ← hroll] at hfinal
      exact congrArg Roll.registry hfinal
  · intro κ _ c d hscan turns hturns
    exact scanFiles_of_settled (settled_turns (scanFiles_settles hscan) hturns)

/-- A class beside a subdirectory with a name before its own. -/
def deeperFiles : FileSystem :=
  ⟨.dir [("w".toList, .dir [("src".toList, .dir
    [("a".toList, .dir [("k.php".toList, .file (Text.utf8 "class K".toList))]),
      ("m.php".toList, .file (Text.utf8 "class M".toList))])])], [], ["w".toList], []⟩

def deeperWorld : World MemoryCatalog := .fresh deeperFiles ["K".toList, "M".toList]

/-- The root is marked for a scan without subdirectories, and spelled another way the second
time. -/
def deeperRun : Except Failure Unit × Census MemoryCatalog :=
  run ⟨Finder.new {}, deeperWorld⟩ [.ofRoot ("src^".toList, none), .scanFiles,
    .ofRoot ("./src".toList, none), .scanFiles]

/-- A new finder registers the same in a world where other records have been kept before. -/
theorem marked_root_rescanned_deep :
    deeperRun.2.finder.registry.findings.map (·.2.className) = ["M".toList, "K".toList] ∧
      ∃ fresh, run ⟨Finder.new {}, { deeperWorld with ledger := ⟨7, []⟩ }⟩
          [.ofRoot ("/w/src".toList, none), .scanFiles] = (.ok (), fresh) ∧
        deeperRun.2.finder.registry.findings = fresh.finder.registry.findings := by
  have hrun : deeperRun = (.ok (), deeperRun.2) := Listing.eq_of_isOk (by decide +kernel)
  have hrescan := rescans_add_only_the_new.1 {} deeperWorld
    { deeperWorld with ledger := ⟨7, []⟩ } ("src^".toList, none) ("./src".toList, none)
    ("/w/src".toList, none) "/w/src".toList deeperRun.2
  obtain ⟨fresh, hfresh, hsame, -⟩ := hrescan (by rfl) (by rfl) (by rfl) rfl rfl hrun
  exact ⟨by decide +kernel, fresh, hfresh, hsame⟩

end Census
end ClassCensus
