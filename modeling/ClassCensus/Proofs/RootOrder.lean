import ClassCensus.Proofs.Calls
import ClassCensus.Proofs.Sources
import Mathlib.Data.Set.Function

/-!
# ClassCensus.Proofs.RootOrder

Roots added in any order, with scans in between. What each call keeps (`Keeps`): all that is
registered comes from roots of the family, and a root marked as scanned has everything registered
that its sources hold. After a last scan that goes well no root is left out, so the registry is
fixed by the roots and not by the order of the calls.
-/

namespace ClassCensus

/-- The roots that calls add. -/
def RootCall.added (fs : FileSystem) (marker : Text) (calls : List RootCall) : List Root :=
  calls.filterMap fun call => call.root?.bind fun raw => (Roots.rootOf fs marker raw).toOption

/-- The canonical paths of the sources of a family of roots. -/
def Grounds.sourcePaths (g : Grounds) (roots : List Root) : Set Text :=
  { path | ∃ root ∈ roots, ∃ f ∈ g.sources root, g.files.canonical f = .ok path }

/-- Whether fingerprints collide on the sources of a family can be computed. -/
theorem Grounds.injOn_sourcePaths {g : Grounds} {roots : List Root} (paths : List Text)
    (hpaths : ∀ root ∈ roots, ∀ f ∈ g.sources root, g.files.canonical? f ∈ paths.map some)
    (hprints : ∀ p ∈ paths, ∀ q ∈ paths, fingerprintOf p = fingerprintOf q → p = q) :
    Set.InjOn fingerprintOf (g.sourcePaths roots) := by
  have hmem : ∀ p ∈ g.sourcePaths roots, p ∈ paths := by
    rintro p ⟨root, hroot, f, hf, hcanonical⟩
    have hsome := hpaths root hroot f hf
    simp only [FileSystem.canonical] at hcanonical
    split at hcanonical
    · rename_i q hq
      cases hcanonical
      simpa [hq] using hsome
    · cases hcanonical
  intro p hp q hq h
  exact hprints p (hmem p hp) q (hmem q hq) h

namespace Roots

theorem mem_toList {roots : Roots} {root : Root} :
    root ∈ roots.toList ↔ (root.path, root.recursive) ∈ roots := by
  simp only [toList, List.mem_map, Prod.exists]
  constructor
  · rintro ⟨path, recursive, hmem, rfl⟩
    exact hmem
  · intro hmem
    exact ⟨root.path, root.recursive, hmem, rfl⟩

/-- The path of a root is canonical, so it has no backslash. -/
theorem not_mem_rootOf {fs : FileSystem} {marker : Text} {raw : Text × Option Bool} {root : Root}
    (h : rootOf fs marker raw = .ok root) : '\\' ∉ root.path := by
  unfold rootOf at h
  split at h
  · cases h
  · rename_i key hkey
    cases h
    simp only [FileSystem.canonical, FileSystem.canonical?] at hkey
    cases hreal : fs.realPath? (Spelling.slashed (unmark marker raw.1).1) with
    | none => simp [hreal] at hkey
    | some path =>
      simp only [hreal, Option.map_some, Except.ok.injEq] at hkey
      rw [← hkey]
      exact Spelling.not_mem_slashed path

end Roots

namespace Census

/-- A finder on the grounds `g` that knows roots of the family `roots` only. What it has registered
comes from roots of the family that are scanned to their end, and its scanned roots have all they
hold registered. -/
structure Keeps (g : Grounds) (roots : List Root) (c : Census MemoryCatalog) : Prop where
  grounds : c.grounds = g
  known : ∀ root ∈ c.finder.roots.toList, root ∈ roots
  once : (Table.keys c.finder.roots).Nodup
  distinct : (Table.keys c.finder.registry).Nodup
  sound : ∀ x ∈ c.finder.registry.findings, ∃ root ∈ roots,
    (g.rootYield root).cut = none ∧ x ∈ (g.rootYield root).items
  scanned : ∀ root ∈ c.finder.roots.toList, root.path ∈ c.finder.scanned →
    (g.rootYield root).cut = none ∧
      ∀ x ∈ (g.rootYield root).items, x.1 ∈ Table.keys c.finder.registry

namespace Keeps

variable {g : Grounds} {roots : List Root} {c d : Census MemoryCatalog}

theorem fresh {settings : ScannerSettings} {w : World MemoryCatalog}
    (hg : Census.grounds ⟨Finder.new settings, w⟩ = g) : Keeps g roots ⟨Finder.new settings, w⟩ where
  grounds := hg
  known := by simp [Finder.new, Roots.toList]
  once := List.nodup_nil
  distinct := List.nodup_nil
  sound := by simp [Finder.new, Registry.findings]
  scanned := by simp [Finder.new, Roots.toList]

/-- One root more. -/
theorem withRoot (h : Keeps g roots c) {root : Root} (hroot : root ∈ roots) :
    Keeps g roots (c.withRoot root) := by
  have hmem : ∀ other ∈ (c.withRoot root).finder.roots.toList,
      other = root ∨ other.path ≠ root.path ∧ other ∈ c.finder.roots.toList := by
    intro other hother
    rcases (Table.mem_put h.once).1 (Roots.mem_toList.1 hother) with ⟨hpath, hrec⟩ | ⟨hne, hold⟩
    · obtain ⟨path, recursive⟩ := other
      obtain ⟨path', recursive'⟩ := root
      obtain rfl : path = path' := hpath
      obtain rfl : recursive = recursive' := hrec
      exact .inl rfl
    · exact .inr ⟨hne, Roots.mem_toList.2 hold⟩
  constructor
  · exact h.grounds
  · intro other hother
    rcases hmem other hother with rfl | ⟨-, hold⟩
    · exact hroot
    · exact h.known other hold
  · exact Table.nodup_put h.once _ _
  · exact h.distinct
  · exact h.sound
  · intro other hother hscanned
    obtain ⟨hold, hne⟩ := List.mem_filter.1 hscanned
    rcases hmem other hother with rfl | ⟨-, hother⟩
    · simp at hne
    · exact h.scanned other hother hold

/-- A root stays known when another one is added, or the same one again. -/
theorem mem_withRoot (h : Keeps g roots c) (hpaths : (roots.map Root.path).Nodup) {root : Root}
    (hroot : root ∈ roots) {other : Root} (hother : other ∈ c.finder.roots.toList ∨ other = root) :
    other ∈ (c.withRoot root).finder.roots.toList := by
  rw [Roots.mem_toList]
  refine (Table.mem_put h.once).2 ?_
  rcases hother with hother | rfl
  · by_cases hpath : other.path = root.path
    · have heq := List.inj_on_of_nodup_map hpaths (h.known other hother) hroot hpath
      exact .inl ⟨hpath, by rw [heq]⟩
    · exact .inr ⟨hpath, Roots.mem_toList.1 hother⟩
  · exact .inl ⟨rfl, rfl⟩

/-- A scan that goes well leaves no root that is not scanned. -/
theorem scan (h : Keeps g roots c) (hpaths : (roots.map Root.path).Nodup)
    (hscan : c.scanFiles = (.ok (), d)) :
    Keeps g roots d ∧ d.finder.roots = c.finder.roots ∧
      ∀ root ∈ d.finder.roots.toList, root.path ∈ d.finder.scanned := by
  have hreaps := scanFiles_reaps c
  rw [hscan, h.grounds] at hreaps
  have hcut := hreaps.cut_eq_none
  have hdone : g.completed c.pending = c.pending := Grounds.completed_eq_self hcut
  have hpending : ∀ root, root ∈ c.pending ↔
      root ∈ c.finder.roots.toList ∧ root.path ∉ c.finder.scanned := by
    intro root
    simp [pending]
  have hscanned : ∀ path, path ∈ d.finder.scanned ↔
      path ∈ c.finder.scanned ∨ ∃ root ∈ c.pending, root.path = path := by
    intro path
    rw [hreaps.scanned, hdone]
    exact mem_foldl_marked
  have hreg : d.finder.registry = (c.roll.enterAll (g.rootsYield c.pending).items).registry :=
    congrArg Roll.registry hreaps.roll
  have hwhole := Grounds.rootsYield_cut_eq_none.1 hcut
  have hitems : ∀ x, x ∈ (g.rootsYield c.pending).items ↔
      ∃ root ∈ c.pending, x ∈ (g.rootYield root).items := by
    intro x
    rw [Grounds.rootsYield, Listing.mem_concat hcut]
    simp
  refine ⟨⟨?_, ?_, ?_, ?_, ?_, ?_⟩, hreaps.roots, ?_⟩
  · exact hreaps.grounds.trans h.grounds
  · intro root hroot
    rw [hreaps.roots] at hroot
    exact h.known root hroot
  · rw [hreaps.roots]
    exact h.once
  · rw [hreg]
    exact Roll.nodup_enterAll h.distinct _
  · intro x hx
    obtain ⟨e, he, rfl⟩ := List.mem_map.1 hx
    rw [hreg] at he
    rcases Roll.mem_enterAll he with he | he
    · exact h.sound _ (List.mem_map.2 ⟨e, he, rfl⟩)
    · obtain ⟨root, hroot, hmem⟩ := (hitems _).1 he
      exact ⟨root, h.known root ((hpending root).1 hroot).1, hwhole root hroot, hmem⟩
  · intro root hroot hmark
    rw [hreaps.roots] at hroot
    rw [hreg]
    rcases (hscanned root.path).1 hmark with hold | ⟨other, hother, hpath⟩
    · obtain ⟨hcut', hkeys⟩ := h.scanned root hroot hold
      exact ⟨hcut', fun x hx => Roll.mem_keys_enterAll.2 (.inl (hkeys x hx))⟩
    · obtain rfl := List.inj_on_of_nodup_map hpaths
        (h.known other ((hpending other).1 hother).1) (h.known root hroot) hpath
      refine ⟨hwhole other hother, fun x hx => Roll.mem_keys_enterAll.2 (.inr ⟨x, ?_, rfl⟩)⟩
      exact (hitems x).2 ⟨other, hother, hx⟩
  · intro root hroot
    rw [hreaps.roots] at hroot
    rw [hscanned]
    by_cases hold : root.path ∈ c.finder.scanned
    · exact .inl hold
    · exact .inr ⟨root, (hpending root).2 ⟨hroot, hold⟩, rfl⟩

theorem run (h : Keeps g roots c) (hpaths : (roots.map Root.path).Nodup) {calls : List RootCall}
    (hadded : ∀ root ∈ RootCall.added g.files g.settings.nonRecursiveMarker calls, root ∈ roots)
    (hrun : c.run calls = (.ok (), d)) :
    Keeps g roots d ∧ ∀ root, root ∈ c.finder.roots.toList ∨
      root ∈ RootCall.added g.files g.settings.nonRecursiveMarker calls →
        root ∈ d.finder.roots.toList := by
  induction calls generalizing c with
  | nil =>
    cases hrun
    exact ⟨h, by simp [RootCall.added]⟩
  | cons call calls ih =>
    obtain ⟨m, hcall, hrest⟩ := run_cons_ok hrun
    cases hraw : call.root? with
    | none =>
      -- a call that scans
      have hadded' : RootCall.added g.files g.settings.nonRecursiveMarker (call :: calls) =
          RootCall.added g.files g.settings.nonRecursiveMarker calls := by
        simp [RootCall.added, hraw]
      rw [hadded'] at hadded ⊢
      rw [perform_of_root?_eq_none hraw] at hcall
      obtain ⟨hm, hroots, -⟩ := h.scan hpaths hcall
      rw [← hroots]
      exact ih hm hadded hrest
    | some raw =>
      -- a call that adds a root
      obtain ⟨path, recursive⟩ := raw
      obtain rfl : call = .add path recursive := by
        cases call <;> simp_all [RootCall.root?]
      have hgrounds : c.world.files = g.files ∧ c.finder.settings = g.settings := by
        rw [← h.grounds]
        exact ⟨rfl, rfl⟩
      have hperform := perform_add c (path, recursive)
      rw [hcall, hgrounds.1, hgrounds.2] at hperform
      cases hrootOf : Roots.rootOf g.files g.settings.nonRecursiveMarker (path, recursive) with
      | error e => simp [hrootOf] at hperform
      | ok root =>
        simp only [hrootOf, Prod.mk.injEq, true_and] at hperform
        subst hperform
        have hadded' : RootCall.added g.files g.settings.nonRecursiveMarker
            (.add path recursive :: calls) =
              root :: RootCall.added g.files g.settings.nonRecursiveMarker calls := by
          simp [RootCall.added, hraw, hrootOf, Except.toOption]
        rw [hadded'] at hadded ⊢
        have hroot := hadded root (by simp)
        obtain ⟨hd, hkept⟩ := ih (h.withRoot hroot) (fun r hr => hadded r (by simp [hr])) hrest
        refine ⟨hd, fun other hother => hkept other ?_⟩
        rcases hother with hother | hother
        · exact .inl (h.mem_withRoot hpaths hroot (.inl hother))
        · rcases List.mem_cons.1 hother with rfl | hother
          · exact .inl (h.mem_withRoot hpaths hroot (.inr rfl))
          · exact .inr hother

end Keeps

/-- All roots of the family have been scanned to their end and have all they hold registered. -/
structure Complete (g : Grounds) (roots : List Root) (d : Census MemoryCatalog) : Prop where
  keeps : Keeps g roots d
  whole : ∀ root ∈ roots, (g.rootYield root).cut = none
  held : ∀ root ∈ roots, ∀ x ∈ (g.rootYield root).items, x.1 ∈ Table.keys d.finder.registry

theorem complete_of_run {g : Grounds} {roots : List Root} {c d : Census MemoryCatalog}
    {calls : List RootCall} {last : RootCall} (h : Keeps g roots c)
    (hpaths : (roots.map Root.path).Nodup)
    (hadded : ∀ root, root ∈ RootCall.added g.files g.settings.nonRecursiveMarker calls ↔
      root ∈ roots)
    (hlast : last.root? = none) (hrun : c.run (calls ++ [last]) = (.ok (), d)) :
    Complete g roots d := by
  obtain ⟨m, hm, hd⟩ := run_append_ok hrun
  obtain ⟨hkeeps, hknown⟩ := h.run hpaths (fun root => (hadded root).1) hm
  rw [perform_of_root?_eq_none hlast] at hd
  obtain ⟨hkeeps', hroots, hscanned⟩ := hkeeps.scan hpaths hd
  have hall : ∀ root ∈ roots, root ∈ d.finder.roots.toList := by
    intro root hroot
    rw [hroots]
    exact hknown root (.inr ((hadded root).2 hroot))
  exact ⟨hkeeps',
    fun root hroot => (hkeeps'.scanned root (hall root hroot) (hscanned root (hall root hroot))).1,
    fun root hroot => (hkeeps'.scanned root (hall root hroot) (hscanned root (hall root hroot))).2⟩

namespace Complete

variable {g : Grounds} {roots : List Root} {d : Census MemoryCatalog} (h : Complete g roots d)
  (hnames : g.files.tree.wellNamed = true) (hplain : g.files.tree.noBackslash = true)
  (hback : ∀ root ∈ roots, '\\' ∉ root.path)

include h hnames hplain

/-- A source that declares a class is registered under the fingerprint of its place. -/
theorem mem_keys_of_source {root : Root} (hroot : root ∈ roots) {f : Text}
    (hf : f ∈ g.sources root) (hdeclares : g.Declares f) {loc : Location}
    (hsource : Walk.IsSource g.files f loc) :
    fingerprintOf (FileSystem.pathOf loc) ∈ Table.keys d.finder.registry := by
  have hcut := h.whole root hroot
  obtain ⟨facts, hmem⟩ := (Grounds.exists_mem_finding hnames hplain hsource
    (Grounds.finding_whole hcut hf)).2 hdeclares
  exact h.held root hroot _ ((Grounds.mem_rootYield hcut).2 ⟨f, hf, hmem⟩)

include hback

/-- A record stems from a source of the family, and its file is the path of that source's place. -/
theorem exists_source {x : Finding} (hx : x ∈ d.finder.registry.findings) :
    ∃ root ∈ roots, ∃ f ∈ g.sources root, ∃ loc, Walk.IsSource g.files f loc ∧
      g.found f = .ok (some x.2) ∧ x.2.file = FileSystem.pathOf loc ∧
      g.files.fingerprint f = .ok x.1 := by
  obtain ⟨root, hroot, hcut, hmem⟩ := h.keeps.sound x hx
  obtain ⟨f, hf, hmem⟩ := (Grounds.mem_rootYield hcut).1 hmem
  obtain ⟨loc, hsource⟩ := Grounds.isSource_of_mem_sources hnames hplain (hback root hroot) hf
  obtain ⟨hfound, hkey⟩ := (Grounds.mem_finding hnames hplain hsource).1 hmem
  have hfile := (Grounds.found_some hfound).2.symm.trans (hsource.canonical hnames hplain)
  exact ⟨root, hroot, f, hf, loc, hsource, hfound, Except.ok.inj hfile, hkey⟩

theorem mem_keys (key : Text) :
    key ∈ Table.keys d.finder.registry ↔ ∃ root ∈ roots, ∃ f ∈ g.sources root,
      g.Declares f ∧ g.files.fingerprint f = .ok key := by
  constructor
  · intro hkey
    obtain ⟨e, he, rfl⟩ := List.mem_map.1 hkey
    obtain ⟨root, hroot, f, hf, loc, hsource, hfound, -, hprint⟩ :=
      h.exists_source hnames hplain hback (List.mem_map.2 ⟨e, he, rfl⟩)
    exact ⟨root, hroot, f, hf, (Grounds.found_some hfound).1, hprint⟩
  · rintro ⟨root, hroot, f, hf, hdeclares, hprint⟩
    obtain ⟨loc, hsource⟩ := Grounds.isSource_of_mem_sources hnames hplain (hback root hroot) hf
    rw [hsource.eq_of_fingerprint hnames hplain hprint]
    exact h.mem_keys_of_source hnames hplain hroot hf hdeclares hsource

/-- Where fingerprints do not collide, what is registered is exactly what the roots hold. -/
theorem mem_findings (hprints : Set.InjOn fingerprintOf (g.sourcePaths roots)) (x : Finding) :
    x ∈ d.finder.registry.findings ↔ ∃ root ∈ roots, x ∈ (g.rootYield root).items := by
  constructor
  · intro hx
    obtain ⟨root, hroot, -, hmem⟩ := h.keeps.sound x hx
    exact ⟨root, hroot, hmem⟩
  · rintro ⟨root, hroot, hmem⟩
    obtain ⟨f, hf, hfinding⟩ := (Grounds.mem_rootYield (h.whole root hroot)).1 hmem
    obtain ⟨loc, hsource⟩ := Grounds.isSource_of_mem_sources hnames hplain (hback root hroot) hf
    obtain ⟨hfound, hprint⟩ := (Grounds.mem_finding hnames hplain hsource).1 hfinding
    have hkey := hsource.eq_of_fingerprint hnames hplain hprint
    -- the record under the same key is of the same place
    obtain ⟨e, he, hek⟩ := List.mem_map.1 (h.held root hroot x hmem)
    have hentry : (e.1, e.2.facts) ∈ d.finder.registry.findings := List.mem_map.2 ⟨e, he, rfl⟩
    obtain ⟨root', hroot', f', hf', loc', hsource', hfound', -, hprint'⟩ :=
      h.exists_source hnames hplain hback hentry
    have hkey' := hsource'.eq_of_fingerprint hnames hplain hprint'
    have hsame : FileSystem.pathOf loc = FileSystem.pathOf loc' :=
      hprints ⟨root, hroot, f, hf, hsource.canonical hnames hplain⟩
        ⟨root', hroot', f', hf', hsource'.canonical hnames hplain⟩
        (by rw [← hkey, ← hkey', hek])
    have hcanonical : g.files.canonical f = g.files.canonical f' := by
      rw [hsource.canonical hnames hplain, hsource'.canonical hnames hplain, hsame]
    have hfacts : x.2 = e.2.facts := by
      have := hfound.symm.trans ((Grounds.found_congr hcanonical).trans hfound')
      simpa using this
    rw [show x = (e.1, e.2.facts) from Prod.ext hek.symm hfacts]
    exact hentry

/-- A file that declares a class is registered once, by whatever roots and links it is reached. -/
theorem countP_place (hprints : Set.InjOn fingerprintOf (g.sourcePaths roots)) {root : Root}
    (hroot : root ∈ roots) {f : Text} (hf : f ∈ g.sources root) (hdeclares : g.Declares f) :
    ∃ loc, g.files.locate true f = .ok loc ∧
      d.finder.registry.countP (fun e => g.files.locate true e.2.facts.file = .ok loc) = 1 := by
  obtain ⟨loc, hsource⟩ := Grounds.isSource_of_mem_sources hnames hplain (hback root hroot) hf
  refine ⟨loc, hsource.leads, ?_⟩
  -- the key of an entry is the fingerprint of the place its file leads to
  have hplace : ∀ e ∈ d.finder.registry, ∃ place,
      FileSystem.pathOf place ∈ g.sourcePaths roots ∧
      g.files.locate true e.2.facts.file = .ok place ∧
      e.1 = fingerprintOf (FileSystem.pathOf place) := by
    intro e he
    obtain ⟨root', hroot', f', hf', place, hsource', -, hfile, hprint⟩ :=
      h.exists_source hnames hplain hback (List.mem_map.2 ⟨e, he, rfl⟩)
    refine ⟨place, ⟨root', hroot', f', hf', hsource'.canonical hnames hplain⟩, ?_,
      hsource'.eq_of_fingerprint hnames hplain hprint⟩
    rw [hfile]
    exact (hsource'.pathOf hnames hplain).leads
  obtain ⟨e, he, hkey⟩ := List.mem_map.1 (h.mem_keys_of_source hnames hplain hroot hf hdeclares hsource)
  refine Table.countP_eq_one h.keeps.distinct he ?_ ?_
  · obtain ⟨place, hmem, hlocate, hprint⟩ := hplace e he
    have hsame : FileSystem.pathOf place = FileSystem.pathOf loc :=
      hprints hmem ⟨root, hroot, f, hf, hsource.canonical hnames hplain⟩ (hprint.symm.trans hkey)
    have hback' := (hsource.pathOf hnames hplain).leads
    have hfile : g.files.locate true (FileSystem.pathOf place) = .ok place :=
      FileSystem.locate_pathOf hnames hlocate
    rw [hsame, hback'] at hfile
    cases hfile
    simpa using hlocate
  · intro e' he' hlocate'
    obtain ⟨place, -, hlocate, hprint⟩ := hplace e' he'
    cases hlocate.symm.trans (by simpa using hlocate')
    rw [hprint]
    exact hkey.symm

end Complete

/-- A key has the facts that are registered under it. -/
theorem get?_facts_eq_some {r : Registry} (hn : (Table.keys r).Nodup) {key : Text}
    {facts : ClassFacts} :
    (Table.get? r key).map Record.facts = some facts ↔ (key, facts) ∈ r.findings := by
  simp only [Option.map_eq_some_iff, Table.get?_eq_some_iff hn, Registry.findings, List.mem_map]
  constructor
  · rintro ⟨record, hmem, rfl⟩
    exact ⟨_, hmem, rfl⟩
  · rintro ⟨⟨key', record⟩, hmem, heq⟩
    cases heq
    exact ⟨record, hmem, rfl⟩

/-- Two fresh finders are given the same roots, each in its own order and spelling, with scans in
between and a scan at the end. If all calls go well, both register the same classes under the same
keys: those of the sources of the roots that declare a defined class, each file once. -/
theorem roots_in_any_order {g : Grounds} {roots : List Root}
    (hnames : g.files.tree.wellNamed = true) (hplain : g.files.tree.noBackslash = true)
    (hpaths : (roots.map Root.path).Nodup)
    (hprints : Set.InjOn fingerprintOf (g.sourcePaths roots))
    {w w' : World MemoryCatalog} (hw : w.files = g.files ∧ w.catalog.types = g.types)
    (hw' : w'.files = g.files ∧ w'.catalog.types = g.types)
    {calls calls' : List RootCall} {last last' : RootCall} {d d' : Census MemoryCatalog}
    (hadded : ∀ root, root ∈ RootCall.added g.files g.settings.nonRecursiveMarker calls ↔
      root ∈ roots)
    (hadded' : ∀ root, root ∈ RootCall.added g.files g.settings.nonRecursiveMarker calls' ↔
      root ∈ roots)
    (hlast : last.root? = none) (hlast' : last'.root? = none)
    (hrun : run ⟨Finder.new g.settings, w⟩ (calls ++ [last]) = (.ok (), d))
    (hrun' : run ⟨Finder.new g.settings, w'⟩ (calls' ++ [last']) = (.ok (), d')) :
    (∀ key, (Table.get? d.finder.registry key).map Record.facts =
      (Table.get? d'.finder.registry key).map Record.facts) ∧
    (∀ key, key ∈ Table.keys d.finder.registry ↔ ∃ root ∈ roots, ∃ f ∈ g.sources root,
      g.Declares f ∧ g.files.fingerprint f = .ok key) ∧
    ∀ root ∈ roots, ∀ f ∈ g.sources root, g.Declares f → ∃ loc, g.files.locate true f = .ok loc ∧
      d.finder.registry.countP (fun e => g.files.locate true e.2.facts.file = .ok loc) = 1 := by
  have hgrounds : ∀ {v : World MemoryCatalog}, v.files = g.files ∧ v.catalog.types = g.types →
      grounds ⟨Finder.new g.settings, v⟩ = g := by
    rintro v ⟨hfiles, htypes⟩
    simp [grounds, Finder.new, hfiles, htypes]
  have hcomplete : Complete g roots d :=
    complete_of_run (.fresh (hgrounds hw)) hpaths hadded hlast hrun
  have hcomplete' : Complete g roots d' :=
    complete_of_run (.fresh (hgrounds hw')) hpaths hadded' hlast' hrun'
  have hback : ∀ root ∈ roots, '\\' ∉ root.path := by
    intro root hroot
    obtain ⟨call, -, hcall⟩ := List.mem_filterMap.1 ((hadded root).2 hroot)
    obtain ⟨raw, -, hraw⟩ := Option.bind_eq_some_iff.1 hcall
    cases hrootOf : Roots.rootOf g.files g.settings.nonRecursiveMarker raw with
    | error e => simp [hrootOf, Except.toOption] at hraw
    | ok root' =>
      simp only [hrootOf, Except.toOption, Option.some.injEq] at hraw
      exact hraw ▸ Roots.not_mem_rootOf hrootOf
  refine ⟨fun key => ?_, hcomplete.mem_keys hnames hplain hback, fun root hroot f hf hdeclares =>
    hcomplete.countP_place hnames hplain hback hprints hroot hf hdeclares⟩
  refine Option.ext fun facts => ?_
  rw [get?_facts_eq_some hcomplete.keeps.distinct, get?_facts_eq_some hcomplete'.keeps.distinct,
    hcomplete.mem_findings hnames hplain hback hprints,
    hcomplete'.mem_findings hnames hplain hback hprints]

/-- A directory in another one, a link to a file in it, and a link to it. -/
def linkedTree : Tree :=
  .dir [("lib".toList, .link "src/sub".toList),
    ("src".toList, .dir
      [("A.php".toList, .file (Text.utf8 "class A".toList)),
        ("Also.php".toList, .link "sub/B.php".toList),
        ("sub".toList, .dir [("B.php".toList, .file (Text.utf8 "class B".toList))])])]

def linkedWorld : World MemoryCatalog := .fresh ⟨linkedTree, [], [], []⟩ ["A".toList, "B".toList]

def linkedGrounds : Grounds := grounds ⟨Finder.new {}, linkedWorld⟩

def linkedRoots : List Root := [⟨"/src".toList, true⟩, ⟨"/src/sub".toList, false⟩]

/-- The outer root, a scan, and the inner root by way of its link. -/
def outerFirst : List RootCall :=
  [.add "src".toList none, .count, .add "lib".toList (some false)]

/-- The inner root, a scan, and the outer root. -/
def innerFirst : List RootCall :=
  [.add "/src/sub".toList (some false), .scanFiles, .add "src/".toList none]

/-- The order of the records differs, but not what they say, and `B` has one record for the three
ways that lead to it. -/
theorem linked_roots_in_any_order :
    ∃ d d', run ⟨Finder.new {}, linkedWorld⟩ (outerFirst ++ [.all]) = (.ok (), d) ∧
      run ⟨Finder.new {}, linkedWorld⟩ (innerFirst ++ [.scanFiles]) = (.ok (), d') ∧
      d.finder.registry.findings.map (·.2.className) = ["A".toList, "B".toList] ∧
      d'.finder.registry.findings.map (·.2.className) = ["B".toList, "A".toList] ∧
      ∀ key, (Table.get? d.finder.registry key).map Record.facts =
        (Table.get? d'.finder.registry key).map Record.facts := by
  have hrun : run ⟨Finder.new {}, linkedWorld⟩ (outerFirst ++ [.all]) =
      (.ok (), (run ⟨Finder.new {}, linkedWorld⟩ (outerFirst ++ [.all])).2) :=
    Listing.eq_of_isOk (by decide +kernel)
  have hrun' : run ⟨Finder.new {}, linkedWorld⟩ (innerFirst ++ [.scanFiles]) =
      (.ok (), (run ⟨Finder.new {}, linkedWorld⟩ (innerFirst ++ [.scanFiles])).2) :=
    Listing.eq_of_isOk (by decide +kernel)
  have hadded : RootCall.added linkedGrounds.files linkedGrounds.settings.nonRecursiveMarker
      outerFirst = linkedRoots := by decide +kernel
  have hadded' : RootCall.added linkedGrounds.files linkedGrounds.settings.nonRecursiveMarker
      innerFirst = linkedRoots.reverse := by decide +kernel
  have hprints : Set.InjOn fingerprintOf (linkedGrounds.sourcePaths linkedRoots) :=
    Grounds.injOn_sourcePaths ["/src/A.php".toList, "/src/sub/B.php".toList]
      (by decide +kernel) (by decide +kernel)
  refine ⟨_, _, hrun, hrun', by decide +kernel, by decide +kernel, ?_⟩
  exact (roots_in_any_order (g := linkedGrounds) (by decide +kernel) (by decide +kernel)
    (by decide) hprints ⟨rfl, rfl⟩ ⟨rfl, rfl⟩ (fun root => by rw [hadded])
    (fun root => by rw [hadded', List.mem_reverse]) rfl rfl hrun hrun').1

end Census
end ClassCensus
