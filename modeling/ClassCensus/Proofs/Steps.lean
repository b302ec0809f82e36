import ClassCensus.Census
import Mathlib.Logic.Relation

/-!
# ClassCensus.Proofs.Steps

A scan taken apart into steps: telling something, scanning a file in turn, scanning a file aside,
registering what a side task has found, marking a root, and giving the scan its id.

`parse_steps` and `scanFiles_steps` say that whatever a scan leaves, by success or failure, is
reached by such steps. What every step keeps (`Steps.keeps`) is therefore kept by every scan.
-/

namespace ClassCensus
namespace Census

variable {κ : Type}

/-! ## What a step leaves of the finder -/

theorem enroll_finder (c : Census κ) (found : Option ClassFacts) :
    ∃ registry, (c.enroll found).2.finder = { c.finder with registry } := by
  cases found with
  | none => exact ⟨c.finder.registry, rfl⟩
  | some facts =>
    simp only [enroll]
    rcases c.finder.registry.enroll c.world facts with ⟨e | registry, w⟩
    · exact ⟨c.finder.registry, rfl⟩
    · exact ⟨registry, rfl⟩

variable [TypeCatalog κ]

theorem parseInTurn_cons (c : Census κ) (file : Text) (rest : List Text) :
    c.parseInTurn (file :: rest) =
      match c.parseInTurn [file] with
      | (.error e, d) => (.error e, d)
      | (.ok (), d) => d.parseInTurn rest := by
  simp only [parseInTurn]
  rcases c.world.ask (Scanner.scan c.world.files c.finder.settings · file) with ⟨e | found, w⟩
  · rfl
  · simp only
    rcases enroll { c with world := w } found with ⟨e | _, d⟩ <;> rfl

/-- What one file leaves is what the catalog leaves, or the registering of what was found. -/
theorem parseInTurn_one (c : Census κ) (file : Text) :
    (c.parseInTurn [file]).2 =
      match c.world.ask (Scanner.scan c.world.files c.finder.settings · file) with
      | (.error _, w) => { c with world := w }
      | (.ok found, w) => (enroll { c with world := w } found).2 := by
  simp only [parseInTurn]
  rcases c.world.ask (Scanner.scan c.world.files c.finder.settings · file) with ⟨e | found, w⟩
  · rfl
  · simp only
    rcases enroll { c with world := w } found with ⟨e | _, d⟩ <;> rfl

theorem parseInTurn_one_finder (c : Census κ) (file : Text) :
    ∃ registry, (c.parseInTurn [file]).2.finder = { c.finder with registry } := by
  rw [parseInTurn_one]
  rcases c.world.ask (Scanner.scan c.world.files c.finder.settings · file) with ⟨e | found, w⟩
  · exact ⟨c.finder.registry, rfl⟩
  · exact enroll_finder { c with world := w } found

/-! ## Steps -/

/-- A step of a scan. Files are scanned in turn by one worker and aside by several. -/
inductive Step : Census κ → Census κ → Prop where
  | tell (c : Census κ) (notices : List Notice) : Step c (c.tell notices)
  | file (c : Census κ) (file : Text) (h : c.finder.settings.isParallel = false) :
      Step c (c.parseInTurn [file]).2
  | aside (c : Census κ) (file : Text) (h : c.finder.settings.isParallel = true) :
      Step c { c with world := (scanAside c.finder.settings c.world [file]).2 }
  | enroll (c : Census κ) (found : Option ClassFacts) (h : c.finder.settings.isParallel = true) :
      Step c (c.enroll found).2
  | mark (c : Census κ) (root : Text) : Step c (c.markScanned root)
  | setScanId (c : Census κ) : Step c { c with world := c.world.setScanId none }
  | clearScanId (c : Census κ) : Step c { c with world := c.world.clearScanId }

abbrev Steps : Census κ → Census κ → Prop := Relation.ReflTransGen Step

/-- Of the finder a step changes no more than the registry and the marks. -/
theorem Step.finder {c d : Census κ} (h : Step c d) :
    ∃ registry scanned, d.finder = { c.finder with registry, scanned } := by
  cases h with
  | tell notices => exact ⟨_, _, rfl⟩
  | file file h =>
    obtain ⟨registry, hfinder⟩ := parseInTurn_one_finder c file
    exact ⟨registry, _, hfinder⟩
  | aside file h => exact ⟨_, _, rfl⟩
  | enroll found h =>
    obtain ⟨registry, hfinder⟩ := enroll_finder c found
    exact ⟨registry, _, hfinder⟩
  | mark root => exact ⟨_, _, rfl⟩
  | setScanId => exact ⟨_, _, rfl⟩
  | clearScanId => exact ⟨_, _, rfl⟩

theorem Step.settings {c d : Census κ} (h : Step c d) : d.finder.settings = c.finder.settings := by
  obtain ⟨registry, scanned, hfinder⟩ := h.finder
  rw [hfinder]

/-- What every step keeps is kept by any number of them. -/
theorem Steps.keeps {P : Census κ → Prop} (hstep : ∀ {c d}, Step c d → P c → P d)
    {c d : Census κ} (h : Steps c d) (hc : P c) : P d := by
  induction h with
  | refl => exact hc
  | tail _ hlast ih => exact hstep hlast ih

theorem Steps.filter {c d : Census κ} (h : Steps c d) : d.finder.filter = c.finder.filter := by
  refine h.keeps (P := fun d => d.finder.filter = c.finder.filter) (fun hstep hc => ?_) rfl
  obtain ⟨registry, scanned, hfinder⟩ := hstep.finder
  rw [hfinder, hc]

theorem parseInTurn_steps (files : List Text) (c : Census κ)
    (h : c.finder.settings.isParallel = false) : Steps c (c.parseInTurn files).2 := by
  induction files generalizing c with
  | nil => exact .refl
  | cons file files ih =>
    have hfirst := Step.file c file h
    rw [parseInTurn_cons]
    rcases hres : c.parseInTurn [file] with ⟨e | _, d⟩
    · rw [hres] at hfirst
      exact .single hfirst
    · rw [hres] at hfirst
      exact .head hfirst (ih d (by rw [hfirst.settings, h]))

theorem scanAside_steps (files : List Text) (c : Census κ)
    (h : c.finder.settings.isParallel = true) :
    Steps c { c with world := (scanAside c.finder.settings c.world files).2 } := by
  induction files generalizing c with
  | nil => exact .refl
  | cons file files ih =>
    have hfirst := Step.aside c file h
    exact .head hfirst (ih _ h)

theorem enrollAll_steps (answers : List (Except Failure (Option ClassFacts))) (c : Census κ)
    (h : c.finder.settings.isParallel = true) : Steps c (c.enrollAll answers).2 := by
  induction answers generalizing c with
  | nil => exact .refl
  | cons answer answers ih =>
    cases answer with
    | error e => exact .refl
    | ok found =>
      have hfirst := Step.enroll c found h
      simp only [enrollAll]
      rcases hres : c.enroll found with ⟨e | _, d⟩
      · rw [hres] at hfirst
        exact .single hfirst
      · rw [hres] at hfirst
        exact .head hfirst (ih d (by rw [hfirst.settings, h]))

theorem parse_steps (c : Census κ) (files : Listing Text) : Steps c (c.parse files).2 := by
  unfold parse
  cases hpar : c.finder.settings.isParallel with
  | true =>
    have haside := scanAside_steps files.items c hpar
    simp only [if_true]
    cases files.cut with
    | some e => exact haside
    | none => exact haside.trans (enrollAll_steps _ _ hpar)
  | false =>
    have hturn := parseInTurn_steps files.items c hpar
    simp only [Bool.false_eq_true, if_false]
    rcases hres : c.parseInTurn files.items with ⟨e | _, d⟩
    · rw [hres] at hturn
      exact hturn
    · rw [hres] at hturn
      cases files.cut <;> exact hturn

theorem scanRoot_steps (c : Census κ) (root : Root) : Steps c (c.scanRoot root).2 := by
  have hstart := Step.tell c [.scanStarted root.path root.recursive]
  simp only [scanRoot]
  cases Walk.enumerate (c.tell [.scanStarted root.path root.recursive]).world.files
      (c.tell [.scanStarted root.path root.recursive]).finder.settings root.recursive root.path with
  | error e => exact .single hstart
  | ok listed =>
    obtain ⟨notice, files⟩ := listed
    let told := (c.tell [.scanStarted root.path root.recursive]).tell [notice]
    have hparse : Steps c (told.parse files).2 :=
      .head hstart (.head (.tell _ [notice]) (parse_steps told files))
    simp only
    rcases hres : told.parse files with ⟨e | _, d⟩
    · rw [hres] at hparse
      exact hparse
    · rw [hres] at hparse
      exact (hparse.tail (.mark d root.path)).tail (.tell _ _)

theorem scanRoots_steps (roots : List Root) (c : Census κ) : Steps c (c.scanRoots roots).2 := by
  induction roots generalizing c with
  | nil => exact .refl
  | cons root roots ih =>
    have hroot := scanRoot_steps c root
    simp only [scanRoots]
    rcases hres : c.scanRoot root with ⟨e | _, d⟩
    · rw [hres] at hroot
      exact hroot
    · rw [hres] at hroot
      exact hroot.trans (ih d)

theorem scanFiles_steps (c : Census κ) : Steps c c.scanFiles.2 := by
  unfold scanFiles
  cases c.pending with
  | nil => exact .refl
  | cons root roots =>
    cases c.world.scanId with
    | some id => exact scanRoots_steps (root :: roots) c
    | none =>
      have hscan := scanRoots_steps (root :: roots) { c with world := c.world.setScanId none }
      exact (hscan.head (.setScanId c)).tail (.clearScanId _)

end Census
end ClassCensus
