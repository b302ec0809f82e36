import ClassCensus.Proofs.Findings
import Mathlib.Logic.Relation

/-!
# ClassCensus.Proofs.Header

The header of a file as a whole. `HeaderOf stops lines h` says what the header of some lines is
without reading them in turn: the first line that declares a class or stops ends it, and the first
namespace line before that names its namespace. Reading comes to that header (`header_eq_iff`).

So a file may be edited behind the line that ends its header, and lines that say nothing may come
and go (`Edit`), without any effect on the header (`header_edits`) or on a scan.
-/

namespace ClassCensus
namespace Source

/-- What a line of a file says, once it is in canonical form. -/
def readRaw (stops : List Text) (raw : Text) : Reading := read stops (normalize raw)

/-- Whether a reading ends the header. -/
def Reading.isFinal : Reading → Bool
  | .declares _ => true
  | .stops => true
  | _ => false

/-- `raw` is the first of the lines that `p` holds of, with `front` before it and `rest` behind. -/
structure First (p : Text → Prop) (lines front : List Text) (raw : Text) (rest : List Text) :
    Prop where
  split : lines = front ++ raw :: rest
  before : ∀ x ∈ front, ¬ p x
  here : p raw

/-- The line ends the header. -/
def Ends (stops : List Text) (raw : Text) : Prop := (readRaw stops raw).isFinal = true

/-- The line names a namespace, maybe an empty one. -/
def Spaces (stops : List Text) (raw : Text) : Prop := ∃ v, readRaw stops raw = .namespaced v

/-- The namespace that the first namespace line of some lines names; none if there is no such
line. -/
inductive SpaceOf (stops lines : List Text) : Option Text → Prop
  | absent (h : ∀ raw ∈ lines, ¬ Spaces stops raw) : SpaceOf stops lines none
  | named {front rest : List Text} {raw v : Text}
      (hfirst : First (Spaces stops) lines front raw rest)
      (hread : readRaw stops raw = .namespaced v) : SpaceOf stops lines (some v)

/-- The header of some lines. -/
inductive HeaderOf (stops lines : List Text) : Header → Prop
  | declared {front rest : List Text} {raw n : Text} {space : Option Text}
      (hfirst : First (Ends stops) lines front raw rest) (hread : readRaw stops raw = .declares n)
      (hspace : SpaceOf stops front space) : HeaderOf stops lines ⟨space, some n⟩
  | stopped {front rest : List Text} {raw : Text} {space : Option Text}
      (hfirst : First (Ends stops) lines front raw rest) (hread : readRaw stops raw = .stops)
      (hspace : SpaceOf stops front space) : HeaderOf stops lines ⟨space, none⟩
  | exhausted {space : Option Text} (hnone : ∀ raw ∈ lines, ¬ Ends stops raw)
      (hspace : SpaceOf stops lines space) : HeaderOf stops lines ⟨space, none⟩

variable {stops front lines : List Text} {raw n v : Text}

/-! ## Reading line by line -/

/-- A namespace found before stays; it has no part in what is found later. -/
theorem headerFrom_eq (found : Option Text) (lines : List Text) :
    headerFrom stops found lines =
      ⟨found.or (header stops lines).namespaced, (header stops lines).basename⟩ := by
  induction lines generalizing found with
  | nil => simp [header, headerFrom]
  | cons raw rest ih =>
    unfold header
    simp only [headerFrom]
    cases read stops (normalize raw) with
    | nothing => exact ih found
    | declares n => simp
    | stops => simp
    | namespaced v =>
      simp only
      rw [ih (found.or (some v)), ih (Option.or none (some v))]
      simp

theorem header_cons (raw : Text) (rest : List Text) :
    header stops (raw :: rest) =
      match readRaw stops raw with
      | .nothing => header stops rest
      | .namespaced v => ⟨some v, (header stops rest).basename⟩
      | .declares n => ⟨none, some n⟩
      | .stops => ⟨none, none⟩ := by
  rw [header, headerFrom, readRaw]
  cases read stops (normalize raw) with
  | nothing => rfl
  | declares n => rfl
  | stops => rfl
  | namespaced v =>
    simp only
    rw [headerFrom_eq]
    simp

theorem Ends.cases (h : Ends stops raw) :
    (∃ n, readRaw stops raw = .declares n) ∨ readRaw stops raw = .stops := by
  unfold Ends at h
  cases hread : readRaw stops raw with
  | nothing => simp [hread, Reading.isFinal] at h
  | namespaced v => simp [hread, Reading.isFinal] at h
  | declares n => exact .inl ⟨n, rfl⟩
  | stops => exact .inr rfl

/-- The header of lines that do not end it is told by what comes behind them, except that their
own namespace goes first. -/
theorem header_append (hfront : ∀ x ∈ front, ¬ Ends stops x) (more : List Text) :
    header stops (front ++ more) =
      ⟨(header stops front).namespaced.or (header stops more).namespaced,
        (header stops more).basename⟩ := by
  induction front with
  | nil => simp [header, headerFrom]
  | cons raw front ih =>
    have hraw := hfront raw (by simp)
    have hrest := ih fun x hx => hfront x (by simp [hx])
    rw [List.cons_append, header_cons, header_cons]
    cases hread : readRaw stops raw with
    | nothing => exact hrest
    | namespaced v => simp [hrest]
    | declares n => exact absurd (by simp [Ends, hread, Reading.isFinal]) hraw
    | stops => exact absurd (by simp [Ends, hread, Reading.isFinal]) hraw

theorem basename_of_open (hfront : ∀ x ∈ front, ¬ Ends stops x) :
    (header stops front).basename = none := by
  have happend := header_append hfront []
  rw [List.append_nil] at happend
  rw [happend]
  rfl

/-! ## The namespace -/

theorem namespaced_of_absent (h : ∀ raw ∈ lines, ¬ Spaces stops raw) :
    (header stops lines).namespaced = none := by
  induction lines with
  | nil => rfl
  | cons raw rest ih =>
    have hraw := h raw (by simp)
    rw [header_cons]
    cases hread : readRaw stops raw with
    | nothing => exact ih fun x hx => h x (by simp [hx])
    | namespaced v => exact absurd ⟨v, hread⟩ hraw
    | declares n => rfl
    | stops => rfl

theorem SpaceOf.namespaced {space : Option Text} (hopen : ∀ x ∈ lines, ¬ Ends stops x)
    (h : SpaceOf stops lines space) : (header stops lines).namespaced = space := by
  cases h with
  | absent habsent => exact namespaced_of_absent habsent
  | @named front rest raw v hfirst hread =>
    obtain ⟨rfl, hbefore, -⟩ := hfirst
    rw [header_append fun x hx => hopen x (by simp [hx]), namespaced_of_absent hbefore, header_cons,
      hread]
    rfl

/-- Either no line has a property or one of them is the first to have it. -/
theorem none_or_first (p : Text → Prop) (lines : List Text) :
    (∀ x ∈ lines, ¬ p x) ∨ ∃ front raw rest, First p lines front raw rest := by
  classical
  cases hfind : lines.find? (fun x => decide (p x)) with
  | none =>
    left
    intro x hx
    simpa using List.find?_eq_none.1 hfind x hx
  | some raw =>
    obtain ⟨hraw, front, rest, hsplit, hbefore⟩ := List.find?_eq_some_iff_append.1 hfind
    refine .inr ⟨front, raw, rest, hsplit, fun x hx => ?_, by simpa using hraw⟩
    simpa using hbefore x hx

theorem exists_spaceOf (stops lines : List Text) : ∃ space, SpaceOf stops lines space := by
  rcases none_or_first (Spaces stops) lines with hnone | ⟨front, raw, rest, hfirst⟩
  · exact ⟨none, .absent hnone⟩
  · obtain ⟨v, hread⟩ := hfirst.here
    exact ⟨some v, .named hfirst hread⟩

/-! ## The header -/

theorem exists_headerOf (stops lines : List Text) : ∃ h, HeaderOf stops lines h := by
  rcases none_or_first (Ends stops) lines with hnone | ⟨front, raw, rest, hfirst⟩
  · obtain ⟨space, hspace⟩ := exists_spaceOf stops lines
    exact ⟨_, .exhausted hnone hspace⟩
  · obtain ⟨space, hspace⟩ := exists_spaceOf stops front
    rcases hfirst.here.cases with ⟨n, hread⟩ | hread
    · exact ⟨_, .declared hfirst hread hspace⟩
    · exact ⟨_, .stopped hfirst hread hspace⟩

theorem header_of_headerOf {h : Header} (hh : HeaderOf stops lines h) : header stops lines = h := by
  cases hh with
  | declared hfirst hread hspace =>
    obtain ⟨rfl, hbefore, -⟩ := hfirst
    rw [header_append hbefore, hspace.namespaced hbefore, header_cons, hread]
    simp
  | stopped hfirst hread hspace =>
    obtain ⟨rfl, hbefore, -⟩ := hfirst
    rw [header_append hbefore, hspace.namespaced hbefore, header_cons, hread]
    simp
  | exhausted hnone hspace =>
    rw [← hspace.namespaced hnone, ← basename_of_open hnone]

theorem header_eq_iff {h : Header} : header stops lines = h ↔ HeaderOf stops lines h := by
  constructor
  · rintro rfl
    obtain ⟨h, hh⟩ := exists_headerOf stops lines
    rw [header_of_headerOf hh]
    exact hh
  · exact header_of_headerOf

theorem basename_eq_some_iff :
    (header stops lines).basename = some n ↔
      ∃ front raw rest, First (Ends stops) lines front raw rest ∧ readRaw stops raw = .declares n := by
  have hheader := header_eq_iff.1 (Eq.refl (header stops lines))
  constructor
  · intro hname
    generalize header stops lines = h at hheader hname
    cases hheader with
    | declared hfirst hread _ =>
      cases hname
      exact ⟨_, _, _, hfirst, hread⟩
    | stopped _ _ _ => cases hname
    | exhausted _ _ => cases hname
  · rintro ⟨front, raw, rest, hfirst, hread⟩
    obtain ⟨space, hspace⟩ := exists_spaceOf stops front
    rw [header_of_headerOf (.declared hfirst hread hspace)]

/-! ## Edits without effect -/

/-- An edit that no scan can notice: other lines behind one that ends the header, or one more line
that says nothing. -/
inductive Edit (stops : List Text) : List Text → List Text → Prop
  | behind {front rest rest' : List Text} {raw : Text} (hraw : Ends stops raw) :
      Edit stops (front ++ raw :: rest) (front ++ raw :: rest')
  | insert {front rest : List Text} {raw : Text} (hraw : readRaw stops raw = .nothing) :
      Edit stops (front ++ rest) (front ++ raw :: rest)

/-- The lines in front read alike whatever follows, so that only what follows has to be
compared. -/
theorem header_congr {more more' : List Text} (h : header stops more = header stops more')
    (front : List Text) : header stops (front ++ more) = header stops (front ++ more') := by
  induction front with
  | nil => exact h
  | cons raw front ih =>
    rw [List.cons_append, List.cons_append, header_cons, header_cons, ih]

theorem header_edit {lines lines' : List Text} (h : Edit stops lines lines') :
    header stops lines = header stops lines' := by
  cases h with
  | @behind front rest rest' raw hraw =>
    apply header_congr
    rw [header_cons, header_cons]
    rcases hraw.cases with ⟨n, hread⟩ | hread
    · rw [hread]
    · rw [hread]
  | @insert front rest raw hraw =>
    apply header_congr
    rw [header_cons, hraw]

/-- Any number of such edits, made or undone. -/
theorem header_edits {lines lines' : List Text} (h : Relation.EqvGen (Edit stops) lines lines') :
    header stops lines = header stops lines' := by
  induction h with
  | rel _ _ hedit => exact header_edit hedit
  | refl _ => rfl
  | symm _ _ _ ih => exact ih.symm
  | trans _ _ _ _ _ ih ih' => exact ih.trans ih'

end Source

/-! ## Scans -/

namespace Scanner

variable {κ : Type} [TypeCatalog κ] {fs fs' : FileSystem} {settings : ScannerSettings}
  {file path : Text} {lines : List Text}

theorem headerOf_of_lines (hpath : fs.canonical file = .ok path)
    (hlines : readLines fs settings.encoding path = .ok lines) :
    headerOf fs settings file = .ok (path, Source.header settings.stopTokens lines) := by
  simp only [headerOf, hpath, readHeader, hlines]

/-- A file system matters to a scan by the header it gives. -/
theorem scan_congr (h : headerOf fs settings file = headerOf fs' settings file) (catalog : κ) :
    scan fs settings catalog file = scan fs' settings catalog file := by
  rw [scan, h, scan]

end Scanner

/-- The header of any lines is told by the first of them that declares a class or stops, and by the
first namespace line before it. So a scan comes to the same, whatever the catalog, for two files
that differ behind such a line, or by lines that say nothing. -/
theorem header_ends_with_first_final_line (settings : ScannerSettings) (lines : List Text) :
    (∀ h, Source.header settings.stopTokens lines = h ↔
      Source.HeaderOf settings.stopTokens lines h) ∧
    (∀ n, (Source.header settings.stopTokens lines).basename = some n ↔ ∃ front raw rest,
      Source.First (Source.Ends settings.stopTokens) lines front raw rest ∧
        Source.readRaw settings.stopTokens raw = .declares n) ∧
    ∀ (κ : Type) [TypeCatalog κ] (catalog : κ) (fs fs' : FileSystem) (file path : Text)
      (lines' : List Text), fs.canonical file = .ok path → fs'.canonical file = .ok path →
      Scanner.readLines fs settings.encoding path = .ok lines →
      Scanner.readLines fs' settings.encoding path = .ok lines' →
      Relation.EqvGen (Source.Edit settings.stopTokens) lines lines' →
      Scanner.scan fs settings catalog file = Scanner.scan fs' settings catalog file := by
  refine ⟨fun h => Source.header_eq_iff, fun n => Source.basename_eq_some_iff, ?_⟩
  intro κ _ catalog fs fs' file path lines' hpath hpath' hlines hlines' hedits
  apply Scanner.scan_congr
  rw [Scanner.headerOf_of_lines hpath hlines, Scanner.headerOf_of_lines hpath' hlines',
    Source.header_edits hedits]

/-- Lines with an empty namespace, which stays, and something behind the class. -/
def briefLines : List Text := ["namespace ;", "namespace B;", "final class A", "return"]

/-- The same with a comment, and something else behind the class. -/
def wordyLines : List Text :=
  ["namespace ;", "// namespace C", "namespace B;", "final class A", "class Z", "namespace D;"]

def fileOfLines (lines : List Text) : FileSystem :=
  ⟨.dir [("a.php".toList, .file (Text.utf8 (Text.join ['\n'] lines)))], [], [], []⟩

theorem wordy_lines_scan_as_brief_ones :
    Source.HeaderOf Source.defaultStops briefLines ⟨some [], some "A".toList⟩ ∧
      Relation.EqvGen (Source.Edit Source.defaultStops) briefLines wordyLines ∧
      Scanner.scan (fileOfLines briefLines) {} MemoryCatalog.empty "a.php".toList =
        Scanner.scan (fileOfLines wordyLines) {} MemoryCatalog.empty "a.php".toList := by
  have hcomment : Source.readRaw Source.defaultStops "// namespace C".toList = .nothing := by
    decide +kernel
  have hclass : Source.Ends Source.defaultStops "final class A".toList := by
    unfold Source.Ends
    decide +kernel
  let front : List Text := ["namespace ;"]
  have hinserted : Source.Edit Source.defaultStops (front ++ briefLines.tail)
      (front ++ "// namespace C".toList :: briefLines.tail) := .insert hcomment
  let front' : List Text := ["namespace ;", "// namespace C", "namespace B;"]
  have hreplaced : Source.Edit Source.defaultStops (front' ++ "final class A".toList :: ["return"])
      (front' ++ "final class A".toList :: ["class Z", "namespace D;"]) := .behind hclass
  have hedits : Relation.EqvGen (Source.Edit Source.defaultStops) briefLines wordyLines :=
    .trans _ _ _ (.rel _ _ hinserted) (.rel _ _ hreplaced)
  have hpath : ∀ lines, (fileOfLines lines).canonical "a.php".toList = .ok "/a.php".toList := by
    intro lines
    rfl
  have hbrief : Scanner.readLines (fileOfLines briefLines) ({} : ScannerSettings).encoding
      "/a.php".toList = .ok briefLines := Listing.eq_of_toOption (by decide +kernel)
  have hwordy : Scanner.readLines (fileOfLines wordyLines) ({} : ScannerSettings).encoding
      "/a.php".toList = .ok wordyLines := Listing.eq_of_toOption (by decide +kernel)
  obtain ⟨hheader, -, hscan⟩ := header_ends_with_first_final_line {} briefLines
  refine ⟨(hheader _).1 (by decide +kernel), hedits, ?_⟩
  exact hscan MemoryCatalog MemoryCatalog.empty _ _ _ _ _ (hpath briefLines) (hpath wordyLines)
    hbrief hwordy hedits

end ClassCensus
