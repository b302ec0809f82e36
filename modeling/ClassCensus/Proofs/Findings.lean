import ClassCensus.Proofs.Canonical
import ClassCensus.Proofs.Harvest
import ClassCensus.Proofs.Reading
import ClassCensus.Proofs.WalkFailures

/-!
# ClassCensus.Proofs.Findings

What a scan hands in for the registry. In an orderly file system, and with a separator that is not
empty, every finding is well made: its parts fit together, its class is loaded, and it stands under
the fingerprint of its own file. So the check of its parts never fails.

Three parts of the scan bring this about. The reading of a header gives identifiers only
(`isIdentifier_of_headerFrom`), taking the separator's characters off a namespace leaves one that
neither starts nor ends with it, and the canonical path of a canonical path is that path again.
-/

namespace ClassCensus

theorem Source.isIdentifier_of_headerFrom {stops lines : List Text} {found : Option Text}
    {name : Text} (h : (headerFrom stops found lines).basename = some name) :
    Text.IsIdentifier name := by
  induction lines generalizing found with
  | nil => cases h
  | cons raw rest ih =>
    have hsays := says_read stops (normalize raw)
    rw [headerFrom] at h
    cases hread : read stops (normalize raw) with
    | nothing =>
      rw [hread] at h
      exact ih h
    | namespaced space =>
      rw [hread] at h
      exact ih h
    | declares n =>
      rw [hread] at h hsays
      cases h
      cases hsays with
      | declares _ _ hdeclares =>
        obtain ⟨p, -, r, -, hname, -⟩ := hdeclares
        exact hname
    | stops =>
      rw [hread] at h
      cases h

/-- The record of a class fits together and is kept under the fingerprint of its own file. -/
structure WellMade (sep : Text) (x : Finding) : Prop where
  basename : Text.IsIdentifier x.2.basename
  front : ¬ sep <+: x.2.space
  back : ¬ sep <:+ x.2.space
  separator : x.2.separator = sep
  className : x.2.className = Identity.join sep x.2.space x.2.basename
  loaded : x.2.loaded = true
  key : x.1 = (Sha256.hex (Text.utf8 x.2.file)).take 16

/-- Whether a failure is one of those that the check of a record ends with. -/
def Failure.isOfRecord : Failure → Bool
  | .misuse .emptyBasename => true
  | .misuse (.trailingSeparator _) => true
  | .misuse (.nameMismatch _ _) => true
  | _ => false

/-- Whether a failure comes only of keeping what was found: from the check of a record, or from a
path that has no octets and so no fingerprint. -/
def Failure.isOfKeeping : Failure → Bool
  | .unencodable _ => true
  | e => e.isOfRecord

theorem Failure.isOfRecord_of_isOfKeeping {e : Failure} (h : e.isOfKeeping = false) :
    e.isOfRecord = false := by
  cases e with
  | unencodable text => rfl
  | _ => exact h

namespace ClassFacts

theorem isOfRecord_of_check {className basename space sep : Text} {m : Misuse}
    (h : check className basename space sep = .error m) : (Failure.misuse m).isOfRecord = true := by
  unfold check at h
  split at h
  · cases h
    rfl
  · split at h
    · cases h
      rfl
    · split at h
      · cases h
      · cases h
        rfl

theorem check_join {basename space sep : Text} (hname : Text.IsIdentifier basename)
    (hback : ¬ sep <:+ space) :
    check (Identity.join sep space basename) basename space sep = .ok () := by
  have hne : basename.isEmpty = false := by simpa using hname.ne_nil
  have hsuffix : sep.isSuffixOf space = false := by
    rw [Bool.eq_false_iff, ne_eq, List.isSuffixOf_iff_suffix]
    exact hback
  simp [check, hne, hsuffix]

end ClassFacts

/-! ## Failures -/

theorem FileSystem.canonical_error {fs : FileSystem} {path : Text} {e : Failure}
    (h : fs.canonical path = .error e) : e.isOfKeeping = false := by
  unfold canonical at h
  split at h
  · cases h
  · cases h
    rfl

namespace Scanner

variable {fs : FileSystem} {settings : ScannerSettings} {file : Text} {e : Failure}

theorem readLines_error {encoding path : Text} (h : readLines fs encoding path = .error e) :
    e.isOfKeeping = false := by
  unfold readLines at h
  split at h
  · cases h
    rfl
  split at h
  · cases h
    rfl
  split at h
  · cases h
    rfl
  split at h
  · cases h
    rfl
  split at h
  · cases h
    rfl
  · cases h

theorem headerOf_error (h : headerOf fs settings file = .error e) : e.isOfKeeping = false := by
  unfold headerOf at h
  split at h
  · rename_i hpath
    cases h
    exact FileSystem.canonical_error hpath
  · split at h
    · rename_i hheader
      cases h
      unfold readHeader at hheader
      split at hheader
      · rename_i hread
        cases hheader
        exact readLines_error hread
      · cases hheader
    · cases h

/-- A class that is found has parts that passed the check of a record. -/
theorem confirm_some {κ : Type} [TypeCatalog κ] {sep path space name : Text} {c : κ}
    {facts : ClassFacts} (h : (confirm sep c path space name).answer = .ok (some facts)) :
    ClassFacts.check (Identity.join sep space name) name space sep = .ok () ∧
      ∃ loaded, facts = ⟨Identity.join sep space name, name, space, path, sep, loaded⟩ := by
  simp only [confirm] at h
  split at h
  · cases h
  · cases h
  · split at h
    · cases h
    · rename_i hcheck
      simp only [Except.map] at h
      split at h
      · cases h
      · cases h
        exact ⟨hcheck, _, rfl⟩

end Scanner

theorem Walk.isOfKeeping_of_failure? {fs : FileSystem} {settings : ScannerSettings}
    {recursive : Bool} {root : Text} {f : Failure}
    (h : failure? fs settings recursive root = some f) : f.isOfKeeping = false := by
  rcases failure?_cases h with hfile | hsystem
  · cases f with
    | fault f => rfl
    | _ => cases hfile
  · cases hsystem with
    | longRoot _ _ => rfl
    | link _ _ _ _ _ _ => rfl

/-! ## Findings -/

namespace Grounds

variable {g : Grounds}

/-- What the listings of findings are shown to have: well-made items, and no failure of the check
of a record. -/
def Fit (g : Grounds) (l : Listing Finding) : Prop :=
  l.Holds (WellMade g.settings.namespaceSeparator) fun e => e.isOfRecord = false

theorem finding_fit (hfiles : g.files.Orderly) (hsep : g.settings.namespaceSeparator ≠ [])
    (file : Text) : g.Fit (g.finding file) := by
  unfold finding found
  cases hread : Scanner.headerOf g.files g.settings file with
  | error e => exact .refused (Failure.isOfRecord_of_isOfKeeping (Scanner.headerOf_error hread))
  | ok read =>
    obtain ⟨path, header⟩ := read
    obtain ⟨hpath, hheader⟩ := Scanner.headerOf_ok hread
    simp only
    cases hname : header.basename with
    | none => exact .empty
    | some name =>
      have hidentifier : Text.IsIdentifier name := by
        unfold Scanner.readHeader at hheader
        split at hheader
        · cases hheader
        · cases hheader
          exact Source.isIdentifier_of_headerFrom hname
      have htrim := Text.isTrimmed_trimSet g.settings.namespaceSeparator.contains
        (header.namespaced.getD [])
      have hback := htrim.not_suffix hsep
      simp only [facts]
      split
      · have hcheck := ClassFacts.check_join hidentifier hback
        simp only [Scanner.spaceOf, hcheck, keyed, FileSystem.fingerprint,
          hfiles.canonical_canonical hpath]
        by_cases hoctets : g.files.encodes path = true
        · simp only [hoctets, if_true]
          exact .single ⟨hidentifier, htrim.not_prefix hsep, hback, rfl, rfl, rfl, rfl⟩
        · simp only [hoctets, if_false, Bool.false_eq_true]
          exact .refused rfl
      · exact .empty

theorem harvest_fit (hfiles : g.files.Orderly) (hsep : g.settings.namespaceSeparator ≠ [])
    (files : List Text) : g.Fit (g.harvest files) := by
  refine .concat fun l hl => ?_
  obtain ⟨file, -, rfl⟩ := List.mem_map.1 hl
  exact finding_fit hfiles hsep file

theorem rootYield_fit (hfiles : g.files.Orderly) (hsep : g.settings.namespaceSeparator ≠ [])
    (root : Root) : g.Fit (g.rootYield root) := by
  unfold rootYield
  cases henum : Walk.enumerate g.files g.settings root.recursive root.path with
  | error e =>
    exact .refused (Failure.isOfRecord_of_isOfKeeping
      (Walk.isOfKeeping_of_failure? (by rw [Walk.failure?, henum])))
  | ok listed =>
    obtain ⟨notice, files⟩ := listed
    have hcut : ∀ e, files.cut = some e → e.isOfRecord = false := by
      intro e he
      exact Failure.isOfRecord_of_isOfKeeping
        (Walk.isOfKeeping_of_failure? (by rw [Walk.failure?, henum]; exact he))
    simp only [yield]
    split
    · cases hfailed : files.cut with
      | some e => exact .refused (hcut e hfailed)
      | none => exact harvest_fit hfiles hsep files.items
    · exact (harvest_fit hfiles hsep files.items).append ⟨by simp, hcut⟩

theorem rootsYield_fit (hfiles : g.files.Orderly) (hsep : g.settings.namespaceSeparator ≠ [])
    (roots : List Root) : g.Fit (g.rootsYield roots) := by
  refine .concat fun l hl => ?_
  obtain ⟨root, -, rfl⟩ := List.mem_map.1 hl
  exact rootYield_fit hfiles hsep root

end Grounds
end ClassCensus
