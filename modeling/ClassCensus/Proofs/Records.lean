import ClassCensus.Proofs.Confirmation
import ClassCensus.Proofs.Identity

/-!
# ClassCensus.Proofs.Records

Which identities make a record. An identity is cut at the last separator (`Identity.Parts`), and the
two parts have to pass the three checks of a record. They fail one of them exactly if nothing stands
after the cut, the text before it is empty although there is a cut, or that text ends in the
separator again (`check_split_iff`). The separator may be of any length and overlap itself.

The checks come last: first the catalog has to reflect the identity, and then to know the file that
defines it (`recordOf_answer`).
-/

namespace ClassCensus

namespace Identity

/-- The namespace and the basename of an identity: what stands before and after the last separator,
or nothing and the whole of it if there is none. -/
inductive Parts (sep identity : Text) : Text → Text → Prop where
  | whole : (∀ front back, identity ≠ front ++ sep ++ back) → Parts sep identity [] identity
  | cut {front back : Text} : Text.CutsLast sep identity front back → Parts sep identity front back

/-- There is nothing to name the class, or the last separator comes first of all, or right after
another one. -/
def Malformed (sep identity : Text) : Prop :=
  identity = [] ∨ sep <:+ identity ∨ (∃ back, Text.CutsLast sep identity [] back) ∨
    ∃ front back, Text.CutsLast sep identity front back ∧ sep <:+ front

variable {sep identity front back : Text}

theorem split_parts (sep identity : Text) :
    Parts sep identity (split sep identity).1 (split sep identity).2 := by
  have hspec := Text.splitLast?_spec sep identity
  unfold split
  cases hsplit : Text.splitLast? sep identity with
  | none =>
    rw [hsplit] at hspec
    exact .whole hspec
  | some parts =>
    rw [hsplit] at hspec
    exact .cut hspec

theorem malformed_of_whole (h : ∀ front back, identity ≠ front ++ sep ++ back) :
    Malformed sep identity ↔ identity = [] := by
  constructor
  · rintro (hnil | ⟨front, hends⟩ | ⟨back, hcut⟩ | ⟨front, back, hcut, -⟩)
    · exact hnil
    · exact absurd (by rw [← hends, List.append_nil]) (h front [])
    · exact absurd hcut.cut (h _ _)
    · exact absurd hcut.cut (h _ _)
  · exact .inl

theorem malformed_of_cut (hsep : sep ≠ []) (h : Text.CutsLast sep identity front back) :
    Malformed sep identity ↔ back = [] ∨ front = [] ∨ sep <:+ front := by
  constructor
  · rintro (hnil | ⟨front', hends⟩ | ⟨back', hcut⟩ | ⟨front', back', hcut, hends⟩)
    · have hparts := h.cut
      simp [hnil, hsep] at hparts
    · -- a separator at the end is the last one, so nothing is left after it
      have hle := h.last front' [] (by rw [← hends, List.append_nil])
      have hlength := congrArg List.length (hends.trans h.cut)
      simp only [List.length_append] at hlength
      exact .inl (List.length_eq_zero_iff.1 (by omega))
    · exact .inr (.inl (h.unique hcut).1)
    · exact .inr (.inr ((h.unique hcut).1 ▸ hends))
  · rintro (rfl | rfl | hends)
    · exact .inr (.inl ⟨front, by rw [h.cut, List.append_nil]⟩)
    · exact .inr (.inr (.inl ⟨back, h⟩))
    · exact .inr (.inr (.inr ⟨front, back, h, hends⟩))

end Identity

/-- The parts of an identity pass the checks of a record exactly if it is not malformed. -/
theorem ClassFacts.check_split_iff {sep : Text} (hsep : sep ≠ []) (identity : Text) :
    check identity (Identity.split sep identity).2 (Identity.split sep identity).1 sep = .ok () ↔
      ¬ Identity.Malformed sep identity := by
  have hparts := Identity.split_parts sep identity
  generalize (Identity.split sep identity).1 = space at hparts ⊢
  generalize (Identity.split sep identity).2 = name at hparts ⊢
  cases hparts with
  | whole hnone =>
    rw [Identity.malformed_of_whole hnone]
    by_cases hnil : identity = []
    · simp [check, hnil]
    · simp [check, hnil, hsep, Identity.join]
  | cut hcut =>
    rw [Identity.malformed_of_cut hsep hcut]
    by_cases hname : name = []
    · simp [check, hname]
    by_cases hends : sep <:+ space
    · simp [check, hname, hends]
    by_cases hspace : space = []
    · -- the empty namespace drops the separator, and the name no longer fits
      have hother : identity ≠ name := by
        intro hsame
        have hlength := congrArg List.length (hsame.symm.trans hcut.cut)
        simp only [hspace, List.length_append, List.length_nil] at hlength
        exact hsep (List.length_eq_zero_iff.1 (by omega))
      simp [check, hname, hsep, hspace, Identity.join, hother]
    · simp [check, hname, hends, hspace, Identity.join, hcut.cut]

namespace World

variable {κ : Type} [TypeCatalog κ]

/-- What becomes of an identity that the catalog reflects with a file: its parts are checked, and
then the catalog says whether it is loaded. -/
theorem recordOf_answer {w : World κ} {identity sep : Text} {r : Reflection} {file : Text}
    (hsep : sep ≠ []) (hreflect : (TypeCatalog.reflect w.catalog identity).answer = .ok r)
    (hfile : r.file = some file) (hne : file ≠ []) {space name : Text}
    (hsplit : Identity.split sep identity = (space, name)) :
    (w.recordOf identity sep).1 =
      match ClassFacts.check identity name space sep with
      | .error m => .error (.misuse m)
      | .ok () =>
        (TypeCatalog.isLoaded (TypeCatalog.reflect w.catalog identity).catalog identity).answer.map
          fun loaded => ⟨⟨identity, name, space, Spelling.slashed file, sep, loaded⟩,
            w.ledger.next⟩ := by
  obtain ⟨c, file, rfl⟩ := List.exists_cons_of_ne_nil hne
  have hempty : sep.isEmpty = false := by simpa using hsep
  simp only [recordOf, ask, hreflect, hfile, hempty, hsplit, newRecord, Bool.false_eq_true, if_false]
  cases ClassFacts.check identity name space sep with
  | error m => rfl
  | ok u =>
    simp only [tell]
    cases (TypeCatalog.isLoaded (TypeCatalog.reflect w.catalog identity).catalog identity).answer <;>
      rfl

/-- How making a record of an identity ends: it fails as reflecting fails, then for want of a file,
then if the identity is malformed, and in all other cases there is a record with its parts. -/
structure RecordsIdentity (w : World κ) (sep identity : Text) : Prop where
  unreflected : ∀ e, (TypeCatalog.reflect w.catalog identity).answer = .error e →
    (w.recordOf identity sep).1 = .error e
  fileless : ∀ r, (TypeCatalog.reflect w.catalog identity).answer = .ok r →
    (r.file = none ∨ r.file = some []) →
      ∃ f, (w.recordOf identity sep).1 = .error (.fault f) ∧ f.family = .reflection ∧
        f.code.number = 4002
  malformed : KnowsFile w.catalog identity →
    ((∃ m, (w.recordOf identity sep).1 = .error (.misuse m)) ↔ Identity.Malformed sep identity)
  made : KnowsFile w.catalog identity → ¬ Identity.Malformed sep identity →
    ∃ record, (w.recordOf identity sep).1 = .ok record ∧ record.facts.className = identity ∧
      Identity.Parts sep identity record.facts.space record.facts.basename

theorem recordsIdentity {w : World κ} {sep identity : Text} (hsep : sep ≠ [])
    (htells : KnowsFile w.catalog identity → Tells w.catalog identity) :
    w.RecordsIdentity sep identity := by
  have hcheck := ClassFacts.check_split_iff hsep identity
  have hparts := Identity.split_parts sep identity
  rcases hsplit : Identity.split sep identity with ⟨space, name⟩
  rw [hsplit] at hcheck hparts
  -- a class with a file is refused for its parts alone
  have hmade : KnowsFile w.catalog identity → ¬ Identity.Malformed sep identity →
      ∃ record, (w.recordOf identity sep).1 = .ok record ∧ record.facts.className = identity ∧
        Identity.Parts sep identity record.facts.space record.facts.basename := by
    intro hknows hform
    obtain ⟨loaded, hloaded⟩ := htells hknows
    obtain ⟨r, file, hreflect, hfile, hne⟩ := hknows
    refine ⟨⟨⟨identity, name, space, Spelling.slashed file, sep, loaded⟩, w.ledger.next⟩, ?_, rfl,
      hparts⟩
    rw [recordOf_answer hsep hreflect hfile hne hsplit, hcheck.2 hform, hloaded]
    rfl
  refine ⟨fun e he => ?_, fun r hr hfile => ?_, fun hknows => ⟨?_, fun hform => ?_⟩, hmade⟩
  · simp only [recordOf, ask, he]
  · refine ⟨.reflectionFailed identity "defining file is unknown", ?_, rfl, rfl⟩
    rcases hfile with hfile | hfile <;> simp only [recordOf, ask, hr, hfile]
  · rintro ⟨m, hm⟩
    by_contra hform
    obtain ⟨record, hrecord, -⟩ := hmade hknows hform
    cases hm.symm.trans hrecord
  · obtain ⟨r, file, hreflect, hfile, hne⟩ := hknows
    rw [recordOf_answer hsep hreflect hfile hne hsplit]
    cases hresult : ClassFacts.check identity name space sep with
    | error m => exact ⟨m, rfl⟩
    | ok u => exact absurd hform (hcheck.1 hresult)

end World

/-- Whatever the separator, the record of an identity is refused as the catalog refuses to reflect
it, else for want of a defining file, else exactly if it is malformed; otherwise it has the parts of
the identity. So it is with every catalog of the library, and with any other that can say whether a
class it reflects is loaded. -/
theorem record_of_identity_or_failure {sep : Text} (hsep : sep ≠ []) (identity : Text) :
    (∀ (κ : Type) [TypeCatalog κ] (w : World κ),
      (KnowsFile w.catalog identity → Tells w.catalog identity) →
      w.RecordsIdentity sep identity) ∧
    ∀ w : World Catalog, w.RecordsIdentity sep identity := by
  refine ⟨fun κ _ w => World.recordsIdentity hsep, fun w => World.recordsIdentity hsep ?_⟩
  rintro ⟨r, -, hreflect, -⟩
  exact Catalog.tells hreflect

/-- Separators that overlap: in the first identity the last one starts inside a run of colons, in the
second another one stands right before it. The file of the third is not known. -/
def overlappingWorld : World Catalog :=
  ⟨⟨.dir [], [], [], []⟩, ⟨.memory (((MemoryCatalog.empty.define
    ⟨"a:::b".toList, some "a.php".toList, [], none⟩ true).define
    ⟨"a::::b".toList, some "a.php".toList, [], none⟩ true).define
    (.bare "a::b".toList) true), .new [] []⟩, .empty, none, 0, []⟩

theorem overlapping_record_or_failure :
    "::".toList ≠ [] ∧
      (∃ record, (overlappingWorld.recordOf "a:::b".toList "::".toList).1 = .ok record ∧
        record.facts.className = "a:::b".toList ∧
        Identity.Parts "::".toList "a:::b".toList record.facts.space record.facts.basename) ∧
      (∃ m, (overlappingWorld.recordOf "a::::b".toList "::".toList).1 = .error (.misuse m)) ∧
      ∃ f, (overlappingWorld.recordOf "a::b".toList "::".toList).1 = .error (.fault f) ∧
        f.family = .reflection ∧ f.code.number = 4002 := by
  have hsep : "::".toList ≠ [] := by decide
  have hthree : Text.CutsLast "::".toList "a:::b".toList "a:".toList "b".toList :=
    Text.splitLast?_eq_some.1 (by decide)
  have hfour : Text.CutsLast "::".toList "a::::b".toList "a::".toList "b".toList :=
    Text.splitLast?_eq_some.1 (by decide)
  have hwell : ¬ Identity.Malformed "::".toList "a:::b".toList := by
    rw [Identity.malformed_of_cut hsep hthree]
    decide
  have hmalformed : Identity.Malformed "::".toList "a::::b".toList := by
    rw [Identity.malformed_of_cut hsep hfour]
    decide
  have hthreeKnown : KnowsFile overlappingWorld.catalog "a:::b".toList :=
    ⟨_, "a.php".toList, rfl, rfl, by decide⟩
  have hfourKnown : KnowsFile overlappingWorld.catalog "a::::b".toList :=
    ⟨_, "a.php".toList, rfl, rfl, by decide⟩
  have hbare : (TypeCatalog.reflect overlappingWorld.catalog "a::b".toList).answer =
      .ok (.bare "a::b".toList) := rfl
  exact ⟨hsep,
    ((record_of_identity_or_failure hsep "a:::b".toList).2 overlappingWorld).made hthreeKnown hwell,
    (((record_of_identity_or_failure hsep "a::::b".toList).2 overlappingWorld).malformed
      hfourKnown).2 hmalformed,
    ((record_of_identity_or_failure hsep "a::b".toList).2 overlappingWorld).fileless _ hbare
      (.inl rfl)⟩

end ClassCensus
