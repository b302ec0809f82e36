import ClassCensus.Catalog.Choice
import ClassCensus.Proofs.CatalogLaws
import ClassCensus.Proofs.Findings
import ClassCensus.World

/-!
# ClassCensus.Proofs.Identity

Identities come apart as they were put together. If the separator holds no word character, its
last occurrence in an identity is the one before the basename: one that ended later would have to
take in a character of the basename (`splitLast?_of_disjoint`).

So the record that a catalog gives for the identity of a scanned class has the parts that the scan
has read (`recordOf_facts`). It is refused only if the catalog cannot say whether the class is
loaded, and none of the catalogs here reflects a class and then fails to say so (`Catalog.tells`).
-/

namespace ClassCensus

namespace Text

/-- A separator occurs for the last time where no occurrence starts inside it or after it. -/
theorem splitLast?_append {c : Char} {sep rest : Text}
    (hlast : splitLast? (c :: sep) (sep ++ rest) = none) (front : Text) :
    splitLast? (c :: sep) (front ++ (c :: sep) ++ rest) = some (front, rest) := by
  induction front with
  | nil =>
    have hafter : after? (c :: sep) (c :: (sep ++ rest)) = some rest := after?_eq_some.2 rfl
    simp [splitLast?, hlast, hafter]
  | cons x front ih =>
    rw [List.cons_append, List.cons_append, splitLast?, ih]

theorem splitLast?_eq_none {sep t : Text} (h : ¬ sep <:+: t) : splitLast? sep t = none := by
  induction t with
  | nil =>
    rw [splitLast?, after?_eq_none.2 fun hfront => h hfront.isInfix]
    rfl
  | cons c t ih =>
    have hrest : ¬ sep <:+: t := fun hrest => h (List.infix_cons_iff.2 (.inr hrest))
    have hfront : ¬ sep <+: c :: t := fun hfront => h hfront.isInfix
    rw [splitLast?, ih hrest, after?_eq_none.2 hfront]
    rfl

/-- A text whose characters are of one kind does not occur where fewer are of that kind. -/
theorem not_infix_of_countP {p : Char → Bool} {part t : Text} (hpart : ∀ c ∈ part, p c = true)
    (hfew : t.countP p < part.length) : ¬ part <:+: t := by
  intro hoccurs
  have hall : part.countP p = part.length := List.countP_eq_length.2 hpart
  have hle : part.countP p ≤ t.countP p := hoccurs.sublist.countP_le
  omega

/-- If two texts share no kind of character, the last occurrence of one before the other is the
one right before it. -/
theorem splitLast?_of_disjoint {p : Char → Bool} {sep name : Text} (hne : sep ≠ [])
    (hsep : ∀ c ∈ sep, p c = false) (hname : ∀ c ∈ name, p c = true) (front : Text) :
    splitLast? sep (front ++ sep ++ name) = some (front, name) := by
  obtain ⟨c, sep, rfl⟩ := List.exists_cons_of_ne_nil hne
  refine splitLast?_append (splitLast?_eq_none ?_) front
  -- an occurrence needs one more character of the separator's kind than is left
  apply not_infix_of_countP (p := fun c => !p c)
  · intro x hx
    simp [hsep x hx]
  · have hzero : name.countP (fun c => !p c) = 0 := by
      rw [List.countP_eq_zero]
      intro x hx
      simp [hname x hx]
    have hle : sep.countP (fun c => !p c) ≤ sep.length := List.countP_le_length
    rw [List.countP_append, hzero, List.length_cons]
    omega

end Text

/-- Joining and cutting are inverse when the separator has no character of the basename's kind. -/
theorem Identity.split_join {p : Char → Bool} {sep space name : Text} (hne : sep ≠ [])
    (hsep : ∀ c ∈ sep, p c = false) (hname : ∀ c ∈ name, p c = true) :
    split sep (join sep space name) = (space, name) := by
  unfold join
  split
  · rename_i hspace
    have hnone : Text.splitLast? sep name = none := by
      apply Text.splitLast?_eq_none
      intro hoccurs
      obtain ⟨c, hc⟩ := List.exists_mem_of_ne_nil sep hne
      have hword := hname c (hoccurs.subset hc)
      rw [hsep c hc] at hword
      cases hword
    rw [List.isEmpty_iff.1 hspace, split, hnone]
  · rw [split, Text.splitLast?_of_disjoint hne hsep hname]

/-! ## Scanned classes -/

namespace Scanner

variable {κ : Type} [TypeCatalog κ] {fs : FileSystem} {settings : ScannerSettings} {c : κ}
  {file : Text} {facts : ClassFacts}

/-- What a scan finds has an identifier for its basename, and its parts pass the check of a
record. -/
theorem check_of_scan (h : (scan fs settings c file).answer = .ok (some facts)) :
    Text.IsIdentifier facts.basename ∧
      facts.className =
        Identity.join settings.namespaceSeparator facts.space facts.basename ∧
      facts.separator = settings.namespaceSeparator ∧
      ClassFacts.check facts.className facts.basename facts.space settings.namespaceSeparator =
        .ok () := by
  unfold scan at h
  split at h
  · cases h
  · rename_i path header hread
    split at h
    · cases h
    · rename_i name hname
      have hidentifier : Text.IsIdentifier name := by
        obtain ⟨-, hheader⟩ := headerOf_ok hread
        unfold readHeader at hheader
        split at hheader
        · cases hheader
        · cases hheader
          exact Source.isIdentifier_of_headerFrom hname
      obtain ⟨hcheck, loaded, rfl⟩ := confirm_some h
      exact ⟨hidentifier, rfl, rfl, hcheck⟩

end Scanner

/-! ## Records of identities -/

/-- The catalog reflects an identity and names the file that defines it. -/
def KnowsFile {κ : Type} [TypeCatalog κ] (c : κ) (identity : Text) : Prop :=
  ∃ r file, (TypeCatalog.reflect c identity).answer = .ok r ∧ r.file = some file ∧ file ≠ []

/-- Once it was asked to reflect an identity, the catalog can say whether it is loaded. -/
def Tells {κ : Type} [TypeCatalog κ] (c : κ) (identity : Text) : Prop :=
  ∃ loaded, (TypeCatalog.isLoaded (TypeCatalog.reflect c identity).catalog identity).answer =
    .ok loaded

namespace World

variable {κ : Type} [TypeCatalog κ]

theorem newRecord_of_check (w : World κ) {className basename space sep : Text} {loaded : Bool}
    (hcheck : ClassFacts.check className basename space sep = .ok ())
    (hloaded : (TypeCatalog.isLoaded w.catalog className).answer = .ok loaded) (file : Text) :
    ∃ record w', w.newRecord className basename space file sep = (.ok record, w') ∧
      record.facts = ⟨className, basename, space, file, sep, loaded⟩ := by
  set facts : ClassFacts := ⟨className, basename, space, file, sep, loaded⟩ with hfacts
  set asked := (w.ask (TypeCatalog.isLoaded · className)).2 with hasked
  have hask : w.ask (TypeCatalog.isLoaded · className) = (.ok loaded, asked) :=
    Prod.ext hloaded hasked.symm
  refine ⟨(asked.keep facts).1, (asked.keep facts).2, ?_, rfl⟩
  simp only [newRecord, hcheck, hask, hfacts]

/-- The record of an identity has the parts into which it is cut, if they fit together. -/
theorem recordOf_facts {w : World κ} {identity basename space sep : Text} (hne : sep ≠ [])
    (hsplit : Identity.split sep identity = (space, basename))
    (hcheck : ClassFacts.check identity basename space sep = .ok ())
    (hfile : KnowsFile w.catalog identity) (htells : Tells w.catalog identity) :
    ∃ record w', w.recordOf identity sep = (.ok record, w') ∧
      record.facts.className = identity ∧ record.facts.basename = basename ∧
      record.facts.space = space := by
  obtain ⟨r, file, hreflect, hr, hfile⟩ := hfile
  obtain ⟨loaded, hloaded⟩ := htells
  obtain ⟨first, rest, rfl⟩ := List.exists_cons_of_ne_nil hfile
  have hempty : sep.isEmpty = false := by simpa using hne
  set reply := TypeCatalog.reflect w.catalog identity with hreply
  set asked : World κ := { w with catalog := reply.catalog }.tell reply.notices with hasked
  have hask : w.ask (TypeCatalog.reflect · identity) = (.ok r, asked) := by
    simp only [ask, ← hreply, hreflect, hasked]
  obtain ⟨record, w', hnew, hfacts⟩ :=
    asked.newRecord_of_check hcheck hloaded (Spelling.slashed (first :: rest))
  refine ⟨record, { w' with ledger := w'.ledger.remember record r }, ?_, ?_⟩
  · simp only [recordOf, hask, hr, hempty, hsplit, hnew, Bool.false_eq_true, if_false]
  · simp [hfacts]

end World

/-- A class that a catalog reflects is one of which it can say whether it is loaded: modules give it
again, and the other catalogs always can. -/
theorem Catalog.tells {c : Catalog} {identity : Text} {r : Reflection}
    (h : (TypeCatalog.reflect c identity).answer = .ok r) : Tells c identity := by
  obtain ⟨kind, space⟩ := c
  cases kind with
  | memory m => exact ⟨_, rfl⟩
  | refusing m onConfirm onReflect =>
    simp only [Tells, TypeCatalog.reflect, orRefuse] at h ⊢
    cases Table.get? onReflect identity with
    | some reason => exact ⟨_, rfl⟩
    | none => exact ⟨_, rfl⟩
  | anything => exact ⟨_, rfl⟩
  | modules sep => exact ⟨true, ModuleCatalog.isLoaded_of_reflect h⟩

/-- The separator holds no word character. Then the identity of a scanned class, given to a catalog
that knows its file, makes a record with the name and the parts that the scan has found. Every
catalog of the library does so, and any other that can say whether a class it reflects is loaded. -/
theorem identity_gives_parts_back {κ : Type} [TypeCatalog κ] {fs : FileSystem}
    {settings : ScannerSettings} {c : κ} {file : Text} {facts : ClassFacts}
    (hsep : ∀ x ∈ settings.namespaceSeparator, Text.isWord x = false)
    (hscan : (Scanner.scan fs settings c file).answer = .ok (some facts)) :
    (∀ w : World κ, KnowsFile w.catalog facts.className → Tells w.catalog facts.className →
      ∃ record w', w.recordOf facts.className settings.namespaceSeparator = (.ok record, w') ∧
        record.facts.className = facts.className ∧ record.facts.basename = facts.basename ∧
        record.facts.space = facts.space) ∧
    ∀ w : World Catalog, KnowsFile w.catalog facts.className →
      ∃ record w', w.recordOf facts.className settings.namespaceSeparator = (.ok record, w') ∧
        record.facts.className = facts.className ∧ record.facts.basename = facts.basename ∧
        record.facts.space = facts.space := by
  obtain ⟨hidentifier, hname, -, hcheck⟩ := Scanner.check_of_scan hscan
  -- with an empty separator every namespace would seem to end in it
  have hne : settings.namespaceSeparator ≠ [] := by
    intro hnil
    rw [hnil] at hcheck
    simp [ClassFacts.check, hidentifier.ne_nil] at hcheck
  have hsplit : Identity.split settings.namespaceSeparator facts.className =
      (facts.space, facts.basename) := by
    rw [hname]
    exact Identity.split_join hne hsep hidentifier.isWord
  refine ⟨fun w hfile htells => World.recordOf_facts hne hsplit hcheck hfile htells,
    fun w hfile => World.recordOf_facts hne hsplit hcheck hfile ?_⟩
  obtain ⟨r, -, hreflect, -⟩ := hfile
  exact Catalog.tells hreflect

/-- A file whose namespace holds the separator and halves of it. -/
def colonFiles : FileSystem :=
  ⟨.dir [("a.php".toList, .file (Text.utf8 "namespace ::É:x::y: ;\nclass Ça2".toList))], [], [], []⟩

def colonSettings : ScannerSettings := { namespaceSeparator := "::".toList }

/-- The class of the file is defined, with a file of its own. -/
def colonWorld : World Catalog :=
  ⟨colonFiles, ⟨.memory (MemoryCatalog.empty.define
    ⟨"É:x::y::Ça2".toList, some "C:\\a.php".toList, [], none⟩ false), .new [] []⟩,
    .empty, none, 0, []⟩

theorem colons_give_parts_back :
    (∀ x ∈ colonSettings.namespaceSeparator, Text.isWord x = false) ∧
      ∃ facts, (Scanner.scan colonFiles colonSettings colonWorld.catalog "a.php".toList).answer =
          .ok (some facts) ∧
        facts.space = "É:x::y".toList ∧ facts.basename = "Ça2".toList ∧
        ∃ record w',
          colonWorld.recordOf facts.className colonSettings.namespaceSeparator = (.ok record, w') ∧
          record.facts.className = facts.className ∧ record.facts.basename = facts.basename ∧
          record.facts.space = facts.space := by
  have hall : (colonSettings.namespaceSeparator.all fun x => !Text.isWord x) = true := by
    decide +kernel
  have hsep : ∀ x ∈ colonSettings.namespaceSeparator, Text.isWord x = false := by
    intro x hx
    simpa using List.all_eq_true.1 hall x hx
  have hscan : (Scanner.scan colonFiles colonSettings colonWorld.catalog "a.php".toList).answer =
      .ok (some ⟨"É:x::y::Ça2".toList, "Ça2".toList, "É:x::y".toList, "/a.php".toList, "::".toList,
        true⟩) :=
    Listing.eq_of_toOption (by decide +kernel)
  have hfile : KnowsFile colonWorld.catalog "É:x::y::Ça2".toList :=
    ⟨_, "C:\\a.php".toList, rfl, rfl, by decide⟩
  exact ⟨hsep, _, hscan, rfl, rfl, (identity_gives_parts_back hsep hscan).2 colonWorld hfile⟩

end ClassCensus
