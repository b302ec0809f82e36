import ClassCensus.Proofs.Header

/-!
# ClassCensus.Proofs.Asking

The identity that a scan asks its catalog about. The namespace of a file loses the characters of
the separator at both ends, each by itself and not only the separator as a whole. So the identity is
the namespace, the separator and the class exactly if the namespace neither starts nor ends with
such a character (`IsTrimmed.join_eq_iff`), which for a separator of one character is to say that it
neither starts nor ends with the separator.
-/

namespace ClassCensus

/-- A catalog together with the identities it was asked to confirm. -/
structure Overheard (κ : Type) where
  catalog : κ
  asked : List Text

namespace Overheard

variable {κ : Type} [TypeCatalog κ]

/-- The reply of a catalog that is listened to. -/
def pass {α : Type} (asked : List Text) (r : Reply κ α) : Reply (Overheard κ) α :=
  ⟨r.answer, ⟨r.catalog, asked⟩, r.notices⟩

instance : TypeCatalog (Overheard κ) where
  confirm c identity := pass (c.asked ++ [identity]) (TypeCatalog.confirm c.catalog identity)
  isLoaded c identity := pass c.asked (TypeCatalog.isLoaded c.catalog identity)
  reflect c identity := pass c.asked (TypeCatalog.reflect c.catalog identity)

end Overheard

/-! ## Trimmed namespaces -/

namespace Text

variable {sep v space : Text}

/-- Neither the first nor the last character of a namespace is one of the separator's. -/
def Bare (sep v : Text) : Prop := (∀ c ∈ v.head?, c ∉ sep) ∧ ∀ c ∈ v.getLast?, c ∉ sep

/-- Nothing is taken off a bare namespace, and something off any other. -/
theorem IsTrimmed.eq_iff_bare (h : IsTrimmed sep.contains v space) : space = v ↔ Bare sep v := by
  constructor
  · rintro rfl
    exact ⟨fun c hc => by simpa using h.head c hc, fun c hc => by simpa using h.last c hc⟩
  · rintro ⟨hhead, hlast⟩
    have hself : IsTrimmed sep.contains v v :=
      ⟨⟨[], [], by simp, by simp, by simp⟩, fun c hc => by simpa using hhead c hc,
        fun c hc => by simpa using hlast c hc⟩
    rw [← h.eq, hself.eq]

/-- The identity has the namespace as it stands only if nothing was taken off it. -/
theorem IsTrimmed.join_eq_iff (h : IsTrimmed sep.contains v space) (hv : v ≠ []) (name : Text) :
    Identity.join sep space name = v ++ sep ++ name ↔ space = v := by
  unfold Identity.join
  split
  · rename_i hempty
    have hnil : space = [] := by simpa using hempty
    constructor
    · intro heq
      have hlength := congrArg List.length heq
      have hpos := List.length_pos_of_ne_nil hv
      simp only [List.length_append] at hlength
      omega
    · rintro rfl
      exact absurd hnil hv
  · constructor
    · intro heq
      exact List.append_cancel_right (List.append_cancel_right heq)
    · rintro rfl
      rfl

/-- With one character for a separator, a namespace is bare if it neither starts nor ends with the
separator. -/
theorem bare_of_one {c : Char} (hfront : ¬ [c] <+: v) (hback : ¬ [c] <:+ v) : Bare [c] v := by
  constructor
  · intro x hx hmem
    obtain rfl := List.mem_singleton.1 hmem
    obtain ⟨rest, rfl⟩ := List.head?_eq_some_iff.1 hx
    exact hfront ⟨rest, rfl⟩
  · intro x hx hmem
    obtain rfl := List.mem_singleton.1 hmem
    obtain ⟨rest, rfl⟩ := List.getLast?_eq_some_iff.1 hx
    exact hback ⟨rest, rfl⟩

end Text

/-! ## Scans -/

namespace Scanner

variable {κ : Type} [TypeCatalog κ]

/-- Listening changes nothing else. -/
theorem confirm_overheard (sep : Text) (c : Overheard κ) (path space name : Text) :
    confirm sep c path space name =
      Overheard.pass (c.asked ++ [Identity.join sep space name])
        (confirm sep c.catalog path space name) := by
  simp only [confirm, TypeCatalog.confirm, TypeCatalog.isLoaded, Overheard.pass]
  rcases (TypeCatalog.confirm c.catalog (Identity.join sep space name)).answer with e | _ | _
  · rfl
  · rfl
  · simp only
    cases ClassFacts.check (Identity.join sep space name) name space sep with
    | error m => rfl
    | ok _ => rfl

/-- Once its parts fit together, a class that the catalog confirms is found. -/
theorem confirm_found {sep space name : Text} {c : κ}
    (hcheck : ClassFacts.check (Identity.join sep space name) name space sep = .ok ())
    {loaded : Bool} (path : Text)
    (hconfirm : (TypeCatalog.confirm c (Identity.join sep space name)).answer = .ok true)
    (hloaded : (TypeCatalog.isLoaded
      (TypeCatalog.confirm c (Identity.join sep space name)).catalog
      (Identity.join sep space name)).answer = .ok loaded) :
    (confirm sep c path space name).answer =
      .ok (some ⟨Identity.join sep space name, name, space, path, sep, loaded⟩) := by
  simp only [confirm, hconfirm, hcheck, hloaded]
  rfl

theorem facts_of_confirm {sep space name path : Text} {c : κ} {facts : ClassFacts}
    (h : (confirm sep c path space name).answer = .ok (some facts)) :
    facts.className = Identity.join sep space name ∧ facts.space = space ∧
      facts.basename = name := by
  obtain ⟨-, loaded, rfl⟩ := confirm_some h
  exact ⟨rfl, rfl, rfl⟩

theorem scan_of_header {fs : FileSystem} {settings : ScannerSettings} {file path n : Text}
    {space : Option Text} (h : headerOf fs settings file = .ok (path, ⟨space, some n⟩)) (c : κ) :
    scan fs settings c file =
      confirm settings.namespaceSeparator c path
        (spaceOf settings.namespaceSeparator ⟨space, some n⟩) n := by
  simp only [scan, h]

end Scanner

/-- A scan asks about one identity, that of the class `name` in the namespace `space`, and what it
finds has that identity, namespace and name; and it does find the class if the catalog confirms it
and can say whether it is loaded. -/
structure AsksFor {κ : Type} [TypeCatalog κ] (fs : FileSystem) (settings : ScannerSettings)
    (catalog : κ) (file space name : Text) : Prop where
  asked : (Scanner.scan fs settings (Overheard.mk catalog []) file).catalog.asked =
    [Identity.join settings.namespaceSeparator space name]
  facts : ∀ facts, (Scanner.scan fs settings catalog file).answer = .ok (some facts) →
    facts.className = Identity.join settings.namespaceSeparator space name ∧
      facts.space = space ∧ facts.basename = name
  found : ∀ loaded identity, identity = Identity.join settings.namespaceSeparator space name →
    (TypeCatalog.confirm catalog identity).answer = .ok true →
    (TypeCatalog.isLoaded (TypeCatalog.confirm catalog identity).catalog identity).answer =
      .ok loaded →
    ∃ facts, (Scanner.scan fs settings catalog file).answer = .ok (some facts)

theorem asksFor_of_header {κ : Type} [TypeCatalog κ] {fs : FileSystem} {settings : ScannerSettings}
    (hsep : settings.namespaceSeparator ≠ []) {file path n : Text} {space : Option Text}
    (h : Scanner.headerOf fs settings file = .ok (path, ⟨space, some n⟩))
    (hname : Text.IsIdentifier n) (catalog : κ) :
    AsksFor fs settings catalog file
      (Scanner.spaceOf settings.namespaceSeparator ⟨space, some n⟩) n := by
  constructor
  · rw [Scanner.scan_of_header h, Scanner.confirm_overheard]
    rfl
  · intro facts hfacts
    rw [Scanner.scan_of_header h] at hfacts
    exact Scanner.facts_of_confirm hfacts
  · rintro loaded identity rfl hconfirm hloaded
    have htrim := Text.isTrimmed_trimSet settings.namespaceSeparator.contains (space.getD [])
    have hcheck := ClassFacts.check_join hname (htrim.not_suffix hsep)
    rw [Scanner.scan_of_header h]
    exact ⟨_, Scanner.confirm_found hcheck path hconfirm hloaded⟩

/-- A file names the namespace `v` first and then declares the class `n`. A scan asks about `n` in
what is left of `v` without the characters of the separator at its ends. That is the whole of `v`,
and the identity is `v`, the separator and `n`, exactly if `v` neither starts nor ends with such a
character. If the separator is one character, it is enough that `v` neither starts nor ends with
it. -/
theorem scan_asks_for_trimmed_namespace {κ : Type} [TypeCatalog κ] (fs : FileSystem)
    (settings : ScannerSettings) (catalog : κ) (file path v n : Text) (lines : List Text)
    (hsep : settings.namespaceSeparator ≠ []) (hpath : fs.canonical file = .ok path)
    (hlines : Scanner.readLines fs settings.encoding path = .ok lines)
    (hheader : Source.HeaderOf settings.stopTokens lines ⟨some v, some n⟩) (hv : v ≠ []) :
    (∃ space, Text.IsTrimmed settings.namespaceSeparator.contains v space ∧
      AsksFor fs settings catalog file space n ∧
      (space = v ↔ Text.Bare settings.namespaceSeparator v) ∧
      (Identity.join settings.namespaceSeparator space n = v ++ settings.namespaceSeparator ++ n ↔
        Text.Bare settings.namespaceSeparator v)) ∧
    ∀ c, settings.namespaceSeparator = [c] → ¬ settings.namespaceSeparator <+: v →
      ¬ settings.namespaceSeparator <:+ v → Text.Bare settings.namespaceSeparator v := by
  have hread := Scanner.headerOf_of_lines hpath hlines
  have heq := Source.header_of_headerOf hheader
  have hname : Text.IsIdentifier n := by
    apply Source.isIdentifier_of_headerFrom
    change (Source.header settings.stopTokens lines).basename = some n
    rw [heq]
  rw [heq] at hread
  have htrim := Text.isTrimmed_trimSet settings.namespaceSeparator.contains v
  refine ⟨⟨_, htrim, asksFor_of_header hsep hread hname catalog, htrim.eq_iff_bare, ?_⟩, ?_⟩
  · rw [htrim.join_eq_iff hv, htrim.eq_iff_bare]
  · intro c hc hfront hback
    rw [hc] at hfront hback ⊢
    exact Text.bare_of_one hfront hback

/-- A namespace that holds the separator and a part of it, but not at its ends. -/
def colonLines : List Text := ["<?php", "namespace A:b::c;", "class D"]

def doubleColon : ScannerSettings := { namespaceSeparator := "::".toList }

theorem colons_inside_stay :
    Source.HeaderOf doubleColon.stopTokens colonLines ⟨some "A:b::c".toList, some "D".toList⟩ ∧
      AsksFor (fileOfLines colonLines) doubleColon MemoryCatalog.empty "a.php".toList
        "A:b::c".toList "D".toList ∧
      Identity.join doubleColon.namespaceSeparator "A:b::c".toList "D".toList =
        "A:b::c::D".toList := by
  have hheader : Source.HeaderOf doubleColon.stopTokens colonLines
      ⟨some "A:b::c".toList, some "D".toList⟩ := Source.header_eq_iff.1 (by decide +kernel)
  have hlines : Scanner.readLines (fileOfLines colonLines) doubleColon.encoding "/a.php".toList =
      .ok colonLines := Listing.eq_of_toOption (by decide +kernel)
  obtain ⟨⟨space, htrim, hasks, -, -⟩, -⟩ := scan_asks_for_trimmed_namespace (fileOfLines colonLines)
    doubleColon MemoryCatalog.empty "a.php".toList "/a.php".toList _ _ _ (by decide) rfl hlines
    hheader (by decide)
  obtain rfl : space = "A:b::c".toList := htrim.eq.symm.trans (by decide)
  exact ⟨hheader, hasks, by decide⟩

/-- A namespace that starts with a half of the separator. -/
def underscoreLines : List Text := ["<?php", "namespace _internal;", "class A"]

def doubleUnderscore : ScannerSettings := { namespaceSeparator := "__".toList }

def underscoreClasses : MemoryCatalog :=
  (World.fresh (fileOfLines underscoreLines) ["_internal__A", "internal__A"]).catalog

/-- The half of the separator is taken off, though the namespace neither starts nor ends with the
separator: another class is asked about, and found. -/
theorem half_separator_is_lost :
    Source.HeaderOf doubleUnderscore.stopTokens underscoreLines
        ⟨some "_internal".toList, some "A".toList⟩ ∧
      ¬ "__".toList <+: "_internal".toList ∧ ¬ "__".toList <:+ "_internal".toList ∧
      (Scanner.scan (fileOfLines underscoreLines) doubleUnderscore
        (Overheard.mk underscoreClasses []) "a.php".toList).catalog.asked = ["internal__A".toList] ∧
      (Scanner.scan (fileOfLines underscoreLines) doubleUnderscore underscoreClasses
        "a.php".toList).answer.toOption = some (some
          ⟨"internal__A".toList, "A".toList, "internal".toList, "/a.php".toList, "__".toList, true⟩) := by
  refine ⟨Source.header_eq_iff.1 (by decide +kernel), by decide, by decide, by decide +kernel, ?_⟩
  decide +kernel

end ClassCensus
