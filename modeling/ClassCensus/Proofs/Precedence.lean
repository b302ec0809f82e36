import ClassCensus.Proofs.Listing
import ClassCensus.Proofs.Revalidation
import ClassCensus.Proofs.Variables
import ClassCensus.Settings.Load

/-!
# ClassCensus.Proofs.Precedence

Which source decides a setting. The sources are laid over each other section by section and field
by field before anything is checked, so that each field takes the value of the first source that
gives one and no other value for it is ever looked at.
-/

namespace ClassCensus
namespace Settings

/-! ## Fields of a configuration -/

def parts : List Section := [.logging, .scanner]

/-- What a configuration gives for a field of a section. -/
def given (entries : List (Scalar × Value)) (part key : Text) : Option Value :=
  (Table.get? entries (.text part)).bind (·.field? key)

theorem given_single (name part key : Text) (v : Option Value) :
    given (v.map fun w => (Scalar.text name, w)).toList part key =
      if name = part then v.bind (·.field? key) else none := by
  cases v with
  | none => simp [given, Table.get?]
  | some w => by_cases hname : name = part <;> simp [given, Table.get?, hname]

/-- A configuration that consists of sections, each of them a map. -/
structure Sectioned (entries : List (Scalar × Value)) : Prop where
  once : TextsOnce entries
  named : ∀ k ∈ Table.keys entries, ∃ s ∈ parts, k = .text s.name
  maps : ∀ t v, Table.get? entries (.text t) = some v → ∃ inner, v = .map inner ∧ TextsOnce inner

namespace Sectioned

variable {lower upper : List (Scalar × Value)}

theorem nil : Sectioned [] := ⟨.nil, by simp [Table.keys], by simp [Table.get?]⟩

theorem merge (hlower : Sectioned lower) (hupper : Sectioned upper) :
    Sectioned (mergeEntries lower upper) := by
  refine ⟨hlower.once.merge upper, ?_, ?_⟩
  · intro k hk
    rcases mem_keys_of_mergeEntries hk with hk | hk
    · exact hlower.named k hk
    · exact hupper.named k hk
  · intro t v hv
    rw [get?_mergeEntries hupper.once] at hv
    cases hnew : Table.get? upper (.text t) with
    | none =>
      rw [hnew] at hv
      exact hlower.maps t v hv
    | some new =>
      obtain ⟨above, rfl, habove⟩ := hupper.maps t new hnew
      cases hold : Table.get? lower (.text t) with
      | none =>
        rw [hnew, hold] at hv
        cases hv
        exact ⟨above, rfl, habove⟩
      | some old =>
        obtain ⟨below, rfl, hbelow⟩ := hlower.maps t old hold
        rw [hnew, hold] at hv
        cases hv
        exact ⟨_, rfl, hbelow.merge above⟩

/-- A field is given by the upper of two configurations, or else by the lower. -/
theorem given_merge (hlower : Sectioned lower) (hupper : Sectioned upper) (part key : Text) :
    (given (mergeEntries lower upper) part key).map Value.outline =
      ((given upper part key).or (given lower part key)).map Value.outline := by
  simp only [given, get?_mergeEntries hupper.once]
  cases hnew : Table.get? upper (.text part) with
  | none => rfl
  | some new =>
    cases hold : Table.get? lower (.text part) with
    | none => simp [Value.overAll]
    | some old =>
      obtain ⟨above, rfl, habove⟩ := hupper.maps part new hnew
      obtain ⟨below, rfl, -⟩ := hlower.maps part old hold
      simp only [Value.overAll, Value.over, Option.bind_some, Value.field?]
      rw [get?_mergeEntries habove, Value.outline_overAll]

theorem single {s : Section} (hs : s ∈ parts) {v : Option Value}
    (hv : ∀ w, v = some w → ∃ inner, w = .map inner ∧ TextsOnce inner) :
    Sectioned (v.map fun w => (Scalar.text s.name, w)).toList := by
  cases v with
  | none => exact nil
  | some w =>
    refine ⟨TextsOnce.nil.put _ w, ?_, ?_⟩
    · intro k hk
      exact ⟨s, hs, List.mem_singleton.1 hk⟩
    · intro t x hx
      cases List.mem_singleton.1 (Table.mem_of_get? hx)
      exact hv w rfl

theorem hasTextKeys_eq_true (h : Sectioned lower) : hasTextKeys lower = true := by
  rw [hasTextKeys, List.all_eq_true]
  rintro ⟨k, v⟩ he
  obtain ⟨s, -, rfl⟩ := h.named k (Table.mem_keys_of_mem he)
  rfl

theorem extras_eq_nil (h : Sectioned lower) : extras lower = [] := by
  rw [extras, List.filterMap_eq_nil_iff]
  rintro ⟨k, v⟩ he
  obtain ⟨s, hs, rfl⟩ := h.named k (Table.mem_keys_of_mem he)
  simp only [parts, List.mem_cons, List.not_mem_nil, or_false] at hs
  rcases hs with rfl | rfl <;> simp

end Sectioned

/-! ## Sources -/

/-- All keys are names of sections, and all values are maps. -/
def HoldsSections (entries : List (Scalar × Value)) : Prop :=
  ∀ e ∈ entries, (∃ s ∈ parts, e.1 = .text s.name) ∧ ∃ inner, e.2 = .map inner

theorem sectioned_of_keyed {entries : List (Scalar × Value)} (hkeyed : Keyed (.map entries))
    (h : HoldsSections entries) : Sectioned entries := by
  refine ⟨hkeyed.once, ?_, ?_⟩
  · intro k hk
    obtain ⟨e, he, rfl⟩ := List.mem_map.1 hk
    exact (h e he).1
  · intro t v hv
    have hmem := Table.mem_of_get? hv
    obtain ⟨inner, rfl⟩ := (h _ hmem).2
    exact ⟨inner, rfl, (hkeyed.entry hmem).once⟩

theorem keyed_file {fs : FileSystem} {path : Text} {entries : List (Scalar × Value)}
    (h : entriesOf fs path = .ok entries) : Keyed (.map entries) := by
  have hnil : Keyed (.map []) := .map .nil (by simp)
  unfold entriesOf at h
  split at h
  · cases h
  · cases h
    exact hnil
  · split at h
    · cases h
    · split at h
      · split at h
        · cases h
        · rename_i hparse
          cases h
          exact keyed_yaml hparse
        · split at h
          · cases h
            exact hnil
          · cases h
      · cases h

/-- What the sources of settings hold: arguments, environment variables, and the entries of the
project's file and of the user's. -/
structure Sources where
  arguments : Table Text Value
  env : Environment
  project : List (Scalar × Value)
  user : List (Scalar × Value)

namespace Sources

/-- The argument for a section, whose name is read without regard to case. -/
def argument (o : Sources) (part : Text) : Option Value :=
  ((o.arguments.filter fun e => Text.lower e.1 = part).getLast?).map (·.2)

/-- What the first source that gives a field gives for it. -/
def first (o : Sources) (s : Section) (key : Text) : Option Value :=
  ((o.argument s.name).bind (·.field? key)).or
    ((o.env.offer s key).or
      ((given o.project s.name key).or (given o.user s.name key)))

/-- The sources give fields of the sections, and nothing in the place of a section. -/
structure Orderly (o : Sources) : Prop where
  arguments : ∀ e ∈ o.arguments,
    (∃ s ∈ parts, Text.lower e.1 = s.name) ∧ (∃ inner, e.2 = .map inner) ∧ Keyed e.2
  env : ∀ s ∈ parts, o.env.Orderly s
  project : HoldsSections o.project
  user : HoldsSections o.user

end Sources

/-- The key an argument is put under. -/
def argumentKey (name : Text) : Scalar :=
  .text (if Text.lower name = Section.logging.name || Text.lower name = Section.scanner.name
    then Text.lower name else name)

theorem argumentKey_eq {name : Text} {s : Section} (hs : s ∈ parts)
    (h : Text.lower name = s.name) : argumentKey name = .text s.name := by
  simp only [parts, List.mem_cons, List.not_mem_nil, or_false] at hs
  rcases hs with rfl | rfl <;> simp [argumentKey, h]

theorem recaseArguments_spec {o : Sources} (ho : o.Orderly) :
    Sectioned (recaseArguments o.arguments) ∧
      ∀ s ∈ parts, Table.get? (recaseArguments o.arguments) (.text s.name) = o.argument s.name := by
  have hfold : recaseArguments o.arguments =
      o.arguments.foldl (fun found e => Table.put found (argumentKey e.1) e.2) [] := rfl
  have hkey : ∀ e ∈ o.arguments, ∃ s ∈ parts, Text.lower e.1 = s.name ∧
      argumentKey e.1 = .text s.name := by
    intro e he
    obtain ⟨s, hs, hname⟩ := (ho.arguments e he).1
    exact ⟨s, hs, hname, argumentKey_eq hs hname⟩
  rw [hfold]
  refine ⟨⟨?_, ?_, ?_⟩, ?_⟩
  · refine List.foldlRecOn (motive := TextsOnce) o.arguments _ .nil ?_
    intro found hfound e _
    exact hfound.put _ _
  · refine List.foldlRecOn (motive := fun found : List (Scalar × Value) =>
      ∀ k ∈ Table.keys found, ∃ s ∈ parts, k = .text s.name) o.arguments _ (by simp [Table.keys]) ?_
    intro found hfound e he k hk
    rcases Table.mem_keys_put.1 hk with rfl | hk
    · obtain ⟨s, hs, -, heq⟩ := hkey e he
      exact ⟨s, hs, heq⟩
    · exact hfound k hk
  · intro t v hv
    rw [Table.get?_foldl_put] at hv
    simp only [Table.get?, Option.or_none, Option.map_eq_some_iff] at hv
    obtain ⟨e, he, rfl⟩ := hv
    obtain ⟨-, ⟨inner, hinner⟩, hkeyed⟩ :=
      ho.arguments e (List.mem_of_mem_filter (List.mem_of_getLast? he))
    rw [hinner] at hkeyed
    exact ⟨inner, hinner, hkeyed.once⟩
  · intro s hs
    rw [Table.get?_foldl_put]
    simp only [Table.get?, Option.or_none, Sources.argument]
    congr 2
    refine List.filter_congr fun e he => ?_
    obtain ⟨s', -, hname, heq⟩ := hkey e he
    simp [heq, hname]

theorem sections_spec {env : Environment} (henv : ∀ s ∈ parts, env.Orderly s) :
    ∃ entries, env.sections = .ok entries ∧ Sectioned entries ∧
      ∀ s ∈ parts, ∀ key ∈ s.keys,
        (given entries s.name key).map Value.outline = (env.offer s key).map Value.outline := by
  obtain ⟨l, hl, hlmap, hloffer⟩ := Environment.sectionValue_spec Environment.readable_logging
    (henv .logging (by simp [parts]))
  obtain ⟨c, hc, hcmap, hcoffer⟩ := Environment.sectionValue_spec Environment.readable_scanner
    (henv .scanner (by simp [parts]))
  have hmerge : env.sections = .ok (mergeEntries
      (l.map fun v => (Scalar.text Section.logging.name, v)).toList
      (c.map fun v => (Scalar.text Section.scanner.name, v)).toList) := by
    simp only [Environment.sections, hl, hc]
    have hne : Section.logging.name ≠ Section.scanner.name := by decide
    cases l <;> cases c <;> simp [mergeEntries, entryAt?, putEntry, Scalar.same_text, hne]
  have hlogging := Sectioned.single (s := .logging) (by simp [parts]) hlmap
  have hscanner := Sectioned.single (s := .scanner) (by simp [parts]) hcmap
  refine ⟨_, hmerge, hlogging.merge hscanner, ?_⟩
  intro s hs key hkey
  rw [hlogging.given_merge hscanner, given_single, given_single]
  simp only [parts, List.mem_cons, List.not_mem_nil, or_false] at hs
  rcases hs with rfl | rfl
  · rw [if_neg (by decide), if_pos rfl, Option.none_or, hloffer key hkey]
  · rw [if_pos rfl, if_neg (by decide), Option.or_none, hcoffer key hkey]

theorem filesEntries_spec {fs : FileSystem} {home root : Text} {o : Sources} (ho : o.Orderly)
    (hproject : entriesOf fs (projectPath root) = .ok o.project)
    (huser : entriesOf fs (userPath home) = .ok o.user) :
    ∃ entries, filesEntries fs home root = .ok entries ∧ Sectioned entries ∧ ∀ part key,
      (given entries part key).map Value.outline =
        ((given o.project part key).or (given o.user part key)).map Value.outline := by
  have hupper := sectioned_of_keyed (keyed_file hproject) ho.project
  have hlower := sectioned_of_keyed (keyed_file huser) ho.user
  simp only [filesEntries, hproject, huser]
  split
  · rename_i hempty
    refine ⟨_, rfl, hupper, fun part key => ?_⟩
    rw [List.isEmpty_iff.1 hempty]
    simp [given, Table.get?]
  · exact ⟨_, rfl, hlower.merge hupper, hlower.given_merge hupper⟩

/-- Laid over each other, the sources give for each field what the first of them gives. -/
theorem gather_spec {fs : FileSystem} {home root : Text} {o : Sources} (ho : o.Orderly)
    (hproject : entriesOf fs (projectPath root) = .ok o.project)
    (huser : entriesOf fs (userPath home) = .ok o.user) :
    ∃ entries, gather fs home root o.env o.arguments = .ok entries ∧ Sectioned entries ∧
      ∀ s ∈ parts, ∀ key ∈ s.keys,
        (given entries s.name key).map Value.outline = (o.first s key).map Value.outline := by
  obtain ⟨files, hfiles, hfilesSectioned, hfilesGiven⟩ := filesEntries_spec ho hproject huser
  obtain ⟨fromEnv, hfromEnv, henvSectioned, henvGiven⟩ := sections_spec ho.env
  obtain ⟨hargs, hargument⟩ := recaseArguments_spec ho
  refine ⟨_, by simp only [gather, hfiles, hfromEnv],
    hfilesSectioned.merge (henvSectioned.merge hargs), ?_⟩
  intro s hs key hkey
  rw [hfilesSectioned.given_merge (henvSectioned.merge hargs), Option.map_or,
    henvSectioned.given_merge hargs, Option.map_or, henvGiven s hs key hkey, hfilesGiven,
    given, hargument s hs]
  simp only [Sources.first, Option.map_or, Option.or_assoc]

/-! ## Checks -/

/-- A field of the settings: where it stands in a configuration, how a value for it is checked,
and how it is read from the settings. -/
structure Field where
  part : Section
  key : Text
  Kind : Type
  check : Value → Verdict Kind
  read : Settings → Kind
  [comparable : DecidableEq Kind]

namespace Field

instance (f : Field) : DecidableEq f.Kind := f.comparable

/-- A field is settled by a value for it, or else by its default. -/
def Takes (f : Field) : Option Value → f.Kind → Prop
  | some v, a => f.check v = .valid a
  | none, a => a = f.read {}

/-- Whatever value is given for a field is valid. -/
def Accepts (f : Field) (given : Option Value) : Prop :=
  ∀ v, given = some v → ∃ a, f.check v = .valid a

/-- What a field comes to, if that is valid. -/
def value? (f : Field) : Option Value → Option f.Kind
  | none => some (f.read {})
  | some v =>
    match f.check v with
    | .valid a => some a
    | _ => none

theorem takes_iff {f : Field} {given : Option Value} {a : f.Kind} :
    f.Takes given a ↔ f.value? given = some a := by
  cases given with
  | none => simp [Takes, value?, eq_comm]
  | some v =>
    rw [Takes, value?]
    cases f.check v <;> simp

theorem accepts_iff {f : Field} {given : Option Value} :
    f.Accepts given ↔ (f.value? given).isSome = true := by
  rw [Option.isSome_iff_exists]
  cases given with
  | none => simp [Accepts, value?]
  | some v =>
    simp only [Accepts, ← takes_iff, Takes, Option.some.injEq]
    exact ⟨fun h => h v rfl, fun h w hw => hw ▸ h⟩

/-- The verdict on the entry for a field. -/
def verdict (f : Field) (entries : List (Scalar × Value)) : Verdict f.Kind :=
  .entry entries f.key (f.read {}) f.check

theorem exists_verdict {f : Field} {entries : List (Scalar × Value)}
    (h : f.Accepts (Table.get? entries (.text f.key))) :
    ∃ a, f.verdict entries = .valid a ∧ f.Takes (Table.get? entries (.text f.key)) a := by
  rw [verdict, Verdict.entry]
  cases hget : Table.get? entries (.text f.key) with
  | none => exact ⟨_, rfl, rfl⟩
  | some v =>
    obtain ⟨a, ha⟩ := h v hget
    exact ⟨a, by simp only [ha]; rfl, ha⟩

end Field

/-! The fields of the log. -/

def level : Field := ⟨.logging, "level", LogLevel, checkLevel, (·.logging.level)⟩

def outputs (home : Text) : Field :=
  ⟨.logging, "outputs", List LogOutput, checkOutputs home, (·.logging.outputs)⟩

/-! The fields of a scan. -/

def sourceExtension : Field :=
  ⟨.scanner, "source_extension", Text, fun v => (checkText v).barring extensionFlaw v,
    (·.scanner.sourceExtension)⟩

def hiddenPrefix : Field :=
  ⟨.scanner, "hidden_prefix", Text, checkNonEmpty, (·.scanner.hiddenPrefix)⟩

def nonRecursiveMarker : Field :=
  ⟨.scanner, "non_recursive_marker", Text, checkNonEmpty, (·.scanner.nonRecursiveMarker)⟩

def namespaceSeparator : Field :=
  ⟨.scanner, "namespace_separator", Text, checkNonEmpty, (·.scanner.namespaceSeparator)⟩

def stopTokens : Field :=
  ⟨.scanner, "stop_tokens", List Text, fun v => (checkTexts v).barring stopTokensFlaw v,
    (·.scanner.stopTokens)⟩

def encoding : Field := ⟨.scanner, "encoding", Text, checkText, (·.scanner.encoding)⟩

def maxWorkers : Field :=
  ⟨.scanner, "max_workers", Int, fun v => (checkInteger v).barring workersFlaw v,
    (·.scanner.maxWorkers)⟩

def loggingFields (home : Text) : List Field := [level, outputs home]

def scannerFields : List Field :=
  [sourceExtension, hiddenPrefix, nonRecursiveMarker, namespaceSeparator, stopTokens, encoding,
    maxWorkers]

def fields (home : Text) : List Field := loggingFields home ++ scannerFields

theorem part_of_mem (home : Text) : (∀ f ∈ loggingFields home, f.part = .logging) ∧
    ∀ f ∈ scannerFields, f.part = .scanner := by
  simp [loggingFields, scannerFields, level, outputs, sourceExtension, hiddenPrefix,
    nonRecursiveMarker, namespaceSeparator, stopTokens, encoding, maxWorkers]

/-- The fields are those of the sections, key by key. -/
theorem keys_of_fields (home : Text) : (loggingFields home).map Field.key = Section.logging.keys ∧
    scannerFields.map Field.key = Section.scanner.keys :=
  ⟨rfl, rfl⟩

theorem field_mem {home : Text} {f : Field} (h : f ∈ fields home) :
    f.part ∈ parts ∧ f.key ∈ f.part.keys := by
  rcases List.mem_append.1 h with hf | hf
  · rw [(part_of_mem home).1 f hf, ← (keys_of_fields home).1]
    exact ⟨List.mem_cons_self, List.mem_map_of_mem hf⟩
  · rw [(part_of_mem home).2 f hf, ← (keys_of_fields home).2]
    exact ⟨List.mem_cons_of_mem _ List.mem_cons_self, List.mem_map_of_mem hf⟩

/-- The fields are all there is to settings. -/
theorem eq_of_fields (home : Text) {a b : Settings} (h : ∀ f ∈ fields home, f.read a = f.read b) :
    a = b := by
  simp only [fields, loggingFields, scannerFields, List.cons_append, List.nil_append,
    List.forall_mem_cons, List.not_mem_nil, false_implies, implies_true, and_true] at h
  obtain ⟨⟨al, ao⟩, ⟨a₁, a₂, a₃, a₄, a₅, a₆, a₇⟩⟩ := a
  obtain ⟨⟨bl, bo⟩, ⟨b₁, b₂, b₃, b₄, b₅, b₆, b₇⟩⟩ := b
  obtain ⟨hl, ho, h₁, h₂, h₃, h₄, h₅, h₆, h₇⟩ := h
  cases hl; cases ho; cases h₁; cases h₂; cases h₃; cases h₄; cases h₅; cases h₆; cases h₇
  rfl

/-- A map is no value of a field. -/
theorem check_map {home : Text} {f : Field} (h : f ∈ fields home)
    (entries : List (Scalar × Value)) (a : f.Kind) : f.check (.map entries) ≠ .valid a := by
  simp only [fields, loggingFields, scannerFields, List.cons_append, List.nil_append,
    List.mem_cons, List.not_mem_nil, or_false] at h
  rcases h with rfl | rfl | rfl | rfl | rfl | rfl | rfl | rfl | rfl <;> nofun

/-- Values that agree up to the entries of maps are the same if the second is valid. -/
theorem eq_of_accepts {home : Text} {f : Field} (hf : f ∈ fields home) {o o' : Option Value}
    (h : o.map Value.outline = o'.map Value.outline) (hvalid : f.Accepts o') : o = o' := by
  cases o' with
  | none => simpa using h
  | some v =>
    obtain ⟨w, rfl, hw⟩ := Option.map_eq_some_iff.1 h
    obtain ⟨a, ha⟩ := hvalid v rfl
    have hmap : ∀ entries, v ≠ .map entries := by
      rintro entries rfl
      exact check_map hf entries a ha
    rw [Value.eq_of_outline hw hmap]

theorem checkLogging_spec {home : Text} {inner : List (Scalar × Value)}
    (h : ∀ f ∈ loggingFields home, f.Accepts (Table.get? inner (.text f.key))) :
    ∃ l, checkLogging home (.map inner) = .valid l ∧ ∀ c, ∀ f ∈ loggingFields home,
      f.Takes (Table.get? inner (.text f.key)) (f.read ⟨l, c⟩) := by
  simp only [loggingFields, List.forall_mem_cons, List.not_mem_nil, false_implies, implies_true,
    and_true] at h ⊢
  obtain ⟨a, ha, hta⟩ := Field.exists_verdict h.1
  obtain ⟨b, hb, htb⟩ := Field.exists_verdict h.2
  refine ⟨⟨a, b⟩, ?_, fun _ => ⟨hta, htb⟩⟩
  change ((Verdict.valid LoggingSettings.mk).and (level.verdict inner)).and
    ((outputs home).verdict inner) = _
  rw [ha, hb]
  rfl

theorem checkScanner_spec {inner : List (Scalar × Value)}
    (h : ∀ f ∈ scannerFields, f.Accepts (Table.get? inner (.text f.key))) :
    ∃ c, checkScanner (.map inner) = .valid c ∧ ∀ l, ∀ f ∈ scannerFields,
      f.Takes (Table.get? inner (.text f.key)) (f.read ⟨l, c⟩) := by
  simp only [scannerFields, List.forall_mem_cons, List.not_mem_nil, false_implies, implies_true,
    and_true] at h ⊢
  obtain ⟨a₁, h₁, t₁⟩ := Field.exists_verdict h.1
  obtain ⟨a₂, h₂, t₂⟩ := Field.exists_verdict h.2.1
  obtain ⟨a₃, h₃, t₃⟩ := Field.exists_verdict h.2.2.1
  obtain ⟨a₄, h₄, t₄⟩ := Field.exists_verdict h.2.2.2.1
  obtain ⟨a₅, h₅, t₅⟩ := Field.exists_verdict h.2.2.2.2.1
  obtain ⟨a₆, h₆, t₆⟩ := Field.exists_verdict h.2.2.2.2.2.1
  obtain ⟨a₇, h₇, t₇⟩ := Field.exists_verdict h.2.2.2.2.2.2
  refine ⟨⟨a₁, a₂, a₃, a₄, a₅, a₆, a₇⟩, ?_, fun _ => ⟨t₁, t₂, t₃, t₄, t₅, t₆, t₇⟩⟩
  change (((((((Verdict.valid ScannerSettings.mk).and (sourceExtension.verdict inner)).and
    (hiddenPrefix.verdict inner)).and (nonRecursiveMarker.verdict inner)).and
    (namespaceSeparator.verdict inner)).and (stopTokens.verdict inner)).and
    (encoding.verdict inner)).and (maxWorkers.verdict inner) = _
  rw [h₁, h₂, h₃, h₄, h₅, h₆, h₇]
  rfl

/-- A section left out is one that gives no field. -/
theorem exists_section {α : Type} (check : Value → Verdict α) {d : α}
    (hd : check (.map []) = .valid d) {entries : List (Scalar × Value)} (h : Sectioned entries)
    (part : Text) :
    ∃ inner, (∀ key, Table.get? inner (.text key) = given entries part key) ∧
      ∀ a, check (.map inner) = .valid a → Verdict.entry entries part d check = .valid a := by
  cases hget : Table.get? entries (.text part) with
  | none =>
    refine ⟨[], fun key => by simp [given, hget, Table.get?], fun a ha => ?_⟩
    rw [hd] at ha
    cases ha
    simp [Verdict.entry, hget]
  | some v =>
    obtain ⟨inner, rfl, -⟩ := h.maps part v hget
    refine ⟨inner, fun key => by simp [given, hget, Value.field?], fun a ha => ?_⟩
    simp [Verdict.entry, hget, ha, Verdict.under]

theorem checkAll_spec {home : Text} {entries : List (Scalar × Value)} (hentries : Sectioned entries)
    (h : ∀ f ∈ fields home, f.Accepts (given entries f.part.name f.key)) :
    ∃ settings, checkAll home entries = .valid settings ∧
      ∀ f ∈ fields home, f.Takes (given entries f.part.name f.key) (f.read settings) := by
  have hpart := part_of_mem home
  obtain ⟨above, habove, hlogging⟩ := exists_section (checkLogging home) (d := {}) rfl
    hentries Section.logging.name
  obtain ⟨below, hbelow, hscanner⟩ := exists_section checkScanner (d := {}) rfl
    hentries Section.scanner.name
  have hacceptsl : ∀ f ∈ loggingFields home, f.Accepts (Table.get? above (.text f.key)) := by
    intro f hf
    rw [habove, ← hpart.1 f hf]
    exact h f (List.mem_append_left _ hf)
  have hacceptsc : ∀ f ∈ scannerFields, f.Accepts (Table.get? below (.text f.key)) := by
    intro f hf
    rw [hbelow, ← hpart.2 f hf]
    exact h f (List.mem_append_right _ hf)
  obtain ⟨l, hl, htakesl⟩ := checkLogging_spec hacceptsl
  obtain ⟨c, hc, htakesc⟩ := checkScanner_spec hacceptsc
  refine ⟨⟨l, c⟩, ?_, ?_⟩
  · have hsections : checkSections home entries = .valid ⟨l, c⟩ := by
      change ((Verdict.valid Settings.mk).and
        (.entry entries Section.logging.name {} (checkLogging home))).and
        (.entry entries Section.scanner.name {} checkScanner) = _
      rw [hlogging l hl, hscanner c hc]
      rfl
    rw [checkAll, hsections, hentries.extras_eq_nil]
  · intro f hf
    rcases List.mem_append.1 hf with hf | hf
    · rw [hpart.1 f hf, ← habove]
      exact htakesl c f hf
    · rw [hpart.2 f hf, ← hbelow]
      exact htakesc l f hf

/-- Where the first source that gives a field gives a valid value for it, whatever the others say,
settings are loaded, and each field is that value as the check leaves it, or its default if no
source gives it. -/
theorem first_source_decides (fs : FileSystem) (home : Text) (root : Option Text) (o : Sources)
    (hproject : entriesOf fs (projectPath (root.getD (FileSystem.pathOf fs.cwd))) = .ok o.project)
    (huser : entriesOf fs (userPath home) = .ok o.user) (ho : o.Orderly)
    (hvalid : ∀ f ∈ fields home, f.Accepts (o.first f.part f.key)) :
    ∃ settings, load fs home root o.env o.arguments = .ok settings ∧
      ∀ f ∈ fields home, f.Takes (o.first f.part f.key) (f.read settings) := by
  obtain ⟨entries, hgather, hsectioned, hgiven⟩ := gather_spec ho hproject huser
  have hfirst : ∀ f ∈ fields home, given entries f.part.name f.key = o.first f.part f.key := by
    intro f hf
    obtain ⟨hpart, hkey⟩ := field_mem hf
    exact eq_of_accepts hf (hgiven f.part hpart f.key hkey) (hvalid f hf)
  have haccepts : ∀ f ∈ fields home, f.Accepts (given entries f.part.name f.key) := by
    intro f hf
    rw [hfirst f hf]
    exact hvalid f hf
  obtain ⟨settings, hcheck, htakes⟩ := checkAll_spec hsectioned haccepts
  refine ⟨settings, ?_, ?_⟩
  · simp only [load_eq, hgather, hsectioned.hasTextKeys_eq_true, if_true, hcheck, outcome]
  · intro f hf
    rw [← hfirst f hf]
    exact htakes f hf

/-! Values that the user's file and the project's give for the same fields, and that no check would
let pass, under an environment and arguments that give better ones. -/

def contestedFiles : FileSystem :=
  ⟨.dir
    [("h".toList, .dir [(".config".toList, .dir [("classfinder".toList, .dir
      [(fileName, .file (Text.utf8
        "scanner:\n  max_workers: 0\n  encoding: latin-1\nlogging:\n  level: loud\n".toList))])])]),
    ("p".toList, .dir [(projectFolder, .dir
      [(fileName, .file (Text.utf8
        "scanner:\n  max_workers: two\n  stop_tokens: [trait, enum]\n".toList))])])],
    [], ["p".toList], []⟩

def contestedSources : Sources where
  arguments := [("SCANNER".toList, .map [(.text "hidden_prefix".toList, .text "_".toList)])]
  env := [("CLASSFINDER__SCANNER__MAX_WORKERS".toList, "4".toList),
    ("CLASSFINDER__SCANNER__STOP_TOKENS".toList, "[\"final\"]".toList),
    ("CLASSFINDER__LOGGING".toList, "\x7b\"Level\": \"DEBUG\"\x7d".toList)]
  project := [(.text "scanner".toList, .map [(.text "max_workers".toList, .text "two".toList),
    (.text "stop_tokens".toList, .list [.text "trait".toList, .text "enum".toList])])]
  user := [(.text "scanner".toList, .map [(.text "max_workers".toList, .int 0),
      (.text "encoding".toList, .text "latin-1".toList)]),
    (.text "logging".toList, .map [(.text "level".toList, .text "loud".toList)])]

theorem contestedSources_orderly : contestedSources.Orderly := by
  refine ⟨?_, ?_, ?_, ?_⟩
  · intro e he
    cases List.mem_singleton.1 he
    refine ⟨⟨.scanner, by simp [parts], by decide +kernel⟩, ⟨_, rfl⟩,
      .map (TextsOnce.nil.put _ _) ?_⟩
    intro e he
    cases List.mem_singleton.1 he
    exact .scalar _
  · intro s hs
    simp only [parts, List.mem_cons, List.not_mem_nil, or_false] at hs
    rcases hs with rfl | rfl
    · have hlist : contestedSources.env.read?
          (Environment.fieldVariable .logging Section.logging.listKey) = none := by decide +kernel
      have hown : contestedSources.env.read? (Environment.variableOf .logging) =
          some "\x7b\"Level\": \"DEBUG\"\x7d".toList := by decide +kernel
      refine ⟨fun t ht => ?_, fun t ht => ?_⟩
      · rw [hlist] at ht
        cases ht
      · rw [hown] at ht
        cases ht
        exact ⟨[(.text "Level".toList, .text "DEBUG".toList)], by decide +kernel,
          by decide +kernel⟩
    · have hlist : contestedSources.env.read?
          (Environment.fieldVariable .scanner Section.scanner.listKey) =
            some "[\"final\"]".toList := by decide +kernel
      have hown : contestedSources.env.read? (Environment.variableOf .scanner) = none := by
        decide +kernel
      refine ⟨fun t ht => ?_, fun t ht => ?_⟩
      · rw [hlist] at ht
        cases ht
        decide +kernel
      · rw [hown] at ht
        cases ht
  · exact List.forall_mem_singleton.2 ⟨⟨.scanner, by simp [parts], rfl⟩, _, rfl⟩
  · exact List.forall_mem_cons.2 ⟨⟨⟨.scanner, by simp [parts], rfl⟩, _, rfl⟩,
      List.forall_mem_singleton.2 ⟨⟨.logging, by simp [parts], rfl⟩, _, rfl⟩⟩

/-- The entries of a file, if they can be read. -/
def entriesIn? (fs : FileSystem) (path : Text) : Option (List (Scalar × Value)) :=
  (entriesOf fs path).toOption

theorem entriesOf_eq_ok {fs : FileSystem} {path : Text} {entries : List (Scalar × Value)}
    (h : entriesIn? fs path = some entries) : entriesOf fs path = .ok entries := by
  exact Listing.eq_of_toOption h

/-- Each field by itself: the list is not joined with the project's, and the encoding stays though
other sources give the rest of its section. -/
def contestedSettings : Settings where
  logging := ⟨.debug, [{}]⟩
  scanner :=
    { hiddenPrefix := "_", stopTokens := ["final".toList], encoding := "latin-1", maxWorkers := 4 }

theorem invalid_values_under_valid_ones :
    load contestedFiles "/h".toList (some "/p".toList) contestedSources.env
      contestedSources.arguments = .ok contestedSettings := by
  have hvalue : ∀ f ∈ fields "/h".toList,
      f.value? (contestedSources.first f.part f.key) = some (f.read contestedSettings) := by
    decide +kernel
  have hvalid : ∀ f ∈ fields "/h".toList, f.Accepts (contestedSources.first f.part f.key) := by
    intro f hf
    rw [Field.accepts_iff, hvalue f hf]
    rfl
  obtain ⟨settings, hload, htakes⟩ := first_source_decides contestedFiles "/h".toList
    (some "/p".toList) contestedSources (entriesOf_eq_ok (by decide +kernel))
    (entriesOf_eq_ok (by decide +kernel)) contestedSources_orderly hvalid
  have heq : settings = contestedSettings := by
    refine eq_of_fields "/h".toList fun f hf => ?_
    exact Option.some.inj ((Field.takes_iff.1 (htakes f hf)).symm.trans (hvalue f hf))
  rw [hload, heq]

end Settings
end ClassCensus
