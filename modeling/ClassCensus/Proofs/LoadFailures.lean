import ClassCensus.Proofs.Lookup
import ClassCensus.Proofs.Precedence

/-!
# ClassCensus.Proofs.LoadFailures

How loading the settings can fail. Bad YAML and bad values are faults of the configuration; but a
file that cannot be read as a text, a variable that holds no JSON, a top-level key that is no text
and the home directory of another user are not turned into such faults.

`Uncaught` lists those causes in the order in which they are met, and `failures_of_load` says that
they are the only ones and that each of them comes out.
-/

namespace ClassCensus

/-- A fault of the configuration. -/
def Failure.isConfig : Failure → Bool
  | .fault f => f.family = .config
  | _ => false

/-! ## Checks that cannot be carried out -/

namespace Verdict

variable {α β : Type}

/-- The failure a verdict was aborted with. -/
def abort? : Verdict α → Option Failure
  | .aborted e => some e
  | _ => none

theorem abort?_eq_some {v : Verdict α} {e : Failure} : v.abort? = some e ↔ v = .aborted e := by
  cases v <;> simp [abort?]

@[simp] theorem abort?_valid (a : α) : (valid a).abort? = none := rfl

@[simp] theorem abort?_complain (c : Complaint) (given : Value) :
    (complain c given : Verdict α).abort? = none := rfl

@[simp] theorem abort?_under (step : Step) (v : Verdict α) : (v.under step).abort? = v.abort? := by
  cases v <;> rfl

@[simp] theorem abort?_map (f : α → β) (v : Verdict α) : (v.map f).abort? = v.abort? := by
  cases v <;> rfl

@[simp] theorem abort?_and (f : Verdict (α → β)) (a : Verdict α) :
    (f.and a).abort? = f.abort?.or a.abort? := by
  cases f <;> cases a <;> rfl

@[simp] theorem abort?_barring (flaw : α → Option Text) (given : Value) (v : Verdict α) :
    (v.barring flaw given).abort? = v.abort? := by
  cases v with
  | valid a =>
    simp only [barring]
    cases flaw a <;> rfl
  | invalid issues => rfl
  | aborted e => rfl

@[simp] theorem abort?_entry (entries : List (Scalar × Value)) (key : Text) (default : α)
    (check : Value → Verdict α) : (entry entries key default check).abort? =
      (Table.get? entries (.text key)).bind fun v => (check v).abort? := by
  unfold entry
  cases Table.get? entries (.text key) <;> simp

/-- A list is aborted over its items, if there is one thing only that aborts them. -/
theorem abort?_each {check : Value → Verdict α} {P : Value → Prop} {f : Failure}
    (h : ∀ v e, (check v).abort? = some e ↔ e = f ∧ P v) (start : Nat) (items : List Value)
    (e : Failure) : (each check start items).abort? = some e ↔ e = f ∧ ∃ v ∈ items, P v := by
  induction items generalizing start with
  | nil => simp [each]
  | cons v items ih =>
    simp only [each, abort?_and, abort?_map, abort?_under, List.mem_cons, exists_eq_or_imp]
    cases hfirst : (check v).abort? with
    | some e' =>
      obtain ⟨rfl, hv⟩ := (h v e').1 hfirst
      simp [hv, eq_comm]
    | none =>
      have hv : ¬ P v := fun hv => by simp [(h v f).2 ⟨rfl, hv⟩] at hfirst
      simp [ih, hv]

end Verdict

namespace Settings

@[simp] theorem abort?_checkText (v : Value) : (checkText v).abort? = none := by
  unfold checkText
  split <;> rfl

@[simp] theorem abort?_checkTexts (v : Value) : (checkTexts v).abort? = none := by
  unfold checkTexts
  split
  · rename_i items
    rw [Option.eq_none_iff_forall_ne_some]
    intro e he
    have hitem : ∀ v e, (checkText v).abort? = some e ↔ e = .unknownHome ∧ False := by simp
    simpa using (Verdict.abort?_each hitem 0 items e).1 he
  · rfl

@[simp] theorem abort?_checkInteger (v : Value) : (checkInteger v).abort? = none := by
  unfold checkInteger
  split
  · rfl
  · rfl
  · split
    · rfl
    · split
      · rfl
      · split <;> rfl
  · split <;> rfl
  · rfl

theorem abort?_checkScanner (v : Value) : (checkScanner v).abort? = none := by
  unfold checkScanner
  split
  · simp only [Verdict.abort?_and, Verdict.abort?_valid, Verdict.abort?_entry, checkNonEmpty,
      Verdict.abort?_barring, abort?_checkText, abort?_checkTexts, abort?_checkInteger,
      Option.bind_fun_none, Option.or_none]
  · rfl

@[simp] theorem abort?_checkLevel (v : Value) : (checkLevel v).abort? = none := by
  unfold checkLevel
  dsimp only
  split
  · split <;> rfl
  · rfl

@[simp] theorem abort?_checkOwnLevel (v : Value) : (checkOwnLevel v).abort? = none := by
  unfold checkOwnLevel
  split
  · rfl
  · simp

@[simp] theorem abort?_checkFormat (v : Value) : (checkFormat v).abort? = none := by
  unfold checkFormat
  dsimp only
  split
  · split <;> rfl
  · rfl

/-! ## Home directories -/

/-- A path that starts with the home directory of a user who is named. -/
def NamesUser (t : Text) : Prop :=
  ∃ c user rest, Spelling.parse t = ⟨.relative, ('~' :: c :: user) :: rest⟩

theorem expandHome_eq_none {home : Text} {s : Spelling} :
    expandHome home s = none ↔ ∃ c user rest, s = ⟨.relative, ('~' :: c :: user) :: rest⟩ := by
  obtain ⟨anchor, parts⟩ := s
  constructor
  · intro h
    unfold expandHome at h
    split at h
    · rename_i first rest hanchor hparts
      split at h
      · cases h
      · rename_i user hne
        cases user with
        | nil => exact absurd rfl hne
        | cons c user =>
          simp only at hanchor hparts
          exact ⟨c, user, rest, by rw [hanchor, hparts]⟩
      · cases h
    · cases h
  · rintro ⟨c, user, rest, h⟩
    cases h
    rfl

theorem not_namesUser_of_isStream {t : Text} (h : isStream t = true) : ¬ NamesUser t := by
  rintro ⟨c, user, rest, hparse⟩
  have ht : t = "stderr".toList ∨ t = "stdout".toList := by
    simpa only [isStream, Bool.or_eq_true, decide_eq_true_eq] using h
  rcases ht with rfl | rfl
  · have hself : Spelling.parse "stderr".toList = ⟨.relative, ["stderr".toList]⟩ := by decide
    rw [hself] at hparse
    simp at hparse
  · have hself : Spelling.parse "stdout".toList = ⟨.relative, ["stdout".toList]⟩ := by decide
    rw [hself] at hparse
    simp at hparse

theorem abort?_checkDestination (home : Text) (v : Value) (e : Failure) :
    (checkDestination home v).abort? = some e ↔
      e = .unknownHome ∧ ∃ t, v = .text t ∧ NamesUser t := by
  by_cases htext : ∃ t, v = .text t
  · obtain ⟨t, rfl⟩ := htext
    have hchecked : checkText (.text t) = .valid t := rfl
    simp only [checkDestination, hchecked, Value.scalar.injEq, Scalar.text.injEq,
      exists_eq_left']
    cases hstream : isStream t with
    | true => simp [not_namesUser_of_isStream hstream]
    | false =>
      have hhome : expandHome home (Spelling.parse t) = none ↔ NamesUser t := expandHome_eq_none
      cases hexpand : expandHome home (Spelling.parse t) with
      | none => simp [Verdict.abort?, hhome.1 hexpand, eq_comm]
      | some s =>
        have hnot : ¬ NamesUser t := fun hnames => by simp [hhome.2 hnames] at hexpand
        cases hs : s.isAbsolute <;> simp [hs, hnot]
  · have hchecked : checkText v = .complain .notText v := by
      unfold checkText
      split
      · rename_i t
        exact absurd ⟨t, rfl⟩ htext
      · rfl
    have hnone : ∀ t, v ≠ .text t := fun t hv => htext ⟨t, hv⟩
    simp [checkDestination, hchecked, hnone, Verdict.complain, Verdict.abort?]

/-- A value that is a map with such a destination. -/
def LeadsToUser (v : Value) : Prop :=
  ∃ t, v.field? "destination" = some (.text t) ∧ NamesUser t

theorem abort?_checkOutput (home : Text) (v : Value) (e : Failure) :
    (checkOutput home v).abort? = some e ↔ e = .unknownHome ∧ LeadsToUser v := by
  unfold checkOutput LeadsToUser
  cases v with
  | scalar s => simp [Value.field?]
  | list items => simp [Value.field?]
  | map entries =>
    simp only [Verdict.abort?_and, Verdict.abort?_valid, Verdict.abort?_entry, abort?_checkFormat,
      abort?_checkOwnLevel, Option.bind_fun_none, Option.none_or, Option.or_none, Value.field?]
    cases Table.get? entries (.text "destination".toList) with
    | none => simp
    | some v => simp [abort?_checkDestination]

/-- One of the outputs of the log leads to the home directory of another user. -/
def LogsToUser (entries : List (Scalar × Value)) : Prop :=
  ∃ items, given entries "logging" "outputs" = some (.list items) ∧ ∃ v ∈ items, LeadsToUser v

theorem abort?_checkLogging (home : Text) (v : Value) (e : Failure) :
    (checkLogging home v).abort? = some e ↔
      e = .unknownHome ∧ ∃ items, v.field? "outputs" = some (.list items) ∧
        ∃ w ∈ items, LeadsToUser w := by
  unfold checkLogging
  cases v with
  | scalar s => simp [Value.field?]
  | list items => simp [Value.field?]
  | map entries =>
    simp only [Verdict.abort?_and, Verdict.abort?_valid, Verdict.abort?_entry, abort?_checkLevel,
      Option.bind_fun_none, Option.none_or, Value.field?]
    cases Table.get? entries (.text "outputs".toList) with
    | none => simp
    | some v =>
      cases v with
      | scalar s => simp [checkOutputs]
      | map entries => simp [checkOutputs]
      | list items =>
        simp [checkOutputs, Verdict.abort?_each (abort?_checkOutput home)]

theorem abort?_checkAll (home : Text) (entries : List (Scalar × Value)) (e : Failure) :
    (checkAll home entries).abort? = some e ↔ e = .unknownHome ∧ LogsToUser entries := by
  have hall : (checkAll home entries).abort? = (checkSections home entries).abort? := by
    unfold checkAll
    cases checkSections home entries with
    | valid s => cases extras entries <;> rfl
    | invalid issues => rfl
    | aborted e => rfl
  rw [hall, checkSections]
  simp only [Verdict.abort?_and, Verdict.abort?_valid, Verdict.abort?_entry, abort?_checkScanner,
    Option.bind_fun_none, Option.none_or, Option.or_none, LogsToUser, given]
  cases Table.get? entries (.text "logging".toList) with
  | none => simp only [Option.bind_none, reduceCtorEq, false_and, exists_false, and_false]
  | some v => exact abort?_checkLogging home v e

end Settings

/-! ## Variables -/

namespace Environment

open Text

variable {s : Section} {e : Failure}

/-- The section's variable, or the one of its list unless it is empty, holds no JSON. -/
def Garbled (env : Environment) (s : Section) : Prop :=
  (∃ t, env.read? (variableOf s) = some t ∧ Json.parse? t = none) ∨
    ∃ t, env.read? (fieldVariable s s.listKey) = some t ∧ t ≠ [] ∧ Json.parse? t = none

theorem fieldValue?_listKey_eq_none {t : Text} :
    fieldValue? s s.listKey t = none ↔ t ≠ [] ∧ Json.parse? t = none := by
  by_cases ht : t = [] <;> simp [fieldValue?, ht]

theorem valueAt_error {path : List Text} {value : Text} (h : valueAt s path value = .error e) :
    e = .unparsableVariable s.name := by
  unfold valueAt at h
  split at h
  · split at h
    · cases h
    · cases h
      rfl
  · cases h

theorem nested_error {vars : Environment} {found : List (Scalar × Value)}
    (h : nested s found vars = .error e) : e = .unparsableVariable s.name := by
  induction vars generalizing found with
  | nil => cases h
  | cons var vars ih =>
    obtain ⟨name, value⟩ := var
    rw [nested] at h
    split at h
    · exact ih h
    · dsimp only at h
      split at h
      · rename_i hvalue
        cases h
        exact valueAt_error hvalue
      · exact ih h

theorem nested_of_unreadable (hlist : IsWhole s.listKey) {vars : Environment} {t : Text}
    (hmem : (fieldVariable s s.listKey, t) ∈ vars) (ht : fieldValue? s s.listKey t = none)
    (found : List (Scalar × Value)) : ∃ e, nested s found vars = .error e := by
  induction vars generalizing found with
  | nil => cases hmem
  | cons var vars ih =>
    rcases List.mem_cons.1 hmem with rfl | hlater
    · have htail : after? (variableOf s ++ delimiter) (fieldVariable s s.listKey) =
          some s.listKey := after?_eq_some.2 rfl
      have hcut := cut_of_splitFirst?_eq_none hlist.splitFirst?_eq_none
      refine ⟨.unparsableVariable s.name, ?_⟩
      simp only [nested, htail, hcut, valueAt_field, ht, Option.elim_none]
    · obtain ⟨name, value⟩ := var
      rw [nested]
      split
      · exact ih hlater found
      · dsimp only
        split
        · exact ⟨_, rfl⟩
        · exact ih hlater _

theorem nested_error_iff (hlist : IsWhole s.listKey) (env : Environment) :
    (∃ e, nested s [] env.lowered = .error e) ↔
      ∃ t, env.read? (fieldVariable s s.listKey) = some t ∧ t ≠ [] ∧ Json.parse? t = none := by
  have hread : ∀ t, (fieldVariable s s.listKey, t) ∈ env.lowered ↔
      env.read? (fieldVariable s s.listKey) = some t := by
    intro t
    rw [← get?_lowered, Table.get?_eq_some_iff (nodup_lowered env)]
  constructor
  · rintro ⟨e, he⟩
    by_contra hnone
    have hvars : ∀ var ∈ env.lowered, var.1 = fieldVariable s s.listKey →
        (fieldValue? s s.listKey var.2).isSome = true := by
      rintro ⟨name, t⟩ hvar rfl
      rw [Option.isSome_iff_ne_none, Ne, fieldValue?_listKey_eq_none]
      exact fun ht => hnone ⟨t, (hread t).1 hvar, ht⟩
    obtain ⟨inner, hinner⟩ := exists_nested hlist hvars []
    rw [hinner] at he
    cases he
  · rintro ⟨t, hmem, ht⟩
    exact nested_of_unreadable hlist ((hread t).2 hmem) (fieldValue?_listKey_eq_none.2 ht) []

theorem sectionValue_error_iff (hlist : IsWhole s.listKey) (env : Environment) :
    sectionValue env.lowered s = .error e ↔ env.Garbled s ∧ e = .unparsableVariable s.name := by
  have hnested := nested_error_iff hlist env
  unfold sectionValue Garbled
  cases hinner : nested s [] env.lowered with
  | error f =>
    obtain rfl := nested_error hinner
    have hgarbled := hnested.1 ⟨_, hinner⟩
    constructor
    · rintro ⟨⟩
      exact ⟨.inr hgarbled, rfl⟩
    · rintro ⟨-, rfl⟩
      rfl
  | ok inner =>
    have hnone : ¬ ∃ t, env.read? (fieldVariable s s.listKey) = some t ∧ t ≠ [] ∧
        Json.parse? t = none := by
      rw [← hnested, hinner]
      simp
    simp only [hnone, or_false, get?_lowered]
    cases hread : env.read? (variableOf s) with
    | none => simp
    | some t =>
      cases hparse : Json.parse? t with
      | none => simp [hparse, eq_comm]
      | some v =>
        simp only [Option.some.injEq, exists_eq_left', hparse, reduceCtorEq, false_and, iff_false]
        split <;> simp_all

theorem whole_listKey (hs : s ∈ Settings.parts) : IsWhole s.listKey := by
  simp only [Settings.parts, List.mem_cons, List.not_mem_nil, or_false] at hs
  rcases hs with rfl | rfl
  · exact readable_logging.whole _ readable_logging.list
  · exact readable_scanner.whole _ readable_scanner.list

theorem sections_error_iff (env : Environment) :
    env.sections = .error e ↔
      (env.Garbled .logging ∧ e = .unparsableVariable Section.logging.name) ∨
        (¬ env.Garbled .logging ∧ env.Garbled .scanner ∧
          e = .unparsableVariable Section.scanner.name) := by
  have herror : ∀ s ∈ Settings.parts, ∀ e, sectionValue env.lowered s = .error e ↔
      env.Garbled s ∧ e = .unparsableVariable s.name :=
    fun s hs e => sectionValue_error_iff (whole_listKey hs) env
  have hgarbled : ∀ s ∈ Settings.parts, ∀ v, sectionValue env.lowered s = .ok v →
      ¬ env.Garbled s := by
    intro s hs v hv hg
    rw [(herror s hs _).2 ⟨hg, rfl⟩] at hv
    cases hv
  unfold sections
  dsimp only
  cases hlogging : sectionValue env.lowered .logging with
  | error f =>
    obtain ⟨hg, rfl⟩ := (herror .logging (by simp [Settings.parts]) f).1 hlogging
    simp [hg, eq_comm]
  | ok l =>
    have hl := hgarbled .logging (by simp [Settings.parts]) l hlogging
    cases hscanner : sectionValue env.lowered .scanner with
    | error f =>
      obtain ⟨hg, rfl⟩ := (herror .scanner (by simp [Settings.parts]) f).1 hscanner
      simp [hl, hg, eq_comm]
    | ok c =>
      have hc := hgarbled .scanner (by simp [Settings.parts]) c hscanner
      simp [hl, hc]

end Environment

/-! ## Files -/

namespace FileSystem

variable {fs : FileSystem} {path : Text}

theorem reach_eq_some {loc : Location} :
    fs.reach path = .ok (some loc) ↔ '\x00' ∉ path ∧ fs.locate true path = .ok loc := by
  by_cases hnul : '\x00' ∈ path
  · simp [reach, hnul]
  · simp only [reach, List.contains_eq_mem, hnul, decide_false, Bool.false_eq_true, if_false,
      not_false_eq_true, true_and]
    split <;> simp_all

theorem reach_error {e : Failure} (h : fs.reach path = .error e) :
    '\x00' ∉ path ∧ fs.locate true path = .error .nameTooLong ∧ e = .system .nameTooLong path := by
  unfold reach at h
  split at h
  · cases h
  · rename_i hnul
    split at h
    · cases h
    · rename_i hlong
      cases h
      exact ⟨by simpa using hnul, hlong, rfl⟩
    · cases h

end FileSystem

namespace Settings

variable {fs : FileSystem} {path home root : Text} {e : Failure}

/-- A file that is there but cannot be read as a text, or whose name cannot even be looked up. -/
inductive Unread (fs : FileSystem) (path : Text) : Failure → Prop where
  | longName (hnul : '\x00' ∉ path) (hlong : fs.locate true path = .error .nameTooLong) :
      Unread fs path (.system .nameTooLong path)
  | refused {loc : Location} {errno : Errno} (hnul : '\x00' ∉ path)
      (hthere : fs.locate true path = .ok loc) (hopen : fs.openFile path = .error errno) :
      Unread fs path (.system errno path)
  | undecodable {octets : List UInt8} (hnul : '\x00' ∉ path)
      (hopen : fs.openFile path = .ok octets) (hcode : Encoding.isUtf8 octets = false) :
      Unread fs path .undecodable

theorem entriesOf_uncaught :
    (entriesOf fs path = .error e ∧ e.isConfig = false) ↔ Unread fs path e := by
  constructor
  · rintro ⟨h, hconfig⟩
    unfold entriesOf at h
    split at h
    · rename_i hreach
      cases h
      obtain ⟨hnul, hlong, rfl⟩ := FileSystem.reach_error hreach
      exact .longName hnul hlong
    · cases h
    · rename_i loc hreach
      obtain ⟨hnul, hthere⟩ := FileSystem.reach_eq_some.1 hreach
      cases hopen : fs.openFile path with
      | error errno =>
        simp only [FileSystem.contents, hopen] at h
        cases h
        exact .refused hnul hthere hopen
      | ok octets =>
        simp only [FileSystem.contents, hopen] at h
        cases hcode : Encoding.isUtf8 octets with
        | false =>
          simp only [hcode, Bool.false_eq_true, if_false] at h
          cases h
          exact .undecodable hnul hopen hcode
        | true =>
          -- what is wrong with the text is a fault of the configuration
          simp only [hcode, if_true] at h
          split at h
          · cases h
            cases hconfig
          · cases h
          · split at h
            · cases h
            · cases h
              cases hconfig
  · intro h
    cases h with
    | longName hnul hlong => simp [entriesOf, FileSystem.reach, hnul, hlong, Failure.isConfig]
    | refused hnul hthere hopen =>
      simp [entriesOf, FileSystem.reach, FileSystem.contents, hnul, hthere, hopen, Failure.isConfig]
    | undecodable hnul hopen hcode =>
      obtain ⟨loc, hthere, -⟩ := FileSystem.exists_of_openFile hopen
      simp [entriesOf, FileSystem.reach, FileSystem.contents, hnul, hthere, hopen, hcode,
        Failure.isConfig]

/-! ## Keys -/

/-- A key at the top level that is no text. -/
def HasOtherKey (entries : List (Scalar × Value)) : Prop :=
  ∃ k ∈ Table.keys entries, ∀ t, k ≠ .text t

theorem hasTextKeys_eq_false {entries : List (Scalar × Value)} :
    hasTextKeys entries = false ↔ HasOtherKey entries := by
  simp only [hasTextKeys, List.all_eq_false, HasOtherKey, Table.keys, List.mem_map]
  constructor
  · rintro ⟨⟨k, v⟩, hmem, hk⟩
    refine ⟨k, ⟨(k, v), hmem, rfl⟩, ?_⟩
    rintro t rfl
    exact hk rfl
  · rintro ⟨_, ⟨⟨k, v⟩, hmem, rfl⟩, hk⟩
    refine ⟨(k, v), hmem, ?_⟩
    cases k with
    | text t => exact absurd rfl (hk t)
    | _ => simp

theorem hasOtherKey_merge {lower upper : List (Scalar × Value)} :
    HasOtherKey (mergeEntries lower upper) ↔ HasOtherKey lower ∨ HasOtherKey upper := by
  refine exists_key_mergeEntries fun a b hsame => ?_
  simp only [ne_eq, Scalar.eq_text_congr hsame]

theorem not_hasOtherKey_recaseArguments (arguments : Table Text Value) :
    ¬ HasOtherKey (recaseArguments arguments) := by
  rintro ⟨k, hk, hother⟩
  have htext : ∀ k ∈ Table.keys (recaseArguments arguments), ∃ t, k = .text t := by
    refine List.foldlRecOn
      (motive := fun found : List (Scalar × Value) => ∀ k ∈ Table.keys found, ∃ t, k = .text t)
      arguments _ (by simp [Table.keys]) ?_
    intro found hfound argument _ k hk
    rcases Table.mem_keys_put.1 hk with rfl | hk
    · exact ⟨_, rfl⟩
    · exact hfound k hk
  obtain ⟨t, rfl⟩ := htext k hk
  exact hother t rfl

theorem not_hasOtherKey_sections {env : Environment} {entries : List (Scalar × Value)}
    (h : env.sections = .ok entries) : ¬ HasOtherKey entries := by
  unfold Environment.sections at h
  dsimp only at h
  split at h
  · cases h
  · cases h
  · rename_i l c _ _
    cases h
    rintro ⟨k, hk, hother⟩
    cases l <;> cases c <;> simp_all [Table.keys]

theorem hasOtherKey_gather {env : Environment} {arguments : Table Text Value}
    {project user entries : List (Scalar × Value)}
    (hproject : entriesOf fs (projectPath root) = .ok project)
    (huser : entriesOf fs (userPath home) = .ok user)
    (h : gather fs home root env arguments = .ok entries) :
    HasOtherKey entries ↔ HasOtherKey project ∨ HasOtherKey user := by
  simp only [gather, filesEntries, hproject, huser] at h
  split at h
  · cases h
  · rename_i hsections
    cases h
    rw [hasOtherKey_merge, hasOtherKey_merge]
    simp only [not_hasOtherKey_sections hsections, not_hasOtherKey_recaseArguments, or_false]
    split
    · rename_i hempty
      rw [List.isEmpty_iff] at hempty
      subst hempty
      simp [HasOtherKey, Table.keys]
    · rw [hasOtherKey_merge, or_comm]

/-! ## Loading -/

/-- The causes by which loading fails without a fault of the configuration, each with what comes
before it. -/
inductive Uncaught (fs : FileSystem) (home root : Text) (env : Environment)
    (arguments : Table Text Value) : Failure → Prop where
  | project {e : Failure} (h : Unread fs (projectPath root) e) :
      Uncaught fs home root env arguments e
  | user {project : List (Scalar × Value)} {e : Failure}
      (hproject : entriesOf fs (projectPath root) = .ok project)
      (h : Unread fs (userPath home) e) : Uncaught fs home root env arguments e
  | logging {files : List (Scalar × Value)} (hfiles : filesEntries fs home root = .ok files)
      (h : env.Garbled .logging) :
      Uncaught fs home root env arguments (.unparsableVariable Section.logging.name)
  | scanner {files : List (Scalar × Value)} (hfiles : filesEntries fs home root = .ok files)
      (hlogging : ¬ env.Garbled .logging) (h : env.Garbled .scanner) :
      Uncaught fs home root env arguments (.unparsableVariable Section.scanner.name)
  | key {project user : List (Scalar × Value)}
      (hproject : entriesOf fs (projectPath root) = .ok project)
      (huser : entriesOf fs (userPath home) = .ok user)
      (hlogging : ¬ env.Garbled .logging) (hscanner : ¬ env.Garbled .scanner)
      (h : HasOtherKey project ∨ HasOtherKey user) :
      Uncaught fs home root env arguments .unfitArgument
  | otherHome {entries : List (Scalar × Value)}
      (hentries : gather fs home root env arguments = .ok entries)
      (hkeys : ¬ HasOtherKey entries) (h : LogsToUser entries) :
      Uncaught fs home root env arguments .unknownHome

variable {env : Environment} {arguments : Table Text Value}

theorem uncaught_of_gather (h : gather fs home root env arguments = .error e)
    (hconfig : e.isConfig = false) : Uncaught fs home root env arguments e := by
  unfold gather at h
  split at h
  · rename_i hfiles
    cases h
    unfold filesEntries at hfiles
    split at hfiles
    · rename_i hproject
      cases hfiles
      exact .project (entriesOf_uncaught.1 ⟨hproject, hconfig⟩)
    · rename_i hproject
      split at hfiles
      · rename_i huser
        cases hfiles
        exact .user hproject (entriesOf_uncaught.1 ⟨huser, hconfig⟩)
      · cases hfiles
  · rename_i hfiles
    split at h
    · rename_i hsections
      cases h
      rcases (Environment.sections_error_iff env).1 hsections with ⟨hg, rfl⟩ | ⟨hl, hg, rfl⟩
      · exact .logging hfiles hg
      · exact .scanner hfiles hl hg
    · cases h

/-- The sources can be laid over each other if both files are read and the variables hold JSON. -/
theorem exists_gather_iff :
    (∃ entries, gather fs home root env arguments = .ok entries) ↔
      ∃ project user, entriesOf fs (projectPath root) = .ok project ∧
        entriesOf fs (userPath home) = .ok user ∧
        ¬ env.Garbled .logging ∧ ¬ env.Garbled .scanner := by
  have hsections := fun e => Environment.sections_error_iff (e := e) env
  simp only [gather, filesEntries]
  cases entriesOf fs (projectPath root) with
  | error e => simp
  | ok project =>
    cases entriesOf fs (userPath home) with
    | error e => simp
    | ok user =>
      cases henv : env.sections with
      | error e =>
        rcases (hsections e).1 henv with ⟨h, -⟩ | ⟨-, h, -⟩
        · simp [h]
        · simp [h]
      | ok fromEnv =>
        have hlogging : ¬ env.Garbled .logging := fun h => by
          simp [(hsections _).2 (.inl ⟨h, rfl⟩)] at henv
        have hscanner : ¬ env.Garbled .scanner := fun h => by
          simp [(hsections _).2 (.inr ⟨hlogging, h, rfl⟩)] at henv
        simp [hlogging, hscanner]

/-- What the entries of all sources lead to if they are no settings, faults of the configuration
apart. -/
def Misleads (entries : List (Scalar × Value)) (e : Failure) : Prop :=
  (HasOtherKey entries ∧ e = .unfitArgument) ∨
    (¬ HasOtherKey entries ∧ LogsToUser entries ∧ e = .unknownHome)

theorem isConfig_faultOf (issues : List Issue) :
    (Failure.fault (faultOf issues)).isConfig = true := by
  cases issues <;> rfl

theorem load_of_gather {given : Option Text} {entries : List (Scalar × Value)}
    (h : gather fs home (given.getD (FileSystem.pathOf fs.cwd)) env arguments = .ok entries) :
    (load fs home given env arguments = .error e ∧ e.isConfig = false) ↔ Misleads entries e := by
  simp only [load_eq, h, Misleads]
  by_cases hkeys : HasOtherKey entries
  · rw [hasTextKeys_eq_false.2 hkeys]
    simp only [Bool.false_eq_true, if_false, Except.error.injEq, hkeys, true_and, not_true_eq_false,
      false_and, or_false]
    constructor
    · rintro ⟨rfl, -⟩
      rfl
    · rintro rfl
      exact ⟨rfl, rfl⟩
  · have htext : hasTextKeys entries = true := by
      rw [← Bool.not_eq_false, hasTextKeys_eq_false]
      exact hkeys
    have habort := abort?_checkAll home entries e
    rw [Verdict.abort?_eq_some] at habort
    simp only [htext, if_true, hkeys, false_and, not_false_eq_true, true_and, false_or]
    rw [and_comm (a := LogsToUser entries), ← habort]
    cases hcheck : checkAll home entries with
    | valid s => simp [outcome]
    | invalid issues =>
      constructor
      · rintro ⟨⟨⟩, hconfig⟩
        rw [isConfig_faultOf] at hconfig
        cases hconfig
      · rintro ⟨⟩
    | aborted f =>
      constructor
      · rintro ⟨⟨⟩, -⟩
        rfl
      · rintro ⟨⟩
        obtain ⟨rfl, -⟩ := habort.1 hcheck
        exact ⟨rfl, rfl⟩

theorem Uncaught.outcome (h : Uncaught fs home root env arguments e) :
    (gather fs home root env arguments = .error e ∧ e.isConfig = false) ∨
      ∃ entries, gather fs home root env arguments = .ok entries ∧ Misleads entries e := by
  cases h with
  | project h =>
    obtain ⟨hproject, hconfig⟩ := entriesOf_uncaught.2 h
    exact .inl ⟨by simp only [gather, filesEntries, hproject], hconfig⟩
  | user hproject h =>
    obtain ⟨huser, hconfig⟩ := entriesOf_uncaught.2 h
    exact .inl ⟨by simp only [gather, filesEntries, hproject, huser], hconfig⟩
  | logging hfiles h =>
    have hsections := (Environment.sections_error_iff env).2 (.inl ⟨h, rfl⟩)
    exact .inl ⟨by simp only [gather, hfiles, hsections], rfl⟩
  | scanner hfiles hlogging h =>
    have hsections := (Environment.sections_error_iff env).2 (.inr ⟨hlogging, h, rfl⟩)
    exact .inl ⟨by simp only [gather, hfiles, hsections], rfl⟩
  | key hproject huser hlogging hscanner h =>
    obtain ⟨entries, hgather⟩ := exists_gather_iff.2 ⟨_, _, hproject, huser, hlogging, hscanner⟩
    exact .inr ⟨entries, hgather, .inl ⟨(hasOtherKey_gather hproject huser hgather).2 h, rfl⟩⟩
  | otherHome hentries hkeys h => exact .inr ⟨_, hentries, .inr ⟨hkeys, h, rfl⟩⟩

theorem uncaught_of_misleads {entries : List (Scalar × Value)}
    (hgather : gather fs home root env arguments = .ok entries) (h : Misleads entries e) :
    Uncaught fs home root env arguments e := by
  rcases h with ⟨hother, rfl⟩ | ⟨hkeys, hhome, rfl⟩
  · obtain ⟨project, user, hproject, huser, hlogging, hscanner⟩ := exists_gather_iff.1 ⟨_, hgather⟩
    have hkey := (hasOtherKey_gather hproject huser hgather).1 hother
    exact .key hproject huser hlogging hscanner hkey
  · exact .otherHome hgather hkeys hhome

/-- Loading fails with a fault of the configuration, or for one of the causes that are not caught.
Each of these comes out as the failure it is. -/
theorem failures_of_load (fs : FileSystem) (home : Text) (root : Option Text) (env : Environment)
    (arguments : Table Text Value) (e : Failure) :
    (load fs home root env arguments = .error e ∧ e.isConfig = false) ↔
      Uncaught fs home (root.getD (FileSystem.pathOf fs.cwd)) env arguments e := by
  constructor
  · rintro ⟨hload, hconfig⟩
    cases hgather : gather fs home (root.getD (FileSystem.pathOf fs.cwd)) env arguments with
    | error f =>
      simp only [load_eq, hgather] at hload
      cases hload
      exact uncaught_of_gather hgather hconfig
    | ok entries =>
      exact uncaught_of_misleads hgather ((load_of_gather hgather).1 ⟨hload, hconfig⟩)
  · intro h
    rcases h.outcome with ⟨hgather, hconfig⟩ | ⟨entries, hgather, hmisleads⟩
    · exact ⟨by simp only [load_eq, hgather], hconfig⟩
    · exact (load_of_gather hgather).2 hmisleads

/-- A project whose configuration file holds the given octets. -/
def projectWith (octets : List UInt8) : FileSystem :=
  ⟨.dir [("w".toList, .dir [(projectFolder, .dir [(fileName, .file octets)])])], [],
    ["w".toList], []⟩

/-- How loading the settings of a project ends for its configuration and an environment: whether
well or by a fault of the configuration, and with which message else. -/
def ending (octets : List UInt8) (env : Environment) : Option (Option Text) :=
  match load (projectWith octets) "/w/home".toList none env [] with
  | .ok _ => none
  | .error e => if e.isConfig then none else some e.message?

/-- Octets that are no text, a number for a key, the home of another user, and a variable that holds
no JSON. A broken text and a bad value are caught. -/
theorem bad_sources_escape :
    ending [0xff] [] = some none ∧
      ending (Text.utf8 "1: 2".toList) [] = some none ∧
      ending (Text.utf8 "logging:\n outputs:\n - destination: ~nosuchuser/x".toList) [] =
        some (some "Could not determine home directory.".toList) ∧
      ending [] [("CLASSFINDER__SCANNER".toList, "nope".toList)] =
        some (some
          "error parsing value for field \"scanner\" from source \"EnvSettingsSource\"".toList) ∧
      ending (Text.utf8 "a: [".toList) [] = none ∧
      ending (Text.utf8 "scanner: 1".toList) [] = none := by
  decide +kernel

end Settings
end ClassCensus
