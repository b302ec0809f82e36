import ClassCensus.Proofs.Spelling
import ClassCensus.Settings.Load

/-!
# ClassCensus.Proofs.Revalidation

Settings that have passed their checks pass them again. What a check lets pass is sensible, be it
given in whatever form or left to its default (`sensible_of_check`); and sensible settings, written
back as configuration, are checked to be what they are (`check_toValue`). So the second check of
`load` never shows (`load_eq`).
-/

namespace ClassCensus

namespace Verdict

variable {α β : Type}

theorem and_eq_valid {f : Verdict (α → β)} {a : Verdict α} {b : β} (h : f.and a = .valid b) :
    ∃ g x, f = .valid g ∧ a = .valid x ∧ g x = b := by
  cases f with
  | valid g =>
    cases a with
    | valid x =>
      cases h
      exact ⟨g, x, rfl, rfl, rfl⟩
    | invalid issues => cases h
    | aborted e => cases h
  | invalid issues => cases a <;> cases h
  | aborted e => cases h

theorem and_valid {f : Verdict (α → β)} {a : Verdict α} {g : α → β} {x : α} (hf : f = .valid g)
    (ha : a = .valid x) : f.and a = .valid (g x) := by
  rw [hf, ha]
  rfl

theorem under_eq_valid {step : Step} {v : Verdict α} {a : α} :
    v.under step = .valid a ↔ v = .valid a := by
  cases v <;> simp [under]

theorem barring_eq_valid {flaw : α → Option Text} {given : Value} {v : Verdict α} {a : α} :
    v.barring flaw given = .valid a ↔ v = .valid a ∧ flaw a = none := by
  cases v with
  | valid x =>
    simp only [barring, valid.injEq]
    cases hflaw : flaw x with
    | none =>
      constructor
      · rintro ⟨⟩
        exact ⟨rfl, hflaw⟩
      · rintro ⟨rfl, -⟩
        rfl
    | some r =>
      constructor
      · nofun
      · rintro ⟨rfl, hnone⟩
        rw [hflaw] at hnone
        cases hnone
  | invalid issues => simp [barring]
  | aborted e => simp [barring]

/-- What a key settles is its default, or what the check of its value lets pass. -/
theorem entry_holds (P : α → Prop) {entries : List (Scalar × Value)} {key : Text} {d a : α}
    {check : Value → Verdict α} (hdefault : P d) (hcheck : ∀ v a, check v = .valid a → P a)
    (h : entry entries key d check = .valid a) : P a := by
  unfold entry at h
  split at h
  · cases h
    exact hdefault
  · exact hcheck _ _ (under_eq_valid.1 h)

theorem entry_of_get? {entries : List (Scalar × Value)} {key : Text} {d a : α} {v : Value}
    {check : Value → Verdict α} (hget : Table.get? entries (.text key) = some v)
    (hv : check v = .valid a) : entry entries key d check = .valid a := by
  simp [entry, hget, hv, under]

theorem each_holds {P : α → Prop} {check : Value → Verdict α} {start : Nat} {items : List Value}
    {as : List α} (hcheck : ∀ v a, check v = .valid a → P a)
    (h : each check start items = .valid as) : ∀ a ∈ as, P a := by
  induction items generalizing start as with
  | nil =>
    cases h
    simp
  | cons v items ih =>
    obtain ⟨g, rest, hg, hrest, rfl⟩ := and_eq_valid h
    cases hv : check v with
    | valid a =>
      rw [hv] at hg
      cases hg
      intro b hb
      rcases List.mem_cons.1 hb with rfl | hb
      · exact hcheck v _ hv
      · exact ih hrest b hb
    | invalid issues =>
      rw [hv] at hg
      cases hg
    | aborted e =>
      rw [hv] at hg
      cases hg

/-- Items that are checked to be what they were written from. -/
theorem each_map {check : Value → Verdict α} {write : α → Value} {as : List α}
    (h : ∀ a ∈ as, check (write a) = .valid a) (start : Nat) :
    each check start (as.map write) = .valid as := by
  induction as generalizing start with
  | nil => rfl
  | cons a as ih =>
    obtain ⟨ha, has⟩ := List.forall_mem_cons.1 h
    rw [List.map_cons, each, ha]
    exact and_valid rfl (ih has (start + 1))

end Verdict

/-! ## Sensible settings -/

/-- A destination is a standard stream, or an absolute path that is spelled without detours. -/
def Settings.IsDestination (t : Text) : Prop :=
  isStream t = true ∨ (t.head? = some '/' ∧ Spelling.clean t = t)

structure ScannerSettings.Sensible (s : ScannerSettings) : Prop where
  sourceExtension : s.sourceExtension.head? = some '.' ∧ 2 ≤ s.sourceExtension.length
  hiddenPrefix : s.hiddenPrefix ≠ []
  nonRecursiveMarker : s.nonRecursiveMarker ≠ []
  namespaceSeparator : s.namespaceSeparator ≠ []
  stopTokens : ∀ t ∈ s.stopTokens, Text.isIdentifier t = true
  maxWorkers : 1 ≤ s.maxWorkers

structure Settings.Sensible (s : Settings) : Prop where
  outputs : ∀ o ∈ s.logging.outputs, IsDestination o.destination
  scanner : s.scanner.Sensible

namespace Settings

/-! ## Flaws -/

theorem extensionFlaw_eq_none {t : Text} :
    extensionFlaw t = none ↔ t.head? = some '.' ∧ 2 ≤ t.length := by
  unfold extensionFlaw
  by_cases hhead : t.head? = some '.' <;> by_cases hlength : 2 ≤ t.length <;> simp [hhead, hlength]

theorem emptinessFlaw_eq_none {t : Text} : emptinessFlaw t = none ↔ t ≠ [] := by
  unfold emptinessFlaw
  cases t <;> simp

theorem stopTokensFlaw_eq_none {ts : List Text} :
    stopTokensFlaw ts = none ↔ ∀ t ∈ ts, Text.isIdentifier t = true := by
  simp [stopTokensFlaw]

theorem workersFlaw_eq_none {n : Int} : workersFlaw n = none ↔ 1 ≤ n := by
  unfold workersFlaw
  split <;> simp <;> omega

/-! ## Destinations -/

theorem expandHome_neat {home : Text} {s s' : Spelling} (hs : s.Neat)
    (h : expandHome home s = some s') : s'.Neat := by
  unfold expandHome at h
  split at h
  · rename_i first rest _ hparts
    split at h
    · cases h
      intro p hp
      rcases List.mem_append.1 hp with hp | hp
      · exact Spelling.neat_parse home p hp
      · exact hs p (hparts ▸ List.mem_cons_of_mem _ hp)
    · cases h
    · cases h
      exact hs
  · cases h
    exact hs

theorem head?_text {s : Spelling} (h : s.isAbsolute = true) : s.text.head? = some '/' := by
  rw [Spelling.text_eq]
  cases ha : s.anchor with
  | relative => simp [Spelling.isAbsolute, ha] at h
  | root => simp [Spelling.Anchor.text]
  | doubleRoot => simp [Spelling.Anchor.text]

theorem isDestination_of_check {home : Text} {v : Value} {t : Text}
    (h : checkDestination home v = .valid t) : IsDestination t := by
  unfold checkDestination at h
  split at h
  · rename_i given _
    split at h
    · rename_i hstream
      cases h
      exact .inl hstream
    · split at h
      · cases h
      · rename_i s hexpand
        split at h
        · rename_i habsolute
          cases h
          have hneat := expandHome_neat (Spelling.neat_parse given) hexpand
          refine .inr ⟨head?_text habsolute, ?_⟩
          rw [Spelling.clean, Spelling.parse_text hneat]
        · cases h
  · rename_i hnot
    exact absurd h (hnot t)

theorem checkDestination_text (home : Text) {t : Text} (h : IsDestination t) :
    checkDestination home (.text t) = .valid t := by
  simp only [checkDestination, checkText]
  rcases h with hstream | ⟨hhead, hclean⟩
  · rw [if_pos hstream]
  · obtain ⟨rest, rfl⟩ := List.head?_eq_some_iff.1 hhead
    have hanchor : (Spelling.parse ('/' :: rest)).anchor ≠ .relative := Spelling.anchorOf_slash rest
    have habsolute : (Spelling.parse ('/' :: rest)).isAbsolute = true := by
      simpa [Spelling.isAbsolute] using hanchor
    have hexpand : expandHome home (Spelling.parse ('/' :: rest)) =
        some (Spelling.parse ('/' :: rest)) := by
      unfold expandHome
      split
      · rename_i hrelative _
        exact absurd hrelative hanchor
      · rfl
    split
    · rfl
    · rw [hexpand]
      simp only [habsolute, if_true]
      exact congrArg _ hclean

/-! ## Logging -/

theorem checkLevel_text (l : LogLevel) : checkLevel (.text l.text) = .valid l := by
  cases l <;> rfl

theorem checkFormat_text (f : LogFormat) : checkFormat (.text f.text) = .valid f := by
  cases f <;> rfl

theorem checkOwnLevel_text (level : Option LogLevel) :
    checkOwnLevel (match level with | none => .null | some l => .text l.text) = .valid level := by
  cases level with
  | none => rfl
  | some l => cases l <;> rfl

theorem default_outputs : ∀ o ∈ ({} : LoggingSettings).outputs, IsDestination o.destination := by
  intro o ho
  cases List.mem_singleton.1 ho
  exact .inl rfl

theorem sensible_of_checkOutput {home : Text} {v : Value} {o : LogOutput}
    (h : checkOutput home v = .valid o) : IsDestination o.destination := by
  unfold checkOutput at h
  split at h
  · obtain ⟨_, _, h₁, -, rfl⟩ := Verdict.and_eq_valid h
    obtain ⟨_, destination, h₂, hdestination, rfl⟩ := Verdict.and_eq_valid h₁
    obtain ⟨_, _, hmk, -, rfl⟩ := Verdict.and_eq_valid h₂
    cases hmk
    exact Verdict.entry_holds IsDestination (.inl rfl) (fun _ _ => isDestination_of_check)
      hdestination
  · cases h

theorem checkOutput_toValue (home : Text) {o : LogOutput} (h : IsDestination o.destination) :
    checkOutput home o.toValue = .valid o := by
  unfold LogOutput.toValue Value.record checkOutput
  refine Verdict.and_valid (Verdict.and_valid (Verdict.and_valid rfl ?_) ?_) ?_
  · exact Verdict.entry_of_get? rfl (checkFormat_text o.format)
  · exact Verdict.entry_of_get? rfl (checkDestination_text home h)
  · exact Verdict.entry_of_get? rfl (checkOwnLevel_text o.level)

theorem sensible_of_checkOutputs {home : Text} {v : Value} {outputs : List LogOutput}
    (h : checkOutputs home v = .valid outputs) :
    ∀ o ∈ outputs, IsDestination o.destination := by
  unfold checkOutputs at h
  split at h
  · exact Verdict.each_holds (fun _ _ => sensible_of_checkOutput) h
  · cases h

theorem sensible_of_checkLogging {home : Text} {v : Value} {l : LoggingSettings}
    (h : checkLogging home v = .valid l) : ∀ o ∈ l.outputs, IsDestination o.destination := by
  unfold checkLogging at h
  split at h
  · obtain ⟨_, outputs, h₁, houtputs, rfl⟩ := Verdict.and_eq_valid h
    obtain ⟨_, _, hmk, -, rfl⟩ := Verdict.and_eq_valid h₁
    cases hmk
    exact Verdict.entry_holds (fun outputs => ∀ o ∈ outputs, IsDestination o.destination)
      default_outputs (fun _ _ => sensible_of_checkOutputs) houtputs
  · cases h

theorem checkLogging_toValue (home : Text) {l : LoggingSettings}
    (h : ∀ o ∈ l.outputs, IsDestination o.destination) :
    checkLogging home l.toValue = .valid l := by
  unfold LoggingSettings.toValue Value.record checkLogging
  refine Verdict.and_valid (Verdict.and_valid rfl ?_) ?_
  · exact Verdict.entry_of_get? rfl (checkLevel_text l.level)
  · refine Verdict.entry_of_get? rfl (Verdict.each_map ?_ 0)
    intro o ho
    exact checkOutput_toValue home (h o ho)

/-! ## Scanner -/

theorem sensible_default : ({} : ScannerSettings).Sensible where
  sourceExtension := by decide
  hiddenPrefix := by decide
  nonRecursiveMarker := by decide
  namespaceSeparator := by decide
  stopTokens := by decide
  maxWorkers := by decide

theorem sensible_of_checkScanner {v : Value} {s : ScannerSettings}
    (h : checkScanner v = .valid s) : s.Sensible := by
  have hd := sensible_default
  unfold checkScanner at h
  split at h
  · obtain ⟨_, workers, h₁, hworkers, rfl⟩ := Verdict.and_eq_valid h
    obtain ⟨_, encoding, h₂, -, rfl⟩ := Verdict.and_eq_valid h₁
    obtain ⟨_, tokens, h₃, htokens, rfl⟩ := Verdict.and_eq_valid h₂
    obtain ⟨_, separator, h₄, hseparator, rfl⟩ := Verdict.and_eq_valid h₃
    obtain ⟨_, marker, h₅, hmarker, rfl⟩ := Verdict.and_eq_valid h₄
    obtain ⟨_, hidden, h₆, hhidden, rfl⟩ := Verdict.and_eq_valid h₅
    obtain ⟨_, ext, hmk, hext, rfl⟩ := Verdict.and_eq_valid h₆
    cases hmk
    have hnonEmpty : ∀ v t, checkNonEmpty v = .valid t → t ≠ [] := by
      intro v t ht
      exact emptinessFlaw_eq_none.1 (Verdict.barring_eq_valid.1 ht).2
    constructor
    · refine Verdict.entry_holds (fun t => t.head? = some '.' ∧ 2 ≤ t.length) hd.sourceExtension
        ?_ hext
      intro v t ht
      exact extensionFlaw_eq_none.1 (Verdict.barring_eq_valid.1 ht).2
    · exact Verdict.entry_holds (· ≠ []) hd.hiddenPrefix hnonEmpty hhidden
    · exact Verdict.entry_holds (· ≠ []) hd.nonRecursiveMarker hnonEmpty hmarker
    · exact Verdict.entry_holds (· ≠ []) hd.namespaceSeparator hnonEmpty hseparator
    · refine Verdict.entry_holds (fun ts => ∀ t ∈ ts, Text.isIdentifier t = true) hd.stopTokens
        ?_ htokens
      intro v ts hts
      exact stopTokensFlaw_eq_none.1 (Verdict.barring_eq_valid.1 hts).2
    · refine Verdict.entry_holds (1 ≤ ·) hd.maxWorkers ?_ hworkers
      intro v n hn
      exact workersFlaw_eq_none.1 (Verdict.barring_eq_valid.1 hn).2
  · cases h

theorem checkScanner_toValue {s : ScannerSettings} (h : s.Sensible) :
    checkScanner s.toValue = .valid s := by
  have hnonEmpty : ∀ {t : Text}, t ≠ [] → checkNonEmpty (.text t) = .valid t := by
    intro t ht
    exact Verdict.barring_eq_valid.2 ⟨rfl, emptinessFlaw_eq_none.2 ht⟩
  have htext : ∀ t ∈ s.stopTokens, checkText (.text t) = .valid t := fun _ _ => rfl
  have htokens : checkTexts (.list (s.stopTokens.map .text)) = .valid s.stopTokens :=
    Verdict.each_map htext 0
  unfold ScannerSettings.toValue Value.record checkScanner
  refine Verdict.and_valid (Verdict.and_valid (Verdict.and_valid (Verdict.and_valid
    (Verdict.and_valid (Verdict.and_valid (Verdict.and_valid rfl ?_) ?_) ?_) ?_) ?_) ?_) ?_
  · exact Verdict.entry_of_get? rfl
      (Verdict.barring_eq_valid.2 ⟨rfl, extensionFlaw_eq_none.2 h.sourceExtension⟩)
  · exact Verdict.entry_of_get? rfl (hnonEmpty h.hiddenPrefix)
  · exact Verdict.entry_of_get? rfl (hnonEmpty h.nonRecursiveMarker)
  · exact Verdict.entry_of_get? rfl (hnonEmpty h.namespaceSeparator)
  · exact Verdict.entry_of_get? rfl
      (Verdict.barring_eq_valid.2 ⟨htokens, stopTokensFlaw_eq_none.2 h.stopTokens⟩)
  · exact Verdict.entry_of_get? rfl rfl
  · exact Verdict.entry_of_get? rfl
      (Verdict.barring_eq_valid.2 ⟨rfl, workersFlaw_eq_none.2 h.maxWorkers⟩)

/-! ## All settings -/

theorem sensible_of_checkSections {home : Text} {entries : List (Scalar × Value)} {s : Settings}
    (h : checkSections home entries = .valid s) : s.Sensible := by
  unfold checkSections at h
  obtain ⟨_, scanner, h₁, hscanner, rfl⟩ := Verdict.and_eq_valid h
  obtain ⟨_, logging, hmk, hlogging, rfl⟩ := Verdict.and_eq_valid h₁
  cases hmk
  constructor
  · exact Verdict.entry_holds (fun l => ∀ o ∈ l.outputs, IsDestination o.destination)
      default_outputs (fun _ _ => sensible_of_checkLogging) hlogging
  · exact Verdict.entry_holds ScannerSettings.Sensible sensible_default
      (fun _ _ => sensible_of_checkScanner) hscanner

theorem sensible_of_check {home : Text} {v : Value} {s : Settings}
    (h : check home v = .valid s) : s.Sensible := by
  unfold check at h
  split at h
  · exact sensible_of_checkSections h
  · cases h

theorem sensible_of_checkAll {home : Text} {entries : List (Scalar × Value)} {s : Settings}
    (h : checkAll home entries = .valid s) : s.Sensible := by
  unfold checkAll at h
  split at h
  · rename_i hsections _
    cases h
    exact sensible_of_checkSections hsections
  · cases h
  · cases h
  · cases h

theorem check_toValue (home : Text) {s : Settings} (h : s.Sensible) :
    check home s.toValue = .valid s := by
  unfold Settings.toValue Value.record check checkSections
  refine Verdict.and_valid (Verdict.and_valid rfl ?_) ?_
  · exact Verdict.entry_of_get? rfl (checkLogging_toValue home h.outputs)
  · exact Verdict.entry_of_get? rfl (checkScanner_toValue h.scanner)

/-- The second check of what is loaded finds the settings as they are. -/
theorem load_eq (fs : FileSystem) (home : Text) (root : Option Text) (env : Environment)
    (arguments : Table Text Value) :
    load fs home root env arguments =
      match gather fs home (root.getD (FileSystem.pathOf fs.cwd)) env arguments with
      | .error e => .error e
      | .ok entries =>
        if hasTextKeys entries then outcome (checkAll home entries)
        else .error .unfitArgument := by
  unfold load
  cases gather fs home (root.getD (FileSystem.pathOf fs.cwd)) env arguments with
  | error e => rfl
  | ok entries =>
    dsimp only
    cases hcheck : checkAll home entries with
    | invalid issues => rfl
    | aborted e => rfl
    | valid s =>
      have hagain := check_toValue home (sensible_of_checkAll hcheck)
      simp only [outcome, hagain]

/-- What is loaded is what the first check lets pass. -/
theorem load_eq_ok {fs : FileSystem} {home : Text} {root : Option Text} {env : Environment}
    {arguments : Table Text Value} {s : Settings} :
    load fs home root env arguments = .ok s ↔
      ∃ entries, gather fs home (root.getD (FileSystem.pathOf fs.cwd)) env arguments = .ok entries ∧
        hasTextKeys entries = true ∧ checkAll home entries = .valid s := by
  rw [load_eq]
  cases gather fs home (root.getD (FileSystem.pathOf fs.cwd)) env arguments with
  | error e => simp
  | ok entries =>
    cases htext : hasTextKeys entries with
    | false => simp [htext]
    | true => cases hcheck : checkAll home entries <;> simp [htext, hcheck, outcome]

/-- Settings that pass their checks, from whatever values, are sensible, and written back as
configuration they are checked to be the same settings. This holds of all that is loaded; and what
the first check of a load lets pass comes out of it, for the second neither fails nor changes it. -/
theorem valid_settings_check_again (home : Text) :
    (∀ v s, check home v = .valid s → s.Sensible ∧ check home s.toValue = .valid s) ∧
    (∀ fs root env arguments s, load fs home root env arguments = .ok s →
      s.Sensible ∧ check home s.toValue = .valid s) ∧
    ∀ fs root env arguments entries s,
      gather fs home (root.getD (FileSystem.pathOf fs.cwd)) env arguments = .ok entries →
      hasTextKeys entries = true → checkAll home entries = .valid s →
      load fs home root env arguments = .ok s := by
  refine ⟨?_, ?_, ?_⟩
  · intro v s h
    have hsensible := sensible_of_check h
    exact ⟨hsensible, check_toValue home hsensible⟩
  · intro fs root env arguments s h
    obtain ⟨entries, -, -, hcheck⟩ := load_eq_ok.1 h
    have hsensible := sensible_of_checkAll hcheck
    exact ⟨hsensible, check_toValue home hsensible⟩
  · intro fs root env arguments entries s hgather htext hcheck
    exact load_eq_ok.2 ⟨entries, hgather, htext, hcheck⟩

/-- A number spelled out, a path with detours below the home directory, and keys left out. -/
def looseConfiguration : Value :=
  .record
    [("logging".toList, .record [("outputs".toList, .list [.record
      [("destination".toList, .text "~//log/./all".toList), ("level".toList, .null)]])]),
    ("scanner".toList, .record
      [("max_workers".toList, .text " +1_0.0 ".toList),
        ("stop_tokens".toList, .list [.text "enum".toList])])]

def tightSettings : Settings :=
  { logging := { outputs := [{ destination := "/w/home/log/all".toList }] },
    scanner := { maxWorkers := 10, stopTokens := ["enum".toList] } }

theorem loose_configuration_checks_again :
    check "/w/home".toList looseConfiguration = .valid tightSettings ∧ tightSettings.Sensible ∧
      check "/w/home".toList tightSettings.toValue = .valid tightSettings := by
  have hcheck : check "/w/home".toList looseConfiguration = .valid tightSettings := by rfl
  exact ⟨hcheck, (valid_settings_check_again _).1 _ _ hcheck⟩

end Settings
end ClassCensus
