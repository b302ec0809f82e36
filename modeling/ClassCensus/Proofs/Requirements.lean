import ClassCensus.Proofs.Harvest
import ClassCensus.Proofs.Table

/-!
# ClassCensus.Proofs.Requirements

What a filter requires after calls that succeed and calls that fail.

Whether a call succeeds is known beforehand: it does if every name it gives is defined
(`Requirement.unknown?`). So a run of calls is that of the ones that succeed
(`requireEach_spec`), and of these the first fixes the policy and all of them add names.
-/

namespace ClassCensus

/-- What one call requires. -/
structure Requirement where
  types : List TypeArg
  requireAll : Bool

namespace Requirement

def names (sep : Text) (r : Requirement) : List Text := r.types.map (·.identity sep)

def policy (r : Requirement) : Policy := if r.requireAll then .all else .any

/-- The first name that is not among the defined types. -/
def unknown? (types : Table Text Reflection) (sep : Text) (r : Requirement) : Option Text :=
  (r.names sep).find? fun name => !Table.has types name

def succeeds (types : Table Text Reflection) (sep : Text) (r : Requirement) : Bool :=
  (r.unknown? types sep).isNone

/-- How a call ends. -/
def answer (types : Table Text Reflection) (sep : Text) (r : Requirement) : Except Failure Unit :=
  match r.unknown? types sep with
  | none => .ok ()
  | some name => .error (.fault (.unknownAttribute name))

end Requirement

namespace Filter

/-- A filter after calls that succeed. -/
def addAll (f : Filter) (sep : Text) (calls : List Requirement) : Filter :=
  calls.foldl (fun f r => f.add sep (r.names sep) r.requireAll) f

theorem policy_addAll (f : Filter) (sep : Text) (calls : List Requirement) :
    (f.addAll sep calls).policy = f.policy.or (calls.head?.map Requirement.policy) := by
  induction calls generalizing f with
  | nil => simp [addAll]
  | cons r calls ih =>
    have hrest := ih (f.add sep (r.names sep) r.requireAll)
    -- the first call has fixed the policy, so the others have no say in it
    have hfirst : (f.add sep (r.names sep) r.requireAll).policy = some (f.policy.getD r.policy) := rfl
    rw [hfirst] at hrest
    rw [addAll, List.foldl_cons]
    refine hrest.trans ?_
    cases f.policy <;> rfl

theorem keys_addAll (sep : Text) (calls : List Requirement) {f : Filter} (seen : List Text)
    (h : Table.keys f.required = seen.eraseDups) :
    Table.keys (f.addAll sep calls).required =
      (seen ++ calls.flatMap (Requirement.names sep)).eraseDups := by
  induction calls generalizing f seen with
  | nil => simpa [addAll] using h
  | cons r calls ih =>
    have hfirst := Table.keys_foldl_put id (Identity.shortName sep) (r.names sep) h
    rw [List.map_id] at hfirst
    have hrest := ih (f := f.add sep (r.names sep) r.requireAll) _ hfirst
    rw [List.append_assoc] at hrest
    exact hrest

theorem ask_confirm (w : World MemoryCatalog) (name : Text) :
    ∃ w', w.ask (TypeCatalog.confirm · name) = (.ok (Table.has w.catalog.types name), w') ∧
      w'.catalog.types = w.catalog.types := by
  simp only [World.ask, TypeCatalog.confirm, MemoryCatalog.confirm, MemoryCatalog.contains]
  by_cases hhas : Table.has w.catalog.types name = true
  · simp only [hhas, if_true]
    exact ⟨_, rfl, MemoryCatalog.load_types _ _⟩
  · simp only [hhas, Bool.false_eq_true, if_false]
    exact ⟨_, rfl, rfl⟩

/-- A catalog in memory confirms names up to the first that it does not define. -/
theorem confirmAll_memory (names : List Text) (w : World MemoryCatalog) :
    ∃ w', confirmAll w names =
        (match names.find? fun name => !Table.has w.catalog.types name with
        | none => .ok ()
        | some name => .error (.fault (.unknownAttribute name)), w') ∧
      w'.catalog.types = w.catalog.types := by
  induction names generalizing w with
  | nil => exact ⟨w, rfl, rfl⟩
  | cons name names ih =>
    obtain ⟨w', hask, htypes⟩ := ask_confirm w name
    simp only [confirmAll, hask, List.find?_cons]
    cases hhas : Table.has w.catalog.types name with
    | false => exact ⟨w', rfl, htypes⟩
    | true =>
      obtain ⟨w'', hrest, htypes'⟩ := ih w'
      rw [htypes] at hrest
      exact ⟨w'', hrest, htypes'.trans htypes⟩

theorem require_memory (f : Filter) (sep : Text) (w : World MemoryCatalog) (r : Requirement) :
    ∃ w', f.require sep w r.types r.requireAll =
        (match r.unknown? w.catalog.types sep with
        | none => .ok (f.add sep (r.names sep) r.requireAll)
        | some name => .error (.fault (.unknownAttribute name)), w') ∧
      w'.catalog.types = w.catalog.types := by
  obtain ⟨w', hconfirm, htypes⟩ := confirmAll_memory (r.names sep) w
  have hnames : r.types.map (·.identity sep) = r.names sep := rfl
  simp only [require, hnames, hconfirm, Requirement.unknown?]
  cases (r.names sep).find? fun name => !Table.has w.catalog.types name with
  | none => exact ⟨_, rfl, htypes⟩
  | some name => exact ⟨_, rfl, htypes⟩

end Filter

namespace Census

/-- Makes calls one after the other, and goes on after one that fails. -/
def requireEach {κ : Type} [TypeCatalog κ] (c : Census κ) :
    List Requirement → List (Except Failure Unit) × Census κ
  | [] => ([], c)
  | r :: rest =>
    let (answer, c) := c.requireAttributes r.types r.requireAll
    let (answers, c) := c.requireEach rest
    (answer :: answers, c)

variable {types : Table Text Reflection} {sep : Text}

theorem requireAttributes_spec (r : Requirement) {c : Census MemoryCatalog}
    (htypes : c.world.catalog.types = types) (hsep : c.finder.settings.namespaceSeparator = sep) :
    ∃ w, c.requireAttributes r.types r.requireAll = (r.answer types sep,
        ⟨{ c.finder with
          filter := c.finder.filter.addAll sep ([r].filter (·.succeeds types sep)) }, w⟩) ∧
      w.catalog.types = types := by
  obtain ⟨w, hrequire, hkeep⟩ := c.finder.filter.require_memory sep c.world r
  rw [htypes] at hrequire hkeep
  simp only [requireAttributes, hsep, hrequire, Requirement.answer]
  cases hunknown : r.unknown? types sep with
  | none => exact ⟨w, by simp [Requirement.succeeds, hunknown, Filter.addAll], hkeep⟩
  | some name => exact ⟨w, by simp [Requirement.succeeds, hunknown, Filter.addAll], hkeep⟩

/-- A run of calls is answered call by call, and leaves the filter of those that succeed. -/
theorem requireEach_spec (calls : List Requirement) {c : Census MemoryCatalog}
    (htypes : c.world.catalog.types = types) (hsep : c.finder.settings.namespaceSeparator = sep) :
    ∃ w, c.requireEach calls = (calls.map (·.answer types sep),
        ⟨{ c.finder with
          filter := c.finder.filter.addAll sep (calls.filter (·.succeeds types sep)) }, w⟩) ∧
      w.catalog.types = types := by
  induction calls generalizing c with
  | nil => exact ⟨c.world, rfl, htypes⟩
  | cons r calls ih =>
    obtain ⟨w, hfirst, hkeep⟩ := requireAttributes_spec r htypes hsep
    let d : Census MemoryCatalog := ⟨{ c.finder with
      filter := c.finder.filter.addAll sep ([r].filter (·.succeeds types sep)) }, w⟩
    obtain ⟨w', hrest, hkeep'⟩ := ih (c := d) hkeep hsep
    have hfilter : d.finder.filter.addAll sep (calls.filter (·.succeeds types sep)) =
        c.finder.filter.addAll sep ((r :: calls).filter (·.succeeds types sep)) := by
      simp only [d, Filter.addAll, ← List.foldl_append, ← List.filter_append, List.singleton_append]
    rw [hfilter] at hrest
    exact ⟨w', by simp only [requireEach, hfirst, hrest, List.map_cons, d], hkeep'⟩

/-- Calls on a new filter, over fixed definitions. The policy is that of the first call that
succeeds, even if it gives no names, and the names are those of all calls that succeed, in the
order in which they first came: the filter is the one that these calls alone would have left. A
call that gives an unknown name fails for the first such name and leaves the filter alone. -/
theorem requirements_of_successful_calls (f : Finder) (w : World MemoryCatalog)
    (calls : List Requirement) :
    let sep := f.settings.namespaceSeparator
    let unknown? (r : Requirement) := (r.names sep).find? fun name => !w.catalog.contains name
    let successful := calls.filter fun r => (unknown? r).isNone
    let fresh : Census MemoryCatalog := ⟨{ f with filter := .empty }, w⟩
    let after := (fresh.requireEach calls).2
    after.finder.filter.policy = successful.head?.map Requirement.policy ∧
      Table.keys after.finder.filter.required =
        (successful.flatMap (Requirement.names sep)).eraseDups ∧
      after.finder.filter = (fresh.requireEach successful).2.finder.filter ∧
      ∀ r, match unknown? r with
        | none => (after.requireAttributes r.types r.requireAll).1 = .ok ()
        | some name =>
          let fault := Fault.unknownAttribute name
          (after.requireAttributes r.types r.requireAll).1 = .error (.fault fault) ∧
            fault.family = .config ∧ fault.code.number = 2003 ∧
            (after.requireAttributes r.types r.requireAll).2.finder.filter =
              after.finder.filter := by
  intro sep unknown? successful fresh after
  obtain ⟨v, hrun, hkeep⟩ := requireEach_spec calls (c := fresh) rfl rfl
  obtain ⟨_, halone, -⟩ := requireEach_spec successful (c := fresh) rfl rfl
  have hafter : after.finder.filter = Filter.empty.addAll sep successful := by
    simp only [after, hrun]
    rfl
  refine ⟨?_, ?_, ?_, fun r => ?_⟩
  · rw [hafter, Filter.policy_addAll]
    rfl
  · rw [hafter, Filter.keys_addAll sep successful [] rfl]
    rfl
  · have hsame : successful.filter (fun r => (unknown? r).isNone) = successful := by
      simp [successful, List.filter_filter]
    rw [hafter, halone]
    exact congrArg (Filter.empty.addAll sep) hsame.symm
  · have htypes : after.world.catalog.types = w.catalog.types := by
      simp only [after, hrun]
      exact hkeep
    have hsep : after.finder.settings.namespaceSeparator = sep := by
      simp only [after, hrun]
      rfl
    obtain ⟨_, hcall, -⟩ := requireAttributes_spec r htypes hsep
    have hanswer : r.answer w.catalog.types sep = match unknown? r with
      | none => .ok ()
      | some name => .error (.fault (.unknownAttribute name)) := rfl
    rw [hcall, hanswer]
    cases hunknown : unknown? r with
    | none => rfl
    | some name =>
      have hfails : r.succeeds w.catalog.types sep = false := by
        rw [Requirement.succeeds, show r.unknown? w.catalog.types sep = some name from hunknown]
        rfl
      exact ⟨rfl, rfl, rfl, by simp [hfails, Filter.addAll]⟩

def threeTypes : World MemoryCatalog :=
  .fresh ⟨.dir [], [], [], []⟩ ["A".toList, "B".toList, "C".toList]

/-- Two of these calls fail; the first that succeeds gives no names. -/
def mixedCalls : List Requirement :=
  [⟨[.named "A".toList, .named "X".toList], true⟩, ⟨[], false⟩,
    ⟨[.named "B".toList, .named "A".toList], true⟩, ⟨[.named "Y".toList, .named "X".toList], true⟩,
    ⟨[.named "A".toList, .named "C".toList], false⟩]

theorem requirements_of_mixed_calls :
    (requireEach ⟨{ Finder.new {} with filter := .empty }, threeTypes⟩
        mixedCalls).2.finder.filter.policy = some .any ∧
      Table.keys (requireEach ⟨{ Finder.new {} with filter := .empty }, threeTypes⟩
        mixedCalls).2.finder.filter.required = ["B".toList, "A".toList, "C".toList] := by
  obtain ⟨hpolicy, hnames, -, -⟩ :=
    requirements_of_successful_calls (Finder.new {}) threeTypes mixedCalls
  rw [hpolicy, hnames]
  decide +kernel

end Census
end ClassCensus
