import ClassCensus.Proofs.Passing
import ClassCensus.Proofs.Requirements
import ClassCensus.Proofs.Rescan

/-!
# ClassCensus.Proofs.Selection

What a filter selects, and what more requirements do to it.

A filter that requires anything at all reflects every record in turn, up to the first that cannot
be reflected (`World.reflectAll`); what it requires only decides which of them it keeps
(`select_eq`). Filters therefore differ in what they keep and in nothing else, and a further type
can only take away if all are needed and only add if any is enough.
-/

namespace ClassCensus

/-! ## What calls make of a filter -/

namespace Filter

/-- What one successful call makes of a filter, in whatever world. -/
def Call (κ : Type) [TypeCatalog κ] (sep : Text) (f g : Filter) : Prop :=
  ∃ (w w' : World κ) (types : List TypeArg) (requireAll : Bool),
    f.require sep w types requireAll = (.ok g, w')

/-- What successful calls make of a filter, each in a world of its own. -/
abbrev Calls (κ : Type) [TypeCatalog κ] (sep : Text) : Filter → Filter → Prop :=
  Relation.ReflTransGen (Call κ sep)

section

variable {sep : Text} {f g : Filter} {names : List Text} {requireAll : Bool}

/-- Later calls have no say in the policy. -/
theorem policy_add (h : f.policy.isSome = true) :
    (f.add sep names requireAll).policy = f.policy := by
  obtain ⟨policy, hpolicy⟩ := Option.isSome_iff_exists.1 h
  simp [add, hpolicy]

theorem mem_keys_foldl_put {name : Text} (table : Table Text Text) :
    name ∈ Table.keys (names.foldl (fun t n => Table.put t n (Identity.shortName sep n)) table) ↔
      name ∈ Table.keys table ∨ name ∈ names := by
  induction names generalizing table with
  | nil => simp
  | cons first names ih =>
    rw [List.foldl_cons, ih, Table.mem_keys_put, List.mem_cons]
    tauto

theorem mem_keys_add {name : Text} :
    name ∈ Table.keys (f.add sep names requireAll).required ↔
      name ∈ Table.keys f.required ∨ name ∈ names :=
  mem_keys_foldl_put f.required

end

section

variable {κ : Type} [TypeCatalog κ] {sep : Text} {f g : Filter}

theorem Call.exists_add (h : Call κ sep f g) :
    ∃ names requireAll, g = f.add sep names requireAll := by
  obtain ⟨w, w', types, requireAll, hcall⟩ := h
  simp only [require] at hcall
  split at hcall
  · cases hcall
  · cases hcall
    exact ⟨_, _, rfl⟩

/-- A filter that has names has a policy. -/
theorem Calls.policy_isSome (h : Calls κ sep .empty f) (hf : f.required ≠ []) :
    f.policy.isSome = true := by
  cases h with
  | refl => exact absurd rfl hf
  | tail _ hlast =>
    obtain ⟨names, requireAll, rfl⟩ := hlast.exists_add
    rfl

theorem Calls.policy (h : Calls κ sep f g) (hf : f.policy.isSome = true) : g.policy = f.policy := by
  induction h with
  | refl => rfl
  | tail _ hlast ih =>
    obtain ⟨names, requireAll, rfl⟩ := hlast.exists_add
    rw [policy_add (by rw [ih, hf]), ih]

theorem Calls.keys (h : Calls κ sep f g) : Table.keys f.required ⊆ Table.keys g.required := by
  induction h with
  | refl => exact List.Subset.refl _
  | tail _ hlast ih =>
    obtain ⟨names, requireAll, rfl⟩ := hlast.exists_add
    exact fun name hname => mem_keys_add.2 (.inl (ih hname))

end

section

variable {f g : Filter}

theorem required_eq_nil : f.required = [] ↔ ∀ name, name ∉ Table.keys f.required := by
  rw [← List.eq_nil_iff_forall_not_mem, Table.keys, List.map_eq_nil_iff]

theorem required_ne_nil (h : Table.keys f.required ⊆ Table.keys g.required) (hf : f.required ≠ []) :
    g.required ≠ [] := by
  intro hnil
  rw [required_eq_nil] at hnil
  exact hf (required_eq_nil.2 fun name hname => hnil name (h hname))

theorem accepts_of_all {r : Reflection} (h : f.policy = some .all) :
    f.accepts r = true ↔ ∀ name ∈ Table.keys f.required, r.has name = true := by
  simp [accepts, h]

theorem accepts_of_any {r : Reflection} (h : f.policy = some .any) :
    f.accepts r = true ↔ ∃ name ∈ Table.keys f.required, r.has name = true := by
  simp [accepts, h]

theorem required_of_keys {name : Text} (h : Table.keys f.required = [name]) : f.required ≠ [] := by
  intro hnil
  rw [required_eq_nil, h] at hnil
  exact hnil name List.mem_cons_self

/-- Where one type is all that is required the policy does not matter. -/
theorem accepts_of_single {name : Text} (h : Table.keys f.required = [name]) (r : Reflection) :
    f.accepts r = r.has name := by
  unfold accepts
  rw [h]
  split <;> simp

/-- Neither the order of the types nor their short names matter. -/
theorem accepts_congr (hpolicy : g.policy = f.policy)
    (hnames : ∀ name, name ∈ Table.keys g.required ↔ name ∈ Table.keys f.required)
    (r : Reflection) : g.accepts r = f.accepts r := by
  unfold accepts
  rw [hpolicy, Bool.eq_iff_iff]
  rcases f.policy with _ | _ | _ <;> simp [hnames]

theorem isEmpty_congr
    (hnames : ∀ name, name ∈ Table.keys g.required ↔ name ∈ Table.keys f.required) :
    g.required.isEmpty = f.required.isEmpty := by
  rw [Bool.eq_iff_iff, List.isEmpty_iff, List.isEmpty_iff, required_eq_nil, required_eq_nil]
  simp only [hnames]

end

section

variable {κ : Type} [TypeCatalog κ] {f g : Filter}

theorem passes_congr (hpolicy : g.policy = f.policy)
    (hnames : ∀ name, name ∈ Table.keys g.required ↔ name ∈ Table.keys f.required)
    (w : World κ) (record : Record) : g.passes w record = f.passes w record := by
  simp only [passes_eq, isEmpty_congr hnames, accepts_congr hpolicy hnames]

theorem passes_fst (h : f.required ≠ []) (w : World κ) (record : Record) :
    (f.passes w record).1 = (w.reflection record).map f.accepts := by
  have hsome : f.required.isEmpty = false := by simpa using h
  rw [passes_eq, hsome, ← World.reflect_fst]
  rcases w.reflect record with ⟨e | r, w'⟩ <;> rfl

end

end Filter

/-! ## Reflecting all records -/

namespace World

variable {κ : Type} [TypeCatalog κ] {w w' : World κ}

/-- Reflects records in turn, up to the first that fails. -/
def reflectAll (w : World κ) :
    List (Text × Record) → Listing ((Text × Record) × Reflection) × World κ
  | [] => (.empty, w)
  | entry :: rest =>
    match w.reflect entry.2 with
    | (.error e, w) => (.refused e, w)
    | (.ok r, w) =>
      let (found, w) := w.reflectAll rest
      ((Listing.single (entry, r)).append found, w)

/-- The records that were reflected are those before the failure, or all of them. -/
theorem reflectAll_prefix (records : List (Text × Record)) (w : World κ) :
    (w.reflectAll records).1.items.map Prod.fst <+: records ∧
      ((w.reflectAll records).1.cut = none →
        (w.reflectAll records).1.items.map Prod.fst = records) := by
  induction records generalizing w with
  | nil => simp [reflectAll, Listing.empty]
  | cons entry records ih =>
    simp only [reflectAll]
    rcases w.reflect entry.2 with ⟨e | r, w'⟩
    · simp [Listing.refused]
    · simpa [Listing.append, Listing.single] using ih w'

/-- Whatever is remembered stays so. -/
theorem remembered?_reflect {record : Record} {r : Reflection}
    (h : w.ledger.remembered? record = some r) (other : Record) :
    (w.reflect other).2.ledger.remembered? record = some r := by
  unfold reflect
  cases hother : w.ledger.remembered? other with
  | some r' => exact h
  | none =>
    have hne : other.serial ≠ record.serial := by
      intro heq
      rw [Ledger.remembered?, heq] at hother
      cases h.symm.trans hother
    simp only [ask]
    cases (TypeCatalog.reflect w.catalog other.facts.className).answer with
    | error e => exact h
    | ok r' =>
      have hput := Table.get?_put w.ledger.reflections other.serial record.serial r'
      rw [if_neg hne] at hput
      exact hput.trans h

theorem remembered?_reflectAll {record : Record} {r : Reflection}
    (records : List (Text × Record)) (h : w.ledger.remembered? record = some r) :
    (w.reflectAll records).2.ledger.remembered? record = some r := by
  induction records generalizing w with
  | nil => exact h
  | cons entry records ih =>
    have hfirst := remembered?_reflect h entry.2
    simp only [reflectAll]
    rcases hres : w.reflect entry.2 with ⟨e | r', w'⟩
    · rw [hres] at hfirst
      exact hfirst
    · rw [hres] at hfirst
      exact ih hfirst

theorem remembered?_of_reflectAll (records : List (Text × Record)) (w : World κ) :
    ∀ found ∈ (w.reflectAll records).1.items,
      (w.reflectAll records).2.ledger.remembered? found.1.2 = some found.2 := by
  induction records generalizing w with
  | nil => simp [reflectAll, Listing.empty]
  | cons entry records ih =>
    simp only [reflectAll]
    rcases hres : w.reflect entry.2 with ⟨e | r, w'⟩
    · simp [Listing.refused]
    · intro found hfound
      rcases Listing.mem_of_mem_append hfound with hfound | hfound
      · obtain rfl : found = (entry, r) := by simpa [Listing.single] using hfound
        exact remembered?_reflectAll records (remembered?_of_reflect hres)
      · exact ih w' found hfound

/-- What is remembered of all records is what reflecting them gives, and it changes nothing. -/
theorem reflectAll_of_remembered {found : List ((Text × Record) × Reflection)}
    (h : ∀ x ∈ found, w.ledger.remembered? x.1.2 = some x.2) :
    w.reflectAll (found.map Prod.fst) = (⟨found, none⟩, w) := by
  induction found with
  | nil => rfl
  | cons x found ih =>
    have hfirst : w.reflect x.1.2 = (.ok x.2, w) := by
      simp only [reflect, h x (by simp)]
    simp only [List.map_cons, reflectAll, hfirst, ih fun y hy => h y (by simp [hy])]
    rfl

end World

/-! ## Selecting -/

namespace Filter

variable {κ : Type} [TypeCatalog κ] {f g : Filter}

/-- What of the reflected records a filter keeps. -/
def keep (f : Filter) (l : Listing ((Text × Record) × Reflection)) : Listing (Text × Record) :=
  ⟨(l.items.filter fun x => f.accepts x.2).map Prod.fst, l.cut⟩

theorem select_eq (hf : f.required ≠ []) (records : List (Text × Record)) (w : World κ) :
    f.select w records = (f.keep (w.reflectAll records).1, (w.reflectAll records).2) := by
  have hsome : f.required.isEmpty = false := by simpa using hf
  induction records generalizing w with
  | nil => rfl
  | cons entry records ih =>
    obtain ⟨key, record⟩ := entry
    simp only [select, World.reflectAll, passes_eq, hsome]
    rcases w.reflect record with ⟨e | r, w'⟩
    · rfl
    · have hrest := ih w'
      cases hacc : f.accepts r <;> simp [hrest, keep, Listing.append, Listing.single, hacc]

/-- How what a filter lists out of a registry compares with what it lists when more is required:
both end alike and keep the order, and the policy decides which of them has fewer entries. -/
structure Compares (policy : Option Policy) (registry : Registry)
    (before after : Listing (Text × Record)) : Prop where
  cut : after.cut = before.cut
  inOrder : before.items.Sublist registry ∧ after.items.Sublist registry
  shrinks : policy = some .all → after.items.Sublist before.items
  grows : policy = some .any → before.items.Sublist after.items

theorem keep_mono {l : Listing ((Text × Record) × Reflection)}
    (h : ∀ x ∈ l.items, f.accepts x.2 = true → g.accepts x.2 = true) :
    (f.keep l).items.Sublist (g.keep l).items :=
  (sublist_filter_of_imp h).map Prod.fst

theorem keep_sublist {l : Listing ((Text × Record) × Reflection)} {registry : Registry}
    (h : l.items.map Prod.fst <+: registry) : (f.keep l).items.Sublist registry :=
  (List.filter_sublist.map _).trans h.sublist

theorem compares_keep {l : Listing ((Text × Record) × Reflection)} {registry : Registry}
    (hl : l.items.map Prod.fst <+: registry) (hpolicy : g.policy = f.policy)
    (hnames : Table.keys f.required ⊆ Table.keys g.required) :
    Compares f.policy registry (f.keep l) (g.keep l) where
  cut := rfl
  inOrder := ⟨keep_sublist hl, keep_sublist hl⟩
  shrinks hall := by
    refine keep_mono fun x _ hr => ?_
    rw [accepts_of_all hall]
    rw [accepts_of_all (hpolicy.trans hall)] at hr
    exact fun name hname => hr name (hnames hname)
  grows hany := by
    refine keep_mono fun x _ hr => ?_
    rw [accepts_of_any hany] at hr
    rw [accepts_of_any (hpolicy.trans hany)]
    obtain ⟨name, hname, hhas⟩ := hr
    exact ⟨name, hnames hname, hhas⟩

end Filter

/-! ## Scanning under another filter -/

namespace Census

variable {κ : Type} {f g : Filter}

def withFilter (c : Census κ) (f : Filter) : Census κ :=
  { c with finder := { c.finder with filter := f } }

section

variable (c : Census κ)

@[simp] theorem withFilter_world : (c.withFilter f).world = c.world := rfl
@[simp] theorem withFilter_settings : (c.withFilter f).finder.settings = c.finder.settings := rfl
@[simp] theorem withFilter_registry : (c.withFilter f).finder.registry = c.finder.registry := rfl
@[simp] theorem withFilter_pending : (c.withFilter f).pending = c.pending := rfl

theorem withFilter_inWorld (w : World κ) :
    { c.withFilter f with world := w } = ({ c with world := w } : Census κ).withFilter f := rfl

@[simp] theorem withFilter_tell (notices : List Notice) :
    (c.withFilter f).tell notices = (c.tell notices).withFilter f := rfl

end

/-! A scan does not look at the filter: under another one it ends alike, and leaves the same but
for the filter. -/

theorem enroll_withFilter (found : Option ClassFacts) (c : Census κ) :
    (c.withFilter f).enroll found = ((c.enroll found).1, (c.enroll found).2.withFilter f) := by
  cases found with
  | none => rfl
  | some facts =>
    simp only [enroll, withFilter_registry, withFilter_world]
    rcases c.finder.registry.enroll c.world facts with ⟨e | registry, w⟩ <;> rfl

theorem enrollAll_withFilter (answers : List (Except Failure (Option ClassFacts)))
    (c : Census κ) :
    (c.withFilter f).enrollAll answers =
      ((c.enrollAll answers).1, (c.enrollAll answers).2.withFilter f) := by
  induction answers generalizing c with
  | nil => rfl
  | cons answer answers ih =>
    cases answer with
    | error e => rfl
    | ok found =>
      simp only [enrollAll, enroll_withFilter]
      rcases c.enroll found with ⟨e | _, d⟩
      · rfl
      · exact ih d

variable [TypeCatalog κ]

theorem parseInTurn_withFilter (files : List Text) (c : Census κ) :
    (c.withFilter f).parseInTurn files =
      ((c.parseInTurn files).1, (c.parseInTurn files).2.withFilter f) := by
  induction files generalizing c with
  | nil => rfl
  | cons file files ih =>
    simp only [parseInTurn, withFilter_world, withFilter_settings]
    rcases c.world.ask (Scanner.scan c.world.files c.finder.settings · file) with ⟨e | found, w⟩
    · rfl
    · simp only [withFilter_inWorld, enroll_withFilter]
      rcases enroll { c with world := w } found with ⟨e | _, d⟩
      · rfl
      · exact ih d

theorem parse_withFilter (files : Listing Text) (c : Census κ) :
    (c.withFilter f).parse files = ((c.parse files).1, (c.parse files).2.withFilter f) := by
  simp only [parse, withFilter_settings, withFilter_world, withFilter_inWorld]
  by_cases hpar : c.finder.settings.isParallel = true
  · simp only [hpar, if_true]
    cases files.cut with
    | some e => rfl
    | none => exact enrollAll_withFilter _ _
  · simp only [hpar, Bool.false_eq_true, if_false, parseInTurn_withFilter]
    rcases c.parseInTurn files.items with ⟨e | _, d⟩
    · rfl
    · cases files.cut <;> rfl

theorem scanRoot_withFilter (root : Root) (c : Census κ) :
    (c.withFilter f).scanRoot root = ((c.scanRoot root).1, (c.scanRoot root).2.withFilter f) := by
  simp only [scanRoot, withFilter_tell, withFilter_world, withFilter_settings,
    withFilter_registry]
  cases Walk.enumerate (c.tell [.scanStarted root.path root.recursive]).world.files
      (c.tell [.scanStarted root.path root.recursive]).finder.settings root.recursive root.path with
  | error e => rfl
  | ok listed =>
    obtain ⟨notice, files⟩ := listed
    simp only [parse_withFilter]
    rcases ((c.tell [.scanStarted root.path root.recursive]).tell [notice]).parse files with
      ⟨e | _, d⟩ <;> rfl

theorem scanRoots_withFilter (roots : List Root) (c : Census κ) :
    (c.withFilter f).scanRoots roots =
      ((c.scanRoots roots).1, (c.scanRoots roots).2.withFilter f) := by
  induction roots generalizing c with
  | nil => rfl
  | cons root roots ih =>
    simp only [scanRoots, scanRoot_withFilter]
    rcases c.scanRoot root with ⟨e | _, d⟩
    · rfl
    · exact ih d

theorem scanFiles_withFilter (c : Census κ) :
    (c.withFilter f).scanFiles = (c.scanFiles.1, c.scanFiles.2.withFilter f) := by
  simp only [scanFiles, withFilter_pending, withFilter_world]
  cases c.pending with
  | nil => rfl
  | cons root roots =>
    cases c.world.scanId with
    | some id => exact scanRoots_withFilter (root :: roots) c
    | none =>
      simp only [withFilter_inWorld, scanRoots_withFilter]
      rfl

theorem all_withFilter (c : Census κ) :
    (c.withFilter f).all = (c.all.1, c.all.2.withFilter f) := by
  simp only [all, scanFiles_withFilter]
  rcases c.scanFiles with ⟨e | _, d⟩ <;> rfl

/-- What a filter lists is a selection of the registry once all roots are scanned. -/
theorem matching_withFilter (c : Census κ) :
    (c.withFilter f).matching.1 = c.all.1.map fun registry =>
      (f.select c.all.2.world registry).1 := by
  simp only [matching, all_withFilter]
  rcases c.all with ⟨e | registry, d⟩ <;> rfl

/-! ## Listing again -/

/-- A listing that came to its end has left every reflection remembered and no root waiting. -/
theorem remembered_of_matching {c d : Census κ} {listed : Listing (Text × Record)}
    (hf : c.finder.filter.required ≠ []) (h : c.matching = (.ok listed, d))
    (hcut : listed.cut = none) :
    d.Settled ∧ d.finder.filter = c.finder.filter ∧
      ∃ found, found.map Prod.fst = d.finder.registry ∧
        listed = c.finder.filter.keep ⟨found, none⟩ ∧
        ∀ x ∈ found, d.world.ledger.remembered? x.1.2 = some x.2 := by
  simp only [matching, all] at h
  rcases hscan : c.scanFiles with ⟨e | _, m⟩
  · rw [hscan] at h
    cases h
  · have hfilter : m.finder.filter = c.finder.filter := by
      have hsteps := (scanFiles_steps c).filter
      rwa [hscan] at hsteps
    have hsettled := scanFiles_settles hscan
    simp only [hscan, hfilter, Filter.select_eq hf] at h
    cases h
    obtain ⟨-, hwhole⟩ := World.reflectAll_prefix m.finder.registry m.world
    refine ⟨hsettled, hfilter, _, hwhole hcut, ?_, World.remembered?_of_reflectAll _ _⟩
    rw [← hcut]
    rfl

/-- Where every reflection is remembered and no root waits, a listing changes nothing. -/
theorem matching_of_remembered {c : Census κ} {found : List ((Text × Record) × Reflection)}
    (hsettled : c.Settled) (hf : c.finder.filter.required ≠ [])
    (hfound : found.map Prod.fst = c.finder.registry)
    (h : ∀ x ∈ found, c.world.ledger.remembered? x.1.2 = some x.2) :
    c.matching = (.ok (c.finder.filter.keep ⟨found, none⟩), c) := by
  simp only [matching, all, scanFiles_of_settled hsettled, Filter.select_eq hf, ← hfound,
    World.reflectAll_of_remembered h]

end Census

namespace Filter

variable {κ : Type} [TypeCatalog κ]

theorem confirmAll_ledger (names : List Text) (w : World κ) :
    (confirmAll w names).2.ledger = w.ledger := by
  induction names generalizing w with
  | nil => rfl
  | cons name names ih =>
    simp only [confirmAll, World.ask]
    rcases (TypeCatalog.confirm w.catalog name).answer with e | _ | _
    · rfl
    · rfl
    · exact ih _

theorem require_ledger (f : Filter) (sep : Text) (w : World κ) (types : List TypeArg)
    (requireAll : Bool) : (f.require sep w types requireAll).2.ledger = w.ledger := by
  have hledger := confirmAll_ledger (types.map (·.identity sep)) w
  rcases hconfirm : confirmAll w (types.map (·.identity sep)) with ⟨e | _, w'⟩
  · rw [hconfirm] at hledger
    simp only [require, hconfirm]
    exact hledger
  · rw [hconfirm] at hledger
    simp only [require, hconfirm]
    exact hledger

end Filter

namespace Census

variable {κ : Type} [TypeCatalog κ]

/-- A call changes no more than the filter and the catalog. -/
theorem requireAttributes_calls (c : Census κ) (types : List TypeArg) (requireAll : Bool) :
    ∃ g w, (c.requireAttributes types requireAll).2 = ⟨{ c.finder with filter := g }, w⟩ ∧
      w.ledger = c.world.ledger ∧
      Filter.Calls κ c.finder.settings.namespaceSeparator c.finder.filter g := by
  have hledger := c.finder.filter.require_ledger c.finder.settings.namespaceSeparator c.world
    types requireAll
  simp only [requireAttributes]
  rcases hcall : c.finder.filter.require c.finder.settings.namespaceSeparator c.world types
    requireAll with ⟨e | g, w⟩
  · rw [hcall] at hledger
    exact ⟨_, w, rfl, hledger, .refl⟩
  · rw [hcall] at hledger
    exact ⟨g, w, rfl, hledger, .single ⟨_, _, _, _, hcall⟩⟩

theorem requireEach_calls (calls : List Requirement) (c : Census κ) :
    ∃ g w, (c.requireEach calls).2 = ⟨{ c.finder with filter := g }, w⟩ ∧
      w.ledger = c.world.ledger ∧
      Filter.Calls κ c.finder.settings.namespaceSeparator c.finder.filter g := by
  induction calls generalizing c with
  | nil => exact ⟨_, _, rfl, rfl, .refl⟩
  | cons r calls ih =>
    obtain ⟨g, w, hfirst, hledger, hcalls⟩ := requireAttributes_calls c r.types r.requireAll
    obtain ⟨g', w', hrest, hledger', hcalls'⟩ := ih ⟨{ c.finder with filter := g }, w⟩
    refine ⟨g', w', ?_, hledger'.trans hledger, hcalls.trans hcalls'⟩
    simp only [requireEach, hfirst, hrest]

/-- A filter that requires nothing passes every record and reflects none. One that requires
something fails just if the reflection of the record is not remembered and the catalog fails to
give it, with that failure; otherwise it answers whether all of the types, or any of them, are the
name or an ancestor of an attribute. So the order in which types were added does not matter.

Once there is a type, further ones only take entries from a listing if all are needed, and only add
entries if any is enough, in the order of the registry: in a census that is put under one filter or
the other, and in a census that lists, requires more, and lists again. -/
theorem filter_judges_by_reflection {κ : Type} [TypeCatalog κ] {sep : Text} {f : Filter}
    (hf : Filter.Calls κ sep .empty f) :
    (f.required = [] → ∀ (w : World κ) record, f.passes w record = (.ok true, w)) ∧
    (f.required ≠ [] → ∀ (w : World κ) record,
      (∀ e, (f.passes w record).1 = .error e ↔
        w.ledger.remembered? record = none ∧
          (TypeCatalog.reflect w.catalog record.facts.className).answer = .error e) ∧
      ∀ r, w.reflection record = .ok r → ∃ answer, (f.passes w record).1 = .ok answer ∧
        (f.policy = some .all ∧ (answer = true ↔ ∀ name ∈ Table.keys f.required,
            ∃ a ∈ r.attributes, name = a.name ∨ name ∈ a.ancestors) ∨
          f.policy = some .any ∧ (answer = true ↔ ∃ name ∈ Table.keys f.required,
            ∃ a ∈ r.attributes, name = a.name ∨ name ∈ a.ancestors))) ∧
    (∀ g : Filter, g.policy = f.policy →
      (∀ name, name ∈ Table.keys g.required ↔ name ∈ Table.keys f.required) →
      ∀ (w : World κ) record, g.passes w record = f.passes w record) ∧
    (f.required ≠ [] → ∀ g, Filter.Calls κ sep f g → ∀ c : Census κ,
      (∀ e, c.all.1 = .error e →
        (c.withFilter f).matching.1 = .error e ∧ (c.withFilter g).matching.1 = .error e) ∧
      ∀ registry, c.all.1 = .ok registry → ∃ before after,
        (c.withFilter f).matching.1 = .ok before ∧ (c.withFilter g).matching.1 = .ok after ∧
          Filter.Compares f.policy registry before after) ∧
    (f.required ≠ [] → ∀ (c d : Census κ) before, c.finder.filter = f →
      c.matching = (.ok before, d) → before.cut = none → ∀ calls, ∃ after,
        (d.requireEach calls).2.matching = (.ok after, (d.requireEach calls).2) ∧
          Filter.Compares f.policy d.finder.registry before after) := by
  refine ⟨fun hnil w record => ?_, fun hsome w record => ?_, fun g hpolicy hnames => ?_,
    fun hsome g hg c => ?_, fun hsome c d before hc hlisted hcut calls => ?_⟩
  · simp [Filter.passes, hnil]
  · have hpasses := Filter.passes_fst hsome w record
    constructor
    · intro e
      rw [hpasses, ← World.reflection_eq_error]
      cases w.reflection record <;> simp [Except.map]
    · intro r hr
      refine ⟨f.accepts r, by rw [hpasses, hr]; rfl, ?_⟩
      obtain ⟨policy, hpolicy⟩ := Option.isSome_iff_exists.1 (hf.policy_isSome hsome)
      simp only [← Reflection.has_iff]
      cases policy with
      | all => exact .inl ⟨hpolicy, Filter.accepts_of_all hpolicy⟩
      | any => exact .inr ⟨hpolicy, Filter.accepts_of_any hpolicy⟩
  · exact Filter.passes_congr hpolicy hnames
  · have hpolicy := hg.policy (hf.policy_isSome hsome)
    have hmore := Filter.required_ne_nil hg.keys hsome
    simp only [matching_withFilter]
    refine ⟨fun e he => by simp [he, Except.map], fun registry hall => ?_⟩
    obtain ⟨hfront, -⟩ := World.reflectAll_prefix registry c.all.2.world
    refine ⟨_, _, congrArg _ hall, congrArg _ hall, ?_⟩
    simp only [Filter.select_eq hsome, Filter.select_eq hmore]
    exact Filter.compares_keep hfront hpolicy hg.keys
  · subst hc
    obtain ⟨hsettled, hfilter, found, hfound, rfl, hremembered⟩ :=
      remembered_of_matching hsome hlisted hcut
    obtain ⟨g, w, hcalled, hledger, hg⟩ := requireEach_calls calls d
    rw [hfilter] at hg
    have hmore := Filter.required_ne_nil hg.keys hsome
    rw [hcalled]
    refine ⟨_, matching_of_remembered ?_ hmore hfound ?_, ?_⟩
    · exact Advances.settled ⟨rfl, List.Subset.refl _⟩ hsettled
    · rw [hledger]
      exact hremembered
    · have hfront : found.map Prod.fst <+: d.finder.registry := hfound ▸ List.prefix_rfl
      exact Filter.compares_keep hfront (hg.policy (hf.policy_isSome hsome)) hg.keys

/-- Two attribute types, and two classes of which the second has attributes of both. -/
def paintedCatalog : MemoryCatalog :=
  let paint : AttributeRef := ⟨"Red".toList, ["Paint".toList], [], [], none⟩
  let types : List Reflection :=
    [.bare "Paint".toList, .bare "Round".toList, ⟨"K".toList, none, [paint], none⟩,
      ⟨"M".toList, none, [.bare "Round".toList, paint], none⟩]
  ⟨types.map fun r => (r.identity, r), []⟩

def plainCensus : Census MemoryCatalog :=
  ⟨{ Finder.new {} with roots := [("/w/src".toList, true)] },
    ⟨deeperFiles, paintedCatalog, .empty, none, 0, []⟩⟩

/-- A census whose classes are to have an attribute of the type `Paint`. -/
def paintedCensus : Census MemoryCatalog :=
  (plainCensus.requireAttributes [.named "Paint".toList] true).2

/-- The census once it has listed its classes, been asked for a type that does not exist, and
required another that does. -/
def roundCensus : Census MemoryCatalog :=
  (paintedCensus.matching.2.requireEach
    [⟨[.named "Green".toList], false⟩, ⟨[.named "Round".toList], false⟩]).2

/-- What a census lists, if it lists anything. -/
def listed (c : Census MemoryCatalog) : Listing (Text × Record) :=
  c.matching.1.toOption.getD .empty

theorem listed_of_matching {c d : Census MemoryCatalog} {l : Listing (Text × Record)}
    (h : c.matching = (.ok l, d)) : listed c = l := by
  rw [listed, h]
  rfl

theorem painted_classes_shrink :
    (listed paintedCensus).items.map (·.2.facts.className) = ["M".toList, "K".toList] ∧
      (listed roundCensus).items.map (·.2.facts.className) = ["M".toList] ∧
      (listed roundCensus).items.Sublist (listed paintedCensus).items := by
  refine ⟨by decide +kernel, by decide +kernel, ?_⟩
  obtain ⟨g, w, hcensus, -, hcalls⟩ :=
    requireAttributes_calls plainCensus [.named "Paint".toList] true
  have hfilter : paintedCensus.finder.filter = g := by rw [paintedCensus, hcensus]
  have hnames : paintedCensus.finder.filter.required ≠ [] := by decide +kernel
  have hpolicy : paintedCensus.finder.filter.policy = some .all := by decide +kernel
  have hok : paintedCensus.matching.1.isOk = true := by decide +kernel
  have hwhole : (listed paintedCensus).cut = none := by decide +kernel
  rcases hmatching : paintedCensus.matching with ⟨e | fewer, d⟩
  · rw [hmatching] at hok
    cases hok
  · rw [listed_of_matching hmatching] at hwhole
    obtain ⟨-, -, -, -, hagain⟩ := filter_judges_by_reflection hcalls
    rw [hfilter] at hnames hpolicy
    obtain ⟨more, hmore, hcompares⟩ := hagain hnames paintedCensus d fewer hfilter hmatching hwhole
      [⟨[.named "Green".toList], false⟩, ⟨[.named "Round".toList], false⟩]
    rw [listed_of_matching hmatching, roundCensus, hmatching, listed_of_matching hmore]
    exact hcompares.shrinks hpolicy

end Census
end ClassCensus
