import ClassCensus.Proofs.MadeClasses
import ClassCensus.Proofs.Selection

/-!
# ClassCensus.Proofs.Subtypes

The attributes of a type and those of the types below it, in a catalog of modules.

A reference holds the identities of a class and of its ancestors, and no more. Where identities
tell classes apart, an attribute that is of a type by its identities is an instance of that class
or of one below it (`inherits_of_hasType`), so that it has all the ancestors of the type too
(`hasType_of_inherits`). Every reflection that a catalog of modules gives is made of such
references (`exists_reference`), also those that a census remembers (`World.OfModules`).
-/

namespace ClassCensus

/-- Classes that are told apart by their identities. The class of all objects is one of them, and
so are the bases of each. -/
structure Lineage.Distinct (sep : Text) (classes : Set Lineage) : Prop where
  root : Builtin.root ∈ classes
  bases : ∀ l ∈ classes, ∀ b ∈ l.bases, b ∈ classes
  identity : ∀ l ∈ classes, ∀ m ∈ classes, l.name.identity sep = m.name.identity sep → l = m

/-! ## References -/

section

variable {sep : Text} {classes : Set Lineage} {l S B : Lineage} {o : Object}

theorem Lineage.Distinct.descends (h : Lineage.Distinct sep classes) (hl : l ∈ classes)
    (hB : Relation.ReflTransGen (fun l b => b ∈ l.bases) l B) : B ∈ classes := by
  induction hB with
  | refl => exact hl
  | tail _ hb ih => exact h.bases _ ih _ hb

theorem ModuleCatalog.hasType_reference {name : Text} :
    (reference sep o).hasType name = true ↔
      name = (lineageOf o).name.identity sep ∨
        ∃ n ∈ (lineageOf o).ancestors, n ≠ Builtin.object ∧ n.identity sep = name := by
  simp only [AttributeRef.hasType_iff, reference, List.mem_map, List.mem_filter, bne_iff_ne,
    and_assoc]

/-- An attribute that is of a type by its identities is an instance of that class or of one below
it. -/
theorem inherits_of_hasType (h : Lineage.Distinct sep classes) (hmade : o.Sound)
    (ho : ModuleCatalog.lineageOf o ∈ classes) (hS : S ∈ classes)
    (htype : (ModuleCatalog.reference sep o).hasType (S.name.identity sep) = true) :
    Relation.ReflTransGen (fun l b => b ∈ l.bases) (ModuleCatalog.lineageOf o) S := by
  have hname : ∃ n ∈ (ModuleCatalog.lineageOf o).order, n.identity sep = S.name.identity sep := by
    rcases ModuleCatalog.hasType_reference.1 htype with hown | ⟨n, hn, -, hidentity⟩
    · exact ⟨_, List.mem_cons_self, hown.symm⟩
    · exact ⟨n, List.mem_cons_of_mem _ hn, hidentity⟩
  obtain ⟨n, hn, hidentity⟩ := hname
  obtain ⟨a, ha, rfl⟩ := Lineage.exists_of_mem_order hmade hn
  rwa [h.identity a (h.descends ho ha) S hS hidentity] at ha

theorem hasType_of_inherits (h : Lineage.Distinct sep classes) (hmade : o.Sound)
    (ho : ModuleCatalog.lineageOf o ∈ classes) (hroot : B ≠ Builtin.root)
    (hB : (ModuleCatalog.lineageOf o).Inherits B) :
    (ModuleCatalog.reference sep o).hasType (B.name.identity sep) = true := by
  have hmem : B.name ∈ (ModuleCatalog.lineageOf o).ancestors :=
    (Lineage.order_sublist_of_inherits hmade hB).subset List.mem_cons_self
  -- a class by the name of the class of all objects is that class
  have hname : B.name ≠ Builtin.object := by
    intro hname
    refine hroot (h.identity B (h.descends ho hB.to_reflTransGen) _ h.root ?_)
    rw [hname]
    rfl
  exact ModuleCatalog.hasType_reference.2 (.inr ⟨B.name, hmem, hname, rfl⟩)

end

/-! ## Reflections -/

namespace ModuleCatalog

variable {base : Text} {specs : Table Text ModuleSpec} {sep : Text} {c : ModuleCatalog}

/-- The catalog of the modules that are listed, whatever has been imported so far. -/
structure Hosts (base : Text) (specs : Table Text ModuleSpec) (sep : Text) (c : ModuleCatalog) :
    Prop where
  space : c.space.Reached base specs
  separator : c.separator = sep

theorem Hosts.lookUp (h : Hosts base specs sep c) (load : Bool) (identity : Text) :
    Hosts base specs sep (c.lookUp load identity).catalog := by
  have hcourse := lookUp_course load c identity
  generalize c.lookUp load identity = reply at hcourse
  cases hcourse with
  | senseless _ => exact h
  | unnamed _ _ => exact h
  | passed _ _ _ _ => exact h
  | loaded _ _ _ =>
    rw [classIn_catalog]
    exact ⟨h.space.look _ _, h.separator⟩
  | @imported home name s _ _ _ _ hload =>
    have hs : s = (c.space.load home).2 := by rw [hload]
    rw [classIn_catalog, hs]
    exact ⟨(h.space.load home).look _ _, h.separator⟩
  | @failed home name r s _ _ _ _ hload =>
    have hs : s = (c.space.load home).2 := by rw [hload]
    rw [hs]
    exact ⟨h.space.load home, h.separator⟩

theorem Hosts.sound (h : Hosts base specs sep c) {load : Bool} {identity : Text} {b : Binding}
    (hb : (c.lookUp load identity).answer = .ok (some b)) : b.Sound := by
  obtain ⟨home, name, s, -, -, hs, -, hlook, -, -⟩ := (lookUp_course load c identity).found hb
  have hreached : s.Reached base specs := by
    rcases hs with rfl | rfl
    · exact h.space
    · exact h.space.load home
  exact (hreached.sound.look home name).2 b (congrArg Prod.fst hlook)

/-- Every attribute in a reflection refers to an object of a well-made class. -/
theorem Hosts.exists_reference (h : Hosts base specs sep c) {identity : Text} {r : Reflection}
    (hr : (c.reflect identity).answer = .ok r) {a : AttributeRef} (ha : a ∈ r.attributes) :
    ∃ o : Object, o.Sound ∧ a = reference sep o := by
  rw [reflect_answer] at hr
  rcases hlook : (c.lookUp true identity).answer with e | _ | b
  · rw [hlook] at hr
    cases hr
  · rw [hlook] at hr
    cases hr
  · rw [hlook] at hr
    cases hr
    cases h.sound hlook with
    | other => cases ha
    | importer => cases ha
    | hook answers => cases ha
    | type hclass hattached hmembers =>
      obtain ⟨o, ho, rfl⟩ := List.mem_map.1 ha
      exact ⟨o, hattached o ho, by rw [(h.lookUp true identity).separator]⟩

end ModuleCatalog

namespace Reflection

/-- The attributes are objects of these classes. -/
def Bears (classes : Set Lineage) (r : Reflection) : Prop :=
  ∀ a ∈ r.attributes, ∀ o, a.instantiate = .ok o → ModuleCatalog.lineageOf o ∈ classes

/-- A reflection that the catalog of modules gave at some time. -/
def OfModules (base : Text) (specs : Table Text ModuleSpec) (sep : Text) (r : Reflection) : Prop :=
  ∃ (c : ModuleCatalog) (identity : Text),
    c.Hosts base specs sep ∧ (c.reflect identity).answer = .ok r

variable {base : Text} {specs : Table Text ModuleSpec} {sep : Text} {classes : Set Lineage}
  {S B : Lineage} {r : Reflection}

theorem has_of_sublist {m n : Text}
    (h : (r.attributesOf (some m)).Sublist (r.attributesOf (some n))) (hm : r.has m = true) :
    r.has n = true := by
  simp only [has, Bool.not_eq_true', List.isEmpty_eq_false_iff] at hm ⊢
  intro hnone
  rw [hnone] at h
  exact hm (List.sublist_nil.1 h)

/-- The attributes of a type are among those of a type above it, in their order. -/
theorem attributesOf_sublist (h : Lineage.Distinct sep classes) (hS : S ∈ classes)
    (hB : S.Inherits B) (hroot : B ≠ Builtin.root) (hr : r.OfModules base specs sep)
    (hbears : r.Bears classes) :
    (r.attributesOf (some (S.name.identity sep))).Sublist
      (r.attributesOf (some (B.name.identity sep))) := by
  obtain ⟨c, identity, hc, hreflect⟩ := hr
  refine sublist_filter_of_imp fun a ha htype => ?_
  obtain ⟨o, hmade, rfl⟩ := hc.exists_reference hreflect ha
  have ho : ModuleCatalog.lineageOf o ∈ classes := hbears _ ha o rfl
  have hdown := inherits_of_hasType h hmade ho hS htype
  exact hasType_of_inherits h hmade ho hroot (Relation.TransGen.trans_right hdown hB)

end Reflection

/-! ## Worlds of modules -/

/-- A fault that an attribute is there more than once. -/
def Failure.isAmbiguity : Failure → Bool
  | .fault f => f.family = .ambiguity
  | _ => false

namespace World

variable {base : Text} {specs : Table Text ModuleSpec} {sep : Text} {w w' : World ModuleCatalog}

/-- A world with the catalog of modules, where every reflection that is remembered has come from
it. -/
structure OfModules (base : Text) (specs : Table Text ModuleSpec) (sep : Text)
    (w : World ModuleCatalog) : Prop where
  catalog : w.catalog.Hosts base specs sep
  remembered : ∀ record r, w.ledger.remembered? record = some r → r.OfModules base specs sep

theorem OfModules.reflection (h : w.OfModules base specs sep) {record : Record} {r : Reflection}
    (hr : w.reflection record = .ok r) : r.OfModules base specs sep := by
  unfold World.reflection at hr
  split at hr
  · rename_i hremembered
    cases hr
    exact h.remembered record r hremembered
  · exact ⟨w.catalog, record.facts.className, h.catalog, hr⟩

/-- Only the catalog and the reflections matter. -/
theorem OfModules.congr (h : w.OfModules base specs sep)
    (hcatalog : w'.catalog.Hosts base specs sep)
    (hreflections : w'.ledger.reflections = w.ledger.reflections) :
    w'.OfModules base specs sep := by
  refine ⟨hcatalog, fun record r hr => h.remembered record r ?_⟩
  rw [← hr, Ledger.remembered?, Ledger.remembered?, hreflections]

theorem attributes_fst {κ : Type} [TypeCatalog κ] (w : World κ) (record : Record) (t : TypeArg) :
    (w.attributes record (some t)).1 =
      (w.reflection record).map (·.attributesOf (some (t.identity record.facts.separator))) := by
  rw [← reflect_fst, attributes]
  rcases w.reflect record with ⟨e | r, w'⟩ <;> rfl

theorem hasAttribute_fst {κ : Type} [TypeCatalog κ] (w : World κ) (record : Record) (t : TypeArg) :
    (w.hasAttribute record t).1 =
      (w.reflection record).map (·.has (t.identity record.facts.separator)) := by
  rw [← reflect_fst, hasAttribute, attributes]
  rcases w.reflect record with ⟨e | r, w'⟩ <;> rfl

/-- An attribute is ambiguous if there are two of them. -/
theorem soleAttribute_ambiguous {κ : Type} [TypeCatalog κ] (w : World κ) (record : Record)
    (t : TypeArg) :
    (∃ e, (w.soleAttribute record t).1 = .error e ∧ e.isAmbiguity = true) ↔
      (∃ e, w.reflection record = .error e ∧ e.isAmbiguity = true) ∨
        ∃ r, w.reflection record = .ok r ∧
          1 < (r.attributesOf (some (t.identity record.facts.separator))).length := by
  rw [← reflect_fst, soleAttribute, attributes]
  rcases w.reflect record with ⟨e | r, w'⟩
  · simp
  · simp only [Option.map_some, reduceCtorEq, false_and, exists_false, false_or,
      Except.ok.injEq, exists_eq_left']
    rcases r.attributesOf (some (t.identity record.facts.separator)) with _ | ⟨a, _ | ⟨b, rest⟩⟩
    · simp
    · have hsole : ∀ e, a.instantiate = .error e → e.isAmbiguity = false := by
        intro e he
        unfold AttributeRef.instantiate at he
        split at he
        · cases he
          rfl
        · split at he
          · cases he
          · cases he
            rfl
      rcases hmake : a.instantiate with e | o
      · simp [hmake, hsole e hmake]
      · simp [hmake]
    · simp [Failure.isAmbiguity, Fault.ambiguousAttribute, Fault.plain]

theorem OfModules.reflect (h : w.OfModules base specs sep) (record : Record) :
    (w.reflect record).2.OfModules base specs sep := by
  have hcatalog := h.catalog.lookUp true record.facts.className
  rw [← ModuleCatalog.reflect_catalog] at hcatalog
  unfold World.reflect
  cases hremembered : w.ledger.remembered? record with
  | some r => exact h
  | none =>
    simp only [ask, TypeCatalog.reflect]
    cases hr : (w.catalog.reflect record.facts.className).answer with
    | error e => exact h.congr hcatalog rfl
    | ok r =>
      refine ⟨hcatalog, fun other r' hother => ?_⟩
      have hput : Table.get? (Table.put w.ledger.reflections record.serial r) other.serial =
          some r' := hother
      rw [Table.get?_put] at hput
      split at hput
      · cases hput
        exact ⟨w.catalog, record.facts.className, h.catalog, hr⟩
      · exact h.remembered other r' hput

theorem OfModules.reflectAll (records : List (Text × Record)) (h : w.OfModules base specs sep) :
    ∀ x ∈ (w.reflectAll records).1.items, x.2.OfModules base specs sep := by
  induction records generalizing w with
  | nil => exact List.forall_mem_nil _
  | cons entry records ih =>
    have hnext := h.reflect entry.2
    have hfirst := w.reflect_fst entry.2
    simp only [World.reflectAll]
    rcases hres : w.reflect entry.2 with ⟨e | r, w'⟩
    · exact List.forall_mem_nil _
    · rw [hres] at hnext hfirst
      intro x hx
      rcases Listing.mem_of_mem_append hx with hx | hx
      · obtain rfl : x = (entry, r) := by simpa [Listing.single] using hx
        exact h.reflection hfirst.symm
      · exact ih hnext x hx

end World

/-! ## Scanning in a world of modules -/

/-- A scan of a file does to the catalog what a confirmation does, and then what the question does
whether a class is loaded, or only the one, or nothing. -/
theorem Scanner.scan_catalog {κ : Type} [TypeCatalog κ] {P : κ → Prop}
    (hconfirm : ∀ c identity, P c → P (TypeCatalog.confirm c identity).catalog)
    (hloaded : ∀ c identity, P c → P (TypeCatalog.isLoaded c identity).catalog) (fs : FileSystem)
    (settings : ScannerSettings) {c : κ} (hc : P c) (file : Text) :
    P (scan fs settings c file).catalog := by
  unfold scan
  split
  · exact hc
  · split
    · exact hc
    · simp only [confirm]
      split
      · exact hconfirm c _ hc
      · exact hconfirm c _ hc
      · split
        · exact hconfirm c _ hc
        · exact hloaded _ _ (hconfirm c _ hc)

namespace Census

variable {base : Text} {specs : Table Text ModuleSpec} {sep : Text}

theorem enroll_keeps {κ : Type} (c : Census κ) (found : Option ClassFacts) :
    (c.enroll found).2.world.catalog = c.world.catalog ∧
      (c.enroll found).2.world.ledger.reflections = c.world.ledger.reflections := by
  cases found with
  | none => exact ⟨rfl, rfl⟩
  | some facts =>
    simp only [enroll, Registry.enroll]
    cases c.world.files.fingerprint facts.file with
    | error e => exact ⟨rfl, rfl⟩
    | ok key =>
      cases hhas : Table.has c.finder.registry key <;> simp only [hhas] <;> exact ⟨rfl, rfl⟩

theorem hosts_scan {c : Census ModuleCatalog} (h : c.world.OfModules base specs sep) (file : Text) :
    (Scanner.scan c.world.files c.finder.settings c.world.catalog file).catalog.Hosts
      base specs sep := by
  have hfinds : ∀ (m : ModuleCatalog) load identity, m.Hosts base specs sep →
      (m.finds load identity).catalog.Hosts base specs sep := by
    intro m load identity hm
    rw [ModuleCatalog.finds_catalog]
    exact hm.lookUp load identity
  exact Scanner.scan_catalog (fun m => hfinds m true) (fun m => hfinds m false) _ _ h.catalog file

theorem Step.ofModules {c d : Census ModuleCatalog} (hstep : Step c d)
    (h : c.world.OfModules base specs sep) : d.world.OfModules base specs sep := by
  have henroll : ∀ {c : Census ModuleCatalog} (found : Option ClassFacts),
      c.world.OfModules base specs sep → (c.enroll found).2.world.OfModules base specs sep := by
    intro c found hc
    obtain ⟨hcatalog, hreflections⟩ := c.enroll_keeps found
    exact hc.congr (hcatalog ▸ hc.catalog) hreflections
  cases hstep with
  | tell notices => exact h.congr h.catalog rfl
  | file file hturn =>
    have hscan := hosts_scan h file
    rw [parseInTurn_one]
    simp only [World.ask]
    cases (Scanner.scan c.world.files c.finder.settings c.world.catalog file).answer with
    | error e => exact h.congr hscan rfl
    | ok found => exact henroll found (h.congr hscan rfl)
  | aside file hpar => exact h.congr (hosts_scan h file) rfl
  | enroll found hpar => exact henroll found h
  | mark root => exact h
  | setScanId => exact h.congr h.catalog rfl
  | clearScanId => exact h.congr h.catalog rfl

theorem all_ofModules {c : Census ModuleCatalog} (h : c.world.OfModules base specs sep) :
    c.all.2.world.OfModules base specs sep := by
  have hscan := (scanFiles_steps c).keeps
    (P := fun c => c.world.OfModules base specs sep) Step.ofModules h
  simp only [all]
  rcases hres : c.scanFiles with ⟨e | _, d⟩
  · rw [hres] at hscan
    exact hscan
  · rw [hres] at hscan
    exact hscan

/-- Under the catalog of modules, whatever they are and whichever of them have been imported, where
classes have identities of their own: if a class descends from another, which is not the class of
all objects, the attributes of the one are among those of the other, in their order. So a record
that has an attribute of the one has one of the other, one that is ambiguous for the one is so for
the other, and what a filter on the one alone lists is among what a filter on the other alone
lists, in the same order. -/
theorem subtype_attributes_are_of_the_base {classes : Set Lineage}
    (hclasses : Lineage.Distinct sep classes) {S B : Lineage} (hS : S ∈ classes)
    (hB : S.Inherits B) (hroot : B ≠ Builtin.root) :
    (∀ (c : ModuleCatalog) identity r, c.Hosts base specs sep →
      (c.reflect identity).answer = .ok r → r.Bears classes →
      (r.attributesOf (some (S.name.identity sep))).Sublist
        (r.attributesOf (some (B.name.identity sep)))) ∧
    (∀ (w : World ModuleCatalog) (record : Record) (s b : TypeArg),
      w.OfModules base specs sep → (∀ r, w.reflection record = .ok r → r.Bears classes) →
      s.identity record.facts.separator = S.name.identity sep →
      b.identity record.facts.separator = B.name.identity sep →
      (∀ found, (w.attributes record (some s)).1 = .ok found →
        ∃ more, (w.attributes record (some b)).1 = .ok more ∧ found.Sublist more) ∧
      ((w.hasAttribute record s).1 = .ok true → (w.hasAttribute record b).1 = .ok true) ∧
      ((∃ e, (w.soleAttribute record s).1 = .error e ∧ e.isAmbiguity = true) →
        ∃ e, (w.soleAttribute record b).1 = .error e ∧ e.isAmbiguity = true)) ∧
    (∀ (c : Census ModuleCatalog) (f g : Filter), c.world.OfModules base specs sep →
      Table.keys f.required = [S.name.identity sep] →
      Table.keys g.required = [B.name.identity sep] →
      (∀ e, c.all.1 = .error e →
        (c.withFilter f).matching.1 = .error e ∧ (c.withFilter g).matching.1 = .error e) ∧
      ∀ registry, c.all.1 = .ok registry →
        (∀ x ∈ (c.all.2.world.reflectAll registry).1.items, x.2.Bears classes) →
        ∃ found more, (c.withFilter f).matching.1 = .ok found ∧
          (c.withFilter g).matching.1 = .ok more ∧ found.cut = more.cut ∧
          found.items.Sublist more.items ∧ more.items.Sublist registry) := by
  have hsublist : ∀ {r : Reflection}, r.OfModules base specs sep → r.Bears classes →
      (r.attributesOf (some (S.name.identity sep))).Sublist
        (r.attributesOf (some (B.name.identity sep))) :=
    fun hr hbears => Reflection.attributesOf_sublist hclasses hS hB hroot hr hbears
  refine ⟨fun c identity r hc hr hbears => hsublist ⟨c, identity, hc, hr⟩ hbears, ?_, ?_⟩
  · intro w record s b hw hbears hs hb
    rw [World.soleAttribute_ambiguous, World.soleAttribute_ambiguous, World.attributes_fst,
      World.attributes_fst, World.hasAttribute_fst, World.hasAttribute_fst, hs, hb]
    rcases hr : w.reflection record with e | r
    · exact ⟨nofun, nofun, fun h => .inl (h.resolve_right nofun)⟩
    · have hsub := hsublist (hw.reflection hr) (hbears r hr)
      refine ⟨fun found hfound => ⟨_, rfl, ?_⟩, fun h => ?_, fun h => ?_⟩
      · cases hfound
        exact hsub
      · exact congrArg _ (Reflection.has_of_sublist hsub (Except.ok.inj h))
      · rcases h with ⟨e, he, -⟩ | ⟨r', hr', hlength⟩
        · cases he
        · cases hr'
          exact .inr ⟨r, rfl, Nat.lt_of_lt_of_le hlength hsub.length_le⟩
  · intro c f g hc hf hg
    simp only [matching_withFilter]
    refine ⟨fun e he => by simp [he, Except.map], fun registry hall hbears => ?_⟩
    have hreflected := (all_ofModules hc).reflectAll registry
    obtain ⟨hfront, -⟩ := World.reflectAll_prefix registry c.all.2.world
    refine ⟨_, _, congrArg _ hall, congrArg _ hall, ?_⟩
    simp only [Filter.select_eq (Filter.required_of_keys hf),
      Filter.select_eq (Filter.required_of_keys hg)]
    refine ⟨rfl, Filter.keep_mono fun x hx h => ?_, Filter.keep_sublist hfront⟩
    rw [Filter.accepts_of_single hf] at h
    rw [Filter.accepts_of_single hg]
    exact Reflection.has_of_sublist (hsublist (hreflected x hx) (hbears x hx)) h

end Census

namespace ModuleCatalog

def diamondBase : Lineage := .make ⟨"m".toList, "Base".toList⟩ [Builtin.root] [Builtin.object]

def diamondLeft : Lineage :=
  .make ⟨"m".toList, "Left".toList⟩ [diamondBase] [diamondBase.name, Builtin.object]

def diamondRight : Lineage :=
  .make ⟨"m".toList, "Right".toList⟩ [diamondBase] [diamondBase.name, Builtin.object]

def diamondBoth : Lineage :=
  .make ⟨"m".toList, "Both".toList⟩ [diamondLeft, diamondRight]
    [diamondLeft.name, diamondRight.name, diamondBase.name, Builtin.object]

/-- A module with a class that has two bases with a base in common, and a class with attributes
of these classes. -/
def diamondSpecs : Table Text ModuleSpec :=
  let ref (name : String) : ClassRef := ⟨none, [name.toList]⟩
  [("m".toList, ⟨[], [.type "Base".toList [] [] [], .type "Left".toList [ref "Base"] [] [],
    .type "Right".toList [ref "Base"] [] [],
    .type "Both".toList [ref "Left", ref "Right"] [] [],
    .type "C".toList [] [.fresh (ref "Right") [], .fresh (ref "Both") [], .fresh (ref "Base") []]
      []], none⟩)]

def diamond : ModuleCatalog := ⟨.new [] diamondSpecs, "\\".toList⟩

def diamondClasses : List Lineage :=
  [Builtin.root, diamondBase, diamondLeft, diamondRight, diamondBoth]

theorem distinct_diamond : Lineage.Distinct "\\".toList { l | l ∈ diamondClasses } where
  root := List.mem_cons_self
  bases := by
    have hbases : ∀ l ∈ diamondClasses, l.bases ⊆ diamondClasses := by
      have hleft : diamondLeft.bases = [diamondBase] := rfl
      have hright : diamondRight.bases = [diamondBase] := rfl
      have hboth : diamondBoth.bases = [diamondLeft, diamondRight] := rfl
      have hbase : diamondBase.bases = [Builtin.root] := rfl
      have hroot : Builtin.root.bases = [] := rfl
      simp [diamondClasses, hleft, hright, hboth, hbase, hroot]
    exact fun l hl b hb => hbases l hl hb
  identity := by
    have hidentities : (diamondClasses.map (·.name.identity "\\".toList)).Nodup := by
      decide +kernel
    exact fun l hl m hm h => List.inj_on_of_nodup_map hidentities hl hm h

/-- The attributes as the catalog gives them, once it has imported the module. -/
theorem reflect_diamond : (diamond.reflect "m\\C".toList).answer.toOption.map (·.attributes) =
    some ([diamondRight, diamondBoth, diamondBase].map fun l =>
      reference "\\".toList (.made l [] [])) := rfl

theorem bears_diamond {r : Reflection} (h : (diamond.reflect "m\\C".toList).answer = .ok r) :
    r.Bears { l | l ∈ diamondClasses } := by
  have hattributes := reflect_diamond
  rw [h] at hattributes
  intro a ha o ho
  rw [show r.attributes = _ from Option.some.inj hattributes] at ha
  obtain ⟨l, hl, rfl⟩ := List.mem_map.1 ha
  cases ho
  have hmem : [diamondRight, diamondBoth, diamondBase] ⊆ diamondClasses := by
    simp [diamondClasses]
  exact hmem hl

/-- A new world with the modules of the diamond, and a record of the class in it. -/
def diamondWorld : World ModuleCatalog := ⟨⟨.dir [], [], [], []⟩, diamond, .empty, none, 0, []⟩

def diamondRecord : Record :=
  ⟨⟨"m\\C".toList, "C".toList, "m".toList, "/m.py".toList, "\\".toList, false⟩, 0⟩

/-- Two attributes are of the class on the right, and of the base all three. -/
theorem right_attributes_are_of_the_base :
    (∃ r, (diamond.reflect "m\\C".toList).answer = .ok r ∧
      (r.attributesOf (some "m\\Right".toList)).length = 2 ∧
      (r.attributesOf (some "m\\Right".toList)).Sublist
        (r.attributesOf (some "m\\Base".toList))) ∧
    ∃ e, (diamondWorld.soleAttribute diamondRecord (.named "m\\Base".toList)).1 = .error e ∧
      e.isAmbiguity = true := by
  have hS : diamondRight ∈ { l | l ∈ diamondClasses } := by
    show diamondRight ∈ diamondClasses
    simp [diamondClasses]
  have hB : diamondRight.Inherits diamondBase := .single List.mem_cons_self
  have hroot : diamondBase ≠ Builtin.root := by
    intro heq
    have hnames : diamondBase.name ≠ Builtin.root.name := by decide +kernel
    exact hnames (congrArg Lineage.name heq)
  have hhosts : diamond.Hosts [] diamondSpecs "\\".toList := ⟨.new, rfl⟩
  have hright : diamondRight.name.identity "\\".toList = "m\\Right".toList := by decide +kernel
  have hbase : diamondBase.name.identity "\\".toList = "m\\Base".toList := by decide +kernel
  obtain ⟨hreflection, hrecord, -⟩ := @Census.subtype_attributes_are_of_the_base [] diamondSpecs
    "\\".toList _ distinct_diamond _ _ hS hB hroot
  rcases hr : (diamond.reflect "m\\C".toList).answer with e | r
  · have hnone := reflect_diamond
    rw [hr] at hnone
    cases hnone
  · have htwo : (r.attributesOf (some "m\\Right".toList)).length = 2 := by
      have hlength : (diamond.reflect "m\\C".toList).answer.toOption.map
          (fun r => (r.attributesOf (some "m\\Right".toList)).length) = some 2 := by decide +kernel
      rw [hr] at hlength
      exact Option.some.inj hlength
    have hsublist := hreflection diamond _ r hhosts hr (bears_diamond hr)
    rw [hright, hbase] at hsublist
    refine ⟨⟨r, rfl, htwo, hsublist⟩, ?_⟩
    have hreflected : diamondWorld.reflection diamondRecord = .ok r := hr
    obtain ⟨-, -, hambiguous⟩ := hrecord diamondWorld diamondRecord (.named "m\\Right".toList)
      (.named "m\\Base".toList) ⟨hhosts, nofun⟩
      (fun r' hr' => bears_diamond hr') hright.symm hbase.symm
    refine hambiguous ((World.soleAttribute_ambiguous _ _ _).2 (.inr ⟨r, hreflected, ?_⟩))
    exact htwo ▸ Nat.lt_succ_self 1

end ModuleCatalog
end ClassCensus
