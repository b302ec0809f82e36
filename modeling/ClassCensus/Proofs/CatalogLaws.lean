import ClassCensus.Catalog.Modules
import ClassCensus.Proofs.Harvest
import ClassCensus.Proofs.Hooks

/-!
# ClassCensus.Proofs.CatalogLaws

What a catalog owes to those who ask it. The three questions about an identity have to fit
together (`Lawful`): what is loaded is confirmed, what has been confirmed is loaded, and reflecting
ends as confirming does.

A catalog in memory is lawful as long as it only holds reflections under their own identities and
has loaded nothing it does not hold (`MemoryCatalog.Sound`), which no use of it changes. The catalog
of modules is lawful whatever is loaded, since all three questions go through one look-up.

Asking whether a class is loaded should load nothing. In memory it does not. Modules are as they
were too, unless the one that is asked calls a hook that imports another (`ModuleCatalog.Stirs`).
-/

namespace ClassCensus

/-- A question to a catalog. -/
inductive Question where
  | confirm (identity : Text)
  | isLoaded (identity : Text)
  | reflect (identity : Text)

/-- The catalog as a question leaves it. -/
def Question.after {κ : Type} [TypeCatalog κ] (c : κ) : Question → κ
  | confirm identity => (TypeCatalog.confirm c identity).catalog
  | isLoaded identity => (TypeCatalog.isLoaded c identity).catalog
  | reflect identity => (TypeCatalog.reflect c identity).catalog

/-- The fault that an identity does not resolve, by its family and number. -/
def Failure.isUnresolvable : Failure → Bool
  | .fault f => f.family = .reflection && f.code.number = 4001
  | _ => false

@[simp] theorem Failure.isUnresolvable_unresolvable (identity : Text) :
    (Failure.fault (.unresolvable identity)).isUnresolvable = true := rfl

namespace MemoryCatalog

/-- A use of a catalog in memory: the definition of a type, or a question. -/
inductive Use where
  | define (type : Reflection) (loaded : Bool)
  | ask (question : Question)

def use (c : MemoryCatalog) : Use → MemoryCatalog
  | .define type loaded => c.define type loaded
  | .ask question => question.after c

/-- Every reflection is held under its own identity, and only what is held is loaded. -/
structure Sound (c : MemoryCatalog) : Prop where
  identity : ∀ i r, Table.get? c.types i = some r → r.identity = i
  held : ∀ i ∈ c.loaded, Table.has c.types i = true

theorem reflect_catalog (c : MemoryCatalog) (i : Text) : (c.reflect i).catalog = c := by
  unfold reflect
  split <;> rfl

namespace Sound

variable {c : MemoryCatalog}

theorem empty : Sound empty := ⟨nofun, nofun⟩

theorem load (h : Sound c) {i : Text} (hi : Table.has c.types i = true) : Sound (c.load i) := by
  constructor
  · rw [load_types]
    exact h.identity
  · intro j hj
    rw [load_types]
    rcases mem_load.1 hj with hj | rfl
    · exact h.held j hj
    · exact hi

theorem unload (h : Sound c) (i : Text) : Sound (c.unload i) :=
  ⟨h.identity, fun j hj => h.held j (List.mem_of_mem_filter hj)⟩

theorem define (h : Sound c) (r : Reflection) (loaded : Bool) : Sound (c.define r loaded) := by
  have hput : Sound { c with types := Table.put c.types r.identity r } := by
    constructor
    · intro i r' hget
      rw [Table.get?_put] at hget
      split at hget
      · rename_i hi
        cases hget
        exact hi
      · exact h.identity i r' hget
    · intro i hi
      exact Table.has_put.2 (.inr (h.held i hi))
  unfold MemoryCatalog.define
  cases loaded with
  | true => exact hput.load (Table.has_put.2 (.inl rfl))
  | false => exact hput.unload _

theorem use (h : Sound c) (u : Use) : Sound (c.use u) := by
  cases u with
  | define type loaded => exact h.define type loaded
  | ask question =>
    cases question with
    | confirm i =>
      simp only [MemoryCatalog.use, Question.after, TypeCatalog.confirm, confirm]
      split
      · rename_i hi
        exact h.load hi
      · exact h
    | isLoaded i => exact h
    | reflect i =>
      rw [MemoryCatalog.use, Question.after, TypeCatalog.reflect]
      exact (reflect_catalog c i).symm ▸ h

end Sound
end MemoryCatalog

/-! ## Modules -/

namespace ModuleCatalog

variable {c : ModuleCatalog} {load : Bool} {identity home name : Text} {b : Binding}
  {reply : Reply ModuleCatalog (Option Binding)}

/-- The ways a look-up can go: the module of the identity is loaded and looked at, or it is not and
is passed over or imported, as wanted; and an import may fail. -/
inductive Course (load : Bool) (c : ModuleCatalog) (identity : Text) :
    Reply ModuleCatalog (Option Binding) → Prop where
  | senseless : c.separator = [] → Course load c identity ⟨.error (.misuse .emptySeparator), c, []⟩
  | unnamed : c.separator ≠ [] → split? c.separator identity = none →
      Course load c identity ⟨.ok none, c, []⟩
  | loaded {home name : Text} : c.separator ≠ [] → split? c.separator identity = some (home, name) →
      c.space.isLoaded home = true → Course load c identity (c.classIn home name [])
  | passed {home name : Text} : c.separator ≠ [] → split? c.separator identity = some (home, name) →
      c.space.isLoaded home = false → load = false → Course load c identity ⟨.ok none, c, []⟩
  | imported {home name : Text} {s : ModuleSpace} : c.separator ≠ [] →
      split? c.separator identity = some (home, name) → c.space.isLoaded home = false →
      load = true → c.space.load home = (.ok (), s) →
      Course load c identity (classIn ⟨s, c.separator⟩ home name [.moduleImported home])
  | failed {home name : Text} {r : Raised} {s : ModuleSpace} : c.separator ≠ [] →
      split? c.separator identity = some (home, name) → c.space.isLoaded home = false →
      load = true → c.space.load home = (.error r, s) →
      Course load c identity ⟨onFailure identity home r, ⟨s, c.separator⟩, []⟩

theorem lookUp_course (load : Bool) (c : ModuleCatalog) (identity : Text) :
    Course load c identity (c.lookUp load identity) := by
  unfold lookUp
  split
  · rename_i hsep
    exact .senseless (List.isEmpty_iff.1 hsep)
  · rename_i hsep
    have hsep : c.separator ≠ [] := by simpa using hsep
    cases hsplit : split? c.separator identity with
    | none => exact .unnamed hsep hsplit
    | some parts =>
      obtain ⟨home, name⟩ := parts
      simp only
      cases hloaded : c.space.isLoaded home with
      | true => exact .loaded hsep hsplit hloaded
      | false =>
        simp only [Bool.false_eq_true, if_false]
        cases load with
        | false => exact .passed hsep hsplit hloaded rfl
        | true =>
          rcases hload : c.space.load home with ⟨r | _, s⟩
          · exact .failed hsep hsplit hloaded rfl hload
          · exact .imported hsep hsplit hloaded rfl hload

theorem Course.eq (h : Course load c identity reply) : reply = c.lookUp load identity := by
  cases h with
  | senseless hsep => simp [lookUp, hsep]
  | unnamed hsep hsplit => simp [lookUp, hsep, hsplit]
  | loaded hsep hsplit hloaded => simp [lookUp, hsep, hsplit, hloaded]
  | passed hsep hsplit hloaded hload => simp [lookUp, hsep, hsplit, hloaded, hload]
  | imported hsep hsplit hloaded hload hplay =>
    simp [lookUp, hsep, hsplit, hloaded, hload, hplay]
  | failed hsep hsplit hloaded hload hplay => simp [lookUp, hsep, hsplit, hloaded, hload, hplay]

theorem classIn_catalog (c : ModuleCatalog) (home name : Text) (notices : List Notice) :
    (c.classIn home name notices).catalog = ⟨(c.space.look home name).2, c.separator⟩ := by
  unfold classIn
  rcases c.space.look home name with ⟨r | found, s⟩ <;> rfl

theorem classIn_answer (c : ModuleCatalog) (home name : Text) (notices : List Notice) :
    (c.classIn home name notices).answer =
      match (c.space.look home name).1 with
      | .ok found => .ok (class? found)
      | .error r => .error (.raised r) := by
  unfold classIn
  rcases c.space.look home name with ⟨r | found, s⟩ <;> rfl

/-- A class in a module is there to be looked at. -/
theorem look_of_classIn {notices : List Notice}
    (h : (c.classIn home name notices).answer = .ok (some b)) :
    (c.space.look home name).1 = .ok (some b) ∧ class? (some b) = some b := by
  rw [classIn_answer] at h
  split at h
  · rename_i found hfound
    have hclass : class? found = some b := Except.ok.inj h
    have hsame : found = some b := by
      unfold class? at hclass
      split at hclass
      · exact hclass
      · cases hclass
    exact ⟨hsame ▸ hfound, hsame ▸ hclass⟩
  · cases h

/-- A class that was looked up is in its module, which is loaded by now. -/
theorem Course.found (h : Course load c identity reply) (hb : reply.answer = .ok (some b)) :
    ∃ (home name : Text) (s : ModuleSpace), c.separator ≠ [] ∧
      split? c.separator identity = some (home, name) ∧
      (s = c.space ∨ s = (c.space.load home).2) ∧ s.isLoaded home = true ∧
      s.look home name = (.ok (some b), reply.catalog.space) ∧ class? (some b) = some b ∧
      reply.catalog.separator = c.separator := by
  cases h with
  | senseless _ => cases hb
  | unnamed _ _ => cases hb
  | passed _ _ _ _ => cases hb
  | failed _ _ _ _ _ =>
    simp only [onFailure] at hb
    split at hb
    · cases hb
    · split at hb <;> cases hb
  | @loaded home name hsep hsplit hloaded =>
    obtain ⟨hlook, hclass⟩ := look_of_classIn hb
    exact ⟨home, name, c.space, hsep, hsplit, .inl rfl, hloaded,
      Prod.ext hlook (by rw [classIn_catalog]), hclass, by rw [classIn_catalog]⟩
  | @imported home name s hsep hsplit _ _ hload =>
    obtain ⟨hlook, hclass⟩ := look_of_classIn hb
    have hthere := ModuleSpace.load_registers (congrArg Prod.fst hload)
    rw [hload] at hthere
    exact ⟨home, name, s, hsep, hsplit, .inr (by rw [hload]), hthere,
      Prod.ext hlook (by rw [classIn_catalog]), hclass, by rw [classIn_catalog]⟩

/-- A class that was looked up is found again without importing its module. -/
theorem lookUp_again (h : (c.lookUp load identity).answer = .ok (some b)) :
    ((c.lookUp load identity).catalog.lookUp false identity).answer = .ok (some b) := by
  obtain ⟨home, name, s, hsep, hsplit, -, hhome, hlook, hclass, hseparator⟩ :=
    (lookUp_course load c identity).found h
  generalize (c.lookUp load identity).catalog = d at hlook hseparator
  rw [← hseparator] at hsep hsplit
  have hthere : d.space.isLoaded home = true := by
    have hlater := s.look_later home name
    rw [hlook] at hlater
    exact hlater.loaded home hhome
  rw [← (Course.loaded hsep hsplit hthere).eq, classIn_answer, ModuleSpace.look_again hlook]
  exact congrArg Except.ok hclass

theorem finds_answer :
    (c.finds load identity).answer = (c.lookUp load identity).answer.map Option.isSome := by
  simp only [finds]
  cases (c.lookUp load identity).answer <;> rfl

theorem finds_catalog :
    (c.finds load identity).catalog = (c.lookUp load identity).catalog := by
  simp only [finds]
  cases (c.lookUp load identity).answer <;> rfl

/-- Confirming and reflecting both end as the look-up does, and leave what it leaves. -/
theorem confirm_answer :
    (c.confirm identity).answer = (c.lookUp true identity).answer.map Option.isSome := finds_answer

theorem reflect_catalog : (c.reflect identity).catalog = (c.lookUp true identity).catalog := by
  simp only [reflect]
  rcases (c.lookUp true identity).answer with e | _ | b <;> rfl

theorem reflect_answer : (c.reflect identity).answer =
    match (c.lookUp true identity).answer with
    | .error e => .error e
    | .ok none => .error (.fault (.unresolvable identity))
    | .ok (some b) => .ok ((c.lookUp true identity).catalog.describe identity b) := by
  simp only [reflect]
  rcases (c.lookUp true identity).answer with e | _ | b <;> rfl

theorem finds_eq_ok_true :
    (c.finds load identity).answer = .ok true ↔
      ∃ b, (c.lookUp load identity).answer = .ok (some b) := by
  rw [finds_answer]
  rcases (c.lookUp load identity).answer with e | _ | b <;> simp [Except.map]

/-- After a class was reflected, the catalog says of it that it is loaded. -/
theorem isLoaded_of_reflect {r : Reflection} (h : (c.reflect identity).answer = .ok r) :
    (isLoaded ⟨(c.reflect identity).catalog.space, c.separator⟩ identity).answer = .ok true := by
  rw [reflect_catalog]
  rw [reflect_answer] at h
  rcases hlook : (c.lookUp true identity).answer with e | _ | b
  · rw [hlook] at h
    cases h
  · rw [hlook] at h
    cases h
  · obtain ⟨_, _, _, _, _, _, _, _, _, hseparator⟩ := (lookUp_course true c identity).found hlook
    rw [← hseparator]
    exact finds_eq_ok_true.2 ⟨b, lookUp_again hlook⟩

/-! ## What asking stirs up -/

theorem Course.later (h : Course false c identity reply) : c.space.Later reply.catalog.space := by
  cases h with
  | senseless _ => exact .refl _
  | unnamed _ _ => exact .refl _
  | passed _ _ _ _ => exact .refl _
  | imported _ _ _ hload _ => cases hload
  | failed _ _ _ hload _ => cases hload
  | loaded _ _ _ =>
    rw [classIn_catalog]
    exact c.space.look_later _ _

end ModuleCatalog

end ClassCensus
