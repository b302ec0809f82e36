import ClassCensus.Proofs.CatalogLaws
import ClassCensus.Proofs.Lineage

/-!
# ClassCensus.Proofs.MadeClasses

Whatever is imported, and however it ends, every class in a world of modules is well made, and so
is the class of every object attached to one (`Reached.sound`).

Each step of an import keeps this (`Keeps`), given that the classes it works with are well made;
they are because it finds them in the world.
-/

namespace ClassCensus

/-! ## Steps that keep a property -/

namespace Loading

variable {α β : Type} {P : ModuleSpace → Prop} {Q : α → Prop} {R : β → Prop}

/-- A step keeps a property of the world, and what it gives has a property of its own. -/
def Keeps (P : ModuleSpace → Prop) (a : Loading α) (Q : α → Prop) : Prop :=
  ∀ s, P s → P (a.play s).2 ∧ ∀ x, (a.play s).1 = .ok x → Q x

namespace Keeps

theorem pure {x : α} (h : Q x) : Keeps P (pure x) Q := by
  intro s hs
  refine ⟨hs, fun y hy => ?_⟩
  cases hy
  exact h

theorem throw (r : Raised) : Keeps P (throw r) Q := fun _ hs => ⟨hs, nofun⟩

theorem get : Keeps P get P := by
  intro s hs
  refine ⟨hs, fun s' hs' => ?_⟩
  cases hs'
  exact hs

theorem modify {f : ModuleSpace → ModuleSpace} (h : ∀ s, P s → P (f s)) :
    Keeps P (modify f) fun _ => True := fun s hs => ⟨h s hs, fun _ _ => trivial⟩

theorem bind {a : Loading α} {f : α → Loading β} (ha : Keeps P a Q)
    (hf : ∀ x, Q x → Keeps P (f x) R) : Keeps P (a >>= f) R := by
  intro s hs
  obtain ⟨hstate, hvalue⟩ := ha s hs
  rw [play_bind]
  rcases hplay : a.play s with ⟨r | x, s'⟩
  · rw [hplay] at hstate
    exact ⟨hstate, nofun⟩
  · rw [hplay] at hstate hvalue
    exact hf x (hvalue x rfl) s' hstate

theorem tryCatch {a : Loading α} {f : Raised → Loading α} (ha : Keeps P a Q)
    (hf : ∀ r, Keeps P (f r) Q) : Keeps P (tryCatch a f) Q := by
  intro s hs
  obtain ⟨hstate, hvalue⟩ := ha s hs
  rw [play_tryCatch]
  rcases hplay : a.play s with ⟨r | x, s'⟩
  · rw [hplay] at hstate
    exact hf r s' hstate
  · rw [hplay] at hstate hvalue
    exact ⟨hstate, hvalue⟩

theorem mapM {f : α → Loading β} (hf : ∀ x, Keeps P (f x) R) (xs : List α) :
    Keeps P (xs.mapM f) fun ys => ∀ y ∈ ys, R y := by
  induction xs with
  | nil => exact pure nofun
  | cons x xs ih =>
    rw [List.mapM_cons]
    refine (hf x).bind fun y hy => ih.bind fun ys hys => pure fun z hz => ?_
    rcases List.mem_cons.1 hz with rfl | hz
    · exact hy
    · exact hys z hz

theorem forM {f : α → Loading PUnit} (hf : ∀ x, Keeps P (f x) fun _ => True) (xs : List α) :
    Keeps P (xs.forM f) fun _ => True := by
  induction xs with
  | nil => exact pure trivial
  | cons x xs ih => exact (hf x).bind fun _ _ => ih

end Keeps
end Loading

/-! ## Sound worlds -/

/-- The class of an object is well made. -/
def Object.Sound (o : Object) : Prop := (ModuleCatalog.lineageOf o).WellMade

theorem Object.sound_value (v : Value) : (Object.value v).Sound := Lineage.wellMade_lineageOf v

/-- A class is well made, as are those of the objects attached to it and its inner ones. -/
inductive Binding.Sound : Binding → Prop
  | other : Sound .other
  | importer : Sound .importer
  | hook (answers : Table Text (Except Raised ClassRef)) : Sound (.hook answers)
  | type {name : TypeName} {ancestry : Ancestry} {attached : List Object}
      {members : List (Text × Binding)} (hclass : Lineage.WellMade ⟨name, ancestry⟩)
      (hattached : ∀ o ∈ attached, o.Sound) (hmembers : ∀ entry ∈ members, Sound entry.2) :
      Sound (.type name ancestry attached members)

theorem Binding.Sound.plain {l : Lineage} (h : l.WellMade) : (Binding.plain l).Sound :=
  .type h nofun nofun

theorem Builtin.sound_bindings : ∀ entry ∈ bindings, entry.2.Sound := by
  have hlines : ∀ row ∈ classes, (row.2.map (named ·.toList) ++ [object]).Nodup := by
    decide +kernel
  intro entry hentry
  rcases List.mem_cons.1 hentry with rfl | hentry
  · exact .importer
  rcases List.mem_cons.1 hentry with rfl | hentry
  · exact .plain Lineage.wellMade_exceptionGroup
  · obtain ⟨row, hrow, rfl⟩ := List.mem_map.1 hentry
    exact .plain (Lineage.wellMade_line (hlines row hrow))

namespace ModuleSpace

/-- Every class in a loaded module is sound. -/
def Sound (s : ModuleSpace) : Prop := ∀ module ∈ s.loaded, ∀ entry ∈ module.2, entry.2.Sound

theorem sound_new (base : Text) (specs : Table Text ModuleSpec) : (new base specs).Sound := by
  intro module hmodule
  rw [List.mem_singleton.1 hmodule]
  exact Builtin.sound_bindings

theorem follow_sound {path : List Text} {b b' : Binding} (h : b.Sound)
    (hfollow : follow (some b) path = some b') : b'.Sound := by
  induction path generalizing b with
  | nil =>
    cases hfollow
    exact h
  | cons name path ih =>
    cases h with
    | other => cases hfollow
    | importer => cases hfollow
    | hook answers => cases hfollow
    | @type _ _ _ members hclass hattached hmembers =>
      simp only [follow] at hfollow
      cases hget : Table.get? members name with
      | none =>
        rw [hget] at hfollow
        cases path <;> cases hfollow
      | some inner =>
        rw [hget] at hfollow
        exact ih (hmembers _ (Table.mem_of_get? hget)) hfollow

namespace Sound

variable {s : ModuleSpace}

theorem binding? (h : s.Sound) {home name : Text} {b : Binding}
    (hb : s.binding? home name = some b) : b.Sound := by
  unfold ModuleSpace.binding? at hb
  split at hb
  · cases hb
  · rename_i bindings hhome
    split at hb
    · rename_i b' hname
      cases hb
      exact h _ (Table.mem_of_get? hhome) _ (Table.mem_of_get? hname)
    · split at hb
      · cases hb
        exact .plain (Lineage.wellMade_line (by decide +kernel))
      · cases hb

theorem find? (h : s.Sound) {home : Text} {path : List Text} {b : Binding}
    (hb : s.find? home path = some b) : b.Sound := by
  cases path with
  | nil => cases hb
  | cons name path =>
    simp only [ModuleSpace.find?] at hb
    cases hfirst : s.binding? home name with
    | none =>
      rw [hfirst] at hb
      cases path <;> cases hb
    | some first =>
      rw [hfirst] at hb
      exact follow_sound (h.binding? hfirst) hb

theorem bind (h : s.Sound) {home name : Text} {b : Binding} (hb : b.Sound) :
    (s.bind home name b).Sound := by
  unfold ModuleSpace.bind
  split
  · rename_i bindings hhome
    intro module hmodule entry hentry
    rcases Table.mem_of_mem_put hmodule with rfl | hmodule
    · rcases Table.mem_of_mem_put hentry with rfl | hentry
      · exact hb
      · exact h _ (Table.mem_of_get? hhome) _ hentry
    · exact h module hmodule entry hentry
  · exact h

theorem enter (h : s.Sound) (name : Text) : (s.enter name).Sound := by
  intro module hmodule
  rcases Table.mem_of_mem_put hmodule with rfl | hmodule
  · exact nofun
  · exact h module hmodule

theorem forget (h : s.Sound) (name : Text) :
    ({ s with loaded := Table.erase s.loaded name } : ModuleSpace).Sound :=
  fun module hmodule => h module (Table.mem_of_mem_erase hmodule)

end Sound
end ModuleSpace

/-! ## Imports -/

namespace Loading

abbrev Sound {α : Type} (a : Loading α) (Q : α → Prop) : Prop := Keeps ModuleSpace.Sound a Q

variable {fetch : Text → Loading Unit}

section

variable (hfetch : ∀ name, Sound (fetch name) fun _ => True)

include hfetch

theorem resolve_sound (home : Text) (ref : ClassRef) :
    Sound (resolve fetch home ref) Binding.Sound := by
  unfold resolve
  cases ref.home with
  | some other =>
    refine (hfetch other).bind fun _ _ => Keeps.get.bind fun s hs => ?_
    split
    next b hfind => exact .pure (hs.find? hfind)
    next => exact .throw _
  | none =>
    refine Keeps.get.bind fun s hs => ?_
    split
    next b hfind => exact .pure (hs.find? hfind)
    next => exact .throw _

theorem resolveClass_sound (home : Text) (ref : ClassRef) :
    Sound (resolveClass fetch home ref) Lineage.WellMade := by
  refine (resolve_sound hfetch home ref).bind fun b hb => ?_
  cases hb with
  | type hclass hattached hmembers => exact .pure hclass
  | other => exact .throw _
  | importer => exact .throw _
  | hook answers => exact .throw _

theorem attach_sound (home : Text) (a : Attachment) :
    Sound (attach fetch home a) Object.Sound := by
  cases a with
  | value v => exact .pure (Object.sound_value v)
  | fresh ref arguments =>
    exact (resolveClass_sound hfetch home ref).bind fun type htype => .pure htype

theorem makeMember_sound (home : Text) (outer : List Text) (m : Member) :
    Sound (makeMember fetch home outer m) fun made => made.2.Sound := by
  induction outer, m using makeMember.induct
    (motive_2 := fun outer made members => (∀ entry ∈ made, entry.2.Sound) →
      Sound (makeMembers fetch home outer made members) fun made =>
        ∀ entry ∈ made, entry.2.Sound) with
  | case1 outer name =>
    rw [makeMember]
    exact .pure .other
  | case2 outer name target =>
    rw [makeMember]
    exact (resolve_sound hfetch home target).bind fun b hb => .pure hb
  | case3 outer name bases attached members ih =>
    rw [makeMember]
    refine (Keeps.mapM (resolveClass_sound hfetch home) bases).bind fun classes hclasses =>
      (ih (List.forall_mem_nil _)).bind fun inner hinner =>
        (Keeps.mapM (attach_sound hfetch home) attached).bind fun objects hobjects => ?_
    dsimp only
    have hbases : ∀ b ∈ (if classes.isEmpty then [Builtin.root] else classes), b.WellMade := by
      intro b hb
      split at hb
      · rw [List.mem_singleton.1 hb]
        exact .root
      · exact hclasses b hb
    cases hderive : Lineage.derive? ⟨home, Text.join "." (outer ++ [name])⟩
        (if classes.isEmpty then [Builtin.root] else classes) with
    | none => exact .throw _
    | some l => exact .pure (.type (.derive hbases hderive) hobjects hinner)
  | case4 outer answers =>
    rw [makeMember]
    exact .pure (.hook answers)
  | case5 outer made hmade =>
    rw [makeMembers]
    exact .pure hmade
  | case6 outer made m rest ih ihrest hmade =>
    rw [makeMembers]
    refine ih.bind fun new hnew => ihrest new.1 new.2 fun entry hentry => ?_
    rcases Table.mem_of_mem_put hentry with rfl | hentry
    · exact hnew
    · exact hmade entry hentry

theorem bindMembers_sound (home : Text) (members : List Member) :
    Sound (bindMembers fetch home members) fun _ => True := by
  induction members with
  | nil => exact .pure trivial
  | cons m rest ih =>
    refine (makeMember_sound hfetch home [] m).bind fun made hmade => ?_
    exact (Keeps.modify fun s hs => hs.bind hmade).bind fun _ _ => ih

theorem body_sound (name : Text) : Sound (body fetch name) fun _ => True := by
  refine Keeps.get.bind fun s _ => (Keeps.forM hfetch _).bind fun _ _ =>
    (bindMembers_sound hfetch name _).bind fun _ _ => ?_
  cases (s.spec name).failure with
  | some r => exact .throw r
  | none => exact .pure trivial

theorem execute_sound (name : Text) : Sound (execute fetch name) fun _ => True := by
  refine (Keeps.modify fun s hs => hs.enter name).bind fun _ _ =>
    (Keeps.tryCatch (body_sound hfetch name) fun r => ?_).bind fun _ _ => ?_
  · exact (Keeps.modify fun s hs => hs.forget name).bind fun _ _ => .throw r
  · cases Text.splitLast? ['.'] name with
    | none => exact .pure trivial
    | some parts => exact .modify fun s hs => hs.bind .other

/-- What a hook gives is sound, and asking it keeps the world so. -/
theorem callHook_sound (home name : Text) (b : Binding) :
    Sound (callHook fetch home name b) fun found => ∀ b ∈ found, b.Sound := by
  cases b with
  | hook answers =>
    simp only [callHook]
    rcases Table.get? answers name with _ | _ | ref
    · exact .throw _
    · exact .throw _
    · refine (resolve_sound hfetch home ref).bind fun b hb => ?_
      refine (Keeps.modify fun s hs => hs.bind hb).bind fun _ _ => .pure ?_
      simpa using hb
  | importer => exact (hfetch name).bind fun _ _ => .pure (by simp)
  | type type ancestry attached members =>
    simp only [callHook]
    split
    · refine .pure fun b hb => ?_
      cases hb
      exact .plain (Lineage.wellMade_line (by decide +kernel))
    · split
      · cases Builtin.construct type.path [.text name] with
        | error r => exact .throw r
        | ok o => exact .pure (by simp)
      · exact .pure (by simp)
  | other => exact .throw _

theorem look_sound (home name : Text) :
    Sound (look fetch home name) fun found => ∀ b ∈ found, b.Sound := by
  refine Keeps.get.bind fun s hs => ?_
  cases s.hookFor? home name with
  | none => exact .pure fun b hb => hs.binding? hb
  | some hook =>
    refine (callHook_sound hfetch home name hook).tryCatch fun r => ?_
    split
    · exact .pure (by simp)
    · exact .throw r

end

theorem ensure_sound {run : Text → Loading Unit} (hrun : ∀ name, Sound (run name) fun _ => True)
    (parts : List Text) : Sound (ensure run parts) fun _ => True := by
  induction parts with
  | nil => exact .pure trivial
  | cons child parents ih =>
    refine Keeps.get.bind fun s _ => ?_
    split
    · exact .pure trivial
    · refine ih.bind fun _ _ => Keeps.get.bind fun s' _ => ?_
      dsimp only
      split
      · exact .pure trivial
      · split
        · exact hrun _
        · exact .throw _

theorem fetch_sound (depth : Nat) (name : Text) :
    Sound (Loading.fetch depth name) fun _ => True := by
  induction depth generalizing name with
  | zero => exact .throw _
  | succ depth ih => exact ensure_sound (execute_sound ih) _

end Loading

namespace ModuleSpace

theorem Sound.load {s : ModuleSpace} (h : s.Sound) (name : Text) : (s.load name).2.Sound := by
  unfold ModuleSpace.load
  split
  · exact h
  · exact (Loading.fetch_sound _ name s h).1

theorem Sound.look {s : ModuleSpace} (h : s.Sound) (home name : Text) :
    (s.look home name).2.Sound ∧ ∀ b, (s.look home name).1 = .ok (some b) → b.Sound := by
  obtain ⟨hstate, hfound⟩ := Loading.look_sound (Loading.fetch_sound (s.specs.length + 1)) home name s h
  exact ⟨hstate, fun b hb => hfound (some b) hb b rfl⟩

/-- A world of modules that imports and looks have led to, whatever became of them. -/
inductive Reached (base : Text) (specs : Table Text ModuleSpec) : ModuleSpace → Prop
  | new : Reached base specs (.new base specs)
  | load {s : ModuleSpace} (h : Reached base specs s) (name : Text) :
      Reached base specs (s.load name).2
  | look {s : ModuleSpace} (h : Reached base specs s) (home name : Text) :
      Reached base specs (s.look home name).2

theorem Reached.sound {base : Text} {specs : Table Text ModuleSpec} {s : ModuleSpace}
    (h : Reached base specs s) : s.Sound := by
  induction h with
  | new => exact sound_new base specs
  | load _ name ih => exact ih.load name
  | look _ home name ih => exact (ih.look home name).1

end ModuleSpace
end ClassCensus
