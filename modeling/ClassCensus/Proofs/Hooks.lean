import ClassCensus.Proofs.Imports

/-!
# ClassCensus.Proofs.Hooks

What it takes to look at a module. A name that the module binds is found without further ado. For
any other its hook is asked, and only a hook that imports a module for the name changes anything
(`look_still`); even then no module is lost (`look_later`). What a hook gives is bound from then on,
or the hook gives it again, so that it is found a second time (`look_again`).
-/

namespace ClassCensus

/-- A hook imports a module when it is asked for a name. -/
def Binding.ImportsFor (name : Text) : Binding → Prop
  | .hook answers => ∃ ref, Table.get? answers name = some (.ok ref)
  | .importer => True
  | _ => False

namespace Loading

variable {s : ModuleSpace} {f g : Text → Loading Unit}

section

variable (hfetch : ∀ name, Agree s (f name) (g name))

include hfetch

theorem callHook_agree (home name : Text) (b : Binding) :
    Agree s (callHook f home name b) (callHook g home name b) := by
  cases b with
  | hook answers =>
    simp only [callHook]
    rcases Table.get? answers name with _ | _ | ref
    · exact .throw _
    · exact .throw _
    · exact (resolve_agree hfetch home ref).bind fun b =>
        (Agree.modify_bind home name b).bind fun _ => .pure _
  | importer => exact (hfetch name).bind fun _ => .pure _
  | type type ancestry attached members =>
    simp only [callHook]
    split
    · exact .pure _
    · split
      · cases Builtin.construct type.path [.text name] with
        | error r => exact .throw r
        | ok o => exact .pure _
      · exact .pure _
  | other => exact .throw _

theorem look_agree (home name : Text) : Agree s (look f home name) (look g home name) := by
  refine Agree.get.bind fun s' => ?_
  cases s'.hookFor? home name with
  | none => exact .pure _
  | some hook =>
    refine (callHook_agree hfetch home name hook).tryCatch fun r => ?_
    split
    · exact .pure _
    · exact .throw r

end

theorem look_play (f : Text → Loading Unit) (home name : Text) (s : ModuleSpace) :
    (look f home name).play s =
      match s.hookFor? home name with
      | none => (.ok (s.binding? home name), s)
      | some hook =>
        match (callHook f home name hook).play s with
        | (.ok found, s') => (.ok found, s')
        | (.error r, s') => if isUnbound r then (.ok none, s') else (.error r, s') := by
  rw [look, play_bind, play_get]
  dsimp only
  cases s.hookFor? home name with
  | none => rfl
  | some hook =>
    simp only [play_tryCatch, play_ite, play_pure, play_throw]
    rcases (callHook f home name hook).play s with ⟨r | found, s'⟩ <;> rfl

/-- A hook that imports nothing for a name leaves the world as it is. -/
theorem callHook_still {hook : Binding} {name : Text} (h : ¬ hook.ImportsFor name)
    (f : Text → Loading Unit) (home : Text) (s : ModuleSpace) :
    ((callHook f home name hook).play s).2 = s := by
  cases hook with
  | hook answers =>
    simp only [callHook]
    rcases hget : Table.get? answers name with _ | _ | ref
    · rfl
    · rfl
    · exact absurd ⟨ref, hget⟩ h
  | importer => exact absurd trivial h
  | type type ancestry attached members =>
    simp only [callHook]
    split
    · rfl
    · split
      · cases Builtin.construct type.path [.text name] <;> rfl
      · rfl
  | other => rfl

/-- What a hook imports a module for, it binds; so does every hook that gives anything. -/
theorem callHook_found {hook b : Binding} {home name : Text} {s' : ModuleSpace}
    (hfetch : ∀ name, Agree s (f name) (f name)) (himports : hook.ImportsFor name)
    (h : (callHook f home name hook).play s = (.ok (some b), s')) :
    ∃ s₁, s.Later s₁ ∧ s' = s₁.bind home name b := by
  cases hook with
  | type type ancestry attached members => cases himports
  | other => cases himports
  | importer =>
    rw [callHook, play_bind] at h
    rcases hplay : (f name).play s with ⟨r | _, s₁⟩
    · rw [hplay] at h
      cases h
    · rw [hplay] at h
      cases h
  | hook answers =>
    obtain ⟨ref, hget⟩ := himports
    simp only [callHook, hget, play_bind] at h
    have hlater := (resolve_agree hfetch home ref s (.refl s)).2
    rcases hplay : (resolve f home ref).play s with ⟨r | b', s₁⟩
    · rw [hplay] at h
      cases h
    · rw [hplay] at h hlater
      cases h
      exact ⟨s₁, hlater, rfl⟩

end Loading

namespace ModuleSpace

variable {s s' : ModuleSpace} {home name : Text} {b : Binding}

/-- A module is asked with imports as deep as need be. -/
theorem look_eq (s : ModuleSpace) (home name : Text) :
    s.look home name = (Loading.look Loading.acquire home name).play s := by
  refine (Loading.look_agree (fun other => ?_) home name s (.refl s)).1
  exact Loading.fetch_acquire (Nat.lt_succ_of_le s.room_le) other

/-- Looking at a module takes no other away. -/
theorem look_later (s : ModuleSpace) (home name : Text) : s.Later (s.look home name).2 := by
  rw [look_eq]
  exact (Loading.look_agree Loading.acquire_agree home name s (.refl s)).2

/-- A name for which no hook is asked is what it is bound to. -/
theorem look_of_unhooked (h : s.hookFor? home name = none) :
    s.look home name = (.ok (s.binding? home name), s) := by
  rw [look_eq, Loading.look_play, h]

/-- A hook's word counts, unless it is that there is nothing by the name. -/
theorem look_of_hook {hook : Binding} (h : s.hookFor? home name = some hook) :
    s.look home name =
      match (Loading.callHook Loading.acquire home name hook).play s with
      | (.ok found, s') => (.ok found, s')
      | (.error r, s') => if Loading.isUnbound r then (.ok none, s') else (.error r, s') := by
  rw [look_eq, Loading.look_play, h]

/-- Nothing changes unless a hook is asked that imports a module for the name. -/
theorem look_still (h : ∀ hook, s.hookFor? home name = some hook → ¬ hook.ImportsFor name) :
    (s.look home name).2 = s := by
  cases hhook : s.hookFor? home name with
  | none => rw [look_of_unhooked hhook]
  | some hook =>
    have hstill := Loading.callHook_still (h hook hhook) Loading.acquire home s
    rw [look_of_hook hhook]
    rcases hplay : (Loading.callHook Loading.acquire home name hook).play s with ⟨r | found, s'⟩
    · rw [hplay] at hstill
      simp only
      split <;> exact hstill
    · rw [hplay] at hstill
      exact hstill

theorem isLoaded_of_binding? (h : s.binding? home name = some b) : s.isLoaded home = true := by
  rw [isLoaded, Table.has]
  cases hget : Table.get? s.loaded home with
  | some bindings => rfl
  | none => simp [binding?, hget] at h

theorem isLoaded_of_hookFor? {hook : Binding} (h : s.hookFor? home name = some hook) :
    s.isLoaded home = true := by
  unfold hookFor? at h
  split at h
  · cases h
  · exact isLoaded_of_binding? h

theorem binding?_bind (h : s.isLoaded home = true) :
    (s.bind home name b).binding? home name = some b := by
  obtain ⟨bindings, hget⟩ := Option.isSome_iff_exists.1 h
  simp [bind, binding?, hget, Table.get?_put]

/-- What was found in a module is found there again, and that changes nothing. -/
theorem look_again (h : s.look home name = (.ok (some b), s')) :
    s'.look home name = (.ok (some b), s') := by
  by_cases himports : ∃ hook, s.hookFor? home name = some hook ∧ hook.ImportsFor name
  · obtain ⟨hook, hhook, himports⟩ := himports
    have hplay : (Loading.callHook Loading.acquire home name hook).play s = (.ok (some b), s') := by
      rw [look_of_hook hhook] at h
      rcases hplay : (Loading.callHook Loading.acquire home name hook).play s with ⟨r | found, s₁⟩
      · rw [hplay] at h
        simp only at h
        split at h <;> cases h
      · rw [hplay] at h
        exact h
    obtain ⟨s₁, hlater, rfl⟩ := Loading.callHook_found Loading.acquire_agree himports hplay
    -- the module that asks its hook is loaded, so the name can be bound in it
    have hhome : s₁.isLoaded home = true := hlater.loaded home (isLoaded_of_hookFor? hhook)
    have hbound : (s₁.bind home name b).binding? home name = some b := binding?_bind hhome
    rw [look_of_unhooked (by simp [hookFor?, hbound]), hbound]
  · have hstill := look_still fun hook hhook himport => himports ⟨hook, hhook, himport⟩
    rw [h] at hstill
    rw [show s' = s from hstill, h, show s' = s from hstill]

end ModuleSpace
end ClassCensus
