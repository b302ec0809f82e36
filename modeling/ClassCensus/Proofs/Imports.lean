import ClassCensus.Modules.Loading
import ClassCensus.Proofs.Spelling
import ClassCensus.Proofs.Table

/-!
# ClassCensus.Proofs.Imports

What importing does to the modules that are loaded. No import takes away a module that was loaded
before it, whether it goes well or not (`Later`): the only module ever forgotten is one whose own
body fails, and a body runs only if its module was not loaded. So a module whose body goes well is
still there at its end, and an import that goes well leaves its module loaded
(`ModuleSpace.load_registers`).

It also means that bodies run inside each other only as deep as there are listed modules that are
not loaded (`room`), so the bound on the depth of `fetch` never shows (`fetch_agree`). Imports
without a bound (`acquire`) have an equation of their own, which nothing else fulfils
(`acquire_eq`, `acquire_unique`).
-/

namespace ClassCensus

theorem Text.join_pieces (sep : Char) (t : Text) : join [sep] (pieces sep t) = t := by
  rw [join_eq_intercalate, pieces_eq_splitOn]
  exact List.intercalate_splitOn sep

namespace Table

variable {κ α : Type} [DecidableEq κ]

theorem has_put {t : Table κ α} {k k' : κ} {v : α} :
    has (put t k v) k' = true ↔ k' = k ∨ has t k' = true := by
  rw [has_iff, has_iff, mem_keys_put]

theorem has_erase_of_ne {t : Table κ α} {k k' : κ} (h : k ≠ k') :
    has (erase t k) k' = has t k' := by
  induction t with
  | nil => rfl
  | cons p t ih =>
    obtain ⟨a, v⟩ := p
    unfold has at ih
    by_cases ha : a = k
    · subst ha
      simp [erase, has, get?, h]
    · by_cases ha' : a = k'
      · subst ha'
        simp [erase, has, get?, ha]
      · simp [erase, has, get?, ha, ha', ih]

end Table

namespace ModuleSpace

theorem isLoaded_bind (s : ModuleSpace) (home name : Text) (b : Binding) (other : Text) :
    (s.bind home name b).isLoaded other = s.isLoaded other := by
  unfold bind
  cases hget : Table.get? s.loaded home with
  | none => rfl
  | some bindings =>
    have hhome : Table.has s.loaded home = true := by simp [Table.has, hget]
    rw [Bool.eq_iff_iff, isLoaded, isLoaded, Table.has_put]
    exact or_iff_right_of_imp fun heq => heq ▸ hhome

/-- A later state of the same world: the same modules can be imported, and what was loaded still
is. -/
structure Later (s s' : ModuleSpace) : Prop where
  specs : s'.specs = s.specs
  loaded : ∀ name, s.isLoaded name = true → s'.isLoaded name = true

namespace Later

variable {s s' s'' : ModuleSpace}

theorem refl (s : ModuleSpace) : s.Later s := ⟨rfl, fun _ h => h⟩

theorem trans (h : s.Later s') (h' : s'.Later s'') : s.Later s'' :=
  ⟨h'.specs.trans h.specs, fun name hname => h'.loaded name (h.loaded name hname)⟩

theorem bind (h : s.Later s') (home name : Text) (b : Binding) : s.Later (s'.bind home name b) where
  specs := by
    unfold ModuleSpace.bind
    cases Table.get? s'.loaded home with
    | none => exact h.specs
    | some bindings => exact h.specs
  loaded other hother := by
    rw [isLoaded_bind]
    exact h.loaded other hother

end Later

/-- The state in which the body of a module starts: the module is known by its name. -/
def enter (s : ModuleSpace) (name : Text) : ModuleSpace :=
  { s with loaded := Table.put s.loaded name [] }

theorem isLoaded_enter {s : ModuleSpace} {name other : Text} :
    (s.enter name).isLoaded other = true ↔ other = name ∨ s.isLoaded other = true :=
  Table.has_put

/-- How many listed modules are not loaded. -/
def room (s : ModuleSpace) : Nat := (Table.keys s.specs).countP fun name => !s.isLoaded name

theorem room_le (s : ModuleSpace) : s.room ≤ s.specs.length := by
  rw [room, ← List.length_map Prod.fst]
  exact List.countP_le_length

theorem Later.room_le {s s' : ModuleSpace} (h : s.Later s') : s'.room ≤ s.room := by
  rw [room, room, h.specs]
  refine List.countP_mono_left fun name _ hnew => ?_
  cases hloaded : s.isLoaded name with
  | false => rfl
  | true =>
    rw [h.loaded name hloaded] at hnew
    cases hnew

theorem room_enter {s : ModuleSpace} {name : Text} (hlisted : name ∈ Table.keys s.specs)
    (hnew : s.isLoaded name = false) : (s.enter name).room < s.room := by
  have hsplit : (s.enter name).room =
      ((Table.keys s.specs).filter fun other => !s.isLoaded other).countP (· ≠ name) := by
    rw [List.countP_filter]
    refine List.countP_congr fun other _ => ?_
    simp [← Bool.not_eq_true, isLoaded_enter]
  rw [hsplit, room, List.countP_eq_length_filter, List.countP_eq_length_filter]
  exact List.length_filter_lt_length_iff_exists.2 ⟨name, by simp [hlisted, hnew], by simp⟩

end ModuleSpace

namespace Loading

variable {α β : Type}

/-- What a step comes to in a state, and the state it leaves. -/
def play (a : Loading α) (s : ModuleSpace) : Except Raised α × ModuleSpace := a.run.run s

@[simp] theorem play_pure (x : α) (s : ModuleSpace) : play (pure x) s = (.ok x, s) := rfl

@[simp] theorem play_throw (r : Raised) (s : ModuleSpace) :
    play (throw r : Loading α) s = (.error r, s) := rfl

@[simp] theorem play_get (s : ModuleSpace) : play get s = (.ok s, s) := rfl

@[simp] theorem play_modify (f : ModuleSpace → ModuleSpace) (s : ModuleSpace) :
    play (modify f) s = (.ok ⟨⟩, f s) := rfl

@[simp] theorem play_ite (c : Prop) [Decidable c] (a b : Loading α) (s : ModuleSpace) :
    play (if c then a else b) s = if c then play a s else play b s := by
  split <;> rfl

theorem play_bind (a : Loading α) (f : α → Loading β) (s : ModuleSpace) :
    play (a >>= f) s =
      match play a s with
      | (.ok x, s) => play (f x) s
      | (.error r, s) => (.error r, s) := by
  simp only [play, ExceptT.run_bind, StateT.run_bind]
  rcases a.run.run s with ⟨_ | _, s'⟩ <;> rfl

theorem play_tryCatch (a : Loading α) (f : Raised → Loading α) (s : ModuleSpace) :
    play (tryCatch a f) s =
      match play a s with
      | (.ok x, s) => (.ok x, s)
      | (.error r, s) => play (f r) s := by
  simp only [play, tryCatch, tryCatchThe, MonadExceptOf.tryCatch, ExceptT.tryCatch, ExceptT.run,
    ExceptT.mk, StateT.run_bind]
  change (match StateT.run a s with | (x, s) => _) = _
  rcases StateT.run a s with ⟨_ | _, s'⟩ <;> rfl

/-! ## Steps that agree -/

/-- Two steps do the same in every later state than `s`, and lead to another one. -/
def Agree (s : ModuleSpace) (a b : Loading α) : Prop :=
  ∀ s', s.Later s' → a.play s' = b.play s' ∧ s.Later (a.play s').2

variable {s : ModuleSpace}

namespace Agree

theorem pure (x : α) : Agree s (pure x) (pure x) := fun _ h => ⟨rfl, h⟩

theorem throw (r : Raised) : Agree s (throw r : Loading α) (throw r) := fun _ h => ⟨rfl, h⟩

theorem get : Agree s get get := fun _ h => ⟨rfl, h⟩

theorem bind {a b : Loading α} {f g : α → Loading β} (ha : Agree s a b)
    (hf : ∀ x, Agree s (f x) (g x)) : Agree s (a >>= f) (b >>= g) := by
  intro s' h
  obtain ⟨hsame, hlater⟩ := ha s' h
  rw [play_bind, play_bind, ← hsame]
  rcases hplay : a.play s' with ⟨r | x, s''⟩
  · rw [hplay] at hlater
    exact ⟨rfl, hlater⟩
  · rw [hplay] at hlater
    exact hf x s'' hlater

theorem tryCatch {a b : Loading α} {f g : Raised → Loading α} (ha : Agree s a b)
    (hf : ∀ r, Agree s (f r) (g r)) : Agree s (tryCatch a f) (tryCatch b g) := by
  intro s' h
  obtain ⟨hsame, hlater⟩ := ha s' h
  rw [play_tryCatch, play_tryCatch, ← hsame]
  rcases hplay : a.play s' with ⟨r | x, s''⟩
  · rw [hplay] at hlater
    exact hf r s'' hlater
  · rw [hplay] at hlater
    exact ⟨rfl, hlater⟩

theorem modify_bind (home name : Text) (b : Binding) :
    Agree s (modify (·.bind home name b)) (modify (·.bind home name b)) :=
  fun _ h => ⟨rfl, h.bind home name b⟩

theorem mapM {f g : α → Loading β} (hf : ∀ x, Agree s (f x) (g x)) (xs : List α) :
    Agree s (xs.mapM f) (xs.mapM g) := by
  induction xs with
  | nil => exact .pure []
  | cons x xs ih =>
    rw [List.mapM_cons, List.mapM_cons]
    exact (hf x).bind fun _ => ih.bind fun _ => .pure _

theorem forM {f g : α → Loading PUnit} (hf : ∀ x, Agree s (f x) (g x)) (xs : List α) :
    Agree s (xs.forM f) (xs.forM g) := by
  induction xs with
  | nil => exact .pure _
  | cons x xs ih => exact (hf x).bind fun _ => ih

end Agree

section

variable {f g : Text → Loading Unit} (hfetch : ∀ name, Agree s (f name) (g name))

include hfetch

theorem resolve_agree (home : Text) (ref : ClassRef) :
    Agree s (resolve f home ref) (resolve g home ref) := by
  unfold resolve
  cases ref.home with
  | some other =>
    refine (hfetch other).bind fun _ => Agree.get.bind fun s => ?_
    split
    · exact .pure _
    · exact .throw _
  | none =>
    refine Agree.get.bind fun s => ?_
    split
    · exact .pure _
    · exact .throw _

theorem resolveClass_agree (home : Text) (ref : ClassRef) :
    Agree s (resolveClass f home ref) (resolveClass g home ref) := by
  refine (resolve_agree hfetch home ref).bind fun b => ?_
  cases b with
  | type name ancestry attached members => exact .pure _
  | hook answers => exact .throw _
  | importer => exact .throw _
  | other => exact .throw _

theorem attach_agree (home : Text) (a : Attachment) :
    Agree s (attach f home a) (attach g home a) := by
  cases a with
  | value v => exact .pure _
  | fresh ref arguments =>
    exact (resolveClass_agree hfetch home ref).bind fun type => .pure _

theorem makeMember_agree (home : Text) (outer : List Text) (m : Member) :
    Agree s (makeMember f home outer m) (makeMember g home outer m) := by
  induction outer, m using makeMember.induct
    (motive_2 := fun outer made members =>
      Agree s (makeMembers f home outer made members) (makeMembers g home outer made members)) with
  | case1 outer name =>
    rw [makeMember, makeMember]
    exact .pure _
  | case2 outer name target =>
    rw [makeMember, makeMember]
    exact (resolve_agree hfetch home target).bind fun b => .pure _
  | case3 outer name bases attached members ih =>
    rw [makeMember, makeMember]
    refine (Agree.mapM (resolveClass_agree hfetch home) bases).bind fun classes =>
      ih.bind fun inner => (Agree.mapM (attach_agree hfetch home) attached).bind fun objects => ?_
    dsimp only
    cases Lineage.derive? ⟨home, Text.join "." (outer ++ [name])⟩
        (if classes.isEmpty then [Builtin.root] else classes) with
    | none => exact .throw _
    | some l => exact .pure _
  | case4 outer answers =>
    rw [makeMember, makeMember]
    exact .pure _
  | case5 outer made =>
    rw [makeMembers, makeMembers]
    exact .pure _
  | case6 outer made m rest ih ihrest =>
    rw [makeMembers, makeMembers]
    exact ih.bind fun made' => ihrest made'.1 made'.2

theorem bindMembers_agree (home : Text) (members : List Member) :
    Agree s (bindMembers f home members) (bindMembers g home members) := by
  induction members with
  | nil => exact .pure _
  | cons m rest ih =>
    refine (makeMember_agree hfetch home [] m).bind fun made => ?_
    exact (Agree.modify_bind home made.1 made.2).bind fun _ => ih

theorem body_agree (name : Text) : Agree s (body f name) (body g name) := by
  refine Agree.get.bind fun s' => (Agree.forM hfetch _).bind fun _ =>
    (bindMembers_agree hfetch name _).bind fun _ => ?_
  cases (s'.spec name).failure with
  | some r => exact .throw r
  | none => exact .pure _

end

/-- A module that is not listed has an empty body. -/
theorem body_of_unlisted {f g : Text → Loading Unit} {name : Text}
    (h : name ∉ Table.keys s.specs) : Agree s (body f name) (body g name) := by
  intro s' hlater
  have hspec : s'.spec name = ⟨[], [], none⟩ := by
    rw [ModuleSpace.spec, hlater.specs, Table.get?_eq_none_iff.2 h]
    rfl
  have hidle : ∀ fetch : Text → Loading Unit, (body fetch name).play s' = (.ok (), s') := by
    intro fetch
    rw [body, play_bind, play_get]
    simp only [hspec]
    rfl
  rw [hidle f, hidle g]
  exact ⟨rfl, hlater⟩

/-! ## Running a module -/

/-- Two ways to run modules that are not loaded yet agree in later states than `s`. -/
def AgreeOnNew (s : ModuleSpace) (run run' : Text → Loading Unit) : Prop :=
  ∀ name s', s.Later s' → s'.isLoaded name = false →
    (run name).play s' = (run' name).play s' ∧ s.Later ((run name).play s').2

theorem execute_play (f : Text → Loading Unit) (name : Text) (s : ModuleSpace) :
    (execute f name).play s =
      match (body f name).play (s.enter name) with
      | (.error r, s') => (.error r, { s' with loaded := Table.erase s'.loaded name })
      | (.ok (), s') =>
        match Text.splitLast? ['.'] name with
        | some (parent, child) => (.ok (), s'.bind parent child .other)
        | none => (.ok (), s') := by
  simp only [execute, play_bind, play_modify, play_tryCatch, ModuleSpace.enter]
  rcases (body f name).play { s with loaded := Table.put s.loaded name [] } with ⟨r | _, s'⟩
  · rfl
  · rcases Text.splitLast? ['.'] name with _ | ⟨parent, child⟩ <;> rfl

theorem execute_agree {f g : Text → Loading Unit}
    (hbody : ∀ name s', s.Later s' → s'.isLoaded name = false →
      Agree (s'.enter name) (body f name) (body g name)) :
    AgreeOnNew s (execute f) (execute g) := by
  intro name s' h hnew
  obtain ⟨hsame, hlater⟩ := hbody name s' h hnew (s'.enter name) (.refl _)
  rw [execute_play, execute_play, ← hsame]
  rcases hplay : (body f name).play (s'.enter name) with ⟨r | _, s''⟩
  · rw [hplay] at hlater
    refine ⟨rfl, hlater.specs.trans h.specs, fun other hother => ?_⟩
    have hkept := h.loaded other hother
    have hne : name ≠ other := by
      rintro rfl
      rw [hnew] at hkept
      cases hkept
    exact (Table.has_erase_of_ne hne).trans
      (hlater.loaded other (ModuleSpace.isLoaded_enter.2 (.inr hkept)))
  · rw [hplay] at hlater
    have hthere : s.Later s'' := by
      refine ⟨hlater.specs.trans h.specs, fun other hother => ?_⟩
      exact hlater.loaded other (ModuleSpace.isLoaded_enter.2 (.inr (h.loaded other hother)))
    refine ⟨rfl, ?_⟩
    rcases Text.splitLast? ['.'] name with _ | ⟨parent, child⟩
    · exact hthere
    · exact hthere.bind parent child .other

/-- A module whose body goes well is loaded then. -/
theorem execute_registers {f : Text → Loading Unit} {name : Text}
    (hbody : Agree (s.enter name) (body f name) (body f name))
    (h : ((execute f name).play s).1 = .ok ()) :
    ((execute f name).play s).2.isLoaded name = true := by
  have hlater := (hbody (s.enter name) (.refl _)).2
  rw [execute_play] at h ⊢
  rcases hplay : (body f name).play (s.enter name) with ⟨r | _, s'⟩
  · rw [hplay] at h
    cases h
  · rw [hplay] at hlater
    have hthere := hlater.loaded name (ModuleSpace.isLoaded_enter.2 (.inl rfl))
    rcases Text.splitLast? ['.'] name with _ | ⟨parent, child⟩
    · exact hthere
    · simpa only [ModuleSpace.isLoaded_bind] using hthere

theorem ensure_agree {run run' : Text → Loading Unit} (hrun : AgreeOnNew s run run')
    (parts : List Text) : Agree s (ensure run parts) (ensure run' parts) := by
  induction parts with
  | nil => exact .pure ()
  | cons child parents ih =>
    refine Agree.get.bind fun s₁ => ?_
    split
    · exact .pure ()
    · refine ih.bind fun _ => ?_
      intro s' h
      simp only [play_bind, play_get]
      cases hloaded : s'.isLoaded (Text.join "." (child :: parents).reverse) with
      | true => exact ⟨rfl, h⟩
      | false =>
        simp only [Bool.false_eq_true, if_false]
        split
        · exact hrun _ s' h hloaded
        · exact ⟨rfl, h⟩

theorem ensure_registers {run : Text → Loading Unit}
    (hrun : ∀ name s', s'.isLoaded name = false → ((run name).play s').1 = .ok () →
      ((run name).play s').2.isLoaded name = true)
    {child : Text} {parents : List Text}
    (h : ((ensure run (child :: parents)).play s).1 = .ok ()) :
    ((ensure run (child :: parents)).play s).2.isLoaded
      (Text.join "." (child :: parents).reverse) = true := by
  revert h
  simp only [ensure, play_bind, play_get]
  cases hloaded : s.isLoaded (Text.join "." (child :: parents).reverse) with
  | true => exact fun _ => hloaded
  | false =>
    simp only [Bool.false_eq_true, if_false, play_bind]
    rcases (ensure run parents).play s with ⟨r | _, s'⟩
    · simp
    · simp only [play_get]
      cases hloaded' : s'.isLoaded (Text.join "." (child :: parents).reverse) with
      | true => exact fun _ => hloaded'
      | false =>
        simp only [Bool.false_eq_true, if_false]
        split
        · exact hrun _ s' hloaded'
        · simp

/-! ## Imports of any depth -/

/-- Bodies that agree wherever less is left to load make imports that agree. -/
theorem imports_agree {f g : Text → Loading Unit}
    (h : ∀ t : ModuleSpace, t.specs = s.specs → t.room < s.room → ∀ name, Agree t (f name) (g name))
    (parts : List Text) : Agree s (ensure (execute f) parts) (ensure (execute g) parts) := by
  refine ensure_agree (execute_agree fun name s' hlater hnew => ?_) parts
  by_cases hlisted : name ∈ Table.keys s'.specs
  · refine body_agree (h (s'.enter name) hlater.specs ?_) name
    exact Nat.lt_of_lt_of_le (ModuleSpace.room_enter hlisted hnew) hlater.room_le
  · exact body_of_unlisted hlisted

/-- The bound on the depth does not matter if it exceeds what is left to load. -/
theorem fetch_agree {depth depth' : Nat} (h : s.room < depth) (h' : s.room < depth')
    (name : Text) : Agree s (fetch depth name) (fetch depth' name) := by
  induction depth generalizing s depth' name with
  | zero => cases h
  | succ depth ih =>
    cases depth' with
    | zero => cases h'
    | succ depth' =>
      rw [fetch, fetch]
      refine imports_agree (fun t _ hroom name => ?_) _
      exact ih (by omega) (by omega) name

/-- Imports a module, its body importing others as deep as need be. -/
def acquire (name : Text) : Loading Unit := do
  fetch ((← get).specs.length + 1) name

theorem acquire_play (name : Text) (s : ModuleSpace) :
    (acquire name).play s = (fetch (s.specs.length + 1) name).play s := by
  rw [acquire, play_bind, play_get]

theorem fetch_acquire {depth : Nat} (h : s.room < depth) (name : Text) :
    Agree s (fetch depth name) (acquire name) := by
  intro s' hlater
  rw [acquire_play]
  have hroom := hlater.room_le
  refine fetch_agree h ?_ name s' hlater
  rw [hlater.specs]
  exact Nat.lt_succ_of_le s.room_le

theorem acquire_later (s : ModuleSpace) (name : Text) : s.Later ((acquire name).play s).2 := by
  obtain ⟨hsame, hlater⟩ := fetch_acquire (Nat.lt_succ_self s.room) name s (.refl s)
  rwa [hsame] at hlater

theorem acquire_agree (name : Text) : Agree s (acquire name) (acquire name) :=
  fun s' h => ⟨rfl, h.trans (acquire_later s' name)⟩

/-- An import without a bound: the parents first, then the body, which imports without a bound. -/
theorem acquire_eq (name : Text) :
    acquire name = ensure (execute acquire) (Text.pieces '.' name).reverse := by
  funext s
  change (acquire name).play s = (ensure (execute acquire) _).play s
  rw [acquire_play, fetch]
  refine (imports_agree (fun t hspecs hroom name => ?_) _ s (.refl s)).1
  exact fetch_acquire (Nat.lt_of_lt_of_le hroom s.room_le) name

/-- There is only one way to import without a bound. -/
theorem acquire_unique {f : Text → Loading Unit}
    (hf : ∀ name, f name = ensure (execute f) (Text.pieces '.' name).reverse) : f = acquire := by
  have hagree : ∀ (s : ModuleSpace) name, Agree s (acquire name) (f name) := by
    intro s
    induction hroom : s.room using Nat.strongRecOn generalizing s with
    | ind n ih =>
      intro name
      rw [hf, acquire_eq]
      exact imports_agree (fun t _ hless => ih t.room (hroom ▸ hless) t rfl) _
  funext name s
  exact (hagree s name s (.refl s)).1.symm

theorem execute_acquire_registers {name : Text}
    (h : ((execute acquire name).play s).1 = .ok ()) :
    ((execute acquire name).play s).2.isLoaded name = true :=
  execute_registers (body_agree acquire_agree name) h

theorem acquire_registers {name : Text} (h : ((acquire name).play s).1 = .ok ()) :
    ((acquire name).play s).2.isLoaded name = true := by
  rw [acquire_eq] at h ⊢
  cases hparts : (Text.pieces '.' name).reverse with
  | nil => exact absurd (List.reverse_eq_nil_iff.1 hparts) (Text.pieces_ne_nil '.' name)
  | cons child parents =>
    rw [hparts] at h
    have hname : Text.join "." (child :: parents).reverse = name := by
      rw [← hparts, List.reverse_reverse]
      exact Text.join_pieces '.' name
    rw [← hname]
    exact ensure_registers (fun _ _ _ => execute_acquire_registers) h

end Loading

/-- A name that a dot leads is refused; every other module is imported as deep as need be. -/
theorem ModuleSpace.load_eq {s : ModuleSpace} {name : Text} (h : ¬ ['.'] <+: name) :
    s.load name = (Loading.acquire name).play s := by
  unfold load
  split
  · exact absurd (List.cons_prefix_cons.2 ⟨rfl, List.nil_prefix⟩) h
  · exact (Loading.acquire_play name s).symm

/-- An import that goes well leaves its module loaded. -/
theorem ModuleSpace.load_registers {s : ModuleSpace} {name : Text}
    (h : (s.load name).1 = .ok ()) : (s.load name).2.isLoaded name = true := by
  by_cases hdot : ['.'] <+: name
  · obtain ⟨rest, rfl⟩ := hdot
    cases h
  · rw [load_eq hdot] at h ⊢
    exact Loading.acquire_registers h

end ClassCensus
