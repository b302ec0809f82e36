import ClassCensus.Proofs.CatalogLaws
import ClassCensus.Proofs.Word

/-!
# ClassCensus.Proofs.Confirmation

What the catalog of modules makes of an import. An identity names a module and a class (`Names`),
and importing the module comes out in one way (`Comes`): the module is there then, it or a package
it lies in does not exist or has a body that raises an error, or its name is refused because a dot
leads it.

The catalog does not see which of these happened, only the error (`Outcome.error?`). So a body that
raises an error of absence is taken for a missing module, and a refused name for a broken one
(`Confirmation`). A module that is there may ask its hook for the class (`Gives`), and an error that
the hook raises is not looked at (`Spoils`).
-/

namespace ClassCensus

/-! ## The last cut -/

namespace Text

/-- A text is cut where a separator occurs for the last time. -/
structure CutsLast (sep t front back : Text) : Prop where
  cut : t = front ++ sep ++ back
  last : ∀ front' back', t = front' ++ sep ++ back' → front'.length ≤ front.length

theorem splitLast?_spec (sep t : Text) :
    match splitLast? sep t with
    | some (front, back) => CutsLast sep t front back
    | none => ∀ front back, t ≠ front ++ sep ++ back := by
  induction t with
  | nil =>
    cases sep with
    | nil => exact ⟨rfl, fun front' back' h => by simp_all⟩
    | cons a sep => simp [splitLast?, after?]
  | cons c t ih =>
    rw [splitLast?]
    cases hsplit : splitLast? sep t with
    | some parts =>
      rw [hsplit] at ih
      obtain ⟨hcut, hlast⟩ := ih
      refine ⟨by rw [hcut]; rfl, fun front' back' h => ?_⟩
      cases front' with
      | nil => exact Nat.zero_le _
      | cons x front' =>
        have hrest : t = front' ++ sep ++ back' := (List.cons.inj h).2
        exact Nat.succ_le_succ (hlast front' back' hrest)
    | none =>
      rw [hsplit] at ih
      cases hafter : after? sep (c :: t) with
      | some rest =>
        refine ⟨after?_eq_some.1 hafter, fun front' back' h => ?_⟩
        cases front' with
        | nil => exact Nat.zero_le _
        | cons x front' => exact absurd (List.cons.inj h).2 (ih front' back')
      | none =>
        rintro (_ | ⟨x, front⟩) back h
        · exact after?_eq_none.1 hafter ⟨back, h.symm⟩
        · exact ih front back (List.cons.inj h).2

theorem CutsLast.unique {sep t front back front' back' : Text} (h : CutsLast sep t front back)
    (h' : CutsLast sep t front' back') : front = front' ∧ back = back' := by
  have hlength : front.length = front'.length :=
    Nat.le_antisymm (h'.last _ _ h.cut) (h.last _ _ h'.cut)
  have hsame : front ++ (sep ++ back) = front' ++ (sep ++ back') := by
    rw [← List.append_assoc, ← List.append_assoc, ← h.cut, h'.cut]
  obtain ⟨hfront, hrest⟩ := List.append_inj hsame hlength
  exact ⟨hfront, List.append_cancel_left hrest⟩

theorem splitLast?_eq_some {sep t front back : Text} :
    splitLast? sep t = some (front, back) ↔ CutsLast sep t front back := by
  have hspec := splitLast?_spec sep t
  constructor
  · intro h
    rwa [h] at hspec
  · intro h
    cases hsplit : splitLast? sep t with
    | none =>
      rw [hsplit] at hspec
      exact absurd h.cut (hspec front back)
    | some parts =>
      rw [hsplit] at hspec
      obtain ⟨hfront, hback⟩ := hspec.unique h
      rw [← hfront, ← hback]

theorem join_concat {parts : List Text} (h : parts ≠ []) (sep part : Text) :
    join sep (parts ++ [part]) = join sep parts ++ sep ++ part := by
  induction parts with
  | nil => exact absurd rfl h
  | cons p ps ih =>
    cases ps with
    | nil => rfl
    | cons q qs =>
      have hrest := ih (by simp)
      simp only [List.cons_append, join] at hrest ⊢
      rw [hrest]
      simp

end Text

/-! ## How imports come out -/

/-- How the import of a module comes out. -/
inductive Outcome where
  | there
  | missing (name : Text)
  | broken (name : Text) (r : Raised)
  | refused (name : Text)

namespace ModuleSpace

/-- The name of a module by its parts, the last of them first. -/
def nameOf (parts : List Text) : Text := Text.join "." parts.reverse

/-- The first name is that of the module with the second name, or of a package it lies in. -/
def Encloses (outer name : Text) : Prop := outer = name ∨ outer ++ ['.'] <+: name

/-- A module in turn, the packages it lies in being loaded: it may be loaded already, and otherwise
its body runs if it exists. -/
inductive Attempt : ModuleSpace → Text → Outcome → ModuleSpace → Prop where
  | loaded {s : ModuleSpace} {name : Text} : s.isLoaded name = true → Attempt s name .there s
  | missing {s : ModuleSpace} {name : Text} : s.isLoaded name = false →
      s.isImportable name = false → Attempt s name (.missing name) s
  | broken {s s' : ModuleSpace} {name : Text} {r : Raised} : s.isLoaded name = false →
      s.isImportable name = true →
      (Loading.execute Loading.acquire name).play s = (.error r, s') →
      Attempt s name (.broken name r) s'
  | done {s s' : ModuleSpace} {name : Text} : s.isLoaded name = false →
      s.isImportable name = true →
      (Loading.execute Loading.acquire name).play s = (.ok (), s') → Attempt s name .there s'

/-- The import of a module by the parts of its name, the last of them first: nothing is done if it
is loaded, and otherwise the package it lies in is imported first. -/
inductive Imports : ModuleSpace → List Text → Outcome → ModuleSpace → Prop where
  | top {s : ModuleSpace} : Imports s [] .there s
  | loaded {s : ModuleSpace} {child : Text} {parents : List Text} :
      s.isLoaded (nameOf (child :: parents)) = true → Imports s (child :: parents) .there s
  | above {s s' : ModuleSpace} {child : Text} {parents : List Text} {o : Outcome} :
      s.isLoaded (nameOf (child :: parents)) = false → Imports s parents o s' → o ≠ .there →
      Imports s (child :: parents) o s'
  | turn {s s' s'' : ModuleSpace} {child : Text} {parents : List Text} {o : Outcome} :
      s.isLoaded (nameOf (child :: parents)) = false → Imports s parents .there s' →
      Attempt s' (nameOf (child :: parents)) o s'' → Imports s (child :: parents) o s''

/-- The import of a module by its full name. -/
inductive Comes (s : ModuleSpace) (home : Text) : Outcome → ModuleSpace → Prop where
  | loaded : s.isLoaded home = true → Comes s home .there s
  | refused : s.isLoaded home = false → ['.'] <+: home → Comes s home (.refused home) s
  | imports {o : Outcome} {s' : ModuleSpace} : s.isLoaded home = false → ¬ ['.'] <+: home →
      Imports s (Text.pieces '.' home).reverse o s' → Comes s home o s'

end ModuleSpace

namespace Outcome

/-- The error for a name that a dot leads. -/
def refusal (home : Text) : Raised :=
  ⟨"TypeError".toList, List.flatten
    ["the 'package' argument is required to perform a relative import for ", Text.quote home]⟩

/-- The error an import raises. -/
def error? : Outcome → Option Raised
  | there => none
  | missing name => some (Loading.missing name)
  | broken _ r => some r
  | refused name => some (refusal name)

/-- What an import comes to. -/
def result (o : Outcome) : Except Raised Unit :=
  match o.error? with
  | none => .ok ()
  | some r => .error r

theorem result_of_ne {o : Outcome} (h : o ≠ .there) : ∃ r, o.result = .error r := by
  cases o with
  | there => exact absurd rfl h
  | missing name => exact ⟨_, rfl⟩
  | broken name r => exact ⟨_, rfl⟩
  | refused name => exact ⟨_, rfl⟩

end Outcome

namespace ModuleSpace

variable {s s' s'' : ModuleSpace} {name home outer child : Text} {parents parts : List Text}
  {o o' : Outcome} {r : Raised}

/-! ## Names -/

theorem nameOf_eq (parts : List Text) : nameOf parts = Text.join "." parts.reverse := rfl

theorem nameOf_cons (h : parents ≠ []) :
    nameOf (child :: parents) = nameOf parents ++ ['.'] ++ child := by
  rw [nameOf, List.reverse_cons, Text.join_concat (by simpa using h)]
  rfl

theorem nameOf_pieces (home : Text) : nameOf (Text.pieces '.' home).reverse = home := by
  rw [nameOf, List.reverse_reverse]
  exact Text.join_pieces '.' home

theorem Encloses.below (h : Encloses outer (nameOf parents)) (hne : parents ≠ []) :
    Encloses outer (nameOf (child :: parents)) := by
  rw [nameOf_cons hne]
  rcases h with rfl | h
  · exact .inr (List.prefix_append _ _)
  · exact .inr (h.trans ((List.prefix_append _ _).trans (List.prefix_append _ _)))

theorem isPackage_iff : s.isPackage name = true ↔
    ∃ listed ∈ Table.keys s.specs, name ++ ['.'] <+: listed := by
  simp [isPackage]

theorem isImportable_iff : s.isImportable name = true ↔
    ∃ listed ∈ Table.keys s.specs, Encloses name listed := by
  simp only [isImportable, Bool.or_eq_true, isPackage_iff, Table.has_iff, Encloses]
  constructor
  · rintro (h | ⟨listed, hlisted, h⟩)
    · exact ⟨name, h, .inl rfl⟩
    · exact ⟨listed, hlisted, .inr h⟩
  · rintro ⟨listed, hlisted, rfl | h⟩
    · exact .inl hlisted
    · exact .inr ⟨listed, hlisted, h⟩

theorem isPackage_of_isImportable (h : s.isImportable name = true)
    (hfront : outer ++ ['.'] <+: name) : s.isPackage outer = true := by
  obtain ⟨listed, hlisted, rfl | h⟩ := isImportable_iff.1 h
  · exact isPackage_iff.2 ⟨name, hlisted, hfront⟩
  · exact isPackage_iff.2 ⟨listed, hlisted, hfront.trans ((List.prefix_append _ _).trans h)⟩

/-- A module exists only if the packages it lies in do. -/
theorem Encloses.isImportable (h : Encloses outer name) (hname : s.isImportable name = true) :
    s.isImportable outer = true := by
  rcases h with rfl | h
  · exact hname
  · simp [ModuleSpace.isImportable, isPackage_of_isImportable hname h]

theorem Later.isImportable (h : s.Later s') : s'.isImportable name = s.isImportable name := by
  simp only [ModuleSpace.isImportable, isPackage, h.specs]

/-! ## The import as it is done -/

theorem ensure_cons (run : Text → Loading Unit) (child : Text) (parents : List Text)
    (s : ModuleSpace) :
    (Loading.ensure run (child :: parents)).play s =
      if s.isLoaded (nameOf (child :: parents)) then (.ok (), s)
      else
        match (Loading.ensure run parents).play s with
        | (.error r, s') => (.error r, s')
        | (.ok (), s') =>
          if s'.isLoaded (nameOf (child :: parents)) then (.ok (), s')
          else if s'.isImportable (nameOf (child :: parents)) then
            (run (nameOf (child :: parents))).play s'
          else (.error (Loading.missing (nameOf (child :: parents))), s') := by
  -- a module that exists lies in a package, so that this need not be asked
  have hpackage : ∀ s : ModuleSpace, (s.isImportable (nameOf (child :: parents)) &&
      (parents.isEmpty || s.isPackage (nameOf parents))) =
        s.isImportable (nameOf (child :: parents)) := by
    intro s
    cases hexists : s.isImportable (nameOf (child :: parents)) with
    | false => rfl
    | true =>
      cases parents with
      | nil => rfl
      | cons parent above =>
        have hfront : nameOf (parent :: above) ++ ['.'] <+: nameOf (child :: parent :: above) := by
          rw [nameOf_cons (List.cons_ne_nil _ _)]
          exact List.prefix_append _ _
        simp [isPackage_of_isImportable hexists hfront]
  simp only [Loading.ensure, Loading.play_bind, Loading.play_get, Loading.play_ite,
    Loading.play_pure, Loading.play_throw, ← nameOf_eq, hpackage]
  rcases (Loading.ensure run parents).play s with ⟨r | _, s'⟩ <;> rfl

theorem exists_attempt (s : ModuleSpace) (name : Text) : ∃ o s', Attempt s name o s' := by
  cases hloaded : s.isLoaded name with
  | true => exact ⟨_, _, .loaded hloaded⟩
  | false =>
    cases hexists : s.isImportable name with
    | false => exact ⟨_, _, .missing hloaded hexists⟩
    | true =>
      rcases hplay : (Loading.execute Loading.acquire name).play s with ⟨r | _, s'⟩
      · exact ⟨_, _, .broken hloaded hexists hplay⟩
      · exact ⟨_, _, .done hloaded hexists hplay⟩

theorem exists_imports (s : ModuleSpace) (parts : List Text) : ∃ o s', Imports s parts o s' := by
  induction parts with
  | nil => exact ⟨_, _, .top⟩
  | cons child parents ih =>
    cases hloaded : s.isLoaded (nameOf (child :: parents)) with
    | true => exact ⟨_, _, .loaded hloaded⟩
    | false =>
      obtain ⟨o, s', habove⟩ := ih
      by_cases hthere : o = .there
      · subst hthere
        obtain ⟨o, s'', hturn⟩ := exists_attempt s' (nameOf (child :: parents))
        exact ⟨_, _, .turn hloaded habove hturn⟩
      · exact ⟨_, _, .above hloaded habove hthere⟩

theorem exists_comes (s : ModuleSpace) (home : Text) : ∃ o s', Comes s home o s' := by
  cases hloaded : s.isLoaded home with
  | true => exact ⟨_, _, .loaded hloaded⟩
  | false =>
    by_cases hdot : ['.'] <+: home
    · exact ⟨_, _, .refused hloaded hdot⟩
    · obtain ⟨o, s', himports⟩ := exists_imports s (Text.pieces '.' home).reverse
      exact ⟨_, _, .imports hloaded hdot himports⟩

theorem Attempt.unique (h : Attempt s name o s') (h' : Attempt s name o' s'') :
    o = o' ∧ s' = s'' := by
  cases h <;> cases h' <;> simp_all

theorem Imports.unique (h : Imports s parts o s') (h' : Imports s parts o' s'') :
    o = o' ∧ s' = s'' := by
  induction h generalizing o' s'' with
  | top =>
    cases h'
    exact ⟨rfl, rfl⟩
  | loaded hloaded =>
    cases h' with
    | loaded _ => exact ⟨rfl, rfl⟩
    | above hnew _ _ => simp [hloaded] at hnew
    | turn hnew _ _ => simp [hloaded] at hnew
  | above hnew _ hne ih =>
    cases h' with
    | loaded hloaded => simp [hloaded] at hnew
    | above _ habove _ => exact ih habove
    | turn _ habove _ => exact absurd (ih habove).1 hne
  | turn hnew _ hturn ih =>
    cases h' with
    | loaded hloaded => simp [hloaded] at hnew
    | above _ habove hne => exact absurd (ih habove).1.symm hne
    | turn _ habove hturn' =>
      obtain ⟨-, rfl⟩ := ih habove
      exact hturn.unique hturn'

theorem Comes.unique (h : Comes s home o s') (h' : Comes s home o' s'') : o = o' ∧ s' = s'' := by
  cases h with
  | loaded hloaded =>
    cases h' with
    | loaded _ => exact ⟨rfl, rfl⟩
    | refused hnew _ => simp [hloaded] at hnew
    | imports hnew _ _ => simp [hloaded] at hnew
  | refused hnew hdot =>
    cases h' with
    | loaded hloaded => simp [hloaded] at hnew
    | refused _ _ => exact ⟨rfl, rfl⟩
    | imports _ hplain _ => exact absurd hdot hplain
  | imports hnew hplain himports =>
    cases h' with
    | loaded hloaded => simp [hloaded] at hnew
    | refused _ hdot => exact absurd hdot hplain
    | imports _ _ himports' => exact himports.unique himports'

theorem Imports.play (h : Imports s parts o s') :
    (Loading.ensure (Loading.execute Loading.acquire) parts).play s = (o.result, s') := by
  induction h with
  | top => rfl
  | loaded hloaded => rw [ensure_cons, if_pos hloaded]; rfl
  | above hnew _ hne ih =>
    obtain ⟨r, hr⟩ := Outcome.result_of_ne hne
    rw [ensure_cons, hnew, ih, hr]
    rfl
  | turn hnew _ hturn ih =>
    rw [ensure_cons, hnew, ih]
    cases hturn with
    | loaded hloaded => simp [hloaded, Outcome.result, Outcome.error?]
    | missing hnew' habsent => simp [hnew', habsent, Outcome.result, Outcome.error?]
    | broken hnew' hexists hplay => simp [hnew', hexists, hplay, Outcome.result, Outcome.error?]
    | done hnew' hexists hplay => simp [hnew', hexists, hplay, Outcome.result, Outcome.error?]

theorem Comes.load (h : Comes s home o s') (hnew : s.isLoaded home = false) :
    s.load home = (o.result, s') := by
  cases h with
  | loaded hloaded => simp [hloaded] at hnew
  | refused _ hdot =>
    obtain ⟨rest, rfl⟩ := hdot
    rfl
  | imports _ hplain himports =>
    rw [load_eq hplain, Loading.acquire_eq]
    exact himports.play

/-! ## What an outcome tells -/

/-- The body of a module raises an error when it is run, at some time of an import that starts in
the state `s`. -/
def Raises (s : ModuleSpace) (name : Text) (r : Raised) : Prop :=
  ∃ t t', s.Later t ∧ t.isLoaded name = false ∧
    (Loading.execute Loading.acquire name).play t = (.error r, t')

/-- What an outcome tells of the module `home`, its import being started in `s` and ended in
`s'`. -/
def Reports (s : ModuleSpace) (home : Text) (s' : ModuleSpace) : Outcome → Prop
  | .there => s'.isLoaded home = true
  | .missing name => Encloses name home ∧ s.isImportable name = false ∧ s.isImportable home = false
  | .broken name r => Encloses name home ∧ s.isImportable name = true ∧ s.Raises name r
  | .refused name => name = home ∧ ['.'] <+: home ∧ s' = s

theorem Attempt.later (h : Attempt s name o s') : s.Later s' := by
  have hran : s.isLoaded name = false →
      s.Later ((Loading.execute Loading.acquire name).play s).2 := fun hnew =>
    (Loading.execute_agree (fun name _ _ _ => Loading.body_agree Loading.acquire_agree name) name s
      (.refl s) hnew).2
  cases h with
  | loaded _ => exact .refl s
  | missing _ _ => exact .refl s
  | broken hnew _ hplay =>
    have hlater := hran hnew
    rwa [hplay] at hlater
  | done hnew _ hplay =>
    have hlater := hran hnew
    rwa [hplay] at hlater

theorem Imports.later (h : Imports s parts o s') : s.Later s' := by
  induction h with
  | top => exact .refl _
  | loaded _ => exact .refl _
  | above _ _ _ ih => exact ih
  | turn _ _ hturn ih => exact ih.trans hturn.later

theorem Reports.above (h : Reports s (nameOf parents) s' o) (hne : o ≠ .there)
    (hplain : ∀ name, o ≠ .refused name) (hparents : parents ≠ []) :
    Reports s (nameOf (child :: parents)) s' o := by
  cases o with
  | there => exact absurd rfl hne
  | refused name => exact absurd rfl (hplain name)
  | broken name r => exact ⟨h.1.below hparents, h.2⟩
  | missing name =>
    refine ⟨h.1.below hparents, h.2.1, ?_⟩
    rw [← Bool.not_eq_true]
    intro hexists
    have hname := (h.1.below hparents).isImportable hexists
    rw [h.2.1] at hname
    cases hname

theorem Imports.ne_refused (h : Imports s parts o s') : o ≠ .refused name := by
  induction h with
  | top => exact nofun
  | loaded _ => exact nofun
  | above _ _ _ ih => exact ih
  | turn _ _ hturn _ => cases hturn <;> exact nofun

theorem Attempt.reports (h : Attempt s' name o s'') (hlater : s.Later s') : Reports s name s'' o := by
  cases h with
  | loaded hloaded => exact hloaded
  | missing _ habsent =>
    rw [hlater.isImportable] at habsent
    exact ⟨.inl rfl, habsent, habsent⟩
  | broken hnew hexists hplay =>
    rw [hlater.isImportable] at hexists
    exact ⟨.inl rfl, hexists, _, _, hlater, hnew, hplay⟩
  | done hnew _ hplay =>
    have hthere := Loading.execute_acquire_registers (congrArg Prod.fst hplay)
    rwa [hplay] at hthere

theorem Imports.reports (h : Imports s parts o s') (hne : parts ≠ []) :
    Reports s (nameOf parts) s' o := by
  induction h with
  | top => exact absurd rfl hne
  | loaded hloaded => exact hloaded
  | @above s' child parents o _ habove hwrong ih =>
    cases parents with
    | nil =>
      cases habove
      exact absurd rfl hwrong
    | cons parent rest =>
      exact (ih (List.cons_ne_nil _ _)).above hwrong (fun _ => habove.ne_refused)
        (List.cons_ne_nil _ _)
  | turn _ habove hturn _ => exact hturn.reports habove.later

theorem Comes.reports (h : Comes s home o s') : Reports s home s' o := by
  cases h with
  | loaded hloaded => exact hloaded
  | refused _ hdot => exact ⟨rfl, hdot, rfl⟩
  | imports _ _ himports =>
    have hreports := himports.reports (by simpa using Text.pieces_ne_nil '.' home)
    rwa [nameOf_pieces] at hreports

end ModuleSpace

/-! ## What the catalog answers -/

/-- The fault that an identity could not be reflected, by its family and number and by the identity
it names. -/
def Failure.IsFailedReflection (identity : Text) (f : Failure) : Prop :=
  ∃ fault, f = .fault fault ∧ fault.family = .reflection ∧ fault.code.number = 4002 ∧
    Table.get? fault.details "identity".toList = some (.text identity)

namespace ModuleCatalog

/-- The module and the class that an identity names. -/
structure Names (sep identity home name : Text) : Prop where
  split : ∃ path, Text.CutsLast sep identity path name ∧ path ≠ [] ∧
    home = Text.replace sep ['.'] path
  named : name ≠ []

/-- A class is bound to a name in a loaded module. -/
def Binds (s : ModuleSpace) (home name : Text) : Prop :=
  ∃ type ancestors attached members,
    s.binding? home name = some (.type type ancestors attached members)

/-- A loaded module has a class under a name: it is bound there, or the module's hook gives it. -/
def Gives (s : ModuleSpace) (home name : Text) : Prop :=
  Binds s home name ∨ ∃ hook, s.hookFor? home name = some hook ∧
    ∃ type ancestors attached members,
      ((Loading.callHook Loading.acquire home name hook).play s).1 =
        .ok (some (.type type ancestors attached members))

/-- The hook of a loaded module is asked for a name and raises an error, and not the one that there
is nothing by the name. -/
def Spoils (s : ModuleSpace) (home name : Text) (r : Raised) : Prop :=
  ∃ hook, s.hookFor? home name = some hook ∧ Loading.isUnbound r = false ∧
    ((Loading.callHook Loading.acquire home name hook).play s).1 = .error r

/-- The module an identity names is imported, if it is not loaded, and that comes out in one way. -/
structure Tries (c : ModuleCatalog) (identity home name : Text) (o : Outcome) (s : ModuleSpace) :
    Prop where
  names : Names c.separator identity home name
  comes : c.space.Comes home o s

variable {c : ModuleCatalog} {sep identity home name home' name' : Text} {o o' : Outcome}
  {s s' : ModuleSpace}

theorem split?_eq_some : split? sep identity = some (home, name) ↔
    Names sep identity home name := by
  unfold split?
  constructor
  · intro h
    split at h
    · cases h
    · rename_i path last hsplit
      split at h
      · cases h
      · rename_i hfull
        simp only [Bool.or_eq_true, List.isEmpty_iff, not_or] at hfull
        cases h
        exact ⟨⟨path, Text.splitLast?_eq_some.1 hsplit, hfull.1, rfl⟩, hfull.2⟩
  · rintro ⟨⟨path, hcut, hpath, rfl⟩, hname⟩
    simp [Text.splitLast?_eq_some.2 hcut, hpath, hname]

theorem Names.unique (h : Names sep identity home name) (h' : Names sep identity home' name') :
    home = home' ∧ name = name' := by
  have hsame := (split?_eq_some.2 h).symm.trans (split?_eq_some.2 h')
  simpa using hsame

theorem Tries.unique (h : c.Tries identity home name o s) (h' : c.Tries identity home' name' o' s') :
    home = home' ∧ name = name' ∧ o = o' ∧ s = s' := by
  obtain ⟨rfl, rfl⟩ := h.names.unique h'.names
  exact ⟨rfl, rfl, h.comes.unique h'.comes⟩

/-- What is asked of the one way in which an import came out is asked of that way. -/
theorem Tries.exists_iff (h : c.Tries identity home name o s)
    {p : Text → Text → Outcome → ModuleSpace → Prop} :
    (∃ home name o s, c.Tries identity home name o s ∧ p home name o s) ↔ p home name o s := by
  constructor
  · rintro ⟨home', name', o', s', h', hp⟩
    obtain ⟨rfl, rfl, rfl, rfl⟩ := h.unique h'
    exact hp
  · intro hp
    exact ⟨home, name, o, s, h, hp⟩

theorem isSome_class? {found : Option Binding} : (class? found).isSome = true ↔
    ∃ type ancestors attached members, found = some (.type type ancestors attached members) := by
  rcases found with _ | ⟨type, ancestors, attached, members⟩ | _ | _ | _ <;> simp [class?]

/-- The answer of a module that is there. -/
def answerOf (s : ModuleSpace) (home name : Text) : Except Failure Bool :=
  match (s.look home name).1 with
  | .ok found => .ok (class? found).isSome
  | .error r => .error (.raised r)

/-- The answer of the catalog, which goes by the error alone. -/
def answerTo (identity home name : Text) (o : Outcome) (s : ModuleSpace) : Except Failure Bool :=
  match o.error? with
  | none => answerOf s home name
  | some r => (onFailure identity home r).map Option.isSome

theorem answerTo_there : answerTo identity home name .there s = answerOf s home name := rfl

/-- What a module that is there answers: that it has the class or not, or the error that its hook
raised. -/
inductive Answered (s : ModuleSpace) (home name : Text) : Except Failure Bool → Prop
  | yes (hgives : Gives s home name) (hspoils : ∀ r, ¬ Spoils s home name r) :
      Answered s home name (.ok true)
  | no (hgives : ¬ Gives s home name) (hspoils : ∀ r, ¬ Spoils s home name r) :
      Answered s home name (.ok false)
  | raised {r : Raised} (hgives : ¬ Gives s home name)
      (hspoils : ∀ r', Spoils s home name r' ↔ r' = r) :
      Answered s home name (.error (.raised r))

theorem answered_of_unhooked (hhook : s.hookFor? home name = none) :
    Answered s home name (answerOf s home name) := by
  have hspoils : ∀ r, ¬ Spoils s home name r := by simp [Spoils, hhook]
  have hgives : Gives s home name ↔ (class? (s.binding? home name)).isSome = true := by
    simp [Gives, Binds, hhook, isSome_class?]
  rw [answerOf, ModuleSpace.look_of_unhooked hhook]
  simp only
  cases hclass : (class? (s.binding? home name)).isSome with
  | true => exact .yes (hgives.2 hclass) hspoils
  | false => exact .no (by simp [hgives, hclass]) hspoils

theorem answered_of_hook {hook : Binding} (hhook : s.hookFor? home name = some hook) :
    Answered s home name (answerOf s home name) := by
  have hbinds : ¬ Binds s home name := by
    rintro ⟨_, _, _, _, hbound⟩
    simp [ModuleSpace.hookFor?, hbound] at hhook
  have hgives : Gives s home name ↔ ∃ type ancestors attached members,
      ((Loading.callHook Loading.acquire home name hook).play s).1 =
        .ok (some (.type type ancestors attached members)) := by
    simp [Gives, hbinds, hhook]
  have hspoils : ∀ r, Spoils s home name r ↔ Loading.isUnbound r = false ∧
      ((Loading.callHook Loading.acquire home name hook).play s).1 = .error r := by
    simp [Spoils, hhook]
  rw [answerOf, ModuleSpace.look_of_hook hhook]
  rcases hplay : (Loading.callHook Loading.acquire home name hook).play s with ⟨r | found, s'⟩
  · -- an error of a name that is not bound counts as nothing found
    cases hunbound : Loading.isUnbound r with
    | true =>
      simp only [hunbound, if_true]
      refine .no (by simp [hgives, hplay]) fun r' hr' => ?_
      obtain ⟨hbound, hr⟩ := (hspoils r').1 hr'
      rw [hplay] at hr
      cases hr
      simp [hunbound] at hbound
    | false =>
      simp only [hunbound, Bool.false_eq_true, if_false]
      refine .raised (by simp [hgives, hplay]) fun r' => ?_
      rw [hspoils, hplay]
      constructor
      · rintro ⟨-, hr⟩
        cases hr
        rfl
      · rintro rfl
        exact ⟨hunbound, rfl⟩
  · have hfound : Gives s home name ↔ (class? found).isSome = true := by
      simp [hgives, hplay, isSome_class?]
    simp only
    cases hclass : (class? found).isSome with
    | true => exact .yes (hfound.2 hclass) (by simp [hspoils, hplay])
    | false => exact .no (by simp [hfound, hclass]) (by simp [hspoils, hplay])

theorem answered (s : ModuleSpace) (home name : Text) :
    Answered s home name (answerOf s home name) := by
  cases hhook : s.hookFor? home name with
  | none => exact answered_of_unhooked hhook
  | some hook => exact answered_of_hook hhook

theorem answerTo_of_absence {r : Raised} (herror : o.error? = some r) (h : isAbsence r = true) :
    answerTo identity home name o s = .ok false := by
  simp only [answerTo, herror, onFailure, h, if_true]
  rfl

theorem answerTo_of_ending {r : Raised} (herror : o.error? = some r) (h : isAbsence r = false)
    (hends : isEnding r = true) : answerTo identity home name o s = .error (.raised r) := by
  simp only [answerTo, herror, onFailure, h, hends, Bool.false_eq_true, if_false, if_true]
  rfl

theorem answerTo_of_broken {r : Raised} (herror : o.error? = some r) (h : isAbsence r = false)
    (hends : isEnding r = false) : answerTo identity home name o s =
      .error (.fault (.reflectionFailed identity
        (List.flatten ["import of ", home, " failed: ", r.shown]))) := by
  simp only [answerTo, herror, onFailure, h, hends, Bool.false_eq_true, if_false]
  rfl

theorem Tries.answer (h : c.Tries identity home name o s) (hsep : c.separator ≠ []) :
    (c.confirm identity).answer = answerTo identity home name o s := by
  have hsplit := split?_eq_some.2 h.names
  have hclass : ∀ (c : ModuleCatalog) notices,
      (c.classIn home name notices).answer.map Option.isSome = answerOf c.space home name := by
    intro c notices
    rw [classIn_answer, answerOf]
    cases (c.space.look home name).1 <;> rfl
  rw [confirm_answer]
  cases hloaded : c.space.isLoaded home with
  | true =>
    obtain ⟨rfl, rfl⟩ := h.comes.unique (.loaded hloaded)
    rw [← (Course.loaded hsep hsplit hloaded).eq]
    exact hclass c _
  | false =>
    have hload := h.comes.load hloaded
    rw [Outcome.result] at hload
    rw [answerTo]
    cases herror : o.error? with
    | none =>
      rw [herror] at hload
      rw [← (Course.imported hsep hsplit hloaded rfl hload).eq]
      exact hclass ⟨s, c.separator⟩ _
    | some r =>
      rw [herror] at hload
      rw [← (Course.failed hsep hsplit hloaded rfl hload).eq]

theorem answer_of_unnamed (hsep : c.separator ≠ [])
    (h : ∀ home name, ¬ Names c.separator identity home name) :
    (c.confirm identity).answer = .ok false := by
  have hsplit : split? c.separator identity = none :=
    Option.eq_none_iff_forall_ne_some.2 fun (home, name) hsome =>
      h home name (split?_eq_some.1 hsome)
  rw [confirm_answer, ← (Course.unnamed hsep hsplit).eq]
  rfl

/-- The errors of absence and those that end the program are different ones. -/
theorem isAbsence_of_isEnding {r : Raised} (h : isEnding r = true) : isAbsence r = false := by
  have hkinds : ∀ kind ∈ endingKinds,
      (kind = "ImportError".toList || kind = "ModuleNotFoundError".toList) = false := by
    decide
  exact hkinds r.kind (List.contains_iff_mem.1 h)

theorem isAbsence_missing (m : Text) : isAbsence (Loading.missing m) = true := by
  show (decide ("ModuleNotFoundError".toList = "ImportError".toList) ||
    decide ("ModuleNotFoundError".toList = "ModuleNotFoundError".toList)) = true
  decide

theorem isAbsence_refusal (m : Text) : isAbsence (Outcome.refusal m) = false := by
  show (decide ("TypeError".toList = "ImportError".toList) ||
    decide ("TypeError".toList = "ModuleNotFoundError".toList)) = false
  decide

theorem isEnding_refusal (m : Text) : isEnding (Outcome.refusal m) = false := by
  show endingKinds.contains "TypeError".toList = false
  decide

/-- What the answer says of the import of the named module. It is yes if the module is there and
gives the class. A reflection fails if the module or a package it lies in has a body that raises
an error, unless that error is one of absence or ends the program, and also if the name of the
module is refused. The errors that end the program come out as they are, and so does any error that
the hook of a module raises that is there. The answer is no in all other cases, among them a body
that raises an error of absence. -/
structure Confirmation (c : ModuleCatalog) (identity : Text) (answer : Except Failure Bool) :
    Prop where
  yes : answer = .ok true ↔ ∃ home name o s, c.Tries identity home name o s ∧
    o = .there ∧ Gives s home name
  failed : (∃ f, answer = .error f ∧ f.IsFailedReflection identity) ↔
    ∃ home name o s, c.Tries identity home name o s ∧
      (o = .refused home ∨
        ∃ m r, o = .broken m r ∧ isAbsence r = false ∧ isEnding r = false)
  ended : ∀ r, answer = .error (.raised r) ↔ ∃ home name o s, c.Tries identity home name o s ∧
    ((isEnding r = true ∧ ∃ m, o = .broken m r) ∨ (o = .there ∧ Spoils s home name r))
  no : answer = .ok false ↔ (∀ home name, ¬ Names c.separator identity home name) ∨
    ∃ home name o s, c.Tries identity home name o s ∧
      ((∃ m, o = .missing m) ∨ (∃ m r, o = .broken m r ∧ isAbsence r = true) ∨
        o = .there ∧ ¬ Gives s home name ∧ ∀ r, ¬ Spoils s home name r)
  only : ∀ f, answer = .error f → f.IsFailedReflection identity ∨ ∃ r, f = .raised r

theorem isFailedReflection (identity reason : Text) :
    Failure.IsFailedReflection identity (.fault (.reflectionFailed identity reason)) :=
  ⟨_, rfl, rfl, rfl, rfl⟩

theorem not_isFailedReflection_raised (r : Raised) :
    ¬ Failure.IsFailedReflection identity (.raised r) := by
  rintro ⟨_, h, _⟩
  cases h

theorem answerTo_eq_raised {r : Raised} :
    answerTo identity home name o s = .error (.raised r) ↔
      (isEnding r = true ∧ ∃ m, o = .broken m r) ∨ (o = .there ∧ Spoils s home name r) := by
  constructor
  · intro h
    cases o with
    | there =>
      have hanswered := answered s home name
      rw [answerTo_there] at h
      rw [h] at hanswered
      cases hanswered with
      | raised _ hspoils => exact .inr ⟨rfl, (hspoils r).2 rfl⟩
    | missing m =>
      rw [answerTo_of_absence rfl (isAbsence_missing m)] at h
      cases h
    | refused m =>
      rw [answerTo_of_broken rfl (isAbsence_refusal m) (isEnding_refusal m)] at h
      cases h
    | broken m r' =>
      simp only [answerTo, Outcome.error?, onFailure] at h
      split at h
      · cases h
      · split at h
        · rename_i hends
          cases h
          exact .inl ⟨hends, m, rfl⟩
        · cases h
  · rintro (⟨hends, m, rfl⟩ | ⟨rfl, hspoils⟩)
    · exact answerTo_of_ending rfl (isAbsence_of_isEnding hends) hends
    · have hanswered := answered s home name
      rw [answerTo_there]
      generalize answerOf s home name = answer at hanswered
      cases hanswered with
      | yes _ hnone => exact absurd hspoils (hnone r)
      | no _ hnone => exact absurd hspoils (hnone r)
      | raised _ hall => rw [(hall r).1 hspoils]

theorem Tries.confirmation (h : c.Tries identity home name o s) :
    Confirmation c identity (answerTo identity home name o s) := by
  have hnamed : ¬ ∀ home name, ¬ Names c.separator identity home name :=
    fun hnone => hnone home name h.names
  have hreports := h.comes.reports
  -- there is one way to look at, so each clause is about its outcome
  refine ⟨Iff.trans ?_ h.exists_iff.symm, Iff.trans ?_ h.exists_iff.symm,
    fun r => Iff.trans ?ended h.exists_iff.symm,
    Iff.trans (Iff.trans ?_ h.exists_iff.symm) (or_iff_right hnamed).symm, ?_⟩
  case ended => exact answerTo_eq_raised
  all_goals
    clear h
    cases o with
    | there =>
      have hanswered := answered s home name
      rw [answerTo_there]
      generalize answerOf s home name = answer at hanswered
      cases hanswered with
      | yes hgives _ => simp [hgives]
      | no hgives hspoils => simp [hgives, hspoils]
      | raised hgives hspoils => simp [hgives, hspoils, not_isFailedReflection_raised]
    | missing m =>
      rw [answerTo_of_absence rfl (isAbsence_missing m)]
      simp
    | refused m =>
      obtain ⟨rfl, -, -⟩ := hreports
      rw [answerTo_of_broken rfl (isAbsence_refusal m) (isEnding_refusal m)]
      simp [isFailedReflection]
    | broken m r =>
      cases habsent : isAbsence r with
      | true =>
        rw [answerTo_of_absence rfl habsent]
        simp [habsent]
      | false =>
        cases hends : isEnding r with
        | true =>
          rw [answerTo_of_ending rfl habsent hends]
          simp [habsent, hends, not_isFailedReflection_raised]
        | false =>
          rw [answerTo_of_broken rfl habsent hends]
          simp [habsent, hends, isFailedReflection]

theorem confirmation_of_unnamed (h : ∀ home name, ¬ Names c.separator identity home name) :
    Confirmation c identity (.ok false) := by
  have hnone : ∀ home name o s, ¬ c.Tries identity home name o s :=
    fun home name _ _ htries => h home name htries.names
  constructor <;> simp [hnone, h]

/-- Every identity in every world of modules: with an empty separator nothing can be asked. With
any other, an identity that names a module and a class leads to an import that comes out in
exactly one way, which says what is so of the module, and the answer is told by it. -/
theorem answers_follow_imports (c : ModuleCatalog) (identity : Text) :
    (c.separator = [] → (c.confirm identity).answer = .error (.misuse .emptySeparator)) ∧
    (c.separator ≠ [] → Confirmation c identity (c.confirm identity).answer) ∧
    ∀ home name, Names c.separator identity home name →
      ∃ o s, c.Tries identity home name o s ∧ c.space.Reports home s o ∧
        ∀ o' s', c.Tries identity home name o' s' → o' = o ∧ s' = s := by
  refine ⟨fun hsep => ?_, fun hsep => ?_, fun home name hnames => ?_⟩
  · rw [confirm_answer, ← (Course.senseless hsep).eq]
    rfl
  · by_cases hnamed : ∃ home name, Names c.separator identity home name
    · obtain ⟨home, name, hnames⟩ := hnamed
      obtain ⟨o, s, hcomes⟩ := c.space.exists_comes home
      have htries : c.Tries identity home name o s := ⟨hnames, hcomes⟩
      rw [htries.answer hsep]
      exact htries.confirmation
    · have hnone : ∀ home name, ¬ Names c.separator identity home name :=
        fun home name hnames => hnamed ⟨home, name, hnames⟩
      rw [answer_of_unnamed hsep hnone]
      exact confirmation_of_unnamed hnone
  · obtain ⟨o, s, hcomes⟩ := c.space.exists_comes home
    exact ⟨o, s, ⟨hnames, hcomes⟩, hcomes.reports, fun o' s' h => h.comes.unique hcomes⟩

/-- A package with a module that makes a class and one that raises an error. -/
def acme : ModuleCatalog :=
  ⟨.new [] [("acme.shapes".toList, ⟨[], [.type "Widget".toList [] [] []], none⟩),
      ("acme.broken".toList, ⟨["acme.shapes".toList], [],
        some ⟨"ValueError".toList, "bad module".toList⟩⟩)],
    "\\".toList⟩

/-- The class is confirmed because its module is there. The reflection of what the broken module
should hold fails because of the error that was raised. -/
theorem acme_answers_follow_imports :
    (acme.confirm "acme\\shapes\\Widget".toList).answer = .ok true ∧
      (∃ home name s, acme.Tries "acme\\shapes\\Widget".toList home name .there s ∧
        Gives s home name) ∧
      ∃ f, (acme.confirm "acme\\broken\\Never".toList).answer = .error f ∧
        f.IsFailedReflection "acme\\broken\\Never".toList := by
  have hsep : acme.separator ≠ [] := by decide
  have hshapes := (answers_follow_imports acme "acme\\shapes\\Widget".toList).2.1 hsep
  obtain ⟨-, hbroken, hall⟩ := answers_follow_imports acme "acme\\broken\\Never".toList
  have hyes : (acme.confirm "acme\\shapes\\Widget".toList).answer = .ok true :=
    Listing.eq_of_toOption (by decide +kernel)
  obtain ⟨home, name, o, s, htries, rfl, hgives⟩ := hshapes.yes.1 hyes
  refine ⟨hyes, ⟨home, name, s, htries, hgives⟩, (hbroken hsep).failed.2 ?_⟩
  have hnames : Names acme.separator "acme\\broken\\Never".toList "acme.broken".toList
      "Never".toList := split?_eq_some.1 (by decide +kernel)
  have hraised : (acme.space.load "acme.broken".toList).1 =
      .error ⟨"ValueError".toList, "bad module".toList⟩ := by decide +kernel
  obtain ⟨o, s, htries, hreports, -⟩ := hall _ _ hnames
  refine ⟨_, _, o, s, htries, ?_⟩
  rw [htries.comes.load (by decide +kernel)] at hraised
  cases o with
  | there => cases hraised
  | missing m =>
    have hkinds : "ModuleNotFoundError".toList ≠ "ValueError".toList := by decide
    exact absurd (congrArg Raised.kind (Except.error.inj hraised)) hkinds
  | refused m => exact .inl (congrArg Outcome.refused hreports.1)
  | broken m r =>
    obtain rfl : r = ⟨"ValueError".toList, "bad module".toList⟩ := Except.error.inj hraised
    exact .inr ⟨m, _, rfl, by decide +kernel, by decide +kernel⟩

/-- A module whose body declines to be imported. -/
def declining : ModuleCatalog :=
  ⟨.new [] [("m".toList, ⟨[], [], some ⟨"ImportError".toList, "declined".toList⟩⟩)],
    "\\".toList⟩

/-- A module that exists and whose body raises an error goes as one that is missing, and one that
does not exist, asked for under a leading separator, as a broken one. -/
theorem broken_and_missing_modules_confused :
    (declining.space.isImportable "m".toList = true ∧
      declining.space.Raises "m".toList ⟨"ImportError".toList, "declined".toList⟩ ∧
      (declining.confirm "m\\X".toList).answer = .ok false) ∧
    declining.space.isImportable ".zz".toList = false ∧
      declining.space.isLoaded ".zz".toList = false ∧
      ∃ f, (declining.confirm "\\zz\\X".toList).answer = .error f ∧
        f.IsFailedReflection "\\zz\\X".toList := by
  have hraised : ((Loading.execute Loading.acquire "m".toList).play declining.space).1 =
      .error ⟨"ImportError".toList, "declined".toList⟩ := by decide +kernel
  have hrefused : declining.Tries "\\zz\\X".toList ".zz".toList "X".toList
      (.refused ".zz".toList) declining.space :=
    ⟨split?_eq_some.1 (by decide +kernel), .refused (by decide +kernel) (by decide +kernel)⟩
  refine ⟨⟨by decide +kernel, ⟨_, _, .refl _, by decide +kernel, Prod.ext hraised rfl⟩,
    Listing.eq_of_toOption (by decide +kernel)⟩, by decide +kernel, by decide +kernel, ?_⟩
  rw [hrefused.answer (by decide), answerTo_of_broken rfl (isAbsence_refusal _) (isEnding_refusal _)]
  exact ⟨_, rfl, isFailedReflection _ _⟩

end ModuleCatalog
end ClassCensus
