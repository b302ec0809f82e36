import ClassCensus.Files.Making
import ClassCensus.Proofs.Spelling
import ClassCensus.Proofs.Tree

/-!
# ClassCensus.Proofs.Growth

Making directories and files only adds to a file system. Where something stands it stays, with what
it holds, and where nothing stood there may be an empty file or a directory afterwards (`Grows`).
So a path that leads somewhere goes on leading there, whatever is made.
-/

namespace ClassCensus

namespace Tree

/-- What may become of what stands at a place when directories and empty files are added. -/
inductive Kept : Option Tree → Option Tree → Prop
  | file (content : List UInt8) : Kept (some (.file content)) (some (.file content))
  | link (target : Text) : Kept (some (.link target)) (some (.link target))
  | dir (entries entries' : List (Text × Tree)) : Kept (some (.dir entries)) (some (.dir entries'))
  | free : Kept none none
  | newFile : Kept none (some (.file []))
  | newDir (entries : List (Text × Tree)) : Kept none (some (.dir entries))

theorem Kept.refl (s : Option Tree) : Kept s s := by
  cases s with
  | none => exact .free
  | some t =>
    cases t with
    | file content => exact .file content
    | link target => exact .link target
    | dir entries => exact .dir entries entries

theorem Kept.trans {s s' s'' : Option Tree} (h : Kept s s') (h' : Kept s' s'') : Kept s s'' := by
  cases h with
  | file content => exact h'
  | link target => exact h'
  | free => exact h'
  | dir entries entries' =>
    cases h'
    exact .dir _ _
  | newFile =>
    cases h'
    exact .newFile
  | newDir entries =>
    cases h'
    exact .newDir _

/-- Nothing but directories and empty files is added. -/
def Grows (t t' : Tree) : Prop := ∀ loc, Kept (t.at? loc) (t'.at? loc)

namespace Grows

theorem refl (t : Tree) : Grows t t := fun _ => .refl _

theorem trans {t t' t'' : Tree} (h : Grows t t') (h' : Grows t' t'') : Grows t t'' := fun loc =>
  (h loc).trans (h' loc)

/-- A directory grows by an entry that has grown or is new. -/
theorem ofPut {es : List (Text × Tree)} {name : Text} {s' : Tree}
    (h : (∃ s, Table.get? es name = some s ∧ Grows s s') ∨
      Table.get? es name = none ∧ (s' = .dir [] ∨ s' = .file [])) :
    Grows (.dir es) (.dir (Table.put es name s')) := by
  intro loc
  cases loc with
  | nil => exact .dir _ _
  | cons other rest =>
    simp only [at?, child?, Table.get?_put]
    by_cases hother : name = other
    · subst hother
      rw [if_pos rfl]
      rcases h with ⟨s, hs, hgrows⟩ | ⟨hfree, rfl | rfl⟩
      · rw [hs]
        exact hgrows rest
      · rw [hfree]
        cases rest with
        | nil => exact .newDir []
        | cons next rest => exact .free
      · rw [hfree]
        cases rest with
        | nil => exact .newFile
        | cons next rest => exact .free
    · rw [if_neg hother]
      exact .refl _

/-- A tree grows by an entry put at a free place of one of its directories. -/
theorem put {t : Tree} {dir : Location} {name : Text} {entries : List (Text × Tree)} {new : Tree}
    (hdir : t.at? dir = some (.dir entries)) (hfree : Table.get? entries name = none)
    (hnew : new = .dir [] ∨ new = .file []) : Grows t (t.put (dir ++ [name]) new) := by
  induction dir generalizing t with
  | nil =>
    cases hdir
    exact ofPut (.inr ⟨hfree, hnew⟩)
  | cons first dir ih =>
    cases t with
    | file content => simp [at?, child?] at hdir
    | link target => simp [at?, child?] at hdir
    | dir es =>
      cases hfirst : Table.get? es first with
      | none => simp [at?, child?, hfirst] at hdir
      | some below =>
        simp only [at?, child?, hfirst] at hdir
        simp only [List.cons_append, Tree.put, hfirst, Option.getD_some]
        exact ofPut (.inl ⟨below, hfirst, ih hdir⟩)

theorem dir {t t' : Tree} (h : Grows t t') {loc : Location} {entries : List (Text × Tree)}
    (hat : t.at? loc = some (.dir entries)) : ∃ entries', t'.at? loc = some (.dir entries') := by
  have hkept := h loc
  rw [hat] at hkept
  generalize t'.at? loc = s at hkept
  cases hkept
  exact ⟨_, rfl⟩

/-- An entry stays, and stays a link if it is one. -/
theorem entry {t t' : Tree} (h : Grows t t') {loc : Location} {entries : List (Text × Tree)}
    (hdir : t.at? loc = some (.dir entries)) {name : Text} {s : Tree}
    (hget : Table.get? entries name = some s) :
    ∃ entries' s', t'.at? loc = some (.dir entries') ∧ Table.get? entries' name = some s' ∧
      ∀ target, s' = .link target ↔ s = .link target := by
  have hkept := h (loc ++ [name])
  rw [at?_snoc hdir hget] at hkept
  cases hat : t'.at? (loc ++ [name]) with
  | none =>
    rw [hat] at hkept
    cases hkept
  | some s' =>
    obtain ⟨entries', hdir', hget'⟩ := dir_of_at?_snoc hat
    refine ⟨entries', s', hdir', hget', fun target => ?_⟩
    rw [hat] at hkept
    cases hkept <;> simp

end Grows
end Tree

namespace FileSystem

/-- Whatever names lead to, they lead to in a tree that has grown. -/
theorem Leads.grows {tree tree' : Tree} (hgrows : tree.Grows tree') {k : Nat}
    {here there : Location} {names : List Text} (h : Leads tree k here names there) :
    Leads tree' k here names there := by
  induction h with
  | done here => exact .done here
  | stay hdir hidle _ ih =>
    obtain ⟨_, hdir'⟩ := hgrows.dir hdir
    exact .stay hdir' hidle ih
  | up hdir _ ih =>
    obtain ⟨_, hdir'⟩ := hgrows.dir hdir
    exact .up hdir' ih
  | down hdir hname hget hlink _ ih =>
    obtain ⟨_, _, hdir', hget', hkind⟩ := hgrows.entry hdir hget
    exact .down hdir' hname hget' (fun target h => hlink target ((hkind target).1 h)) ih
  | @link _ _ _ _ _ _ target _ _ hdir hname hget _ _ ihtarget ih =>
    obtain ⟨_, _, hdir', hget', hkind⟩ := hgrows.entry hdir hget
    rw [(hkind target).2 rfl] at hget'
    exact .link hdir' hname hget' ihtarget ih

/-- A file system whose tree has grown, with the same current directory. -/
structure Grows (fs fs' : FileSystem) : Prop where
  tree : fs.tree.Grows fs'.tree
  cwd : fs'.cwd = fs.cwd

namespace Grows

variable {fs fs' fs'' : FileSystem} {path : Text} {loc : Location}

theorem refl (fs : FileSystem) : Grows fs fs := ⟨.refl _, rfl⟩

theorem trans (h : Grows fs fs') (h' : Grows fs' fs'') : Grows fs fs'' :=
  ⟨h.tree.trans h'.tree, h'.cwd.trans h.cwd⟩

theorem locate (h : Grows fs fs') (hlocate : fs.locate true path = .ok loc) :
    fs'.locate true path = .ok loc := by
  obtain ⟨hne, k, hk, hleads⟩ := locate_eq_ok.1 hlocate
  refine locate_eq_ok.2 ⟨hne, k, hk, ?_⟩
  rw [h.cwd]
  exact hleads.grows h.tree

end Grows

/-! ## Making -/

/-- A place is free if it is a name that a directory does not hold. -/
def Free (tree : Tree) (loc : Location) : Prop :=
  ∃ dir name entries, loc = dir ++ [name] ∧ tree.at? dir = some (.dir entries) ∧
    Table.get? entries name = none

theorem free_of_freePlace {strays : List Char} {tree : Tree}
    {onLink : Location → Text → Except Errno Location} {here loc : Location} {names : List Text}
    (honLink : ∀ dir target, onLink dir target = .ok loc → Free tree loc)
    (h : freePlace strays tree onLink here names = .ok loc) : Free tree loc := by
  unfold freePlace at h
  split at h
  · cases h
  · rename_i dir _
    split at h
    · rename_i entries hdir
      simp only at h
      split at h
      · cases h
      · split at h
        · rename_i hfree
          split at h
          · cases h
          · cases h
            exact ⟨dir, _, entries, rfl, hdir, hfree⟩
        · exact honLink _ _ h
        · cases h
    · cases h

theorem free_of_vacancy {strays : List Char} {tree : Tree} {links : Nat} {here loc : Location}
    {names : List Text} (h : vacancy strays tree links here names = .ok loc) : Free tree loc := by
  induction links generalizing here names with
  | zero => exact free_of_freePlace (fun _ _ h => by cases h) h
  | succ links ih => exact free_of_freePlace (fun _ _ h => ih h) h

theorem Free.grows {fs : FileSystem} {loc : Location} (h : Free fs.tree loc) {new : Tree}
    (hnew : new = .dir [] ∨ new = .file []) : Grows fs { fs with tree := fs.tree.put loc new } := by
  obtain ⟨dir, name, entries, rfl, hdir, hfree⟩ := h
  exact ⟨.put hdir hfree hnew, rfl⟩

variable {fs fs' : FileSystem} {path : Text}

theorem makeDir_grows (h : fs.makeDir path = .ok fs') : Grows fs fs' := by
  unfold makeDir at h
  split at h
  · cases h
  · rename_i loc hloc
    cases h
    exact (free_of_vacancy hloc).grows (.inl rfl)

theorem ensureDir_grows (h : fs.ensureDir path = .ok fs') : Grows fs fs' := by
  unfold ensureDir at h
  split at h
  · rename_i made hmade
    cases h
    exact makeDir_grows hmade
  · split at h
    · cases h
      exact .refl fs
    · cases h

theorem ensureDirs_grows {anchor : Anchor} {parts : List Text}
    (h : fs.ensureDirs anchor parts = .ok fs') : Grows fs fs' := by
  induction parts generalizing fs' with
  | nil => exact ensureDir_grows h
  | cons name above ih =>
    simp only [ensureDirs] at h
    split at h
    · split at h
      · cases h
      · rename_i made hmade
        exact (ih hmade).trans (ensureDir_grows h)
    · exact ensureDir_grows h

theorem touch_grows (h : fs.touch path = .ok fs') : Grows fs fs' := by
  unfold touch at h
  split at h
  · split at h
    · cases h
    · rename_i loc hloc
      cases h
      exact (free_of_vacancy hloc).grows (.inr rfl)
  · cases h
    exact .refl fs

/-- A file that is opened is where its path leads from then on. -/
theorem openEnd_ok {loc : Location} (h : fs.openEnd path = .ok (loc, fs')) :
    Grows fs fs' ∧ fs'.locate true path = .ok loc := by
  unfold openEnd at h
  split at h
  · cases h
  · rename_i made hmade
    split at h
    · cases h
    · rename_i place hplace
      split at h
      · cases h
      · split at h
        · cases h
        · cases h
          exact ⟨touch_grows hmade, hplace⟩

end FileSystem
end ClassCensus
