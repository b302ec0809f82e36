import ClassCensus.Files.System
import ClassCensus.Proofs.Table
import Mathlib.Data.List.Induction
import Mathlib.Data.List.Perm.Basic

/-!
# ClassCensus.Proofs.Tree

Induction over file trees, what stands at a location, how names are given in a tree, and how many
links it has room for.
-/

namespace ClassCensus
namespace Tree

/-- What holds of files and links, and of a directory once it holds of all its entries, holds of
every tree. -/
@[elab_as_elim]
theorem induct {P : Tree → Prop} (t : Tree) (file : ∀ content, P (.file content))
    (link : ∀ target, P (.link target))
    (dir : ∀ entries : List (Text × Tree), (∀ e ∈ entries, P e.2) → P (.dir entries)) : P t := by
  refine @Tree.rec P (fun entries => ∀ e ∈ entries, P e.2) (fun e => P e.2) file link dir ?_ ?_ ?_ t
  · intro e he
    cases he
  · intro e entries he ih e' he'
    rcases List.mem_cons.1 he' with rfl | he'
    · exact he
    · exact ih e' he'
  · intro _ _ ht
    exact ht

/-! ## Locations -/

theorem at?_append (t : Tree) (a b : Location) : t.at? (a ++ b) = (t.at? a).bind (·.at? b) := by
  induction a generalizing t with
  | nil => simp [at?]
  | cons name a ih =>
    simp only [List.cons_append, at?]
    cases t.child? name with
    | none => rfl
    | some below => exact ih below

theorem at?_snoc {t s : Tree} {loc : Location} {name : Text} {entries : List (Text × Tree)}
    (hdir : t.at? loc = some (.dir entries)) (hget : Table.get? entries name = some s) :
    t.at? (loc ++ [name]) = some s := by
  simp [at?_append, hdir, at?, child?, hget]

theorem dir_of_at?_snoc {t s : Tree} {loc : Location} {name : Text}
    (h : t.at? (loc ++ [name]) = some s) :
    ∃ entries, t.at? loc = some (.dir entries) ∧ Table.get? entries name = some s := by
  rw [at?_append] at h
  obtain ⟨below, hbelow, hs⟩ := Option.bind_eq_some_iff.1 h
  cases below with
  | file content => simp [at?, child?] at hs
  | link target => simp [at?, child?] at hs
  | dir entries =>
    refine ⟨entries, hbelow, ?_⟩
    cases hget : Table.get? entries name with
    | none => simp [at?, child?, hget] at hs
    | some s' => simpa [at?, child?, hget] using hs

/-- The way to a directory goes through directories. -/
theorem dir_of_front {t : Tree} {front rest : Location} {entries : List (Text × Tree)}
    (h : t.at? (front ++ rest) = some (.dir entries)) :
    ∃ entries', t.at? front = some (.dir entries') := by
  induction rest using List.reverseRecOn generalizing entries with
  | nil => exact ⟨entries, by simpa using h⟩
  | append_singleton rest name ih =>
    rw [← List.append_assoc] at h
    obtain ⟨entries', hdir, -⟩ := dir_of_at?_snoc h
    exact ih hdir

/-- Below a directory that stands anywhere, the root is one, too. -/
theorem root_of_at? {t : Tree} {loc : Location} {entries : List (Text × Tree)}
    (h : t.at? loc = some (.dir entries)) : ∃ entries', t.at? [] = some (.dir entries') := by
  rw [← List.nil_append loc] at h
  exact dir_of_front h

theorem dir_dropLast {t : Tree} {loc : Location} {entries : List (Text × Tree)}
    (h : t.at? loc = some (.dir entries)) :
    ∃ entries', t.at? loc.dropLast = some (.dir entries') := by
  obtain ⟨rest, hrest⟩ := List.dropLast_prefix loc
  rw [← hrest] at h
  exact dir_of_front h

/-! ## Names -/

mutual

/-- The names of the entries of every directory are as they should be. -/
def everyDir (p : List Text → Bool) : Tree → Bool
  | .file _ => true
  | .link _ => true
  | .dir entries => p (Table.keys entries) && everyDirIn p entries

def everyDirIn (p : List Text → Bool) : List (Text × Tree) → Bool
  | [] => true
  | (_, t) :: rest => everyDir p t && everyDirIn p rest

end

/-- A name that a directory can give to an entry. -/
def isName (name : Text) : Bool :=
  !Spelling.isIdle name && name != Spelling.dotDot && !name.contains '/' && !name.contains '\x00'

/-- Every directory names its entries differently, each with a name that can be looked up. -/
def wellNamed (t : Tree) : Bool := t.everyDir fun names => decide names.Nodup && names.all isName

def noBackslash (t : Tree) : Bool := t.everyDir fun names => names.all (!·.contains '\\')

theorem everyDir_of_mem {p : List Text → Bool} {entries : List (Text × Tree)}
    (h : everyDirIn p entries = true) {e : Text × Tree} (he : e ∈ entries) :
    e.2.everyDir p = true := by
  induction entries with
  | nil => cases he
  | cons e' entries ih =>
    simp only [everyDirIn, Bool.and_eq_true] at h
    rcases List.mem_cons.1 he with rfl | he
    · exact h.1
    · exact ih h.2 he

theorem everyDir_at? {p : List Text → Bool} {t : Tree} (h : t.everyDir p = true) {loc : Location}
    {entries : List (Text × Tree)} (hat : t.at? loc = some (.dir entries)) :
    p (Table.keys entries) = true := by
  induction loc generalizing t with
  | nil =>
    cases hat
    simp only [everyDir, Bool.and_eq_true] at h
    exact h.1
  | cons name loc ih =>
    cases t with
    | file content => simp [at?, child?] at hat
    | link target => simp [at?, child?] at hat
    | dir entries' =>
      cases hget : Table.get? entries' name with
      | none => simp [at?, child?, hget] at hat
      | some below =>
        simp only [everyDir, Bool.and_eq_true] at h
        refine ih (everyDir_of_mem h.2 (Table.mem_of_get? hget)) ?_
        simpa [at?, child?, hget] using hat

theorem wellNamed_at? {t : Tree} (h : t.wellNamed = true) {loc : Location}
    {entries : List (Text × Tree)} (hat : t.at? loc = some (.dir entries)) :
    (Table.keys entries).Nodup ∧ ∀ name ∈ Table.keys entries, isName name = true := by
  simpa using everyDir_at? h hat

theorem noBackslash_at? {t : Tree} (h : t.noBackslash = true) {loc : Location}
    {entries : List (Text × Tree)} (hat : t.at? loc = some (.dir entries)) {name : Text}
    (hname : name ∈ Table.keys entries) : '\\' ∉ name := by
  have := everyDir_at? h hat
  simp only [List.all_eq_true] at this
  simpa using this name hname

/-! ## Links -/

mutual

/-- The links of a tree, each with its place and its target. -/
def linkList : Tree → List (Location × Text)
  | .file _ => []
  | .link target => [([], target)]
  | .dir entries => linkListIn entries

def linkListIn : List (Text × Tree) → List (Location × Text)
  | [] => []
  | (name, t) :: rest => (linkList t).map (fun l => (name :: l.1, l.2)) ++ linkListIn rest

end

theorem length_linkList (t : Tree) : t.linkList.length = t.links := by
  induction t using Tree.induct with
  | file content => rfl
  | link target => rfl
  | dir entries ih =>
    rw [linkList, links]
    induction entries with
    | nil => rfl
    | cons e entries ihe =>
      rw [linkListIn, linksIn, List.length_append, List.length_map, ih e (by simp),
        ihe fun e' he' => ih e' (by simp [he'])]

theorem mem_linkListIn {entries : List (Text × Tree)} {e : Text × Tree} (he : e ∈ entries)
    {loc : Location} {target : Text} (h : (loc, target) ∈ e.2.linkList) :
    (e.1 :: loc, target) ∈ linkListIn entries := by
  induction entries with
  | nil => cases he
  | cons e' entries ih =>
    rw [linkListIn, List.mem_append]
    rcases List.mem_cons.1 he with rfl | he
    · exact .inl (List.mem_map.2 ⟨_, h, rfl⟩)
    · exact .inr (ih he)

theorem mem_linkList {t : Tree} {loc : Location} {target : Text}
    (h : t.at? loc = some (.link target)) : (loc, target) ∈ t.linkList := by
  induction loc generalizing t with
  | nil =>
    cases h
    simp [linkList]
  | cons name loc ih =>
    cases t with
    | file content => simp [at?, child?] at h
    | link target => simp [at?, child?] at h
    | dir entries =>
      cases hget : Table.get? entries name with
      | none => simp [at?, child?, hget] at h
      | some below =>
        exact mem_linkListIn (Table.mem_of_get? hget) (ih (by simpa [at?, child?, hget] using h))

/-- Different links are at different places, and there are no more of them than the tree has. -/
theorem length_le_links {t : Tree} {spots : List Location} (hn : spots.Nodup)
    (h : ∀ loc ∈ spots, ∃ target, t.at? loc = some (.link target)) : spots.length ≤ t.links := by
  have hsub : spots ⊆ t.linkList.map Prod.fst := by
    intro loc hloc
    obtain ⟨target, hat⟩ := h loc hloc
    exact List.mem_map.2 ⟨_, mem_linkList hat, rfl⟩
  rw [← length_linkList, ← List.length_map Prod.fst]
  exact (List.subperm_of_subset hn hsub).length_le

end Tree
end ClassCensus
