import ClassCensus.Proofs.Canonical
import ClassCensus.Proofs.Walk

/-!
# ClassCensus.Proofs.Visits

The directories a walk comes to, and what it takes from each of them. `Visits` gives the visited
directories without the walk's order, `mem_files` says where its items come from, and
`halts_of_cut` and `not_halts_of_whole` say what cuts it short. A walk that is not cut short misses
nothing (`mem_files_of_whole`).
-/

namespace ClassCensus
namespace Walk

/-- A directory as a walk sees it: where it stands, how it is spelled, and what it holds. -/
structure Spot where
  loc : Location
  dir : Text
  entries : List (Text × Tree)

/-- What holds of a directory once it holds of its subdirectories, wherever they stand, holds of
every directory. -/
@[elab_as_elim]
theorem Spot.induct {P : Spot → Prop} (s : Spot)
    (step : ∀ s : Spot, (∀ name entries, (name, Tree.dir entries) ∈ s.entries →
      ∀ loc dir, P ⟨loc, dir, entries⟩) → P s) : P s := by
  obtain ⟨loc, dir, entries⟩ := s
  generalize ht : Tree.dir entries = t
  induction t using Tree.induct generalizing loc dir entries with
  | file content => cases ht
  | link target => cases ht
  | dir entries' ih =>
    cases ht
    exact step _ fun name below he loc dir => ih _ he loc dir below rfl

variable {fs : FileSystem} {settings : ScannerSettings} {recursive : Bool}

/-- A name that a walk does not pass over. -/
def Shown (settings : ScannerSettings) (name : Text) : Prop := ¬ settings.hiddenPrefix <+: name

/-- The directories that a walk comes to from a first one. -/
inductive Visits (settings : ScannerSettings) (recursive : Bool) (first : Spot) : Spot → Prop
  | here : Visits settings recursive first first
  | deeper {s : Spot} {name : Text} {entries : List (Text × Tree)}
      (hvisit : Visits settings recursive first s) (hdeep : recursive = true)
      (hentry : (name, .dir entries) ∈ s.entries) (hshown : Shown settings name) :
      Visits settings recursive first
        ⟨s.loc ++ [name], Spelling.clean (Spelling.below s.dir name), entries⟩

namespace Visits

variable {first s : Spot} {name : Text} {entries : List (Text × Tree)}

/-- What is visited from a subdirectory is visited from the directory. -/
theorem fromBelow (hdeep : recursive = true) (hentry : (name, .dir entries) ∈ first.entries)
    (hshown : Shown settings name)
    (h : Visits settings recursive
      ⟨first.loc ++ [name], Spelling.clean (Spelling.below first.dir name), entries⟩ s) :
    Visits settings recursive first s := by
  induction h with
  | here => exact .deeper .here hdeep hentry hshown
  | deeper _ hdeep' hentry' hshown' ih => exact .deeper ih hdeep' hentry' hshown'

/-- A directory that is visited is the first one, or visited from one of its subdirectories. -/
theorem first_or_below (h : Visits settings recursive first s) :
    s = first ∨ ∃ name entries, recursive = true ∧ (name, .dir entries) ∈ first.entries ∧
      Shown settings name ∧ Visits settings recursive
        ⟨first.loc ++ [name], Spelling.clean (Spelling.below first.dir name), entries⟩ s := by
  induction h with
  | here => exact .inl rfl
  | deeper _ hdeep hentry hshown ih =>
    right
    rcases ih with rfl | ⟨name, entries, hdeep', hentry', hshown', hvisit⟩
    · exact ⟨_, _, hdeep, hentry, hshown, .here⟩
    · exact ⟨name, entries, hdeep', hentry', hshown', .deeper hvisit hdeep hentry hshown⟩

/-- The spelling of a visited directory leads to where it stands. -/
theorem leads (hnames : fs.tree.wellNamed = true) (hfirst : fs.locate true first.dir = .ok first.loc)
    (hat : fs.tree.at? first.loc = some (.dir first.entries))
    (h : Visits settings recursive first s) :
    fs.locate true s.dir = .ok s.loc ∧ fs.tree.at? s.loc = some (.dir s.entries) := by
  induction h with
  | here => exact ⟨hfirst, hat⟩
  | @deeper s name entries _ _ hentry _ ih =>
    obtain ⟨hlocate, hdir⟩ := ih
    obtain ⟨hnodup, hisName⟩ := Tree.wellNamed_at? hnames hdir
    obtain ⟨hnamed, hslash, -⟩ :=
      FileSystem.named_of_isName (hisName name (Table.mem_keys_of_mem hentry))
    have hget := Table.get?_of_mem hnodup hentry
    exact ⟨FileSystem.locate_clean (FileSystem.locate_below hlocate hdir hnamed hslash hget (by simp)),
      Tree.at?_snoc hdir hget⟩

end Visits

/-! ## What a walk takes -/

/-- An entry that a walk takes for a file: it is one, or a link that leads to one. -/
inductive IsFile (fs : FileSystem) (s : Spot) (name : Text) : Prop
  | plain {content : List UInt8} (hentry : (name, .file content) ∈ s.entries)
  | linked {target : Text} {loc : Location} {content : List UInt8}
      (hentry : (name, .link target) ∈ s.entries)
      (hlocate : fs.locate true (Spelling.below s.dir name) = .ok loc)
      (hat : fs.tree.at? loc = some (.file content))

theorem mem_candidate {dir name f : Text} :
    f ∈ (candidate settings dir name).items ↔
      Spelling.extension name = settings.sourceExtension ∧
        f = Spelling.clean (Spelling.below dir name) := by
  unfold candidate
  split
  · rename_i hext
    simp [Listing.single, hext]
  · rename_i hext
    simp [Listing.empty, hext]

theorem mem_linked {dir name f : Text} :
    f ∈ (linked fs settings dir name).items ↔
      (∃ loc content, fs.locate true (Spelling.below dir name) = .ok loc ∧
        fs.tree.at? loc = some (.file content)) ∧
      Spelling.extension name = settings.sourceExtension ∧
        f = Spelling.clean (Spelling.below dir name) := by
  simp only [linked]
  cases hlocate : fs.locate true (Spelling.below dir name) with
  | error e => cases e <;> simp [Listing.empty, Listing.refused]
  | ok loc =>
    cases hat : fs.tree.at? loc with
    | none => simp [Listing.empty, hat]
    | some t => cases t <;> simp [Listing.empty, hat, mem_candidate]

/-- The visible entries of a directory, each with what it contributes. -/
theorem mem_sights {loc : Location} {dir : Text} {entries : List (Text × Tree)}
    {x : Text × Sight} :
    x ∈ sights fs settings recursive loc dir entries ↔ ∃ e ∈ entries, Shown settings e.1 ∧
      x = (e.1, sightOf fs settings recursive loc dir e) := by
  simp only [sights_eq, List.mem_map, List.mem_filter, Shown, Bool.not_eq_true',
    ← Bool.not_eq_true, List.isPrefixOf_iff_prefix]
  constructor
  · rintro ⟨e, ⟨he, hshown⟩, rfl⟩
    exact ⟨e, he, hshown, rfl⟩
  · rintro ⟨e, he, hshown, rfl⟩
    exact ⟨e, ⟨he, hshown⟩, rfl⟩

theorem mem_files {first : Spot} {f : Text}
    (h : f ∈ (files fs settings recursive first.loc first.dir (.dir first.entries)).items) :
    ∃ s name, Visits settings recursive first s ∧ Shown settings name ∧ IsFile fs s name ∧
      Spelling.extension name = settings.sourceExtension ∧
      f = Spelling.clean (Spelling.below s.dir name) := by
  induction first using Spot.induct with
  | step first ih =>
    rw [files_dir] at h
    split at h
    · cases h
    obtain ⟨x, hx, hmem⟩ := mem_arrange h
    obtain ⟨⟨name, t⟩, he, hshown, rfl⟩ := mem_sights.1 hx
    cases t with
    | file content =>
      rcases hmem with hmem | hmem
      · exact ⟨_, name, .here, hshown, .plain he, mem_candidate.1 hmem⟩
      · cases hmem
    | link target =>
      rcases hmem with hmem | hmem
      · obtain ⟨⟨place, content, hlocate, hfile⟩, htaken⟩ := mem_linked.1 hmem
        exact ⟨_, name, .here, hshown, .linked he hlocate hfile, htaken⟩
      · cases hmem
    | dir below =>
      rcases hmem with hmem | hmem
      · simp only [sightOf] at hmem
        split at hmem <;> cases hmem
      · simp only [sightOf] at hmem
        split at hmem
        · rename_i hdeep
          obtain ⟨s, name', hvisit, hshown', hfile, htaken⟩ := ih name below he _ _ hmem
          exact ⟨s, name', hvisit.fromBelow hdeep he hshown, hshown', hfile, htaken⟩
        · cases hmem

/-- A walk that is not cut short misses no file of a directory it comes to. -/
theorem mem_files_of_whole {first s : Spot} {name : Text}
    (h : (files fs settings recursive first.loc first.dir (.dir first.entries)).cut = none)
    (hvisit : Visits settings recursive first s) (hshown : Shown settings name)
    (hfile : IsFile fs s name) (hext : Spelling.extension name = settings.sourceExtension) :
    Spelling.clean (Spelling.below s.dir name) ∈
      (files fs settings recursive first.loc first.dir (.dir first.entries)).items := by
  induction first using Spot.induct with
  | step first ih =>
    rw [files_dir] at h ⊢
    split at h
    · cases h
    rename_i hlisted
    rw [if_neg hlisted]
    rcases hvisit.first_or_below with rfl | ⟨name', below, hdeep, he, hshown', hbelow⟩
    · cases hfile with
      | plain hentry =>
        refine mem_arrange_of_whole h (mem_sights.2 ⟨_, hentry, hshown, rfl⟩) (.inl ?_)
        exact mem_candidate.2 ⟨hext, rfl⟩
      | linked hentry hlocate hat =>
        refine mem_arrange_of_whole h (mem_sights.2 ⟨_, hentry, hshown, rfl⟩) (.inl ?_)
        exact mem_linked.2 ⟨⟨_, _, hlocate, hat⟩, hext, rfl⟩
    · have hsight : (name', sightOf fs settings recursive first.loc first.dir (name', .dir below)) ∈
          sights fs settings recursive first.loc first.dir first.entries :=
        mem_sights.2 ⟨_, he, hshown', rfl⟩
      have hwhole := (arrange_cut_eq_none.1 h _ hsight).2
      refine mem_arrange_of_whole h hsight (.inr ?_)
      subst hdeep
      exact ih name' below he _ _ hwhole hbelow

theorem IsFile.leads {s : Spot} {name : Text} (hnames : fs.tree.wellNamed = true)
    (hlocate : fs.locate true s.dir = .ok s.loc) (hat : fs.tree.at? s.loc = some (.dir s.entries))
    (h : IsFile fs s name) :
    ∃ loc content, fs.locate true (Spelling.clean (Spelling.below s.dir name)) = .ok loc ∧
      fs.tree.at? loc = some (.file content) := by
  cases h with
  | plain hentry =>
    obtain ⟨hnodup, hisName⟩ := Tree.wellNamed_at? hnames hat
    obtain ⟨hnamed, hslash, -⟩ :=
      FileSystem.named_of_isName (hisName name (Table.mem_keys_of_mem hentry))
    have hget := Table.get?_of_mem hnodup hentry
    exact ⟨_, _, FileSystem.locate_clean (FileSystem.locate_below hlocate hat hnamed hslash hget
      (by simp)), Tree.at?_snoc hat hget⟩
  | linked _ hplace hfile => exact ⟨_, _, FileSystem.locate_clean hplace, hfile⟩

theorem IsFile.mem_keys {s : Spot} {name : Text} (h : IsFile fs s name) :
    name ∈ Table.keys s.entries := by
  cases h with
  | plain hentry => exact Table.mem_keys_of_mem hentry
  | linked hentry _ _ => exact Table.mem_keys_of_mem hentry

/-- A root whose walk starts, with the directory it starts in. -/
structure Opens (fs : FileSystem) (root : Text) (s : Spot) : Prop where
  spelled : s.dir = Spelling.clean root
  reached : fs.reach s.dir = .ok (some s.loc)
  isDir : fs.tree.at? s.loc = some (.dir s.entries)
  listed : s.loc ∉ fs.denied

theorem Opens.leads {root : Text} {s : Spot} (h : Opens fs root s) :
    fs.locate true s.dir = .ok s.loc := by
  have hreached := h.reached
  unfold FileSystem.reach at hreached
  split at hreached
  · cases hreached
  · split at hreached
    · cases hreached
      assumption
    · cases hreached
    · cases hreached

/-- Such a root is walked from there. -/
theorem Opens.enumerate {root : Text} {s : Spot} (h : Opens fs root s) (settings : ScannerSettings)
    (recursive : Bool) :
    Walk.enumerate fs settings recursive root =
      .ok (.rootEnumerated s.dir recursive s.entries.length,
        files fs settings recursive s.loc s.dir (.dir s.entries)) := by
  have hreached := h.reached
  rw [h.spelled] at hreached ⊢
  exact enumerate_of_dir hreached h.isDir h.listed

theorem opens_of_enumerate {root : Text} {notice : Notice} {found : Listing Text}
    (h : enumerate fs settings recursive root = .ok (notice, found)) :
    ∃ s, Opens fs root s ∧ found = files fs settings recursive s.loc s.dir (.dir s.entries) := by
  obtain ⟨loc, entries, hreach, hat, hlisted, rfl⟩ := enumerate_ok h
  exact ⟨⟨loc, Spelling.clean root, entries⟩, ⟨rfl, hreach, hat, hlisted⟩, rfl⟩

/-- Whatever a walk finds leads to a file. -/
theorem leads_of_enumerate (hnames : fs.tree.wellNamed = true) {root f : Text} {notice : Notice}
    {found : Listing Text} (h : enumerate fs settings recursive root = .ok (notice, found))
    (hf : f ∈ found.items) :
    ∃ loc content, fs.locate true f = .ok loc ∧ fs.tree.at? loc = some (.file content) := by
  obtain ⟨first, hopens, rfl⟩ := opens_of_enumerate h
  obtain ⟨s, name, hvisit, -, hfile, -, rfl⟩ := mem_files hf
  obtain ⟨hlocate, hat⟩ := hvisit.leads hnames hopens.leads hopens.isDir
  exact hfile.leads hnames hlocate hat

/-! ## What cuts a walk short -/

/-- A directory ends the walk: it may not be listed, or one of its links can neither be followed
nor be passed over as one that leads nowhere. -/
inductive Halts (fs : FileSystem) (settings : ScannerSettings) (s : Spot) : Failure → Prop
  | denied (hdenied : s.loc ∈ fs.denied) :
      Halts fs settings s (.fault (.unreadable s.dir Errno.denied.message))
  | link {name target : Text} {e : Errno} (hentry : (name, .link target) ∈ s.entries)
      (hshown : Shown settings name)
      (hlocate : fs.locate true (Spelling.below s.dir name) = .error e) (hthere : e ≠ .noEntry) :
      Halts fs settings s (.system e (Spelling.below s.dir name))

theorem cut_candidate (dir name : Text) : (candidate settings dir name).cut = none := by
  unfold candidate
  split <;> rfl

theorem cut_linked {dir name : Text} {f : Failure} :
    (linked fs settings dir name).cut = some f ↔ ∃ e,
      fs.locate true (Spelling.below dir name) = .error e ∧ e ≠ .noEntry ∧
        f = .system e (Spelling.below dir name) := by
  simp only [linked]
  cases hlocate : fs.locate true (Spelling.below dir name) with
  | ok loc =>
    have hnone : ∀ l : Listing Text, l.cut = none → ¬ l.cut = some f := by
      intro l hl
      simp [hl]
    simp only [reduceCtorEq, false_and, exists_false, iff_false]
    apply hnone
    split
    · exact cut_candidate dir name
    · rfl
  | error e => cases e <;> simp [Listing.empty, Listing.refused, eq_comm]

theorem cut_arrange {sights : List (Text × Sight)} {f : Failure}
    (h : (arrange sights).cut = some f) :
    ∃ x ∈ sights, x.2.ofFiles.cut = some f ∨ x.2.ofSubtree.cut = some f := by
  rcases Listing.cut_of_append h with h | h
  · obtain ⟨l, hl, hcut⟩ := Listing.cut_of_concat h
    obtain ⟨x, hx, rfl⟩ := List.mem_map.1 hl
    exact ⟨x, Text.mem_sortByName.1 hx, .inl hcut⟩
  · obtain ⟨l, hl, hcut⟩ := Listing.cut_of_concat h
    obtain ⟨x, hx, rfl⟩ := List.mem_map.1 hl
    exact ⟨x, Text.mem_sortByName.1 hx, .inr hcut⟩

/-- A walk that is cut short is so by a directory it comes to. -/
theorem halts_of_cut {first : Spot} {f : Failure}
    (h : (files fs settings recursive first.loc first.dir (.dir first.entries)).cut = some f) :
    ∃ s, Visits settings recursive first s ∧ Halts fs settings s f := by
  induction first using Spot.induct with
  | step first ih =>
    rw [files_dir] at h
    split at h
    · rename_i hdenied
      cases h
      exact ⟨_, .here, .denied hdenied⟩
    obtain ⟨x, hx, hcut⟩ := cut_arrange h
    obtain ⟨⟨name, t⟩, he, hshown, rfl⟩ := mem_sights.1 hx
    cases t with
    | file content =>
      rcases hcut with hcut | hcut
      · exact absurd (hcut.symm.trans (cut_candidate first.dir name)) (by simp)
      · cases hcut
    | link target =>
      rcases hcut with hcut | hcut
      · obtain ⟨e, hlocate, hthere, rfl⟩ := cut_linked.1 hcut
        exact ⟨_, .here, .link he hshown hlocate hthere⟩
      · cases hcut
    | dir below =>
      simp only [sightOf] at hcut
      split at hcut
      · rename_i hdeep
        rcases hcut with hcut | hcut
        · cases hcut
        · obtain ⟨s, hvisit, hhalts⟩ := ih name below he _ _ hcut
          exact ⟨s, hvisit.fromBelow hdeep he hshown, hhalts⟩
      · rcases hcut with hcut | hcut <;> cases hcut

/-- A walk that is not cut short has come to no directory that would end it. -/
theorem not_halts_of_whole {first s : Spot} {f : Failure}
    (h : (files fs settings recursive first.loc first.dir (.dir first.entries)).cut = none)
    (hvisit : Visits settings recursive first s) : ¬ Halts fs settings s f := by
  induction first using Spot.induct with
  | step first ih =>
    rw [files_dir] at h
    split at h
    · cases h
    rename_i hlisted
    have hsights := arrange_cut_eq_none.1 h
    rcases hvisit.first_or_below with rfl | ⟨name, below, hdeep, he, hshown, hbelow⟩
    · rintro (hdenied | ⟨hentry, hshown, hlocate, hthere⟩)
      · exact hlisted hdenied
      · rename_i name target e
        have hwhole : (linked fs settings s.dir name).cut = none :=
          (hsights _ (mem_sights.2 ⟨_, hentry, hshown, rfl⟩)).1
        rw [cut_linked.2 ⟨e, hlocate, hthere, rfl⟩] at hwhole
        cases hwhole
    · have hwhole := (hsights _ (mem_sights.2 ⟨_, he, hshown, rfl⟩)).2
      simp only [sightOf, hdeep, if_true] at hwhole
      rw [← hdeep] at hwhole
      exact ih name below he _ _ hwhole hbelow

/-- A walk goes through exactly if no directory it comes to ends it. -/
theorem cut_eq_none_iff {first : Spot} :
    (files fs settings recursive first.loc first.dir (.dir first.entries)).cut = none ↔
      ∀ s f, Visits settings recursive first s → ¬ Halts fs settings s f := by
  constructor
  · intro hwhole s f hvisit
    exact not_halts_of_whole hwhole hvisit
  · intro hnone
    by_contra hcut
    obtain ⟨f, hf⟩ := Option.ne_none_iff_exists'.1 hcut
    obtain ⟨s, hvisit, hhalts⟩ := halts_of_cut hf
    exact hnone s f hvisit hhalts

end Walk
end ClassCensus
