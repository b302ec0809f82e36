import ClassCensus.Proofs.Visits

/-!
# ClassCensus.Proofs.Preorder

The order and the extent of a walk. What it finds is told apart by the names that lead there from
the root, and comes in the order `before` of those names, also where the walk is cut short. All of
it is `Sought`, and a walk that is not cut short misses nothing that is.

The walk of the directory alone is the part of the deeper one that lies one name below the root.
-/

namespace ClassCensus
namespace Walk

/-! ## The order -/

/-- The order of a walk, on the names that lead to what it finds. At the first name where two ways
part, a file of that directory comes before anything deeper, and otherwise the lesser name first. -/
def before : List Text → List Text → Bool
  | a :: as, b :: bs =>
    if a = b then before as bs
    else if as.isEmpty = bs.isEmpty then decide (a < b)
    else as.isEmpty
  | _, _ => false

@[simp] theorem before_cons_self (a : Text) (as bs : List Text) :
    before (a :: as) (a :: bs) = before as bs := by
  simp [before]

theorem before_irrefl (as : List Text) : before as as = false := by
  induction as with
  | nil => rfl
  | cons a as ih => rw [before_cons_self, ih]

theorem before_of_lt {a b : Text} {as bs : List Text} (h : a < b) (hkind : as = [] ↔ bs = []) :
    before (a :: as) (b :: bs) = true := by
  have hne : a ≠ b := by
    rintro rfl
    exact List.lt_irrefl a h
  have hempty : as.isEmpty = bs.isEmpty := by
    rw [Bool.eq_iff_iff, List.isEmpty_iff, List.isEmpty_iff]
    exact hkind
  simp [before, hne, hempty, h]

theorem before_of_file {a b : Text} {rest : List Text} (hne : a ≠ b) (hrest : rest ≠ []) :
    before [a] (b :: rest) = true := by
  simp [before, hne, hrest]

section

variable {R : Text → Text → Prop} {sights : List (Text × Sight)}

/-- What the entries of a directory contribute of one kind is in order, if each contribution is and
they are by name. -/
theorem pairwise_contributions (hnodup : (sights.map Prod.fst).Nodup)
    (part : Text × Sight → Listing Text) (hself : ∀ x ∈ sights, (part x).items.Pairwise R)
    (hacross : ∀ x ∈ sights, ∀ y ∈ sights, x.1 < y.1 →
      ∀ p ∈ (part x).items, ∀ q ∈ (part y).items, R p q) :
    (Listing.concat ((Text.sortByName sights).map part)).items.Pairwise R := by
  refine List.Pairwise.sublist (Listing.concat_items_sublist _) ?_
  rw [List.flatMap_map]
  refine List.pairwise_flatMap.2 ⟨fun x hx => hself x (Text.mem_sortByName.1 hx), ?_⟩
  refine (Text.sortByName_strict hnodup).imp_of_mem fun hx hy hlt => ?_
  exact hacross _ (Text.mem_sortByName.1 hx) _ (Text.mem_sortByName.1 hy) hlt

/-- What a directory holds is in order if each contribution is, those of one kind are by name, and
files are before what lies below another entry. -/
theorem arrange_pairwise (hnodup : (sights.map Prod.fst).Nodup)
    (hself : ∀ x ∈ sights, x.2.ofFiles.items.Pairwise R ∧ x.2.ofSubtree.items.Pairwise R)
    (hfiles : ∀ x ∈ sights, ∀ y ∈ sights, x.1 < y.1 →
      ∀ p ∈ x.2.ofFiles.items, ∀ q ∈ y.2.ofFiles.items, R p q)
    (hbelow : ∀ x ∈ sights, ∀ y ∈ sights, x.1 < y.1 →
      ∀ p ∈ x.2.ofSubtree.items, ∀ q ∈ y.2.ofSubtree.items, R p q)
    (hmixed : ∀ x ∈ sights, ∀ y ∈ sights, x.1 ≠ y.1 →
      ∀ p ∈ x.2.ofFiles.items, ∀ q ∈ y.2.ofSubtree.items, R p q) :
    (arrange sights).items.Pairwise R := by
  refine List.Pairwise.sublist (Listing.append_items_sublist _ _) ?_
  refine List.pairwise_append.2 ⟨?_, ?_, ?_⟩
  · exact pairwise_contributions hnodup (·.2.ofFiles) (fun x hx => (hself x hx).1) hfiles
  · exact pairwise_contributions hnodup (·.2.ofSubtree) (fun x hx => (hself x hx).2) hbelow
  · intro p hp q hq
    obtain ⟨l, hl, hp⟩ := Listing.mem_of_mem_concat hp
    obtain ⟨x, hx, rfl⟩ := List.mem_map.1 hl
    obtain ⟨l, hl, hq⟩ := Listing.mem_of_mem_concat hq
    obtain ⟨y, hy, rfl⟩ := List.mem_map.1 hl
    rw [Text.mem_sortByName] at hx hy
    refine hmixed x hx y hy (fun hkey => ?_) p hp q hq
    -- One entry does not contribute both a file and what lies below it.
    obtain rfl : x = y := List.inj_on_of_nodup_map hnodup hx hy hkey
    obtain ⟨name, found | found⟩ := x
    · cases hq
    · cases hp

end

/-! ## Names below a directory, and what is sought there -/

/-- The names that lead from a directory to a path below it. -/
def namesBelow (dir path : Text) : List Text :=
  (Spelling.parse path).parts.drop (Spelling.parse dir).parts.length

/-- The path that names below a directory lead to. -/
def pathBelow (dir : Text) (names : List Text) : Text := ((Spelling.parse dir).extend names).text

theorem namesBelow_eq {dir path : Text} {names : List Text}
    (h : Spelling.parse path = (Spelling.parse dir).extend names) : namesBelow dir path = names := by
  simp [namesBelow, h, Spelling.extend]

/-- What a walk of the directory at `loc`, spelled `dir`, is after: an entry below it by names that
are shown, on a way of real directories, that is no directory itself but is or leads to a file, and
whose name has the source extension. -/
structure Sought (fs : FileSystem) (settings : ScannerSettings) (dir : Text) (loc : Location)
    (names : List Text) : Prop where
  shown : ∀ name ∈ names, Shown settings name
  way : ∀ front rest, names = front ++ rest → rest ≠ [] →
    ∃ entries, fs.tree.at? (loc ++ front) = some (.dir entries)
  entry : ∃ t, fs.tree.at? (loc ++ names) = some t ∧ t.isDir = false
  leads : ∃ place content, fs.locate true (pathBelow dir names) = .ok place ∧
    fs.tree.at? place = some (.file content)
  extension : ∀ name ∈ names.getLast?, Spelling.extension name = settings.sourceExtension

variable {fs : FileSystem} {settings : ScannerSettings} {recursive : Bool} {first s : Spot}
  {name p : Text}

/-- An entry is at most one file of its directory. -/
theorem pairwise_beside (R : Text → Text → Prop) (e : Text × Tree) :
    (sightOf fs settings recursive first.loc first.dir e).ofFiles.items.Pairwise R := by
  have hcandidate : (candidate settings first.dir e.1).items.Pairwise R := by
    unfold candidate
    split <;> simp [Listing.single, Listing.empty]
  obtain ⟨name, t⟩ := e
  cases t with
  | file content => exact hcandidate
  | link target =>
    simp only [sightOf, linked, Sight.ofFiles]
    split
    · exact .nil
    · exact .nil
    · split
      · exact hcandidate
      · exact .nil
  | dir entries =>
    simp only [sightOf]
    split <;> exact .nil

/-- Every directory below the first one by names that are shown is visited, if the walk goes into
subdirectories. -/
theorem visits_of_dir (hat : fs.tree.at? first.loc = some (.dir first.entries))
    {names : List Text} (hdeep : recursive = false → names = [])
    (hshown : ∀ name ∈ names, Shown settings name) {entries : List (Text × Tree)}
    (hdir : fs.tree.at? (first.loc ++ names) = some (.dir entries)) :
    ∃ s, Visits settings recursive first s ∧ s.loc = first.loc ++ names ∧ s.entries = entries := by
  induction names using List.reverseRecOn generalizing entries with
  | nil =>
    rw [List.append_nil, hat] at hdir
    cases hdir
    exact ⟨first, .here, by simp, rfl⟩
  | append_singleton names name ih =>
    have hdeep : recursive = true := by
      by_contra hflat
      simpa using hdeep (by simpa using hflat)
    rw [← List.append_assoc] at hdir
    obtain ⟨around, haround, hget⟩ := Tree.dir_of_at?_snoc hdir
    obtain ⟨s, hvisit, hloc, rfl⟩ :=
      ih (by simp [hdeep]) (fun x hx => hshown x (by simp [hx])) haround
    exact ⟨_, .deeper hvisit hdeep (Table.mem_of_get? hget) (hshown name (by simp)),
      by simp [hloc], rfl⟩

/-- An entry of a directory is spelled as the directory with one name more. -/
theorem parse_entry (hnames : fs.tree.wellNamed = true) (hlocate : fs.locate true s.dir = .ok s.loc)
    (hat : fs.tree.at? s.loc = some (.dir s.entries)) (hname : name ∈ Table.keys s.entries) :
    Spelling.parse (Spelling.below s.dir name) = (Spelling.parse s.dir).extend [name] := by
  obtain ⟨hnamed, hslash, -⟩ :=
    FileSystem.named_of_isName ((Tree.wellNamed_at? hnames hat).2 name hname)
  exact Spelling.parse_below (FileSystem.locate_eq_ok.1 hlocate).1 hslash hnamed.notIdle

theorem parse_clean_entry (hnames : fs.tree.wellNamed = true)
    (hlocate : fs.locate true s.dir = .ok s.loc)
    (hat : fs.tree.at? s.loc = some (.dir s.entries)) (hname : name ∈ Table.keys s.entries)
    {dir : Text} {names : List Text}
    (hparse : Spelling.parse s.dir = (Spelling.parse dir).extend names) :
    Spelling.parse (Spelling.clean (Spelling.below s.dir name)) =
      (Spelling.parse dir).extend (names ++ [name]) := by
  rw [Spelling.parse_clean, parse_entry hnames hlocate hat hname, hparse, Spelling.extend_append]

theorem clean_entry (hnames : fs.tree.wellNamed = true) (hlocate : fs.locate true s.dir = .ok s.loc)
    (hat : fs.tree.at? s.loc = some (.dir s.entries)) (hname : name ∈ Table.keys s.entries)
    {dir : Text} {names : List Text}
    (hparse : Spelling.parse s.dir = (Spelling.parse dir).extend names) :
    Spelling.clean (Spelling.below s.dir name) = pathBelow dir (names ++ [name]) := by
  rw [pathBelow, ← parse_clean_entry hnames hlocate hat hname hparse, Spelling.parse_clean,
    Spelling.clean]

section

variable (hnames : fs.tree.wellNamed = true) (hfirst : fs.locate true first.dir = .ok first.loc)
  (hat : fs.tree.at? first.loc = some (.dir first.entries))

include hnames hfirst hat

/-- A visited directory lies below the first one by names that are shown, both in the tree and as
it is spelled. -/
theorem Visits.names (h : Visits settings recursive first s) :
    ∃ names, s.loc = first.loc ++ names ∧
      Spelling.parse s.dir = (Spelling.parse first.dir).extend names ∧
      (∀ name ∈ names, Shown settings name) ∧ (recursive = false → names = []) := by
  induction h with
  | here => exact ⟨[], by simp, by simp, by simp, by simp⟩
  | @deeper s name entries hvisit hdeep hentry hshown ih =>
    obtain ⟨names, hloc, hparse, hall, -⟩ := ih
    obtain ⟨hlocate, hdir⟩ := hvisit.leads hnames hfirst hat
    refine ⟨names ++ [name], by simp [hloc], ?_, ?_, by simp [hdeep]⟩
    · exact parse_clean_entry hnames hlocate hdir (Table.mem_keys_of_mem hentry) hparse
    · exact List.forall_mem_append.2 ⟨hall, List.forall_mem_singleton.2 hshown⟩

/-- Whatever a walk finds lies below the directory where it starts. -/
theorem parse_of_mem_files
    (hp : p ∈ (files fs settings recursive first.loc first.dir (.dir first.entries)).items) :
    ∃ names, names ≠ [] ∧ Spelling.parse p = (Spelling.parse first.dir).extend names ∧
      (recursive = false → names.length = 1) := by
  obtain ⟨s, name, hvisit, -, hfile, -, rfl⟩ := mem_files hp
  obtain ⟨names, -, hparse, -, hflat⟩ := hvisit.names hnames hfirst hat
  obtain ⟨hlocate, hdir⟩ := hvisit.leads hnames hfirst hat
  refine ⟨names ++ [name], by simp, ?_, fun h => by simp [hflat h]⟩
  exact parse_clean_entry hnames hlocate hdir hfile.mem_keys hparse

/-- The names of what one entry contributes to the files of a directory. -/
theorem names_of_beside {e : Text × Tree} (he : e ∈ first.entries)
    (hp : p ∈ (sightOf fs settings recursive first.loc first.dir e).ofFiles.items) :
    namesBelow first.dir p = [e.1] := by
  obtain ⟨name, t⟩ := e
  have hclean : p = Spelling.clean (Spelling.below first.dir name) := by
    cases t with
    | file content => exact (mem_candidate.1 hp).2
    | link target => exact (mem_linked.1 hp).2.2
    | dir below =>
      simp only [sightOf] at hp
      split at hp <;> cases hp
  refine namesBelow_eq ?_
  rw [hclean, Spelling.parse_clean, parse_entry hnames hfirst hat (Table.mem_keys_of_mem he)]

/-- The names of what is found below one entry. -/
theorem names_of_below {e : Text × Tree} (he : e ∈ first.entries) (hshown : Shown settings e.1)
    (hp : p ∈ (sightOf fs settings recursive first.loc first.dir e).ofSubtree.items) :
    ∃ names, names ≠ [] ∧ namesBelow first.dir p = e.1 :: names ∧
      namesBelow (Spelling.clean (Spelling.below first.dir e.1)) p = names := by
  obtain ⟨name, t⟩ := e
  cases t with
  | file content => cases hp
  | link target => cases hp
  | dir entries =>
    simp only [sightOf] at hp
    split at hp
    · rename_i hdeep
      obtain ⟨hlocate, hdir⟩ := (Visits.deeper .here hdeep he hshown).leads hnames hfirst hat
      obtain ⟨names, hne, hparse, -⟩ := parse_of_mem_files hnames hlocate hdir hp
      refine ⟨names, hne, namesBelow_eq ?_, namesBelow_eq hparse⟩
      rw [hparse, Spelling.parse_clean, parse_entry hnames hfirst hat (Table.mem_keys_of_mem he),
        ← Spelling.extend_append, List.singleton_append]
    · cases hp

/-- A walk finds things in order, as far as it comes. -/
theorem files_sorted :
    (files fs settings recursive first.loc first.dir (.dir first.entries)).items.Pairwise
      fun p q => before (namesBelow first.dir p) (namesBelow first.dir q) = true := by
  induction first using Spot.induct with
  | step first ih =>
    rw [files_dir]
    split
    · exact .nil
    have hnodup : ((sights fs settings recursive first.loc first.dir first.entries).map
        Prod.fst).Nodup := by
      rw [sights_eq, List.map_map]
      exact (Tree.wellNamed_at? hnames hat).1.sublist (List.filter_sublist.map Prod.fst)
    refine arrange_pairwise hnodup ?_ ?_ ?_ ?_
    · intro x hx
      obtain ⟨e, he, hshown, rfl⟩ := mem_sights.1 hx
      refine ⟨pairwise_beside _ e, ?_⟩
      obtain ⟨name, t⟩ := e
      cases t with
      | file content => exact .nil
      | link target => exact .nil
      | dir entries =>
        cases recursive with
        | false => exact .nil
        | true =>
          obtain ⟨hlocate, hdir⟩ := (Visits.deeper .here rfl he hshown).leads hnames hfirst hat
          have hnamed : ∀ p ∈ (sightOf fs settings true first.loc first.dir
              (name, .dir entries)).ofSubtree.items, namesBelow first.dir p =
                name :: namesBelow (Spelling.clean (Spelling.below first.dir name)) p := by
            intro p hp
            obtain ⟨names, -, hfar, rfl⟩ := names_of_below hnames hfirst hat he hshown hp
            exact hfar
          refine (ih name entries he _ _ hlocate hdir).imp_of_mem fun {p q} hp hq hbefore => ?_
          rw [hnamed p hp, hnamed q hq, before_cons_self]
          exact hbefore
    · intro x hx y hy hlt p hp q hq
      obtain ⟨e, he, -, rfl⟩ := mem_sights.1 hx
      obtain ⟨e', he', -, rfl⟩ := mem_sights.1 hy
      rw [names_of_beside hnames hfirst hat he hp, names_of_beside hnames hfirst hat he' hq]
      exact before_of_lt hlt Iff.rfl
    · intro x hx y hy hlt p hp q hq
      obtain ⟨e, he, hshown, rfl⟩ := mem_sights.1 hx
      obtain ⟨e', he', hshown', rfl⟩ := mem_sights.1 hy
      obtain ⟨ps, hpne, hps, -⟩ := names_of_below hnames hfirst hat he hshown hp
      obtain ⟨qs, hqne, hqs, -⟩ := names_of_below hnames hfirst hat he' hshown' hq
      rw [hps, hqs]
      exact before_of_lt hlt (iff_of_false hpne hqne)
    · intro x hx y hy hne p hp q hq
      obtain ⟨e, he, -, rfl⟩ := mem_sights.1 hx
      obtain ⟨e', he', hshown', rfl⟩ := mem_sights.1 hy
      obtain ⟨qs, hqne, hqs, -⟩ := names_of_below hnames hfirst hat he' hshown' hq
      rw [names_of_beside hnames hfirst hat he hp, hqs]
      exact before_of_file hne hqne

/-! ## The extent -/

theorem sought_of_mem
    (hp : p ∈ (files fs settings recursive first.loc first.dir (.dir first.entries)).items) :
    ∃ names, Sought fs settings first.dir first.loc names ∧ p = pathBelow first.dir names ∧
      namesBelow first.dir p = names := by
  obtain ⟨s, name, hvisit, hshown, hfile, hext, rfl⟩ := mem_files hp
  obtain ⟨names, hloc, hparse, hall, -⟩ := hvisit.names hnames hfirst hat
  obtain ⟨hlocate, hdir⟩ := hvisit.leads hnames hfirst hat
  have hpath := clean_entry hnames hlocate hdir hfile.mem_keys hparse
  have hback := namesBelow_eq (parse_clean_entry hnames hlocate hdir hfile.mem_keys hparse)
  refine ⟨names ++ [name], ⟨?_, ?_, ?_, ?_, ?_⟩, hpath, hback⟩
  · exact List.forall_mem_append.2 ⟨hall, List.forall_mem_singleton.2 hshown⟩
  · intro front rest hsplit hne
    obtain ⟨more, last, rfl⟩ := (List.eq_nil_or_concat' rest).resolve_left hne
    rw [← List.append_assoc] at hsplit
    rw [hloc, (List.append_inj' hsplit rfl).1, ← List.append_assoc] at hdir
    exact Tree.dir_of_front hdir
  · rw [← List.append_assoc, ← hloc]
    have hnodup := (Tree.wellNamed_at? hnames hdir).1
    cases hfile with
    | plain hentry => exact ⟨_, Tree.at?_snoc hdir (Table.get?_of_mem hnodup hentry), rfl⟩
    | linked hentry _ _ => exact ⟨_, Tree.at?_snoc hdir (Table.get?_of_mem hnodup hentry), rfl⟩
  · rw [← hpath]
    exact hfile.leads hnames hlocate hdir
  · intro x hx
    rw [List.getLast?_concat, Option.mem_some_iff] at hx
    rw [← hx]
    exact hext

theorem mem_of_sought
    (hwhole : (files fs settings recursive first.loc first.dir (.dir first.entries)).cut = none)
    {names : List Text} (hdeep : recursive = false → names.length = 1)
    (h : Sought fs settings first.dir first.loc names) :
    pathBelow first.dir names ∈
      (files fs settings recursive first.loc first.dir (.dir first.entries)).items := by
  obtain ⟨t, ht, hnotDir⟩ := h.entry
  rcases List.eq_nil_or_concat' names with rfl | ⟨front, name, rfl⟩
  · rw [List.append_nil, hat] at ht
    cases ht
    cases hnotDir
  obtain ⟨entries, hdir⟩ := h.way front [name] rfl (by simp)
  obtain ⟨s, hvisit, hloc, rfl⟩ :=
    visits_of_dir hat (fun hflat => by simpa using hdeep hflat)
      (fun x hx => h.shown x (by simp [hx])) hdir
  obtain ⟨names, hloc', hparse, -, -⟩ := hvisit.names hnames hfirst hat
  obtain rfl : front = names := List.append_cancel_left (hloc.symm.trans hloc')
  obtain ⟨hlocate, hstands⟩ := hvisit.leads hnames hfirst hat
  rw [← List.append_assoc, ← hloc] at ht
  obtain ⟨entries, hstands', hget⟩ := Tree.dir_of_at?_snoc ht
  obtain rfl : s.entries = entries := by
    rw [hstands] at hstands'
    cases hstands'
    rfl
  have hentry := Table.mem_of_get? hget
  have hpath := clean_entry hnames hlocate hstands (Table.mem_keys_of_mem hentry) hparse
  have hfile : IsFile fs s name := by
    cases t with
    | file content => exact .plain hentry
    | dir below => cases hnotDir
    | link target =>
      obtain ⟨place, content, hplace, hcontent⟩ := h.leads
      rw [← hpath] at hplace
      refine .linked hentry (FileSystem.locate_of_clean ?_ hplace) hcontent
      obtain ⟨hnamed, hslash, -⟩ := FileSystem.named_of_isName
        ((Tree.wellNamed_at? hnames hstands).2 name (Table.mem_keys_of_mem hentry))
      intro x hx
      rw [Spelling.getLast?_pieces_below s.dir hslash, Option.mem_some_iff] at hx
      rw [← hx]
      exact hnamed.notIdle
  rw [← hpath]
  exact mem_files_of_whole hwhole hvisit (h.shown name (by simp)) hfile
    (h.extension name (by simp))

theorem files_nodup :
    (files fs settings recursive first.loc first.dir (.dir first.entries)).items.Nodup := by
  refine (files_sorted hnames hfirst hat).imp ?_
  rintro p q hbefore rfl
  rw [before_irrefl] at hbefore
  cases hbefore

/-- The walk of a directory alone is the part of the deeper walk that lies one name below it. -/
theorem files_shallow
    (hwhole : (files fs settings true first.loc first.dir (.dir first.entries)).cut = none) :
    files fs settings false first.loc first.dir (.dir first.entries) =
      ⟨(files fs settings true first.loc first.dir (.dir first.entries)).items.filter
        fun p => (namesBelow first.dir p).length == 1, none⟩ := by
  have hsought : ∀ p ∈ (files fs settings true first.loc first.dir (.dir first.entries)).items,
      ∃ names, Sought fs settings first.dir first.loc names ∧ p = pathBelow first.dir names ∧
        namesBelow first.dir p = names :=
    fun p hp => sought_of_mem hnames hfirst hat hp
  have hnodup : (files fs settings true first.loc first.dir (.dir first.entries)).items.Nodup :=
    files_nodup hnames hfirst hat
  obtain ⟨below, hdeep⟩ := files_deep fs settings first.loc first.dir first.entries
  rw [hdeep] at hwhole hsought hnodup ⊢
  obtain ⟨hshallow, -⟩ := Listing.append_cut_eq_none.1 hwhole
  rw [Listing.append_of_whole hshallow] at hsought hnodup ⊢
  have hself : ∀ p ∈ (files fs settings false first.loc first.dir (.dir first.entries)).items,
      ((namesBelow first.dir p).length == 1) = true := by
    intro p hp
    obtain ⟨names, -, hparse, hone⟩ := parse_of_mem_files hnames hfirst hat hp
    rw [namesBelow_eq hparse, hone rfl, beq_self_eq_true]
  -- What lies one name below is found by the walk of the directory alone, and nothing comes twice.
  have hnone : ∀ p ∈ below.items, ¬ ((namesBelow first.dir p).length == 1) = true := by
    intro p hp hone
    obtain ⟨names, hnamed, rfl, hback⟩ := hsought p (List.mem_append_right _ hp)
    rw [hback, beq_iff_eq] at hone
    exact (List.nodup_append.1 hnodup).2.2 _ (mem_of_sought hnames hfirst hat hshallow
      (fun _ => hone) hnamed) _ hp rfl
  rw [List.filter_append, List.filter_eq_self.2 hself, List.filter_eq_nil_iff.2 hnone,
    List.append_nil]
  rw [← hshallow]

end

/-- How the walk of a directory alone, `shallow`, and the walk into its subdirectories, `deep`, go:
the deep one goes through unless a directory on its way ends it; what it finds, all of it sought,
is in order and comes once; and if it goes through, nothing sought is missed and the shallow one
is its part of one name. -/
structure Lists (fs : FileSystem) (settings : ScannerSettings) (first : Spot)
    (shallow deep : Listing Text) : Prop where
  whole : deep.cut = none ↔ ∀ s f, Visits settings true first s → ¬ Halts fs settings s f
  sorted : deep.items.Pairwise fun p q =>
    before (namesBelow first.dir p) (namesBelow first.dir q) = true
  nodup : deep.items.Nodup
  sought : ∀ p ∈ deep.items, ∃ names, Sought fs settings first.dir first.loc names ∧
    p = pathBelow first.dir names ∧ namesBelow first.dir p = names
  complete : deep.cut = none → ∀ names, Sought fs settings first.dir first.loc names →
    pathBelow first.dir names ∈ deep.items
  part : deep.cut = none → shallow =
    ⟨deep.items.filter fun p => (namesBelow first.dir p).length == 1, none⟩

/-- A root that is a directory is walked in order, and wholly unless something ends the walk. -/
theorem walk_lists_sources_in_preorder (fs : FileSystem) (settings : ScannerSettings)
    (hnames : fs.tree.wellNamed = true) (root : Text) (first : Spot) (hopens : Opens fs root first) :
    ∃ shallow deep,
      enumerate fs settings false root =
        .ok (.rootEnumerated first.dir false first.entries.length, shallow) ∧
      enumerate fs settings true root =
        .ok (.rootEnumerated first.dir true first.entries.length, deep) ∧
      Lists fs settings first shallow deep := by
  have hfirst := hopens.leads
  have hat := hopens.isDir
  exact ⟨_, _, hopens.enumerate settings false, hopens.enumerate settings true, cut_eq_none_iff,
    files_sorted hnames hfirst hat, files_nodup hnames hfirst hat,
    fun p hp => sought_of_mem hnames hfirst hat hp,
    fun hwhole names h => mem_of_sought hnames hfirst hat hwhole (by simp) h,
    files_shallow hnames hfirst hat⟩

/-- A directory with files, a subdirectory, hidden names, and links to a file, to a directory and to
nothing. -/
def yard : Spot :=
  ⟨["src".toList], "src".toList,
    [("c.php".toList, .link "b/z.php".toList),
      ("b".toList, .dir [("z.php".toList, .file []), (".h.php".toList, .file [])]),
      ("a.php".toList, .file []), ("b.txt".toList, .file []), ("d".toList, .link "b".toList),
      ("e.php".toList, .link "nowhere".toList),
      (".git".toList, .dir [("x.php".toList, .file [])])]⟩

def yardFiles : FileSystem := ⟨.dir [("src".toList, .dir yard.entries)], [], [], []⟩

/-- Files first, the link to a file among them, then the subdirectory. -/
theorem yard_lists_sources_in_preorder :
    Opens yardFiles "src/".toList yard ∧
      Lists yardFiles {} yard ⟨["src/a.php".toList, "src/c.php".toList], none⟩
        ⟨["src/a.php".toList, "src/c.php".toList, "src/b/z.php".toList], none⟩ := by
  have hopens : Opens yardFiles "src/".toList yard := ⟨by decide, rfl, rfl, by decide⟩
  obtain ⟨shallow, deep, hshallow, hdeep, hlists⟩ :=
    walk_lists_sources_in_preorder yardFiles {} (by decide +kernel) _ _ hopens
  cases hshallow
  cases hdeep
  exact ⟨hopens, hlists⟩

/-- A source and a link that goes through it as if it were a directory. -/
def blockedFiles : FileSystem :=
  ⟨.dir [("src".toList, .dir [("a.php".toList, .file []), ("x.txt".toList, .link "a.php/b".toList)])],
    [], [], []⟩

/-- A link through a file ends the walk, though there is no loop and no denied directory. -/
theorem link_through_file_ends_walk :
    FileSystem.NoLoops blockedFiles.tree ∧ blockedFiles.denied = [] ∧
      enumerate blockedFiles {} true "src".toList =
        .ok (.rootEnumerated "src".toList true 2,
          ⟨["src/a.php".toList], some (.system .notDirectory "src/x.txt".toList)⟩) := by
  refine ⟨fun loc target hlink => ?_, rfl, rfl⟩
  have hmem := Tree.mem_linkList (Tree.linkAt?_eq_some.1 hlink)
  have hlinks : blockedFiles.tree.linkList =
      [(["src".toList, "x.txt".toList], "a.php/b".toList)] := by decide +kernel
  rw [hlinks, List.mem_singleton, Prod.mk.injEq] at hmem
  obtain ⟨rfl, rfl⟩ := hmem
  have hfile : FileSystem.Proper "a.php".toList := FileSystem.proper_of_isName (by decide +kernel)
  have hbelow : FileSystem.Proper "b".toList := FileSystem.proper_of_isName (by decide +kernel)
  exact ⟨0, ["src".toList, "a.php".toList, "b".toList],
    .down hfile (by decide +kernel) (.down hbelow (by decide +kernel) (.done _))⟩

end Walk
end ClassCensus
