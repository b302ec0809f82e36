import ClassCensus.Proofs.Denial
import ClassCensus.Proofs.Preorder
import ClassCensus.Proofs.WalkFailures

/-!
# ClassCensus.Proofs.Tour

The directories of a walk one after the other. `tour` lists those that the walk comes to, each
before the directories below it and siblings by name, which is the order `ahead` of the names that
lead there (`tour_sorted`). A walk is the walk of each of these directories alone, put one behind
the other (`files_eq_concat`), up to the first that ends it.

What is denied has no part in the tour. So lifting all denials changes nothing before the first
denied directory, which is where a walk that meets one ends unless a link has ended it before
(`CutAt`).
-/

namespace ClassCensus
namespace Walk

/-! ## The order -/

/-- The order of the directories of a walk, on the names that lead to them: a directory comes before
those below it, and at the first name where two ways part the lesser name first. -/
def ahead : List Text → List Text → Bool
  | [], _ :: _ => true
  | a :: as, b :: bs => if a = b then ahead as bs else decide (a < b)
  | _, [] => false

@[simp] theorem ahead_nil (as : List Text) : ahead as [] = false := by
  cases as <;> rfl

@[simp] theorem ahead_nil_cons (b : Text) (bs : List Text) : ahead [] (b :: bs) = true := rfl

@[simp] theorem ahead_cons_self (a : Text) (as bs : List Text) :
    ahead (a :: as) (a :: bs) = ahead as bs := by
  simp [ahead]

theorem ahead_of_lt {a b : Text} (h : a < b) (as bs : List Text) :
    ahead (a :: as) (b :: bs) = true := by
  have hne : a ≠ b := by
    rintro rfl
    exact List.lt_irrefl a h
  simp [ahead, hne, h]

theorem ahead_irrefl (as : List Text) : ahead as as = false := by
  induction as with
  | nil => rfl
  | cons a as ih => rw [ahead_cons_self, ih]

theorem ahead_asymm {as bs : List Text} (h : ahead as bs = true) : ahead bs as = false := by
  induction as generalizing bs with
  | nil => simp
  | cons a as ih =>
    cases bs with
    | nil => simp at h
    | cons b bs =>
      by_cases hab : a = b
      · subst hab
        rw [ahead_cons_self] at h ⊢
        exact ih h
      · have hlt : a < b := by simpa [ahead, hab] using h
        simp [ahead, Ne.symm hab, List.lt_asymm hlt]

/-! ## The tour -/

mutual

/-- The directories that a walk comes to from the one at `loc`, spelled `dir`, in the order in which
it comes to them. -/
def tour (settings : ScannerSettings) (recursive : Bool) (loc : Location) (dir : Text) :
    Tree → List Spot
  | .dir entries =>
    ⟨loc, dir, entries⟩ ::
      (Text.sortByName (tours settings recursive loc dir entries)).flatMap Prod.snd
  | .file _ => []
  | .link _ => []

/-- The same for each entry that is not hidden. -/
def tours (settings : ScannerSettings) (recursive : Bool) (loc : Location) (dir : Text) :
    List (Text × Tree) → List (Text × List Spot)
  | [] => []
  | (name, entry) :: rest =>
    if settings.hiddenPrefix.isPrefixOf name then tours settings recursive loc dir rest
    else
      (name, if recursive then
          tour settings recursive (loc ++ [name]) (Spelling.clean (Spelling.below dir name)) entry
        else []) :: tours settings recursive loc dir rest

end

/-- A subdirectory as a walk sees it. -/
def Spot.sub (s : Spot) (name : Text) (entries : List (Text × Tree)) : Spot :=
  ⟨s.loc ++ [name], Spelling.clean (Spelling.below s.dir name), entries⟩

/-- The tour from a directory. -/
def Spot.tour (settings : ScannerSettings) (recursive : Bool) (s : Spot) : List Spot :=
  Walk.tour settings recursive s.loc s.dir (.dir s.entries)

/-- The part of the tour below one entry. -/
def Spot.tourBelow (settings : ScannerSettings) (recursive : Bool) (s : Spot) (e : Text × Tree) :
    List Spot :=
  match e.2 with
  | .dir entries => if recursive then (s.sub e.1 entries).tour settings recursive else []
  | _ => []

variable {fs : FileSystem} {settings : ScannerSettings} {recursive : Bool} {first s d : Spot}
  {name : Text}

theorem tours_eq (s : Spot) (entries : List (Text × Tree)) :
    tours settings recursive s.loc s.dir entries =
      (entries.filter fun e => !settings.hiddenPrefix.isPrefixOf e.1).map fun e =>
        (e.1, s.tourBelow settings recursive e) := by
  induction entries with
  | nil => rfl
  | cons e entries ih =>
    obtain ⟨name, t⟩ := e
    rw [tours, ih]
    by_cases hhidden : settings.hiddenPrefix.isPrefixOf name = true
    · simp [hhidden]
    · cases t <;> cases recursive <;> simp [hhidden, Spot.tourBelow, tour, Spot.tour, Spot.sub]

theorem tour_eq (s : Spot) :
    s.tour settings recursive =
      s :: (visible settings s.entries).flatMap (s.tourBelow settings recursive) := by
  rw [Spot.tour, tour, tours_eq, Text.sortByName_map, List.flatMap_map]
  rfl

theorem mem_visible {entries : List (Text × Tree)} {e : Text × Tree} :
    e ∈ visible settings entries ↔ e ∈ entries ∧ Shown settings e.1 := by
  simp only [visible, Text.mem_sortByName, List.mem_filter, Shown, Bool.not_eq_true',
    ← Bool.not_eq_true, List.isPrefixOf_iff_prefix]

theorem mem_tourBelow {e : Text × Tree} :
    s ∈ first.tourBelow settings recursive e ↔ ∃ entries, e.2 = .dir entries ∧ recursive = true ∧
      s ∈ (first.sub e.1 entries).tour settings recursive := by
  obtain ⟨name, t⟩ := e
  cases t with
  | file content => simp [Spot.tourBelow]
  | link target => simp [Spot.tourBelow]
  | dir entries => cases recursive <;> simp [Spot.tourBelow]

/-- The tour comes to the directories that the walk visits. -/
theorem mem_tour : s ∈ first.tour settings recursive ↔ Visits settings recursive first s := by
  induction first using Spot.induct with
  | step first ih =>
    rw [tour_eq, List.mem_cons, List.mem_flatMap]
    constructor
    · rintro (rfl | ⟨⟨name, t⟩, he, hs⟩)
      · exact .here
      · obtain ⟨he, hshown⟩ := mem_visible.1 he
        obtain ⟨entries, rfl, hdeep, hs⟩ := mem_tourBelow.1 hs
        exact .fromBelow hdeep he hshown ((ih name entries he _ _).1 hs)
    · intro h
      rcases h.first_or_below with rfl | ⟨name, entries, hdeep, he, hshown, hvisit⟩
      · exact .inl rfl
      · refine .inr ⟨(name, .dir entries), mem_visible.2 ⟨he, hshown⟩, ?_⟩
        exact mem_tourBelow.2 ⟨entries, rfl, hdeep, (ih name entries he _ _).2 hvisit⟩

/-! ## The walk along the tour -/

/-- The walk of a directory alone. -/
def own (fs : FileSystem) (settings : ScannerSettings) (s : Spot) : Listing Text :=
  files fs settings false s.loc s.dir (.dir s.entries)

theorem own_of_denied (h : s.loc ∈ fs.denied) :
    own fs settings s = .refused (.fault (.unreadable s.dir Errno.denied.message)) := by
  rw [own, files_dir, if_pos h]

/-- A walk goes through its directories one by one. -/
theorem files_eq_concat (fs : FileSystem) (settings : ScannerSettings) (recursive : Bool)
    (first : Spot) :
    files fs settings recursive first.loc first.dir (.dir first.entries) =
      Listing.concat ((first.tour settings recursive).map (own fs settings)) := by
  induction first using Spot.induct with
  | step first ih =>
    rw [tour_eq, List.map_cons, Listing.concat]
    by_cases hlisted : first.loc ∈ fs.denied
    · rw [own_of_denied hlisted, Listing.refused_append, files_dir, if_pos hlisted]
    · rw [files_append fs settings recursive hlisted, List.map_flatMap, Listing.concat_flatMap]
      have hbelow : ∀ e ∈ visible settings first.entries,
          (sightOf fs settings recursive first.loc first.dir e).ofSubtree =
            Listing.concat ((first.tourBelow settings recursive e).map (own fs settings)) := by
        rintro ⟨name, t⟩ he
        cases t with
        | file content => rfl
        | link target => rfl
        | dir entries =>
          cases recursive with
          | false => rfl
          | true => exact ih name entries (mem_visible.1 he).1 _ _
      rw [List.map_congr_left hbelow]
      rfl

section

variable (hnames : fs.tree.wellNamed = true) (hfirst : fs.locate true first.dir = .ok first.loc)
  (hat : fs.tree.at? first.loc = some (.dir first.entries))

include hnames hfirst hat

/-- The names of a directory below a subdirectory. -/
theorem namesBelow_sub {entries : List (Text × Tree)} (hdeep : recursive = true)
    (he : (name, .dir entries) ∈ first.entries) (hshown : Shown settings name)
    (h : Visits settings recursive (first.sub name entries) s) :
    namesBelow first.dir s.dir = name :: namesBelow (first.sub name entries).dir s.dir := by
  have hvisit : Visits settings recursive first (first.sub name entries) :=
    .deeper .here hdeep he hshown
  obtain ⟨hlocate, hdir⟩ := hvisit.leads hnames hfirst hat
  obtain ⟨names, -, hparse, -, -⟩ := h.names hnames hlocate hdir
  have hsub : Spelling.parse (first.sub name entries).dir =
      (Spelling.parse first.dir).extend [name] := by
    rw [Spot.sub, Spelling.parse_clean, parse_entry hnames hfirst hat (Table.mem_keys_of_mem he)]
  rw [namesBelow_eq hparse]
  refine namesBelow_eq ?_
  rw [hparse, hsub, ← Spelling.extend_append, List.singleton_append]

/-- What the tour comes to below an entry has the name of that entry first. -/
theorem names_of_mem_tourBelow {e : Text × Tree} (he : e ∈ visible settings first.entries)
    (hs : s ∈ first.tourBelow settings recursive e) :
    ∃ names, namesBelow first.dir s.dir = e.1 :: names := by
  obtain ⟨name, tree⟩ := e
  obtain ⟨he, hshown⟩ := mem_visible.1 he
  obtain ⟨entries, rfl, hdeep, hs⟩ := mem_tourBelow.1 hs
  exact ⟨_, namesBelow_sub hnames hfirst hat hdeep he hshown (mem_tour.1 hs)⟩

/-- The tour is in order. -/
theorem tour_sorted :
    (first.tour settings recursive).Pairwise fun s t =>
      ahead (namesBelow first.dir s.dir) (namesBelow first.dir t.dir) = true := by
  induction first using Spot.induct with
  | step first ih =>
    have hself : namesBelow first.dir first.dir = [] := namesBelow_eq (by simp)
    have hstrict : (visible settings first.entries).Pairwise fun x y => x.1 < y.1 := by
      apply Text.sortByName_strict
      exact (Tree.wellNamed_at? hnames hat).1.sublist (List.filter_sublist.map Prod.fst)
    rw [tour_eq, List.pairwise_cons]
    constructor
    · intro t ht
      obtain ⟨e, he, ht⟩ := List.mem_flatMap.1 ht
      obtain ⟨names, hbelow⟩ := names_of_mem_tourBelow hnames hfirst hat he ht
      rw [hself, hbelow, ahead_nil_cons]
    · refine List.pairwise_flatMap.2 ⟨?_, ?_⟩
      · rintro ⟨name, tree⟩ he
        cases tree with
        | file content => exact .nil
        | link target => exact .nil
        | dir entries =>
          cases recursive with
          | false => exact .nil
          | true =>
            obtain ⟨he, hshown⟩ := mem_visible.1 he
            obtain ⟨hlocate, hdir⟩ := (Visits.deeper .here rfl he hshown).leads hnames hfirst hat
            refine (ih name entries he _ _ hlocate hdir).imp_of_mem fun {s t} hs ht hahead => ?_
            rw [namesBelow_sub hnames hfirst hat rfl he hshown (mem_tour.1 hs),
              namesBelow_sub hnames hfirst hat rfl he hshown (mem_tour.1 ht), ahead_cons_self]
            exact hahead
      · refine hstrict.imp_of_mem fun {x y} hx hy hlt s hs t ht => ?_
        obtain ⟨as, has⟩ := names_of_mem_tourBelow hnames hfirst hat hx hs
        obtain ⟨bs, hbs⟩ := names_of_mem_tourBelow hnames hfirst hat hy ht
        rw [has, hbs]
        exact ahead_of_lt hlt as bs

/-- What the walk of a visited directory alone finds stands in that directory. -/
theorem parent_of_mem_own {p : Text} (hvisit : Visits settings recursive first s)
    (hp : p ∈ (own fs settings s).items) :
    (namesBelow first.dir p).dropLast = namesBelow first.dir s.dir := by
  obtain ⟨s', name, hself, -, hfile, -, rfl⟩ := mem_files hp
  obtain rfl : s' = s := by
    rcases hself.first_or_below with rfl | ⟨_, _, hdeep, _⟩
    · rfl
    · cases hdeep
  obtain ⟨names, -, hparse, -, -⟩ := hvisit.names hnames hfirst hat
  obtain ⟨hlocate, hdir⟩ := hvisit.leads hnames hfirst hat
  rw [namesBelow_eq (parse_clean_entry hnames hlocate hdir hfile.mem_keys hparse),
    namesBelow_eq hparse, List.dropLast_concat]

theorem parent_of_mem_concat {p : Text} {spots : List Spot}
    (hvisit : ∀ s ∈ spots, Visits settings recursive first s)
    (hp : p ∈ (Listing.concat (spots.map (own fs settings))).items) :
    ∃ s ∈ spots, (namesBelow first.dir p).dropLast = namesBelow first.dir s.dir := by
  obtain ⟨l, hl, hp⟩ := Listing.mem_of_mem_concat hp
  obtain ⟨s, hs, rfl⟩ := List.mem_map.1 hl
  exact ⟨s, hs, parent_of_mem_own hnames hfirst hat (hvisit s hs) hp⟩

end

/-! ## Denied directories -/

end Walk

/-- The file system without any denial. -/
def FileSystem.lifted (fs : FileSystem) : FileSystem := { fs with denied := [] }

theorem FileSystem.relaxes_lifted (fs : FileSystem) : fs.Relaxes fs.lifted :=
  ⟨rfl, rfl, rfl, List.nil_subset _⟩

/-- The fault that something may not be opened or listed, by its family and number and by the path
it names. -/
def Failure.IsUnreadable (path : Text) (f : Failure) : Prop :=
  ∃ fault, f = .fault fault ∧ fault.family = .fileSystem ∧ fault.code.number = 3003 ∧
    Table.get? fault.details "path".toList = some (.text path)

namespace Walk

variable {fs : FileSystem} {settings : ScannerSettings} {recursive : Bool} {first s d : Spot}

/-- One directory comes before another in a walk. -/
def Before (first s t : Spot) : Prop :=
  ahead (namesBelow first.dir s.dir) (namesBelow first.dir t.dir) = true

/-- The first of the denied directories that a walk would come to. -/
structure FirstDenied (fs : FileSystem) (settings : ScannerSettings) (recursive : Bool)
    (first d : Spot) : Prop where
  visited : Visits settings recursive first d
  denied : d.loc ∈ fs.denied
  least : ∀ s, Visits settings recursive first s → s.loc ∈ fs.denied → s = d ∨ Before first d s

/-- A directory that may be listed is walked alike without denials. -/
theorem own_lifted (h : s.loc ∉ fs.denied) : own fs.lifted settings s = own fs settings s := by
  have hlifted : s.loc ∉ fs.lifted.denied := by simp [FileSystem.lifted]
  rw [own, own, files_dir, files_dir, if_neg h, if_neg hlifted, sights_eq, sights_eq]
  refine congrArg arrange (List.map_congr_left ?_)
  rintro ⟨name, t⟩ -
  cases t with
  | file content => rfl
  | link target => simp only [sightOf, fs.relaxes_lifted.linked]
  | dir entries => rfl

/-- Without denials it is a link that ends the walk of a directory, or nothing. -/
theorem own_lifted_cut_eq_none :
    (own fs.lifted settings s).cut = none ↔ ∀ f, ¬ Halts fs.lifted settings s f := by
  rw [own, cut_eq_none_iff]
  constructor
  · intro h f
    exact h s f .here
  · intro h s' f hvisit
    rcases hvisit.first_or_below with rfl | ⟨_, _, hdeep, _⟩
    · exact h f
    · cases hdeep

theorem isFileSystem_of_own_lifted {f : Failure} (h : (own fs.lifted settings s).cut = some f) :
    f.isFileSystem = false := by
  obtain ⟨s, -, hhalts⟩ := halts_of_cut h
  cases hhalts with
  | denied hdenied => simp [FileSystem.lifted] at hdenied
  | link _ _ _ _ => rfl

/-- How the walk `run` differs from the walk `lifted` without denials, if `d` is the first denied
directory on the way: it finds what stands in the directories before `d`, and ends with the fault
that names `d`. But if a link in one of those directories ends the walk without denials, both walks
end there. -/
structure CutAt (fs : FileSystem) (settings : ScannerSettings) (recursive : Bool) (first d : Spot)
    (run lifted : Listing Text) : Prop where
  items : run.items = lifted.items.filter fun p =>
    ahead (namesBelow first.dir p).dropLast (namesBelow first.dir d.dir)
  fault : (∀ s f, Visits settings recursive first s → Before first s d →
      ¬ Halts fs.lifted settings s f) → ∃ f, run.cut = some f ∧ f.IsUnreadable d.dir
  link : ∀ s f, Visits settings recursive first s → Before first s d →
    Halts fs.lifted settings s f →
      run = lifted ∧ ∃ f, run.cut = some f ∧ f.isFileSystem = false

section

variable (hnames : fs.tree.wellNamed = true) (hfirst : fs.locate true first.dir = .ok first.loc)
  (hat : fs.tree.at? first.loc = some (.dir first.entries))

include hnames hfirst hat

/-- The tour up to the first denied directory, and behind it. -/
theorem tour_split (h : FirstDenied fs settings recursive first d) :
    ∃ front back, first.tour settings recursive = front ++ d :: back ∧
      (∀ s ∈ front, s.loc ∉ fs.denied) ∧
      (∀ s, s ∈ front ↔ Visits settings recursive first s ∧ Before first s d) ∧
      ∀ s ∈ back, Visits settings recursive first s ∧ Before first d s := by
  obtain ⟨front, back, htour⟩ := List.append_of_mem (mem_tour.2 h.visited)
  have hsorted : (first.tour settings recursive).Pairwise (Before first) :=
    tour_sorted hnames hfirst hat
  rw [htour] at hsorted
  obtain ⟨-, hback, hacross⟩ := List.pairwise_append.1 hsorted
  have hbefore : ∀ s ∈ front, Before first s d := fun s hs => hacross s hs d (by simp)
  have hbehind : ∀ s ∈ back, Before first d s := (List.pairwise_cons.1 hback).1
  refine ⟨front, back, htour, ?_, ?_, ?_⟩
  · intro s hs hdenied
    have hvisit := mem_tour.1 (htour ▸ List.mem_append_left _ hs)
    have hahead := hbefore s hs
    rcases h.least s hvisit hdenied with rfl | hleast
    · simp [Before, ahead_irrefl] at hahead
    · simp [Before, ahead_asymm hleast] at hahead
  · intro s
    constructor
    · intro hs
      exact ⟨mem_tour.1 (htour ▸ List.mem_append_left _ hs), hbefore s hs⟩
    · rintro ⟨hvisit, hahead⟩
      have hs := mem_tour.2 hvisit
      rw [htour, List.mem_append, List.mem_cons] at hs
      rcases hs with hs | rfl | hs
      · exact hs
      · simp [Before, ahead_irrefl] at hahead
      · simp [Before, ahead_asymm (hbehind s hs)] at hahead
  · intro s hs
    exact ⟨mem_tour.1 (htour ▸ List.mem_append_right _ (List.mem_cons_of_mem _ hs)), hbehind s hs⟩

/-- What visited directories hold without denials stands in one of them. -/
theorem parent_of_mem_lifted {p : Text} {spots : List Spot}
    (hvisit : ∀ s ∈ spots, Visits settings recursive first s)
    (hp : p ∈ (Listing.concat (spots.map (own fs.lifted settings))).items) :
    ∃ s ∈ spots, (namesBelow first.dir p).dropLast = namesBelow first.dir s.dir := by
  have hlocate : fs.lifted.locate true first.dir = .ok first.loc := by
    rw [fs.relaxes_lifted.locate]
    exact hfirst
  have hlifted : fs.lifted.tree.wellNamed = true := hnames
  exact parent_of_mem_concat hlifted hlocate hat hvisit hp

/-- Both walks have the same part before the first denied directory; what only the one without
denials finds stands in that directory or behind it. -/
theorem walks_split (h : FirstDenied fs settings recursive first d) :
    ∃ before after : Listing Text,
      files fs settings recursive first.loc first.dir (.dir first.entries) =
        before.append (.refused (.fault (.unreadable d.dir Errno.denied.message))) ∧
      files fs.lifted settings recursive first.loc first.dir (.dir first.entries) =
        before.append after ∧
      (∀ p ∈ before.items,
        ahead (namesBelow first.dir p).dropLast (namesBelow first.dir d.dir) = true) ∧
      (∀ p ∈ after.items,
        ahead (namesBelow first.dir p).dropLast (namesBelow first.dir d.dir) = false) ∧
      (before.cut = none ↔ ∀ s f, Visits settings recursive first s → Before first s d →
        ¬ Halts fs.lifted settings s f) ∧
      ∀ e, before.cut = some e → e.isFileSystem = false := by
  obtain ⟨front, back, htour, hlisted, hfront, hback⟩ := tour_split hnames hfirst hat h
  have hsame : front.map (own fs settings) = front.map (own fs.lifted settings) :=
    List.map_congr_left fun s hs => (own_lifted (hlisted s hs)).symm
  refine ⟨Listing.concat (front.map (own fs.lifted settings)),
    Listing.concat ((d :: back).map (own fs.lifted settings)), ?_, ?_, ?_, ?_, ?_, ?_⟩
  · rw [files_eq_concat, htour, List.map_append, Listing.concat_append, List.map_cons,
      Listing.concat, own_of_denied h.denied, Listing.refused_append, hsame]
  · rw [files_eq_concat, htour, List.map_append, Listing.concat_append]
  · intro p hp
    obtain ⟨s, hs, hp⟩ :=
      parent_of_mem_lifted hnames hfirst hat (fun s hs => ((hfront s).1 hs).1) hp
    rw [hp]
    exact ((hfront s).1 hs).2
  · intro p hp
    obtain ⟨s, hs, hp⟩ := parent_of_mem_lifted hnames hfirst hat
      (List.forall_mem_cons.2 ⟨h.visited, fun s hs => (hback s hs).1⟩) hp
    rw [hp]
    rcases List.mem_cons.1 hs with rfl | hs
    · exact ahead_irrefl _
    · exact ahead_asymm (hback s hs).2
  · rw [Listing.concat_cut_eq_none]
    simp only [List.forall_mem_map, own_lifted_cut_eq_none, hfront, and_imp]
    exact ⟨fun hnone s f hvisit hahead => hnone s hvisit hahead f,
      fun hnone s hvisit hahead f => hnone s f hvisit hahead⟩
  · intro e he
    obtain ⟨l, hl, hcut⟩ := Listing.cut_of_concat he
    obtain ⟨s, -, rfl⟩ := List.mem_map.1 hl
    exact isFileSystem_of_own_lifted hcut

theorem cutAt_of_firstDenied (h : FirstDenied fs settings recursive first d) :
    CutAt fs settings recursive first d
      (files fs settings recursive first.loc first.dir (.dir first.entries))
      (files fs.lifted settings recursive first.loc first.dir (.dir first.entries)) := by
  obtain ⟨before, after, hrun, hfull, hkept, hdropped, hwhole, hlink⟩ :=
    walks_split hnames hfirst hat h
  have hnone : ∀ p ∈ after.items,
      ¬ ahead (namesBelow first.dir p).dropLast (namesBelow first.dir d.dir) = true := by
    intro p hp
    simp [hdropped p hp]
  rw [hrun, hfull]
  constructor
  · cases hcut : before.cut with
    | some e =>
      rw [Listing.append_of_cut hcut, Listing.append_of_cut hcut, List.filter_eq_self.2 hkept]
    | none =>
      rw [Listing.append_of_whole hcut, Listing.append_of_whole hcut, List.filter_append,
        List.filter_eq_self.2 hkept, List.filter_eq_nil_iff.2 hnone]
      rfl
  · intro hclear
    rw [Listing.append_of_whole (hwhole.2 hclear)]
    exact ⟨_, rfl, _, rfl, rfl, rfl, rfl⟩
  · intro s f hvisit hahead hhalts
    obtain ⟨e, hcut⟩ := Option.ne_none_iff_exists'.1 fun hcut =>
      hwhole.1 hcut s f hvisit hahead hhalts
    rw [Listing.append_of_cut hcut, Listing.append_of_cut hcut]
    exact ⟨rfl, e, hcut, hlink e hcut⟩

/-- If a walk would come to a denied directory at all, it would come to one of them first. -/
theorem exists_firstDenied (hvisit : Visits settings recursive first s)
    (hdenied : s.loc ∈ fs.denied) : ∃ d, FirstDenied fs settings recursive first d := by
  cases hfind : (first.tour settings recursive).find? fun s => decide (s.loc ∈ fs.denied) with
  | none => exact absurd (by simpa using hdenied) (List.find?_eq_none.1 hfind s (mem_tour.2 hvisit))
  | some d =>
    obtain ⟨hd, front, back, htour, hfront⟩ := List.find?_eq_some_iff_append.1 hfind
    have hsorted : (first.tour settings recursive).Pairwise (Before first) :=
      tour_sorted hnames hfirst hat
    have hmem : d ∈ first.tour settings recursive := by simp [htour]
    refine ⟨d, mem_tour.1 hmem, by simpa using hd, fun t ht hdenied => ?_⟩
    have hmem := mem_tour.2 ht
    rw [htour] at hsorted hmem
    rcases List.mem_append.1 hmem with hmem | hmem
    · exact absurd hdenied (by simpa using hfront t hmem)
    · rcases List.mem_cons.1 hmem with rfl | hmem
      · exact .inl rfl
      · exact .inr ((List.pairwise_cons.1 (List.pairwise_append.1 hsorted).2.1).1 t hmem)

end

/-- Without a denied directory on the way, denials make no difference. -/
theorem files_lifted (h : ∀ s, Visits settings recursive first s → s.loc ∉ fs.denied) :
    files fs.lifted settings recursive first.loc first.dir (.dir first.entries) =
      files fs settings recursive first.loc first.dir (.dir first.entries) := by
  rw [files_eq_concat, files_eq_concat]
  refine congrArg Listing.concat (List.map_congr_left fun s hs => ?_)
  exact own_lifted (h s (mem_tour.1 hs))

/-- The walk of a root that opens, beside the walk without denials. They agree if no directory on
the way is denied, as when only the root is walked. Otherwise the walk is the other one, cut at the
first denied directory on the way. -/
theorem denied_walk_is_cut_walk (fs : FileSystem) (settings : ScannerSettings) (recursive : Bool)
    (hnames : fs.tree.wellNamed = true) (root : Text) (first : Spot) (hopens : Opens fs root first) :
    ∃ run lifted,
      enumerate fs settings recursive root =
        .ok (.rootEnumerated first.dir recursive first.entries.length, run) ∧
      enumerate fs.lifted settings recursive root =
        .ok (.rootEnumerated first.dir recursive first.entries.length, lifted) ∧
      ((∀ s, Visits settings recursive first s → s.loc ∉ fs.denied) → run = lifted) ∧
      (recursive = false → run = lifted) ∧
      ((∃ s, Visits settings recursive first s ∧ s.loc ∈ fs.denied) →
        ∃ d, FirstDenied fs settings recursive first d) ∧
      ∀ d, FirstDenied fs settings recursive first d →
        CutAt fs settings recursive first d run lifted := by
  have hfirst := hopens.leads
  have hat := hopens.isDir
  have hlifted : Opens fs.lifted root first := by
    refine ⟨hopens.spelled, ?_, hat, by simp [FileSystem.lifted]⟩
    rw [fs.relaxes_lifted.reach]
    exact hopens.reached
  refine ⟨_, _, hopens.enumerate settings recursive, hlifted.enumerate settings recursive,
    fun hnone => (files_lifted hnone).symm, ?_, ?_,
    fun d hd => cutAt_of_firstDenied hnames hfirst hat hd⟩
  · rintro rfl
    refine (files_lifted fun s hvisit => ?_).symm
    rcases hvisit.first_or_below with rfl | ⟨_, _, hdeep, _⟩
    · exact hopens.listed
    · cases hdeep
  · rintro ⟨s, hvisit, hdenied⟩
    exact exists_firstDenied hnames hfirst hat hvisit hdenied

/-- A directory with a source, a hidden directory, a directory with one below it, and one more. -/
def wing : Spot :=
  ⟨["src".toList], "src".toList,
    [("d".toList, .dir [("z.php".toList, .file [])]),
      ("b".toList, .dir [("c".toList, .dir [("y.php".toList, .file [])]),
        ("x.php".toList, .file [])]),
      (".git".toList, .dir []), ("a.php".toList, .file [])]⟩

/-- It stands in a file system where the hidden directory is denied, and so are `c` and `d`. -/
def wingFiles : FileSystem :=
  ⟨.dir [("src".toList, .dir wing.entries)],
    [["src".toList, ".git".toList], ["src".toList, "d".toList],
      ["src".toList, "b".toList, "c".toList]], [], []⟩

def wingCloset : Spot :=
  ⟨["src".toList, "b".toList, "c".toList], "src/b/c".toList, [("y.php".toList, .file [])]⟩

theorem wing_firstDenied : FirstDenied wingFiles {} true wing wingCloset := by
  have htour : wing.tour {} true = [wing, wing.sub "b".toList [("c".toList,
      .dir [("y.php".toList, .file [])]), ("x.php".toList, .file [])], wingCloset,
      wing.sub "d".toList [("z.php".toList, .file [])]] := rfl
  refine ⟨mem_tour.1 (by rw [htour]; simp), by decide +kernel, fun s hs hdenied => ?_⟩
  have hmem := mem_tour.2 hs
  rw [htour] at hmem
  simp only [List.mem_cons, List.not_mem_nil, or_false] at hmem
  rcases hmem with rfl | rfl | rfl | rfl
  · exact absurd hdenied (by decide +kernel)
  · exact absurd hdenied (by decide +kernel)
  · exact .inl rfl
  · exact .inr (by unfold Before; decide +kernel)

/-- The hidden directory does not matter, `b` is gone through up to `c`, and `d` is not reached. -/
theorem wing_walk_is_cut :
    Opens wingFiles "src".toList wing ∧ FirstDenied wingFiles {} true wing wingCloset ∧
      CutAt wingFiles {} true wing wingCloset
        ⟨["src/a.php".toList, "src/b/x.php".toList],
          some (.fault (.unreadable "src/b/c".toList Errno.denied.message))⟩
        ⟨["src/a.php".toList, "src/b/x.php".toList, "src/b/c/y.php".toList,
          "src/d/z.php".toList], none⟩ := by
  have hopens : Opens wingFiles "src".toList wing := ⟨by decide, rfl, rfl, by decide⟩
  obtain ⟨run, lifted, hrun, hlifted, -, -, -, hcut⟩ :=
    denied_walk_is_cut_walk wingFiles {} true (by decide +kernel) _ _ hopens
  cases hrun
  cases hlifted
  exact ⟨hopens, wing_firstDenied, hcut _ wing_firstDenied⟩

/-- A source, a link that goes through it as if it were a directory, and a denied directory. -/
def blockedWing : FileSystem :=
  ⟨.dir [("src".toList, .dir [("a.php".toList, .file []), ("x.txt".toList, .link "a.php/b".toList),
      ("sub".toList, .dir [])])],
    [["src".toList, "sub".toList]], [], []⟩

/-- The walk ends at the link, which is no loop, and never tells of the denied directory. -/
theorem link_hides_denied_directory :
    FileSystem.NoLoops blockedWing.tree ∧
      enumerate blockedWing {} true "src".toList =
        .ok (.rootEnumerated "src".toList true 3,
          ⟨["src/a.php".toList], some (.system .notDirectory "src/x.txt".toList)⟩) := by
  refine ⟨fun loc target hlink => ?_, rfl⟩
  have hmem := Tree.mem_linkList (Tree.linkAt?_eq_some.1 hlink)
  have hlinks : blockedWing.tree.linkList =
      [(["src".toList, "x.txt".toList], "a.php/b".toList)] := by decide +kernel
  rw [hlinks, List.mem_singleton, Prod.mk.injEq] at hmem
  obtain ⟨rfl, rfl⟩ := hmem
  have hfile : FileSystem.Proper "a.php".toList := FileSystem.proper_of_isName (by decide +kernel)
  have hbelow : FileSystem.Proper "b".toList := FileSystem.proper_of_isName (by decide +kernel)
  exact ⟨0, ["src".toList, "a.php".toList, "b".toList],
    .down hfile (by decide +kernel) (.down hbelow (by decide +kernel) (.done _))⟩

end Walk
end ClassCensus
