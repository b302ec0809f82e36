import ClassCensus.Proofs.Listing
import ClassCensus.Proofs.Tree
import ClassCensus.Walk
import Mathlib.Data.List.Perm.Basic

/-!
# ClassCensus.Proofs.Walk

The walk of a directory entry by entry: what each visible entry contributes, and what becomes of
it when the contributions are put in order.
-/

namespace ClassCensus

namespace Text

variable {α β : Type}

theorem insertByName_perm (item : Text × α) (items : List (Text × α)) :
    (insertByName item items).Perm (item :: items) := by
  induction items with
  | nil => exact .refl _
  | cons head rest ih =>
    simp only [insertByName]
    split
    · exact .refl _
    · exact (ih.cons head).trans (.swap _ _ _)

theorem sortByName_perm (items : List (Text × α)) : (sortByName items).Perm items := by
  induction items with
  | nil => exact .refl _
  | cons item rest ih => exact (insertByName_perm item _).trans (ih.cons item)

@[simp] theorem mem_sortByName {items : List (Text × α)} {x : Text × α} :
    x ∈ sortByName items ↔ x ∈ items :=
  (sortByName_perm items).mem_iff

/-- The order depends on the names only. -/
theorem insertByName_map (f : Text × α → β) (item : Text × α) (items : List (Text × α)) :
    insertByName (item.1, f item) (items.map fun e => (e.1, f e)) =
      (insertByName item items).map fun e => (e.1, f e) := by
  induction items with
  | nil => rfl
  | cons head rest ih =>
    simp only [List.map_cons, insertByName, ih]
    split <;> rfl

theorem sortByName_map (f : Text × α → β) (items : List (Text × α)) :
    sortByName (items.map fun e => (e.1, f e)) = (sortByName items).map fun e => (e.1, f e) := by
  induction items with
  | nil => rfl
  | cons item rest ih => simp only [List.map_cons, sortByName, ih, insertByName_map]

theorem precedes_iff {a b : Text} : precedes a b = true ↔ ¬ b < a := by
  rw [precedes, Bool.not_eq_true', decide_eq_false_iff_not]

theorem lt_of_precedes {a b : Text} (h : precedes a b = true) (hne : a ≠ b) : a < b := by
  by_contra hge
  exact hne (List.le_antisymm (precedes_iff.1 h) hge)

theorem insertByName_sorted (item : Text × α) {items : List (Text × α)}
    (h : items.Pairwise fun x y => precedes x.1 y.1 = true) :
    (insertByName item items).Pairwise fun x y => precedes x.1 y.1 = true := by
  induction items with
  | nil => simp [insertByName]
  | cons head rest ih =>
    obtain ⟨hhead, hrest⟩ := List.pairwise_cons.1 h
    rw [insertByName]
    split
    · rename_i hfirst
      refine List.pairwise_cons.2 ⟨fun x hx => ?_, h⟩
      rcases List.mem_cons.1 hx with rfl | hx
      · exact hfirst
      · exact precedes_iff.2 (List.le_trans (precedes_iff.1 hfirst) (precedes_iff.1 (hhead x hx)))
    · rename_i hlater
      refine List.pairwise_cons.2 ⟨fun x hx => ?_, ih hrest⟩
      rcases List.mem_cons.1 ((insertByName_perm item rest).mem_iff.1 hx) with rfl | hx
      · have hlt : head.1 < x.1 := by
          by_contra hge
          exact hlater (precedes_iff.2 hge)
        exact precedes_iff.2 (List.lt_asymm hlt)
      · exact hhead x hx

theorem sortByName_sorted (items : List (Text × α)) :
    (sortByName items).Pairwise fun x y => precedes x.1 y.1 = true := by
  induction items with
  | nil => exact .nil
  | cons item rest ih => exact insertByName_sorted item ih

/-- Things with names of their own stand in the strict order of their names. -/
theorem sortByName_strict {items : List (Text × α)} (h : (items.map Prod.fst).Nodup) :
    (sortByName items).Pairwise fun x y => x.1 < y.1 := by
  have hnodup : ((sortByName items).map Prod.fst).Nodup :=
    ((sortByName_perm items).map _).nodup_iff.2 h
  refine ((sortByName_sorted items).and (List.pairwise_map.1 hnodup)).imp ?_
  rintro x y ⟨hle, hne⟩
  exact lt_of_precedes hle hne

end Text

namespace Walk

variable (fs : FileSystem) (settings : ScannerSettings) (recursive : Bool)

/-- What an entry of the directory at `loc`, spelled `dir`, contributes. -/
def sightOf (loc : Location) (dir : Text) (e : Text × Tree) : Sight :=
  match e.2 with
  | .file _ => .beside (candidate settings dir e.1)
  | .link _ => .beside (linked fs settings dir e.1)
  | .dir below =>
    if recursive then
      .below (files fs settings recursive (loc ++ [e.1]) (Spelling.clean (Spelling.below dir e.1))
        (.dir below))
    else .below .empty

theorem sights_cons (loc : Location) (dir : Text) (e : Text × Tree) (entries : List (Text × Tree)) :
    sights fs settings recursive loc dir (e :: entries) =
      if settings.hiddenPrefix.isPrefixOf e.1 then sights fs settings recursive loc dir entries
      else (e.1, sightOf fs settings recursive loc dir e) ::
        sights fs settings recursive loc dir entries := by
  obtain ⟨name, t⟩ := e
  cases t <;> rfl

/-- Every visible entry contributes by itself. -/
theorem sights_eq (loc : Location) (dir : Text) (entries : List (Text × Tree)) :
    sights fs settings recursive loc dir entries =
      (entries.filter fun e => !settings.hiddenPrefix.isPrefixOf e.1).map fun e =>
        (e.1, sightOf fs settings recursive loc dir e) := by
  induction entries with
  | nil => rfl
  | cons e entries ih =>
    rw [sights_cons, ih]
    by_cases h : settings.hiddenPrefix.isPrefixOf e.1 <;> simp [h]

theorem files_dir (loc : Location) (dir : Text) (entries : List (Text × Tree)) :
    files fs settings recursive loc dir (.dir entries) =
      if loc ∈ fs.denied then .refused (.fault (.unreadable dir Errno.denied.message))
      else arrange (sights fs settings recursive loc dir entries) := rfl

variable {fs settings recursive}

/-- A root that leads to a directory that may be listed is walked. -/
theorem enumerate_of_dir {root : Text} {loc : Location} {entries : List (Text × Tree)}
    (hr : fs.reach (Spelling.clean root) = .ok (some loc))
    (hat : fs.tree.at? loc = some (.dir entries)) (hd : loc ∉ fs.denied) :
    enumerate fs settings recursive root =
      .ok (.rootEnumerated (Spelling.clean root) recursive entries.length,
        files fs settings recursive loc (Spelling.clean root) (.dir entries)) := by
  simp [enumerate, hr, hat, hd]

/-- No other root is. -/
theorem enumerate_ok {root : Text} {notice : Notice} {found : Listing Text}
    (h : enumerate fs settings recursive root = .ok (notice, found)) :
    ∃ loc entries, fs.reach (Spelling.clean root) = .ok (some loc) ∧
      fs.tree.at? loc = some (.dir entries) ∧ loc ∉ fs.denied ∧
      found = files fs settings recursive loc (Spelling.clean root) (.dir entries) := by
  simp only [enumerate] at h
  split at h
  · cases h
  · cases h
  · rename_i loc hr
    split at h
    · rename_i entries hat
      split at h
      · cases h
      · rename_i hd
        cases h
        exact ⟨loc, entries, hr, hat, hd, rfl⟩
    · cases h

/-- The number of workers has no part in a walk. -/
theorem files_withWorkers (n : Int) (t : Tree) (loc : Location) (dir : Text) :
    files fs { settings with maxWorkers := n } recursive loc dir t =
      files fs settings recursive loc dir t := by
  induction t using Tree.induct generalizing loc dir with
  | file content => rfl
  | link target => rfl
  | dir entries ih =>
    have hsights : sights fs { settings with maxWorkers := n } recursive loc dir entries =
        sights fs settings recursive loc dir entries := by
      rw [sights_eq, sights_eq]
      refine List.map_congr_left fun e he => ?_
      obtain ⟨name, t⟩ := e
      cases t with
      | file content => rfl
      | link target => rfl
      | dir below =>
        simp only [sightOf]
        rw [ih _ (List.mem_of_mem_filter he)]
    rw [files_dir, files_dir, hsights]

theorem enumerate_withWorkers (n : Int) (root : Text) :
    enumerate fs { settings with maxWorkers := n } recursive root =
      enumerate fs settings recursive root := by
  simp only [enumerate, files_withWorkers]

/-- Whatever a directory holds for the walk comes from one of its entries. -/
theorem mem_arrange {sights : List (Text × Sight)} {x : Text} (h : x ∈ (arrange sights).items) :
    ∃ s ∈ sights, x ∈ s.2.ofFiles.items ∨ x ∈ s.2.ofSubtree.items := by
  rcases Listing.mem_of_mem_append h with h | h
  · obtain ⟨l, hl, hx⟩ := Listing.mem_of_mem_concat h
    obtain ⟨s, hs, rfl⟩ := List.mem_map.1 hl
    exact ⟨s, Text.mem_sortByName.1 hs, .inl hx⟩
  · obtain ⟨l, hl, hx⟩ := Listing.mem_of_mem_concat h
    obtain ⟨s, hs, rfl⟩ := List.mem_map.1 hl
    exact ⟨s, Text.mem_sortByName.1 hs, .inr hx⟩

theorem arrange_cut_eq_none {sights : List (Text × Sight)} :
    (arrange sights).cut = none ↔
      ∀ x ∈ sights, x.2.ofFiles.cut = none ∧ x.2.ofSubtree.cut = none := by
  simp only [arrange, Listing.append_cut_eq_none, Listing.concat_cut_eq_none, List.mem_map,
    forall_exists_index, and_imp, forall_apply_eq_imp_iff₂, Text.mem_sortByName, forall_and]

/-- If nothing is cut short, the directory holds all that its entries contribute. -/
theorem mem_arrange_of_whole {sights : List (Text × Sight)} (h : (arrange sights).cut = none)
    {s : Text × Sight} (hs : s ∈ sights) {x : Text}
    (hx : x ∈ s.2.ofFiles.items ∨ x ∈ s.2.ofSubtree.items) : x ∈ (arrange sights).items := by
  obtain ⟨hbeside, hbelow⟩ := Listing.append_cut_eq_none.1 h
  have hsort := Text.mem_sortByName.2 hs
  rw [arrange, Listing.append_of_whole hbeside]
  rcases hx with hx | hx
  · exact List.mem_append_left _ ((Listing.mem_concat hbeside).2
      ⟨_, List.mem_map.2 ⟨s, hsort, rfl⟩, hx⟩)
  · exact List.mem_append_right _ ((Listing.mem_concat hbelow).2
      ⟨_, List.mem_map.2 ⟨s, hsort, rfl⟩, hx⟩)

/-- The visible entries of a directory, by name. -/
def visible (settings : ScannerSettings) (entries : List (Text × Tree)) : List (Text × Tree) :=
  Text.sortByName (entries.filter fun e => !settings.hiddenPrefix.isPrefixOf e.1)

/-- A directory that may be listed is walked by itself, and then each of its subdirectories. -/
theorem files_append (fs : FileSystem) (settings : ScannerSettings) (recursive : Bool)
    {loc : Location} (hlisted : loc ∉ fs.denied) (dir : Text) (entries : List (Text × Tree)) :
    files fs settings recursive loc dir (.dir entries) =
      (files fs settings false loc dir (.dir entries)).append (Listing.concat
        ((visible settings entries).map fun e =>
          (sightOf fs settings recursive loc dir e).ofSubtree)) := by
  have hsort : ∀ recursive, Text.sortByName (sights fs settings recursive loc dir entries) =
      (visible settings entries).map fun e => (e.1, sightOf fs settings recursive loc dir e) := by
    intro recursive
    rw [sights_eq, Text.sortByName_map]
    rfl
  have hbeside : ∀ e, (sightOf fs settings recursive loc dir e).ofFiles =
      (sightOf fs settings false loc dir e).ofFiles := by
    rintro ⟨name, t⟩
    cases recursive <;> cases t <;> rfl
  have hbelow : Listing.concat ((visible settings entries).map fun e =>
      (sightOf fs settings false loc dir e).ofSubtree) = .empty := by
    refine Listing.concat_of_empty fun a ha => ?_
    obtain ⟨⟨name, t⟩, -, rfl⟩ := List.mem_map.1 ha
    cases t <;> rfl
  rw [files_dir, files_dir, if_neg hlisted, if_neg hlisted]
  simp only [arrange, hsort, List.map_map, Function.comp_def, hbeside, hbelow,
    Listing.append_empty]

/-- A walk into the subdirectories starts with the walk of the directory alone. -/
theorem files_deep (fs : FileSystem) (settings : ScannerSettings) (loc : Location)
    (dir : Text) (entries : List (Text × Tree)) :
    ∃ below, files fs settings true loc dir (.dir entries) =
      (files fs settings false loc dir (.dir entries)).append below := by
  by_cases hlisted : loc ∈ fs.denied
  · rw [files_dir, files_dir, if_pos hlisted, if_pos hlisted]
    exact ⟨.empty, (Listing.append_empty _).symm⟩
  · exact ⟨_, files_append fs settings true hlisted dir entries⟩

end Walk
end ClassCensus
