import ClassCensus.Proofs.Confirmation
import ClassCensus.Proofs.Revalidation
import ClassCensus.Proofs.Tour

/-!
# ClassCensus.Proofs.Extensions

Which files of a directory a walk of it finds. The check of the settings takes any text of two
characters or more that starts with a dot for an extension, but the extension of a name goes from
its last dot on. So a name that ends in the source extension has it for its extension exactly if
there is no second dot in it (`extension_append`), and with a second dot nothing is ever found
(`items_of_dotted`).

A file with the right extension is found unless a link before it, by name, ends the walk
(`mem_files_iff`): the files of a directory come before everything below it.
-/

namespace ClassCensus

/-! ## Extensions of names -/

namespace Spelling

/-- There is no dot behind the one that an extension starts with. -/
theorem not_mem_of_extension {name ending : Text} (h : extension name = '.' :: ending) :
    '.' ∉ ending := by
  unfold extension at h
  split at h
  · rename_i stem ending' hsplit
    split at h
    · cases h
    · obtain rfl : ending' = ending := (List.cons.inj h).2
      intro hmem
      obtain ⟨front, back, rfl⟩ := List.append_of_mem hmem
      obtain ⟨hcut, hlast⟩ := Text.splitLast?_eq_some.1 hsplit
      -- the dot would come later than the last one
      have hlength := hlast (stem ++ '.' :: front) back (by rw [hcut]; simp [dot])
      simp only [List.length_append, List.length_cons] at hlength
      omega
  · cases h

theorem extension_append {stem ending : Text} (hstem : stem ≠ []) (hending : ending ≠ []) :
    extension (stem ++ '.' :: ending) = '.' :: ending ↔ '.' ∉ ending := by
  refine ⟨not_mem_of_extension, fun hdot => ?_⟩
  have hsplit : Text.splitLast? dot (stem ++ '.' :: ending) = some (stem, ending) := by
    refine Text.splitLast?_eq_some.2 ⟨by simp [dot], fun front back h => ?_⟩
    by_contra hlonger
    have hsame : stem ++ '.' :: ending = front ++ '.' :: back := by simpa [dot] using h
    rcases List.append_eq_append_iff.1 hsame with ⟨more, hfront, hrest⟩ | ⟨more, hfront, -⟩
    · cases more with
      | nil => exact hlonger (by simp [hfront])
      | cons c more =>
        have hback := (List.cons.inj hrest).2
        exact hdot (by rw [hback]; simp)
    · exact hlonger (by simp [hfront])
  simp [extension, hsplit, hstem, hending]

end Spelling

/-! ## One item among many -/

namespace Listing

variable {α : Type}

/-- An item that comes from one part only is there if that part has it and no part before is cut
short. -/
theorem mem_concat_middle {as bs : List (Listing α)} {b : Listing α} {x : α}
    (has : ∀ a ∈ as, x ∉ a.items) (hbs : ∀ a ∈ bs, x ∉ a.items) :
    x ∈ (concat (as ++ b :: bs)).items ↔ (∀ a ∈ as, a.cut = none) ∧ x ∈ b.items := by
  rw [← concat_cut_eq_none, concat_append, concat]
  have hbefore : x ∉ (concat as).items := by
    intro hx
    obtain ⟨a, ha, hxa⟩ := mem_of_mem_concat hx
    exact has a ha hxa
  have hbehind : x ∉ (concat bs).items := by
    intro hx
    obtain ⟨a, ha, hxa⟩ := mem_of_mem_concat hx
    exact hbs a ha hxa
  cases hcut : (concat as).cut with
  | some e => simp [append_of_cut hcut, hbefore]
  | none =>
    rw [append_of_whole hcut]
    constructor
    · intro hx
      have hx' := (List.mem_append.1 hx).resolve_left hbefore
      exact ⟨rfl, (mem_of_mem_append hx').resolve_right hbehind⟩
    · rintro ⟨-, hx⟩
      exact List.mem_append_right _ ((items_prefix_append b (concat bs)).subset hx)

end Listing

namespace Walk

variable {fs : FileSystem} {settings : ScannerSettings} {recursive : Bool} {first : Spot}
  {name : Text}

/-- The walk of a directory alone: what its visible entries contribute, by name. -/
theorem files_shallow_eq {loc : Location} (hlisted : loc ∉ fs.denied) (dir : Text)
    (entries : List (Text × Tree)) :
    files fs settings false loc dir (.dir entries) =
      Listing.concat ((visible settings entries).map fun e =>
        (sightOf fs settings false loc dir e).ofFiles) := by
  have hbelow : Listing.concat ((visible settings entries).map fun e =>
      (sightOf fs settings false loc dir e).ofSubtree) = .empty := by
    refine Listing.concat_of_empty fun a ha => ?_
    obtain ⟨⟨name, t⟩, -, rfl⟩ := List.mem_map.1 ha
    cases t <;> rfl
  rw [files_dir, if_neg hlisted, arrange, sights_eq, Text.sortByName_map]
  simp only [List.map_map, Function.comp_def]
  rw [← visible, hbelow, Listing.append_empty]

/-- A visible link before a name that can neither be followed nor be passed over. -/
def Blocked (fs : FileSystem) (settings : ScannerSettings) (s : Spot) (name : Text) : Prop :=
  ∃ other target e, (other, .link target) ∈ s.entries ∧ Shown settings other ∧ other < name ∧
    fs.locate true (Spelling.below s.dir other) = .error e ∧ e ≠ .noEntry

theorem not_blocked_iff :
    ¬ Blocked fs settings first name ↔ ∀ e ∈ first.entries, Shown settings e.1 → e.1 < name →
      (sightOf fs settings false first.loc first.dir e).ofFiles.cut = none := by
  constructor
  · rintro hnone ⟨other, t⟩ he hshown hlt
    cases t with
    | file content => exact cut_candidate first.dir other
    | dir entries => rfl
    | link target =>
      by_contra hcut
      obtain ⟨f, hf⟩ := Option.ne_none_iff_exists'.1 hcut
      obtain ⟨e, hlocate, hthere, -⟩ := cut_linked.1 hf
      exact hnone ⟨other, target, e, he, hshown, hlt, hlocate, hthere⟩
  · rintro hwhole ⟨other, target, e, he, hshown, hlt, hlocate, hthere⟩
    have hcut : (linked fs settings first.dir other).cut = none := hwhole _ he hshown hlt
    rw [cut_linked.2 ⟨e, hlocate, hthere, rfl⟩] at hcut
    cases hcut

theorem mem_sightOf_iff (settings : ScannerSettings) (hfile : IsFile fs first name) :
    ∃ t, (name, t) ∈ first.entries ∧ ∀ f,
      f ∈ (sightOf fs settings false first.loc first.dir (name, t)).ofFiles.items ↔
        Spelling.extension name = settings.sourceExtension ∧
          f = Spelling.clean (Spelling.below first.dir name) := by
  cases hfile with
  | plain hentry => exact ⟨_, hentry, fun f => mem_candidate⟩
  | linked hentry hlocate hat =>
    refine ⟨_, hentry, fun f => ?_⟩
    rw [sightOf, Sight.ofFiles, mem_linked]
    exact and_iff_right ⟨_, _, hlocate, hat⟩

section

variable (hnames : fs.tree.wellNamed = true) (hfirst : fs.locate true first.dir = .ok first.loc)
  (hat : fs.tree.at? first.loc = some (.dir first.entries))

include hnames hfirst hat

theorem namesBelow_entry (hname : name ∈ Table.keys first.entries) :
    namesBelow first.dir (Spelling.clean (Spelling.below first.dir name)) = [name] := by
  refine namesBelow_eq ?_
  rw [Spelling.parse_clean, parse_entry hnames hfirst hat hname]

/-- An entry of another name contributes another path. -/
theorem not_mem_sightOf {e : Text × Tree} (he : e ∈ first.entries) (hne : e.1 ≠ name)
    (hname : name ∈ Table.keys first.entries) :
    Spelling.clean (Spelling.below first.dir name) ∉
      (sightOf fs settings false first.loc first.dir e).ofFiles.items := by
  intro hmem
  have hpath := names_of_beside hnames hfirst hat he hmem
  rw [namesBelow_entry hnames hfirst hat hname] at hpath
  exact hne (List.cons.inj hpath).1.symm

omit hfirst in
/-- The visible entries of a directory come by name. -/
theorem visible_split {t : Tree} (hentry : (name, t) ∈ first.entries)
    (hshown : Shown settings name) :
    ∃ front back, visible settings first.entries = front ++ (name, t) :: back ∧
      (∀ e ∈ front, e.1 < name) ∧ ∀ e ∈ back, name < e.1 := by
  obtain ⟨front, back, hsplit⟩ := List.append_of_mem (mem_visible.2 ⟨hentry, hshown⟩)
  have hstrict : (visible settings first.entries).Pairwise fun x y => x.1 < y.1 :=
    Text.sortByName_strict ((Tree.wellNamed_at? hnames hat).1.sublist
      (List.filter_sublist.map Prod.fst))
  rw [hsplit] at hstrict
  obtain ⟨-, hbehind, hacross⟩ := List.pairwise_append.1 hstrict
  exact ⟨front, back, hsplit, fun e he => hacross e he (name, t) (by simp),
    (List.pairwise_cons.1 hbehind).1⟩

/-- Only an entry before a file can keep it from being found. -/
theorem mem_shallow_iff (hlisted : first.loc ∉ fs.denied) (hshown : Shown settings name)
    (hfile : IsFile fs first name) :
    Spelling.clean (Spelling.below first.dir name) ∈
        (files fs settings false first.loc first.dir (.dir first.entries)).items ↔
      Spelling.extension name = settings.sourceExtension ∧ ¬ Blocked fs settings first name := by
  obtain ⟨t, hentry, hsight⟩ := mem_sightOf_iff settings hfile
  obtain ⟨front, back, hsplit, hlt, hgt⟩ := visible_split hnames hat hentry hshown
  have hvisible : ∀ e, e ∈ front ∨ e = (name, t) ∨ e ∈ back ↔
      e ∈ first.entries ∧ Shown settings e.1 := by
    intro e
    rw [← mem_visible, hsplit, List.mem_append, List.mem_cons]
  have hbefore : (∀ e ∈ front,
      (sightOf fs settings false first.loc first.dir e).ofFiles.cut = none) ↔
        ¬ Blocked fs settings first name := by
    rw [not_blocked_iff]
    constructor
    · intro hwhole e he hshown' hbefore
      rcases (hvisible e).2 ⟨he, hshown'⟩ with hmem | rfl | hmem
      · exact hwhole e hmem
      · exact absurd hbefore (List.lt_irrefl _)
      · exact absurd hbefore (List.lt_asymm (hgt e hmem))
    · intro hwhole e he
      obtain ⟨hin, hshown'⟩ := (hvisible e).1 (.inl he)
      exact hwhole e hin hshown' (hlt e he)
  rw [files_shallow_eq hlisted, hsplit, List.map_append, List.map_cons,
    Listing.mem_concat_middle, hsight, and_iff_left rfl, ← hbefore]
  · simp only [List.forall_mem_map]
    exact and_comm
  · simp only [List.forall_mem_map]
    intro e he
    refine not_mem_sightOf hnames hfirst hat ((hvisible e).1 (.inl he)).1 ?_ hfile.mem_keys
    exact fun hname => List.lt_irrefl _ (hname ▸ hlt e he)
  · simp only [List.forall_mem_map]
    intro e he
    refine not_mem_sightOf hnames hfirst hat ((hvisible e).1 (.inr (.inr he))).1 ?_ hfile.mem_keys
    exact fun hname => List.lt_irrefl _ (hname ▸ hgt e he)

/-- The same of a walk into the subdirectories, which comes to them later. -/
theorem mem_files_iff (hlisted : first.loc ∉ fs.denied) (hshown : Shown settings name)
    (hfile : IsFile fs first name) :
    Spelling.clean (Spelling.below first.dir name) ∈
        (files fs settings recursive first.loc first.dir (.dir first.entries)).items ↔
      Spelling.extension name = settings.sourceExtension ∧ ¬ Blocked fs settings first name := by
  rw [← mem_shallow_iff hnames hfirst hat hlisted hshown hfile,
    files_append fs settings recursive hlisted]
  constructor
  · intro hmem
    refine (Listing.mem_of_mem_append hmem).resolve_right fun hbelow => ?_
    obtain ⟨l, hl, hbelow⟩ := Listing.mem_of_mem_concat hbelow
    obtain ⟨e, he, rfl⟩ := List.mem_map.1 hl
    obtain ⟨hentry, hshown'⟩ := mem_visible.1 he
    obtain ⟨names, hne, hfar, -⟩ := names_of_below hnames hfirst hat hentry hshown' hbelow
    rw [namesBelow_entry hnames hfirst hat hfile.mem_keys] at hfar
    exact hne (List.cons.inj hfar).2.symm
  · intro hmem
    exact (Listing.items_prefix_append _ _).subset hmem

end

/-- With a second dot in the source extension no walk finds anything. -/
theorem items_of_dotted {ending : Text} (hext : settings.sourceExtension = '.' :: ending)
    (hdot : '.' ∈ ending) :
    (files fs settings recursive first.loc first.dir (.dir first.entries)).items = [] := by
  rw [List.eq_nil_iff_forall_not_mem]
  intro f hf
  obtain ⟨s, name, -, -, -, hname, -⟩ := mem_files hf
  exact Spelling.not_mem_of_extension (hname.trans hext) hdot

/-- The source extension is one that the check of the settings lets pass. The walk of a directory
that can be listed finds a visible file whose name is not empty before that extension, exactly if
the extension has one dot only and no link with a name before the file's blocks the way. With a
second dot the walk finds nothing at all, whatever the directory holds. -/
theorem file_with_extension_is_found_iff (v : Value) (settings : ScannerSettings)
    (hcheck : Settings.checkScanner v = .valid settings) (fs : FileSystem)
    (hnames : fs.tree.wellNamed = true) (recursive : Bool) (root : Text) (first : Spot)
    (hopens : Opens fs root first) :
    ∃ found, enumerate fs settings recursive root =
        .ok (.rootEnumerated first.dir recursive first.entries.length, found) ∧
      (∀ stem content, stem ≠ [] →
        (stem ++ settings.sourceExtension, .file content) ∈ first.entries →
        Shown settings (stem ++ settings.sourceExtension) →
        (Spelling.clean (Spelling.below first.dir (stem ++ settings.sourceExtension)) ∈
            found.items ↔
          '.' ∉ settings.sourceExtension.tail ∧
            ¬ Blocked fs settings first (stem ++ settings.sourceExtension))) ∧
      ('.' ∈ settings.sourceExtension.tail → found.items = []) := by
  obtain ⟨hhead, hlength⟩ := (Settings.sensible_of_checkScanner hcheck).sourceExtension
  obtain ⟨ending, hext⟩ := List.head?_eq_some_iff.1 hhead
  have hne : ending ≠ [] := by
    rintro rfl
    rw [hext] at hlength
    simp at hlength
  refine ⟨_, hopens.enumerate settings recursive, fun stem content hstem hfile hshown => ?_, ?_⟩
  · rw [mem_files_iff hnames hopens.leads hopens.isDir hopens.listed hshown (.plain hfile), hext,
      List.tail_cons, Spelling.extension_append hstem hne]
  · rw [hext, List.tail_cons]
    exact items_of_dotted hext

def extensionConfiguration (ext : Text) : Value := .record [("source_extension".toList, .text ext)]

/-- A file between a link to nowhere and a link through the file itself, and a subdirectory. -/
def shelf : Spot :=
  ⟨["src".toList], "src".toList,
    [("z.txt".toList, .link "b.c.inc/x".toList), ("b.c.inc".toList, .file []),
      ("a.inc".toList, .link "nowhere".toList), ("d".toList, .dir [])]⟩

/-- The subdirectory may not be listed. -/
def shelfFiles : FileSystem :=
  ⟨.dir [("src".toList, .dir shelf.entries)], [["src".toList, "d".toList]], [], []⟩

theorem shelf_file_is_found :
    Settings.checkScanner (extensionConfiguration ".inc".toList) =
        .valid { sourceExtension := ".inc".toList } ∧
      Opens shelfFiles "src".toList shelf ∧
      ∃ found, enumerate shelfFiles { sourceExtension := ".inc".toList } true "src".toList =
          .ok (.rootEnumerated "src".toList true 4, found) ∧
        "src/b.c.inc".toList ∈ found.items := by
  have hcheck : Settings.checkScanner (extensionConfiguration ".inc".toList) =
      .valid { sourceExtension := ".inc".toList } := by rfl
  have hopens : Opens shelfFiles "src".toList shelf := ⟨by decide, rfl, rfl, by decide⟩
  obtain ⟨found, hfound, hfile, -⟩ := file_with_extension_is_found_iff _ _ hcheck shelfFiles
    (by decide +kernel) true "src".toList shelf hopens
  refine ⟨hcheck, hopens, found, hfound, ?_⟩
  have hshown : Shown { sourceExtension := ".inc".toList } "b.c.inc".toList := by
    unfold Shown
    decide
  refine (hfile "b.c".toList [] (by decide) (.tail _ (.head _)) hshown).2 ⟨by decide, ?_⟩
  rintro ⟨other, target, e, hentry, -, hlt, hlocate, hthere⟩
  -- of the two links only the one to nowhere comes before the file
  simp only [shelf, List.mem_cons, Prod.mk.injEq, List.not_mem_nil, or_false, reduceCtorEq,
    and_false, false_or] at hentry
  rcases hentry with ⟨rfl, -⟩ | ⟨rfl, -⟩
  · exact absurd hlt (by decide)
  · cases hlocate
    exact hthere rfl

/-- A page with two dots in its extension. -/
def pageFiles : FileSystem :=
  ⟨.dir [("src".toList, .dir [("page.blade.php".toList, .file [])])], [], [], []⟩

/-- A file behind a link that goes through it as if it were a directory. -/
def hiddenFiles : FileSystem :=
  ⟨.dir [("src".toList, .dir
      [("a.php".toList, .file []), ("0.txt".toList, .link "a.php/b".toList)])], [], [], []⟩

/-- An extension with a second dot is accepted and never found; and a link before a file keeps it
from being found, though there is no loop and nothing is denied. -/
theorem dotted_and_blocked_files_are_missed :
    Settings.checkScanner (extensionConfiguration ".blade.php".toList) =
        .valid { sourceExtension := ".blade.php".toList } ∧
      enumerate pageFiles { sourceExtension := ".blade.php".toList } true "src".toList =
        .ok (.rootEnumerated "src".toList true 1, ⟨[], none⟩) ∧
      enumerate hiddenFiles {} true "src".toList =
        .ok (.rootEnumerated "src".toList true 2,
          ⟨[], some (.system .notDirectory "src/0.txt".toList)⟩) :=
  ⟨by rfl, by rfl, by rfl⟩

end Walk
end ClassCensus
