import ClassCensus.Proofs.Harvest
import ClassCensus.Proofs.Walk

/-!
# ClassCensus.Proofs.Denial

What lifting denials does. Paths lead to the same places whatever is denied, so a file system that
denies less lets every walk, every scan of a file and every harvest go on at least as far, and
changes nothing up to the old cut.
-/

namespace ClassCensus

/-- The second file system differs from the first at most in denying less. -/
structure FileSystem.Relaxes (fs fs' : FileSystem) : Prop where
  tree : fs'.tree = fs.tree
  cwd : fs'.cwd = fs.cwd
  strays : fs'.strays = fs.strays
  denied : fs'.denied ⊆ fs.denied

namespace FileSystem.Relaxes

variable {fs fs' : FileSystem}

/-! ## Paths -/

theorem locate (h : Relaxes fs fs') : fs'.locate = fs.locate := by
  funext follow path
  simp [FileSystem.locate, h.tree, h.cwd, h.strays]

theorem readLink? (h : Relaxes fs fs') : fs'.readLink? = fs.readLink? := by
  funext path
  simp [FileSystem.readLink?, h.locate, h.tree]

theorem trace (h : Relaxes fs fs') (seen : List Route) (expand : Route → Route → Text → Trace)
    (here : Route) (names : List Text) :
    fs'.trace seen expand here names = fs.trace seen expand here names := by
  induction names generalizing here with
  | nil => rfl
  | cons name names ih => simp only [FileSystem.trace, h.readLink?, ih]

theorem traceLinks (h : Relaxes fs fs') (depth : Nat) :
    fs'.traceLinks depth = fs.traceLinks depth := by
  induction depth with
  | zero =>
    funext seen here names
    exact h.trace _ _ _ _
  | succ depth ih =>
    funext seen here names
    simp only [FileSystem.traceLinks, ih]
    exact h.trace _ _ _ _

theorem canonical (h : Relaxes fs fs') : fs'.canonical = fs.canonical := by
  funext path
  simp [FileSystem.canonical, FileSystem.canonical?, FileSystem.realPath?, FileSystem.follow,
    FileSystem.traceDepth, h.traceLinks, h.tree, h.cwd]

theorem fingerprint (h : Relaxes fs fs') : fs'.fingerprint = fs.fingerprint := by
  funext path
  simp [FileSystem.fingerprint, FileSystem.encodes, h.canonical, h.strays]

theorem reach (h : Relaxes fs fs') : fs'.reach = fs.reach := by
  funext path
  simp [FileSystem.reach, h.locate]

theorem openFile (h : Relaxes fs fs') {path : Text} {octets : List UInt8}
    (ho : fs.openFile path = .ok octets) : fs'.openFile path = .ok octets := by
  simp only [FileSystem.openFile, h.locate, h.tree] at ho ⊢
  split at ho
  · cases ho
  · rename_i loc hloc
    split at ho
    · split at ho
      · cases ho
      · rename_i hden
        have hden' : loc ∉ fs'.denied := fun hm => hden (h.denied hm)
        simp [hden', ho]
    · cases ho
    · cases ho

/-! ## Walks -/

variable {settings : ScannerSettings} {recursive : Bool}

/-- What an entry contributes is cut no later. -/
def SightWithin (a b : Text × Walk.Sight) : Prop :=
  a.1 = b.1 ∧ Listing.Within a.2.ofFiles b.2.ofFiles ∧
    Listing.Within a.2.ofSubtree b.2.ofSubtree

theorem insertByName_within {a b : Text × Walk.Sight} {as bs : List (Text × Walk.Sight)}
    (hab : SightWithin a b) (h : List.Forall₂ SightWithin as bs) :
    List.Forall₂ SightWithin (Text.insertByName a as) (Text.insertByName b bs) := by
  induction h with
  | nil => exact .cons hab .nil
  | cons hcd hrest ih =>
    simp only [Text.insertByName, hab.1, hcd.1]
    split
    · exact .cons hab (.cons hcd hrest)
    · exact .cons hcd ih

theorem sortByName_within {as bs : List (Text × Walk.Sight)}
    (h : List.Forall₂ SightWithin as bs) :
    List.Forall₂ SightWithin (Text.sortByName as) (Text.sortByName bs) := by
  induction h with
  | nil => exact .nil
  | cons hab _ ih => exact insertByName_within hab ih

theorem arrange_within {as bs : List (Text × Walk.Sight)}
    (h : List.Forall₂ SightWithin as bs) :
    Listing.Within (Walk.arrange as) (Walk.arrange bs) := by
  have hs := sortByName_within h
  refine Listing.Within.append (Listing.Within.concat ?_) (Listing.Within.concat ?_)
  · rw [List.forall₂_map_left_iff, List.forall₂_map_right_iff]
    exact hs.imp fun _ _ hab => hab.2.1
  · rw [List.forall₂_map_left_iff, List.forall₂_map_right_iff]
    exact hs.imp fun _ _ hab => hab.2.2

theorem linked (h : Relaxes fs fs') (dir name : Text) :
    Walk.linked fs' settings dir name = Walk.linked fs settings dir name := by
  simp [Walk.linked, h.locate, h.tree]

theorem files_within (h : Relaxes fs fs') (t : Tree) (loc : Location) (dir : Text) :
    Listing.Within (Walk.files fs settings recursive loc dir t)
      (Walk.files fs' settings recursive loc dir t) := by
  induction t using Tree.induct generalizing loc dir with
  | file content => exact .refl _
  | link target => exact .refl _
  | dir entries ih =>
    rw [Walk.files_dir, Walk.files_dir]
    by_cases hd : loc ∈ fs.denied
    · rw [if_pos hd]
      exact .of_refused _ _
    · rw [if_neg hd, if_neg fun hm => hd (h.denied hm), Walk.sights_eq, Walk.sights_eq]
      apply arrange_within
      rw [List.forall₂_map_left_iff, List.forall₂_map_right_iff, List.forall₂_same]
      rintro ⟨name, t⟩ he
      refine ⟨rfl, ?_⟩
      cases t with
      | file content => exact ⟨.refl _, .refl _⟩
      | link target =>
        simp only [Walk.sightOf, h.linked]
        exact ⟨.refl _, .refl _⟩
      | dir below =>
        cases recursive with
        | false => exact ⟨.refl _, .refl _⟩
        | true => exact ⟨.refl _, ih _ (List.mem_of_mem_filter he) _ _⟩

end FileSystem.Relaxes

/-! ## Findings -/

namespace Grounds

variable {g g' : Grounds}

/-- The second grounds differ from the first at most in denying less. -/
structure Relaxes (g g' : Grounds) : Prop where
  files : g.files.Relaxes g'.files
  settings : g'.settings = g.settings
  types : g'.types = g.types

namespace Relaxes

theorem headerOf (h : Relaxes g g') {file : Text} {read : Text × Source.Header}
    (hr : Scanner.headerOf g.files g.settings file = .ok read) :
    Scanner.headerOf g'.files g'.settings file = .ok read := by
  simp only [Scanner.headerOf, Scanner.readHeader, Scanner.readLines, h.files.canonical,
    h.settings] at hr ⊢
  cases hcan : g.files.canonical file with
  | error e => simp [hcan] at hr
  | ok path =>
    simp only [hcan] at hr ⊢
    by_cases henc : List.contains g.settings.encoding '\x00'
    · simp only [henc, if_true] at hr
      cases hr
    by_cases hnul : List.contains path '\x00'
    · simp only [henc, hnul, Bool.false_eq_true, if_true, if_false] at hr
      cases hr
    simp only [henc, hnul, Bool.false_eq_true, if_false] at hr ⊢
    cases hopen : g.files.openFile path with
    | error e => simp [hopen] at hr
    | ok octets =>
      rw [h.files.openFile hopen]
      rw [hopen] at hr
      exact hr

theorem found (h : Relaxes g g') {file : Text} {found : Option ClassFacts}
    (hf : g.found file = .ok found) : g'.found file = .ok found := by
  unfold Grounds.found at hf ⊢
  cases hr : Scanner.headerOf g.files g.settings file with
  | error e => simp [hr] at hf
  | ok read =>
    rw [hr] at hf
    rw [h.headerOf hr]
    simpa only [Grounds.facts, h.settings, h.types] using hf

theorem finding_within (h : Relaxes g g') (file : Text) :
    Listing.Within (g.finding file) (g'.finding file) := by
  unfold finding
  cases hf : g.found file with
  | error e => exact .of_refused _ _
  | ok found =>
    have hkeyed : g'.keyed (.ok found) = g.keyed (.ok found) := by
      cases found with
      | none => rfl
      | some facts => simp only [keyed, h.files.fingerprint]
    rw [h.found hf, hkeyed]
    exact .refl _

theorem harvest_within (h : Relaxes g g') (files : List Text) :
    Listing.Within (g.harvest files) (g'.harvest files) := by
  apply Listing.Within.concat
  rw [List.forall₂_map_left_iff, List.forall₂_map_right_iff, List.forall₂_same]
  exact fun file _ => h.finding_within file

theorem yield_within (h : Relaxes g g') {files files' : Listing Text}
    (hf : Listing.Within files files') : Listing.Within (g.yield files) (g'.yield files') := by
  unfold yield
  rw [h.settings]
  cases hcut : files.cut with
  | none =>
    have heq := hf.whole hcut
    subst heq
    split
    · simp only [hcut]
      exact h.harvest_within _
    · rw [hcut]
      exact (h.harvest_within _).append (.refl _)
  | some e =>
    split
    · exact .of_refused _ _
    · obtain ⟨more, hmore⟩ := hf.front
      rw [← hmore, harvest_append, Listing.append_assoc]
      exact (h.harvest_within _).append (.of_refused _ _)

theorem rootYield_within (h : Relaxes g g') (root : Root) :
    Listing.Within (g.rootYield root) (g'.rootYield root) := by
  unfold rootYield
  cases hwalk : Walk.enumerate g.files g.settings root.recursive root.path with
  | error e => exact .of_refused _ _
  | ok listed =>
    obtain ⟨notice, files⟩ := listed
    obtain ⟨loc, entries, hreach, hat, hden, rfl⟩ := Walk.enumerate_ok hwalk
    rw [h.settings, Walk.enumerate_of_dir (h.files.reach ▸ hreach) (h.files.tree ▸ hat)
      fun hm => hden (h.files.denied hm)]
    exact h.yield_within (h.files.files_within _ _ _)

theorem rootsYield_within (h : Relaxes g g') (roots : List Root) :
    Listing.Within (g.rootsYield roots) (g'.rootsYield roots) := by
  apply Listing.Within.concat
  rw [List.forall₂_map_left_iff, List.forall₂_map_right_iff, List.forall₂_same]
  exact fun root _ => h.rootYield_within root

end Relaxes
end Grounds
end ClassCensus
