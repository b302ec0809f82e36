import ClassCensus.Proofs.Calls
import ClassCensus.Proofs.Canonical

/-!
# ClassCensus.Proofs.RootSet

The set of roots after any calls that add to it, failing ones among them.

* `Unmarked` — what a written path says: the marker is taken off once, and alone it stands for the
  current directory.
* `Names` — the root that a call names: a canonical path, with the word of the call or else that of
  the marker.

The set is the table that the named roots make when they are written one after the other
(`afterAll_eq`). So each path stands where it was first named with the word it was last named with
(`toList_afterAll`), and what is in the set is a matter of canonical paths alone.
-/

namespace ClassCensus
namespace Roots

/-! ## Markers -/

/-- A path as it is written, the path that is meant, and whether the marker was there. -/
inductive Unmarked (marker : Text) : (raw path : Text) → (marked : Bool) → Prop where
  | alone : Unmarked marker marker Spelling.dot true
  | marked {stem : Text} : stem ≠ [] → Unmarked marker (stem ++ marker) stem true
  | plain {raw : Text} : ¬ marker <:+ raw → Unmarked marker raw raw false

section

variable {marker : Text}

theorem unmark_append (hmarker : marker ≠ []) (stem : Text) :
    unmark marker (stem ++ marker) = (if stem.isEmpty then Spelling.dot else stem, true) := by
  have hends : marker.isSuffixOf (stem ++ marker) = true :=
    List.isSuffixOf_iff_suffix.2 (List.suffix_append stem marker)
  have hempty : marker.isEmpty = false := by simpa using hmarker
  have hstem : (stem ++ marker).take ((stem ++ marker).length - marker.length) = stem := by simp
  simp only [unmark, hends, hempty, hstem, if_true, Bool.false_eq_true, if_false]

theorem unmark_plain {raw : Text} (h : ¬ marker <:+ raw) : unmark marker raw = (raw, false) := by
  have hends : marker.isSuffixOf raw = false := by
    rw [← Bool.not_eq_true, List.isSuffixOf_iff_suffix]
    exact h
  simp only [unmark, hends, Bool.false_eq_true, if_false]

theorem unmark_eq_iff (hmarker : marker ≠ []) {raw path : Text} {marked : Bool} :
    unmark marker raw = (path, marked) ↔ Unmarked marker raw path marked := by
  constructor
  · intro h
    by_cases hends : marker <:+ raw
    · obtain ⟨stem, rfl⟩ := hends
      rw [unmark_append hmarker] at h
      by_cases hstem : stem = []
      · subst hstem
        cases h
        exact .alone
      · rw [if_neg (by simpa using hstem)] at h
        cases h
        exact .marked hstem
    · rw [unmark_plain hends] at h
      cases h
      exact .plain hends
  · intro h
    cases h with
    | alone => exact unmark_append hmarker []
    | marked hstem => rw [unmark_append hmarker, if_neg (by simpa using hstem)]
    | plain hends => exact unmark_plain hends

end

/-! ## Calls -/

/-- The root that a call names: the canonical path of what it means, and whether to scan below it,
as the call says or else unless the marker was there. -/
def Names (fs : FileSystem) (marker : Text) (call : Text × Option Bool) (root : Root) : Prop :=
  ∃ path marked, Unmarked marker call.1 path marked ∧ fs.canonical path = .ok root.path ∧
    root.recursive = call.2.getD (!marked)

variable {fs : FileSystem} {marker : Text}

theorem rootOf_eq_ok (hmarker : marker ≠ []) {call : Text × Option Bool} {root : Root} :
    rootOf fs marker call = .ok root ↔ Names fs marker call root := by
  obtain ⟨key, deep⟩ := root
  rcases hunmark : unmark marker call.1 with ⟨path, marked⟩
  simp only [rootOf, hunmark]
  constructor
  · intro h
    cases hcanonical : fs.canonical path with
    | error e =>
      rw [hcanonical] at h
      cases h
    | ok key' =>
      rw [hcanonical] at h
      cases h
      exact ⟨path, marked, (unmark_eq_iff hmarker).1 hunmark, hcanonical, rfl⟩
  · rintro ⟨path', marked', hmeans, hcanonical, hdeep⟩
    cases hunmark.symm.trans ((unmark_eq_iff hmarker).2 hmeans)
    simp only at hcanonical hdeep
    simp only [hcanonical, hdeep]

/-- The roots after a call; one that fails leaves them as they were. -/
def after (fs : FileSystem) (marker : Text) (roots : Roots) (call : Text × Option Bool) : Roots :=
  match add fs marker roots call.1 call.2 with
  | .error _ => roots
  | .ok (_, roots) => roots

def afterAll (fs : FileSystem) (marker : Text) (roots : Roots) (calls : List (Text × Option Bool)) :
    Roots :=
  calls.foldl (after fs marker) roots

/-- The roots that calls name, in their order; a call that fails names none. -/
def named (fs : FileSystem) (marker : Text) (calls : List (Text × Option Bool)) : List Root :=
  calls.filterMap fun call => (rootOf fs marker call).toOption

theorem after_of_ok {call : Text × Option Bool} {root : Root}
    (h : rootOf fs marker call = .ok root) (roots : Roots) :
    after fs marker roots call = Table.put roots root.path root.recursive := by
  simp only [after, add_eq, h, Except.map]

theorem after_of_error {call : Text × Option Bool} {e : Failure}
    (h : rootOf fs marker call = .error e) (roots : Roots) : after fs marker roots call = roots := by
  simp only [after, add_eq, h, Except.map]

theorem afterAll_eq (calls : List (Text × Option Bool)) (roots : Roots) :
    afterAll fs marker roots calls =
      (named fs marker calls).foldl (fun t root => Table.put t root.path root.recursive) roots := by
  induction calls generalizing roots with
  | nil => rfl
  | cons call calls ih =>
    have hrest := ih (after fs marker roots call)
    rw [named] at hrest ⊢
    cases hroot : rootOf fs marker call with
    | error e =>
      rw [after_of_error hroot] at hrest
      rw [List.filterMap_cons, hroot, afterAll, List.foldl_cons, after_of_error hroot]
      exact hrest
    | ok root =>
      rw [after_of_ok hroot] at hrest
      rw [List.filterMap_cons, hroot, afterAll, List.foldl_cons, after_of_ok hroot]
      exact hrest

theorem keys_afterAll (calls : List (Text × Option Bool)) :
    Table.keys (afterAll fs marker [] calls) =
      ((named fs marker calls).map Root.path).eraseDups := by
  have hkeys := Table.keys_foldl_put Root.path Root.recursive (named fs marker calls)
    (show Table.keys ([] : Roots) = ([] : List Text).eraseDups from rfl)
  rw [afterAll_eq]
  exact hkeys

/-- Every path that was named stands where it was named first, with the word it was given last. -/
theorem toList_afterAll (calls : List (Text × Option Bool)) :
    (afterAll fs marker [] calls).toList =
      ((named fs marker calls).map Root.path).eraseDups.filterMap fun path =>
        ((named fs marker calls).filter (·.path = path)).getLast? := by
  have hkeys : Table.keys (afterAll fs marker [] calls) =
      ((named fs marker calls).map Root.path).eraseDups := keys_afterAll calls
  have hnodup : (Table.keys (afterAll fs marker [] calls)).Nodup := by
    rw [afterAll_eq]
    exact Table.nodup_foldl_put _ _ _ List.nodup_nil
  have hlook : ∀ path, (Table.get? (afterAll fs marker [] calls) path).map (Root.mk path) =
      ((named fs marker calls).filter (·.path = path)).getLast? := by
    intro path
    rw [afterAll_eq, Table.get?_foldl_put]
    cases hlast : ((named fs marker calls).filter (·.path = path)).getLast? with
    | none => rfl
    | some root =>
      have hpath : root.path = path := by
        have hmem := List.mem_of_getLast? hlast
        simpa using (List.mem_filter.1 hmem).2
      subst hpath
      rfl
  rw [← hkeys, ← funext hlook]
  have htable := congrArg toList (Table.filterMap_keys hnodup)
  rw [toList, List.map_filterMap] at htable
  refine htable.symm.trans ?_
  congr 1
  funext path
  cases Table.get? (afterAll fs marker [] calls) path <;> rfl

theorem contains_iff {roots : Roots} {path : Text} :
    contains fs roots path = .ok true ↔ ∃ key ∈ Table.keys roots, fs.canonical path = .ok key := by
  unfold contains
  cases fs.canonical path with
  | error e => simp
  | ok key => simp [Table.has_iff]

/-- A call that names a path of the set adds none. -/
theorem keys_after_of_mem {roots : Roots} {call : Text × Option Bool} {root : Root}
    (h : rootOf fs marker call = .ok root) (hmem : root.path ∈ Table.keys roots) :
    Table.keys (after fs marker roots call) = Table.keys roots := by
  rw [after_of_ok h, Table.keys_put, if_pos hmem]

/-- The roots stand in the order in which they were first named, each once and with its last word.
A path is among them exactly if its canonical path was named, and then adding it in this spelling,
with or without the marker, adds no root. -/
theorem roots_keep_place_and_last_word (fs : FileSystem) {marker : Text} (hmarker : marker ≠ [])
    (calls : List (Text × Option Bool)) :
    (∀ call root, rootOf fs marker call = .ok root ↔ Names fs marker call root) ∧
    (afterAll fs marker [] calls).toList =
      ((named fs marker calls).map Root.path).eraseDups.filterMap (fun path =>
        ((named fs marker calls).filter (·.path = path)).getLast?) ∧
    (∀ path, contains fs (afterAll fs marker [] calls) path = .ok true ↔
      ∃ root ∈ named fs marker calls, fs.canonical path = .ok root.path) ∧
    (∀ call root, Names fs marker call root → root.path ∈ (named fs marker calls).map Root.path →
      (afterAll fs marker [] (calls ++ [call])).toList.map Root.path =
        (afterAll fs marker [] calls).toList.map Root.path) ∧
    ∀ path recursive, contains fs (afterAll fs marker [] calls) path = .ok true →
      ∀ raw, raw = path ++ marker ∨ raw = path ∧ ¬ marker <:+ path →
      (afterAll fs marker [] (calls ++ [(raw, recursive)])).toList.map Root.path =
        (afterAll fs marker [] calls).toList.map Root.path := by
  have hmem : ∀ path, path ∈ Table.keys (afterAll fs marker [] calls) ↔
      path ∈ (named fs marker calls).map Root.path := by
    intro path
    rw [keys_afterAll, List.mem_eraseDups]
  have hsame : ∀ call root, Names fs marker call root →
      root.path ∈ (named fs marker calls).map Root.path →
      (afterAll fs marker [] (calls ++ [call])).toList.map Root.path =
        (afterAll fs marker [] calls).toList.map Root.path := by
    intro call root hnames hold
    rw [map_path_toList, map_path_toList, afterAll, List.foldl_append]
    exact keys_after_of_mem ((rootOf_eq_ok hmarker).2 hnames) ((hmem _).2 hold)
  refine ⟨fun call root => rootOf_eq_ok hmarker, toList_afterAll calls, fun path => ?_, hsame,
    fun path recursive hcontains raw hraw => ?_⟩
  · rw [contains_iff]
    constructor
    · rintro ⟨key, hkey, hcanonical⟩
      obtain ⟨root, hroot, rfl⟩ := List.mem_map.1 ((hmem key).1 hkey)
      exact ⟨root, hroot, hcanonical⟩
    · rintro ⟨root, hroot, hcanonical⟩
      exact ⟨root.path, (hmem _).2 (List.mem_map_of_mem hroot), hcanonical⟩
  · obtain ⟨key, hkey, hcanonical⟩ := contains_iff.1 hcontains
    obtain ⟨path', marked, hmeans, hcanonical'⟩ : ∃ path' marked,
        Unmarked marker raw path' marked ∧ fs.canonical path' = fs.canonical path := by
      rcases hraw with rfl | ⟨rfl, hends⟩
      · by_cases hne : path = []
        · subst hne
          exact ⟨_, _, .alone, fs.canonical_dot⟩
        · exact ⟨_, _, .marked hne, rfl⟩
      · exact ⟨_, _, .plain hends, rfl⟩
    exact hsame (raw, recursive) ⟨key, recursive.getD (!marked)⟩
      ⟨path', marked, hmeans, hcanonical'.trans hcanonical, rfl⟩ ((hmem key).1 hkey)

/-- A directory, a link to it and another one. -/
def linkedFolders : FileSystem :=
  ⟨.dir [("w".toList, .dir [("lib".toList, .dir []), ("lnk".toList, .link "src".toList),
    ("src".toList, .dir [])])], [], ["w".toList], []⟩

/-- The third call names the directory of the first by the link, the fifth the current directory,
and the last fails. -/
def spelledCalls : List (Text × Option Bool) :=
  [("src".toList, none), ("lib^".toList, none), ("lnk^".toList, none), ("./lib/^".toList, some true),
    ("^".toList, none), ("a\x00".toList, none)]

theorem spelled_roots_keep_place :
    "^".toList ≠ [] ∧
      (afterAll linkedFolders "^".toList [] spelledCalls).toList =
        [⟨"/w/src".toList, false⟩, ⟨"/w/lib".toList, true⟩, ⟨"/w".toList, false⟩] ∧
      contains linkedFolders (afterAll linkedFolders "^".toList [] spelledCalls)
        "src/../lnk".toList = .ok true := by
  have hmarker : "^".toList ≠ [] := by decide
  obtain ⟨-, hlist, hcontains, -⟩ :=
    roots_keep_place_and_last_word linkedFolders hmarker spelledCalls
  have hnamed : named linkedFolders "^".toList spelledCalls =
      [⟨"/w/src".toList, true⟩, ⟨"/w/lib".toList, false⟩, ⟨"/w/src".toList, false⟩,
        ⟨"/w/lib".toList, true⟩, ⟨"/w".toList, false⟩] := by decide +kernel
  rw [hnamed] at hlist hcontains
  have hcanonical : linkedFolders.canonical "src/../lnk".toList = .ok "/w/src".toList :=
    Listing.eq_of_toOption (by decide +kernel)
  refine ⟨hmarker, ?_, (hcontains _).2 ⟨_, List.mem_cons_self, hcanonical⟩⟩
  rw [hlist]
  decide +kernel

end Roots
end ClassCensus
