import ClassCensus.Proofs.Harvest

/-!
# ClassCensus.Proofs.Calls

Calls that add roots to a census or have them scanned, and runs of such calls.
-/

namespace ClassCensus

/-- A call that adds a root or has the roots scanned; `all` is also the call behind going through
the census. -/
inductive RootCall where
  | add (path : Text) (recursive : Option Bool)
  | scanFiles
  | count
  | all
  deriving DecidableEq, Repr

namespace RootCall

/-- The root that a call adds, as it is written. -/
def root? : RootCall → Option (Text × Option Bool)
  | add path recursive => some (path, recursive)
  | _ => none

def ofRoot (root : Text × Option Bool) : RootCall := add root.1 root.2

end RootCall

namespace Roots

/-- The root that is added under a written path. -/
def rootOf (fs : FileSystem) (marker : Text) (raw : Text × Option Bool) : Except Failure Root :=
  match fs.canonical (unmark marker raw.1).1 with
  | .error e => .error e
  | .ok key => .ok ⟨key, raw.2.getD (!(unmark marker raw.1).2)⟩

theorem add_eq (fs : FileSystem) (marker : Text) (roots : Roots) (raw : Text × Option Bool) :
    add fs marker roots raw.1 raw.2 =
      (rootOf fs marker raw).map fun root => (root, Table.put roots root.path root.recursive) := by
  unfold add rootOf
  obtain ⟨path, marked⟩ := unmark marker raw.1
  cases h : fs.canonical path <;> simp [h, Except.map]

def addAll (fs : FileSystem) (marker : Text) (roots : Roots) :
    List (Text × Option Bool) → Except Failure Roots
  | [] => .ok roots
  | raw :: rest =>
    match rootOf fs marker raw with
    | .error e => .error e
    | .ok root => addAll fs marker (Table.put roots root.path root.recursive) rest

theorem addAll_congr {fs fs' : FileSystem} (h : fs'.canonical = fs.canonical) (marker : Text)
    (roots : Roots) (raws : List (Text × Option Bool)) :
    addAll fs' marker roots raws = addAll fs marker roots raws := by
  induction raws generalizing roots with
  | nil => rfl
  | cons raw raws ih => simp only [addAll, rootOf, h, ih]

theorem nodup_addAll {fs : FileSystem} {marker : Text} {raws : List (Text × Option Bool)}
    {roots roots' : Roots} (hn : (Table.keys roots).Nodup)
    (h : addAll fs marker roots raws = .ok roots') : (Table.keys roots').Nodup := by
  induction raws generalizing roots with
  | nil =>
    cases h
    exact hn
  | cons raw raws ih =>
    simp only [addAll] at h
    split at h
    · cases h
    · exact ih (Table.nodup_put hn _ _) h

@[simp] theorem map_path_toList (roots : Roots) : roots.toList.map Root.path = Table.keys roots := by
  simp [toList, Table.keys, Function.comp_def]

end Roots

namespace Census

section

variable {κ : Type} [TypeCatalog κ]

def perform (c : Census κ) : RootCall → Except Failure Unit × Census κ
  | .add path recursive => c.addRoot path recursive
  | .scanFiles => c.scanFiles
  | .count =>
    match c.count with
    | (.error e, c) => (.error e, c)
    | (.ok _, c) => (.ok (), c)
  | .all =>
    match c.all with
    | (.error e, c) => (.error e, c)
    | (.ok _, c) => (.ok (), c)

/-- Makes calls one after the other, up to the first that fails. -/
def run (c : Census κ) : List RootCall → Except Failure Unit × Census κ
  | [] => (.ok (), c)
  | call :: rest =>
    match c.perform call with
    | (.error e, c) => (.error e, c)
    | (.ok (), c) => c.run rest

/-- Every call that adds nothing scans. -/
theorem perform_of_root?_eq_none {call : RootCall} (h : call.root? = none) (c : Census κ) :
    c.perform call = c.scanFiles := by
  cases call with
  | add path recursive => cases h
  | scanFiles => rfl
  | count =>
    simp only [perform, count, all]
    rcases c.scanFiles with ⟨_ | _, d⟩ <;> rfl
  | all =>
    simp only [perform, all]
    rcases c.scanFiles with ⟨_ | _, d⟩ <;> rfl

theorem run_cons_ok {call : RootCall} {calls : List RootCall} {c d : Census κ}
    (h : c.run (call :: calls) = (.ok (), d)) :
    ∃ c', c.perform call = (.ok (), c') ∧ c'.run calls = (.ok (), d) := by
  simp only [run] at h
  split at h
  · cases h
  · rename_i c' hc
    exact ⟨c', hc, h⟩

theorem run_append_ok {calls : List RootCall} {last : RootCall} {c d : Census κ}
    (h : c.run (calls ++ [last]) = (.ok (), d)) :
    ∃ m, c.run calls = (.ok (), m) ∧ m.perform last = (.ok (), d) := by
  induction calls generalizing c with
  | nil =>
    obtain ⟨m, hm, hd⟩ := run_cons_ok h
    cases hd
    exact ⟨c, rfl, hm⟩
  | cons call calls ih =>
    obtain ⟨c', hc, hrest⟩ := run_cons_ok h
    obtain ⟨m, hm, hd⟩ := ih hrest
    exact ⟨m, by simp only [run, hc, hm], hd⟩

def withRoot (c : Census κ) (root : Root) : Census κ :=
  { c with finder := { c.finder with
      roots := Table.put c.finder.roots root.path root.recursive
      scanned := c.finder.scanned.filter (· != root.path) } }

theorem perform_add (c : Census κ) (raw : Text × Option Bool) :
    c.perform (.add raw.1 raw.2) =
      match Roots.rootOf c.world.files c.finder.settings.nonRecursiveMarker raw with
      | .error e => (.error e, c)
      | .ok root => (.ok (), c.withRoot root) := by
  simp only [perform, addRoot, Roots.add_eq]
  cases Roots.rootOf c.world.files c.finder.settings.nonRecursiveMarker raw <;> rfl

/-- Roots added to a finder that has scanned nothing. -/
theorem run_ofRoot_iff {raws : List (Text × Option Bool)} {c d : Census κ}
    (hs : c.finder.scanned = []) :
    c.run (raws.map RootCall.ofRoot) = (.ok (), d) ↔
      ∃ roots, Roots.addAll c.world.files c.finder.settings.nonRecursiveMarker c.finder.roots raws =
        .ok roots ∧ d = { c with finder := { c.finder with roots } } := by
  induction raws generalizing c with
  | nil =>
    simp only [List.map_nil, run, Prod.mk.injEq, true_and, Roots.addAll, Except.ok.injEq]
    exact ⟨fun h => ⟨_, rfl, h.symm⟩, fun ⟨roots, hr, hd⟩ => by subst hr; exact hd.symm⟩
  | cons raw raws ih =>
    simp only [List.map_cons, run, RootCall.ofRoot, perform_add, Roots.addAll]
    cases Roots.rootOf c.world.files c.finder.settings.nonRecursiveMarker raw with
    | error e => simp
    | ok root => simpa [withRoot, hs] using ih (c := c.withRoot root) (by simp [withRoot, hs])

end

end Census
end ClassCensus
