import ClassCensus.Proofs.Visits

/-!
# ClassCensus.Proofs.WalkFailures

How a walk can fail. A root that is not there, is no directory or may not be listed, and a
subdirectory that may not be listed, are faults of the library. Two refusals of the operating
system are not caught and come out as they are: the one for a root with a name that is too long,
and the one for a visible link that is not merely dangling (`Unguarded`).

There are no others (`failure?_cases`), and such a refusal never goes unnoticed
(`Unguarded.fails`).
-/

namespace ClassCensus

/-- Whether a failure is a fault of the file system family. -/
def Failure.isFileSystem : Failure → Bool
  | .fault f => f.family == .fileSystem
  | _ => false

namespace Walk

/-- How asking for a walk and then for all its items fails, if it does. -/
def failure? (fs : FileSystem) (settings : ScannerSettings) (recursive : Bool) (root : Text) :
    Option Failure :=
  match enumerate fs settings recursive root with
  | .error e => some e
  | .ok (_, found) => found.cut

/-- Refusals of the operating system that nothing guards against. -/
inductive Unguarded (fs : FileSystem) (settings : ScannerSettings) (recursive : Bool)
    (root : Text) : Failure → Prop
  | longRoot (hnul : '\x00' ∉ Spelling.clean root)
      (hlong : fs.locate true (Spelling.clean root) = .error .nameTooLong) :
      Unguarded fs settings recursive root (.system .nameTooLong (Spelling.clean root))
  | link {first s : Spot} {name target : Text} {e : Errno} (hopens : Opens fs root first)
      (hvisit : Visits settings recursive first s) (hentry : (name, .link target) ∈ s.entries)
      (hshown : Shown settings name)
      (hlocate : fs.locate true (Spelling.below s.dir name) = .error e) (hthere : e ≠ .noEntry) :
      Unguarded fs settings recursive root (.system e (Spelling.below s.dir name))

variable {fs : FileSystem} {settings : ScannerSettings} {recursive : Bool} {root : Text}
  {f : Failure}

theorem Unguarded.not_isFileSystem (h : Unguarded fs settings recursive root f) :
    f.isFileSystem = false := by
  cases h with
  | longRoot _ _ => rfl
  | link _ _ _ _ _ _ => rfl

/-- A root that opens is walked from where it opens. -/
theorem failure?_of_opens {first : Spot} (h : Opens fs root first) :
    failure? fs settings recursive root =
      (files fs settings recursive first.loc first.dir (.dir first.entries)).cut := by
  rw [failure?, h.enumerate]

/-- A root whose walk does not even start has a fault, or a name that is too long. -/
theorem enumerate_error (h : enumerate fs settings recursive root = .error f) :
    f.isFileSystem = true ∨ Unguarded fs settings recursive root f := by
  simp only [enumerate] at h
  split at h
  · rename_i e hreach
    cases h
    unfold FileSystem.reach at hreach
    split at hreach
    · cases hreach
    · rename_i hnul
      split at hreach
      · cases hreach
      · rename_i hlong
        cases hreach
        exact .inr (.longRoot (by simpa using hnul) hlong)
      · cases hreach
  · cases h
    exact .inl rfl
  · split at h
    · split at h
      · cases h
        exact .inl rfl
      · cases h
    · cases h
      exact .inl rfl

/-- There is no other failure than a fault of the file system family and an unguarded refusal. -/
theorem failure?_cases (h : failure? fs settings recursive root = some f) :
    f.isFileSystem = true ∨ Unguarded fs settings recursive root f := by
  cases henum : enumerate fs settings recursive root with
  | error e =>
    rw [failure?, henum] at h
    cases h
    exact enumerate_error henum
  | ok listed =>
    obtain ⟨first, hopens, -⟩ := opens_of_enumerate henum
    rw [failure?_of_opens hopens] at h
    obtain ⟨s, hvisit, hhalts⟩ := halts_of_cut h
    cases hhalts with
    | denied _ => exact .inl rfl
    | link hentry hshown hlocate hthere =>
      exact .inr (.link hopens hvisit hentry hshown hlocate hthere)

/-- Where something is unguarded the walk fails. -/
theorem Unguarded.fails (h : Unguarded fs settings recursive root f) :
    failure? fs settings recursive root ≠ none := by
  cases h with
  | longRoot hnul hlong => simp [failure?, enumerate, FileSystem.reach, hnul, hlong]
  | link hopens hvisit hentry hshown hlocate hthere =>
    rw [failure?_of_opens hopens]
    intro hwhole
    exact not_halts_of_whole hwhole hvisit (.link hentry hshown hlocate hthere)

/-- If every directory the walk comes to may be listed, it fails in an unguarded way. -/
theorem Unguarded.escapes (h : Unguarded fs settings recursive root f)
    (hlisted : ∀ first s, Opens fs root first → Visits settings recursive first s →
      s.loc ∉ fs.denied) :
    ∃ f', failure? fs settings recursive root = some f' ∧
      Unguarded fs settings recursive root f' := by
  obtain ⟨f', hf'⟩ := Option.ne_none_iff_exists'.1 h.fails
  refine ⟨f', hf', ?_⟩
  cases h with
  | longRoot hnul hlong =>
    have hself : f' = .system .nameTooLong (Spelling.clean root) := by
      simpa [failure?, enumerate, FileSystem.reach, hnul, hlong, eq_comm] using hf'
    rw [hself]
    exact .longRoot hnul hlong
  | link hopens _ _ _ _ _ =>
    rw [failure?_of_opens hopens] at hf'
    obtain ⟨s, hvisit, hhalts⟩ := halts_of_cut hf'
    cases hhalts with
    | denied hdenied => exact absurd hdenied (hlisted _ _ hopens hvisit)
    | link hentry hshown hlocate hthere =>
      exact .link hopens hvisit hentry hshown hlocate hthere

/-- A walk ends well or with a fault of the file system family, unless the root has too long a name
or a visible link on the way can neither be followed nor counts as dangling. Those come out as
refusals of the operating system: always if all directories on the way may be listed, and
otherwise unless a denied one is met first. -/
theorem failures_of_walks (fs : FileSystem) (settings : ScannerSettings) (recursive : Bool)
    (root : Text) :
    (∀ f, failure? fs settings recursive root = some f →
      f.isFileSystem = true ∨ Unguarded fs settings recursive root f) ∧
    ∀ f, Unguarded fs settings recursive root f →
      f.isFileSystem = false ∧ failure? fs settings recursive root ≠ none ∧
      ((∀ first s, Opens fs root first → Visits settings recursive first s → s.loc ∉ fs.denied) →
        ∃ f', failure? fs settings recursive root = some f' ∧
          Unguarded fs settings recursive root f') := by
  constructor
  · intro f hf
    exact failure?_cases hf
  · intro f hf
    exact ⟨hf.not_isFileSystem, hf.fails, hf.escapes⟩

/-- A directory with one link in it. -/
def linkIn (target : Text) : FileSystem :=
  ⟨.dir [("src".toList, .dir [("l.php".toList, .link target)]), ("a".toList, .file [])], [], [], []⟩

/-- A link to itself, a link through a file and a name of three hundred letters come out as
refusals of the operating system; a dangling link does not matter. -/
theorem refusals_escape :
    (failure? (linkIn "l.php".toList) {} true "src".toList).bind Failure.message? =
        some "[Errno 40] Too many levels of symbolic links: 'src/l.php'".toList ∧
      (failure? (linkIn "../a/b".toList) {} true "src".toList).bind Failure.message? =
        some "[Errno 20] Not a directory: 'src/l.php'".toList ∧
      (failure? (linkIn "b".toList) {} true (List.replicate 300 'x')).map Failure.isFileSystem =
        some false ∧
      (failure? (linkIn "b".toList) {} true "src".toList).isNone = true := by
  decide +kernel

end Walk
end ClassCensus
