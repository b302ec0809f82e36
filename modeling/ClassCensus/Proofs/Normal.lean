import ClassCensus.Proofs.Canonical
import ClassCensus.Proofs.Listing

/-!
# ClassCensus.Proofs.Normal

Canonical paths are in normal form: absolute, without idle or double dots, with no link among the
places they go through, and their own canonical paths. All it takes of a path is that replacing its
links meets no loop; what the other links of the tree do has no part in it.

That a replacement meets no loop is what its outcome says. `traceLinks_settles` reads off such an
outcome where the names settle: every link that was replaced has come to an end of its own, so the
replacement itself is a derivation of `Settles`.
-/

namespace ClassCensus

/-- The replacement of links has met a loop. -/
def Trace.isLooped : Trace → Bool
  | .looped _ => true
  | _ => false

namespace FileSystem

variable {fs : FileSystem}

/-- One round of replacing links that meets no loop, if the replacement of each link does so. -/
theorem trace_settles (hwell : fs.tree.wellNamed = true) {seen : List Route}
    {expand : Route → Route → Text → Trace}
    (hexpand : ∀ {link r here name target}, Routed fs r here →
      fs.tree.linkAt? (here ++ [name]) = some target → (expand link r target).isLooped = false →
      ∃ r' k there, expand link r target = .reached r' ∧ Routed fs r' there ∧
        Settles fs.tree k (start here target) (Text.pieces '/' target) there)
    {names : List Text} (hnames : ∀ name ∈ names, '/' ∉ name ∧ '\x00' ∉ name) {r : Route}
    {here : Location} (hr : Routed fs r here)
    (hloop : (trace fs seen expand r names).isLooped = false) :
    ∃ r' k there, trace fs seen expand r names = .reached r' ∧ Routed fs r' there ∧
      Settles fs.tree k here names there := by
  induction names generalizing r here with
  | nil => exact ⟨r, 0, here, rfl, hr, .done here⟩
  | cons name names ih =>
    obtain ⟨⟨hslash, hnul⟩, hrest⟩ := List.forall_mem_cons.1 hnames
    by_cases hidle : Spelling.isIdle name = true
    · rw [trace_stay hidle] at hloop ⊢
      obtain ⟨r', k, there, hend, hr', hway⟩ := ih hrest hr hloop
      exact ⟨r', k, there, hend, hr', .stay hidle hway⟩
    by_cases hup : name = Spelling.dotDot
    · subst hup
      rw [trace_up] at hloop ⊢
      obtain ⟨r', k, there, hend, hr', hway⟩ := ih hrest hr.up hloop
      exact ⟨r', k, there, hend, hr', .up hway⟩
    have hname : Proper name := ⟨by simpa using hidle, hup, hslash, hnul⟩
    have htext := (hr.text_down hname).2.1
    have hread := hr.readLink? hwell hname
    cases hlink : fs.tree.linkAt? (here ++ [name]) with
    | none =>
      rw [trace_down hname htext (hread.trans hlink)] at hloop ⊢
      obtain ⟨r', k, there, hend, hr', hway⟩ := ih hrest (hr.down hname hlink) hloop
      exact ⟨r', k, there, hend, hr', .down hname hlink hway⟩
    | some target =>
      rw [hlink] at hread
      have hseen : r.down name ∉ seen := by
        intro hseen
        simp [trace, hname.notIdle, hname.notUp, htext, hread, hseen, Trace.isLooped] at hloop
      have hinner : (expand (r.down name) r target).isLooped = false := by
        cases hend : expand (r.down name) r target with
        | looped p =>
          simp [trace, hname.notIdle, hname.notUp, htext, hread, hseen, hend, Trace.isLooped] at hloop
        | reached _ => rfl
        | nul => rfl
      obtain ⟨mid', j, mid, hreached, hmid, htarget⟩ := hexpand hr hlink hinner
      rw [trace_link hname htext hread hseen hreached] at hloop ⊢
      obtain ⟨r', k, there, hend, hr', hway⟩ := ih hrest hmid hloop
      exact ⟨r', j + k + 1, there, hend, hr', .link hname hlink htarget hway⟩

/-- If replacing links meets no loop, the names settle. -/
theorem traceLinks_settles (hwell : fs.tree.wellNamed = true)
    (htargets : ∀ loc target, fs.tree.linkAt? loc = some target → '\x00' ∉ target) {depth : Nat}
    {seen : List Route} {names : List Text} (hnames : ∀ name ∈ names, '/' ∉ name ∧ '\x00' ∉ name)
    {r : Route} {here : Location} (hr : Routed fs r here)
    (hloop : (traceLinks fs depth seen r names).isLooped = false) :
    ∃ r' k there, traceLinks fs depth seen r names = .reached r' ∧ Routed fs r' there ∧
      Settles fs.tree k here names there := by
  induction depth generalizing seen names r here with
  | zero =>
    exact trace_settles hwell (fun _ _ hinner => absurd hinner (by simp [Trace.isLooped])) hnames hr
      hloop
  | succ depth ih =>
    refine trace_settles hwell (fun hr hlink hinner => ih (fun p hp => ?_) (hr.base _) hinner) hnames
      hr hloop
    exact ⟨fun hslash => (Text.mem_pieces hp hslash).2 rfl,
      fun hnul => htargets _ _ hlink (Text.mem_pieces hp hnul).1⟩

/-- The names of a path settle exactly if replacing its links meets no loop. -/
theorem exists_settles_iff (hwell : fs.tree.wellNamed = true)
    (htargets : ∀ loc target, fs.tree.linkAt? loc = some target → '\x00' ∉ target) {path : Text}
    {entries : List (Text × Tree)}
    (hdir : fs.tree.at? (start fs.cwd path) = some (.dir entries)) (hnul : '\x00' ∉ path) :
    (∃ k there, Settles fs.tree k (start fs.cwd path) (Text.pieces '/' path) there) ↔
      (fs.follow path).isLooped = false := by
  constructor
  · rintro ⟨k, there, hsettles⟩
    obtain ⟨r, -, hfollow⟩ := follow_of_settles hwell hdir (List.append_nil _).symm hsettles
    rw [hfollow, traceLinks_nil]
    rfl
  · intro hloop
    have hnames : ∀ name ∈ Text.pieces '/' path, '/' ∉ name ∧ '\x00' ∉ name := fun name hname =>
      ⟨fun hslash => (Text.mem_pieces hname hslash).2 rfl,
        fun hmem => hnul (Text.mem_pieces hname hmem).1⟩
    obtain ⟨-, k, there, -, -, hsettles⟩ :=
      traceLinks_settles hwell htargets hnames (routed_base hdir) hloop
    exact ⟨k, there, hsettles⟩

/-- No link stands at the path of a place that none stands on the way to. -/
theorem readLink?_pathOf (hwell : fs.tree.wellNamed = true)
    (hroot : ∃ entries, fs.tree.at? [] = some (.dir entries)) {loc : Location}
    (hclear : Clear fs.tree loc) (hnames : ∀ name ∈ loc, Proper name) :
    fs.readLink? (pathOf loc) = none := by
  rcases List.eq_nil_or_concat loc with rfl | ⟨front, last, rfl⟩
  · obtain ⟨entries, hroot⟩ := hroot
    have hidles : ∀ name ∈ [([] : Text), []], Spelling.isIdle name = true := by decide
    have hresolve : resolve fs.strays fs.tree false linkLimit [] [[], []] = .ok [] := by
      obtain ⟨onLink, hopen⟩ := resolve_open fs.strays fs.tree false linkLimit
      rw [hopen]
      exact descend_idle hroot hidles []
    have hlocate : fs.locate false (pathOf []) = .ok [] := hresolve
    simp [readLink?, hlocate, hroot]
  · rw [List.concat_eq_append] at *
    have hproper := List.forall_mem_append.1 hnames
    have hfront : Routed fs ⟨true, front⟩ front := by
      refine ⟨⟨0, front, rfl, fun _ => rfl, hproper.1, rfl⟩, ?_, hroot⟩
      simpa using hclear.dropLast
    have hread := hfront.readLink? hwell (hproper.2 last (by simp))
    exact hread.trans hclear.linkAt?

/-- Neither names nor targets of links hold a backslash, and replacing the links of a path meets no
loop. Then its canonical path is absolute, each of its parts is a name, no link stands at it or
above it, it leads to where the path leads if that leads anywhere, and it is its own canonical
path. -/
theorem canonical_path_is_normal (htidy : fs.Tidy)
    (htargets : ∀ loc target, fs.tree.linkAt? loc = some target → '\x00' ∉ target) {path : Text}
    (hnul : '\x00' ∉ path) (hloop : (fs.follow (Spelling.slashed path)).isLooped = false) :
    ∃ p parts, fs.canonical path = .ok p ∧ p = '/' :: Text.join ['/'] parts ∧
      (∀ part ∈ parts, part ≠ [] ∧ part ≠ Spelling.dot ∧ part ≠ Spelling.dotDot ∧ '/' ∉ part) ∧
      (∀ front, front <+: parts → fs.readLink? ('/' :: Text.join ['/'] front) = none) ∧
      (∀ loc, fs.locate true path = .ok loc → fs.locate true p = .ok loc) ∧
      fs.canonical p = .ok p := by
  have hwell := htidy.wellNamed
  obtain ⟨entries, hdir⟩ := htidy.start_dir (Spelling.slashed path)
  have hwritten : '\x00' ∉ Spelling.slashed path := by
    intro hmem
    rcases Spelling.mem_slashed hmem with hmem | hmem
    · cases hmem
    · exact hnul hmem
  obtain ⟨k, parts, hsettles⟩ := (exists_settles_iff hwell htargets hdir hwritten).2 hloop
  obtain ⟨hcanonical, hclear, hparts⟩ := htidy.canonical_of_settles hsettles
  refine ⟨pathOf parts, parts, hcanonical, rfl, fun part hpart => ?_, fun front hfront => ?_,
    fun loc hlocate => ?_, htidy.canonical_pathOf hclear hparts⟩
  · obtain ⟨hproper, -⟩ := hparts part hpart
    have hidle := hproper.notIdle
    simp only [Spelling.isIdle, Bool.or_eq_false_iff, beq_eq_false_iff_ne] at hidle
    exact ⟨by simpa using hidle.1, hidle.2, hproper.notUp, hproper.noSlash⟩
  · exact readLink?_pathOf hwell (Tree.root_of_at? hdir)
      (fun above habove => hclear above (habove.trans hfront))
      fun name hname => (hparts name (hfront.subset hname)).1
  · -- a path that leads somewhere has no backslash, so it is looked up as it is written
    have hplain : '\\' ∉ path := not_mem_of_locate (by decide) (by decide)
      (fun _ _ hat _ hname => Tree.noBackslash_at? htidy.noBackslash hat hname) hlocate
    have hsame := canonical_of_locate hwell htidy.noBackslash hplain hlocate
    rw [Except.ok.inj (hcanonical.symm.trans hsame)]
    exact locate_pathOf hwell hlocate

/-- A link out of the directory, a link to a file by way of it, and a link to itself. -/
def crossedFiles : FileSystem :=
  ⟨.dir [("w".toList, .dir
    [("a".toList, .dir [("f".toList, .file []), ("sub".toList, .dir [])]),
      ("k".toList, .link "l/.././f".toList), ("l".toList, .link "/w/a/sub".toList),
      ("loop".toList, .link "loop".toList)])], [], ["w".toList], []⟩

/-- Two links are replaced, one of them inside the other, and the double dots go up from where the
link leads. -/
theorem crossed_path_is_normal :
    crossedFiles.canonical "l/../..//k".toList = .ok "/w/a/f".toList ∧
      crossedFiles.locate true "/w/a/f".toList = crossedFiles.locate true "l/../..//k".toList ∧
      crossedFiles.canonical "/w/a/f".toList = .ok "/w/a/f".toList := by
  have hlinks : ∀ l ∈ crossedFiles.tree.linkList, '\\' ∉ l.2 ∧ '\x00' ∉ l.2 := by decide +kernel
  have hplain : ∀ loc target, crossedFiles.tree.linkAt? loc = some target →
      '\\' ∉ target ∧ '\x00' ∉ target := fun loc target hlink =>
    hlinks _ (Tree.mem_linkList (Tree.linkAt?_eq_some.1 hlink))
  have htidy : crossedFiles.Tidy := ⟨by decide +kernel, by decide +kernel,
    fun loc target hlink => (hplain loc target hlink).1, _, rfl⟩
  obtain ⟨p, parts, hcanonical, -, -, -, hleads, hagain⟩ :=
    @canonical_path_is_normal crossedFiles htidy (fun loc target hlink => (hplain loc target hlink).2)
      "l/../..//k".toList (by decide) (by decide +kernel)
  have hlocate : crossedFiles.locate true "l/../..//k".toList =
      .ok ["w".toList, "a".toList, "f".toList] := by decide +kernel
  have hp : crossedFiles.canonical "l/../..//k".toList = .ok "/w/a/f".toList :=
    Listing.eq_of_toOption (by decide +kernel)
  cases hcanonical.symm.trans hp
  exact ⟨hp, (hleads _ hlocate).trans hlocate.symm, hagain⟩

end FileSystem
end ClassCensus
