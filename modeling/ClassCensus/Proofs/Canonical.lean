import ClassCensus.Files.Access
import ClassCensus.Proofs.Settling

/-!
# ClassCensus.Proofs.Canonical

The real path of a path whose names settle is the path of the place where they settle. Replacing
links name by name keeps to the way by which the names settle: the route built so far leads to
where they have come. The links being replaced are at different places, since none of them can be
met again on its own way (`Nested`), so there is depth enough for all of them.

A path that leads somewhere settles there, and its canonical path leads there too
(`canonical_of_locate`, `locate_pathOf`). Where no backslash is about, the canonical path of a path
whose names settle is that of a place without links on the way (`Tidy.canonical_of_settles`). In an
orderly file system all names settle, so every canonical path is its own canonical path
(`Orderly.canonical_canonical`).
-/

namespace ClassCensus
namespace FileSystem

/-! ## Replacing links -/

section

variable {fs : FileSystem} {seen : List Route} {expand : Route → Route → Text → Trace}
  {r : Route} {name : Text}

theorem trace_stay (hidle : Spelling.isIdle name = true) (rest : List Text) :
    trace fs seen expand r (name :: rest) = trace fs seen expand r rest := by
  rw [trace, if_pos hidle]

theorem trace_up (rest : List Text) :
    trace fs seen expand r (Spelling.dotDot :: rest) = trace fs seen expand r.up rest := by
  have hidle : Spelling.isIdle Spelling.dotDot = false := by decide
  simp [trace, hidle]

theorem trace_down (hname : Proper name) (hnul : '\x00' ∉ (r.down name).text)
    (hread : fs.readLink? (r.down name).text = none) (rest : List Text) :
    trace fs seen expand r (name :: rest) = trace fs seen expand (r.down name) rest := by
  simp [trace, hname.notIdle, hname.notUp, hnul, hread]

theorem trace_link {target : Text} {there : Route} (hname : Proper name)
    (hnul : '\x00' ∉ (r.down name).text) (hread : fs.readLink? (r.down name).text = some target)
    (hseen : r.down name ∉ seen) (hexpand : expand (r.down name) r target = .reached there)
    (rest : List Text) :
    trace fs seen expand r (name :: rest) = trace fs seen expand there rest := by
  simp [trace, hname.notIdle, hname.notUp, hnul, hread, hseen, hexpand]

theorem trace_nul (hnul : '\x00' ∈ name) (rest : List Text) :
    trace fs seen expand r (name :: rest) = .nul := by
  have hidle : ¬ Spelling.isIdle name = true := fun hidle =>
    absurd (Spelling.mem_of_isIdle hidle hnul) (by decide)
  have hup : name ≠ Spelling.dotDot := by
    rintro rfl
    exact absurd hnul (by decide)
  have htext : '\x00' ∈ (r.down name).text := by
    have hpart : name ∈ r.parts ++ [name] := by simp
    exact List.mem_append_right _ (Text.mem_join_of_mem ['/'] hpart hnul)
  simp [trace, hidle, hup, htext]

end

/-- The route is that of a link whose own way takes at least `k` links. -/
def Busy (fs : FileSystem) (k : Nat) (r : Route) : Prop :=
  ∃ target j mid, fs.tree.linkAt? (r.location fs.cwd) = some target ∧
    Settles fs.tree j (start (r.location fs.cwd).dropLast target) (Text.pieces '/' target) mid ∧
    k ≤ j

/-- Links at different places are being replaced, and `k` more are to come. -/
structure Nested (fs : FileSystem) (k : Nat) (seen : List Route) : Prop where
  busy : ∀ s ∈ seen, Busy fs k s
  distinct : (seen.map (Route.location fs.cwd)).Nodup

namespace Nested

variable {fs : FileSystem} {j k : Nat} {seen : List Route}

theorem mono (h : Nested fs k seen) (hj : j ≤ k) : Nested fs j seen := by
  refine ⟨fun s hs => ?_, h.distinct⟩
  obtain ⟨target, i, mid, hlink, hway, hi⟩ := h.busy s hs
  exact ⟨target, i, mid, hlink, hway, by omega⟩

/-- A link that is met while others are being replaced is none of them: on its own way it would
take fewer links than it does. -/
theorem push {r : Route} {target : Text} {mid : Location} (h : Nested fs k seen)
    (hlink : fs.tree.linkAt? (r.location fs.cwd) = some target)
    (hway : Settles fs.tree j (start (r.location fs.cwd).dropLast target)
      (Text.pieces '/' target) mid) (hj : j < k) :
    r ∉ seen ∧ Nested fs j (r :: seen) := by
  have hfresh : r.location fs.cwd ∉ seen.map (Route.location fs.cwd) := by
    intro hmem
    obtain ⟨s, hs, hsame⟩ := List.mem_map.1 hmem
    obtain ⟨target', j', mid', hlink', hway', hj'⟩ := h.busy s hs
    rw [hsame] at hlink' hway'
    cases hlink.symm.trans hlink'
    have hcount := (hway.unique hway').1
    omega
  refine ⟨fun hs => hfresh (List.mem_map_of_mem hs), fun s hs => ?_,
    List.nodup_cons.2 ⟨hfresh, h.distinct⟩⟩
  rcases List.mem_cons.1 hs with rfl | hs
  · exact ⟨target, j, mid, hlink, hway, by omega⟩
  · exact (h.mono (by omega)).busy s hs

theorem length_le (h : Nested fs k seen) : seen.length ≤ fs.tree.links := by
  rw [← List.length_map (Route.location fs.cwd)]
  refine Tree.length_le_links h.distinct fun loc hmem => ?_
  obtain ⟨s, hs, rfl⟩ := List.mem_map.1 hmem
  obtain ⟨target, -, -, hlink, -, -⟩ := h.busy s hs
  exact ⟨target, Tree.linkAt?_eq_some.1 hlink⟩

end Nested

/-- However deep links may be nested, a route is followed name by name. -/
theorem traceLinks_open (fs : FileSystem) (depth : Nat) (seen : List Route) :
    ∃ expand, traceLinks fs depth seen = trace fs seen expand ∧
      ∀ d, depth = d + 1 → expand = fun link here target =>
        traceLinks fs d (link :: seen) (Route.base here target) (Text.pieces '/' target) := by
  cases depth with
  | zero => exact ⟨_, rfl, by simp⟩
  | succ d => exact ⟨_, rfl, by rintro _ ⟨⟩; rfl⟩

theorem traceLinks_nil (fs : FileSystem) (depth : Nat) (seen : List Route) (r : Route) :
    traceLinks fs depth seen r [] = .reached r := by
  cases depth <;> rfl

/-- The empty path and the dot both mean the current directory. -/
theorem canonical_dot (fs : FileSystem) : fs.canonical Spelling.dot = fs.canonical [] := by
  have hfollow : fs.follow Spelling.dot = fs.follow [] := by
    obtain ⟨expand, hexp, -⟩ := traceLinks_open fs fs.traceDepth []
    have hdot : Text.pieces '/' Spelling.dot = [Spelling.dot] := rfl
    have hnil : Text.pieces '/' [] = [[]] := rfl
    rw [follow, follow, hexp, hdot, hnil, trace_stay (by decide), trace_stay (by decide)]
    rfl
  have hslashed : Spelling.slashed Spelling.dot = Spelling.dot := by decide
  have hempty : Spelling.slashed [] = [] := rfl
  simp only [canonical, canonical?, realPath?, hslashed, hempty, hfollow]

/-- Links nested less deep than the tree has links are replaced along the way by which the names
settle. -/
theorem traceLinks_of_settles {fs : FileSystem} (hwell : fs.tree.wellNamed = true) {k : Nat}
    {here there : Location} {names : List Text} (h : Settles fs.tree k here names there) :
    ∀ (depth : Nat) (seen : List Route) (r : Route), Routed fs r here → Nested fs k seen →
      fs.tree.links ≤ depth + seen.length →
      ∃ r', Routed fs r' there ∧
        ∀ rest, traceLinks fs depth seen r (names ++ rest) = traceLinks fs depth seen r' rest := by
  induction h with
  | done here =>
    intro depth seen r hr _ _
    exact ⟨r, hr, fun rest => rfl⟩
  | stay hidle _ ih =>
    intro depth seen r hr hnested hdepth
    obtain ⟨expand, hexp, -⟩ := traceLinks_open fs depth seen
    obtain ⟨r', hr', hrest⟩ := ih depth seen r hr hnested hdepth
    refine ⟨r', hr', fun rest => ?_⟩
    rw [List.cons_append, hexp, trace_stay hidle, ← hexp, hrest]
  | up _ ih =>
    intro depth seen r hr hnested hdepth
    obtain ⟨expand, hexp, -⟩ := traceLinks_open fs depth seen
    obtain ⟨r', hr', hrest⟩ := ih depth seen r.up hr.up hnested hdepth
    refine ⟨r', hr', fun rest => ?_⟩
    rw [List.cons_append, hexp, trace_up, ← hexp, hrest]
  | @down _ here _ name _ hname hlink _ ih =>
    intro depth seen r hr hnested hdepth
    obtain ⟨expand, hexp, -⟩ := traceLinks_open fs depth seen
    obtain ⟨r', hr', hrest⟩ := ih depth seen (r.down name) (hr.down hname hlink) hnested hdepth
    have hread : fs.readLink? (r.down name).text = none := (hr.readLink? hwell hname).trans hlink
    refine ⟨r', hr', fun rest => ?_⟩
    rw [List.cons_append, hexp, trace_down hname (hr.text_down hname).2.1 hread, ← hexp, hrest]
  | @link i j here mid there name target names hname hlink htarget _ ihtarget ih =>
    intro depth seen r hr hnested hdepth
    obtain ⟨expand, hexp, hsucc⟩ := traceLinks_open fs depth seen
    have hloc := hr.location_down hname
    have hlink' : fs.tree.linkAt? ((r.down name).location fs.cwd) = some target := by
      rw [hloc]
      exact hlink
    have hway : Settles fs.tree i (start ((r.down name).location fs.cwd).dropLast target)
        (Text.pieces '/' target) mid := by
      rw [hloc, List.dropLast_concat]
      exact htarget
    obtain ⟨hseen, hinner⟩ := hnested.push hlink' hway (by omega)
    -- the link itself shows that there is a place left for it
    have hroom := hinner.length_le
    rw [List.length_cons] at hroom
    obtain ⟨d, rfl⟩ : ∃ d, depth = d + 1 := ⟨depth - 1, by omega⟩
    obtain ⟨mid', hmid, hreached⟩ := ihtarget d (r.down name :: seen) (r.base target)
      (hr.base target) hinner (by rw [List.length_cons]; omega)
    have hread : fs.readLink? (r.down name).text = some target :=
      (hr.readLink? hwell hname).trans hlink
    have hexpand : expand (r.down name) r target = .reached mid' := by
      have hend := hreached []
      rw [List.append_nil, traceLinks_nil] at hend
      rw [hsucc d rfl]
      exact hend
    obtain ⟨r', hr', hrest⟩ := ih (d + 1) seen mid' hmid (hnested.mono (by omega)) hdepth
    refine ⟨r', hr', fun rest => ?_⟩
    rw [List.cons_append, hexp, trace_link hname (hr.text_down hname).2.1 hread hseen hexpand,
      ← hexp, hrest]

/-! ## Real paths -/

variable {fs : FileSystem} {path : Text} {loc : Location}

theorem links_le_traceDepth (fs : FileSystem) : fs.tree.links ≤ fs.traceDepth := by
  unfold traceDepth
  calc fs.tree.links ≤ fs.tree.links + 1 := Nat.le_succ _
    _ ≤ (fs.tree.links + 1) * (fs.cwd.length + 2) := Nat.le_mul_of_pos_right _ (by omega)

/-- The route that a path starts from. -/
theorem routed_base {entries : List (Text × Tree)}
    (hdir : fs.tree.at? (start fs.cwd path) = some (.dir entries)) :
    Routed fs (Route.base ⟨false, []⟩ path) (start fs.cwd path) := by
  have hclear : Clear fs.tree (start fs.cwd path) := .of_at? hdir (by simp)
  rw [Route.base_eq]
  rw [start_eq] at hdir hclear ⊢
  split at hdir
  · rename_i hrelative
    rw [if_pos hrelative] at hclear ⊢
    rw [if_pos hrelative]
    exact ⟨⟨0, [], rfl, fun _ => rfl, by simp, by simp [Route.origin]⟩, hclear, entries, hdir⟩
  · rename_i hrooted
    rw [if_neg hrooted] at hclear ⊢
    rw [if_neg hrooted]
    exact .root ⟨entries, hdir⟩ hclear.linkAt?

/-- After names that settle the rest of a path is followed from where they settle. -/
theorem follow_of_settles (hwell : fs.tree.wellNamed = true) {entries : List (Text × Tree)}
    (hdir : fs.tree.at? (start fs.cwd path) = some (.dir entries)) {names rest : List Text}
    (hpieces : Text.pieces '/' path = names ++ rest) {k : Nat}
    (h : Settles fs.tree k (start fs.cwd path) names loc) :
    ∃ r, Routed fs r loc ∧ fs.follow path = traceLinks fs fs.traceDepth [] r rest := by
  obtain ⟨r, hr, hrest⟩ := traceLinks_of_settles hwell h fs.traceDepth [] _ (routed_base hdir)
    ⟨by simp, by simp⟩ (by simpa using fs.links_le_traceDepth)
  exact ⟨r, hr, by rw [follow, hpieces, hrest]⟩

theorem realPath?_of_settles (hwell : fs.tree.wellNamed = true) {entries : List (Text × Tree)}
    (hdir : fs.tree.at? (start fs.cwd path) = some (.dir entries)) {k : Nat}
    (h : Settles fs.tree k (start fs.cwd path) (Text.pieces '/' path) loc) :
    fs.realPath? path = some (pathOf loc) := by
  obtain ⟨r, hr, hfollow⟩ := follow_of_settles hwell hdir (List.append_nil _).symm h
  rw [traceLinks_nil] at hfollow
  simp only [realPath?, hfollow, hr.location]

theorem realPath?_of_nul (hwell : fs.tree.wellNamed = true) {entries : List (Text × Tree)}
    (hdir : fs.tree.at? (start fs.cwd path) = some (.dir entries)) (hloops : NoLoops fs.tree)
    (hnul : '\x00' ∈ path) : fs.realPath? path = none := by
  obtain ⟨p, hp, hmem⟩ := Text.exists_mem_pieces hnul (by decide : '\x00' ≠ '/')
  -- the names before the first one with a NUL settle
  have hfind : ((Text.pieces '/' path).find? (·.contains '\x00')).isSome := by
    rw [List.find?_isSome]
    exact ⟨p, hp, by simpa using hmem⟩
  obtain ⟨bad, hbad⟩ := Option.isSome_iff_exists.1 hfind
  obtain ⟨hbad, names, rest, hpieces, hnames⟩ := List.find?_eq_some_iff_append.1 hbad
  obtain ⟨k, mid, hsettles⟩ := hloops.exists_settles names
    (fun name hname hslash =>
      (Text.mem_pieces (hpieces ▸ List.mem_append_left _ hname) hslash).2 rfl)
    (fun name hname => by simpa using hnames name hname) (start fs.cwd path)
  obtain ⟨r, -, hfollow⟩ := follow_of_settles hwell hdir hpieces hsettles
  obtain ⟨expand, hexp, -⟩ := traceLinks_open fs fs.traceDepth []
  rw [hexp, trace_nul (by simpa using hbad)] at hfollow
  simp only [realPath?, hfollow]

/-- The names of a place are the pieces of its path, with idle ones before them. -/
theorem pieces_pathOf (h : ∀ name ∈ loc, '/' ∉ name) :
    ∃ idles, (∀ p ∈ idles, Spelling.isIdle p = true) ∧
      Text.pieces '/' (pathOf loc) = idles ++ loc := by
  by_cases hnil : loc = []
  · subst hnil
    exact ⟨[[], []], by decide, by decide⟩
  · exact ⟨[[]], by decide, by simpa [pathOf, Text.pieces] using Text.pieces_join hnil h⟩

theorem not_mem_pathOf (h : ∀ name ∈ loc, '\\' ∉ name) : '\\' ∉ pathOf loc := by
  intro hmem
  rcases List.mem_cons.1 hmem with hmem | hmem
  · cases hmem
  · rcases Text.mem_join hmem with hmem | ⟨name, hname, hmem⟩
    · cases List.mem_singleton.1 hmem
    · exact h name hname hmem

theorem slashed_pathOf (h : ∀ name ∈ loc, '\\' ∉ name) :
    Spelling.slashed (pathOf loc) = pathOf loc :=
  Spelling.slashed_eq_self (not_mem_pathOf h)

/-! ## Paths that lead somewhere -/

/-- A way that starts at something other than a link ends at such a thing. -/
theorem Leads.exists_at? {tree : Tree} {k : Nat} {here there : Location} {names : List Text}
    (h : Leads tree k here names there) {t : Tree}
    (hat : tree.at? here = some t) (hlink : ∀ target, t ≠ .link target) :
    ∃ t', tree.at? there = some t' ∧ ∀ target, t' ≠ .link target := by
  induction h generalizing t with
  | done here => exact ⟨t, hat, hlink⟩
  | stay hdir hidle _ ih => exact ih hat hlink
  | up hdir _ ih =>
    obtain ⟨entries', hdir'⟩ := Tree.dir_dropLast hdir
    exact ih hdir' (by simp)
  | down hdir hname hget hlink' _ ih => exact ih (Tree.at?_snoc hdir hget) hlink'
  | @link _ _ here _ _ _ target _ entries hdir hname hget htarget _ ihtarget ih =>
    obtain ⟨entries', hstart⟩ := htarget.isDir (Text.pieces_ne_nil '/' target)
    obtain ⟨t', ht', hlink'⟩ := ihtarget hstart (by simp)
    exact ih ht' hlink'

/-- A name on a way that leads somewhere is a dot, a double dot, or the name of an entry. -/
theorem Leads.not_mem {c : Char} (hdot : c ≠ '.')
    (hkeys : ∀ loc entries, fs.tree.at? loc = some (.dir entries) → ∀ name ∈ Table.keys entries,
      c ∉ name) {k : Nat} {here there : Location} {names : List Text}
    (h : Leads fs.tree k here names there) : ∀ p ∈ names, c ∉ p := by
  have hentry : ∀ {loc entries name t}, fs.tree.at? loc = some (.dir entries) →
      Table.get? entries name = some t → c ∉ name := fun hdir hget =>
    hkeys _ _ hdir _ (Table.mem_keys_of_mem (Table.mem_of_get? hget))
  induction h with
  | done here => simp
  | @stay _ _ _ name _ _ hdir hidle _ ih =>
    have hname : c ∉ name := fun hmem => hdot (Spelling.mem_of_isIdle hidle hmem)
    exact List.forall_mem_cons.2 ⟨hname, ih⟩
  | up _ _ ih => exact List.forall_mem_cons.2 ⟨by simpa [Spelling.dotDot] using hdot, ih⟩
  | down hdir _ hget _ _ ih => exact List.forall_mem_cons.2 ⟨hentry hdir hget, ih⟩
  | link hdir _ hget _ _ _ ih => exact List.forall_mem_cons.2 ⟨hentry hdir hget, ih⟩

/-- A path that leads somewhere has no character that is in no name. -/
theorem not_mem_of_locate {c : Char} (hdot : c ≠ '.') (hslash : c ≠ '/')
    (hkeys : ∀ loc entries, fs.tree.at? loc = some (.dir entries) → ∀ name ∈ Table.keys entries,
      c ∉ name) (h : fs.locate true path = .ok loc) : c ∉ path := by
  obtain ⟨-, k, -, hleads⟩ := locate_eq_ok.1 h
  intro hmem
  obtain ⟨p, hp, hmem⟩ := Text.exists_mem_pieces hmem hslash
  exact hleads.not_mem hdot hkeys p hp hmem

theorem realPath?_of_locate (hnames : fs.tree.wellNamed = true)
    (h : fs.locate true path = .ok loc) : fs.realPath? path = some (pathOf loc) := by
  obtain ⟨-, k, -, hleads⟩ := locate_eq_ok.1 h
  obtain ⟨entries, hdir⟩ := hleads.isDir (Text.pieces_ne_nil '/' path)
  exact realPath?_of_settles hnames hdir (hleads.settles hnames)

/-- Every name on the way to a place is the name of an entry. -/
theorem mem_of_at? {t : Tree} {p : Text → Prop}
    (hp : ∀ loc entries, fs.tree.at? loc = some (.dir entries) → ∀ name ∈ Table.keys entries, p name)
    (h : fs.tree.at? loc = some t) : ∀ name ∈ loc, p name := by
  induction loc using List.reverseRecOn generalizing t with
  | nil => simp
  | append_singleton front last ih =>
    obtain ⟨entries, hdir, hget⟩ := Tree.dir_of_at?_snoc h
    intro name hname
    rcases List.mem_append.1 hname with hname | hname
    · exact ih hdir name hname
    · rw [List.mem_singleton.1 hname]
      exact hp front entries hdir last (Table.mem_keys_of_mem (Table.mem_of_get? hget))

theorem proper_of_at? (hnames : fs.tree.wellNamed = true) {t : Tree}
    (hat : fs.tree.at? loc = some t) : ∀ name ∈ loc, Proper name :=
  mem_of_at? (fun _ _ hdir name hname =>
    proper_of_isName ((Tree.wellNamed_at? hnames hdir).2 name hname)) hat

theorem exists_at?_of_locate (h : fs.locate true path = .ok loc) :
    ∃ t, fs.tree.at? loc = some t ∧ ∀ target, t ≠ .link target := by
  obtain ⟨-, k, -, hleads⟩ := locate_eq_ok.1 h
  obtain ⟨entries, hdir⟩ := hleads.isDir (Text.pieces_ne_nil '/' path)
  exact hleads.exists_at? hdir (by simp)

theorem noBackslash_of_at? (hplain : fs.tree.noBackslash = true) {t : Tree}
    (hat : fs.tree.at? loc = some t) : ∀ name ∈ loc, '\\' ∉ name :=
  mem_of_at? (fun _ _ hdir _ hname => Tree.noBackslash_at? hplain hdir hname) hat

/-- The canonical path of a path that leads somewhere is the path of that place. -/
theorem canonical_of_locate (hnames : fs.tree.wellNamed = true) (hplain : fs.tree.noBackslash = true)
    (hpath : '\\' ∉ path) (h : fs.locate true path = .ok loc) :
    fs.canonical path = .ok (pathOf loc) := by
  obtain ⟨t, hat, -⟩ := exists_at?_of_locate h
  simp only [canonical, canonical?, Spelling.slashed_eq_self hpath, realPath?_of_locate hnames h,
    Option.map_some, slashed_pathOf (noBackslash_of_at? hplain hat)]

/-- A place that some path leads to is where its own path leads. -/
theorem locate_pathOf (hnames : fs.tree.wellNamed = true) (h : fs.locate true path = .ok loc) :
    fs.locate true (pathOf loc) = .ok loc := by
  obtain ⟨t, hat, hlink⟩ := exists_at?_of_locate h
  have hslash : ∀ name ∈ loc, '/' ∉ name := fun name hname =>
    (proper_of_at? hnames hat name hname).noSlash
  have hleads : Leads fs.tree 0 [] loc loc := by
    clear h hslash
    induction loc using List.reverseRecOn generalizing t with
    | nil => exact .done []
    | append_singleton front last ih =>
      obtain ⟨entries, hdir, hget, hlast⟩ := named_of_at? hnames hat
      exact (ih (.dir entries) hdir (by simp)).append (.down hdir hlast hget hlink (.done _))
  obtain ⟨-, k, -, hway⟩ := locate_eq_ok.1 h
  obtain ⟨entries, hdir⟩ := hway.isDir (Text.pieces_ne_nil '/' path)
  obtain ⟨entries, hroot⟩ := Tree.root_of_at? hdir
  obtain ⟨idles, hidles, hpieces⟩ := pieces_pathOf hslash
  refine locate_eq_ok.2 ⟨by simp [pathOf], 0, by omega, ?_⟩
  rw [hpieces]
  exact hleads.idle hroot hidles

/-! ## Tidy file systems -/

/-- Names can be looked up, neither names nor the targets of links hold a backslash, and the current
directory is there. -/
structure Tidy (fs : FileSystem) : Prop where
  wellNamed : fs.tree.wellNamed = true
  noBackslash : fs.tree.noBackslash = true
  plainLinks : ∀ loc target, fs.tree.linkAt? loc = some target → '\\' ∉ target
  home : ∃ entries, fs.tree.at? fs.cwd = some (.dir entries)

namespace Tidy

theorem start_dir (h : Tidy fs) (path : Text) :
    ∃ entries, fs.tree.at? (start fs.cwd path) = some (.dir entries) := by
  obtain ⟨entries, hdir⟩ := h.home
  rw [start_eq]
  split
  · exact ⟨entries, hdir⟩
  · exact Tree.root_of_at? hdir

/-- The canonical path of a path whose names settle is that of a place with no link on the way to
it. -/
theorem canonical_of_settles (h : Tidy fs) {k : Nat} {there : Location}
    (hsettles : Settles fs.tree k (start fs.cwd (Spelling.slashed path))
      (Text.pieces '/' (Spelling.slashed path)) there) :
    fs.canonical path = .ok (pathOf there) ∧ Clear fs.tree there ∧
      ∀ name ∈ there, Proper name ∧ '\\' ∉ name := by
  obtain ⟨entries, hdir⟩ := h.start_dir (Spelling.slashed path)
  -- names come from the current directory, the written path and the targets of links
  have hnames : ∀ name ∈ there, Proper name ∧ '\\' ∉ name := by
    refine hsettles.forall_mem (fun loc target hlink name hname hproper => ⟨hproper, fun hmem => ?_⟩)
      (fun name hname => ⟨proper_of_at? h.wellNamed hdir name hname, ?_⟩)
      (fun name hname hproper => ⟨hproper, fun hmem => ?_⟩)
    · exact h.plainLinks loc target hlink (Text.mem_pieces hname hmem).1
    · exact noBackslash_of_at? h.noBackslash hdir name hname
    · exact Spelling.not_mem_slashed path (Text.mem_pieces hname hmem).1
  refine ⟨?_, hsettles.clear (.of_at? hdir (by simp)), hnames⟩
  simp only [canonical, canonical?, realPath?_of_settles h.wellNamed hdir hsettles, Option.map_some,
    slashed_pathOf fun name hname => (hnames name hname).2]

/-- The path of a place with no link on the way to it is its own canonical path. -/
theorem canonical_pathOf (h : Tidy fs) {there : Location} (hclear : Clear fs.tree there)
    (hnames : ∀ name ∈ there, Proper name ∧ '\\' ∉ name) :
    fs.canonical (pathOf there) = .ok (pathOf there) := by
  obtain ⟨idles, hidles, hpieces⟩ := pieces_pathOf fun name hname => (hnames name hname).1.noSlash
  have hway : Settles fs.tree 0 [] there there :=
    .of_clear (fun name hname => (hnames name hname).1) hclear
  refine (h.canonical_of_settles (k := 0) ?_).1
  rw [slashed_pathOf fun name hname => (hnames name hname).2, hpieces]
  exact hway.idle hidles

end Tidy

/-! ## Orderly file systems -/

/-- Names can be looked up, neither names nor the targets of links hold a backslash, links do not
loop, and the current directory is there. -/
structure Orderly (fs : FileSystem) : Prop where
  wellNamed : fs.tree.wellNamed = true
  noBackslash : fs.tree.noBackslash = true
  plainLinks : ∀ loc target, fs.tree.linkAt? loc = some target → '\\' ∉ target
  noLoops : NoLoops fs.tree
  home : ∃ entries, fs.tree.at? fs.cwd = some (.dir entries)

namespace Orderly

theorem tidy (h : Orderly fs) : Tidy fs := ⟨h.wellNamed, h.noBackslash, h.plainLinks, h.home⟩

/-- The canonical path of anything is the path of a place with no link on the way to it. -/
theorem exists_place (h : Orderly fs) {p : Text} (hp : fs.canonical path = .ok p) :
    ∃ there, p = pathOf there ∧ Clear fs.tree there ∧ ∀ name ∈ there, Proper name ∧ '\\' ∉ name := by
  obtain ⟨entries, hdir⟩ := h.tidy.start_dir (Spelling.slashed path)
  have hnul : '\x00' ∉ Spelling.slashed path := by
    intro hnul
    have hnone := realPath?_of_nul h.wellNamed hdir h.noLoops hnul
    simp [canonical, canonical?, hnone] at hp
  obtain ⟨k, there, hsettles⟩ := h.noLoops.exists_settles (Text.pieces '/' (Spelling.slashed path))
    (fun name hname hslash => (Text.mem_pieces hname hslash).2 rfl)
    (fun name hname hmem => hnul (Text.mem_pieces hname hmem).1) (start fs.cwd _)
  obtain ⟨hcanonical, hplace⟩ := h.tidy.canonical_of_settles hsettles
  exact ⟨there, Except.ok.inj (hp.symm.trans hcanonical), hplace⟩

/-- A canonical path is its own canonical path. -/
theorem canonical_canonical (h : Orderly fs) {p : Text} (hp : fs.canonical path = .ok p) :
    fs.canonical p = .ok p := by
  obtain ⟨there, rfl, hclear, hnames⟩ := h.exists_place hp
  exact h.tidy.canonical_pathOf hclear hnames

end Orderly

end FileSystem
end ClassCensus
