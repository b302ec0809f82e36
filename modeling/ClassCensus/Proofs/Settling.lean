import ClassCensus.Files.Canonical
import ClassCensus.Proofs.Spelling
import ClassCensus.Proofs.Tree
import Mathlib.Data.List.Induction
import Mathlib.Logic.Function.Iterate

/-!
# ClassCensus.Proofs.Settling

Where names come to when links are replaced and the rest is taken by the letter, whether or not it
is there. `Settles tree k here names there` says so of names taken from `here`, with `k` links
replaced on the way, each along a way of its own. Names that lead somewhere settle there
(`Leads.settles`), and in a tree without loops all names settle (`NoLoops.exists_settles`).

Names that settle come to a place with no link on the way to it (`Clear`). Routes to such places
are what links are replaced along, and `Routed.readLink?` says that looking for a link by the text
of a route looks at the place.
-/

namespace ClassCensus

/-- Where a link leads. -/
def Tree.target? : Tree → Option Text
  | .link target => some target
  | _ => none

/-- Where the link at a location leads. -/
def Tree.linkAt? (t : Tree) (loc : Location) : Option Text := (t.at? loc).bind Tree.target?

theorem Tree.linkAt?_eq_some {t : Tree} {loc : Location} {target : Text} :
    t.linkAt? loc = some target ↔ t.at? loc = some (.link target) := by
  rw [linkAt?]
  cases t.at? loc with
  | none => simp
  | some s => cases s <;> simp [target?]

theorem Tree.linkAt?_eq_none {t : Tree} {loc : Location} :
    t.linkAt? loc = none ↔ ∀ target, t.at? loc ≠ some (.link target) := by
  simp only [Option.eq_none_iff_forall_ne_some, ne_eq, linkAt?_eq_some]

/-- Where a route is taken from. -/
def Route.origin (cwd : Location) (r : Route) : Location := if r.absolute then [] else cwd

theorem Route.base_eq (r : Route) (path : Text) :
    r.base path = if Spelling.anchorOf path = .relative then r else ⟨true, []⟩ := by
  unfold base
  split
  · rename_i t
    rw [if_neg (Spelling.anchorOf_slash t)]
  · rename_i h
    rw [if_pos (Spelling.anchorOf_of_not_slash h)]

namespace FileSystem

/-- A name that is no dot or double dot and can stand in a path. -/
structure Proper (name : Text) : Prop where
  notIdle : Spelling.isIdle name = false
  notUp : name ≠ Spelling.dotDot
  noSlash : '/' ∉ name
  noNul : '\x00' ∉ name

theorem named_of_isName {name : Text} (h : Tree.isName name = true) :
    Named name ∧ '/' ∉ name ∧ '\x00' ∉ name := by
  simp only [Tree.isName, Bool.and_eq_true, Bool.not_eq_true', bne_iff_ne, List.contains_eq_mem,
    decide_eq_false_iff_not] at h
  obtain ⟨⟨⟨hidle, hup⟩, hslash⟩, hnul⟩ := h
  exact ⟨⟨hidle, hup⟩, hslash, hnul⟩

theorem proper_of_isName {name : Text} (h : Tree.isName name = true) : Proper name := by
  obtain ⟨hnamed, hslash, hnul⟩ := named_of_isName h
  exact ⟨hnamed.notIdle, hnamed.notUp, hslash, hnul⟩

/-- The names settle from `here` at `there`, and `k` links are replaced on the way. -/
inductive Settles (tree : Tree) : Nat → Location → List Text → Location → Prop
  | done (here : Location) : Settles tree 0 here [] here
  | stay {k : Nat} {here there : Location} {name : Text} {rest : List Text}
      (hidle : Spelling.isIdle name = true) (hrest : Settles tree k here rest there) :
      Settles tree k here (name :: rest) there
  | up {k : Nat} {here there : Location} {rest : List Text}
      (hrest : Settles tree k here.dropLast rest there) :
      Settles tree k here (Spelling.dotDot :: rest) there
  | down {k : Nat} {here there : Location} {name : Text} {rest : List Text} (hname : Proper name)
      (hlink : tree.linkAt? (here ++ [name]) = none)
      (hrest : Settles tree k (here ++ [name]) rest there) :
      Settles tree k here (name :: rest) there
  | link {j k : Nat} {here mid there : Location} {name target : Text} {rest : List Text}
      (hname : Proper name) (hlink : tree.linkAt? (here ++ [name]) = some target)
      (htarget : Settles tree j (start here target) (Text.pieces '/' target) mid)
      (hrest : Settles tree k mid rest there) :
      Settles tree (j + k + 1) here (name :: rest) there

/-- No link stands at a place or above it. -/
def Clear (tree : Tree) (loc : Location) : Prop := ∀ front, front <+: loc → tree.linkAt? front = none

namespace Clear

variable {tree : Tree} {loc : Location} {name : Text}

theorem of_at? {t : Tree} (hat : tree.at? loc = some t) (hlink : ∀ target, t ≠ .link target) :
    Clear tree loc := by
  rintro front ⟨rest, rfl⟩
  rw [Tree.linkAt?_eq_none]
  intro target hfront
  rw [Tree.at?_append, hfront, Option.bind_some] at hat
  cases rest with
  | nil =>
    cases hat
    exact hlink target rfl
  | cons name rest => simp [Tree.at?, Tree.child?] at hat

theorem linkAt? (h : Clear tree loc) : tree.linkAt? loc = none := h loc List.prefix_rfl

theorem dropLast (h : Clear tree loc) : Clear tree loc.dropLast := fun front hfront =>
  h front (hfront.trans (List.dropLast_prefix loc))

theorem start (h : Clear tree loc) (path : Text) : Clear tree (start loc path) := by
  rw [start_eq]
  split
  · exact h
  · intro front hfront
    rw [List.prefix_nil.1 hfront]
    exact h [] List.nil_prefix

theorem down (h : Clear tree loc) (hlink : tree.linkAt? (loc ++ [name]) = none) :
    Clear tree (loc ++ [name]) := by
  intro front hfront
  rcases List.prefix_concat_iff.1 hfront with rfl | hfront
  · exact hlink
  · exact h front hfront

end Clear

namespace Settles

variable {tree : Tree} {j k : Nat} {here there : Location} {names : List Text}

/-- Where names settle and how many links they take is fixed by where they start. -/
theorem unique {k' : Nat} {there' : Location} (h : Settles tree k here names there)
    (h' : Settles tree k' here names there') : k = k' ∧ there = there' := by
  induction h generalizing k' there' with
  | done here =>
    cases h'
    exact ⟨rfl, rfl⟩
  | stay hidle _ ih =>
    cases h' with
    | stay _ h' => exact ih h'
    | up _ => exact absurd hidle (by decide)
    | down hname _ _ => exact absurd hidle (by simp [hname.notIdle])
    | link hname _ _ _ => exact absurd hidle (by simp [hname.notIdle])
  | up _ ih =>
    cases h' with
    | stay hidle _ => exact absurd hidle (by decide)
    | up h' => exact ih h'
    | down hname _ _ => exact absurd rfl hname.notUp
    | link hname _ _ _ => exact absurd rfl hname.notUp
  | down hname hlink _ ih =>
    cases h' with
    | stay hidle _ => exact absurd hidle (by simp [hname.notIdle])
    | up _ => exact absurd rfl hname.notUp
    | down _ _ h' => exact ih h'
    | link _ hlink' _ _ => cases hlink.symm.trans hlink'
  | link hname hlink _ _ ihtarget ih =>
    cases h' with
    | stay hidle _ => exact absurd hidle (by simp [hname.notIdle])
    | up _ => exact absurd rfl hname.notUp
    | down _ hlink' _ => cases hlink.symm.trans hlink'
    | link _ hlink' htarget' h' =>
      cases hlink.symm.trans hlink'
      obtain ⟨rfl, rfl⟩ := ihtarget htarget'
      obtain ⟨rfl, rfl⟩ := ih h'
      exact ⟨rfl, rfl⟩

theorem clear (h : Settles tree k here names there) (hhere : Clear tree here) :
    Clear tree there := by
  induction h with
  | done here => exact hhere
  | stay _ _ ih => exact ih hhere
  | up _ ih => exact ih hhere.dropLast
  | down _ hlink _ ih => exact ih (hhere.down hlink)
  | link _ _ _ _ ihtarget ih => exact ih (ihtarget (hhere.start _))

/-- What holds of the names at the start, on the way and in the targets of links holds of the names
at the end. -/
theorem forall_mem {p : Text → Prop} (h : Settles tree k here names there)
    (htargets : ∀ loc target, tree.linkAt? loc = some target →
      ∀ name ∈ Text.pieces '/' target, Proper name → p name)
    (hhere : ∀ name ∈ here, p name) (hnames : ∀ name ∈ names, Proper name → p name) :
    ∀ name ∈ there, p name := by
  induction h with
  | done here => exact hhere
  | stay _ _ ih => exact ih hhere (List.forall_mem_cons.1 hnames).2
  | up _ ih =>
    exact ih (fun name hname => hhere name ((List.dropLast_prefix _).subset hname))
      (List.forall_mem_cons.1 hnames).2
  | @down _ here _ name _ hname _ _ ih =>
    obtain ⟨hfirst, hrest⟩ := List.forall_mem_cons.1 hnames
    refine ih (fun n hn => ?_) hrest
    rcases List.mem_append.1 hn with hn | hn
    · exact hhere n hn
    · rw [List.mem_singleton.1 hn]
      exact hfirst hname
  | @link _ _ here _ _ _ target _ hname hlink _ _ ihtarget ih =>
    have hstart : ∀ name ∈ start here target, p name := by
      rw [start_eq]
      split
      · exact hhere
      · simp
    exact ih (ihtarget hstart (htargets _ _ hlink)) (List.forall_mem_cons.1 hnames).2

/-- The names of a place that no link stands on the way to settle at that place. -/
theorem of_clear (hnames : ∀ name ∈ names, Proper name) (hclear : Clear tree (here ++ names)) :
    Settles tree 0 here names (here ++ names) := by
  induction names generalizing here with
  | nil =>
    rw [List.append_nil]
    exact .done here
  | cons name names ih =>
    rw [List.append_cons] at hclear ⊢
    exact .down (hnames name (by simp)) (hclear _ (List.prefix_append _ _))
      (ih (fun n hn => hnames n (by simp [hn])) hclear)

theorem idle {idles : List Text} (h : Settles tree k here names there)
    (hidles : ∀ name ∈ idles, Spelling.isIdle name = true) :
    Settles tree k here (idles ++ names) there := by
  induction idles with
  | nil => exact h
  | cons name idles ih =>
    obtain ⟨hidle, hidles⟩ := List.forall_mem_cons.1 hidles
    exact .stay hidle (ih hidles)

end Settles

/-- Names that lead somewhere settle there. -/
theorem Leads.settles {tree : Tree} (hnames : tree.wellNamed = true) {k : Nat}
    {here there : Location} {names : List Text} (h : Leads tree k here names there) :
    Settles tree k here names there := by
  have hname : ∀ {loc entries name t}, tree.at? loc = some (.dir entries) →
      Table.get? entries name = some t → Proper name := fun hdir hget => proper_of_isName
    ((Tree.wellNamed_at? hnames hdir).2 _ (Table.mem_keys_of_mem (Table.mem_of_get? hget)))
  induction h with
  | done here => exact .done here
  | stay _ hidle _ ih => exact .stay hidle ih
  | up _ _ ih => exact .up ih
  | down hdir _ hget hlink _ ih =>
    have hnone : tree.linkAt? _ = none := (Clear.of_at? (Tree.at?_snoc hdir hget) hlink).linkAt?
    exact .down (hname hdir hget) hnone ih
  | link hdir _ hget _ _ ihtarget ih =>
    exact .link (hname hdir hget) (Tree.linkAt?_eq_some.2 (Tree.at?_snoc hdir hget)) ihtarget ih

/-- Every link of the tree leads to some place, there or not: none of them is met again on its own
way. -/
def NoLoops (tree : Tree) : Prop :=
  ∀ loc target, tree.linkAt? loc = some target →
    ∃ k there, Settles tree k (start loc.dropLast target) (Text.pieces '/' target) there

/-- Without loops all names settle. -/
theorem NoLoops.exists_settles {tree : Tree} (h : NoLoops tree) (names : List Text)
    (hslash : ∀ name ∈ names, '/' ∉ name) (hnul : ∀ name ∈ names, '\x00' ∉ name)
    (here : Location) : ∃ k there, Settles tree k here names there := by
  induction names generalizing here with
  | nil => exact ⟨0, here, .done here⟩
  | cons name names ih =>
    obtain ⟨hslash, hslashes⟩ := List.forall_mem_cons.1 hslash
    obtain ⟨hnul, hnuls⟩ := List.forall_mem_cons.1 hnul
    have ih := ih hslashes hnuls
    by_cases hidle : Spelling.isIdle name = true
    · obtain ⟨k, there, hrest⟩ := ih here
      exact ⟨k, there, .stay hidle hrest⟩
    by_cases hup : name = Spelling.dotDot
    · subst hup
      obtain ⟨k, there, hrest⟩ := ih here.dropLast
      exact ⟨k, there, .up hrest⟩
    have hname : Proper name := ⟨by simpa using hidle, hup, hslash, hnul⟩
    cases hlink : tree.linkAt? (here ++ [name]) with
    | none =>
      obtain ⟨k, there, hrest⟩ := ih (here ++ [name])
      exact ⟨k, there, .down hname hlink hrest⟩
    | some target =>
      obtain ⟨j, mid, htarget⟩ := h _ _ hlink
      rw [List.dropLast_concat] at htarget
      obtain ⟨k, there, hrest⟩ := ih mid
      exact ⟨_, there, .link hname hlink htarget hrest⟩

/-! ## Routes -/

theorem foldDots_dots (m : Nat) (here : Location) :
    Spelling.foldDots here (List.replicate m Spelling.dotDot) = List.dropLast^[m] here := by
  have hidle : Spelling.isIdle Spelling.dotDot = false := by decide
  induction m generalizing here with
  | zero => rfl
  | succ m ih =>
    rw [List.replicate_succ, Function.iterate_succ_apply, ← ih]
    simp [Spelling.foldDots, hidle]

theorem foldDots_proper {names : List Text} (h : ∀ name ∈ names, Proper name) (here : Location) :
    Spelling.foldDots here names = here ++ names := by
  induction names generalizing here with
  | nil => simp [Spelling.foldDots]
  | cons name names ih =>
    obtain ⟨hname, hnames⟩ := List.forall_mem_cons.1 h
    rw [List.append_cons, ← ih hnames]
    simp [Spelling.foldDots, hname.notIdle, hname.notUp]

/-- The route goes up from where it is taken, unless that is the root, and then down to `loc` by
names with no link on the way. -/
structure Routed (fs : FileSystem) (r : Route) (loc : Location) : Prop where
  shape : ∃ m names, r.parts = List.replicate m Spelling.dotDot ++ names ∧
    (r.absolute = true → m = 0) ∧ (∀ name ∈ names, Proper name) ∧
    loc = List.dropLast^[m] (r.origin fs.cwd) ++ names
  clear : Clear fs.tree loc
  isDir : ∃ entries, fs.tree.at? (r.origin fs.cwd) = some (.dir entries)

section

variable {strays : List Char} {tree : Tree} {follow : Bool}
  {onLink : Location → Text → List Text → Except Errno Location} {here : Location}

theorem descend_idle {entries : List (Text × Tree)} (hdir : tree.at? here = some (.dir entries))
    {idles : List Text} (hidles : ∀ name ∈ idles, Spelling.isIdle name = true) (rest : List Text) :
    descend strays tree follow onLink here (idles ++ rest) = descend strays tree follow onLink here rest := by
  induction idles with
  | nil => rfl
  | cons name idles ih =>
    obtain ⟨hidle, hidles⟩ := List.forall_mem_cons.1 hidles
    rw [List.cons_append, descend_stay hdir hidle, ih hidles]

theorem descend_dots (hdir : ∃ entries, tree.at? here = some (.dir entries)) (m : Nat)
    (rest : List Text) :
    descend strays tree follow onLink here (List.replicate m Spelling.dotDot ++ rest) =
      descend strays tree follow onLink (List.dropLast^[m] here) rest := by
  induction m generalizing here with
  | zero => rfl
  | succ m ih =>
    obtain ⟨entries, hdir⟩ := hdir
    rw [List.replicate_succ, List.cons_append, descend_up hdir, ih (Tree.dir_dropLast hdir),
      Function.iterate_succ_apply]

theorem descend_none {name : Text} (hname : Proper name) (hnone : tree.at? (here ++ [name]) = none)
    (rest : List Text) : ∃ e, descend strays tree follow onLink here (name :: rest) = .error e := by
  cases hat : tree.at? here with
  | none => exact ⟨.notDirectory, by simp [descend, hat]⟩
  | some t =>
    cases t with
    | file content => exact ⟨.notDirectory, by simp [descend, hat]⟩
    | link target => exact ⟨.notDirectory, by simp [descend, hat]⟩
    | dir entries =>
      have hget : Table.get? entries name = none := by
        by_contra hsome
        obtain ⟨t, hget⟩ := Option.ne_none_iff_exists'.1 hsome
        cases hnone.symm.trans (Tree.at?_snoc hat hget)
      rw [descend_named hat ⟨hname.notIdle, hname.notUp⟩, hget]
      exact ⟨_, rfl⟩

/-- An entry that is there stands in a directory under a name that can be looked up. -/
theorem named_of_at? (hwell : tree.wellNamed = true) {name : Text} {t : Tree}
    (hat : tree.at? (here ++ [name]) = some t) :
    ∃ entries, tree.at? here = some (.dir entries) ∧ Table.get? entries name = some t ∧
      Named name := by
  obtain ⟨entries, hdir, hget⟩ := Tree.dir_of_at?_snoc hat
  have hname := (Tree.wellNamed_at? hwell hdir).2 name
    (Table.mem_keys_of_mem (Table.mem_of_get? hget))
  exact ⟨entries, hdir, hget, (named_of_isName hname).1⟩

/-- A look-up by names with no link on the way finds the link at their place, if there is one. -/
theorem linkAt?_descend (hwell : tree.wellNamed = true) {names : List Text} {name : Text}
    (hnames : ∀ name ∈ names, Proper name) (hname : Proper name)
    (hclear : Clear tree (here ++ names)) :
    (descend strays tree false onLink here (names ++ [name])).toOption.bind tree.linkAt? =
      tree.linkAt? (here ++ names ++ [name]) := by
  induction names generalizing here with
  | nil =>
    rw [List.nil_append, List.append_nil]
    cases hat : tree.at? (here ++ [name]) with
    | none =>
      obtain ⟨e, he⟩ := descend_none hname hat []
      rw [he, Tree.linkAt?, hat]
      rfl
    | some t =>
      obtain ⟨entries, hdir, hget, hnamed⟩ := named_of_at? hwell hat
      have hthere : descend strays tree false onLink here [name] = .ok (here ++ [name]) := by
        rw [descend_named hdir hnamed, hget]
        cases t <;> rfl
      rw [hthere]
      rfl
  | cons n names ih =>
    obtain ⟨hn, hnames⟩ := List.forall_mem_cons.1 hnames
    rw [List.append_cons here n names] at hclear ⊢
    cases hat : tree.at? (here ++ [n]) with
    | none =>
      obtain ⟨e, he⟩ := descend_none hn hat (names ++ [name])
      rw [List.cons_append, he, List.append_assoc (here ++ [n]), Tree.linkAt?, Tree.at?_append, hat]
      rfl
    | some t =>
      obtain ⟨entries, hdir, hget, hnamed⟩ := named_of_at? hwell hat
      have hlink : ∀ target, t ≠ .link target := by
        rintro target rfl
        have hnone := hclear _ (List.prefix_append (here ++ [n]) names)
        cases hnone.symm.trans (Tree.linkAt?_eq_some.2 hat)
      rw [List.cons_append, descend_down hdir hnamed hget hlink]
      exact ih hnames hclear

end

namespace Routed

variable {fs : FileSystem} {r : Route} {loc : Location} {name : Text}

theorem root (hdir : ∃ entries, fs.tree.at? [] = some (.dir entries))
    (hclear : fs.tree.linkAt? [] = none) : Routed fs ⟨true, []⟩ [] := by
  refine ⟨⟨0, [], rfl, fun _ => rfl, by simp, rfl⟩, fun front hfront => ?_, hdir⟩
  rw [List.prefix_nil.1 hfront]
  exact hclear

theorem location (h : Routed fs r loc) : r.location fs.cwd = loc := by
  obtain ⟨m, names, hparts, -, hnames, hloc⟩ := h.shape
  have hfold : Spelling.foldDots (r.origin fs.cwd) r.parts = loc := by
    rw [hparts, hloc, ← foldDots_dots, ← foldDots_proper hnames (Spelling.foldDots _ _)]
    exact List.foldl_append
  exact hfold

theorem base (h : Routed fs r loc) (path : Text) : Routed fs (r.base path) (start loc path) := by
  rw [Route.base_eq, start_eq]
  split
  · exact h
  · obtain ⟨entries, hdir⟩ := h.isDir
    exact .root (Tree.root_of_at? hdir) (h.clear [] List.nil_prefix)

theorem up (h : Routed fs r loc) : Routed fs r.up loc.dropLast := by
  obtain ⟨m, names, hparts, hroot, hnames, hloc⟩ := h.shape
  obtain ⟨absolute, parts⟩ := r
  subst hparts
  rcases List.eq_nil_or_concat names with rfl | ⟨front, last, rfl⟩
  · -- nothing to take back: one more double dot, unless at the root
    cases absolute with
    | true =>
      obtain rfl := hroot rfl
      have hup : Route.up ⟨true, List.replicate 0 Spelling.dotDot ++ []⟩ = ⟨true, []⟩ := rfl
      rw [hup]
      exact ⟨⟨0, [], rfl, fun _ => rfl, by simp, by rw [hloc]; rfl⟩, h.clear.dropLast, h.isDir⟩
    | false =>
      have hup : Route.up ⟨false, List.replicate m Spelling.dotDot ++ []⟩ =
          ⟨false, List.replicate (m + 1) Spelling.dotDot⟩ := by
        cases m with
        | zero => rfl
        | succ m => simp [Route.up, List.getLast?_replicate, ← List.replicate_succ']
      rw [hup]
      refine ⟨⟨m + 1, [], by simp, by simp, by simp, ?_⟩, h.clear.dropLast, h.isDir⟩
      rw [hloc, List.append_nil, List.append_nil, List.append_nil, Function.iterate_succ_apply']
      rfl
  · rw [List.concat_eq_append] at hnames hloc h ⊢
    have hlast : last ≠ Spelling.dotDot := (hnames last (by simp)).notUp
    have hup : Route.up ⟨absolute, List.replicate m Spelling.dotDot ++ (front ++ [last])⟩ =
        ⟨absolute, List.replicate m Spelling.dotDot ++ front⟩ := by
      rw [← List.append_assoc]
      simp [Route.up, hlast]
    rw [hup]
    refine ⟨⟨m, front, rfl, hroot, fun n hn => hnames n (by simp [hn]), ?_⟩, h.clear.dropLast,
      h.isDir⟩
    rw [hloc, ← List.append_assoc, List.dropLast_concat]
    rfl

theorem down (h : Routed fs r loc) (hname : Proper name)
    (hlink : fs.tree.linkAt? (loc ++ [name]) = none) : Routed fs (r.down name) (loc ++ [name]) := by
  obtain ⟨m, names, hparts, hroot, hnames, hloc⟩ := h.shape
  refine ⟨⟨m, names ++ [name], by simp [Route.down, hparts], hroot, fun n hn => ?_, ?_⟩,
    h.clear.down hlink, h.isDir⟩
  · rcases List.mem_append.1 hn with hn | hn
    · exact hnames n hn
    · rw [List.mem_singleton.1 hn]
      exact hname
  · rw [hloc, List.append_assoc]
    rfl

theorem location_down (h : Routed fs r loc) (hname : Proper name) :
    (r.down name).location fs.cwd = loc ++ [name] := by
  rw [← h.location, Route.location, Route.down, Spelling.foldDots, List.foldl_append,
    List.foldl_cons, List.foldl_nil, if_neg (by simp [hname.notIdle]), if_neg hname.notUp]
  rfl

theorem parts_down (h : Routed fs r loc) (hname : Proper name) :
    ∀ p ∈ r.parts ++ [name], Spelling.isIdle p = false ∧ '/' ∉ p ∧ '\x00' ∉ p := by
  obtain ⟨m, names, hparts, -, hnames, -⟩ := h.shape
  have hproper : ∀ {p}, Proper p → Spelling.isIdle p = false ∧ '/' ∉ p ∧ '\x00' ∉ p := fun hp =>
    ⟨hp.notIdle, hp.noSlash, hp.noNul⟩
  intro p hp
  rw [hparts] at hp
  rcases List.mem_append.1 hp with hp | hp
  · rcases List.mem_append.1 hp with hp | hp
    · rw [List.eq_of_mem_replicate hp]
      decide
    · exact hproper (hnames p hp)
  · rw [List.mem_singleton.1 hp]
    exact hproper hname

/-- The text of a route taken one name further. -/
theorem text_down (h : Routed fs r loc) (hname : Proper name) :
    (r.down name).text ≠ [] ∧ '\x00' ∉ (r.down name).text ∧
      start fs.cwd (r.down name).text = r.origin fs.cwd ∧
      ∃ idles, (∀ p ∈ idles, Spelling.isIdle p = true) ∧
        Text.pieces '/' (r.down name).text = idles ++ (r.parts ++ [name]) := by
  have hparts := h.parts_down hname
  have hne : r.parts ++ [name] ≠ [] := by simp
  obtain ⟨c, t, hc, hjoin⟩ :=
    Spelling.join_parts hne fun p hp => ⟨(hparts p hp).2.1, (hparts p hp).1⟩
  have hpieces := Text.pieces_join hne fun p hp => (hparts p hp).2.1
  have hzero : '\x00' ∉ Text.join ['/'] (r.parts ++ [name]) := by
    intro hmem
    rcases Text.mem_join hmem with hmem | ⟨p, hp, hmem⟩
    · simp at hmem
    · exact (hparts p hp).2.2 hmem
  obtain ⟨absolute, parts⟩ := r
  cases absolute with
  | true =>
    refine ⟨by simp [Route.text, Route.down], by simpa [Route.text, Route.down] using hzero, rfl,
      [[]], by decide, ?_⟩
    simpa [Route.text, Route.down, Text.pieces] using hpieces
  | false =>
    simp only [Route.text, Route.down, Bool.false_eq_true, if_false, List.nil_append]
    refine ⟨by simp [hjoin], hzero, ?_, [], by simp, hpieces⟩
    rw [hjoin]
    simp [start, hc, Route.origin]

/-- Looking for a link by the text of a route taken one name further looks at the place of that
name. -/
theorem readLink? (hwell : fs.tree.wellNamed = true) (h : Routed fs r loc) (hname : Proper name) :
    fs.readLink? (r.down name).text = fs.tree.linkAt? (loc ++ [name]) := by
  have hread : ∀ path, fs.readLink? path = (fs.locate false path).toOption.bind fs.tree.linkAt? := by
    intro path
    rw [FileSystem.readLink?]
    cases fs.locate false path with
    | error e => rfl
    | ok place =>
      simp only [Except.toOption, Option.bind_some, Tree.linkAt?]
      cases fs.tree.at? place with
      | none => rfl
      | some t => cases t <;> rfl
  obtain ⟨hne, -, hstart, idles, hidles, hpieces⟩ := h.text_down hname
  obtain ⟨m, names, hparts, -, hnames, rfl⟩ := h.shape
  obtain ⟨entries, hdir⟩ := h.isDir
  obtain ⟨onLink, hopen⟩ := resolve_open fs.strays fs.tree false linkLimit
  rw [hread, locate, if_neg (by simpa using hne), hstart, hpieces, hopen, descend_idle hdir hidles,
    hparts, List.append_assoc, descend_dots h.isDir]
  exact linkAt?_descend hwell hnames hname h.clear

end Routed

end FileSystem
end ClassCensus
