import ClassCensus.Proofs.Harvest
import ClassCensus.Proofs.Walk

/-!
# ClassCensus.Proofs.SideBySide

Roots scanned side by side against roots scanned in turn. Both complete the same roots and fail at
the same one. They part only where the walk of that root is cut short: in turn, the candidates
before the cut have been registered by then, or one of them has failed first; side by side, the
cut comes before any answer is taken.
-/

namespace ClassCensus
namespace Grounds

variable (g : Grounds) {n : Int}

theorem rootYield_inTurn (root : Root) :
    (g.withWorkers 1).rootYield root =
      match Walk.enumerate g.files g.settings root.recursive root.path with
      | .error e => .refused e
      | .ok (_, files) => (g.harvest files.items).append ⟨[], files.cut⟩ := by
  simp only [rootYield, withWorkers, Walk.enumerate_withWorkers]
  rfl

theorem rootYield_aside (hn : 1 < n) (root : Root) :
    (g.withWorkers n).rootYield root =
      match Walk.enumerate g.files g.settings root.recursive root.path with
      | .error e => .refused e
      | .ok (_, files) =>
        match files.cut with
        | some e => .refused e
        | none => g.harvest files.items := by
  have hpar : (g.withWorkers n).settings.isParallel = true := decide_eq_true hn
  have hwalk : Walk.enumerate (g.withWorkers n).files (g.withWorkers n).settings root.recursive
      root.path = Walk.enumerate g.files g.settings root.recursive root.path :=
    Walk.enumerate_withWorkers n root.path
  unfold rootYield
  rw [hwalk]
  cases Walk.enumerate g.files g.settings root.recursive root.path with
  | error e => rfl
  | ok listed =>
    obtain ⟨notice, items, cut⟩ := listed
    cases cut with
    | none => exact yield_whole (g.withWorkers n) items
    | some e => simp [yield, hpar]

/-- A root whose walk is not cut short yields the same either way. -/
theorem rootYield_aside_eq (hn : 1 < n) {root : Root}
    (h : ∀ notice files, Walk.enumerate g.files g.settings root.recursive root.path =
      .ok (notice, files) → files.cut = none) :
    (g.withWorkers n).rootYield root = (g.withWorkers 1).rootYield root := by
  rw [rootYield_inTurn, rootYield_aside g hn]
  cases hwalk : Walk.enumerate g.files g.settings root.recursive root.path with
  | error e => rfl
  | ok listed =>
    obtain ⟨notice, files⟩ := listed
    have hcut := h notice files hwalk
    simp only [hcut]
    exact (Listing.append_empty _).symm

/-- A walk that is cut short ends the scan of its root with the cut, before anything is taken. -/
theorem rootYield_aside_cut (hn : 1 < n) {root : Root} {notice : Notice} {files : Listing Text}
    {e : Failure}
    (hwalk : Walk.enumerate g.files g.settings root.recursive root.path = .ok (notice, files))
    (hcut : files.cut = some e) :
    (g.withWorkers n).rootYield root = .refused e := by
  rw [rootYield_aside g hn, hwalk]
  simp only [hcut]

theorem rootYield_inTurn_cut {root : Root} {notice : Notice} {files : Listing Text} {e : Failure}
    (hwalk : Walk.enumerate g.files g.settings root.recursive root.path = .ok (notice, files))
    (hcut : files.cut = some e) :
    (g.withWorkers 1).rootYield root =
      ⟨(g.harvest files.items).items, some ((g.harvest files.items).cut.getD e)⟩ := by
  rw [rootYield_inTurn, hwalk]
  simp only [hcut]
  obtain ⟨items, _ | e'⟩ := g.harvest files.items <;> simp [Listing.append]

/-- A root scanned side by side yields the same, or fails with nothing to show for it; and it fails
only where it also fails in turn. -/
theorem rootYield_aside_within (hn : 1 < n) (root : Root) :
    Listing.Within ((g.withWorkers n).rootYield root) ((g.withWorkers 1).rootYield root) ∧
      (((g.withWorkers n).rootYield root).cut = none ↔
        ((g.withWorkers 1).rootYield root).cut = none) := by
  by_cases h : ∃ notice files e, Walk.enumerate g.files g.settings root.recursive root.path =
      .ok (notice, files) ∧ files.cut = some e
  · obtain ⟨notice, files, e, hwalk, hcut⟩ := h
    rw [rootYield_aside_cut g hn hwalk hcut, rootYield_inTurn_cut g hwalk hcut]
    exact ⟨.of_refused _ _, by simp [Listing.refused]⟩
  · push Not at h
    have hsame := rootYield_aside_eq g hn fun notice files hwalk =>
      Option.eq_none_iff_forall_ne_some.2 fun e => h notice files e hwalk
    rw [hsame]
    exact ⟨.refl _, Iff.rfl⟩

theorem completed_aside (hn : 1 < n) (roots : List Root) :
    (g.withWorkers n).completed roots = (g.withWorkers 1).completed roots := by
  have hsame : (fun root => ((g.withWorkers n).rootYield root).cut.isNone) =
      fun root => ((g.withWorkers 1).rootYield root).cut.isNone := by
    funext root
    rw [Bool.eq_iff_iff, Option.isNone_iff_eq_none, Option.isNone_iff_eq_none]
    exact (g.rootYield_aside_within hn root).2
  rw [completed, completed, hsame]

theorem rootsYield_aside_within (hn : 1 < n) (roots : List Root) :
    Listing.Within ((g.withWorkers n).rootsYield roots) ((g.withWorkers 1).rootsYield roots) := by
  apply Listing.Within.concat
  rw [List.forall₂_map_left_iff, List.forall₂_map_right_iff, List.forall₂_same]
  exact fun root _ => (g.rootYield_aside_within hn root).1

theorem rootsYield_aside_whole (hn : 1 < n) (roots : List Root) :
    ((g.withWorkers n).rootsYield roots).cut = none ↔
      ((g.withWorkers 1).rootsYield roots).cut = none := by
  rw [rootsYield_cut_eq_none, rootsYield_cut_eq_none]
  exact forall₂_congr fun root _ => (g.rootYield_aside_within hn root).2

/-- Roots up to the first one that fails. -/
theorem rootsYield_stop {g : Grounds} {before after : List Root} {root : Root}
    (hbefore : (g.rootsYield before).cut = none) (hroot : (g.rootYield root).cut ≠ none) :
    g.rootsYield (before ++ root :: after) =
      ⟨(g.rootsYield before).items ++ (g.rootYield root).items, (g.rootYield root).cut⟩ := by
  obtain ⟨e, he⟩ := Option.ne_none_iff_exists'.1 hroot
  rw [rootsYield_append, rootsYield_cons, Listing.append_of_cut he, Listing.append_of_whole hbefore]

/-- There is one root at most that fails with all before it completed. -/
theorem first_failing_unique {g : Grounds} {before before' after after' : List Root}
    {root root' : Root} (hsplit : before ++ root :: after = before' ++ root' :: after')
    (hbefore : (g.rootsYield before).cut = none) (hroot : (g.rootYield root).cut ≠ none)
    (hbefore' : (g.rootsYield before').cut = none) (hroot' : (g.rootYield root').cut ≠ none) :
    before = before' ∧ root = root' := by
  have hfront : ∀ {b a : List Root} {r : Root}, (g.rootsYield b).cut = none →
      (g.rootYield r).cut ≠ none → g.completed (b ++ r :: a) = b := by
    intro b a r hb hr
    rw [completed, List.takeWhile_append_of_pos, List.takeWhile_cons_of_neg, List.append_nil]
    · simpa using hr
    · intro x hx
      simpa using rootsYield_cut_eq_none.1 hb x hx
  have heq : before = before' := by
    rw [← hfront (a := after) hbefore hroot, hsplit, hfront hbefore' hroot']
  subst heq
  simp only [List.append_cancel_left_eq, List.cons.injEq] at hsplit
  exact ⟨rfl, hsplit.1⟩

theorem exists_first_failing {g : Grounds} {roots : List Root}
    (h : (g.rootsYield roots).cut ≠ none) :
    ∃ before root after, roots = before ++ root :: after ∧
      (g.rootsYield before).cut = none ∧ (g.rootYield root).cut ≠ none := by
  induction roots with
  | nil => exact absurd rfl h
  | cons root roots ih =>
    by_cases hroot : (g.rootYield root).cut = none
    · rw [rootsYield_cons, Listing.append_of_whole hroot] at h
      obtain ⟨before, next, after, rfl, hbefore, hnext⟩ := ih h
      refine ⟨root :: before, next, after, rfl, ?_, hnext⟩
      rw [rootsYield_cons, Listing.append_cut_eq_none]
      exact ⟨hroot, hbefore⟩
    · exact ⟨[], root, roots, rfl, rfl, hroot⟩

/-- At a root whose walk is cut short, both ways of scanning come to the same exactly if the files
before the cut have nothing to add and no other failure. -/
theorem aside_agrees_at_cut (hn : 1 < n) {root : Root} {notice : Notice} {files : Listing Text}
    {e : Failure} (r : Roll)
    (hwalk : Walk.enumerate g.files g.settings root.recursive root.path = .ok (notice, files))
    (hcut : files.cut = some e) :
    ((g.withWorkers n).rootYield root).cut = ((g.withWorkers 1).rootYield root).cut ∧
        (r.enterAll ((g.withWorkers n).rootYield root).items).registry =
          (r.enterAll ((g.withWorkers 1).rootYield root).items).registry ↔
      (r.enterAll (g.harvest files.items).items).registry = r.registry ∧
        (g.harvest files.items).cut.getD e = e := by
  rw [rootYield_aside_cut g hn hwalk hcut, rootYield_inTurn_cut g hwalk hcut, and_comm]
  refine and_congr ?_ ?_
  · exact eq_comm
  · simp [Listing.refused, eq_comm]

theorem rootsYield_aside_agrees (hn : 1 < n) (r : Roll) (roots : List Root) :
    ((g.withWorkers n).rootsYield roots).cut = ((g.withWorkers 1).rootsYield roots).cut ∧
        (r.enterAll ((g.withWorkers n).rootsYield roots).items).registry =
          (r.enterAll ((g.withWorkers 1).rootsYield roots).items).registry ↔
      ∀ before root after notice files e, roots = before ++ root :: after →
        ((g.withWorkers 1).rootsYield before).cut = none →
        Walk.enumerate g.files g.settings root.recursive root.path = .ok (notice, files) →
        files.cut = some e →
        ((r.enterAll ((g.withWorkers 1).rootsYield before).items).enterAll
            (g.harvest files.items).items).registry =
          (r.enterAll ((g.withWorkers 1).rootsYield before).items).registry ∧
          (g.harvest files.items).cut.getD e = e := by
  -- a root whose walk is cut short fails in turn
  have hfails : ∀ {root notice files e},
      Walk.enumerate g.files g.settings root.recursive root.path = .ok (notice, files) →
      files.cut = some e → ((g.withWorkers 1).rootYield root).cut ≠ none := by
    intro root notice files e hwalk hcut
    simp [rootYield_inTurn_cut g hwalk hcut]
  by_cases hall : ((g.withWorkers 1).rootsYield roots).cut = none
  · have hsame := (g.rootsYield_aside_within hn roots).whole ((g.rootsYield_aside_whole hn roots).2 hall)
    rw [hsame]
    refine iff_of_true ⟨rfl, rfl⟩ ?_
    rintro before root after notice files e rfl - hwalk hcut
    exact absurd (rootsYield_cut_eq_none.1 hall root (by simp)) (hfails hwalk hcut)
  · obtain ⟨before, root, after, rfl, hbefore, hroot⟩ := exists_first_failing hall
    have hbefore' := (g.rootsYield_aside_whole hn before).2 hbefore
    have hroot' := (not_congr (g.rootYield_aside_within hn root).2).2 hroot
    have hsame : (g.withWorkers n).rootsYield before = (g.withWorkers 1).rootsYield before :=
      (g.rootsYield_aside_within hn before).whole hbefore'
    rw [rootsYield_stop hbefore hroot, rootsYield_stop hbefore' hroot', hsame,
      Roll.enterAll_append, Roll.enterAll_append]
    by_cases hwalk : ∃ notice files e, Walk.enumerate g.files g.settings root.recursive root.path =
        .ok (notice, files) ∧ files.cut = some e
    · obtain ⟨notice, files, e, hwalk, hcut⟩ := hwalk
      rw [aside_agrees_at_cut g hn _ hwalk hcut]
      constructor
      · intro hidle before₁ root₁ after₁ notice₁ files₁ e₁ hsplit hbefore₁ hwalk₁ hcut₁
        obtain ⟨rfl, rfl⟩ :=
          first_failing_unique hsplit hbefore hroot hbefore₁ (hfails hwalk₁ hcut₁)
        obtain ⟨rfl, rfl⟩ := Prod.mk.inj (Except.ok.inj (hwalk.symm.trans hwalk₁))
        obtain rfl := Option.some.inj (hcut.symm.trans hcut₁)
        exact hidle
      · intro h
        exact h before root after notice files e rfl hbefore hwalk hcut
    · push Not at hwalk
      have heq := rootYield_aside_eq g hn fun notice files h =>
        Option.eq_none_iff_forall_ne_some.2 fun e => hwalk notice files e h
      rw [heq]
      refine iff_of_true ⟨rfl, rfl⟩ ?_
      intro before₁ root₁ after₁ notice₁ files₁ e₁ hsplit hbefore₁ hwalk₁ hcut₁
      obtain ⟨rfl, rfl⟩ := first_failing_unique hsplit hbefore hroot hbefore₁ (hfails hwalk₁ hcut₁)
      exact absurd hcut₁ (hwalk notice₁ files₁ e₁ hwalk₁)

end Grounds

namespace Census

variable {c d : Census MemoryCatalog} {n : Int}

/-- Scanned in turn, the files add nothing to the registry, and fail with `e` if they fail. -/
def IdleUpTo (d : Census MemoryCatalog) (files : List Text) (e : Failure) : Prop :=
  (d.parseInTurn files).2.finder.registry = d.finder.registry ∧
    ((d.parseInTurn files).1 = .ok () ∨ (d.parseInTurn files).1 = .error e)

theorem idleUpTo_iff {files : List Text} {e : Failure} :
    IdleUpTo d files e ↔
      (d.roll.enterAll (d.grounds.harvest files).items).registry = d.roll.registry ∧
        (d.grounds.harvest files).cut.getD e = e := by
  have hreaps := parseInTurn_reaps files d
  unfold IdleUpTo
  rw [hreaps.answer, show (d.parseInTurn files).2.finder.registry = _ from
    congrArg Roll.registry hreaps.roll]
  refine and_congr Iff.rfl ?_
  obtain ⟨items, _ | e'⟩ := d.grounds.harvest files <;> simp

/-- What a scan leaves pending is read off the roots it completes. -/
theorem pending_of_reaps {l m : Listing Finding} {done : List Root}
    {r s : Except Failure Unit × Census MemoryCatalog} {c' : Census MemoryCatalog}
    (hr : Reaps c l done r) (hs : Reaps c' m done s)
    (hroots : c.finder.roots = c'.finder.roots) (hscanned : c.finder.scanned = c'.finder.scanned) :
    r.2.pending = s.2.pending := by
  unfold pending
  rw [hr.roots, hs.roots, hr.scanned, hs.scanned, hroots, hscanned]

/-- Scanning side by side leaves the same roots pending as scanning in turn, fails if and only if
that fails, and registers a front part of what that registers. Both end in the same way exactly if
at the first root whose walk is cut short, with all before it completed, the files before the cut
have nothing to add and no other failure. -/
theorem side_by_side_iff_in_turn (c : Census MemoryCatalog) (hn : 1 < n) :
    let inTurn := (c.withWorkers 1).scanFiles
    let aside := (c.withWorkers n).scanFiles
    aside.2.pending = inTurn.2.pending ∧
      (aside.1 = .ok () ↔ inTurn.1 = .ok ()) ∧
      aside.2.finder.registry <+: inTurn.2.finder.registry ∧
      (aside.1 = inTurn.1 ∧ aside.2.finder.registry = inTurn.2.finder.registry ↔
        ∀ before root after d notice files e, c.pending = before ++ root :: after →
          (c.withWorkers 1).scanRoots before = (.ok (), d) →
          Walk.enumerate c.world.files c.finder.settings root.recursive root.path =
            .ok (notice, files) →
          files.cut = some e → IdleUpTo d files.items e) := by
  intro inTurn aside
  have hturn : Reaps _ _ _ inTurn := scanFiles_reaps (c.withWorkers 1)
  have haside : Reaps _ _ _ aside := scanFiles_reaps (c.withWorkers n)
  set g := c.grounds with hg
  rw [show (c.withWorkers 1).pending = c.pending from rfl, withWorkers_grounds, ← hg] at hturn
  rw [show (c.withWorkers n).pending = c.pending from rfl, withWorkers_grounds, ← hg,
    g.completed_aside hn] at haside
  have hregTurn : inTurn.2.finder.registry =
      (c.roll.enterAll ((g.withWorkers 1).rootsYield c.pending).items).registry :=
    congrArg Roll.registry hturn.roll
  have hregAside : aside.2.finder.registry =
      (c.roll.enterAll ((g.withWorkers n).rootsYield c.pending).items).registry :=
    congrArg Roll.registry haside.roll
  refine ⟨pending_of_reaps haside hturn rfl rfl, ?_, ?_, ?_⟩
  · rw [haside.answer, hturn.answer, Listing.answer_eq_ok, Listing.answer_eq_ok]
    exact g.rootsYield_aside_whole hn _
  · obtain ⟨more, hmore⟩ := (g.rootsYield_aside_within hn c.pending).front
    rw [hregTurn, hregAside, ← hmore, Roll.enterAll_append]
    exact Roll.registry_grows _ _
  · rw [hregTurn, hregAside, haside.answer, hturn.answer, Listing.answer_inj,
      g.rootsYield_aside_agrees hn]
    constructor
    · intro h before root after d notice files e hpending hd hwalk hcut
      have hbefore := scanRoots_reaps before (c.withWorkers 1)
      rw [hd] at hbefore
      rw [idleUpTo_iff, hbefore.roll, hbefore.grounds]
      exact h before root after notice files e hpending hbefore.cut_eq_none hwalk hcut
    · intro h before root after notice files e hpending hbefore hwalk hcut
      have hreaps := scanRoots_reaps before (c.withWorkers 1)
      have hok : (c.withWorkers 1).scanRoots before =
          (.ok (), ((c.withWorkers 1).scanRoots before).2) :=
        Prod.ext (hreaps.answer.trans (Listing.answer_eq_ok.2 hbefore)) rfl
      have hidle := h before root after _ notice files e hpending hok hwalk hcut
      rw [idleUpTo_iff, hreaps.roll, hreaps.grounds] at hidle
      exact hidle

/-- A directory with a class of its own before a subdirectory, with some of it denied. -/
def halted (denied : List Location) : Census MemoryCatalog :=
  let tree : Tree := .dir [("src".toList, .dir
    [("A.php".toList, .file (Text.utf8 "class A".toList)), ("sub".toList, .dir [])])]
  let finder := Finder.new {}
  ⟨{ finder with roots := [("/src".toList, true)] }, .fresh ⟨tree, denied, [], []⟩ ["A".toList]⟩

/-- Four workers lose the class that stands before the denied subdirectory; the files before the
cut are not idle there. -/
theorem side_by_side_of_halted :
    let c := halted [["src".toList, "sub".toList]]
    (c.withWorkers 4).scanFiles.2.pending = (c.withWorkers 1).scanFiles.2.pending ∧
      (c.withWorkers 4).scanFiles.2.finder.registry <+:
        (c.withWorkers 1).scanFiles.2.finder.registry ∧
      ¬ ∀ before root after d notice files e, c.pending = before ++ root :: after →
        (c.withWorkers 1).scanRoots before = (.ok (), d) →
        Walk.enumerate c.world.files c.finder.settings root.recursive root.path =
          .ok (notice, files) →
        files.cut = some e → IdleUpTo d files.items e := by
  intro c
  obtain ⟨hpending, -, hfront, hiff⟩ := side_by_side_iff_in_turn (n := 4) c (by decide)
  refine ⟨hpending, hfront, fun hidle => ?_⟩
  have hcount := congrArg List.length (hiff.2 hidle).2
  exact absurd hcount (by decide +kernel)

/-- What an operation that failed says. -/
def said : Except Failure Unit → Option Text
  | .error e => e.message?
  | .ok () => none

/-- A denied subdirectory makes four workers register nothing where one worker registers the class
before it. If that file is denied too, they also fail with another failure. -/
theorem side_by_side_parts_from_in_turn :
    let c := halted [["src".toList, "sub".toList]]
    let d := halted [["src".toList, "A.php".toList], ["src".toList, "sub".toList]]
    (c.withWorkers 4).scanFiles.2.finder.registry.count = 0 ∧
      (c.withWorkers 1).scanFiles.2.finder.registry.count = 1 ∧
      said (d.withWorkers 4).scanFiles.1 =
        some "[3003] FS_UNREADABLE: Unable to open /src/sub: Permission denied".toList ∧
      said (d.withWorkers 1).scanFiles.1 =
        some "[3003] FS_UNREADABLE: Unable to open /src/A.php: Permission denied".toList := by
  decide +kernel

end Census
end ClassCensus
