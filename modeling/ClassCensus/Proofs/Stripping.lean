import ClassCensus.Proofs.Attributes

/-!
# ClassCensus.Proofs.Stripping

Taking attribute groups off the front of a line, as a loop: every round makes the line shorter, so
every run ends, and `dropAttributes` is the line at which it ends.

`Stripped rest parts line` is the cut of a line that the loop makes, group by group; a line has
exactly one. Inside a round, `bracketDepth` is what the scan counts.
-/

namespace ClassCensus
namespace Source

/-! ## What the scan counts -/

/-- The brackets opened in a text less those closed. -/
def bracketDepth (t : Text) : Int := t.count '[' - t.count ']'

theorem bracketDepth_append (a b : Text) :
    bracketDepth (a ++ b) = bracketDepth a + bracketDepth b := by
  simp only [bracketDepth, List.count_append]
  omega

/-- One character further, while brackets are still open. -/
theorem afterGroup?_cons {depth left : Nat} {c : Char}
    (hleft : depth + [c].count '[' = left + [c].count ']') (hopen : 0 < left) (t : Text) :
    afterGroup? depth (c :: t) = afterGroup? left t := by
  by_cases hopening : c = '['
  · subst hopening
    obtain rfl : depth + 1 = left := by simpa using hleft
    rw [afterGroup?]
  · by_cases hclosing : c = ']'
    · subst hclosing
      obtain rfl : depth = left + 1 := by simpa using hleft
      rw [afterGroup?, if_neg (by omega), Nat.add_sub_cancel]
    · obtain rfl : depth = left := by simpa [hopening, hclosing] using hleft
      rw [afterGroup?]
      · exact hopening
      · exact hclosing

/-- Up to any point before the close, the scan has counted the brackets it passed. -/
theorem afterGroup?_append {depth : Nat} (hdepth : 0 < depth) {v : Text}
    (hclose : ∀ u, u <+: v → ¬ Closes depth u) (t : Text) :
    ∃ left : Nat, 0 < left ∧ left = depth + bracketDepth v ∧
      afterGroup? depth (v ++ t) = afterGroup? left t := by
  induction v generalizing depth with
  | nil => exact ⟨depth, hdepth, by simp [bracketDepth], rfl⟩
  | cons c v ih =>
    obtain ⟨next, hnext⟩ : ∃ next, depth + [c].count '[' = next + [c].count ']' := by
      have hone : [c].count ']' ≤ 1 := List.count_le_length
      exact ⟨depth + [c].count '[' - [c].count ']', by omega⟩
    have hopen : 0 < next := by
      rcases Nat.eq_zero_or_pos next with rfl | hpos
      · exact absurd ((closes_cons hdepth hnext).2 (closes_zero.2 rfl))
          (hclose [c] ((List.prefix_cons_inj c).2 List.nil_prefix))
      · exact hpos
    obtain ⟨left, hpos, hleft, hscan⟩ := ih hopen fun u hu hcloses =>
      hclose (c :: u) ((List.prefix_cons_inj c).2 hu) ((closes_cons hdepth hnext).2 hcloses)
    refine ⟨left, hpos, ?_, ?_⟩
    · have happend := bracketDepth_append [c] v
      have hone : bracketDepth [c] = [c].count '[' - [c].count ']' := rfl
      rw [List.singleton_append] at happend
      omega
    · rw [List.cons_append, afterGroup?_cons hnext hopen, hscan]

/-- While no group in front is complete, the scan counts the brackets that are open. -/
theorem afterAttribute?_append {v : Text} (hopens : "#[".toList <+: v)
    (hgroup : ∀ g, g <+: v → ¬ IsGroup g) :
    0 < bracketDepth v ∧
      ∀ w, afterAttribute? (v ++ w) = afterGroup? (bracketDepth v).toNat w := by
  obtain ⟨u, rfl⟩ := hopens
  have hclose : ∀ x, x <+: u → ¬ Closes 1 x := by
    intro x hx hcloses
    exact hgroup _ ((List.prefix_append_right_inj _).2 hx) (isGroup_iff.2 ⟨x, rfl, hcloses⟩)
  have hdepth : bracketDepth ("#[".toList ++ u) = 1 + bracketDepth u := bracketDepth_append _ u
  have hscan : ∀ w, ∃ left : Nat, 0 < left ∧ left = 1 + bracketDepth u ∧
      afterGroup? 1 (u ++ w) = afterGroup? left w := afterGroup?_append Nat.one_pos hclose
  constructor
  · obtain ⟨left, hpos, hleft, -⟩ := hscan []
    omega
  · intro w
    obtain ⟨left, -, hleft, hafter⟩ := hscan w
    have hleft' : left = (bracketDepth ("#[".toList ++ u)).toNat := by omega
    have hfront : Text.after? "#[".toList ("#[".toList ++ u ++ w) = some (u ++ w) :=
      Text.after?_eq_some.2 (List.append_assoc ..)
    rw [← hleft', ← hafter, afterAttribute?, hfront]
    rfl

/-! ## The brackets of a group -/

/-- A text is a group if the scan of it ends with its last character. -/
theorem isGroup_iff_afterAttribute? {g : Text} : IsGroup g ↔ afterAttribute? g = some [] := by
  simp [afterAttribute?_eq_some]

instance : DecidablePred IsGroup := fun _ => decidable_of_iff _ isGroup_iff_afterAttribute?.symm

/-- A text has at most one group in front. -/
theorem IsGroup.unique {g g' line : Text} (h : IsGroup g) (h' : IsGroup g') (hg : g <+: line)
    (hg' : g' <+: line) : g = g' := by
  rcases List.prefix_or_prefix_of_prefix hg hg' with hfront | hfront
  · exact h'.first g h.opens hfront h.balanced
  · exact (h.first g' h'.opens hfront h'.balanced).symm

theorem IsGroup.bracketDepth_eq {g : Text} (h : IsGroup g) : bracketDepth g = 0 := by
  have hbalanced := h.balanced
  unfold bracketDepth
  omega

/-- A front of a group that is long enough to have its opener leaves brackets open. -/
theorem IsGroup.bracketDepth_pos {g v : Text} (h : IsGroup g) (hv : v <+: g) (hne : v ≠ g)
    (hopens : "#[".toList <+: v) : 0 < bracketDepth v := by
  refine (afterAttribute?_append hopens fun x hx hgroup => hne ?_).1
  obtain rfl := hgroup.unique h (hx.trans hv) List.prefix_rfl
  exact hv.eq_of_length_le hx.length_le

/-- A group ends with the first closing bracket that leaves none open. -/
theorem IsGroup.ends {g : Text} (h : IsGroup g) :
    (∃ u, g = u ++ [']']) ∧ bracketDepth g = 0 ∧
      ∀ v, v ++ [']'] <+: g → v ++ [']'] ≠ g → 0 < bracketDepth (v ++ [']']) := by
  have hlong : ∀ v, v ++ [']'] <+: g → "#[".toList <+: v ++ [']'] := by
    intro v hv
    rcases List.prefix_or_prefix_of_prefix hv h.opens with hshort | hopens
    · have hmem : ']' ∈ "#[".toList := hshort.subset (by simp)
      exact absurd hmem (by decide)
    · exact hopens
  refine ⟨?_, h.bracketDepth_eq, fun v hv hne => h.bracketDepth_pos hv hne (hlong v hv)⟩
  obtain ⟨u, rfl, hcloses⟩ := isGroup_iff.1 h
  rcases List.eq_nil_or_concat' u with rfl | ⟨v, c, rfl⟩
  · exact absurd hcloses (not_closes_nil Nat.one_pos)
  · have hopen : 0 < bracketDepth ("#[".toList ++ v) :=
      h.bracketDepth_pos ((List.prefix_append_right_inj _).2 (List.prefix_append v [c])) (by simp)
        (List.prefix_append _ v)
    have hzero := h.bracketDepth_eq
    rw [← List.append_assoc, bracketDepth_append] at hzero
    have hc : c = ']' := by
      by_contra hne
      have hnonneg : 0 ≤ bracketDepth [c] := by simp [bracketDepth, hne]
      omega
    exact ⟨"#[".toList ++ v, by rw [hc, List.append_assoc]⟩

/-- The scan for the end of the group in front of `line` gets as far as `v`: it does not go past
the end of a complete group. -/
def Scans (line v : Text) : Prop := v <+: line ∧ ∀ g, IsGroup g → g <+: line → v <+: g

/-- Where the scan has not come to the end of a group, it has not passed one. -/
theorem Scans.not_isGroup {line v : Text} (h : Scans line v) (hgroup : ¬ IsGroup v) :
    ∀ g, g <+: v → ¬ IsGroup g := by
  intro g hg hfirst
  have hv := h.2 g hfirst (hg.trans h.1)
  rw [hv.eq_of_length_le hg.length_le] at hgroup
  exact hgroup hfirst

theorem Scans.bracketDepth_nonneg {line v : Text} (hopens : "#[".toList <+: line)
    (h : Scans line v) : 0 ≤ bracketDepth v := by
  rcases List.prefix_or_prefix_of_prefix h.1 hopens with hshort | hlong
  · -- not yet past the opener
    have hfronts : ∀ u ∈ "#[".toList.inits, 0 ≤ bracketDepth u := by decide
    exact hfronts v ((List.mem_inits _ _).2 hshort)
  · by_cases hgroup : IsGroup v
    · exact Int.le_of_eq hgroup.bracketDepth_eq.symm
    · exact Int.le_of_lt (afterAttribute?_append hlong (h.not_isGroup hgroup)).1

/-! ## The run -/

theorem Strips.length_lt {line next : Text} (h : Strips line next) : next.length < line.length := by
  obtain ⟨g, s, rfl, hgroup, -⟩ := strips_iff.1 h
  have hlong : 2 ≤ g.length := hgroup.opens.length_le
  simp only [List.length_append]
  omega

theorem acc_strips (line : Text) : Acc (fun after before => Strips before after) line :=
  Subrelation.accessible Strips.length_lt ((InvImage.wf List.length Nat.lt_wfRel.wf).apply line)

theorem not_strips_of_none {line : Text} (h : afterAttribute? line = none) (next : Text) :
    ¬ Strips line next := by
  rintro ⟨rest, hrest, -⟩
  rw [h] at hrest
  cases hrest

/-- The length of a line is fuel enough: no group is left in front. -/
theorem afterAttribute?_dropAttributesFrom {fuel : Nat} {line : Text} (hfuel : line.length ≤ fuel) :
    afterAttribute? (dropAttributesFrom fuel line) = none := by
  induction fuel generalizing line with
  | zero =>
    obtain rfl := List.eq_nil_of_length_eq_zero (Nat.le_zero.1 hfuel)
    rfl
  | succ fuel ih =>
    rw [dropAttributesFrom]
    cases hafter : afterAttribute? line with
    | none => exact hafter
    | some rest =>
      have hround : Strips line (Text.trimLeft rest) := ⟨rest, hafter, rfl⟩
      exact ih (by have hshorter := hround.length_lt; omega)

theorem afterAttribute?_dropAttributes (line : Text) :
    afterAttribute? (dropAttributes line) = none :=
  afterAttribute?_dropAttributesFrom (Nat.le_refl _)

/-! ## The cut of a line -/

/-- The line is groups, each with all the white space after it, and then `rest`, which starts with
no group. -/
inductive Stripped (rest : Text) : List (Text × Text) → Text → Prop
  | bare (hrest : ∀ g, IsGroup g → ¬ g <+: rest) : Stripped rest [] rest
  | group {g s line : Text} {parts : List (Text × Text)} (hgroup : IsGroup g) (hrun : IsRun s line)
      (hline : Stripped rest parts line) : Stripped rest ((g, s) :: parts) (g ++ s ++ line)

theorem Stripped.isGroup {rest line : Text} {parts : List (Text × Text)}
    (h : Stripped rest parts line) : ∀ part ∈ parts, IsGroup part.1 := by
  induction h with
  | bare _ => exact List.forall_mem_nil _
  | group hgroup _ _ ih => exact List.forall_mem_cons.2 ⟨hgroup, ih⟩

/-- Where a run ends, the rounds of it are the cut. -/
theorem exists_stripped {rest line : Text} (hrun : Relation.ReflTransGen Strips line rest)
    (hrest : afterAttribute? rest = none) : ∃ parts, Stripped rest parts line := by
  induction hrun using Relation.ReflTransGen.head_induction_on with
  | refl =>
    refine ⟨[], .bare fun g hgroup hg => ?_⟩
    obtain ⟨t, rfl⟩ := hg
    rw [afterAttribute?_eq_some.2 ⟨g, rfl, hgroup⟩] at hrest
    cases hrest
  | head hround _ ih =>
    obtain ⟨g, s, rfl, hgroup, hblank⟩ := strips_iff.1 hround
    obtain ⟨parts, hparts⟩ := ih
    exact ⟨(g, s) :: parts, .group hgroup hblank hparts⟩

/-- A line has one cut. -/
theorem Stripped.unique {rest rest' line : Text} {parts parts' : List (Text × Text)}
    (h : Stripped rest parts line) (h' : Stripped rest' parts' line) :
    parts' = parts ∧ rest' = rest := by
  induction h generalizing parts' with
  | bare hrest =>
    cases h' with
    | bare _ => exact ⟨rfl, rfl⟩
    | group hgroup _ _ =>
      exact absurd (List.append_assoc .. ▸ List.prefix_append _ _) (hrest _ hgroup)
  | @group g s line parts hgroup hrun _ ih =>
    generalize hwhole : g ++ s ++ line = whole at h'
    cases h' with
    | bare hrest =>
      subst hwhole
      exact absurd (List.append_assoc g s line ▸ List.prefix_append g _) (hrest g hgroup)
    | @group g' s' line' parts' hgroup' hrun' hline' =>
      rw [List.append_assoc, List.append_assoc] at hwhole
      obtain rfl : g = g' := hgroup.unique hgroup' (hwhole ▸ List.prefix_append g _)
        (List.prefix_append g' _)
      have hspace := List.append_cancel_left hwhole
      obtain rfl : line = line' := by
        rw [← hrun.trimLeft_append, hspace, hrun'.trimLeft_append]
      obtain rfl := List.append_cancel_right hspace
      obtain ⟨rfl, rfl⟩ := ih hline'
      exact ⟨rfl, rfl⟩

/-- The loop that takes attribute groups off a line ends, at the rest of the one cut of the line
into groups, the white space after each, and a rest that starts with no group. Each group ends with
the first closing bracket that leaves none open, and in every round the scan counts the brackets
that are open, never less than none. The rest is a suffix, and a second run does not change it. -/
theorem groups_come_off_in_turn (line : Text) :
    (Acc (fun after before => Strips before after) line ∧
      Relation.ReflTransGen Strips line (dropAttributes line) ∧
      ∀ next, ¬ Strips (dropAttributes line) next) ∧
    (∃ parts : List (Text × Text),
      (∀ parts' rest, Stripped rest parts' line ↔ parts' = parts ∧ rest = dropAttributes line) ∧
      ∀ part ∈ parts, (∃ u, part.1 = u ++ "]".toList) ∧ bracketDepth part.1 = 0 ∧
        ∀ v, v ++ "]".toList <+: part.1 → v ++ "]".toList ≠ part.1 →
          0 < bracketDepth (v ++ "]".toList)) ∧
    (∀ reached, Relation.ReflTransGen Strips line reached → "#[".toList <+: reached →
      ∀ v w, reached = v ++ w → Scans reached v → 0 ≤ bracketDepth v ∧
        ("#[".toList <+: v → ¬ IsGroup v →
          afterAttribute? reached = afterGroup? (bracketDepth v).toNat w)) ∧
    dropAttributes line <:+ line ∧ dropAttributes (dropAttributes line) = dropAttributes line := by
  have hend := afterAttribute?_dropAttributes line
  have hrun : Relation.ReflTransGen Strips line (dropAttributes line) :=
    strips_dropAttributesFrom line.length line
  refine ⟨⟨acc_strips line, hrun, not_strips_of_none hend⟩, ?_, ?_,
    (attributed_dropAttributes line).suffix, dropAttributesFrom_of_none _ hend⟩
  · obtain ⟨parts, hparts⟩ := exists_stripped hrun hend
    refine ⟨parts, fun parts' rest => ⟨hparts.unique, ?_⟩, fun part hpart =>
      (hparts.isGroup part hpart).ends⟩
    rintro ⟨rfl, rfl⟩
    exact hparts
  · rintro reached - hopens v w rfl hscan
    refine ⟨hscan.bracketDepth_nonneg hopens, fun hlong hgroup => ?_⟩
    exact (afterAttribute?_append hlong (hscan.not_isGroup hgroup)).2 w

/-- Two groups, one with brackets inside: the cut, the result, and a point of the first scan at
which two brackets are open. -/
theorem nested_group_comes_off_first :
    Stripped "class C".toList [("#[A([1])]".toList, " ".toList), ("#[B]".toList, "\t".toList)]
        "#[A([1])] #[B]\tclass C".toList ∧
      dropAttributes "#[A([1])] #[B]\tclass C".toList = "class C".toList ∧
      Scans "#[A([1])] #[B]\tclass C".toList "#[A([1".toList ∧
      afterAttribute? "#[A([1])] #[B]\tclass C".toList =
        afterGroup? 2 "])] #[B]\tclass C".toList := by
  obtain ⟨-, ⟨parts, hparts, -⟩, hdepth, -⟩ :=
    groups_come_off_in_turn "#[A([1])] #[B]\tclass C".toList
  have hstripped : Stripped "class C".toList
      [("#[A([1])]".toList, " ".toList), ("#[B]".toList, "\t".toList)]
      "#[A([1])] #[B]\tclass C".toList := by
    have hrest : ∀ g, IsGroup g → ¬ g <+: "class C".toList := by
      intro g hgroup hg
      exact absurd (hgroup.opens.trans hg) (by decide)
    have hspace : IsRun " ".toList "#[B]\tclass C".toList :=
      isRun_takeWhile " #[B]\tclass C".toList
    have htab : IsRun "\t".toList "class C".toList := isRun_takeWhile "\tclass C".toList
    exact .group (by decide) hspace (.group (by decide) htab (.bare hrest))
  have hscan : Scans "#[A([1])] #[B]\tclass C".toList "#[A([1".toList := by
    refine ⟨by decide, fun g hgroup hg => ?_⟩
    have hfirst : IsGroup "#[A([1])]".toList := by decide
    rw [hgroup.unique hfirst hg (by decide)]
    decide
  refine ⟨hstripped, ((hparts _ _).1 hstripped).2.symm, hscan, ?_⟩
  exact (hdepth _ .refl (by decide) "#[A([1".toList _ rfl hscan).2 (by decide) (by decide)

end Source
end ClassCensus
