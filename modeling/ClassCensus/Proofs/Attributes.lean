import ClassCensus.Proofs.Word
import ClassCensus.Source.Reading
import Mathlib.Logic.Relation

/-!
# ClassCensus.Proofs.Attributes

The attribute groups in front of a line. A group is told by counting brackets: it starts with `#[`,
and no front of it that is shorter has as many closing brackets as opening ones.

`Strips line next` is one round of the loop that takes groups off: the scan finds the end of the
group in front, and the white space after it goes too. `Attributed rest line` says that `line` is
groups, each with white space after it, and then `rest`. `attributed_dropAttributes` and
`dropAttributes_of_attributed` tie it to the loop.
-/

namespace ClassCensus
namespace Source

/-- The text closes `depth` open brackets with its last character and not before. -/
structure Closes (depth : Nat) (u : Text) : Prop where
  balanced : depth + u.count '[' = u.count ']'
  first : ∀ v, v <+: u → depth + v.count '[' = v.count ']' → v = u

/-- An attribute group: it starts with `#[` and ends at the first bracket that balances it. -/
structure IsGroup (g : Text) : Prop where
  opens : "#[".toList <+: g
  balanced : g.count '[' = g.count ']'
  first : ∀ v, "#[".toList <+: v → v <+: g → v.count '[' = v.count ']' → v = g

/-- The line is attribute groups, each with white space or nothing after it, and then `rest`. -/
inductive Attributed (rest : Text) : Text → Prop
  | bare : Attributed rest rest
  | group {g s line : Text} (hgroup : IsGroup g) (hblank : ∀ c ∈ s, Text.isBlank c = true)
      (hline : Attributed rest line) : Attributed rest (g ++ s ++ line)

/-! ## One group -/

theorem closes_zero {u : Text} : Closes 0 u ↔ u = [] := by
  constructor
  · intro h
    exact (h.first [] List.nil_prefix (by simp)).symm
  · rintro rfl
    exact ⟨by simp, fun v hv _ => List.prefix_nil.1 hv⟩

theorem not_closes_nil {depth : Nat} (hdepth : 0 < depth) : ¬ Closes depth [] := by
  intro h
  have hbalanced := h.balanced
  simp only [List.count_nil] at hbalanced
  omega

/-- One character further, with the depth it leaves. -/
theorem closes_cons {depth left : Nat} {c : Char} {u : Text} (hdepth : 0 < depth)
    (hleft : depth + [c].count '[' = left + [c].count ']') :
    Closes depth (c :: u) ↔ Closes left u := by
  have hcount : ∀ (b : Char) (v : Text), (c :: v).count b = [c].count b + v.count b := by
    intro b v
    rw [← List.singleton_append, List.count_append]
  constructor
  · intro h
    refine ⟨?_, fun v hv hbalanced => ?_⟩
    · have hbalanced := h.balanced
      rw [hcount '[' u, hcount ']' u] at hbalanced
      omega
    · have hwhole := h.first (c :: v) ((List.prefix_cons_inj c).2 hv)
        (by rw [hcount '[' v, hcount ']' v]; omega)
      exact (List.cons.inj hwhole).2
  · intro h
    refine ⟨?_, fun v hv hbalanced => ?_⟩
    · have hbalanced := h.balanced
      rw [hcount '[' u, hcount ']' u]
      omega
    · cases v with
      | nil =>
        simp only [List.count_nil] at hbalanced
        omega
      | cons b v =>
        obtain ⟨rfl, hfront⟩ := List.cons_prefix_cons.1 hv
        rw [hcount '[' v, hcount ']' v] at hbalanced
        rw [h.first v hfront (by omega)]

/-- What is closed is not empty, so it starts with the first character. -/
theorem exists_closes_cons {depth : Nat} (left : Nat) {c : Char} {t rest : Text} (hdepth : 0 < depth)
    (hleft : depth + [c].count '[' = left + [c].count ']') :
    (∃ u, c :: t = u ++ rest ∧ Closes depth u) ↔ ∃ u, t = u ++ rest ∧ Closes left u := by
  constructor
  · rintro ⟨u, hu, hcloses⟩
    cases u with
    | nil => exact absurd hcloses (not_closes_nil hdepth)
    | cons b u =>
      obtain ⟨rfl, rfl⟩ := List.cons.inj hu
      exact ⟨u, rfl, (closes_cons hdepth hleft).1 hcloses⟩
  · rintro ⟨u, rfl, hcloses⟩
    exact ⟨c :: u, rfl, (closes_cons hdepth hleft).2 hcloses⟩

theorem afterGroup?_eq_some {depth : Nat} {t rest : Text} (hdepth : 0 < depth) :
    afterGroup? depth t = some rest ↔ ∃ u, t = u ++ rest ∧ Closes depth u := by
  fun_induction afterGroup? depth t with
  | case1 depth =>
    simp only [reduceCtorEq, false_iff, not_exists, not_and]
    intro u hu hcloses
    obtain ⟨rfl, -⟩ := List.append_eq_nil_iff.1 hu.symm
    exact not_closes_nil hdepth hcloses
  | case2 depth t ih =>
    rw [ih (by omega), exists_closes_cons (depth + 1) hdepth (by simp)]
  | case3 depth t hone =>
    obtain rfl : depth = 1 := by omega
    rw [exists_closes_cons 0 hdepth (by simp)]
    simp [closes_zero, eq_comm]
  | case4 depth t hmany ih =>
    have hleft : depth + 0 = depth - 1 + 1 := by omega
    rw [ih (by omega), exists_closes_cons (depth - 1) hdepth (by simpa using hleft)]
  | case5 depth c t hopen hclose ih =>
    have hc : c ≠ '[' ∧ c ≠ ']' := ⟨fun h => hopen h, fun h => hclose h⟩
    rw [ih hdepth, exists_closes_cons depth hdepth (by simp [hc.1, hc.2])]

theorem isGroup_iff {g : Text} : IsGroup g ↔ ∃ u, g = "#[".toList ++ u ∧ Closes 1 u := by
  have hopen : ∀ u : Text, ("#[".toList ++ u).count '[' = 1 + u.count '[' := by
    intro u
    rw [List.count_append]
    rfl
  have hclose : ∀ u : Text, ("#[".toList ++ u).count ']' = u.count ']' := by
    intro u
    rw [List.count_append, show "#[".toList.count ']' = 0 from rfl, Nat.zero_add]
  constructor
  · rintro ⟨⟨u, rfl⟩, hbalanced, hfirst⟩
    refine ⟨u, rfl, by rw [← hopen, ← hclose, hbalanced], fun v hv h => ?_⟩
    exact List.append_cancel_left (hfirst ("#[".toList ++ v) (List.prefix_append _ _)
      ((List.prefix_append_right_inj _).2 hv) (by rw [hopen, hclose, h]))
  · rintro ⟨u, rfl, hcloses⟩
    refine ⟨List.prefix_append _ _, by rw [hopen, hclose, hcloses.balanced], ?_⟩
    rintro _ ⟨v, rfl⟩ hv h
    rw [hopen, hclose] at h
    rw [hcloses.first v ((List.prefix_append_right_inj _).1 hv) h]

theorem afterAttribute?_eq_some {line rest : Text} :
    afterAttribute? line = some rest ↔ ∃ g, line = g ++ rest ∧ IsGroup g := by
  simp only [afterAttribute?, Option.bind_eq_some_iff, Text.after?_eq_some,
    afterGroup?_eq_some (Nat.one_pos), isGroup_iff]
  constructor
  · rintro ⟨_, rfl, u, rfl, hcloses⟩
    exact ⟨"#[".toList ++ u, (List.append_assoc ..).symm, u, rfl, hcloses⟩
  · rintro ⟨_, rfl, u, rfl, hcloses⟩
    exact ⟨u ++ rest, List.append_assoc .., u, rfl, hcloses⟩

theorem afterAttribute?_eq_none {line : Text} (h : ¬ "#[".toList <+: line) :
    afterAttribute? line = none := by
  rw [afterAttribute?, Text.after?_eq_none.2 h]
  rfl

/-! ## One round -/

/-- `s` is all the white space in front of `rest`. -/
structure IsRun (s rest : Text) : Prop where
  blank : ∀ c ∈ s, Text.isBlank c = true
  whole : ∀ c ∈ rest.head?, Text.isBlank c = false

theorem IsRun.trimLeft_append {s rest : Text} (h : IsRun s rest) :
    Text.trimLeft (s ++ rest) = rest :=
  Text.dropWhile_append_of_head h.blank h.whole

theorem isRun_takeWhile (t : Text) : IsRun (t.takeWhile Text.isBlank) (Text.trimLeft t) := by
  refine ⟨fun c hc => List.mem_takeWhile_imp hc, fun c hc => ?_⟩
  have hnot := List.head?_dropWhile_not Text.isBlank t
  rw [Text.trimLeft] at hc
  rwa [Option.mem_def.1 hc] at hnot

/-- One round of the loop: the group in front goes, and the white space after it. -/
def Strips (line next : Text) : Prop :=
  ∃ rest, afterAttribute? line = some rest ∧ next = Text.trimLeft rest

theorem strips_iff {line next : Text} :
    Strips line next ↔ ∃ g s, line = g ++ s ++ next ∧ IsGroup g ∧ IsRun s next := by
  constructor
  · rintro ⟨rest, hafter, rfl⟩
    obtain ⟨g, rfl, hgroup⟩ := afterAttribute?_eq_some.1 hafter
    refine ⟨g, rest.takeWhile Text.isBlank, ?_, hgroup, isRun_takeWhile rest⟩
    rw [List.append_assoc, Text.trimLeft, List.takeWhile_append_dropWhile]
  · rintro ⟨g, s, rfl, hgroup, hrun⟩
    exact ⟨s ++ next, afterAttribute?_eq_some.2 ⟨g, List.append_assoc .., hgroup⟩,
      hrun.trimLeft_append.symm⟩

/-! ## All groups -/

theorem strips_dropAttributesFrom (fuel : Nat) (line : Text) :
    Relation.ReflTransGen Strips line (dropAttributesFrom fuel line) := by
  induction fuel generalizing line with
  | zero => exact .refl
  | succ fuel ih =>
    rw [dropAttributesFrom]
    cases hafter : afterAttribute? line with
    | none => exact .refl
    | some rest => exact .head ⟨rest, hafter, rfl⟩ (ih (Text.trimLeft rest))

theorem dropAttributesFrom_of_none (fuel : Nat) {line : Text} (h : afterAttribute? line = none) :
    dropAttributesFrom fuel line = line := by
  cases fuel <;> simp [dropAttributesFrom, h]

/-- A run of rounds takes off groups. -/
theorem attributed_of_run {rest line : Text} (h : Relation.ReflTransGen Strips line rest) :
    Attributed rest line := by
  induction h using Relation.ReflTransGen.head_induction_on with
  | refl => exact .bare
  | head hround _ ih =>
    obtain ⟨g, s, rfl, hgroup, hrun⟩ := strips_iff.1 hround
    exact .group hgroup hrun.blank ih

theorem attributed_dropAttributes (line : Text) : Attributed (dropAttributes line) line :=
  attributed_of_run (strips_dropAttributesFrom line.length line)

theorem Attributed.suffix {rest line : Text} (h : Attributed rest line) : rest <:+ line := by
  induction h with
  | bare => exact List.suffix_rfl
  | group _ _ _ ih => exact ih.trans (List.suffix_append _ _)

/-- A line with groups in front does not start with white space unless what follows them does. -/
theorem Attributed.head {rest line : Text} (h : Attributed rest line)
    (hrest : ∀ c ∈ rest.head?, Text.isBlank c = false) :
    ∀ c ∈ line.head?, Text.isBlank c = false := by
  cases h with
  | bare => exact hrest
  | group hgroup _ _ =>
    obtain ⟨u, rfl, -⟩ := isGroup_iff.1 hgroup
    intro c hc
    obtain rfl : '#' = c := by simpa using hc
    decide

theorem dropAttributesFrom_of_attributed {rest line : Text} (h : Attributed rest line)
    (hhead : ∀ c ∈ rest.head?, Text.isBlank c = false) (hrest : afterAttribute? rest = none)
    {fuel : Nat} (hfuel : line.length ≤ fuel) : dropAttributesFrom fuel line = rest := by
  induction h generalizing fuel with
  | bare => exact dropAttributesFrom_of_none fuel hrest
  | @group g s line hgroup hblank hline ih =>
    have hlong : 0 < g.length := by
      obtain ⟨u, rfl, -⟩ := isGroup_iff.1 hgroup
      simp
    simp only [List.length_append] at hfuel
    obtain ⟨n, rfl⟩ : ∃ n, fuel = n + 1 := ⟨fuel - 1, by omega⟩
    have hafter : afterAttribute? (g ++ s ++ line) = some (s ++ line) :=
      afterAttribute?_eq_some.2 ⟨g, List.append_assoc .., hgroup⟩
    have hrun : IsRun s line := ⟨hblank, hline.head hhead⟩
    simp only [dropAttributesFrom, hafter, hrun.trimLeft_append]
    exact ih (by omega)

/-- Groups in front of something that is neither white space nor a group are all taken off. -/
theorem dropAttributes_of_attributed {rest line : Text} (h : Attributed rest line)
    (hhead : ∀ c ∈ rest.head?, Text.isBlank c = false) (hrest : afterAttribute? rest = none) :
    dropAttributes line = rest :=
  dropAttributesFrom_of_attributed h hhead hrest (Nat.le_refl _)

end Source
end ClassCensus
