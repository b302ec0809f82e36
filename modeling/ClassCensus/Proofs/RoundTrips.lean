import ClassCensus.Proofs.Imports
import ClassCensus.Proofs.Records
import ClassCensus.Proofs.Spelling

/-!
# ClassCensus.Proofs.RoundTrips

When an identity and its parts give each other back. Cutting an identity and joining the parts loses
one thing only: a separator in front of everything, if it is the last one, goes with the empty
namespace. Joining two parts and cutting them again fails if a separator starts later than the one
put in between, which may overlap that one or lie in the basename.

The identity of a class in a module has the separator for every dot. If the separator shares no
character with the names between the dots, no other occurrence of it can arise, and the catalog of
modules finds the module and the class again.
-/

namespace ClassCensus

/-! ## Parts of an identity -/

namespace Identity

variable {sep identity space name : Text}

theorem Parts.unique {space' name' : Text} (h : Parts sep identity space name)
    (h' : Parts sep identity space' name') : space = space' ∧ name = name' := by
  cases h with
  | whole hnone =>
    cases h' with
    | whole _ => exact ⟨rfl, rfl⟩
    | cut hcut => exact absurd hcut.cut (hnone _ _)
  | cut hcut =>
    cases h' with
    | whole hnone => exact absurd hcut.cut (hnone _ _)
    | cut hcut' => exact hcut.unique hcut'

theorem split_eq_iff : split sep identity = (space, name) ↔ Parts sep identity space name := by
  have hparts := split_parts sep identity
  constructor
  · intro h
    rwa [h] at hparts
  · intro h
    obtain ⟨hspace, hname⟩ := hparts.unique h
    exact Prod.ext hspace hname

/-- The parts of an identity join to what they were cut from, unless the cut is at its front. -/
theorem Parts.join_eq_iff (hsep : sep ≠ []) (h : Parts sep identity space name) :
    join sep space name = identity ↔ ¬ ∃ back, Text.CutsLast sep identity [] back := by
  cases h with
  | whole hnone =>
    have hcuts : ¬ ∃ back, Text.CutsLast sep identity [] back := fun ⟨back, hcut⟩ =>
      hnone [] back hcut.cut
    simp [join, hcuts]
  | cut hcut =>
    by_cases hspace : space = []
    · -- the name alone is shorter than the identity by the separator
      subst hspace
      have hshorter : name ≠ identity := by
        intro hsame
        have hlength := congrArg List.length (hsame.trans hcut.cut)
        simp only [List.length_append, List.length_nil] at hlength
        exact hsep (List.length_eq_zero_iff.1 (by omega))
      simp only [join, List.isEmpty_nil, if_true, hshorter, false_iff, not_not]
      exact ⟨name, hcut⟩
    · have hcuts : ¬ ∃ back, Text.CutsLast sep identity [] back := fun ⟨back, hfront⟩ =>
        hspace (hcut.unique hfront).1
      have hjoin : join sep space name = identity := by simp [join, hspace, hcut.cut]
      exact iff_of_true hjoin hcuts

theorem Parts.join_of_leading {back : Text} (h : Parts sep identity space name)
    (hcut : Text.CutsLast sep identity [] back) : join sep space name = back := by
  obtain ⟨rfl, rfl⟩ := h.unique (.cut hcut)
  rfl

end Identity

/-- The separator between two texts is the last one exactly if none starts later, inside it or in
the text behind it. -/
theorem Text.cutsLast_append_iff {sep front back : Text} :
    CutsLast sep (front ++ sep ++ back) front back ↔
      ∀ before after, sep ++ back = before ++ sep ++ after → before = [] := by
  constructor
  · intro h before after hoccurs
    have hlater : front ++ sep ++ back = (front ++ before) ++ sep ++ after := by
      simp only [List.append_assoc] at hoccurs ⊢
      rw [hoccurs]
    have hle := h.last _ _ hlater
    rw [List.length_append] at hle
    exact List.length_eq_zero_iff.1 (by omega)
  · intro hnone
    refine ⟨rfl, fun front' back' hoccurs => ?_⟩
    simp only [List.append_assoc] at hoccurs
    rcases List.append_eq_append_iff.1 hoccurs with ⟨before, rfl, hrest⟩ | ⟨before, rfl, -⟩
    · have hnil := hnone before back' (by rw [hrest, List.append_assoc])
      simp [hnil]
    · simp

namespace Identity

variable {sep space name : Text}

theorem parts_self_iff (hsep : sep ≠ []) : Parts sep name [] name ↔ ¬ sep <:+: name := by
  constructor
  · rintro h ⟨front, back, hoccurs⟩
    generalize hspace : ([] : Text) = space at h
    cases h with
    | whole hnone => exact hnone front back hoccurs.symm
    | cut hcut =>
      -- the name would be its own rest behind a separator
      have hlength := congrArg List.length hcut.cut
      simp only [List.length_append] at hlength
      exact hsep (List.length_eq_zero_iff.1 (by omega))
  · intro hnone
    exact .whole fun front back hoccurs => hnone ⟨front, back, hoccurs.symm⟩

theorem parts_append_iff (hspace : space ≠ []) :
    Parts sep (space ++ sep ++ name) space name ↔
      ∀ before after, sep ++ name = before ++ sep ++ after → before = [] := by
  rw [← Text.cutsLast_append_iff]
  constructor
  · intro h
    generalize hidentity : space ++ sep ++ name = identity at h
    cases h with
    | whole _ => exact absurd rfl hspace
    | cut hcut => exact hcut
  · exact .cut

/-- For every separator, joining gives the identity back that was cut, except exactly when its last
separator comes first of all, which is lost then; and cutting gives the parts back that were joined
exactly if the separator does not occur in a name that stands alone, nor after the start of the
separator that a namespace has brought along. -/
theorem split_and_join_inverse_iff {sep : Text} (hsep : sep ≠ []) :
    (∀ identity,
      (join sep (split sep identity).1 (split sep identity).2 = identity ↔
        ¬ ∃ back, Text.CutsLast sep identity [] back) ∧
      ∀ back, Text.CutsLast sep identity [] back →
        identity = sep ++ back ∧
          join sep (split sep identity).1 (split sep identity).2 = back) ∧
    ∀ space name, split sep (join sep space name) = (space, name) ↔
      (space = [] → ¬ sep <:+: name) ∧
      (space ≠ [] → ∀ before after, sep ++ name = before ++ sep ++ after → before = []) := by
  refine ⟨fun identity => ?_, fun space name => ?_⟩
  · have hparts := split_parts sep identity
    exact ⟨hparts.join_eq_iff hsep, fun back hcut => ⟨hcut.cut, hparts.join_of_leading hcut⟩⟩
  · rw [split_eq_iff]
    by_cases hspace : space = []
    · subst hspace
      simpa [join] using parts_self_iff hsep
    · simpa [join, hspace] using parts_append_iff hspace

/-- A leading separator is lost, one that overlaps another is not, and a name that starts with half
a separator comes apart in another place. -/
theorem colons_inverse_iff :
    "::".toList ≠ [] ∧
      join "::".toList (split "::".toList "::a".toList).1 (split "::".toList "::a".toList).2 =
        "a".toList ∧
      join "::".toList (split "::".toList "a:::b".toList).1 (split "::".toList "a:::b".toList).2 =
        "a:::b".toList ∧
      split "::".toList (join "::".toList "a".toList "b:".toList) = ("a".toList, "b:".toList) ∧
      split "::".toList (join "::".toList "a".toList ":b".toList) ≠ ("a".toList, ":b".toList) := by
  have hsep : "::".toList ≠ [] := by decide
  obtain ⟨hcut, hjoin⟩ := split_and_join_inverse_iff hsep
  have hleading : Text.CutsLast "::".toList "::a".toList [] "a".toList :=
    Text.splitLast?_eq_some.1 (by decide)
  have hinner : Text.CutsLast "::".toList "a:::b".toList "a:".toList "b".toList :=
    Text.splitLast?_eq_some.1 (by decide)
  have hlate : Text.CutsLast "::".toList ("a".toList ++ "::".toList ++ "b:".toList) "a".toList
      "b:".toList := Text.splitLast?_eq_some.1 (by decide)
  refine ⟨hsep, ((hcut _).2 _ hleading).2, (hcut _).1.2 ?_, (hjoin _ _).2 ⟨nofun, fun _ => ?_⟩, ?_⟩
  · rintro ⟨back, hfront⟩
    exact absurd (hinner.unique hfront).1 (by decide)
  · exact Text.cutsLast_append_iff.1 hlate
  · intro hsame
    exact absurd (((hjoin _ _).1 hsame).2 (by decide) ":".toList "b".toList (by decide)) (by decide)

end Identity

/-! ## Names of classes -/

namespace Text

variable {old new : Text}

/-- A text that shares no character with what is replaced stays as it is. -/
theorem replace_apart_append (hold : old ≠ []) {part : Text} (hpart : ∀ c ∈ part, c ∉ old)
    (new t : Text) : replace old new (part ++ t) = part ++ replace old new t := by
  induction part with
  | nil => rfl
  | cons c part ih =>
    have hfront : ¬ old <+: c :: (part ++ t) := by
      intro hfront
      obtain ⟨x, old, rfl⟩ := List.exists_cons_of_ne_nil hold
      have hx : x = c := (List.cons_prefix_cons.1 hfront).1
      exact hpart c (by simp) (by simp [hx])
    rw [List.cons_append, replace_cons hfront, ih fun x hx => hpart x (List.mem_cons_of_mem _ hx),
      List.cons_append]

/-- Between parts that share no character with it, a separator is replaced by another. -/
theorem replace_join (hold : old ≠ []) {parts : List Text}
    (hparts : ∀ p ∈ parts, ∀ c ∈ p, c ∉ old) :
    replace old new (join old parts) = join new parts := by
  induction parts with
  | nil => rfl
  | cons p ps ih =>
    have hp := hparts p (by simp)
    cases ps with
    | nil =>
      have hself := replace_apart_append hold hp new []
      rw [List.append_nil] at hself
      exact hself.trans (List.append_nil p)
    | cons q qs =>
      have hrest := ih fun r hr => hparts r (List.mem_cons_of_mem _ hr)
      calc replace old new (p ++ old ++ join old (q :: qs))
          = p ++ (new ++ replace old new (join old (q :: qs))) := by
            rw [List.append_assoc, replace_apart_append hold hp, replace_append hold]
        _ = p ++ new ++ join new (q :: qs) := by rw [hrest, List.append_assoc]

end Text

namespace TypeName

variable {sep : Text} {n : TypeName}

/-- The names that lead to a class: those of the packages and modules on the way, and its path. -/
def names (n : TypeName) : List Text := Text.pieces '.' n.home ++ [n.path]

/-- A class at the top level of a module, none of whose names is empty. -/
structure TopLevel (n : TypeName) : Prop where
  undotted : '.' ∉ n.path
  named : ∀ name ∈ n.names, name ≠ []

/-- The identity of a class joins its names with the separator. -/
theorem identity_eq_join (h : '.' ∉ n.path) (sep : Text) :
    n.identity sep = Text.join sep (Text.pieces '.' n.home) ++ sep ++ n.path := by
  have hpieces := Text.pieces_ne_nil '.' n.home
  have hdots : n.home ++ '.' :: n.path = Text.join ['.'] n.names := by
    rw [names, Text.join_concat hpieces, Text.join_pieces, List.append_assoc]
    rfl
  rw [identity, hdots, Text.replace_join (by simp), names, Text.join_concat hpieces]
  intro name hname c hc
  rw [List.mem_singleton]
  rintro rfl
  rcases List.mem_append.1 hname with hname | hname
  · exact (Text.mem_pieces hname hc).2 rfl
  · rw [List.mem_singleton.1 hname] at hc
    exact h hc

end TypeName

/-- The module and the class are found again in the identity of every class at the top level of a
module, if the separator shares no character with their names. It may contain dots. -/
theorem ModuleCatalog.identity_names_module_and_class {sep : Text} {n : TypeName} (hsep : sep ≠ [])
    (htop : n.TopLevel) (hapart : ∀ name ∈ n.names, ∀ c ∈ name, c ∉ sep) :
    split? sep (n.identity sep) = some (n.home, n.path) := by
  have hpieces := Text.pieces_ne_nil '.' n.home
  have hown : n.path ∈ n.names := by simp [TypeName.names]
  have hhome : ∀ p ∈ Text.pieces '.' n.home, p ∈ n.names := fun p hp => by simp [TypeName.names, hp]
  have hlast : Text.splitLast? sep (n.identity sep) =
      some (Text.join sep (Text.pieces '.' n.home), n.path) := by
    rw [TypeName.identity_eq_join htop.undotted]
    apply Text.splitLast?_of_disjoint (p := fun c => decide (c ∉ sep)) hsep
    · simp
    · intro c hc
      simpa using hapart _ hown c hc
  have hfront : Text.join sep (Text.pieces '.' n.home) ≠ [] := by
    obtain ⟨p, ps, hps⟩ := List.exists_cons_of_ne_nil hpieces
    have hp : p ≠ [] := htop.named p (hhome p (by simp [hps]))
    obtain ⟨c, p, rfl⟩ := List.exists_cons_of_ne_nil hp
    obtain ⟨t, ht⟩ := Text.join_cons sep c p ps
    rw [hps, ht]
    exact List.cons_ne_nil c t
  have hback : Text.replace sep ['.'] (Text.join sep (Text.pieces '.' n.home)) = n.home := by
    rw [Text.replace_join hsep fun p hp => hapart p (hhome p hp), Text.join_pieces]
  simp [split?, hlast, hfront, htop.named _ hown, hback]

/-- A separator that overlaps itself and contains the dot it replaces. -/
theorem ModuleCatalog.dotted_separator_names_module_and_class :
    "./.".toList ≠ [] ∧ TypeName.TopLevel ⟨"acme.shapes".toList, "Widget".toList⟩ ∧
      TypeName.identity "./.".toList ⟨"acme.shapes".toList, "Widget".toList⟩ =
        "acme./.shapes./.Widget".toList ∧
      split? "./.".toList (TypeName.identity "./.".toList ⟨"acme.shapes".toList, "Widget".toList⟩) =
        some ("acme.shapes".toList, "Widget".toList) := by
  have hsep : "./.".toList ≠ [] := by decide
  have htop : TypeName.TopLevel ⟨"acme.shapes".toList, "Widget".toList⟩ :=
    ⟨by decide, by decide⟩
  have hapart : (TypeName.names ⟨"acme.shapes".toList, "Widget".toList⟩).all
      (fun name => name.all fun c => !"./.".toList.contains c) = true := by decide
  simp only [List.all_eq_true, List.contains_eq_mem, Bool.not_eq_true', decide_eq_false_iff_not]
    at hapart
  exact ⟨hsep, htop, by decide, identity_names_module_and_class hsep htop hapart⟩

end ClassCensus
