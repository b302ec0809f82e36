import ClassCensus.Proofs.Word
import ClassCensus.Source.Reading
import Mathlib.Data.List.FinRange
import Mathlib.Data.List.Perm.Subperm

/-!
# ClassCensus.Proofs.Openings

The openings of a declaration, as a list and as texts.

As a list they follow the sequences of positions of the modifiers: `arrangements` lists every
sequence of one length in lexicographic order (`mem_arrangements`, `pairwise_arrangements`), and
the openings take the lengths from the greatest down.

As texts they are words with a space after each, so that a front of one is a front of its words
(`prefix_of_spelled`). The keyword is the last word and no word before it, so no opening goes on
from another, and a line is read alike with the openings in any order (`readBy_perm`).
-/

namespace ClassCensus
namespace Source

/-! ## Sequences of members -/

section Arrangements

variable {α β : Type}

theorem picks_map (f : α → β) (xs : List α) :
    picks (xs.map f) = (picks xs).map (Prod.map f (List.map f)) := by
  induction xs with
  | nil => rfl
  | cons x xs ih => simp [picks, ih, Function.comp_def]

theorem map_fst_picks (xs : List α) : (picks xs).map Prod.fst = xs := by
  induction xs with
  | nil => rfl
  | cons x xs ih => simpa [picks, Function.comp_def] using ih

theorem mem_picks {y : α} {rest xs : List α} :
    (y, rest) ∈ picks xs ↔ ∃ a b, xs = a ++ y :: b ∧ rest = a ++ b := by
  induction xs generalizing rest with
  | nil => simp [picks]
  | cons x xs ih =>
    simp only [picks, List.mem_cons, Prod.mk.injEq, List.mem_map, Prod.exists]
    constructor
    · rintro (⟨rfl, rfl⟩ | ⟨z, others, hpick, rfl, rfl⟩)
      · exact ⟨[], rest, rfl, rfl⟩
      · obtain ⟨a, b, rfl, rfl⟩ := ih.1 hpick
        exact ⟨x :: a, b, rfl, rfl⟩
    · rintro ⟨a, b, hxs, rfl⟩
      cases a with
      | nil =>
        obtain ⟨rfl, rfl⟩ := List.cons.inj hxs
        exact .inl ⟨rfl, rfl⟩
      | cons c a =>
        obtain ⟨rfl, rfl⟩ := List.cons.inj hxs
        exact .inr ⟨y, a ++ b, ih.2 ⟨a, b, rfl, rfl⟩, rfl, rfl⟩

theorem arrangements_map (f : α → β) (size : Nat) (xs : List α) :
    arrangements size (xs.map f) = (arrangements size xs).map (List.map f) := by
  induction size generalizing xs with
  | zero => rfl
  | succ size ih =>
    simp [arrangements, picks_map, ih, List.flatMap_map, List.map_flatMap, Function.comp_def]

/-- The arrangements are the sequences that take no member more often than it is there. -/
theorem mem_arrangements {size : Nat} {xs s : List α} :
    s ∈ arrangements size xs ↔ s.length = size ∧ s.Subperm xs := by
  induction size generalizing xs s with
  | zero =>
    simp only [arrangements, List.mem_singleton, List.length_eq_zero_iff]
    exact ⟨fun h => ⟨h, h ▸ List.nil_subperm⟩, And.left⟩
  | succ size ih =>
    simp only [arrangements, List.mem_flatMap, Prod.exists, List.mem_map, ih]
    constructor
    · rintro ⟨x, rest, hpick, s, ⟨hlength, hsub⟩, rfl⟩
      obtain ⟨a, b, rfl, rfl⟩ := mem_picks.1 hpick
      refine ⟨by simp [hlength], ?_⟩
      rw [List.perm_middle.subperm_left, List.subperm_cons]
      exact hsub
    · rintro ⟨hlength, hsub⟩
      cases s with
      | nil => simp at hlength
      | cons x s =>
        obtain ⟨a, b, rfl⟩ := List.append_of_mem (hsub.subset List.mem_cons_self)
        rw [List.perm_middle.subperm_left, List.subperm_cons] at hsub
        exact ⟨x, a ++ b, mem_picks.2 ⟨a, b, rfl, rfl⟩, s, ⟨by simpa using hlength, hsub⟩, rfl⟩

/-- An ordered list is arranged in lexicographic order. -/
theorem pairwise_arrangements {R : α → α → Prop} (size : Nat) {xs : List α} (h : xs.Pairwise R) :
    (arrangements size xs).Pairwise (List.Lex R) := by
  induction size generalizing xs with
  | zero => exact List.pairwise_singleton _ _
  | succ size ih =>
    rw [arrangements, List.pairwise_flatMap]
    constructor
    · rintro ⟨x, rest⟩ hpick
      obtain ⟨a, b, rfl, rfl⟩ := mem_picks.1 hpick
      have hrest : (a ++ b).Pairwise R := h.sublist ((List.sublist_cons_self x b).append_left a)
      exact List.pairwise_map.2 ((ih hrest).imp .cons)
    · rw [← map_fst_picks xs, List.pairwise_map] at h
      refine h.imp fun hfirst s hs t ht => ?_
      obtain ⟨s, -, rfl⟩ := List.mem_map.1 hs
      obtain ⟨t, -, rfl⟩ := List.mem_map.1 ht
      exact .rel hfirst

end Arrangements

/-! ## Choices of modifiers -/

/-- A sequence of positions comes before another one: it is longer, or it is as long and smaller
at the first place where they differ. -/
def Outranks {n : Nat} (s t : List (Fin n)) : Prop :=
  t.length < s.length ∨ t.length = s.length ∧ List.Lex (· < ·) s t

theorem Outranks.irrefl {n : Nat} (s : List (Fin n)) : ¬ Outranks s s := by
  rintro (h | ⟨-, h⟩)
  · exact Nat.lt_irrefl _ h
  · exact List.lt_irrefl s h

/-- The words of a sequence of positions: its modifiers and the keyword. -/
def chosenWords (modifiers : List Text) (keyword : Text) (s : List (Fin modifiers.length)) :
    List Text :=
  s.map modifiers.get ++ [keyword]

/-- The sequences of positions that make an opening, in the order of the openings. -/
def choices (modifiers : List Text) (exclusive : List (List Text)) :
    List (List (Fin modifiers.length)) :=
  (List.range (modifiers.length + 1)).reverse.flatMap fun size =>
    (arrangements size (List.finRange modifiers.length)).filter fun s =>
      !clashes exclusive (s.map modifiers.get)

theorem not_clashes_iff {exclusive : List (List Text)} {chosen : List Text} :
    (!clashes exclusive chosen) = true ↔ ∀ set ∈ exclusive, ¬ set ⊆ chosen := by
  simp [clashes, List.subset_def]

theorem mem_choices {modifiers : List Text} {exclusive : List (List Text)}
    {s : List (Fin modifiers.length)} :
    s ∈ choices modifiers exclusive ↔
      s.Nodup ∧ ∀ set ∈ exclusive, ¬ set ⊆ s.map modifiers.get := by
  simp only [choices, List.mem_flatMap, List.mem_reverse, List.mem_range, List.mem_filter,
    mem_arrangements, not_clashes_iff]
  constructor
  · rintro ⟨size, -, ⟨-, part, hperm, hsub⟩, hfree⟩
    exact ⟨hperm.nodup_iff.1 (hsub.nodup (List.nodup_finRange _)), hfree⟩
  · rintro ⟨hnodup, hfree⟩
    have hsub : s.Subperm (List.finRange modifiers.length) :=
      hnodup.subperm fun i _ => List.mem_finRange i
    have hlength : s.length ≤ modifiers.length := by simpa using hsub.length_le
    exact ⟨s.length, by omega, ⟨rfl, hsub⟩, hfree⟩

theorem pairwise_choices (modifiers : List Text) (exclusive : List (List Text)) :
    (choices modifiers exclusive).Pairwise Outranks := by
  have hlength : ∀ {size : Nat} {s : List (Fin modifiers.length)},
      s ∈ (arrangements size (List.finRange modifiers.length)).filter
        (fun s => !clashes exclusive (s.map modifiers.get)) → s.length = size :=
    fun hs => (mem_arrangements.1 (List.mem_filter.1 hs).1).1
  rw [choices, List.pairwise_flatMap]
  constructor
  · intro size _
    have hlex := pairwise_arrangements size (List.pairwise_lt_finRange modifiers.length)
    refine (hlex.filter _).imp_of_mem fun {s t} hs ht hst => .inr ⟨?_, hst⟩
    rw [hlength hs, hlength ht]
  · refine List.pairwise_reverse.2 (List.pairwise_lt_range.imp fun hsize s hs t ht => .inl ?_)
    rwa [hlength hs, hlength ht]

theorem nodup_choices (modifiers : List Text) (exclusive : List (List Text)) :
    (choices modifiers exclusive).Nodup := by
  refine (pairwise_choices modifiers exclusive).imp fun {s t} h => ?_
  rintro rfl
  exact Outranks.irrefl s h

/-! ## Words -/

/-- Words, with a space after each. -/
def spelled (ws : List Text) : Text := ws.flatMap (· ++ [' '])

theorem spelled_cons (w : Text) (ws : List Text) : spelled (w :: ws) = w ++ ' ' :: spelled ws := by
  simp [spelled]

theorem opening_eq_spelled (chosen : List Text) (keyword : Text) :
    opening chosen keyword = spelled (chosen ++ [keyword]) := by
  unfold opening
  induction chosen with
  | nil => simp [Text.join, spelled]
  | cons w ws ih =>
    obtain ⟨v, vs, hwords⟩ : ∃ v vs, ws ++ [keyword] = v :: vs :=
      List.exists_cons_of_ne_nil (by simp)
    rw [List.cons_append, spelled_cons, ← ih, hwords, Text.join]
    · simp
    · exact List.cons_ne_nil v vs

theorem splitOn_spelled_append {ws : List Text} (hws : ∀ w ∈ ws, ' ' ∉ w) (rest : Text) :
    (spelled ws ++ rest).splitOn ' ' = ws ++ rest.splitOn ' ' := by
  induction ws with
  | nil => rfl
  | cons w ws ih =>
    rw [List.forall_mem_cons] at hws
    rw [spelled_cons, List.append_assoc, List.cons_append, List.splitOn_append_cons_self,
      List.splitOn_eq_singleton hws.1, ih hws.2, List.singleton_append, List.cons_append]

/-- Where no word has a space, the words of a front are a front of the words. -/
theorem prefix_of_spelled {ws vs : List Text} (hws : ∀ w ∈ ws, ' ' ∉ w) (hvs : ∀ v ∈ vs, ' ' ∉ v)
    (h : spelled ws <+: spelled vs) : ws <+: vs := by
  obtain ⟨rest, hrest⟩ := h
  have hsplit : ws ++ rest.splitOn ' ' = vs ++ [[]] := by
    rw [← splitOn_spelled_append hws, hrest, ← List.append_nil (spelled vs),
      splitOn_spelled_append hvs, List.splitOn_nil]
  -- the rest has a piece of its own, so the words of the front end before the last piece
  rcases List.prefix_concat_iff.1 ⟨_, hsplit⟩ with hwhole | hfront
  · rw [← hwhole, List.append_right_eq_self] at hsplit
    exact absurd hsplit (List.splitOn_ne_nil ' ' rest)
  · exact hfront

/-- Two sequences of words that end with one keyword, and have it nowhere else, are the same if
one continues the other. -/
theorem eq_of_concat_front {keyword : Text} {ws vs : List Text} (hvs : keyword ∉ vs)
    (h : ws ++ [keyword] <+: vs ++ [keyword]) : ws = vs := by
  rcases List.prefix_concat_iff.1 h with hsame | hfront
  · exact List.append_cancel_right hsame
  · exact absurd (hfront.subset (by simp)) hvs

theorem openings_eq_map_choices (modifiers : List Text) (keyword : Text)
    (exclusive : List (List Text)) :
    openings modifiers keyword exclusive =
      (choices modifiers exclusive).map (spelled <| chosenWords modifiers keyword ·) := by
  have hsize : ∀ size, openingsOf modifiers keyword exclusive size =
      ((arrangements size (List.finRange modifiers.length)).filter fun s =>
        !clashes exclusive (s.map modifiers.get)).map
          (spelled <| chosenWords modifiers keyword ·) := by
    intro size
    have hpositions : arrangements size modifiers =
        (arrangements size (List.finRange modifiers.length)).map (List.map modifiers.get) := by
      rw [← arrangements_map, List.map_get_finRange]
    simp [openingsOf, hpositions, List.filter_map, Function.comp_def, opening_eq_spelled,
      chosenWords]
  rw [openings, choices, List.map_flatMap]
  exact List.flatMap_congr fun size _ => hsize size

/-! ## Lines that start with an opening -/

/-- No text of the list goes on from another one. -/
def Separate (fronts : List Text) : Prop := ∀ p ∈ fronts, ∀ q ∈ fronts, p <+: q → p = q

theorem Separate.perm {fronts order : List Text} (h : Separate fronts) (hperm : order.Perm fronts) :
    Separate order :=
  fun p hp q hq => h p (hperm.mem_iff.1 hp) q (hperm.mem_iff.1 hq)

section Words

variable {modifiers : List Text} {keyword : Text} (hmodifiers : ∀ m ∈ modifiers, ' ' ∉ m)
  (hkeyword : ' ' ∉ keyword) (hother : keyword ∉ modifiers)

include hmodifiers hkeyword hother

/-- An opening that goes on from another one has the same modifiers. -/
theorem map_get_eq_of_front {s t : List (Fin modifiers.length)}
    (h : spelled (chosenWords modifiers keyword s) <+: spelled (chosenWords modifiers keyword t)) :
    s.map modifiers.get = t.map modifiers.get := by
  have hchosen : ∀ u : List (Fin modifiers.length), ∀ w ∈ u.map modifiers.get, w ∈ modifiers := by
    intro u w hw
    obtain ⟨i, -, rfl⟩ := List.mem_map.1 hw
    exact List.get_mem modifiers i
  have hspace : ∀ u, ∀ w ∈ chosenWords modifiers keyword u, ' ' ∉ w := by
    intro u w hw
    rcases List.mem_append.1 hw with hw | hw
    · exact hmodifiers w (hchosen u w hw)
    · exact List.mem_singleton.1 hw ▸ hkeyword
  exact eq_of_concat_front (fun hmem => hother (hchosen t keyword hmem))
    (prefix_of_spelled (hspace s) (hspace t) h)

theorem openings_separate (exclusive : List (List Text)) :
    Separate (openings modifiers keyword exclusive) := by
  intro p hp q hq h
  rw [openings_eq_map_choices] at hp hq
  obtain ⟨s, -, rfl⟩ := List.mem_map.1 hp
  obtain ⟨t, -, rfl⟩ := List.mem_map.1 hq
  simp only [chosenWords, map_get_eq_of_front hmodifiers hkeyword hother h]

/-- With distinct modifiers, openings at two places of the list do not even have the same text. -/
theorem pairwise_openings (hdistinct : modifiers.Nodup) (exclusive : List (List Text)) :
    (openings modifiers keyword exclusive).Pairwise fun p q => ¬ p <+: q ∧ ¬ q <+: p := by
  have hinjective : Function.Injective (List.map modifiers.get) :=
    List.map_injective_iff.2 (List.nodup_iff_injective_get.1 hdistinct)
  rw [openings_eq_map_choices, List.pairwise_map]
  refine (nodup_choices modifiers exclusive).imp fun {s t} hne => ⟨fun h => ?_, fun h => ?_⟩
  · exact hne (hinjective (map_get_eq_of_front hmodifiers hkeyword hother h))
  · exact hne (hinjective (map_get_eq_of_front hmodifiers hkeyword hother h)).symm

end Words

/-- If no text of a list is a front of another one, a line has at most one of them in front. -/
theorem get_unique_of_pairwise {fronts : List Text}
    (h : fronts.Pairwise fun p q => ¬ p <+: q ∧ ¬ q <+: p) {line : Text} {i j : Fin fronts.length}
    (hi : fronts.get i <+: line) (hj : fronts.get j <+: line) : i = j := by
  have hapart : ∀ a b : Fin fronts.length, a < b → fronts.get a <+: line →
      ¬ fronts.get b <+: line := by
    intro a b hab ha hb
    have hpair := List.pairwise_iff_getElem.1 h a b a.isLt b.isLt hab
    exact (List.prefix_or_prefix_of_prefix ha hb).elim hpair.1 hpair.2
  rcases Nat.lt_trichotomy i j with hlt | heq | hgt
  · exact absurd hj (hapart i j hlt hi)
  · exact Fin.ext heq
  · exact absurd hi (hapart j i hgt hj)

/-- Where no text of a list goes on from another one, the first that fits is any that fits. -/
theorem Separate.findSome?_eq_some {fronts : List Text} (hseparate : Separate fronts)
    {line rest : Text} :
    fronts.findSome? (Text.after? · line) = some rest ↔ ∃ p ∈ fronts, line = p ++ rest := by
  constructor
  · intro h
    obtain ⟨p, hp, hafter⟩ := List.exists_of_findSome?_eq_some h
    exact ⟨p, hp, Text.after?_eq_some.1 hafter⟩
  · rintro ⟨p, hp, rfl⟩
    cases hfound : fronts.findSome? (Text.after? · (p ++ rest)) with
    | none =>
      have hnone := List.findSome?_eq_none_iff.1 hfound p hp
      rw [Text.after?_eq_none] at hnone
      exact absurd (List.prefix_append p rest) hnone
    | some rest' =>
      obtain ⟨q, hq, hafter⟩ := List.exists_of_findSome?_eq_some hfound
      have hline := Text.after?_eq_some.1 hafter
      -- two fronts of one line are the same
      have hpq : p = q := by
        have hp' : p <+: q ++ rest' := hline ▸ List.prefix_append p rest
        rcases List.prefix_or_prefix_of_prefix hp' (List.prefix_append q rest') with h | h
        · exact hseparate p hp q hq h
        · exact (hseparate q hq p hp h).symm
      subst hpq
      rw [List.append_cancel_left hline]

/-! ## Reading with other openings -/

/-- The reading of a line where declarations have this keyword and start with these texts, tried in
this order. -/
def readBy (keyword : Text) (fronts stops : List Text) (line : Text) : Reading :=
  match Text.after? "namespace " line with
  | some rest => .namespaced (namespaceName rest)
  | none =>
    if startsWithStop stops line then .stops
    else if Text.occursIn (keyword ++ " ".toList) line then
      match (fronts.findSome? (Text.after? · (dropAttributes line))).bind Text.leadingWord? with
      | some name => .declares name
      | none => .nothing
    else .nothing

theorem readBy_classOpenings : readBy classKeyword classOpenings = read := rfl

theorem readBy_perm {fronts order : List Text} (hseparate : Separate fronts)
    (hperm : order.Perm fronts) (keyword : Text) (stops : List Text) (line : Text) :
    readBy keyword order stops line = readBy keyword fronts stops line := by
  have hfound : order.findSome? (Text.after? · (dropAttributes line)) =
      fronts.findSome? (Text.after? · (dropAttributes line)) := by
    refine Option.ext fun rest => ?_
    rw [hseparate.findSome?_eq_some, (hseparate.perm hperm).findSome?_eq_some]
    simp only [hperm.mem_iff]
  rw [readBy, readBy, hfound]

/-- The openings are the texts of the sequences of positions without repetition that hold no
exclusive set, longer sequences first and those of one length in lexicographic order, each sequence
once. If the modifiers are distinct, the keyword is not one of them, and none of these words has a
space, then no opening goes on from another one, at most one is the front of a line, and lines are
read alike with the openings in any order; for classes that is how lines are read. -/
theorem openings_follow_choices (modifiers : List Text) (keyword : Text)
    (exclusive : List (List Text)) :
    (∃ sequences : List (List (Fin modifiers.length)),
      (∀ s, s ∈ sequences ↔ s.Nodup ∧ ∀ set ∈ exclusive, ¬ set ⊆ s.map modifiers.get) ∧
      sequences.Pairwise Outranks ∧ sequences.Nodup ∧
      openings modifiers keyword exclusive =
        sequences.map fun s => spelled (s.map modifiers.get ++ [keyword])) ∧
    (modifiers.Nodup → (∀ m ∈ modifiers, ' ' ∉ m) → ' ' ∉ keyword → keyword ∉ modifiers →
      (∀ i j, (openings modifiers keyword exclusive).get i <+:
        (openings modifiers keyword exclusive).get j → i = j) ∧
      (∀ line i j, (openings modifiers keyword exclusive).get i <+: line →
        (openings modifiers keyword exclusive).get j <+: line → i = j) ∧
      ∀ order, order.Perm (openings modifiers keyword exclusive) → ∀ stops line,
        readBy keyword order stops line =
          readBy keyword (openings modifiers keyword exclusive) stops line) ∧
    readBy classKeyword classOpenings = read := by
  refine ⟨⟨choices modifiers exclusive, fun s => mem_choices, pairwise_choices modifiers exclusive,
    nodup_choices modifiers exclusive, openings_eq_map_choices modifiers keyword exclusive⟩, ?_,
    readBy_classOpenings⟩
  intro hdistinct hmodifiers hkeyword hother
  have hpairwise := pairwise_openings hmodifiers hkeyword hother hdistinct exclusive
  refine ⟨fun i j h => ?_, fun line i j => get_unique_of_pairwise hpairwise, ?_⟩
  · exact get_unique_of_pairwise hpairwise h List.prefix_rfl
  · intro order hperm stops line
    have hseparate := openings_separate hmodifiers hkeyword hother exclusive
    exact readBy_perm hseparate hperm keyword stops line

/-- The openings of classes, tried with the fewest modifiers first, give the same reading. -/
theorem reversed_openings_of_classes :
    classModifiers.Nodup ∧ (∀ m ∈ classModifiers, ' ' ∉ m) ∧ ' ' ∉ classKeyword ∧
      classKeyword ∉ classModifiers ∧
      readBy classKeyword classOpenings.reverse defaultStops
        "#[A] readonly final class Widget extends B".toList = .declares "Widget".toList := by
  have hdistinct : classModifiers.Nodup := by decide
  have hmodifiers : ∀ m ∈ classModifiers, ' ' ∉ m := by decide
  have hkeyword : ' ' ∉ classKeyword := by decide
  have hother : classKeyword ∉ classModifiers := by decide
  obtain ⟨-, -, horder⟩ := (openings_follow_choices classModifiers classKeyword
    exclusiveModifiers).2.1 hdistinct hmodifiers hkeyword hother
  refine ⟨hdistinct, hmodifiers, hkeyword, hother, ?_⟩
  rw [horder classOpenings.reverse (List.reverse_perm _)]
  decide

example : classOpenings =
    ["final readonly class ", "abstract readonly class ", "readonly final class ",
      "readonly abstract class ", "final class ", "abstract class ", "readonly class ",
      "class "] := by
  decide

end Source
end ClassCensus
