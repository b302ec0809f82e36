import ClassCensus.Text.Blank
import ClassCensus.Text.Word
import Mathlib.Data.List.Infix
import Mathlib.Data.List.TakeWhile

/-!
# ClassCensus.Proofs.Word

What the cuts of a line amount to, said without the recursions that make them: a front that is
taken off, a part that occurs somewhere or is replaced, the identifier at the front of a text, and
a text trimmed at both ends.
-/

namespace ClassCensus
namespace Text

theorem after?_eq_some {front t rest : Text} : after? front t = some rest ↔ t = front ++ rest := by
  induction front generalizing t with
  | nil => simp [after?, eq_comm]
  | cons a front ih =>
    cases t with
    | nil => simp [after?]
    | cons c t =>
      by_cases hc : a = c
      · subst hc
        simp [after?, ih]
      · simp [after?, hc, Ne.symm hc]

theorem after?_eq_none {front t : Text} : after? front t = none ↔ ¬ front <+: t := by
  rw [Option.eq_none_iff_forall_ne_some]
  constructor
  · rintro h ⟨rest, rfl⟩
    exact h rest (after?_eq_some.2 rfl)
  · intro h rest hrest
    exact h ⟨rest, (after?_eq_some.1 hrest).symm⟩

theorem isSome_splitFirst? {part t : Text} : (splitFirst? part t).isSome = true ↔ part <:+: t := by
  induction t with
  | nil =>
    rw [splitFirst?, Option.isSome_map, List.infix_nil]
    cases part <;> simp [after?]
  | cons c t ih =>
    rw [splitFirst?, List.infix_cons_iff, ← ih]
    cases hafter : after? part (c :: t) with
    | some rest => simp [after?_eq_some.1 hafter]
    | none => simp [after?_eq_none.1 hafter]

theorem eq_append_of_splitFirst? {sep t a b : Text} (h : splitFirst? sep t = some (a, b)) :
    t = a ++ sep ++ b := by
  induction t generalizing a with
  | nil =>
    obtain ⟨rest, hrest, heq⟩ := Option.map_eq_some_iff.1 h
    cases heq
    exact after?_eq_some.1 hrest
  | cons c t ih =>
    rw [splitFirst?] at h
    cases hafter : after? sep (c :: t) with
    | some rest =>
      simp only [hafter] at h
      cases h
      exact after?_eq_some.1 hafter
    | none =>
      simp only [hafter] at h
      obtain ⟨⟨a', b'⟩, hsplit, heq⟩ := Option.map_eq_some_iff.1 h
      cases heq
      rw [ih hsplit]
      rfl

theorem occursIn_iff {part t : Text} : occursIn part t = true ↔ part <:+: t := isSome_splitFirst?

/-! ## Replaced parts -/

theorem replaceFrom_append (old new part t : Text) :
    replaceFrom old new part.length (part ++ t) = replaceFrom old new 0 t := by
  induction part with
  | nil => rfl
  | cons c part ih =>
    rw [List.cons_append, List.length_cons, replaceFrom]
    exact ih

theorem replace_append {old : Text} (hold : old ≠ []) (new t : Text) :
    replace old new (old ++ t) = new ++ replace old new t := by
  obtain ⟨c, old, rfl⟩ := List.exists_cons_of_ne_nil hold
  have hfront : (c :: old).isPrefixOf (c :: (old ++ t)) = true :=
    List.isPrefixOf_iff_prefix.2 ⟨t, rfl⟩
  rw [List.cons_append, replace, replaceFrom, if_pos hfront]
  exact congrArg (new ++ ·) (replaceFrom_append _ _ old t)

theorem replace_cons {old : Text} {c : Char} {t : Text} (h : ¬ old <+: c :: t) (new : Text) :
    replace old new (c :: t) = c :: replace old new t := by
  have hfront : ¬ old.isPrefixOf (c :: t) = true := by rwa [List.isPrefixOf_iff_prefix]
  rw [replace, replaceFrom, if_neg hfront, replace]

/-! ## Identifiers -/

/-- A word character other than a decimal digit, and word characters after it. -/
def IsIdentifier (t : Text) : Prop :=
  ∃ c rest, t = c :: rest ∧ isWord c = true ∧ isDecimal c = false ∧ ∀ x ∈ rest, isWord x = true

theorem IsIdentifier.ne_nil {t : Text} (h : IsIdentifier t) : t ≠ [] := by
  obtain ⟨c, rest, rfl, -⟩ := h
  simp

theorem IsIdentifier.isWord {t : Text} (h : IsIdentifier t) : ∀ x ∈ t, isWord x = true := by
  obtain ⟨c, rest, rfl, hc, -, hrest⟩ := h
  intro x hx
  rcases List.mem_cons.1 hx with rfl | hx
  · exact hc
  · exact hrest x hx

/-- The text does not start with a word character. -/
def EndsWord (t : Text) : Prop := ∀ c ∈ t.head?, isWord c = false

theorem takeWhile_append_of_endsWord {w r : Text} (hw : ∀ x ∈ w, isWord x = true)
    (hr : EndsWord r) : (w ++ r).takeWhile isWord = w := by
  rw [List.takeWhile_append_of_pos hw]
  cases r with
  | nil => simp
  | cons c r => simp [hr c (by simp)]

theorem leadingWord?_eq_some {t w : Text} :
    leadingWord? t = some w ↔ ∃ r, t = w ++ r ∧ IsIdentifier w ∧ EndsWord r := by
  constructor
  · intro h
    cases t with
    | nil => cases h
    | cons c t =>
      by_cases hc : opensWord c = true
      · simp only [leadingWord?, hc, if_true, Option.some.injEq] at h
        subst h
        simp only [opensWord, Bool.and_eq_true, Bool.not_eq_true'] at hc
        refine ⟨t.dropWhile isWord, by simp, ⟨c, _, rfl, hc.1, hc.2, ?_⟩, ?_⟩
        · intro x hx
          exact List.mem_takeWhile_imp hx
        · intro x hx
          have hnot := List.head?_dropWhile_not isWord t
          rw [Option.mem_def.1 hx] at hnot
          simpa using hnot
      · simp [leadingWord?, hc] at h
  · rintro ⟨r, rfl, ⟨c, rest, rfl, hc, hdecimal, hrest⟩, hr⟩
    simp [leadingWord?, opensWord, hc, hdecimal, takeWhile_append_of_endsWord hrest hr]

/-- The longest identifier at the front of a text. -/
structure IsLeadingWord (t w : Text) : Prop where
  identifier : IsIdentifier w
  front : w <+: t
  longest : ∀ v, IsIdentifier v → v <+: t → v.length ≤ w.length

theorem isLeadingWord_iff {t w : Text} : IsLeadingWord t w ↔ leadingWord? t = some w := by
  rw [leadingWord?_eq_some]
  constructor
  · rintro ⟨hword, ⟨r, rfl⟩, hlongest⟩
    refine ⟨r, rfl, hword, fun x hx => ?_⟩
    -- a word character that follows would make a longer identifier
    by_contra hx'
    obtain ⟨r', rfl⟩ : ∃ r', r = x :: r' := by
      cases r with
      | nil => cases hx
      | cons y r => exact ⟨r, by simpa using hx⟩
    obtain ⟨c, rest, rfl, hc, hdecimal, hrest⟩ := hword
    have hlonger : IsIdentifier (c :: (rest ++ [x])) := by
      refine ⟨c, _, rfl, hc, hdecimal, fun y hy => ?_⟩
      rcases List.mem_append.1 hy with hy | hy
      · exact hrest y hy
      · rw [List.mem_singleton.1 hy]
        simpa using hx'
    have hlength := hlongest _ hlonger ⟨r', by simp⟩
    simp only [List.length_cons, List.length_append, List.length_nil] at hlength
    omega
  · rintro ⟨r, rfl, hword, hr⟩
    refine ⟨hword, List.prefix_append w r, fun v hv ⟨tail, htail⟩ => ?_⟩
    -- `v` is word characters only, and those end with `w`
    have htake : w = v ++ tail.takeWhile isWord := by
      rw [← List.takeWhile_append_of_pos hv.isWord, htail,
        takeWhile_append_of_endsWord hword.isWord hr]
    rw [htake, List.length_append]
    omega

/-! ## Trimmed texts -/

/-- `v` is what is left of `t` when characters of a set are taken off both ends. -/
structure IsTrimmed (set : Char → Bool) (t v : Text) : Prop where
  split : ∃ front back, t = front ++ v ++ back ∧ (∀ c ∈ front, set c = true) ∧
    ∀ c ∈ back, set c = true
  head : ∀ c ∈ v.head?, set c = false
  last : ∀ c ∈ v.getLast?, set c = false

theorem dropWhile_append_of_head {set : Char → Bool} {a v : Text} (ha : ∀ c ∈ a, set c = true)
    (hv : ∀ c ∈ v.head?, set c = false) : (a ++ v).dropWhile set = v := by
  rw [List.dropWhile_append_of_pos ha]
  cases v with
  | nil => rfl
  | cons c v => simp [hv c (by simp)]

theorem IsTrimmed.eq {set : Char → Bool} {t v : Text} (h : IsTrimmed set t v) :
    trimSet set t = v := by
  obtain ⟨⟨front, back, rfl, hfront, hback⟩, hhead, hlast⟩ := h
  by_cases hv : v = []
  · subst hv
    have hall : ∀ c ∈ front ++ back, set c = true := by
      intro c hc
      rcases List.mem_append.1 hc with hc | hc
      · exact hfront c hc
      · exact hback c hc
    simp [trimSet, List.dropWhile_eq_nil_iff.2 hall]
  · have hhead' : ∀ c ∈ (v ++ back).head?, set c = false := by
      rw [List.head?_append_of_ne_nil _ hv]
      exact hhead
    have hlast' : ∀ c ∈ v.reverse.head?, set c = false := by
      rw [List.head?_reverse]
      exact hlast
    have hback' : ∀ c ∈ back.reverse, set c = true := by simpa using hback
    rw [trimSet, List.append_assoc, dropWhile_append_of_head hfront hhead', List.reverse_append,
      dropWhile_append_of_head hback' hlast', List.reverse_reverse]

theorem isTrimmed_trimSet (set : Char → Bool) (t : Text) : IsTrimmed set t (trimSet set t) := by
  set u := t.dropWhile set with hu
  have hsplit : u = trimSet set t ++ (u.reverse.takeWhile set).reverse := by
    rw [trimSet, ← hu, ← List.reverse_append, List.takeWhile_append_dropWhile, List.reverse_reverse]
  refine ⟨⟨t.takeWhile set, (u.reverse.takeWhile set).reverse, ?_, ?_, ?_⟩, ?_, ?_⟩
  · rw [List.append_assoc, ← hsplit, List.takeWhile_append_dropWhile]
  · intro c hc
    exact List.mem_takeWhile_imp hc
  · intro c hc
    exact List.mem_takeWhile_imp (List.mem_reverse.1 hc)
  · intro c hc
    have hnot := List.head?_dropWhile_not set t
    have hhead : u.head? = some c := by
      rw [hsplit, List.head?_append, Option.mem_def.1 hc]
      rfl
    rw [← hu, hhead] at hnot
    simpa using hnot
  · intro c hc
    have hnot := List.head?_dropWhile_not set u.reverse
    rw [trimSet, ← hu, List.getLast?_reverse] at hc
    rw [Option.mem_def.1 hc] at hnot
    simpa using hnot

/-- What is left when the characters of a text are taken off does not start with that text. -/
theorem IsTrimmed.not_prefix {sep t v : Text} (h : IsTrimmed sep.contains t v) (hsep : sep ≠ []) :
    ¬ sep <+: v := by
  rintro ⟨rest, rfl⟩
  obtain ⟨c, sep', rfl⟩ := List.exists_cons_of_ne_nil hsep
  exact absurd (h.head c (by simp)) (by simp)

theorem IsTrimmed.not_suffix {sep t v : Text} (h : IsTrimmed sep.contains t v) (hsep : sep ≠ []) :
    ¬ sep <:+ v := by
  rintro ⟨rest, rfl⟩
  have hlast : sep.getLast hsep ∈ (rest ++ sep).getLast? := by
    rw [List.getLast?_append_of_ne_nil _ hsep, List.getLast?_eq_some_getLast hsep, Option.mem_def]
  exact absurd (h.last _ hlast) (by simp)

theorem isTrimmed_iff {set : Char → Bool} {t v : Text} : IsTrimmed set t v ↔ trimSet set t = v :=
  ⟨IsTrimmed.eq, fun h => h ▸ isTrimmed_trimSet set t⟩

end Text
end ClassCensus
