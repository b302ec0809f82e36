import ClassCensus.Proofs.Attributes
import ClassCensus.Proofs.Openings

/-!
# ClassCensus.Proofs.Reading

The grammar of a line. `Says stops line r` gives the four things a line can say, each by the form
of the whole line. The rules are tried in the order of the constructors, which each rule states by
denying those before it. Lines are read by this grammar (`says_read`), and a line says one thing
(`Says.unique`).
-/

namespace ClassCensus
namespace Source

/-! ## Forms of lines -/

/-- The line starts with the word `namespace` and a space; the name goes up to the first end mark
or opening brace, or to the end of the line, and is trimmed. -/
def NamesSpace (line v : Text) : Prop :=
  ∃ name tail, line = "namespace ".toList ++ (name ++ tail) ∧ (∀ c ∈ name, c ≠ ';' ∧ c ≠ '{') ∧
    (∀ c ∈ tail.head?, c = ';' ∨ c = '{') ∧ Text.IsTrimmed Text.isBlank name v

/-- The line is attribute groups, the opening of a class, a name, and something that does not
continue the name. -/
def DeclaresClass (line n : Text) : Prop :=
  ∃ p ∈ classOpenings, ∃ r, Attributed (p ++ (n ++ r)) line ∧ Text.IsIdentifier n ∧ Text.EndsWord r

inductive Says (stops : List Text) (line : Text) : Reading → Prop
  | namespaced {v : Text} (h : NamesSpace line v) : Says stops line (.namespaced v)
  | stops {w : Text} (hspace : ¬ "namespace ".toList <+: line) (hword : Text.IsLeadingWord line w)
      (hstop : w ∈ stops) : Says stops line .stops
  | declares {n : Text} (hspace : ¬ "namespace ".toList <+: line)
      (hword : ∀ w, Text.IsLeadingWord line w → w ∉ stops) (h : DeclaresClass line n) :
      Says stops line (.declares n)
  | nothing (hspace : ¬ "namespace ".toList <+: line)
      (hword : ∀ w, Text.IsLeadingWord line w → w ∉ stops) (h : ∀ n, ¬ DeclaresClass line n) :
      Says stops line .nothing

/-! ## Namespaces -/

theorem upTo_upTo (rest : Text) :
    Text.upTo '{' (Text.upTo ';' rest) = rest.takeWhile fun c => c != '{' && c != ';' := by
  rw [Text.upTo, Text.upTo, List.takeWhile_takeWhile]
  refine congrArg (List.takeWhile · rest) (funext fun c => ?_)
  simp [bne, beq_eq_decide]

theorem namespaceName_eq_iff {rest v : Text} :
    namespaceName rest = v ↔ ∃ name tail, rest = name ++ tail ∧ (∀ c ∈ name, c ≠ ';' ∧ c ≠ '{') ∧
      (∀ c ∈ tail.head?, c = ';' ∨ c = '{') ∧ Text.IsTrimmed Text.isBlank name v := by
  set inName : Char → Bool := fun c => c != '{' && c != ';' with hinName
  have hname : namespaceName rest = Text.trimSet Text.isBlank (rest.takeWhile inName) := by
    rw [namespaceName, upTo_upTo]
    rfl
  constructor
  · intro h
    refine ⟨rest.takeWhile inName, rest.dropWhile inName, by simp, fun c hc => ?_, fun c hc => ?_,
      Text.isTrimmed_iff.2 (hname ▸ h)⟩
    · have hin := List.mem_takeWhile_imp hc
      simp only [hinName, Bool.and_eq_true, bne_iff_ne] at hin
      exact ⟨hin.2, hin.1⟩
    · have hnot := List.head?_dropWhile_not inName rest
      rw [Option.mem_def.1 hc] at hnot
      simp only [hinName, Bool.and_eq_false_iff, bne_eq_false_iff_eq] at hnot
      exact hnot.symm
  · rintro ⟨name, tail, rfl, hin, htail, htrim⟩
    have htake : (name ++ tail).takeWhile inName = name := by
      rw [List.takeWhile_append_of_pos fun c hc => by simp [hinName, hin c hc]]
      cases tail with
      | nil => simp
      | cons c tail =>
        have hc : inName c = false := by
          rcases htail c (by simp) with rfl | rfl <;> rfl
        simp [hc]
    rw [hname, htake, htrim.eq]

/-! ## Declarations -/

theorem classOpenings_separate : Separate classOpenings :=
  openings_separate (by decide) (by decide) (by decide) exclusiveModifiers

theorem classOpenings_end : ∀ p ∈ classOpenings, "class ".toList <:+ p := by
  decide

theorem classOpenings_head :
    ∀ p ∈ classOpenings, (p.head?.any fun c => !Text.isBlank c && c != '#') = true := by
  decide

/-- What follows an opening is neither white space nor an attribute group. -/
theorem head_of_opening {p t : Text} (hp : p ∈ classOpenings) :
    (∀ c ∈ (p ++ t).head?, Text.isBlank c = false) ∧ ¬ "#[".toList <+: p ++ t := by
  have hhead := classOpenings_head p hp
  cases p with
  | nil => cases hhead
  | cons c p =>
    simp only [List.head?_cons, Option.any_some, Bool.and_eq_true, Bool.not_eq_true', bne_iff_ne]
      at hhead
    constructor
    · intro x hx
      obtain rfl : c = x := by simpa using hx
      exact hhead.1
    · intro hgroup
      exact hhead.2 (List.cons_prefix_cons.1 hgroup).1.symm

theorem declaredName?_eq_some {line n : Text} :
    declaredName? line = some n ↔ ∃ p ∈ classOpenings, ∃ r, line = p ++ (n ++ r) ∧
      Text.IsIdentifier n ∧ Text.EndsWord r := by
  simp only [declaredName?, Option.bind_eq_some_iff, classOpenings_separate.findSome?_eq_some,
    Text.leadingWord?_eq_some]
  constructor
  · rintro ⟨_, ⟨p, hp, rfl⟩, r, rfl, hn, hr⟩
    exact ⟨p, hp, r, rfl, hn, hr⟩
  · rintro ⟨p, hp, r, rfl, hn, hr⟩
    exact ⟨n ++ r, ⟨p, hp, rfl⟩, r, rfl, hn, hr⟩

theorem declaresClass_iff {line n : Text} :
    DeclaresClass line n ↔ declaredName? (dropAttributes line) = some n := by
  rw [declaredName?_eq_some]
  constructor
  · rintro ⟨p, hp, r, hline, hn, hr⟩
    obtain ⟨hhead, hgroup⟩ := head_of_opening (t := n ++ r) hp
    exact ⟨p, hp, r, dropAttributes_of_attributed hline hhead (afterAttribute?_eq_none hgroup), hn,
      hr⟩
  · rintro ⟨p, hp, r, hdrop, hn, hr⟩
    exact ⟨p, hp, r, hdrop ▸ attributed_dropAttributes line, hn, hr⟩

/-- The keyword and its space occur in every line that declares a class. -/
theorem DeclaresClass.occursIn {line n : Text} (h : DeclaresClass line n) :
    Text.occursIn "class ".toList line = true := by
  obtain ⟨p, hp, r, hline, -, -⟩ := h
  rw [Text.occursIn_iff]
  have hopening : "class ".toList <:+: p ++ (n ++ r) :=
    (classOpenings_end p hp).isInfix.trans (List.prefix_append p _).isInfix
  exact hopening.trans hline.suffix.isInfix

/-! ## Lines -/

theorem startsWithStop_iff {stops : List Text} {line : Text} :
    startsWithStop stops line = true ↔ ∃ w, Text.IsLeadingWord line w ∧ w ∈ stops := by
  simp only [Text.isLeadingWord_iff, startsWithStop]
  cases Text.leadingWord? line <;> simp

theorem says_read (stops : List Text) (line : Text) : Says stops line (read stops line) := by
  unfold read
  cases hspace : Text.after? "namespace ".toList line with
  | some rest =>
    obtain rfl := Text.after?_eq_some.1 hspace
    obtain ⟨name, tail, rfl, hname, htail, htrim⟩ :=
      namespaceName_eq_iff.1 (Eq.refl (namespaceName rest))
    exact .namespaced ⟨name, tail, rfl, hname, htail, htrim⟩
  | none =>
    rw [Text.after?_eq_none] at hspace
    by_cases hstop : startsWithStop stops line = true
    · obtain ⟨w, hword, hmem⟩ := startsWithStop_iff.1 hstop
      simp only [hstop, if_true]
      exact .stops hspace hword hmem
    · have hword : ∀ w, Text.IsLeadingWord line w → w ∉ stops := by
        intro w hw hmem
        exact hstop (startsWithStop_iff.2 ⟨w, hw, hmem⟩)
      simp only [if_neg hstop]
      by_cases hclass : Text.occursIn "class ".toList line = true
      · simp only [hclass, if_true]
        cases hname : declaredName? (dropAttributes line) with
        | some n => exact .declares hspace hword (declaresClass_iff.2 hname)
        | none =>
          refine .nothing hspace hword fun n hn => ?_
          rw [declaresClass_iff, hname] at hn
          cases hn
      · simp only [if_neg hclass]
        exact .nothing hspace hword fun n hn => hclass hn.occursIn

theorem DeclaresClass.unique {line n m : Text} (hn : DeclaresClass line n)
    (hm : DeclaresClass line m) : n = m :=
  Option.some.inj ((declaresClass_iff.1 hn).symm.trans (declaresClass_iff.1 hm))

theorem NamesSpace.unique {line v w : Text} (hv : NamesSpace line v) (hw : NamesSpace line w) :
    v = w := by
  obtain ⟨name, tail, hline, hname, htail, htrim⟩ := hv
  obtain ⟨name', tail', hline', hname', htail', htrim'⟩ := hw
  have hrest := List.append_cancel_left (hline.symm.trans hline')
  rw [← namespaceName_eq_iff.2 ⟨name, tail, rfl, hname, htail, htrim⟩, hrest]
  exact namespaceName_eq_iff.2 ⟨name', tail', rfl, hname', htail', htrim'⟩

theorem NamesSpace.front {line v : Text} (h : NamesSpace line v) :
    "namespace ".toList <+: line := by
  obtain ⟨name, tail, rfl, -⟩ := h
  exact List.prefix_append _ _

/-- A line says one thing. -/
theorem Says.unique {stops : List Text} {line : Text} {r s : Reading} (hr : Says stops line r)
    (hs : Says stops line s) : r = s := by
  cases hr with
  | namespaced h =>
    cases hs with
    | namespaced h' => rw [h.unique h']
    | stops hspace _ _ => exact absurd h.front hspace
    | declares hspace _ _ => exact absurd h.front hspace
    | nothing hspace _ _ => exact absurd h.front hspace
  | stops hspace hword hstop =>
    cases hs with
    | namespaced h' => exact absurd h'.front hspace
    | stops _ _ _ => rfl
    | declares _ hnone _ => exact absurd hstop (hnone _ hword)
    | nothing _ hnone _ => exact absurd hstop (hnone _ hword)
  | declares hspace hnone h =>
    cases hs with
    | namespaced h' => exact absurd h'.front hspace
    | stops _ hword hstop => exact absurd hstop (hnone _ hword)
    | declares _ _ h' => rw [h.unique h']
    | nothing _ _ h' => exact absurd h (h' _)
  | nothing hspace hnone h =>
    cases hs with
    | namespaced h' => exact absurd h'.front hspace
    | stops _ hword hstop => exact absurd hstop (hnone _ hword)
    | declares _ _ h' => exact absurd h' (h _)
    | nothing _ _ _ => rfl

/-- Every line is read as the grammar has it, whatever the stop words, and a line declares no two
classes. -/
theorem reading_follows_grammar (stops : List Text) (line : Text) :
    (∀ r, read stops line = r ↔ Says stops line r) ∧
      ∀ n m, DeclaresClass line n → DeclaresClass line m → n = m := by
  refine ⟨fun r => ⟨fun h => ?_, fun h => ?_⟩, fun n m hn hm => hn.unique hm⟩
  · rw [← h]
    exact says_read stops line
  · exact (says_read stops line).unique h

example : read defaultStops "#[A([1])] #[B]final class Über⅓ extends C".toList =
    .declares "Über⅓".toList := by
  decide +kernel

end Source
end ClassCensus
