import ClassCensus.Proofs.Confirmation
import ClassCensus.Proofs.Spelling
import ClassCensus.Proofs.StopTokens

/-!
# ClassCensus.Proofs.CanonicalLines

The canonical form of a line, said by its words: they are joined with single spaces, and the space
after every `#[` is taken out. The three rewrites that make the form are followed one by one. After
the first one (`collapse`) the line is its words joined, up to a space at either end; the second one
(`tighten`) takes out the spaces and touches neither end; the third one trims the ends.

What comes out is canonical (`IsCanonical`), and the form of a canonical line is the line itself, so
making the form twice changes nothing more.
-/

namespace ClassCensus

/-! ## Words -/

namespace Text

/-- The words of a text, which lie between its runs of white space. -/
def words (t : Text) : List Text := (t.splitOnP isBlank).filter (!·.isEmpty)

variable {c x : Char}

theorem words_nil : words [] = [] := by simp [words]

theorem words_cons_blank (hc : isBlank c = true) (t : Text) : words (c :: t) = words t := by
  simp [words, List.splitOnP_cons_eq_if_modifyHead, hc]

theorem words_singleton (hc : isBlank c = false) : words [c] = [[c]] := by
  simp [words, List.splitOnP_cons_eq_if_modifyHead, hc]

/-- A word ends where white space follows. -/
theorem words_cons_gap (hc : isBlank c = false) (hx : isBlank x = true) (t : Text) :
    words (c :: x :: t) = [c] :: words t := by
  simp [words, List.splitOnP_cons_eq_if_modifyHead, hc, hx]

/-- A word goes on where none follows. -/
theorem words_cons_cons (hc : isBlank c = false) (hx : isBlank x = false) (t : Text) :
    ∃ w ws, words (x :: t) = w :: ws ∧ words (c :: x :: t) = (c :: w) :: ws := by
  obtain ⟨p, ps, hsplit⟩ := List.exists_cons_of_ne_nil (List.splitOnP_ne_nil isBlank t)
  exact ⟨x :: p, ps.filter (!·.isEmpty),
    by simp [words, List.splitOnP_cons_eq_if_modifyHead, hx, hsplit],
    by simp [words, List.splitOnP_cons_eq_if_modifyHead, hc, hx, hsplit]⟩

theorem mem_words {w t : Text} (h : w ∈ words t) : w ≠ [] ∧ ∀ c ∈ w, isBlank c = false := by
  induction t generalizing w with
  | nil => simp [words_nil] at h
  | cons c t ih =>
    by_cases hc : isBlank c = true
    · rw [words_cons_blank hc] at h
      exact ih h
    · rw [Bool.not_eq_true] at hc
      cases t with
      | nil =>
        rw [words_singleton hc, List.mem_singleton] at h
        simp [h, hc]
      | cons x t =>
        by_cases hx : isBlank x = true
        · rw [words_cons_gap hc hx, List.mem_cons] at h
          rcases h with rfl | h
          · simp [hc]
          · exact ih (by rwa [words_cons_blank hx])
        · rw [Bool.not_eq_true] at hx
          obtain ⟨v, ws, hrest, hall⟩ := words_cons_cons hc hx t
          rw [hall, List.mem_cons] at h
          rcases h with rfl | h
          · have hv := (ih (w := v) (by simp [hrest])).2
            simpa [hc] using hv
          · exact ih (by simp [hrest, h])

/-- Joined words neither start nor end with white space. -/
theorem head?_join_words {t : Text} (hc : c ∈ (join [' '] (words t)).head?) :
    isBlank c = false := by
  rcases hwords : words t with _ | ⟨w, ws⟩
  · simp [hwords, join] at hc
  · obtain ⟨hne, hw⟩ := mem_words (w := w) (t := t) (by simp [hwords])
    obtain ⟨x, w, rfl⟩ := List.exists_cons_of_ne_nil hne
    obtain ⟨u, hu⟩ := join_cons [' '] x w ws
    rw [hwords, hu, List.head?_cons, Option.mem_some_iff] at hc
    exact hw c (by simp [hc])

theorem getLast?_join_words {t : Text} (hc : c ∈ (join [' '] (words t)).getLast?) :
    isBlank c = false := by
  rcases List.eq_nil_or_concat (words t) with hwords | ⟨ws, w, hwords⟩
  · simp [hwords, join] at hc
  · obtain ⟨hne, hw⟩ := mem_words (w := w) (t := t) (by simp [hwords])
    have hlast : (join [' '] (words t)).getLast? = w.getLast? := by
      rw [hwords]
      by_cases hws : ws = []
      · simp [hws, join]
      · rw [List.concat_eq_append, join_concat hws, List.getLast?_append_of_ne_nil _ hne]
    rw [hlast] at hc
    exact hw c (List.mem_of_getLast? hc)

end Text

namespace Source

open Text

/-! ## Runs of white space -/

theorem eq_space_of_collapse {b : Bool} {c : Char} {t : Text} (hc : c ∈ collapse b t)
    (hblank : isBlank c = true) : c = ' ' := by
  induction t generalizing b with
  | nil => cases hc
  | cons x t ih =>
    by_cases hx : isBlank x = true
    · cases b with
      | true => exact ih (by simpa [collapse, hx] using hc)
      | false =>
        rcases List.mem_cons.1 (by simpa [collapse, hx] using hc) with rfl | hc
        · rfl
        · exact ih hc
    · rcases List.mem_cons.1 (by simpa [collapse, hx] using hc) with rfl | hc
      · exact absurd hblank hx
      · exact ih hc

theorem doubled_cons {c : Char} {t : Text} :
    [' ', ' '] <:+: c :: t ↔ (c = ' ' ∧ t.head? = some ' ') ∨ [' ', ' '] <:+: t := by
  rw [List.infix_cons_iff, List.cons_prefix_cons, List.singleton_prefix_iff_head?_eq_some,
    eq_comm (a := ' ')]

theorem head?_collapse {c : Char} {t : Text} (hc : c ∈ (collapse true t).head?) :
    isBlank c = false := by
  induction t with
  | nil => cases hc
  | cons x t ih =>
    by_cases hx : isBlank x = true
    · exact ih (by simpa [collapse, hx] using hc)
    · simp only [collapse, hx, Bool.false_eq_true, if_false, List.head?_cons,
        Option.mem_some_iff] at hc
      simpa [hc] using hx

theorem not_doubled_collapse (b : Bool) (t : Text) : ¬ [' ', ' '] <:+: collapse b t := by
  induction t generalizing b with
  | nil => simp [collapse]
  | cons x t ih =>
    by_cases hx : isBlank x = true
    · cases b with
      | true => simpa [collapse, hx] using ih true
      | false =>
        have hhead : (collapse true t).head? ≠ some ' ' := fun h =>
          absurd (head?_collapse (Option.mem_def.2 h)) (by decide)
        simp [collapse, hx, doubled_cons, hhead, ih]
    · have hspace : x ≠ ' ' := by
        rintro rfl
        exact hx (by decide)
      simp [collapse, hx, doubled_cons, hspace, ih]

/-- With its runs made single, a text is its words joined, with white space at its end perhaps. -/
theorem collapse_eq_join (t : Text) :
    ∃ tail, collapse true t = join [' '] (words t) ++ tail ∧ ∀ c ∈ tail, isBlank c = true := by
  induction t with
  | nil => exact ⟨[], by simp [collapse, words_nil, join], by simp⟩
  | cons c t ih =>
    by_cases hc : isBlank c = true
    · simpa [collapse, hc, words_cons_blank hc] using ih
    · rw [Bool.not_eq_true] at hc
      obtain ⟨tail, htail, hblank⟩ := ih
      cases t with
      | nil => exact ⟨[], by simp [collapse, hc, words_singleton hc, join], by simp⟩
      | cons x t =>
        by_cases hx : isBlank x = true
        · -- the word ends here, and its space is either put before the next word or left over
          rw [words_cons_blank hx] at htail
          simp only [collapse, hx, if_true] at htail
          simp only [collapse, hc, hx, if_true, Bool.false_eq_true, if_false, htail,
            words_cons_gap hc hx]
          rcases hwords : words t with _ | ⟨w, ws⟩
          · refine ⟨' ' :: tail, by simp [join], ?_⟩
            rw [List.forall_mem_cons]
            exact ⟨by decide, hblank⟩
          · exact ⟨tail, by simp [join], hblank⟩
        · rw [Bool.not_eq_true] at hx
          obtain ⟨w, ws, hrest, hall⟩ := words_cons_cons hc hx t
          refine ⟨tail, ?_, hblank⟩
          rw [hrest] at htail
          simp only [collapse, hx, Bool.false_eq_true, if_false] at htail
          simp only [collapse, hc, hx, Bool.false_eq_true, if_false, htail, hall]
          cases ws <;> simp [join]

theorem exists_collapse_eq (t : Text) :
    ∃ front, collapse false t = front ++ collapse true t ∧ ∀ c ∈ front, isBlank c = true := by
  cases t with
  | nil => exact ⟨[], rfl, by simp⟩
  | cons c t =>
    by_cases hc : isBlank c = true
    · refine ⟨[' '], by simp [collapse, hc], fun x hx => ?_⟩
      rw [List.mem_singleton.1 hx]
      decide
    · exact ⟨[], by simp [collapse, hc], by simp⟩

theorem isTrimmed_collapse (raw : Text) :
    IsTrimmed isBlank (collapse false raw) (join [' '] (words raw)) := by
  obtain ⟨front, hfront, hfrontBlank⟩ := exists_collapse_eq raw
  obtain ⟨tail, htail, htailBlank⟩ := collapse_eq_join raw
  refine ⟨⟨front, tail, ?_, hfrontBlank, htailBlank⟩, fun c => head?_join_words,
    fun c => getLast?_join_words⟩
  rw [hfront, htail, List.append_assoc]

theorem join_words_inside (raw : Text) : join [' '] (words raw) <:+: collapse false raw := by
  obtain ⟨front, back, hsplit, -, -⟩ := (isTrimmed_collapse raw).split
  exact ⟨front, back, hsplit.symm⟩

theorem not_doubled_join_words (raw : Text) : ¬ [' ', ' '] <:+: join [' '] (words raw) :=
  fun hdoubled => not_doubled_collapse false raw (List.IsInfix.trans hdoubled (join_words_inside raw))

/-! ## Openers -/

theorem tighten_space (t : Text) : tighten true (' ' :: t) = tighten true t := by simp [tighten]

theorem tighten_of_head {t : Text} (h : t.head? ≠ some ' ') : tighten true t = tighten false t := by
  cases t with
  | nil => rfl
  | cons c t =>
    have hc : c ≠ ' ' := fun hc => h (by rw [hc, List.head?_cons])
    unfold tighten
    split
    · rfl
    · rfl
    · simp_all

theorem tighten_sublist (b : Bool) (t : Text) : (tighten b t).Sublist t := by
  fun_induction tighten b t with
  | case1 => exact .slnil
  | case2 b t ih => exact .cons_cons _ (.cons_cons _ ih)
  | case3 b c t _ _ ih => exact .cons _ ih
  | case4 b c t _ _ ih => exact .cons_cons _ ih

theorem head?_tighten_true {b : Bool} (hb : b = true) (t : Text) :
    (tighten b t).head? ≠ some ' ' := by
  fun_induction tighten b t with
  | case1 => simp
  | case2 b t ih => simp
  | case3 b c t _ _ ih => exact ih rfl
  | case4 b c t _ hkept ih => simpa [hb] using hkept

theorem opened_cons {c : Char} {t : Text} :
    ['#', '[', ' '] <:+: c :: t ↔ (c = '#' ∧ ['[', ' '] <+: t) ∨ ['#', '[', ' '] <:+: t := by
  rw [List.infix_cons_iff, List.cons_prefix_cons, eq_comm (a := '#')]

theorem not_opened_tighten (b : Bool) (t : Text) : ¬ ['#', '[', ' '] <:+: tighten b t := by
  fun_induction tighten b t with
  | case1 => simp
  | case2 b t ih =>
    have hhead := head?_tighten_true rfl t
    simp [opened_cons, List.cons_prefix_cons, List.singleton_prefix_iff_head?_eq_some, hhead, ih]
  | case3 b c t _ _ ih => exact ih
  | case4 b c t hother _ ih =>
    rw [opened_cons]
    rintro (⟨rfl, hfront⟩ | hlater)
    · -- the bracket would stand after the sign in the line as well
      have hhead : t.head? = some '[' := by
        obtain ⟨rest, hrest⟩ := hfront
        rw [← head?_tighten, ← hrest]
        rfl
      obtain ⟨u, rfl⟩ := List.head?_eq_some_iff.1 hhead
      exact hother u rfl rfl
    · exact ih hlater

theorem not_doubled_tighten {b : Bool} {t : Text} (h : ¬ [' ', ' '] <:+: t) :
    ¬ [' ', ' '] <:+: tighten b t := by
  fun_induction tighten b t with
  | case1 => simp
  | case2 b t ih =>
    simp only [doubled_cons, not_or] at h ⊢
    exact ⟨by simp, by simp, ih h.2.2⟩
  | case3 b c t _ _ ih => exact ih fun hlater => h (doubled_cons.2 (.inr hlater))
  | case4 b c t _ _ ih =>
    rw [doubled_cons, not_or] at h ⊢
    rw [head?_tighten]
    exact ⟨h.1, ih h.2⟩

theorem getLast?_tighten {b : Bool} {t : Text} (h : t.getLast? ≠ some ' ') :
    (tighten b t).getLast? = t.getLast? := by
  have hrest : ∀ {c : Char} {t : Text}, (c :: t).getLast? ≠ some ' ' → t.getLast? ≠ some ' ' := by
    intro c t h hspace
    exact h (by rw [List.getLast?_cons, hspace, Option.getD_some])
  fun_induction tighten b t with
  | case1 => rfl
  | case2 b t ih => simp only [List.getLast?_cons, ih (hrest (hrest h))]
  | case3 b c t _ hdropped ih =>
    simp only [Bool.and_eq_true, decide_eq_true_eq] at hdropped
    rw [ih (hrest h)]
    cases t with
    | nil => exact absurd (by simp [hdropped.2]) h
    | cons x t => simp [List.getLast?_cons]
  | case4 b c t _ _ ih => simp only [List.getLast?_cons, ih (hrest h)]

/-- Spaces behind a text have no part in what happens to it. -/
theorem tighten_append_spaces (b : Bool) (t : Text) {s : Text} (hs : ∀ c ∈ s, c = ' ') :
    ∃ s', tighten b (t ++ s) = tighten b t ++ s' ∧ ∀ c ∈ s', c = ' ' := by
  fun_induction tighten b t with
  | case1 b => exact ⟨tighten b s, rfl, fun c hc => hs c ((tighten_sublist b s).subset hc)⟩
  | case2 b t ih =>
    obtain ⟨s', hs', hspaces⟩ := ih
    refine ⟨s', ?_, hspaces⟩
    simp only [List.cons_append, tighten, hs']
  | case3 b c t hother hdropped ih =>
    obtain ⟨s', hs', hspaces⟩ := ih
    refine ⟨s', ?_, hspaces⟩
    simp only [Bool.and_eq_true, decide_eq_true_eq] at hdropped
    obtain ⟨rfl, rfl⟩ := hdropped
    rw [List.cons_append, tighten_space, hs']
  | case4 b c t hother hkept ih =>
    obtain ⟨s', hs', hspaces⟩ := ih
    refine ⟨s', ?_, hspaces⟩
    rw [List.cons_append, tighten, if_neg hkept, hs', List.cons_append]
    -- the bracket of an opener cannot come from the spaces
    rintro u rfl hu
    cases t with
    | nil =>
      cases s with
      | nil => cases hu
      | cons x s =>
        have hx : x = ' ' := hs x (by simp)
        obtain ⟨rfl, -⟩ := List.cons.inj hu
        cases hx
    | cons x t =>
      obtain ⟨rfl, -⟩ := List.cons.inj hu
      exact hother t rfl rfl

theorem isTrimmed_tighten {t v : Text} (hspaces : ∀ c ∈ t, isBlank c = true → c = ' ')
    (h : IsTrimmed isBlank t v) : IsTrimmed isBlank (tighten false t) (tighten false v) := by
  obtain ⟨⟨front, back, rfl, hfront, hback⟩, hhead, hlast⟩ := h
  have hsign : ∀ c ∈ front, c ≠ '#' := by
    rintro c hc rfl
    exact absurd (hfront _ hc) (by decide)
  obtain ⟨back', hback', hspaces'⟩ := tighten_append_spaces false v
    (s := back) fun c hc => hspaces c (by simp [hc]) (hback c hc)
  have hend : v.getLast? ≠ some ' ' := fun h => absurd (hlast ' ' h) (by decide)
  refine ⟨⟨front, back', ?_, hfront, fun c hc => ?_⟩, ?_, ?_⟩
  · rw [List.append_assoc, tighten_append hsign, hback', List.append_assoc]
  · rw [hspaces' c hc]
    decide
  · rwa [head?_tighten]
  · rwa [getLast?_tighten hend]

/-- Where spaces are single, to tighten a line is to take out the space of every opener. -/
theorem tighten_eq_replace {t : Text} (h : ¬ [' ', ' '] <:+: t) :
    tighten false t = replace ['#', '[', ' '] ['#', '['] t := by
  induction hn : t.length using Nat.strong_induction_on generalizing t with
  | _ n ih =>
    subst hn
    by_cases hopen : ∃ u, t = '#' :: '[' :: u
    · obtain ⟨u, rfl⟩ := hopen
      have hu : ¬ [' ', ' '] <:+: u := fun hu => h (doubled_cons.2 (.inr (doubled_cons.2 (.inr hu))))
      rw [tighten]
      by_cases hspace : u.head? = some ' '
      · obtain ⟨u, rfl⟩ := List.head?_eq_some_iff.1 hspace
        rw [doubled_cons, not_or] at hu
        have hnext : u.head? ≠ some ' ' := fun hnext => hu.1 ⟨rfl, hnext⟩
        have hrest := ih u.length (by simp only [List.length_cons]; omega) hu.2 rfl
        have hopener : replace ['#', '[', ' '] ['#', '['] (['#', '[', ' '] ++ u) =
            ['#', '['] ++ replace ['#', '[', ' '] ['#', '['] u := replace_append (by simp) _ u
        rw [tighten_space, tighten_of_head hnext, hrest]
        exact hopener.symm
      · have hsign : ¬ ['#', '[', ' '] <+: '#' :: '[' :: u := by
          simpa [List.cons_prefix_cons, List.singleton_prefix_iff_head?_eq_some] using hspace
        have hbracket : ¬ ['#', '[', ' '] <+: '[' :: u := by simp [List.cons_prefix_cons]
        have hrest := ih u.length (by simp only [List.length_cons]; omega) hu rfl
        rw [tighten_of_head hspace, hrest, replace_cons hsign, replace_cons hbracket]
    · cases t with
      | nil => rfl
      | cons c t =>
        have hsign : ¬ ['#', '[', ' '] <+: c :: t := by
          rintro ⟨rest, hrest⟩
          exact hopen ⟨' ' :: rest, hrest.symm⟩
        have ht : ¬ [' ', ' '] <:+: t := fun ht => h (doubled_cons.2 (.inr ht))
        rw [replace_cons hsign, ← ih t.length (by simp) ht rfl, tighten]
        · simp
        · rintro u rfl rfl
          exact hopen ⟨u, rfl⟩

/-! ## Canonical lines -/

/-- White space is single spaces between other characters, and never after the opener of an
attribute. -/
structure IsCanonical (t : Text) : Prop where
  spaces : ∀ c ∈ t, isBlank c = true → c = ' '
  single : ¬ [' ', ' '] <:+: t
  tight : ¬ ['#', '[', ' '] <:+: t
  head : ∀ c ∈ t.head?, isBlank c = false
  last : ∀ c ∈ t.getLast?, isBlank c = false

theorem collapse_of_single {b : Bool} {t : Text} (hspaces : ∀ c ∈ t, isBlank c = true → c = ' ')
    (hsingle : ¬ [' ', ' '] <:+: t) (hb : b = true → t.head? ≠ some ' ') : collapse b t = t := by
  induction t generalizing b with
  | nil => rfl
  | cons c t ih =>
    rw [doubled_cons, not_or] at hsingle
    by_cases hc : isBlank c = true
    · obtain rfl := hspaces c (by simp) hc
      have hfirst : b = false := by
        rw [← Bool.not_eq_true]
        exact fun htrue => hb htrue rfl
      have hnext : t.head? ≠ some ' ' := fun hnext => hsingle.1 ⟨rfl, hnext⟩
      have hlater := ih (b := true) (fun x hx => hspaces x (by simp [hx])) hsingle.2 fun _ => hnext
      simp [collapse, hc, hfirst, hlater]
    · have hlater := ih (b := false) (fun x hx => hspaces x (by simp [hx])) hsingle.2 (by simp)
      simp [collapse, hc, hlater]

theorem tighten_of_tight {b : Bool} {t : Text} (h : ¬ ['#', '[', ' '] <:+: t)
    (hb : b = true → t.head? ≠ some ' ') : tighten b t = t := by
  fun_induction tighten b t with
  | case1 => rfl
  | case2 b t ih =>
    simp only [opened_cons, List.cons_prefix_cons, List.singleton_prefix_iff_head?_eq_some,
      not_or] at h
    rw [ih h.2.2 fun _ hspace => h.1 ⟨trivial, trivial, hspace⟩]
  | case3 b c t _ hdropped ih =>
    simp only [Bool.and_eq_true, decide_eq_true_eq] at hdropped
    exact absurd (by simp [hdropped.2]) (hb hdropped.1)
  | case4 b c t _ _ ih =>
    rw [opened_cons, not_or] at h
    rw [ih h.2 (by simp)]

theorem IsCanonical.normalize_eq {t : Text} (h : IsCanonical t) : normalize t = t := by
  have htrimmed : IsTrimmed isBlank t t := ⟨⟨[], [], by simp, by simp, by simp⟩, h.head, h.last⟩
  rw [normalize, collapse_of_single h.spaces h.single (by simp), tighten_of_tight h.tight (by simp)]
  exact htrimmed.eq

theorem normalize_eq_tighten (raw : Text) :
    normalize raw = tighten false (join [' '] (words raw)) :=
  (isTrimmed_tighten (fun _ => eq_space_of_collapse) (isTrimmed_collapse raw)).eq

theorem isCanonical_normalize (raw : Text) : IsCanonical (normalize raw) := by
  have hline := isTrimmed_tighten (fun _ => eq_space_of_collapse) (isTrimmed_collapse raw)
  rw [normalize_eq_tighten]
  refine ⟨fun c hc => ?_, not_doubled_tighten (not_doubled_join_words raw), not_opened_tighten _ _,
    hline.head, hline.last⟩
  exact eq_space_of_collapse ((join_words_inside raw).subset ((tighten_sublist _ _).subset hc))

theorem filter_collapse (b : Bool) (t : Text) :
    (collapse b t).filter (!isBlank ·) = t.filter (!isBlank ·) := by
  have hspace : isBlank ' ' = true := by decide
  induction t generalizing b with
  | nil => rfl
  | cons c t ih =>
    by_cases hc : isBlank c = true
    · cases b <;> simp [collapse, hc, hspace, ih]
    · simp [collapse, hc, ih]

theorem filter_tighten (b : Bool) (t : Text) :
    (tighten b t).filter (!isBlank ·) = t.filter (!isBlank ·) := by
  have hspace : isBlank ' ' = true := by decide
  fun_induction tighten b t with
  | case1 => rfl
  | case2 b t ih => simp only [List.filter_cons, ih]
  | case3 b c t _ hdropped ih =>
    simp only [Bool.and_eq_true, decide_eq_true_eq] at hdropped
    simp [ih, hdropped.2, hspace]
  | case4 b c t _ _ ih => simp only [List.filter_cons, ih]

theorem filter_normalize (raw : Text) :
    (normalize raw).filter (!isBlank ·) = raw.filter (!isBlank ·) := by
  obtain ⟨front, back, hsplit, hfront, hback⟩ := (isTrimmed_collapse raw).split
  have hends : ∀ {s : Text}, (∀ c ∈ s, isBlank c = true) → s.filter (!isBlank ·) = [] := by
    intro s hs
    rw [List.filter_eq_nil_iff]
    intro c hc
    simp [hs c hc]
  calc (normalize raw).filter (!isBlank ·)
      = (join [' '] (words raw)).filter (!isBlank ·) := by
        rw [normalize_eq_tighten, filter_tighten]
    _ = (collapse false raw).filter (!isBlank ·) := by
        rw [hsplit, List.filter_append, List.filter_append, hends hfront, hends hback,
          List.nil_append, List.append_nil]
    _ = raw.filter (!isBlank ·) := filter_collapse false raw

/-- The canonical form of every line is its words joined with single spaces, less the space after
every opener of an attribute. It keeps the other characters in their order, is canonical, and does
not change when it is made again. -/
theorem line_is_words_joined (raw : Text) :
    normalize raw = replace "#[ " "#[" (join " " (words raw)) ∧
      (normalize raw).filter (!isBlank ·) = raw.filter (!isBlank ·) ∧
      IsCanonical (normalize raw) ∧ normalize (normalize raw) = normalize raw := by
  have hcanonical := isCanonical_normalize raw
  refine ⟨?_, filter_normalize raw, hcanonical, hcanonical.normalize_eq⟩
  rw [normalize_eq_tighten, tighten_eq_replace (not_doubled_join_words raw)]
  rfl

end Source
end ClassCensus
