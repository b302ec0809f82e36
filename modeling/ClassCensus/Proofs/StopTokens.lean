import ClassCensus.Proofs.Reading
import ClassCensus.Proofs.Revalidation
import ClassCensus.Source.Header

/-!
# ClassCensus.Proofs.StopTokens

When a stop token stops. The check of the settings and the reading of a line have different notions
of a word: an identifier may hold marks and joining punctuation, which are no word characters, so
that a line that opens with such a token is read for a shorter word.

A line that opens with a token therefore stops exactly if the longest word at the front of that
token is a token itself (`read_token_iff`), and a token of word characters is its own longest word
(`isLeadingWord_self`). Neither white space nor what follows has a part in it: the canonical form
of a line keeps an identifier at its front (`normalize_identifier`).
-/

namespace ClassCensus

/-! ## Ranges apart -/

namespace Ranges

/-- Whether no interval of one list meets an interval of the other. Both are gone through once:
what ends before an interval is done with. -/
def apart : Ranges → Ranges → Bool
  | [], _ => true
  | a :: as, bs =>
    let rest := bs.dropWhile fun b => Nat.blt b.2 a.1
    (rest.head?.all fun b => Nat.blt a.2 b.1) && apart as rest

theorem has_cons {a : Nat × Nat} {as : Ranges} {n : Nat} :
    has (a :: as) n = true ↔ a.1 ≤ n ∧ (n ≤ a.2 ∨ as.has n = true) := by
  obtain ⟨lo, hi⟩ := a
  rw [has]
  split
  · simp; omega
  · simp; omega

theorem has_dropWhile {bs : Ranges} {lo n : Nat} (hlo : lo ≤ n) (h : bs.has n = true) :
    has (bs.dropWhile fun b => Nat.blt b.2 lo) n = true := by
  induction bs with
  | nil => cases h
  | cons b bs ih =>
    rw [List.dropWhile_cons]
    split
    · rename_i hbefore
      rw [Nat.blt_eq] at hbefore
      refine ih ((has_cons.1 h).2.resolve_left ?_)
      omega
    · exact h

theorem has_eq_false_of_apart {as bs : Ranges} {n : Nat} (h : apart as bs = true)
    (ha : as.has n = true) : bs.has n = false := by
  rw [← Bool.not_eq_true]
  intro hb
  induction as generalizing bs with
  | nil => cases ha
  | cons a as ih =>
    obtain ⟨hlo, hin⟩ := has_cons.1 ha
    rw [apart, Bool.and_eq_true] at h
    have hrest := has_dropWhile hlo hb
    rcases hin with hhi | hin
    · -- the first interval that is left starts behind `a`
      obtain ⟨b, rest, hsplit⟩ : ∃ b rest, bs.dropWhile (fun b => Nat.blt b.2 a.1) = b :: rest := by
        refine List.exists_cons_of_ne_nil fun hnil => ?_
        rw [hnil] at hrest
        cases hrest
      rw [hsplit] at h hrest
      have hbehind : a.2 < b.1 := by simpa [Nat.blt_eq] using h.1
      have hb := (has_cons.1 hrest).1
      omega
    · exact ih h.2 hin hrest

end Ranges

namespace Text

/-- A character that an identifier can hold is neither white space nor a number sign. -/
theorem not_blank_of_isIdentifier {t : Text} (h : isIdentifier t = true) :
    ∀ c ∈ t, isBlank c = false ∧ c ≠ '#' := by
  have hpart : ∀ {ranges : Ranges} {c : Char}, ranges.apart blankRanges = true →
      ranges.has '#'.toNat = false → ranges.has c.toNat = true → isBlank c = false ∧ c ≠ '#' := by
    intro ranges c hblank hsign hc
    refine ⟨Ranges.has_eq_false_of_apart hblank hc, ?_⟩
    rintro rfl
    rw [hsign] at hc
    cases hc
  cases t with
  | nil => cases h
  | cons c t =>
    rw [isIdentifier, Bool.and_eq_true, List.all_eq_true] at h
    intro x hx
    rcases List.mem_cons.1 hx with rfl | hx
    · exact hpart (by decide +kernel) (by decide +kernel) h.1
    · exact hpart (by decide +kernel) (by decide +kernel) (h.2 x hx)

/-- No decimal digit starts an identifier, so that one of word characters can be read as a word. -/
theorem isIdentifier_of_word {t : Text} (h : isIdentifier t = true)
    (hword : ∀ c ∈ t, isWord c = true) : IsIdentifier t := by
  cases t with
  | nil => cases h
  | cons c t =>
    rw [isIdentifier, Bool.and_eq_true] at h
    have hdecimal : isDecimal c = false := Ranges.has_eq_false_of_apart (by decide +kernel) h.1
    exact ⟨c, t, rfl, hword c (by simp), hdecimal, fun x hx => hword x (by simp [hx])⟩

/-! ## The word in front -/

theorem takeWhile_isWord_append {r : Text} (hr : EndsWord r) (t : Text) :
    (t ++ r).takeWhile isWord = t.takeWhile isWord := by
  have hnil : r.takeWhile isWord = [] := by
    cases r with
    | nil => rfl
    | cons c r => simp [hr c (by simp)]
  rw [List.takeWhile_append, hnil, List.append_nil]
  split
  · rename_i hall
    exact (List.takeWhile_prefix isWord).eq_of_length hall |>.symm
  · rfl

theorem leadingWord?_append {r : Text} (hr : EndsWord r) (t : Text) :
    leadingWord? (t ++ r) = leadingWord? t := by
  cases t with
  | nil =>
    cases r with
    | nil => rfl
    | cons c r => simp [leadingWord?, opensWord, hr c (by simp)]
  | cons c t => rw [List.cons_append, leadingWord?, leadingWord?, takeWhile_isWord_append hr]

theorem isLeadingWord_self {t : Text} (h : isIdentifier t = true) :
    IsLeadingWord t t ↔ ∀ c ∈ t, isWord c = true := by
  constructor
  · intro hself
    exact hself.identifier.isWord
  · intro hword
    exact ⟨isIdentifier_of_word h hword, List.prefix_rfl, fun v _ hv => hv.length_le⟩

end Text

namespace Source

open Text

/-! ## The canonical form of a line that opens with an identifier -/

theorem collapse_append {t : Text} (ht : ∀ c ∈ t, isBlank c = false) (r : Text) :
    collapse false (t ++ r) = t ++ collapse false r := by
  induction t with
  | nil => rfl
  | cons c t ih =>
    obtain ⟨hc, ht⟩ := List.forall_mem_cons.1 ht
    simp [collapse, hc, ih ht]

theorem tighten_cons {c : Char} (hc : c ≠ '#') (t : Text) :
    tighten false (c :: t) = c :: tighten false t := by
  rw [tighten]
  · simp
  · rintro _ rfl
    exact absurd rfl hc

theorem tighten_append {t : Text} (ht : ∀ c ∈ t, c ≠ '#') (r : Text) :
    tighten false (t ++ r) = t ++ tighten false r := by
  induction t with
  | nil => rfl
  | cons c t ih =>
    obtain ⟨hc, ht⟩ := List.forall_mem_cons.1 ht
    rw [List.cons_append, tighten_cons hc, ih ht, List.cons_append]

theorem head?_tighten (t : Text) : (tighten false t).head? = t.head? := by
  unfold tighten
  split <;> simp

/-- What is left of a text without the white space at its end. -/
def trimRight (t : Text) : Text := (t.reverse.dropWhile isBlank).reverse

theorem trimRight_prefix (t : Text) : trimRight t <+: t := by
  rw [trimRight, ← List.reverse_suffix, List.reverse_reverse]
  exact List.dropWhile_suffix isBlank

theorem trim_append {t : Text} (hne : t ≠ []) (ht : ∀ c ∈ t, isBlank c = false) (r : Text) :
    trim (t ++ r) = t ++ trimRight r := by
  have hfront : ∀ {u s : Text}, u ≠ [] → (∀ c ∈ u, isBlank c = false) →
      (u ++ s).dropWhile isBlank = u ++ s := by
    intro u s hu hall
    obtain ⟨c, u, rfl⟩ := List.exists_cons_of_ne_nil hu
    simp [hall c (by simp)]
  have hback : t.reverse.dropWhile isBlank = t.reverse := by
    simpa using hfront (s := []) (List.reverse_ne_nil_iff.2 hne)
      (fun c hc => ht c (List.mem_reverse.1 hc))
  rw [trim, trimSet, hfront hne ht, List.reverse_append, List.dropWhile_append, hback, trimRight]
  split
  · rename_i hempty
    rw [List.isEmpty_iff.1 hempty]
    simp
  · rw [List.reverse_append, List.reverse_reverse]

/-- Nothing that could continue a word comes to the front of a line when it is put in canonical
form. -/
theorem endsWord_canonical {r : Text} (hr : EndsWord r) :
    EndsWord (trimRight (tighten false (collapse false r))) := by
  intro c hc
  have hhead : (collapse false r).head? = some c := by
    obtain ⟨back, hback⟩ := trimRight_prefix (tighten false (collapse false r))
    rw [← head?_tighten, ← hback, List.head?_append, Option.mem_def.1 hc]
    rfl
  cases r with
  | nil => cases hhead
  | cons x r =>
    by_cases hblank : isBlank x = true
    · simp only [collapse, hblank, if_true, Bool.false_eq_true, if_false, List.head?_cons,
        Option.some.injEq] at hhead
      rw [← hhead]
      decide
    · simp only [collapse, hblank, Bool.false_eq_true, if_false, List.head?_cons,
        Option.some.injEq] at hhead
      rw [← hhead]
      exact hr x rfl

theorem normalize_identifier {t r : Text} (ht : isIdentifier t = true) (hr : EndsWord r) :
    ∃ r', normalize (t ++ r) = t ++ r' ∧ EndsWord r' := by
  have hplain := not_blank_of_isIdentifier ht
  have hne : t ≠ [] := by
    rintro rfl
    cases ht
  refine ⟨_, ?_, endsWord_canonical hr⟩
  rw [normalize, collapse_append fun c hc => (hplain c hc).1,
    tighten_append fun c hc => (hplain c hc).2, trim_append hne fun c hc => (hplain c hc).1]

/-! ## Stopping -/

/-- The word `namespace` and a space open no line that opens with another identifier. -/
theorem not_namespace_of_identifier {t r : Text} (ht : isIdentifier t = true)
    (hspace : t ≠ "namespace".toList) (hr : EndsWord r) : ¬ "namespace ".toList <+: t ++ r := by
  rintro ⟨rest, hrest⟩
  have hline : "namespace".toList ++ ' ' :: rest = t ++ r := hrest
  have htake : t.takeWhile isWord = "namespace".toList := by
    rw [← takeWhile_isWord_append hr, ← hline]
    exact takeWhile_append_of_endsWord
      (List.all_eq_true.1 (by decide : "namespace".toList.all isWord = true))
      (by intro c hc; cases hc; decide)
  obtain ⟨more, hmore⟩ := htake ▸ List.takeWhile_prefix isWord (l := t)
  rw [← hmore, List.append_assoc] at hline
  -- what the identifier has behind the word would start with the space
  cases more with
  | nil => exact hspace (by rw [← hmore, List.append_nil])
  | cons c more =>
    obtain ⟨rfl, -⟩ := List.cons.inj (List.append_cancel_left hline)
    have hblank := (not_blank_of_isIdentifier ht ' ' (by rw [← hmore]; simp)).1
    exact absurd hblank (by decide)

/-- A line that opens with an identifier stops if the longest word at the front of the identifier
is a stop token. -/
theorem read_token_iff (stops : List Text) {t r : Text} (ht : isIdentifier t = true)
    (hspace : t ≠ "namespace".toList) (hr : EndsWord r) :
    read stops (normalize (t ++ r)) = .stops ↔ ∃ w ∈ stops, IsLeadingWord t w := by
  obtain ⟨r', hline, hr'⟩ := normalize_identifier ht hr
  have hfront := not_namespace_of_identifier ht hspace hr'
  have hsays := says_read stops (t ++ r')
  have hword : ∀ w, IsLeadingWord (t ++ r') w ↔ IsLeadingWord t w := by
    intro w
    rw [isLeadingWord_iff, isLeadingWord_iff, leadingWord?_append hr']
  rw [hline]
  constructor
  · intro hread
    rw [hread] at hsays
    cases hsays with
    | stops _ hleading hstop => exact ⟨_, hstop, (hword _).1 hleading⟩
  · rintro ⟨w, hstop, hleading⟩
    exact hsays.unique (.stops hfront ((hword w).2 hleading) hstop)

/-- A line opens with a stop token that the check of the settings lets pass, and what follows does
not continue a word. It stops exactly if the longest word at the front of the token is a token as
well. That word is the token itself if the token has word characters only, and then the line stops;
any other token is never read as a whole. -/
theorem line_stops_at_word_of_token (v : Value) (settings : ScannerSettings)
    (hcheck : Settings.checkScanner v = .valid settings) (t r : Text)
    (ht : t ∈ settings.stopTokens) (hspace : t ≠ "namespace".toList) (hr : EndsWord r) :
    (read settings.stopTokens (normalize (t ++ r)) = .stops ↔
      ∃ w ∈ settings.stopTokens, IsLeadingWord t w) ∧
    (IsLeadingWord t t ↔ ∀ c ∈ t, isWord c = true) ∧
    ((∀ c ∈ t, isWord c = true) → read settings.stopTokens (normalize (t ++ r)) = .stops) := by
  have hidentifier := (Settings.sensible_of_checkScanner hcheck).stopTokens t ht
  have hstops := read_token_iff settings.stopTokens hidentifier hspace hr
  refine ⟨hstops, isLeadingWord_self hidentifier, fun hword => ?_⟩
  exact hstops.2 ⟨t, ht, (isLeadingWord_self hidentifier).2 hword⟩

/-- Configuration with nothing but stop tokens. -/
def stopConfiguration (tokens : List Text) : Value :=
  .record [("stop_tokens".toList, .list (tokens.map .text))]

/-- A token of letters beyond ASCII, and one with a combining mark behind another token. -/
def letterTokens : List Text := ["größe", "e", "e\u0301"]

theorem letter_tokens_stop :
    Settings.checkScanner (stopConfiguration letterTokens) =
        .valid { stopTokens := letterTokens } ∧
      read letterTokens (normalize "größe\t#[ (".toList) = .stops ∧
      read letterTokens (normalize "e\u0301 = 1;".toList) = .stops := by
  have hcheck : Settings.checkScanner (stopConfiguration letterTokens) =
      .valid { stopTokens := letterTokens } := by rfl
  have hword : ∀ c ∈ "größe".toList, isWord c = true :=
    List.all_eq_true.1 (by decide : "größe".toList.all isWord = true)
  have hends : ∀ {c : Char} {r : Text}, isWord c = false → EndsWord (c :: r) := by
    intro c r hc x hx
    cases hx
    exact hc
  have hfront : IsLeadingWord "e\u0301".toList "e".toList := by
    rw [isLeadingWord_iff]
    decide
  obtain ⟨-, -, hletters⟩ := line_stops_at_word_of_token _ _ hcheck "größe".toList
    "\t#[ (".toList (by decide) (by decide) (hends (by decide))
  obtain ⟨hmarked, -⟩ := line_stops_at_word_of_token _ _ hcheck "e\u0301".toList " = 1;".toList
    (by decide) (by decide) (hends (by decide))
  exact ⟨hcheck, hletters hword, hmarked.2 ⟨"e".toList, by decide, hfront⟩⟩

/-- A word with a combining mark. -/
def markedTokens : List Text := ["re\u0301turn"]

/-- A token that the settings accept and no line stops at: the class behind it is found. -/
theorem marked_token_is_passed_over :
    Settings.checkScanner (stopConfiguration markedTokens) =
        .valid { stopTokens := markedTokens } ∧
      read markedTokens (normalize "re\u0301turn;".toList) = .nothing ∧
      header markedTokens ["re\u0301turn;", "class A"] = ⟨none, some "A".toList⟩ :=
  ⟨by rfl, by decide, by decide⟩

end Source
end ClassCensus
