import ClassCensus.Proofs.Utf8

/-!
# ClassCensus.Proofs.Utf16

Octets read as UTF-16, of either byte order. A unit that is no character, and no half of one that
goes with the next, is lost. What the end cuts off is lost as one: an octet, or the first half of a
character with what there is of the second (`Cut`).
-/

namespace ClassCensus
namespace Encoding

/-! ## Units -/

/-- The two octets of a unit. -/
def unitOctets (big : Bool) (u : Nat) : List UInt8 :=
  if big then [(u / 256).toUInt8, (u % 256).toUInt8] else [(u % 256).toUInt8, (u / 256).toUInt8]

/-- The octets of a character: one unit, or a high and a low surrogate. -/
def utf16Char (big : Bool) (c : Char) : List UInt8 :=
  if c.toNat < 0x10000 then unitOctets big c.toNat
  else
    unitOctets big (0xD800 + (c.toNat - 0x10000) / 0x400) ++
      unitOctets big (0xDC00 + (c.toNat - 0x10000) % 0x400)

/-- What the end of the octets has cut off. -/
def Cut (big : Bool) (octets : List UInt8) : Prop :=
  octets.length = 1 ∨
    ∃ h tail, isHighSurrogate h = true ∧ tail.length ≤ 1 ∧ octets = unitOctets big h ++ tail

/-- A piece that is lost: all there is if the end has cut it off, and else a unit. -/
def Stray (big : Bool) (piece rest : List UInt8) : Prop :=
  rest = [] ∧ Cut big piece ∨ ¬ Cut big (piece ++ rest) ∧ piece.length = 2

/-- Octets are read as UTF-16. -/
def ReadsUtf16 (big : Bool) : List UInt8 → Text → Prop :=
  Reads (fun c piece => piece = utf16Char big c) (Stray big)

variable {big : Bool} {u v : Nat} {octets rest : List UInt8}

theorem isHighSurrogate_iff : isHighSurrogate u = true ↔ 0xD800 ≤ u ∧ u < 0xDC00 := by
  simp [isHighSurrogate]

theorem isLowSurrogate_iff : isLowSurrogate u = true ↔ 0xDC00 ≤ u ∧ u < 0xE000 := by
  simp [isLowSurrogate]

theorem high_lt (h : isHighSurrogate u = true) : u < 0x10000 := by
  rw [isHighSurrogate_iff] at h
  omega

theorem low_lt (h : isLowSurrogate u = true) : u < 0x10000 := by
  rw [isLowSurrogate_iff] at h
  omega

@[simp] theorem length_unitOctets (big : Bool) (u : Nat) : (unitOctets big u).length = 2 := by
  cases big <;> rfl

theorem unitOctets_inj (hu : u < 0x10000) (hv : v < 0x10000)
    (h : unitOctets big u = unitOctets big v) : u = v := by
  cases big <;>
  · simp only [unitOctets, if_true, Bool.false_eq_true, if_false, List.cons.injEq, and_true] at h
    rw [toUInt8_inj (by omega) (by omega), toUInt8_inj (by omega) (by omega)] at h
    omega

/-- Octets with two units in front have the same first one. -/
theorem unit_of_prefix {front : List UInt8} (hu : u < 0x10000) (hv : v < 0x10000)
    (h : unitOctets big u ++ front <+: unitOctets big v ++ rest) : u = v ∧ front <+: rest := by
  obtain ⟨t, ht⟩ := h
  rw [List.append_assoc] at ht
  obtain ⟨hunit, hrest⟩ := List.append_inj ht (by simp)
  exact ⟨unitOctets_inj hu hv hunit, t, hrest⟩

/-- The two forms of a character. -/
theorem utf16Char_cases (big : Bool) (c : Char) :
    (c.toNat < 0x10000 ∧ isHighSurrogate c.toNat = false ∧ isLowSurrogate c.toNat = false ∧
      utf16Char big c = unitOctets big c.toNat) ∨
    ∃ h l, isHighSurrogate h = true ∧ isLowSurrogate l = true ∧
      c.toNat = 0x10000 + (h - 0xD800) * 0x400 + (l - 0xDC00) ∧
      utf16Char big c = unitOctets big h ++ unitOctets big l := by
  have hvalid := isValidChar_toNat c
  by_cases hc : c.toNat < 0x10000
  · refine .inl ⟨hc, ?_, ?_, by rw [utf16Char, if_pos hc]⟩
    · rw [← Bool.not_eq_true, isHighSurrogate_iff]
      omega
    · rw [← Bool.not_eq_true, isLowSurrogate_iff]
      omega
  · refine .inr ⟨0xD800 + (c.toNat - 0x10000) / 0x400, 0xDC00 + (c.toNat - 0x10000) % 0x400,
      isHighSurrogate_iff.2 ?_, isLowSurrogate_iff.2 ?_, ?_, by rw [utf16Char, if_neg hc]⟩ <;>
    omega

/-- A pair of surrogates spells the character they are read as. -/
theorem utf16Char_pair {h l : Nat} (hh : isHighSurrogate h = true) (hl : isLowSurrogate l = true) :
    utf16Char big (Char.ofNat (0x10000 + (h - 0xD800) * 0x400 + (l - 0xDC00))) =
      unitOctets big h ++ unitOctets big l := by
  rw [isHighSurrogate_iff] at hh
  rw [isLowSurrogate_iff] at hl
  have hcode : (Char.ofNat (0x10000 + (h - 0xD800) * 0x400 + (l - 0xDC00))).toNat =
      0x10000 + (h - 0xD800) * 0x400 + (l - 0xDC00) := toNat_ofNat (.inr ⟨by omega, by omega⟩)
  have hhigh : 0xD800 + (0x10000 + (h - 0xD800) * 0x400 + (l - 0xDC00) - 0x10000) / 0x400 = h := by
    omega
  have hlow : 0xDC00 + (0x10000 + (h - 0xD800) * 0x400 + (l - 0xDC00) - 0x10000) % 0x400 = l := by
    omega
  rw [utf16Char, hcode, if_neg (by omega), hhigh, hlow]

/-- A unit that is no surrogate spells the character it is read as. -/
theorem utf16Char_unit (hu : u < 0x10000) (hh : isHighSurrogate u = false)
    (hl : isLowSurrogate u = false) : utf16Char big (Char.ofNat u) = unitOctets big u := by
  rw [← Bool.not_eq_true, isHighSurrogate_iff] at hh
  rw [← Bool.not_eq_true, isLowSurrogate_iff] at hl
  have hcode : (Char.ofNat u).toNat = u := toNat_ofNat (by simp only [Nat.isValidChar]; omega)
  rw [utf16Char, hcode, if_pos hu]

/-- A character in front of octets that start with a unit: the unit itself, or one whose second half
comes next. -/
theorem utf16Char_prefix {c : Char} (hu : u < 0x10000)
    (h : utf16Char big c <+: unitOctets big u ++ rest) :
    isHighSurrogate u = false ∧ isLowSurrogate u = false ∨
      isHighSurrogate u = true ∧ ∃ l, isLowSurrogate l = true ∧ unitOctets big l <+: rest := by
  rcases utf16Char_cases big c with ⟨hc, hhigh, hlow, heq⟩ | ⟨hi, l, hhi, hl, -, heq⟩
  · rw [heq, ← List.append_nil (unitOctets big c.toNat)] at h
    obtain ⟨rfl, -⟩ := unit_of_prefix hc hu h
    exact .inl ⟨hhigh, hlow⟩
  · rw [heq] at h
    obtain ⟨rfl, hfront⟩ := unit_of_prefix (high_lt hhi) hu h
    exact .inr ⟨hhi, l, hl, hfront⟩

/-- No character goes on from another: a first half is no character by itself. -/
theorem utf16Char_free {c d : Char} (h : utf16Char big c <+: utf16Char big d) : c = d := by
  rw [← Char.toNat_inj]
  rcases utf16Char_cases big c with ⟨hc, hc', -, hoc⟩ | ⟨hi, l, hhi, hl, hc, hoc⟩ <;>
  rcases utf16Char_cases big d with ⟨hd, hd', -, hod⟩ | ⟨hi', l', hhi', hl', hd, hod⟩
  · rw [hoc, hod] at h
    exact unitOctets_inj hc hd (h.eq_of_length (by simp))
  · rw [hoc, hod, ← List.append_nil (unitOctets big c.toNat)] at h
    obtain ⟨heq, -⟩ := unit_of_prefix hc (high_lt hhi') h
    rw [heq, hhi'] at hc'
    cases hc'
  · have hlength := h.length_le
    simp [hoc, hod] at hlength
  · rw [hoc, hod] at h
    obtain ⟨rfl, hfront⟩ := unit_of_prefix (high_lt hhi) (high_lt hhi') h
    rw [hc, hd, unitOctets_inj (low_lt hl) (low_lt hl') (hfront.eq_of_length (by simp))]

theorem utf16Char_length (big : Bool) (c : Char) : 2 ≤ (utf16Char big c).length := by
  rcases utf16Char_cases big c with ⟨-, -, -, h⟩ | ⟨hi, l, -, -, -, h⟩ <;> simp [h]

theorem Cut.ne_nil (h : Cut big octets) : octets ≠ [] := by
  rintro rfl
  rcases h with hone | ⟨hi, tail, -, -, heq⟩
  · cases hone
  · have := congrArg List.length heq
    simp at this
    omega

theorem unambiguous_utf16 (big : Bool) :
    Unambiguous (fun c piece => piece = utf16Char big c) (Stray big) where
  written := by
    rintro c _ rfl
    have hlength := utf16Char_length big c
    exact List.ne_nil_of_length_pos (by omega)
  free := by
    rintro c d _ _ rfl rfl h
    obtain rfl := utf16Char_free h
    exact ⟨rfl, rfl⟩
  lost := by
    rintro piece rest (⟨-, hcut⟩ | ⟨-, htwo⟩)
    · exact hcut.ne_nil
    · exact List.ne_nil_of_length_pos (by omega)
  same := by
    rintro piece rest piece' rest' (⟨rfl, hcut⟩ | ⟨hcut, htwo⟩) (⟨rfl, hcut'⟩ | ⟨hcut', htwo'⟩) hall
    · simpa using hall
    · rw [← hall, List.append_nil] at hcut'
      exact absurd hcut hcut'
    · rw [hall, List.append_nil] at hcut
      exact absurd hcut' hcut
    · exact (List.append_inj hall (htwo.trans htwo'.symm)).1

/-- Octets that do not end within what starts them are not cut. -/
theorem not_cut {u : Nat} (hu : u < 0x10000) (h : isHighSurrogate u = false ∨ 2 ≤ rest.length) :
    ¬ Cut big (unitOctets big u ++ rest) := by
  rintro (hone | ⟨hi, tail, hhi, htail, heq⟩)
  · simp at hone
    omega
  · obtain ⟨hunit, rfl⟩ := List.append_inj heq (by simp)
    have := unitOctets_inj hu (high_lt hhi) hunit
    subst this
    rcases h with h | h
    · rw [hhi] at h
      cases h
    · omega

/-! ## Reading unit by unit -/

/-- Two octets are those of the unit they are read as. -/
theorem unitOctets_of_pair (big : Bool) (a b : UInt8) :
    unitOctets big (if big then a.toNat * 256 + b.toNat else b.toNat * 256 + a.toNat) = [a, b] := by
  have ha := a.toNat_lt
  have hb := b.toNat_lt
  cases big <;>
  · simp only [unitOctets, if_true, Bool.false_eq_true, if_false, List.cons.injEq, and_true,
      eq_comm (b := a), eq_comm (b := b)]
    rw [eq_toUInt8_iff (by omega), eq_toUInt8_iff (by omega)]
    omega

theorem units_cons (big : Bool) (a b : UInt8) (rest : List UInt8) :
    ∃ u, u < 0x10000 ∧ a :: b :: rest = unitOctets big u ++ rest ∧
      units big (a :: b :: rest) = (u :: (units big rest).1, (units big rest).2) := by
  have ha := a.toNat_lt
  have hb := b.toNat_lt
  refine ⟨_, ?_, ?_, rfl⟩
  · split <;> omega
  · rw [unitOctets_of_pair]
    rfl

/-- What the end has cut off is read as one replacement. -/
theorem reads_cut (hcut : Cut big octets) (hnone : ∀ c, ¬ utf16Char big c <+: octets) :
    ReadsUtf16 big octets [replacement] := by
  rw [← List.append_nil octets] at hnone ⊢
  exact .replaced (fun c _ hfront => hfront ▸ hnone c) (.inl ⟨rfl, hcut⟩) .done

/-- A unit that is no character, nor the first half of one, is read as a replacement. -/
theorem reads_stray {t : Text} (hu : u < 0x10000)
    (hcut : isHighSurrogate u = false ∨ 2 ≤ rest.length)
    (hnone : ∀ c, ¬ utf16Char big c <+: unitOctets big u ++ rest) (h : ReadsUtf16 big rest t) :
    ReadsUtf16 big (unitOctets big u ++ rest) (replacement :: t) :=
  .replaced (fun c _ hfront => hfront ▸ hnone c)
    (.inr ⟨not_cut hu hcut, length_unitOctets big u⟩) h

/-- A high surrogate wants a low one behind it. -/
theorem not_prefix_of_high {h : Nat} (hh : isHighSurrogate h = true)
    (hrest : ∀ l, isLowSurrogate l = true → ¬ unitOctets big l <+: rest) (c : Char) :
    ¬ utf16Char big c <+: unitOctets big h ++ rest := by
  intro hfront
  rcases utf16Char_prefix (high_lt hh) hfront with ⟨hnot, -⟩ | ⟨-, l, hl, hnext⟩
  · rw [hh] at hnot
    cases hnot
  · exact hrest l hl hnext

theorem not_prefix_of_low (hlow : isLowSurrogate u = true) (c : Char) :
    ¬ utf16Char big c <+: unitOctets big u ++ rest := by
  intro hfront
  rcases utf16Char_prefix (low_lt hlow) hfront with ⟨-, hnot⟩ | ⟨hhigh, -⟩
  · rw [hlow] at hnot
    cases hnot
  · rw [isLowSurrogate_iff] at hlow
    rw [isHighSurrogate_iff] at hhigh
    omega

/-- Octets are read as the text of their units, from the start of a character and behind a high
surrogate that waits. -/
structure ReadsUnits (big : Bool) (octets : List UInt8) (us : List Nat) (left : Bool) : Prop where
  start : ReadsUtf16 big octets (unitsText left none us)
  behind : ∀ {h}, isHighSurrogate h = true →
    ReadsUtf16 big (unitOctets big h ++ octets) (unitsText left (some h) us)

namespace ReadsUnits

variable {us : List Nat} {left : Bool}

/-- A high surrogate that waits at the end is lost with what is left there. -/
theorem behind_end {h : Nat} (hh : isHighSurrogate h = true) (htail : octets.length ≤ 1) :
    ReadsUtf16 big (unitOctets big h ++ octets) [replacement] := by
  refine reads_cut (.inr ⟨h, octets, hh, htail, rfl⟩) (not_prefix_of_high hh fun l _ hl => ?_)
  have hlength := hl.length_le
  rw [length_unitOctets] at hlength
  omega

theorem nil : ReadsUnits big [] [] false := ⟨.done, fun hh => behind_end hh (by simp)⟩

theorem single (b : UInt8) : ReadsUnits big [b] [] true := by
  refine ⟨reads_cut (.inl rfl) fun c hc => ?_, fun hh => behind_end hh (by simp)⟩
  have hlength := hc.length_le
  have hchar := utf16Char_length big c
  rw [List.length_singleton] at hlength
  omega

/-- A high surrogate is lost before a unit that is no low one. -/
theorem lost_before {h : Nat} (hh : isHighSurrogate h = true) (hu : u < 0x10000)
    (hlow : isLowSurrogate u = false) {t : Text}
    (ht : ReadsUtf16 big (unitOctets big u ++ rest) t) :
    ReadsUtf16 big (unitOctets big h ++ (unitOctets big u ++ rest)) (replacement :: t) := by
  refine reads_stray (high_lt hh) (.inr (by simp)) (not_prefix_of_high hh fun l hl hfront => ?_) ht
  rw [← List.append_nil (unitOctets big l)] at hfront
  obtain ⟨rfl, -⟩ := unit_of_prefix (low_lt hl) hu hfront
  rw [hl] at hlow
  cases hlow

theorem cons (hu : u < 0x10000) (h : ReadsUnits big rest us left) :
    ReadsUnits big (unitOctets big u ++ rest) (u :: us) left := by
  cases hlow : isLowSurrogate u with
  | true =>
    have hhigh : isHighSurrogate u = false := by
      rw [isLowSurrogate_iff] at hlow
      rw [← Bool.not_eq_true, isHighSurrogate_iff]
      omega
    constructor
    · simp only [unitsText, hhigh, hlow, if_true, Bool.false_eq_true, if_false]
      exact reads_stray hu (.inl hhigh) (not_prefix_of_low hlow) h.start
    · intro hi hhi
      simp only [unitsText, hlow, if_true]
      rw [← List.append_assoc]
      exact .char (utf16Char_pair hhi hlow).symm h.start
  | false =>
    cases hhigh : isHighSurrogate u with
    | true =>
      constructor
      · simp only [unitsText, hhigh, if_true]
        exact h.behind hhigh
      · intro hi hhi
        simp only [unitsText, hlow, hhigh, if_true, Bool.false_eq_true, if_false]
        exact lost_before hhi hu hlow (h.behind hhigh)
    | false =>
      have hchar : ReadsUtf16 big (unitOctets big u ++ rest)
          (Char.ofNat u :: unitsText left none us) :=
        .char (utf16Char_unit hu hhigh hlow).symm h.start
      constructor
      · simp only [unitsText, hhigh, hlow, Bool.false_eq_true, if_false]
        exact hchar
      · intro hi hhi
        simp only [unitsText, hlow, hhigh, Bool.false_eq_true, if_false]
        exact lost_before hhi hu hlow hchar

end ReadsUnits

theorem readsUnits_units (big : Bool) (octets : List UInt8) :
    ReadsUnits big octets (units big octets).1 (units big octets).2 := by
  induction octets using units.induct big with
  | case1 => exact .nil
  | case2 b => exact .single b
  | case3 a b rest _ _ _ ih =>
    obtain ⟨u, hu, hoctets, hunits⟩ := units_cons big a b rest
    rw [hunits, hoctets]
    exact ih.cons hu

theorem reads_decodeUtf16 (big : Bool) (octets : List UInt8) :
    ReadsUtf16 big octets (decodeUtf16 big octets) := (readsUnits_units big octets).start

end Encoding
end ClassCensus
