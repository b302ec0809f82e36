import ClassCensus.Text.Encoding
import Mathlib.Algebra.Group.Nat.Defs
import Mathlib.Data.List.Infix

/-!
# ClassCensus.Proofs.Utf8

Octets read as UTF-8. `Reads` says what it is to read octets piece by piece: a piece that stands
for a character is read as that character, and where there is none, a spoilt piece is read as the
replacement character. In UTF-8 a spoilt piece goes as far as it could still have become a
character (`Stump`).

Reading octet by octet comes to just that (`reads_decodeUtf8`). The state between two octets is
told by the characters that can still come of it, which lie in one range of code points
(`Pending`): `Pending.next` and `Pending.complete` say what a fitting octet does to that range, and
`Pending.fits` that any other octet rules all of them out. The octets of a text are read back as
that text (`decodeUtf8_utf8`), and a check that lets no octet go to waste accepts them
(`isUtf8_utf8`).
-/

namespace ClassCensus

namespace Encoding

/-! ## Reading piece by piece -/

/-- Octets are read as a text, piece by piece. `writes c piece` says that the piece stands for the
character `c`, and `spoilt piece rest` that a piece which does not is lost, with `rest` behind
it. -/
inductive Reads (writes : Char → List UInt8 → Prop) (spoilt : List UInt8 → List UInt8 → Prop) :
    List UInt8 → Text → Prop
  | done : Reads writes spoilt [] []
  | char {c : Char} {piece rest : List UInt8} {t : Text} (hpiece : writes c piece)
      (h : Reads writes spoilt rest t) : Reads writes spoilt (piece ++ rest) (c :: t)
  | replaced {piece rest : List UInt8} {t : Text}
      (hnone : ∀ c front, writes c front → ¬ front <+: piece ++ rest) (hpiece : spoilt piece rest)
      (h : Reads writes spoilt rest t) : Reads writes spoilt (piece ++ rest) (replacement :: t)

/-- What makes reading unambiguous: no character goes on from another, and it is settled how much a
spoilt piece takes. -/
structure Unambiguous (writes : Char → List UInt8 → Prop)
    (spoilt : List UInt8 → List UInt8 → Prop) : Prop where
  written : ∀ {c piece}, writes c piece → piece ≠ []
  free : ∀ {c c' front front'}, writes c front → writes c' front' → front <+: front' →
    c = c' ∧ front = front'
  lost : ∀ {piece rest}, spoilt piece rest → piece ≠ []
  same : ∀ {piece rest piece' rest'}, spoilt piece rest → spoilt piece' rest' →
    piece ++ rest = piece' ++ rest' → piece = piece'

theorem Reads.unique {writes : Char → List UInt8 → Prop}
    {spoilt : List UInt8 → List UInt8 → Prop} (hu : Unambiguous writes spoilt)
    {octets : List UInt8} {t t' : Text} (h : Reads writes spoilt octets t)
    (h' : Reads writes spoilt octets t') : t = t' := by
  induction h generalizing t' with
  | done =>
    generalize hoctets : ([] : List UInt8) = octets at h'
    cases h' with
    | done => rfl
    | char hpiece _ => exact absurd (List.append_eq_nil_iff.1 hoctets.symm).1 (hu.written hpiece)
    | replaced _ hpiece _ =>
      exact absurd (List.append_eq_nil_iff.1 hoctets.symm).1 (hu.lost hpiece)
  | @char c piece rest t hpiece _ ih =>
    generalize hoctets : piece ++ rest = octets at h'
    cases h' with
    | done => exact absurd (List.append_eq_nil_iff.1 hoctets).1 (hu.written hpiece)
    | @char c' piece' rest' t' hpiece' h' =>
      have hfront : piece <+: piece' ++ rest' := ⟨rest, hoctets⟩
      -- one of the two pieces is the front of the other, and then they are the same
      obtain ⟨rfl, rfl⟩ : c = c' ∧ piece = piece' := by
        rcases List.prefix_or_prefix_of_prefix hfront (List.prefix_append piece' rest') with h | h
        · exact hu.free hpiece hpiece' h
        · obtain ⟨hc, hp⟩ := hu.free hpiece' hpiece h
          exact ⟨hc.symm, hp.symm⟩
      rw [List.append_cancel_left_eq] at hoctets
      rw [ih (hoctets ▸ h')]
    | replaced hnone _ _ => exact absurd ⟨rest, hoctets⟩ (hnone c piece hpiece)
  | @replaced piece rest t hnone hpiece _ ih =>
    generalize hoctets : piece ++ rest = octets at h' hnone
    cases h' with
    | done => exact absurd (List.append_eq_nil_iff.1 hoctets).1 (hu.lost hpiece)
    | @char c' piece' rest' t' hpiece' _ =>
      exact absurd (List.prefix_append piece' rest') (hnone c' piece' hpiece')
    | @replaced piece' rest' t' _ hpiece' h' =>
      obtain rfl := hu.same hpiece hpiece' hoctets
      rw [List.append_cancel_left_eq] at hoctets
      rw [ih (hoctets ▸ h')]

/-! ## The octets of a character -/

section

open Text

theorem eq_toUInt8_iff {b : UInt8} {m : Nat} (hm : m < 256) : b = m.toUInt8 ↔ b.toNat = m := by
  rw [← UInt8.toNat_inj]
  simp [Nat.mod_eq_of_lt hm]

theorem toUInt8_inj {m n : Nat} (hm : m < 256) (hn : n < 256) :
    m.toUInt8 = n.toUInt8 ↔ m = n := by
  rw [eq_toUInt8_iff hn]
  simp [Nat.mod_eq_of_lt hm]

/-- The octets behind the first one: the lowest digits of a code point to the base 64. -/
def conts : (due : Nat) → Nat → List UInt8
  | 0, _ => []
  | due + 1, n => (0x80 + n / 64 ^ due % 64).toUInt8 :: conts due n

theorem conts_inj {k n m : Nat} (h : conts k n = conts k m) : n % 64 ^ k = m % 64 ^ k := by
  induction k with
  | zero => simp [Nat.mod_one]
  | succ k ih =>
    simp only [conts, List.cons.injEq] at h
    obtain ⟨hdigit, hrest⟩ := h
    rw [toUInt8_inj (by omega) (by omega), Nat.add_left_cancel_iff] at hdigit
    rw [Nat.mod_pow_succ, Nat.mod_pow_succ, ih hrest, hdigit]

theorem length_conts (k n : Nat) : (conts k n).length = k := by
  induction k with
  | zero => rfl
  | succ k ih => rw [conts, List.length_cons, ih]

/-- How many octets stand behind the first one of a code point. -/
def tailCount (n : Nat) : Nat :=
  if n < 0x80 then 0 else if n < 0x800 then 1 else if n < 0x10000 then 2 else 3

/-- The first octet of a code point: a mark for the number of octets, and the highest digits. -/
def leadCode (n : Nat) : Nat :=
  match tailCount n with
  | 0 => n
  | 1 => 0xC0 + n / 64
  | 2 => 0xE0 + n / 4096
  | _ => 0xF0 + n / 262144

theorem utf8Char_eq (c : Char) :
    utf8Char c = (leadCode c.toNat).toUInt8 :: conts (tailCount c.toNat) c.toNat := by
  by_cases h1 : c.toNat < 0x80
  · simp [utf8Char, leadCode, tailCount, h1, conts]
  by_cases h2 : c.toNat < 0x800
  · simp [utf8Char, leadCode, tailCount, h1, h2, conts]
  by_cases h3 : c.toNat < 0x10000 <;> simp [utf8Char, leadCode, tailCount, h1, h2, h3, conts]

/-- The four forms of a code point. -/
theorem leadCode_cases (n : Nat) :
    (n < 0x80 ∧ tailCount n = 0 ∧ leadCode n = n) ∨
    (0x80 ≤ n ∧ n < 0x800 ∧ tailCount n = 1 ∧ leadCode n = 0xC0 + n / 64) ∨
    (0x800 ≤ n ∧ n < 0x10000 ∧ tailCount n = 2 ∧ leadCode n = 0xE0 + n / 4096) ∨
    (0x10000 ≤ n ∧ tailCount n = 3 ∧ leadCode n = 0xF0 + n / 262144) := by
  by_cases h1 : n < 0x80
  · simp [leadCode, tailCount, h1]
  by_cases h2 : n < 0x800
  · simp [leadCode, tailCount, h1, h2, Nat.le_of_not_lt h1]
  by_cases h3 : n < 0x10000
  · simp [leadCode, tailCount, h1, h2, h3, Nat.le_of_not_lt h2]
  · simp [leadCode, tailCount, h1, h2, h3, Nat.le_of_not_lt h3]

theorem isValidChar_toNat (c : Char) :
    c.toNat < 0xD800 ∨ 0xDFFF < c.toNat ∧ c.toNat < 0x110000 := c.valid

theorem toNat_ofNat {n : Nat} (h : n.isValidChar) : (Char.ofNat n).toNat = n := by
  rw [Char.ofNat, dif_pos h]
  rfl

theorem lead_prefix_iff {b : UInt8} {c : Char} :
    [b] <+: utf8Char c ↔ b.toNat = leadCode c.toNat := by
  have hvalid := isValidChar_toNat c
  have hcases := leadCode_cases c.toNat
  rw [utf8Char_eq, List.cons_prefix_cons, eq_toUInt8_iff (by omega)]
  simp

theorem utf8Char_free {c d : Char} (h : utf8Char c <+: utf8Char d) : c = d := by
  have hvalid := isValidChar_toNat c
  have hvalid' := isValidChar_toNat d
  have hcases := leadCode_cases c.toNat
  have hcases' := leadCode_cases d.toNat
  rw [utf8Char_eq, utf8Char_eq, List.cons_prefix_cons, toUInt8_inj (by omega) (by omega)] at h
  obtain ⟨hlead, hconts⟩ := h
  -- the first octet tells how many there are, and has the digits that the others have not
  have htail : tailCount c.toNat = tailCount d.toNat := by omega
  rw [htail] at hconts
  have hmod := conts_inj (hconts.eq_of_length (by simp only [length_conts]))
  rw [← Char.toNat_inj]
  rcases hcases' with ⟨_, hk, _⟩ | ⟨_, _, hk, _⟩ | ⟨_, _, hk, _⟩ | ⟨_, hk, _⟩ <;>
  · simp only [hk, Nat.reducePow] at hmod
    omega

theorem utf8Char_ne_nil (c : Char) : utf8Char c ≠ [] := by simp [utf8Char_eq]

/-! ## What is left of a character -/

/-- Octets with which a character begins. -/
def Begun (front : List UInt8) : Prop := front ≠ [] ∧ ∃ c, front <+: utf8Char c

/-- A piece that is lost: as long as a character could still have come of it, or one octet if none
begins there. -/
structure Stump (piece rest : List UInt8) : Prop where
  begun : Begun piece ∨ piece.length = 1
  longest : ∀ front, Begun front → front <+: piece ++ rest → front <+: piece

theorem Begun.head {b : UInt8} {front : List UInt8} (h : Begun (b :: front)) : Begun [b] := by
  obtain ⟨-, c, hc⟩ := h
  exact ⟨by simp, c, (by simp : [b] <+: b :: front).trans hc⟩

theorem Stump.ne_nil {piece rest : List UInt8} (h : Stump piece rest) : piece ≠ [] := by
  rcases h.begun with hbegun | hone
  · exact hbegun.1
  · exact List.ne_nil_of_length_pos (by omega)

theorem Stump.length_le {piece rest piece' rest' : List UInt8} (h : Stump piece rest)
    (h' : Stump piece' rest') (hall : piece ++ rest = piece' ++ rest') :
    piece.length ≤ piece'.length := by
  rcases h.begun with hbegun | hone
  · exact (h'.longest piece hbegun ⟨rest, hall⟩).length_le
  · have := List.length_pos_of_ne_nil h'.ne_nil
    omega

/-- Where no character begins, one octet is lost. -/
theorem Stump.single {b : UInt8} (h : ¬ Begun [b]) (rest : List UInt8) : Stump [b] rest where
  begun := .inr rfl
  longest := by
    rintro (_ | ⟨b', front⟩) hbegun hfront
    · exact List.nil_prefix
    · obtain ⟨rfl, -⟩ := List.cons_prefix_cons.1 hfront
      exact absurd hbegun.head h

theorem not_prefix_of_not_begun {b : UInt8} (h : ¬ Begun [b]) (c : Char) (rest : List UInt8) :
    ¬ utf8Char c <+: b :: rest := by
  intro hfront
  have hbegun : Begun (utf8Char c) := ⟨utf8Char_ne_nil c, c, List.prefix_rfl⟩
  rw [utf8Char_eq] at hfront hbegun
  obtain ⟨rfl, -⟩ := List.cons_prefix_cons.1 hfront
  exact h hbegun.head

/-- Octets are read as UTF-8. -/
def ReadsUtf8 : List UInt8 → Text → Prop := Reads (fun c piece => piece = utf8Char c) Stump

theorem unambiguous_utf8 : Unambiguous (fun c piece => piece = utf8Char c) Stump where
  written := by
    rintro c _ rfl
    exact utf8Char_ne_nil c
  free := by
    rintro c d _ _ rfl rfl h
    obtain rfl := utf8Char_free h
    exact ⟨rfl, rfl⟩
  lost := Stump.ne_nil
  same h h' hall := (List.append_inj hall
    (Nat.le_antisymm (h.length_le h' hall) (h'.length_le h hall.symm))).1

/-! ## Reading octet by octet -/

/-- The code points that may still come of what has been read. -/
def Partial.Spans (p : Partial) (n : Nat) : Prop :=
  p.bits * 64 + (p.low.toNat - 0x80) ≤ n / 64 ^ (p.due - 1) ∧
    n / 64 ^ (p.due - 1) ≤ p.bits * 64 + (p.high.toNat - 0x80)

/-- `p` is the state after the octets `seen` of a character: the characters that begin so are those
of its range, and all they want is their last digits. -/
structure Pending (p : Partial) (seen : List UInt8) : Prop where
  due : 0 < p.due
  low : 0x80 ≤ p.low.toNat
  ordered : p.low.toNat ≤ p.high.toNat
  high : p.high.toNat < 0xC0
  nonempty : seen ≠ []
  chars : ∀ c : Char, seen <+: utf8Char c ↔ p.Spans c.toNat
  octets : ∀ c : Char, p.Spans c.toNat → utf8Char c = seen ++ conts p.due c.toNat
  valid : ∀ n, p.Spans n → n.isValidChar

/-- The state after one octet more. -/
def Partial.taken (p : Partial) (b : UInt8) : Partial :=
  ⟨p.bits * 64 + b.toNat % 64, p.due - 1, 0x80, 0xBF⟩

theorem Partial.taken_spans_iff (p : Partial) (b : UInt8) (hdue : 1 < p.due) (n : Nat) :
    (p.taken b).Spans n ↔ n / 64 ^ (p.due - 1) = p.bits * 64 + b.toNat % 64 := by
  obtain ⟨k, hk⟩ : ∃ k, p.due = k + 2 := ⟨p.due - 2, by omega⟩
  have hpow : n / 64 ^ (k + 1) = n / 64 ^ k / 64 := by
    rw [Nat.pow_succ, Nat.div_div_eq_div_mul]
  have hlow : (0x80 : UInt8).toNat = 0x80 := rfl
  have hhigh : (0xBF : UInt8).toNat = 0xBF := rfl
  simp only [Partial.Spans, Partial.taken, hk, Nat.add_one_sub_one, hpow, hlow, hhigh]
  omega

namespace Pending

variable {p : Partial} {seen : List UInt8}

/-- Some character goes on from what has been read. -/
theorem begun (h : Pending p seen) : ∃ c, seen <+: utf8Char c ∧ utf8Char c ≠ seen := by
  have hspans : p.Spans ((p.bits * 64 + (p.low.toNat - 0x80)) * 64 ^ (p.due - 1)) := by
    have := h.ordered
    unfold Partial.Spans
    rw [Nat.mul_div_cancel _ (Nat.pow_pos (by decide))]
    omega
  rw [← toNat_ofNat (h.valid _ hspans)] at hspans
  refine ⟨_, (h.chars _).2 hspans, ?_⟩
  rw [h.octets _ hspans]
  intro hnil
  obtain ⟨due, hdue⟩ := Nat.exists_eq_succ_of_ne_zero h.due.ne'
  simp [hdue, conts] at hnil

/-- An octet that goes on with a character is in the range of the state, and with it the digit of
the code point is known. -/
theorem fits (h : Pending p seen) {b : UInt8} {c : Char} (hc : seen ++ [b] <+: utf8Char c) :
    p.low ≤ b ∧ b ≤ p.high ∧ c.toNat / 64 ^ (p.due - 1) = p.bits * 64 + b.toNat % 64 := by
  have hspans := (h.chars c).1 ((List.prefix_append _ _).trans hc)
  obtain ⟨due, hdue⟩ := Nat.exists_eq_succ_of_ne_zero h.due.ne'
  rw [h.octets c hspans, hdue, conts, List.prefix_append_right_inj, List.cons_prefix_cons,
    eq_toUInt8_iff (by omega)] at hc
  obtain ⟨hlow, hhigh⟩ := hspans
  simp only [hdue, Nat.succ_eq_add_one, Nat.add_sub_cancel] at hlow hhigh ⊢
  have := h.low
  have := h.ordered
  have := h.high
  rw [UInt8.le_iff_toNat_le, UInt8.le_iff_toNat_le]
  omega

/-- The digit that a fitting octet stands for. -/
theorem fits_digit (h : Pending p seen) {b : UInt8} (hlow : p.low ≤ b) (hhigh : b ≤ p.high) :
    b.toNat = 0x80 + b.toNat % 64 ∧ p.low.toNat - 0x80 ≤ b.toNat % 64 ∧
      b.toNat % 64 ≤ p.high.toNat - 0x80 := by
  rw [UInt8.le_iff_toNat_le] at hlow hhigh
  have := h.low
  have := h.high
  omega

/-- The last octet makes the character whole. -/
theorem complete (h : Pending p seen) {b : UInt8} (hlow : p.low ≤ b) (hhigh : b ≤ p.high)
    (hdue : p.due = 1) :
    seen ++ [b] = utf8Char (Char.ofNat (p.bits * 64 + b.toNat % 64)) := by
  obtain ⟨hoctet, hlow, hhigh⟩ := h.fits_digit hlow hhigh
  have hspans : p.Spans (p.bits * 64 + b.toNat % 64) := by
    simp only [Partial.Spans, hdue, Nat.sub_self, Nat.pow_zero, Nat.div_one]
    omega
  have hcode := toNat_ofNat (h.valid _ hspans)
  rw [h.octets _ (hcode.symm ▸ hspans), hcode, hdue, List.append_cancel_left_eq]
  simp only [conts, Nat.pow_zero, Nat.div_one, List.cons.injEq, and_true]
  rw [eq_toUInt8_iff (by omega)]
  omega

/-- An octet before the last narrows the range to one digit. -/
theorem next (h : Pending p seen) {b : UInt8} (hlow : p.low ≤ b) (hhigh : b ≤ p.high)
    (hdue : 1 < p.due) : Pending (p.taken b) (seen ++ [b]) := by
  obtain ⟨hoctet, hl, hh⟩ := h.fits_digit hlow hhigh
  have hiff := p.taken_spans_iff b hdue
  have hspans : ∀ n, (p.taken b).Spans n → p.Spans n := by
    intro n hn
    rw [Partial.Spans, (hiff n).1 hn]
    omega
  have hoctets : ∀ c : Char, (p.taken b).Spans c.toNat →
      utf8Char c = seen ++ [b] ++ conts (p.taken b).due c.toNat := by
    intro c hc
    obtain ⟨due, hp⟩ := Nat.exists_eq_succ_of_ne_zero h.due.ne'
    have hdigit := (hiff _).1 hc
    rw [hp, Nat.succ_sub_one] at hdigit
    have hb : b = (0x80 + c.toNat / 64 ^ due % 64).toUInt8 := by
      rw [eq_toUInt8_iff (by omega)]
      omega
    rw [h.octets c (hspans _ hc), Partial.taken, hp, Nat.succ_sub_one, conts, ← hb]
    simp
  exact {
    due := Nat.sub_pos_of_lt hdue
    low := Nat.le_refl 0x80
    ordered := (by decide : 0x80 ≤ 0xBF)
    high := (by decide : 0xBF < 0xC0)
    nonempty := by simp
    chars := fun c => ⟨fun hc => (hiff _).2 (h.fits hc).2.2, fun hc => ⟨_, (hoctets c hc).symm⟩⟩
    octets := hoctets
    valid := fun n hn => h.valid n (hspans n hn) }

/-- What has been read and cannot go on is lost, and no character stands in front. -/
theorem stump (h : Pending p seen) (rest : List UInt8)
    (hstuck : ∀ b ∈ rest.head?, ¬ (p.low ≤ b ∧ b ≤ p.high)) :
    (∀ c, ¬ utf8Char c <+: seen ++ rest) ∧ Stump seen rest := by
  obtain ⟨d, hd, hne⟩ := h.begun
  have hlongest : ∀ front, Begun front → front <+: seen ++ rest → front <+: seen := by
    rintro front ⟨-, c, hc⟩ hfront
    rcases List.prefix_or_prefix_of_prefix hfront (List.prefix_append seen rest) with hin | ⟨t, rfl⟩
    · exact hin
    cases t with
    | nil => simp
    | cons b t =>
      rw [List.prefix_append_right_inj] at hfront
      obtain ⟨rest', rfl⟩ := hfront
      obtain ⟨hlow, hhigh, -⟩ := h.fits ((by simp : seen ++ [b] <+: seen ++ b :: t).trans hc)
      exact absurd ⟨hlow, hhigh⟩ (hstuck b (by simp))
  refine ⟨fun c hc => hne ?_, .inl ⟨h.nonempty, d, hd⟩, hlongest⟩
  have hcd := hlongest _ ⟨utf8Char_ne_nil c, c, List.prefix_rfl⟩ hc
  obtain rfl := utf8Char_free (hcd.trans hd)
  exact hcd.eq_of_length_le hd.length_le

end Pending

/-! ## The first octet -/

/-- A state that spans just the code points with the first octet `b`. -/
theorem Pending.of_lead {b low high : UInt8} {bits due : Nat} (hdue : 0 < due)
    (hlow : 0x80 ≤ low.toNat) (hordered : low.toNat ≤ high.toNat) (hhigh : high.toNat < 0xC0)
    (hspans : ∀ n, Partial.Spans ⟨bits, due, low, high⟩ n ↔ n.isValidChar ∧ b.toNat = leadCode n)
    (htail : ∀ n, b.toNat = leadCode n → tailCount n = due) :
    Pending ⟨bits, due, low, high⟩ [b] where
  due := hdue
  low := hlow
  ordered := hordered
  high := hhigh
  nonempty := by simp
  chars c := by
    rw [lead_prefix_iff, hspans]
    exact (and_iff_right c.valid).symm
  octets c hc := by
    obtain ⟨-, hlead⟩ := (hspans _).1 hc
    rw [utf8Char_eq, htail _ hlead, ← hlead]
    simp
  valid n hn := ((hspans n).1 hn).1

/-- The first octets of two-octet characters. -/
theorem pending_two {b : UInt8} (hb : 0xC2 ≤ b.toNat) (hb' : b.toNat < 0xE0) :
    Pending ⟨b.toNat % 32, 1, 0x80, 0xBF⟩ [b] := by
  refine .of_lead (by decide) (by decide) (by decide) (by decide) (fun n => ?_) fun n _ => ?_
  · have hcases := leadCode_cases n
    simp only [Partial.Spans, Nat.isValidChar, UInt8.reduceToNat]
    omega
  · have hcases := leadCode_cases n
    omega

/-- The first octets of three-octet characters: behind the lowest of them a shorter form is ruled
out, and behind `0xED` the surrogates are. -/
theorem pending_three {b low high : UInt8} (hb : 0xE0 ≤ b.toNat) (hb' : b.toNat < 0xF0)
    (hlow : b.toNat = 0xE0 ∧ low.toNat = 0xA0 ∨ b.toNat ≠ 0xE0 ∧ low.toNat = 0x80)
    (hhigh : b.toNat = 0xED ∧ high.toNat = 0x9F ∨ b.toNat ≠ 0xED ∧ high.toNat = 0xBF) :
    Pending ⟨b.toNat % 16, 2, low, high⟩ [b] := by
  refine .of_lead (by decide) (by omega) (by omega) (by omega) (fun n => ?_) fun n _ => ?_
  · have hcases := leadCode_cases n
    simp only [Partial.Spans, Nat.isValidChar]
    omega
  · have hcases := leadCode_cases n
    omega

/-- The first octets of four-octet characters: behind the lowest of them a shorter form is ruled
out, and behind the highest what lies beyond the last code point. -/
theorem pending_four {b low high : UInt8} (hb : 0xF0 ≤ b.toNat) (hb' : b.toNat < 0xF5)
    (hlow : b.toNat = 0xF0 ∧ low.toNat = 0x90 ∨ b.toNat ≠ 0xF0 ∧ low.toNat = 0x80)
    (hhigh : b.toNat = 0xF4 ∧ high.toNat = 0x8F ∨ b.toNat ≠ 0xF4 ∧ high.toNat = 0xBF) :
    Pending ⟨b.toNat % 8, 3, low, high⟩ [b] := by
  refine .of_lead (by decide) (by omega) (by omega) (by omega) (fun n => ?_) fun n _ => ?_
  · have hcases := leadCode_cases n
    simp only [Partial.Spans, Nat.isValidChar]
    omega
  · have hcases := leadCode_cases n
    omega

theorem toNat_ite_eq (b x y z : UInt8) :
    b.toNat = x.toNat ∧ (if b = x then y else z).toNat = y.toNat ∨
      b.toNat ≠ x.toNat ∧ (if b = x then y else z).toNat = z.toNat := by
  by_cases h : b = x <;> simp [h, UInt8.toNat_inj]

/-- The octets with which characters begin. -/
theorem Begun.lead_range {b : UInt8} (h : Begun [b]) :
    b.toNat < 0x80 ∨ 0xC2 ≤ b.toNat ∧ b.toNat < 0xF5 := by
  obtain ⟨-, c, hc⟩ := h
  have hlead := lead_prefix_iff.1 hc
  have hvalid := isValidChar_toNat c
  have hcases := leadCode_cases c.toNat
  omega

theorem utf8Char_ofNat {b : UInt8} (h : b.toNat < 0x80) : utf8Char (Char.ofNat b.toNat) = [b] := by
  rw [utf8Char, toNat_ofNat (.inl (by omega)), if_pos h]
  simp

/-- A first octet is a character, or is lost, or wants more. -/
theorem lead_cases (b : UInt8) :
    (∃ c, lead b = ([c], none) ∧ [b] = utf8Char c) ∨
    (lead b = ([replacement], none) ∧ ¬ Begun [b]) ∨
    (∃ p, lead b = ([], some p) ∧ Pending p [b]) := by
  have hlt : ∀ x : UInt8, b < x ↔ b.toNat < x.toNat := fun x => UInt8.lt_iff_toNat_lt
  by_cases h1 : b < 0x80
  · refine .inl ⟨Char.ofNat b.toNat, by simp only [lead, h1, if_true], ?_⟩
    exact (utf8Char_ofNat ((hlt _).1 h1)).symm
  by_cases h2 : b < 0xC2
  · refine .inr (.inl ⟨by simp only [lead, h1, h2, if_true, if_false], fun hbegun => ?_⟩)
    have hrange := hbegun.lead_range
    simp only [hlt, UInt8.reduceToNat] at h1 h2
    omega
  by_cases h3 : b < 0xE0
  · refine .inr (.inr ⟨⟨_, _, _, _⟩, by rw [lead, if_neg h1, if_neg h2, if_pos h3], ?_⟩)
    simp only [hlt, UInt8.reduceToNat] at h2 h3
    exact pending_two (by omega) h3
  by_cases h4 : b < 0xF0
  · refine .inr (.inr ⟨⟨_, _, _, _⟩, by rw [lead, if_neg h1, if_neg h2, if_neg h3, if_pos h4], ?_⟩)
    simp only [hlt, UInt8.reduceToNat] at h3 h4
    exact pending_three (by omega) h4 (toNat_ite_eq b 0xE0 _ _) (toNat_ite_eq b 0xED _ _)
  by_cases h5 : b < 0xF5
  · refine .inr (.inr ⟨⟨_, _, _, _⟩,
      by rw [lead, if_neg h1, if_neg h2, if_neg h3, if_neg h4, if_pos h5], ?_⟩)
    simp only [hlt, UInt8.reduceToNat] at h4 h5
    exact pending_four (by omega) h5 (toNat_ite_eq b 0xF0 _ _) (toNat_ite_eq b 0xF4 _ _)
  · refine .inr (.inl ⟨by simp only [lead, h1, h2, h3, h4, h5, if_false], fun hbegun => ?_⟩)
    have hrange := hbegun.lead_range
    simp only [hlt, UInt8.reduceToNat] at h1 h5
    omega

/-! ## The whole text -/

/-- An octet that does not fit is read again from the start, once what was read is lost. -/
theorem utf8From_stuck {p : Partial} {b : UInt8} (h : ¬ (p.low ≤ b ∧ b ≤ p.high))
    (rest : List UInt8) :
    utf8From (some p) (b :: rest) = replacement :: utf8From none (b :: rest) := by
  simp only [utf8From, utf8Step, Bool.and_eq_true, decide_eq_true_eq, h, if_false,
    List.cons_append]

theorem utf8From_fits {p : Partial} {b : UInt8} (h : p.low ≤ b ∧ b ≤ p.high)
    (rest : List UInt8) :
    utf8From (some p) (b :: rest) =
      if p.due ≤ 1 then Char.ofNat (p.bits * 64 + b.toNat % 64) :: utf8From none rest
      else utf8From (some (p.taken b)) rest := by
  simp only [utf8From, utf8Step, Bool.and_eq_true, decide_eq_true_eq, h, and_self, if_true]
  split <;> rfl

/-- Reading from the start of a character, and from within one. -/
theorem reads_utf8From (octets : List UInt8) :
    ReadsUtf8 octets (utf8From none octets) ∧
      ∀ p seen, Pending p seen → ReadsUtf8 (seen ++ octets) (utf8From (some p) octets) := by
  induction octets with
  | nil =>
    refine ⟨.done, fun p seen h => ?_⟩
    obtain ⟨hnone, hstump⟩ := h.stump [] (by simp)
    exact .replaced (fun c front hfront => hfront ▸ hnone c) hstump .done
  | cons b rest ih =>
    have hfirst : ReadsUtf8 (b :: rest) (utf8From none (b :: rest)) := by
      rcases lead_cases b with ⟨c, hlead, hc⟩ | ⟨hlead, hnot⟩ | ⟨p, hlead, hp⟩
      · simp only [utf8From, utf8Step, hlead]
        exact .char hc ih.1
      · simp only [utf8From, utf8Step, hlead]
        refine .replaced ?_ (.single hnot rest) ih.1
        rintro c _ rfl
        exact not_prefix_of_not_begun hnot c rest
      · simp only [utf8From, utf8Step, hlead]
        exact ih.2 p [b] hp
    -- within a character, an octet that does not fit is read anew, which the first part has settled
    refine ⟨hfirst, fun p seen h => ?_⟩
    by_cases hfits : p.low ≤ b ∧ b ≤ p.high
    · rw [utf8From_fits hfits, List.append_cons]
      split
      case isTrue hdue =>
        have := h.due
        exact .char (h.complete hfits.1 hfits.2 (by omega)) ih.1
      case isFalse hdue =>
        exact ih.2 _ _ (h.next hfits.1 hfits.2 (by omega))
    · rw [utf8From_stuck hfits]
      obtain ⟨hnone, hstump⟩ := h.stump (b :: rest) (by simpa using hfits)
      exact .replaced (fun c front hfront => hfront ▸ hnone c) hstump hfirst

/-- Octet by octet, octets are read as what they spell and what is lost of it. -/
theorem reads_decodeUtf8 (octets : List UInt8) : ReadsUtf8 octets (decodeUtf8 octets) :=
  (reads_utf8From octets).1

/-- A text is read back from its octets. -/
theorem decodeUtf8_utf8 (t : Text) : decodeUtf8 (Text.utf8 t) = t := by
  have hreads : ReadsUtf8 (Text.utf8 t) t := by
    induction t with
    | nil => exact .done
    | cons c t ih => exact .char rfl ih
  exact (reads_decodeUtf8 _).unique unambiguous_utf8 hreads

/-! ## Octets of a text -/

theorem isUtf8From_fits {p : Partial} {b : UInt8} (h : p.low ≤ b ∧ b ≤ p.high)
    (rest : List UInt8) :
    isUtf8From (some p) (b :: rest) =
      if p.due ≤ 1 then isUtf8From none rest else isUtf8From (some (p.taken b)) rest := by
  simp only [isUtf8From, accepts, utf8Step, h, decide_true, Bool.and_self, if_true, Bool.true_and]
  split <;> rfl

/-- Within a character, the octets it still wants are accepted one by one. -/
theorem isUtf8From_conts {p : Partial} {seen : List UInt8} {c : Char} (h : Pending p seen)
    (hc : p.Spans c.toNat) (rest : List UInt8) :
    isUtf8From (some p) (conts p.due c.toNat ++ rest) = isUtf8From none rest := by
  obtain ⟨k, hk⟩ := Nat.exists_eq_succ_of_ne_zero h.due.ne'
  induction k generalizing p seen with
  | zero =>
    have hnext : seen ++ [(0x80 + c.toNat / 64 ^ 0 % 64).toUInt8] <+: utf8Char c := by
      rw [h.octets c hc, hk, conts, conts]
    obtain ⟨hlow, hhigh, -⟩ := h.fits hnext
    rw [hk, conts, List.cons_append, isUtf8From_fits ⟨hlow, hhigh⟩, if_pos (by omega)]
    rfl
  | succ k ih =>
    have hnext : seen ++ [(0x80 + c.toNat / 64 ^ (k + 1) % 64).toUInt8] <+: utf8Char c := by
      rw [h.octets c hc, hk, conts]
      exact ⟨conts (k + 1) c.toNat, by simp⟩
    obtain ⟨hlow, hhigh, -⟩ := h.fits hnext
    have hpending := h.next hlow hhigh (by omega)
    have hdue : (p.taken (0x80 + c.toNat / 64 ^ (k + 1) % 64).toUInt8).due = k + 1 := by
      simp only [Partial.taken]
      omega
    have hrest := ih hpending ((hpending.chars c).1 hnext) hdue
    rw [hk, conts, List.cons_append, isUtf8From_fits ⟨hlow, hhigh⟩, if_neg (by omega), ← hrest, hdue]

theorem isUtf8From_utf8Char (c : Char) (rest : List UInt8) :
    isUtf8From none (utf8Char c ++ rest) = isUtf8From none rest := by
  obtain ⟨b, tail, hb⟩ := List.exists_cons_of_ne_nil (utf8Char_ne_nil c)
  have hfirst : [b] <+: utf8Char c := ⟨tail, hb.symm⟩
  rcases lead_cases b with ⟨d, hlead, hd⟩ | ⟨-, hnot⟩ | ⟨p, hlead, hp⟩
  · obtain rfl := utf8Char_free (hd ▸ hfirst)
    have hsmall : b < 0x80 := by
      have hlength := congrArg List.length (hd.trans (utf8Char_eq d))
      simp only [List.length_cons, List.length_nil, length_conts] at hlength
      have hcode := lead_prefix_iff.1 hfirst
      have hcases := leadCode_cases d.toNat
      simp only [UInt8.lt_iff_toNat_lt, UInt8.reduceToNat]
      omega
    simp only [← hd, List.singleton_append, isUtf8From, accepts, utf8Step, hlead, hsmall,
      decide_true, Bool.true_or, Bool.true_and]
  · exact absurd ⟨by simp, c, hfirst⟩ hnot
  · have hc := (hp.chars c).1 hfirst
    rw [hp.octets c hc, List.append_assoc, List.singleton_append, isUtf8From]
    simp only [accepts, utf8Step, hlead, Option.isSome_some, Bool.or_true, Bool.true_and,
      isUtf8From_conts hp hc]

/-- The octets of a text are accepted. -/
theorem isUtf8_utf8 (t : Text) : isUtf8 (Text.utf8 t) = true := by
  induction t with
  | nil => rfl
  | cons c t ih =>
    rw [isUtf8, Text.utf8, List.flatMap_cons, isUtf8From_utf8Char]
    exact ih

end

end Encoding
end ClassCensus
