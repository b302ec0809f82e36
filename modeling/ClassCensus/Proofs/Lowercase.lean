import ClassCensus.Text.Lowercase
import Mathlib.Data.List.Infix

/-!
# ClassCensus.Proofs.Lowercase

Parts of a text in lower case. Such a part holds no capital, so that it can agree without regard
to case with a plain word only if it is that word (`eq_of_lower_eq`). A word is plain if it is made
of small letters from a to z and of the signs that stand among them, such as the underscore.
-/

namespace ClassCensus
namespace Text

/-- The letters whose small letter is plain: the capitals from A to Z, and the sign for kelvin. -/
def turnsPlain (n : Nat) : Bool := (0x41 ≤ n && n ≤ 0x5A) || n = 0x212A

/-- Code points from the end of the capitals to 128. -/
def isPlain (c : Char) : Bool := 0x5A < c.toNat && c.toNat < 128

/-- What is checked of a run: no plain character is among its capitals, and its small letters are
characters that do not turn plain, and are plain only where its capitals turn plain. -/
def runAgrees (run : Nat × Nat × Nat × Int) : Bool :=
  match run with
  | (lo, hi, _, shift) =>
    let first := ((lo : Int) + shift).toNat
    let last := ((hi : Int) + shift).toNat
    (hi ≤ 0x5A || 128 ≤ lo) && 0 ≤ (lo : Int) + shift &&
    (last < 0xD800 || (0xE000 ≤ first && last < 0x110000)) &&
    (last < 0x41 || 0x5A < first) && (last < 0x212A || 0x212A < first) &&
    (128 ≤ first || (0x41 ≤ lo && hi ≤ 0x5A) || (lo = 0x212A && hi = 0x212A))

theorem runs_agree : capitalRuns.all runAgrees = true := by decide

theorem smallOf_cases (runs : List (Nat × Nat × Nat × Int)) (n : Nat) :
    smallOf runs n = n ∨ ∃ run ∈ runs, run.1 ≤ n ∧ n ≤ run.2.1 ∧
      smallOf runs n = ((n : Int) + run.2.2.2).toNat := by
  induction runs with
  | nil => exact .inl rfl
  | cons run runs ih =>
    obtain ⟨lo, hi, step, shift⟩ := run
    rw [smallOf]
    split
    · rename_i hrun
      simp only [Bool.and_eq_true, decide_eq_true_eq] at hrun
      exact .inr ⟨_, List.mem_cons_self, hrun.1.1, hrun.1.2, rfl⟩
    · rcases ih with hn | ⟨run, hmem, hlo, hhi, hn⟩
      · exact .inl hn
      · exact .inr ⟨run, List.mem_cons_of_mem _ hmem, hlo, hhi, hn⟩

/-- A letter that has a small one of its own. -/
theorem smallOf_of_ne {n : Nat} (h : smallOf capitalRuns n ≠ n) :
    (Char.ofNat (smallOf capitalRuns n)).toNat = smallOf capitalRuns n ∧
      turnsPlain (smallOf capitalRuns n) = false ∧
      (smallOf capitalRuns n < 128 → turnsPlain n = true) ∧ (n ≤ 0x5A ∨ 128 ≤ n) := by
  rcases smallOf_cases capitalRuns n with hn | ⟨⟨lo, hi, step, shift⟩, hrun, hlo, hhi, hn⟩
  · exact absurd hn h
  · have hagrees := List.all_eq_true.1 runs_agree _ hrun
    simp only [runAgrees, Bool.and_eq_true, Bool.or_eq_true, decide_eq_true_eq] at hagrees
    dsimp only at hlo hhi hn
    have hvalid : (smallOf capitalRuns n).isValidChar := by
      rw [hn, Nat.isValidChar]
      omega
    refine ⟨by rw [Char.ofNat, dif_pos hvalid]; rfl, ?_⟩
    rw [hn]
    simp only [turnsPlain, Bool.or_eq_true, Bool.or_eq_false_iff, Bool.and_eq_true,
      Bool.and_eq_false_iff, decide_eq_true_eq, decide_eq_false_iff_not]
    omega

/-- A character that lower case leaves alone where it would turn plain. -/
def IsSmall (c : Char) : Prop :=
  smallOf capitalRuns c.toNat < 128 → smallOf capitalRuns c.toNat = c.toNat

theorem isSmall_smallOf (c : Char) : IsSmall (Char.ofNat (smallOf capitalRuns c.toNat)) := by
  by_cases hc : smallOf capitalRuns c.toNat = c.toNat
  · intro _
    rw [hc, Char.ofNat_toNat, hc]
  · obtain ⟨hnat, hplain, -⟩ := smallOf_of_ne hc
    rw [IsSmall, hnat]
    intro hlt
    by_contra hne
    rw [(smallOf_of_ne hne).2.2.1 hlt] at hplain
    cases hplain

theorem isSmall_of_mem_lowerAfter {before t : Text} {c : Char} (h : c ∈ lowerAfter before t) :
    IsSmall c := by
  induction t generalizing before with
  | nil => simp [lowerAfter] at h
  | cons x t ih =>
    rw [lowerAfter] at h
    rcases List.mem_append.1 h with hc | hc
    · split at hc
      · split at hc <;> (cases List.mem_singleton.1 hc; exact fun _ => by decide)
      · split at hc
        · simp only [List.mem_cons, List.not_mem_nil, or_false] at hc
          rcases hc with rfl | rfl <;> exact fun _ => by decide
        · cases List.mem_singleton.1 hc
          exact isSmall_smallOf x
    · exact ih hc

theorem lowerAfter_eq_self {t : Text} (hsmall : ∀ c ∈ t, IsSmall c) {before : Text}
    (hplain : ∀ c ∈ lowerAfter before t, c.toNat < 128) : lowerAfter before t = t := by
  induction t generalizing before with
  | nil => rfl
  | cons c t ih =>
    rw [lowerAfter] at hplain ⊢
    have hrest := ih (fun x hx => hsmall x (List.mem_cons_of_mem _ hx))
      fun x hx => hplain x (List.mem_append_right _ hx)
    have hfirst := fun x hx => hplain x (List.mem_append_left _ hx)
    clear hplain
    rw [hrest]
    split at hfirst
    · -- neither form of a small sigma is plain
      split at hfirst <;> exact absurd (hfirst _ List.mem_cons_self) (by decide)
    · split at hfirst
      · exact absurd (hfirst '\u0307' (by simp)) (by decide)
      · rename_i hsigma hdot
        have hlt := hfirst _ (List.mem_singleton.2 rfl)
        have hself : Char.ofNat (smallOf capitalRuns c.toNat) = c := by
          by_cases hc : smallOf capitalRuns c.toNat = c.toNat
          · rw [hc, Char.ofNat_toNat]
          · rw [(smallOf_of_ne hc).1] at hlt
            exact absurd (hsmall c List.mem_cons_self hlt) hc
        simp only [if_neg hsigma, if_neg hdot, hself, List.singleton_append]

theorem lowerAfter_of_plain {t : Text} (h : t.all isPlain = true) (before : Text) :
    lowerAfter before t = t := by
  induction t generalizing before with
  | nil => rfl
  | cons c t ih =>
    simp only [List.all_cons, isPlain, Bool.and_eq_true, decide_eq_true_eq] at h
    have hsmall : smallOf capitalRuns c.toNat = c.toNat := by
      by_contra hne
      have := (smallOf_of_ne hne).2.2.2
      omega
    have hsigma : c ≠ 'Σ' := by
      rintro rfl
      exact absurd h.1.2 (by decide)
    have hdot : c ≠ 'İ' := by
      rintro rfl
      exact absurd h.1.2 (by decide)
    rw [lowerAfter]
    simp only [if_neg hsigma, if_neg hdot, hsmall, Char.ofNat_toNat, List.singleton_append]
    rw [ih (by simpa [isPlain] using h.2)]

theorem lower_of_plain {t : Text} (h : t.all isPlain = true) : lower t = t :=
  lowerAfter_of_plain h []

theorem eq_of_lower_eq {part t word : Text} (hpart : part <:+: lower t)
    (hplain : word.all isPlain = true) (h : lower part = word) : part = word := by
  subst h
  have hword : ∀ c ∈ lower part, c.toNat < 128 := by
    intro c hc
    have hc := List.all_eq_true.1 hplain c hc
    simp only [isPlain, Bool.and_eq_true, decide_eq_true_eq] at hc
    exact hc.2
  exact (lowerAfter_eq_self (fun c hc => isSmall_of_mem_lowerAfter (hpart.subset hc)) hword).symm

end Text
end ClassCensus
