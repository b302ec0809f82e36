import ClassCensus.Proofs.Table
import ClassCensus.Value.Merge

/-!
# ClassCensus.Proofs.Merge

Look-up in maps that were laid over each other. At each key the two values are laid over each
other in turn (`entryAt?_mergeEntries`), so that up to the entries of maps the upper value counts
where there is one (`outline_over`).

Keys that mean the same are one key (`Scalar.same_iff`). A text means the same as itself only, so
there look-up is that of any table.
-/

namespace ClassCensus

mutual

def Value.decEq : (a b : Value) → Decidable (a = b)
  | .scalar a, .scalar b => decidable_of_iff (a = b) (by simp)
  | .list xs, .list ys => @decidable_of_iff _ (xs = ys) (by simp) (itemsDecEq xs ys)
  | .map xs, .map ys => @decidable_of_iff _ (xs = ys) (by simp) (entriesDecEq xs ys)
  | .scalar _, .list _ => isFalse nofun
  | .scalar _, .map _ => isFalse nofun
  | .list _, .scalar _ => isFalse nofun
  | .list _, .map _ => isFalse nofun
  | .map _, .scalar _ => isFalse nofun
  | .map _, .list _ => isFalse nofun

def itemsDecEq : (xs ys : List Value) → Decidable (xs = ys)
  | [], [] => isTrue rfl
  | [], _ :: _ => isFalse nofun
  | _ :: _, [] => isFalse nofun
  | x :: xs, y :: ys =>
    @decidable_of_iff _ (x = y ∧ xs = ys) (by simp)
      (@instDecidableAnd _ _ (Value.decEq x y) (itemsDecEq xs ys))

def entriesDecEq : (xs ys : List (Scalar × Value)) → Decidable (xs = ys)
  | [], [] => isTrue rfl
  | [], _ :: _ => isFalse nofun
  | _ :: _, [] => isFalse nofun
  | (k, x) :: xs, (l, y) :: ys =>
    @decidable_of_iff _ ((k = l ∧ x = y) ∧ xs = ys) (by simp)
      (@instDecidableAnd _ _ (@instDecidableAnd _ _ inferInstance (Value.decEq x y))
        (entriesDecEq xs ys))

end

instance : DecidableEq Value := Value.decEq

namespace Value

/-- A value without the entries of a map. -/
def outline : Value → Value
  | .map _ => .map []
  | v => v

theorem outline_over (old new : Value) : (Value.over old new).outline = new.outline := by
  cases new with
  | scalar s => simp [Value.over]
  | list items => simp [Value.over]
  | map upper => cases old <;> simp [Value.over, outline]

theorem eq_of_outline {v v' : Value} (h : v'.outline = v.outline) (hv : ∀ m, v ≠ .map m) :
    v' = v := by
  cases v with
  | map m => exact absurd rfl (hv m)
  | scalar s => cases v' <;> simp_all [outline]
  | list items => cases v' <;> simp_all [outline]

/-- What stands at a place where one value or none is laid over another or none. -/
def overAll : Option Value → Option Value → Option Value
  | old, none => old
  | none, some new => some new
  | some old, some new => some (Value.over old new)

theorem outline_overAll (old new : Option Value) :
    (overAll old new).map outline = (new.or old).map outline := by
  cases new with
  | none => cases old <;> rfl
  | some v =>
    cases old with
    | none => rfl
    | some w => exact congrArg some (outline_over w v)

end Value

/-! ## Keys -/

namespace Scalar

/-- What a key means: a number that is whole counts as that whole number. -/
def gist (k : Scalar) : Scalar := (k.asInt?.map int).getD k

theorem gist_eq_nan {k : Scalar} : k.gist = .real .nan ↔ k = .real .nan := by
  constructor
  · intro h
    unfold gist at h
    cases hint : k.asInt? with
    | none => simpa [hint] using h
    | some n => simp [hint] at h
  · rintro rfl
    rfl

theorem same_iff {a b : Scalar} : a.same b = true ↔ a.gist = b.gist ∧ a ≠ .real .nan := by
  have hint : ∀ n, (Scalar.int n).asInt? = some n := fun _ => rfl
  unfold same gist
  cases ha : a.asInt? with
  | some m =>
    have hnan : a ≠ .real .nan := by
      rintro rfl
      cases ha
    cases hb : b.asInt? with
    | some n => simp [hnan]
    | none =>
      simp only [Option.map_some, Option.map_none, Option.getD_some, Option.getD_none,
        Bool.false_eq_true, false_iff]
      rintro ⟨rfl, -⟩
      cases hb
  | none =>
    cases hb : b.asInt? with
    | some n =>
      simp only [Option.map_some, Option.map_none, Option.getD_some, Option.getD_none,
        Bool.false_eq_true, false_iff]
      rintro ⟨rfl, -⟩
      cases ha
    | none =>
      simp only [Option.map_none, Option.getD_none]
      split
      · simp
      · rename_i hother
        have hnan : a ≠ .real .nan := fun h => hother h
        simp [hnan]

theorem same_comm (a b : Scalar) : a.same b = b.same a := by
  have hswap : ∀ {a b : Scalar}, a.same b = true → b.same a = true := by
    intro a b h
    obtain ⟨hgist, hnan⟩ := same_iff.1 h
    refine same_iff.2 ⟨hgist.symm, fun hb => hnan ?_⟩
    rw [← gist_eq_nan, hgist, gist_eq_nan, hb]
  exact Bool.eq_iff_iff.2 ⟨hswap, hswap⟩

/-- A key takes the place of one that means the same. -/
theorem same_congr {a b : Scalar} (h : a.same b = true) (c : Scalar) : a.same c = b.same c := by
  obtain ⟨hgist, hnan⟩ := same_iff.1 h
  obtain ⟨-, hnan'⟩ := same_iff.1 ((same_comm b a).trans h)
  rw [Bool.eq_iff_iff, same_iff, same_iff, hgist]
  simp [hnan, hnan']

theorem same_text (k : Scalar) (t : Text) : k.same (.text t) = true ↔ k = .text t := by
  have htext : (Scalar.text t).gist = .text t := rfl
  rw [same_iff, htext]
  constructor
  · rintro ⟨hgist, -⟩
    unfold gist at hgist
    cases hint : k.asInt? with
    | none => simpa [hint] using hgist
    | some n => simp [hint] at hgist
  · rintro rfl
    exact ⟨htext, nofun⟩

/-- A text and a key that is none differ in meaning. -/
theorem eq_text_congr {a b : Scalar} (h : a.same b = true) (t : Text) :
    a = .text t ↔ b = .text t := by
  rw [← same_text, ← same_text, same_congr h]

end Scalar

/-! ## Look-up -/

theorem entryAt?_congr {k k' : Scalar} (h : k.same k' = true) (entries : List (Scalar × Value)) :
    entryAt? entries k = entryAt? entries k' := by
  induction entries with
  | nil => rfl
  | cons e entries ih =>
    obtain ⟨a, v⟩ := e
    have hsame : a.same k = a.same k' := by
      rw [Scalar.same_comm a k, Scalar.same_comm a k', Scalar.same_congr h]
    simp only [entryAt?, hsame, ih]

theorem entryAt?_text (entries : List (Scalar × Value)) (t : Text) :
    entryAt? entries (.text t) = Table.get? entries (.text t) := by
  induction entries with
  | nil => rfl
  | cons e entries ih =>
    obtain ⟨k, v⟩ := e
    simp only [entryAt?, Table.get?, Scalar.same_text, ih]

theorem entryAt?_eq_none {entries : List (Scalar × Value)} {k : Scalar}
    (h : ∀ e ∈ entries, e.1.same k = false) : entryAt? entries k = none := by
  induction entries with
  | nil => rfl
  | cons e entries ih =>
    obtain ⟨hhead, htail⟩ := List.forall_mem_cons.1 h
    simp [entryAt?, hhead, ih htail]

theorem entryAt?_putEntry (entries : List (Scalar × Value)) (k : Scalar) (v : Value) (k' : Scalar) :
    entryAt? (putEntry entries (k, v)) k' = if k.same k' then some v else entryAt? entries k' := by
  induction entries with
  | nil => rfl
  | cons e entries ih =>
    obtain ⟨a, w⟩ := e
    by_cases ha : a.same k = true
    · simp only [putEntry, ha, if_true, entryAt?, Scalar.same_congr ha]
      split <;> rfl
    · simp only [putEntry, ha, Bool.false_eq_true, if_false, entryAt?, ih]
      by_cases hk : k.same k' = true
      · -- the key is not `a`, so neither is one that means the same
        have hak : ¬ a.same k' = true := by
          rw [Scalar.same_comm a, ← Scalar.same_congr hk, Scalar.same_comm]
          exact ha
        simp [hk, hak]
      · simp [hk]

/-- Writing what is there already changes nothing. -/
theorem putEntry_self {entries : List (Scalar × Value)} {k : Scalar} {v : Value}
    (h : entryAt? entries k = some v) : putEntry entries (k, v) = entries := by
  induction entries with
  | nil => cases h
  | cons e entries ih =>
    obtain ⟨a, w⟩ := e
    by_cases ha : a.same k = true
    · simp only [entryAt?, ha, if_true, Option.some.injEq] at h
      simp [putEntry, ha, h]
    · simp only [entryAt?, ha, Bool.false_eq_true, if_false] at h
      simp [putEntry, ha, ih h]

theorem keys_putEntry (entries : List (Scalar × Value)) (e : Scalar × Value) :
    Table.keys (putEntry entries e) = if entries.any (·.1.same e.1) then Table.keys entries
      else Table.keys entries ++ [e.1] := by
  induction entries with
  | nil => rfl
  | cons p entries ih =>
    obtain ⟨k, v⟩ := p
    unfold putEntry
    by_cases hk : k.same e.1
    · simp [hk, Table.keys]
    · rw [if_neg hk]
      simp only [Table.keys, List.map_cons] at ih ⊢
      rw [ih]
      simp only [List.any_cons, hk, Bool.false_or]
      split <;> rfl

theorem filter_putEntry_of_true {p : Scalar → Bool} {k : Scalar} (hk : p k = true)
    (hp : ∀ a b, a.same b = true → p a = p b) (entries : List (Scalar × Value)) (v : Value) :
    (putEntry entries (k, v)).filter (p ·.1) = putEntry (entries.filter (p ·.1)) (k, v) := by
  induction entries with
  | nil => simp [putEntry, hk]
  | cons e entries ih =>
    obtain ⟨a, w⟩ := e
    by_cases ha : a.same k = true
    · have hpa : p a = true := (hp a k ha).trans hk
      simp [putEntry, ha, hpa]
    · by_cases hpa : p a <;> simp [putEntry, ha, hpa, ih]

theorem filter_putEntry_of_false {p : Scalar → Bool} {k : Scalar} (hk : p k = false)
    (hp : ∀ a b, a.same b = true → p a = p b) (entries : List (Scalar × Value)) (v : Value) :
    (putEntry entries (k, v)).filter (p ·.1) = entries.filter (p ·.1) := by
  induction entries with
  | nil => simp [putEntry, hk]
  | cons e entries ih =>
    obtain ⟨a, w⟩ := e
    by_cases ha : a.same k = true
    · have hpa : p a = false := (hp a k ha).trans hk
      simp [putEntry, ha, hpa]
    · by_cases hpa : p a <;> simp [putEntry, ha, hpa, ih]

theorem entryAt?_filter {p : Scalar → Bool} {k : Scalar} (hk : p k = true)
    (hp : ∀ a b, a.same b = true → p a = p b) (entries : List (Scalar × Value)) :
    entryAt? (entries.filter (p ·.1)) k = entryAt? entries k := by
  induction entries with
  | nil => rfl
  | cons e entries ih =>
    obtain ⟨a, w⟩ := e
    by_cases ha : a.same k = true
    · have hpa : p a = true := (hp a k ha).trans hk
      simp [entryAt?, ha, hpa]
    · by_cases hpa : p a <;> simp [entryAt?, ha, hpa, ih]

/-! ## Texts as keys -/

/-- No text is a key twice. -/
def TextsOnce (entries : List (Scalar × Value)) : Prop :=
  ∀ t : Text, (Table.keys entries).count (.text t) ≤ 1

namespace TextsOnce

variable {entries : List (Scalar × Value)}

theorem nil : TextsOnce [] := by
  intro t
  simp [Table.keys]

theorem tail {e : Scalar × Value} (h : TextsOnce (e :: entries)) : TextsOnce entries := by
  intro t
  have ht := h t
  simp only [Table.keys, List.map_cons, List.count_cons] at ht ⊢
  omega

theorem get?_tail {t : Text} {v : Value} (h : TextsOnce ((.text t, v) :: entries)) :
    Table.get? entries (.text t) = none := by
  have ht := h t
  simp only [Table.keys, List.map_cons, List.count_cons, BEq.rfl, if_true] at ht
  rw [Table.get?_eq_none_iff, Table.keys, ← List.count_eq_zero]
  omega

theorem put (h : TextsOnce entries) (k : Scalar) (v : Value) :
    TextsOnce (Table.put entries k v) := by
  intro t
  have ht := h t
  rw [Table.keys_put]
  split
  · exact ht
  · rename_i hk
    rw [List.count_append]
    by_cases hkt : k = .text t
    · subst hkt
      have hzero := List.count_eq_zero.2 hk
      simp only [List.count_singleton_self]
      omega
    · have hone : [k].count (.text t) = 0 := by simp [List.count_eq_zero, Ne.symm hkt]
      omega

theorem putEntry (h : TextsOnce entries) (e : Scalar × Value) :
    TextsOnce (putEntry entries e) := by
  intro t
  rw [keys_putEntry]
  split
  · exact h t
  · rename_i hnew
    rw [List.count_append]
    by_cases he : e.1 = .text t
    · -- a text that is new to the map
      have hout : Scalar.text t ∉ Table.keys entries := by
        intro hmem
        obtain ⟨p, hp, hkey⟩ := List.mem_map.1 hmem
        apply hnew
        rw [List.any_eq_true]
        exact ⟨p, hp, by rw [he, Scalar.same_text, hkey]⟩
      rw [he, List.count_eq_zero.2 hout]
      simp
    · have hzero : [e.1].count (.text t) = 0 := by simp [List.count_eq_zero, Ne.symm he]
      have := h t
      omega

theorem countP_same (h : TextsOnce entries) (t : Text) :
    entries.countP (·.1.same (.text t)) ≤ 1 := by
  have hcount : entries.countP (·.1.same (.text t)) = (Table.keys entries).count (.text t) := by
    rw [Table.keys, List.count, List.countP_map]
    refine List.countP_congr fun e _ => ?_
    simp [Scalar.same_text]
  rw [hcount]
  exact h t

end TextsOnce

/-! ## Laying one map over another -/

/-- The first entry of the upper map is written, and the rest is laid over. -/
theorem mergeEntries_cons (lower : List (Scalar × Value)) (k : Scalar) (v : Value)
    (rest : List (Scalar × Value)) :
    mergeEntries lower ((k, v) :: rest) = mergeEntries
      (putEntry lower (k, (Value.overAll (entryAt? lower k) (some v)).getD v)) rest := by
  rw [mergeEntries]
  cases entryAt? lower k <;> rfl

theorem entryAt?_mergeEntries {upper : List (Scalar × Value)} {k : Scalar}
    (honce : upper.countP (·.1.same k) ≤ 1) (lower : List (Scalar × Value)) :
    entryAt? (mergeEntries lower upper) k =
      Value.overAll (entryAt? lower k) (entryAt? upper k) := by
  induction upper generalizing lower with
  | nil =>
    rw [mergeEntries]
    rfl
  | cons e upper ih =>
    obtain ⟨a, v⟩ := e
    rw [List.countP_cons] at honce
    rw [mergeEntries_cons, ih (by omega), entryAt?_putEntry]
    by_cases ha : a.same k = true
    · -- no other key of the upper map means the same
      have hnone : entryAt? upper k = none := by
        simp only [ha, if_true] at honce
        have hzero : upper.countP (·.1.same k) = 0 := by omega
        rw [List.countP_eq_zero] at hzero
        exact entryAt?_eq_none fun e he => by simpa using hzero e he
      rw [entryAt?_congr ha, hnone]
      simp only [ha, if_true, entryAt?]
      cases entryAt? lower k <;> rfl
    · simp only [ha, Bool.false_eq_true, if_false, entryAt?]

theorem get?_mergeEntries {upper : List (Scalar × Value)} (hupper : TextsOnce upper) (t : Text)
    (lower : List (Scalar × Value)) :
    Table.get? (mergeEntries lower upper) (.text t) =
      Value.overAll (Table.get? lower (.text t)) (Table.get? upper (.text t)) := by
  simp only [← entryAt?_text]
  exact entryAt?_mergeEntries (hupper.countP_same t) lower

theorem mem_keys_of_mergeEntries {upper lower : List (Scalar × Value)} {k : Scalar}
    (h : k ∈ Table.keys (mergeEntries lower upper)) :
    k ∈ Table.keys lower ∨ k ∈ Table.keys upper := by
  induction upper generalizing lower with
  | nil =>
    rw [mergeEntries] at h
    exact .inl h
  | cons e upper ih =>
    obtain ⟨a, v⟩ := e
    rw [mergeEntries_cons] at h
    rcases ih h with h | h
    · rw [keys_putEntry] at h
      split at h
      · exact .inl h
      · rcases List.mem_append.1 h with h | h
        · exact .inl h
        · exact .inr (by simp [Table.keys, List.mem_singleton.1 h])
    · exact .inr (List.mem_cons_of_mem _ h)

/-- A key of either map is there, or one that means the same is. -/
theorem exists_key_mergeEntries {p : Scalar → Prop} (hp : ∀ a b, a.same b = true → (p a ↔ p b))
    {upper lower : List (Scalar × Value)} :
    (∃ k ∈ Table.keys (mergeEntries lower upper), p k) ↔
      (∃ k ∈ Table.keys lower, p k) ∨ ∃ k ∈ Table.keys upper, p k := by
  induction upper generalizing lower with
  | nil =>
    rw [mergeEntries]
    simp [Table.keys]
  | cons e upper ih =>
    obtain ⟨a, v⟩ := e
    have hput : ∀ w, (∃ k ∈ Table.keys (putEntry lower (a, w)), p k) ↔
        (∃ k ∈ Table.keys lower, p k) ∨ p a := by
      intro w
      rw [keys_putEntry]
      split
      · rename_i hany
        obtain ⟨e, he, hsame⟩ := List.any_eq_true.1 hany
        refine ⟨.inl, fun h => h.elim id fun ha => ?_⟩
        exact ⟨e.1, List.mem_map_of_mem he, (hp _ _ hsame).2 ha⟩
      · simp [or_and_right, exists_or]
    have hupper : (∃ k ∈ Table.keys ((a, v) :: upper), p k) ↔
        p a ∨ ∃ k ∈ Table.keys upper, p k := by
      simp [Table.keys]
    rw [mergeEntries_cons, ih, hput, hupper, or_assoc]

theorem filter_mergeEntries {p : Scalar → Bool} (hp : ∀ a b, a.same b = true → p a = p b)
    (lower upper : List (Scalar × Value)) :
    (mergeEntries lower upper).filter (p ·.1) =
      mergeEntries (lower.filter (p ·.1)) (upper.filter (p ·.1)) := by
  induction upper generalizing lower with
  | nil =>
    rw [mergeEntries, List.filter_nil, mergeEntries]
  | cons e upper ih =>
    obtain ⟨k, v⟩ := e
    rw [mergeEntries_cons, ih]
    by_cases hk : p k = true
    · rw [List.filter_cons_of_pos (by exact hk), mergeEntries_cons, entryAt?_filter hk hp,
        filter_putEntry_of_true hk hp]
    · rw [List.filter_cons_of_neg (by exact hk)]
      rw [Bool.not_eq_true] at hk
      rw [filter_putEntry_of_false hk hp]

theorem TextsOnce.merge {lower : List (Scalar × Value)} (h : TextsOnce lower)
    (upper : List (Scalar × Value)) : TextsOnce (mergeEntries lower upper) := by
  induction upper generalizing lower with
  | nil =>
    rw [mergeEntries]
    exact h
  | cons e upper ih =>
    rw [mergeEntries_cons]
    exact ih (h.putEntry _)

end ClassCensus
