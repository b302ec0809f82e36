import ClassCensus.Proofs.Merge

/-!
# ClassCensus.Proofs.Overlay

Maps laid over each other, told by the paths of keys that lead through them.

A value that is no map stands at the end of a path in the result if the upper map has it there, or
if the lower map has it there and the path leaves the upper map at a missing key
(`Value.at?_over`). Where both hold a map the result holds their overlay (`Value.at?_over_map`). A
second layer of the same entries finds everything as it is (`mergeEntries_eq_self`).
-/

namespace ClassCensus

/-- No map inside a value has two keys that mean the same, and each of its keys is found again. A
list is taken whole, whatever it holds. -/
inductive WellKeyed : Value → Prop where
  | scalar (s : Scalar) : WellKeyed (.scalar s)
  | list (items : List Value) : WellKeyed (.list items)
  | map {entries : List (Scalar × Value)} :
      entries.Pairwise (fun e e' => e.1.same e'.1 = false) →
      (∀ e ∈ entries, e.1.same e.1 = true) →
      (∀ e ∈ entries, WellKeyed e.2) → WellKeyed (.map entries)

theorem exists_key_of_entryAt? {entries : List (Scalar × Value)} {k : Scalar} {v : Value}
    (h : entryAt? entries k = some v) : ∃ k', (k', v) ∈ entries := by
  induction entries with
  | nil => cases h
  | cons e entries ih =>
    obtain ⟨a, w⟩ := e
    by_cases ha : a.same k = true
    · simp only [entryAt?, ha, if_true, Option.some.injEq] at h
      exact ⟨a, by simp [h]⟩
    · simp only [entryAt?, ha, Bool.false_eq_true, if_false] at h
      obtain ⟨k', hk'⟩ := ih h
      exact ⟨k', List.mem_cons_of_mem _ hk'⟩

namespace WellKeyed

variable {entries : List (Scalar × Value)}

theorem distinct (h : WellKeyed (.map entries)) :
    entries.Pairwise fun e e' => e.1.same e'.1 = false := by
  cases h with
  | map hdistinct _ _ => exact hdistinct

theorem recurs (h : WellKeyed (.map entries)) {e : Scalar × Value} (he : e ∈ entries) :
    e.1.same e.1 = true := by
  cases h with
  | map _ hself _ => exact hself e he

theorem inside (h : WellKeyed (.map entries)) {k : Scalar} {v : Value}
    (hv : entryAt? entries k = some v) : WellKeyed v := by
  obtain ⟨k', hmem⟩ := exists_key_of_entryAt? hv
  cases h with
  | map _ _ hbelow => exact hbelow (k', v) hmem

/-- Every entry is found under its own key. -/
theorem entryAt?_of_mem (h : WellKeyed (.map entries)) {e : Scalar × Value} (he : e ∈ entries) :
    entryAt? entries e.1 = some e.2 := by
  have hself := h.recurs he
  have hdistinct := h.distinct
  clear h
  induction entries with
  | nil => cases he
  | cons p entries ih =>
    obtain ⟨hhead, htail⟩ := List.pairwise_cons.1 hdistinct
    rcases List.mem_cons.1 he with rfl | he
    · simp [entryAt?, hself]
    · simp [entryAt?, hhead e he, ih he htail]

theorem countP_same (h : WellKeyed (.map entries)) (k : Scalar) :
    entries.countP (·.1.same k) ≤ 1 := by
  have hdistinct := h.distinct
  clear h
  induction entries with
  | nil => simp
  | cons p entries ih =>
    obtain ⟨hhead, htail⟩ := List.pairwise_cons.1 hdistinct
    rw [List.countP_cons]
    by_cases hp : p.1.same k = true
    · -- the other keys differ from `p`, and so from `k`
      have hzero : entries.countP (·.1.same k) = 0 := by
        rw [List.countP_eq_zero]
        intro e he hek
        have hdiffer := hhead e he
        rw [Scalar.same_congr hp, Scalar.same_comm, hek] at hdiffer
        cases hdiffer
      simp [hp, hzero]
    · have := ih htail
      simp only [hp, Bool.false_eq_true, if_false]
      omega

theorem entryAt?_merge (h : WellKeyed (.map entries)) (lower : List (Scalar × Value))
    (k : Scalar) : entryAt? (mergeEntries lower entries) k =
      Value.overAll (entryAt? lower k) (entryAt? entries k) :=
  entryAt?_mergeEntries (h.countP_same k) lower

end WellKeyed

/-! ## Neutral and repeated layers -/

theorem putEntry_of_new {entries : List (Scalar × Value)} {k : Scalar} (v : Value)
    (h : ∀ e ∈ entries, e.1.same k = false) : putEntry entries (k, v) = entries ++ [(k, v)] := by
  induction entries with
  | nil => rfl
  | cons e entries ih =>
    obtain ⟨hhead, htail⟩ := List.forall_mem_cons.1 h
    simp [putEntry, hhead, ih htail]

/-- Entries under keys that are new come after the others. -/
theorem mergeEntries_of_new {lower upper : List (Scalar × Value)}
    (hdistinct : upper.Pairwise fun e e' => e.1.same e'.1 = false)
    (hnew : ∀ e ∈ upper, ∀ e' ∈ lower, e'.1.same e.1 = false) :
    mergeEntries lower upper = lower ++ upper := by
  induction upper generalizing lower with
  | nil => simp [mergeEntries]
  | cons e upper ih =>
    obtain ⟨k, v⟩ := e
    obtain ⟨hhead, htail⟩ := List.pairwise_cons.1 hdistinct
    have hk : ∀ e' ∈ lower, e'.1.same k = false := hnew (k, v) List.mem_cons_self
    rw [mergeEntries_cons, entryAt?_eq_none hk]
    simp only [Value.overAll, Option.getD_some]
    rw [putEntry_of_new v hk, ih htail]
    · simp
    · intro e he e' he'
      rcases List.mem_append.1 he' with he' | he'
      · exact hnew e (List.mem_cons_of_mem _ he) e' he'
      · cases List.mem_singleton.1 he'
        exact hhead e he

/-- A layer that finds everything as it would leave it. -/
theorem mergeEntries_eq_self {lower upper : List (Scalar × Value)}
    (h : ∀ e ∈ upper, ∃ old, entryAt? lower e.1 = some old ∧ Value.over old e.2 = old) :
    mergeEntries lower upper = lower := by
  induction upper with
  | nil => rw [mergeEntries]
  | cons e upper ih =>
    obtain ⟨k, v⟩ := e
    obtain ⟨⟨old, hfound, hover⟩, hrest⟩ := List.forall_mem_cons.1 h
    rw [mergeEntries_cons, hfound]
    simp only [Value.overAll, hover, Option.getD_some]
    rw [putEntry_self hfound, ih hrest]

namespace WellKeyed

theorem over_self {v : Value} (h : WellKeyed v) : Value.over v v = v := by
  induction h with
  | scalar s => rw [Value.over]
  | list items => rw [Value.over]
  | @map entries hdistinct hself hbelow ih =>
    rw [Value.over]
    refine congrArg _ (mergeEntries_eq_self ?_)
    intro e he
    exact ⟨e.2, (WellKeyed.map hdistinct hself hbelow).entryAt?_of_mem he, ih e he⟩

/-- Laying a value over another once more changes nothing. -/
theorem over_over {new : Value} (h : WellKeyed new) (old : Value) :
    Value.over (Value.over old new) new = Value.over old new := by
  induction h generalizing old with
  | scalar s => simp [Value.over]
  | list items => simp [Value.over]
  | @map upper hdistinct hself hbelow ih =>
    have hupper := WellKeyed.map hdistinct hself hbelow
    cases old with
    | scalar s => exact hupper.over_self
    | list items => exact hupper.over_self
    | map lower =>
      simp only [Value.over]
      refine congrArg _ (mergeEntries_eq_self ?_)
      intro e he
      rw [hupper.entryAt?_merge, hupper.entryAt?_of_mem he]
      cases entryAt? lower e.1 with
      | none => exact ⟨e.2, rfl, (hbelow e he).over_self⟩
      | some below => exact ⟨Value.over below e.2, rfl, ih e he below⟩

end WellKeyed

/-! ## Paths -/

namespace Value

/-- The value at the end of a path of keys. -/
def at? : Value → List Scalar → Option Value
  | v, [] => some v
  | .map entries, k :: rest => (entryAt? entries k).bind (at? · rest)
  | _, _ :: _ => none

/-- A path leads from map to map until a key is missing. -/
inductive Misses : Value → List Scalar → Prop where
  | here {entries : List (Scalar × Value)} {k : Scalar} {rest : List Scalar} :
      entryAt? entries k = none → Misses (.map entries) (k :: rest)
  | further {entries : List (Scalar × Value)} {k : Scalar} {rest : List Scalar} {v : Value} :
      entryAt? entries k = some v → Misses v rest → Misses (.map entries) (k :: rest)

theorem misses_cons {entries : List (Scalar × Value)} {k : Scalar} {rest : List Scalar} :
    Misses (.map entries) (k :: rest) ↔ ∀ v, entryAt? entries k = some v → v.Misses rest := by
  constructor
  · intro h v hv
    cases h with
    | here hnone =>
      rw [hnone] at hv
      cases hv
    | further hsome hrest =>
      rw [hsome] at hv
      cases hv
      exact hrest
  · intro h
    cases hfound : entryAt? entries k with
    | none => exact .here hfound
    | some v => exact .further hfound (h v hfound)

theorem at?_over {p : List Scalar} {old new v : Value} (hnew : WellKeyed new)
    (hv : ∀ entries, v ≠ .map entries) :
    (Value.over old new).at? p = some v ↔
      new.at? p = some v ∨ old.at? p = some v ∧ new.Misses p := by
  induction p generalizing old new with
  | nil =>
    have hmiss : ¬ new.Misses [] := by rintro ⟨⟩
    simp only [at?, Option.some.injEq, hmiss, and_false, or_false]
    -- up to the entries of maps the upper value stands there
    constructor
    · intro hover
      have houtline := outline_over old new
      rw [hover] at houtline
      exact eq_of_outline houtline.symm hv
    · intro h
      subst h
      exact eq_of_outline (outline_over old new) hv
  | cons k rest ih =>
    cases new with
    | scalar s =>
      have hmiss : ¬ (Value.scalar s).Misses (k :: rest) := by rintro ⟨⟩
      simp [Value.over, hmiss]
    | list items =>
      have hmiss : ¬ (Value.list items).Misses (k :: rest) := by rintro ⟨⟩
      simp [Value.over, hmiss]
    | map upper =>
      cases old with
      | scalar s => simp [Value.over, at?]
      | list items => simp [Value.over, at?]
      | map lower =>
        rw [Value.over, misses_cons]
        simp only [at?, hnew.entryAt?_merge]
        cases hupper : entryAt? upper k with
        | none => simp [overAll]
        | some above =>
          cases hlower : entryAt? lower k with
          | none => simp [overAll]
          | some below => simpa [overAll] using ih (hnew.inside hupper)

/-- Where both hold a map, the overlay of the two stands in the result. -/
theorem at?_over_map {p : List Scalar} {old new : Value} (hnew : WellKeyed new)
    {lower upper : List (Scalar × Value)} (hlower : old.at? p = some (.map lower))
    (hupper : new.at? p = some (.map upper)) :
    (Value.over old new).at? p = some (.map (mergeEntries lower upper)) ∧
      WellKeyed (.map upper) := by
  induction p generalizing old new with
  | nil =>
    cases hlower
    cases hupper
    exact ⟨by simp [at?, Value.over], hnew⟩
  | cons k rest ih =>
    cases new with
    | scalar s => cases hupper
    | list items => cases hupper
    | map above =>
      cases old with
      | scalar s => cases hlower
      | list items => cases hlower
      | map below =>
        obtain ⟨v, hv, hrest⟩ := Option.bind_eq_some_iff.1 hupper
        obtain ⟨w, hw, hrest'⟩ := Option.bind_eq_some_iff.1 hlower
        rw [Value.over, at?, hnew.entryAt?_merge, hv, hw]
        exact ih (hnew.inside hv) hrest' hrest

end Value

/-- The entries of one map laid over those of another. A value that is no map stands at a path of
the result if the upper map has it there, or if the lower map has it there and the path leaves the
upper map at a missing key. Where both hold a map, the keys of the result are those of either. The
empty map changes nothing on either side, nor does laying the same entries over once more. -/
theorem overlay_follows_paths {a b : List (Scalar × Value)} (ha : WellKeyed (.map a))
    (hb : WellKeyed (.map b)) :
    (∀ p v, (∀ entries, v ≠ .map entries) →
      ((Value.map (mergeEntries a b)).at? p = some v ↔
        (Value.map b).at? p = some v ∨
          (Value.map a).at? p = some v ∧ (Value.map b).Misses p)) ∧
    (∀ p lower upper, (Value.map a).at? p = some (.map lower) →
      (Value.map b).at? p = some (.map upper) →
      ∃ entries, (Value.map (mergeEntries a b)).at? p = some (.map entries) ∧
        ∀ k, (entryAt? entries k).isSome ↔
          (entryAt? lower k).isSome ∨ (entryAt? upper k).isSome) ∧
    mergeEntries a [] = a ∧ mergeEntries [] a = a ∧
    mergeEntries (mergeEntries a b) b = mergeEntries a b := by
  have hover : Value.over (.map a) (.map b) = .map (mergeEntries a b) := by rw [Value.over]
  refine ⟨?_, ?_, ?_, ?_, ?_⟩
  · intro p v hv
    rw [← hover]
    exact Value.at?_over hb hv
  · intro p lower upper hlower hupper
    obtain ⟨hmerged, hkeyed⟩ := Value.at?_over_map hb hlower hupper
    rw [hover] at hmerged
    refine ⟨_, hmerged, ?_⟩
    intro k
    rw [hkeyed.entryAt?_merge]
    cases entryAt? lower k <;> cases entryAt? upper k <;> simp [Value.overAll]
  · rw [mergeEntries]
  · exact mergeEntries_of_new ha.distinct (by simp)
  · have hagain := hb.over_over (.map a)
    simp only [Value.over, Value.map.injEq] at hagain
    exact hagain

def lowerLayer : List (Scalar × Value) :=
  [(.text "x".toList, .map [(.text "y".toList, .int 1), (.text "z".toList, .map [])]),
    (.text "m".toList, .map [(.text "q".toList, .int 2)]), (.int 1, .list [.int 3])]

/-- A scalar over a map, a map over a list, and a key spelled another way. -/
def upperLayer : List (Scalar × Value) :=
  [(.text "x".toList, .map [(.text "z".toList, .null)]), (.text "m".toList, .int 4),
    (.bool true, .map [])]

theorem wellKeyed_lowerLayer : WellKeyed (.map lowerLayer) := by
  refine .map (by decide) (by decide) ?_
  simp only [lowerLayer, List.forall_mem_cons, List.not_mem_nil, false_implies, implies_true,
    and_true]
  refine ⟨.map (by decide) (by decide) ?_, .map (by decide) (by decide) ?_, .list _⟩
  · simp only [List.forall_mem_cons, List.not_mem_nil, false_implies, implies_true, and_true]
    exact ⟨.scalar _, .map .nil nofun nofun⟩
  · simp only [List.forall_mem_cons, List.not_mem_nil, false_implies, implies_true, and_true]
    exact .scalar _

theorem wellKeyed_upperLayer : WellKeyed (.map upperLayer) := by
  refine .map (by decide) (by decide) ?_
  simp only [upperLayer, List.forall_mem_cons, List.not_mem_nil, false_implies, implies_true,
    and_true]
  refine ⟨.map (by decide) (by decide) ?_, .scalar _, .map .nil nofun nofun⟩
  simp only [List.forall_mem_cons, List.not_mem_nil, false_implies, implies_true, and_true]
  exact .scalar _

/-- What the lower layer has at `x.y` stays, what it has at `m.q` goes. -/
theorem layers_follow_paths :
    WellKeyed (.map lowerLayer) ∧ WellKeyed (.map upperLayer) ∧
      (Value.map (mergeEntries lowerLayer upperLayer)).at?
        [.text "x".toList, .text "y".toList] = some (.int 1) ∧
      (Value.map (mergeEntries lowerLayer upperLayer)).at?
        [.text "m".toList, .text "q".toList] ≠ some (.int 2) ∧
      (Value.map (mergeEntries lowerLayer upperLayer)).at? [.int 1] ≠ some (.list [.int 3]) ∧
      mergeEntries (mergeEntries lowerLayer upperLayer) upperLayer =
        mergeEntries lowerLayer upperLayer := by
  obtain ⟨hpaths, -, -, -, hagain⟩ :=
    overlay_follows_paths wellKeyed_lowerLayer wellKeyed_upperLayer
  refine ⟨wellKeyed_lowerLayer, wellKeyed_upperLayer, ?_, ?_, ?_, hagain⟩
  · exact (hpaths _ (.int 1) nofun).2 (.inr ⟨rfl, .further rfl (.here rfl)⟩)
  · rw [ne_eq, hpaths _ (.int 2) nofun]
    rintro (h | ⟨-, hmiss⟩)
    · cases h
    · cases hmiss with
      | here h => cases h
      | further h hrest =>
        cases h
        cases hrest
  · rw [ne_eq, hpaths _ (.list _) nofun]
    rintro (h | ⟨-, hmiss⟩)
    · cases h
    · cases hmiss with
      | here h => cases h
      | further h hrest => cases hrest

end ClassCensus
