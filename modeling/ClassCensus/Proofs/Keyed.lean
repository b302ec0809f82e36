import ClassCensus.Json.Reader
import ClassCensus.Proofs.Merge
import ClassCensus.Yaml.Value

/-!
# ClassCensus.Proofs.Keyed

Values in which no map has a text as a key twice. Both readers give such values only, however
often a text repeats a key: see `keyed_yaml` and `keyed_json`.
-/

namespace ClassCensus

inductive Keyed : Value → Prop where
  | scalar (s : Scalar) : Keyed (.scalar s)
  | list {items : List Value} : (∀ v ∈ items, Keyed v) → Keyed (.list items)
  | map {entries : List (Scalar × Value)} :
      TextsOnce entries → (∀ e ∈ entries, Keyed e.2) → Keyed (.map entries)

namespace Keyed

theorem once {entries : List (Scalar × Value)} (h : Keyed (.map entries)) : TextsOnce entries := by
  cases h with
  | map hentries _ => exact hentries

theorem entry {entries : List (Scalar × Value)} (h : Keyed (.map entries)) {e : Scalar × Value}
    (he : e ∈ entries) : Keyed e.2 := by
  cases h with
  | map _ hvalues => exact hvalues e he

end Keyed

/-! ## YAML -/

namespace Yaml

theorem keyed_plainValue {t : Text} {v : Value} (h : plainValue? t = some v) : Keyed v := by
  unfold plainValue? at h
  repeat' split at h
  all_goals first
    | (cases h; exact .scalar _)
    | cases h

theorem keyed_taggedValue {tag t : Text} {v : Value} (h : taggedValue? tag t = some v) :
    Keyed v := by
  unfold taggedValue? at h
  dsimp only at h
  repeat' split at h
  all_goals first
    | (cases h; exact .scalar _)
    | cases h
    | skip
  obtain ⟨n, _, rfl⟩ := Option.map_eq_some_iff.1 h
  exact .scalar _

theorem keyed_putEntry {entries : List (Scalar × Value)} (h : Keyed (.map entries))
    {e : Scalar × Value} (he : Keyed e.2) : Keyed (.map (putEntry entries e)) := by
  refine .map (h.once.putEntry e) ?_
  intro p hp
  replace h := fun q => h.entry (e := q)
  induction entries with
  | nil =>
    cases List.mem_singleton.1 hp
    exact he
  | cons q entries ih =>
    unfold putEntry at hp
    split at hp
    · rcases List.mem_cons.1 hp with rfl | hp
      · exact he
      · exact h p (List.mem_cons_of_mem _ hp)
    · rcases List.mem_cons.1 hp with rfl | hp
      · exact h _ List.mem_cons_self
      · exact ih hp fun q hq => h q (List.mem_cons_of_mem _ hq)

theorem keyed_foldl_putEntry {more : List (Scalar × Value)} (hmore : ∀ e ∈ more, Keyed e.2) :
    Keyed (.map (more.foldl putEntry [])) := by
  refine List.foldlRecOn (motive := fun entries => Keyed (.map entries)) more putEntry
    (.map .nil (by simp)) ?_
  intro entries hentries e he
  exact keyed_putEntry hentries (hmore e he)

theorem keyed_mergedEntries {v : Value} {entries : List (Scalar × Value)} (hv : Keyed v)
    (h : mergedEntries? v = some entries) : ∀ e ∈ entries, Keyed e.2 := by
  cases hv with
  | scalar s => cases h
  | map _ hvalues =>
    cases h
    exact hvalues
  | @list items hitems =>
    -- every entry found so far comes from one of the maps
    refine List.foldlRecOn (motive := fun acc => ∀ found, acc = some found → ∀ e ∈ found, Keyed e.2)
      items _ (by simp) ?_ entries h
    intro acc hacc v hv found hfound e he
    obtain ⟨before, rfl, hbefore⟩ := Option.bind_eq_some_iff.1 hfound
    cases v with
    | map more =>
      cases hbefore
      rcases List.mem_append.1 he with he | he
      · exact (hitems _ hv).entry he
      · exact hacc before rfl e he
    | scalar s => cases hbefore
    | list inner => cases hbefore

mutual

theorem Node.keyed : ∀ (n : Node) (v : Value), n.value? = some v → Keyed v
  | .scalar none text true, v, h => by
    rw [Node.value?] at h
    exact keyed_plainValue h
  | .scalar none text false, v, h => by
    rw [Node.value?] at h
    cases h
    exact .scalar _
  | .scalar (some tag) text plain, v, h => by
    rw [Node.value?] at h
    exact keyed_taggedValue h
  | .list tag items, v, h => by
    rw [Node.value?] at h
    split at h
    · obtain ⟨vs, hvs, rfl⟩ := Option.map_eq_some_iff.1 h
      exact .list (keyed_valuesOf items vs hvs)
    · cases h
  | .map tag pairs, v, h => by
    rw [Node.value?] at h
    split at h
    · obtain ⟨entries, hentries, rfl⟩ := Option.map_eq_some_iff.1 h
      exact keyed_foldl_putEntry (keyed_entriesOf pairs [] [] entries (by simp) hentries)
    · cases h

theorem keyed_valuesOf : ∀ (items : List Node) (vs : List Value), valuesOf? items = some vs →
    ∀ v ∈ vs, Keyed v
  | [], vs, h => by
    rw [valuesOf?] at h
    cases h
    simp
  | n :: rest, vs, h => by
    rw [valuesOf?] at h
    split at h
    · rename_i v ws hv hws
      cases h
      intro w hw
      rcases List.mem_cons.1 hw with rfl | hw
      · exact Node.keyed n _ hv
      · exact keyed_valuesOf rest ws hws w hw
    · cases h

theorem keyed_entriesOf : ∀ (pairs : List (Node × Node))
    (merged own entries : List (Scalar × Value)), (∀ e ∈ merged ++ own, Keyed e.2) →
    entriesOf? merged own pairs = some entries → ∀ e ∈ entries, Keyed e.2
  | [], merged, own, entries, hkeyed, h => by
    rw [entriesOf?] at h
    cases h
    exact hkeyed
  | (key, value) :: rest, merged, own, entries, hkeyed, h => by
    rw [entriesOf?] at h
    split at h
    · cases h
    · rename_i v hv
      have hvalue : Keyed v := Node.keyed value v hv
      have hown : ∀ k, ∀ e ∈ merged ++ (own ++ [(k, v)]), Keyed e.2 := by
        intro k e he
        rw [← List.append_assoc] at he
        rcases List.mem_append.1 he with he | he
        · exact hkeyed e he
        · cases List.mem_singleton.1 he
          exact hvalue
      split at h
      · split at h
        · cases h
        · rename_i more hmore
          refine keyed_entriesOf rest _ own entries ?_ h
          intro e he
          simp only [List.mem_append] at he hkeyed
          rcases he with (he | he) | he
          · exact hkeyed e (.inl he)
          · exact keyed_mergedEntries hvalue hmore e he
          · exact hkeyed e (.inr he)
      · split at h
        · exact keyed_entriesOf rest merged _ entries (hown _) h
        · split at h
          · exact keyed_entriesOf rest merged _ entries (hown _) h
          · cases h

end

end Yaml

theorem keyed_yaml {t : Text} {v : Value} (h : Yaml.parse? t = some v) : Keyed v := by
  unfold Yaml.parse? at h
  dsimp only at h
  repeat' split at h
  case h_3 => exact Yaml.Node.keyed _ _ h
  all_goals cases h
  exact .scalar _

/-! ## JSON -/

namespace Json

theorem keyed_put {entries : List (Scalar × Value)} (h : Keyed (.map entries)) (k : Scalar)
    {v : Value} (hv : Keyed v) : Keyed (.map (Table.put entries k v)) := by
  refine .map (h.once.put k v) ?_
  intro e he
  rcases Table.mem_of_mem_put he with rfl | he
  · exact hv
  · exact h.entry he

theorem keyed_magnitude {negative : Bool} {t rest : Text} {v : Value}
    (h : magnitude? negative t = some (v, rest)) : Keyed v := by
  unfold magnitude? at h
  split at h
  · cases h
  · dsimp only at h
    repeat' split at h
    all_goals
      cases h
      exact .scalar _

theorem keyed_word {t rest : Text} {v : Value} (h : word? t = some (v, rest)) : Keyed v := by
  obtain ⟨⟨word, w⟩, hw, hv⟩ := List.exists_of_findSome?_eq_some h
  obtain ⟨_, _, heq⟩ := Option.map_eq_some_iff.1 hv
  cases heq
  simp only [words, List.mem_cons, Prod.mk.injEq, List.not_mem_nil, or_false] at hw
  rcases hw with ⟨_, rfl⟩ | ⟨_, rfl⟩ | ⟨_, rfl⟩ | ⟨_, rfl⟩ | ⟨_, rfl⟩ | ⟨_, rfl⟩ <;>
    exact .scalar _

/-- What the three readers give at some depth. -/
structure KeyedAt (fuel : Nat) : Prop where
  value : ∀ t v rest, valueFrom? fuel t = some (v, rest) → Keyed v
  items : ∀ t vs rest, itemsFrom? fuel t = some (vs, rest) → ∀ v ∈ vs, Keyed v
  members : ∀ found t v rest, Keyed (.map found) →
    membersFrom? fuel found t = some (v, rest) → Keyed v

theorem keyed_valueFrom {fuel : Nat} (ih : KeyedAt fuel) {t rest : Text} {v : Value}
    (h : valueFrom? (fuel + 1) t = some (v, rest)) : Keyed v := by
  unfold valueFrom? at h
  split at h
  · obtain ⟨_, _, heq⟩ := Option.map_eq_some_iff.1 h
    cases heq
    exact .scalar _
  · split at h
    · cases h
      exact .list (by simp)
    · obtain ⟨⟨vs, _⟩, hvs, heq⟩ := Option.map_eq_some_iff.1 h
      cases heq
      exact .list (ih.items _ _ _ hvs)
  · split at h
    · cases h
      exact .map .nil (by simp)
    · exact ih.members _ _ _ _ (.map .nil (by simp)) h
  · split at h
    · rename_i hword
      cases h
      exact keyed_word hword
    · split at h <;> exact keyed_magnitude h

theorem keyed_itemsFrom {fuel : Nat} (ih : KeyedAt fuel) {t rest : Text} {vs : List Value}
    (h : itemsFrom? (fuel + 1) t = some (vs, rest)) : ∀ v ∈ vs, Keyed v := by
  rw [itemsFrom?] at h
  split at h
  · cases h
  · rename_i w _ hw
    have hfirst : Keyed w := ih.value _ _ _ hw
    split at h
    · cases h
      simpa using hfirst
    · obtain ⟨⟨ws, _⟩, hws, heq⟩ := Option.map_eq_some_iff.1 h
      cases heq
      intro v hv
      rcases List.mem_cons.1 hv with rfl | hv
      · exact hfirst
      · exact ih.items _ _ _ hws v hv
    · cases h

theorem keyed_membersFrom {fuel : Nat} (ih : KeyedAt fuel) {found : List (Scalar × Value)}
    {t rest : Text} {v : Value} (hfound : Keyed (.map found))
    (h : membersFrom? (fuel + 1) found t = some (v, rest)) : Keyed v := by
  unfold membersFrom? at h
  split at h
  · split at h
    · cases h
    · split at h
      · split at h
        · cases h
        · rename_i hw
          have hvalue := ih.value _ _ _ hw
          dsimp only at h
          split at h
          · cases h
            exact keyed_put hfound _ hvalue
          · exact ih.members _ _ _ _ (keyed_put hfound _ hvalue) h
          · cases h
      · cases h
  · cases h

theorem keyedAt (fuel : Nat) : KeyedAt fuel := by
  induction fuel with
  | zero => exact ⟨by simp [valueFrom?], by simp [itemsFrom?], by simp [membersFrom?]⟩
  | succ fuel ih =>
    exact ⟨fun _ _ _ h => keyed_valueFrom ih h, fun _ _ _ h => keyed_itemsFrom ih h,
      fun _ _ _ _ hfound h => keyed_membersFrom ih hfound h⟩

end Json

theorem keyed_json {t : Text} {v : Value} (h : Json.parse? t = some v) : Keyed v := by
  unfold Json.parse? at h
  split at h
  · cases h
  · rename_i hv
    split at h
    · cases h
      exact (Json.keyedAt _).value _ _ _ hv
    · cases h

end ClassCensus
