import ClassCensus.Filter
import ClassCensus.Proofs.Table

/-!
# ClassCensus.Proofs.Passing

Whether a record passes a filter. The types are asked for one by one, but the record is reflected
at the first of them and remembered for the others (`reflect_again`). So the answer is one look at
a reflection (`passes_eq`), the failure can only be that of reflecting, and neither depends on
which type comes first.
-/

namespace ClassCensus

/-! ## Reflecting a record -/

theorem Ledger.remembered?_remember (l : Ledger) (record : Record) (r : Reflection) :
    (l.remember record r).remembered? record = some r := by
  simp [remember, remembered?, Table.get?_put]

namespace World

variable {κ : Type} [TypeCatalog κ] {w w' : World κ} {record : Record} {r : Reflection}

/-- What is known of a record: the reflection remembered, or else the catalog's answer. -/
def reflection (w : World κ) (record : Record) : Except Failure Reflection :=
  match w.ledger.remembered? record with
  | some r => .ok r
  | none => (TypeCatalog.reflect w.catalog record.facts.className).answer

theorem reflect_fst (w : World κ) (record : Record) :
    (w.reflect record).1 = w.reflection record := by
  unfold reflect reflection
  cases w.ledger.remembered? record with
  | some r => rfl
  | none =>
    simp only [ask]
    cases (TypeCatalog.reflect w.catalog record.facts.className).answer <;> rfl

theorem reflection_eq_error {e : Failure} :
    w.reflection record = .error e ↔
      w.ledger.remembered? record = none ∧
        (TypeCatalog.reflect w.catalog record.facts.className).answer = .error e := by
  unfold reflection
  cases w.ledger.remembered? record <;> simp

theorem remembered?_of_reflect (h : w.reflect record = (.ok r, w')) :
    w'.ledger.remembered? record = some r := by
  unfold reflect at h
  split at h
  · rename_i hsome
    cases h
    exact hsome
  · split at h
    · cases h
    · cases h
      exact Ledger.remembered?_remember _ record r

/-- What reflecting has given once it gives again, and leaves the world alone. -/
theorem reflect_again (h : w.reflect record = (.ok r, w')) : w'.reflect record = (.ok r, w') := by
  simp only [reflect, remembered?_of_reflect h]

end World

/-! ## One type after the other -/

theorem sublist_filter_of_imp {α : Type} {p q : α → Bool} {l : List α}
    (h : ∀ a ∈ l, p a = true → q a = true) : (l.filter p).Sublist (l.filter q) := by
  have htwice : l.filter p = (l.filter q).filter p := by
    rw [List.filter_filter]
    refine List.filter_congr fun a ha => ?_
    cases hp : p a with
    | false => rfl
    | true => rw [h a ha hp]; rfl
  rw [htwice]
  exact List.filter_sublist

theorem AttributeRef.hasType_iff {a : AttributeRef} {name : Text} :
    a.hasType name = true ↔ name = a.name ∨ name ∈ a.ancestors := by
  simp [hasType]

/-- Whether one of the attributes is of a type. -/
def Reflection.has (r : Reflection) (name : Text) : Bool := !(r.attributesOf (some name)).isEmpty

theorem Reflection.has_iff {r : Reflection} {name : Text} :
    r.has name = true ↔ ∃ a ∈ r.attributes, name = a.name ∨ name ∈ a.ancestors := by
  simp [has, attributesOf, AttributeRef.hasType_iff, or_iff_not_imp_left]

namespace Filter

/-- Whether a reflection has what is required. -/
def accepts (f : Filter) (r : Reflection) : Bool :=
  match f.policy with
  | some .all => (Table.keys f.required).all r.has
  | _ => (Table.keys f.required).any r.has

theorem accepts_eq (f : Filter) (r : Reflection) :
    f.accepts r = if f.settling then (Table.keys f.required).any r.has
      else (Table.keys f.required).all r.has := by
  unfold accepts settling
  rcases f.policy with _ | _ | _ <;> rfl

variable {κ : Type} [TypeCatalog κ]

theorem askEach_cons (settling : Bool) (w : World κ) (record : Record) (name : Text)
    (names : List Text) :
    askEach settling w record (name :: names) =
      match w.reflect record with
      | (.error e, w) => (.error e, w)
      | (.ok r, w) =>
        if r.has name = settling then (.ok (r.has name), w)
        else askEach settling w record names := by
  simp only [askEach, World.hasAttribute, World.attributes]
  rcases w.reflect record with ⟨e | r, w'⟩ <;> rfl

/-- Once a record has been reflected the answers are those of its reflection. -/
theorem askEach_of_reflect {s : Bool} {w : World κ} {record : Record} {r : Reflection}
    (h : w.reflect record = (.ok r, w)) (names : List Text) :
    askEach s w record names = (.ok (if s then names.any r.has else names.all r.has), w) := by
  induction names with
  | nil => cases s <;> rfl
  | cons name names ih =>
    simp only [askEach_cons, h, ih]
    cases s <;> cases hhas : r.has name <;> simp [hhas]

/-- A record is reflected once, and passes if its reflection has what is required. -/
theorem passes_eq (f : Filter) (w : World κ) (record : Record) :
    f.passes w record =
      if f.required.isEmpty then (.ok true, w)
      else
        match w.reflect record with
        | (.error e, w) => (.error e, w)
        | (.ok r, w) => (.ok (f.accepts r), w) := by
  unfold passes
  cases hrequired : f.required with
  | nil => rfl
  | cons entry rest =>
    simp only [List.isEmpty_cons, Bool.false_eq_true, if_false]
    -- the first type makes the reflection, which all the types then share
    have hkeys : Table.keys (entry :: rest) = entry.1 :: Table.keys rest := rfl
    rw [hkeys, askEach_cons]
    rcases hreflect : w.reflect record with ⟨e | r, w'⟩
    · rfl
    · have hagain := World.reflect_again hreflect
      have hall := askEach_of_reflect (s := f.settling) hagain (entry.1 :: Table.keys rest)
      rw [askEach_cons, hagain] at hall
      simp only [accepts_eq, hrequired, hkeys]
      exact hall

end Filter
end ClassCensus
