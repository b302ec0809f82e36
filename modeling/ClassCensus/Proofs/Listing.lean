import ClassCensus.Listing
import Mathlib.Data.List.Infix

/-!
# ClassCensus.Proofs.Listing

Listings put together: the items of the parts up to the first cut, and that cut.

`Within a b` says that `a` is what is left of `b` when `b` may be cut earlier. It is kept by every
way listings are put together, which is how the effect of a refused directory or file is traced
through a whole scan.
-/

namespace ClassCensus
namespace Listing

variable {α : Type}

/-- How asking for every item ends. -/
def answer (a : Listing α) : Except Failure Unit :=
  match a.cut with
  | none => .ok ()
  | some e => .error e

@[simp] theorem answer_mk_none (items : List α) : answer ⟨items, none⟩ = .ok () := rfl

@[simp] theorem answer_mk_some (items : List α) (e : Failure) :
    answer ⟨items, some e⟩ = .error e := rfl

theorem answer_eq_ok {a : Listing α} : a.answer = .ok () ↔ a.cut = none := by
  obtain ⟨items, cut⟩ := a
  cases cut <;> simp

theorem answer_eq_error {a : Listing α} {e : Failure} : a.answer = .error e ↔ a.cut = some e := by
  obtain ⟨items, cut⟩ := a
  cases cut <;> simp

theorem answer_inj {β : Type} {a : Listing α} {b : Listing β} :
    a.answer = b.answer ↔ a.cut = b.cut := by
  obtain ⟨_, _ | _⟩ := a <;> obtain ⟨_, _ | _⟩ := b <;> simp

/-- An operation that went well, with whatever it leaves. -/
theorem eq_of_isOk {σ : Type} {r : Except Failure Unit × σ} (h : r.1.isOk = true) :
    r = (.ok (), r.2) := by
  obtain ⟨_ | _, s⟩ := r
  · cases h
  · rfl

theorem eq_of_toOption {r : Except Failure α} {a : α} (h : r.toOption = some a) : r = .ok a := by
  cases r with
  | error e => cases h
  | ok b =>
    cases h
    rfl

/-! ## Putting listings together -/

theorem append_of_cut {a : Listing α} {e : Failure} (h : a.cut = some e) (b : Listing α) :
    a.append b = a := by
  simp [append, h]

theorem append_of_whole {a : Listing α} (h : a.cut = none) (b : Listing α) :
    a.append b = ⟨a.items ++ b.items, b.cut⟩ := by
  simp [append, h]

@[simp] theorem append_empty (a : Listing α) : a.append empty = a := by
  obtain ⟨items, cut⟩ := a
  cases cut <;> simp [append, empty]

@[simp] theorem empty_append (a : Listing α) : empty.append a = a := by
  simp [append, empty]

@[simp] theorem refused_append (e : Failure) (a : Listing α) :
    (refused e).append a = refused e := rfl

theorem append_assoc (a b c : Listing α) : (a.append b).append c = a.append (b.append c) := by
  obtain ⟨_, _ | _⟩ := a <;> obtain ⟨_, _ | _⟩ := b <;> simp [append]

theorem append_cut_eq_none {a b : Listing α} :
    (a.append b).cut = none ↔ a.cut = none ∧ b.cut = none := by
  obtain ⟨_, _ | _⟩ := a <;> simp [append]

theorem concat_append (as bs : List (Listing α)) :
    concat (as ++ bs) = (concat as).append (concat bs) := by
  induction as with
  | nil => simp [concat]
  | cons a as ih => simp [concat, ih, append_assoc]

theorem concat_flatMap {β : Type} (xs : List β) (f : β → List (Listing α)) :
    concat (xs.flatMap f) = concat (xs.map fun x => concat (f x)) := by
  induction xs with
  | nil => rfl
  | cons x xs ih => simp [List.flatMap_cons, concat_append, concat, ih]

theorem concat_cut_eq_none {as : List (Listing α)} :
    (concat as).cut = none ↔ ∀ a ∈ as, a.cut = none := by
  induction as with
  | nil => simp [concat, empty]
  | cons a as ih => simp [concat, append_cut_eq_none, ih]

theorem mem_concat {as : List (Listing α)} (h : (concat as).cut = none) {x : α} :
    x ∈ (concat as).items ↔ ∃ a ∈ as, x ∈ a.items := by
  induction as with
  | nil => simp [concat, empty]
  | cons a as ih =>
    obtain ⟨ha, has⟩ := append_cut_eq_none.1 h
    simp [concat, append_of_whole ha, ih has]

/-- An item of the whole is an item of a part, cut or not. -/
theorem mem_of_mem_append {a b : Listing α} {x : α} (h : x ∈ (a.append b).items) :
    x ∈ a.items ∨ x ∈ b.items := by
  obtain ⟨_, _ | _⟩ := a
  · simpa [append] using h
  · exact .inl h

theorem mem_of_mem_concat {as : List (Listing α)} {x : α} (h : x ∈ (concat as).items) :
    ∃ a ∈ as, x ∈ a.items := by
  induction as with
  | nil => simp [concat, empty] at h
  | cons a as ih =>
    rcases mem_of_mem_append h with h | h
    · exact ⟨a, by simp, h⟩
    · obtain ⟨b, hb, hx⟩ := ih h
      exact ⟨b, by simp [hb], hx⟩

/-- The first part's items come first, whatever cuts it. -/
theorem items_prefix_append (a b : Listing α) : a.items <+: (a.append b).items := by
  obtain ⟨items, _ | e⟩ := a
  · exact List.prefix_append _ _
  · exact List.prefix_rfl

theorem append_items_sublist (a b : Listing α) :
    List.Sublist (a.append b).items (a.items ++ b.items) := by
  obtain ⟨items, _ | e⟩ := a
  · exact .refl _
  · exact List.sublist_append_left _ _

theorem concat_items_sublist (as : List (Listing α)) :
    List.Sublist (concat as).items (as.flatMap (·.items)) := by
  induction as with
  | nil => exact .refl _
  | cons a as ih =>
    rw [List.flatMap_cons]
    exact (append_items_sublist a (concat as)).trans (ih.append_left a.items)

theorem concat_of_empty {as : List (Listing α)} (h : ∀ a ∈ as, a = .empty) :
    Listing.concat as = .empty := by
  induction as with
  | nil => rfl
  | cons a as ih =>
    rw [Listing.concat, h a (by simp), Listing.empty_append]
    exact ih fun b hb => h b (by simp [hb])

theorem cut_of_append {a b : Listing α} {e : Failure} (h : (a.append b).cut = some e) :
    a.cut = some e ∨ b.cut = some e := by
  obtain ⟨_, _ | _⟩ := a
  · exact .inr h
  · exact .inl h

theorem cut_of_concat {as : List (Listing α)} {e : Failure} (h : (concat as).cut = some e) :
    ∃ a ∈ as, a.cut = some e := by
  induction as with
  | nil => cases h
  | cons a as ih =>
    rcases cut_of_append h with h | h
    · exact ⟨a, by simp, h⟩
    · obtain ⟨b, hb, hcut⟩ := ih h
      exact ⟨b, by simp [hb], hcut⟩

/-! ## Properties of all that comes -/

/-- Every item has the property `p`, and the failure that cuts the listing short, if any, has `q`. -/
structure Holds (p : α → Prop) (q : Failure → Prop) (l : Listing α) : Prop where
  items : ∀ x ∈ l.items, p x
  cut : ∀ e, l.cut = some e → q e

namespace Holds

variable {p : α → Prop} {q : Failure → Prop}

theorem empty : Holds p q .empty := ⟨by simp [Listing.empty], by simp [Listing.empty]⟩

theorem single {x : α} (h : p x) : Holds p q (.single x) :=
  ⟨by simpa [Listing.single] using h, by simp [Listing.single]⟩

theorem refused {e : Failure} (h : q e) : Holds p q (.refused e) :=
  ⟨by simp [Listing.refused], by simpa [Listing.refused] using h⟩

theorem append {a b : Listing α} (ha : Holds p q a) (hb : Holds p q b) : Holds p q (a.append b) where
  items x hx := by
    rcases mem_of_mem_append hx with hx | hx
    · exact ha.items x hx
    · exact hb.items x hx
  cut e he := by
    rcases cut_of_append he with he | he
    · exact ha.cut e he
    · exact hb.cut e he

theorem concat {as : List (Listing α)} (h : ∀ a ∈ as, Holds p q a) :
    Holds p q (Listing.concat as) where
  items x hx := by
    obtain ⟨a, ha, hx⟩ := mem_of_mem_concat hx
    exact (h a ha).items x hx
  cut e he := by
    obtain ⟨a, ha, he⟩ := cut_of_concat he
    exact (h a ha).cut e he

end Holds

/-! ## Earlier cuts -/

/-- `a` is `b`, or a front part of it that ends in a cut. -/
structure Within (a b : Listing α) : Prop where
  front : a.items <+: b.items
  whole : a.cut = none → a = b

namespace Within

theorem refl (a : Listing α) : Within a a := ⟨List.prefix_rfl, fun _ => rfl⟩

theorem of_refused (e : Failure) (b : Listing α) : Within (refused e) b :=
  ⟨ List.nil_prefix, fun h => by simp [refused] at h⟩

theorem trans {a b c : Listing α} (hab : Within a b) (hbc : Within b c) : Within a c := by
  refine ⟨hab.front.trans hbc.front, fun h => ?_⟩
  have hb := hab.whole h
  subst hb
  exact hbc.whole h

theorem append {a a' b b' : Listing α} (ha : Within a a') (hb : Within b b') :
    Within (a.append b) (a'.append b') := by
  cases hcut : a.cut with
  | some e =>
    rw [append_of_cut hcut]
    refine ⟨ha.front.trans ?_, fun h => by simp [hcut] at h⟩
    obtain ⟨_, _ | _⟩ := a' <;> simp [Listing.append]
  | none =>
    have h := ha.whole hcut
    subst h
    rw [append_of_whole hcut, append_of_whole hcut]
    refine ⟨(List.prefix_append_right_inj _).2 hb.front, fun h => ?_⟩
    rw [hb.whole h]

theorem concat {as bs : List (Listing α)} (h : List.Forall₂ Within as bs) :
    Within (Listing.concat as) (Listing.concat bs) := by
  induction h with
  | nil => exact refl _
  | cons hab _ ih => exact hab.append ih

end Within
end Listing
end ClassCensus
