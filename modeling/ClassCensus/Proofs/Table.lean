import ClassCensus.Table
import Mathlib.Data.List.Nodup

/-!
# ClassCensus.Proofs.Table

Look-up in finite maps. A key that occurs once is looked up by membership; writing a key keeps
the others and their places.
-/

namespace ClassCensus
namespace Table

variable {κ α : Type} [DecidableEq κ]

theorem mem_of_get? {t : Table κ α} {k : κ} {v : α} (h : get? t k = some v) : (k, v) ∈ t := by
  induction t with
  | nil => simp [get?] at h
  | cons p t ih =>
    simp only [get?] at h
    split at h
    · rename_i hk
      cases h
      simp [← hk]
    · simp [ih h]

theorem has_iff {t : Table κ α} {k : κ} : has t k = true ↔ k ∈ keys t := by
  induction t with
  | nil => simp [has, get?, keys]
  | cons p t ih =>
    simp only [has, keys] at ih
    by_cases hk : p.1 = k
    · simp [has, get?, keys, hk]
    · simp [has, get?, keys, hk, Ne.symm hk, ih]

omit [DecidableEq κ] in
theorem mem_keys_of_mem {t : Table κ α} {k : κ} {v : α} (h : (k, v) ∈ t) : k ∈ keys t :=
  List.mem_map.2 ⟨(k, v), h, rfl⟩

theorem get?_of_mem {t : Table κ α} (hn : (keys t).Nodup) {k : κ} {v : α} (h : (k, v) ∈ t) :
    get? t k = some v := by
  induction t with
  | nil => cases h
  | cons p t ih =>
    obtain ⟨hp, hn⟩ := List.nodup_cons.1 hn
    rcases List.mem_cons.1 h with rfl | h
    · simp [get?]
    · have hne : p.1 ≠ k := fun e => hp (e ▸ mem_keys_of_mem h)
      simp [get?, hne, ih hn h]

theorem get?_eq_some_iff {t : Table κ α} (hn : (keys t).Nodup) {k : κ} {v : α} :
    get? t k = some v ↔ (k, v) ∈ t :=
  ⟨mem_of_get?, get?_of_mem hn⟩

omit [DecidableEq κ] in
/-- Entries that a test tells by their key: it finds one of them, once. -/
theorem countP_eq_one {t : Table κ α} (hn : (keys t).Nodup) {p : κ × α → Bool} {e : κ × α}
    (he : e ∈ t) (hp : p e = true) (hkey : ∀ e' ∈ t, p e' = true → e'.1 = e.1) :
    t.countP p = 1 := by
  have hself : ∀ e' ∈ t, p e' = true ↔ e' = e := by
    intro e' he'
    constructor
    · intro hp'
      exact List.inj_on_of_nodup_map hn he' he (hkey e' he' hp')
    · rintro rfl
      exact hp
  obtain ⟨front, back, rfl⟩ := List.append_of_mem he
  have hdistinct := (List.Nodup.of_map _ hn)
  obtain ⟨-, -, hdisjoint⟩ := List.nodup_append.1 hdistinct
  have hback := (List.nodup_cons.1 (List.nodup_append.1 hdistinct).2.1).1
  have hnone : ∀ e' ∈ front ++ back, p e' = false := by
    intro e' he'
    rw [← Bool.not_eq_true, hself e' (by simp at he' ⊢; tauto)]
    rintro rfl
    rcases List.mem_append.1 he' with hf | hb
    · exact hdisjoint e' hf e' (by simp) rfl
    · exact hback hb
  have hfront : front.countP p = 0 := List.countP_eq_zero.2 fun e' he' => by
    simp [hnone e' (by simp [he'])]
  have hrest : back.countP p = 0 := List.countP_eq_zero.2 fun e' he' => by
    simp [hnone e' (by simp [he'])]
  rw [List.countP_append, List.countP_cons_of_pos hp, hfront, hrest]

/-! ## Writing -/

theorem mem_put {t : Table κ α} (hn : (keys t).Nodup) {k k' : κ} {v v' : α} :
    (k', v') ∈ put t k v ↔ (k' = k ∧ v' = v) ∨ (k' ≠ k ∧ (k', v') ∈ t) := by
  induction t with
  | nil => simp [put]
  | cons p t ih =>
    obtain ⟨a, w⟩ := p
    obtain ⟨ha, hn⟩ := List.nodup_cons.1 hn
    have hsep : ∀ w', (a, w') ∉ t := fun w' hw => ha (mem_keys_of_mem hw)
    by_cases hk : a = k
    · subst hk
      simp only [put, if_true, List.mem_cons, Prod.mk.injEq]
      constructor
      · rintro (h | h)
        · exact .inl h
        · exact .inr ⟨fun e => hsep v' (e ▸ h), .inr h⟩
      · rintro (h | ⟨hne, h | h⟩)
        · exact .inl h
        · exact absurd h.1 hne
        · exact .inr h
    · simp only [put, if_neg hk, List.mem_cons, Prod.mk.injEq, ih hn]
      constructor
      · rintro (⟨rfl, rfl⟩ | h | ⟨hne, h⟩)
        · exact .inr ⟨hk, .inl ⟨rfl, rfl⟩⟩
        · exact .inl h
        · exact .inr ⟨hne, .inr h⟩
      · rintro (h | ⟨hne, h | h⟩)
        · exact .inr (.inl h)
        · exact .inl h
        · exact .inr (.inr ⟨hne, h⟩)

theorem mem_keys_put {t : Table κ α} {k k' : κ} {v : α} :
    k' ∈ keys (put t k v) ↔ k' = k ∨ k' ∈ keys t := by
  induction t with
  | nil => simp [put, keys]
  | cons p t ih =>
    by_cases hk : p.1 = k
    · subst hk
      simp [put, keys]
    · simp only [keys] at ih
      simp only [put, if_neg hk, keys, List.map_cons, List.mem_cons, ih]
      exact or_left_comm

theorem nodup_put {t : Table κ α} (hn : (keys t).Nodup) (k : κ) (v : α) :
    (keys (put t k v)).Nodup := by
  induction t with
  | nil => simp [put, keys]
  | cons p t ih =>
    obtain ⟨hp, hn'⟩ := List.nodup_cons.1 hn
    by_cases hk : p.1 = k
    · simpa [put, hk, keys] using hn
    · simp only [put, if_neg hk]
      refine List.nodup_cons.2 ⟨fun h => ?_, ih hn'⟩
      rcases mem_keys_put.1 h with h | h
      · exact hk h
      · exact hp h

theorem nodup_foldl_put {β : Type} (key : β → κ) (value : β → α) (l : List β) {t : Table κ α}
    (hn : (keys t).Nodup) : (keys (l.foldl (fun t x => put t (key x) (value x)) t)).Nodup := by
  induction l generalizing t with
  | nil => exact hn
  | cons x l ih => exact ih (nodup_put hn _ _)

theorem get?_put (t : Table κ α) (k k' : κ) (v : α) :
    get? (put t k v) k' = if k = k' then some v else get? t k' := by
  induction t with
  | nil => simp [put, get?]
  | cons p t ih =>
    by_cases hk : p.1 = k
    · subst hk
      by_cases hk' : p.1 = k' <;> simp [put, get?, hk']
    · by_cases hk' : p.1 = k'
      · subst hk'
        simp [put, get?, hk, Ne.symm hk]
      · simp [put, get?, hk, hk', ih]

theorem mem_of_mem_put {t : Table κ α} {k : κ} {v : α} {e : κ × α} (h : e ∈ put t k v) :
    e = (k, v) ∨ e ∈ t := by
  induction t with
  | nil => exact .inl (List.mem_singleton.1 h)
  | cons p t ih =>
    by_cases hk : p.1 = k
    · subst hk
      simp only [put, if_true] at h
      rcases List.mem_cons.1 h with rfl | h
      · exact .inl rfl
      · exact .inr (List.mem_cons_of_mem _ h)
    · simp only [put, if_neg hk] at h
      rcases List.mem_cons.1 h with rfl | h
      · exact .inr List.mem_cons_self
      · rcases ih h with he | he
        · exact .inl he
        · exact .inr (List.mem_cons_of_mem _ he)

theorem mem_of_mem_erase {t : Table κ α} {k : κ} {e : κ × α} (h : e ∈ erase t k) : e ∈ t := by
  induction t with
  | nil => cases h
  | cons p t ih =>
    by_cases hk : p.1 = k
    · simp only [erase, if_pos hk] at h
      exact List.mem_cons_of_mem _ h
    · simp only [erase, if_neg hk] at h
      rcases List.mem_cons.1 h with rfl | h
      · exact List.mem_cons_self
      · exact List.mem_cons_of_mem _ (ih h)

theorem get?_eq_none_iff {t : Table κ α} {k : κ} : get? t k = none ↔ k ∉ keys t := by
  rw [← has_iff, has]
  cases get? t k <;> simp

/-- Of the values written under one key the last counts. -/
theorem get?_foldl_put {β : Type} (key : β → κ) (value : β → α) (l : List β) (t : Table κ α)
    (k : κ) :
    get? (l.foldl (fun t x => put t (key x) (value x)) t) k =
      (((l.filter fun x => key x = k).getLast?).map value).or (get? t k) := by
  induction l generalizing t with
  | nil => rfl
  | cons x l ih =>
    rw [List.foldl_cons, ih, get?_put]
    by_cases hx : key x = k
    · simp only [List.filter_cons, hx, decide_true, if_true, List.getLast?_cons]
      cases (l.filter fun x => key x = k).getLast? <;> rfl
    · simp [hx]

theorem keys_put (t : Table κ α) (k : κ) (v : α) :
    keys (put t k v) = if k ∈ keys t then keys t else keys t ++ [k] := by
  induction t with
  | nil => simp [put, keys]
  | cons p t ih =>
    by_cases hk : p.1 = k
    · simp [put, keys, hk]
    · simp only [keys] at ih
      simp only [put, if_neg hk, keys, List.map_cons, ih]
      by_cases hmem : k ∈ t.map Prod.fst
      · simp [hmem]
      · simp [hmem, Ne.symm hk]

theorem put_of_free {t : Table κ α} {k : κ} (h : has t k = false) (v : α) :
    put t k v = t ++ [(k, v)] := by
  induction t with
  | nil => rfl
  | cons p t ih =>
    have hne : p.1 ≠ k := by
      intro he
      simp [has, get?, he] at h
    have hrest : has t k = false := by simpa [has, get?, hne] using h
    simp [put, hne, ih hrest]

/-- Keys written one after the other stand in the order in which they first came. -/
theorem keys_foldl_put [BEq κ] [LawfulBEq κ] {β : Type} (key : β → κ) (value : β → α) (l : List β)
    {t : Table κ α} {seen : List κ} (h : keys t = seen.eraseDups) :
    keys (l.foldl (fun t x => put t (key x) (value x)) t) = (seen ++ l.map key).eraseDups := by
  induction l generalizing t seen with
  | nil => simpa using h
  | cons x l ih =>
    have hput : keys (put t (key x) (value x)) = (seen ++ [key x]).eraseDups := by
      rw [keys_put, h, List.eraseDups_append]
      by_cases hx : key x ∈ seen
      · simp [hx, List.removeAll]
      · simp [hx, List.removeAll, List.eraseDups_cons]
    have hrest := ih hput
    rw [List.append_assoc] at hrest
    exact hrest

/-- A table is the list of its keys with what is looked up under each. -/
theorem filterMap_keys {t : Table κ α} (hn : (keys t).Nodup) :
    (keys t).filterMap (fun k => (get? t k).map (k, ·)) = t := by
  induction t with
  | nil => rfl
  | cons e t ih =>
    obtain ⟨hfresh, hn⟩ := List.nodup_cons.1 hn
    have hrest : (keys t).filterMap (fun k => (get? (e :: t) k).map (k, ·)) =
        (keys t).filterMap (fun k => (get? t k).map (k, ·)) := by
      refine List.filterMap_congr fun k hk => ?_
      have hne : e.1 ≠ k := fun he => hfresh (he ▸ hk)
      simp [get?, hne]
    have hfirst : get? (e :: t) e.1 = some e.2 := by simp [get?]
    have hkeys : keys (e :: t) = e.1 :: keys t := rfl
    rw [hkeys, List.filterMap_cons, hfirst, hrest, ih hn]
    rfl

end Table
end ClassCensus
