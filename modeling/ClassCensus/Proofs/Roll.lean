import ClassCensus.Proofs.Table
import ClassCensus.Registry
import Mathlib.Data.List.Infix

/-!
# ClassCensus.Proofs.Roll

A registry beside the serial number its next record will get, and what entering a list of
findings makes of it. Only the first finding of a key is entered, so a list of which a front part
has been entered already may be entered again from its start.
-/

namespace ClassCensus

/-- What a scan of one file hands in: the fingerprint of the file and the facts of its class. -/
abbrev Finding := Text × ClassFacts

/-- The keys and facts of a registry, in its order. -/
def Registry.findings (r : Registry) : List Finding := r.map fun e => (e.1, e.2.facts)

structure Roll where
  registry : Registry
  next : Nat

namespace Roll

def enter (r : Roll) (e : Finding) : Roll :=
  if Table.has r.registry e.1 then r else ⟨r.registry ++ [(e.1, ⟨e.2, r.next⟩)], r.next + 1⟩

def enterAll (r : Roll) (es : List Finding) : Roll := es.foldl enter r

theorem enter_of_has {r : Roll} {e : Finding} (h : Table.has r.registry e.1 = true) :
    r.enter e = r := by
  simp [enter, h]

@[simp] theorem enterAll_nil (r : Roll) : r.enterAll [] = r := rfl

@[simp] theorem enterAll_cons (r : Roll) (e : Finding) (es : List Finding) :
    r.enterAll (e :: es) = (r.enter e).enterAll es := rfl

theorem enterAll_append (r : Roll) (es fs : List Finding) :
    r.enterAll (es ++ fs) = (r.enterAll es).enterAll fs := by
  simp [enterAll, List.foldl_append]

/-! ## Keys -/

theorem mem_keys_enter {r : Roll} {e : Finding} {k : Text} :
    k ∈ Table.keys (r.enter e).registry ↔ k ∈ Table.keys r.registry ∨ k = e.1 := by
  unfold enter
  split
  · rename_i h
    constructor
    · exact .inl
    · rintro (hk | rfl)
      · exact hk
      · exact Table.has_iff.1 h
  · simp [Table.keys]

theorem mem_keys_enterAll {es : List Finding} {r : Roll} {k : Text} :
    k ∈ Table.keys (r.enterAll es).registry ↔
      k ∈ Table.keys r.registry ∨ ∃ e ∈ es, e.1 = k := by
  induction es generalizing r with
  | nil => simp
  | cons e es ih => simp [ih, mem_keys_enter, or_assoc, eq_comm]

theorem nodup_enter {r : Roll} (h : (Table.keys r.registry).Nodup) (e : Finding) :
    (Table.keys (r.enter e).registry).Nodup := by
  unfold enter
  split
  · exact h
  · rename_i hk
    rw [Table.has_iff] at hk
    simp only [Table.keys, List.map_append, List.map_cons, List.map_nil]
    exact h.append (List.nodup_singleton _) (by simpa [Table.keys] using hk)

theorem nodup_enterAll {r : Roll} (h : (Table.keys r.registry).Nodup) (es : List Finding) :
    (Table.keys (r.enterAll es).registry).Nodup := by
  induction es generalizing r with
  | nil => exact h
  | cons e es ih => exact ih (nodup_enter h e)

/-! ## Records -/

theorem registry_grows (r : Roll) (es : List Finding) :
    r.registry <+: (r.enterAll es).registry := by
  induction es generalizing r with
  | nil => exact List.prefix_rfl
  | cons e es ih =>
    refine List.IsPrefix.trans ?_ (ih (r.enter e))
    unfold enter
    split
    · exact List.prefix_rfl
    · exact List.prefix_append _ _

/-- A record was there before, or states the facts of a finding. -/
theorem mem_enterAll {es : List Finding} {r : Roll} {k : Text} {record : Record}
    (h : (k, record) ∈ (r.enterAll es).registry) :
    (k, record) ∈ r.registry ∨ (k, record.facts) ∈ es := by
  induction es generalizing r with
  | nil => exact .inl h
  | cons e es ih =>
    rcases ih h with h | h
    · unfold enter at h
      split at h
      · exact .inl h
      · rcases List.mem_append.1 h with h | h
        · exact .inl h
        · simp only [List.mem_singleton, Prod.mk.injEq] at h
          obtain ⟨rfl, rfl⟩ := h
          exact .inr (by simp)
    · exact .inr (by simp [h])

/-! ## Entering again -/

theorem enterAll_of_keys {es : List Finding} {r : Roll}
    (h : ∀ e ∈ es, e.1 ∈ Table.keys r.registry) : r.enterAll es = r := by
  induction es with
  | nil => rfl
  | cons e es ih =>
    have he : r.enter e = r := enter_of_has (Table.has_iff.2 (h e (by simp)))
    rw [enterAll_cons, he]
    exact ih fun e' he' => h e' (by simp [he'])

theorem enterAll_subset {es fs : List Finding} (h : fs ⊆ es) (r : Roll) :
    (r.enterAll es).enterAll fs = r.enterAll es :=
  enterAll_of_keys fun e he => mem_keys_enterAll.2 (.inr ⟨e, h he, rfl⟩)

theorem enterAll_front {es fs : List Finding} (h : es <+: fs) (r : Roll) :
    (r.enterAll es).enterAll fs = r.enterAll fs := by
  obtain ⟨gs, rfl⟩ := h
  rw [enterAll_append, enterAll_append, enterAll_subset (List.Subset.refl es)]

/-- Of two front parts of one list the longer one counts. -/
theorem enterAll_two_fronts {es fs gs : List Finding} (he : es <+: gs) (hf : fs <+: gs)
    (r : Roll) : ∃ hs, hs <+: gs ∧ es <+: hs ∧ fs <+: hs ∧
      (r.enterAll es).enterAll fs = r.enterAll hs := by
  rcases List.prefix_or_prefix_of_prefix he hf with h | h
  · exact ⟨fs, hf, h, List.prefix_rfl, enterAll_front h r⟩
  · exact ⟨es, he, List.prefix_rfl, h, enterAll_subset h.subset r⟩

/-- What a registry holds does not depend on the serial numbers. -/
theorem findings_enterAll {es : List Finding} {r s : Roll}
    (h : r.registry.findings = s.registry.findings) :
    (r.enterAll es).registry.findings = (s.enterAll es).registry.findings := by
  induction es generalizing r s with
  | nil => exact h
  | cons e es ih =>
    apply ih
    have hkeys : Table.keys r.registry = Table.keys s.registry := by
      have := congrArg (List.map Prod.fst) h
      simpa [Registry.findings, Table.keys, Function.comp_def] using this
    have hhas : Table.has r.registry e.1 = Table.has s.registry e.1 := by
      rw [Bool.eq_iff_iff, Table.has_iff, Table.has_iff, hkeys]
    unfold enter
    rw [hhas]
    split
    · exact h
    · simpa [Registry.findings] using h

end Roll
end ClassCensus
