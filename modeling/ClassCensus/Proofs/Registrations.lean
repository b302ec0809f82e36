import ClassCensus.Registry
import ClassCensus.Proofs.Table

/-!
# ClassCensus.Proofs.Registrations

Records registered one after the other (`Registry.InTurn`), and what the registry then has: one
entry a key, that of the registration which was told that it is new (`InTurn.tallies`).
-/

namespace ClassCensus

/-- A registration that was asked for, and its answer. -/
structure Registration where
  record : Record
  answer : Except Failure Bool

def Registration.isNew (g : Registration) : Bool :=
  match g.answer with
  | .ok isNew => isNew
  | .error _ => false

/-- The key of a record, if its file has one. -/
def FileSystem.key? (fs : FileSystem) (record : Record) : Option Text :=
  (fs.fingerprint record.facts.file).toOption

theorem FileSystem.key?_eq_some {fs : FileSystem} {record : Record} {key : Text} :
    fs.key? record = some key ↔ fs.fingerprint record.facts.file = .ok key := by
  unfold key?
  cases fs.fingerprint record.facts.file <;> simp [Except.toOption]

/-! ## One after the other -/

namespace Registry

variable {κ : Type}

theorem register_of_taken {r : Registry} {w : World κ} {record : Record} {key : Text}
    (hkey : w.files.fingerprint record.facts.file = .ok key) (h : Table.has r key = true) :
    r.register w record = (.ok (false, r), w.tell [.duplicateSkipped record.facts.file key]) := by
  simp only [register, hkey, h, if_true]

theorem register_of_free {r : Registry} {w : World κ} {record : Record} {key : Text}
    (hkey : w.files.fingerprint record.facts.file = .ok key) (h : Table.has r key = false) :
    r.register w record =
      (.ok (true, Table.put r key record), w.tell [.classRegistered record.facts.className key]) := by
  simp only [register, insert, hkey, h, Bool.false_eq_true, if_false, Table.put_of_free h]

/-- The ways a registration goes: the file has no key, the key is taken, or it is free. -/
theorem register_cases {r : Registry} {w v : World κ} {record : Record}
    {answer : Except Failure (Bool × Registry)} (h : r.register w record = (answer, v)) :
    v.files = w.files ∧
      ((∃ e, w.files.fingerprint record.facts.file = .error e ∧ answer = .error e) ∨
        ∃ key, w.files.fingerprint record.facts.file = .ok key ∧
          ((Table.has r key = true ∧ answer = .ok (false, r)) ∨
            (Table.has r key = false ∧ answer = .ok (true, r ++ [(key, record)])))) := by
  cases hkey : w.files.fingerprint record.facts.file with
  | error e =>
    simp only [register, hkey] at h
    cases h
    exact ⟨rfl, .inl ⟨e, rfl, rfl⟩⟩
  | ok key =>
    cases hhas : Table.has r key with
    | true =>
      rw [register_of_taken hkey hhas] at h
      cases h
      exact ⟨rfl, .inr ⟨key, rfl, .inl ⟨hhas, rfl⟩⟩⟩
    | false =>
      rw [register_of_free hkey hhas, Table.put_of_free hhas] at h
      cases h
      exact ⟨rfl, .inr ⟨key, rfl, .inr ⟨hhas, rfl⟩⟩⟩

/-- Registrations made one after the other, from an empty registry on. -/
inductive InTurn (w : World κ) : List Registration → Registry → World κ → Prop where
  | start : InTurn w [] [] w
  | refused {made : List Registration} {r : Registry} {u v : World κ} {record : Record}
      {e : Failure} :
      InTurn w made r u → r.register u record = (.error e, v) →
      InTurn w (made ++ [⟨record, .error e⟩]) r v
  | answered {made : List Registration} {r s : Registry} {u v : World κ} {record : Record}
      {isNew : Bool} :
      InTurn w made r u → r.register u record = (.ok (isNew, s), v) →
      InTurn w (made ++ [⟨record, .ok isNew⟩]) s v

theorem InTurn.files {w v : World κ} {made : List Registration} {r : Registry}
    (h : InTurn w made r v) : v.files = w.files := by
  induction h with
  | start => rfl
  | refused _ hreg ih => exact (register_cases hreg).1.trans ih
  | answered _ hreg ih => exact (register_cases hreg).1.trans ih

/-- How a registry answers for the registrations made, in the order of their effect. -/
structure Tallies (fs : FileSystem) (made : List Registration) (r : Registry) : Prop where
  /-- There is one entry a key. -/
  nodup : (Table.keys r).Nodup
  /-- The keys are those of the records. -/
  keys : ∀ k, k ∈ Table.keys r ↔ ∃ g ∈ made, fs.key? g.record = some k
  count : made.countP Registration.isNew = r.length
  /-- The entries are those of the registrations that were new, in their order. -/
  entries : r = (made.filter Registration.isNew).filterMap
    fun g => (fs.key? g.record).map (·, g.record)
  /-- One registration was new for the key of an entry, and it was of the entry's record. -/
  sole : ∀ e ∈ r, (made.filter fun g => g.isNew && decide (fs.key? g.record = some e.1)) =
    [⟨e.2, .ok true⟩]

namespace Tallies

variable {fs : FileSystem} {made : List Registration} {r : Registry} {g : Registration}

theorem snoc_old (h : Tallies fs made r) (hnew : g.isNew = false)
    (hkey : ∀ k, fs.key? g.record = some k → k ∈ Table.keys r) : Tallies fs (made ++ [g]) r where
  nodup := h.nodup
  keys k := by
    rw [h.keys]
    constructor
    · rintro ⟨g', hg', hk⟩
      exact ⟨g', List.mem_append_left _ hg', hk⟩
    · rintro ⟨g', hg', hk⟩
      rcases List.mem_append.1 hg' with hg' | hg'
      · exact ⟨g', hg', hk⟩
      · cases List.mem_singleton.1 hg'
        exact (h.keys k).1 (hkey k hk)
  count := by
    rw [List.countP_append, h.count]
    simp [hnew]
  entries := by
    rw [List.filter_append]
    simpa [hnew] using h.entries
  sole e he := by
    rw [List.filter_append, h.sole e he]
    simp [hnew]

theorem snoc_new {record : Record} {key : Text} (h : Tallies fs made r)
    (hkey : fs.key? record = some key) (hfree : key ∉ Table.keys r) :
    Tallies fs (made ++ [⟨record, .ok true⟩]) (r ++ [(key, record)]) where
  nodup := by
    rw [Table.keys, List.map_append]
    refine List.nodup_append.2 ⟨h.nodup, List.nodup_singleton _, ?_⟩
    rintro k hk k' hk' rfl
    cases List.mem_singleton.1 hk'
    exact hfree hk
  keys k := by
    have hkeys : k ∈ Table.keys (r ++ [(key, record)]) ↔ k ∈ Table.keys r ∨ key = k := by
      simp [Table.keys, eq_comm]
    rw [hkeys, h.keys]
    constructor
    · rintro (⟨g, hg, hk⟩ | rfl)
      · exact ⟨g, List.mem_append_left _ hg, hk⟩
      · exact ⟨_, List.mem_append_right _ (List.mem_singleton.2 rfl), hkey⟩
    · rintro ⟨g, hg, hk⟩
      rcases List.mem_append.1 hg with hg | hg
      · exact .inl ⟨g, hg, hk⟩
      · cases List.mem_singleton.1 hg
        exact .inr (Option.some.inj (hkey.symm.trans hk))
  count := by
    rw [List.countP_append, h.count]
    simp [Registration.isNew]
  entries := by
    have hnew : Registration.isNew ⟨record, .ok true⟩ = true := rfl
    rw [List.filter_append, List.filterMap_append, ← h.entries, List.filter_cons_of_pos hnew]
    simp [hkey]
  sole e he := by
    rw [List.filter_append]
    rcases List.mem_append.1 he with he | he
    · -- the new key is not that of an old entry
      have hne : key ≠ e.1 := fun hk => hfree (hk ▸ Table.mem_keys_of_mem he)
      rw [h.sole e he]
      simp [hkey, hne]
    · cases List.mem_singleton.1 he
      have hnone : (made.filter fun g => g.isNew && decide (fs.key? g.record = some key)) = [] := by
        refine List.filter_eq_nil_iff.2 fun g hg => ?_
        have hk : fs.key? g.record ≠ some key := fun hk => hfree ((h.keys key).2 ⟨g, hg, hk⟩)
        simp [hk]
      rw [hnone]
      simp [Registration.isNew, hkey]

end Tallies

theorem InTurn.tallies {w v : World κ} {made : List Registration} {r : Registry}
    (h : InTurn w made r v) : Tallies w.files made r := by
  induction h with
  | start => exact ⟨List.nodup_nil, by simp [Table.keys], rfl, rfl, by simp⟩
  | @refused made r u v record e hmade hreg ih =>
    have hfiles := hmade.files
    obtain ⟨-, ⟨e', hkey, -⟩ | ⟨key, hkey, ⟨-, hanswer⟩ | ⟨-, hanswer⟩⟩⟩ := register_cases hreg
    · refine ih.snoc_old rfl fun k hk => ?_
      rw [FileSystem.key?_eq_some, ← hfiles, hkey] at hk
      cases hk
    · cases hanswer
    · cases hanswer
  | @answered made r s u v record isNew hmade hreg ih =>
    have hfiles := hmade.files
    obtain ⟨-, ⟨e', -, hanswer⟩ | ⟨key, hkey, ⟨hhas, hanswer⟩ | ⟨hhas, hanswer⟩⟩⟩ :=
      register_cases hreg
    · cases hanswer
    · cases hanswer
      refine ih.snoc_old rfl fun k hk => ?_
      rw [FileSystem.key?_eq_some, ← hfiles, hkey] at hk
      cases hk
      exact Table.has_iff.1 hhas
    · cases hanswer
      refine ih.snoc_new ?_ ?_
      · rw [FileSystem.key?_eq_some, ← hfiles, hkey]
      · rw [← Table.has_iff, hhas]
        exact Bool.false_ne_true

end Registry
end ClassCensus
