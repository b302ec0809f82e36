import ClassCensus.Modules.Builtin
import ClassCensus.Modules.Lineage
import Mathlib.Data.List.Basic
import Mathlib.Logic.Relation

/-!
# ClassCensus.Proofs.Lineage

What the order of a class holds. A merge keeps every list it merges and adds nothing
(`merges_mergeFrom`), so the order of a class has the whole order of each base in it. By induction
on how the class was made it therefore has every ancestor of every ancestor
(`order_sublist_of_inherits`), and it has nothing else (`exists_of_mem_order`).
-/

namespace ClassCensus
namespace Lineage

/-! ## Merging -/

/-- A merge keeps its lists in order and has no class that is in none of them. -/
structure Merges (lists : List (List TypeName)) (merged : List TypeName) : Prop where
  kept : ∀ l ∈ lists, l.Sublist merged
  source : ∀ c ∈ merged, ∃ l ∈ lists, c ∈ l

section

variable {lists : List (List TypeName)} {merged : List TypeName} {c : TypeName}

theorem head_of_nextHead? (h : nextHead? lists = some c) : ∃ l ∈ lists, l.head? = some c :=
  List.mem_filterMap.1 (List.mem_of_find?_eq_some h)

theorem Merges.done (h : lists.all List.isEmpty = true) : Merges lists [] := by
  refine ⟨fun l hl => ?_, nofun⟩
  have hempty := List.all_eq_true.1 h l hl
  rw [List.isEmpty_iff.1 hempty]

theorem Merges.step (h : Merges (drop c lists) merged) (hc : ∃ l ∈ lists, l.head? = some c) :
    Merges lists (c :: merged) := by
  constructor
  · intro l hl
    have hrest := h.kept _ (List.mem_map_of_mem hl)
    split at hrest
    · rename_i hhead
      rw [List.eq_cons_of_mem_head? hhead]
      exact hrest.cons_cons c
    · exact hrest.cons c
  · intro x hx
    rcases List.mem_cons.1 hx with rfl | hx
    · obtain ⟨l, hl, hhead⟩ := hc
      exact ⟨l, hl, List.mem_of_mem_head? hhead⟩
    · obtain ⟨_, hdropped, hmem⟩ := h.source x hx
      obtain ⟨l, hl, rfl⟩ := List.mem_map.1 hdropped
      refine ⟨l, hl, ?_⟩
      split at hmem
      · exact List.mem_of_mem_tail hmem
      · exact hmem

theorem merges_mergeFrom {fuel : Nat} (h : mergeFrom fuel lists = some merged) :
    Merges lists merged := by
  induction fuel generalizing lists merged with
  | zero =>
    simp only [mergeFrom] at h
    split at h
    · cases h
      exact .done ‹_›
    · cases h
  | succ fuel ih =>
    simp only [mergeFrom] at h
    split at h
    · cases h
      exact .done ‹_›
    · split at h
      · cases h
      · rename_i c hc
        obtain ⟨rest, hrest, rfl⟩ := Option.map_eq_some_iff.1 h
        exact (ih hrest).step (head_of_nextHead? hc)

/-- The heads that are merged along with the orders add nothing to them. -/
theorem merges_ancestorsOf? (h : ancestorsOf? lists = some merged) : Merges lists merged := by
  have hmerges := merges_mergeFrom h
  refine ⟨fun l hl => hmerges.kept l (List.mem_append_left _ hl), fun c hc => ?_⟩
  obtain ⟨l, hl, hmem⟩ := hmerges.source c hc
  rcases List.mem_append.1 hl with hl | hl
  · exact ⟨l, hl, hmem⟩
  · rw [List.mem_singleton.1 hl] at hmem
    obtain ⟨base, hbase, hhead⟩ := List.mem_filterMap.1 hmem
    exact ⟨base, hbase, List.mem_of_mem_head? hhead⟩

end

theorem mergeFrom_first {c : TypeName} {l heads : List TypeName} (hc : c ∉ l)
    (hheads : heads = [] ∨ heads = [c]) (fuel : Nat) :
    mergeFrom (fuel + 1) [c :: l, heads] = (mergeFrom fuel [l, []]).map (c :: ·) := by
  rcases hheads with rfl | rfl <;> simp [mergeFrom, nextHead?, drop, hc]

/-- One list alone is merged to itself. -/
theorem mergeFrom_alone {l : List TypeName} (hl : l.Nodup) {fuel : Nat} (hfuel : l.length ≤ fuel) :
    mergeFrom fuel [l, []] = some l := by
  induction fuel generalizing l with
  | zero =>
    obtain rfl : l = [] := List.length_eq_zero_iff.1 (by omega)
    rfl
  | succ fuel ih =>
    cases l with
    | nil => rfl
    | cons c l =>
      obtain ⟨hc, hl⟩ := List.nodup_cons.1 hl
      rw [List.length_cons] at hfuel
      rw [mergeFrom_first hc (.inl rfl), ih hl (by omega)]
      rfl

theorem ancestorsOf?_single {c : TypeName} {l : List TypeName} (h : (c :: l).Nodup) :
    ancestorsOf? [c :: l] = some (c :: l) := by
  obtain ⟨hc, hl⟩ := List.nodup_cons.1 h
  have hfuel : [c :: l, [c]].flatten.length = l.length + 1 + 1 := by simp
  have hlists : ancestorsOf? [c :: l] = mergeFrom (l.length + 1 + 1) [c :: l, [c]] := by
    rw [← hfuel]
    rfl
  rw [hlists, mergeFrom_first hc (.inr rfl), mergeFrom_alone hl (by omega)]
  rfl

/-! ## Making classes -/

@[simp] theorem bases_make (name : TypeName) (bases : List Lineage) (ancestors : List TypeName) :
    (make name bases ancestors).bases = bases := by
  simp only [make, Lineage.bases, List.map_map]
  exact List.map_id bases

theorem derive?_eq_some {name : TypeName} {bases : List Lineage} {l : Lineage} :
    derive? name bases = some l ↔
      ∃ ancestors, ancestorsOf? (bases.map order) = some ancestors ∧
        make name bases ancestors = l := by
  simp [derive?]

/-- A class that is made step by step from the class of all objects. -/
inductive WellMade : Lineage → Prop
  | root : WellMade Builtin.root
  | derive {name : TypeName} {bases : List Lineage} {l : Lineage}
      (hbases : ∀ b ∈ bases, WellMade b) (h : derive? name bases = some l) : WellMade l

/-- One class descends from another: by its bases, theirs, and so on. -/
abbrev Inherits : Lineage → Lineage → Prop := Relation.TransGen fun l b => b ∈ l.bases

section

variable {l b : Lineage} {n : TypeName}

theorem WellMade.bases (h : WellMade l) : ∀ b ∈ l.bases, WellMade b := by
  cases h with
  | root => exact nofun
  | derive hbases hderive =>
    obtain ⟨ancestors, -, rfl⟩ := derive?_eq_some.1 hderive
    rwa [bases_make]

theorem WellMade.merges (h : WellMade l) : Merges (l.bases.map order) l.ancestors := by
  cases h with
  | root => exact ⟨nofun, nofun⟩
  | derive hbases hderive =>
    obtain ⟨ancestors, hmerged, rfl⟩ := derive?_eq_some.1 hderive
    rw [bases_make]
    exact merges_ancestorsOf? hmerged

theorem WellMade.inherits (h : WellMade l) (hb : l.Inherits b) : WellMade b := by
  induction hb with
  | single hb => exact h.bases _ hb
  | tail _ hb ih => exact ih.bases _ hb

/-- The whole order of an ancestor stands among the ancestors, as it is. -/
theorem order_sublist_of_inherits (h : WellMade l) (hb : l.Inherits b) :
    b.order.Sublist l.ancestors := by
  have hbase : ∀ {l b : Lineage}, WellMade l → b ∈ l.bases → b.order.Sublist l.ancestors :=
    fun h hb => h.merges.kept _ (List.mem_map_of_mem hb)
  induction hb with
  | single hb => exact hbase h hb
  | tail hm hb ih =>
    -- the order of the class between is in the list, and so is what it has of its base
    have hnext := hbase (h.inherits hm) hb
    exact (hnext.trans (List.sublist_cons_self _ _)).trans ih

/-- What stands in an order is the class or an ancestor of it. -/
theorem exists_of_mem_order (h : WellMade l) (hn : n ∈ l.order) :
    ∃ a, Relation.ReflTransGen (fun l b => b ∈ l.bases) l a ∧ a.name = n := by
  induction h with
  | root => exact ⟨_, .refl, (List.mem_singleton.1 hn).symm⟩
  | @derive name bases l hbases hderive ih =>
    have hmade := WellMade.derive hbases hderive
    rcases List.mem_cons.1 hn with rfl | hn
    · exact ⟨l, .refl, rfl⟩
    · obtain ⟨_, horder, hmem⟩ := hmade.merges.source n hn
      obtain ⟨b, hb, rfl⟩ := List.mem_map.1 horder
      have hbase : b ∈ bases := by
        obtain ⟨ancestors, -, rfl⟩ := derive?_eq_some.1 hderive
        rwa [bases_make] at hb
      obtain ⟨a, ha, hname⟩ := ih b hbase hmem
      exact ⟨a, .head hb ha, hname⟩

end

/-! ## The classes that are always there -/

theorem order_line (path : List String) :
    (Builtin.line path).order = path.map (Builtin.named ·.toList) ++ [Builtin.object] := by
  induction path with
  | nil => rfl
  | cons name path ih =>
    rw [List.map_cons, List.cons_append, ← ih]
    rfl

theorem wellMade_line {path : List String}
    (h : (path.map (Builtin.named ·.toList) ++ [Builtin.object]).Nodup) :
    WellMade (Builtin.line path) := by
  induction path with
  | nil => exact .root
  | cons name path ih =>
    rw [List.map_cons, List.cons_append, List.nodup_cons] at h
    have horder := order_line path
    have hmerged : ancestorsOf? [(Builtin.line path).order] = some (Builtin.line path).order := by
      refine ancestorsOf?_single ?_
      rw [← horder] at h
      exact h.2
    have hderive : derive? (Builtin.named name.toList) [Builtin.line path] =
        some (Builtin.line (name :: path)) := derive?_eq_some.2 ⟨_, hmerged, rfl⟩
    refine .derive (fun b hb => ?_) hderive
    rw [List.mem_singleton.1 hb]
    exact ih h.2

theorem wellMade_exceptionGroup : WellMade Builtin.exceptionGroup := by
  have hderive : derive? (Builtin.named "ExceptionGroup".toList)
      [Builtin.line ["BaseExceptionGroup", "BaseException"],
        Builtin.line ["Exception", "BaseException"]] = some Builtin.exceptionGroup :=
    derive?_eq_some.2 ⟨_, by decide, rfl⟩
  refine .derive (fun b hb => ?_) hderive
  rcases List.mem_cons.1 hb with rfl | hb
  · exact wellMade_line (by decide)
  · rw [List.mem_singleton.1 hb]
    exact wellMade_line (by decide)

theorem wellMade_lineageOf (v : Value) : WellMade (Builtin.lineageOf v) := by
  unfold Builtin.lineageOf
  split <;> exact wellMade_line (by decide)

end Lineage
end ClassCensus
