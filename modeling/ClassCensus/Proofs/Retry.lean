import ClassCensus.Proofs.Calls
import ClassCensus.Proofs.Denial

/-!
# ClassCensus.Proofs.Retry

Scans that are tried again after a refusal. Each try leaves some roots completed, one of them
partly entered, and the rest untouched. What has been entered is always a front part of what a
single scan without the refusals enters, with all that the completed roots hold (`Midway`), so
the tries that follow only add to it.
-/

namespace ClassCensus

/-- The same grounds with other denials. -/
def Grounds.deny (g : Grounds) (denied : List Location) : Grounds :=
  { g with files := { g.files with denied } }

theorem Grounds.deny_relaxes {g : Grounds} {denied : List Location} (h : g.files.denied ⊆ denied) :
    Relaxes (g.deny denied) g :=
  ⟨⟨rfl, rfl, rfl, h⟩, rfl, rfl⟩

namespace Census

/-- The same census with other denials. -/
def deny {κ : Type} (c : Census κ) (denied : List Location) : Census κ :=
  { c with world := { c.world with files := { c.world.files with denied } } }

/-- Scans once under each of several denials, whatever comes of it. -/
def retry {κ : Type} [TypeCatalog κ] (c : Census κ) : List (List Location) → Census κ
  | [] => c
  | denied :: rest => (c.deny denied).scanFiles.2.retry rest

/-- A finder that started from the roll `r` and has completed the roots `done`, while `rest` wait.
It has entered `es`, a front part of what the roots hold on the grounds `g`. -/
structure Midway (g : Grounds) (r : Roll) (done rest : List Root) (es : List Finding)
    (c : Census MemoryCatalog) : Prop where
  grounds : c.grounds.deny g.files.denied = g
  roots : c.finder.roots.toList = done ++ rest
  distinct : ((done ++ rest).map Root.path).Nodup
  scanned : ∀ root ∈ done ++ rest, root.path ∈ c.finder.scanned ↔ root ∈ done
  whole : (g.rootsYield done).cut = none
  roll : c.roll = r.enterAll es
  low : (g.rootsYield done).items <+: es
  high : es <+: (g.rootsYield (done ++ rest)).items

namespace Midway

variable {g : Grounds} {r : Roll} {done rest : List Root} {es : List Finding}
  {c : Census MemoryCatalog}

theorem disjoint (h : Midway g r done rest es c) {root : Root} (hr : root ∈ rest) :
    root ∉ done := by
  intro hd
  have hn := h.distinct
  rw [List.map_append] at hn
  exact List.disjoint_of_nodup_append hn (List.mem_map_of_mem hd) (List.mem_map_of_mem hr)

theorem pending (h : Midway g r done rest es c) : c.pending = rest := by
  unfold Census.pending
  rw [h.roots, List.filter_append]
  have hdone : done.filter (fun root => !c.finder.scanned.contains root.path) = [] := by
    rw [List.filter_eq_nil_iff]
    intro root hr
    simpa using (h.scanned root (by simp [hr])).2 hr
  have hrest : rest.filter (fun root => !c.finder.scanned.contains root.path) = rest := by
    rw [List.filter_eq_self]
    intro root hr
    simpa using fun hs => h.disjoint hr ((h.scanned root (by simp [hr])).1 hs)
  rw [hdone, hrest, List.nil_append]

/-- One more try. Its completed roots join the others, and what it enters continues what had been
entered; a try that goes well leaves no root waiting. -/
theorem scan (h : Midway g r done rest es c) {denied : List Location}
    (hd : g.files.denied ⊆ denied) :
    ∃ done' rest' es', done' ++ rest' = done ++ rest ∧
      Midway g r done' rest' es' (c.deny denied).scanFiles.2 ∧
      ((c.deny denied).scanFiles.1 = .ok () → rest' = []) := by
  have hgrounds : (c.deny denied).grounds = g.deny denied := by
    rw [← h.grounds]
    rfl
  have hreaps := scanFiles_reaps (c.deny denied)
  rw [hgrounds, show (c.deny denied).pending = rest from h.pending] at hreaps
  have hrelax := Grounds.deny_relaxes hd
  set mine := (g.deny denied).completed rest with hmine
  have hsplit : mine ++ rest.drop mine.length = rest := Grounds.completed_append_drop _ _
  have hall : (done ++ mine) ++ rest.drop mine.length = done ++ rest := by
    rw [List.append_assoc, hsplit]
  -- a completed root holds the same without the refusals
  have hwhole : ((g.deny denied).rootsYield mine).cut = none := Grounds.completed_whole _ _
  have hsame : (g.deny denied).rootsYield mine = g.rootsYield mine :=
    (hrelax.rootsYield_within mine).whole hwhole
  have hdone : g.rootsYield (done ++ rest) =
      ⟨(g.rootsYield done).items ++ (g.rootsYield rest).items, (g.rootsYield rest).cut⟩ := by
    rw [Grounds.rootsYield_append, Listing.append_of_whole h.whole]
  -- beyond the completed roots, the old entries and the new ones are two front parts of one list
  obtain ⟨mid, rfl⟩ := h.low
  have hmid : mid <+: (g.rootsYield rest).items := by
    have hhigh := h.high
    rw [hdone] at hhigh
    exact (List.prefix_append_right_inj _).1 hhigh
  obtain ⟨more, hmore, -, hnew, hroll⟩ := Roll.enterAll_two_fronts hmid
    (hrelax.rootsYield_within rest).front (r.enterAll (g.rootsYield done).items)
  refine ⟨done ++ mine, rest.drop mine.length, (g.rootsYield done).items ++ more, hall, ?_, ?_⟩
  · constructor
    · rw [hreaps.grounds, hgrounds]
      rfl
    · rw [hreaps.roots, hall]
      exact h.roots
    · rw [hall]
      exact h.distinct
    · intro root hr
      rw [hall] at hr
      have hold : root.path ∈ (c.deny denied).finder.scanned ↔ root ∈ done := h.scanned root hr
      rw [hreaps.scanned, mem_foldl_marked, hold, List.mem_append]
      refine or_congr_right ⟨fun ⟨root', hm, hp⟩ => ?_, fun hm => ⟨root, hm, rfl⟩⟩
      have hr' : root' ∈ done ++ rest := by
        rw [← hsplit]
        simp [hm]
      exact List.inj_on_of_nodup_map h.distinct hr' hr hp ▸ hm
    · rw [Grounds.rootsYield_append, Listing.append_cut_eq_none, ← hsame]
      exact ⟨h.whole, hwhole⟩
    · have hold : (c.deny denied).roll = c.roll := rfl
      rw [hreaps.roll, hold, h.roll, Roll.enterAll_append, Roll.enterAll_append, hroll]
    · rw [Grounds.rootsYield_append, Listing.append_of_whole h.whole, ← hsame]
      refine (List.prefix_append_right_inj _).2 (List.IsPrefix.trans ?_ hnew)
      conv => rhs; rw [← hsplit, Grounds.rootsYield_append, Listing.append_of_whole hwhole]
      exact List.prefix_append _ _
    · rw [hall, hdone]
      exact (List.prefix_append_right_inj _).2 hmore
  · intro hok
    have hcut := Listing.answer_eq_ok.1 (hreaps.answer.symm.trans hok)
    rw [hmine, Grounds.completed_eq_self hcut, List.drop_length]

theorem retry {denials : List (List Location)} (h : Midway g r done rest es c)
    (hd : ∀ denied ∈ denials, g.files.denied ⊆ denied) :
    ∃ done' rest' es', done' ++ rest' = done ++ rest ∧
      Midway g r done' rest' es' (c.retry denials) := by
  induction denials generalizing c done rest es with
  | nil => exact ⟨done, rest, es, rfl, h⟩
  | cons denied denials ih =>
    obtain ⟨done₁, rest₁, es₁, hall₁, h₁, -⟩ := h.scan (hd denied (by simp))
    obtain ⟨done₂, rest₂, es₂, hall₂, h₂⟩ := ih h₁ fun d hm => hd d (by simp [hm])
    exact ⟨done₂, rest₂, es₂, hall₂.trans hall₁, h₂⟩

/-- With no root waiting, everything the roots hold has been entered, and it is not cut. -/
theorem finished (h : Midway g r done [] es c) :
    (g.rootsYield done).cut = none ∧ c.roll = r.enterAll (g.rootsYield done).items := by
  have hes : (g.rootsYield done).items = es := by
    refine h.low.eq_of_length (le_antisymm h.low.length_le ?_)
    simpa using h.high.length_le
  exact ⟨h.whole, by rw [h.roll, hes]⟩

end Midway

/-- A finder that has scanned nothing yet. -/
theorem midway_fresh {c : Census MemoryCatalog} (hs : c.finder.scanned = [])
    (hn : (Table.keys c.finder.roots).Nodup) (denied : List Location) :
    Midway (c.grounds.deny denied) c.roll [] c.finder.roots.toList [] c where
  grounds := rfl
  roots := rfl
  distinct := by simpa using hn
  scanned := by simp [hs]
  whole := rfl
  roll := rfl
  low := List.prefix_rfl
  high := List.nil_prefix

/-- Tries under any denials, the last of which goes well and denies no more than the others, leave
the registry of a fresh finder with the same roots that scans once under the last ones. -/
theorem retries_end_as_one_scan {settings : ScannerSettings} {raws : List (Text × Option Bool)}
    {w w' : World MemoryCatalog} {denials : List (List Location)} {last : List Location}
    {start final : Census MemoryCatalog}
    (hstart : run ⟨Finder.new settings, w⟩ (raws.map .ofRoot) = (.ok (), start))
    (hdenials : ∀ denied ∈ denials, last ⊆ denied)
    (hfinal : ((start.retry denials).deny last).scanFiles = (.ok (), final))
    (hfiles : w'.files = { w.files with denied := last })
    (htypes : w'.catalog.types = w.catalog.types) :
    ∃ fresh once, run ⟨Finder.new settings, w'⟩ (raws.map .ofRoot) = (.ok (), fresh) ∧
      fresh.scanFiles = (.ok (), once) ∧
      once.finder.registry.findings = final.finder.registry.findings := by
  obtain ⟨roots, hroots, rfl⟩ := (run_ofRoot_iff rfl).1 hstart
  have hrelax : w.files.Relaxes { w.files with denied := [] } := ⟨rfl, rfl, rfl, by simp⟩
  have hrelax' : w'.files.Relaxes { w.files with denied := [] } := by
    rw [hfiles]
    exact ⟨rfl, rfl, rfl, by simp⟩
  have hn : (Table.keys roots).Nodup := by
    refine Roots.nodup_addAll ?_ hroots
    exact List.nodup_nil
  -- the roots are the same whatever is denied
  have hroots' : Roots.addAll w'.files settings.nonRecursiveMarker [] raws = .ok roots := by
    rw [← hroots]
    exact Roots.addAll_congr (hrelax'.canonical.symm.trans hrelax.canonical) _ _ _
  let fresh : Census MemoryCatalog := ⟨{ Finder.new settings with roots }, w'⟩
  let start : Census MemoryCatalog := ⟨{ Finder.new settings with roots }, w⟩
  have hgrounds : start.grounds.deny last = fresh.grounds := by
    simp [start, fresh, grounds, Grounds.deny, hfiles, htypes]
  -- the finder that tried again
  obtain ⟨done, rest, es, hall, hmid⟩ := (midway_fresh (c := start) rfl hn last).retry hdenials
  obtain ⟨done', rest', es', hall', hmid', hrest⟩ := hmid.scan (List.Subset.refl last)
  rw [hfinal] at hmid' hrest
  obtain rfl := hrest rfl
  obtain ⟨hcut, hroll⟩ := hmid'.finished
  have hdone : done' = fresh.finder.roots.toList := by
    simpa [start, fresh] using hall'.trans hall
  rw [hgrounds, hdone] at hcut hroll
  -- the fresh finder
  have hpending : fresh.pending = fresh.finder.roots.toList :=
    (midway_fresh (c := fresh) rfl hn last).pending
  have hreaps := scanFiles_reaps fresh
  rw [hpending] at hreaps
  refine ⟨fresh, fresh.scanFiles.2, (run_ofRoot_iff rfl).2 ⟨roots, hroots', rfl⟩,
    Prod.ext (hreaps.answer.trans (Listing.answer_eq_ok.2 hcut)) rfl, ?_⟩
  change fresh.scanFiles.2.roll.registry.findings = final.roll.registry.findings
  rw [hreaps.roll, hroll]
  exact Roll.findings_enterAll rfl

/-- A directory with a class of its own and another class in a subdirectory. -/
def nested : Tree :=
  .dir [("src".toList, .dir
    [("A.php".toList, .file (Text.utf8 "class A".toList)),
      ("sub".toList, .dir [("B.php".toList, .file (Text.utf8 "class B".toList))])])]

def nestedWorld : World MemoryCatalog := .fresh ⟨nested, [], [], []⟩ ["A".toList, "B".toList]

def nestedStart : Census MemoryCatalog :=
  (run ⟨Finder.new {}, nestedWorld⟩ ([("src".toList, none)].map .ofRoot)).2

/-- The subdirectory is refused at first, which leaves one class registered and the root waiting;
the second try adds the other class. -/
theorem retry_of_nested :
    (nestedStart.deny [["src".toList, "sub".toList]]).scanFiles.1.isOk = false ∧
      ∃ final, ((nestedStart.retry [[["src".toList, "sub".toList]]]).deny []).scanFiles =
          (.ok (), final) ∧
        final.finder.registry.findings.map (·.2.className) = ["A".toList, "B".toList] ∧
        ∃ fresh once, run ⟨Finder.new {}, nestedWorld⟩ ([("src".toList, none)].map .ofRoot) =
            (.ok (), fresh) ∧ fresh.scanFiles = (.ok (), once) ∧
          once.finder.registry.findings = final.finder.registry.findings := by
  have hstart : run ⟨Finder.new {}, nestedWorld⟩ ([("src".toList, none)].map .ofRoot) =
      (.ok (), nestedStart) := Listing.eq_of_isOk (by decide +kernel)
  have hfinal : ((nestedStart.retry [[["src".toList, "sub".toList]]]).deny []).scanFiles =
      (.ok (), ((nestedStart.retry [[["src".toList, "sub".toList]]]).deny []).scanFiles.2) :=
    Listing.eq_of_isOk (by decide +kernel)
  refine ⟨by decide +kernel, _, hfinal, by decide +kernel, ?_⟩
  exact retries_end_as_one_scan hstart (by simp) hfinal rfl rfl

end Census
end ClassCensus
