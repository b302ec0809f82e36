import ClassCensus.Proofs.Calls
import ClassCensus.Proofs.Passing

/-!
# ClassCensus.Proofs.ScanId

The id of a scan, in the log and after the scan.

`Logs P c d` says what any part of an operation may do to the log: it adds events with the property
`P` at the end and leaves the id alone. Two properties of events are of interest. The events of the
scan itself (`Notice.isOfScan`) are told under its id. What the scan of a file tells
(`Notice.IsOfFile`) is told under the id in turn, but without any by a side task, which does not
know it.

* `events_of_scan`: the events of a scan, with one worker and with several.
* `operations_keep_scan_id`: operations leave the id as they find it, however they end.
-/

namespace ClassCensus

namespace Notice

/-- What a scan tells beside the scans of its files. -/
def isOfScan : Notice → Bool
  | scanStarted .. => true
  | rootEnumerated .. => true
  | scanCompleted .. => true
  | classRegistered .. => true
  | duplicateSkipped .. => true
  | _ => false

/-- What the scan of a file tells: of its class or the lack of one, or what the catalog tells when
it is asked about the class. -/
inductive IsOfFile (κ : Type) [TypeCatalog κ] : Notice → Prop where
  | discovered (file className : Text) : IsOfFile κ (classDiscovered file className)
  | undeclared (file : Text) : IsOfFile κ (undeclared file)
  | unresolved (file className : Text) : IsOfFile κ (unresolved file className)
  | catalog (catalog : κ) (identity : Text) {n : Notice}
      (h : n ∈ (TypeCatalog.confirm catalog identity).notices ∨
        n ∈ (TypeCatalog.isLoaded catalog identity).notices) : IsOfFile κ n

end Notice

theorem Walk.isOfScan_of_enumerate {fs : FileSystem} {settings : ScannerSettings}
    {recursive : Bool} {root : Text} {notice : Notice} {files : Listing Text}
    (h : enumerate fs settings recursive root = .ok (notice, files)) : notice.isOfScan = true := by
  simp only [enumerate] at h
  split at h
  · cases h
  · cases h
  · split at h
    · split at h
      · cases h
      · cases h
        rfl
    · cases h

section

variable {κ : Type} [TypeCatalog κ]

theorem Scanner.isOfFile_of_confirm {sep path space name : Text} {catalog : κ} {n : Notice}
    (h : n ∈ (Scanner.confirm sep catalog path space name).notices) : n.IsOfFile κ := by
  have hcatalog : ∀ m ∈ (TypeCatalog.confirm catalog (Identity.join sep space name)).notices,
      m.IsOfFile κ := fun m hm => .catalog catalog _ (.inl hm)
  simp only [confirm] at h
  cases hanswer : (TypeCatalog.confirm catalog (Identity.join sep space name)).answer with
  | error e =>
    rw [hanswer] at h
    exact hcatalog n h
  | ok known =>
    rw [hanswer] at h
    cases known with
    | false =>
      rcases List.mem_append.1 h with hn | hn
      · exact hcatalog n hn
      · cases List.mem_singleton.1 hn
        exact .unresolved _ _
    | true =>
      -- whatever becomes of the record, the class has been told of
      have hfound : ∀ m ∈ (TypeCatalog.confirm catalog (Identity.join sep space name)).notices ++
          [.classDiscovered path (Identity.join sep space name)], m.IsOfFile κ := by
        intro m hm
        rcases List.mem_append.1 hm with hm | hm
        · exact hcatalog m hm
        · cases List.mem_singleton.1 hm
          exact .discovered _ _
      cases hcheck : ClassFacts.check (Identity.join sep space name) name space sep with
      | error m =>
        simp only [hcheck] at h
        exact hfound n h
      | ok _ =>
        simp only [hcheck] at h
        rcases List.mem_append.1 h with hn | hn
        · exact hfound n hn
        · exact .catalog _ _ (.inr hn)

theorem Scanner.isOfFile_of_scan {fs : FileSystem} {settings : ScannerSettings} {catalog : κ}
    {file : Text} {n : Notice} (h : n ∈ (Scanner.scan fs settings catalog file).notices) :
    n.IsOfFile κ := by
  unfold scan at h
  cases hread : headerOf fs settings file with
  | error e =>
    rw [hread] at h
    cases h
  | ok read =>
    obtain ⟨path, header⟩ := read
    rw [hread] at h
    cases hname : header.basename with
    | none =>
      simp only [hname] at h
      cases List.mem_singleton.1 h
      exact .undeclared path
    | some name =>
      simp only [hname] at h
      exact isOfFile_of_confirm h

end

namespace Census

variable {κ : Type}

/-! ## What is added to the log -/

structure Logs (P : Event → Prop) (c d : Census κ) : Prop where
  settings : d.finder.settings = c.finder.settings
  scanId : d.world.scanId = c.world.scanId
  minted : d.world.minted = c.world.minted
  log : ∃ events, d.world.log = c.world.log ++ events ∧ ∀ e ∈ events, P e

namespace Logs

variable {P : Event → Prop} {c d e : Census κ}

theorem refl (c : Census κ) : Logs P c c := ⟨rfl, rfl, rfl, [], by simp⟩

theorem trans (h : Logs P c d) (h' : Logs P d e) : Logs P c e := by
  obtain ⟨first, hfirst, hP⟩ := h.log
  obtain ⟨second, hsecond, hP'⟩ := h'.log
  refine ⟨h'.settings.trans h.settings, h'.scanId.trans h.scanId, h'.minted.trans h.minted,
    first ++ second, ?_, ?_⟩
  · rw [hsecond, hfirst, List.append_assoc]
  · intro event hevent
    rcases List.mem_append.1 hevent with hmem | hmem
    · exact hP event hmem
    · exact hP' event hmem

end Logs

variable {P : Event → Prop}

theorem tell_logs (c : Census κ) (notices : List Notice)
    (h : ∀ n ∈ notices, P ⟨n, c.world.scanId⟩) : Logs P c (c.tell notices) := by
  refine ⟨rfl, rfl, rfl, notices.map fun n => ⟨n, c.world.scanId⟩, rfl, ?_⟩
  intro event hevent
  obtain ⟨n, hn, rfl⟩ := List.mem_map.1 hevent
  exact h n hn

theorem tellAside_logs (c : Census κ) {notices : List Notice} (catalog : κ)
    (h : ∀ n ∈ notices, P ⟨n, none⟩) :
    Logs P c { c with world := { c.world with catalog }.tellAside notices } := by
  refine ⟨rfl, rfl, rfl, notices.map fun n => ⟨n, none⟩, rfl, ?_⟩
  intro event hevent
  obtain ⟨n, hn, rfl⟩ := List.mem_map.1 hevent
  exact h n hn

theorem ask_logs {α : Type} (c : Census κ) (question : κ → Reply κ α)
    (h : ∀ n ∈ (question c.world.catalog).notices, P ⟨n, c.world.scanId⟩) :
    Logs P c { c with world := (c.world.ask question).2 } := by
  refine ⟨rfl, rfl, rfl, (question c.world.catalog).notices.map fun n => ⟨n, c.world.scanId⟩, rfl,
    ?_⟩
  intro event hevent
  obtain ⟨n, hn, rfl⟩ := List.mem_map.1 hevent
  exact h n hn

theorem enroll_logs (c : Census κ) (found : Option ClassFacts)
    (h : ∀ n : Notice, n.isOfScan = true → P ⟨n, c.world.scanId⟩) :
    Logs P c (c.enroll found).2 := by
  cases found with
  | none => exact .refl c
  | some facts =>
    simp only [enroll, Registry.enroll]
    cases c.world.files.fingerprint facts.file with
    | error e => exact .refl c
    | ok key =>
      cases hhas : Table.has c.finder.registry key with
      | true =>
        simp only [hhas, if_true]
        refine ⟨rfl, rfl, rfl, [⟨.duplicateSkipped facts.file key, c.world.scanId⟩], rfl, ?_⟩
        simpa using h _ rfl
      | false =>
        simp only [hhas, Bool.false_eq_true, if_false]
        refine ⟨rfl, rfl, rfl, [⟨.classRegistered facts.className key, c.world.scanId⟩], rfl, ?_⟩
        simpa using h _ rfl

theorem enrollAll_logs (answers : List (Except Failure (Option ClassFacts))) (c : Census κ)
    (h : ∀ n : Notice, n.isOfScan = true → P ⟨n, c.world.scanId⟩) :
    Logs P c (c.enrollAll answers).2 := by
  induction answers generalizing c with
  | nil => exact .refl c
  | cons answer answers ih =>
    cases answer with
    | error e => exact .refl c
    | ok found =>
      have henroll := enroll_logs c found h
      simp only [enrollAll]
      rcases hres : c.enroll found with ⟨e | _, d⟩
      · rw [hres] at henroll
        exact henroll
      · rw [hres] at henroll
        have hid : d.world.scanId = c.world.scanId := henroll.scanId
        exact henroll.trans (ih d (by rwa [hid]))

variable [TypeCatalog κ]

theorem parseInTurn_logs (files : List Text) (c : Census κ)
    (h : ∀ n : Notice, P ⟨n, c.world.scanId⟩) : Logs P c (c.parseInTurn files).2 := by
  induction files generalizing c with
  | nil => exact .refl c
  | cons file files ih =>
    have hask := ask_logs (P := P) c (Scanner.scan c.world.files c.finder.settings · file)
      fun n _ => h n
    simp only [parseInTurn]
    rcases hscan : c.world.ask (Scanner.scan c.world.files c.finder.settings · file) with
      ⟨e | found, w⟩
    · rw [hscan] at hask
      exact hask
    · rw [hscan] at hask
      have hid : w.scanId = c.world.scanId := hask.scanId
      have henroll := hask.trans (enroll_logs { c with world := w } found fun n _ => by
        simpa only [hid] using h n)
      simp only
      rcases hres : enroll { c with world := w } found with ⟨e | _, d⟩
      · rw [hres] at henroll
        exact henroll
      · rw [hres] at henroll
        have hid' : d.world.scanId = c.world.scanId := henroll.scanId
        exact henroll.trans (ih d (by rwa [hid']))

theorem scanAside_logs (files : List Text) (c : Census κ)
    (h : ∀ n : Notice, n.IsOfFile κ → P ⟨n, none⟩) :
    Logs P c { c with world := (scanAside c.finder.settings c.world files).2 } := by
  induction files generalizing c with
  | nil => exact .refl c
  | cons file files ih =>
    let reply := Scanner.scan c.world.files c.finder.settings c.world.catalog file
    have hfile : Logs P c
        { c with world := { c.world with catalog := reply.catalog }.tellAside reply.notices } :=
      tellAside_logs c reply.catalog fun n hn => h n (Scanner.isOfFile_of_scan hn)
    exact hfile.trans (ih _)

/-! ## The events of a scan -/

/-- An event under an id. With several workers the events of the scan itself are under it, and
those of its files under none. -/
def Bears (κ : Type) [TypeCatalog κ] (parallel : Bool) (id : Option ScanId) (e : Event) : Prop :=
  if parallel then
    (e.notice.isOfScan = true ∧ e.scanId = id) ∨ (e.notice.IsOfFile κ ∧ e.scanId = none)
  else e.scanId = id

theorem bears_of_isOfScan (parallel : Bool) (id : Option ScanId) {n : Notice}
    (h : n.isOfScan = true) : Bears κ parallel id ⟨n, id⟩ := by
  cases parallel with
  | true => exact .inl ⟨h, rfl⟩
  | false => rfl

theorem parse_logs (c : Census κ) (files : Listing Text) :
    Logs (Bears κ c.finder.settings.isParallel c.world.scanId) c (c.parse files).2 := by
  unfold parse
  cases hpar : c.finder.settings.isParallel with
  | true =>
    have haside := scanAside_logs (P := Bears κ true c.world.scanId) files.items c
      fun n hn => .inr ⟨hn, rfl⟩
    simp only [if_true]
    rcases hscan : scanAside c.finder.settings c.world files.items with ⟨answers, w⟩
    rw [hscan] at haside
    cases files.cut with
    | some e => exact haside
    | none =>
      have hid : w.scanId = c.world.scanId := haside.scanId
      refine haside.trans (enrollAll_logs answers { c with world := w } fun n hn => ?_)
      rw [show (Census.mk c.finder w).world.scanId = c.world.scanId from hid]
      exact bears_of_isOfScan true _ hn
  | false =>
    have hturn := parseInTurn_logs (P := Bears κ false c.world.scanId) files.items c fun n => rfl
    simp only [Bool.false_eq_true, if_false]
    rcases hres : c.parseInTurn files.items with ⟨e | _, d⟩
    · rw [hres] at hturn
      exact hturn
    · rw [hres] at hturn
      cases files.cut <;> exact hturn

theorem scanRoot_logs (c : Census κ) (root : Root) :
    Logs (Bears κ c.finder.settings.isParallel c.world.scanId) c (c.scanRoot root).2 := by
  have hstart := tell_logs (P := Bears κ c.finder.settings.isParallel c.world.scanId) c
    [.scanStarted root.path root.recursive]
    fun n hn => bears_of_isOfScan _ _ (List.mem_singleton.1 hn ▸ rfl)
  simp only [scanRoot]
  rcases henum : Walk.enumerate (c.tell [.scanStarted root.path root.recursive]).world.files
      (c.tell [.scanStarted root.path root.recursive]).finder.settings root.recursive root.path with
    e | ⟨notice, files⟩
  · exact hstart
  · have hlisted := hstart.trans (tell_logs (c.tell [.scanStarted root.path root.recursive])
      [notice] fun n hn =>
        bears_of_isOfScan _ _ (List.mem_singleton.1 hn ▸ Walk.isOfScan_of_enumerate henum))
    have hparse := hlisted.trans
      (parse_logs ((c.tell [.scanStarted root.path root.recursive]).tell [notice]) files)
    simp only
    rcases hres : ((c.tell [.scanStarted root.path root.recursive]).tell [notice]).parse files with
      ⟨e | _, d⟩
    · rw [hres] at hparse
      exact hparse
    · rw [hres] at hparse
      have hid : d.world.scanId = c.world.scanId := hparse.scanId
      refine hparse.trans (d := d) ⟨rfl, rfl, rfl, [⟨_, d.world.scanId⟩], rfl, ?_⟩
      intro event hevent
      cases List.mem_singleton.1 hevent
      rw [hid]
      exact bears_of_isOfScan _ _ rfl

theorem scanRoots_logs (roots : List Root) (c : Census κ) :
    Logs (Bears κ c.finder.settings.isParallel c.world.scanId) c (c.scanRoots roots).2 := by
  induction roots generalizing c with
  | nil => exact .refl c
  | cons root roots ih =>
    have hroot := scanRoot_logs c root
    simp only [scanRoots]
    rcases hres : c.scanRoot root with ⟨e | _, d⟩
    · rw [hres] at hroot
      exact hroot
    · rw [hres] at hroot
      have hrest := ih d
      have hsettings : d.finder.settings = c.finder.settings := hroot.settings
      have hid : d.world.scanId = c.world.scanId := hroot.scanId
      rw [hsettings, hid] at hrest
      exact hroot.trans hrest

/-- Every event of a scan made in turn is under one id: the one the caller has set, or else the next
one to be minted, which is used up by it. If the scan is made side by side this holds of the events
of the scan itself; those of its files are under no id. -/
theorem events_of_scan (c : Census κ) :
    let id := c.world.scanId.getD (.minted c.world.minted)
    ∃ events, c.scanFiles.2.world.log = c.world.log ++ events ∧
      (c.finder.settings.isParallel = false → ∀ e ∈ events, e.scanId = some id) ∧
      (c.finder.settings.isParallel = true → ∀ e ∈ events,
        (e.notice.isOfScan = true ∧ e.scanId = some id) ∨
          (e.notice.IsOfFile κ ∧ e.scanId = none)) ∧
      (c.world.scanId = none → events ≠ [] → c.world.minted < c.scanFiles.2.world.minted) := by
  intro id
  obtain ⟨events, hlog, hbears, hminted⟩ : ∃ events,
      c.scanFiles.2.world.log = c.world.log ++ events ∧
      (∀ e ∈ events, Bears κ c.finder.settings.isParallel (some id) e) ∧
      (c.world.scanId = none → events ≠ [] → c.world.minted < c.scanFiles.2.world.minted) := by
    unfold scanFiles
    cases c.pending with
    | nil => exact ⟨[], by simp, by simp, by simp⟩
    | cons root roots =>
      cases hid : c.world.scanId with
      | some given =>
        obtain ⟨events, hlog, hbears⟩ := (scanRoots_logs (root :: roots) c).log
        rw [hid] at hbears
        exact ⟨events, hlog, by simpa [id, hid] using hbears, by simp⟩
      | none =>
        -- the scan runs under the id it has minted, and only then is the id cleared
        have hscan := scanRoots_logs (root :: roots) { c with world := c.world.setScanId none }
        obtain ⟨events, hlog, hbears⟩ := hscan.log
        have hcount : (scanRoots { c with world := c.world.setScanId none }
            (root :: roots)).2.world.minted = c.world.minted + 1 := hscan.minted
        refine ⟨events, hlog, by simpa [id, hid, World.setScanId] using hbears, fun _ _ => ?_⟩
        show c.world.minted < (scanRoots { c with world := c.world.setScanId none }
          (root :: roots)).2.world.minted
        omega
  refine ⟨events, hlog, fun hpar => ?_, fun hpar => ?_, hminted⟩
  · intro e he
    have he' := hbears e he
    rw [hpar] at he'
    exact he'
  · intro e he
    have he' := hbears e he
    rw [hpar] at he'
    exact he'

/-- A directory with one class, to be scanned by two workers under an id of the caller. -/
def shared : Census MemoryCatalog :=
  let tree : Tree := .dir [("src".toList, .dir
    [("A.php".toList, .file (Text.utf8 "class A".toList))])]
  let finder := Finder.new { maxWorkers := 2 }
  ⟨{ finder with roots := [("/src".toList, true)] },
    (World.fresh ⟨tree, [], [], []⟩ ["A".toList]).setScanId (some "run".toList)⟩

/-- With one worker all five events are under the caller's id. -/
theorem one_worker_under_scan_id :
    (shared.withWorkers 1).scanFiles.2.world.log.length = 5 ∧
      ∀ e ∈ (shared.withWorkers 1).scanFiles.2.world.log,
        e.scanId = some (.given "run".toList) := by
  obtain ⟨events, hlog, hturn, -⟩ := events_of_scan (shared.withWorkers 1)
  refine ⟨by decide +kernel, ?_⟩
  rw [hlog]
  exact hturn rfl

/-- With two the event that tells of the class is not. -/
theorem side_task_without_scan_id :
    shared.scanFiles.2.world.log.map (fun e => (e.notice.title, e.scanId)) =
      [("scan_started".toList, some (.given "run".toList)),
        ("root_enumerated".toList, some (.given "run".toList)),
        ("class_discovered".toList, none),
        ("class_registered".toList, some (.given "run".toList)),
        ("scan_completed".toList, some (.given "run".toList))] := by
  decide +kernel

end Census

/-! ## The id after an operation -/

section

variable {κ : Type} [TypeCatalog κ]

theorem World.reflect_scanId (w : World κ) (record : Record) :
    (w.reflect record).2.scanId = w.scanId := by
  unfold reflect
  cases w.ledger.remembered? record with
  | some reflection => rfl
  | none =>
    simp only [ask]
    cases (TypeCatalog.reflect w.catalog record.facts.className).answer <;> rfl

namespace Filter

theorem passes_scanId (f : Filter) (w : World κ) (record : Record) :
    (f.passes w record).2.scanId = w.scanId := by
  have hreflect := w.reflect_scanId record
  rw [passes_eq]
  split
  · rfl
  · rcases hres : w.reflect record with ⟨e | reflection, w'⟩
    · rw [hres] at hreflect
      exact hreflect
    · rw [hres] at hreflect
      exact hreflect

theorem select_scanId (f : Filter) (records : List (Text × Record)) (w : World κ) :
    (f.select w records).2.scanId = w.scanId := by
  induction records generalizing w with
  | nil => rfl
  | cons entry records ih =>
    obtain ⟨key, record⟩ := entry
    have hpasses := f.passes_scanId w record
    simp only [select]
    rcases hres : f.passes w record with ⟨e | kept, w'⟩
    · rw [hres] at hpasses
      exact hpasses
    · rw [hres] at hpasses
      exact (ih w').trans hpasses

theorem confirmAll_scanId (names : List Text) (w : World κ) :
    (confirmAll w names).2.scanId = w.scanId := by
  induction names generalizing w with
  | nil => rfl
  | cons name names ih =>
    simp only [confirmAll, World.ask]
    cases (TypeCatalog.confirm w.catalog name).answer with
    | error e => rfl
    | ok known =>
      cases known with
      | false => rfl
      | true => exact ih _

theorem require_scanId (f : Filter) (sep : Text) (w : World κ) (types : List TypeArg)
    (requireAll : Bool) : (f.require sep w types requireAll).2.scanId = w.scanId := by
  have hconfirm := confirmAll_scanId (types.map (·.identity sep)) w
  simp only [require]
  rcases hres : confirmAll w (types.map (·.identity sep)) with ⟨e | _, w'⟩
  · rw [hres] at hconfirm
    simp only [hres]
    exact hconfirm
  · rw [hres] at hconfirm
    simp only [hres]
    exact hconfirm

end Filter

end

/-- An operation of a census. -/
inductive Operation where
  | roots (call : RootCall)
  | requireAttributes (types : List TypeArg) (requireAll : Bool)
  | parseFiles (files : List Text)
  | matching

/-- What a caller may do: set or clear the id of the scan, or ask for an operation. -/
inductive Move where
  | setScanId (id : Option Text)
  | clearScanId
  | operation (op : Operation)

namespace Census

variable {κ : Type} [TypeCatalog κ]

def operate (c : Census κ) : Operation → Except Failure Unit × Census κ
  | .roots call => c.perform call
  | .requireAttributes types requireAll => c.requireAttributes types requireAll
  | .parseFiles files => c.parseFiles files
  | .matching =>
    match c.matching with
    | (.error e, c) => (.error e, c)
    | (.ok found, c) => (found.answer, c)

def move (c : Census κ) : Move → Census κ
  | .setScanId id => { c with world := c.world.setScanId id }
  | .clearScanId => { c with world := c.world.clearScanId }
  | .operation op => (c.operate op).2

/-- The census after moves, whatever has become of each. -/
def moves (c : Census κ) (run : List Move) : Census κ := run.foldl move c

theorem scanFiles_scanId (c : Census κ) : c.scanFiles.2.world.scanId = c.world.scanId := by
  unfold scanFiles
  cases c.pending with
  | nil => rfl
  | cons root roots =>
    cases hid : c.world.scanId with
    | some id =>
      have hscan := (scanRoots_logs (root :: roots) c).scanId
      rw [hid] at hscan
      exact hscan
    | none => rfl

omit [TypeCatalog κ] in
theorem addRoot_scanId (c : Census κ) (path : Text) (recursive : Option Bool) :
    (c.addRoot path recursive).2.world.scanId = c.world.scanId := by
  simp only [addRoot]
  cases Roots.add c.world.files c.finder.settings.nonRecursiveMarker c.finder.roots path recursive <;>
    rfl

theorem perform_scanId (c : Census κ) (call : RootCall) :
    (c.perform call).2.world.scanId = c.world.scanId := by
  cases call with
  | add path recursive => exact addRoot_scanId c path recursive
  | scanFiles => exact scanFiles_scanId c
  | count =>
    rw [perform_of_root?_eq_none rfl]
    exact scanFiles_scanId c
  | all =>
    rw [perform_of_root?_eq_none rfl]
    exact scanFiles_scanId c

theorem matching_scanId (c : Census κ) : c.matching.2.world.scanId = c.world.scanId := by
  have hscan := scanFiles_scanId c
  simp only [matching, all]
  rcases hres : c.scanFiles with ⟨e | _, d⟩
  · rw [hres] at hscan
    exact hscan
  · rw [hres] at hscan
    exact (d.finder.filter.select_scanId d.finder.registry d.world).trans hscan

theorem operate_scanId (c : Census κ) (op : Operation) :
    (c.operate op).2.world.scanId = c.world.scanId := by
  cases op with
  | roots call => exact perform_scanId c call
  | requireAttributes types requireAll =>
    have hrequire := c.finder.filter.require_scanId c.finder.settings.namespaceSeparator c.world
      types requireAll
    simp only [operate, requireAttributes]
    rcases hres : c.finder.filter.require c.finder.settings.namespaceSeparator c.world types
        requireAll with ⟨e | filter, w⟩
    · rw [hres] at hrequire
      exact hrequire
    · rw [hres] at hrequire
      exact hrequire
  | parseFiles files => exact (parse_logs c ⟨files, none⟩).scanId
  | matching =>
    have hmatching := matching_scanId c
    simp only [operate]
    rcases hres : c.matching with ⟨e | found, d⟩
    · rw [hres] at hmatching
      exact hmatching
    · rw [hres] at hmatching
      exact hmatching

/-- After any run, operations leave the id of the scan as they find it, those that fail included. -/
theorem operations_keep_scan_id (c : Census κ) (run : List Move) (operations : List Operation) :
    (c.moves (run ++ operations.map .operation)).world.scanId = (c.moves run).world.scanId := by
  rw [moves, List.foldl_append]
  show ((c.moves run).moves (operations.map .operation)).world.scanId = _
  generalize c.moves run = d
  induction operations generalizing d with
  | nil => rfl
  | cons op operations ih =>
    have hfirst := operate_scanId d op
    exact (ih (d.operate op).2).trans hfirst

end Census
end ClassCensus
