import ClassCensus.Proofs.Harvest

/-!
# ClassCensus.Proofs.SideTasks

Files scanned side by side, one step of one task at a time.

* `Stage` — how far the scan of a file has come: its header is read, the catalog confirms what the
  header declares, and the catalog is asked whether that is loaded.
* `Pool` — the tasks of all files beside the census, with a collector that takes the answers in
  the order of the files.
* `Pool.Step` — any task may advance at any time, however many are under way; the collector takes
  the first answer once it is there, and ends at the first failure or when no task is left. Tasks
  may still advance then, or never.

Confirming only ever loads, so what a task answers does not depend on the others
(`advance_fits`). Every order of steps therefore ends as scanning the files in turn does.
-/

namespace ClassCensus

inductive Stage where
  | waiting
  | read (path space name : Text)
  | confirmed (path space name : Text)
  | done (answer : Except Failure (Option ClassFacts))

namespace Stage

/-- A stage, the catalog, and what was told to the log on the way there. -/
structure Advance (κ : Type) where
  stage : Stage
  catalog : κ
  notices : List Notice

section

variable {κ : Type} [TypeCatalog κ] (fs : FileSystem) (settings : ScannerSettings) (file : Text)

def readFile (catalog : κ) : Advance κ :=
  match Scanner.headerOf fs settings file with
  | .error e => ⟨.done (.error e), catalog, []⟩
  | .ok (path, header) =>
    match header.basename with
    | none => ⟨.done (.ok none), catalog, [.undeclared path]⟩
    | some name =>
      ⟨.read path (Scanner.spaceOf settings.namespaceSeparator header) name, catalog, []⟩

def confirmName (catalog : κ) (path space name : Text) : Advance κ :=
  let identity := Identity.join settings.namespaceSeparator space name
  let reply := TypeCatalog.confirm catalog identity
  match reply.answer with
  | .error e => ⟨.done (.error e), reply.catalog, reply.notices⟩
  | .ok false => ⟨.done (.ok none), reply.catalog, reply.notices ++ [.unresolved path identity]⟩
  | .ok true =>
    ⟨.confirmed path space name, reply.catalog, reply.notices ++ [.classDiscovered path identity]⟩

/-- Makes the facts of a confirmed class, as the catalog stands. -/
def makeFacts (catalog : κ) (path space name : Text) : Advance κ :=
  let sep := settings.namespaceSeparator
  let identity := Identity.join sep space name
  match ClassFacts.check identity name space sep with
  | .error m => ⟨.done (.error (.misuse m)), catalog, []⟩
  | .ok () =>
    let reply := TypeCatalog.isLoaded catalog identity
    ⟨.done (reply.answer.map fun loaded => some ⟨identity, name, space, path, sep, loaded⟩),
      reply.catalog, reply.notices⟩

/-- The next step of a task, unless it is done. -/
def advance (catalog : κ) : Stage → Option (Advance κ)
  | .waiting => some (readFile fs settings file catalog)
  | .read path space name => some (confirmName settings catalog path space name)
  | .confirmed path space name => some (makeFacts settings catalog path space name)
  | .done _ => none

/-- The number of steps a task has left at most. -/
def left : Stage → Nat
  | .waiting => 3
  | .read .. => 2
  | .confirmed .. => 1
  | .done _ => 0

theorem advance_left {fs : FileSystem} {settings : ScannerSettings} {file : Text} {catalog : κ}
    {stage : Stage} {a : Advance κ} (h : advance fs settings file catalog stage = some a) :
    a.stage.left < stage.left := by
  cases stage with
  | waiting =>
    cases h
    unfold readFile
    split
    · simp [left]
    · split <;> simp [left]
  | read path space name =>
    cases h
    simp only [confirmName]
    split <;> simp [left]
  | confirmed path space name =>
    cases h
    simp only [makeFacts]
    split <;> simp [left]
  | done answer => cases h

end

end Stage

/-- Side tasks at work. The census holds the shared catalog and the registry; `tasks` are those
whose answers have not been taken, and `outcome` is there once the collector has ended. -/
structure Pool (κ : Type) where
  census : Census κ
  tasks : List (Text × Stage)
  outcome : Option (Except Failure Unit)

namespace Pool

variable {κ : Type}

def start (c : Census κ) (files : List Text) : Pool κ := ⟨c, files.map (·, .waiting), none⟩

def advanced (c : Census κ) (a : Stage.Advance κ) : Census κ :=
  { c with world := { c.world with catalog := a.catalog }.tellAside a.notices }

@[simp] theorem advanced_finder (c : Census κ) (a : Stage.Advance κ) :
    (advanced c a).finder = c.finder := rfl

@[simp] theorem advanced_catalog (c : Census κ) (a : Stage.Advance κ) :
    (advanced c a).world.catalog = a.catalog := rfl

theorem advanced_advanced (c : Census κ) (a b : Stage.Advance κ) :
    advanced (advanced c a) b = advanced c ⟨b.stage, b.catalog, a.notices ++ b.notices⟩ := by
  simp [advanced, World.tellAside]

variable [TypeCatalog κ]

inductive Step : Pool κ → Pool κ → Prop where
  | work {c : Census κ} {before after : List (Text × Stage)} {file : Text} {stage : Stage}
      {a : Stage.Advance κ} {outcome : Option (Except Failure Unit)} :
      stage.advance c.world.files c.finder.settings file c.world.catalog = some a →
      Step ⟨c, before ++ (file, stage) :: after, outcome⟩
        ⟨advanced c a, before ++ (file, a.stage) :: after, outcome⟩
  | collect {c d : Census κ} {file : Text} {found : Option ClassFacts}
      {rest : List (Text × Stage)} :
      c.enroll found = (.ok (), d) →
      Step ⟨c, (file, .done (.ok found)) :: rest, none⟩ ⟨d, rest, none⟩
  | refuse {c d : Census κ} {file : Text} {found : Option ClassFacts}
      {rest : List (Text × Stage)} {e : Failure} :
      c.enroll found = (.error e, d) →
      Step ⟨c, (file, .done (.ok found)) :: rest, none⟩ ⟨d, rest, some (.error e)⟩
  | fail {c : Census κ} {file : Text} {rest : List (Text × Stage)} {e : Failure} :
      Step ⟨c, (file, .done (.error e)) :: rest, none⟩ ⟨c, rest, some (.error e)⟩
  | finish {c : Census κ} : Step ⟨c, [], none⟩ ⟨c, [], some (.ok ())⟩

inductive Steps : Pool κ → Pool κ → Prop where
  | refl {p : Pool κ} : Steps p p
  | cons {p q r : Pool κ} : Step p q → Steps q r → Steps p r

namespace Steps

theorem single {p q : Pool κ} (h : Step p q) : Steps p q := .cons h .refl

theorem trans {p q r : Pool κ} (h₁ : Steps p q) (h₂ : Steps q r) : Steps p r := by
  induction h₁ with
  | refl => exact h₂
  | cons h _ ih => exact .cons h (ih h₂)

/-- What every step keeps, every run keeps. -/
theorem keeps {P : Pool κ → Prop} (hstep : ∀ p q, Step p q → P p → P q) {p q : Pool κ}
    (h : Steps p q) (hp : P p) : P q := by
  induction h with
  | refl => exact hp
  | cons h _ ih => exact ih (hstep _ _ h hp)

end Steps

/-! ## Runs that end -/

/-- A task can be brought to its end while the others rest. -/
theorem task_ends (file : Text) (before after : List (Text × Stage))
    (outcome : Option (Except Failure Unit)) (stage : Stage) (c : Census κ) :
    ∃ d answer, Steps ⟨c, before ++ (file, stage) :: after, outcome⟩
      ⟨d, before ++ (file, .done answer) :: after, outcome⟩ := by
  induction hn : stage.left using Nat.strongRecOn generalizing stage c with
  | ind n ih =>
    cases hadv : stage.advance c.world.files c.finder.settings file c.world.catalog with
    | none =>
      cases stage with
      | done answer => exact ⟨c, answer, .refl⟩
      | waiting => cases hadv
      | read path space name => cases hadv
      | confirmed path space name => cases hadv
    | some a =>
      have hlt := Stage.advance_left hadv
      obtain ⟨d, answer, hrest⟩ := ih a.stage.left (hn ▸ hlt) a.stage (advanced c a) rfl
      exact ⟨d, answer, .cons (.work hadv) hrest⟩

theorem collector_ends (tasks : List (Text × Stage)) (c : Census κ) :
    ∃ p, Steps ⟨c, tasks, none⟩ p ∧ p.outcome.isSome = true := by
  induction tasks generalizing c with
  | nil => exact ⟨_, .single .finish, rfl⟩
  | cons task tasks ih =>
    obtain ⟨file, stage⟩ := task
    obtain ⟨d, answer, hdone⟩ := task_ends file [] tasks none stage c
    cases answer with
    | error e => exact ⟨_, hdone.trans (.single .fail), rfl⟩
    | ok found =>
      rcases hres : d.enroll found with ⟨e | _, d'⟩
      · exact ⟨_, hdone.trans (.single (.refuse hres)), rfl⟩
      · obtain ⟨p, hp, hout⟩ := ih d'
        exact ⟨p, hdone.trans (.cons (.collect hres) hp), hout⟩

/-- No order of steps leaves the collector without a way to its end. -/
theorem can_end (p : Pool κ) : ∃ q, Steps p q ∧ q.outcome.isSome = true := by
  obtain ⟨c, tasks, _ | a⟩ := p
  · exact collector_ends tasks c
  · exact ⟨_, .refl, rfl⟩

/-! ## The run task by task -/

/-- The steps of a task that is not disturbed are the scan of its file. -/
theorem scan_steps (file : Text) (before after : List (Text × Stage))
    (outcome : Option (Except Failure Unit)) (c : Census κ) (reply : Reply κ (Option ClassFacts))
    (hreply : Scanner.scan c.world.files c.finder.settings c.world.catalog file = reply) :
    Steps ⟨c, before ++ (file, .waiting) :: after, outcome⟩
      ⟨advanced c ⟨.waiting, reply.catalog, reply.notices⟩,
        before ++ (file, .done reply.answer) :: after, outcome⟩ := by
  subst hreply
  refine .cons (.work rfl) ?_
  unfold Stage.readFile Scanner.scan
  cases Scanner.headerOf c.world.files c.finder.settings file with
  | error e => exact .refl
  | ok read =>
    obtain ⟨path, header⟩ := read
    cases hname : header.basename with
    | none => simp only [hname]; exact .refl
    | some name =>
      simp only [hname]
      refine .cons (.work rfl) ?_
      set space := Scanner.spaceOf c.finder.settings.namespaceSeparator header
      set identity := Identity.join c.finder.settings.namespaceSeparator space name with hid
      simp only [advanced_advanced, advanced_finder, advanced_catalog, Stage.confirmName,
        Scanner.confirm, ← hid, List.nil_append]
      set reply := TypeCatalog.confirm c.world.catalog identity
      cases hanswer : reply.answer with
      | error e => exact .refl
      | ok known =>
        cases known with
        | false => exact .refl
        | true =>
          refine .cons (.work rfl) ?_
          simp only [advanced_advanced, advanced_finder, advanced_catalog, Stage.makeFacts, ← hid]
          cases ClassFacts.check identity name space c.finder.settings.namespaceSeparator with
          | error m => simp only [List.append_nil]; exact .refl
          | ok u => exact .refl

theorem scanAside_steps (settings : ScannerSettings) (files : List Text)
    (before : List (Text × Stage)) (c : Census κ) (hset : c.finder.settings = settings) :
    ∃ answers : List (Text × Except Failure (Option ClassFacts)),
      answers.map Prod.snd = (Census.scanAside settings c.world files).1 ∧
      Steps ⟨c, before ++ files.map (·, .waiting), none⟩
        ⟨{ c with world := (Census.scanAside settings c.world files).2 },
          before ++ answers.map fun t => (t.1, .done t.2), none⟩ := by
  induction files generalizing before c with
  | nil => exact ⟨[], rfl, .refl⟩
  | cons file files ih =>
    subst hset
    set reply := Scanner.scan c.world.files c.finder.settings c.world.catalog file with hreply
    have hscan := scan_steps file before (files.map (·, .waiting)) none c reply hreply.symm
    obtain ⟨answers, hmap, hrest⟩ := ih (before ++ [(file, .done reply.answer)])
      (advanced c ⟨.waiting, reply.catalog, reply.notices⟩) rfl
    refine ⟨(file, reply.answer) :: answers, ?_, ?_⟩
    · simp only [List.map_cons, Census.scanAside, hmap]
      rfl
    · simp only [List.append_assoc, List.cons_append, List.nil_append] at hrest
      exact hscan.trans hrest

theorem enrollAll_steps (answers : List (Text × Except Failure (Option ClassFacts)))
    (c : Census κ) :
    ∃ tasks, Steps ⟨c, answers.map fun t => (t.1, .done t.2), none⟩
      ⟨(c.enrollAll (answers.map Prod.snd)).2, tasks,
        some (c.enrollAll (answers.map Prod.snd)).1⟩ := by
  induction answers generalizing c with
  | nil => exact ⟨[], .single .finish⟩
  | cons t answers ih =>
    obtain ⟨file, answer⟩ := t
    cases answer with
    | error e => exact ⟨_, .single .fail⟩
    | ok found =>
      simp only [List.map_cons, Census.enrollAll]
      rcases hres : c.enroll found with ⟨e | _, d⟩
      · exact ⟨_, .single (.refuse hres)⟩
      · obtain ⟨tasks, hrest⟩ := ih d
        exact ⟨tasks, .cons (.collect hres) hrest⟩

/-- Scanning side by side, as the census does it, is one of the runs. -/
theorem parseFiles_steps (c : Census κ) (files : List Text)
    (hpar : c.finder.settings.isParallel = true) :
    ∃ tasks, Steps (start c files)
      ⟨(c.parseFiles files).2, tasks, some (c.parseFiles files).1⟩ := by
  obtain ⟨answers, hmap, hscan⟩ := scanAside_steps c.finder.settings files [] c rfl
  obtain ⟨tasks, hcollect⟩ := enrollAll_steps answers
    { c with world := (Census.scanAside c.finder.settings c.world files).2 }
  rw [hmap] at hcollect
  refine ⟨tasks, ?_⟩
  simp only [Census.parseFiles, Census.parse, hpar, if_true]
  exact hscan.trans hcollect

end Pool

/-! ## Tasks do not disturb each other -/

namespace Grounds

theorem found_of_header {g : Grounds} {file path name : Text} {header : Source.Header}
    (hh : Scanner.headerOf g.files g.settings file = .ok (path, header))
    (hn : header.basename = some name) : g.found file = g.facts path name header := by
  simp [found, hh, hn]

theorem loads_of_header {g : Grounds} {file path name : Text} {header : Source.Header}
    (hh : Scanner.headerOf g.files g.settings file = .ok (path, header))
    (hn : header.basename = some name) :
    g.loads file = (some (Identity.join g.settings.namespaceSeparator
      (Scanner.spaceOf g.settings.namespaceSeparator header) name)).filter (Table.has g.types) := by
  simp [loads, hh, confirmed?, identity?, hn]

end Grounds

namespace Stage

/-- What the stage of a task says of its file and of the catalog. -/
def Fits (g : Grounds) (catalog : MemoryCatalog) (file : Text) : Stage → Prop
  | .waiting => True
  | .read path space name =>
    ∃ header, Scanner.headerOf g.files g.settings file = .ok (path, header) ∧
      header.basename = some name ∧ space = Scanner.spaceOf g.settings.namespaceSeparator header
  | .confirmed path space name =>
    ∃ header, Scanner.headerOf g.files g.settings file = .ok (path, header) ∧
      header.basename = some name ∧
      space = Scanner.spaceOf g.settings.namespaceSeparator header ∧
      Table.has g.types (Identity.join g.settings.namespaceSeparator space name) = true ∧
      Identity.join g.settings.namespaceSeparator space name ∈ catalog.loaded
  | .done answer => answer = g.found file ∧ ∀ i, g.loads file = some i → i ∈ catalog.loaded

variable {g : Grounds} {c d : MemoryCatalog} {file : Text} {stage : Stage}

theorem Fits.mono (h : Fits g c file stage) (hl : c.loaded ⊆ d.loaded) : Fits g d file stage := by
  cases stage with
  | waiting => trivial
  | read path space name => exact h
  | confirmed path space name =>
    obtain ⟨header, hh, hn, hs, ht, hi⟩ := h
    exact ⟨header, hh, hn, hs, ht, hl hi⟩
  | done answer => exact ⟨h.1, fun i hi => hl (h.2 i hi)⟩

/-- What one step of a task does to the catalog: it loads at most what its file declares. -/
structure LoadsAtMost (g : Grounds) (file : Text) (c d : MemoryCatalog) : Prop where
  types : d.types = c.types
  grows : c.loaded ⊆ d.loaded
  only : ∀ i ∈ d.loaded, i ∈ c.loaded ∨ g.loads file = some i

theorem LoadsAtMost.refl (g : Grounds) (file : Text) (c : MemoryCatalog) : LoadsAtMost g file c c :=
  ⟨rfl, List.Subset.refl _, fun _ hi => .inl hi⟩

theorem readFile_fits (g : Grounds) (file : Text) (c : MemoryCatalog) :
    LoadsAtMost g file c (readFile g.files g.settings file c).catalog ∧
      Fits g (readFile g.files g.settings file c).catalog file
        (readFile g.files g.settings file c).stage := by
  unfold readFile
  cases hh : Scanner.headerOf g.files g.settings file with
  | error e =>
    refine ⟨.refl _ _ _, ?_, ?_⟩
    · simp [Grounds.found, hh]
    · simp [Grounds.loads, hh]
  | ok read =>
    obtain ⟨path, header⟩ := read
    cases hn : header.basename with
    | none =>
      simp only [hn]
      refine ⟨.refl _ _ _, ?_, ?_⟩
      · simp [Grounds.found, hh, hn]
      · simp [Grounds.loads, hh, Grounds.confirmed?, Grounds.identity?, hn]
    | some name =>
      simp only [hn]
      exact ⟨.refl _ _ _, header, hh, hn, rfl⟩

theorem confirmName_fits {path space name : Text} (hc : c.types = g.types)
    (h : Fits g c file (.read path space name)) :
    LoadsAtMost g file c (confirmName g.settings c path space name).catalog ∧
      Fits g (confirmName g.settings c path space name).catalog file
        (confirmName g.settings c path space name).stage := by
  obtain ⟨header, hh, hn, rfl⟩ := h
  have hloads := Grounds.loads_of_header hh hn
  set space := Scanner.spaceOf g.settings.namespaceSeparator header with hspace
  set identity := Identity.join g.settings.namespaceSeparator space name with hid
  simp only [confirmName, TypeCatalog.confirm, MemoryCatalog.confirm, MemoryCatalog.contains, hc,
    ← hid]
  cases ht : Table.has g.types identity with
  | false =>
    simp only [Bool.false_eq_true, if_false]
    refine ⟨.refl _ _ _, ?_, ?_⟩
    · rw [Grounds.found_of_header hh hn]
      simp [Grounds.facts, ← hspace, ← hid, ht]
    · simp [hloads, Option.filter_some, ht]
  | true =>
    simp only [if_true]
    refine ⟨⟨by simp, fun i hi => MemoryCatalog.mem_load.2 (.inl hi), fun i hi => ?_⟩,
      header, hh, hn, hspace, ht, MemoryCatalog.mem_load.2 (.inr rfl)⟩
    rcases MemoryCatalog.mem_load.1 hi with hi | rfl
    · exact .inl hi
    · exact .inr (by simp [hloads, Option.filter_some, ht])

theorem makeFacts_fits {path space name : Text} (h : Fits g c file (.confirmed path space name)) :
    LoadsAtMost g file c (makeFacts g.settings c path space name).catalog ∧
      Fits g (makeFacts g.settings c path space name).catalog file
        (makeFacts g.settings c path space name).stage := by
  obtain ⟨header, hh, hn, rfl, ht, hi⟩ := h
  have hloads := Grounds.loads_of_header hh hn
  have hfound := Grounds.found_of_header hh hn
  set space := Scanner.spaceOf g.settings.namespaceSeparator header with hspace
  set identity := Identity.join g.settings.namespaceSeparator space name with hid
  have hloaded : c.isLoaded identity = true := by simpa [MemoryCatalog.isLoaded] using hi
  have hmine : ∀ i, g.loads file = some i → i ∈ c.loaded := by
    intro i hl
    rw [hloads, Option.filter_some, if_pos ht] at hl
    cases hl
    exact hi
  simp only [makeFacts, ← hid, TypeCatalog.isLoaded, hloaded]
  simp only [Grounds.facts, ← hspace, ← hid, ht, if_true] at hfound
  cases hcheck : ClassFacts.check identity name space g.settings.namespaceSeparator with
  | error m =>
    rw [hcheck] at hfound
    exact ⟨.refl _ _ _, hfound.symm, hmine⟩
  | ok u =>
    rw [hcheck] at hfound
    exact ⟨.refl _ _ _, hfound.symm, hmine⟩

/-- A step of a task keeps what its stage says, whatever the other tasks have loaded. -/
theorem advance_fits {a : Advance MemoryCatalog} (hc : c.types = g.types)
    (hfit : Fits g c file stage) (h : advance g.files g.settings file c stage = some a) :
    LoadsAtMost g file c a.catalog ∧ Fits g a.catalog file a.stage := by
  cases stage with
  | waiting =>
    cases h
    exact readFile_fits g file c
  | read path space name =>
    cases h
    exact confirmName_fits hc hfit
  | confirmed path space name =>
    cases h
    exact makeFacts_fits hfit
  | done answer => cases h

end Stage

/-! ## Every order of steps -/

namespace Pool

/-- What holds at all times of the tasks for `files` that were started from `c`. -/
structure Sound (c : Census MemoryCatalog) (files : List Text) (p : Pool MemoryCatalog) :
    Prop where
  grounds : p.census.grounds = c.grounds
  own : ∀ t ∈ p.tasks, t.1 ∈ files
  stages : ∀ t ∈ p.tasks, t.2.Fits c.grounds p.census.world.catalog t.1
  kept : c.world.catalog.loaded ⊆ p.census.world.catalog.loaded
  only : ∀ i ∈ p.census.world.catalog.loaded,
    i ∈ c.world.catalog.loaded ∨ ∃ file ∈ files, c.grounds.loads file = some i

/-- All that some files declare has been loaded. -/
def Loaded (c : Census MemoryCatalog) (files : List Text) (p : Pool MemoryCatalog) : Prop :=
  ∀ file ∈ files, ∀ i, c.grounds.loads file = some i → i ∈ p.census.world.catalog.loaded

/-- How far the collector has come: it has entered what the files taken so far hold, or it has
ended as a scan of the files in turn ends. -/
def Collected (c : Census MemoryCatalog) (files : List Text) (p : Pool MemoryCatalog) : Prop :=
  match p.outcome with
  | none => ∃ taken, taken ++ p.tasks.map Prod.fst = files ∧
      (c.grounds.harvest taken).cut = none ∧
      p.census.roll = c.roll.enterAll (c.grounds.harvest taken).items ∧ Loaded c taken p
  | some a => a = (c.grounds.harvest files).answer ∧
      p.census.roll = c.roll.enterAll (c.grounds.harvest files).items ∧
      (a = .ok () → Loaded c files p)

variable {c : Census MemoryCatalog} {files : List Text} {p q : Pool MemoryCatalog}

theorem start_sound (c : Census MemoryCatalog) (files : List Text) : Sound c files (start c files) where
  grounds := rfl
  own := by simp [start]
  stages := by simp [start, Stage.Fits]
  kept := List.Subset.refl _
  only := fun _ hi => .inl hi

theorem start_collected (c : Census MemoryCatalog) (files : List Text) :
    Collected c files (start c files) :=
  ⟨[], by simp [start, Function.comp_def], rfl, rfl, by simp [Loaded]⟩

theorem work_sound {before after : List (Text × Stage)} {file : Text} {stage : Stage}
    {a : Stage.Advance MemoryCatalog} {d : Census MemoryCatalog}
    {outcome : Option (Except Failure Unit)}
    (ha : stage.advance d.world.files d.finder.settings file d.world.catalog = some a)
    (h : Sound c files ⟨d, before ++ (file, stage) :: after, outcome⟩) :
    Stage.LoadsAtMost c.grounds file d.world.catalog a.catalog ∧
      Sound c files ⟨advanced d a, before ++ (file, a.stage) :: after, outcome⟩ := by
  have hg : d.grounds = c.grounds := h.grounds
  have hfiles : d.world.files = c.grounds.files := by rw [← hg]; rfl
  have hset : d.finder.settings = c.grounds.settings := by rw [← hg]; rfl
  have htypes : d.world.catalog.types = c.grounds.types := by rw [← hg]; rfl
  rw [hfiles, hset] at ha
  obtain ⟨hload, hfit⟩ := Stage.advance_fits htypes (h.stages (file, stage) (by simp)) ha
  have hfile : file ∈ files := h.own (file, stage) (by simp)
  refine ⟨hload, ?_, ?_, ?_, ?_, ?_⟩
  · rw [← hg]
    simp only [Census.grounds, advanced, World.tellAside, hload.types]
  · intro t ht
    rcases List.mem_append.1 ht with ht | ht
    · exact h.own t (by simp [ht])
    · rcases List.mem_cons.1 ht with rfl | ht
      · exact hfile
      · exact h.own t (by simp [ht])
  · intro t ht
    rcases List.mem_append.1 ht with ht | ht
    · exact (h.stages t (by simp [ht])).mono hload.grows
    · rcases List.mem_cons.1 ht with rfl | ht
      · exact hfit
      · exact (h.stages t (by simp [ht])).mono hload.grows
  · exact fun i hi => hload.grows (h.kept hi)
  · intro i hi
    rcases hload.only i hi with hi | hi
    · exact h.only i hi
    · exact .inr ⟨file, hfile, hi⟩

/-- Taking an answer leaves the catalog and the other tasks as they are. -/
theorem taken_sound {d d' : Census MemoryCatalog} {t : Text × Stage} {rest : List (Text × Stage)}
    {outcome outcome' : Option (Except Failure Unit)} (h : Sound c files ⟨d, t :: rest, outcome⟩)
    (hg : d'.grounds = d.grounds) (hcat : d'.world.catalog = d.world.catalog) :
    Sound c files ⟨d', rest, outcome'⟩ where
  grounds := hg.trans h.grounds
  own := fun t ht => h.own t (by simp [ht])
  stages := fun t ht => by
    simp only [hcat]
    exact h.stages t (by simp [ht])
  kept := by
    simp only [hcat]
    exact h.kept
  only := by
    simp only [hcat]
    exact h.only

theorem step_sound (hstep : Step p q) (h : Sound c files p) : Sound c files q := by
  cases hstep with
  | work ha => exact (work_sound ha h).2
  | @collect d d' file found rest he =>
    have hreaps := Census.enroll_reaps d found
    have hcat := Census.enroll_catalog d found
    rw [he] at hreaps hcat
    exact taken_sound h hreaps.grounds hcat
  | @refuse d d' file found rest e he =>
    have hreaps := Census.enroll_reaps d found
    have hcat := Census.enroll_catalog d found
    rw [he] at hreaps hcat
    exact taken_sound h hreaps.grounds hcat
  | fail => exact taken_sound h rfl rfl
  | finish => exact ⟨h.grounds, h.own, h.stages, h.kept, h.only⟩

theorem step_collected (hstep : Step p q) (h : Sound c files p) (hcol : Collected c files p) :
    Collected c files q := by
  cases hstep with
  | @work d before after file stage a outcome ha =>
    have hgrows := (work_sound ha h).1.grows
    cases outcome with
    | none =>
      obtain ⟨taken, hfiles, hcut, hroll, hloaded⟩ := hcol
      exact ⟨taken, by simpa using hfiles, hcut, hroll, fun f hf i hi => hgrows (hloaded f hf i hi)⟩
    | some o =>
      obtain ⟨hans, hroll, hloaded⟩ := hcol
      exact ⟨hans, hroll, fun ho f hf i hi => hgrows (hloaded ho f hf i hi)⟩
  | @collect d d' file found rest he =>
    obtain ⟨taken, hfiles, hcut, hroll, hloaded⟩ := hcol
    obtain ⟨hfound, hmine⟩ := h.stages (file, .done (.ok found)) (by simp)
    have hreaps := Census.enroll_reaps d found
    have hcat := Census.enroll_catalog d found
    rw [he] at hreaps hcat
    rw [show d.grounds = c.grounds from h.grounds, hfound] at hreaps
    have hnow : c.grounds.harvest (taken ++ [file]) =
        ⟨(c.grounds.harvest taken).items ++ (c.grounds.finding file).items, none⟩ := by
      simp only [Grounds.harvest_append, Grounds.harvest_cons, Grounds.harvest_nil,
        Listing.append_empty, Listing.append_of_whole hcut, Grounds.finding, hreaps.cut_eq_none]
    refine ⟨taken ++ [file], by simpa using hfiles, ?_, ?_, ?_⟩
    · rw [hnow]
    · rw [hnow, Roll.enterAll_append, ← show d.roll = _ from hroll]
      exact hreaps.roll
    · intro f hf i hi
      change i ∈ d'.world.catalog.loaded
      rw [show d'.world.catalog = d.world.catalog from hcat]
      rcases List.mem_append.1 hf with hf | hf
      · exact hloaded f hf i hi
      · obtain rfl := List.mem_singleton.1 hf
        exact hmine i hi
  | @refuse d d' file found rest e he =>
    obtain ⟨taken, rfl, hcut, hroll, hloaded⟩ := hcol
    obtain ⟨hfound, hmine⟩ := h.stages (file, .done (.ok found)) (by simp)
    have hreaps := Census.enroll_reaps d found
    rw [he] at hreaps
    rw [show d.grounds = c.grounds from h.grounds, hfound] at hreaps
    have hnow := Grounds.harvest_stop (rest.map Prod.fst) hcut
      (show (c.grounds.finding file).cut = some e from hreaps.cut_eq_some)
    refine ⟨by simp [hnow], ?_, fun ho => by cases ho⟩
    simp only [List.map_cons, hnow, Roll.enterAll_append]
    rw [← show d.roll = _ from hroll]
    exact hreaps.roll
  | @fail d file rest e =>
    obtain ⟨taken, rfl, hcut, hroll, hloaded⟩ := hcol
    obtain ⟨hfound, hmine⟩ := h.stages (file, .done (.error e)) (by simp)
    have hrefused : c.grounds.finding file = .refused e := by
      rw [Grounds.finding, ← show _ = c.grounds.found file from hfound]
      rfl
    have hnow := Grounds.harvest_stop (rest.map Prod.fst) hcut
      (show (c.grounds.finding file).cut = some e by rw [hrefused]; rfl)
    refine ⟨by simp [hnow], ?_, fun ho => by cases ho⟩
    simp only [List.map_cons, hnow, hrefused]
    simpa [Listing.refused] using hroll
  | finish =>
    obtain ⟨taken, hfiles, hcut, hroll, hloaded⟩ := hcol
    obtain rfl : taken = files := by simpa using hfiles
    exact ⟨(Listing.answer_eq_ok.2 hcut).symm, hroll, fun _ => hloaded⟩

theorem steps_collected (h : Steps (start c files) p) : Sound c files p ∧ Collected c files p :=
  h.keeps (P := fun p => Sound c files p ∧ Collected c files p)
    (fun _ _ hstep hp => ⟨step_sound hstep hp.1, step_collected hstep hp.1 hp.2⟩)
    ⟨start_sound c files, start_collected c files⟩

/-- However the steps of side tasks follow each other, the registry, the failure and, if there is
none, the loaded types are those of a scan of the files in turn. Every run can be brought to its
end, and the one the census takes is among them. -/
theorem side_tasks_end_as_in_turn (c : Census MemoryCatalog) (files : List Text)
    (hpar : c.finder.settings.isParallel = true) :
    (∀ p a, Steps (start c files) p → p.outcome = some a →
      a = ((c.withWorkers 1).parseFiles files).1 ∧
      p.census.finder.registry = ((c.withWorkers 1).parseFiles files).2.finder.registry ∧
      (a = .ok () → ∀ i, i ∈ p.census.world.catalog.loaded ↔
        i ∈ ((c.withWorkers 1).parseFiles files).2.world.catalog.loaded)) ∧
    (∀ p, Steps (start c files) p → ∃ q, Steps p q ∧ q.outcome.isSome = true) ∧
    ∃ p, Steps (start c files) p ∧ p.outcome = some (c.parseFiles files).1 ∧
      p.census = (c.parseFiles files).2 := by
  refine ⟨fun p a hsteps hout => ?_, fun p _ => can_end p, ?_⟩
  · rw [Census.parseFiles_oneWorker]
    have hturn := Census.parseInTurn_reaps files (c.withWorkers 1)
    rw [Census.withWorkers_grounds, Grounds.harvest_withWorkers] at hturn
    obtain ⟨hsound, hcol⟩ := steps_collected hsteps
    simp only [Collected, hout] at hcol
    obtain ⟨hanswer, hroll, hloaded⟩ := hcol
    have hsame := hanswer.trans hturn.answer.symm
    refine ⟨hsame, congrArg Roll.registry (hroll.trans hturn.roll.symm), fun hok i => ?_⟩
    have hend : (c.withWorkers 1).parseInTurn files =
        (.ok (), ((c.withWorkers 1).parseInTurn files).2) :=
      Prod.ext (hsame.symm.trans hok) rfl
    rw [Census.parseInTurn_loaded hend i]
    constructor
    · exact hsound.only i
    · rintro (hi | ⟨file, hf, hi⟩)
      · exact hsound.kept hi
      · exact hloaded hok file hf i hi
  · obtain ⟨tasks, hsteps⟩ := parseFiles_steps c files hpar
    exact ⟨_, hsteps, rfl, rfl⟩

/-- Two files that declare one class, and a link to the first of them. -/
def twins : Census MemoryCatalog :=
  ⟨Finder.new { maxWorkers := 2 }, .fresh
    ⟨.dir [("a.php".toList, .file (Text.utf8 "class A".toList)),
      ("b.php".toList, .file (Text.utf8 "class A".toList)),
      ("c.php".toList, .link "a.php".toList)], [], [], []⟩ ["A".toList]⟩

def twinFiles : List Text := ["c.php".toList, "b.php".toList, "a.php".toList]

/-- In every order of steps both files are registered once, in the order they are given, and both
records find the class loaded. -/
theorem twins_in_any_order :
    twins.finder.settings.isParallel = true ∧
      (∀ p a, Steps (start twins twinFiles) p → p.outcome = some a → a = .ok () ∧
        p.census.finder.registry.map (fun e => (e.2.facts.file, e.2.facts.loaded)) =
          [("/a.php".toList, true), ("/b.php".toList, true)]) ∧
      ∃ p, Steps (start twins twinFiles) p ∧ p.outcome.isSome = true := by
  obtain ⟨hruns, -, p, hp, hout, -⟩ := side_tasks_end_as_in_turn twins twinFiles rfl
  have hok := Listing.eq_of_isOk
    (show ((twins.withWorkers 1).parseFiles twinFiles).1.isOk = true by decide +kernel)
  refine ⟨rfl, fun p a hsteps ha => ?_, p, hp, by rw [hout]; rfl⟩
  obtain ⟨hanswer, hregistry, -⟩ := hruns p a hsteps ha
  refine ⟨hanswer.trans (congrArg Prod.fst hok), ?_⟩
  rw [hregistry]
  decide +kernel

end Pool
end ClassCensus
