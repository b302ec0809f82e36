import ClassCensus.Log.Book
import ClassCensus.Proofs.Growth

/-!
# ClassCensus.Proofs.Delivery

Where logged messages go, over any run of set-ups and messages (`run`). An output gets a message
whose level `reaches` it, and what a sink holds after the run is what it held before and then, in
the order of the messages, one line for each output of the set-up in force that names the sink and
is reached by the message (`deliveries`). A line that the sink does not take is missing there.

Three things go where no output sends them: messages before the first set-up, grave messages under
a set-up without outputs, and the reports of lines that were not taken.
-/

namespace ClassCensus

/-- What is asked of a log. -/
inductive LogCall where
  | configure (settings : LoggingSettings)
  | log (now : Text) (m : Message)

namespace Logbook

/-- Serves calls in turn. A set-up that fails ends the run; a message that is refused leaves the log
as it is. -/
def run (b : Logbook) : List LogCall → Except Failure Logbook
  | [] => .ok b
  | .configure settings :: rest =>
    match b.configure settings with
    | (.error e, _) => .error e
    | (.ok (), b) => b.run rest
  | .log now m :: rest =>
    match b.log now m with
    | .error _ => b.run rest
    | .ok b => b.run rest

/-! ## Where things are to go -/

/-- The sink that a destination names. A file is told by the place its path leads to. -/
def sinkOf (fs : FileSystem) (destination : Text) : Option Sink :=
  if destination = stderrName then some .stderr
  else if destination = stdoutName then some .stdout
  else
    match fs.locate true (Spelling.absolute (FileSystem.pathOf fs.cwd) destination) with
    | .ok place => some (.file place)
    | .error _ => none

/-- A level reaches an output if it is as grave as the level of the whole log and as that of the
output, which is the former unless it has its own. -/
def reaches (settings : LoggingSettings) (o : LogOutput) (l : LogLevel) : Bool :=
  max settings.level.severity (o.level.getD settings.level).severity ≤ l.severity

/-- A message none of whose fields has a name that is taken. -/
def isFit (m : Message) : Bool := m.fields.all fun (name, _) => name ∉ taken && name ≠ takenInside

/-- What arrives at a sink of a line that is meant for `target`: the line itself if the sink is the
target and takes it, and at the error stream the report of a line that is not taken. -/
def arrival (i : Intake) (sink target : Sink) (line : Text) : Option Text :=
  if i.takes target line then if target = sink then some line else none
  else if sink = .stderr then some (i.report line) else none

/-- The lines that one message adds to a sink under the settings in force, if there are any yet. -/
def delivered (i : Intake) (fs : FileSystem) (id : Option Text) (sink : Sink)
    (active : Option LoggingSettings) (now : Text) (m : Message) : List Text :=
  if isFit m then
    match active with
    | none =>
      let line := (Entry.ofMessage m now none).console wide
      if sink = .stdout ∧ i.takes .stdout line = true then [line] else []
    | some settings =>
      let e := Entry.ofMessage m now id
      if settings.outputs.isEmpty then
        if max settings.level.severity LogLevel.warning.severity ≤ m.level.severity then
          (arrival i sink .stderr (Value.record e).shown).toList
        else []
      else
        (settings.outputs.filter (reaches settings · m.level)).filterMap fun o =>
          (sinkOf fs o.destination).bind (arrival i sink · (e.line o.format))
  else []

/-- The lines that a run adds to a sink. -/
def deliveries (i : Intake) (fs : FileSystem) (id : Option Text) (sink : Sink) :
    Option LoggingSettings → List LogCall → List Text
  | _, [] => []
  | _, .configure settings :: rest => deliveries i fs id sink (some settings) rest
  | active, .log now m :: rest =>
    delivered i fs id sink active now m ++ deliveries i fs id sink active rest

/-- Lines as they are written. -/
def asLines (lines : List Text) : Text := (lines.map (· ++ ['\n'])).flatten

theorem asLines_append (as bs : List Text) : asLines (as ++ bs) = asLines as ++ asLines bs := by
  simp [asLines]

/-! ## Set-ups -/

theorem sinkOf_grows {fs fs' : FileSystem} (hgrows : fs.Grows fs') {destination : Text} {sink : Sink}
    (h : sinkOf fs destination = some sink) : sinkOf fs' destination = some sink := by
  unfold sinkOf at h ⊢
  split at h
  · rename_i hname
    rw [if_pos hname]
    exact h
  · rename_i herr
    split at h
    · rename_i hname
      rw [if_neg herr, if_pos hname]
      exact h
    · rename_i hout
      rw [if_neg herr, if_neg hout, hgrows.cwd]
      split at h
      · rename_i place hplace
        rw [hgrows.locate hplace]
        exact h
      · cases h

/-- What happened between two states of a log only made room for outputs. -/
structure Prepares (b b' : Logbook) : Prop where
  files : b.files.Grows b'.files
  written : b'.written = b.written
  scanId : b'.scanId = b.scanId
  intake : b'.intake = b.intake

namespace Prepares

variable {b b' b'' : Logbook}

theorem refl (b : Logbook) : Prepares b b := ⟨.refl _, rfl, rfl, rfl⟩

theorem trans (h : Prepares b b') (h' : Prepares b' b'') : Prepares b b'' :=
  ⟨h.files.trans h'.files, h'.written.trans h.written, h'.scanId.trans h.scanId,
    h'.intake.trans h.intake⟩

/-- A file that is made is empty, so every sink holds what it held. -/
theorem held (h : Prepares b b') (sink : Sink) : b'.held sink = b.held sink := by
  cases sink with
  | stdout => rfl
  | stderr => rfl
  | file place =>
    simp only [Logbook.held]
    have hkept := h.files.tree place
    generalize b.files.tree.at? place = s at hkept
    generalize b'.files.tree.at? place = s' at hkept
    cases hkept <;> rfl

theorem contents (h : Prepares b b') (sink : Sink) : b'.contents sink = b.contents sink := by
  rw [Logbook.contents, Logbook.contents, h.held, h.written]

end Prepares

variable {b b' : Logbook}

theorem openFile_ok {path name : Text} {place : Location} {fs : FileSystem}
    (h : b.openFile path = .ok (name, place, fs)) :
    b.files.Grows fs ∧
      fs.locate true (Spelling.absolute (FileSystem.pathOf fs.cwd) path) = .ok place := by
  unfold openFile at h
  split at h
  · cases h
  · simp only at h
    split at h
    · cases h
    · rename_i made hmade
      split at h
      · cases h
      · rename_i hopen
        cases h
        obtain ⟨hgrows, hlocate⟩ := FileSystem.openEnd_ok hopen
        rw [hgrows.cwd]
        exact ⟨(FileSystem.ensureDirs_grows hmade).trans hgrows, hlocate⟩

/-- The handler does what the output asks for. -/
structure Handles (fs : FileSystem) (level : LogLevel) (o : LogOutput) (h : Handler) : Prop where
  sink : sinkOf fs o.destination = some h.sink
  level : h.level = o.level.getD level
  format : h.format = o.format

theorem Handles.grows {fs fs' : FileSystem} (hgrows : fs.Grows fs') {level : LogLevel}
    {o : LogOutput} {h : Handler} (hh : Handles fs level o h) : Handles fs' level o h :=
  ⟨sinkOf_grows hgrows hh.sink, hh.level, hh.format⟩

theorem exists_sink {fs : FileSystem} {level : LogLevel} {outputs : List LogOutput}
    {handlers : List Handler} (h : List.Forall₂ (Handles fs level) outputs handlers) {o : LogOutput}
    (ho : o ∈ outputs) : ∃ sink, sinkOf fs o.destination = some sink := by
  induction h with
  | nil => cases ho
  | cons hhandles _ ih =>
    rcases List.mem_cons.1 ho with rfl | ho
    · exact ⟨_, hhandles.sink⟩
    · exact ih ho

theorem addOutput_ok {s : LogSetup} {o : LogOutput} (h : b.addOutput s o = (.ok (), b')) :
    Prepares b b' ∧ ∃ handler, Handles b'.files s.level o handler ∧
      b'.setup = some { s with handlers := s.handlers ++ [handler] } := by
  unfold addOutput at h
  simp only at h
  split at h
  · rename_i herr
    cases h
    exact ⟨⟨.refl _, rfl, rfl, rfl⟩, _, ⟨by simp [sinkOf, herr], rfl, rfl⟩, rfl⟩
  · rename_i herr
    split at h
    · rename_i hout
      cases h
      exact ⟨⟨.refl _, rfl, rfl, rfl⟩, _, ⟨by rw [sinkOf, if_neg herr, if_pos hout], rfl, rfl⟩,
        rfl⟩
    · rename_i hout
      split at h
      · cases h
      · rename_i hopen
        cases h
        obtain ⟨hgrows, hlocate⟩ := openFile_ok hopen
        refine ⟨⟨hgrows, rfl, rfl, rfl⟩, _, ⟨?_, rfl, rfl⟩, rfl⟩
        rw [sinkOf, if_neg herr, if_neg hout, hlocate]

/-- Outputs that can all be opened get a handler each, in their order. -/
theorem addOutputs_ok {s : LogSetup} {outputs : List LogOutput} (hs : b.setup = some s)
    (h : b.addOutputs outputs = (.ok (), b')) :
    Prepares b b' ∧ ∃ handlers, List.Forall₂ (Handles b'.files s.level) outputs handlers ∧
      b'.setup = some { s with handlers := s.handlers ++ handlers } := by
  induction outputs generalizing b s with
  | nil =>
    cases h
    exact ⟨.refl _, [], .nil, by simp [hs]⟩
  | cons o outputs ih =>
    simp only [addOutputs, hs] at h
    split at h
    · cases h
    · rename_i b₁ hadd
      obtain ⟨hprepares, handler, hhandles, hsetup⟩ := addOutput_ok hadd
      obtain ⟨hprepares', handlers, hall, hsetup'⟩ := ih hsetup h
      exact ⟨hprepares.trans hprepares', handler :: handlers,
        .cons (hhandles.grows hprepares'.files) hall, by simp [hsetup']⟩

/-- The log is set up by these settings, or not yet. -/
def Follows (b : Logbook) : Option LoggingSettings → Prop
  | none => b.setup = none
  | some settings => ∃ handlers, b.setup = some ⟨settings.level, handlers⟩ ∧
      List.Forall₂ (Handles b.files settings.level) settings.outputs handlers

theorem configure_ok {settings : LoggingSettings} (h : b.configure settings = (.ok (), b')) :
    Prepares b b' ∧ Follows b' (some settings) := by
  obtain ⟨hprepares, handlers, hall, hsetup⟩ := addOutputs_ok rfl h
  exact ⟨⟨hprepares.files, hprepares.written, hprepares.scanId, hprepares.intake⟩, handlers,
    hsetup, hall⟩

/-! ## Messages -/

theorem arrival_eq (i : Intake) (sink : Sink) (line : Sink × Text) :
    arrival i sink line.1 line.2 =
      if (i.settle line).1 = sink then some (i.settle line).2 else none := by
  unfold arrival Intake.settle
  by_cases htakes : i.takes line.1 line.2 = true
  · simp only [htakes, if_true]
  · simp only [htakes, if_false, Bool.false_eq_true, eq_comm]

/-- What is settled for one sink is what arrives there. -/
theorem settle_sink (i : Intake) (lines : List (Sink × Text)) (sink : Sink) :
    ((lines.map i.settle).filter (·.1 = sink)).map (·.2) =
      lines.filterMap fun line => arrival i sink line.1 line.2 := by
  simp only [arrival_eq]
  induction lines with
  | nil => rfl
  | cons line lines ih =>
    rw [List.map_cons, List.filter_cons, List.filterMap_cons]
    by_cases hsink : (i.settle line).1 = sink
    · simp [hsink, ih]
    · simp [hsink, ih]

theorem contents_write (b : Logbook) (lines : List (Sink × Text)) (sink : Sink) :
    (b.write lines).contents sink = b.contents sink ++
      asLines (lines.filterMap fun line => arrival b.intake sink line.1 line.2) := by
  have hheld : (b.write lines).held sink = b.held sink := by
    cases sink <;> rfl
  rw [contents, contents, hheld, ← settle_sink]
  simp [write, asLines, List.filter_map, Function.comp_def]

/-- What arrives at one sink comes from the outputs whose level is reached. -/
theorem linesFor_sink {fs : FileSystem} {level : LogLevel} {outputs : List LogOutput}
    {handlers : List Handler} (h : List.Forall₂ (Handles fs level) outputs handlers) (l : LogLevel)
    (e : Entry) (i : Intake) (sink : Sink) :
    ((linesFor handlers l e).filterMap fun line => arrival i sink line.1 line.2) =
      (outputs.filter fun o => (o.level.getD level).reachedBy l).filterMap fun o =>
        (sinkOf fs o.destination).bind (arrival i sink · (e.line o.format)) := by
  induction h with
  | nil => rfl
  | @cons o handler outputs handlers hhandles _ ih =>
    simp only [linesFor, List.filter_cons, ← hhandles.level] at ih ⊢
    by_cases hreached : handler.level.reachedBy l = true
    · simp only [hreached, if_true, List.map_cons, List.filterMap_cons, hhandles.sink,
        hhandles.format, Option.bind_some, ih]
    · simp only [hreached, if_false, Bool.false_eq_true, ih]

theorem reaches_eq (settings : LoggingSettings) (o : LogOutput) (l : LogLevel) :
    reaches settings o l =
      (settings.level.reachedBy l && (o.level.getD settings.level).reachedBy l) := by
  rw [Bool.eq_iff_iff, Bool.and_eq_true]
  simp only [reaches, LogLevel.reachedBy, decide_eq_true_eq, Nat.max_le]

theorem write_nil (b : Logbook) : b.write [] = b := by
  simp [write]

/-- The lines that an entry makes under a set-up; `bare` is what it reads like without handlers. -/
def entered (s : LogSetup) (l : LogLevel) (e : Entry) (bare : Text) : List (Sink × Text) :=
  if s.level.reachedBy l then
    if s.handlers.isEmpty then
      if LogLevel.warning.reachedBy l then [(.stderr, bare)] else []
    else linesFor s.handlers l e
  else []

theorem enter_eq (b : Logbook) (s : LogSetup) (l : LogLevel) (e : Entry) (bare : Text) :
    b.enter s l e bare = b.write (entered s l e bare) := by
  unfold enter entered
  split
  · split
    · split
      · rfl
      · rw [write_nil]
    · rfl
  · rw [write_nil]

/-- What an entry makes for one sink is what the settings in force say. -/
theorem entered_sink {fs : FileSystem} {settings : LoggingSettings} {handlers : List Handler}
    (h : List.Forall₂ (Handles fs settings.level) settings.outputs handlers) {m : Message}
    (hfit : isFit m = true) (now : Text) (id : Option Text) (i : Intake) (sink : Sink) :
    ((entered ⟨settings.level, handlers⟩ m.level (Entry.ofMessage m now id)
        (Value.record (Entry.ofMessage m now id)).shown).filterMap
          fun line => arrival i sink line.1 line.2) =
      delivered i fs id sink (some settings) now m := by
  have hempty : handlers.isEmpty = settings.outputs.isEmpty := by
    generalize settings.outputs = outputs at h
    cases h <;> rfl
  simp only [entered, delivered, hfit, if_true, hempty, reaches_eq, Nat.max_le]
  by_cases hlevel : settings.level.reachedBy m.level = true
  · have hle : settings.level.severity ≤ m.level.severity := by
      simpa [LogLevel.reachedBy] using hlevel
    by_cases hnone : settings.outputs.isEmpty = true
    · by_cases hgrave : LogLevel.warning.reachedBy m.level = true
      · have hle' : LogLevel.warning.severity ≤ m.level.severity := by
          simpa [LogLevel.reachedBy] using hgrave
        simp only [hlevel, hnone, hgrave, hle, hle', and_self, if_true, List.filterMap_cons,
          List.filterMap_nil]
        cases arrival i sink .stderr (Value.record (Entry.ofMessage m now id)).shown <;> rfl
      · have hlt : ¬ LogLevel.warning.severity ≤ m.level.severity := by
          simpa [LogLevel.reachedBy] using hgrave
        simp [hlevel, hnone, hgrave, hlt]
    · simp only [hlevel, hnone, if_true, if_false, Bool.false_eq_true, Bool.true_and]
      exact linesFor_sink h m.level _ i sink
  · have hlt : ¬ settings.level.severity ≤ m.level.severity := by
      simpa [LogLevel.reachedBy] using hlevel
    simp [hlevel, hlt]

theorem any_taken_of_fit {m : Message} (hfit : isFit m = true) (reached : Bool) :
    (m.fields.any fun (name, _) => name ∈ taken || (reached && name = takenInside)) = false := by
  rw [List.any_eq_false]
  intro field hfield
  have hfree := List.all_eq_true.1 hfit field hfield
  simp only [Bool.and_eq_true, decide_eq_true_eq] at hfree
  simp [hfree.1, hfree.2]

theorem log_of_none {m : Message} (hfit : isFit m = true) (hsetup : b.setup = none) (now : Text) :
    b.log now m =
      if b.intake.takes .stdout ((Entry.ofMessage m now none).console wide) then
        .ok (b.write [(.stdout, (Entry.ofMessage m now none).console wide)])
      else .error (.unencodable ((Entry.ofMessage m now none).console wide)) := by
  simp only [log, hsetup, any_taken_of_fit hfit]
  rfl

theorem log_of_some {m : Message} (hfit : isFit m = true) {s : LogSetup} (hsetup : b.setup = some s)
    (now : Text) :
    b.log now m = .ok (b.write (entered s m.level (Entry.ofMessage m now b.scanId)
      (Value.record (Entry.ofMessage m now b.scanId)).shown)) := by
  simp only [log, hsetup, any_taken_of_fit hfit, enter_eq]
  rfl

/-- A message that does not fit is refused, unless its level is not reached. -/
theorem log_of_unfit {m : Message} (hfit : isFit m = false) (b : Logbook) (now : Text) :
    (∃ e, b.log now m = .error e) ∨ b.log now m = .ok b := by
  have hany : (m.fields.any fun (name, _) =>
      name ∈ taken || (true && name = takenInside)) = true := by
    obtain ⟨field, hfield, htaken⟩ := List.all_eq_false.1 hfit
    refine List.any_eq_true.2 ⟨field, hfield, ?_⟩
    by_cases hname : field.1 ∈ taken
    · simp [hname]
    · simpa [hname] using htaken
  cases hsetup : b.setup with
  | none => exact .inl ⟨.unfitArgument, by simp only [log, hsetup, hany, if_true]⟩
  | some s =>
    by_cases hlevel : s.level.reachedBy m.level = true
    · exact .inl ⟨.unfitArgument, by simp only [log, hsetup, hlevel, hany, if_true]⟩
    · simp only [log, hsetup]
      split
      · exact .inl ⟨_, rfl⟩
      · right
        rw [enter, if_neg hlevel]

/-- A message is refused and nothing of it is to be delivered, or it writes what is. -/
theorem log_writes {active : Option LoggingSettings} (hactive : Follows b active) (now : Text)
    (m : Message) :
    (∃ e, b.log now m = .error e ∧
      ∀ fs sink, delivered b.intake fs b.scanId sink active now m = []) ∨
      ∃ lines, b.log now m = .ok (b.write lines) ∧ ∀ fs, b.files.Grows fs → ∀ sink,
        (lines.filterMap fun line => arrival b.intake sink line.1 line.2) =
          delivered b.intake fs b.scanId sink active now m := by
  by_cases hfit : isFit m = true
  · cases active with
    | none =>
      have hlog := log_of_none hfit hactive now
      by_cases htakes : b.intake.takes .stdout ((Entry.ofMessage m now none).console wide) = true
      · rw [if_pos htakes] at hlog
        refine .inr ⟨_, hlog, fun fs _ sink => ?_⟩
        by_cases hsink : sink = .stdout
        · simp [delivered, arrival, hfit, htakes, hsink]
        · simp [delivered, arrival, hfit, htakes, hsink, Ne.symm hsink]
      · rw [if_neg htakes] at hlog
        exact .inl ⟨_, hlog, fun fs sink => by simp [delivered, hfit, htakes]⟩
    | some settings =>
      obtain ⟨handlers, hsetup, hall⟩ := hactive
      refine .inr ⟨_, log_of_some hfit hsetup now, fun fs hgrows sink => ?_⟩
      exact entered_sink (hall.imp fun _ _ hhandles => hhandles.grows hgrows) hfit now b.scanId
        b.intake sink
  · rw [Bool.not_eq_true] at hfit
    have hnothing : ∀ fs sink, delivered b.intake fs b.scanId sink active now m = [] := by
      simp [delivered, hfit]
    rcases log_of_unfit hfit b now with ⟨e, he⟩ | hok
    · exact .inl ⟨e, he, hnothing⟩
    · exact .inr ⟨[], by rw [hok, write_nil], fun fs _ sink => (hnothing fs sink).symm⟩

theorem Follows.write {active : Option LoggingSettings} (h : Follows b active)
    (lines : List (Sink × Text)) : Follows (b.write lines) active := by
  cases active with
  | none => exact h
  | some settings => exact h

/-! ## Runs -/

/-- What a run delivers from any state on, told by the files as they are in the end. -/
theorem run_delivers {active : Option LoggingSettings} (hactive : Follows b active)
    {calls : List LogCall} (h : b.run calls = .ok b') :
    b.files.Grows b'.files ∧
      (∀ sink, b'.contents sink =
        b.contents sink ++ asLines (deliveries b.intake b'.files b.scanId sink active calls)) ∧
      ∀ settings, .configure settings ∈ calls → ∀ o ∈ settings.outputs,
        ∃ sink, sinkOf b'.files o.destination = some sink := by
  induction calls generalizing b active with
  | nil =>
    cases h
    exact ⟨.refl _, fun sink => by simp [deliveries, asLines], by simp⟩
  | cons call calls ih =>
    cases call with
    | configure settings =>
      simp only [run] at h
      split at h
      · cases h
      · rename_i b₁ hconfigure
        obtain ⟨hprepares, hfollows⟩ := configure_ok hconfigure
        obtain ⟨hgrows, hcontents, hnamed⟩ := ih hfollows h
        refine ⟨hprepares.files.trans hgrows, fun sink => ?_, fun other hother o ho => ?_⟩
        · rw [hcontents, hprepares.contents, hprepares.scanId, hprepares.intake, deliveries]
        · rcases List.mem_cons.1 hother with heq | hother
          · cases heq
            obtain ⟨handlers, -, hall⟩ := hfollows
            obtain ⟨sink, hsink⟩ := exists_sink hall ho
            exact ⟨sink, sinkOf_grows hgrows hsink⟩
          · exact hnamed other hother o ho
    | log now m =>
      have hlater : ∀ settings, .configure settings ∈ LogCall.log now m :: calls →
          .configure settings ∈ calls := by
        intro settings hmem
        simpa using hmem
      simp only [run] at h
      rcases log_writes hactive now m with ⟨e, hlog, hnothing⟩ | ⟨lines, hlog, hlines⟩
      · rw [hlog] at h
        obtain ⟨hgrows, hcontents, hnamed⟩ := ih hactive h
        refine ⟨hgrows, fun sink => ?_, fun settings hmem => hnamed settings (hlater settings hmem)⟩
        simp [hcontents, deliveries, hnothing]
      · rw [hlog] at h
        obtain ⟨hgrows, hcontents, hnamed⟩ := ih (hactive.write lines) h
        refine ⟨hgrows, fun sink => ?_, fun settings hmem => hnamed settings (hlater settings hmem)⟩
        rw [hcontents, contents_write, hlines _ hgrows, deliveries, asLines_append,
          List.append_assoc]
        rfl

/-- A log that is not set up yet, and any calls whose set-ups all succeed. Every output names a
sink, and every sink ends up with what it held before and then, in the order of the messages, one
line for each output in force that names it and that the message reaches, if the sink takes it. -/
theorem outputs_receive_what_reaches_them {b b' : Logbook} (hnew : b.setup = none)
    {calls : List LogCall} (h : b.run calls = .ok b') :
    (∀ settings, .configure settings ∈ calls → ∀ o ∈ settings.outputs,
      ∃ sink, sinkOf b'.files o.destination = some sink) ∧
    ∀ sink, b'.contents sink =
      b.contents sink ++ asLines (deliveries b.intake b'.files b.scanId sink none calls) := by
  have hactive : Follows b none := hnew
  obtain ⟨-, hcontents, hnamed⟩ := run_delivers hactive h
  exact ⟨hnamed, hcontents⟩

/-- A log file that has been written to, and a link to it. -/
def usedBook : Logbook where
  files := ⟨.dir [("w".toList, .dir [("app.log".toList, .file (Text.utf8 "old\n".toList)),
    ("l".toList, .link "app.log".toList)])], [], ["w".toList], []⟩

/-- Two set-ups that name the same file by different paths, with other outputs beside it. -/
def sharedCalls : List LogCall :=
  [.configure ⟨.info, [{ destination := "/w/app.log".toList }, { level := some .warning }]⟩,
    .log "t".toList ⟨.info, "a".toList, [], []⟩, .log "t".toList ⟨.warning, "b".toList, [], []⟩,
    .configure ⟨.warning, [{ destination := "/w/l".toList },
      { destination := "/w/logs/x.log".toList, level := some .critical }]⟩,
    .log "t".toList ⟨.info, "c".toList, [], []⟩, .log "t".toList ⟨.error, "d".toList, [], []⟩]

theorem shared_file_receives :
    ∃ b', usedBook.run sharedCalls = .ok b' ∧
      (∀ sink, b'.contents sink =
        usedBook.contents sink ++
          asLines (deliveries usedBook.intake b'.files none sink none sharedCalls)) ∧
      b'.contents (.file ["w".toList, "app.log".toList]) =
        "old\nt [info] a\nt [warning] b\nt [error] d\n".toList ∧
      b'.contents .stderr = "t [warning] b\n".toList ∧
      b'.contents (.file ["w".toList, "logs".toList, "x.log".toList]) = [] := by
  have hends : (usedBook.run sharedCalls).toOption.map (fun b' =>
      (b'.contents (.file ["w".toList, "app.log".toList]), b'.contents .stderr,
        b'.contents (.file ["w".toList, "logs".toList, "x.log".toList]))) =
      some ("old\nt [info] a\nt [warning] b\nt [error] d\n".toList, "t [warning] b\n".toList, []) := by
    decide +kernel
  cases hrun : usedBook.run sharedCalls with
  | error e =>
    rw [hrun] at hends
    cases hends
  | ok b' =>
    rw [hrun] at hends
    obtain ⟨hfile, herr, hother⟩ : _ ∧ _ ∧ _ := by
      simpa only [Except.toOption, Option.map_some, Option.some.injEq, Prod.mk.injEq] using hends
    exact ⟨b', rfl, (outputs_receive_what_reaches_them rfl hrun).2, hfile, herr, hother⟩

/-- The same files, where one character has no octets. -/
def strayBook : Logbook where
  files := { usedBook.files with strays := ['\uE0FF'] }

/-- Without outputs a warning still goes to the error stream, and before the first set-up any
message goes to the output stream. A line without octets does not get into the file it is for. -/
theorem lines_that_no_output_asks_for :
    (usedBook.run [.configure ⟨.info, []⟩,
        .log "t".toList ⟨.warning, "x".toList, [], []⟩]).toOption.map (·.contents .stderr) =
      some "\x7b'event': 'x', 'level': 'warning', 'timestamp': 't'\x7d\n".toList ∧
    (usedBook.run [.log "t".toList ⟨.debug, "x".toList, [], []⟩]).toOption.map
        (·.contents .stdout) =
      some "t [debug    ] x\n".toList ∧
    (strayBook.run [.configure ⟨.info, [{ destination := "/w/app.log".toList }]⟩,
        .log "t".toList ⟨.info, ['\uE0FF'], [], []⟩]).toOption.map (fun b' =>
          (b'.contents (.file ["w".toList, "app.log".toList]), b'.contents .stderr)) =
      some ("old\n".toList, "--- Logging error ---\n".toList) := by
  decide +kernel

end Logbook
end ClassCensus
