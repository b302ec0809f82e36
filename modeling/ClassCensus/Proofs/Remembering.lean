import ClassCensus.Proofs.CatalogLaws
import ClassCensus.Proofs.Loaded

/-!
# ClassCensus.Proofs.Remembering

Records and a catalog in memory that changes under them.

* `Inquiry` — a question about a record, answered by reflecting it. The answer is a function of the
  reflection (`Inquiry.answerFrom`, `put_eq`).
* `Desk` — the records made so far beside the catalog. An act defines a type, asks the catalog, makes
  a record or puts an inquiry about one.
* `Desk.Turn` — all that an act can do to the records and to what is remembered of them.

A reflection is remembered when a record is made of an identity, or at the first inquiry that goes
well, and from then on nothing replaces it (`Turn.remembered?`). Until then nothing but an inquiry
about the record itself can bring one in (`Turn.of_remembered?`).
-/

namespace ClassCensus

/-! ## Inquiries -/

/-- A question about a record. -/
inductive Inquiry where
  | reflect
  | attributes (type : Option TypeArg)
  | hasAttribute (type : TypeArg)
  | soleAttribute (type : TypeArg)
  | instantiate (arguments : List Value) (keywords : Table Text Value)
  | passes (f : Filter)

namespace Inquiry

inductive Answer where
  | reflection (r : Reflection)
  | attributes (refs : List AttributeRef)
  | truth (b : Bool)
  | object (o : Option Object)

/-- Puts an inquiry about a record. -/
def put {κ : Type} [TypeCatalog κ] (w : World κ) (record : Record) :
    Inquiry → Except Failure Answer × World κ
  | .reflect => ((w.reflect record).1.map .reflection, (w.reflect record).2)
  | .attributes type =>
    ((w.attributes record type).1.map .attributes, (w.attributes record type).2)
  | .hasAttribute type =>
    ((w.hasAttribute record type).1.map .truth, (w.hasAttribute record type).2)
  | .soleAttribute type =>
    ((w.soleAttribute record type).1.map .object, (w.soleAttribute record type).2)
  | .instantiate arguments keywords =>
    ((w.instantiate record arguments keywords).1.map fun o => .object (some o),
      (w.instantiate record arguments keywords).2)
  | .passes f => ((f.passes w record).1.map .truth, (f.passes w record).2)

/-- Whether an inquiry needs a reflection; a filter that requires nothing does not. -/
def reflects : Inquiry → Bool
  | .passes f => !f.required.isEmpty
  | _ => true

/-- The answer that a reflection gives. -/
def answerFrom (record : Record) (r : Reflection) : Inquiry → Except Failure Answer
  | .reflect => .ok (.reflection r)
  | .attributes type =>
    .ok (.attributes (r.attributesOf (type.map (·.identity record.facts.separator))))
  | .hasAttribute type => .ok (.truth (r.has (type.identity record.facts.separator)))
  | .soleAttribute type =>
    match r.attributesOf (some (type.identity record.facts.separator)) with
    | [] => .ok (.object none)
    | [a] => a.instantiate.map fun o => .object (some o)
    | found =>
      .error (.fault (.ambiguousAttribute record.facts.className
        (type.identity record.facts.separator) found.length))
  | .instantiate arguments keywords =>
    (r.instantiate arguments keywords).map fun o => .object (some o)
  | .passes f => .ok (.truth (f.required.isEmpty || f.accepts r))

variable {κ : Type} [TypeCatalog κ]

/-- An inquiry reflects the record and does nothing else to the world. -/
theorem put_eq (q : Inquiry) (w : World κ) (record : Record) :
    q.put w record =
      if q.reflects then
        match w.reflect record with
        | (.error e, w) => (.error e, w)
        | (.ok r, w) => (q.answerFrom record r, w)
      else (.ok (.truth true), w) := by
  cases q with
  | reflect =>
    simp only [put, reflects, if_true]
    rcases w.reflect record with ⟨e | r, w'⟩ <;> rfl
  | attributes type =>
    simp only [put, reflects, if_true, World.attributes]
    rcases w.reflect record with ⟨e | r, w'⟩ <;> rfl
  | hasAttribute type =>
    simp only [put, reflects, if_true, World.hasAttribute, World.attributes]
    rcases w.reflect record with ⟨e | r, w'⟩ <;> rfl
  | soleAttribute type =>
    simp only [put, reflects, if_true, World.soleAttribute, World.attributes, answerFrom]
    rcases w.reflect record with ⟨e | r, w'⟩
    · rfl
    · simp only [Option.map_some]
      rcases r.attributesOf (some (type.identity record.facts.separator)) with _ | ⟨a, _ | ⟨b, l⟩⟩
      · rfl
      · simp only
        cases a.instantiate <;> rfl
      · rfl
  | instantiate arguments keywords =>
    simp only [put, reflects, if_true, World.instantiate, answerFrom]
    rcases w.reflect record with ⟨e | r, w'⟩ <;> rfl
  | passes f =>
    by_cases hempty : f.required.isEmpty = true
    · simp only [put, reflects, Filter.passes_eq, hempty, if_true]
      rfl
    · simp only [put, reflects, Filter.passes_eq, answerFrom, hempty, Bool.false_eq_true, if_false,
        Bool.not_false, if_true, Bool.false_or]
      rcases w.reflect record with ⟨e | r, w'⟩ <;> rfl

/-- The answer of a reflection that is remembered leaves everything as it is. -/
theorem put_of_remembered {w : World κ} {record : Record} {r : Reflection}
    (h : w.ledger.remembered? record = some r) (q : Inquiry) :
    q.put w record = (q.answerFrom record r, w) := by
  rw [put_eq]
  cases hq : q.reflects with
  | true => simp only [if_true, World.reflect, h]
  | false =>
    cases q with
    | passes f =>
      have hempty : f.required.isEmpty = true := by simpa [reflects] using hq
      simp [answerFrom, hempty]
    | _ => cases hq

end Inquiry

/-! ## Reflecting in memory -/

namespace World

variable {w : World MemoryCatalog} {record : Record} {identity : Text} {r : Reflection}

/-- A catalog in memory is not changed by reflecting, and tells nothing. -/
theorem ask_reflect (w : World MemoryCatalog) (identity : Text) :
    w.ask (TypeCatalog.reflect · identity) = ((w.catalog.reflect identity).answer, w) := by
  simp only [ask, TypeCatalog.reflect, MemoryCatalog.reflect]
  cases Table.get? w.catalog.types identity <;> simp [tell]

theorem ask_isLoaded (w : World MemoryCatalog) (identity : Text) :
    w.ask (TypeCatalog.isLoaded · identity) = (.ok (w.catalog.isLoaded identity), w) := by
  simp [ask, TypeCatalog.isLoaded, tell]

theorem reflect_of_missing (h : w.ledger.remembered? record = none)
    (hget : Table.get? w.catalog.types record.facts.className = none) :
    w.reflect record = (.error (.fault (.unresolvable record.facts.className)), w) := by
  simp only [reflect, h, ask_reflect, MemoryCatalog.reflect, hget]

theorem reflect_of_defined (h : w.ledger.remembered? record = none)
    (hget : Table.get? w.catalog.types record.facts.className = some r) :
    w.reflect record = (.ok r, { w with ledger := w.ledger.remember record r }) := by
  simp only [reflect, h, ask_reflect, MemoryCatalog.reflect, hget]

/-- A record is made or refused, and a refusal leaves the world alone. -/
theorem newRecord_cases (w : World MemoryCatalog) (className basename space file sep : Text) :
    (∃ e, w.newRecord className basename space file sep = (.error e, w)) ∨
      ∃ facts, facts.className = className ∧ facts.loaded = w.catalog.isLoaded className ∧
        w.newRecord className basename space file sep = (.ok (w.keep facts).1, (w.keep facts).2) := by
  simp only [newRecord, ask_isLoaded]
  cases ClassFacts.check className basename space sep with
  | error m => exact .inl ⟨_, rfl⟩
  | ok u =>
    exact .inr ⟨⟨className, basename, space, file, sep, w.catalog.isLoaded className⟩, rfl, rfl, rfl⟩

/-- The same for a record of an identity, whose reflection is remembered. -/
theorem recordOf_cases (w : World MemoryCatalog) (identity sep : Text) :
    (∃ e, w.recordOf identity sep = (.error e, w)) ∨
      ∃ facts r, facts.className = identity ∧ facts.loaded = w.catalog.isLoaded identity ∧
        Table.get? w.catalog.types identity = some r ∧
        w.recordOf identity sep = (.ok (w.keep facts).1,
          { (w.keep facts).2 with
            ledger := (w.keep facts).2.ledger.remember (w.keep facts).1 r }) := by
  simp only [recordOf, ask_reflect, MemoryCatalog.reflect]
  cases hget : Table.get? w.catalog.types identity with
  | none => exact .inl ⟨_, rfl⟩
  | some r =>
    simp only
    split
    · exact .inl ⟨_, rfl⟩
    · exact .inl ⟨_, rfl⟩
    · rename_i file _ _
      split
      · exact .inl ⟨_, rfl⟩
      · rcases Identity.split sep identity with ⟨space, basename⟩
        rcases w.newRecord_cases identity basename space (Spelling.slashed file) sep with
          ⟨e, hnew⟩ | ⟨facts, hname, hloaded, hnew⟩
        · exact .inl ⟨e, by simp only [hnew]⟩
        · exact .inr ⟨facts, r, hname, hloaded, rfl, by simp only [hnew]⟩

end World

/-! ## The ledger -/

namespace Ledger

variable {l : Ledger} {record other : Record} {r : Reflection}

theorem remembered?_remember_of_ne (h : other.serial ≠ record.serial) :
    (l.remember other r).remembered? record = l.remembered? record := by
  rw [remembered?, remember, Table.get?_put, if_neg h]
  rfl

theorem Sound.serial_lt (h : l.Sound) (hr : l.remembered? record = some r) :
    record.serial < l.next :=
  h _ (Table.mem_keys_of_mem (Table.mem_of_get? hr))

theorem Sound.enter (h : l.Sound) (facts : ClassFacts) : (l.enter facts).2.Sound :=
  fun serial hserial => Nat.lt_succ_of_lt (h serial hserial)

theorem Sound.remember (h : l.Sound) (hlt : record.serial < l.next) (r : Reflection) :
    (l.remember record r).Sound := by
  intro serial hserial
  rcases Table.mem_keys_put.1 hserial with rfl | hserial
  · exact hlt
  · exact h serial hserial

/-- Nothing is remembered yet of a record that is just entered. -/
theorem Sound.remembered?_enter (h : l.Sound) (facts : ClassFacts) :
    (l.enter facts).2.remembered? (l.enter facts).1 = none := by
  refine Table.get?_eq_none_iff.2 fun hkey => ?_
  exact Nat.lt_irrefl _ (h _ hkey)

end Ledger

/-! ## Acts -/

/-- What is done at a desk: the catalog is used, a record is made of parts or of an identity, or an
inquiry is put about the record at a place. -/
inductive Act where
  | use (u : MemoryCatalog.Use)
  | make (className basename space file separator : Text)
  | fetch (identity separator : Text)
  | ask (n : Nat) (q : Inquiry)

/-- The records made so far, in a world with a catalog in memory. -/
structure Desk where
  world : World MemoryCatalog
  records : List Record

namespace Desk

def new (fs : FileSystem) (c : MemoryCatalog) : Desk := ⟨⟨fs, c, .empty, none, 0, []⟩, []⟩

/-- Puts a record beside the others, if there is one. -/
def shelve (d : Desk) : Except Failure Record × World MemoryCatalog → Desk
  | (.error _, w) => ⟨w, d.records⟩
  | (.ok record, w) => ⟨w, d.records ++ [record]⟩

def after (d : Desk) : Act → Desk
  | .use u => { d with world := { d.world with catalog := d.world.catalog.use u } }
  | .make className basename space file separator =>
    d.shelve (d.world.newRecord className basename space file separator)
  | .fetch identity separator => d.shelve (d.world.recordOf identity separator)
  | .ask n q =>
    match d.records[n]? with
    | none => d
    | some record => { d with world := (q.put d.world record).2 }

def run (d : Desk) (acts : List Act) : Desk := acts.foldl after d

/-- What is remembered of a record. -/
def held? (d : Desk) (record : Record) : Option Reflection := d.world.ledger.remembered? record

def defined? (d : Desk) (identity : Text) : Option Reflection :=
  Table.get? d.world.catalog.types identity

/-- All that an act can do: it leaves the ledger alone and takes no type away, or enters a record,
whose reflection may be remembered at once, or remembers the reflection of a record. -/
inductive Turn (d : Desk) : Act → Desk → Prop where
  | rest {act : Act} {w : World MemoryCatalog} :
      w.ledger = d.world.ledger →
      (∀ i, (d.defined? i).isSome = true → (Table.get? w.catalog.types i).isSome = true) →
      Turn d act ⟨w, d.records⟩
  | enter {act : Act} (facts : ClassFacts) :
      Turn d act ⟨(d.world.keep facts).2, d.records ++ [(d.world.keep facts).1]⟩
  | enterKnown {act : Act} (facts : ClassFacts) (r : Reflection) :
      Turn d act ⟨{ (d.world.keep facts).2 with
          ledger := (d.world.keep facts).2.ledger.remember (d.world.keep facts).1 r },
        d.records ++ [(d.world.keep facts).1]⟩
  | remind {n : Nat} {q : Inquiry} {record : Record} (r : Reflection) :
      d.records[n]? = some record → d.held? record = none →
      Turn d (.ask n q) ⟨{ d.world with ledger := d.world.ledger.remember record r }, d.records⟩

theorem use_types (c : MemoryCatalog) (u : MemoryCatalog.Use) (i : Text)
    (h : (Table.get? c.types i).isSome = true) : (Table.get? (c.use u).types i).isSome = true := by
  cases u with
  | define type loaded =>
    have hput : (Table.get? (Table.put c.types type.identity type) i).isSome = true := by
      rw [Table.get?_put]
      split
      · rfl
      · exact h
    simp only [MemoryCatalog.use, MemoryCatalog.define]
    cases loaded with
    | true => simpa using hput
    | false => exact hput
  | ask question =>
    cases question with
    | confirm identity =>
      simp only [MemoryCatalog.use, Question.after, TypeCatalog.confirm, MemoryCatalog.confirm]
      split
      · simpa using h
      · exact h
    | isLoaded identity => exact h
    | reflect identity =>
      rw [MemoryCatalog.use, Question.after, TypeCatalog.reflect]
      exact (MemoryCatalog.reflect_catalog c identity).symm ▸ h

theorem after_turn (d : Desk) (act : Act) : Turn d act (d.after act) := by
  cases act with
  | use u => exact .rest rfl (use_types d.world.catalog u)
  | make className basename space file separator =>
    rw [after]
    rcases d.world.newRecord_cases className basename space file separator with
      ⟨e, hnew⟩ | ⟨facts, -, -, hnew⟩
    · rw [hnew]
      exact .rest rfl fun _ hi => hi
    · rw [hnew]
      exact .enter facts
  | fetch identity separator =>
    rw [after]
    rcases d.world.recordOf_cases identity separator with ⟨e, hnew⟩ | ⟨facts, r, -, -, -, hnew⟩
    · rw [hnew]
      exact .rest rfl fun _ hi => hi
    · rw [hnew]
      exact .enterKnown facts r
  | ask n q =>
    rw [after]
    cases hn : d.records[n]? with
    | none => exact .rest rfl fun _ hi => hi
    | some record =>
      simp only
      rw [q.put_eq]
      cases q.reflects with
      | false => exact .rest rfl fun _ hi => hi
      | true =>
        simp only [if_true]
        cases hheld : d.world.ledger.remembered? record with
        | some r =>
          simp only [World.reflect, hheld]
          exact .rest rfl fun _ hi => hi
        | none =>
          cases hget : Table.get? d.world.catalog.types record.facts.className with
          | none =>
            rw [World.reflect_of_missing hheld hget]
            exact .rest rfl fun _ hi => hi
          | some r =>
            rw [World.reflect_of_defined hheld hget]
            exact .remind r hn hheld

/-- Records have serial numbers of their own, and only of them is anything remembered. -/
structure Orderly (d : Desk) : Prop where
  known : d.world.ledger.Sound
  entered : ∀ record ∈ d.records, record.serial < d.world.ledger.next
  distinct : (d.records.map Record.serial).Nodup

namespace Turn

variable {d d' : Desk} {act : Act} {record : Record} {r : Reflection}

theorem records (h : Turn d act d') : d.records <+: d'.records := by
  cases h with
  | rest _ _ => exact List.prefix_rfl
  | enter facts => exact List.prefix_append _ _
  | enterKnown facts r => exact List.prefix_append _ _
  | remind r _ _ => exact List.prefix_rfl

theorem defined? (h : Turn d act d') {i : Text} (hi : (d.defined? i).isSome = true) :
    (d'.defined? i).isSome = true := by
  cases h with
  | rest _ htypes => exact htypes i hi
  | enter facts => exact hi
  | enterKnown facts r => exact hi
  | remind r _ _ => exact hi

theorem orderly (h : Turn d act d') (ho : Orderly d) : Orderly d' := by
  have hentered : ∀ facts, ∀ record ∈ d.records ++ [(d.world.keep facts).1],
      record.serial < d.world.ledger.next + 1 := by
    intro facts record hmem
    rcases List.mem_append.1 hmem with hmem | hmem
    · exact Nat.lt_succ_of_lt (ho.entered record hmem)
    · rw [List.mem_singleton.1 hmem]
      exact Nat.lt_succ_self _
  have hdistinct : ∀ facts, ((d.records ++ [(d.world.keep facts).1]).map Record.serial).Nodup := by
    intro facts
    rw [List.map_append, List.nodup_append]
    refine ⟨ho.distinct, List.nodup_singleton _, ?_⟩
    intro serial hserial other hother heq
    obtain ⟨record, hmem, rfl⟩ := List.mem_map.1 hserial
    have hold := ho.entered record hmem
    have hnew : other = d.world.ledger.next := List.mem_singleton.1 hother
    omega
  cases h with
  | rest hledger _ =>
    refine ⟨?_, ?_, ho.distinct⟩
    · simpa only [hledger] using ho.known
    · simpa only [hledger] using ho.entered
  | enter facts => exact ⟨ho.known.enter facts, hentered facts, hdistinct facts⟩
  | enterKnown facts r =>
    exact ⟨(ho.known.enter facts).remember (Nat.lt_succ_self _) r, hentered facts, hdistinct facts⟩
  | remind r hn _ =>
    exact ⟨ho.known.remember (ho.entered _ (List.mem_of_getElem? hn)) r, ho.entered, ho.distinct⟩

/-- What is remembered stays as it is. -/
theorem remembered? (h : Turn d act d') (ho : Orderly d) (hr : d.held? record = some r) :
    d'.held? record = some r := by
  cases h with
  | rest hledger _ =>
    rw [held?, hledger]
    exact hr
  | enter facts => exact hr
  | enterKnown facts r' =>
    -- a new serial number is not that of a record that has a reflection
    have hne : (d.world.keep facts).1.serial ≠ record.serial :=
      Nat.ne_of_gt (ho.known.serial_lt hr)
    exact (Ledger.remembered?_remember_of_ne hne).trans hr
  | @remind n q other r' _ hnone =>
    have hne : other.serial ≠ record.serial := by
      intro heq
      rw [held?, Ledger.remembered?, heq] at hnone
      cases hnone.symm.trans hr
    exact (Ledger.remembered?_remember_of_ne hne).trans hr

/-- A record of which nothing was remembered comes to be remembered by an inquiry about itself. -/
theorem of_remembered? (h : Turn d act d') (ho : Orderly d) (hmem : record ∈ d.records)
    (hnone : d.held? record = none) (hr : d'.held? record = some r) :
    ∃ (n : Nat) (q : Inquiry), act = .ask n q ∧ d.records[n]? = some record := by
  cases h with
  | rest hledger _ =>
    rw [held?, hledger] at hr
    cases hnone.symm.trans hr
  | enter facts => cases hnone.symm.trans hr
  | enterKnown facts r' =>
    have hne : (d.world.keep facts).1.serial ≠ record.serial := Nat.ne_of_gt (ho.entered record hmem)
    cases hnone.symm.trans ((Ledger.remembered?_remember_of_ne hne).symm.trans hr)
  | @remind n q other r' hn _ =>
    by_cases hserial : other.serial = record.serial
    · obtain rfl := List.inj_on_of_nodup_map ho.distinct (List.mem_of_getElem? hn) hmem hserial
      exact ⟨n, q, rfl, hn⟩
    · cases hnone.symm.trans ((Ledger.remembered?_remember_of_ne hserial).symm.trans hr)

end Turn

/-! ## Runs -/

variable {d : Desk} {record : Record} {r : Reflection}

/-- What every turn keeps, every run keeps. -/
theorem run_keeps {P : Desk → Prop} (hturn : ∀ d act d', Turn d act d' → P d → P d') (acts : List Act)
    (h : P d) : P (d.run acts) := by
  induction acts generalizing d with
  | nil => exact h
  | cons act acts ih => exact ih (hturn d act _ (d.after_turn act) h)

theorem new_orderly (fs : FileSystem) (c : MemoryCatalog) : Orderly (new fs c) :=
  ⟨nofun, nofun, List.nodup_nil⟩

theorem Orderly.run (h : Orderly d) (acts : List Act) : Orderly (d.run acts) :=
  run_keeps (fun _ _ _ hturn ho => hturn.orderly ho) acts h

theorem run_records (d : Desk) (acts : List Act) : d.records <+: (d.run acts).records :=
  run_keeps (P := fun d' => d.records <+: d'.records)
    (fun _ _ _ hturn hp => hp.trans hturn.records) acts List.prefix_rfl

theorem run_held? (ho : Orderly d) (hr : d.held? record = some r) (acts : List Act) :
    (d.run acts).held? record = some r :=
  (run_keeps (P := fun d' => Orderly d' ∧ d'.held? record = some r)
    (fun _ _ _ hturn hp => ⟨hturn.orderly hp.1, hturn.remembered? hp.1 hp.2⟩) acts ⟨ho, hr⟩).2

/-- A type that a run defines is defined at its end. -/
theorem run_defined? {type : Reflection} {loaded : Bool} {acts : List Act}
    (h : .use (.define type loaded) ∈ acts) (d : Desk) :
    ((d.run acts).defined? type.identity).isSome = true := by
  obtain ⟨front, back, rfl⟩ := List.append_of_mem h
  rw [run, List.foldl_append, List.foldl_cons]
  refine run_keeps (P := fun d' => (d'.defined? type.identity).isSome = true)
    (fun _ _ _ hturn hp => hturn.defined? hp) back ?_
  have hput : ∀ c : MemoryCatalog,
      Table.get? (c.define type loaded).types type.identity = some type := by
    intro c
    unfold MemoryCatalog.define
    cases loaded <;> simp [MemoryCatalog.unload, Table.get?_put]
  rw [Desk.defined?, after, MemoryCatalog.use, hput]
  rfl

/-- How a record at a desk answers, now and after any further acts. It stays as it was made. Once
its reflection is there, every inquiry is answered from it. Before that an inquiry fails and changes
nothing as long as its class is not defined, and otherwise obtains the reflection that is defined;
nothing else brings one in. -/
structure Faithful (d : Desk) (record : Record) : Prop where
  stays : ∀ n : Nat, d.records[n]? = some record → ∀ acts, (d.run acts).records[n]? = some record
  same : ∀ r, d.held? record = some r → ∀ acts (q : Inquiry),
    q.put (d.run acts).world record = (q.answerFrom record r, (d.run acts).world)
  missing : d.held? record = none → d.defined? record.facts.className = none →
    ∀ q : Inquiry, q.reflects = true →
      q.put d.world record = (.error (.fault (.unresolvable record.facts.className)), d.world)
  first : ∀ r, d.held? record = none → d.defined? record.facts.className = some r →
    ∀ q : Inquiry, q.reflects = true → (q.put d.world record).1 = q.answerFrom record r ∧
      (q.put d.world record).2.ledger.remembered? record = some r
  only : d.held? record = none → ∀ act r, (d.after act).held? record = some r →
    ∃ (n : Nat) (q : Inquiry), act = .ask n q ∧ d.records[n]? = some record
  defined : ∀ acts type loaded, .use (.define type loaded) ∈ acts →
    type.identity = record.facts.className → ∃ r, ((d.run acts).world.reflect record).1 = .ok r

theorem Orderly.faithful (ho : Orderly d) (hmem : record ∈ d.records) : Faithful d record where
  stays := by
    intro n hn acts
    obtain ⟨rest, hrest⟩ := d.run_records acts
    rw [← hrest]
    exact (List.getElem?_append_left (List.getElem?_eq_some_iff.1 hn).1).trans hn
  same := fun r hr acts q => Inquiry.put_of_remembered (run_held? ho hr acts) q
  missing := by
    intro hnone hget q hq
    rw [q.put_eq, if_pos hq, World.reflect_of_missing hnone hget]
  first := by
    intro r hnone hget q hq
    rw [q.put_eq, if_pos hq, World.reflect_of_defined hnone hget]
    exact ⟨rfl, Ledger.remembered?_remember _ record r⟩
  only := fun hnone act r hr => (d.after_turn act).of_remembered? ho hmem hnone hr
  defined := by
    intro acts type loaded hdefine hname
    have hsome := run_defined? hdefine d
    rw [hname] at hsome
    obtain ⟨r, hget⟩ := Option.isSome_iff_exists.1 hsome
    rw [World.reflect_fst]
    cases hheld : (d.run acts).world.ledger.remembered? record with
    | some r' => exact ⟨r', by simp only [World.reflection, hheld]⟩
    | none =>
      refine ⟨r, ?_⟩
      simp only [World.reflection, hheld, TypeCatalog.reflect, MemoryCatalog.reflect,
        show Table.get? (d.run acts).world.catalog.types record.facts.className = some r from hget]

/-- After any acts every record is faithful to its first reflection. One that is made of an identity
holds the reflection defined then, and one that is made of parts holds none; both say for ever
whether the catalog had loaded their class when they were made. -/
theorem record_answers_from_one_reflection (fs : FileSystem) (c : MemoryCatalog) (acts : List Act) :
    (∀ record ∈ ((new fs c).run acts).records, Faithful ((new fs c).run acts) record) ∧
    (∀ identity sep record w,
      ((new fs c).run acts).world.recordOf identity sep = (.ok record, w) →
      (((new fs c).run acts).after (.fetch identity sep)).records =
          ((new fs c).run acts).records ++ [record] ∧
        record.facts.className = identity ∧
        record.facts.loaded = ((new fs c).run acts).world.catalog.isLoaded identity ∧
        ∃ r, ((new fs c).run acts).defined? identity = some r ∧
          (((new fs c).run acts).after (.fetch identity sep)).held? record = some r) ∧
    ∀ className basename space file sep record w,
      ((new fs c).run acts).world.newRecord className basename space file sep = (.ok record, w) →
      (((new fs c).run acts).after (.make className basename space file sep)).records =
          ((new fs c).run acts).records ++ [record] ∧
        record.facts.className = className ∧
        record.facts.loaded = ((new fs c).run acts).world.catalog.isLoaded className ∧
        (((new fs c).run acts).after (.make className basename space file sep)).held? record =
          none := by
  have ho := (new_orderly fs c).run acts
  generalize (new fs c).run acts = d at ho
  refine ⟨fun record hmem => ho.faithful hmem, fun identity sep record w h => ?_,
    fun className basename space file sep record w h => ?_⟩
  · rcases d.world.recordOf_cases identity sep with ⟨e, hnew⟩ | ⟨facts, r, hname, hloaded, hget, hnew⟩
    · cases h.symm.trans hnew
    · cases h.symm.trans hnew
      simp only [after, hnew]
      exact ⟨rfl, hname, hloaded, r, hget, Ledger.remembered?_remember _ _ r⟩
  · rcases d.world.newRecord_cases className basename space file sep with
      ⟨e, hnew⟩ | ⟨facts, hname, hloaded, hnew⟩
    · cases h.symm.trans hnew
    · cases h.symm.trans hnew
      simp only [after, hnew]
      exact ⟨rfl, hname, hloaded, ho.known.remembered?_enter facts⟩

/-- A class with one attribute. -/
def tinted (colour : Text) : Reflection :=
  ⟨"A\\B".toList, some "b.php".toList, [.bare colour], none⟩

/-- The first inquiry comes too early. The class is defined again before a second record of it is
made, and is no longer loaded then. -/
def tintedActs : List Act :=
  [.make "A\\B".toList "B".toList "A".toList "b.php".toList Identity.backslash, .ask 0 .reflect,
    .use (.define (tinted "Red".toList) true), .ask 0 (.hasAttribute (.named "Red".toList)),
    .use (.define (tinted "Blue".toList) false), .fetch "A\\B".toList Identity.backslash]

def tintedDesk : Desk := (new ⟨.dir [], [], [], []⟩ .empty).run tintedActs

/-- Two records of one class keep to different reflections, whatever is done later. -/
theorem tinted_records_keep_apart :
    ∃ red blue, tintedDesk.records = [red, blue] ∧ red.facts = blue.facts ∧
      ∀ acts, ((Inquiry.hasAttribute (.named "Red".toList)).put (tintedDesk.run acts).world red).1 =
          .ok (.truth true) ∧
        ((Inquiry.hasAttribute (.named "Red".toList)).put (tintedDesk.run acts).world blue).1 =
          .ok (.truth false) := by
  obtain ⟨hfaithful, -⟩ := record_answers_from_one_reflection ⟨.dir [], [], [], []⟩ .empty tintedActs
  set facts : ClassFacts :=
    ⟨"A\\B".toList, "B".toList, "A".toList, "b.php".toList, Identity.backslash, false⟩
  have hrecords : tintedDesk.records = [⟨facts, 0⟩, ⟨facts, 1⟩] := by decide +kernel
  have hred : tintedDesk.held? ⟨facts, 0⟩ = some (tinted "Red".toList) := by rfl
  have hblue : tintedDesk.held? ⟨facts, 1⟩ = some (tinted "Blue".toList) := by rfl
  refine ⟨_, _, hrecords, rfl, fun acts => ⟨?_, ?_⟩⟩
  · have hsame := (hfaithful ⟨facts, 0⟩ (hrecords ▸ by simp)).same _ hred acts
      (.hasAttribute (.named "Red".toList))
    exact congrArg Prod.fst hsame
  · have hsame := (hfaithful ⟨facts, 1⟩ (hrecords ▸ by simp)).same _ hblue acts
      (.hasAttribute (.named "Red".toList))
    exact congrArg Prod.fst hsame

end Desk
end ClassCensus
