import ClassCensus.Proofs.Listing
import ClassCensus.Proofs.Registrations
import Mathlib.Algebra.Ring.Nat

/-!
# ClassCensus.Proofs.Clerks

Clerks who register records side by side. Each has errands of its own: to register a record, or
to take a reader of what is registered. The key of a record is found before the lock is taken; the
look, the writing and the copying of the entries are steps made under it; the log is told after
it. A run is any order of the clerks' steps (`Office.Run`).

A registration takes effect when its clerk has looked and acts on it. The lock makes the look hold
until then, so the registrations are those of `Registry.register`, one after the other in the
order of their effect (`Registry.InTurn`); what the registry has in the end follows from that.
-/

namespace ClassCensus

/-! ## Clerks -/

inductive Errand where
  | register (record : Record)
  | read

namespace Errand

def record? : Errand → Option Record
  | .register record => some record
  | .read => none

/-- The most steps an errand takes. -/
def steps : Errand → Nat
  | .register _ => 6
  | .read => 3

/-- The records a clerk is to register. -/
def records (errands : List Errand) : List Record := errands.filterMap record?

theorem mem_records {errands : List Errand} {record : Record} :
    record ∈ records errands ↔ .register record ∈ errands := by
  simp only [records, List.mem_filterMap]
  constructor
  · rintro ⟨_ | _, hmem, h⟩
    · cases h
      exact hmem
    · cases h
  · intro hmem
    exact ⟨_, hmem, rfl⟩

end Errand

/-- Goes through the entries it was given, whatever becomes of the registry. -/
structure Reader where
  read : Registry
  unread : Registry

/-- What the clerks share: the registry, who has its lock, and the log. -/
structure Hall where
  registry : Registry
  lock : Option Nat
  log : List Notice

/-- How far a clerk is with an errand. -/
inductive Post where
  | free
  | keyed (record : Record) (key : Text)
  | inside (record : Record) (key : Text)
  | looked (record : Record) (key : Text) (taken : Bool)
  | written (record : Record) (key : Text) (isNew : Bool)
  | outside (record : Record) (key : Text) (isNew : Bool)
  | listing
  | copied (entries : Registry)

namespace Post

def holdsLock : Post → Bool
  | .inside _ _ | .looked _ _ _ | .written _ _ _ | .listing | .copied _ => true
  | .free | .keyed _ _ | .outside _ _ _ => false

/-- The record of the registration under way. -/
def underway : Post → List Record
  | .keyed record _ | .inside record _ | .looked record _ _ | .written record _ _
  | .outside record _ _ => [record]
  | .free | .listing | .copied _ => []

/-- The registration that has taken effect and is not answered yet. -/
def settled : Post → List Registration
  | .written record _ isNew | .outside record _ isNew => [⟨record, .ok isNew⟩]
  | _ => []

/-- The steps that remain of the errand. -/
def left : Post → Nat
  | .free => 0
  | .keyed _ _ => 5
  | .inside _ _ => 4
  | .looked _ _ _ => 3
  | .written _ _ _ | .listing => 2
  | .outside _ _ _ | .copied _ => 1

/-- What a clerk knows is so: its key, and under the lock what it saw in the registry. -/
def Fits (fs : FileSystem) (r : Registry) : Post → Prop
  | .keyed record key | .inside record key => fs.fingerprint record.facts.file = .ok key
  | .looked record key taken =>
    fs.fingerprint record.facts.file = .ok key ∧ taken = Table.has r key
  | .copied entries => entries = r
  | _ => True

/-- Without the lock nothing is known of the registry. -/
theorem Fits.elsewhere {fs : FileSystem} {r s : Registry} {post : Post}
    (hout : post.holdsLock = false) (h : post.Fits fs r) : post.Fits fs s := by
  cases post with
  | looked record key taken => cases hout
  | copied entries => cases hout
  | _ => exact h

/-- The steps of clerk `i` within an errand, each with the registration that takes effect in it. -/
inductive Advance (i : Nat) : Hall → Post → Option Registration → Hall → Post → Prop where
  | enter {h : Hall} {record : Record} {key : Text} :
      h.lock = none →
      Advance i h (.keyed record key) none { h with lock := some i } (.inside record key)
  | look {h : Hall} {record : Record} {key : Text} :
      Advance i h (.inside record key) none
        h (.looked record key (Table.has h.registry key))
  | skip {h : Hall} {record : Record} {key : Text} :
      Advance i h (.looked record key true) (some ⟨record, .ok false⟩)
        h (.written record key false)
  | write {h : Hall} {record : Record} {key : Text} :
      Advance i h (.looked record key false) (some ⟨record, .ok true⟩)
        { h with registry := Table.put h.registry key record } (.written record key true)
  | leave {h : Hall} {record : Record} {key : Text} {isNew : Bool} :
      Advance i h (.written record key isNew) none
        { h with lock := none } (.outside record key isNew)
  | copy {h : Hall} : Advance i h .listing none h (.copied h.registry)

namespace Advance

variable {fs : FileSystem} {i : Nat} {h h' : Hall} {post post' : Post}
  {call : Option Registration}

theorem underway (hadv : Advance i h post call h' post') : post'.underway = post.underway := by
  cases hadv <;> rfl

theorem settled (hadv : Advance i h post call h' post') :
    post'.settled = post.settled ++ call.toList := by
  cases hadv <;> rfl

theorem fits (hadv : Advance i h post call h' post') (hfits : post.Fits fs h.registry) :
    post'.Fits fs h'.registry := by
  cases hadv with
  | enter _ => exact hfits
  | look => exact ⟨hfits, rfl⟩
  | skip => trivial
  | write => trivial
  | leave => trivial
  | copy => exact rfl

theorem lock (hadv : Advance i h post call h' post')
    (hlock : post.holdsLock = true ↔ h.lock = some i) :
    post'.holdsLock = true ↔ h'.lock = some i := by
  cases hadv with
  | enter _ => simp [holdsLock]
  | leave => simp [holdsLock]
  | look => exact hlock
  | skip => exact hlock
  | write => exact hlock
  | copy => exact hlock

end Advance
end Post

structure Clerk where
  todo : List Errand
  post : Post
  made : List Registration
  readers : List Reader

namespace Clerk

/-- A step of clerk `i`, with the registration that takes effect in it. -/
inductive Move (fs : FileSystem) (i : Nat) :
    Hall → Clerk → Option Registration → Hall → Clerk → Prop where
  | key {h : Hall} {todo : List Errand} {made : List Registration} {readers : List Reader}
      {record : Record} {key : Text} :
      fs.fingerprint record.facts.file = .ok key →
      Move fs i h ⟨.register record :: todo, .free, made, readers⟩ none
        h ⟨todo, .keyed record key, made, readers⟩
  | refuse {h : Hall} {todo : List Errand} {made : List Registration} {readers : List Reader}
      {record : Record} {e : Failure} :
      fs.fingerprint record.facts.file = .error e →
      Move fs i h ⟨.register record :: todo, .free, made, readers⟩ (some ⟨record, .error e⟩)
        h ⟨todo, .free, made ++ [⟨record, .error e⟩], readers⟩
  | list {h : Hall} {todo : List Errand} {made : List Registration} {readers : List Reader} :
      h.lock = none →
      Move fs i h ⟨.read :: todo, .free, made, readers⟩ none
        { h with lock := some i } ⟨todo, .listing, made, readers⟩
  | advance {h h' : Hall} {todo : List Errand} {made : List Registration} {readers : List Reader}
      {post post' : Post} {call : Option Registration} :
      Post.Advance i h post call h' post' →
      Move fs i h ⟨todo, post, made, readers⟩ call h' ⟨todo, post', made, readers⟩
  | answer {h : Hall} {todo : List Errand} {made : List Registration} {readers : List Reader}
      {record : Record} {key : Text} {isNew : Bool} :
      Move fs i h ⟨todo, .outside record key isNew, made, readers⟩ none
        { h with log := h.log ++ [if isNew then .classRegistered record.facts.className key
          else .duplicateSkipped record.facts.file key] }
        ⟨todo, .free, made ++ [⟨record, .ok isNew⟩], readers⟩
  | take {h : Hall} {todo : List Errand} {made : List Registration} {readers : List Reader}
      {entries : Registry} :
      Move fs i h ⟨todo, .copied entries, made, readers⟩ none
        { h with lock := none } ⟨todo, .free, made, readers ++ [⟨[], entries⟩]⟩
  | next {h : Hall} {todo : List Errand} {made : List Registration} {readers : List Reader}
      {post : Post} {k : Nat} {e : Text × Record} {read unread : Registry} :
      readers[k]? = some ⟨read, e :: unread⟩ →
      Move fs i h ⟨todo, post, made, readers⟩ none
        h ⟨todo, post, made, readers.set k ⟨read ++ [e], unread⟩⟩

/-- Of the registrations that took effect, with the clerks they are of, those of one clerk. -/
def own (i : Nat) (calls : List (Nat × Registration)) : List Registration :=
  (calls.filter (·.1 = i)).map Prod.snd

/-- The registrations that took effect, after one more step of clerk `i`. -/
def noting (calls : List (Nat × Registration)) (i : Nat) (call : Option Registration) :
    List (Nat × Registration) :=
  calls ++ (call.map (i, ·)).toList

theorem own_noting_self (calls : List (Nat × Registration)) (i : Nat)
    (call : Option Registration) : own i (noting calls i call) = own i calls ++ call.toList := by
  cases call <;> simp [own, noting]

theorem own_noting_other (calls : List (Nat × Registration)) {i j : Nat} (hne : i ≠ j)
    (call : Option Registration) : own j (noting calls i call) = own j calls := by
  cases call <;> simp [own, noting, hne]

/-- What holds of each clerk along a run, for the errands it began with. -/
structure Sound (fs : FileSystem) (h : Hall) (calls : List (Nat × Registration))
    (errands : List Errand) (i : Nat) (c : Clerk) : Prop where
  /-- The clerk at a post under the lock is the one that has it. -/
  lock : c.post.holdsLock = true ↔ h.lock = some i
  fits : c.post.Fits fs h.registry
  own : own i calls = c.made ++ c.post.settled
  records : c.made.map Registration.record ++ c.post.underway ++ Errand.records c.todo =
    Errand.records errands

namespace Move

variable {fs : FileSystem} {i j : Nat} {h h' : Hall} {c c' d : Clerk}
  {call : Option Registration} {calls : List (Nat × Registration)} {errands : List Errand}

/-- A step keeps the clerk that makes it sound. -/
theorem sound (hmove : Move fs i h c call h' c') (hc : c.Sound fs h calls errands i) :
    c'.Sound fs h' (noting calls i call) errands i := by
  obtain ⟨hlock, hfits, hown, hrecords⟩ := hc
  have hself := own_noting_self calls i call
  rw [hown] at hself
  cases hmove with
  | key hkey =>
    exact ⟨hlock, hkey, by simpa [Post.settled] using hself,
      by simpa [Errand.records, Errand.record?, Post.underway] using hrecords⟩
  | refuse _ =>
    exact ⟨hlock, trivial, by simpa [Post.settled] using hself,
      by simpa [Errand.records, Errand.record?, Post.underway] using hrecords⟩
  | list _ =>
    exact ⟨by simp [Post.holdsLock], trivial, by simpa [Post.settled] using hself, hrecords⟩
  | advance hadv =>
    exact ⟨hadv.lock hlock, hadv.fits hfits, by rw [hself, hadv.settled, List.append_assoc],
      by rw [hadv.underway]; exact hrecords⟩
  | answer =>
    exact ⟨hlock, trivial, by simpa [Post.settled] using hself,
      by simpa [Post.underway] using hrecords⟩
  | take =>
    exact ⟨by simp [Post.holdsLock], trivial, by simpa [Post.settled] using hself, hrecords⟩
  | next _ => exact ⟨hlock, hfits, by simpa using hself, hrecords⟩

/-- A step gives the lock to no other clerk, nor takes it from one. -/
theorem lock_elsewhere (hmove : Move fs i h c call h' c')
    (hlock : c.post.holdsLock = true ↔ h.lock = some i) (hne : i ≠ j) :
    h'.lock = some j ↔ h.lock = some j := by
  have hleft : h.lock = some i → (none = some j ↔ h.lock = some j) := by
    intro h
    simp [h, hne]
  cases hmove with
  | key _ => rfl
  | refuse _ => rfl
  | list hfree => simp [hfree, hne]
  | advance hadv =>
    cases hadv with
    | enter hfree => simp [hfree, hne]
    | leave => exact hleft (hlock.1 rfl)
    | _ => rfl
  | answer => rfl
  | take => exact hleft (hlock.1 rfl)
  | next _ => rfl

/-- Only the clerk that has the lock writes. -/
theorem registry_eq_or (hmove : Move fs i h c call h' c') :
    h'.registry = h.registry ∨ c.post.holdsLock = true := by
  cases hmove with
  | advance hadv =>
    cases hadv with
    | write => exact .inr rfl
    | _ => exact .inl rfl
  | _ => exact .inl rfl

theorem sound_elsewhere (hmove : Move fs i h c call h' c') (hne : i ≠ j)
    (hlock : c.post.holdsLock = true ↔ h.lock = some i) (hd : d.Sound fs h calls errands j) :
    d.Sound fs h' (noting calls i call) errands j where
  lock := hd.lock.trans (hmove.lock_elsewhere hlock hne).symm
  fits := by
    rcases hmove.registry_eq_or with heq | hholds
    · rw [heq]
      exact hd.fits
    · -- the lock is with the clerk that writes, so this one knows nothing of the registry
      have hout : d.post.holdsLock = false := by
        rw [← Bool.not_eq_true, hd.lock, hlock.1 hholds]
        exact fun heq => hne (Option.some.inj heq)
      exact hd.fits.elsewhere hout
  own := by rw [own_noting_other calls hne, hd.own]
  records := hd.records

/-- A step registers as `Registry.register` would at the moment of its effect. -/
theorem inTurn {κ : Type} {w v : World κ} {made : List Registration}
    (hmove : Move w.files i h c call h' c') (hfits : c.post.Fits w.files h.registry)
    (hmade : Registry.InTurn w made h.registry v) :
    ∃ v', Registry.InTurn w (made ++ call.toList) h'.registry v' := by
  have hsame : made ++ (none : Option Registration).toList = made := List.append_nil made
  have hfiles := hmade.files
  cases hmove with
  | refuse herror =>
    rw [← hfiles] at herror
    exact ⟨v, hmade.refused (by simp only [Registry.register, herror])⟩
  | advance hadv =>
    cases hadv with
    | skip =>
      obtain ⟨hkey, hhas⟩ := hfits
      rw [← hfiles] at hkey
      exact ⟨_, hmade.answered (Registry.register_of_taken hkey hhas.symm)⟩
    | write =>
      obtain ⟨hkey, hhas⟩ := hfits
      rw [← hfiles] at hkey
      exact ⟨_, hmade.answered (Registry.register_of_free hkey hhas.symm)⟩
    | _ => exact ⟨v, hsame.symm ▸ hmade⟩
  | _ => exact ⟨v, hsame.symm ▸ hmade⟩

/-- What a reader yields in all does not change. -/
theorem reader_kept (hmove : Move fs i h c call h' c') {k : Nat} {reader : Reader}
    (hreader : c.readers[k]? = some reader) :
    ∃ reader', c'.readers[k]? = some reader' ∧
      reader'.read ++ reader'.unread = reader.read ++ reader.unread := by
  cases hmove with
  | take =>
    have hk := (List.getElem?_eq_some_iff.1 hreader).1
    exact ⟨reader, (List.getElem?_append_left hk).trans hreader, rfl⟩
  | @next _ _ readers _ k' e read unread hnext =>
    by_cases hk : k' = k
    · subst hk
      cases hnext.symm.trans hreader
      have hlt := (List.getElem?_eq_some_iff.1 hreader).1
      exact ⟨_, List.getElem?_set_self hlt, by simp⟩
    · exact ⟨reader, (List.getElem?_set_ne hk).trans hreader, rfl⟩
  | _ => exact ⟨reader, hreader, rfl⟩

/-- A reader is given the entries that are there when it is taken. -/
theorem reader_new (hmove : Move fs i h c call h' c') (hfits : c.post.Fits fs h.registry)
    {k : Nat} {reader : Reader} (hnone : c.readers[k]? = none)
    (hreader : c'.readers[k]? = some reader) : reader = ⟨[], h'.registry⟩ := by
  cases hmove with
  | @take _ _ readers entries =>
    have hentries : entries = h.registry := hfits
    have hge := List.getElem?_eq_none_iff.1 hnone
    rw [List.getElem?_append_right hge] at hreader
    rw [← hentries]
    exact (List.mem_singleton.1 (List.mem_of_getElem? hreader))
  | next _ =>
    rw [List.getElem?_eq_none_iff, ← List.length_set, ← List.getElem?_eq_none_iff] at hnone
    cases hnone.symm.trans hreader
  | _ => cases hnone.symm.trans hreader

end Move

/-! ## Steps that remain -/

def left (c : Clerk) : Nat := (c.todo.map Errand.steps).sum + c.post.left

def Done (c : Clerk) : Prop := c.post = .free ∧ c.todo = []

/-- A clerk with work to do is only ever held up by the lock. -/
theorem can_move (fs : FileSystem) (i : Nat) {h : Hall} {c : Clerk}
    (hlock : c.post.holdsLock = true ∨ h.lock = none) (hbusy : ¬c.Done) :
    ∃ call h' c', Move fs i h c call h' c' ∧ c'.left < c.left := by
  obtain ⟨todo, post, made, readers⟩ := c
  have hfree : post.holdsLock = false → h.lock = none := by
    intro hout
    rcases hlock with hholds | hnone
    · cases hout.symm.trans hholds
    · exact hnone
  cases post with
  | free =>
    cases todo with
    | nil => exact absurd ⟨rfl, rfl⟩ hbusy
    | cons errand todo =>
      cases errand with
      | read => exact ⟨_, _, _, .list (hfree rfl), by simp [left, Post.left, Errand.steps]; omega⟩
      | register record =>
        cases hkey : fs.fingerprint record.facts.file with
        | error e => exact ⟨_, _, _, .refuse hkey, by simp [left, Post.left, Errand.steps]⟩
        | ok key => exact ⟨_, _, _, .key hkey, by simp [left, Post.left, Errand.steps]; omega⟩
  | keyed record key => exact ⟨_, _, _, .advance (.enter (hfree rfl)), by simp [left, Post.left]⟩
  | inside record key => exact ⟨_, _, _, .advance .look, by simp [left, Post.left]⟩
  | looked record key taken =>
    cases taken with
    | true => exact ⟨_, _, _, .advance .skip, by simp [left, Post.left]⟩
    | false => exact ⟨_, _, _, .advance .write, by simp [left, Post.left]⟩
  | written record key isNew => exact ⟨_, _, _, .advance .leave, by simp [left, Post.left]⟩
  | outside record key isNew => exact ⟨_, _, _, .answer, by simp [left, Post.left]⟩
  | listing => exact ⟨_, _, _, .advance .copy, by simp [left, Post.left]⟩
  | copied entries => exact ⟨_, _, _, .take, by simp [left, Post.left]⟩

end Clerk

/-! ## The office -/

structure Office where
  hall : Hall
  clerks : List Clerk

namespace Office

/-- The office before anything is done: a clerk for each list of errands. -/
def start (plan : List (List Errand)) : Office :=
  ⟨⟨[], none, []⟩, plan.map fun errands => ⟨errands, .free, [], []⟩⟩

def Finished (o : Office) : Prop := ∀ c ∈ o.clerks, c.Done

def reader? (o : Office) (i k : Nat) : Option Reader := o.clerks[i]?.bind (·.readers[k]?)

inductive Step (fs : FileSystem) (o : Office) (i : Nat) (call : Option Registration) :
    Office → Prop where
  | move {c c' : Clerk} {h : Hall} :
      o.clerks[i]? = some c → Clerk.Move fs i o.hall c call h c' →
      Step fs o i call ⟨h, o.clerks.set i c'⟩

/-- A run, with the registrations in the order they took effect and the clerks they are of. -/
inductive Run (fs : FileSystem) (o : Office) : List (Nat × Registration) → Office → Prop where
  | refl : Run fs o [] o
  | snoc {calls : List (Nat × Registration)} {p q : Office} {i : Nat}
      {call : Option Registration} :
      Run fs o calls p → Step fs p i call q → Run fs o (Clerk.noting calls i call) q

theorem Run.trans {fs : FileSystem} {o p q : Office} {calls more : List (Nat × Registration)}
    (h₁ : Run fs o calls p) (h₂ : Run fs p more q) : Run fs o (calls ++ more) q := by
  induction h₂ with
  | refl => rwa [List.append_nil]
  | snoc _ hstep ih =>
    rw [Clerk.noting, ← List.append_assoc]
    exact ih.snoc hstep

variable {κ : Type}

/-- What holds along a run: each clerk is sound, the lock is with one of them, and the
registrations that took effect were made in turn. -/
structure Sound (w : World κ) (plan : List (List Errand)) (calls : List (Nat × Registration))
    (o : Office) : Prop where
  size : o.clerks.length = plan.length
  clerks : ∀ (i : Nat) (c : Clerk) (errands : List Errand), o.clerks[i]? = some c →
    plan[i]? = some errands → c.Sound w.files o.hall calls errands i
  holder : ∀ i, o.hall.lock = some i → i < o.clerks.length
  callers : ∀ call ∈ calls, call.1 < plan.length
  inTurn : ∃ v, Registry.InTurn w (calls.map Prod.snd) o.hall.registry v

theorem sound_start (w : World κ) (plan : List (List Errand)) : Sound w plan [] (start plan) where
  size := List.length_map _
  clerks i c errands hc herrands := by
    rw [start, List.getElem?_map, herrands] at hc
    cases hc
    exact ⟨by simp [Post.holdsLock, start], trivial, rfl, rfl⟩
  holder i h := by cases h
  callers := by simp
  inTurn := ⟨w, .start⟩

variable {w : World κ} {plan : List (List Errand)} {calls : List (Nat × Registration)}
  {o p : Office} {i : Nat} {call : Option Registration}

theorem Sound.errands_of_clerk (ho : Sound w plan calls o) {c : Clerk}
    (hc : o.clerks[i]? = some c) : ∃ errands, plan[i]? = some errands := by
  have hlt := (List.getElem?_eq_some_iff.1 hc).1
  exact ⟨_, List.getElem?_eq_getElem (ho.size ▸ hlt)⟩

theorem Step.sound (hstep : Step w.files o i call p) (ho : Sound w plan calls o) :
    Sound w plan (Clerk.noting calls i call) p := by
  obtain @⟨c, c', h, hc, hmove⟩ := hstep
  have hi := (List.getElem?_eq_some_iff.1 hc).1
  obtain ⟨errands, herrands⟩ := ho.errands_of_clerk hc
  have hsound := ho.clerks i c errands hc herrands
  refine ⟨?_, ?_, ?_, ?_, ?_⟩
  · rw [List.length_set, ho.size]
  · intro j d errands' hd herrands'
    by_cases hne : i = j
    · subst hne
      rw [List.getElem?_set_self hi] at hd
      cases hd
      cases herrands.symm.trans herrands'
      exact hmove.sound hsound
    · rw [List.getElem?_set_ne hne] at hd
      exact hmove.sound_elsewhere hne hsound.lock (ho.clerks j d errands' hd herrands')
  · intro j hj
    rw [List.length_set]
    by_cases hne : i = j
    · exact hne ▸ hi
    · exact ho.holder j ((hmove.lock_elsewhere hsound.lock hne).1 hj)
  · intro entry hentry
    rcases List.mem_append.1 hentry with hentry | hentry
    · exact ho.callers entry hentry
    · obtain ⟨_, -, rfl⟩ := Option.map_eq_some_iff.1 (Option.mem_toList.1 hentry)
      exact ho.size ▸ hi
  · obtain ⟨v, hmade⟩ := ho.inTurn
    obtain ⟨v', hmade'⟩ := hmove.inTurn hsound.fits hmade
    refine ⟨v', ?_⟩
    have hcalls : (Clerk.noting calls i call).map Prod.snd =
        calls.map Prod.snd ++ call.toList := by
      cases call <;> simp [Clerk.noting]
    rwa [hcalls]

theorem Run.sound (hrun : Run w.files (start plan) calls o) : Sound w plan calls o := by
  induction hrun with
  | refl => exact sound_start w plan
  | snoc _ hstep ih => exact hstep.sound ih

/-! ## Readers -/

theorem Step.reader_kept (hstep : Step w.files o i call p) {j k : Nat} {reader : Reader}
    (hreader : o.reader? j k = some reader) :
    ∃ reader', p.reader? j k = some reader' ∧
      reader'.read ++ reader'.unread = reader.read ++ reader.unread := by
  obtain ⟨hc, hmove⟩ := hstep
  have hi := (List.getElem?_eq_some_iff.1 hc).1
  by_cases hne : i = j
  · subst hne
    simp only [reader?, hc, Option.bind_some] at hreader
    simp only [reader?, List.getElem?_set_self hi, Option.bind_some]
    exact hmove.reader_kept hreader
  · refine ⟨reader, ?_, rfl⟩
    simpa only [reader?, List.getElem?_set_ne hne] using hreader

theorem Run.reader_kept (hrun : Run w.files o calls p) {j k : Nat} {reader : Reader}
    (hreader : o.reader? j k = some reader) :
    ∃ reader', p.reader? j k = some reader' ∧
      reader'.read ++ reader'.unread = reader.read ++ reader.unread := by
  induction hrun with
  | refl => exact ⟨reader, hreader, rfl⟩
  | snoc _ hstep ih =>
    obtain ⟨between, hbetween, heq⟩ := ih
    obtain ⟨reader', hreader', heq'⟩ := hstep.reader_kept hbetween
    exact ⟨reader', hreader', heq'.trans heq⟩

theorem Step.reader_new (hstep : Step w.files o i call p) (ho : Sound w plan calls o) {j k : Nat}
    {reader : Reader} (hnone : o.reader? j k = none) (hreader : p.reader? j k = some reader) :
    reader = ⟨[], p.hall.registry⟩ := by
  obtain ⟨hc, hmove⟩ := hstep
  have hi := (List.getElem?_eq_some_iff.1 hc).1
  by_cases hne : i = j
  · subst hne
    obtain ⟨errands, herrands⟩ := ho.errands_of_clerk hc
    simp only [reader?, hc, Option.bind_some] at hnone
    simp only [reader?, List.getElem?_set_self hi, Option.bind_some] at hreader
    exact hmove.reader_new (ho.clerks _ _ errands hc herrands).fits hnone hreader
  · simp only [reader?, List.getElem?_set_ne hne] at hreader
    cases hnone.symm.trans hreader

/-! ## Runs that end -/

def left (o : Office) : Nat := (o.clerks.map Clerk.left).sum

theorem sum_left_set {clerks : List Clerk} {c c' : Clerk} (hc : clerks[i]? = some c)
    (hlt : c'.left < c.left) :
    ((clerks.set i c').map Clerk.left).sum < (clerks.map Clerk.left).sum := by
  induction clerks generalizing i with
  | nil => cases hc
  | cons d clerks ih =>
    cases i with
    | zero =>
      cases hc
      simpa using hlt
    | succ i =>
      simpa using ih hc

/-- While there is work, a clerk can do some of it: the one that has the lock, or if it is free
any that is not done. -/
theorem Sound.can_step (ho : Sound w plan calls o) (hbusy : ¬o.Finished) :
    ∃ i call p, Step w.files o i call p ∧ p.left < o.left := by
  obtain ⟨i, c, hc, hlock, hwork⟩ : ∃ (i : Nat) (c : Clerk), o.clerks[i]? = some c ∧
      (c.post.holdsLock = true ∨ o.hall.lock = none) ∧ ¬c.Done := by
    cases hlock : o.hall.lock with
    | none =>
      simp only [Finished, not_forall] at hbusy
      obtain ⟨c, hmem, hwork⟩ := hbusy
      obtain ⟨i, hc⟩ := List.mem_iff_getElem?.1 hmem
      exact ⟨i, c, hc, .inr rfl, hwork⟩
    | some i =>
      have hc := List.getElem?_eq_getElem (ho.holder i hlock)
      obtain ⟨errands, herrands⟩ := ho.errands_of_clerk hc
      have hholds := (ho.clerks i _ errands hc herrands).lock.2 hlock
      refine ⟨i, _, hc, .inl hholds, ?_⟩
      rintro ⟨hfree, -⟩
      rw [hfree] at hholds
      cases hholds
  obtain ⟨call, h, c', hmove, hlt⟩ := Clerk.can_move w.files i hlock hwork
  exact ⟨i, call, _, .move hc hmove, sum_left_set hc hlt⟩

theorem Sound.can_finish (ho : Sound w plan calls o) :
    ∃ more p, Run w.files o more p ∧ p.Finished := by
  induction hn : o.left using Nat.strongRecOn generalizing o calls with
  | ind n ih =>
    by_cases hdone : o.Finished
    · exact ⟨[], o, .refl, hdone⟩
    · obtain ⟨i, call, p, hstep, hlt⟩ := ho.can_step hdone
      obtain ⟨more, q, hrest, hfinished⟩ := ih p.left (hn ▸ hlt) (hstep.sound ho) rfl
      exact ⟨_, q, (Run.snoc .refl hstep).trans hrest, hfinished⟩

/-! ## What is registered in the end -/

/-- How an office ends, for the registrations in the order they took effect. -/
structure Settled (w : World κ) (plan : List (List Errand)) (calls : List (Nat × Registration))
    (o : Office) : Prop where
  callers : ∀ call ∈ calls, call.1 < plan.length
  /-- Each clerk has made its registrations, in its own order, with the answers they took effect
  with. -/
  made : ∀ (i : Nat) (errands : List Errand), plan[i]? = some errands → ∃ c, o.clerks[i]? = some c ∧
    c.made.map Registration.record = Errand.records errands ∧ c.made = Clerk.own i calls
  /-- The keys are those of the files to register. -/
  keys : ∀ k, k ∈ Table.keys o.hall.registry ↔
    ∃ errands ∈ plan, ∃ record, .register record ∈ errands ∧
      w.files.fingerprint record.facts.file = .ok k
  inTurn : ∃ v, Registry.InTurn w (calls.map Prod.snd) o.hall.registry v
  tallies : Registry.Tallies w.files (calls.map Prod.snd) o.hall.registry

/-- A clerk that is done has made the registrations of its errands, each as it took effect. -/
theorem Sound.made (ho : Sound w plan calls o) (hdone : o.Finished) {errands : List Errand}
    (herrands : plan[i]? = some errands) : ∃ c, o.clerks[i]? = some c ∧
      c.made.map Registration.record = Errand.records errands ∧ c.made = Clerk.own i calls := by
  have hi := (List.getElem?_eq_some_iff.1 herrands).1
  have hc := List.getElem?_eq_getElem (ho.size.symm ▸ hi)
  obtain ⟨-, -, hown, hrecords⟩ := ho.clerks i _ errands hc herrands
  obtain ⟨hfree, htodo⟩ := hdone _ (List.mem_of_getElem? hc)
  rw [hfree] at hown hrecords
  rw [htodo] at hrecords
  refine ⟨_, hc, ?_, ?_⟩
  · simpa [Post.underway, Errand.records] using hrecords
  · simpa [Post.settled] using hown.symm

/-- What took effect in the end is what the errands were. -/
theorem Sound.exists_call_iff (ho : Sound w plan calls o) (hdone : o.Finished) {record : Record} :
    (∃ g ∈ calls.map Prod.snd, g.record = record) ↔
      ∃ errands ∈ plan, .register record ∈ errands := by
  constructor
  · rintro ⟨g, hg, rfl⟩
    obtain ⟨⟨i, g⟩, hcall, rfl⟩ := List.mem_map.1 hg
    have herrands := List.getElem?_eq_getElem (ho.callers _ hcall)
    obtain ⟨c, -, hrecords, hown⟩ := ho.made hdone herrands
    have hmem : g ∈ c.made := by
      rw [hown]
      exact List.mem_map.2 ⟨(i, g), by simpa using hcall, rfl⟩
    have hrecord := hrecords ▸ List.mem_map_of_mem hmem
    exact ⟨_, List.mem_of_getElem? herrands, Errand.mem_records.1 hrecord⟩
  · rintro ⟨errands, hmem, hrecord⟩
    obtain ⟨i, herrands⟩ := List.mem_iff_getElem?.1 hmem
    obtain ⟨c, -, hrecords, hown⟩ := ho.made hdone herrands
    rw [← Errand.mem_records, ← hrecords, hown] at hrecord
    obtain ⟨g, hg, rfl⟩ := List.mem_map.1 hrecord
    obtain ⟨call, hcall, rfl⟩ := List.mem_map.1 hg
    exact ⟨call.2, List.mem_map_of_mem (List.mem_of_mem_filter hcall), rfl⟩

theorem Sound.settled (ho : Sound w plan calls o) (hdone : o.Finished) :
    Settled w plan calls o := by
  obtain ⟨v, hturn⟩ := ho.inTurn
  refine ⟨ho.callers, fun i errands => ho.made hdone, fun k => ?_, ⟨v, hturn⟩, hturn.tallies⟩
  rw [hturn.tallies.keys]
  constructor
  · rintro ⟨g, hg, hkey⟩
    obtain ⟨errands, hmem, hrecord⟩ := (ho.exists_call_iff hdone).1 ⟨g, hg, rfl⟩
    exact ⟨errands, hmem, g.record, hrecord, FileSystem.key?_eq_some.1 hkey⟩
  · rintro ⟨errands, hmem, record, hrecord, hkey⟩
    obtain ⟨g, hg, rfl⟩ := (ho.exists_call_iff hdone).2 ⟨errands, hmem, hrecord⟩
    exact ⟨g, hg, FileSystem.key?_eq_some.2 hkey⟩

/-- Whatever the order of their steps, the clerks register each file once. A reader yields the
entries of the moment it was taken, and no clerk waits for the lock for ever. -/
theorem clerks_register_each_file_once (w : World κ) (plan : List (List Errand)) :
    (∀ calls o, Run w.files (start plan) calls o → o.Finished → Settled w plan calls o) ∧
    (∀ calls more o p q i call, Run w.files (start plan) calls o → Step w.files o i call p →
      Run w.files p more q → ∀ j k reader, o.reader? j k = none → p.reader? j k = some reader →
        reader = ⟨[], p.hall.registry⟩ ∧
          ∃ reader', q.reader? j k = some reader' ∧
            reader'.read ++ reader'.unread = p.hall.registry) ∧
    ∀ calls o, Run w.files (start plan) calls o → ∃ more p, Run w.files o more p ∧ p.Finished := by
  refine ⟨fun calls o hrun hdone => hrun.sound.settled hdone, ?_,
    fun calls o hrun => hrun.sound.can_finish⟩
  intro calls more o p q i call hrun hstep hrest j k reader hnone hreader
  have hnew := hstep.reader_new hrun.sound hnone hreader
  obtain ⟨reader', hreader', heq⟩ := hrest.reader_kept hreader
  refine ⟨hnew, reader', hreader', ?_⟩
  rw [heq, hnew]
  rfl

/-- A directory and a link to it. -/
def linkedFolder : World Unit :=
  ⟨⟨.dir [("w".toList, .dir [("lnk".toList, .link "src".toList), ("src".toList, .dir [])])], [],
    ["w".toList], []⟩, (), .empty, none, 0, []⟩

def recordAt (file : Text) (serial : Nat) : Record :=
  ⟨⟨"A".toList, "A".toList, [], file, Identity.backslash, false⟩, serial⟩

/-- Two clerks have one file by two names; the second also has a file without a key. -/
def spelledErrands : List (List Errand) :=
  [[.register (recordAt "src/A.php".toList 0), .read],
    [.register (recordAt "./lnk/A.php".toList 1), .register (recordAt "a\x00".toList 2)]]

theorem two_names_one_entry :
    (∃ calls o, Run linkedFolder.files (start spelledErrands) calls o ∧ o.Finished) ∧
      ∀ calls o, Run linkedFolder.files (start spelledErrands) calls o → o.Finished →
        Table.keys o.hall.registry = [fingerprintOf "/w/src/A.php".toList] ∧
          (calls.map Prod.snd).countP Registration.isNew = 1 := by
  obtain ⟨hsettled, -, hfinish⟩ := clerks_register_each_file_once linkedFolder spelledErrands
  obtain ⟨calls, o, hrun, hdone⟩ := hfinish [] _ .refl
  refine ⟨⟨calls, o, hrun, hdone⟩, fun calls o hrun hdone => ?_⟩
  have h := hsettled calls o hrun hdone
  have hprint : ∀ file path, (linkedFolder.files.canonical file).toOption = some path →
      linkedFolder.files.fingerprint file = .ok (fingerprintOf path) := by
    intro file path hpath
    have hoctets : linkedFolder.files.encodes path = true := by
      simp [FileSystem.encodes, linkedFolder]
    simp only [FileSystem.fingerprint, Listing.eq_of_toOption hpath, hoctets, if_true]
  have hplain := hprint "src/A.php".toList "/w/src/A.php".toList (by decide +kernel)
  have hlinked := hprint "./lnk/A.php".toList "/w/src/A.php".toList (by decide +kernel)
  have hnone : (linkedFolder.files.fingerprint "a\x00".toList).toOption = none := by decide +kernel
  have hkeys : ∀ k ∈ Table.keys o.hall.registry, k = fingerprintOf "/w/src/A.php".toList := by
    intro k hk
    obtain ⟨errands, herrands, record, hrecord, hkey⟩ := (h.keys k).1 hk
    simp only [spelledErrands, List.mem_cons, List.not_mem_nil, or_false] at herrands
    rcases herrands with rfl | rfl
    · simp only [List.mem_cons, List.not_mem_nil, or_false, Errand.register.injEq, reduceCtorEq]
        at hrecord
      subst hrecord
      exact (Except.ok.inj (hplain.symm.trans hkey)).symm
    · simp only [List.mem_cons, List.not_mem_nil, or_false, Errand.register.injEq] at hrecord
      rcases hrecord with rfl | rfl
      · exact (Except.ok.inj (hlinked.symm.trans hkey)).symm
      · rw [show linkedFolder.files.fingerprint "a\x00".toList = .ok k from hkey] at hnone
        cases hnone
  have hmem : fingerprintOf "/w/src/A.php".toList ∈ Table.keys o.hall.registry :=
    (h.keys _).2 ⟨_, List.mem_cons_self, _, List.mem_cons_self, hplain⟩
  have hsole : Table.keys o.hall.registry = [fingerprintOf "/w/src/A.php".toList] := by
    have hall := List.eq_replicate_of_mem hkeys
    have hnodup := h.tallies.nodup
    rw [hall, List.nodup_replicate] at hnodup
    have hlength : (Table.keys o.hall.registry).length = 1 :=
      Nat.le_antisymm hnodup (List.length_pos_of_mem hmem)
    rw [hall, hlength]
    rfl
  refine ⟨hsole, ?_⟩
  rw [h.tallies.count, ← List.length_map Prod.fst]
  exact congrArg List.length hsole

end Office
end ClassCensus
