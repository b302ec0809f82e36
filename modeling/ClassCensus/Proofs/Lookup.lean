import ClassCensus.Files.System
import Mathlib.Data.List.Basic

/-!
# ClassCensus.Proofs.Lookup

Looking paths up, as a relation. `Leads tree k here names there` says that the names lead from
`here` to `there` and that `k` links are replaced on the way, each with a way of its own.

`resolve_of_leads` and `leads_of_resolve` tie the relation to the look-up that counts links as it
goes; `Leads.unique` says that a way and its links are fixed by where it starts, so no link can be
replaced again while it is being replaced.
-/

namespace ClassCensus
namespace FileSystem

/-- A name that is looked up in a directory. -/
structure Named (name : Text) : Prop where
  notIdle : Spelling.isIdle name = false
  notUp : name ≠ Spelling.dotDot

/-- The names lead from `here` to `there` by way of `k` links. -/
inductive Leads (tree : Tree) : Nat → Location → List Text → Location → Prop
  | done (here : Location) : Leads tree 0 here [] here
  | stay {k : Nat} {here there : Location} {name : Text} {rest : List Text}
      {entries : List (Text × Tree)} (hdir : tree.at? here = some (.dir entries))
      (hidle : Spelling.isIdle name = true) (hrest : Leads tree k here rest there) :
      Leads tree k here (name :: rest) there
  | up {k : Nat} {here there : Location} {rest : List Text} {entries : List (Text × Tree)}
      (hdir : tree.at? here = some (.dir entries)) (hrest : Leads tree k here.dropLast rest there) :
      Leads tree k here (Spelling.dotDot :: rest) there
  | down {k : Nat} {here there : Location} {name : Text} {rest : List Text}
      {entries : List (Text × Tree)} {t : Tree} (hdir : tree.at? here = some (.dir entries))
      (hname : Named name) (hget : Table.get? entries name = some t) (hlink : ∀ target, t ≠ .link target)
      (hrest : Leads tree k (here ++ [name]) rest there) :
      Leads tree k here (name :: rest) there
  | link {j k : Nat} {here mid there : Location} {name target : Text} {rest : List Text}
      {entries : List (Text × Tree)} (hdir : tree.at? here = some (.dir entries))
      (hname : Named name) (hget : Table.get? entries name = some (.link target))
      (htarget : Leads tree j (start here target) (Text.pieces '/' target) mid)
      (hrest : Leads tree k mid rest there) :
      Leads tree (j + k + 1) here (name :: rest) there

namespace Leads

variable {tree : Tree} {j k : Nat} {here mid there : Location} {as bs : List Text}

theorem append (h : Leads tree j here as mid) (h' : Leads tree k mid bs there) :
    Leads tree (j + k) here (as ++ bs) there := by
  induction h with
  | done here =>
    rw [Nat.zero_add]
    exact h'
  | stay hdir hidle _ ih => exact .stay hdir hidle (ih h')
  | up hdir _ ih => exact .up hdir (ih h')
  | down hdir hname hget hlink _ ih => exact .down hdir hname hget hlink (ih h')
  | @link j₁ k₁ _ _ _ _ _ _ _ hdir hname hget htarget _ _ ih =>
    have h := Leads.link hdir hname hget htarget (ih h')
    rw [show j₁ + k₁ + 1 + k = j₁ + (k₁ + k) + 1 by omega]
    exact h

theorem split (h : Leads tree k here (as ++ bs) there) :
    ∃ i j mid, i + j = k ∧ Leads tree i here as mid ∧ Leads tree j mid bs there := by
  generalize hnames : as ++ bs = names at h
  induction h generalizing as with
  | done here =>
    obtain ⟨rfl, rfl⟩ := List.append_eq_nil_iff.1 hnames
    exact ⟨0, 0, here, rfl, .done here, .done here⟩
  | @stay k here there name rest entries hdir hidle hrest ih =>
    rcases List.append_eq_cons_iff.1 hnames with ⟨rfl, rfl⟩ | ⟨as', rfl, hrest'⟩
    · exact ⟨0, k, here, by omega, .done here, .stay hdir hidle hrest⟩
    · obtain ⟨i, j, mid, hk, hi, hj⟩ := ih hrest'.symm
      exact ⟨i, j, mid, hk, .stay hdir hidle hi, hj⟩
  | @up k here there rest entries hdir hrest ih =>
    rcases List.append_eq_cons_iff.1 hnames with ⟨rfl, rfl⟩ | ⟨as', rfl, hrest'⟩
    · exact ⟨0, k, here, by omega, .done here, .up hdir hrest⟩
    · obtain ⟨i, j, mid, hk, hi, hj⟩ := ih hrest'.symm
      exact ⟨i, j, mid, hk, .up hdir hi, hj⟩
  | @down k here there name rest entries t hdir hname hget hlink hrest ih =>
    rcases List.append_eq_cons_iff.1 hnames with ⟨rfl, rfl⟩ | ⟨as', rfl, hrest'⟩
    · exact ⟨0, k, here, by omega, .done here, .down hdir hname hget hlink hrest⟩
    · obtain ⟨i, j, mid, hk, hi, hj⟩ := ih hrest'.symm
      exact ⟨i, j, mid, hk, .down hdir hname hget hlink hi, hj⟩
  | @link j₁ k₁ here mid₁ there name target rest entries hdir hname hget htarget hrest _ ih =>
    rcases List.append_eq_cons_iff.1 hnames with ⟨rfl, rfl⟩ | ⟨as', rfl, hrest'⟩
    · exact ⟨0, j₁ + k₁ + 1, here, by omega, .done here, .link hdir hname hget htarget hrest⟩
    · obtain ⟨i, j, mid, hk, hi, hj⟩ := ih hrest'.symm
      exact ⟨j₁ + i + 1, j, mid, by omega, .link hdir hname hget htarget hi, hj⟩

/-- Where a way ends and how many links it takes are fixed by its start. -/
theorem unique {k' : Nat} {there' : Location} (h : Leads tree k here as there)
    (h' : Leads tree k' here as there') : k = k' ∧ there = there' := by
  induction h generalizing k' there' with
  | done here =>
    cases h'
    exact ⟨rfl, rfl⟩
  | stay hdir hidle _ ih =>
    cases h' with
    | stay _ _ h' => exact ih h'
    | up _ _ => exact absurd hidle (by decide)
    | down _ hname _ _ _ => exact absurd hidle (by simp [hname.notIdle])
    | link _ hname _ _ _ => exact absurd hidle (by simp [hname.notIdle])
  | up hdir _ ih =>
    cases h' with
    | stay _ hidle _ => exact absurd hidle (by decide)
    | up _ h' => exact ih h'
    | down _ hname _ _ _ => exact absurd rfl hname.notUp
    | link _ hname _ _ _ => exact absurd rfl hname.notUp
  | down hdir hname hget hlink _ ih =>
    cases h' with
    | stay _ hidle _ => exact absurd hidle (by simp [hname.notIdle])
    | up _ _ => exact absurd rfl hname.notUp
    | down _ _ _ _ h' => exact ih h'
    | link hdir' _ hget' _ _ =>
      cases hdir.symm.trans hdir'
      exact absurd (Option.some.inj (hget.symm.trans hget')) (hlink _)
  | link hdir hname hget _ _ ihtarget ih =>
    cases h' with
    | stay _ hidle _ => exact absurd hidle (by simp [hname.notIdle])
    | up _ _ => exact absurd rfl hname.notUp
    | down hdir' _ hget' hlink _ =>
      cases hdir.symm.trans hdir'
      exact absurd (Option.some.inj (hget'.symm.trans hget)) (hlink _)
    | link hdir' _ hget' htarget' h' =>
      cases hdir.symm.trans hdir'
      cases hget.symm.trans hget'
      obtain ⟨rfl, rfl⟩ := ihtarget htarget'
      obtain ⟨rfl, rfl⟩ := ih h'
      exact ⟨rfl, rfl⟩

/-- A way with any name on it starts at a directory. -/
theorem isDir (h : Leads tree k here as there) (hne : as ≠ []) :
    ∃ entries, tree.at? here = some (.dir entries) := by
  cases h with
  | done here => exact absurd rfl hne
  | stay hdir _ _ => exact ⟨_, hdir⟩
  | up hdir _ => exact ⟨_, hdir⟩
  | down hdir _ _ _ _ => exact ⟨_, hdir⟩
  | link hdir _ _ _ _ => exact ⟨_, hdir⟩

/-- Idle names may be left out. -/
theorem filter (h : Leads tree k here as there) :
    Leads tree k here (as.filter (!Spelling.isIdle ·)) there := by
  induction h with
  | done here => exact .done here
  | stay hdir hidle _ ih =>
    rw [List.filter_cons_of_neg (by simp [hidle])]
    exact ih
  | up hdir _ ih =>
    rw [List.filter_cons_of_pos (by decide)]
    exact .up hdir ih
  | down hdir hname hget hlink _ ih =>
    rw [List.filter_cons_of_pos (by simp [hname.notIdle])]
    exact .down hdir hname hget hlink ih
  | link hdir hname hget htarget _ _ ih =>
    rw [List.filter_cons_of_pos (by simp [hname.notIdle])]
    exact .link hdir hname hget htarget ih

/-- Idle names may be put in anywhere but at the end, where they ask for a directory. -/
theorem of_filter (hlast : ∀ name ∈ as.getLast?, Spelling.isIdle name = false)
    (h : Leads tree k here (as.filter (!Spelling.isIdle ·)) there) :
    Leads tree k here as there := by
  induction as generalizing k here with
  | nil => exact h
  | cons name as ih =>
    have hrest : ∀ name ∈ as.getLast?, Spelling.isIdle name = false := by
      intro x hx
      refine hlast x ?_
      cases as with
      | nil => cases hx
      | cons y as => exact hx
    by_cases hidle : Spelling.isIdle name = true
    · rw [List.filter_cons_of_neg (by simp [hidle])] at h
      have hgo := ih hrest h
      obtain ⟨entries, hdir⟩ := hgo.isDir fun hnil => by
        subst hnil
        exact absurd (hlast name rfl) (by simp [hidle])
      exact .stay hdir hidle hgo
    · rw [List.filter_cons_of_pos (by simp [hidle])] at h
      cases h with
      | stay hdir hstay _ => exact absurd hstay hidle
      | up hdir hgo => exact .up hdir (ih hrest hgo)
      | down hdir hname hget hlink hgo => exact .down hdir hname hget hlink (ih hrest hgo)
      | link hdir hname hget htarget hgo => exact .link hdir hname hget htarget (ih hrest hgo)

/-- Idle names may be put in front. -/
theorem idle {entries : List (Text × Tree)} (h : Leads tree k here bs there)
    (hdir : tree.at? here = some (.dir entries)) (hidle : ∀ name ∈ as, Spelling.isIdle name = true) :
    Leads tree k here (as ++ bs) there := by
  induction as with
  | nil => exact h
  | cons name as ih =>
    exact .stay hdir (hidle name (by simp)) (ih fun name hname => hidle name (by simp [hname]))

/-- An empty name at the end may be left out. -/
theorem dropIdle (h : Leads tree k here (as ++ [[]]) there) : Leads tree k here as there := by
  obtain ⟨i, j, mid, rfl, hi, hj⟩ := h.split
  cases hj with
  | stay hdir hidle hrest =>
    cases hrest
    exact hi
  | down hdir hname _ _ _ => exact absurd hname.notIdle (by decide)
  | link hdir hname _ _ _ => exact absurd hname.notIdle (by decide)

end Leads

/-! ## The look-up -/

section

variable {strays : List Char} {tree : Tree} {follow : Bool}
  {onLink : Location → Text → List Text → Except Errno Location} {here : Location} {name : Text}
  {entries : List (Text × Tree)}

theorem descend_stay (hdir : tree.at? here = some (.dir entries))
    (hidle : Spelling.isIdle name = true) (rest : List Text) :
    descend strays tree follow onLink here (name :: rest) = descend strays tree follow onLink here rest := by
  simp [descend, hdir, hidle]

theorem descend_up (hdir : tree.at? here = some (.dir entries)) (rest : List Text) :
    descend strays tree follow onLink here (Spelling.dotDot :: rest) =
      descend strays tree follow onLink here.dropLast rest := by
  have hidle : Spelling.isIdle Spelling.dotDot = false := by decide
  simp [descend, hdir, hidle]

theorem descend_named (hdir : tree.at? here = some (.dir entries)) (hname : Named name)
    (rest : List Text) :
    descend strays tree follow onLink here (name :: rest) =
      match Table.get? entries name with
      | none => .error (if isLong strays name then .nameTooLong else .noEntry)
      | some (.link target) =>
        if rest.isEmpty && !follow then .ok (here ++ [name]) else onLink here target rest
      | some _ => descend strays tree follow onLink (here ++ [name]) rest := by
  cases hget : Table.get? entries name with
  | none => simp [descend, hdir, hname.notIdle, hname.notUp, hget]
  | some t => cases t <;> simp [descend, hdir, hname.notIdle, hname.notUp, hget]

theorem descend_down {t : Tree} (hdir : tree.at? here = some (.dir entries)) (hname : Named name)
    (hget : Table.get? entries name = some t) (hlink : ∀ target, t ≠ .link target)
    (rest : List Text) :
    descend strays tree follow onLink here (name :: rest) =
      descend strays tree follow onLink (here ++ [name]) rest := by
  rw [descend_named hdir hname, hget]
  cases t with
  | link target => exact absurd rfl (hlink target)
  | file content => rfl
  | dir below => rfl

/-- A look-up that goes well meets only directories and names that are there. -/
theorem leads_of_descend {n : Nat} {names : List Text} {there : Location}
    (honLink : ∀ here target rest there, onLink here target rest = .ok there →
      ∃ k, k < n ∧ Leads tree k (start here target) (Text.pieces '/' target ++ rest) there)
    (h : descend strays tree true onLink here names = .ok there) :
    ∃ k, k ≤ n ∧ Leads tree k here names there := by
  induction names generalizing here with
  | nil =>
    cases h
    exact ⟨0, by omega, .done _⟩
  | cons name rest ih =>
    cases hat : tree.at? here with
    | none => simp [descend, hat] at h
    | some t =>
      cases t with
      | file content => simp [descend, hat] at h
      | link target => simp [descend, hat] at h
      | dir entries =>
        by_cases hidle : Spelling.isIdle name = true
        · rw [descend_stay hat hidle] at h
          obtain ⟨k, hk, hleads⟩ := ih h
          exact ⟨k, hk, .stay hat hidle hleads⟩
        by_cases hup : name = Spelling.dotDot
        · subst hup
          rw [descend_up hat] at h
          obtain ⟨k, hk, hleads⟩ := ih h
          exact ⟨k, hk, .up hat hleads⟩
        have hname : Named name := ⟨by simpa using hidle, hup⟩
        rw [descend_named hat hname] at h
        cases hget : Table.get? entries name with
        | none => simp [hget] at h
        | some t =>
          cases t with
          | file content =>
            obtain ⟨k, hk, hleads⟩ := ih (by simpa [hget] using h)
            exact ⟨k, hk, .down hat hname hget (by simp) hleads⟩
          | dir below =>
            obtain ⟨k, hk, hleads⟩ := ih (by simpa [hget] using h)
            exact ⟨k, hk, .down hat hname hget (by simp) hleads⟩
          | link target =>
            obtain ⟨k, hk, hleads⟩ := honLink here target rest there (by simpa [hget] using h)
            obtain ⟨i, j, mid, hij, hi, hj⟩ := hleads.split
            exact ⟨i + j + 1, by omega, .link hat hname hget hi hj⟩

end

theorem leads_of_resolve {strays : List Char} {tree : Tree} {n : Nat} {here there : Location} {names : List Text}
    (h : resolve strays tree true n here names = .ok there) :
    ∃ k, k ≤ n ∧ Leads tree k here names there := by
  induction n generalizing here names there with
  | zero => exact leads_of_descend (by simp) h
  | succ n ih =>
    refine leads_of_descend (fun here target rest there hlink => ?_) h
    obtain ⟨k, hk, hleads⟩ := ih hlink
    exact ⟨k, by omega, hleads⟩

/-- However many links are left, the look-up goes down by names. -/
theorem resolve_open (strays : List Char) (tree : Tree) (follow : Bool) (n : Nat) :
    ∃ onLink, resolve strays tree follow n = descend strays tree follow onLink := by
  cases n with
  | zero => exact ⟨_, rfl⟩
  | succ n => exact ⟨_, rfl⟩

/-- After names that lead somewhere the look-up goes on from there, with the links that are left. -/
theorem resolve_of_leads (strays : List Char) {tree : Tree} {k n : Nat} {here there : Location}
    {names : List Text}
    (h : Leads tree k here names there) (hk : k ≤ n) (rest : List Text) :
    resolve strays tree true n here (names ++ rest) = resolve strays tree true (n - k) there rest := by
  induction h generalizing n rest with
  | done here => rfl
  | stay hdir hidle _ ih =>
    obtain ⟨onLink, hopen⟩ := resolve_open strays tree true n
    rw [← ih hk rest, hopen]
    exact descend_stay hdir hidle _
  | up hdir _ ih =>
    obtain ⟨onLink, hopen⟩ := resolve_open strays tree true n
    rw [← ih hk rest, hopen]
    exact descend_up hdir _
  | down hdir hname hget hlink _ ih =>
    obtain ⟨onLink, hopen⟩ := resolve_open strays tree true n
    rw [← ih hk rest, hopen]
    exact descend_down hdir hname hget hlink _
  | @link i j here mid there name target names entries hdir hname hget _ _ ihtarget ih =>
    obtain ⟨m, rfl⟩ : ∃ m, n = m + 1 := ⟨n - 1, by omega⟩
    have hstep : resolve strays tree true (m + 1) here (name :: names ++ rest) =
        resolve strays tree true m (start here target) (Text.pieces '/' target ++ (names ++ rest)) := by
      rw [List.cons_append, resolve, descend_named hdir hname, hget]
      simp
    rw [hstep, ihtarget (by omega), ih (by omega)]
    congr 1
    omega

variable {fs : FileSystem} {path : Text} {loc : Location}

theorem locate_eq_ok :
    fs.locate true path = .ok loc ↔ path ≠ [] ∧ ∃ k, k ≤ linkLimit ∧
      Leads fs.tree k (start fs.cwd path) (Text.pieces '/' path) loc := by
  constructor
  · intro h
    unfold locate at h
    split at h
    · cases h
    · rename_i hne
      exact ⟨by simpa using hne, leads_of_resolve h⟩
  · rintro ⟨hne, k, hk, hleads⟩
    have h := resolve_of_leads fs.strays hleads hk []
    rw [List.append_nil] at h
    obtain ⟨onLink, hopen⟩ := resolve_open fs.strays fs.tree true (linkLimit - k)
    rw [locate, if_neg (by simpa using hne), h, hopen]
    rfl

/-- A file that is opened is where its path leads. -/
theorem exists_of_openFile {octets : List UInt8} (h : fs.openFile path = .ok octets) :
    ∃ loc, fs.locate true path = .ok loc ∧ fs.tree.at? loc = some (.file octets) := by
  unfold openFile at h
  split at h
  · cases h
  · rename_i loc hloc
    split at h
    · rename_i content hat
      split at h
      · cases h
      · cases h
        exact ⟨loc, hloc, hat⟩
    · cases h
    · cases h

end FileSystem
end ClassCensus
