import ClassCensus.Proofs.Keyed
import ClassCensus.Proofs.Lowercase
import ClassCensus.Proofs.Word
import ClassCensus.Settings.Environment

/-!
# ClassCensus.Proofs.Variables

What the environment gives for a field of a section. The field's own variable comes first; a
variable with a longer name makes a map of the field; and the section's variable comes last. The
order in which the variables stand does not matter (`shape_nested`).
-/

namespace ClassCensus

/-! ## Paths -/

namespace Text

variable {sep : Text}

theorem cutFrom_ne_nil (fuel : Nat) (t : Text) : cutFrom sep fuel t ≠ [] := by
  cases fuel with
  | zero => simp [cutFrom]
  | succ fuel =>
    rw [cutFrom]
    split <;> simp

theorem cut_of_splitFirst?_eq_none {t : Text} (h : splitFirst? sep t = none) :
    cut sep t = [t] := by
  rw [cut]
  cases t with
  | nil => rfl
  | cons c t => simp [cutFrom, h]

theorem cut_of_splitFirst?_eq_some (hsep : sep ≠ []) {t a b : Text}
    (h : splitFirst? sep t = some (a, b)) : ∃ next rest, cut sep t = a :: next :: rest := by
  cases t with
  | nil =>
    cases sep with
    | nil => exact absurd rfl hsep
    | cons c sep => simp [splitFirst?, after?] at h
  | cons c t =>
    rw [cut, List.length_cons, cutFrom]
    simp only [h]
    cases hcut : cutFrom sep t.length b with
    | nil => exact absurd hcut (cutFrom_ne_nil _ _)
    | cons next rest => exact ⟨next, rest, rfl⟩

theorem infix_of_mem_cutFrom {fuel : Nat} {t piece : Text} (h : piece ∈ cutFrom sep fuel t) :
    piece <:+: t := by
  induction fuel generalizing t with
  | zero =>
    cases List.mem_singleton.1 h
    exact List.infix_rfl
  | succ fuel ih =>
    rw [cutFrom] at h
    split at h
    · cases List.mem_singleton.1 h
      exact List.infix_rfl
    · rename_i a b hsplit
      rw [eq_append_of_splitFirst? hsplit]
      rcases List.mem_cons.1 h with rfl | h
      · exact ((List.prefix_append _ _).trans (List.prefix_append _ _)).isInfix
      · exact (ih h).trans (List.suffix_append _ _).isInfix

end Text

namespace Environment

open Text

/-- A key that a path keeps in one piece: no delimiter starts inside it. -/
def IsWhole (key : Text) : Prop := splitFirst? delimiter (key ++ ['_']) = none

instance : DecidablePred IsWhole := fun _ => inferInstanceAs (Decidable (_ = _))

theorem IsWhole.splitFirst?_eq_none {key : Text} (h : IsWhole key) :
    splitFirst? delimiter key = none := by
  rw [← Option.not_isSome_iff_eq_none, isSome_splitFirst?]
  intro hpiece
  have hmore : splitFirst? delimiter (key ++ ['_']) = none := h
  rw [← Option.not_isSome_iff_eq_none, isSome_splitFirst?] at hmore
  exact hmore (hpiece.trans (List.prefix_append _ _).isInfix)

theorem IsWhole.splitFirst?_append {key : Text} (h : IsWhole key) (rest : Text) :
    splitFirst? delimiter (key ++ delimiter ++ rest) = some (key, rest) := by
  induction key with
  | nil => simp [splitFirst?, delimiter, after?]
  | cons c key ih =>
    have hsplit : splitFirst? delimiter (c :: (key ++ ['_'])) = none := h
    rw [splitFirst?] at hsplit
    cases hafter : after? delimiter (c :: (key ++ ['_'])) with
    | some r => simp [hafter] at hsplit
    | none =>
      simp only [hafter, Option.map_eq_none_iff] at hsplit
      -- the delimiter is two characters long, and the first two agree with those before
      have hfront : after? delimiter (c :: (key ++ delimiter ++ rest)) = none := by
        cases key with
        | nil => simpa [delimiter, after?] using hafter
        | cons d key => simpa [delimiter, after?] using hafter
      show splitFirst? delimiter (c :: (key ++ delimiter ++ rest)) = _
      rw [splitFirst?, hfront]
      simp only [ih hsplit, Option.map_some]

/-- The variable of a field. -/
def fieldVariable (s : Section) (key : Text) : Text := variableOf s ++ delimiter ++ key

/-- Whether a variable leads to a place inside a field. -/
def leadsInto (s : Section) (key name : Text) : Bool :=
  (after? (fieldVariable s key ++ delimiter) name).isSome

variable {s : Section} {key name tail : Text}

theorem eq_fieldVariable (h : after? (variableOf s ++ delimiter) name = some tail) :
    name = fieldVariable s tail :=
  after?_eq_some.1 h

theorem leadsInto_fieldVariable : leadsInto s key (fieldVariable s tail) = true ↔
    ∃ rest, tail = key ++ delimiter ++ rest := by
  simp only [leadsInto, Option.isSome_iff_exists, after?_eq_some, fieldVariable]
  simp [List.append_assoc]

/-- Where a path leads as seen from a key: to it, into it, or elsewhere. -/
theorem path_cases (hkey : IsWhole key) (tail : Text) :
    (tail = key ∧ cut delimiter tail = [key]) ∨
    (tail ≠ key ∧ leadsInto s key (fieldVariable s tail) = true ∧
      ∃ next rest, cut delimiter tail = key :: next :: rest) ∨
    (tail ≠ key ∧ leadsInto s key (fieldVariable s tail) = false ∧
      (cut delimiter tail).head? ≠ some key) := by
  by_cases htail : tail = key
  · subst htail
    exact .inl ⟨rfl, cut_of_splitFirst?_eq_none hkey.splitFirst?_eq_none⟩
  by_cases hinto : ∃ rest, tail = key ++ delimiter ++ rest
  · refine .inr (.inl ⟨htail, leadsInto_fieldVariable.2 hinto, ?_⟩)
    obtain ⟨rest, rfl⟩ := hinto
    exact cut_of_splitFirst?_eq_some (by decide) (hkey.splitFirst?_append rest)
  · refine .inr (.inr ⟨htail, ?_, ?_⟩)
    · rw [← Bool.not_eq_true, leadsInto_fieldVariable]
      exact hinto
    · intro hhead
      cases hsplit : splitFirst? delimiter tail with
      | none =>
        rw [cut_of_splitFirst?_eq_none hsplit] at hhead
        exact htail (Option.some.inj hhead)
      | some p =>
        obtain ⟨next, rest, hcut⟩ := cut_of_splitFirst?_eq_some (by decide) hsplit
        rw [hcut] at hhead
        cases hhead
        exact hinto ⟨_, eq_append_of_splitFirst? hsplit⟩

/-! ## Longer names -/

/-- What stands under a key, up to the entries of a map. -/
def shape (entries : List (Scalar × Value)) (key : Text) : Option Value :=
  (Table.get? entries (.text key)).map Value.outline

theorem shape_put (entries : List (Scalar × Value)) (key' key : Text) (v : Value) :
    shape (Table.put entries (.text key') v) key =
      if key' = key then some v.outline else shape entries key := by
  rw [shape, Table.get?_put]
  by_cases hkey : key' = key <;> simp [hkey, shape]

theorem shape_place_self (entries : List (Scalar × Value)) (key : Text) (v : Value) :
    shape (place entries [key] v) key = some v.outline := by
  rw [place, shape_put, if_pos rfl]

theorem shape_place_inside (entries : List (Scalar × Value)) (key next : Text) (rest : List Text)
    (v : Value) : shape (place entries (key :: next :: rest) v) key =
      some ((shape entries key).getD (.map [])) := by
  rw [place]
  · cases hget : Table.get? entries (.text key) with
    | none =>
      simp only [shape_put, if_true]
      simp [shape, hget, Value.outline]
    | some w =>
      cases w with
      | map inner =>
        simp only [shape_put, if_true]
        simp [shape, hget, Value.outline]
      | scalar v => simp [shape, hget, Value.outline]
      | list items => simp [shape, hget, Value.outline]
  · simp

theorem shape_place_elsewhere {path : List Text} (h : path.head? ≠ some key)
    (entries : List (Scalar × Value)) (v : Value) :
    shape (place entries path v) key = shape entries key := by
  fun_cases place entries path v with
  | case1 => rfl
  | case2 last =>
    rw [shape_put, if_neg fun heq => h (by rw [heq]; rfl)]
  | case3 first rest _ _ | case4 first rest _ _ =>
    rw [shape_put, if_neg fun heq => h (by rw [heq]; rfl)]
  | case5 => rfl

theorem place_keys {P : Scalar → Prop} {entries : List (Scalar × Value)} {path : List Text}
    {v : Value} (hentries : ∀ e ∈ entries, P e.1) (hpath : ∀ t ∈ path, P (.text t)) :
    ∀ e ∈ place entries path v, P e.1 := by
  have hput : ∀ t ∈ path, ∀ w : Value, ∀ e ∈ Table.put entries (.text t) w, P e.1 := by
    intro t ht w e he
    rcases Table.mem_of_mem_put he with rfl | he
    · exact hpath t ht
    · exact hentries e he
  fun_cases place entries path v with
  | case1 => exact hentries
  | case2 last => exact hput last (by simp) _
  | case3 first rest _ _ | case4 first rest _ _ => exact hput first (by simp) _
  | case5 => exact hentries

theorem once_place {entries : List (Scalar × Value)} (h : TextsOnce entries) (path : List Text)
    (v : Value) : TextsOnce (place entries path v) := by
  fun_cases place entries path v with
  | case1 => exact h
  | case2 last => exact h.put _ _
  | case3 first rest _ _ | case4 first rest _ _ => exact h.put _ _
  | case5 => exact h

/-- The value a field's own variable gives it; a list is given in JSON. -/
def fieldValue? (s : Section) (key value : Text) : Option Value :=
  if key = s.listKey && !value.isEmpty then Json.parse? value else some (.text value)

theorem valueAt_field (s : Section) (key value : Text) : valueAt s [key] value =
    (fieldValue? s key value).elim (.error (.unparsableVariable s.name)) .ok := by
  unfold valueAt fieldValue?
  simp only [List.cons.injEq, and_true]
  split
  · cases Json.parse? value <;> rfl
  · rfl

theorem valueAt_of_ne {path : List Text} (h : path ≠ [s.listKey]) (value : Text) :
    valueAt s path value = .ok (.text value) := by
  simp [valueAt, h]

theorem exists_nested (hlist : IsWhole s.listKey) {vars : Environment}
    (hvars : ∀ e ∈ vars, e.1 = fieldVariable s s.listKey →
      (fieldValue? s s.listKey e.2).isSome = true) (found : List (Scalar × Value)) :
    ∃ inner, nested s found vars = .ok inner := by
  induction vars generalizing found with
  | nil => exact ⟨found, rfl⟩
  | cons e vars ih =>
    obtain ⟨name, value⟩ := e
    have hrest := ih fun e he => hvars e (List.mem_cons_of_mem _ he)
    rw [nested]
    cases htail : after? (variableOf s ++ delimiter) name with
    | none => exact hrest found
    | some tail =>
      have hvalue : ∃ v, valueAt s (cut delimiter tail) value = .ok v := by
        by_cases hcut : cut delimiter tail = [s.listKey]
        · rcases path_cases (s := s) hlist tail with ⟨heq, -⟩ | ⟨-, -, hinto⟩ | ⟨-, -, helse⟩
          · subst heq
            have hsome := hvars _ List.mem_cons_self (eq_fieldVariable htail)
            obtain ⟨v, hv⟩ := Option.isSome_iff_exists.1 hsome
            exact ⟨v, by rw [hcut, valueAt_field, hv]; rfl⟩
          · simp [hcut] at hinto
          · simp [hcut] at helse
        · exact ⟨_, valueAt_of_ne hcut value⟩
      obtain ⟨v, hv⟩ := hvalue
      simp only [hv]
      exact hrest _

/-- What every placing keeps, all of them keep. -/
theorem nested_keeps {P : List (Scalar × Value) → Prop} {vars : Environment}
    (hplace : ∀ e ∈ vars, ∀ tail, after? (variableOf s ++ delimiter) e.1 = some tail →
      ∀ found v, P found → P (place found (cut delimiter tail) v))
    {found inner : List (Scalar × Value)} (h : nested s found vars = .ok inner)
    (hfound : P found) : P inner := by
  induction vars generalizing found with
  | nil =>
    cases h
    exact hfound
  | cons e vars ih =>
    obtain ⟨name, value⟩ := e
    have hrest := fun e he => hplace e (List.mem_cons_of_mem _ he)
    rw [nested] at h
    split at h
    · exact ih hrest h hfound
    · rename_i tail htail
      dsimp only at h
      split at h
      · cases h
      · exact ih hrest h (hplace _ List.mem_cons_self tail htail _ _ hfound)

/-- What a field's own variable and those inside it give, whatever the order they stand in. -/
theorem shape_nested (hkey : IsWhole key) {vars : Environment}
    (hnodup : (Table.keys vars).Nodup) {found inner : List (Scalar × Value)}
    (h : nested s found vars = .ok inner) :
    shape inner key =
      (((Table.get? vars (fieldVariable s key)).bind (fieldValue? s key)).map Value.outline).or
        (if vars.any (leadsInto s key ·.1) then some ((shape found key).getD (.map []))
          else shape found key) := by
  induction vars generalizing found with
  | nil =>
    cases h
    rfl
  | cons e vars ih =>
    obtain ⟨name, value⟩ := e
    obtain ⟨hname, hrestNodup⟩ := List.nodup_cons.1 hnodup
    rw [nested] at h
    split at h
    · -- a variable of something else
      rename_i hnone
      have hother : ∀ rest, name ≠ fieldVariable s rest := fun rest heq =>
        after?_eq_none.1 hnone ⟨rest, heq.symm⟩
      have hinto : leadsInto s key name = false := by
        rw [leadsInto, ← Bool.not_eq_true, Option.isSome_iff_exists]
        rintro ⟨rest, hrest⟩
        refine hother (key ++ delimiter ++ rest) ?_
        rw [after?_eq_some.1 hrest]
        simp [fieldVariable, List.append_assoc]
      rw [ih hrestNodup h, List.any_cons]
      simp only [Table.get?, if_neg (hother key), hinto, Bool.false_or]
    · rename_i tail htail
      have heq := eq_fieldVariable htail
      subst heq
      dsimp only at h
      split at h
      · cases h
      · rename_i v hv
        rw [ih hrestNodup h, List.any_cons]
        rcases path_cases (s := s) hkey tail with ⟨rfl, hcut⟩ | ⟨hne, hinto, next, rest, hcut⟩ |
          ⟨hne, hinto, hcut⟩
        · -- no other variable of the field's name follows
          have hrest : Table.get? vars (fieldVariable s tail) = none :=
            Table.get?_eq_none_iff.2 hname
          rw [hcut, valueAt_field] at hv
          have hvalue : fieldValue? s tail value = some v := by
            cases hfield : fieldValue? s tail value <;> simp_all
          rw [hcut, shape_place_self, hrest]
          simp [Table.get?, hvalue]
        · have hother : fieldVariable s tail ≠ fieldVariable s key := fun heq =>
            hne (List.append_cancel_left heq)
          rw [hcut, shape_place_inside]
          simp only [Table.get?, if_neg hother, hinto, Bool.true_or, if_true, Option.getD_some,
            ite_self]
        · have hother : fieldVariable s tail ≠ fieldVariable s key := fun heq =>
            hne (List.append_cancel_left heq)
          rw [shape_place_elsewhere hcut]
          simp only [Table.get?, if_neg hother, hinto, Bool.false_or]

theorem once_nested {vars : Environment} {inner : List (Scalar × Value)}
    (h : nested s [] vars = .ok inner) : TextsOnce inner :=
  nested_keeps (P := TextsOnce) (fun _ _ _ _ _ v hfound => once_place hfound _ v) h .nil

/-- The keys are pieces of the names. -/
theorem keys_nested {vars : Environment} {inner : List (Scalar × Value)}
    (h : nested s [] vars = .ok inner) :
    ∀ e ∈ inner, ∃ t, e.1 = .text t ∧ ∃ var ∈ vars, t <:+: var.1 := by
  refine nested_keeps (P := fun inner => ∀ e ∈ inner, ∃ t, e.1 = .text t ∧ ∃ var ∈ vars,
    t <:+: var.1) ?_ h (by simp)
  intro var hvar tail htail found v hfound
  refine place_keys (P := fun k => ∃ t, k = .text t ∧ ∃ var ∈ vars, t <:+: var.1) hfound ?_
  intro t ht
  refine ⟨t, rfl, var, hvar, (infix_of_mem_cutFrom ht).trans ?_⟩
  rw [after?_eq_some.1 htail]
  exact (List.suffix_append _ _).isInfix

/-! ## Sections -/

/-- What the sections have in common: their keys are plain words that a path keeps in one piece. -/
structure Readable (s : Section) : Prop where
  whole : ∀ k ∈ s.keys, IsWhole k
  plain : ∀ k ∈ s.keys, k.all isPlain = true
  list : s.listKey ∈ s.keys

theorem Readable.small (hs : Readable s) {k : Text} (hk : k ∈ s.keys) : lower k = k :=
  lower_of_plain (hs.plain k hk)

theorem readable_logging : Readable .logging :=
  ⟨by decide, by decide, by decide⟩

theorem readable_scanner : Readable .scanner :=
  ⟨by decide, by decide, by decide⟩

/-- Whether a key is a word in some case. -/
def spells (word : Text) : Scalar → Bool
  | .text t => lower t = word
  | _ => false

/-- What a map says under the spellings of a word. -/
def spelled (entries : List (Scalar × Value)) (word : Text) : Option Value :=
  ((entries.filter (spells word ·.1)).getLast?).map (·.2)

/-- The key that stands for another one in a section. -/
def recased (s : Section) : Scalar → Scalar
  | .text t => .text ((s.keys.find? (lower · = lower t)).getD t)
  | other => other

theorem recased_eq_iff (hs : Readable s) (hkey : key ∈ s.keys) (k : Scalar) :
    recased s k = .text key ↔ spells key k = true := by
  cases k with
  | text t =>
    simp only [recased, spells, Scalar.text.injEq, decide_eq_true_eq]
    cases hfind : s.keys.find? (lower · = lower t) with
    | none =>
      -- the key itself is not among those found, so it is not spelled here
      have hnot : lower key ≠ lower t := by
        simpa using List.find?_eq_none.1 hfind key hkey
      rw [hs.small hkey] at hnot
      refine ⟨fun heq => ?_, fun heq => absurd heq.symm hnot⟩
      rw [Option.getD_none] at heq
      rw [heq, hs.small hkey]
    | some k =>
      have hk : lower k = lower t := by simpa using List.find?_some hfind
      rw [hs.small (List.mem_of_find?_eq_some hfind)] at hk
      rw [Option.getD_some, hk]
  | _ => simp [recased, spells]

theorem get?_recase (hs : Readable s) (hkey : key ∈ s.keys) (entries : List (Scalar × Value)) :
    Table.get? (recase s entries) (.text key) = spelled entries key := by
  have hfold : recase s entries =
      entries.foldl (fun found e => Table.put found (recased s e.1) e.2) [] := by
    rw [recase]
    congr 1
  rw [hfold, Table.get?_foldl_put]
  simp only [recased_eq_iff hs hkey, Bool.decide_eq_true]
  simp [spelled, Table.get?]

theorem once_recase (s : Section) (entries : List (Scalar × Value)) :
    TextsOnce (recase s entries) := by
  refine List.foldlRecOn (motive := TextsOnce) entries _ .nil ?_
  intro found hfound e _
  exact hfound.put _ _

theorem spells_text (hs : Readable s) (hkey : key ∈ s.keys) : spells key (.text key) = true := by
  simp [spells, hs.small hkey]

/-- Entries that spell a key only as it stands. -/
theorem filter_spells {entries : List (Scalar × Value)} (hself : spells key (.text key) = true)
    (honce : TextsOnce entries)
    (hspell : ∀ e ∈ entries, spells key e.1 = true → e.1 = .text key) :
    entries.filter (spells key ·.1) =
      ((Table.get? entries (.text key)).map fun v => (.text key, v)).toList := by
  induction entries with
  | nil => rfl
  | cons e entries ih =>
    have hrest := ih honce.tail fun e he => hspell e (List.mem_cons_of_mem _ he)
    by_cases he : e.1 = .text key
    · obtain ⟨k, v⟩ := e
      cases he
      rw [honce.get?_tail] at hrest
      rw [List.filter_cons_of_pos (by exact hself), hrest]
      simp [Table.get?]
    · have hno : ¬ spells key e.1 = true := fun h => he (hspell e List.mem_cons_self h)
      rw [List.filter_cons_of_neg (by exact hno), hrest]
      simp [Table.get?, he]

theorem spells_congr {a b : Scalar} (h : a.same b = true) : spells key a = spells key b := by
  have htext := Scalar.eq_text_congr h
  cases a with
  | text t => rw [(htext t).1 rfl]
  | _ =>
    cases b with
    | text t => cases (htext t).2 rfl
    | _ => rfl

/-- A value under the key itself comes after another spelling of it, or is laid over it. -/
theorem spelled_merge {entries inner : List (Scalar × Value)}
    (hself : spells key (.text key) = true)
    (hentries : (entries.filter (spells key ·.1)).length ≤ 1)
    (honce : TextsOnce inner) (hspell : ∀ e ∈ inner, spells key e.1 = true → e.1 = .text key) :
    (spelled (mergeEntries entries inner) key).map Value.outline =
      ((Table.get? inner (.text key)).or (spelled entries key)).map Value.outline := by
  rw [spelled, spelled, filter_mergeEntries fun _ _ h => spells_congr h,
    filter_spells hself honce hspell]
  cases Table.get? inner (.text key) with
  | none => simp [mergeEntries]
  | some v =>
    cases hold : entries.filter (spells key ·.1) with
    | nil => simp [mergeEntries, entryAt?, putEntry]
    | cons e rest =>
      obtain ⟨k, old⟩ := e
      have hrest : rest = [] := by simpa [hold] using hentries
      subst hrest
      by_cases hk : k = .text key
      · subst hk
        simp [mergeEntries, entryAt?, putEntry, Scalar.same_text, Value.outline_over]
      · simp [mergeEntries, entryAt?, putEntry, Scalar.same_text, hk]

/-! ## The whole environment -/

/-- The text of a variable, whose name is read without regard to case; of several the last
counts. -/
def read? (env : Environment) (name : Text) : Option Text :=
  ((env.filter fun e => lower e.1 = name).getLast?).map (·.2)

theorem get?_lowered (env : Environment) (name : Text) :
    Table.get? (lowered env) name = read? env name := by
  rw [lowered, Table.get?_foldl_put]
  simp [read?, Table.get?]

theorem nodup_lowered (env : Environment) : (Table.keys (lowered env)).Nodup := by
  refine List.foldlRecOn (motive := fun vars => (Table.keys vars).Nodup) env _ List.nodup_nil ?_
  intro vars hvars e _
  exact Table.nodup_put hvars _ _

theorem mem_keys_lowered {env : Environment} {name : Text} :
    name ∈ Table.keys (lowered env) ↔ ∃ e ∈ env, lower e.1 = name := by
  rw [← not_iff_not, ← Table.get?_eq_none_iff, get?_lowered]
  simp [read?]

theorem any_lowered (env : Environment) (p : Text → Bool) :
    (lowered env).any (p ·.1) = env.any fun e => p (lower e.1) := by
  rw [Bool.eq_iff_iff, List.any_eq_true, List.any_eq_true]
  constructor
  · rintro ⟨e, he, hp⟩
    obtain ⟨e', he', hname⟩ := mem_keys_lowered.1 (Table.mem_keys_of_mem he)
    exact ⟨e', he', by rwa [hname]⟩
  · rintro ⟨e, he, hp⟩
    obtain ⟨e', he', hname⟩ := List.mem_map.1 (mem_keys_lowered.2 ⟨e, he, rfl⟩)
    exact ⟨e', he', by rwa [hname]⟩

/-- What an environment has to keep to in a section: the list is given in JSON, and the section's
own variable, if there is one, holds a map in JSON that spells no key twice. -/
structure Orderly (env : Environment) (s : Section) : Prop where
  list : ∀ t, read? env (fieldVariable s s.listKey) = some t →
    (fieldValue? s s.listKey t).isSome = true
  own : ∀ t, read? env (variableOf s) = some t → ∃ entries, Json.parse? t = some (.map entries) ∧
    ∀ k ∈ s.keys, (entries.filter (spells k ·.1)).length ≤ 1

/-- What the section's own variable says about a key. -/
def sectionEntry (env : Environment) (s : Section) (key : Text) : Option Value :=
  match (read? env (variableOf s)).bind Json.parse? with
  | some (.map entries) => spelled entries key
  | _ => none

/-- What an environment gives for a field: the value of the field's own variable; a map, if there
are variables for places inside it; or what the section's variable says. -/
def offer (env : Environment) (s : Section) (key : Text) : Option Value :=
  match read? env (fieldVariable s key) with
  | some t => fieldValue? s key t
  | none =>
    if env.any fun e => leadsInto s key (lower e.1) then some (.map [])
    else sectionEntry env s key

variable {env : Environment}

theorem spells_nested (hs : Readable s) (hkey : key ∈ s.keys) {inner : List (Scalar × Value)}
    (h : nested s [] (lowered env) = .ok inner) :
    ∀ e ∈ inner, spells key e.1 = true → e.1 = .text key := by
  intro e he hspell
  obtain ⟨t, ht, var, hvar, hpiece⟩ := keys_nested h e he
  obtain ⟨e', -, hname⟩ := mem_keys_lowered.1 (Table.mem_keys_of_mem hvar)
  rw [ht] at hspell ⊢
  rw [← hname] at hpiece
  rw [eq_of_lower_eq hpiece (hs.plain key hkey)
    (by simpa [spells] using hspell)]

/-- What the longer names and the section's variable come to. -/
theorem offer_eq (hs : Readable s) (hkey : key ∈ s.keys) (henv : Orderly env s)
    {inner : List (Scalar × Value)} (h : nested s [] (lowered env) = .ok inner) :
    (offer env s key).map Value.outline =
      ((Table.get? inner (.text key)).or (sectionEntry env s key)).map Value.outline := by
  have hshape := shape_nested (hs.whole key hkey) (nodup_lowered env) h
  rw [get?_lowered, any_lowered] at hshape
  rw [offer, Option.map_or]
  change _ = (shape inner key).or _
  cases hread : read? env (fieldVariable s key) with
  | none =>
    simp only [hread, Option.bind_none, Option.map_none, Option.none_or] at hshape
    rw [hshape]
    by_cases hinto : (List.any env fun e => leadsInto s key (lower e.1)) = true
    · simp [hinto, shape, Table.get?, Value.outline]
    · simp [hinto, shape, Table.get?]
  | some t =>
    -- the field's own variable always has a value: it is a text, or a list in JSON
    have hvalue : ∃ v, fieldValue? s key t = some v := by
      by_cases hlist : key = s.listKey
      · subst hlist
        exact Option.isSome_iff_exists.1 (henv.list t hread)
      · exact ⟨.text t, by simp [fieldValue?, hlist]⟩
    obtain ⟨v, hv⟩ := hvalue
    simp only [hread, Option.bind_some, hv, Option.map_some, Option.some_or] at hshape ⊢
    rw [hshape]
    rfl

theorem sectionValue_spec (hs : Readable s) (henv : Orderly env s) :
    ∃ found, sectionValue (lowered env) s = .ok found ∧
      (∀ v, found = some v → ∃ entries, v = .map entries ∧ TextsOnce entries) ∧
      ∀ key ∈ s.keys, ((found.bind (·.field? key)).map Value.outline) =
        (offer env s key).map Value.outline := by
  obtain ⟨inner, hinner⟩ : ∃ inner, nested s [] (lowered env) = .ok inner := by
    refine exists_nested (hs.whole _ hs.list) ?_ []
    intro e he hname
    refine henv.list e.2 ?_
    rw [← get?_lowered, ← hname]
    exact Table.get?_of_mem (nodup_lowered env) he
  have hself : ∀ key ∈ s.keys, spells key (.text key) = true := fun key hkey => spells_text hs hkey
  have hspell : ∀ key ∈ s.keys, ∀ e ∈ inner, spells key e.1 = true → e.1 = .text key :=
    fun _ hkey => spells_nested hs hkey hinner
  rw [sectionValue]
  simp only [hinner, get?_lowered]
  cases hread : read? env (variableOf s) with
  | none =>
    have hnone : ∀ key, sectionEntry env s key = none := by simp [sectionEntry, hread]
    refine ⟨_, rfl, ?_, ?_⟩
    · intro v hv
      split at hv
      · cases hv
      · cases hv
        exact ⟨_, rfl, once_recase _ _⟩
    · intro key hkey
      rw [offer_eq hs hkey henv hinner, hnone, Option.or_none]
      split
      · rename_i hempty
        rw [List.isEmpty_iff.1 hempty]
        rfl
      · simp only [Option.bind_some, Value.field?, get?_recase hs hkey, spelled,
          filter_spells (hself key hkey) (once_nested hinner) (hspell key hkey)]
        cases Table.get? inner (.text key) <;> rfl
  | some t =>
    obtain ⟨entries, hparse, hentries⟩ := henv.own t hread
    have hsection : ∀ key, sectionEntry env s key = spelled entries key := by
      simp [sectionEntry, hread, hparse]
    simp only [hparse]
    refine ⟨_, rfl, ?_, ?_⟩
    · intro v hv
      cases hv
      exact ⟨_, rfl, once_recase _ _⟩
    · intro key hkey
      rw [offer_eq hs hkey henv hinner, hsection,
        ← spelled_merge (hself key hkey) (hentries key hkey) (once_nested hinner) (hspell key hkey)]
      simp only [Option.bind_some, Value.field?, get?_recase hs hkey]

end Environment
end ClassCensus
