import ClassCensus.Proofs.Lookup
import Mathlib.Data.List.Basic

/-!
# ClassCensus.Proofs.Spelling

Written paths and their pieces. Cutting at slashes and joining with them is `List.splitOn` and
`List.intercalate`, whose laws are used from there.

`locate_clean` and `locate_below` say what the two ways to respell a path do to a look-up that
goes well: cleaning a path leaves where it leads, and a name put below a directory leads to the
entry of that name.
-/

namespace ClassCensus

namespace Text

theorem pieces_eq_splitOn (sep : Char) (t : Text) : pieces sep t = t.splitOn sep := by
  induction t with
  | nil => rfl
  | cons c t ih =>
    rw [pieces, List.splitOn_cons_eq_if_modifyHead, ih]
    by_cases hc : c = sep
    · simp [hc]
    · have hne := List.splitOn_ne_nil sep t
      cases hs : t.splitOn sep with
      | nil => exact absurd hs hne
      | cons p ps => simp [hc, List.modifyHead]

theorem join_eq_intercalate (sep : Text) (parts : List Text) :
    join sep parts = sep.intercalate parts := by
  induction parts with
  | nil => rfl
  | cons p ps ih =>
    cases ps with
    | nil => simp [join]
    | cons q qs => rw [join, ih, List.intercalate_cons_cons]; simp

theorem pieces_ne_nil (sep : Char) (t : Text) : pieces sep t ≠ [] := by
  rw [pieces_eq_splitOn]
  exact List.splitOn_ne_nil sep t

theorem pieces_append (sep : Char) (a b : Text) :
    pieces sep (a ++ sep :: b) = pieces sep a ++ pieces sep b := by
  simp only [pieces_eq_splitOn, List.splitOn_append_cons_self]

theorem pieces_of_not_mem {sep : Char} {t : Text} (h : sep ∉ t) : pieces sep t = [t] := by
  rw [pieces_eq_splitOn]
  exact List.splitOn_eq_singleton h

theorem pieces_join {sep : Char} {parts : List Text} (hne : parts ≠ []) (h : ∀ p ∈ parts, sep ∉ p) :
    pieces sep (join [sep] parts) = parts := by
  rw [pieces_eq_splitOn, join_eq_intercalate]
  exact List.splitOn_intercalate sep h hne

theorem mem_join {c : Char} {sep : Text} {parts : List Text} (h : c ∈ join sep parts) :
    c ∈ sep ∨ ∃ p ∈ parts, c ∈ p := by
  induction parts with
  | nil => cases h
  | cons p ps ih =>
    cases ps with
    | nil => exact .inr ⟨p, by simp, h⟩
    | cons q qs =>
      simp only [join, List.append_assoc, List.mem_append] at h
      rcases h with h | h | h
      · exact .inr ⟨p, by simp, h⟩
      · exact .inl h
      · rcases ih h with h | ⟨r, hr, h⟩
        · exact .inl h
        · exact .inr ⟨r, by simp [hr], h⟩

/-- The characters of the pieces are those of the text other than the separator. -/
theorem mem_pieces {sep c : Char} {p t : Text} (hp : p ∈ pieces sep t) (hc : c ∈ p) :
    c ∈ t ∧ c ≠ sep := by
  induction t generalizing p with
  | nil =>
    rw [pieces, List.mem_singleton] at hp
    subst hp
    cases hc
  | cons x t ih =>
    rw [pieces] at hp
    split at hp
    · rcases List.mem_cons.1 hp with rfl | hp
      · cases hc
      · obtain ⟨h, hne⟩ := ih hp hc
        exact ⟨List.mem_cons_of_mem _ h, hne⟩
    · rename_i hx
      cases hs : pieces sep t with
      | nil => exact absurd hs (pieces_ne_nil sep t)
      | cons q qs =>
        rw [hs] at hp ih
        rcases List.mem_cons.1 hp with rfl | hp
        · rcases List.mem_cons.1 hc with rfl | hc
          · exact ⟨by simp, hx⟩
          · obtain ⟨h, hne⟩ := ih (p := q) (by simp) hc
            exact ⟨List.mem_cons_of_mem _ h, hne⟩
        · obtain ⟨h, hne⟩ := ih (p := p) (by simp [hp]) hc
          exact ⟨List.mem_cons_of_mem _ h, hne⟩

theorem exists_mem_pieces {sep c : Char} {t : Text} (hc : c ∈ t) (hne : c ≠ sep) :
    ∃ p ∈ pieces sep t, c ∈ p := by
  have hjoin : join [sep] (pieces sep t) = t := by
    rw [join_eq_intercalate, pieces_eq_splitOn, List.intercalate_splitOn]
  rw [← hjoin] at hc
  rcases mem_join hc with hc | hp
  · exact absurd (List.mem_singleton.1 hc) hne
  · exact hp

theorem mem_join_of_mem {c : Char} (sep : Text) {p : Text} {parts : List Text} (hp : p ∈ parts)
    (hc : c ∈ p) : c ∈ join sep parts := by
  induction parts with
  | nil => cases hp
  | cons q qs ih =>
    cases qs with
    | nil =>
      rw [List.mem_singleton.1 hp] at hc
      exact hc
    | cons q' qs =>
      rw [join, List.append_assoc, List.mem_append, List.mem_append]
      · rcases List.mem_cons.1 hp with rfl | hp
        · exact .inl hc
        · exact .inr (.inr (ih hp))
      · simp

/-- Joined parts start with the first character of the first one. -/
theorem join_cons (sep : Text) (c : Char) (p : Text) (ps : List Text) :
    ∃ t, join sep ((c :: p) :: ps) = c :: t := by
  cases ps with
  | nil => exact ⟨p, rfl⟩
  | cons q qs => exact ⟨_, rfl⟩

end Text

namespace Spelling

theorem slashed_eq_self {t : Text} (h : '\\' ∉ t) : slashed t = t := by
  refine (List.map_congr_left fun c hc => ?_).trans (List.map_id t)
  have hne : c ≠ '\\' := fun he => h (he ▸ hc)
  simp [hne]

theorem mem_slashed {c : Char} {t : Text} (h : c ∈ slashed t) : c = '/' ∨ c ∈ t := by
  obtain ⟨x, hx, rfl⟩ := List.mem_map.1 h
  split
  · exact .inl rfl
  · exact .inr hx

theorem not_mem_slashed (t : Text) : '\\' ∉ slashed t := by
  intro h
  obtain ⟨c, -, hc⟩ := List.mem_map.1 h
  by_cases he : c = '\\' <;> simp [he] at hc

theorem mem_of_isIdle {c : Char} {p : Text} (h : isIdle p = true) (hc : c ∈ p) : c = '.' := by
  simp only [isIdle, Bool.or_eq_true, List.isEmpty_iff, beq_iff_eq] at h
  rcases h with rfl | rfl
  · cases hc
  · exact List.mem_singleton.1 hc

/-- The parts of a spelling have no slash and are not empty. -/
theorem mem_parts {t p : Text} (h : p ∈ (parse t).parts) : '/' ∉ p ∧ isIdle p = false := by
  obtain ⟨hp, hidle⟩ := List.mem_filter.1 h
  refine ⟨fun hc => (Text.mem_pieces hp hc).2 rfl, by simpa using hidle⟩

/-- Joined parts do not start with a slash. -/
theorem join_parts {parts : List Text} (hne : parts ≠ [])
    (h : ∀ p ∈ parts, '/' ∉ p ∧ isIdle p = false) :
    ∃ c t, c ≠ '/' ∧ Text.join ['/'] parts = c :: t := by
  cases parts with
  | nil => exact absurd rfl hne
  | cons p ps =>
    obtain ⟨hslash, hidle⟩ := h p (by simp)
    cases p with
    | nil => simp [isIdle] at hidle
    | cons c p =>
      obtain ⟨t, ht⟩ := Text.join_cons ['/'] c p ps
      exact ⟨c, t, fun hc => hslash (by simp [hc]), ht⟩

/-- A spelling of which each part has no slash and is not empty. -/
def Neat (s : Spelling) : Prop := ∀ p ∈ s.parts, '/' ∉ p ∧ isIdle p = false

theorem neat_parse (t : Text) : (parse t).Neat := fun _ hp => mem_parts hp

theorem text_eq (s : Spelling) :
    s.text = if s.anchor = .relative ∧ s.parts = [] then dot
      else Anchor.text s.anchor ++ Text.join ['/'] s.parts := by
  unfold text
  cases s.anchor <;> cases s.parts <;> simp

theorem clean_eq (t : Text) :
    clean t = if anchorOf t = .relative ∧ (parse t).parts = [] then dot
      else Anchor.text (anchorOf t) ++ Text.join ['/'] (parse t).parts :=
  text_eq (parse t)

theorem anchorOf_of_ne {c : Char} (hc : c ≠ '/') (t : Text) :
    anchorOf (c :: t) = .relative ∧ anchorOf ('/' :: c :: t) = .root ∧
      anchorOf ('/' :: '/' :: c :: t) = .doubleRoot := by
  simp [anchorOf, hc]

theorem anchorOf_slash (t : Text) : anchorOf ('/' :: t) ≠ .relative := by
  unfold anchorOf
  split <;> simp_all

theorem anchorOf_of_not_slash {path : Text} (h : ∀ t, path = '/' :: t → False) :
    anchorOf path = .relative := by
  unfold anchorOf
  split <;> simp_all

theorem anchorOf_text {s : Spelling} (h : s.Neat) : anchorOf s.text = s.anchor := by
  rw [text_eq]
  by_cases hne : s.parts = []
  · rw [hne]
    cases ha : s.anchor <;> rfl
  · rw [if_neg fun h => hne h.2]
    obtain ⟨c, u, hc, hjoin⟩ := join_parts hne h
    rw [hjoin]
    obtain ⟨h₀, h₁, h₂⟩ := anchorOf_of_ne hc u
    cases ha : s.anchor with
    | relative => exact h₀
    | root => exact h₁
    | doubleRoot => exact h₂

/-- Cleaning keeps the slashes at the front as far as they mean anything. -/
theorem anchorOf_clean (t : Text) : anchorOf (clean t) = anchorOf t :=
  anchorOf_text (neat_parse t)

theorem clean_ne_nil (t : Text) : clean t ≠ [] := by
  rw [clean_eq]
  split
  · simp [dot]
  · rename_i h
    intro hnil
    obtain ⟨hanchor, hjoin⟩ := List.append_eq_nil_iff.1 hnil
    have hrel : anchorOf t = .relative := by
      cases ha : anchorOf t <;> simp [ha, Anchor.text] at hanchor ⊢
    obtain ⟨c, u, -, hcons⟩ := join_parts (fun hparts => h ⟨hrel, hparts⟩) fun p hp => mem_parts hp
    rw [hcons] at hjoin
    cases hjoin

/-- The pieces of a spelled path are the parts, after pieces that stay where they are. -/
theorem pieces_text {s : Spelling} (h : s.Neat) :
    ∃ idle, (∀ p ∈ idle, isIdle p = true) ∧ Text.pieces '/' s.text = idle ++ s.parts := by
  rw [text_eq]
  by_cases hne : s.parts = []
  · rw [hne]
    cases s.anchor with
    | relative => exact ⟨[dot], by decide, by decide⟩
    | root => exact ⟨[[], []], by decide, by decide⟩
    | doubleRoot => exact ⟨[[], [], []], by decide, by decide⟩
  · rw [if_neg fun h => hne h.2]
    have hparts := Text.pieces_join hne fun p hp => (h p hp).1
    cases s.anchor with
    | relative => exact ⟨[], by simp, hparts⟩
    | root => exact ⟨[[]], by decide, by simpa [Anchor.text, Text.pieces] using hparts⟩
    | doubleRoot => exact ⟨[[], []], by decide, by simpa [Anchor.text, Text.pieces] using hparts⟩

theorem pieces_clean (t : Text) :
    ∃ idle, (∀ p ∈ idle, isIdle p = true) ∧
      Text.pieces '/' (clean t) = idle ++ (parse t).parts :=
  pieces_text (neat_parse t)

/-- A name below a directory: the pieces of the directory, less an empty one at their end, and the
name. -/
theorem pieces_below {dir name : Text} (hname : '/' ∉ name) :
    Text.pieces '/' dir ++ [name] = Text.pieces '/' (below dir name) ∨
      ∃ front, Text.pieces '/' dir = front ++ [[]] ∧
        front ++ [name] = Text.pieces '/' (below dir name) := by
  unfold below
  split
  · rename_i hlast
    obtain ⟨d, rfl⟩ := List.getLast?_eq_some_iff.1 hlast
    refine .inr ⟨Text.pieces '/' d, Text.pieces_append '/' d [], ?_⟩
    rw [List.append_assoc, List.singleton_append, Text.pieces_append, Text.pieces_of_not_mem hname]
  · left
    rw [Text.pieces_append, Text.pieces_of_not_mem hname]

/-- A neat spelling is read back from its text. -/
theorem parse_text {s : Spelling} (h : s.Neat) : parse s.text = s := by
  obtain ⟨idle, hidle, hpieces⟩ := pieces_text h
  have hparts : (parse s.text).parts = s.parts := by
    simp only [parse, hpieces, List.filter_append]
    rw [List.filter_eq_nil_iff.2 fun p hp => by simp [hidle p hp], List.nil_append]
    exact List.filter_eq_self.2 fun p hp => by simp [(h p hp).2]
  calc parse s.text
      = ⟨anchorOf s.text, (parse s.text).parts⟩ := rfl
    _ = ⟨s.anchor, s.parts⟩ := by rw [anchorOf_text h, hparts]

/-- A cleaned path is spelled as the path was. -/
theorem parse_clean (t : Text) : parse (clean t) = parse t :=
  parse_text (neat_parse t)

/-- A spelling with more names at its end. -/
def extend (s : Spelling) (names : List Text) : Spelling := ⟨s.anchor, s.parts ++ names⟩

@[simp] theorem extend_nil (s : Spelling) : s.extend [] = s := by
  simp [extend]

theorem extend_append (s : Spelling) (as bs : List Text) :
    s.extend (as ++ bs) = (s.extend as).extend bs := by
  simp [extend]

theorem anchorOf_below {dir name : Text} (hdir : dir ≠ []) (hne : name ≠ []) (hname : '/' ∉ name) :
    anchorOf (below dir name) = anchorOf dir := by
  obtain ⟨c, rest, rfl⟩ := List.exists_cons_of_ne_nil hne
  have hc : c ≠ '/' := fun h => hname (by simp [h])
  -- Three characters of the directory tell; with fewer, the name's first one is looked at, too.
  match dir, hdir with
  | [x], _ => by_cases hx : x = '/' <;> simp [below, anchorOf, hx, hc]
  | [x, y], _ =>
    by_cases hx : x = '/' <;> by_cases hy : y = '/' <;> simp [below, anchorOf, hx, hy, hc]
  | x :: y :: z :: d, _ =>
    have htell : ∀ u, anchorOf (x :: y :: z :: u) = anchorOf (x :: y :: z :: d) := by
      intro u
      by_cases hx : x = '/' <;> by_cases hy : y = '/' <;> by_cases hz : z = '/' <;>
        simp [anchorOf, hx, hy, hz]
    unfold below
    split <;> exact htell _

/-- The path of a name below a directory ends in that name. -/
theorem getLast?_pieces_below (dir : Text) {name : Text} (hname : '/' ∉ name) :
    (Text.pieces '/' (below dir name)).getLast? = some name := by
  rcases pieces_below hname with h | ⟨front, -, h⟩
  · rw [← h, List.getLast?_concat]
  · rw [← h, List.getLast?_concat]

/-- A name below a directory adds a part. -/
theorem parse_below {dir name : Text} (hdir : dir ≠ []) (hname : '/' ∉ name)
    (hidle : isIdle name = false) : parse (below dir name) = (parse dir).extend [name] := by
  have hne : name ≠ [] := by
    rintro rfl
    cases hidle
  have hparts : (parse (below dir name)).parts = (parse dir).parts ++ [name] := by
    simp only [parse]
    rcases pieces_below hname with h | ⟨front, hfront, h⟩
    · rw [← h]
      simp [List.filter_append, hidle]
    · have hnil : isIdle [] = true := rfl
      rw [← h, hfront]
      simp [List.filter_append, hnil, hidle]
  calc parse (below dir name)
      = ⟨anchorOf (below dir name), (parse (below dir name)).parts⟩ := rfl
    _ = (parse dir).extend [name] := by rw [anchorOf_below hdir hne hname, hparts]; rfl

/-- Cleaning a path brings in slashes and dots only. -/
theorem mem_clean {c : Char} {t : Text} (h : c ∈ clean t) : c ∈ t ∨ c = '/' ∨ c = '.' := by
  rw [clean_eq] at h
  split at h
  · exact .inr (.inr (by simpa [dot] using h))
  · rcases List.mem_append.1 h with h | h
    · right
      left
      generalize anchorOf t = anchor at h
      cases anchor with
      | relative => cases h
      | root => simpa [Anchor.text] using h
      | doubleRoot => simpa [Anchor.text] using h
    · rcases Text.mem_join h with h | ⟨p, hp, hc⟩
      · exact .inr (.inl (by simpa using h))
      · exact .inl (Text.mem_pieces (List.mem_of_mem_filter hp) hc).1

theorem mem_below {c : Char} {dir name : Text} (h : c ∈ below dir name) :
    c ∈ dir ∨ c ∈ name ∨ c = '/' := by
  unfold below at h
  split at h <;> simp at h <;> tauto

end Spelling

namespace FileSystem

variable {fs : FileSystem}

theorem start_eq (here : Location) (path : Text) :
    start here path = if Spelling.anchorOf path = .relative then here else [] := by
  unfold start
  split
  · rename_i t
    rw [if_neg (Spelling.anchorOf_slash t)]
  · rename_i h
    rw [if_pos (Spelling.anchorOf_of_not_slash h)]

/-- Where a path starts is read off its first character. -/
theorem start_cons (here : Location) (c : Char) (t u : Text) :
    start here (c :: t) = start here (c :: u) := by
  by_cases hc : c = '/'
  · subst hc
    rfl
  · simp [start, hc]

/-- A path that leads somewhere leads there when it is cleaned, too. -/
theorem locate_clean {path : Text} {loc : Location} (h : fs.locate true path = .ok loc) :
    fs.locate true (Spelling.clean path) = .ok loc := by
  obtain ⟨hne, k, hk, hleads⟩ := locate_eq_ok.1 h
  obtain ⟨entries, hdir⟩ := hleads.isDir (Text.pieces_ne_nil '/' path)
  obtain ⟨idle, hidle, hpieces⟩ := Spelling.pieces_clean path
  have hstart : start fs.cwd (Spelling.clean path) = start fs.cwd path := by
    rw [start_eq, start_eq, Spelling.anchorOf_clean]
  refine locate_eq_ok.2 ⟨Spelling.clean_ne_nil path, k, hk, ?_⟩
  rw [hstart, hpieces]
  exact hleads.filter.idle hdir hidle

/-- So does a path whose last piece is a name, when its cleaned form leads there. -/
theorem locate_of_clean {path : Text} {loc : Location}
    (hlast : ∀ p ∈ (Text.pieces '/' path).getLast?, Spelling.isIdle p = false)
    (h : fs.locate true (Spelling.clean path) = .ok loc) : fs.locate true path = .ok loc := by
  obtain ⟨-, k, hk, hleads⟩ := locate_eq_ok.1 h
  have hparts : Leads fs.tree k (start fs.cwd path) (Spelling.parse path).parts loc := by
    rw [← Spelling.parse_clean, start_eq, ← Spelling.anchorOf_clean, ← start_eq]
    exact hleads.filter
  refine locate_eq_ok.2 ⟨?_, k, hk, hparts.of_filter hlast⟩
  rintro rfl
  exact absurd (hlast [] rfl) (by decide)

/-- A name below a directory leads on from where the directory is. -/
theorem locate_below {dir name : Text} {loc : Location} {entries : List (Text × Tree)} {t : Tree}
    (h : fs.locate true dir = .ok loc) (hdir : fs.tree.at? loc = some (.dir entries))
    (hname : Named name) (hslash : '/' ∉ name) (hget : Table.get? entries name = some t)
    (hlink : ∀ target, t ≠ .link target) :
    fs.locate true (Spelling.below dir name) = .ok (loc ++ [name]) := by
  obtain ⟨hne, k, hk, hleads⟩ := locate_eq_ok.1 h
  have hstart : start fs.cwd (Spelling.below dir name) = start fs.cwd dir := by
    cases dir with
    | nil => exact absurd rfl hne
    | cons c d =>
      unfold Spelling.below
      split
      · exact start_cons ..
      · exact start_cons ..
  have hstep : Leads fs.tree 0 loc [name] (loc ++ [name]) :=
    .down hdir hname hget hlink (.done _)
  refine locate_eq_ok.2 ⟨fun hnil => ?_, k, hk, ?_⟩
  · unfold Spelling.below at hnil
    split at hnil <;> simp_all
  · rw [hstart]
    rcases Spelling.pieces_below hslash with hpieces | ⟨front, hpieces, hbelow⟩
    · rw [← hpieces]
      exact hleads.append hstep
    · rw [← hbelow]
      rw [hpieces] at hleads
      exact hleads.dropIdle.append hstep

end FileSystem
end ClassCensus
