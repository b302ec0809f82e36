import ClassCensus.Proofs.Decoding
import ClassCensus.Proofs.Spelling

/-!
# ClassCensus.Proofs.LineEnds

The breaks that end the lines of a file have no part in its scan. A line feed, a carriage return
and the two together each end a line, so that a carriage return and the feed of an empty line behind
it become one break and the empty line is lost. Nothing else is: the lines of a text are those it
was written from, up to empty ones (`Written.filter_lines`), and empty lines say nothing
(`header_filter`).
-/

namespace ClassCensus

/-- What can end a line. -/
inductive Break where
  | feed
  | ret
  | retFeed
  deriving DecidableEq, Repr

def Break.text : Break → Text
  | feed => ['\n']
  | ret => ['\r']
  | retFeed => ['\r', '\n']

namespace Text

/-- The text is made of these lines, each with a break of its own; the last one may have none. -/
inductive Written : List Text → Text → Prop
  | none : Written [] []
  | unended (line : Text) : Written [line] line
  | ended (line : Text) (b : Break) {rest : List Text} {t : Text} (h : Written rest t) :
      Written (line :: rest) (line ++ b.text ++ t)

/-- The line holds no break. -/
def Unbroken (line : Text) : Prop := '\r' ∉ line ∧ '\n' ∉ line

variable {line t : Text}

theorem unifyBreaks_cons {c : Char} (hc : c ≠ '\r') (t : Text) :
    unifyBreaks (c :: t) = c :: unifyBreaks t := by
  rw [unifyBreaks]
  · rintro _ rfl
    exact absurd rfl hc
  · rintro rfl
    exact absurd rfl hc

theorem unifyBreaks_append (h : '\r' ∉ line) (t : Text) :
    unifyBreaks (line ++ t) = line ++ unifyBreaks t := by
  induction line with
  | nil => rfl
  | cons c line ih =>
    rw [List.mem_cons, not_or] at h
    rw [List.cons_append, unifyBreaks_cons (Ne.symm h.1), ih h.2, List.cons_append]

theorem dropOpenEnd_cons (line : Text) {ps : List Text} (hps : ps ≠ []) :
    dropOpenEnd (line :: ps) = line :: dropOpenEnd ps := by
  unfold dropOpenEnd
  rw [List.getLast?_cons_of_ne_nil hps, List.dropLast_cons_of_ne_nil hps]
  cases hlast : ps.getLast? with
  | none => rfl
  | some last => cases last <;> rfl

/-- A line up to a feed, once the breaks are feeds. -/
theorem dropOpenEnd_pieces (h : '\n' ∉ line) (u : Text) :
    dropOpenEnd (pieces '\n' (line ++ '\n' :: u)) = line :: dropOpenEnd (pieces '\n' u) := by
  rw [pieces_append, pieces_of_not_mem h, List.singleton_append,
    dropOpenEnd_cons line (pieces_ne_nil '\n' u)]

/-- Whether a line is of any account. -/
def isFilled (line : Text) : Bool := !line.isEmpty

theorem lines_unended (h : Unbroken line) :
    (lines line).filter isFilled = [line].filter isFilled := by
  have hunify : unifyBreaks line = line := by
    simpa [unifyBreaks] using unifyBreaks_append h.1 []
  rw [lines, hunify, pieces_of_not_mem h.2]
  cases line with
  | nil => rfl
  | cons c line => rfl

/-- A line and its break give the line, up to an empty one that may be lost behind it. -/
theorem lines_ended (h : Unbroken line) (b : Break) (t : Text) :
    (lines (line ++ b.text ++ t)).filter isFilled = (line :: lines t).filter isFilled := by
  have hcut : ∀ u, unifyBreaks (b.text ++ t) = '\n' :: u →
      lines (line ++ b.text ++ t) = line :: dropOpenEnd (pieces '\n' u) := by
    intro u hu
    rw [lines, List.append_assoc, unifyBreaks_append h.1, hu, dropOpenEnd_pieces h.2]
  cases b with
  | feed => rw [hcut (unifyBreaks t) (unifyBreaks_cons (by decide) t), lines]
  | retFeed => rw [hcut (unifyBreaks t) rfl, lines]
  | ret =>
    cases t with
    | nil => rw [hcut [] rfl]; rfl
    | cons c t =>
      by_cases hc : c = '\n'
      · -- the two breaks are one, and the line between them is empty
        subst hc
        have hempty : lines ('\n' :: t) = [] :: lines t := by
          rw [lines, unifyBreaks_cons (by decide)]
          exact dropOpenEnd_pieces List.not_mem_nil _
        rw [hcut (unifyBreaks t) rfl, hempty, lines]
        rfl
      · have hret : unifyBreaks ('\r' :: c :: t) = '\n' :: unifyBreaks (c :: t) := by
          rw [unifyBreaks]
          rintro _ heq
          exact hc (List.cons.inj heq).1
        rw [hcut (unifyBreaks (c :: t)) hret, lines]

theorem Written.filter_lines {ls : List Text} (h : Written ls t)
    (hls : ∀ line ∈ ls, Unbroken line) : (lines t).filter isFilled = ls.filter isFilled := by
  induction h with
  | none => rfl
  | unended line => exact lines_unended (hls line (by simp))
  | ended line b _ ih =>
    obtain ⟨hline, hrest⟩ := List.forall_mem_cons.1 hls
    rw [lines_ended hline, List.filter_cons, List.filter_cons, ih hrest]

end Text

namespace Source

/-- Empty lines are of no account. -/
theorem header_filter (stops lines : List Text) :
    header stops (lines.filter Text.isFilled) = header stops lines := by
  induction lines with
  | nil => rfl
  | cons raw rest ih =>
    cases raw with
    | nil =>
      have hnothing : readRaw stops [] = .nothing := rfl
      rw [List.filter_cons_of_neg (by decide), header_cons, hnothing]
      exact ih
    | cons c raw => rw [List.filter_cons_of_pos (by rfl), header_cons, header_cons, ih]

theorem header_of_written {stops ls : List Text} {t : Text} (h : Text.Written ls t)
    (hls : ∀ line ∈ ls, Text.Unbroken line) : header stops (Text.lines t) = header stops ls := by
  rw [← header_filter, h.filter_lines hls, header_filter]

end Source

namespace Scanner

variable {fs fs' : FileSystem} {settings : ScannerSettings} {file path t t' : Text}

/-- The file at a path can be opened, and is read as a text if its encoding is known. -/
def HoldsText (fs : FileSystem) (encoding path t : Text) : Prop :=
  ∃ octets, fs.openFile path = .ok octets ∧
    ∀ e, Encoding.named? encoding = some e → e.decode? octets = some t

/-- A file of UTF-8 holds the text it was written from. -/
theorem holdsText_utf8 (t : Text) :
    HoldsText (fileOfOctets (Text.utf8 t)) "utf-8".toList "/a.php".toList t := by
  refine ⟨Text.utf8 t, rfl, fun e he => ?_⟩
  have hutf8 : Encoding.named? "utf-8".toList = some .utf8 := by decide +kernel
  obtain rfl := Option.some.inj (hutf8.symm.trans he)
  exact congrArg some (Encoding.decodeUtf8_utf8 t)

/-- Files whose texts have one header are read alike, be it for that header or for what is wrong
with the settings. -/
theorem readHeader_of_holdsText (h : HoldsText fs settings.encoding path t)
    (h' : HoldsText fs' settings.encoding path t')
    (hheader : Source.header settings.stopTokens (Text.lines t) =
      Source.header settings.stopTokens (Text.lines t')) :
    readHeader fs settings path = readHeader fs' settings path := by
  obtain ⟨octets, hopen, hdecode⟩ := h
  obtain ⟨octets', hopen', hdecode'⟩ := h'
  simp only [readHeader, readLines, hopen, hopen']
  by_cases hname : settings.encoding.contains '\x00' = true
  · simp only [hname, if_true]
  · by_cases hpath : path.contains '\x00' = true
    · simp only [hname, hpath, Bool.false_eq_true, if_false, if_true]
    · cases hnamed : Encoding.named? settings.encoding with
      | none => simp only [hname, hpath, Bool.false_eq_true, if_false]
      | some e =>
        simp only [hname, hpath, Bool.false_eq_true, if_false, hdecode e hnamed, hdecode' e hnamed,
          hheader]

end Scanner

/-- Two files at one path are written from the same lines, each line with a break of its own and the
last perhaps with none. Scans of them come to the same, whatever the settings and the catalog; and
if the file can be read at all, it is read for the header of those lines. -/
theorem scan_keeps_with_other_line_ends {κ : Type} [TypeCatalog κ] (fs fs' : FileSystem)
    (settings : ScannerSettings) (catalog : κ) {file path t t' : Text} {ls : List Text}
    (hls : ∀ line ∈ ls, Text.Unbroken line) (ht : Text.Written ls t) (ht' : Text.Written ls t')
    (hpath : fs.canonical file = .ok path) (hpath' : fs'.canonical file = .ok path)
    (hfile : Scanner.HoldsText fs settings.encoding path t)
    (hfile' : Scanner.HoldsText fs' settings.encoding path t') :
    Scanner.scan fs settings catalog file = Scanner.scan fs' settings catalog file ∧
      ('\x00' ∉ settings.encoding → '\x00' ∉ path → (Encoding.named? settings.encoding).isSome →
        Scanner.headerOf fs settings file = .ok (path, Source.header settings.stopTokens ls)) := by
  constructor
  · have hread := Scanner.readHeader_of_holdsText hfile hfile'
      ((Source.header_of_written ht hls).trans (Source.header_of_written ht' hls).symm)
    apply Scanner.scan_congr
    simp only [Scanner.headerOf, hpath, hpath', hread]
  · intro hencoding hnul hnamed
    obtain ⟨e, he⟩ := Option.isSome_iff_exists.1 hnamed
    obtain ⟨octets, hopen, hdecode⟩ := hfile
    obtain ⟨hlines, -⟩ := Scanner.readLines_of_open hencoding hnul hopen he
    rw [Scanner.headerOf_of_lines hpath (hlines (hdecode e he)), Source.header_of_written ht hls]

/-- A line that is empty, behind one that a carriage return ends. -/
def gappedLines : List Text := ["<?php", "", "namespace N;", "class A"]

def feedsText : Text := "<?php\n\nnamespace N;\nclass A\n"

/-- The return of the first line and the feed of the second are one break. -/
def fusedText : Text := "<?php\r\nnamespace N;\rclass A"

theorem fused_breaks_scan_as_feeds :
    Text.Written gappedLines feedsText ∧ Text.Written gappedLines fusedText ∧
      Text.lines feedsText ≠ Text.lines fusedText ∧
      Scanner.scan (Scanner.fileOfOctets (Text.utf8 feedsText)) {} MemoryCatalog.empty
          "a.php".toList =
        Scanner.scan (Scanner.fileOfOctets (Text.utf8 fusedText)) {} MemoryCatalog.empty
          "a.php".toList ∧
      Scanner.headerOf (Scanner.fileOfOctets (Text.utf8 feedsText)) {} "a.php".toList =
        .ok ("/a.php".toList, ⟨some "N".toList, some "A".toList⟩) := by
  have hfeeds : Text.Written gappedLines feedsText :=
    .ended _ .feed (.ended _ .feed (.ended _ .feed (.ended _ .feed .none)))
  have hfused : Text.Written gappedLines fusedText :=
    .ended _ .ret (.ended _ .feed (.ended _ .ret (.unended _)))
  have hls : ∀ line ∈ gappedLines, Text.Unbroken line := by
    unfold Text.Unbroken
    decide
  obtain ⟨hscan, hheader⟩ := scan_keeps_with_other_line_ends _ _ {} MemoryCatalog.empty hls hfeeds
    hfused (Scanner.canonical_fileOfOctets _) (Scanner.canonical_fileOfOctets _)
    (Scanner.holdsText_utf8 _) (Scanner.holdsText_utf8 _)
  refine ⟨hfeeds, hfused, by decide +kernel, hscan, ?_⟩
  rw [hheader (by decide) (by decide) (by decide +kernel)]
  exact congrArg (fun header => Except.ok ("/a.php".toList, header)) (by decide +kernel)

end ClassCensus
