import ClassCensus.Proofs.Asking
import ClassCensus.Proofs.SameFile
import ClassCensus.Proofs.Utf16

/-!
# ClassCensus.Proofs.Decoding

Files of any octets. Under every encoding but one, octets are read as one text (`Decodes`), with
replacements for what stands for no character, and the scan of a file finds a class or nothing. The
one is marked UTF-16, where two octets that are no byte order mark end the scan with a failure
(`Unmarked`).
-/

namespace ClassCensus
namespace Encoding

/-! ## One octet a character -/

/-- The octet by itself stands for the character. -/
def OneOctet (code : UInt8 → Nat → Prop) (c : Char) (piece : List UInt8) : Prop :=
  ∃ b, piece = [b] ∧ code b c.toNat

/-- Of what stands for no character, one octet is lost. -/
def OneLost (piece _rest : List UInt8) : Prop := piece.length = 1

/-- Octets are read one by one. -/
def ReadsEach (code : UInt8 → Nat → Prop) : List UInt8 → Text → Prop :=
  Reads (OneOctet code) OneLost

/-- An octet has at most one code point. -/
def IsCode (code : UInt8 → Nat → Prop) : Prop := ∀ b n m, code b n → code b m → n = m

theorem unambiguous_each {code : UInt8 → Nat → Prop} (h : IsCode code) :
    Unambiguous (OneOctet code) OneLost where
  written := by
    rintro c _ ⟨b, rfl, -⟩
    simp
  free := by
    rintro c d _ _ ⟨b, rfl, hc⟩ ⟨b', rfl, hd⟩ hfront
    obtain rfl : b = b' := by simpa using hfront
    exact ⟨Char.toNat_inj.1 (h b _ _ hc hd), rfl⟩
  lost hone := List.ne_nil_of_length_pos (Nat.lt_of_lt_of_eq Nat.one_pos hone.symm)
  same hone hone' hall := (List.append_inj hall (Eq.trans hone (Eq.symm hone'))).1

theorem readsEach_map {code : UInt8 → Nat → Prop} {f : UInt8 → Char}
    (h : ∀ b, code b (f b).toNat ∨ f b = replacement ∧ ∀ n, ¬ code b n) (octets : List UInt8) :
    ReadsEach code octets (octets.map f) := by
  induction octets with
  | nil => exact .done
  | cons b rest ih =>
    rcases h b with hcode | ⟨hf, hnone⟩
    · exact .char ⟨b, rfl, hcode⟩ ih
    · have hnothing : ∀ c front, OneOctet code c front → ¬ front <+: [b] ++ rest := by
        rintro c _ ⟨b', rfl, hcode⟩ hfront
        obtain rfl : b' = b := by simpa using hfront
        exact hnone _ hcode
      have hlost : OneLost [b] rest := rfl
      rw [List.map_cons, hf]
      exact .replaced hnothing hlost ih

def AsciiCode (b : UInt8) (n : Nat) : Prop := b.toNat = n ∧ n < 0x80

def Latin1Code (b : UInt8) (n : Nat) : Prop := b.toNat = n

/-- The block from `0x80` to `0x9F` has characters of its own, and gaps. -/
def WindowsCode (b : UInt8) (n : Nat) : Prop :=
  if 0x80 ≤ b.toNat ∧ b.toNat < 0xA0 then windowsBlock[b.toNat - 0x80]? = some n ∧ n ≠ 0
  else b.toNat = n

theorem isCode_ascii : IsCode AsciiCode := by
  rintro b n m ⟨rfl, -⟩ ⟨rfl, -⟩
  rfl

theorem isCode_latin1 : IsCode Latin1Code := by
  rintro b n m rfl rfl
  rfl

theorem isCode_windows : IsCode WindowsCode := by
  intro b n m hn hm
  unfold WindowsCode at hn hm
  split at hn
  · rw [if_pos (by assumption), hn.1] at hm
    exact Option.some.inj hm.1
  · rw [if_neg (by assumption)] at hm
    exact hn.symm.trans hm

theorem toNat_ofNat_octet (b : UInt8) : (Char.ofNat b.toNat).toNat = b.toNat := by
  have hb := b.toNat_lt
  exact toNat_ofNat (.inl (by omega))

theorem readsEach_ascii (octets : List UInt8) :
    ReadsEach AsciiCode octets (octets.map asciiChar) := by
  refine readsEach_map (fun b => ?_) octets
  unfold asciiChar AsciiCode
  split
  case isTrue h =>
    rw [UInt8.lt_iff_toNat_lt] at h
    exact .inl ⟨(toNat_ofNat_octet b).symm, by rwa [toNat_ofNat_octet]⟩
  case isFalse h =>
    rw [UInt8.lt_iff_toNat_lt] at h
    exact .inr ⟨rfl, fun n hn => h (hn.1 ▸ hn.2)⟩

theorem readsEach_latin1 (octets : List UInt8) :
    ReadsEach Latin1Code octets (octets.map latin1Char) :=
  readsEach_map (fun b => .inl (toNat_ofNat_octet b).symm) octets

theorem windowsBlock_lt : ∀ n ∈ windowsBlock, n < 0xD800 := by decide

theorem readsEach_windows (octets : List UInt8) :
    ReadsEach WindowsCode octets (octets.map windowsChar) := by
  refine readsEach_map (fun b => ?_) octets
  have hblock : (0x80 ≤ b && b < 0xA0) = true ↔ 0x80 ≤ b.toNat ∧ b.toNat < 0xA0 := by
    simp [UInt8.le_iff_toNat_le, UInt8.lt_iff_toNat_lt]
  unfold windowsChar WindowsCode
  simp only [hblock]
  by_cases hb : 0x80 ≤ b.toNat ∧ b.toNat < 0xA0
  · simp only [hb, and_self, if_true]
    split
    case h_1 h => exact .inr ⟨rfl, fun n hn => hn.2 (Option.some.inj (hn.1.symm.trans h))⟩
    case h_2 h => exact .inr ⟨rfl, fun n hn => Option.some_ne_none n (hn.1.symm.trans h)⟩
    case h_3 n hzero h =>
      have hcode := toNat_ofNat (.inl (windowsBlock_lt n (List.mem_of_getElem? h)))
      rw [hcode]
      exact .inl ⟨h, fun hn => hzero hn⟩
  · simp only [hb, if_false]
    exact .inl (toNat_ofNat_octet b).symm

/-! ## Marks -/

def signature : List UInt8 := [0xEF, 0xBB, 0xBF]

/-- Octets without the signature in front, be it whole or cut off by their end. -/
def unsigned (octets : List UInt8) : List UInt8 :=
  if signature <+: octets ∨ octets <+: signature then octets.drop 3 else octets

/-- The octets of the byte order mark. -/
def markOctets (big : Bool) : List UInt8 := if big then [0xFE, 0xFF] else [0xFF, 0xFE]

/-- Octets that want a byte order mark and do not start with one. -/
def Unmarked (e : Encoding) (octets : List UInt8) : Prop :=
  e = utf16 ∧ 2 ≤ octets.length ∧ ∀ big, ¬ markOctets big <+: octets

/-- Octets are read as a text under an encoding. -/
def Decodes : Encoding → List UInt8 → Text → Prop
  | utf8 => ReadsUtf8
  | utf8Signed => fun octets => ReadsUtf8 (unsigned octets)
  | ascii => ReadsEach AsciiCode
  | latin1 => ReadsEach Latin1Code
  | windows1252 => ReadsEach WindowsCode
  | utf16 => fun octets t =>
    (∃ big body, octets = markOctets big ++ body ∧ ReadsUtf16 big body t) ∨
      (octets.length < 2 ∧ ReadsUtf16 true octets t)
  | utf16Little => ReadsUtf16 false
  | utf16Big => ReadsUtf16 true

theorem decodeUtf8Signed_eq (octets : List UInt8) :
    decodeUtf8Signed octets = decodeUtf8 (unsigned octets) := by
  unfold decodeUtf8Signed
  split
  · rfl
  · rfl
  · rename_i rest
    rw [unsigned, if_pos (.inl ⟨rest, rfl⟩)]
    rfl
  · rename_i hone htwo hsigned
    by_cases hempty : octets = []
    · subst hempty
      rfl
    · rw [unsigned, if_neg]
      rintro (⟨rest, rfl⟩ | hfront)
      · exact hsigned rest rfl
      · have hcases : octets = [] ∨ octets = [0xEF] ∨ octets = [0xEF, 0xBB] ∨
            octets = signature := by
          simpa [signature] using (List.mem_inits _ _).2 hfront
        rcases hcases with h | h | h | h
        · exact hempty h
        · exact hone h
        · exact htwo h
        · exact hsigned [] h

/-- Octets that are marked or too few for a mark are read, and no others. -/
theorem decodeMarked_spec (octets : List UInt8) :
    (∃ t, decodeMarked octets = some t ∧ Decodes utf16 octets t) ∨
      (decodeMarked octets = none ∧ Unmarked utf16 octets) := by
  unfold decodeMarked
  split
  · exact .inl ⟨_, rfl, .inr ⟨by simp, .done⟩⟩
  · rename_i b
    exact .inl ⟨_, rfl, .inr ⟨by simp, reads_decodeUtf16 true [b]⟩⟩
  · exact .inl ⟨_, rfl, .inl ⟨false, _, rfl, reads_decodeUtf16 false _⟩⟩
  · exact .inl ⟨_, rfl, .inl ⟨true, _, rfl, reads_decodeUtf16 true _⟩⟩
  · rename_i hnil hone hlittle hbig
    refine .inr ⟨rfl, rfl, ?_, ?_⟩
    · match octets with
      | [] => exact absurd rfl hnil
      | [b] => exact absurd rfl (hone b)
      | _ :: _ :: _ => simp
    · rintro (_ | _) ⟨body, rfl⟩
      · exact hlittle body rfl
      · exact hbig body rfl

theorem decode?_spec (e : Encoding) (octets : List UInt8) :
    (∃ t, e.decode? octets = some t ∧ e.Decodes octets t) ∨
      (e.decode? octets = none ∧ e.Unmarked octets) := by
  cases e with
  | utf8 => exact .inl ⟨_, rfl, reads_decodeUtf8 octets⟩
  | utf8Signed =>
    refine .inl ⟨_, rfl, ?_⟩
    rw [decodeUtf8Signed_eq]
    exact reads_decodeUtf8 (unsigned octets)
  | ascii => exact .inl ⟨_, rfl, readsEach_ascii octets⟩
  | latin1 => exact .inl ⟨_, rfl, readsEach_latin1 octets⟩
  | windows1252 => exact .inl ⟨_, rfl, readsEach_windows octets⟩
  | utf16 => exact decodeMarked_spec octets
  | utf16Little => exact .inl ⟨_, rfl, reads_decodeUtf16 false octets⟩
  | utf16Big => exact .inl ⟨_, rfl, reads_decodeUtf16 true octets⟩

theorem markOctets_append {big big' : Bool} {body body' : List UInt8}
    (h : markOctets big ++ body = markOctets big' ++ body') : big = big' ∧ body = body' := by
  cases big <;> cases big' <;> simp_all [markOctets]

theorem two_le_length_marked (big : Bool) (body : List UInt8) :
    2 ≤ (markOctets big ++ body).length := by
  cases big <;> simp [markOctets]

theorem Decodes.unique {e : Encoding} {octets : List UInt8} {t t' : Text}
    (h : e.Decodes octets t) (h' : e.Decodes octets t') : t = t' := by
  cases e with
  | utf8 => exact Reads.unique unambiguous_utf8 h h'
  | utf8Signed => exact Reads.unique unambiguous_utf8 h h'
  | ascii => exact Reads.unique (unambiguous_each isCode_ascii) h h'
  | latin1 => exact Reads.unique (unambiguous_each isCode_latin1) h h'
  | windows1252 => exact Reads.unique (unambiguous_each isCode_windows) h h'
  | utf16Little => exact Reads.unique (unambiguous_utf16 false) h h'
  | utf16Big => exact Reads.unique (unambiguous_utf16 true) h h'
  | utf16 =>
    rcases h with ⟨big, body, rfl, h⟩ | ⟨hshort, h⟩ <;>
      rcases h' with ⟨big', body', hbody, h'⟩ | ⟨hshort', h'⟩
    · obtain ⟨rfl, rfl⟩ := markOctets_append hbody
      exact Reads.unique (unambiguous_utf16 big) h h'
    · exact absurd (two_le_length_marked big body) (Nat.not_le_of_lt hshort')
    · rw [hbody] at hshort
      exact absurd (two_le_length_marked big' body') (Nat.not_le_of_lt hshort)
    · exact Reads.unique (unambiguous_utf16 true) h h'

/-- Octets without the mark they want are read as nothing. -/
theorem Decodes.not_unmarked {e : Encoding} {octets : List UInt8} {t : Text}
    (h : e.Decodes octets t) : ¬ e.Unmarked octets := by
  rintro ⟨rfl, htwo, hnone⟩
  rcases h with ⟨big, body, rfl, -⟩ | ⟨hshort, -⟩
  · exact hnone big (List.prefix_append _ _)
  · omega

end Encoding

/-! ## Scans -/

/-- What a scan finds for a header: its class, if it declares one that the catalog knows. -/
def MemoryCatalog.known? (c : MemoryCatalog) (sep path : Text) (header : Source.Header) :
    Option ClassFacts :=
  header.basename.bind fun name =>
    let space := Scanner.spaceOf sep header
    let identity := Identity.join sep space name
    if c.contains identity then some ⟨identity, name, space, path, sep, true⟩ else none

namespace Scanner

variable {fs : FileSystem} {settings : ScannerSettings} {file path : Text} {octets : List UInt8}
  {e : Encoding}

theorem readLines_of_open (hencoding : '\x00' ∉ settings.encoding) (hpath : '\x00' ∉ path)
    (hopen : fs.openFile path = .ok octets) (he : Encoding.named? settings.encoding = some e) :
    (∀ {t}, e.decode? octets = some t → readLines fs settings.encoding path = .ok (Text.lines t)) ∧
      (e.decode? octets = none →
        readLines fs settings.encoding path = .error .missingByteOrderMark) := by
  simp only [readLines, List.contains_eq_mem, hencoding, hpath, decide_false, Bool.false_eq_true,
    if_false, hopen, he]
  constructor
  · intro t ht
    rw [ht]
  · intro hnone
    rw [hnone]

theorem confirm_memory {sep space name : Text}
    (hcheck : ClassFacts.check (Identity.join sep space name) name space sep = .ok ())
    (c : MemoryCatalog) (path : Text) :
    (confirm sep c path space name).answer =
      .ok (if c.contains (Identity.join sep space name) then
        some ⟨Identity.join sep space name, name, space, path, sep, true⟩ else none) := by
  cases hhas : c.contains (Identity.join sep space name) with
  | false =>
    simp only [confirm, TypeCatalog.confirm, MemoryCatalog.confirm, hhas, Bool.false_eq_true,
      if_false]
  | true =>
    have hconfirm : TypeCatalog.confirm c (Identity.join sep space name) =
        ⟨.ok true, c.load (Identity.join sep space name), []⟩ := by
      simp only [TypeCatalog.confirm, MemoryCatalog.confirm, hhas, if_true]
    have hloaded : (c.load (Identity.join sep space name)).isLoaded (Identity.join sep space name) =
        true := by
      simp [MemoryCatalog.isLoaded, MemoryCatalog.mem_load]
    refine confirm_found hcheck path (by rw [hconfirm]) ?_
    rw [hconfirm]
    exact congrArg Except.ok hloaded

/-- A file that can be read: the scan finds its class, if the catalog knows it, and nothing else. -/
theorem scan_memory (hsep : settings.namespaceSeparator ≠ []) (hpath : fs.canonical file = .ok path)
    {lines : List Text} (hlines : readLines fs settings.encoding path = .ok lines)
    (c : MemoryCatalog) :
    (scan fs settings c file).answer =
      .ok (c.known? settings.namespaceSeparator path
        (Source.header settings.stopTokens lines)) := by
  have hheader := headerOf_of_lines hpath hlines
  generalize hread : Source.header settings.stopTokens lines = header at hheader
  obtain ⟨space, _ | name⟩ := header
  · simp only [scan, hheader]
    rfl
  · have hname : Text.IsIdentifier name := by
      apply Source.isIdentifier_of_headerFrom
      change (Source.header settings.stopTokens lines).basename = some name
      rw [hread]
    have htrim := Text.isTrimmed_trimSet settings.namespaceSeparator.contains (space.getD [])
    rw [scan_of_header hheader]
    exact confirm_memory (ClassFacts.check_join hname (htrim.not_suffix hsep)) c path

theorem scan_of_refused (hpath : fs.canonical file = .ok path) {failure : Failure}
    (hrefused : readLines fs settings.encoding path = .error failure) (c : MemoryCatalog) :
    (scan fs settings c file).answer = .error failure := by
  simp only [scan, headerOf, hpath, readHeader, hrefused]

/-- A file of any octets, under an encoding that is known. Unless the encoding wants a byte order
mark that is not there, the octets are read as one text, with replacements for what stands for no
character, and the scan ends with the class that the text declares or with nothing. Without the
mark it ends with a failure. -/
theorem scan_reads_any_octets (fs : FileSystem) (settings : ScannerSettings) (c : MemoryCatalog)
    (hnames : fs.tree.wellNamed = true) (hsep : settings.namespaceSeparator ≠ [])
    (hencoding : '\x00' ∉ settings.encoding) (he : Encoding.named? settings.encoding = some e)
    (hpath : fs.canonical file = .ok path) (hopen : fs.openFile path = .ok octets) :
    (¬ e.Unmarked octets → ∃ t, (∀ t', e.Decodes octets t' ↔ t' = t) ∧
      (scan fs settings c file).answer = .ok (c.known? settings.namespaceSeparator path
        (Source.header settings.stopTokens (Text.lines t)))) ∧
    (e.Unmarked octets →
      (scan fs settings c file).answer = .error .missingByteOrderMark) := by
  obtain ⟨loc, hlocate, -⟩ := FileSystem.exists_of_openFile hopen
  have hnul := FileSystem.noNul_of_locate hnames hlocate
  obtain ⟨hread, hrefused⟩ := readLines_of_open hencoding hnul hopen he
  rcases e.decode?_spec octets with ⟨t, ht, hdecodes⟩ | ⟨hnone, hunmarked⟩
  · refine ⟨fun _ => ⟨t, fun t' => ⟨fun h => h.unique hdecodes, fun h => h ▸ hdecodes⟩, ?_⟩, ?_⟩
    · exact scan_memory hsep hpath (hread ht) c
    · exact fun hunmarked => absurd hunmarked hdecodes.not_unmarked
  · refine ⟨fun hmarked => absurd hunmarked hmarked, fun _ => ?_⟩
    exact scan_of_refused hpath (hrefused hnone) c

def fileOfOctets (octets : List UInt8) : FileSystem :=
  ⟨.dir [("a.php".toList, .file octets)], [], [], []⟩

theorem canonical_fileOfOctets (octets : List UInt8) :
    (fileOfOctets octets).canonical "a.php".toList = .ok "/a.php".toList := rfl

/-- An octet that starts nothing and the front of a character, on a line before the class. -/
def brokenOctets : List UInt8 :=
  Text.utf8 "<?php ".toList ++ [0xFF, 0xE2, 0x82] ++ Text.utf8 "\nclass A".toList

def oneClass : MemoryCatalog := ⟨[("A".toList, .bare "A".toList)], []⟩

theorem broken_octets_are_replaced :
    Encoding.utf8.Decodes brokenOctets ("<?php ".toList ++
        [Encoding.replacement, Encoding.replacement] ++ "\nclass A".toList) ∧
      (scan (fileOfOctets brokenOctets) {} oneClass "a.php".toList).answer =
        .ok (some ⟨"A".toList, "A".toList, [], "/a.php".toList, "\\".toList, true⟩) := by
  have hmarked : ¬ Encoding.utf8.Unmarked brokenOctets := fun h => by cases h.1
  obtain ⟨t, ht, hscan⟩ := (scan_reads_any_octets (fileOfOctets brokenOctets) {} oneClass
    (by decide +kernel) (by decide) (by decide) (by decide +kernel)
    (canonical_fileOfOctets _) rfl).1 hmarked
  have hread : Encoding.decodeUtf8 brokenOctets = "<?php ".toList ++
      [Encoding.replacement, Encoding.replacement] ++ "\nclass A".toList := by decide +kernel
  obtain rfl := (ht _).1 (hread ▸ Encoding.reads_decodeUtf8 brokenOctets)
  refine ⟨(ht _).2 rfl, hscan.trans (congrArg Except.ok ?_)⟩
  decide +kernel

/-- The same class in a file without the mark that its encoding wants. -/
def unmarkedOctets : List UInt8 := Text.utf8 "<?php\nclass A".toList

def markedSettings : ScannerSettings := { encoding := "utf-16".toList }

theorem unmarked_file_is_refused :
    Encoding.named? markedSettings.encoding = some .utf16 ∧
      (fileOfOctets unmarkedOctets).openFile "/a.php".toList = .ok unmarkedOctets ∧
      (scan (fileOfOctets unmarkedOctets) markedSettings oneClass "a.php".toList).answer =
        .error .missingByteOrderMark := by
  have he : Encoding.named? markedSettings.encoding = some .utf16 := by decide +kernel
  have hopen : (fileOfOctets unmarkedOctets).openFile "/a.php".toList = .ok unmarkedOctets := rfl
  obtain ⟨-, hrefused⟩ := readLines_of_open (by decide) (by decide) hopen he
  refine ⟨he, hopen, scan_of_refused (canonical_fileOfOctets _) (hrefused ?_) oneClass⟩
  decide +kernel

end Scanner

end ClassCensus
