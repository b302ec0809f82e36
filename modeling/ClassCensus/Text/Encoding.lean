import ClassCensus.Text.Word

/-!
# ClassCensus.Text.Encoding

Character encodings by name, and how octets are read under each of them. Octets that stand for no
character are read as the replacement character: in UTF-8 one for every longest piece that could
still have become a character, in UTF-16 one for every lone surrogate.
-/

namespace ClassCensus

inductive Encoding where
  | utf8
  | utf8Signed
  | ascii
  | latin1
  | windows1252
  | utf16
  | utf16Little
  | utf16Big
  deriving DecidableEq, Repr

namespace Encoding

def replacement : Char := Char.ofNat 0xFFFD

def byteOrderMark : Char := Char.ofNat 0xFEFF

/-! ## Names -/

def all : List Encoding :=
  [utf8, utf8Signed, ascii, latin1, windows1252, utf16, utf16Little, utf16Big]

/-- The standard name of an encoding in canonical form. -/
def standardName : Encoding → Text
  | utf8 => "utf_8"
  | utf8Signed => "utf_8_sig"
  | ascii => "ascii"
  | latin1 => "latin_1"
  | windows1252 => "cp1252"
  | utf16 => "utf_16"
  | utf16Little => "utf_16_le"
  | utf16Big => "utf_16_be"

/-- The other names an encoding goes by, in canonical form. -/
def aliases : Encoding → List Text
  | utf8 => ["u8", "utf", "utf8", "utf8_ucs2", "utf8_ucs4", "cp65001"]
  | utf8Signed => []
  | ascii =>
    ["646", "ansi_x3.4_1968", "ansi_x3_4_1968", "ansi_x3.4_1986", "cp367", "csascii", "ibm367",
    "iso646_us", "iso_646.irv_1991", "iso_ir_6", "us", "us_ascii"]
  | latin1 =>
    ["8859", "cp819", "csisolatin1", "ibm819", "iso8859", "iso8859_1", "iso_8859_1",
    "iso_8859_1_1987", "iso_ir_100", "l1", "latin", "latin1"]
  | windows1252 => ["1252", "windows_1252"]
  | utf16 => ["u16", "utf16"]
  | utf16Little => ["unicodelittleunmarked", "utf_16le"]
  | utf16Big => ["unicodebigunmarked", "utf_16be"]

/-- Writes a name in canonical form: letters and digits in lower case, dots kept, and an underscore
for whatever stands between. `started` says that something has been written and `gap` that
separators wait. -/
def canonicalFrom (started gap : Bool) : Text → Text
  | [] => []
  | c :: t =>
    if c = '.' || (Text.isWord c && c != '_') then
      let bar := if gap && started then ['_'] else []
      let letter := if c.toNat < 0x80 then [c.toLower] else []
      bar ++ letter ++ canonicalFrom (started || !letter.isEmpty) false t
    else canonicalFrom started true t

def canonicalName (name : Text) : Text := canonicalFrom false false name

/-- The encoding of a name; in an alias a dot may stand for an underscore. -/
def named? (name : Text) : Option Encoding :=
  let canonical := canonicalName name
  let plain := canonical.map fun c => if c = '.' then '_' else c
  all.find? fun e =>
    canonical = e.standardName || e.aliases.contains canonical || e.aliases.contains plain

/-! ## One octet a character -/

def asciiChar (b : UInt8) : Char := if b < 0x80 then Char.ofNat b.toNat else replacement

def latin1Char (b : UInt8) : Char := Char.ofNat b.toNat

/-- The characters of the octets from `0x80` to `0x9F`; zero where there is none. -/
def windowsBlock : List Nat :=
  [0x20AC, 0, 0x201A, 0x0192, 0x201E, 0x2026, 0x2020, 0x2021, 0x02C6, 0x2030, 0x0160, 0x2039,
  0x0152, 0, 0x017D, 0, 0, 0x2018, 0x2019, 0x201C, 0x201D, 0x2022, 0x2013, 0x2014, 0x02DC, 0x2122,
  0x0161, 0x203A, 0x0153, 0, 0x017E, 0x0178]

def windowsChar (b : UInt8) : Char :=
  if 0x80 ≤ b && b < 0xA0 then
    match windowsBlock[b.toNat - 0x80]? with
    | some 0 | none => replacement
    | some n => Char.ofNat n
  else latin1Char b

/-! ## UTF-8 -/

/-- A character being read: its bits so far, how many octets are still due, and the range the next
one must lie in. -/
structure Partial where
  bits : Nat
  due : Nat
  low : UInt8
  high : UInt8

/-- Reads the first octet of a character. -/
def lead (b : UInt8) : Text × Option Partial :=
  if b < 0x80 then ([Char.ofNat b.toNat], none)
  else if b < 0xC2 then ([replacement], none)
  else if b < 0xE0 then ([], some ⟨b.toNat % 32, 1, 0x80, 0xBF⟩)
  else if b < 0xF0 then
    let low := if b = 0xE0 then 0xA0 else 0x80
    let high := if b = 0xED then 0x9F else 0xBF
    ([], some ⟨b.toNat % 16, 2, low, high⟩)
  else if b < 0xF5 then
    let low := if b = 0xF0 then 0x90 else 0x80
    let high := if b = 0xF4 then 0x8F else 0xBF
    ([], some ⟨b.toNat % 8, 3, low, high⟩)
  else ([replacement], none)

/-- Reads an octet after what has been read of a character. An octet that does not fit ends the
piece before it and starts anew. -/
def utf8Step (state : Option Partial) (b : UInt8) : Text × Option Partial :=
  match state with
  | none => lead b
  | some p =>
    if p.low ≤ b && b ≤ p.high then
      let bits := p.bits * 64 + b.toNat % 64
      if p.due ≤ 1 then ([Char.ofNat bits], none) else ([], some ⟨bits, p.due - 1, 0x80, 0xBF⟩)
    else
      let (written, next) := lead b
      (replacement :: written, next)

def utf8From (state : Option Partial) : List UInt8 → Text
  | [] => if state.isSome then [replacement] else []
  | b :: rest =>
    let (written, next) := utf8Step state b
    written ++ utf8From next rest

def decodeUtf8 (octets : List UInt8) : Text := utf8From none octets

/-- UTF-8 with an optional signature in front; the start of a signature alone is nothing. -/
def decodeUtf8Signed : List UInt8 → Text
  | [0xEF] | [0xEF, 0xBB] => []
  | 0xEF :: 0xBB :: 0xBF :: rest => decodeUtf8 rest
  | octets => decodeUtf8 octets

/-- Whether an octet can follow what has been read of a character. -/
def accepts (state : Option Partial) (b : UInt8) : Bool :=
  match state with
  | none => b < 0x80 || (lead b).2.isSome
  | some p => p.low ≤ b && b ≤ p.high

def isUtf8From (state : Option Partial) : List UInt8 → Bool
  | [] => state.isNone
  | b :: rest => accepts state b && isUtf8From (utf8Step state b).2 rest

/-- Whether every octet belongs to a character. -/
def isUtf8 (octets : List UInt8) : Bool := isUtf8From none octets

/-! ## UTF-16 -/

/-- The 16-bit units of an octet sequence; the flag says that an octet is left over. -/
def units (big : Bool) : List UInt8 → List Nat × Bool
  | [] => ([], false)
  | [_] => ([], true)
  | a :: b :: rest =>
    let unit := if big then a.toNat * 256 + b.toNat else b.toNat * 256 + a.toNat
    let (more, left) := units big rest
    (unit :: more, left)

def isHighSurrogate (u : Nat) : Bool := 0xD800 ≤ u && u < 0xDC00

def isLowSurrogate (u : Nat) : Bool := 0xDC00 ≤ u && u < 0xE000

/-- Reads units; `high` is a high surrogate that waits for its partner and `left` an octet left
over at the end, which shares the replacement of a surrogate that waits there. -/
def unitsText (left : Bool) (high : Option Nat) : List Nat → Text
  | [] => if left || high.isSome then [replacement] else []
  | u :: rest =>
    match high with
    | some h =>
      if isLowSurrogate u then
        Char.ofNat (0x10000 + (h - 0xD800) * 0x400 + (u - 0xDC00)) :: unitsText left none rest
      else if isHighSurrogate u then replacement :: unitsText left (some u) rest
      else replacement :: Char.ofNat u :: unitsText left none rest
    | none =>
      if isHighSurrogate u then unitsText left (some u) rest
      else if isLowSurrogate u then replacement :: unitsText left none rest
      else Char.ofNat u :: unitsText left none rest

def decodeUtf16 (big : Bool) (octets : List UInt8) : Text :=
  let (us, left) := units big octets
  unitsText left none us

/-- UTF-16 with the mark that tells its byte order; `none` if two octets come and are no mark. -/
def decodeMarked : List UInt8 → Option Text
  | [] => some []
  | [_] => some [replacement]
  | 0xFF :: 0xFE :: rest => some (decodeUtf16 false rest)
  | 0xFE :: 0xFF :: rest => some (decodeUtf16 true rest)
  | _ => none

/-- The text of an octet sequence; only marked UTF-16 can refuse one. -/
def decode? (e : Encoding) (octets : List UInt8) : Option Text :=
  match e with
  | utf8 => some (decodeUtf8 octets)
  | utf8Signed => some (decodeUtf8Signed octets)
  | ascii => some (octets.map asciiChar)
  | latin1 => some (octets.map latin1Char)
  | windows1252 => some (octets.map windowsChar)
  | utf16 => decodeMarked octets
  | utf16Little => some (decodeUtf16 false octets)
  | utf16Big => some (decodeUtf16 true octets)

end Encoding
end ClassCensus
