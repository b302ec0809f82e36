import ClassCensus.Table
import ClassCensus.Yaml.Scalar

/-!
# ClassCensus.Yaml.Token

The tokens of a YAML text. Indentation opens and closes blocks, and a scalar turns out to be a key
only when a colon follows it on its line, so that its token gets a mark in front afterwards.
-/

namespace ClassCensus
namespace Yaml

inductive Token where
  | directive (name value : Text)
  | documentStart
  | documentEnd
  | blockSequence
  | blockMapping
  | blockEnd
  | flowSequence
  | flowSequenceEnd
  | flowMapping
  | flowMappingEnd
  | entry
  | comma
  | key
  | value
  | alias (name : Text)
  | anchor (name : Text)
  | tag (handle : Option Text) (suffix : Text)
  | scalar (text : Text) (plain : Bool)
  deriving DecidableEq, Repr

/-- A place where a key may have started. -/
structure PossibleKey where
  position : Nat
  required : Bool
  index : Nat
  line : Nat
  column : Nat

structure Scan where
  cursor : Cursor
  tokens : List Token
  indent : Option Nat
  outer : List (Option Nat)
  depth : Nat
  keyAllowed : Bool
  keys : Table Nat PossibleKey

namespace Scan

def start (t : Text) : Scan := ⟨.start t, [], none, [], 0, true, []⟩

/-- The column at which the contents of the current block must at least stand. -/
def inner (s : Scan) : Nat :=
  match s.indent with
  | none => 0
  | some n => n + 1

def push (s : Scan) (t : Token) : Scan := { s with tokens := s.tokens ++ [t] }

def insertAt (s : Scan) (position : Nat) (ts : List Token) : Scan :=
  { s with tokens := s.tokens.take position ++ ts ++ s.tokens.drop position }

def inFlow (s : Scan) : Bool := 0 < s.depth

/-! ## Indentation -/

/-- Closes blocks that are indented further than a column; `none` closes all. -/
def unwindFrom (column : Option Nat) : List (Option Nat) → Scan → Scan
  | [], s => s
  | previous :: outer, s =>
    let deeper := match s.indent, column with
      | none, _ => false
      | some _, none => true
      | some n, some column => column < n
    if deeper then
      unwindFrom column outer ({ s with indent := previous, outer }.push .blockEnd)
    else s

def unwind (s : Scan) (column : Option Nat) : Scan :=
  if s.inFlow then s else unwindFrom column s.outer s

/-- Opens a block at a column if it is indented further than the current one. -/
def indentTo (s : Scan) (column : Nat) : Bool × Scan :=
  let deeper := match s.indent with
    | none => true
    | some n => n < column
  if deeper then (true, { s with indent := some column, outer := s.indent :: s.outer })
  else (false, s)

/-! ## Possible keys -/

/-- Forgets the possible key of the current depth, which must not have been required. -/
def dropKey (s : Scan) : Option Scan :=
  match Table.get? s.keys s.depth with
  | none => some s
  | some k => if k.required then none else some { s with keys := Table.erase s.keys s.depth }

/-- Remembers that a key may start here. -/
def saveKey (s : Scan) : Option Scan :=
  if s.keyAllowed then
    let required := !s.inFlow && s.indent = some s.cursor.column
    let key : PossibleKey :=
      ⟨s.tokens.length, required, s.cursor.index, s.cursor.line, s.cursor.column⟩
    s.dropKey.map fun s => { s with keys := Table.put s.keys s.depth key }
  else some s

/-- A key stands on one line and has at most 1024 characters. -/
def isStale (s : Scan) (k : PossibleKey) : Bool :=
  k.line != s.cursor.line || 1024 < s.cursor.index - k.index

def dropStale (s : Scan) : Option Scan :=
  if s.keys.any fun (_, k) => s.isStale k && k.required then none
  else some { s with keys := s.keys.filter fun (_, k) => !s.isStale k }

/-! ## Gaps -/

/-- Skips spaces, comments and line breaks up to the next token. -/
def skipGaps : (fuel : Nat) → Scan → Scan
  | 0, s => s
  | fuel + 1, s =>
    let c := s.cursor.skipWhile (· = ' ')
    let c := if c.peek 0 = some '#' then c.skipWhile (!isBreak ·) else c
    match c.rest with
    | b :: _ =>
      if isBreak b then
        skipGaps fuel { s with cursor := c.step, keyAllowed := s.keyAllowed || !s.inFlow }
      else { s with cursor := c }
    | [] => { s with cursor := c }

def toToken (s : Scan) : Scan :=
  let s :=
    if s.cursor.index = 0 && s.cursor.peek 0 = some byteOrderMark then
      { s with cursor := s.cursor.step }
    else s
  skipGaps (s.cursor.rest.length + 1) s

/-! ## Names -/

def isNameChar (c : Char) : Bool :=
  ('0' ≤ c && c ≤ '9') || ('A' ≤ c && c ≤ 'Z') || ('a' ≤ c && c ≤ 'z') || c = '-' || c = '_'

/-- The name of an anchor or an alias, after its mark. -/
def name? (c : Cursor) : Option Taken :=
  let (name, c) := c.takeWhile isNameChar
  let closed := isGap (c.peek 0) || (c.peek 0).any fun ch =>
    ch = '?' || ch = ':' || ch = ',' || ch = ']' || ch = '}' || ch = '%' || ch = '@' || ch = '`'
  if name.isEmpty || !closed then none else some (name, c)

def isUriChar (c : Char) : Bool := isNameChar c || ";/?:@&=+$,.!~*'()[]".toList.contains c

/-- A tag after its exclamation mark. -/
def tag? (c : Cursor) : Option (Token × Cursor) :=
  let finish (handle : Option Text) (suffix : Text) (c : Cursor) : Option (Token × Cursor) :=
    if c.peek 0 = some ' ' || isEnd (c.peek 0) then some (.tag handle suffix, c) else none
  match c.rest with
  | [] => finish none ['!'] c
  | '<' :: _ =>
    let (suffix, c) := c.step.takeWhile isUriChar
    if suffix.isEmpty || c.peek 0 != some '>' then none else finish none suffix c.step
  | ch :: _ =>
    if isGap (some ch) then finish none ['!'] c
    else
      let (name, next) := c.takeWhile isNameChar
      let (handle, c) :=
        if next.peek 0 = some '!' then ('!' :: name ++ ['!'], next.step) else (['!'], c)
      let (suffix, c) := c.takeWhile isUriChar
      if suffix.isEmpty then none else finish (some handle) suffix c

/-- A directive after its percent sign; the version of the format is kept. -/
def directive? (c : Cursor) : Option (Token × Cursor) :=
  let (name, c) := c.takeWhile isNameChar
  if name.isEmpty || !(c.peek 0 = some ' ' || isEnd (c.peek 0)) then none
  else
    let c := c.skipWhile (· = ' ')
    let (value, c) :=
      if name = "YAML".toList then c.takeWhile (!isSpaceOrBreak ·)
      else c.takeWhile (!isBreak ·)
    (ignoredLine c).map fun c => (.directive name value, c)

/-! ## Tokens -/

/-- A token of one character that neither starts nor ends a key. -/
def mark (s : Scan) (t : Token) : Scan := { s with cursor := s.cursor.step }.push t

def documentMark (s : Scan) (t : Token) : Option Scan :=
  (s.unwind none).dropKey.map fun s =>
    { s with cursor := s.cursor.skip 3, keyAllowed := false }.push t

def openFlow (s : Scan) (t : Token) : Option Scan :=
  s.saveKey.map fun s => { s with depth := s.depth + 1, keyAllowed := true }.mark t

def closeFlow (s : Scan) (t : Token) : Option Scan :=
  if s.inFlow then
    s.dropKey.map fun s => { s with depth := s.depth - 1, keyAllowed := false }.mark t
  else none

def commaMark (s : Scan) : Option Scan :=
  { s with keyAllowed := true }.dropKey.map (mark · .comma)

/-- Opens a block for a mark at the cursor, where one may stand. -/
def openBlock (s : Scan) (t : Token) : Option Scan :=
  if s.inFlow then some s
  else if s.keyAllowed then
    match s.indentTo s.cursor.column with
    | (true, s) => some (s.push t)
    | (false, s) => some s
  else none

def entryMark (s : Scan) : Option Scan :=
  (s.openBlock .blockSequence).bind fun s =>
    { s with keyAllowed := true }.dropKey.map (mark · .entry)

def keyMark (s : Scan) : Option Scan :=
  (s.openBlock .blockMapping).bind fun s =>
    { s with keyAllowed := !s.inFlow }.dropKey.map (mark · .key)

def valueMark (s : Scan) : Option Scan :=
  match Table.get? s.keys s.depth with
  | some k =>
    let s := { s with keys := Table.erase s.keys s.depth }.insertAt k.position [.key]
    let s :=
      if s.inFlow then s
      else
        match s.indentTo k.column with
        | (true, s) => s.insertAt k.position [.blockMapping]
        | (false, s) => s
    some ({ s with keyAllowed := false }.mark .value)
  | none =>
    (s.openBlock .blockMapping).bind fun s =>
      { s with keyAllowed := !s.inFlow }.dropKey.map (mark · .value)

/-- A token that may start a key, read by `take` from behind its first character. -/
def keyLike (s : Scan) (take : Cursor → Option (Token × Cursor)) : Option Scan :=
  s.saveKey.bind fun s =>
    (take s.cursor.step).map fun (t, c) => { s with cursor := c, keyAllowed := false }.push t

def quotedScalar (s : Scan) (double : Bool) : Option Scan :=
  s.keyLike fun c => (quoted double c).map fun (text, c) => (.scalar text false, c)

def blockScalar (s : Scan) (folded : Bool) : Option Scan :=
  { s with keyAllowed := true }.dropKey.bind fun s =>
    (block folded s.inner s.cursor.step).map fun (text, c) =>
      { s with cursor := c }.push (.scalar text false)

def plainScalar (s : Scan) : Option Scan :=
  s.saveKey.map fun s =>
    let (text, c, broken) := plain s.inFlow s.inner s.cursor
    { s with cursor := c, keyAllowed := broken }.push (.scalar text true)

/-- Whether a plain scalar may start with a character before another. -/
def startsPlain (inFlow : Bool) (ch : Char) (next : Option Char) : Bool :=
  !(isGap (some ch) || "-?:,[]\x7b\x7d#&*!|>'\"%@\x60".toList.contains ch) ||
    (!isGap next && (ch = '-' || (!inFlow && (ch = '?' || ch = ':'))))

/-- Reads the token that starts with a character. -/
def token (s : Scan) (ch : Char) : Option Scan :=
  let c := s.cursor
  let next := c.peek 1
  let lone := s.inFlow || isGap next
  if ch = '%' && c.column = 0 then
    (s.unwind none).dropKey.bind fun s =>
      (directive? s.cursor.step).map fun (t, c) =>
        { s with cursor := c, keyAllowed := false }.push t
  else if ch = '-' && c.column = 0 && c.atMarker then s.documentMark .documentStart
  else if ch = '.' && c.column = 0 && c.atMarker then s.documentMark .documentEnd
  else if ch = '[' then s.openFlow .flowSequence
  else if ch = '{' then s.openFlow .flowMapping
  else if ch = ']' then s.closeFlow .flowSequenceEnd
  else if ch = '}' then s.closeFlow .flowMappingEnd
  else if ch = ',' then s.commaMark
  else if ch = '-' && isGap next then s.entryMark
  else if ch = '?' && lone then s.keyMark
  else if ch = ':' && lone then s.valueMark
  else if ch = '*' then s.keyLike fun c => (name? c).map fun (name, c) => (.alias name, c)
  else if ch = '&' then s.keyLike fun c => (name? c).map fun (name, c) => (.anchor name, c)
  else if ch = '!' then s.keyLike tag?
  else if ch = '|' && !s.inFlow then s.blockScalar false
  else if ch = '>' && !s.inFlow then s.blockScalar true
  else if ch = '\'' then s.quotedScalar false
  else if ch = '"' then s.quotedScalar true
  else if startsPlain s.inFlow ch next then s.plainScalar
  else none

/-- Reads tokens up to the end of the text. -/
def run : (fuel : Nat) → Scan → Option (List Token)
  | 0, _ => none
  | fuel + 1, s =>
    match s.toToken.dropStale with
    | none => none
    | some s =>
      let s := s.unwind (some s.cursor.column)
      match s.cursor.rest with
      | [] => (s.unwind none).dropKey.map (·.tokens)
      | ch :: _ =>
        match s.token ch with
        | none => none
        | some s => run fuel s

end Scan

/-- The tokens of a text; `none` if there is a place where no token can stand. -/
def tokens? (t : Text) : Option (List Token) := (Scan.start t).run (t.length + 2)

end Yaml
end ClassCensus
