import ClassCensus.Json.Reader
import ClassCensus.Yaml.Cursor

/-!
# ClassCensus.Yaml.Scalar

The texts of scalars: plain ones, which may run over several lines, quoted ones with their
escapes, and blocks with their indentation. A single line break inside a scalar is folded into a
space.
-/

namespace ClassCensus
namespace Yaml

/-- A text with the cursor behind it. -/
abbrev Taken := Text × Cursor

/-- A folded line break: further breaks after the first stay, and a lone line feed is a space. -/
def fold (first : Char) (more : Text) : Text :=
  if breakText first != ['\n'] then breakText first ++ more
  else if more.isEmpty then [' ']
  else more

/-! ## Plain scalars -/

def flowMark (c : Char) : Bool := c = ',' || c = '[' || c = ']' || c = '{' || c = '}'

/-- The length of a plain run: up to a gap, to a colon before a gap, or in flow to a mark. -/
def plainRun (inFlow : Bool) : Text → Nat
  | [] => 0
  | c :: t =>
    let next := t.head?
    let atColon := c = ':' && (isGap next || (inFlow && next.any flowMark))
    if isGap (some c) || atColon || (inFlow && (flowMark c || c = '?')) then 0
    else plainRun inFlow t + 1

/-- What lies between two plain runs. -/
structure PlainGap where
  text : Text
  cursor : Cursor
  broken : Bool

/-- The breaks and spaces after a line break; `none` in place of the text if a document marker
follows. -/
def plainBreaks : (fuel : Nat) → Cursor → Option Text × Cursor
  | 0, c => (some [], c)
  | fuel + 1, c =>
    match c.rest with
    | ' ' :: _ => plainBreaks fuel c.step
    | b :: _ =>
      if isBreak b then
        let c := c.step
        if c.atMarker then (none, c)
        else
          let (more, c) := plainBreaks fuel c
          (more.map (breakText b ++ ·), c)
      else (some [], c)
    | [] => (some [], c)

def plainGap (c : Cursor) : PlainGap :=
  let (spaces, c) := c.takeWhile (· = ' ')
  match c.rest with
  | b :: _ =>
    if isBreak b then
      let c := c.step
      if c.atMarker then ⟨[], c, true⟩
      else
        match plainBreaks c.rest.length c with
        | (none, c) => ⟨[], c, true⟩
        | (some more, c) => ⟨fold b more, c, true⟩
    else ⟨spaces, c, false⟩
  | [] => ⟨spaces, c, false⟩

/-- A plain scalar indented by at least `indent`; the flag says whether its last gap held a line
break. -/
def plainFrom (inFlow : Bool) (indent : Nat) : (fuel : Nat) → Cursor → Text × Cursor × Bool
  | 0, c => ([], c, false)
  | fuel + 1, c =>
    if c.peek 0 = some '#' then ([], c, false)
    else
      let n := plainRun inFlow c.rest
      if n = 0 then ([], c, false)
      else
        let run := c.rest.take n
        let gap := plainGap (c.skip n)
        let next := gap.cursor
        if gap.text.isEmpty || next.peek 0 = some '#' || (!inFlow && next.column < indent) then
          (run, next, gap.broken)
        else
          match plainFrom inFlow indent fuel next with
          | ([], c, _) => (run, c, gap.broken)
          | (more, c, broken) => (run ++ gap.text ++ more, c, broken)

def plain (inFlow : Bool) (indent : Nat) (c : Cursor) : Text × Cursor × Bool :=
  plainFrom inFlow indent (c.rest.length + 1) c

/-! ## Quoted scalars -/

/-- The breaks after a line break in a quoted scalar, where no document marker may stand. -/
def quotedBreaks : (fuel : Nat) → Cursor → Option Taken
  | 0, _ => none
  | fuel + 1, c =>
    if c.atMarker then none
    else
      let c := c.skipWhile fun ch => ch = ' ' || ch = '\t'
      match c.rest with
      | b :: _ =>
        if isBreak b then
          (quotedBreaks fuel c.step).map fun (more, c) => (breakText b ++ more, c)
        else some ([], c)
      | [] => some ([], c)

/-- What an escape of one character stands for. -/
def escapeOf : Char → Option Char
  | '0' => some '\x00'
  | 'a' => some '\x07'
  | 'b' => some '\x08'
  | 't' => some '\t'
  | '\t' => some '\t'
  | 'n' => some '\n'
  | 'v' => some '\x0b'
  | 'f' => some '\x0c'
  | 'r' => some '\r'
  | 'e' => some '\x1b'
  | ' ' => some ' '
  | '"' => some '"'
  | '\\' => some '\\'
  | '/' => some '/'
  | 'N' => some '\x85'
  | '_' => some '\xa0'
  | 'L' => some (Char.ofNat 0x2028)
  | 'P' => some (Char.ofNat 0x2029)
  | _ => none

/-- The number of hexadecimal digits after an escape letter. -/
def escapeWidth : Char → Option Nat
  | 'x' => some 2
  | 'u' => some 4
  | 'U' => some 8
  | _ => none

/-- The escape after a backslash. -/
def escape? (c : Cursor) : Option Taken :=
  match c.rest with
  | [] => none
  | ch :: t =>
    match escapeOf ch, escapeWidth ch with
    | some e, _ => some ([e], c.step)
    | none, some width =>
      let digits := t.take width
      if digits.length = width then
        match Json.hexNumber? digits with
        | some n => if n < 0x110000 then some ([Char.ofNat n], c.skip (width + 1)) else none
        | none => none
      else none
    | none, none =>
      if isBreak ch then quotedBreaks (t.length + 1) c.step else none

/-- A quoted scalar after its opening quote. -/
def quotedFrom (double : Bool) : (fuel : Nat) → Cursor → Option Taken
  | 0, _ => none
  | fuel + 1, c =>
    let go (head : Text) (c : Cursor) : Option Taken :=
      (quotedFrom double fuel c).map fun (more, c) => (head ++ more, c)
    match c.rest with
    | [] => none
    | ch :: t =>
      if double && ch = '"' then some ([], c.step)
      else if !double && ch = '\'' then
        if t.head? = some '\'' then go ['\''] (c.skip 2) else some ([], c.step)
      else if double && ch = '\\' then
        match escape? c.step with
        | none => none
        | some (text, c) => go text c
      else
        let (blanks, next) := c.takeWhile fun ch => ch = ' ' || ch = '\t'
        match next.rest with
        | [] => none
        | b :: _ =>
          if isBreak b then
            match quotedBreaks (next.rest.length + 1) next.step with
            | none => none
            | some (more, c) => go (fold b more) c
          else if blanks.isEmpty then go [ch] c.step
          else go blanks next

def quoted (double : Bool) (c : Cursor) : Option Taken :=
  quotedFrom double (c.rest.length + 1) c

/-! ## Block scalars -/

/-- What becomes of the line breaks at the end of a block. -/
inductive Chomping where
  | clip
  | strip
  | keep
  deriving DecidableEq

def chompingOf : Char → Option Chomping
  | '+' => some .keep
  | '-' => some .strip
  | _ => none

def incrementOf (c : Char) : Option Nat :=
  if '1' ≤ c && c ≤ '9' then some (c.toNat - 48) else none

/-- The indicators of a block: how it ends and how far it is indented, in either order. -/
def blockIndicators (c : Cursor) : Option (Chomping × Option Nat × Cursor) :=
  let finish (chomping : Chomping) (increment : Option Nat) (c : Cursor) :=
    if c.peek 0 = some ' ' || isEnd (c.peek 0) then some (chomping, increment, c) else none
  match c.rest with
  | a :: t =>
    match chompingOf a, incrementOf a with
    | some chomping, _ =>
      match t.head?.bind incrementOf with
      | some n => finish chomping (some n) (c.skip 2)
      | none => finish chomping none c.step
    | none, some n =>
      match t.head?.bind chompingOf with
      | some chomping => finish chomping (some n) (c.skip 2)
      | none => finish .clip (some n) c.step
    | none, none => finish .clip none c
  | [] => some (.clip, none, c)

/-- The rest of a line that may hold spaces and a comment only. -/
def ignoredLine (c : Cursor) : Option Cursor :=
  let c := c.skipWhile (· = ' ')
  let c := if c.peek 0 = some '#' then c.skipWhile (!isBreak ·) else c
  if isEnd (c.peek 0) then some c.step else none

/-- The empty lines in front of a block, and the widest indentation met. -/
def blockLead : (fuel : Nat) → (widest : Nat) → Cursor → Text × Nat × Cursor
  | 0, widest, c => ([], widest, c)
  | fuel + 1, widest, c =>
    match c.rest with
    | ' ' :: _ =>
      let c := c.step
      blockLead fuel (max widest c.column) c
    | b :: _ =>
      if isBreak b then
        let (more, widest, c) := blockLead fuel widest c.step
        (breakText b ++ more, widest, c)
      else ([], widest, c)
    | [] => ([], widest, c)

/-- The empty lines before the next line of a block, whose indentation is skipped. -/
def blockBreaks (indent : Nat) : (fuel : Nat) → Cursor → Taken
  | 0, c => ([], c)
  | fuel + 1, c =>
    match c.rest with
    | ' ' :: _ => if c.column < indent then blockBreaks indent fuel c.step else ([], c)
    | b :: _ =>
      if isBreak b then
        let (more, c) := blockBreaks indent fuel c.step
        (breakText b ++ more, c)
      else ([], c)
    | [] => ([], c)

/-- The lines of a block, after the breaks in front of the next one: the text, the break that ended
the last line, and the breaks after it. -/
def blockLines (folded : Bool) (indent : Nat) :
    (fuel : Nat) → (breaks : Text) → Cursor → Text × Text × Text × Cursor
  | 0, breaks, c => ([], [], breaks, c)
  | fuel + 1, breaks, c =>
    if c.column = indent && !c.rest.isEmpty then
      let flush := c.peek 0 != some ' ' && c.peek 0 != some '\t'
      let (line, c) := c.takeWhile (!isBreak ·)
      let ending := match c.peek 0 with
        | some b => breakText b
        | none => []
      let (more, next) := blockBreaks indent c.rest.length c.step
      if next.column = indent && !next.rest.isEmpty then
        let ahead := next.peek 0 != some ' ' && next.peek 0 != some '\t'
        let joint :=
          if folded && ending = ['\n'] && flush && ahead then
            if more.isEmpty then [' '] else []
          else ending
        let (text, last, after, c) := blockLines folded indent fuel more next
        (breaks ++ line ++ joint ++ text, last, after, c)
      else (breaks ++ line, ending, more, next)
    else ([], [], breaks, c)

/-- A block after its opening mark, inside a parent indented by `parent`. -/
def block (folded : Bool) (parent : Nat) (c : Cursor) : Option Taken :=
  match blockIndicators c with
  | none => none
  | some (chomping, increment, c) =>
    match ignoredLine c with
    | none => none
    | some c =>
      let least := max parent 1
      let size := c.rest.length
      let (breaks, indent, c) :=
        match increment with
        | none =>
          let (breaks, widest, c) := blockLead size 0 c
          (breaks, max least widest, c)
        | some n =>
          let indent := least + n - 1
          let (breaks, c) := blockBreaks indent size c
          (breaks, indent, c)
      let (text, last, after, c) := blockLines folded indent (size + 1) breaks c
      match chomping with
      | .strip => some (text, c)
      | .clip => some (text ++ last, c)
      | .keep => some (text ++ last ++ after, c)

end Yaml
end ClassCensus
