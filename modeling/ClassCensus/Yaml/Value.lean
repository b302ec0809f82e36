import ClassCensus.Text.Lines
import ClassCensus.Yaml.Node

/-!
# ClassCensus.Yaml.Value

The values YAML nodes stand for. A plain scalar is a number, a truth value or nothing if it is
written like one, and a text otherwise. Of two equal keys the later value counts.
-/

namespace ClassCensus
namespace Yaml

/-! ## Plain scalars -/

def isOneOf (words : List String) (t : Text) : Bool := words.any (·.toList = t)

def nullWords : List String := ["", "~", "null", "Null", "NULL"]

def trueWords : List String :=
  ["yes", "Yes", "YES", "true", "True", "TRUE", "on", "On", "ON"]

def falseWords : List String :=
  ["no", "No", "NO", "false", "False", "FALSE", "off", "Off", "OFF"]

/-- The sign in front of a number: whether it is a minus, and what follows. -/
def sign (t : Text) : Bool × Text :=
  match t with
  | '-' :: rest => (true, rest)
  | '+' :: rest => (false, rest)
  | rest => (false, rest)

def withoutBars (t : Text) : Text := t.filter (· != '_')

def isBarOr (p : Char → Bool) (c : Char) : Bool := c = '_' || p c

/-- The number that digits spell in a base. -/
def inBase? (base : Nat) (digits : Text) : Option Nat :=
  if digits.isEmpty then none
  else
    digits.foldl (fun acc c => acc.bind fun n =>
      (Json.hexDigit? c).bind fun d => if d < base then some (n * base + d) else none) (some 0)

/-- A place of a number to the base of sixty. -/
def isSixtieth (t : Text) : Bool :=
  match t with
  | [a] => Json.isDigit a
  | [a, b] => '0' ≤ a && a ≤ '5' && Json.isDigit b
  | _ => false

/-- Digits and underscores that start with a digit from `first` on. -/
def startsWithDigit (first : Char) (t : Text) : Bool :=
  match t with
  | c :: rest => first ≤ c && c ≤ '9' && rest.all (isBarOr Json.isDigit)
  | [] => false

/-- A whole number without its sign: binary, hexadecimal, octal, decimal, or to the base of
sixty. -/
def natural? (t : Text) : Option Nat :=
  match t with
  | '0' :: 'b' :: digits => inBase? 2 (withoutBars digits)
  | '0' :: 'x' :: digits => inBase? 16 (withoutBars digits)
  | ['0'] => some 0
  | '0' :: digits =>
    if digits.all (isBarOr fun c => '0' ≤ c && c ≤ '7') then inBase? 8 ('0' :: withoutBars digits)
    else none
  | _ =>
    match Text.pieces ':' t with
    | whole :: places =>
      if startsWithDigit '1' whole && places.all isSixtieth then
        places.foldl (fun acc p => acc.bind fun n => (inBase? 10 p).map (n * 60 + ·))
          (inBase? 10 (withoutBars whole))
      else none
    | [] => none

def integer? (t : Text) : Option Int :=
  let (negative, rest) := sign t
  (natural? rest).map fun n => if negative then -(n : Int) else n

/-- The exponent of a decimal, which must have a sign; none at all counts as zero. -/
def exponent? (t : Text) : Option Int :=
  match t with
  | [] => some 0
  | e :: s :: digits =>
    if (e = 'e' || e = 'E') && (s = '+' || s = '-') && digits.all Json.isDigit then
      (inBase? 10 digits).map fun n => if s = '-' then -(n : Int) else n
    else none
  | _ => none

/-- A decimal with a point. -/
def decimal? (negative : Bool) (whole places : Text) : Option Double :=
  let run := places.takeWhile (isBarOr Json.isDigit)
  match exponent? (places.dropWhile (isBarOr Json.isDigit)) with
  | none => none
  | some e =>
    let after := withoutBars run
    let digits := Json.digitsNumber (withoutBars whole ++ after)
    some (Double.ofDecimal negative digits (e - after.length))

/-- A number to the base of sixty with a point. -/
def sixtieths? (negative : Bool) (whole : Text) (places : Text) : Option Double :=
  match Text.pieces ':' whole with
  | first :: second :: more =>
    let parts := second :: more
    if startsWithDigit '0' first && parts.all isSixtieth &&
        places.all (isBarOr Json.isDigit) then
      let after := withoutBars places
      let n := parts.foldl (fun n p => n * 60 + Json.digitsNumber p)
        (Json.digitsNumber (withoutBars first))
      let scaled := n * Nat.pow 10 after.length + Json.digitsNumber after
      some (Double.ofDecimal negative scaled (-(after.length : Int)))
    else none
  | _ => none

/-- A number that is not whole: a decimal with a point, an infinity, or no number at all. -/
def real? (t : Text) : Option Double :=
  let (negative, rest) := sign t
  if isOneOf [".nan", ".NaN", ".NAN"] t then some .nan
  else if isOneOf [".inf", ".Inf", ".INF"] rest then some (.infinite negative)
  else
    match Text.splitFirst? ['.'] rest with
    | none => none
    | some ([], places) =>
      if rest.length = t.length && places.head?.any Json.isDigit then decimal? false [] places
      else none
    | some (whole, places) =>
      if startsWithDigit '0' whole then decimal? negative whole places
      else sixtieths? negative whole places

/-- The value of a plain scalar; two marks are kept for keys and are no values. Left out, and read
as texts: dates and times, which have a kind of their own and fail for a day that no month has
(`2024-99-99`); and whole numbers whose base stands without digits (`0b_`), which fail. A whole
number of over 4300 decimal digits fails too where one is read here. -/
def plainValue? (t : Text) : Option Value :=
  if isOneOf trueWords t then some (.bool true)
  else if isOneOf falseWords t then some (.bool false)
  else
    match real? t, integer? t with
    | some x, _ => some (.real x)
    | none, some n => some (.int n)
    | none, none =>
      if isOneOf nullWords t then some .null
      else if isOneOf ["<<", "="] t then none
      else some (.text t)

/-- The value of a scalar under the full form of a tag. Left out, and refused: the tags for dates and
times, for octets (`binary`), and those that name kinds of collections on a scalar. -/
def taggedValue? (tag text : Text) : Option Value :=
  match Text.after? Parse.coreTag tag with
  | none => none
  | some name =>
    match String.ofList name with
    | "str" => some (.text text)
    | "null" => some .null
    | "int" => (integer? text).map .int
    | "float" =>
      match real? text, integer? text with
      | some x, _ => some (.real x)
      | none, some n => some (.real (Double.ofDecimal (n < 0) n.natAbs 0))
      | none, none => none
    | "bool" =>
      let lowered := text.map Char.toLower
      if isOneOf trueWords lowered then some (.bool true)
      else if isOneOf falseWords lowered then some (.bool false)
      else none
    | _ => none

/-! ## Collections -/

/-- The entries a merge key brings in: those of a mapping, or of a list of mappings where earlier
ones win. -/
def mergedEntries? : Value → Option (List (Scalar × Value))
  | .map entries => some entries
  | .list items =>
    items.foldl (fun acc v => acc.bind fun entries =>
      match v with
      | .map more => some (more ++ entries)
      | _ => none) (some [])
  | _ => none

/-- A scalar key that is read as a text although its mark is no value. -/
def isTextKey : Node → Bool
  | .scalar none ['='] true => true
  | _ => false

def isMergeKey : Node → Bool
  | .scalar none ['<', '<'] true => true
  | _ => false

mutual

def Node.value? : Node → Option Value
  | .scalar none text true => plainValue? text
  | .scalar none text false => some (.text text)
  | .scalar (some tag) text _ => taggedValue? tag text
  | .list tag items =>
    if tag.all (· = Parse.coreTag ++ "seq".toList) then (valuesOf? items).map .list else none
  | .map tag pairs =>
    if tag.all (· = Parse.coreTag ++ "map".toList) then
      (entriesOf? [] [] pairs).map fun entries => .map (entries.foldl putEntry [])
    else none

def valuesOf? : List Node → Option (List Value)
  | [] => some []
  | n :: rest =>
    match n.value?, valuesOf? rest with
    | some v, some vs => some (v :: vs)
    | _, _ => none

/-- The entries of a mapping: those merged in come before its own. -/
def entriesOf? (merged own : List (Scalar × Value)) :
    List (Node × Node) → Option (List (Scalar × Value))
  | [] => some (merged ++ own)
  | (key, value) :: rest =>
    match value.value? with
    | none => none
    | some v =>
      if isMergeKey key then
        match mergedEntries? v with
        | none => none
        | some entries => entriesOf? (merged ++ entries) own rest
      else if isTextKey key then entriesOf? merged (own ++ [(.text ['='], v)]) rest
      else
        match key.value? with
        | some (.scalar k) => entriesOf? merged (own ++ [(k, v)]) rest
        | _ => none

end

/-! ## Texts -/

/-- The characters a YAML text may hold. -/
def isAllowed (c : Char) : Bool :=
  let n := c.toNat
  n = 0x9 || n = 0xA || n = 0xD || (0x20 ≤ n && n ≤ 0x7E) || n = 0x85 ||
    (0xA0 ≤ n && n ≤ 0xD7FF) || (0xE000 ≤ n && n ≤ 0xFFFD) || 0x10000 ≤ n

/-- The value of the one document in a text, which is nothing if there is no document; `none` if
the text is not well formed. -/
def parse? (t : Text) : Option Value :=
  let t := Text.unifyBreaks t
  if t.all isAllowed then
    match tokens? t with
    | none => none
    | some ts =>
      match document? ts with
      | none => none
      | some none => some .null
      | some (some node) => node.value?
  else none

end Yaml
end ClassCensus
