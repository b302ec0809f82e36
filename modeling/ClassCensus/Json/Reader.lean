import ClassCensus.Value.Basic

/-!
# ClassCensus.Json.Reader

Reads a value written in JSON. Beside the standard, a number may be `NaN`, `Infinity` or
`-Infinity`; of two members with one name the later counts; whole numbers have any size.
-/

namespace ClassCensus
namespace Json

def isSpace (c : Char) : Bool := c = ' ' || c = '\t' || c = '\n' || c = '\r'

def skipSpace (t : Text) : Text := t.dropWhile isSpace

/-! ## Strings -/

def hexDigit? (c : Char) : Option Nat :=
  let n := c.toNat
  if '0' ≤ c && c ≤ '9' then some (n - 48)
  else if 'a' ≤ c && c ≤ 'f' then some (n - 87)
  else if 'A' ≤ c && c ≤ 'F' then some (n - 55)
  else none

/-- The number written by hexadecimal digits. -/
def hexNumber? (digits : List Char) : Option Nat :=
  digits.foldl (fun acc c => acc.bind fun n => (hexDigit? c).map (n * 16 + ·)) (some 0)

/-- The character an escape of one letter stands for. -/
def shortEscape? : Char → Option Char
  | '"' => some '"'
  | '\\' => some '\\'
  | '/' => some '/'
  | 'b' => some '\x08'
  | 'f' => some '\x0c'
  | 'n' => some '\n'
  | 'r' => some '\r'
  | 't' => some '\t'
  | _ => none

/-- The code points of a string up to its closing quote, and what follows it. -/
def stringPoints? : Text → Option (List Nat × Text)
  | [] => none
  | '"' :: t => some ([], t)
  | '\\' :: 'u' :: a :: b :: c :: d :: t =>
    match hexNumber? [a, b, c, d], stringPoints? t with
    | some n, some (points, rest) => some (n :: points, rest)
    | _, _ => none
  | '\\' :: c :: t =>
    match shortEscape? c, stringPoints? t with
    | some e, some (points, rest) => some (e.toNat :: points, rest)
    | _, _ => none
  | c :: t =>
    if c.toNat < 0x20 || c = '\\' then none
    else (stringPoints? t).map fun (points, rest) => (c.toNat :: points, rest)

/-- The text of code points; the halves of a surrogate pair are joined, and a half alone, which is
no character, is shown as a private one. -/
def pointsText : List Nat → Text
  | [] => []
  | [n] => [single n]
  | m :: n :: rest =>
    if 0xD800 ≤ m && m < 0xDC00 && 0xDC00 ≤ n && n < 0xE000 then
      Char.ofNat (0x10000 + (m - 0xD800) * 0x400 + (n - 0xDC00)) :: pointsText rest
    else single m :: pointsText (n :: rest)
where
  single (n : Nat) : Char :=
    if 0xD800 ≤ n && n < 0xE000 then Char.ofNat (n + 0x100000) else Char.ofNat n

/-- The string after an opening quote. -/
def string? (t : Text) : Option (Text × Text) :=
  (stringPoints? t).map fun (points, rest) => (pointsText points, rest)

/-! ## Numbers -/

def isDigit (c : Char) : Bool := '0' ≤ c && c ≤ '9'

def digitsNumber (digits : Text) : Nat := digits.foldl (fun n c => n * 10 + (c.toNat - 48)) 0

/-- The digits after a decimal point, if a point with digits stands here. -/
def fraction (t : Text) : Text × Text :=
  match t with
  | '.' :: rest =>
    let digits := rest.takeWhile isDigit
    if digits.isEmpty then ([], t) else (digits, rest.dropWhile isDigit)
  | _ => ([], t)

/-- The exponent, if one stands here. -/
def exponent? (t : Text) : Option (Int × Text) :=
  match t with
  | e :: rest =>
    if e = 'e' || e = 'E' then
      let (negative, rest) :=
        match rest with
        | '-' :: r => (true, r)
        | '+' :: r => (false, r)
        | r => (false, r)
      let digits := rest.takeWhile isDigit
      if digits.isEmpty then none
      else
        let n : Int := digitsNumber digits
        some (if negative then -n else n, rest.dropWhile isDigit)
    else none
  | [] => none

/-- The digits before the point: a zero alone, or digits that start with another one. -/
def wholePart? (t : Text) : Option (Text × Text) :=
  match t with
  | '0' :: rest => some (['0'], rest)
  | _ =>
    let digits := t.takeWhile isDigit
    if digits.isEmpty then none else some (digits, t.dropWhile isDigit)

/-- A number without its sign. -/
def magnitude? (negative : Bool) (t : Text) : Option (Value × Text) :=
  match wholePart? t with
  | none => none
  | some (whole, rest) =>
    let (places, rest) := fraction rest
    let digits := digitsNumber (whole ++ places)
    match exponent? rest with
    | some (e, rest) =>
      some (.real (Double.ofDecimal negative digits (e - places.length)), rest)
    | none =>
      if places.isEmpty then some (.int (if negative then -(digits : Int) else digits), rest)
      else some (.real (Double.ofDecimal negative digits (-(places.length : Int))), rest)

/-! ## Values -/

/-- The words that stand for values. -/
def words : List (Text × Value) :=
  [("null".toList, .null), ("true".toList, .bool true), ("false".toList, .bool false),
  ("NaN".toList, .real .nan), ("Infinity".toList, .real (.infinite false)),
  ("-Infinity".toList, .real (.infinite true))]

def word? (t : Text) : Option (Value × Text) :=
  words.findSome? fun (word, v) => (Text.after? word t).map (v, ·)

mutual

/-- A value at the front of a text, nested at most `fuel` deep. -/
def valueFrom? : (fuel : Nat) → Text → Option (Value × Text)
  | 0, _ => none
  | fuel + 1, t =>
    match t with
    | '"' :: rest => (string? rest).map fun (s, rest) => (.text s, rest)
    | '[' :: rest =>
      match skipSpace rest with
      | ']' :: rest => some (.list [], rest)
      | rest => (itemsFrom? fuel rest).map fun (items, rest) => (.list items, rest)
    | '{' :: rest =>
      match skipSpace rest with
      | '}' :: rest => some (.map [], rest)
      | rest => membersFrom? fuel [] rest
    | _ =>
      match word? t with
      | some found => some found
      | none =>
        match t with
        | '-' :: rest => magnitude? true rest
        | _ => magnitude? false t

/-- The items of a list up to its end. -/
def itemsFrom? : (fuel : Nat) → Text → Option (List Value × Text)
  | 0, _ => none
  | fuel + 1, t =>
    match valueFrom? fuel t with
    | none => none
    | some (v, rest) =>
      match skipSpace rest with
      | ']' :: rest => some ([v], rest)
      | ',' :: rest =>
        (itemsFrom? fuel (skipSpace rest)).map fun (items, rest) => (v :: items, rest)
      | _ => none

/-- The members of a map up to its end, after those read so far. -/
def membersFrom? :
    (fuel : Nat) → (found : List (Scalar × Value)) → Text → Option (Value × Text)
  | 0, _, _ => none
  | fuel + 1, found, t =>
    match t with
    | '"' :: rest =>
      match string? rest with
      | none => none
      | some (key, rest) =>
        match skipSpace rest with
        | ':' :: rest =>
          match valueFrom? fuel (skipSpace rest) with
          | none => none
          | some (v, rest) =>
            let found := Table.put found (.text key) v
            match skipSpace rest with
            | '}' :: rest => some (.map found, rest)
            | ',' :: rest => membersFrom? fuel found (skipSpace rest)
            | _ => none
        | _ => none
    | _ => none

end

/-- The value a whole text stands for. -/
def parse? (t : Text) : Option Value :=
  match valueFrom? (t.length + 1) (skipSpace t) with
  | none => none
  | some (v, rest) => if (skipSpace rest).isEmpty then some v else none

end Json
end ClassCensus
