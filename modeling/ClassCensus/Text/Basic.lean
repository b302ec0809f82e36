/-!
# ClassCensus.Text.Basic

Text as a list of characters, with the cuts the rest of the library is built on: at the first or
the last occurrence of a separator, at every occurrence of a character, and at a common front.

Every operation is a recursion on the characters, so that its laws are proved by induction.
-/

namespace ClassCensus

abbrev Text := List Char

instance : Coe String Text := ⟨String.toList⟩

-- every test whether a list holds a text rests on this one proof
instance : LawfulBEq Text := inferInstanceAs (LawfulBEq (List Char))

namespace Text

/-- What follows `front` in a text that starts with it. -/
def after? : (front : Text) → Text → Option Text
  | [], t => some t
  | _ :: _, [] => none
  | a :: front, c :: t => if a = c then after? front t else none

/-- The texts before and after the first occurrence of `sep`. -/
def splitFirst? (sep : Text) : Text → Option (Text × Text)
  | [] => (after? sep []).map ([], ·)
  | c :: t =>
    match after? sep (c :: t) with
    | some rest => some ([], rest)
    | none => (splitFirst? sep t).map fun (a, b) => (c :: a, b)

/-- The texts before and after the last occurrence of `sep`. -/
def splitLast? (sep : Text) : Text → Option (Text × Text)
  | [] => (after? sep []).map ([], ·)
  | c :: t =>
    match splitLast? sep t with
    | some (a, b) => some (c :: a, b)
    | none => (after? sep (c :: t)).map ([], ·)

/-- The text up to the first occurrence of a character, or all of it. -/
def upTo (c : Char) (t : Text) : Text := t.takeWhile (· != c)

/-- The pieces of a text between the occurrences of a character, one more than there are
occurrences. -/
def pieces (sep : Char) : Text → List Text
  | [] => [[]]
  | c :: t =>
    if c = sep then [] :: pieces sep t
    else
      match pieces sep t with
      | [] => [[c]]
      | p :: ps => (c :: p) :: ps

/-- The pieces of a text between the occurrences of a non-empty separator, found from the left;
`fuel` bounds their number. -/
def cutFrom (sep : Text) : (fuel : Nat) → Text → List Text
  | 0, t => [t]
  | fuel + 1, t =>
    match splitFirst? sep t with
    | none => [t]
    | some (piece, rest) => piece :: cutFrom sep fuel rest

/-- The pieces of a text between the occurrences of a non-empty separator. -/
def cut (sep t : Text) : List Text := cutFrom sep t.length t

/-- Joins pieces with a text between each two of them. -/
def join (sep : Text) : List Text → Text
  | [] => []
  | [p] => p
  | p :: ps => p ++ sep ++ join sep ps

/-- Replaces occurrences of `old` from the left; the next `skip` characters belong to an
occurrence that has been replaced already. -/
def replaceFrom (old new : Text) : (skip : Nat) → Text → Text
  | _, [] => []
  | skip + 1, _ :: t => replaceFrom old new skip t
  | 0, c :: t =>
    if old.isPrefixOf (c :: t) then new ++ replaceFrom old new (old.length - 1) t
    else c :: replaceFrom old new 0 t

/-- Replaces every occurrence of the non-empty text `old`, from the left and without overlap. -/
def replace (old new t : Text) : Text := replaceFrom old new 0 t

/-- Drops the characters of a set from both ends. -/
def trimSet (set : Char → Bool) (t : Text) : Text :=
  ((t.dropWhile set).reverse.dropWhile set).reverse

/-- Whether `part` occurs somewhere in a text. -/
def occursIn (part t : Text) : Bool := (splitFirst? part t).isSome

/-- Order by code points, the shorter of two texts first when one continues the other. -/
def precedes (a b : Text) : Bool := !decide (b < a)

/-- A natural number in decimal digits. -/
def ofNat (n : Nat) : Text := Nat.toDigits 10 n

/-- A whole number in decimal digits, with a minus sign if it is negative. -/
def ofInt : Int → Text
  | .ofNat n => ofNat n
  | .negSucc n => '-' :: ofNat (n + 1)

/-- The octets of one character in UTF-8. -/
def utf8Char (c : Char) : List UInt8 :=
  let n := c.toNat
  let tail (shift : Nat) : UInt8 := (0x80 + n / Nat.pow 2 shift % 64).toUInt8
  if n < 0x80 then [n.toUInt8]
  else if n < 0x800 then [(0xC0 + n / 64).toUInt8, tail 0]
  else if n < 0x10000 then [(0xE0 + n / 4096).toUInt8, tail 6, tail 0]
  else [(0xF0 + n / 262144).toUInt8, tail 12, tail 6, tail 0]

/-- The UTF-8 octets of a text. -/
def utf8 (t : Text) : List UInt8 := t.flatMap utf8Char

/-- The number of octets of a text in UTF-8. -/
def octets (t : Text) : Nat := (utf8 t).length

end Text
end ClassCensus
