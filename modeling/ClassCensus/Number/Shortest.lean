import ClassCensus.Number.Double
import ClassCensus.Text.Basic

/-!
# ClassCensus.Number.Shortest

A double in the fewest decimal digits that read back as it.

The reals that round to a double form an interval. For one digit, two digits and so on, the two
neighbours of the double on that decimal grid are tried; the first grid with a neighbour inside
the interval gives the digits, and of two neighbours inside it the nearer one.
-/

namespace ClassCensus
namespace Double

/-- The interval of reals that round to a double, over a common denominator: `low`, `value` and
`high` over `unit`, with its ends included or not. -/
structure Neighbourhood where
  low : Nat
  value : Nat
  high : Nat
  unit : Nat
  closed : Bool

def neighbourhood (mantissa : Nat) (exponent : Int) : Neighbourhood :=
  let below := if mantissa = Nat.pow 2 52 && exponent > -1074 then 1 else 2
  let (grow, unit) :=
    if 2 ≤ exponent then (Nat.pow 2 (exponent - 2).toNat, 1)
    else (1, Nat.pow 2 (2 - exponent).toNat)
  { low := (4 * mantissa - below) * grow
    value := 4 * mantissa * grow
    high := (4 * mantissa + 2) * grow
    unit := unit
    closed := mantissa % 2 = 0 }

namespace Neighbourhood

/-- Whether `digits * 10 ^ exponent` lies in the interval. -/
def holds (n : Neighbourhood) (digits : Nat) (exponent : Int) : Bool :=
  let point :=
    if 0 ≤ exponent then digits * Nat.pow 10 exponent.toNat * n.unit else digits * n.unit
  let scale := if 0 ≤ exponent then 1 else Nat.pow 10 (-exponent).toNat
  if n.closed then n.low * scale ≤ point && point ≤ n.high * scale
  else n.low * scale < point && point < n.high * scale

/-- The number of digits before the decimal point, negative or zero for a value below one. -/
def magnitude (n : Neighbourhood) : Int :=
  if n.unit ≤ n.value then (Nat.toDigits 10 (n.value / n.unit)).length
  else
    let small := fun j => n.value * Nat.pow 10 (j + 1) < n.unit
    Int.negOfNat ((List.range 330).takeWhile small).length

/-- The digits with `count` places, if a neighbour of the value with so many lies inside. -/
def digitsAt? (n : Neighbourhood) (count : Nat) : Option (Nat × Int) :=
  let exponent := n.magnitude - count
  let (num, den) :=
    if 0 ≤ exponent then (n.value, n.unit * Nat.pow 10 exponent.toNat)
    else (n.value * Nat.pow 10 (-exponent).toNat, n.unit)
  let down := num / den
  let up := down + 1
  match n.holds down exponent, n.holds up exponent with
  | true, true =>
    let rest := num % den
    let nearerUp := den < 2 * rest || (den = 2 * rest && down % 2 = 1)
    some (if nearerUp then up else down, exponent)
  | true, false => some (down, exponent)
  | false, true => some (up, exponent)
  | false, false => none

/-- The fewest digits that read back; seventeen always do. -/
def digits (n : Neighbourhood) : Nat × Int :=
  match (List.range 17).findSome? fun k => n.digitsAt? (k + 1) with
  | some found => found
  | none => (0, 0)

end Neighbourhood

/-- Drops trailing zeros of a decimal. -/
def stripZeros : (fuel : Nat) → Nat → Int → Nat × Int
  | 0, digits, exponent => (digits, exponent)
  | fuel + 1, digits, exponent =>
    if digits % 10 = 0 then stripZeros fuel (digits / 10) (exponent + 1) else (digits, exponent)

/-- Writes `digits * 10 ^ exponent`: positionally if its first digit stands for at least `1e-4`
and less than `1e16`, and with an exponent of two digits or more otherwise. -/
def layout (digits : Nat) (exponent : Int) : Text :=
  let ds := Text.ofNat digits
  let point : Int := ds.length + exponent
  if -3 ≤ point && point ≤ 16 then
    if point ≤ 0 then "0.".toList ++ List.replicate (-point).toNat '0' ++ ds
    else if ds.length ≤ point.toNat then
      ds ++ List.replicate (point.toNat - ds.length) '0' ++ ".0".toList
    else ds.take point.toNat ++ '.' :: ds.drop point.toNat
  else
    let power := Text.ofNat (point - 1).natAbs
    let fraction := ds.drop 1
    ds.take 1 ++ (if fraction.isEmpty then [] else '.' :: fraction)
      ++ 'e' :: (if point - 1 < 0 then '-' else '+')
      :: (if power.length < 2 then '0' :: power else power)

/-- A double as it is shown. -/
def toText : Double → Text
  | .nan => "nan"
  | .infinite negative => if negative then "-inf" else "inf"
  | .finite negative mantissa exponent =>
    let shown : Text :=
      if mantissa = 0 then "0.0"
      else
        let (digits, e) := (neighbourhood mantissa exponent).digits
        let (digits, e) := stripZeros 20 digits e
        layout digits e
    if negative then '-' :: shown else shown

end Double
end ClassCensus
