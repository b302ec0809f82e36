/-!
# ClassCensus.Number.Double

Double-precision numbers as exact values: a sign, a mantissa below `2 ^ 53` and a power of two,
the two infinities and the value that is no number.

A decimal is read as the double nearest to it; of two equally near ones the even mantissa wins.

A power of naturals is written `Nat.pow`, which is the same function whatever algebra is imported.
-/

namespace ClassCensus

inductive Double where
  | finite (negative : Bool) (mantissa : Nat) (exponent : Int)
  | infinite (negative : Bool)
  | nan
  deriving DecidableEq, Repr

namespace Double

/-- The quotient rounded to the nearest whole number, a half going to the even neighbour. -/
def roundDiv (num den : Nat) : Nat :=
  let quotient := num / den
  let rest := num % den
  if 2 * rest < den then quotient
  else if den < 2 * rest then quotient + 1
  else if quotient % 2 = 0 then quotient
  else quotient + 1

/-- The fraction `num / den` over `2 ^ exponent`, as a fraction of whole numbers. -/
def scaled (num den : Nat) (exponent : Int) : Nat × Nat :=
  if 0 ≤ exponent then (num, den * Nat.pow 2 exponent.toNat)
  else (num * Nat.pow 2 (-exponent).toNat, den)

/-- The double nearest to the positive fraction `num / den`. -/
def ofFraction (negative : Bool) (num den : Nat) : Double :=
  let guess : Int := (Nat.log2 num : Int) - (Nat.log2 den : Int) - 53
  let (n, d) := scaled num den guess
  let fitted := if Nat.pow 2 53 ≤ n / d then guess + 1 else guess
  let exponent := max fitted (-1074)
  let (n, d) := scaled num den exponent
  let mantissa := roundDiv n d
  let (mantissa, exponent) :=
    if mantissa = Nat.pow 2 53 then (Nat.pow 2 52, exponent + 1) else (mantissa, exponent)
  if exponent > 971 then .infinite negative else .finite negative mantissa exponent

/-- The double nearest to `digits * 10 ^ exponent`. -/
def ofDecimal (negative : Bool) (digits : Nat) (exponent : Int) : Double :=
  let size : Int := (Nat.toDigits 10 digits).length + exponent
  if digits = 0 || size < -400 then .finite negative 0 (-1074)
  else if size > 400 then .infinite negative
  else if 0 ≤ exponent then ofFraction negative (digits * Nat.pow 10 exponent.toNat) 1
  else ofFraction negative digits (Nat.pow 10 (-exponent).toNat)

/-- The whole number a double equals, if it equals one. -/
def toInt? : Double → Option Int
  | .finite negative mantissa exponent =>
    let magnitude :=
      if 0 ≤ exponent then some (mantissa * Nat.pow 2 exponent.toNat)
      else
        let unit := Nat.pow 2 (-exponent).toNat
        if mantissa % unit = 0 then some (mantissa / unit) else none
    magnitude.map fun n => if negative then -(n : Int) else n
  | _ => none

def isFinite : Double → Bool
  | .finite .. => true
  | _ => false

/-- Zero of either sign. -/
def isZero : Double → Bool
  | .finite _ mantissa _ => mantissa = 0
  | _ => false

end Double
end ClassCensus
