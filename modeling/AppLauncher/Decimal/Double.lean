import AppLauncher.Word

/-!
# Double-precision numbers

A number of the binary format with 53 significant bits, kept as sign, mantissa and exponent so that reading,
rounding and printing are exact arithmetic on naturals.  `ofDecimal` is correctly rounded: of the two
neighbouring numbers it takes the nearer one, and at a tie the one with the even mantissa.
-/

namespace AppLauncher.Decimal

/-- The power of ten. -/
def tenTo (n : Nat) : Nat := Nat.pow 10 n

/-- A double-precision number.  A finite one is `± mantissa * 2 ^ exponent`. -/
inductive Double
  | finite (negative : Bool) (mantissa : Nat) (exponent : Int)
  | infinite (negative : Bool)
  | notANumber
  deriving DecidableEq, Repr

namespace Double

/-- The smallest exponent; numbers below `2 ^ 52` times its power have fewer significant bits. -/
def minExponent : Int := -1074

/-- The largest exponent of a finite number. -/
def maxExponent : Int := 971

/-- The quotient rounded to the nearest natural, a tie to the even one. -/
def divEven (num den : Nat) : Nat :=
  let q := num / den
  let twice := 2 * (num % den)
  if twice < den then q else if den < twice then q + 1 else if q % 2 = 0 then q else q + 1

/-- The greatest `e` with `2 ^ e ≤ num / den`, for positive `num` and `den`. -/
def floorLog2 (num den : Nat) : Int :=
  let l : Int := (Nat.log2 num : Int) - (Nat.log2 den : Int)
  let reached := if 0 ≤ l then den <<< l.toNat ≤ num else den ≤ num <<< (-l).toNat
  if reached then l else l - 1

/-- The double nearest to `± num / den`. -/
def ofRatio (negative : Bool) (num den : Nat) : Double :=
  if num = 0 then finite negative 0 minExponent
  else
    let e := max (floorLog2 num den - 52) minExponent
    let m := if 0 ≤ e then divEven num (den <<< e.toNat) else divEven (num <<< (-e).toNat) den
    let (m, e) := if m = wordCount 53 then (wordCount 52, e + 1) else (m, e)
    if maxExponent < e then infinite negative else finite negative m e

/-- The double nearest to `± digits * 10 ^ exponent`.  Far outside the range the answer needs no arithmetic. -/
def ofDecimal (negative : Bool) (digits : Nat) (exponent : Int) : Double :=
  let size : Int := (Nat.toDigits 10 digits).length + exponent
  if digits = 0 ∨ size < -400 then finite negative 0 minExponent
  else if 400 < size then infinite negative
  else if 0 ≤ exponent then ofRatio negative (digits * tenTo exponent.toNat) 1
  else ofRatio negative digits (tenTo (-exponent).toNat)

/-- Whether the number is zero, of either sign. -/
def isZero : Double → Bool
  | finite _ m _ => m == 0
  | _ => false

/-- The number rounded to a whole one, halves away from zero, and moved into the naturals below `bound`. -/
def toBoundedNat (bound : Nat) : Double → Nat
  | finite true _ _ => 0
  | finite false m e =>
    let n := if 0 ≤ e then m <<< e.toNat else (2 * m + 1 <<< (-e).toNat) >>> ((-e).toNat + 1)
    min n (bound - 1)
  | infinite true => 0
  | infinite false => bound - 1
  | notANumber => 0

end Double

end AppLauncher.Decimal
