import AppLauncher.Decimal.Double
import AppLauncher.Text.Digits

/-!
# Shortest decimals

The decimal text of a double has the fewest digits that read back as the same double, and of those the nearest.
A double is read back from every decimal between the midpoints to its neighbours, the midpoints included when its
mantissa is even.  If a decimal grid has a point in that interval, one of the two grid points around the double
is in it, so those two are all that is tried.
-/

namespace AppLauncher.Decimal

/-- Digits and the place of the point: the value is `0.digits * 10 ^ point`. -/
structure Digits where
  digits : List Char
  point : Int
  deriving DecidableEq, Repr

/-- `num * 2 ^ e` over a common denominator, as a ratio of naturals. -/
private def scaled (num : Nat) (e : Int) : Nat × Nat :=
  if 0 ≤ e then (num <<< e.toNat, 1) else (num, 1 <<< (-e).toNat)

/-- Whether `10 ^ k ≤ num / den`. -/
private def reachesPower (num den : Nat) (k : Int) : Bool :=
  if 0 ≤ k then den * tenTo k.toNat ≤ num else den ≤ num * tenTo (-k).toNat

/-- The least `k` with `num / den < 10 ^ k`. -/
private def decimalPoint (num den : Nat) : Int :=
  let guess := Double.floorLog2 num den * 30103 / 100000
  if !reachesPower num den guess then guess
  else if !reachesPower num den (guess + 1) then guess + 1
  else guess + 2

/-- The nearest point of the grid with `count` digits that reads back, if one does. -/
private def onGrid? (m : Nat) (e : Int) (point : Int) (count : Nat) : Option (Nat × Int) :=
  let low := 4 * m - if m = wordCount 52 ∧ Double.minExponent < e then 1 else 2
  let (_, den) := scaled 1 (e - 2)
  let unit := (scaled 1 (e - 2)).1
  let (value, low, high) := (4 * m * unit, low * unit, (4 * m + 2) * unit)
  let p := point - count
  let (step, den) := if 0 ≤ p then (den * tenTo p.toNat, 1) else (den, tenTo (-p).toNat)
  let (value, low, high) := (value * den, low * den, high * den)
  let below := value / step
  let inside (k : Nat) : Bool :=
    if m % 2 = 0 then low ≤ k * step && k * step ≤ high else low < k * step && k * step < high
  match inside below, inside (below + 1) with
  | true, true => if value - below * step < (below + 1) * step - value then some (below, p) else some (below + 1, p)
  | true, false => some (below, p)
  | false, true => some (below + 1, p)
  | false, false => none

/-- The shortest digits of the positive double `m * 2 ^ e`. -/
def shortest (m : Nat) (e : Int) : Digits :=
  let (num, den) := scaled m e
  let point := decimalPoint num den
  let found := (List.range 17).findSome? fun i => onGrid? m e point (i + 1)
  match found with
  | some (n, p) =>
    let ds := Text.decimal n
    ⟨(ds.reverse.dropWhile (· == '0')).reverse, ds.length + p⟩
  | none => ⟨Text.decimal (num / den), point⟩

namespace Double

private def signed (negative : Bool) (cs : List Char) : String :=
  String.ofList (if negative then '-' :: cs else cs)

private def zeros (n : Int) : List Char := List.replicate n.toNat '0'

/-- Digits around a point, all of them written out. -/
private def positional (d : Digits) : List Char :=
  if d.point ≤ 0 then '0' :: '.' :: zeros (-d.point) ++ d.digits
  else if d.digits.length ≤ d.point then d.digits ++ zeros (d.point - d.digits.length)
  else d.digits.take d.point.toNat ++ '.' :: d.digits.drop d.point.toNat

/-- One digit, the rest as decimals and a power of ten. -/
private def scientific (d : Digits) : List Char :=
  let fraction := match d.digits.drop 1 with
    | [] => []
    | ds => '.' :: ds
  d.digits.take 1 ++ fraction ++ 'e' :: Text.signedDecimal (d.point - 1)

/-- The plain text: all digits written out, and no point in a whole number. -/
def plain : Double → String
  | finite s m e => signed s (if m = 0 then ['0'] else positional (shortest m e))
  | infinite s => signed s "inf".toList
  | notANumber => "NaN"

/-- The plain text with a point even in a whole number. -/
def pointed : Double → String
  | finite s m e =>
    let t := (finite s m e).plain
    if t.toList.contains '.' then t else t ++ ".0"
  | d => d.plain

/-- The text with a point between `1e-5` and `1e16` and a power of ten elsewhere. -/
def compact : Double → String
  | finite s m e =>
    if m = 0 then signed s "0.0".toList
    else
      let d := shortest m e
      if -5 < d.point ∧ d.point ≤ 16 then (finite s m e).pointed else signed s (scientific d)
  | d => d.plain

end Double

end AppLauncher.Decimal
