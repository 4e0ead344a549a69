/-!
# Digits

Numbers as texts: decimal and hexadecimal digits, and the reading of an unsigned decimal number.
-/

namespace AppLauncher.Text

/-- The value of a decimal digit. -/
def digit? (c : Char) : Option Nat :=
  if '0' ≤ c ∧ c ≤ '9' then some (c.toNat - '0'.toNat) else none

/-- The value of a hexadecimal digit of either case. -/
def hexDigit? (c : Char) : Option Nat :=
  if '0' ≤ c ∧ c ≤ '9' then some (c.toNat - '0'.toNat)
  else if 'a' ≤ c ∧ c ≤ 'f' then some (c.toNat - 'a'.toNat + 10)
  else if 'A' ≤ c ∧ c ≤ 'F' then some (c.toNat - 'A'.toNat + 10)
  else none

/-- Whether the character is a decimal digit. -/
def isDigit (c : Char) : Bool := (digit? c).isSome

/-- The lower-case hexadecimal digit of a value below sixteen. -/
def hexChar (n : Nat) : Char :=
  if n < 10 then Char.ofNat ('0'.toNat + n) else Char.ofNat ('a'.toNat + (n - 10))

/-- The upper-case hexadecimal digit of a value below sixteen. -/
def upperHexChar (n : Nat) : Char :=
  if n < 10 then Char.ofNat ('0'.toNat + n) else Char.ofNat ('A'.toNat + (n - 10))

/-- The decimal text of a number. -/
def decimal (n : Nat) : List Char := Nat.toDigits 10 n

/-- The decimal text of a whole number. -/
def signedDecimal : Int → List Char
  | .ofNat n => decimal n
  | .negSucc n => '-' :: decimal (n + 1)

/-- The decimal text of `n` with zeros in front, at least `width` digits. -/
def padded (width n : Nat) : List Char :=
  let ds := decimal n
  List.replicate (width - ds.length) '0' ++ ds

/-- The hexadecimal text of a number in lower case, without leading zeros. -/
def hexadecimal (n : Nat) : List Char := Nat.toDigits 16 n

/-- The number that the digits spell in a base, digit by digit after `start`. -/
def ofDigits (base start : Nat) (ds : List Nat) : Nat := ds.foldl (fun n d => n * base + d) start

/-- The number that a text of one or more decimal digits spells. -/
def natOf? (cs : List Char) : Option Nat :=
  if cs.isEmpty then none else (cs.mapM digit?).map (ofDigits 10 0)

/-- The number below `bound` that a decimal text spells; one plus sign may stand in front. -/
def unsigned? (bound : Nat) (cs : List Char) : Option Nat :=
  let digits := match cs with
    | '+' :: ds => ds
    | ds => ds
  match natOf? digits with
  | some n => if n < bound then some n else none
  | none => none

end AppLauncher.Text
