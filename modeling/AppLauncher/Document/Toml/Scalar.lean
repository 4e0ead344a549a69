import AppLauncher.Document.Toml.Chars
import AppLauncher.Document.Value
import AppLauncher.Word

/-!
# Scalars of TOML

Integers in four bases, doubles, dates and times.
-/

namespace AppLauncher.Document.Toml

open AppLauncher.Decimal

/-- The digits of one base at the start, single underscores between them allowed. -/
def digitsWith (digit? : Char → Option Nat) : List Char → List Nat × List Char
  | '_' :: c :: rest =>
    match digit? c with
    | some d => let (ds, rest) := digitsWith digit? rest; (d :: ds, rest)
    | none => ([], '_' :: c :: rest)
  | c :: rest =>
    match digit? c with
    | some d => let (ds, rest) := digitsWith digit? rest; (d :: ds, rest)
    | none => ([], c :: rest)
  | [] => ([], [])

/-- One or more digits; the first character is no underscore. -/
def digits? (digit? : Char → Option Nat) (cs : List Char) : Option (List Nat × List Char) :=
  match cs with
  | c :: _ => if (digit? c).isSome then some (digitsWith digit? cs) else none
  | [] => none

/-- The sign at the start: whether it is a minus, and the text after it. -/
def sign : List Char → Bool × List Char
  | '-' :: rest => (true, rest)
  | '+' :: rest => (false, rest)
  | rest => (false, rest)

/-- The digits of a decimal whole number: no zero in front of others. -/
def whole? : List Char → Option (List Nat × List Char)
  | '0' :: rest => some ([0], rest)
  | cs => digits? Text.digit? cs

/-- The value of an octal or a binary digit. -/
def digitBelow? (base : Nat) (c : Char) : Option Nat :=
  match Text.digit? c with
  | some d => if d < base then some d else none
  | none => none

/-- The integer of one base at the start, after the sign of its base. -/
def based? (base : Nat) (digit? : Char → Option Nat) (cs : List Char) : Option (Value × List Char) := do
  let (ds, rest) ← digits? digit? cs
  let n := Text.ofDigits base 0 ds
  if n < wordCount 63 then pure (.integer n, rest) else none

/-- The integer at the start, within 64 bits. -/
def integer? : List Char → Option (Value × List Char)
  | '0' :: 'x' :: rest => based? 16 Text.hexDigit? rest
  | '0' :: 'o' :: rest => based? 8 (digitBelow? 8) rest
  | '0' :: 'b' :: rest => based? 2 (digitBelow? 2) rest
  | cs => do
    let (negative, rest) := sign cs
    let (ds, rest) ← whole? rest
    let n := Text.ofDigits 10 0 ds
    if negative then if n ≤ wordCount 63 then pure (.integer (-n), rest) else none
    else if n < wordCount 63 then pure (.integer n, rest) else none

/-- The power of ten at the start. -/
def power? : List Char → Option (Int × List Char)
  | c :: rest =>
    if c = 'e' ∨ c = 'E' then do
      let (negative, rest) := sign rest
      let (ds, rest) ← digits? Text.digit? rest
      let n : Int := Text.ofDigits 10 0 ds
      pure (if negative then -n else n, rest)
    else none
  | [] => none

/-- The double at the start: it has a fraction, a power of ten or both.  One beyond the largest is refused, one
below the smallest is minus infinity. -/
def double? (cs : List Char) : Option (Value × List Char) := do
  let (negative, rest) := sign cs
  let (ds, rest) ← whole? rest
  let (part, power, rest) ← match rest with
    | '.' :: rest => do
      let (part, rest) ← digits? Text.digit? rest
      match power? rest with
      | some (p, rest) => some (part, p, rest)
      | none => some (part, 0, rest)
    | rest => (power? rest).map fun (p, rest) => ([], p, rest)
  let d := Double.ofDecimal negative (Text.ofDigits 10 0 (ds ++ part)) (power - part.length)
  if d = .infinite false then none else pure (.double d, rest)

/-- A named double at the start. -/
def namedDouble? (cs : List Char) : Option (Value × List Char) :=
  let (negative, rest) := sign cs
  match rest with
  | 'i' :: 'n' :: 'f' :: rest => some (.double (.infinite negative), rest)
  | 'n' :: 'a' :: 'n' :: rest => some (.double .notANumber, rest)
  | _ => none

/-! ### Dates and times -/

/-- A number of exactly two digits within bounds. -/
def two? (least most : Nat) : List Char → Option (Nat × List Char)
  | a :: b :: rest => do
    let n := (← Text.digit? a) * 10 + (← Text.digit? b)
    if least ≤ n ∧ n ≤ most then pure (n, rest) else none
  | _ => none

/-- The text after one given character. -/
def after? (c : Char) : List Char → Option (List Char)
  | d :: rest => if c = d then some rest else none
  | [] => none

/-- The date at the start. -/
def date? (cs : List Char) : Option (Date × List Char) := do
  let (high, rest) ← two? 0 99 cs
  let (low, rest) ← two? 0 99 rest
  let year := high * 100 + low
  let (month, rest) ← two? 1 12 (← after? '-' rest)
  let (day, rest) ← two? 1 (Date.daysIn year month) (← after? '-' rest)
  pure (⟨year, month, day⟩, rest)

/-- The time of day at the start; decimals beyond the ninth are dropped. -/
def time? (cs : List Char) : Option (TimeOfDay × List Char) := do
  let (hour, rest) ← two? 0 23 cs
  let (minute, rest) ← two? 0 59 (← after? ':' rest)
  let (second, rest) ← two? 0 60 (← after? ':' rest)
  match rest with
  | '.' :: rest =>
    let ds := (rest.takeWhile Text.isDigit).filterMap Text.digit?
    if ds.isEmpty then none
    else
      let kept := ds.take 9
      pure (⟨hour, minute, second, Text.ofDigits 10 0 (kept ++ List.replicate (9 - kept.length) 0)⟩,
        rest.dropWhile Text.isDigit)
  | rest => pure (⟨hour, minute, second, 0⟩, rest)

/-- The offset at the start, if one stands there. -/
def offset? : List Char → Option (Offset × List Char)
  | 'Z' :: rest => some (.universal, rest)
  | 'z' :: rest => some (.universal, rest)
  | c :: rest =>
    if c = '+' ∨ c = '-' then do
      let (hours, rest) ← two? 0 23 rest
      let (minutes, rest) ← two? 0 59 (← after? ':' rest)
      let n : Int := hours * 60 + minutes
      pure (.minutes (if c = '-' then -n else n), rest)
    else none
  | [] => none

private def clockAfterDate? : List Char → Option ((TimeOfDay × Option Offset) × List Char)
  | c :: rest =>
    if c = 'T' ∨ c = 't' ∨ c = ' ' then do
      let (t, rest) ← time? rest
      match offset? rest with
      | some (o, rest) => pure ((t, some o), rest)
      | none => pure ((t, none), rest)
    else none
  | [] => none

/-- The date, time or both at the start. -/
def moment? (cs : List Char) : Option (Value × List Char) :=
  match date? cs with
  | some (d, rest) =>
    match clockAfterDate? rest with
    | some ((t, o), rest) => some (.moment (.dayAndClock d t o), rest)
    | none => some (.moment (.day d), rest)
  | none => (time? cs).map fun (t, rest) => (.moment (.clock t), rest)

/-- The scalar that is no string at the start. -/
def scalar? (cs : List Char) : Option (Value × List Char) :=
  match cs with
  | 't' :: 'r' :: 'u' :: 'e' :: rest => some (.flag true, rest)
  | 'f' :: 'a' :: 'l' :: 's' :: 'e' :: rest => some (.flag false, rest)
  | cs =>
    match moment? cs with
    | some found => some found
    | none =>
      match double? cs with
      | some found => some found
      | none =>
        match namedDouble? cs with
        | some found => some found
        | none => integer? cs

end AppLauncher.Document.Toml
