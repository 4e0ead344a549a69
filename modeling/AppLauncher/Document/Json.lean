import AppLauncher.Document.Value
import AppLauncher.Text.Literal
import AppLauncher.Word

/-!
# JSON documents

The reader of JSON texts.  A number without fraction and exponent is an integer when it fits 64 bits; any other
number is a double, and so is minus zero.  Of equal keys the last one counts.
-/

namespace AppLauncher.Document.Json

open AppLauncher.Decimal

/-- What is left to read after blanks. -/
def skipBlank (cs : List Char) : List Char :=
  cs.dropWhile fun c => c == ' ' || c == '\t' || c == '\n' || c == '\r'

/-- The digits at the start and what follows them. -/
def digits (cs : List Char) : List Nat × List Char :=
  ((cs.takeWhile Text.isDigit).filterMap Text.digit?, cs.dropWhile Text.isDigit)

/-- The fraction at the start, without its point. -/
def fraction? : List Char → Option (List Nat × List Char)
  | '.' :: rest => match digits rest with
    | ([], _) => none
    | found => some found
  | rest => some ([], rest)

/-- The power of ten at the start. -/
def exponent? (cs : List Char) : Option (Option Int × List Char) :=
  match cs with
  | c :: rest =>
    if c = 'e' ∨ c = 'E' then
      let (negative, rest) := match rest with
        | '-' :: r => (true, r)
        | '+' :: r => (false, r)
        | r => (false, r)
      match digits rest with
      | ([], _) => none
      | (ds, rest) =>
        let n : Int := Text.ofDigits 10 0 ds
        some (some (if negative then -n else n), rest)
    else some (none, cs)
  | [] => some (none, [])

/-- The number without its sign at the start. -/
def number? (negative : Bool) (cs : List Char) : Option (Value × List Char) := do
  let (whole, rest) := digits cs
  if whole.isEmpty ∨ (whole.head? = some 0 ∧ whole.length ≠ 1) then none
  let (part, rest) ← fraction? rest
  let hasPart := cs.length - rest.length ≠ whole.length
  let (power, rest) ← exponent? rest
  let n := Text.ofDigits 10 0 (whole ++ part)
  if !hasPart && power.isNone then
    if negative then
      if 0 < n ∧ n ≤ wordCount 63 then pure (.integer (-n), rest) else pure (.double (Double.ofDecimal true n 0), rest)
    else if n < wordCount 64 then pure (.integer n, rest)
    else pure (.double (Double.ofDecimal false n 0), rest)
  else pure (.double (Double.ofDecimal negative n (power.getD 0 - part.length)), rest)

/-- The items of a list up to its closing bracket, each read by `item`; the bound counts items. -/
def items? (item : List Char → Option (Value × List Char)) :
    Nat → List Char → List Value → Option (List Value × List Char)
  | 0, _, _ => none
  | n + 1, cs, done => do
    let (v, rest) ← item cs
    match skipBlank rest with
    | ',' :: rest => items? item n rest (v :: done)
    | ']' :: rest => pure ((v :: done).reverse, rest)
    | _ => none

/-- The entries of a table up to its closing brace; the bound counts entries. -/
def entries? (item : List Char → Option (Value × List Char)) :
    Nat → List Char → List (String × Value) → Option (List (String × Value) × List Char)
  | 0, _, _ => none
  | n + 1, cs, done => do
    let (key, rest) ← Text.Literal.decode? (skipBlank cs)
    match skipBlank rest with
    | ':' :: rest =>
      let (v, rest) ← item rest
      let done := setEntry (String.ofList key) v done
      match skipBlank rest with
      | ',' :: rest => entries? item n rest done
      | '\x7d' :: rest => pure (done, rest)
      | _ => none
    | _ => none

/-- The value at the start; lists and tables may nest as deep as the bound says. -/
def value? : Nat → List Char → Option (Value × List Char)
  | 0, _ => none
  | depth + 1, cs =>
    match skipBlank cs with
    | '"' :: rest => do
      let (s, rest) ← Text.Literal.decodeBody rest []
      pure (.text (String.ofList s), rest)
    | '[' :: rest =>
      match skipBlank rest with
      | ']' :: rest => some (.list [], rest)
      | rest => do
        let (vs, rest) ← items? (value? depth) (rest.length + 1) rest []
        pure (.list vs, rest)
    | '\x7b' :: rest =>
      match skipBlank rest with
      | '\x7d' :: rest => some (.table [], rest)
      | rest => do
        let (es, rest) ← entries? (value? depth) (rest.length + 1) rest []
        pure (.table es, rest)
    | 't' :: 'r' :: 'u' :: 'e' :: rest => some (.flag true, rest)
    | 'f' :: 'a' :: 'l' :: 's' :: 'e' :: rest => some (.flag false, rest)
    | 'n' :: 'u' :: 'l' :: 'l' :: rest => some (.null, rest)
    | '-' :: rest => number? true rest
    | rest => number? false rest

/-- The value that a text spells. -/
def read? (cs : List Char) : Option Value :=
  match value? 128 cs with
  | some (v, rest) => if (skipBlank rest).isEmpty then some v else none
  | none => none

end AppLauncher.Document.Json
