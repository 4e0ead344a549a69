import AppLauncher.Text.Digits
import AppLauncher.Word

/-!
# Arithmetic of scripts

Whole numbers with the usual operators and their ranks; a name stands for the number that its variable holds.
-/

namespace AppLauncher.Program.Script.Arithmetic

/-- A token of an expression. -/
inductive Token
  | number (n : Int)
  | name (s : String)
  | symbol (s : String)
  deriving DecidableEq, Repr

/-- The operators, longer ones first. -/
def symbols : List String :=
  ["<=", ">=", "==", "!=", "&&", "||", "<", ">", "+", "-", "*", "/", "%", "(", ")", "!"]

/-- The number that digits spell; a leading zero makes them octal, and `0x` hexadecimal. -/
def literal? : List Char → Option Nat
  | '0' :: 'x' :: ds => if ds.isEmpty then none else (ds.mapM Text.hexDigit?).map (Text.ofDigits 16 0)
  | '0' :: ds =>
    (ds.mapM fun c => (Text.digit? c).bind fun d => if d < 8 then some d else none).map (Text.ofDigits 8 0)
  | ds => Text.natOf? ds

/-- The tokens of an expression. -/
def tokens? : Nat → List Char → Option (List Token)
  | _, [] => some []
  | 0, _ => none
  | n + 1, c :: rest =>
    if c = ' ' ∨ c = '\t' ∨ c = '\n' then tokens? n rest
    else if Text.isDigit c then
      let ds := (c :: rest).takeWhile fun d => d.isAlphanum
      match literal? ds with
      | some v => (tokens? n ((c :: rest).drop ds.length)).map (.number v :: ·)
      | none => none
    else if c.isAlpha ∨ c = '_' then
      let cs := (c :: rest).takeWhile fun d => d.isAlphanum || d == '_'
      (tokens? n ((c :: rest).drop cs.length)).map (.name (String.ofList cs) :: ·)
    else
      match symbols.find? fun s => s.toList.isPrefixOf (c :: rest) with
      | some s => (tokens? n ((c :: rest).drop s.length)).map (.symbol s :: ·)
      | none => none

/-- The rank of a binary operator; a higher one binds more tightly. -/
def rank? : String → Option Nat
  | "||" => some 1
  | "&&" => some 2
  | "==" => some 3
  | "!=" => some 3
  | "<" => some 4
  | ">" => some 4
  | "<=" => some 4
  | ">=" => some 4
  | "+" => some 5
  | "-" => some 5
  | "*" => some 6
  | "/" => some 6
  | "%" => some 6
  | _ => none

private def truth (b : Bool) : Int := if b then 1 else 0

/-- The value of an operator; `none` for a division by zero. -/
def outcome? (s : String) (a b : Int) : Option Int :=
  match s with
  | "||" => some (truth (a != 0 || b != 0))
  | "&&" => some (truth (a != 0 && b != 0))
  | "==" => some (truth (a == b))
  | "!=" => some (truth (a != b))
  | "<" => some (truth (decide (a < b)))
  | ">" => some (truth (decide (b < a)))
  | "<=" => some (truth (decide (a ≤ b)))
  | ">=" => some (truth (decide (b ≤ a)))
  | "+" => some (Int.bmod (a + b) (wordCount 64))
  | "-" => some (Int.bmod (a - b) (wordCount 64))
  | "*" => some (Int.bmod (a * b) (wordCount 64))
  | "/" => if b = 0 then none else some (Int.tdiv a b)
  | "%" => if b = 0 then none else some (Int.tmod a b)
  | _ => none

mutual

/-- An operand and the tokens after it. -/
def operand? (value : String → Option Int) : Nat → List Token → Option (Int × List Token)
  | 0, _ => none
  | n + 1, ts =>
    match ts with
    | .number v :: rest => some (v, rest)
    | .name s :: rest => (value s).map (·, rest)
    | .symbol "-" :: rest => (operand? value n rest).map fun p => (-p.1, p.2)
    | .symbol "+" :: rest => operand? value n rest
    | .symbol "!" :: rest => (operand? value n rest).map fun p => (truth (p.1 == 0), p.2)
    | .symbol "(" :: rest =>
      match expression? value n 0 rest with
      | some (v, .symbol ")" :: rest) => some (v, rest)
      | _ => none
    | _ => none

/-- Operands joined by operators of more than a rank. -/
def expression? (value : String → Option Int) : Nat → Nat → List Token → Option (Int × List Token)
  | 0, _, _ => none
  | n + 1, least, ts => do
    let (v, rest) ← operand? value n ts
    operators? value n least v rest

/-- The operators of more than a rank after a first operand. -/
def operators? (value : String → Option Int) : Nat → Nat → Int → List Token → Option (Int × List Token)
  | 0, _, _, _ => none
  | n + 1, least, v, ts =>
    match ts with
    | .symbol s :: rest =>
      match rank? s with
      | some r =>
        if least < r then do
          let (w, rest) ← expression? value n r rest
          operators? value n least (← outcome? s v w) rest
        else some (v, ts)
      | none => some (v, ts)
    | ts => some (v, ts)

end

/-- The value of an expression; an empty one is zero. -/
def value? (lookup : String → Option Int) (cs : List Char) : Option Int := do
  let ts ← tokens? (cs.length + 1) cs
  if ts.isEmpty then pure 0
  else
    match expression? lookup (3 * ts.length + 3) 0 ts with
    | some (v, []) => pure v
    | _ => none

end AppLauncher.Program.Script.Arithmetic
