import AppLauncher.Text.Digits

/-!
# String literals

A text as a double-quoted literal of a script: quotes, backslashes and controls are escaped, all else stands as
it is.  `decode?` reads one literal back and returns what follows it.
-/

namespace AppLauncher.Text.Literal

/-- One character inside a literal. -/
def encodeChar (c : Char) : List Char :=
  if c = '"' then ['\\', '"']
  else if c = '\\' then ['\\', '\\']
  else if c = '\x08' then ['\\', 'b']
  else if c = '\x0c' then ['\\', 'f']
  else if c = '\n' then ['\\', 'n']
  else if c = '\r' then ['\\', 'r']
  else if c = '\t' then ['\\', 't']
  else if c < ' ' then ['\\', 'u', '0', '0', hexChar (c.toNat / 16), hexChar (c.toNat % 16)]
  else [c]

/-- The literal of a text. -/
def encode (cs : List Char) : List Char := '"' :: cs.flatMap encodeChar ++ ['"']

/-- The literal of a string. -/
def ofString (s : String) : String := String.ofList (encode s.toList)

/-- The character that a one-letter escape stands for. -/
def shortEscape? : Char → Option Char
  | '"' => some '"'
  | '\\' => some '\\'
  | '/' => some '/'
  | 'b' => some '\x08'
  | 'f' => some '\x0c'
  | 'n' => some '\n'
  | 'r' => some '\r'
  | 't' => some '\t'
  | _ => none

/-- The number that four hexadecimal digits spell. -/
def hex4? (a b c d : Char) : Option Nat := do
  pure (ofDigits 16 0 [← hexDigit? a, ← hexDigit? b, ← hexDigit? c, ← hexDigit? d])

/-- The character of one code unit that is no surrogate. -/
def unit? (n : Nat) : Option Char := if n.isValidChar then some (Char.ofNat n) else none

/-- The character that a high and a low surrogate stand for together. -/
def pair? (hi lo : Nat) : Option Char :=
  if 0xD800 ≤ hi ∧ hi < 0xDC00 ∧ 0xDC00 ≤ lo ∧ lo < 0xE000 then
    unit? (0x10000 + (hi - 0xD800) * 1024 + (lo - 0xDC00))
  else none

/-- The text of a literal whose opening quote has been read, `done` being its part so far in reverse, and what
follows the closing quote. -/
def decodeBody : List Char → List Char → Option (List Char × List Char)
  | [], _ => none
  | '"' :: rest, done => some (done.reverse, rest)
  | '\\' :: 'u' :: a :: b :: c :: d :: rest, done =>
    match hex4? a b c d with
    | none => none
    | some n =>
      match unit? n with
      | some u => decodeBody rest (u :: done)
      | none =>
        match rest with
        | '\\' :: 'u' :: a :: b :: c :: d :: rest =>
          match hex4? a b c d with
          | none => none
          | some m =>
            match pair? n m with
            | some u => decodeBody rest (u :: done)
            | none => none
        | _ => none
  | '\\' :: e :: rest, done =>
    match shortEscape? e with
    | some u => decodeBody rest (u :: done)
    | none => none
  | c :: rest, done => if c < ' ' ∨ c = '\\' then none else decodeBody rest (c :: done)

/-- The text of the literal at the start of `cs` and what follows the literal. -/
def decode? : List Char → Option (List Char × List Char)
  | '"' :: rest => decodeBody rest []
  | _ => none

end AppLauncher.Text.Literal
