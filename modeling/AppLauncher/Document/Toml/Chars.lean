import AppLauncher.Text.Literal

/-!
# Characters of TOML

The character classes of the format, its blanks, line ends and comments, and the four forms of its strings.
Every reader takes the text from a place on and returns what it read and the text after it.
-/

namespace AppLauncher.Document.Toml

/-- A blank inside a line. -/
def isSpace (c : Char) : Bool := c == ' ' || c == '\t'

/-- A character that may stand in a comment or a string: no control but the tab. -/
def isPlain (c : Char) : Bool := c == '\t' || (' ' ≤ c && c ≤ '~') || '\u0080' ≤ c

/-- A character of a bare key. -/
def isBare (c : Char) : Bool :=
  ('a' ≤ c && c ≤ 'z') || ('A' ≤ c && c ≤ 'Z') || ('0' ≤ c && c ≤ '9') || c == '_' || c == '-'

/-- The text after the blanks of a line. -/
def skipSpace (cs : List Char) : List Char := cs.dropWhile isSpace

/-- The text after one line end. -/
def newline? : List Char → Option (List Char)
  | '\n' :: rest => some rest
  | '\r' :: '\n' :: rest => some rest
  | _ => none

/-- The text after a comment, if one starts here. -/
def skipComment : List Char → List Char
  | '#' :: rest => rest.dropWhile isPlain
  | cs => cs

/-- The text after the rest of a line that holds nothing but blanks and a comment. -/
def lineEnd? (cs : List Char) : Option (List Char) :=
  match skipComment (skipSpace cs) with
  | [] => some []
  | cs => newline? cs

/-- The text after blanks, comments and at most so many line ends. -/
def skipLinesLoop : Nat → List Char → List Char
  | 0, cs => cs
  | n + 1, cs =>
    let cs := skipComment (skipSpace cs)
    match newline? cs with
    | some rest => skipLinesLoop n rest
    | none => cs

/-- The text after blanks, comments and line ends. -/
def skipLines (cs : List Char) : List Char := skipLinesLoop (cs.length + 1) cs

/-! ### Strings -/

/-- The character that a one-letter escape stands for. -/
def shortEscape? : Char → Option Char
  | '"' => some '"'
  | '\\' => some '\\'
  | 'b' => some '\x08'
  | 'f' => some '\x0c'
  | 'n' => some '\n'
  | 'r' => some '\r'
  | 't' => some '\t'
  | _ => none

/-- The character whose number the hexadecimal digits spell. -/
def charOfHex? (cs : List Char) : Option Char := do
  Text.Literal.unit? (Text.ofDigits 16 0 (← cs.mapM Text.hexDigit?))

/-- The rest of a basic string of one line; `done` is its part so far in reverse. -/
def basicBody : List Char → List Char → Option (List Char × List Char)
  | [], _ => none
  | '"' :: rest, done => some (done.reverse, rest)
  | '\\' :: 'U' :: a :: b :: c :: d :: e :: f :: g :: h :: rest, done =>
    match charOfHex? [a, b, c, d, e, f, g, h] with
    | some u => basicBody rest (u :: done)
    | none => none
  | '\\' :: 'u' :: a :: b :: c :: d :: rest, done =>
    match charOfHex? [a, b, c, d] with
    | some u => basicBody rest (u :: done)
    | none => none
  | '\\' :: e :: rest, done =>
    match shortEscape? e with
    | some u => basicBody rest (u :: done)
    | none => none
  | c :: rest, done => if isPlain c && c != '\\' then basicBody rest (c :: done) else none

/-- Whether nothing but blanks stands before the next line end. -/
def endsLine (cs : List Char) : Bool := (newline? (skipSpace cs)).isSome

/-- The rest of a basic string of several lines.  After a backslash that ends its line, `skipping` is set until
the next character that is neither blank nor line end. -/
def multiBody : Bool → List Char → List Char → Option (List Char × List Char)
  | _, [], _ => none
  | true, ' ' :: rest, done => multiBody true rest done
  | true, '\t' :: rest, done => multiBody true rest done
  | true, '\n' :: rest, done => multiBody true rest done
  | true, '\r' :: '\n' :: rest, done => multiBody true rest done
  | _, '"' :: '"' :: '"' :: '"' :: '"' :: rest, done => some (('"' :: '"' :: done).reverse, rest)
  | _, '"' :: '"' :: '"' :: '"' :: rest, done => some (('"' :: done).reverse, rest)
  | _, '"' :: '"' :: '"' :: rest, done => some (done.reverse, rest)
  | _, '\\' :: 'U' :: a :: b :: c :: d :: e :: f :: g :: h :: rest, done =>
    match charOfHex? [a, b, c, d, e, f, g, h] with
    | some u => multiBody false rest (u :: done)
    | none => none
  | _, '\\' :: 'u' :: a :: b :: c :: d :: rest, done =>
    match charOfHex? [a, b, c, d] with
    | some u => multiBody false rest (u :: done)
    | none => none
  | _, '\\' :: e :: rest, done =>
    match shortEscape? e with
    | some u => multiBody false rest (u :: done)
    | none => if endsLine (e :: rest) then multiBody true (e :: rest) done else none
  | _, '\r' :: '\n' :: rest, done => multiBody false rest ('\n' :: done)
  | _, '\n' :: rest, done => multiBody false rest ('\n' :: done)
  | _, c :: rest, done => if isPlain c && c != '\\' then multiBody false rest (c :: done) else none

/-- The rest of a literal string of one line. -/
def literalBody : List Char → List Char → Option (List Char × List Char)
  | [], _ => none
  | '\'' :: rest, done => some (done.reverse, rest)
  | c :: rest, done => if isPlain c then literalBody rest (c :: done) else none

/-- The rest of a literal string of several lines. -/
def multiLiteralBody : List Char → List Char → Option (List Char × List Char)
  | [], _ => none
  | '\'' :: '\'' :: '\'' :: '\'' :: '\'' :: rest, done => some (('\'' :: '\'' :: done).reverse, rest)
  | '\'' :: '\'' :: '\'' :: '\'' :: rest, done => some (('\'' :: done).reverse, rest)
  | '\'' :: '\'' :: '\'' :: rest, done => some (done.reverse, rest)
  | '\r' :: '\n' :: rest, done => multiLiteralBody rest ('\n' :: done)
  | '\n' :: rest, done => multiLiteralBody rest ('\n' :: done)
  | c :: rest, done => if isPlain c then multiLiteralBody rest (c :: done) else none

/-- The text after the line end that may follow the opening of a string of several lines. -/
def dropNewline (cs : List Char) : List Char := (newline? cs).getD cs

/-- The string at the start, in any of the four forms. -/
def string? : List Char → Option (List Char × List Char)
  | '"' :: '"' :: '"' :: rest => multiBody false (dropNewline rest) []
  | '"' :: rest => basicBody rest []
  | '\'' :: '\'' :: '\'' :: rest => multiLiteralBody (dropNewline rest) []
  | '\'' :: rest => literalBody rest []
  | _ => none

/-! ### Keys -/

/-- One part of a key. -/
def keyPart? : List Char → Option (String × List Char)
  | '"' :: rest => (basicBody rest []).map fun (s, rest) => (String.ofList s, rest)
  | '\'' :: rest => (literalBody rest []).map fun (s, rest) => (String.ofList s, rest)
  | cs =>
    let bare := cs.takeWhile isBare
    if bare.isEmpty then none else some (String.ofList bare, cs.dropWhile isBare)

/-- How deep keys and values may nest. -/
def depthLimit : Nat := 80

/-- A key of at most so many parts; `done` holds the parts so far in reverse. -/
def keyLoop : Nat → List Char → List String → Option (List String × List Char)
  | 0, _, _ => none
  | n + 1, cs, done => do
    let (part, rest) ← keyPart? (skipSpace cs)
    match skipSpace rest with
    | '.' :: rest => keyLoop n rest (part :: done)
    | rest => pure ((part :: done).reverse, rest)

/-- The key at the start: one or more parts with dots between them, fewer than `depthLimit`. -/
def key? (cs : List Char) : Option (List String × List Char) := keyLoop (depthLimit - 1) cs []

end AppLauncher.Document.Toml
