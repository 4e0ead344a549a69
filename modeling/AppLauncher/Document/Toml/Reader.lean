import AppLauncher.Document.Toml.Scalar
import AppLauncher.Document.Toml.Tree

/-!
# The reader of TOML texts

`read?` takes a whole text to its document, or to nothing when the text breaks a rule of the format.
-/

namespace AppLauncher.Document.Toml

/-- The items of a list up to its bracket, each read by `item`; the bound counts items. -/
def items? (item : List Char → Option (Value × List Char)) :
    Nat → List Char → List Value → Option (List Value × List Char)
  | 0, _, _ => none
  | n + 1, cs, done =>
    match skipLines cs with
    | ']' :: rest => some (done.reverse, rest)
    | cs => do
      let (v, rest) ← item cs
      match skipLines rest with
      | ',' :: rest => items? item n rest (v :: done)
      | ']' :: rest => pure ((v :: done).reverse, rest)
      | _ => none

/-- The keys and values of an inline table up to its brace, each value read by `item`; the bound counts them. -/
def pairs? (item : List Char → Option (Value × List Char)) :
    Nat → List Char → List (List String × Value) → Option (List (List String × Value) × List Char)
  | 0, _, _ => none
  | n + 1, cs, done => do
    let (key, rest) ← key? cs
    let (v, rest) ← item (skipSpace (← after? '=' rest))
    match skipSpace rest with
    | ',' :: rest => pairs? item n rest ((key, v) :: done)
    | '\x7d' :: rest => pure (((key, v) :: done).reverse, rest)
    | _ => none

/-- The last part of a key and the parts before it. -/
def splitKey? (key : List String) : Option (List String × String) :=
  key.getLast?.map fun last => (key.dropLast, last)

/-- The table that the keys and values of an inline table make. -/
def inlineTable? (pairs : List (List String × Value)) : Option Value := do
  let entries ← pairs.foldlM (fun entries (key, v) => do
    let (path, last) ← splitKey? key
    putDotted path last v entries) []
  pure (.table (finishEntries entries))

/-- The value at the start; lists and inline tables may nest as deep as the bound says. -/
def value? : Nat → List Char → Option (Value × List Char)
  | 0, _ => none
  | depth + 1, cs =>
    match cs with
    | '[' :: rest =>
      if depth = 0 then none
      else do
        let (vs, rest) ← items? (value? depth) (rest.length + 1) rest []
        pure (.list vs, rest)
    | '\x7b' :: rest =>
      if depth = 0 then none
      else
        match skipSpace rest with
        | '\x7d' :: rest => some (.table [], rest)
        | rest => do
          let (pairs, rest) ← pairs? (value? depth) (rest.length + 1) rest []
          pure (← inlineTable? pairs, rest)
    | '"' :: _ => (string? cs).map fun (s, rest) => (.text (String.ofList s), rest)
    | '\'' :: _ => (string? cs).map fun (s, rest) => (.text (String.ofList s), rest)
    | cs => scalar? cs

/-- One line with a key and its value. -/
def keyLine? (d : Draft) (cs : List Char) : Option (Draft × List Char) := do
  let (key, rest) ← key? cs
  let (v, rest) ← value? depthLimit (skipSpace (← after? '=' rest))
  let rest ← lineEnd? rest
  let (path, last) ← splitKey? key
  pure (← d.put path last v, rest)

/-- One line with a header. -/
def headerLine? (d : Draft) (cs : List Char) : Option (Draft × List Char) :=
  match cs with
  | '[' :: '[' :: rest => do
    let (key, rest) ← key? rest
    let rest ← lineEnd? (← after? ']' (← after? ']' rest))
    let (parents, last) ← splitKey? key
    pure (← d.openRepeated parents last, rest)
  | '[' :: rest => do
    let (key, rest) ← key? rest
    let rest ← lineEnd? (← after? ']' rest)
    let (parents, last) ← splitKey? key
    pure (← d.openTable parents last, rest)
  | _ => none

/-- The lines of a text; the bound counts them. -/
def lines? : Nat → Draft → List Char → Option Draft
  | 0, d, cs => if (skipLines cs).isEmpty then some d else none
  | n + 1, d, cs =>
    match skipLines cs with
    | [] => some d
    | '[' :: rest => do
      let (d, rest) ← headerLine? d ('[' :: rest)
      lines? n d rest
    | cs => do
      let (d, rest) ← keyLine? d cs
      lines? n d rest

/-- The text after a byte order mark. -/
def dropMark : List Char → List Char
  | '\ufeff' :: rest => rest
  | cs => cs

/-- The document that a text spells, always a table. -/
def read? (cs : List Char) : Option Value := do
  let d ← lines? (cs.length + 1) Draft.empty (dropMark cs)
  d.finish

end AppLauncher.Document.Toml
