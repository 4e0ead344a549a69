import AppLauncher.Text.Digits

/-!
# Tokens of scripts

A script is cut into words, operators and line ends.  A word is made of parts: plain text, quoted or not, and
expansions whose value is known only when the script runs.
-/

namespace AppLauncher.Program.Script

/-- A part of a word. -/
inductive Part
  | text (cs : List Char) (quoted : Bool)
  | variable (name : String) (quoted : Bool)
  /-- The value of a variable, or of a text if the variable has none (or, with `orEmpty`, an empty one). -/
  | fallback (name : String) (orEmpty : Bool) (other : List Char) (quoted : Bool)
  /-- The number of characters of a variable's value. -/
  | size (name : String) (quoted : Bool)
  | arithmetic (body : List Char) (quoted : Bool)
  | capture (body : List Char) (quoted : Bool)
  deriving DecidableEq, Repr

/-- A word. -/
abbrev Word := List Part

/-- A token with its line. -/
inductive Token
  | word (w : Word) (line : Nat)
  | operator (s : String) (line : Nat)
  | newline (line : Nat)
  /-- A redirection operator with the number of the stream, if one is given. -/
  | redirect (stream : Option Nat) (s : String) (line : Nat)
  /-- Text for the input that stands in the script itself. -/
  | document (w : Word) (line : Nat)
  /-- Nothing that can be read. -/
  | bad (message : String) (line : Nat)
  deriving DecidableEq, Repr

namespace Token

/-- The line of a token. -/
def line : Token → Nat
  | word _ n => n
  | operator _ n => n
  | newline n => n
  | redirect _ _ n => n
  | document _ n => n
  | bad _ n => n

end Token

/-- A character of a variable's name. -/
def isNameChar (c : Char) : Bool := c.isAlphanum || c == '_'

/-- A variable of one special character. -/
def isSpecialName (c : Char) : Bool := "0123456789#*@?$!-".toList.contains c

/-- How many line ends a text has. -/
def lineEnds (cs : List Char) : Nat := cs.count '\n'

/-- The text up to the bracket that closes an open one, and the text after that bracket.  Quotes hide brackets. -/
def balanced : Nat → List Char → List Char → Option (List Char × List Char)
  | _, [], _ => none
  | n, '\\' :: c :: rest, done => balanced n rest (c :: '\\' :: done)
  | n, '\'' :: rest, done =>
    match h : rest.dropWhile (· != '\'') with
    | _ :: after =>
      have : after.length < rest.length + 1 := by
        have h1 := (List.dropWhile_suffix (fun c => c != '\'') (l := rest)).length_le
        rw [h] at h1
        simp only [List.length_cons] at h1
        omega
      balanced n after ('\'' :: (rest.takeWhile (· != '\'')).reverse ++ '\'' :: done)
    | [] => none
  | n, '(' :: rest, done => balanced (n + 1) rest ('(' :: done)
  | 0, ')' :: rest, done => some (done.reverse, rest)
  | n + 1, ')' :: rest, done => balanced n rest (')' :: done)
  | n, c :: rest, done => balanced n rest (c :: done)
termination_by _ cs => cs.length

/-- The expansion after a dollar sign, and the text after it; `none` if the sign stands for itself. -/
def expansion? (quoted : Bool) : List Char → Option (Part × List Char)
  | '(' :: '(' :: rest =>
    match balanced 0 rest [] with
    | some (body, ')' :: after) => some (.arithmetic body quoted, after)
    | _ => none
  | '(' :: rest => (balanced 0 rest []).map fun p => (.capture p.1 quoted, p.2)
  | '\x7b' :: rest =>
    let (body, after) := rest.span (· != '\x7d')
    match body, after with
    | _, [] => none
    | '#' :: c :: name, _ :: after => some (.size (String.ofList (c :: name)) quoted, after)
    | body, _ :: after =>
      let name := if (body.take 1).any isSpecialName then body.take 1 else body.takeWhile isNameChar
      match body.drop name.length with
      | [] => if name.isEmpty then none else some (.variable (String.ofList name) quoted, after)
      | ':' :: '-' :: other => some (.fallback (String.ofList name) true other quoted, after)
      | '-' :: other => some (.fallback (String.ofList name) false other quoted, after)
      | _ => none
  | c :: rest =>
    if isSpecialName c then some (.variable (String.singleton c) quoted, rest)
    else if isNameChar c then
      some (.variable (String.ofList ((c :: rest).takeWhile isNameChar)) quoted, (c :: rest).dropWhile isNameChar)
    else none
  | [] => none

/-- Text with expansions, up to a closing double quote if `open` is set; backslashes escape what would be special. -/
def quotedParts : Nat → Bool → List Char → List Part → Option (List Part × List Char)
  | 0, _, _, _ => none
  | _ + 1, isOpen, [], done => if isOpen then none else some (done.reverse, [])
  | n + 1, isOpen, '"' :: rest, done =>
    if isOpen then some (done.reverse, rest) else quotedParts n isOpen rest (.text ['"'] true :: done)
  | n + 1, isOpen, '\\' :: c :: rest, done =>
    if c = '\n' then quotedParts n isOpen rest done
    else if c = '$' ∨ c = '\\' ∨ c.toNat = 96 ∨ (c = '"' ∧ isOpen) then
      quotedParts n isOpen rest (.text [c] true :: done)
    else quotedParts n isOpen rest (.text ['\\', c] true :: done)
  | n + 1, isOpen, '$' :: rest, done =>
    match expansion? true rest with
    | some (p, after) => quotedParts n isOpen after (p :: done)
    | none => quotedParts n isOpen rest (.text ['$'] true :: done)
  | n + 1, isOpen, c :: rest, done =>
    if c.toNat = 96 then
      let (body, after) := rest.span (·.toNat != 96)
      quotedParts n isOpen (after.drop 1) (.capture body true :: done)
    else quotedParts n isOpen rest (.text [c] true :: done)

/-- A character that ends a word. -/
def endsWord (c : Char) : Bool := " \t\n;&|<>()".toList.contains c

/-- The word at the start and the text after it. -/
def wordParts : Nat → List Char → List Part → Except String (List Part × List Char)
  | 0, _, _ => .error "Unterminated quoted string"
  | _ + 1, [], done => .ok (done.reverse, [])
  | n + 1, '\\' :: '\n' :: rest, done => wordParts n rest done
  | n + 1, '\\' :: c :: rest, done => wordParts n rest (.text [c] true :: done)
  | n + 1, '\'' :: rest, done =>
    let (body, after) := rest.span (· != '\'')
    match after with
    | _ :: after => wordParts n after (.text body true :: done)
    | [] => .error "Unterminated quoted string"
  | n + 1, '"' :: rest, done =>
    match quotedParts (rest.length + 1) true rest [] with
    | some (parts, after) => wordParts n after (parts.reverse ++ .text [] true :: done)
    | none => .error "Unterminated quoted string"
  | n + 1, '$' :: rest, done =>
    match expansion? false rest with
    | some (p, after) => wordParts n after (p :: done)
    | none => wordParts n rest (.text ['$'] false :: done)
  | n + 1, c :: rest, done =>
    if c.toNat = 96 then
      let (body, after) := rest.span (·.toNat != 96)
      wordParts n (after.drop 1) (.capture body false :: done)
    else if endsWord c then .ok (done.reverse, c :: rest)
    else wordParts n rest (.text [c] false :: done)

/-- Neighbouring texts of one kind joined. -/
def joinParts : List Part → List Part
  | .text a p :: rest =>
    match joinParts rest with
    | .text b q :: more => if p = q then .text (a ++ b) p :: more else .text a p :: .text b q :: more
    | more => .text a p :: more
  | p :: rest => p :: joinParts rest
  | [] => []

/-- The text of a word without expansions and quotes. -/
def plain? : Word → Option (List Char)
  | [.text cs false] => some cs
  | _ => none

/-- The text of a word that ends a document, and whether any of it is quoted. -/
def delimiter (w : Word) : List Char × Bool :=
  (w.flatMap fun p => match p with
    | .text cs _ => cs
    | _ => [],
   w.any fun p => match p with
    | .text _ q => q
    | _ => false)

/-- The lines of a document up to its delimiter, and the text after it. -/
def documentLines (strip : Bool) (ending : List Char) : Nat → List Char → List Char → List Char × List Char
  | 0, rest, done => (done, rest)
  | _ + 1, [], done => (done, [])
  | n + 1, rest, done =>
    let whole := rest.takeWhile (· != '\n')
    let after := (rest.dropWhile (· != '\n')).drop 1
    let line := if strip then whole.dropWhile (· == '\t') else whole
    if line = ending then (done, after) else documentLines strip ending n after (done ++ line ++ ['\n'])

/-- The operators, longer ones first. -/
def operators : List String := [";;", "&&", "||", ";", "&", "|", "(", ")"]

/-- The redirection operators, longer ones first. -/
def redirections : List String := ["<<-", "<<", ">>", "<&", ">&", ">|", "<", ">"]

/-- The first of some operators that stands at the start, and the text after it. -/
def operatorAt? (ops : List String) (cs : List Char) : Option (String × List Char) :=
  (ops.find? fun o => o.toList.isPrefixOf cs).map fun o => (o, cs.drop o.length)

/-- The tokens of a script. -/
def tokensFrom : Nat → Nat → List Char → List Token → List Token
  | 0, line, _, done => (.bad "Unterminated quoted string" line :: done).reverse
  | _ + 1, _, [], done => done.reverse
  | n + 1, line, c :: rest, done =>
    if c = ' ' ∨ c = '\t' then tokensFrom n line rest done
    else if c = '\n' then tokensFrom n (line + 1) rest (.newline line :: done)
    else if c = '\\' ∧ rest.head? = some '\n' then tokensFrom n (line + 1) (rest.drop 1) done
    else if c = '#' then tokensFrom n line (rest.dropWhile (· != '\n')) done
    else
      match operatorAt? redirections (c :: rest) with
      | some (o, after) =>
        if o = "<<" ∨ o = "<<-" then
          match wordParts (after.length + 1) (after.dropWhile (· == ' ')) [] with
          | .ok (w, after) =>
            let here := after.takeWhile (· != '\n')
            let (ending, literal) := delimiter (joinParts w)
            let below := (after.dropWhile (· != '\n')).drop 1
            let (body, below) := documentLines (o == "<<-") ending (below.length + 1) below []
            let parts := if literal then [Part.text body true]
              else ((quotedParts (body.length + 1) false body []).map (·.1)).getD []
            tokensFrom n line (here ++ '\n' :: below) (.document (joinParts parts) line :: done)
          | .error m => (.bad m line :: done).reverse
        else tokensFrom n line after (.redirect none o line :: done)
      | none =>
        match operatorAt? operators (c :: rest) with
        | some (o, after) => tokensFrom n line after (.operator o line :: done)
        | none =>
          let number := (c :: rest).takeWhile Text.isDigit
          match operatorAt? ["<&", ">&", ">>", "<", ">"] ((c :: rest).drop number.length) with
          | some (o, after) =>
            if number.isEmpty then tokensFrom n line after (.redirect none o line :: done)
            else tokensFrom n line after (.redirect (Text.natOf? number) o line :: done)
          | none =>
            match wordParts (rest.length + 2) (c :: rest) [] with
            | .ok (w, after) =>
              let used := (c :: rest).take ((c :: rest).length - after.length)
              tokensFrom n (line + lineEnds used) after (.word (joinParts w) line :: done)
            | .error m => (.bad m (line + lineEnds (c :: rest)) :: done).reverse

/-- The tokens of a script. -/
def tokens (cs : List Char) : List Token := tokensFrom (2 * cs.length + 1) 1 cs []

end AppLauncher.Program.Script
