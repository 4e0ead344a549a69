import AppLauncher.Program.Script.Token

/-!
# Commands of scripts

The commands that the tokens of a script spell.  A script is read line by line: lines before a mistake are commands
like any others, and the mistake comes after them.
-/

namespace AppLauncher.Program.Script

/-- Where a stream is led. -/
inductive Redirect
  | file (stream : Nat) (operator : String) (path : Word)
  | duplicate (stream : Nat) (source : Word)
  | document (body : Word)
  deriving DecidableEq, Repr

/-- A command. -/
inductive Command
  | simple (line : Nat) (assignments : List (String × Word)) (words : List Word) (redirects : List Redirect)
  | pipeline (negated : Bool) (stages : List Command)
  | both (first second : Command)
  | either (first second : Command)
  | sequence (commands : List Command)
  | background (body : Command)
  | subshell (body : Command)
  | branch (arms : List (Command × Command)) (otherwise : Option Command)
  | loop (untilTrue : Bool) (condition body : Command)
  | each (name : String) (words : Option (List Word)) (body : Command)
  | choose (subject : Word) (arms : List (List Word × Command))
  | define (name : String) (body : Command)
  | redirected (body : Command) (redirects : List Redirect)
  deriving Repr

/-- A mistake in a script and its line. -/
structure Mistake where
  line : Nat
  text : String
  deriving DecidableEq, Repr

/-- The text of a mistake. -/
def Mistake.message (m : Mistake) : String := "Syntax error: " ++ m.text

/-- The words that begin or end parts of commands. -/
def reserved : List String :=
  ["if", "then", "else", "elif", "fi", "do", "done", "while", "until", "for", "case", "esac", "in", "\x7b", "\x7d",
   "!"]

/-- The reserved word that a token is. -/
def reservedOf? : Token → Option String
  | .word w _ =>
    match plain? w with
    | some cs => if reserved.contains (String.ofList cs) then some (String.ofList cs) else none
    | none => none
  | _ => none

/-- What a message calls the next token. -/
def nextName : List Token → String
  | [] => "end of file"
  | .newline _ :: _ => "newline"
  | .operator s _ :: _ => "\"" ++ s ++ "\""
  | .redirect .. :: _ => "redirection"
  | .document .. :: _ => "redirection"
  | .bad .. :: _ => "end of file"
  | t :: _ =>
    match reservedOf? t with
    | some s => "\"" ++ s ++ "\""
    | none => "word"

/-- The line of the next token, or of the last one. -/
def nextLine (last : Nat) : List Token → Nat
  | [] => last
  | t :: _ => t.line

/-- The mistake of a token that cannot stand here. -/
def unexpected {α : Type} (last : Nat) (expected : Option String) (ts : List Token) :
    Except Mistake (α × List Token) :=
  match ts with
  | .bad m line :: _ => .error ⟨line, m⟩
  | ts =>
    .error ⟨nextLine last ts, nextName ts ++ " unexpected" ++
      match expected with
      | some e => " (expecting \"" ++ e ++ "\")"
      | none => ""⟩

/-- The tokens after line ends. -/
def skipLines : List Token → List Token
  | .newline _ :: rest => skipLines rest
  | ts => ts

/-- The tokens after a reserved word. -/
def expect (last : Nat) (s : String) : List Token → Except Mistake (List Token)
  | t :: rest =>
    if reservedOf? t = some s then .ok rest
    else (unexpected (α := Unit) last (some s) (t :: rest)).map (·.2)
  | [] => (unexpected (α := Unit) last (some s) []).map (·.2)

/-- The name and the value of a word that assigns. -/
def assignment? : Word → Option (String × Word)
  | .text cs false :: rest =>
    let name := cs.takeWhile isNameChar
    match cs.drop name.length with
    | '=' :: value =>
      if name.isEmpty ∨ (name.take 1).any Text.isDigit then none
      else some (String.ofList name, if value.isEmpty then rest else .text value false :: rest)
    | _ => none
  | _ => none

/-- A redirection at the start. -/
def redirect? (last : Nat) : List Token → Option (Except Mistake (Redirect × List Token))
  | .document w _ :: rest => some (.ok (.document w, rest))
  | .redirect n s line :: rest =>
    match rest with
    | .word w _ :: rest =>
      let stream := n.getD (if s.toList.head? = some '<' then 0 else 1)
      some (.ok (if s = ">&" ∨ s = "<&" then .duplicate stream w else .file stream s w, rest))
    | ts => some (unexpected (max last line) none ts)
  | _ => none

/-- The redirections at the start. -/
def redirects (last : Nat) : Nat → List Token → Except Mistake (List Redirect × List Token)
  | 0, ts => .ok ([], ts)
  | n + 1, ts =>
    match redirect? last ts with
    | none => .ok ([], ts)
    | some (.error e) => .error e
    | some (.ok (r, rest)) => do
      let (more, rest) ← redirects last n rest
      pure (r :: more, rest)

/-- The words up to the end of a line. -/
def wordList (last : Nat) : List Token → List Word → Except Mistake (List Word × List Token)
  | .word w _ :: rest, done => wordList last rest (w :: done)
  | .newline _ :: rest, done => .ok (done.reverse, rest)
  | .operator ";" _ :: rest, done => .ok (done.reverse, rest)
  | [], done => .ok (done.reverse, [])
  | ts, _ => unexpected last none ts

/-- The patterns of an arm with the bracket after them. -/
def patterns (last : Nat) : List Token → List Word → Except Mistake (List Word × List Token)
  | .word w _ :: .operator "|" _ :: rest, done => patterns last rest (w :: done)
  | .word w _ :: .operator ")" _ :: rest, done => .ok ((w :: done).reverse, rest)
  | .word _ _ :: rest, _ => unexpected last (some ")") rest
  | ts, _ => unexpected last none ts

/-- The words, assignments and redirections of a simple command. -/
def simpleParts (last : Nat) :
    Nat → List Token → List (String × Word) → List Word → List Redirect →
      Except Mistake ((List (String × Word) × List Word × List Redirect) × List Token)
  | 0, ts, as, ws, rs => .ok ((as.reverse, ws.reverse, rs.reverse), ts)
  | n + 1, ts, as, ws, rs =>
    match redirect? last ts with
    | some (.error e) => .error e
    | some (.ok (r, rest)) => simpleParts last n rest as ws (r :: rs)
    | none =>
      match ts with
      | .word w _ :: rest =>
        match ws, assignment? w with
        | [], some a => simpleParts last n rest (a :: as) ws rs
        | _, _ => simpleParts last n rest as (w :: ws) rs
      | ts => .ok ((as.reverse, ws.reverse, rs.reverse), ts)

/-- One command or many. -/
def sequenceOf : List Command → Command
  | [c] => c
  | cs => .sequence cs

mutual

/-- Commands up to one of the words or operators that end a list. -/
def commandList (last : Nat) : Nat → List Token → List Command → Except Mistake (Command × List Token)
  | 0, ts, _ => unexpected last none ts
  | n + 1, ts, done =>
    match skipLines ts with
    | [] => .ok (sequenceOf done.reverse, [])
    | t :: rest =>
      let isEnd := match t with
        | .operator s _ => s == ")" || s == ";;"
        | t => match reservedOf? t with
          | some s => ["then", "else", "elif", "fi", "do", "done", "esac", "\x7d"].contains s
          | none => false
      if isEnd then .ok (sequenceOf done.reverse, t :: rest)
      else do
        let (c, rest) ← andOr last n (t :: rest)
        match rest with
        | .operator ";" _ :: rest => commandList last n rest (c :: done)
        | .operator "&" _ :: rest => commandList last n rest (.background c :: done)
        | rest => commandListEnd last n rest (c :: done)

/-- What may follow a command that no separator ends. -/
def commandListEnd (last : Nat) : Nat → List Token → List Command → Except Mistake (Command × List Token)
  | 0, ts, _ => unexpected last none ts
  | n + 1, ts, done =>
    match ts with
    | .newline _ :: rest => commandList last n rest done
    | [] => .ok (sequenceOf done.reverse, [])
    | .operator ")" _ :: _ => .ok (sequenceOf done.reverse, ts)
    | .operator ";;" _ :: _ => .ok (sequenceOf done.reverse, ts)
    | ts => unexpected last none ts

/-- Pipelines joined by "and" and "or". -/
def andOr (last : Nat) : Nat → List Token → Except Mistake (Command × List Token)
  | 0, ts => unexpected last none ts
  | n + 1, ts => do
    let (c, rest) ← pipeline last n ts
    andOrRest last n c rest

/-- The rest of a list of pipelines after its first ones. -/
def andOrRest (last : Nat) : Nat → Command → List Token → Except Mistake (Command × List Token)
  | 0, _, ts => unexpected last none ts
  | n + 1, c, ts =>
    match ts with
    | .operator "&&" _ :: rest => do
      let (d, rest) ← pipeline last n (skipLines rest)
      andOrRest last n (.both c d) rest
    | .operator "||" _ :: rest => do
      let (d, rest) ← pipeline last n (skipLines rest)
      andOrRest last n (.either c d) rest
    | ts => .ok (c, ts)

/-- Commands joined by pipes. -/
def pipeline (last : Nat) : Nat → List Token → Except Mistake (Command × List Token)
  | 0, ts => unexpected last none ts
  | n + 1, ts =>
    match ts with
    | t :: rest =>
      if reservedOf? t = some "!" then do
        let (c, rest) ← stages last n rest []
        pure (.pipeline true c, rest)
      else do
        let (c, rest) ← stages last n (t :: rest) []
        pure (match c with
          | [c] => c
          | cs => .pipeline false cs, rest)
    | [] => unexpected last none []

/-- The commands of a pipeline. -/
def stages (last : Nat) : Nat → List Token → List Command → Except Mistake (List Command × List Token)
  | 0, ts, _ => unexpected last none ts
  | n + 1, ts, done => do
    let (c, rest) ← command last n ts
    match rest with
    | .operator "|" _ :: rest => stages last n (skipLines rest) (c :: done)
    | rest => pure ((c :: done).reverse, rest)

/-- A command with what follows a compound one. -/
def command (last : Nat) : Nat → List Token → Except Mistake (Command × List Token)
  | 0, ts => unexpected last none ts
  | n + 1, ts =>
    match ts with
    | .operator "(" _ :: rest => do
      let (c, rest) ← commandList last n rest []
      match rest with
      | .operator ")" _ :: rest => compoundEnd last n (.subshell c) rest
      | rest => unexpected last (some ")") rest
    | t :: rest =>
      match reservedOf? t with
      | some "if" => do
        let (c, rest) ← ifArms last n rest []
        compoundEnd last n c rest
      | some "while" => do
        let (c, rest) ← loopParts last n false rest
        compoundEnd last n c rest
      | some "until" => do
        let (c, rest) ← loopParts last n true rest
        compoundEnd last n c rest
      | some "for" => do
        let (c, rest) ← forParts last n rest
        compoundEnd last n c rest
      | some "case" => do
        let (c, rest) ← caseParts last n rest
        compoundEnd last n c rest
      | some "\x7b" => do
        let (c, rest) ← commandList last n rest []
        let rest ← expect last "\x7d" rest
        compoundEnd last n c rest
      | some "!" => unexpected last none (t :: rest)
      | some "in" => simpleCommand last n (t :: rest)
      | some _ => unexpected last none (t :: rest)
      | none => simpleCommand last n (t :: rest)
    | [] => unexpected last none []

/-- A simple command, or the definition of a function. -/
def simpleCommand (last : Nat) : Nat → List Token → Except Mistake (Command × List Token)
  | 0, ts => unexpected last none ts
  | n + 1, ts =>
    match ts with
    | .word w _ :: .operator "(" _ :: .operator ")" _ :: rest => do
      let (c, rest) ← command last n (skipLines rest)
      match plain? w with
      | some cs => pure (.define (String.ofList cs) c, rest)
      | none => unexpected last none ts
    | .word _ _ :: .operator "(" _ :: rest => unexpected last (some ")") rest
    | ts => do
      let ((as, ws, rs), rest) ← simpleParts last (ts.length + 1) ts [] [] []
      if as.isEmpty ∧ ws.isEmpty ∧ rs.isEmpty then unexpected last none rest
      else
        match rest with
        | .operator "(" _ :: _ => unexpected last none rest
        | .bad .. :: _ => unexpected last none rest
        | rest => pure (.simple (nextLine last ts) as ws rs, rest)

/-- A compound command with its redirections. -/
def compoundEnd (last : Nat) : Nat → Command → List Token → Except Mistake (Command × List Token)
  | 0, _, ts => unexpected last none ts
  | _ + 1, c, ts => do
    let (rs, rest) ← redirects last ts.length ts
    match rest with
    | .word w line :: more =>
      if (reservedOf? (.word w line)).isSome then pure (if rs.isEmpty then c else .redirected c rs, rest)
      else unexpected last none (.word w line :: more)
    | .operator "(" _ :: _ => unexpected last none rest
    | .bad .. :: _ => unexpected last none rest
    | rest => pure (if rs.isEmpty then c else .redirected c rs, rest)

/-- The arms of a branch. -/
def ifArms (last : Nat) : Nat → List Token → List (Command × Command) →
    Except Mistake (Command × List Token)
  | 0, ts, _ => unexpected last none ts
  | n + 1, ts, done => do
    let (condition, rest) ← commandList last n ts []
    let rest ← expect last "then" rest
    let (body, rest) ← commandList last n rest []
    match rest with
    | t :: more =>
      match reservedOf? t with
      | some "elif" => ifArms last n more ((condition, body) :: done)
      | some "else" => do
        let (other, rest) ← commandList last n more []
        let rest ← expect last "fi" rest
        pure (.branch ((condition, body) :: done).reverse (some other), rest)
      | _ => do
        let rest ← expect last "fi" (t :: more)
        pure (.branch ((condition, body) :: done).reverse none, rest)
    | [] => unexpected last (some "fi") []

/-- The body of a loop between its two words. -/
def loopBody (last : Nat) : Nat → List Token → Except Mistake (Command × List Token)
  | 0, ts => unexpected last none ts
  | n + 1, ts => do
    let rest ← expect last "do" (skipLines ts)
    let (body, rest) ← commandList last n rest []
    let rest ← expect last "done" rest
    pure (body, rest)

/-- The condition and the body of a loop. -/
def loopParts (last : Nat) : Nat → Bool → List Token → Except Mistake (Command × List Token)
  | 0, _, ts => unexpected last none ts
  | n + 1, untilTrue, ts => do
    let (condition, rest) ← commandList last n ts []
    let (body, rest) ← loopBody last n rest
    pure (.loop untilTrue condition body, rest)

/-- The name, the words and the body of a loop over words. -/
def forParts (last : Nat) : Nat → List Token → Except Mistake (Command × List Token)
  | 0, ts => unexpected last none ts
  | n + 1, ts =>
    match ts with
    | .word w _ :: rest =>
      match (plain? w).map String.ofList with
      | none => .error ⟨nextLine last ts, "Bad for loop variable"⟩
      | some name =>
        match skipLines rest with
        | t :: more =>
          if reservedOf? t = some "in" then do
            let (words, rest) ← wordList last more []
            let (body, rest) ← loopBody last n rest
            pure (.each name (some words) body, rest)
          else do
            let rest := match rest with
              | .operator ";" _ :: rest => rest
              | rest => rest
            let (body, rest) ← loopBody last n rest
            pure (.each name none body, rest)
        | [] => unexpected last (some "do") []
    | ts => .error ⟨nextLine last ts, "Bad for loop variable"⟩

/-- The subject and the arms of a choice. -/
def caseParts (last : Nat) : Nat → List Token → Except Mistake (Command × List Token)
  | 0, ts => unexpected last none ts
  | n + 1, ts =>
    match ts with
    | .word w _ :: rest => do
      let rest ← expect last "in" (skipLines rest)
      let (arms, rest) ← caseArms last n rest []
      pure (.choose w arms, rest)
    | ts => unexpected last none ts

/-- The arms of a choice up to its end. -/
def caseArms (last : Nat) : Nat → List Token → List (List Word × Command) →
    Except Mistake (List (List Word × Command) × List Token)
  | 0, ts, _ => unexpected last none ts
  | n + 1, ts, done =>
    match skipLines ts with
    | [] => unexpected last (some "esac") []
    | t :: rest =>
      if reservedOf? t = some "esac" then .ok (done.reverse, rest)
      else do
        let start := match t with
          | .operator "(" _ => rest
          | _ => t :: rest
        let (ps, rest) ← patterns last start []
        let (body, rest) ← commandList last n rest []
        match rest with
        | .operator ";;" _ :: rest => caseArms last n rest ((ps, body) :: done)
        | rest => do
          let rest ← expect last "esac" rest
          pure (((ps, body) :: done).reverse, rest)

end

/-- The commands of one line after the other, and the mistake that ends them. -/
def linesFrom (last : Nat) : Nat → List Token → List Command → List Command × Option Mistake
  | 0, _, done => (done.reverse, none)
  | n + 1, ts, done =>
    match skipLines ts with
    | [] => (done.reverse, none)
    | t :: rest =>
      match lineFrom (8 * (rest.length + 2)) (t :: rest) [] with
      | .ok (c, rest) => linesFrom last n rest (c :: done)
      | .error e => (done.reverse, some e)
where
  /-- The commands of one line. -/
  lineFrom : Nat → List Token → List Command → Except Mistake (Command × List Token)
    | 0, ts, _ => unexpected last none ts
    | n + 1, ts, done => do
      let (c, rest) ← andOr last n ts
      let next (c : Command) (rest : List Token) : Except Mistake (Command × List Token) :=
        match rest with
        | [] => .ok (sequenceOf (c :: done).reverse, [])
        | .newline _ :: rest => .ok (sequenceOf (c :: done).reverse, rest)
        | rest => lineFrom n rest (c :: done)
      match rest with
      | .operator ";" _ :: rest => next c rest
      | .operator "&" _ :: rest => next (.background c) rest
      | [] => next c []
      | .newline line :: rest => next c (.newline line :: rest)
      | rest => unexpected last none rest

/-- A script that was read: its commands, line by line, and the mistake after them. -/
structure Source where
  commands : List Command
  mistake : Option Mistake
  deriving Repr

/-- Reads a script. -/
def Source.read (cs : List Char) : Source :=
  let ts := tokens cs
  let (commands, mistake) := linesFrom (1 + lineEnds cs) (ts.length + 1) ts []
  ⟨commands, mistake⟩

end AppLauncher.Program.Script
