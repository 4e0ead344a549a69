import AppLauncher.Text.Digits
import AppLauncher.Text.Utf8
import AppLauncher.Word

/-!
# Formatted output of scripts

The bytes that `echo` and `printf` write: escapes of characters, and conversions that take the arguments one after
the other.
-/

namespace AppLauncher.Program.Script.Format

/-- The character that a letter after a backslash stands for. -/
def escape? : Char → Option UInt8
  | 'a' => some 7
  | 'b' => some 8
  | 'f' => some 12
  | 'n' => some 10
  | 'r' => some 13
  | 't' => some 9
  | 'v' => some 11
  | '\\' => some 92
  | _ => none

/-- The octal digits at the start, at most so many. -/
def octal (most : Nat) (cs : List Char) : List Char :=
  (cs.take most).takeWhile fun c => '0' ≤ c && c ≤ '7'

/-- The number that octal digits spell. -/
def octalValue (ds : List Char) : Nat := Text.ofDigits 8 0 (ds.map fun c => c.toNat - '0'.toNat)

/-- Text with backslash escapes as bytes, and whether the output goes on after it.  Octal numbers begin with a
zero if `zeroFirst` is set. -/
def unescape (zeroFirst : Bool) : Nat → List Char → List UInt8 × Bool
  | 0, _ => ([], true)
  | _ + 1, [] => ([], true)
  | n + 1, '\\' :: c :: rest =>
    if c = 'c' ∧ zeroFirst then ([], false)
    else
      match escape? c with
      | some b =>
        let (more, goesOn) := unescape zeroFirst n rest
        (b :: more, goesOn)
      | none =>
        let ds := if zeroFirst ∧ c = '0' then octal 3 rest else octal 3 (c :: rest)
        if zeroFirst ∧ c = '0' then
          let (more, goesOn) := unescape zeroFirst n (rest.drop ds.length)
          ((octalValue ds).toUInt8 :: more, goesOn)
        else if ds.isEmpty then
          let (more, goesOn) := unescape zeroFirst n rest
          (Text.Utf8.encode ['\\', c] ++ more, goesOn)
        else
          let (more, goesOn) := unescape zeroFirst n ((c :: rest).drop ds.length)
          ((octalValue ds).toUInt8 :: more, goesOn)
  | n + 1, c :: rest =>
    let (more, goesOn) := unescape zeroFirst n rest
    (Text.Utf8.encode [c] ++ more, goesOn)

/-- What `echo` writes for its arguments. -/
def echo (args : List String) : List UInt8 :=
  let (lineEnd, args) := match args with
    | "-n" :: rest => (false, rest)
    | args => (true, args)
  let body := (" ".intercalate args).toList
  let (bytes, goesOn) := unescape true (body.length + 1) body
  if goesOn && lineEnd then bytes ++ [10] else bytes

/-- A conversion: its flags, width, precision and letter. -/
structure Conversion where
  flags : List Char
  width : Nat
  precision : Option Nat
  letter : Char
  deriving DecidableEq, Repr

/-- The conversion after a percent sign and the text after it. -/
def conversion? (cs : List Char) : Option (Conversion × List Char) :=
  let flags := cs.takeWhile fun c => "-+ 0#".toList.contains c
  let cs := cs.drop flags.length
  let width := cs.takeWhile Text.isDigit
  let cs := cs.drop width.length
  let (precision, cs) := match cs with
    | '.' :: rest =>
      let ds := rest.takeWhile Text.isDigit
      (some ((Text.natOf? ds).getD 0), rest.drop ds.length)
    | cs => (none, cs)
  match cs with
  | c :: rest => some (⟨flags, (Text.natOf? width).getD 0, precision, c⟩, rest)
  | [] => none

/-- Text brought to a width. -/
def pad (c : Conversion) (body : List UInt8) : List UInt8 :=
  let fill := List.replicate (c.width - body.length) (32 : UInt8)
  if c.flags.contains '-' then body ++ fill else fill ++ body

/-- A number's sign and digits brought to the conversion's width. -/
def padNumber (c : Conversion) (sign digits : List Char) : List UInt8 :=
  let digits := List.replicate (c.precision.getD 0 - digits.length) '0' ++ digits
  let zeros := c.flags.contains '0' && !c.flags.contains '-' && c.precision.isNone
  let digits := if zeros then List.replicate (c.width - sign.length - digits.length) '0' ++ digits else digits
  pad c (Text.Utf8.encode (sign ++ digits))

/-- The number that an argument spells, and whether all of it was read. -/
def argument (s : String) : Int × Bool :=
  let cs := s.toList.dropWhile (· == ' ')
  let (negative, ds) := match cs with
    | '-' :: rest => (true, rest)
    | '+' :: rest => (false, rest)
    | cs => (false, cs)
  match ds with
  | '\'' :: c :: _ => (c.toNat, true)
  | '"' :: c :: _ => (c.toNat, true)
  | ds =>
    let (base, ds) := match ds with
      | '0' :: 'x' :: rest => (16, rest)
      | '0' :: rest => (8, '0' :: rest)
      | ds => (10, ds)
    let found := ds.takeWhile fun c => (Text.hexDigit? c).any (· < base)
    let n := Text.ofDigits base 0 (found.filterMap Text.hexDigit?)
    (if negative then -(n : Int) else n, found.length = ds.length && (!found.isEmpty || s = ""))

/-- The digits of a number in a base. -/
def digitsOf (base : Nat) (upper : Bool) (n : Nat) : List Char :=
  let ds := Nat.toDigits base n
  if upper then ds.map Char.toUpper else ds

/-- A number converted by a letter. -/
def number (c : Conversion) (v : Int) : List UInt8 :=
  let sign (positive : Bool) : List Char :=
    if !positive then ['-'] else if c.flags.contains '+' then ['+'] else if c.flags.contains ' ' then [' '] else []
  let unsigned := (v % (wordCount 64 : Int)).toNat
  match c.letter with
  | 'o' => padNumber c (if c.flags.contains '#' then ['0'] else []) (digitsOf 8 false unsigned)
  | 'x' => padNumber c (if c.flags.contains '#' ∧ unsigned ≠ 0 then ['0', 'x'] else []) (digitsOf 16 false unsigned)
  | 'X' => padNumber c (if c.flags.contains '#' ∧ unsigned ≠ 0 then ['0', 'X'] else []) (digitsOf 16 true unsigned)
  | 'u' => padNumber c [] (digitsOf 10 false unsigned)
  | _ => padNumber c (sign (0 ≤ v)) (digitsOf 10 false v.natAbs)

/-- What was written so far, the arguments that are left, the arguments that were no numbers, whether an argument
was asked for, and whether the output goes on. -/
structure Progress where
  bytes : List UInt8 := []
  args : List String
  wrong : List String := []
  asked : Bool := false
  goesOn : Bool := true

/-- One pass over a format. -/
def pass : Nat → List Char → Progress → Progress
  | 0, _, p => p
  | _ + 1, [], p => p
  | n + 1, '%' :: '%' :: rest, p => pass n rest { p with bytes := p.bytes ++ [37] }
  | n + 1, '%' :: rest, p =>
    match conversion? rest with
    | none => { p with bytes := p.bytes ++ [37], goesOn := false }
    | some (c, after) =>
      let arg := p.args.head?.getD ""
      let p := { p with args := p.args.drop 1, asked := true }
      let cut (bs : List UInt8) : List UInt8 := match c.precision with
        | some k => bs.take k
        | none => bs
      match c.letter with
      | 's' => pass n after { p with bytes := p.bytes ++ pad c (cut (Text.Utf8.ofString arg)) }
      | 'c' => pass n after { p with bytes := p.bytes ++ pad c ((Text.Utf8.ofString arg).take 1) }
      | 'b' =>
        let (bs, goesOn) := unescape true (arg.length + 1) arg.toList
        let p := { p with bytes := p.bytes ++ pad c (cut bs) }
        if goesOn then pass n after p else { p with goesOn := false }
      | letter =>
        if "diouxX".toList.contains letter then
          let (v, whole) := argument arg
          pass n after { p with
            bytes := p.bytes ++ number c v
            wrong := if whole then p.wrong else p.wrong ++ [arg] }
        else { p with goesOn := false, wrong := p.wrong ++ ["%" ++ String.singleton letter] }
  | n + 1, '\\' :: c :: rest, p =>
    let ds := octal 3 (c :: rest)
    match escape? c with
    | some b => pass n rest { p with bytes := p.bytes ++ [b] }
    | none =>
      if ds.isEmpty then pass n rest { p with bytes := p.bytes ++ Text.Utf8.encode ['\\', c] }
      else pass n ((c :: rest).drop ds.length) { p with bytes := p.bytes ++ [(octalValue ds).toUInt8] }
  | n + 1, c :: rest, p => pass n rest { p with bytes := p.bytes ++ Text.Utf8.encode [c] }

/-- The format is used again as long as arguments are left that it asks for. -/
def passes : Nat → List Char → Progress → Progress
  | 0, _, p => p
  | n + 1, cs, p =>
    let p := pass (cs.length + 1) cs { p with asked := false }
    if p.goesOn && p.asked && !p.args.isEmpty then passes n cs p else p

/-- What `printf` writes, and the arguments that should have been numbers. -/
def printf (format : String) (args : List String) : List UInt8 × List String :=
  let p := passes (args.length + 1) format.toList { args }
  (p.bytes, p.wrong)

end AppLauncher.Program.Script.Format
