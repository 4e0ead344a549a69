/-!
# UTF-8

The bytes of a text and the texts that bytes spell.  `decode?` accepts the shortest form of each scalar value
and nothing else, so it is the inverse of `encode`.
-/

namespace AppLauncher.Text.Utf8

/-- The bytes of a text. -/
def encode (cs : List Char) : List UInt8 := cs.flatMap String.utf8EncodeChar

/-- The six low bits of a continuation byte. -/
def tail? (b : UInt8) : Option Nat :=
  if 0x80 ≤ b ∧ b < 0xC0 then some (b.toNat - 0x80) else none

/-- The scalar value that `n` stands for, if it is at least `least`, the first that needs so many bytes. -/
def scalar? (least n : Nat) : Option Char :=
  if least ≤ n ∧ n.isValidChar then some (Char.ofNat n) else none

/-- The first character of the bytes and the bytes after it. -/
def next? : List UInt8 → Option (Char × List UInt8)
  | [] => none
  | a :: r =>
    if a < 0x80 then some (Char.ofNat a.toNat, r)
    else if a < 0xC0 then none
    else if a < 0xE0 then
      match r with
      | b :: r => do
        let b ← tail? b
        let c ← scalar? 0x80 ((a.toNat - 0xC0) * 64 + b)
        pure (c, r)
      | _ => none
    else if a < 0xF0 then
      match r with
      | b :: c :: r => do
        let b ← tail? b
        let c ← tail? c
        let d ← scalar? 0x800 (((a.toNat - 0xE0) * 64 + b) * 64 + c)
        pure (d, r)
      | _ => none
    else if a < 0xF8 then
      match r with
      | b :: c :: d :: r => do
        let b ← tail? b
        let c ← tail? c
        let d ← tail? d
        let e ← scalar? 0x10000 ((((a.toNat - 0xF0) * 64 + b) * 64 + c) * 64 + d)
        pure (e, r)
      | _ => none
    else none

/-- The characters that so many bytes spell, after those in `done`, which stand in reverse. -/
def decodeLoop : Nat → List UInt8 → List Char → Option (List Char)
  | _, [], done => some done.reverse
  | 0, _ :: _, _ => none
  | n + 1, bs, done =>
    match next? bs with
    | some (c, rest) => decodeLoop n rest (c :: done)
    | none => none

/-- The text that the bytes spell, if they spell one. -/
def decode? (bs : List UInt8) : Option (List Char) := decodeLoop bs.length bs []

/-- The bytes of a string. -/
def ofString (s : String) : List UInt8 := encode s.toList

/-- The string that the bytes spell, if they spell one. -/
def toString? (bs : List UInt8) : Option String := (decode? bs).map String.ofList

/-- How many bytes a string has. -/
def size (s : String) : Nat := (ofString s).length

end AppLauncher.Text.Utf8
