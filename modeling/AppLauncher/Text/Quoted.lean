import AppLauncher.Text.Digits
import AppLauncher.Text.Unprintable

/-!
# Quoted text

How a message shows a text that it quotes: between double quotes, with a backslash before quotes and
backslashes, a short form for the common controls and the number of every other unprintable character.
-/

namespace AppLauncher.Text.Quoted

/-- One character of a quoted text. -/
def encodeChar (c : Char) : List Char :=
  if c = '\x00' then ['\\', '0']
  else if c = '\t' then ['\\', 't']
  else if c = '\r' then ['\\', 'r']
  else if c = '\n' then ['\\', 'n']
  else if c = '\\' then ['\\', '\\']
  else if c = '"' then ['\\', '"']
  else if isUnprintable c then '\\' :: 'u' :: '\x7b' :: hexadecimal c.toNat ++ ['\x7d']
  else [c]

/-- The quoted form of a text. -/
def encode (cs : List Char) : List Char := '"' :: cs.flatMap encodeChar ++ ['"']

/-- The quoted form of a string. -/
def ofString (s : String) : String := String.ofList (encode s.toList)

end AppLauncher.Text.Quoted
