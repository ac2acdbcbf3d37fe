import ServerPages.Text.Ascii
import ServerPages.Text.Printable

/-!
# Quoted text

Text between double quotes as it appears in messages: a backslash marks tabs,
line ends, NUL, the quote and the backslash itself, and characters without a
shape of their own are written by their code point.
-/

namespace ServerPages.Text

/-- A number in base sixteen, without leading zeros. -/
def hexadecimal (n : Nat) : List Char :=
  Nat.toDigits 16 n

def quotedChar (c : Char) : List Char :=
  if c = '\x00' then ['\\', '0']
  else if c = '\t' then ['\\', 't']
  else if c = '\r' then ['\\', 'r']
  else if c = '\n' then ['\\', 'n']
  else if c = '"' then ['\\', '"']
  else if c = '\\' then ['\\', '\\']
  else if isExtending c || !isPrintable c then
    ['\\', 'u', '\x7b'] ++ hexadecimal c.toNat ++ ['\x7d']
  else [c]

def quoted (text : String) : String :=
  String.ofList ('"' :: (text.toList.flatMap quotedChar ++ ['"']))

end ServerPages.Text
