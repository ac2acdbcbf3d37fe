import ServerPages.Json.Basic
import ServerPages.Decimal.Shortest

/-!
# JSON text

The compact text of a value: no spaces, members in order of key. In strings only
the quote, the backslash and the characters below U+0020 are escaped.
-/

namespace ServerPages

open Text

/-- The text of a number: floating point numbers always show a point or an exponent. -/
def Number.render : Number → String
  | .integer n => signedDecimal n.val
  | .binary x => x.render

namespace Json

def escapedChar (c : Char) : List Char :=
  if c = '"' then ['\\', '"']
  else if c = '\\' then ['\\', '\\']
  else if c = '\x08' then ['\\', 'b']
  else if c = '\x0c' then ['\\', 'f']
  else if c = '\n' then ['\\', 'n']
  else if c = '\r' then ['\\', 'r']
  else if c = '\t' then ['\\', 't']
  else if c.toNat < 0x20 then
    ['\\', 'u', '0', '0', hexDigit (c.toNat / 16), hexDigit (c.toNat % 16)]
  else [c]

def stringChars (text : String) : List Char :=
  '"' :: (text.toList.flatMap escapedChar ++ ['"'])

mutual

def chars : Json → List Char
  | .null => ['n', 'u', 'l', 'l']
  | .bool true => ['t', 'r', 'u', 'e']
  | .bool false => ['f', 'a', 'l', 's', 'e']
  | .num n => n.render.toList
  | .str s => stringChars s
  | .arr [] => ['[', ']']
  | .arr (item :: items) => '[' :: (chars item ++ itemChars items)
  | .obj [] => ['\x7b', '\x7d']
  | .obj ((key, value) :: members) =>
      '\x7b' :: (stringChars key ++ ':' :: (chars value ++ memberChars members))

/-- The items after the first, each with the comma before it, and the closing bracket. -/
def itemChars : List Json → List Char
  | [] => [']']
  | item :: items => ',' :: (chars item ++ itemChars items)

def memberChars : List (String × Json) → List Char
  | [] => ['\x7d']
  | (key, value) :: members =>
      ',' :: (stringChars key ++ ':' :: (chars value ++ memberChars members))

end

def render (value : Json) : String :=
  String.ofList value.chars

def renderString (text : String) : String :=
  String.ofList (stringChars text)

end Json

end ServerPages
