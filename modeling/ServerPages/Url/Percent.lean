import ServerPages.Text.Ascii
import ServerPages.Text.Utf8

/-!
# Percent encoding

A triplet of `%` and two digits in base sixteen stands for a byte. Encoding
writes the reserved characters, the percent sign, the space, controls and every
character outside ASCII as the triplets of their UTF-8 bytes and leaves the rest.

Two decoders read triplets. The strict one refuses a percent sign without two
digits and bytes that are no text, overlong forms excepted; the lossy one leaves
such a sign alone and replaces what is no text.
-/

namespace ServerPages.Url

open Text

def isReserved (c : Char) : Bool :=
  ['!', '#', '$', '&', '\'', '(', ')', '*', '+', ',', '/', ':', ';', '=', '?', '@', '[',
    ']'].contains c

def isPlain (c : Char) : Bool :=
  0x20 < c.toNat && c.toNat < 0x7F && c != '%' && !isReserved c

def capitalHexDigit (value : Nat) : Char :=
  Char.ofNat (if value < 10 then 48 + value else 55 + value)

def triplet (byte : UInt8) : List Char :=
  ['%', capitalHexDigit (byte.toNat / 16), capitalHexDigit (byte.toNat % 16)]

def encodedChar (c : Char) : List Char :=
  if isPlain c then [c] else (String.utf8EncodeChar c).flatMap triplet

/-- A text with every character outside the plain ones as triplets. -/
def encode (text : String) : String :=
  String.ofList (text.toList.flatMap encodedChar)

def byteOfDigits? (high low : Char) : Option UInt8 := do
  let high ← hexValue? high
  let low ← hexValue? low
  return UInt8.ofNat (high * 16 + low)

/-! ## Decoding -/

/-- The bytes of a text with its triplets resolved, if each percent sign starts one. -/
def bytes? : List Char → Option (List UInt8)
  | [] => some []
  | '%' :: high :: low :: rest => do
      let byte ← byteOfDigits? high low
      let bytes ← bytes? rest
      return byte :: bytes
  | c :: rest =>
      if c = '%' then none
      else do
        let bytes ← bytes? rest
        return String.utf8EncodeChar c ++ bytes

def decode? (text : String) : Option String := do
  let bytes ← bytes? text.toList
  Utf8.decodeLenient? bytes

def byteOfBytes? (high low : UInt8) : Option UInt8 :=
  byteOfDigits? (Char.ofNat high.toNat) (Char.ofNat low.toNat)

/-- Bytes with their triplets resolved; a percent sign that starts none stays. -/
def resolveLossy : List UInt8 → List UInt8
  | [] => []
  | 0x25 :: high :: low :: rest =>
      match byteOfBytes? high low with
      | some byte => byte :: resolveLossy rest
      | none => 0x25 :: resolveLossy (high :: low :: rest)
  | byte :: rest => byte :: resolveLossy rest

def decodeLossy (bytes : List UInt8) : String :=
  Utf8.decodeLossy (resolveLossy bytes)

end ServerPages.Url
