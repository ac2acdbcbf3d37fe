import ServerPages.Dictionary
import ServerPages.Text.Split
import ServerPages.Url.Percent

/-!
# Queries and form bodies

Both are pairs of a name and a value joined by `=`, one pair from the next
parted by `&`, with a plus sign for a space. Empty pairs are left out, a pair
without `=` has the empty value, and of pairs with one name the last counts.
A query has to be well formed; a form body is bytes, and its components are mended.
-/

namespace ServerPages.Url

open Text

def plusToSpace (chars : List Char) : List Char :=
  chars.map fun c => if c = '+' then ' ' else c

def formDecode? (text : String) : Option String :=
  decode? (String.ofList (plusToSpace text.toList))

/-- The pairs of a query or a form body, still encoded. -/
def rawPairs (chars : List Char) : List (List Char × List Char) :=
  ((splitAt '&' chars).filter fun part => !part.isEmpty).map fun part =>
    let (name, value) := splitOnce '=' part
    (name, value.getD [])

def decodePair? (pair : List Char × List Char) : Option (String × String) := do
  let name ← formDecode? (String.ofList pair.1)
  let value ← formDecode? (String.ofList pair.2)
  return (name, value)

/-- The dictionary of a query without its question mark, if it is well formed. -/
def parseQuery? (query : String) : Option (Dictionary String) := do
  let pairs ← (rawPairs query.toList).mapM decodePair?
  return Dictionary.ofPairs pairs

/-! ## Form bodies -/

def splitBytes (separator : UInt8) : List UInt8 → List (List UInt8)
  | [] => [[]]
  | byte :: rest =>
      if byte = separator then [] :: splitBytes separator rest
      else
        match splitBytes separator rest with
        | [] => [[byte]]
        | part :: parts => (byte :: part) :: parts

def formDecodeLossy (bytes : List UInt8) : String :=
  decodeLossy (bytes.map fun byte => if byte = 0x2B then 0x20 else byte)

def parseForm (body : List UInt8) : List (String × String) :=
  ((splitBytes 0x26 body).filter fun part => !part.isEmpty).map fun part =>
    let isName := fun byte => byte != 0x3D
    (formDecodeLossy (part.takeWhile isName), formDecodeLossy ((part.dropWhile isName).drop 1))

def decodingMessage : String :=
  "url decoding error: invalid percent-encoded string"

end ServerPages.Url
