/-!
# UTF-8

Text as bytes and back. A reader of bytes takes one character at a time and
either finds the character or the end of the longest prefix that could have
started one; the decoders differ in what they make of such a prefix.
-/

namespace ServerPages.Text.Utf8

def encode (text : String) : List UInt8 :=
  text.toList.flatMap String.utf8EncodeChar

def size (text : String) : Nat :=
  text.utf8ByteSize

/-- What a lead byte announces: the bits it gives, the range of the byte after it, and how many
further bytes follow that one. -/
structure Lead where
  bits : Nat
  low : UInt8
  high : UInt8
  further : Nat

/-- The lead bytes of sequences of two to four bytes; the ranges leave out overlong forms,
surrogates and values above the last character. -/
def lead? (byte : UInt8) : Option Lead :=
  if 0xC2 ≤ byte && byte ≤ 0xDF then some ⟨byte.toNat - 0xC0, 0x80, 0xBF, 0⟩
  else if byte == 0xE0 then some ⟨0, 0xA0, 0xBF, 1⟩
  else if byte == 0xED then some ⟨0xD, 0x80, 0x9F, 1⟩
  else if 0xE1 ≤ byte && byte ≤ 0xEF then some ⟨byte.toNat - 0xE0, 0x80, 0xBF, 1⟩
  else if byte == 0xF0 then some ⟨0, 0x90, 0xBF, 2⟩
  else if 0xF1 ≤ byte && byte ≤ 0xF3 then some ⟨byte.toNat - 0xF0, 0x80, 0xBF, 2⟩
  else if byte == 0xF4 then some ⟨4, 0x80, 0x8F, 2⟩
  else none

def isContinuation (byte : UInt8) : Bool :=
  0x80 ≤ byte && byte ≤ 0xBF

/-- Reads the given number of continuation bytes onto the bits read so far. -/
def continueWith : Nat → Nat → List UInt8 → Option Char × List UInt8
  | 0, bits, rest => (some (Char.ofNat bits), rest)
  | _ + 1, _, [] => (none, [])
  | n + 1, bits, byte :: rest =>
      if isContinuation byte then continueWith n (bits * 64 + byte.toNat % 64) rest
      else (none, byte :: rest)

/-- The character that starts with a byte, or nothing where none does, and the bytes after it. -/
def next (first : UInt8) (rest : List UInt8) : Option Char × List UInt8 :=
  if first < 0x80 then (some (Char.ofNat first.toNat), rest)
  else
    match lead? first, rest with
    | some shape, second :: tail =>
        if shape.low ≤ second && second ≤ shape.high then
          continueWith shape.further (shape.bits * 64 + second.toNat % 64) tail
        else (none, rest)
    | _, _ => (none, rest)

theorem continueWith_length_le (n bits : Nat) (bytes : List UInt8) :
    (continueWith n bits bytes).2.length ≤ bytes.length := by
  induction n generalizing bits bytes with
  | zero => simp [continueWith]
  | succ n ih =>
      cases bytes with
      | nil => simp [continueWith]
      | cons byte rest =>
          simp only [continueWith]
          split
          · exact Nat.le_succ_of_le (ih _ _)
          · exact Nat.le_refl _

theorem next_length_le (first : UInt8) (rest : List UInt8) :
    (next first rest).2.length ≤ rest.length := by
  unfold next
  split
  · exact Nat.le_refl _
  · split
    · split
      · exact Nat.le_succ_of_le (continueWith_length_le _ _ _)
      · exact Nat.le_refl _
    · exact Nat.le_refl _

/-- Decodes every byte sequence; each prefix that starts no character counts as U+FFFD. -/
def decodeLossyChars : List UInt8 → List Char
  | [] => []
  | first :: rest =>
      (next first rest).1.getD (Char.ofNat 0xFFFD) :: decodeLossyChars (next first rest).2
termination_by bytes => bytes.length
decreasing_by exact Nat.lt_succ_of_le (next_length_le first rest)

def decodeLossy (bytes : List UInt8) : String :=
  String.ofList (decodeLossyChars bytes)

def decodeChars? : List UInt8 → Option (List Char)
  | [] => some []
  | first :: rest => do
      let c ← (next first rest).1
      let chars ← decodeChars? (next first rest).2
      return c :: chars
termination_by bytes => bytes.length
decreasing_by exact Nat.lt_succ_of_le (next_length_le first rest)

def decode? (bytes : List UInt8) : Option String :=
  (decodeChars? bytes).map String.ofList

/-! ## A lenient decoder -/

/-- The number of continuation bytes and the bits of a lead byte, by its leading ones alone. -/
def lenientLead? (byte : UInt8) : Option (Nat × Nat) :=
  let n := byte.toNat
  if n < 0x80 then some (0, n)
  else if n / 32 == 6 then some (1, n % 32)
  else if n / 16 == 14 then some (2, n % 16)
  else if n / 8 == 30 then some (3, n % 8)
  else none

def charOf? (n : Nat) : Option Char :=
  if n < 0xD800 ∨ (0xE000 ≤ n ∧ n < 0x110000) then some (Char.ofNat n) else none

/-- Reads continuation bytes; overlong forms are accepted, numbers of no character are not. -/
def lenientContinue? : Nat → Nat → List UInt8 → Option (Char × List UInt8)
  | 0, bits, rest => (charOf? bits).map (·, rest)
  | _ + 1, _, [] => none
  | n + 1, bits, byte :: rest =>
      if isContinuation byte then lenientContinue? n (bits * 64 + byte.toNat % 64) rest else none

/-- Decodes bytes with overlong forms accepted; `fuel` bounds the number of characters. -/
def decodeLenientChars? : Nat → List UInt8 → Option (List Char)
  | _, [] => some []
  | 0, _ :: _ => none
  | fuel + 1, first :: rest => do
      let (count, bits) ← lenientLead? first
      let (c, rest) ← lenientContinue? count bits rest
      let chars ← decodeLenientChars? fuel rest
      return c :: chars

def decodeLenient? (bytes : List UInt8) : Option String :=
  (decodeLenientChars? bytes.length bytes).map String.ofList

end ServerPages.Text.Utf8
