import ServerPages.Text.Ascii
import ServerPages.Text.Split
import ServerPages.Text.Utf8

/-!
# Character references

A reference names a character, by a word or by its number, between an ampersand
and a semicolon. Some words may go without the semicolon; in attribute values
they then count only where no letter, digit or equals sign follows. An ampersand
that starts no reference stands for itself.
-/

namespace ServerPages.Markup

open Text

/-- The words that name a character, the semicolon included where it is required or given. -/
def characterNames : List (List Char × Char) :=
  [("amp;".toList, '&'), ("amp".toList, '&'), ("AMP;".toList, '&'), ("AMP".toList, '&'),
   ("lt;".toList, '<'), ("lt".toList, '<'), ("LT;".toList, '<'), ("LT".toList, '<'),
   ("gt;".toList, '>'), ("gt".toList, '>'), ("GT;".toList, '>'), ("GT".toList, '>'),
   ("quot;".toList, '"'), ("quot".toList, '"'), ("QUOT;".toList, '"'), ("QUOT".toList, '"'),
   ("apos;".toList, '\''), ("nbsp;".toList, '\u00A0'), ("nbsp".toList, '\u00A0'),
   ("copy;".toList, '\u00A9'), ("copy".toList, '\u00A9'), ("reg;".toList, '\u00AE'),
   ("reg".toList, '\u00AE'), ("not;".toList, '\u00AC'), ("not".toList, '\u00AC'),
   ("eacute;".toList, '\u00E9'), ("eacute".toList, '\u00E9'), ("euro;".toList, '\u20AC'),
   ("hellip;".toList, '\u2026'), ("mdash;".toList, '\u2014')]

def isAlphanumeric (c : Char) : Bool :=
  c.isAlphanum

/-- The longest word that a text starts with: whether it ends in a semicolon, the character it
names, and the text after it. -/
def namedAt? (chars : List Char) : Option (Bool × Char × List Char) :=
  characterNames.findSome? fun (word, c) =>
    (afterStart? word chars).map (word.getLast? == some ';', c, ·)

/-- The characters that the numbers from 128 to 159 stand for; numbers left out stand for
themselves. -/
def windowsCharacters : List (Nat × Nat) :=
  [(0x80, 0x20AC), (0x82, 0x201A), (0x83, 0x0192), (0x84, 0x201E), (0x85, 0x2026), (0x86, 0x2020),
   (0x87, 0x2021), (0x88, 0x02C6), (0x89, 0x2030), (0x8A, 0x0160), (0x8B, 0x2039), (0x8C, 0x0152),
   (0x8E, 0x017D), (0x91, 0x2018), (0x92, 0x2019), (0x93, 0x201C), (0x94, 0x201D), (0x95, 0x2022),
   (0x96, 0x2013), (0x97, 0x2014), (0x98, 0x02DC), (0x99, 0x2122), (0x9A, 0x0161), (0x9B, 0x203A),
   (0x9C, 0x0153), (0x9E, 0x017E), (0x9F, 0x0178)]

def replacement : Char := '\uFFFD'

def characterOf (n : Nat) : Char :=
  if n = 0 then replacement
  else
    match windowsCharacters.find? (·.1 = n) with
    | some (_, m) => Char.ofNat m
    | none => (Utf8.charOf? n).getD replacement

def numberOf (base : Nat) (digits : List Char) : Nat :=
  digits.foldl (fun total c => total * base + (hexValue? c).getD 0) 0

def numberedAt? (chars : List Char) : Option (Char × List Char) :=
  let (base, isOfBase, chars) :=
    match chars with
    | 'x' :: rest | 'X' :: rest => (16, fun c => (hexValue? c).isSome, rest)
    | _ => (10, fun c => (digitValue? c).isSome, chars)
  let digits := chars.takeWhile isOfBase
  let rest := chars.dropWhile isOfBase
  if digits.isEmpty then none
  else
    let rest := match rest with
      | ';' :: rest => rest
      | _ => rest
    some (characterOf (numberOf base digits), rest)

/-- Whether a text goes on with a character that keeps an unclosed word in a value from counting. -/
def runsOn : List Char → Bool
  | c :: _ => c == '=' || isAlphanumeric c
  | [] => false

/-- The character that the text after an ampersand gives, and the text after the reference. -/
def referenceAt (inValue : Bool) (chars : List Char) : Char × List Char :=
  match chars with
  | '#' :: rest => (numberedAt? rest).getD ('&', chars)
  | _ =>
      match namedAt? chars with
      | none => ('&', chars)
      | some (closed, c, rest) =>
          if inValue && !closed && runsOn rest then ('&', chars) else (c, rest)

theorem referenceAt_length_le (inValue : Bool) (chars : List Char) :
    (referenceAt inValue chars).2.length ≤ chars.length := by
  unfold referenceAt
  split
  · rename_i rest
    cases found : numberedAt? rest with
    | none => simp
    | some result =>
        simp only [Option.getD_some, List.length_cons]
        unfold numberedAt? at found
        split at found
        rename_i base isOfBase chars' shape
        have shorter : chars'.length ≤ rest.length := by
          split at shape
          · simp only [Prod.mk.injEq] at shape; simp [← shape.2.2]
          · simp only [Prod.mk.injEq] at shape; simp [← shape.2.2]
          · simp only [Prod.mk.injEq] at shape; simp [← shape.2.2]
        have dropped := (List.dropWhile_sublist isOfBase (l := chars')).length_le
        simp only at found
        split at found
        · simp at found
        · simp only [Option.some.injEq] at found
          rw [← found]
          split
          · rename_i after same
            have : (chars'.dropWhile isOfBase).length = after.length + 1 := by simp [same]
            simp only
            omega
          · simp only
            omega
  · split
    · simp
    · rename_i closed c rest found
      have : rest.length ≤ chars.length := by
        simp only [namedAt?, List.findSome?_eq_some_iff, Option.map_eq_some_iff] at found
        obtain ⟨_, _, _, _, ⟨tail, started, same⟩, _⟩ := found
        simp only [Prod.mk.injEq] at same
        rw [afterStart?_eq_some.1 started, ← same.2.2]
        simp
      split
      · simp
      · exact this

def resolve (inValue : Bool) (chars : List Char) : List Char :=
  match chars with
  | [] => []
  | c :: rest =>
      if c = '&' then
        (referenceAt inValue rest).1 :: resolve inValue (referenceAt inValue rest).2
      else c :: resolve inValue rest
termination_by chars.length
decreasing_by
  · exact Nat.lt_succ_of_le (referenceAt_length_le inValue rest)
  · exact Nat.lt_succ_self _

end ServerPages.Markup
