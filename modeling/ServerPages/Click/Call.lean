import ServerPages.Text.Blank
import ServerPages.Text.Split

/-!
# Server calls in click expressions

A server call is the word `server`, a point, a name, blanks, and a parenthesis
with everything up to the next closing one. The calls of an expression are found
from left to right; the text between them is kept as it stands. Calls are found
by their letters alone: a word that merely ends in `server` starts one too, and
the arguments end at the first closing parenthesis.
-/

namespace ServerPages.Click

open Text

/-- A call of a server method with its arguments as they are written. -/
structure Call where
  method : String
  arguments : String
  deriving DecidableEq, Repr

def isNameStart (c : Char) : Bool :=
  ('a' ≤ c && c ≤ 'z') || ('A' ≤ c && c ≤ 'Z') || c == '_' || c == '$'

def isNamePart (c : Char) : Bool :=
  isNameStart c || ('0' ≤ c && c ≤ '9')

def receiver : List Char := ['s', 'e', 'r', 'v', 'e', 'r', '.']

def parenthesis? : List Char → Option (List Char × List Char)
  | '(' :: rest =>
      match splitOnce ')' rest with
      | (arguments, some rest) => some (arguments, rest)
      | (_, none) => none
  | _ => none

/-- The call that a text starts with, and the text after it. -/
def callAt? (chars : List Char) : Option (Call × List Char) := do
  let rest ← afterStart? receiver chars
  let name := rest.takeWhile isNamePart
  let first ← name.head?
  if isNameStart first then
    let (arguments, rest) ← parenthesis? (dropBlank (rest.dropWhile isNamePart))
    return (⟨String.ofList name, String.ofList arguments⟩, rest)
  else none

/-- A piece of an expression: a character that belongs to no call, or a call. -/
inductive Piece
  | char (c : Char)
  | call (call : Call)
  deriving DecidableEq, Repr

theorem splitOnce_length {separator : Char} {chars before after : List Char}
    (h : splitOnce separator chars = (before, some after)) : after.length < chars.length := by
  induction chars generalizing before with
  | nil => simp [splitOnce] at h
  | cons c rest ih =>
      simp only [splitOnce] at h
      split at h
      · simp only [Prod.mk.injEq, Option.some.injEq] at h
        simp [h.2]
      · simp only [Prod.mk.injEq] at h
        exact Nat.lt_succ_of_lt (@ih (splitOnce separator rest).1 (by rw [← h.2]))

theorem parenthesis?_length {chars arguments rest : List Char}
    (h : parenthesis? chars = some (arguments, rest)) : rest.length < chars.length := by
  unfold parenthesis? at h
  split at h
  · split at h
    · rename_i found
      simp only [Option.some.injEq, Prod.mk.injEq] at h
      rw [← h.2]
      exact Nat.lt_succ_of_lt (splitOnce_length found)
    · simp at h
  · simp at h

theorem length_dropWhile_le (p : Char → Bool) (chars : List Char) :
    (chars.dropWhile p).length ≤ chars.length :=
  (List.dropWhile_sublist p).length_le

theorem callAt?_length {chars rest : List Char} {call : Call}
    (h : callAt? chars = some (call, rest)) : rest.length < chars.length := by
  simp only [callAt?, Option.bind_eq_bind, Option.bind_eq_some_iff] at h
  obtain ⟨after, started, first, _, h⟩ := h
  split at h
  · simp only [Option.bind_eq_some_iff, Prod.exists] at h
    obtain ⟨arguments, tail, found, same⟩ := h
    simp only [pure, Option.some.injEq, Prod.mk.injEq] at same
    rw [← same.2]
    have ended := parenthesis?_length found
    have blank := length_dropWhile_le isBlank (after.dropWhile isNamePart)
    have named := length_dropWhile_le isNamePart after
    have start := congrArg List.length (afterStart?_eq_some.1 started)
    simp only [dropBlank] at ended
    simp only [List.length_append] at start
    omega
  · simp at h

/-- The pieces of an expression, the calls found from left to right. -/
def pieces (chars : List Char) : List Piece :=
  match chars with
  | [] => []
  | c :: rest =>
      match _h : callAt? (c :: rest) with
      | some (call, after) => .call call :: pieces after
      | none => .char c :: pieces rest
termination_by chars.length
decreasing_by
  · exact callAt?_length _h
  · exact Nat.lt_succ_self _

def calls (parts : List Piece) : List Call :=
  parts.filterMap fun
    | .call call => some call
    | .char _ => none

/-- The text of pieces with the n-th call replaced by the text given for it, counted from
`start`. -/
def replaceFrom (replacement : Nat → Call → String) : Nat → List Piece → List Char
  | _, [] => []
  | start, .char c :: rest => c :: replaceFrom replacement start rest
  | start, .call call :: rest =>
      (replacement start call).toList ++ replaceFrom replacement (start + 1) rest

def replaceCalls (expression : String) (replacement : Nat → Call → String) : String :=
  String.ofList (replaceFrom replacement 0 (pieces expression.toList))

end ServerPages.Click
