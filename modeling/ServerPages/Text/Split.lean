/-!
# Splitting at a character

The parts of a text between occurrences of a separator: one more than there are
separators. Parts without the separator are found again after they are joined.
-/

namespace ServerPages.Text

def splitAt (separator : Char) : List Char → List (List Char)
  | [] => [[]]
  | c :: rest =>
      if c = separator then [] :: splitAt separator rest
      else
        match splitAt separator rest with
        | [] => [[c]]
        | part :: parts => (c :: part) :: parts

def joinWith (separator : Char) : List (List Char) → List Char
  | [] => []
  | [part] => part
  | part :: next :: parts => part ++ separator :: joinWith separator (next :: parts)

theorem splitAt_ne_nil (separator : Char) (chars : List Char) : splitAt separator chars ≠ [] := by
  cases chars with
  | nil => simp [splitAt]
  | cons c rest =>
      simp only [splitAt]
      split
      · simp
      · split <;> simp

theorem splitAt_of_not_mem {separator : Char} {part : List Char} (absent : separator ∉ part) :
    splitAt separator part = [part] := by
  induction part with
  | nil => rfl
  | cons c part ih =>
      rw [List.mem_cons, not_or] at absent
      simp [splitAt, Ne.symm absent.1, ih absent.2]

theorem splitAt_append {separator : Char} {part : List Char} (absent : separator ∉ part)
    (rest : List Char) :
    splitAt separator (part ++ separator :: rest) = part :: splitAt separator rest := by
  induction part with
  | nil => simp [splitAt]
  | cons c part ih =>
      rw [List.mem_cons, not_or] at absent
      simp [splitAt, Ne.symm absent.1, ih absent.2]

theorem splitAt_joinWith {separator : Char} {parts : List (List Char)} (present : parts ≠ [])
    (absent : ∀ part ∈ parts, separator ∉ part) :
    splitAt separator (joinWith separator parts) = parts := by
  induction parts with
  | nil => exact absurd rfl present
  | cons part parts ih =>
      obtain ⟨first, others⟩ := List.forall_mem_cons.mp absent
      cases parts with
      | nil => exact splitAt_of_not_mem first
      | cons next parts =>
          rw [joinWith, splitAt_append first, ih (List.cons_ne_nil _ _) others]

/-- The text before the first separator and the text after it, if there is one. -/
def splitOnce (separator : Char) : List Char → List Char × Option (List Char)
  | [] => ([], none)
  | c :: rest =>
      if c = separator then ([], some rest)
      else
        let (before, after) := splitOnce separator rest
        (c :: before, after)

theorem splitOnce_append {separator : Char} {before : List Char} (absent : separator ∉ before)
    (rest : List Char) :
    splitOnce separator (before ++ separator :: rest) = (before, some rest) := by
  induction before with
  | nil => simp [splitOnce]
  | cons c before ih =>
      rw [List.mem_cons, not_or] at absent
      simp [splitOnce, Ne.symm absent.1, ih absent.2]

/-- Whether a list of characters starts with another; the rest after it. -/
def afterStart? : List Char → List Char → Option (List Char)
  | [], rest => some rest
  | _ :: _, [] => none
  | wanted :: start, c :: rest => if c = wanted then afterStart? start rest else none

theorem afterStart?_eq_some {start chars rest : List Char} :
    afterStart? start chars = some rest ↔ chars = start ++ rest := by
  induction start generalizing chars with
  | nil => simp [afterStart?, eq_comm]
  | cons wanted start ih =>
      cases chars with
      | nil => simp [afterStart?]
      | cons c chars =>
          simp only [afterStart?, List.cons_append, List.cons.injEq]
          by_cases same : c = wanted <;> simp [same, ih]

end ServerPages.Text
