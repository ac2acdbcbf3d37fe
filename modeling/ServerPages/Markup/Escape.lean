/-!
# Character references in written markup

Five characters are written as references, in text and in attribute values
alike, so that no value can end the quotes or start a tag.
-/

namespace ServerPages.Markup

def escapedChar (c : Char) : List Char :=
  if c = '&' then ['&', 'a', 'm', 'p', ';']
  else if c = '<' then ['&', 'l', 't', ';']
  else if c = '>' then ['&', 'g', 't', ';']
  else if c = '"' then ['&', 'q', 'u', 'o', 't', ';']
  else if c = '\'' then ['&', '#', '3', '9', ';']
  else [c]

def escapeChars (chars : List Char) : List Char :=
  chars.flatMap escapedChar

def escape (text : String) : String :=
  String.ofList (escapeChars text.toList)

theorem escapedChar_ne_nil (c : Char) : escapedChar c ≠ [] := by
  unfold escapedChar
  repeat' split
  all_goals simp

/-- No written form holds a character that opens or closes a tag or ends a value. -/
theorem not_mem_escapedChar {mark : Char} (h : mark = '<' ∨ mark = '>' ∨ mark = '"' ∨ mark = '\'')
    (c : Char) : mark ∉ escapedChar c := by
  unfold escapedChar
  rcases h with h | h | h | h <;> subst h <;> repeat' split
  all_goals simp_all [eq_comm]

theorem not_mem_escapeChars {mark : Char} (h : mark = '<' ∨ mark = '>' ∨ mark = '"' ∨ mark = '\'')
    (chars : List Char) : mark ∉ escapeChars chars := by
  simp only [escapeChars, List.mem_flatMap, not_exists, not_and]
  exact fun c _ => not_mem_escapedChar h c

end ServerPages.Markup
