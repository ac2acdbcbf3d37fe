import ServerPages.Markup.Escape

/-!
# Reading written characters back

What the five references stand for, and that nothing is lost in writing them.
-/

namespace ServerPages.Markup

def unescapeChars : List Char → List Char
  | '&' :: 'a' :: 'm' :: 'p' :: ';' :: rest => '&' :: unescapeChars rest
  | '&' :: 'l' :: 't' :: ';' :: rest => '<' :: unescapeChars rest
  | '&' :: 'g' :: 't' :: ';' :: rest => '>' :: unescapeChars rest
  | '&' :: 'q' :: 'u' :: 'o' :: 't' :: ';' :: rest => '"' :: unescapeChars rest
  | '&' :: '#' :: '3' :: '9' :: ';' :: rest => '\'' :: unescapeChars rest
  | c :: rest => c :: unescapeChars rest
  | [] => []

def unescape (text : String) : String :=
  String.ofList (unescapeChars text.toList)

/-- Other characters than the five are written as they are. -/
theorem escapeChars_eq_self {chars : List Char}
    (plain : ∀ c ∈ chars, c ∉ ['&', '<', '>', '"', '\'']) : escapeChars chars = chars := by
  induction chars with
  | nil => rfl
  | cons c chars ih =>
      have other := plain c List.mem_cons_self
      simp only [List.mem_cons, List.not_mem_nil, or_false, not_or] at other
      have here : escapedChar c = [c] := by simp [escapedChar, other]
      rw [escapeChars, List.flatMap_cons, here, ← escapeChars,
        ih fun later member => plain later (List.mem_cons_of_mem _ member), List.singleton_append]

theorem unescapeChars_cons {c : Char} (plain : c ≠ '&') (rest : List Char) :
    unescapeChars (c :: rest) = c :: unescapeChars rest := by
  rw [unescapeChars] <;> simp [plain]

/-- The written form of a character is read as the character, whatever follows it. -/
theorem unescapeChars_escapedChar_append (c : Char) (rest : List Char) :
    unescapeChars (escapedChar c ++ rest) = c :: unescapeChars rest := by
  unfold escapedChar
  split
  · rename_i same
    rw [same]
    rfl
  · rename_i plain
    iterate 4
      split
      · rename_i same
        rw [same]
        rfl
    exact unescapeChars_cons plain rest

theorem unescapeChars_escapeChars (chars : List Char) :
    unescapeChars (escapeChars chars) = chars := by
  induction chars with
  | nil => rfl
  | cons c rest ih =>
      rw [escapeChars, List.flatMap_cons, unescapeChars_escapedChar_append]
      exact congrArg (c :: ·) ih

theorem unescape_escape (text : String) : unescape (escape text) = text := by
  rw [unescape, escape, String.toList_ofList, unescapeChars_escapeChars, String.ofList_toList]

end ServerPages.Markup
