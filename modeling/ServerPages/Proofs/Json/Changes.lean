import ServerPages.Proofs.Json.Reading

/-!
# Changes that readers do not notice

Whatever a reader takes from a text, it takes as well from the text with backslashes put between
`<` and `/`, and with more text behind: the character `<` stands in strings alone, and there an
escaped `/` means a `/`. What is left is left with the same change.
-/

namespace ServerPages.Json

/-- A reader that took something took something in its first step. -/
theorem bind_eq_ok {ε α β : Type} {first : Except ε α} {next : α → Except ε β} {result : β} :
    first >>= next = .ok result ↔ ∃ value, first = .ok value ∧ next value = .ok result := by
  cases first with
  | error fault => exact ⟨nofun, nofun⟩
  | ok value => exact ⟨fun done => ⟨value, rfl, done⟩, fun ⟨_, rfl, done⟩ => done⟩

theorem readEscape_unicode {careful : Bool} (chars : List Char) :
    readEscape careful ('u' :: chars) = readUnit chars >>= fun (unit, rest) =>
      if careful then pairUnit unit rest else .ok (Char.ofNat unit, rest) := by
  rfl

theorem readStringChars_backslash {careful : Bool} (chars : List Char) :
    readStringChars careful ('\\' :: chars) = readEscape careful chars >>= fun (c, rest) =>
      readStringChars careful rest >>= fun (text, rest) => .ok (c :: text, rest) := by
  rw [readStringChars, if_neg (by decide), if_pos rfl]
  cases readEscape careful chars <;> rfl

theorem readStringChars_plain {careful : Bool} {c : Char} (quote : c ≠ '"') (backslash : c ≠ '\\')
    (printed : ¬ c.toNat < 0x20) (chars : List Char) :
    readStringChars careful (c :: chars) =
      readStringChars careful chars >>= fun (text, rest) => .ok (c :: text, rest) := by
  rw [readStringChars, if_neg quote, if_neg backslash, if_neg printed]
  rfl

theorem readValue_zero (careful : Bool) : readValue careful 0 = readWith careful none := by
  funext chars
  rw [readValue]

theorem readValue_succ (careful : Bool) (depth : Nat) :
    readValue careful (depth + 1) = readWith careful (some (readValue careful depth)) := by
  funext chars
  rw [readValue]

namespace Unnoticed

variable {change : List Char → List Char} (unnoticed : Unnoticed change)

include unnoticed

theorem length_le (chars : List Char) : chars.length ≤ (change chars).length := by
  match chars with
  | [] => exact Nat.zero_le _
  | c :: chars =>
      by_cases plain : c = '<'
      · subst plain
        rcases unnoticed.angle chars with same | ⟨tail, rfl, same⟩
        · rw [same]
          exact Nat.succ_le_succ (length_le chars)
        · have others := length_le tail
          rw [same]
          simp only [List.length_cons]
          omega
      · rw [unnoticed.cons plain]
        exact Nat.succ_le_succ (length_le chars)
termination_by chars.length

/-! ## Words and escapes -/

theorem skipSpace_of_ne_nil {chars : List Char} (more : Json.skipSpace chars ≠ []) :
    Json.skipSpace (change chars) = change (Json.skipSpace chars) := by
  induction chars with
  | nil => cases more rfl
  | cons c chars ih =>
      by_cases blank : isSpace c = true
      · have plain : c ≠ '<' := by
          rintro rfl
          cases blank
        rw [Json.skipSpace, List.dropWhile_cons_of_pos blank] at more
        rw [unnoticed.cons plain, Json.skipSpace, Json.skipSpace,
          List.dropWhile_cons_of_pos blank, List.dropWhile_cons_of_pos blank]
        exact ih more
      · obtain ⟨tail, split⟩ := unnoticed.exists_cons c chars
        rw [split, Json.skipSpace, Json.skipSpace, List.dropWhile_cons_of_neg blank,
          List.dropWhile_cons_of_neg blank, split]

theorem skipSpace_of_eq_nil {chars : List Char} (none : Json.skipSpace chars = []) :
    Json.skipSpace (change chars) = Json.skipSpace (change []) := by
  induction chars with
  | nil => rfl
  | cons c chars ih =>
      have blank : isSpace c = true := List.dropWhile_eq_nil_iff.mp none c List.mem_cons_self
      have plain : c ≠ '<' := by
        rintro rfl
        cases blank
      rw [Json.skipSpace, List.dropWhile_cons_of_pos blank] at none
      rw [unnoticed.cons plain, Json.skipSpace, List.dropWhile_cons_of_pos blank]
      exact ih none

theorem skipSpace {c : Char} {chars tail : List Char} (read : Json.skipSpace chars = c :: tail)
    (plain : c ≠ '<') : Json.skipSpace (change chars) = c :: change tail := by
  rw [unnoticed.skipSpace_of_ne_nil (by simp [read]), read, unnoticed.cons plain]

theorem readWord {word chars rest : List Char} (read : Json.readWord word chars = .ok rest)
    (plain : '<' ∉ word) : Json.readWord word (change chars) = .ok (change rest) := by
  induction word generalizing chars with
  | nil =>
      cases read
      rfl
  | cons wanted word ih =>
      obtain ⟨other, others⟩ := not_or.mp (List.mem_cons.not.mp plain)
      cases chars with
      | nil => cases read
      | cons c chars =>
          rw [Json.readWord] at read
          split at read
          · subst_vars
            rw [unnoticed.cons (Ne.symm other), Json.readWord, if_pos rfl]
            exact ih read others
          · cases read

theorem readConstant {constant value : Json} {word chars rest : List Char} (plain : '<' ∉ word)
    (read : (do return (constant, ← Json.readWord word chars)) = Except.ok (value, rest)) :
    (do return (constant, ← Json.readWord word (change chars))) =
      Except.ok (value, change rest) := by
  obtain ⟨after, known, read⟩ := bind_eq_ok.mp read
  obtain ⟨rfl, rfl⟩ := Prod.mk.inj (Except.ok.inj read)
  exact bind_eq_ok.mpr ⟨_, unnoticed.readWord known plain, rfl⟩

omit unnoticed in
theorem ne_of_hexValue? {c : Char} {n : Nat} (digit : Text.hexValue? c = some n) : c ≠ '<' := by
  rintro rfl
  have none : Text.hexValue? '<' = none := by decide
  cases none.symm.trans digit

theorem readUnit {chars rest : List Char} {unit : Nat}
    (read : Json.readUnit chars = .ok (unit, rest)) :
    Json.readUnit (change chars) = .ok (unit, change rest) := by
  unfold Json.readUnit at read
  split at read
  · rename_i a b c d tail
    cases digits : hexQuad? a b c d with
    | none => simp [digits] at read
    | some n =>
        obtain ⟨rfl, rfl⟩ : n = unit ∧ tail = rest := by simpa [digits] using read
        have each := digits
        simp only [hexQuad?, Option.bind_eq_bind, Option.bind_eq_some_iff] at each
        obtain ⟨_, first, _, second, _, third, _, fourth, -⟩ := each
        rw [unnoticed.cons (ne_of_hexValue? first), unnoticed.cons (ne_of_hexValue? second),
          unnoticed.cons (ne_of_hexValue? third), unnoticed.cons (ne_of_hexValue? fourth),
          Json.readUnit, digits]
  · split at read <;> cases read

theorem pairUnit {chars rest : List Char} {unit : Nat} {c : Char}
    (read : Json.pairUnit unit chars = .ok (c, rest)) :
    Json.pairUnit unit (change chars) = .ok (c, change rest) := by
  unfold Json.pairUnit at read ⊢
  split_ifs at read ⊢
  · obtain ⟨after, word, read⟩ := bind_eq_ok.mp read
    obtain ⟨⟨other, tail⟩, second, read⟩ := bind_eq_ok.mp read
    refine bind_eq_ok.mpr ⟨_, unnoticed.readWord word (by decide), ?_⟩
    refine bind_eq_ok.mpr ⟨_, unnoticed.readUnit second, ?_⟩
    dsimp only at read ⊢
    split_ifs at read ⊢
    obtain ⟨rfl, rfl⟩ := Prod.mk.inj (Except.ok.inj read)
    rfl
  · obtain ⟨rfl, rfl⟩ := Prod.mk.inj (Except.ok.inj read)
    rfl

theorem readEscape {careful : Bool} {chars rest : List Char} {c : Char}
    (read : Json.readEscape careful chars = .ok (c, rest)) :
    Json.readEscape careful (change chars) = .ok (c, change rest) := by
  cases chars with
  | nil => cases read
  | cons letter tail =>
      by_cases unicode : letter = 'u'
      · subst unicode
        rw [readEscape_unicode] at read
        obtain ⟨⟨unit, after⟩, known, read⟩ := bind_eq_ok.mp read
        rw [unnoticed.cons (by decide), readEscape_unicode]
        refine bind_eq_ok.mpr ⟨_, unnoticed.readUnit known, ?_⟩
        dsimp only at read ⊢
        split_ifs at read ⊢
        · exact unnoticed.pairUnit read
        · obtain ⟨rfl, rfl⟩ := Prod.mk.inj (Except.ok.inj read)
          rfl
      · have plain : letter ≠ '<' := by
          rintro rfl
          cases read
        rw [unnoticed.cons plain]
        unfold Json.readEscape at read ⊢
        simp only [if_neg unicode] at read ⊢
        split_ifs at read ⊢ <;>
        · obtain ⟨rfl, rfl⟩ := Prod.mk.inj (Except.ok.inj read)
          rfl

/-! ## Strings -/

theorem readStringChars {careful : Bool} {chars text rest : List Char}
    (read : Json.readStringChars careful chars = .ok (text, rest)) :
    Json.readStringChars careful (change chars) = .ok (text, change rest) := by
  match chars with
  | [] =>
      rw [Json.readStringChars] at read
      cases read
  | c :: chars =>
      by_cases quote : c = '"'
      · subst quote
        rw [Json.readStringChars, if_pos rfl] at read
        obtain ⟨rfl, rfl⟩ := Prod.mk.inj (Except.ok.inj read)
        rw [unnoticed.cons (by decide), Json.readStringChars, if_pos rfl]
      by_cases backslash : c = '\\'
      · subst backslash
        rw [readStringChars_backslash] at read
        obtain ⟨⟨letter, after⟩, escape, read⟩ := bind_eq_ok.mp read
        obtain ⟨⟨more, left⟩, others, read⟩ := bind_eq_ok.mp read
        obtain ⟨rfl, rfl⟩ := Prod.mk.inj (Except.ok.inj read)
        have shorter := readEscape_length_le escape
        rw [unnoticed.cons (by decide)]
        exact readStringChars_of_escape (unnoticed.readEscape escape) (readStringChars others)
      by_cases printed : c.toNat < 0x20
      · rw [Json.readStringChars, if_neg quote, if_neg backslash, if_pos printed] at read
        cases read
      rw [readStringChars_plain quote backslash printed] at read
      obtain ⟨⟨more, left⟩, others, read⟩ := bind_eq_ok.mp read
      obtain ⟨rfl, rfl⟩ := Prod.mk.inj (Except.ok.inj read)
      by_cases plain : c = '<'
      · subst plain
        rcases unnoticed.angle chars with same | ⟨tail, slash, same⟩
        · rw [same]
          exact readStringChars_of_plain quote backslash printed (readStringChars others)
        · -- The `/` that got a backslash is a character of the same string.
          have shorter : tail.length < chars.length := by simp [slash]
          rw [slash, readStringChars_plain (by decide) (by decide) (by decide)] at others
          obtain ⟨⟨behind, left⟩, later, others⟩ := bind_eq_ok.mp others
          obtain ⟨rfl, rfl⟩ := Prod.mk.inj (Except.ok.inj others)
          rw [same]
          exact readStringChars_of_plain quote backslash printed
            (readStringChars_of_escape (by simp [Json.readEscape]) (readStringChars later))
      · rw [unnoticed.cons plain]
        exact readStringChars_of_plain quote backslash printed (readStringChars others)
termination_by chars.length
decreasing_by all_goals simp only [List.length_cons]; omega

theorem readString {careful : Bool} {chars rest : List Char} {text : String}
    (read : Json.readString careful chars = .ok (text, rest)) :
    Json.readString careful (change chars) = .ok (text, change rest) := by
  obtain ⟨⟨more, left⟩, known, read⟩ := bind_eq_ok.mp read
  obtain ⟨rfl, rfl⟩ := Prod.mk.inj (Except.ok.inj read)
  exact bind_eq_ok.mpr ⟨_, unnoticed.readStringChars known, rfl⟩

/-! ## Values -/

/-- What one reader takes from a text, another takes from the changed text; the first takes nothing
from the empty text. -/
structure Follows (change : List Char → List Char) (reader follower : ValueReader) : Prop where
  nonempty {value : Json} {rest : List Char} : reader [] ≠ .ok (value, rest)
  reads {chars rest : List Char} {value : Json} : reader chars = .ok (value, rest) →
    follower (change chars) = .ok (value, change rest)

variable {careful : Bool} {reader follower : ValueReader} (follows : Follows change reader follower)

include follows

theorem readItems {fuel more : Nat} (enough : fuel ≤ more) {chars rest : List Char}
    {items : List Json} (read : Json.readItems reader fuel chars = .ok (items, rest)) :
    Json.readItems follower more (change chars) = .ok (items, change rest) := by
  induction fuel generalizing more chars items with
  | zero => cases read
  | succ fuel ih =>
      obtain ⟨more, rfl⟩ := Nat.exists_eq_add_one_of_ne_zero (Nat.ne_zero_of_lt enough)
      obtain ⟨⟨item, after⟩, first, read⟩ := bind_eq_ok.mp read
      refine bind_eq_ok.mpr ⟨_, follows.reads first, ?_⟩
      dsimp only at read ⊢
      split at read
      · rename_i mark
        obtain ⟨⟨others, left⟩, later, read⟩ := bind_eq_ok.mp read
        obtain ⟨rfl, rfl⟩ := Prod.mk.inj (Except.ok.inj read)
        rw [unnoticed.skipSpace mark (by decide)]
        exact bind_eq_ok.mpr ⟨_, ih (Nat.le_of_succ_le_succ enough) later, rfl⟩
      · rename_i mark
        obtain ⟨rfl, rfl⟩ := Prod.mk.inj (Except.ok.inj read)
        rw [unnoticed.skipSpace mark (by decide)]
        rfl
      · cases read

theorem readMember {chars rest : List Char} {entry : String × Json}
    (read : Json.readMember careful reader chars = .ok (entry, rest)) :
    Json.readMember careful follower (change chars) = .ok (entry, change rest) := by
  unfold Json.readMember at read
  split at read
  · rename_i mark
    obtain ⟨⟨key, after⟩, known, read⟩ := bind_eq_ok.mp read
    dsimp only at read
    split at read
    · rename_i colon
      obtain ⟨⟨value, left⟩, item, read⟩ := bind_eq_ok.mp read
      obtain ⟨rfl, rfl⟩ := Prod.mk.inj (Except.ok.inj read)
      rw [Json.readMember, unnoticed.skipSpace mark (by decide)]
      refine bind_eq_ok.mpr ⟨_, unnoticed.readString known, ?_⟩
      dsimp only
      rw [unnoticed.skipSpace colon (by decide)]
      exact bind_eq_ok.mpr ⟨_, follows.reads item, rfl⟩
    · cases read
  · cases read

theorem readMembers {fuel more : Nat} (enough : fuel ≤ more) {chars rest : List Char}
    {entries : List (String × Json)}
    (read : Json.readMembers careful reader fuel chars = .ok (entries, rest)) :
    Json.readMembers careful follower more (change chars) = .ok (entries, change rest) := by
  induction fuel generalizing more chars entries with
  | zero => cases read
  | succ fuel ih =>
      obtain ⟨more, rfl⟩ := Nat.exists_eq_add_one_of_ne_zero (Nat.ne_zero_of_lt enough)
      obtain ⟨⟨entry, after⟩, first, read⟩ := bind_eq_ok.mp read
      refine bind_eq_ok.mpr ⟨_, unnoticed.readMember follows first, ?_⟩
      dsimp only at read ⊢
      split at read
      · rename_i mark
        obtain ⟨⟨others, left⟩, later, read⟩ := bind_eq_ok.mp read
        obtain ⟨rfl, rfl⟩ := Prod.mk.inj (Except.ok.inj read)
        rw [unnoticed.skipSpace mark (by decide)]
        exact bind_eq_ok.mpr ⟨_, ih (Nat.le_of_succ_le_succ enough) later, rfl⟩
      · rename_i mark
        obtain ⟨rfl, rfl⟩ := Prod.mk.inj (Except.ok.inj read)
        rw [unnoticed.skipSpace mark (by decide)]
        rfl
      · cases read

theorem readArray {chars rest : List Char} {value : Json}
    (read : Json.readArray reader chars = .ok (value, rest)) :
    Json.readArray follower (change chars) = .ok (value, change rest) := by
  unfold Json.readArray at read
  split at read
  · rename_i mark
    obtain ⟨rfl, rfl⟩ := Prod.mk.inj (Except.ok.inj read)
    rw [Json.readArray, unnoticed.skipSpace mark (by decide)]
    rfl
  · rename_i start other
    obtain ⟨⟨items, left⟩, known, read⟩ := bind_eq_ok.mp read
    obtain ⟨rfl, rfl⟩ := Prod.mk.inj (Except.ok.inj read)
    have more : Json.skipSpace chars ≠ [] := fun none => by
      rw [none] at known
      obtain ⟨_, first, -⟩ := bind_eq_ok.mp known
      exact follows.nonempty first
    have enough := Nat.succ_le_succ (unnoticed.length_le (Json.skipSpace chars))
    have items := unnoticed.readItems follows enough known
    obtain ⟨c, tail, split⟩ := List.exists_cons_of_ne_nil more
    obtain ⟨after, same⟩ := unnoticed.exists_cons c tail
    rw [Json.readArray, unnoticed.skipSpace_of_ne_nil more]
    rw [split, same] at items ⊢
    split
    · rename_i closed
      cases closed
      exact absurd split (other _)
    · exact bind_eq_ok.mpr ⟨_, items, rfl⟩

theorem readObject {chars rest : List Char} {value : Json}
    (read : Json.readObject careful reader chars = .ok (value, rest)) :
    Json.readObject careful follower (change chars) = .ok (value, change rest) := by
  unfold Json.readObject at read
  split at read
  · rename_i mark
    obtain ⟨rfl, rfl⟩ := Prod.mk.inj (Except.ok.inj read)
    rw [Json.readObject, unnoticed.skipSpace mark (by decide)]
    rfl
  · rename_i start other
    obtain ⟨⟨members, left⟩, known, read⟩ := bind_eq_ok.mp read
    obtain ⟨rfl, rfl⟩ := Prod.mk.inj (Except.ok.inj read)
    have more : Json.skipSpace chars ≠ [] := fun none => by
      rw [none] at known
      obtain ⟨_, first, -⟩ := bind_eq_ok.mp known
      cases first
    have enough := Nat.succ_le_succ (unnoticed.length_le (Json.skipSpace chars))
    have members := unnoticed.readMembers follows enough known
    obtain ⟨c, tail, split⟩ := List.exists_cons_of_ne_nil more
    obtain ⟨after, same⟩ := unnoticed.exists_cons c tail
    rw [Json.readObject, unnoticed.skipSpace_of_ne_nil more]
    rw [split, same] at members ⊢
    split
    · rename_i closed
      cases closed
      exact absurd split (other _)
    · exact bind_eq_ok.mpr ⟨_, members, rfl⟩

omit follows in
theorem readWith {inner outer : Option ValueReader}
    (follows : ∀ reader ∈ inner, ∃ follower ∈ outer, Follows change reader follower) :
    Follows change (Json.readWith careful inner) (Json.readWith careful outer) where
  nonempty := nofun
  reads {chars rest value} read := by
    unfold Json.readWith at read
    split at read
    · cases read
    · rename_i c tail mark
      have plain : c ≠ '<' := by
        rintro rfl
        have solid : isDigit '<' = false := by decide
        cases inner <;> simp [solid] at read
      rw [Json.readWith, unnoticed.skipSpace mark plain]
      dsimp only
      split_ifs at read ⊢
      · exact unnoticed.readConstant (by decide) read
      · exact unnoticed.readConstant (by decide) read
      · exact unnoticed.readConstant (by decide) read
      · obtain ⟨⟨text, after⟩, known, read⟩ := bind_eq_ok.mp read
        obtain ⟨rfl, rfl⟩ := Prod.mk.inj (Except.ok.inj read)
        exact bind_eq_ok.mpr ⟨_, unnoticed.readString known, rfl⟩
      · obtain ⟨⟨n, after⟩, known, read⟩ := bind_eq_ok.mp read
        obtain ⟨rfl, rfl⟩ := Prod.mk.inj (Except.ok.inj read)
        rw [← unnoticed.cons plain]
        exact bind_eq_ok.mpr ⟨_, readNumber_change unnoticed id known, rfl⟩
      · cases inner with
        | none => cases read
        | some reader =>
            obtain ⟨follower, rfl, both⟩ := follows reader rfl
            exact unnoticed.readArray both read
      · cases inner with
        | none => cases read
        | some reader =>
            obtain ⟨follower, rfl, both⟩ := follows reader rfl
            exact unnoticed.readObject both read
      · cases inner <;> cases read

omit follows in
/-- A value is read from the changed text as it is from the text. -/
theorem readValue {depth limit : Nat} (within : depth ≤ limit) :
    Follows change (Json.readValue careful depth) (Json.readValue careful limit) := by
  induction depth generalizing limit with
  | zero =>
      have alone (outer : Option ValueReader) : ∀ reader ∈ (none : Option ValueReader),
          ∃ follower ∈ outer, Follows change reader follower := fun _ known => nomatch known
      cases limit with
      | zero =>
          rw [readValue_zero]
          exact unnoticed.readWith (alone _)
      | succ limit =>
          rw [readValue_zero, readValue_succ]
          exact unnoticed.readWith (alone _)
  | succ depth ih =>
      obtain ⟨limit, rfl⟩ := Nat.exists_eq_add_one_of_ne_zero (Nat.ne_zero_of_lt within)
      rw [readValue_succ, readValue_succ]
      refine unnoticed.readWith fun reader known => ⟨_, rfl, ?_⟩
      obtain rfl := Option.some.inj known
      exact ih (Nat.le_of_succ_le_succ within)

omit follows in
theorem skipValue {chars rest : List Char} (read : Json.skipValue chars = .ok rest) :
    Json.skipValue (change chars) = .ok (change rest) := by
  obtain ⟨⟨value, left⟩, known, read⟩ := bind_eq_ok.mp read
  obtain rfl := Except.ok.inj read
  exact bind_eq_ok.mpr ⟨_, (unnoticed.readValue (unnoticed.length_le chars)).reads known, rfl⟩

end Unnoticed

/-! ## Texts of values -/

/-- A text writes a value, in which at most the given number of arrays and objects stand in one
another. -/
def Writes (depth : Nat) (text : String) (value : Json) : Prop :=
  ∃ rest, readValue true depth text.toList = .ok (value, rest) ∧ skipSpace rest = []

/-- A text is read as the value that it writes. -/
theorem read_eq_ok_iff {text : String} {value : Json} :
    read text = .ok value ↔ Writes depthLimit text value := by
  have finish_iff (found : Json) (rest : List Char) :
      finish found rest = .ok value ↔ found = value ∧ skipSpace rest = [] := by
    unfold finish
    split_ifs with none <;> simp_all
  constructor
  · intro known
    obtain ⟨⟨found, rest⟩, start, done⟩ := bind_eq_ok.mp known
    obtain ⟨rfl, none⟩ := (finish_iff found rest).mp done
    exact ⟨rest, start, none⟩
  · rintro ⟨rest, start, none⟩
    exact bind_eq_ok.mpr ⟨_, start, (finish_iff value rest).mpr ⟨rfl, none⟩⟩

theorem Legible.writes_render {depth : Nat} {value : Json} (legible : value.Legible depth) :
    Writes depth value.render value := by
  have read := legible.reads true [] endsNumber_nil
  rw [List.append_nil] at read
  exact ⟨[], by rwa [render, String.toList_ofList], rfl⟩

theorem Writes.readsAs {depth : Nat} {text : String} {value : Json}
    (writes : Writes depth text value) : ReadsAs (readValue true depth) text.toList value := by
  obtain ⟨rest, read, none⟩ := writes
  intro behind ends
  have unnoticed := unnoticed_append ends
  refine ⟨rest ++ behind, (unnoticed.readValue (Nat.le_refl depth)).reads read, ?_⟩
  exact unnoticed.skipSpace_of_eq_nil none

/-- A text writes the same value after a change that readers do not notice. -/
theorem Writes.change {change : List Char → List Char} (unnoticed : Unnoticed change)
    (closed : change [] = []) {depth : Nat} {text : String} {value : Json}
    (writes : Writes depth text value) :
    Writes depth (String.ofList (change text.toList)) value := by
  obtain ⟨rest, read, none⟩ := writes
  refine ⟨change rest, ?_, ?_⟩
  · rw [String.toList_ofList]
    exact (unnoticed.readValue (Nat.le_refl depth)).reads read
  · rw [unnoticed.skipSpace_of_eq_nil none, closed]
    rfl

end ServerPages.Json
