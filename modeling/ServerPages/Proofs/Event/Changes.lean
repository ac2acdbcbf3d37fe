import ServerPages.Proofs.Event.Agreement
import ServerPages.Proofs.Json.Changes

/-!
# Descriptors in changed texts

A text is read as the same descriptor after a change that readers do not notice. Keys and texts are
strings, so they may hold a `<`; the marks around them are other characters.
-/

namespace ServerPages.Descriptor

open Json

variable {change : List Char → List Char} (unnoticed : Unnoticed change)

include unnoticed

theorem readOptionalText_change {chars rest : List Char} {text : Option String}
    (read : readOptionalText chars = .ok (text, rest)) :
    readOptionalText (change chars) = .ok (text, change rest) := by
  unfold readOptionalText at read
  split at read
  · rename_i mark
    obtain ⟨after, word, read⟩ := bind_eq_ok.mp read
    obtain ⟨rfl, rfl⟩ := Prod.mk.inj (Except.ok.inj read)
    rw [readOptionalText, unnoticed.skipSpace mark (by decide)]
    exact bind_eq_ok.mpr ⟨_, unnoticed.readWord word (by decide), rfl⟩
  · rename_i mark
    obtain ⟨⟨found, after⟩, known, read⟩ := bind_eq_ok.mp read
    obtain ⟨rfl, rfl⟩ := Prod.mk.inj (Except.ok.inj read)
    rw [readOptionalText, unnoticed.skipSpace mark (by decide)]
    exact bind_eq_ok.mpr ⟨_, unnoticed.readString known, rfl⟩
  · cases read

theorem readArgs_change {chars rest : List Char} {args : List Json}
    (read : readArgs chars = .ok (args, rest)) :
    readArgs (change chars) = .ok (args, change rest) := by
  unfold readArgs at read
  split at read
  · rename_i mark
    obtain ⟨⟨value, after⟩, known, read⟩ := bind_eq_ok.mp read
    have follows : Unnoticed.Follows change (readValue true (depthLimit - 2)) _ :=
      unnoticed.readValue (Nat.le_refl _)
    rw [readArgs, unnoticed.skipSpace mark (by decide)]
    refine bind_eq_ok.mpr ⟨_, unnoticed.readArray follows known, ?_⟩
    cases value <;> cases read <;> rfl
  · cases read

theorem afterColon_change {chars rest : List Char} (read : afterColon chars = .ok rest) :
    afterColon (change chars) = .ok (change rest) := by
  unfold afterColon at read
  split at read
  · rename_i mark
    cases read
    rw [afterColon, unnoticed.skipSpace mark (by decide)]
    rfl
  · cases read

/-! ## Objects -/

theorem readMemberText_change {seen known : List String} {target result : Descriptor}
    {chars rest : List Char} (read : readMemberText seen target chars = .ok (known, result, rest)) :
    readMemberText seen target (change chars) = .ok (known, result, change rest) := by
  unfold readMemberText at read
  split at read
  · obtain ⟨⟨key, after⟩, name, read⟩ := bind_eq_ok.mp read
    rw [unnoticed.cons (by decide), readMemberText]
    refine bind_eq_ok.mpr ⟨_, unnoticed.readString name, ?_⟩
    dsimp only at read ⊢
    split_ifs at read ⊢
    · obtain ⟨colon, behind, read⟩ := bind_eq_ok.mp read
      obtain ⟨⟨args, left⟩, found, read⟩ := bind_eq_ok.mp read
      cases read
      refine bind_eq_ok.mpr ⟨_, afterColon_change unnoticed behind, ?_⟩
      exact bind_eq_ok.mpr ⟨_, readArgs_change unnoticed found, rfl⟩
    · split at read
      · obtain ⟨colon, behind, read⟩ := bind_eq_ok.mp read
        obtain ⟨⟨text, left⟩, found, read⟩ := bind_eq_ok.mp read
        cases read
        refine bind_eq_ok.mpr ⟨_, afterColon_change unnoticed behind, ?_⟩
        exact bind_eq_ok.mpr ⟨_, readOptionalText_change unnoticed found, rfl⟩
      · obtain ⟨colon, behind, read⟩ := bind_eq_ok.mp read
        obtain ⟨left, found, read⟩ := bind_eq_ok.mp read
        cases read
        refine bind_eq_ok.mpr ⟨_, afterColon_change unnoticed behind, ?_⟩
        exact bind_eq_ok.mpr ⟨_, unnoticed.skipValue found, rfl⟩
  · cases read

theorem readMembersText_change {fuel more : Nat} (enough : fuel ≤ more) {seen : List String}
    {target result : Descriptor} {chars rest : List Char}
    (read : readMembersText fuel seen target chars = .ok (result, rest)) :
    readMembersText more seen target (change chars) = .ok (result, change rest) := by
  induction fuel generalizing more seen target chars with
  | zero => cases read
  | succ fuel ih =>
      obtain ⟨more, rfl⟩ := Nat.exists_eq_add_one_of_ne_zero (Nat.ne_zero_of_lt enough)
      obtain ⟨⟨known, next, after⟩, first, read⟩ := bind_eq_ok.mp read
      refine bind_eq_ok.mpr ⟨_, readMemberText_change unnoticed first, ?_⟩
      dsimp only at read ⊢
      split at read
      · rename_i tail mark
        have later : skipSpace tail ≠ [] := fun none => by
          rw [none] at read
          cases fuel <;> cases read
        rw [unnoticed.skipSpace mark (by decide)]
        change readMembersText more known next (skipSpace (change tail)) = _
        rw [unnoticed.skipSpace_of_ne_nil later]
        exact ih (Nat.le_of_succ_le_succ enough) read
      · rename_i mark
        cases read
        rw [unnoticed.skipSpace mark (by decide)]
        rfl
      · cases read

/-! ## Arrays -/

theorem readEnd_change {chars rest : List Char} (read : readEnd chars = .ok rest) :
    readEnd (change chars) = .ok (change rest) := by
  unfold readEnd at read
  split at read
  · rename_i mark
    cases read
    rw [readEnd, unnoticed.skipSpace mark (by decide)]
    rfl
  · cases read
  · cases read

section

variable {first : Bool} {parts : List Part} {target result : Descriptor} {chars rest : List Char}

omit unnoticed in
theorem exists_cons_of_readFrom (item : ∀ tail, chars ≠ ']' :: tail)
    (read : readFrom parts target chars = .ok (result, rest)) :
    ∃ c tail, chars = c :: tail ∧ c ≠ ']' ∧ c ≠ '<' := by
  cases chars with
  | nil => cases parts <;> cases read
  | cons c tail =>
      refine ⟨c, tail, rfl, fun closed => item tail (by rw [closed]), ?_⟩
      rintro rfl
      cases parts <;> cases read

omit unnoticed in
/-- The items of an array that is read are at an end, or the next one starts. -/
theorem exists_of_readItemsText
    (read : readItemsText first parts target chars = .ok (result, rest)) :
    (skipSpace chars = ']' :: rest ∧ result = target) ∨
      ∃ c tail, StartsItem first chars c tail ∧ c ≠ '<' ∧
        readFrom parts target (c :: tail) = .ok (result, rest) := by
  rw [readItemsText] at read
  split at read
  · rename_i closed
    cases read
    exact .inl ⟨closed, rfl⟩
  · rename_i other
    refine .inr ?_
    cases first with
    | true =>
        obtain ⟨c, tail, split, item, plain⟩ := exists_cons_of_readFrom other read
        exact ⟨c, tail, ⟨split, item⟩, plain, split ▸ read⟩
    | false =>
        rw [if_neg Bool.false_ne_true] at read
        split at read
        · split at read
          · cases read
          · cases read
          · rename_i later
            obtain ⟨c, tail, split, item, plain⟩ := exists_cons_of_readFrom later read
            exact ⟨c, tail, ⟨⟨_, ‹_›, split⟩, item⟩, plain, split ▸ read⟩
        · cases read

theorem startsItem_change {c : Char} {tail : List Char} (starts : StartsItem first chars c tail)
    (plain : c ≠ '<') : StartsItem first (change chars) c (change tail) := by
  obtain ⟨start, item⟩ := starts
  refine ⟨?_, item⟩
  cases first with
  | true => exact unnoticed.skipSpace start plain
  | false =>
      obtain ⟨behind, mark, start⟩ := start
      exact ⟨_, unnoticed.skipSpace mark (by decide), unnoticed.skipSpace start plain⟩

theorem readItemsText_of_readFrom
    (items : ∀ {chars}, readFrom parts target chars = .ok (result, rest) →
      readFrom parts target (change chars) = .ok (result, change rest))
    (read : readItemsText first parts target chars = .ok (result, rest)) :
    readItemsText first parts target (change chars) = .ok (result, change rest) := by
  rcases exists_of_readItemsText read with ⟨closed, rfl⟩ | ⟨c, tail, starts, plain, read⟩
  · rw [readItemsText, unnoticed.skipSpace closed (by decide)]
    rfl
  · rw [(startsItem_change unnoticed starts plain).readItemsText_eq, ← unnoticed.cons plain]
    exact items read

theorem readFrom_change (read : readFrom parts target chars = .ok (result, rest)) :
    readFrom parts target (change chars) = .ok (result, change rest) := by
  induction parts generalizing target chars with
  | nil =>
      obtain ⟨⟨args, after⟩, found, read⟩ := bind_eq_ok.mp read
      obtain ⟨left, closed, read⟩ := bind_eq_ok.mp read
      cases read
      refine bind_eq_ok.mpr ⟨_, readArgs_change unnoticed found, ?_⟩
      exact bind_eq_ok.mpr ⟨_, readEnd_change unnoticed closed, rfl⟩
  | cons part parts ih =>
      obtain ⟨⟨text, after⟩, found, read⟩ := bind_eq_ok.mp read
      refine bind_eq_ok.mpr ⟨_, readOptionalText_change unnoticed found, ?_⟩
      exact readItemsText_of_readFrom unnoticed ih read

end

/-! ## Whole texts -/

omit unnoticed in
theorem read_of_brace {text : String} {chars : List Char}
    (brace : skipSpace text.toList = '\x7b' :: chars) :
    read text = match skipSpace chars with
      | '\x7d' :: rest => finish blank rest
      | rest => readMembersText (rest.length + 1) [] blank rest >>=
          fun (descriptor, rest) => finish descriptor rest := by
  rw [read, brace]
  rfl

omit unnoticed in
theorem read_of_bracket {text : String} {chars : List Char}
    (bracket : skipSpace text.toList = '[' :: chars) :
    read text = readItemsText true Part.all blank chars >>=
      fun (descriptor, rest) => finish descriptor rest := by
  rw [read, bracket]
  rfl

omit unnoticed in
/-- The text of a descriptor is an object or an array. -/
theorem exists_of_read {text : String} {descriptor : Descriptor}
    (known : read text = .ok descriptor) : ∃ c chars, skipSpace text.toList = c :: chars ∧
      (c = '\x7b' ∨ c = '[') := by
  unfold read at known
  split at known
  · exact ⟨_, _, ‹_›, .inl rfl⟩
  · exact ⟨_, _, ‹_›, .inr rfl⟩
  · cases known

theorem finish_change (closed : change [] = []) {rest : List Char} {found descriptor : Descriptor}
    (done : finish found rest = .ok descriptor) : finish found (change rest) = .ok descriptor := by
  unfold finish at done ⊢
  split_ifs at done with none
  rw [unnoticed.skipSpace_of_eq_nil (List.isEmpty_iff.mp none), closed]
  exact done

/-- A text is read as the same descriptor after a change that readers do not notice. -/
theorem read_change (closed : change [] = []) {text : String} {descriptor : Descriptor}
    (known : read text = .ok descriptor) :
    read (String.ofList (change text.toList)) = .ok descriptor := by
  have skipped {c : Char} {chars : List Char} (start : skipSpace text.toList = c :: chars)
      (plain : c ≠ '<') :
      skipSpace (String.ofList (change text.toList)).toList = c :: change chars := by
    rw [String.toList_ofList]
    exact unnoticed.skipSpace start plain
  obtain ⟨c, members, start, rfl | rfl⟩ := exists_of_read known
  · rw [read_of_brace start] at known
    rw [read_of_brace (skipped start (by decide))]
    split at known
    · rename_i mark
      rw [unnoticed.skipSpace mark (by decide)]
      exact finish_change unnoticed closed known
    · rename_i open_
      obtain ⟨⟨found, rest⟩, start, done⟩ := bind_eq_ok.mp known
      have more : skipSpace members ≠ [] := fun none => by
        rw [none] at start
        cases start
      have enough := Nat.succ_le_succ (unnoticed.length_le (skipSpace members))
      have others := readMembersText_change unnoticed enough start
      obtain ⟨c, tail, split⟩ := List.exists_cons_of_ne_nil more
      obtain ⟨after, same⟩ := unnoticed.exists_cons c tail
      rw [unnoticed.skipSpace_of_ne_nil more]
      rw [split, same] at others ⊢
      split
      · rename_i mark
        cases mark
        exact absurd split (open_ _)
      · exact bind_eq_ok.mpr ⟨_, others, finish_change unnoticed closed done⟩
  · rw [read_of_bracket start] at known
    rw [read_of_bracket (skipped start (by decide))]
    obtain ⟨⟨found, rest⟩, items, done⟩ := bind_eq_ok.mp known
    have others := readItemsText_of_readFrom unnoticed (readFrom_change unnoticed) items
    exact bind_eq_ok.mpr ⟨_, others, finish_change unnoticed closed done⟩

end ServerPages.Descriptor
