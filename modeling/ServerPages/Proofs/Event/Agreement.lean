import ServerPages.Proofs.Event.Wire

/-!
# Descriptors in forms and in JSON bodies

A form carries a descriptor as text, a JSON body carries it as a value. The text of a value is read
as the descriptor that the value stands for, and refused where the value stands for none: both
readers take over the same parts in the same order, and give up at the same one.
-/

namespace ServerPages

open Json

/-- The result of a step and of what goes on from it. -/
theorem toOption_bind {ε α β : Type} (first : Except ε α) (next : α → Except ε β) :
    (first >>= next).toOption = first.toOption.bind fun value => (next value).toOption := by
  cases first <;> rfl

namespace Descriptor

/-! ## Parts -/

/-- A value is read as a part that is a text, or refused, the same as its text. -/
theorem toOption_readOptionalText (value : Json) (exact : ∀ n ∈ value.numbers, n.ReadsBack)
    (rest : List Char) : (readOptionalText (value.chars ++ rest)).toOption =
      (asOptional asText value).toOption.map (·, rest) := by
  cases value with
  | null => rfl
  | bool b => cases b <;> rfl
  | str text =>
      rw [chars, readOptionalText_chars]
      rfl
  | arr items => cases items <;> rfl
  | obj members => obtain _ | ⟨entry, members⟩ := members <;> rfl
  | num n =>
      obtain ⟨c, tail, split, -, solid, apart⟩ :=
        Json.exists_toList_render (exact n List.mem_cons_self)
      have null := apart 'n' (by decide) (by decide)
      have quote := apart '"' (by decide) (by decide)
      rw [chars, split, List.cons_append, readOptionalText, skipSpace_cons solid]
      split <;> simp_all [asOptional, asText, Except.toOption, Except.map]

/-- Likewise for the arguments. -/
theorem toOption_readArgs {value : Json} (legible : value.Legible (depthLimit - 1))
    {rest : List Char} (ends : EndsNumber rest) :
    (readArgs (value.chars ++ rest)).toOption = (asItems value).toOption.map (·, rest) := by
  cases value with
  | null => rfl
  | bool b => cases b <;> rfl
  | str text =>
      rw [chars, stringChars_append]
      rfl
  | arr items =>
      have reads : ∀ item ∈ items, Reads (readValue true (depthLimit - 2)) item :=
        fun item member => (legible.of_mem_items member).reads true
      have exact : ∀ item ∈ items, ∀ n ∈ item.numbers, n.ReadsBack :=
        fun item member => (legible.of_mem_items member).exact
      rw [readArgs_chars (reads_arr exact reads) ends]
      rfl
  | obj members => obtain _ | ⟨entry, members⟩ := members <;> rfl
  | num n =>
      obtain ⟨c, tail, split, -, solid, apart⟩ :=
        Json.exists_toList_render (legible.exact n List.mem_cons_self)
      have bracket := apart '[' (by decide) (by decide)
      rw [chars, split, List.cons_append, readArgs, skipSpace_cons solid]
      split <;> simp_all [asItems, Except.toOption]

/-! ## Objects -/

/-- A member is taken over, or refused, the same as its text; of the keys that were seen it adds its
own at most. -/
theorem toOption_readMemberText (entry : String × Json)
    (legible : entry.2.Legible (depthLimit - 1)) {seen : List String} (fresh : entry.1 ∉ seen)
    (target : Descriptor) {rest : List Char} (ends : EndsNumber rest) :
    ∃ known, (∀ key ∈ known, key = entry.1 ∨ key ∈ seen) ∧
      (readMemberText seen target
          (stringChars entry.1 ++ ':' :: (entry.2.chars ++ rest))).toOption =
        (readMemberValue target entry).toOption.map fun result => (known, result, rest) := by
  obtain ⟨key, value⟩ := entry
  have added : ∀ other ∈ key :: seen, other = key ∨ other ∈ seen :=
    fun other => List.mem_cons.mp
  rw [readMemberText_key fresh]
  by_cases isArgs : key = argsKey
  · refine ⟨key :: seen, added, ?_⟩
    rw [readMemberValue, if_pos isArgs, if_pos isArgs, toOption_bind, toOption_bind,
      toOption_readArgs legible ends]
    cases asItems value <;> rfl
  · rw [readMemberValue, if_neg isArgs, if_neg isArgs]
    cases Part.ofKey? key with
    | none =>
        refine ⟨seen, fun other => .inr, ?_⟩
        rw [skipValue_chars legible ends]
        rfl
    | some part =>
        refine ⟨key :: seen, added, ?_⟩
        dsimp only
        rw [toOption_bind, toOption_bind, toOption_readOptionalText value legible.exact]
        cases asOptional asText value <;> rfl

/-- The members of an object are taken over, or refused, the same as their text. -/
theorem toOption_readMembersText {entry : String × Json} {entries : List (String × Json)}
    (legible : ∀ other ∈ entry :: entries, other.2.Legible (depthLimit - 1))
    (distinct : (Dictionary.keys (entry :: entries)).Nodup) {seen : List String}
    (fresh : ∀ key ∈ Dictionary.keys (entry :: entries), key ∉ seen) {fuel : Nat}
    (enough : entries.length < fuel) (target : Descriptor) (rest : List Char) :
    (readMembersText fuel seen target
        (stringChars entry.1 ++ ':' :: (entry.2.chars ++ (memberChars entries ++ rest)))).toOption =
      ((entry :: entries).foldlM readMemberValue target).toOption.map (·, rest) := by
  obtain ⟨known, few, first⟩ := toOption_readMemberText entry (legible entry List.mem_cons_self)
    (fresh entry.1 List.mem_cons_self) target (endsNumber_memberChars entries rest)
  obtain ⟨fuel, rfl⟩ := Nat.exists_eq_add_one_of_ne_zero (Nat.ne_zero_of_lt enough)
  rw [readMembersText, toOption_bind, first, List.foldlM_cons, toOption_bind]
  cases readMemberValue target entry with
  | error message => rfl
  | ok result =>
      cases entries with
      | nil => rfl
      | cons next entries =>
          obtain ⟨new, apart⟩ := List.nodup_cons.mp distinct
          have unseen : ∀ key ∈ Dictionary.keys (next :: entries), key ∉ known := by
            intro key member inside
            rcases few key inside with rfl | old
            · exact new member
            · exact fresh key (.tail _ member) old
          have others := toOption_readMembersText
            (fun other member => legible other (.tail _ member)) apart unseen
            (Nat.lt_of_succ_lt_succ enough) result rest
          rw [stringChars_append] at others
          simpa [memberChars, skipSpace_cons, isSpace, stringChars_append, Except.toOption]
            using others

/-! ## Arrays -/

def readFrom (parts : List Part) (target : Descriptor) (start : List Char) :
    Except Fault (Descriptor × List Char) :=
  match parts with
  | part :: parts => do
      let (text, rest) ← readOptionalText start
      readItemsText false parts (part.set text target) rest
  | [] => do
      let (args, rest) ← readArgs start
      let rest ← readEnd rest
      return ({ target with args }, rest)

/-- Where an item starts: behind a comma, but for the first. -/
structure StartsItem (first : Bool) (chars : List Char) (c : Char) (tail : List Char) : Prop where
  start : if first then skipSpace chars = c :: tail
    else ∃ behind, skipSpace chars = ',' :: behind ∧ skipSpace behind = c :: tail
  item : c ≠ ']'

theorem StartsItem.readItemsText_eq {first : Bool} {chars : List Char} {c : Char}
    {tail : List Char} (starts : StartsItem first chars c tail) (parts : List Part)
    (target : Descriptor) :
    readItemsText first parts target chars = readFrom parts target (c :: tail) := by
  obtain ⟨start, item⟩ := starts
  rw [readItemsText]
  cases first with
  | true =>
      rw [if_pos rfl] at start
      rw [start]
      split
      · simp_all
      · rfl
  | false =>
      obtain ⟨behind, mark, start⟩ := (if_neg Bool.false_ne_true).mp start
      rw [mark]
      split
      · simp_all
      · rw [if_neg Bool.false_ne_true]
        split
        · rename_i same
          obtain rfl := (List.cons.inj same).2
          rw [start]
          split
          · simp_all
          · simp_all
          · rfl
        · simp_all

/-- The items of an array are taken over in order, or refused, the same as their text. -/
theorem toOption_readFrom {item : Json} {items : List Json}
    (legible : (Json.arr (item :: items)).Legible depthLimit) (parts : List Part)
    (target : Descriptor) (length : Nat) (rest : List Char) :
    (readFrom parts target (item.chars ++ (itemChars items ++ rest))).toOption =
      (readItemValues length parts (item :: items) target).toOption.map (·, rest) := by
  obtain ⟨here, others⟩ := legible.of_items
  cases parts with
  | nil =>
      rw [readFrom, readItemValues, toOption_bind, toOption_bind,
        toOption_readArgs here (endsNumber_itemChars items rest)]
      cases asItems item with
      | error message => rfl
      | ok args => cases items <;> rfl
  | cons part parts =>
      rw [readFrom, readItemValues, toOption_bind, toOption_bind,
        toOption_readOptionalText item here.exact]
      cases asOptional asText item with
      | error message => rfl
      | ok text =>
          cases items with
          | nil =>
              cases parts <;> rfl
          | cons next items =>
              obtain ⟨c, tail, split, solid, start⟩ :=
                exists_chars_eq_cons next others.of_items.1.exact
              have later := toOption_readFrom others parts (part.set text target) length rest
              rw [split] at later
              have starts :
                  StartsItem false (',' :: c :: (tail ++ (itemChars items ++ rest))) c _ :=
                ⟨⟨_, rfl, skipSpace_cons solid _⟩, start⟩
              simpa [itemChars, split, starts.readItemsText_eq, Except.toOption] using later

/-! ## Whole texts -/

theorem exists_solid (value : Json) (exact : ∀ n ∈ value.numbers, n.ReadsBack) :
    ∃ c ∈ value.chars, Text.isBlank c = false := by
  cases value with
  | null => exact ⟨'n', List.mem_cons_self, by decide⟩
  | bool b => cases b <;> exact ⟨'e', by decide, by decide⟩
  | str text => exact ⟨'"', List.mem_cons_self, by decide⟩
  | arr items => cases items <;> exact ⟨'[', List.mem_cons_self, by decide⟩
  | obj members =>
      obtain _ | ⟨entry, members⟩ := members <;> exact ⟨'\x7b', List.mem_cons_self, by decide⟩
  | num n =>
      obtain ⟨c, tail, split, start, -⟩ := Json.exists_toList_render (exact n List.mem_cons_self)
      refine ⟨c, by rw [chars, split]; exact List.mem_cons_self, ?_⟩
      rcases start with rfl | digit
      · decide
      · exact Text.isBlank_eq_false_of_digit digit

theorem toOption_finish {α : Type} {result : Except Fault (α × List Char)} {found : Option α}
    (known : result.toOption = found.map (·, [])) :
    (result >>= fun (value, rest) => finish value rest).toOption = found := by
  rw [toOption_bind, known]
  cases found <;> rfl

/-- A value that is no text stands for a descriptor just where its text is read as one. -/
theorem toOption_read_render {value : Json} (legible : value.Legible depthLimit)
    (noText : value.text? = none) (present : value.isNull = false) :
    (read value.render).toOption = (ofJson value).toOption := by
  rw [read, Json.render, String.toList_ofList]
  cases value with
  | null => cases present
  | str text => cases noText
  | bool b => cases b <;> rfl
  | num n =>
      obtain ⟨c, tail, split, -, solid, apart⟩ :=
        Json.exists_toList_render (legible.exact n List.mem_cons_self)
      have bracket := apart '[' (by decide) (by decide)
      have brace := apart '\x7b' (by decide) (by decide)
      rw [chars, split, skipSpace_cons solid]
      split <;> simp_all [ofJson, Except.toOption, bind, Except.bind]
  | arr items =>
      cases items with
      | nil => rfl
      | cons item items =>
          obtain ⟨c, tail, split, solid, start⟩ :=
            exists_chars_eq_cons item legible.of_items.1.exact
          have known := toOption_readFrom legible Part.all blank (item :: items).length []
          rw [split, List.append_nil, List.cons_append] at known
          rw [chars, split, List.cons_append]
          change (readItemsText true Part.all blank (c :: (tail ++ itemChars items)) >>=
            fun parsed => finish parsed.1 parsed.2).toOption = _
          have starts : StartsItem true (c :: (tail ++ itemChars items)) c _ :=
            ⟨skipSpace_cons solid _, start⟩
          rw [starts.readItemsText_eq]
          exact toOption_finish known
  | obj members =>
      cases members with
      | nil => rfl
      | cons entry members =>
          have distinct : (Dictionary.keys (entry :: members)).Nodup :=
            legible.ordered.1.nodup_keys
          have enough : members.length < (stringChars entry.1 ++
              ':' :: (entry.2.chars ++ (memberChars members ++ []))).length + 1 := by
            have := length_memberChars members
            simp only [List.length_append, List.length_cons]
            omega
          have known := toOption_readMembersText (fun other member => legible.of_mem_members member)
            distinct (fun _ _ => List.not_mem_nil) enough blank []
          rw [List.append_nil] at known
          exact toOption_finish known

/-! ## Fields -/

/-- The text of a value that is neither a text nor null carries the same event in a form field as
the value itself does in a JSON body, and none where that carries none: its arrays and objects nest
at most 127 deep, and its floating point numbers are read back from their texts. -/
theorem ofField_render_eq_ok_iff (value : Json) (ordered : value.Ordered)
    (exact : ∀ x, .binary x ∈ value.numbers → (Number.binary x).ReadsBack)
    (fits : value.depth ≤ 127) (noText : value.text? = none) (present : value.isNull = false)
    (event : Option Descriptor) :
    ofField (.str value.render) = .ok event ↔ ofField value = .ok event := by
  have legible : value.Legible depthLimit := ⟨ordered, readsBack_of_binary exact, fits⟩
  have agree := toOption_read_render legible noText present
  obtain ⟨c, member, solid⟩ := exists_solid value legible.exact
  have shown : ¬ (Text.trim value.render).isEmpty = true := fun empty => by
    have blank := Text.isBlank_of_trim_isEmpty empty c
    rw [Json.render, String.toList_ofList] at blank
    simp [blank member] at solid
  have textual : ofField (.str value.render) = .ok event ↔
      (read value.render).toOption.map some = some event := by
    rw [ofField, if_neg shown]
    cases read value.render <;> simp [Except.toOption]
  have direct : ofField value = .ok event ↔
      (ofJson value).toOption.map some = some event := by
    cases value with
    | null => cases present
    | str text => cases noText
    | bool _ | num _ | arr _ | obj _ =>
        simp only [ofField]
        cases ofJson _ <;> simp [Except.toOption]
  rw [textual, direct, agree]

/-- An array in place of the object, with arguments of each kind. -/
theorem ofField_render_positional :
    let half : Number := .binary ⟨false, 0x18000000000000, 1022, by decide⟩
    let args : List Json := [.num half, .obj [("a", .arr [.null, .bool true]), ("b", .str "</")]]
    let value : Json := .arr [.str "click", .str "mark", .null, .null, .str "p", .str "save",
      .arr args]
    (value.Ordered ∧ half.ReadsBack ∧ value.numbers = [half] ∧ value.depth = 4) ∧
      ofField (.str value.render) =
        .ok (some ((click "mark" "save" args).withUpdatePanel "p")) := by
  intro half args value
  have exact : half.ReadsBack := by decide +kernel
  have ordered : value.Ordered := by decide
  have numbers : value.numbers = [half] := rfl
  refine ⟨⟨ordered, exact, numbers, rfl⟩, ?_⟩
  refine (ofField_render_eq_ok_iff value ordered ?_ (by decide) rfl rfl _).mpr rfl
  intro x member
  rw [numbers, List.mem_singleton] at member
  exact member ▸ exact

end Descriptor

end ServerPages
