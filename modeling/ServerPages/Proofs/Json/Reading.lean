import Mathlib.Data.List.Basic
import ServerPages.Proofs.Dictionary
import ServerPages.Proofs.Json.Numbers

/-!
# Reading values back

The text of a value is read as that value, whatever stands after it: its strings are, whichever
characters they hold, and its numbers are where the text of each alone is. A value that is a part
of none takes as much depth as its arrays and objects nest.
-/

namespace ServerPages

open Text Decimal

def Number.ReadsBack (n : Number) : Prop :=
  Json.readNumber true n.render.toList = .ok (n, [])

instance (n : Number) : Decidable n.ReadsBack :=
  inferInstanceAs (Decidable (_ = _))

namespace Json

/-! ## Strings -/

variable {careful : Bool} {rest : List Char}

theorem hexQuad?_hexDigit {value : Nat} (small : value < 0x20) :
    hexQuad? '0' '0' (hexDigit (value / 16)) (hexDigit (value % 16)) = some value := by
  have high := hexValue?_hexDigit (value / 16) (by omega)
  have low := hexValue?_hexDigit (value % 16) (by omega)
  have zero : hexValue? '0' = some 0 := by decide
  simp only [hexQuad?, zero, high, low, Option.bind_eq_bind, Option.bind_some, Option.pure_def,
    Option.some.injEq]
  omega

/-- The unit of a character below U+0020 stands for it. -/
theorem readEscape_unit {c : Char} (small : c.toNat < 0x20) (rest : List Char) :
    readEscape careful
      ('u' :: '0' :: '0' :: hexDigit (c.toNat / 16) :: hexDigit (c.toNat % 16) :: rest) =
        .ok (c, rest) := by
  have unit : readUnit ('0' :: '0' :: hexDigit (c.toNat / 16) :: hexDigit (c.toNat % 16) :: rest) =
      .ok (c.toNat, rest) := by
    rw [readUnit, hexQuad?_hexDigit small]
  have whole : pairUnit c.toNat rest = .ok (c, rest) := by
    have notLow : isLowSurrogate c.toNat = false := by simp [isLowSurrogate]; omega
    have notHigh : isHighSurrogate c.toNat = false := by simp [isHighSurrogate]; omega
    simp [pairUnit, notLow, notHigh]
  simp only [readEscape, unit]
  cases careful with
  | false => simp [bind, Except.bind, pure, Except.pure]
  | true => simpa [bind, Except.bind] using whole

theorem readStringChars_of_escape {c : Char} {written chars text left : List Char}
    (known : readEscape careful written = .ok (c, chars))
    (read : readStringChars careful chars = .ok (text, left)) :
    readStringChars careful ('\\' :: written) = .ok (c :: text, left) := by
  rw [readStringChars, if_neg (by decide), if_pos rfl]
  split
  · simp_all
  · rename_i result
    obtain ⟨rfl, rfl⟩ : c = _ ∧ chars = _ := by simpa [known] using result
    simp [read, bind, Except.bind, pure, Except.pure]

theorem readStringChars_of_plain {c : Char} {chars text left : List Char} (quote : c ≠ '"')
    (backslash : c ≠ '\\') (printed : ¬ c.toNat < 0x20)
    (read : readStringChars careful chars = .ok (text, left)) :
    readStringChars careful (c :: chars) = .ok (c :: text, left) := by
  rw [readStringChars, if_neg quote, if_neg backslash, if_neg printed]
  simp [read, bind, Except.bind, pure, Except.pure]

/-- The written form of a character is read as the character. -/
theorem readStringChars_escapedChar_append (c : Char) {chars text left : List Char}
    (read : readStringChars careful chars = .ok (text, left)) :
    readStringChars careful (escapedChar c ++ chars) = .ok (c :: text, left) := by
  unfold escapedChar
  split
  · exact readStringChars_of_escape (by simp_all [readEscape]) read
  split
  · exact readStringChars_of_escape (by simp_all [readEscape]) read
  split
  · exact readStringChars_of_escape (by simp_all [readEscape]) read
  split
  · exact readStringChars_of_escape (by simp_all [readEscape]) read
  split
  · exact readStringChars_of_escape (by simp_all [readEscape]) read
  split
  · exact readStringChars_of_escape (by simp_all [readEscape]) read
  split
  · exact readStringChars_of_escape (by simp_all [readEscape]) read
  split
  · exact readStringChars_of_escape (readEscape_unit ‹_› chars) read
  · exact readStringChars_of_plain ‹_› ‹_› ‹_› read

theorem readStringChars_escaped (text rest : List Char) :
    readStringChars careful (text.flatMap escapedChar ++ '"' :: rest) = .ok (text, rest) := by
  induction text with
  | nil => rw [List.flatMap_nil, List.nil_append, readStringChars, if_pos rfl]
  | cons c text ih =>
      rw [List.flatMap_cons, List.append_assoc]
      exact readStringChars_escapedChar_append c ih

/-- A written string is read back, whichever characters it holds. -/
theorem readString_escaped (text : String) (rest : List Char) :
    readString careful (text.toList.flatMap escapedChar ++ '"' :: rest) = .ok (text, rest) := by
  simp [readString, readStringChars_escaped, bind, Except.bind, pure, Except.pure]

theorem stringChars_append (text : String) (rest : List Char) :
    stringChars text ++ rest = '"' :: (text.toList.flatMap escapedChar ++ '"' :: rest) := by
  rw [stringChars, List.cons_append, List.append_assoc, List.singleton_append]

/-! ## What is asked of a value -/

mutual

/-- How many arrays and objects stand in one another, at most. -/
def depth : Json → Nat
  | .arr items => itemsDepth items + 1
  | .obj members => membersDepth members + 1
  | .null | .bool _ | .num _ | .str _ => 0

def itemsDepth : List Json → Nat
  | [] => 0
  | item :: items => max (depth item) (itemsDepth items)

def membersDepth : List (String × Json) → Nat
  | [] => 0
  | (_, value) :: members => max (depth value) (membersDepth members)

end

mutual

def numbers : Json → List Number
  | .num n => [n]
  | .arr items => itemsNumbers items
  | .obj members => membersNumbers members
  | .null | .bool _ | .str _ => []

def itemsNumbers : List Json → List Number
  | [] => []
  | item :: items => numbers item ++ itemsNumbers items

def membersNumbers : List (String × Json) → List Number
  | [] => []
  | (_, value) :: members => numbers value ++ membersNumbers members

end

mutual

/-- Every object in a value is a dictionary. -/
def Ordered : Json → Prop
  | .arr items => ItemsOrdered items
  | .obj members => Dictionary.Increasing members ∧ MembersOrdered members
  | .null | .bool _ | .num _ | .str _ => True

def ItemsOrdered : List Json → Prop
  | [] => True
  | item :: items => Ordered item ∧ ItemsOrdered items

def MembersOrdered : List (String × Json) → Prop
  | [] => True
  | (_, value) :: members => Ordered value ∧ MembersOrdered members

end

mutual

instance Ordered.decidable : (value : Json) → Decidable value.Ordered
  | .arr items => ItemsOrdered.decidable items
  | .obj members =>
      have := MembersOrdered.decidable members
      inferInstanceAs (Decidable (Dictionary.Increasing members ∧ _))
  | .null | .bool _ | .num _ | .str _ => inferInstanceAs (Decidable True)

instance ItemsOrdered.decidable : (items : List Json) → Decidable (ItemsOrdered items)
  | [] => inferInstanceAs (Decidable True)
  | item :: items =>
      have := Ordered.decidable item
      have := ItemsOrdered.decidable items
      inferInstanceAs (Decidable (Ordered item ∧ ItemsOrdered items))

instance MembersOrdered.decidable :
    (members : List (String × Json)) → Decidable (MembersOrdered members)
  | [] => inferInstanceAs (Decidable True)
  | (_, value) :: members =>
      have := Ordered.decidable value
      have := MembersOrdered.decidable members
      inferInstanceAs (Decidable (Ordered value ∧ MembersOrdered members))

end

/-! ## Values -/

theorem skipSpace_cons {c : Char} (solid : isSpace c = false) (chars : List Char) :
    skipSpace (c :: chars) = c :: chars := by
  simp [skipSpace, solid]

theorem length_itemChars (items : List Json) : items.length < (itemChars items).length := by
  induction items with
  | nil => simp [itemChars]
  | cons item items ih =>
      simp only [itemChars, List.length_cons, List.length_append]
      omega

def memberTexts (write : String × Json → List Char) : List (String × Json) → List Char
  | [] => ['\x7d']
  | entry :: members =>
      ',' :: (stringChars entry.1 ++ ':' :: (write entry ++ memberTexts write members))

theorem memberTexts_chars (members : List (String × Json)) :
    memberTexts (fun entry => entry.2.chars) members = memberChars members := by
  induction members with
  | nil => rfl
  | cons entry members ih => rw [memberTexts, memberChars, ih]

theorem length_memberTexts (write : String × Json → List Char) (members : List (String × Json)) :
    members.length < (memberTexts write members).length := by
  induction members with
  | nil => simp [memberTexts]
  | cons entry members ih =>
      simp only [memberTexts, List.length_cons, List.length_append]
      omega

theorem length_memberChars (members : List (String × Json)) :
    members.length < (memberChars members).length :=
  memberTexts_chars members ▸ length_memberTexts _ members

theorem endsNumber_itemChars (items : List Json) (rest : List Char) :
    EndsNumber (itemChars items ++ rest) := by
  cases items <;> exact endsNumber_cons (by decide) _

theorem endsNumber_memberTexts (write : String × Json → List Char) (members : List (String × Json))
    (rest : List Char) : EndsNumber (memberTexts write members ++ rest) := by
  obtain _ | ⟨entry, members⟩ := members <;> exact endsNumber_cons (by decide) _

theorem endsNumber_memberChars (members : List (String × Json)) (rest : List Char) :
    EndsNumber (memberChars members ++ rest) :=
  memberTexts_chars members ▸ endsNumber_memberTexts _ members rest

/-- Integers are read back. -/
theorem readsBack_of_binary {numbers : List Number}
    (exact : ∀ x, Number.binary x ∈ numbers → (Number.binary x).ReadsBack) :
    ∀ n ∈ numbers, n.ReadsBack := by
  intro n member
  cases n with
  | integer n => exact readNumber_signedDecimal n
  | binary x => exact exact x member

theorem ne_of_isDigit {c other : Char} (digit : isDigit c = true) (none : isDigit other = false) :
    c ≠ other := by
  rintro rfl
  simp_all

/-- A number's text starts with a sign or a digit. -/
theorem exists_toList_render {n : Number} (exact : n.ReadsBack) :
    ∃ c tail, n.render.toList = c :: tail ∧ (c = '-' ∨ isDigit c = true) ∧ isSpace c = false ∧
      ∀ mark, isDigit mark = false → mark ≠ '-' → c ≠ mark := by
  obtain ⟨c, tail, split, start⟩ := exists_cons_of_readNumber exact
  have apart (mark : Char) (none : isDigit mark = false) (other : mark ≠ '-') : c ≠ mark := by
    rcases start with rfl | digit
    · exact other.symm
    · exact ne_of_isDigit digit none
  refine ⟨c, tail, split, start, ?_, apart⟩
  simp [isSpace, apart ' ' (by decide) (by decide), apart '\n' (by decide) (by decide),
    apart '\t' (by decide) (by decide), apart '\r' (by decide) (by decide)]

/-- A value's text starts with a mark of its kind. -/
theorem exists_chars_eq_cons (value : Json) (exact : ∀ n ∈ value.numbers, n.ReadsBack) :
    ∃ c tail, value.chars = c :: tail ∧ isSpace c = false ∧ c ≠ ']' := by
  cases value with
  | null => exact ⟨_, _, rfl, by decide, by decide⟩
  | bool b => cases b <;> exact ⟨_, _, rfl, by decide, by decide⟩
  | str text => exact ⟨_, _, rfl, by decide, by decide⟩
  | arr items => cases items <;> exact ⟨_, _, rfl, by decide, by decide⟩
  | obj members =>
      obtain _ | ⟨entry, members⟩ := members <;> exact ⟨_, _, rfl, by decide, by decide⟩
  | num n =>
      obtain ⟨c, tail, split, -, solid, apart⟩ :=
        exists_toList_render (exact n (by simp [numbers]))
      exact ⟨c, tail, split, solid, apart ']' (by decide) (by decide)⟩

variable {inner : Option ValueReader}

theorem readWith_num {n : Number} (exact : n.ReadsBack) (ends : EndsNumber rest) :
    readWith careful inner (n.render.toList ++ rest) = .ok (.num n, rest) := by
  have read : readNumber careful (n.render.toList ++ rest) = .ok (n, rest) :=
    readNumber_change (unnoticed_append ends) (fun _ => rfl) exact
  obtain ⟨c, tail, split, start, solid, apart⟩ := exists_toList_render exact
  rw [split, List.cons_append] at read ⊢
  simp [readWith, skipSpace_cons solid, apart 'n' (by decide) (by decide),
    apart 't' (by decide) (by decide), apart 'f' (by decide) (by decide),
    apart '"' (by decide) (by decide), start, read, bind, Except.bind, pure, Except.pure]

theorem readWith_str (text : String) (rest : List Char) :
    readWith careful inner (stringChars text ++ rest) = .ok (.str text, rest) := by
  rw [stringChars_append, readWith, skipSpace_cons (by decide)]
  simp [readString_escaped, bind, Except.bind, pure, Except.pure]

/-- A value without parts is read at any depth. -/
theorem readWith_of_depth_eq_zero {value : Json} (scalar : value.depth = 0)
    (exact : ∀ n ∈ value.numbers, n.ReadsBack) (ends : EndsNumber rest) :
    readWith careful inner (value.chars ++ rest) = .ok (value, rest) := by
  cases value with
  | null => rfl
  | bool b => cases b <;> rfl
  | num n => exact readWith_num (exact n List.mem_cons_self) ends
  | str text => exact readWith_str text rest
  | arr items | obj members => cases scalar

theorem readWith_arr (value : ValueReader) (chars : List Char) :
    readWith careful (some value) ('[' :: chars) = readArray value chars := by
  rfl

theorem readWith_obj (value : ValueReader) (chars : List Char) :
    readWith careful (some value) ('\x7b' :: chars) = readObject careful value chars := by
  rfl

theorem readArray_of_ne {value : ValueReader} {c : Char} (solid : isSpace c = false)
    (item : c ≠ ']') (chars : List Char) :
    readArray value (c :: chars) = (do
      let (items, rest) ← readItems value (chars.length + 2) (c :: chars)
      return (.arr items, rest)) := by
  rw [readArray, skipSpace_cons solid]
  split
  · simp_all
  · rfl

theorem readObject_of_quote {value : ValueReader} (chars : List Char) :
    readObject careful value ('"' :: chars) = (do
      let (members, rest) ← readMembers careful value (chars.length + 2) ('"' :: chars)
      return (ofMembers members, rest)) := by
  rfl

/-- A reader takes a value from its text, whatever stands after it. -/
def Reads (reader : ValueReader) (value : Json) : Prop :=
  ∀ rest, EndsNumber rest → reader (value.chars ++ rest) = .ok (value, rest)

/-- A reader takes a value from a text, whatever stands after it; of that it leaves all but
blanks. -/
def ReadsAs (reader : ValueReader) (text : List Char) (value : Json) : Prop :=
  ∀ rest, EndsNumber rest →
    ∃ left, reader (text ++ rest) = .ok (value, left) ∧ skipSpace left = skipSpace rest

variable {reader : ValueReader}

theorem Reads.readsAs {value : Json} (reads : Reads reader value) :
    ReadsAs reader value.chars value :=
  fun rest ends => ⟨rest, reads rest ends, rfl⟩

theorem readMember_chars {item : Json} {chars rest : List Char}
    (read : reader chars = .ok (item, rest)) (key : String) :
    readMember careful reader (stringChars key ++ ':' :: chars) = .ok ((key, item), rest) := by
  rw [stringChars_append, readMember, skipSpace_cons (by decide)]
  simp [readString_escaped, skipSpace_cons, isSpace, read, bind, Except.bind, pure, Except.pure]

/-- The items of an array are read from the first. -/
theorem readItems_chars {item : Json} {items : List Json}
    (reads : ∀ other ∈ item :: items, Reads reader other) {fuel : Nat}
    (enough : items.length < fuel) (rest : List Char) :
    readItems reader fuel (item.chars ++ (itemChars items ++ rest)) =
      .ok (item :: items, rest) := by
  induction items generalizing item fuel with
  | nil =>
      obtain ⟨fuel, rfl⟩ := Nat.exists_eq_add_one_of_ne_zero (Nat.ne_zero_of_lt enough)
      rw [readItems, reads item List.mem_cons_self _ (endsNumber_itemChars [] rest)]
      rfl
  | cons next items ih =>
      obtain ⟨fuel, rfl⟩ := Nat.exists_eq_add_one_of_ne_zero (Nat.ne_zero_of_lt enough)
      have others := ih (fun other member => reads other (List.mem_cons_of_mem _ member))
        (Nat.lt_of_succ_lt_succ enough)
      rw [readItems, reads item List.mem_cons_self _ (endsNumber_itemChars (next :: items) rest)]
      simp [itemChars, skipSpace_cons, isSpace, others, bind, Except.bind, pure, Except.pure]

section

variable {write : String × Json → List Char} {entry : String × Json}
  {members : List (String × Json)}
  (reads : ∀ other ∈ entry :: members, ReadsAs reader (write other) other.2)

include reads

/-- The members of an object are read from the first. -/
theorem readMembers_texts {fuel : Nat} (enough : members.length < fuel) (rest : List Char) :
    readMembers careful reader fuel
        (stringChars entry.1 ++ ':' :: (write entry ++ (memberTexts write members ++ rest))) =
      .ok (entry :: members, rest) := by
  induction members generalizing entry fuel with
  | nil =>
      obtain ⟨fuel, rfl⟩ := Nat.exists_eq_add_one_of_ne_zero (Nat.ne_zero_of_lt enough)
      obtain ⟨left, first, same⟩ :=
        reads entry List.mem_cons_self _ (endsNumber_memberTexts write [] rest)
      rw [readMembers, readMember_chars first]
      simp [same, memberTexts, skipSpace_cons, isSpace, bind, Except.bind, pure, Except.pure]
  | cons next members ih =>
      obtain ⟨fuel, rfl⟩ := Nat.exists_eq_add_one_of_ne_zero (Nat.ne_zero_of_lt enough)
      obtain ⟨left, first, same⟩ := reads entry List.mem_cons_self _
        (endsNumber_memberTexts write (next :: members) rest)
      have others := ih (fun other member => reads other (List.mem_cons_of_mem _ member))
        (Nat.lt_of_succ_lt_succ enough)
      rw [readMembers, readMember_chars first]
      simp [same, memberTexts, skipSpace_cons, isSpace, others, bind, Except.bind, pure,
        Except.pure]

/-- The members of an object may stand in its text in any order. -/
theorem readWith_texts (rest : List Char) :
    readWith careful (some reader) ('\x7b' :: (stringChars entry.1 ++
        ':' :: (write entry ++ (memberTexts write members ++ rest)))) =
      .ok (ofMembers (entry :: members), rest) := by
  have enough : members.length < (entry.1.toList.flatMap escapedChar ++
      '"' :: ':' :: (write entry ++ (memberTexts write members ++ rest))).length + 2 := by
    have := length_memberTexts write members
    simp only [List.length_append, List.length_cons]
    omega
  have read : readMembers careful reader _ _ = .ok (entry :: members, rest) :=
    readMembers_texts reads enough rest
  rw [stringChars_append] at read
  rw [readWith_obj, stringChars_append, readObject_of_quote, read]
  rfl

end

theorem mem_itemsNumbers {item : Json} {items : List Json} (member : item ∈ items) {n : Number}
    (inside : n ∈ item.numbers) : n ∈ itemsNumbers items := by
  induction member with
  | head => exact List.mem_append_left _ inside
  | tail _ _ ih => exact List.mem_append_right _ ih

theorem reads_arr {items : List Json} (exact : ∀ item ∈ items, ∀ n ∈ item.numbers, n.ReadsBack)
    (reads : ∀ item ∈ items, Reads reader item) :
    Reads (readWith careful (some reader)) (.arr items) := by
  intro rest _
  cases items with
  | nil => rfl
  | cons item items =>
      obtain ⟨c, tail, split, solid, start⟩ :=
        exists_chars_eq_cons item (exact item List.mem_cons_self)
      have enough : items.length < (tail ++ (itemChars items ++ rest)).length + 2 := by
        have := length_itemChars items
        simp only [List.length_append]
        omega
      have read := readItems_chars reads enough rest
      rw [split, List.cons_append] at read
      rw [chars, List.cons_append, readWith_arr, List.append_assoc, split, List.cons_append,
        readArray_of_ne solid start, read]
      rfl

theorem readWith_chars_obj {members : List (String × Json)}
    (reads : ∀ entry ∈ members, Reads reader entry.2) (rest : List Char) :
    readWith careful (some reader) ((Json.obj members).chars ++ rest) =
      .ok (ofMembers members, rest) := by
  match members with
  | [] => rfl
  | (key, value) :: members =>
      rw [chars, List.cons_append, List.append_assoc, List.cons_append, List.append_assoc,
        ← memberTexts_chars]
      exact readWith_texts (fun entry member => (reads entry member).readsAs) rest

mutual

/-- A value is read back from its text, whatever stands after it. -/
theorem reads_chars (value : Json) (ordered : value.Ordered)
    (exact : ∀ n ∈ value.numbers, n.ReadsBack) {depth : Nat} (fits : value.depth ≤ depth) :
    Reads (readValue careful depth) value := by
  match depth, value with
  | 0, value => exact fun _ => readWith_of_depth_eq_zero (Nat.le_zero.mp fits) exact
  | depth + 1, .null | depth + 1, .bool _ | depth + 1, .num _ | depth + 1, .str _ =>
      exact fun _ => readWith_of_depth_eq_zero rfl exact
  | depth + 1, .arr items =>
      exact reads_arr (fun item member n inside => exact n (mem_itemsNumbers member inside))
        (reads_items items ordered exact (Nat.le_of_succ_le_succ fits))
  | depth + 1, .obj members =>
      intro rest _
      have read : readWith careful _ _ = .ok (ofMembers members, rest) := readWith_chars_obj
        (reads_members members ordered.2 exact (Nat.le_of_succ_le_succ fits)) rest
      rwa [ofMembers, Dictionary.ofPairs_eq_self ordered.1] at read

theorem reads_items (items : List Json) (ordered : ItemsOrdered items)
    (exact : ∀ n ∈ itemsNumbers items, n.ReadsBack) {depth : Nat}
    (fits : itemsDepth items ≤ depth) :
    ∀ item ∈ items, Reads (readValue careful depth) item := by
  match items with
  | [] => exact fun _ member => absurd member List.not_mem_nil
  | item :: items =>
      have first := reads_chars item ordered.1
        (fun n member => exact n (List.mem_append_left _ member)) (Nat.max_le.mp fits).1
      have others := reads_items items ordered.2
        (fun n member => exact n (List.mem_append_right _ member)) (Nat.max_le.mp fits).2
      exact List.forall_mem_cons.mpr ⟨first, others⟩

theorem reads_members (members : List (String × Json)) (ordered : MembersOrdered members)
    (exact : ∀ n ∈ membersNumbers members, n.ReadsBack) {depth : Nat}
    (fits : membersDepth members ≤ depth) :
    ∀ entry ∈ members, Reads (readValue careful depth) entry.2 := by
  match members with
  | [] => exact fun _ member => absurd member List.not_mem_nil
  | (_, value) :: members =>
      have first := reads_chars value ordered.1
        (fun n member => exact n (List.mem_append_left _ member)) (Nat.max_le.mp fits).1
      have others := reads_members members ordered.2
        (fun n member => exact n (List.mem_append_right _ member)) (Nat.max_le.mp fits).2
      exact List.forall_mem_cons.mpr ⟨first, others⟩

end

/-- Values that are read back from their text by a reader of a depth. -/
structure Legible (depth : Nat) (value : Json) : Prop where
  ordered : value.Ordered
  exact : ∀ n ∈ value.numbers, n.ReadsBack
  fits : value.depth ≤ depth

namespace Legible

variable {depth : Nat}

theorem reads {value : Json} (legible : value.Legible depth) (careful : Bool) :
    Reads (readValue careful depth) value :=
  reads_chars value legible.ordered legible.exact legible.fits

theorem of_items {item : Json} {items : List Json}
    (legible : (Json.arr (item :: items)).Legible (depth + 1)) :
    item.Legible depth ∧ (Json.arr items).Legible (depth + 1) := by
  obtain ⟨⟨first, others⟩, exact, fits⟩ := legible
  obtain ⟨fitsFirst, fitsOthers⟩ := Nat.max_le.mp (Nat.le_of_succ_le_succ fits)
  exact ⟨⟨first, fun n member => exact n (List.mem_append_left _ member), fitsFirst⟩,
    others, fun n member => exact n (List.mem_append_right _ member), Nat.succ_le_succ fitsOthers⟩

theorem of_mem_items {items : List Json} (legible : (Json.arr items).Legible (depth + 1))
    {item : Json} (member : item ∈ items) : item.Legible depth := by
  induction member with
  | head => exact legible.of_items.1
  | tail _ _ ih => exact ih legible.of_items.2

theorem of_mem_members {members : List (String × Json)}
    (legible : (Json.obj members).Legible (depth + 1)) {entry : String × Json}
    (member : entry ∈ members) : entry.2.Legible depth := by
  obtain ⟨⟨-, ordered⟩, exact, fits⟩ := legible
  replace fits := Nat.le_of_succ_le_succ fits
  change ∀ n ∈ membersNumbers members, n.ReadsBack at exact
  induction members with
  | nil => cases member
  | cons first members ih =>
      obtain ⟨key, value⟩ := first
      obtain ⟨fitsFirst, fitsOthers⟩ := Nat.max_le.mp fits
      cases member with
      | head =>
          exact ⟨ordered.1, fun n inside => exact n (List.mem_append_left _ inside), fitsFirst⟩
      | tail _ later =>
          exact ih later ordered.2 fitsOthers fun n inside =>
            exact n (List.mem_append_right _ inside)

end Legible

/-! ## Passing over values -/

mutual

theorem depth_le_length_chars (value : Json) : value.depth ≤ value.chars.length := by
  match value with
  | .null | .bool _ | .num _ | .str _ => exact Nat.zero_le _
  | .arr [] | .obj [] => exact Nat.le_succ 1
  | .arr (item :: items) =>
      have first := depth_le_length_chars item
      have others := itemsDepth_le_length_itemChars items
      simp only [depth, itemsDepth, chars, List.length_cons, List.length_append]
      omega
  | .obj ((key, value) :: members) =>
      have first := depth_le_length_chars value
      have others := membersDepth_le_length_memberChars members
      simp only [depth, membersDepth, chars, List.length_cons, List.length_append]
      omega

theorem itemsDepth_le_length_itemChars (items : List Json) :
    itemsDepth items ≤ (itemChars items).length := by
  match items with
  | [] => exact Nat.zero_le _
  | item :: items =>
      have first := depth_le_length_chars item
      have others := itemsDepth_le_length_itemChars items
      simp only [itemsDepth, itemChars, List.length_cons, List.length_append]
      omega

theorem membersDepth_le_length_memberChars (members : List (String × Json)) :
    membersDepth members ≤ (memberChars members).length := by
  match members with
  | [] => exact Nat.zero_le _
  | (key, value) :: members =>
      have first := depth_le_length_chars value
      have others := membersDepth_le_length_memberChars members
      simp only [membersDepth, memberChars, List.length_cons, List.length_append]
      omega

end

/-- A value is passed over whatever its depth. -/
theorem skipValue_chars {depth : Nat} {value : Json} (legible : value.Legible depth)
    {rest : List Char} (ends : EndsNumber rest) : skipValue (value.chars ++ rest) = .ok rest := by
  have fits : value.depth ≤ (value.chars ++ rest).length := by
    have := depth_le_length_chars value
    rw [List.length_append]
    omega
  rw [skipValue, reads_chars value legible.ordered legible.exact fits rest ends]
  rfl

/-! ## Texts -/

theorem read_of_reads {text : String} {value : Json}
    (reads : readValue true depthLimit (text.toList ++ []) = .ok (value, [])) :
    read text = .ok value := by
  rw [List.append_nil] at reads
  rw [read, reads]
  rfl

/-- A value is read back from its text. -/
theorem read_render {value : Json} (ordered : value.Ordered)
    (exact : ∀ n ∈ value.numbers, n.ReadsBack) (fits : value.depth ≤ depthLimit) :
    read value.render = .ok value :=
  read_of_reads (by
    rw [render, String.toList_ofList]
    exact reads_chars value ordered exact fits [] endsNumber_nil)

/-- The text of an object is read as the dictionary that its members make. -/
theorem read_render_obj {members : List (String × Json)} (ordered : MembersOrdered members)
    (exact : ∀ n ∈ membersNumbers members, n.ReadsBack)
    (fits : membersDepth members < depthLimit) :
    read (Json.obj members).render = .ok (ofMembers members) :=
  read_of_reads (by
    rw [render, String.toList_ofList]
    exact readWith_chars_obj (reads_members members ordered exact (Nat.le_of_lt_succ fits)) [])

end Json

end ServerPages
