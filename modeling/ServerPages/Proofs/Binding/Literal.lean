import ServerPages.Proofs.Binding.Delimited
import ServerPages.Proofs.Binding.Marks
import ServerPages.Proofs.Event.Changes

/-!
# The descriptors in a script

A descriptor in a script is the text of an object whose last member is spliced in: its arguments
are those of the click expression, as they stand there. Where they write the items of an array, the
whole is read as the descriptor of the call, and is so still with its closing tags broken up.
-/

namespace ServerPages

open Json

theorem ClientCode.unnoticed_escapeClosing : Unnoticed escapeClosing where
  nil := endsNumber_nil
  cons {c} plain chars := escapeClosing_cons fun ⟨same, _⟩ => plain same
  angle chars := by
    by_cases slash : chars.head? = some '/'
    · obtain ⟨tail, rfl⟩ := List.head?_eq_some_iff.mp slash
      exact .inr ⟨tail, rfl, rfl⟩
    · exact .inl (escapeClosing_cons fun ⟨_, same⟩ => slash same)

namespace Json

/-! ## A member at the end -/

variable {write other : String × Json → List Char}

theorem memberTexts_congr {members : List (String × Json)}
    (same : ∀ entry ∈ members, write entry = other entry) :
    memberTexts write members = memberTexts other members := by
  induction members with
  | nil => rfl
  | cons entry members ih =>
      rw [memberTexts, memberTexts, same entry List.mem_cons_self,
        ih fun next member => same next (.tail _ member)]

theorem memberTexts_ne_nil (members : List (String × Json)) : memberTexts write members ≠ [] := by
  cases members <;> simp [memberTexts]

/-- The closing brace gives way to another member. -/
theorem memberTexts_concat (members : List (String × Json)) (last : String × Json) :
    memberTexts write (members ++ [last]) = (memberTexts write members).dropLast ++
      ',' :: (stringChars last.1 ++ ':' :: (write last ++ ['\x7d'])) := by
  induction members with
  | nil => rfl
  | cons entry members ih =>
      have more : memberTexts write members ≠ [] := memberTexts_ne_nil members
      rw [List.cons_append, memberTexts, ih, memberTexts, List.dropLast_cons_of_ne_nil (by simp),
        List.dropLast_append_of_ne_nil (by simp), List.dropLast_cons_of_ne_nil (by simp [more]),
        List.dropLast_append_of_ne_nil more]
      simp

end Json

namespace ClientEvent

variable (event : ClientEvent) (args : List Json)

/-! ## The text of a literal -/

def rawArgs (event : ClientEvent) : String := "[" ++ event.call.arguments ++ "]"

def memberText (event : ClientEvent) (entry : String × Json) : List Char :=
  if entry.1 = Descriptor.argsKey then event.rawArgs.toList else entry.2.chars

theorem memberText_args (args : List Json) :
    event.memberText (Descriptor.argsKey, .arr args) = event.rawArgs.toList :=
  if_pos rfl

theorem toList_rawArgs : event.rawArgs.toList = '[' :: (event.call.arguments.toList ++ [']']) := by
  simp [rawArgs]

theorem ne_argsKey_of_mem_template {entry : String × Json} (member : entry ∈ event.template) :
    entry.1 ≠ Descriptor.argsKey := by
  have distinct := (event.descriptor []).nodup_keys_members
  rw [members_descriptor, Dictionary.keys, List.map_append] at distinct
  exact (List.nodup_append.mp distinct).2.2 _ (List.mem_map_of_mem member) _ List.mem_cons_self

theorem memberText_of_mem {entry : String × Json} (member : entry ∈ event.template) :
    event.memberText entry = entry.2.chars :=
  if_neg (event.ne_argsKey_of_mem_template member)

/-- A literal writes the members of its descriptor. -/
theorem toList_literal (args : List Json) : ∃ entry entries,
    (event.descriptor args).members = entry :: entries ∧
      event.literal.toList = '\x7b' :: (stringChars entry.1 ++
        ':' :: (event.memberText entry ++ (memberTexts event.memberText entries ++ []))) := by
  obtain ⟨entry, entries, split⟩ : ∃ entry entries, event.template = entry :: entries := ⟨_, _, rfl⟩
  have texts : ∀ other ∈ entry :: entries, event.memberText other = other.2.chars :=
    fun other member => event.memberText_of_mem (split ▸ member)
  have more : memberTexts event.memberText entries ≠ [] := memberTexts_ne_nil entries
  refine ⟨entry, entries ++ [(Descriptor.argsKey, .arr args)], ?_, ?_⟩
  · rw [members_descriptor, split, List.cons_append]
  · have front : (Json.obj event.template).chars = '\x7b' :: (stringChars entry.1 ++
        ':' :: (event.memberText entry ++ memberTexts event.memberText entries)) := by
      rw [split, chars, texts entry List.mem_cons_self,
        memberTexts_congr fun other member => texts other (.tail _ member), memberTexts_chars]
    rw [literal, String.toList_ofList, literalChars, front, memberTexts_concat, memberText_args,
      toList_rawArgs, List.dropLast_cons_of_ne_nil (by simp),
      List.dropLast_append_of_ne_nil (by simp), List.dropLast_cons_of_ne_nil (by simp [more]),
      List.dropLast_append_of_ne_nil more]
    simp [stringChars, Descriptor.argsKey, escapedChar]

/-! ## Reading a literal -/

variable {event args}

theorem takesOver_memberText
    (writes : Writes 126 event.rawArgs (.arr args)) {entry : String × Json}
    (member : entry ∈ (event.descriptor args).members) :
    Descriptor.TakesOver (event.descriptor args) event.memberText entry := by
  rcases Descriptor.mem_members.mp member with rfl | ⟨part, text, known, rfl⟩
  · have reads := writes.readsAs
    rw [readValue_succ] at reads
    refine Descriptor.takesOver_args ?_ ((event.memberText_args args).trans event.toList_rawArgs)
    rw [memberText_args]
    exact reads
  · exact Descriptor.takesOver_text known (if_neg part.key_ne_argsKey)

theorem descriptorRead_literal (writes : Writes 126 event.rawArgs (.arr args)) :
    Descriptor.read event.literal = .ok (event.descriptor args) := by
  obtain ⟨entry, entries, split, written⟩ := event.toList_literal args
  exact Descriptor.read_texts split written fun other member => takesOver_memberText writes member

theorem writes_literal (writes : Writes 126 event.rawArgs (.arr args)) :
    Writes depthLimit event.literal (ofMembers (event.descriptor args).members) := by
  obtain ⟨entry, entries, split, written⟩ := event.toList_literal args
  have reads : ∀ other ∈ entry :: entries,
      ReadsAs (readValue true 126) (event.memberText other) other.2 := by
    intro other member
    rw [← split] at member
    rcases Descriptor.mem_members.mp member with rfl | ⟨part, text, known, rfl⟩
    · rw [memberText_args]
      exact writes.readsAs
    · rw [memberText, if_neg part.key_ne_argsKey, readValue_succ]
      intro rest _
      exact ⟨rest, readWith_str text rest, rfl⟩
  refine ⟨[], ?_, rfl⟩
  rw [written, split]
  exact readWith_texts reads []

/-- Where the arguments of a call write the items of an array, in which at most 126 arrays and
objects stand in one another, its literal is JSON text that is read as its descriptor, and is so
still with its closing tags broken up. -/
theorem read_literal (event : ClientEvent) (args : List Json)
    (writes : Writes 126 ("[" ++ event.call.arguments ++ "]") (.arr args)) :
    let escaped := String.ofList (ClientCode.escapeClosing event.literal.toList)
    (Json.read event.literal = .ok (ofMembers (event.descriptor args).members) ∧
      Descriptor.read event.literal = .ok (event.descriptor args)) ∧
    (Json.read escaped = .ok (ofMembers (event.descriptor args).members) ∧
      Descriptor.read escaped = .ok (event.descriptor args)) := by
  have whole := writes_literal writes
  have known := descriptorRead_literal writes
  have unnoticed := ClientCode.unnoticed_escapeClosing
  exact ⟨⟨read_eq_ok_iff.mpr whole, known⟩,
    read_eq_ok_iff.mpr (whole.change unnoticed rfl), Descriptor.read_change unnoticed rfl known⟩

/-- A call with a closing tag in its arguments, on an element within an update panel. -/
theorem read_literal_save :
    let event : ClientEvent := ⟨"1", 0, some "b\"", some "</b>", some "p\\", "c",
      ⟨"save", "\"</p>\",\x7b\"a\":[null]\x7d"⟩⟩
    let args : List Json := [.str "</p>", .obj [("a", .arr [.null])]]
    Writes 126 ("[" ++ event.call.arguments ++ "]") (.arr args) ∧
      Descriptor.read (String.ofList (ClientCode.escapeClosing event.literal.toList)) =
        .ok (event.descriptor args) := by
  intro event args
  have none : (Json.arr args).numbers = [] := rfl
  have legible : (Json.arr args).Legible 126 := ⟨by decide, by simp [none], by decide⟩
  have text : (Json.arr args).render = "[" ++ event.call.arguments ++ "]" := by decide
  have writes := legible.writes_render
  rw [text] at writes
  exact ⟨writes, (read_literal event args writes).2.2⟩

end ClientEvent

end ServerPages
