import ServerPages.Event.Reply
import ServerPages.Proofs.Json.Reading
import ServerPages.Proofs.Text
import ServerPages.Request

/-!
# Events and replies on their way

A descriptor that goes out as the text of a field, or as a member of a JSON body, comes back as it
was, and so does a reply. Both ways of reading a descriptor take over one member after the other;
what comes of that does not depend on the order.
-/

namespace ServerPages

open Json

namespace Descriptor

/-! ## Parts -/

namespace Part

theorem key_injective {first second : Part} (same : first.key = second.key) : first = second := by
  cases first <;> cases second <;> simp_all [key]

theorem ofKey?_key (part : Part) : ofKey? part.key = some part := by
  cases part <;> rfl

theorem key_ne_argsKey (part : Part) : part.key ≠ argsKey := by
  cases part <;> decide

theorem get_set (part other : Part) (text : Option String) (descriptor : Descriptor) :
    other.get (part.set text descriptor) =
      if other = part then text else other.get descriptor := by
  cases part <;> cases other <;> rfl

theorem args_set (part : Part) (text : Option String) (descriptor : Descriptor) :
    (part.set text descriptor).args = descriptor.args := by
  cases part <;> rfl

theorem mem_all (part : Part) : part ∈ all := by
  cases part <;> decide

end Part

theorem eq_of_parts {first second : Descriptor}
    (parts : ∀ part : Part, part.get first = part.get second) (args : first.args = second.args) :
    first = second := by
  obtain ⟨event, clicked, id, name, panel, exec, firstArgs⟩ := first
  have (part : Part) := parts part
  cases parts .event
  cases parts .clicked
  cases parts .id
  cases parts .name
  cases parts .updatePanel
  cases parts .exec
  cases args
  rfl

theorem mem_members {descriptor : Descriptor} {entry : String × Json} :
    entry ∈ descriptor.members ↔ entry = (argsKey, .arr descriptor.args) ∨
      ∃ part : Part, ∃ text, part.get descriptor = some text ∧ entry = (part.key, .str text) := by
  simp only [members, List.mem_append, List.mem_filterMap, List.mem_singleton,
    Option.map_eq_some_iff]
  constructor
  · rintro (⟨part, -, text, known, rfl⟩ | rfl)
    · exact .inr ⟨part, text, known, rfl⟩
    · exact .inl rfl
  · rintro (rfl | ⟨part, text, known, rfl⟩)
    · exact .inr rfl
    · exact .inl ⟨part, part.mem_all, text, known, rfl⟩

/-! ## Members taken over -/

def adopt (source target : Descriptor) (key : String) : Descriptor :=
  if key = argsKey then { target with args := source.args }
  else
    match Part.ofKey? key with
    | some part => part.set (part.get source) target
    | none => target

theorem get_adopt (source target : Descriptor) (key : String) (part : Part) :
    part.get (adopt source target key) =
      if key = part.key then part.get source else part.get target := by
  unfold adopt
  split
  · rename_i args
    rw [if_neg fun same => part.key_ne_argsKey (same.symm.trans args)]
    cases part <;> rfl
  · split
    · rename_i other found
      obtain rfl : other.key = key := by simpa using List.find?_some found
      rw [Part.get_set]
      by_cases same : part = other
      · subst same
        simp
      · rw [if_neg same, if_neg fun keys => same (Part.key_injective keys.symm)]
    · rename_i unknown
      rw [if_neg fun same => by simp [same, Part.ofKey?_key] at unknown]

theorem args_adopt (source target : Descriptor) (key : String) :
    (adopt source target key).args = if key = argsKey then source.args else target.args := by
  unfold adopt
  split
  · rfl
  · split
    · exact Part.args_set _ _ _
    · rfl

theorem get_foldl_adopt (source : Descriptor) (keys : List String) (target : Descriptor)
    (part : Part) : part.get (keys.foldl (adopt source) target) =
      if part.key ∈ keys then part.get source else part.get target := by
  induction keys generalizing target with
  | nil => rfl
  | cons key keys ih =>
      rw [List.foldl_cons, ih, get_adopt]
      by_cases here : key = part.key
      · simp [here]
      · simp [here, Ne.symm here]

theorem args_foldl_adopt (source : Descriptor) (keys : List String) (target : Descriptor) :
    (keys.foldl (adopt source) target).args =
      if argsKey ∈ keys then source.args else target.args := by
  induction keys generalizing target with
  | nil => rfl
  | cons key keys ih =>
      rw [List.foldl_cons, ih, args_adopt]
      by_cases here : key = argsKey
      · simp [here]
      · simp [here, Ne.symm here]

/-- Nothing of a descriptor is lost when its members are taken over, in any order. -/
theorem foldl_adopt_keys (source : Descriptor) {entries : List (String × Json)}
    (same : entries.Perm source.members) :
    (Dictionary.keys entries).foldl (adopt source) blank = source := by
  have named {key : String} {value : Json} (member : (key, value) ∈ source.members) :
      key ∈ Dictionary.keys entries :=
    List.mem_map_of_mem (f := Prod.fst) (same.mem_iff.mpr member)
  refine eq_of_parts (fun part => ?_) ?_
  · rw [get_foldl_adopt]
    cases known : part.get source with
    | none => cases part <;> simp [Part.get, blank]
    | some text => exact if_pos (named (mem_members.mpr (.inr ⟨part, text, known, rfl⟩)))
  · rw [args_foldl_adopt, if_pos (named (mem_members.mpr (.inl rfl)))]

theorem keys_filterMap_sublist (descriptor : Descriptor) (parts : List Part) :
    (Dictionary.keys (parts.filterMap fun part =>
      (part.get descriptor).map fun text => (part.key, Json.str text))).Sublist
        (parts.map Part.key) := by
  induction parts with
  | nil => exact .slnil
  | cons part parts ih =>
      cases known : part.get descriptor with
      | none => simpa [known] using ih.cons part.key
      | some text => simpa [known, Dictionary.keys] using ih

theorem nodup_keys_members (descriptor : Descriptor) :
    (Dictionary.keys descriptor.members).Nodup := by
  have few : (Dictionary.keys descriptor.members).Sublist (Part.all.map Part.key ++ [argsKey]) := by
    simpa [members, Dictionary.keys] using
      (keys_filterMap_sublist descriptor Part.all).append_right [argsKey]
  exact few.nodup (by decide)

/-! ## Values -/

theorem readMemberValue_of_mem {source : Descriptor} {entry : String × Json}
    (member : entry ∈ source.members) (target : Descriptor) :
    readMemberValue target entry = .ok (adopt source target entry.1) := by
  rcases mem_members.mp member with rfl | ⟨part, text, known, rfl⟩
  · rfl
  · simp only [readMemberValue, adopt, if_neg part.key_ne_argsKey, Part.ofKey?_key, known]
    rfl

theorem foldlM_readMemberValue {source : Descriptor} {entries : List (String × Json)}
    (members : ∀ entry ∈ entries, entry ∈ source.members) (target : Descriptor) :
    entries.foldlM readMemberValue target =
      .ok ((Dictionary.keys entries).foldl (adopt source) target) := by
  induction entries generalizing target with
  | nil => rfl
  | cons entry entries ih =>
      rw [List.foldlM_cons, readMemberValue_of_mem (members entry List.mem_cons_self)]
      exact ih (fun other member => members other (List.mem_cons_of_mem _ member)) _

/-- An object with the members of a descriptor, in any order, stands for it. -/
theorem ofJson_of_perm {source : Descriptor} {entries : List (String × Json)}
    (same : entries.Perm source.members) : ofJson (.obj entries) = .ok source := by
  rw [ofJson, foldlM_readMemberValue fun entry member => same.mem_iff.mp member,
    foldl_adopt_keys source same]

/-! ## Texts -/

variable {source : Descriptor}

theorem exists_chars_arr (items : List Json) : ∃ tail, (Json.arr items).chars = '[' :: tail := by
  cases items <;> exact ⟨_, rfl⟩

theorem readArgs_chars {items : List Json}
    (reads : Reads (readWith true (some (readValue true (depthLimit - 2)))) (.arr items))
    {rest : List Char} (ends : EndsNumber rest) :
    readArgs ((Json.arr items).chars ++ rest) = .ok (items, rest) := by
  have read := reads rest ends
  obtain ⟨tail, split⟩ := exists_chars_arr items
  rw [split, List.cons_append, readWith_arr] at read
  rw [split, List.cons_append, readArgs, skipSpace_cons (by decide)]
  simp [read, bind, Except.bind, pure, Except.pure]

theorem readOptionalText_chars (text : String) (rest : List Char) :
    readOptionalText (stringChars text ++ rest) = .ok (some text, rest) := by
  rw [stringChars_append, readOptionalText, skipSpace_cons (by decide)]
  simp [readString_escaped, bind, Except.bind, pure, Except.pure]

/-- A member whose key was not seen before is read by its key. -/
theorem readMemberText_key {key : String} {seen : List String} (fresh : key ∉ seen)
    (target : Descriptor) (chars : List Char) :
    readMemberText seen target (stringChars key ++ ':' :: chars) =
      if key = argsKey then do
        let (args, rest) ← readArgs chars
        return (key :: seen, { target with args }, rest)
      else
        match Part.ofKey? key with
        | some part => do
            let (text, rest) ← readOptionalText chars
            return (key :: seen, part.set text target, rest)
        | none => do
            let rest ← skipValue chars
            return (seen, target, rest) := by
  have unseen : seen.contains key = false := by simpa using fresh
  rw [stringChars_append, readMemberText]
  simp only [readString_escaped, unseen, bind, Except.bind, Bool.false_eq_true, if_false]
  rfl

/-- A member with a text for its value is read as the member of a descriptor, whatever was read
before it. -/
def TakesOver (source : Descriptor) (write : String × Json → List Char) (entry : String × Json) :
    Prop :=
  ∀ seen target rest, entry.1 ∉ seen → EndsNumber rest → ∃ left,
    readMemberText seen target (stringChars entry.1 ++ ':' :: (write entry ++ rest)) =
      .ok (entry.1 :: seen, adopt source target entry.1, left) ∧ skipSpace left = skipSpace rest

variable {write : String × Json → List Char}

theorem takesOver_text {part : Part} {text : String} (known : part.get source = some text)
    (written : write (part.key, .str text) = stringChars text) :
    TakesOver source write (part.key, .str text) := by
  intro seen target rest fresh _
  refine ⟨rest, ?_, rfl⟩
  rw [readMemberText_key fresh, written]
  simp only [if_neg part.key_ne_argsKey, Part.ofKey?_key, readOptionalText_chars, adopt, known,
    bind, Except.bind, pure, Except.pure]

theorem takesOver_args
    (reads : ReadsAs (readWith true (some (readValue true (depthLimit - 2))))
      (write (argsKey, .arr source.args)) (.arr source.args))
    {text : List Char} (array : write (argsKey, .arr source.args) = '[' :: text) :
    TakesOver source write (argsKey, .arr source.args) := by
  intro seen target rest fresh ends
  obtain ⟨left, read, same⟩ := reads rest ends
  refine ⟨left, ?_, same⟩
  rw [array, List.cons_append, readWith_arr] at read
  rw [readMemberText_key fresh, if_pos rfl, array, List.cons_append, readArgs,
    skipSpace_cons (by decide)]
  simp [read, adopt, bind, Except.bind, pure, Except.pure]

theorem takesOver_chars {entry : String × Json} (member : entry ∈ source.members)
    (reads : Reads (readWith true (some (readValue true (depthLimit - 2)))) (.arr source.args)) :
    TakesOver source (fun entry => entry.2.chars) entry := by
  rcases mem_members.mp member with rfl | ⟨part, text, known, rfl⟩
  · exact takesOver_args reads.readsAs (exists_chars_arr source.args).choose_spec
  · exact takesOver_text known rfl

/-- The members of a descriptor are read from the first. -/
theorem readMembersText_texts {entry : String × Json} {entries : List (String × Json)}
    (members : ∀ other ∈ entry :: entries, TakesOver source write other)
    (distinct : (Dictionary.keys (entry :: entries)).Nodup) {seen : List String}
    (fresh : ∀ key ∈ Dictionary.keys (entry :: entries), key ∉ seen) {fuel : Nat}
    (enough : entries.length < fuel) (target : Descriptor) (rest : List Char) :
    readMembersText fuel seen target
        (stringChars entry.1 ++ ':' :: (write entry ++ (memberTexts write entries ++ rest))) =
      .ok ((Dictionary.keys (entry :: entries)).foldl (adopt source) target, rest) := by
  obtain ⟨left, first, same⟩ := members entry List.mem_cons_self seen target _
    (fresh entry.1 List.mem_cons_self) (endsNumber_memberTexts write entries rest)
  obtain ⟨fuel, rfl⟩ := Nat.exists_eq_add_one_of_ne_zero (Nat.ne_zero_of_lt enough)
  rw [readMembersText, first]
  match entries with
  | [] =>
      simp [same, memberTexts, skipSpace_cons, isSpace, bind, Except.bind, pure, Except.pure]
      rfl
  | next :: entries =>
      obtain ⟨new, apart⟩ := List.nodup_cons.mp distinct
      have unseen : ∀ key ∈ Dictionary.keys (next :: entries), key ∉ entry.1 :: seen := by
        intro key member
        have differs : key ≠ entry.1 := fun same => new (same ▸ member)
        simpa [differs] using fresh key (.tail _ member)
      have others := readMembersText_texts (fun other member => members other (.tail _ member))
        apart unseen (Nat.lt_of_succ_lt_succ enough) (adopt source target entry.1) rest
      rw [stringChars_append] at others
      simp [same, memberTexts, skipSpace_cons, isSpace, stringChars_append, others, bind,
        Except.bind]
      rfl

theorem read_of_quote {text : String} {chars : List Char}
    (written : text.toList = '\x7b' :: '"' :: chars) :
    read text = (do
      let (descriptor, rest) ← readMembersText (chars.length + 2) [] blank ('"' :: chars)
      finish descriptor rest) := by
  rw [read, written]
  rfl

/-- A text that writes the members of a descriptor, from the first, is read as the descriptor. -/
theorem read_texts {text : String} {entry : String × Json} {entries : List (String × Json)}
    (split : source.members = entry :: entries)
    (written : text.toList = '\x7b' :: (stringChars entry.1 ++
      ':' :: (write entry ++ (memberTexts write entries ++ []))))
    (members : ∀ other ∈ source.members, TakesOver source write other) :
    read text = .ok source := by
  have whole := foldl_adopt_keys source (.refl _)
  have distinct := nodup_keys_members source
  have enough : entries.length < (stringChars entry.1 ++
      ':' :: (write entry ++ (memberTexts write entries ++ []))).length + 1 := by
    have := length_memberTexts write entries
    simp only [List.length_append, List.length_cons]
    omega
  have result := readMembersText_texts (split ▸ members)
    (split ▸ distinct) (fun _ _ => List.not_mem_nil) enough blank []
  rw [← split, whole, stringChars_append] at result
  rw [stringChars_append] at written
  rw [read_of_quote written]
  exact congrArg (· >>= _) result

theorem exists_toList_render (source : Descriptor) : ∃ entry entries,
    source.members = entry :: entries ∧ source.render.toList = '\x7b' :: (stringChars entry.1 ++
      ':' :: (entry.2.chars ++ (memberTexts (fun entry => entry.2.chars) entries ++ []))) := by
  obtain ⟨entry, entries, split⟩ : ∃ entry entries, source.members = entry :: entries :=
    List.exists_cons_of_ne_nil (by simp [members])
  refine ⟨entry, entries, split, ?_⟩
  rw [render, Json.render, String.toList_ofList, split, List.append_nil, memberTexts_chars]
  rfl

/-- A descriptor is read back from its text. -/
theorem read_render
    (reads : Reads (readWith true (some (readValue true (depthLimit - 2)))) (.arr source.args)) :
    read source.render = .ok source := by
  obtain ⟨entry, entries, split, written⟩ := exists_toList_render source
  exact read_texts split written fun other member => takesOver_chars member reads

/-! ## Fields -/

theorem ofField_render
    (reads : Reads (readWith true (some (readValue true (depthLimit - 2)))) (.arr source.args)) :
    ofField (.str source.render) = .ok (some source) := by
  obtain ⟨_, _, -, written⟩ := exists_toList_render source
  have solid : ¬ (Text.trim source.render).isEmpty = true := fun empty =>
    absurd (Text.isBlank_of_trim_isEmpty empty '\x7b' (written ▸ List.mem_cons_self)) (by decide)
  simp only [ofField, if_neg solid, read_render reads]

end Descriptor

/-! ## Requests -/

namespace Request

theorem body_foldl_withField (request : Request) (fields : List (String × Json)) :
    (fields.foldl (fun request entry => request.withField entry.1 entry.2) request).body =
      fields.foldl (fun body entry => body.put entry.1 entry.2) request.body := by
  induction fields generalizing request with
  | nil => rfl
  | cons field fields ih => exact ih (request.withField field.1 field.2)

theorem find?_withJsonBody (request : Request) {fields : Dictionary Json}
    (increasing : fields.Increasing) {key : String} {value : Json}
    (found : fields.find? key = some value) :
    (request.withJsonBody (.obj fields)).body.find? key = some value := by
  rw [withJsonBody, body_foldl_withField]
  exact Dictionary.find?_foldl_put increasing.nodup_keys found request.body

end Request

/-! ## Replies -/

namespace PanelReply

theorem nodup_keys_members (reply : PanelReply) : (Dictionary.keys reply.members).Nodup := by
  obtain ⟨success, html, panelId, error⟩ := reply
  cases html <;> cases panelId <;> cases error <;> simp [members, Dictionary.keys]

/-- The object of a reply stands for it. -/
theorem ofJson_ofMembers (reply : PanelReply) : ofJson (ofMembers reply.members) = .ok reply := by
  have found := Dictionary.find?_ofPairs (nodup_keys_members reply)
  obtain ⟨success, html, panelId, error⟩ := reply
  simp only [ofMembers, ofJson, member, found]
  cases html <;> cases panelId <;> cases error <;> rfl

/-- The text of a reply writes its object. -/
theorem read_render (reply : PanelReply) :
    Json.read reply.render = .ok (ofMembers reply.members) := by
  obtain ⟨success, html, panelId, error⟩ := reply
  refine read_render_obj ?_ ?_ ?_ <;> cases html <;> cases panelId <;> cases error <;>
    simp [members, MembersOrdered, Ordered, membersNumbers, numbers, membersDepth, depth,
      depthLimit]

end PanelReply

/-! ## There and back -/

/-- An event that goes out in a form comes back as it was, where its arguments nest at most 125
arrays and objects deep and its floating point numbers are read back from their texts; one that
goes out in a JSON body comes back however deep they nest. A reply comes back from its object, and
its object from its text. -/
theorem event_survives :
    (∀ (request : Request) (descriptor : Descriptor),
      (∀ arg ∈ descriptor.args, arg.Ordered) →
      (∀ arg ∈ descriptor.args, ∀ x, .binary x ∈ arg.numbers → (Number.binary x).ReadsBack) →
      (∀ arg ∈ descriptor.args, arg.depth ≤ 125) →
        (request.withEvent descriptor).event = .ok (some descriptor)) ∧
    (∀ (request : Request) (descriptor : Descriptor) (fields : Dictionary Json),
      fields.Increasing →
      fields.find? Descriptor.fieldName = some (ofMembers descriptor.members) →
        (request.withJsonBody (.obj fields)).event = .ok (some descriptor)) ∧
    (∀ reply : PanelReply, Json.read reply.render = .ok (ofMembers reply.members) ∧
      PanelReply.ofJson (ofMembers reply.members) = .ok reply) := by
  refine ⟨fun request descriptor ordered exact fits => ?_,
    fun request descriptor fields increasing found => ?_,
    fun reply => ⟨reply.read_render, reply.ofJson_ofMembers⟩⟩
  · have numbers : ∀ arg ∈ descriptor.args, ∀ n ∈ arg.numbers, n.ReadsBack :=
      fun arg member => readsBack_of_binary (exact arg member)
    have reads : ∀ arg ∈ descriptor.args, Reads (readValue true (depthLimit - 2)) arg :=
      fun arg member => reads_chars arg (ordered arg member) (numbers arg member) (fits arg member)
    rw [Request.event_withEvent]
    exact Descriptor.ofField_render (reads_arr numbers reads)
  · have same := Dictionary.ofPairs_perm descriptor.nodup_keys_members
    rw [Request.event, request.find?_withJsonBody increasing found]
    simp only [ofMembers, Descriptor.ofField, Descriptor.ofJson_of_perm same]

/-- A click with arguments of each kind. -/
theorem event_survives_save :
    let half : Number := .binary ⟨false, 0x18000000000000, 1022, by decide⟩
    let one : Number := .integer ⟨1, by decide⟩
    let args : List Json := [.str "\"\\\n\x01é", .num half, .bool true,
      .obj [("a", .arr [.num one, .obj [("b", .null)]])], .arr []]
    let descriptor := (Descriptor.click "mark" "save" args).withUpdatePanel "p"
    let body : Dictionary Json := [(Descriptor.fieldName, ofMembers descriptor.members)]
    (half.ReadsBack ∧ (∀ arg ∈ args, arg.Ordered ∧ arg.depth ≤ 125) ∧ body.Increasing) ∧
      ((Request.bare .post "/").withEvent descriptor).event = .ok (some descriptor) ∧
      ((Request.bare .post "/").withJsonBody (.obj body)).event = .ok (some descriptor) := by
  intro half one args descriptor body
  have exact : half.ReadsBack := by decide +kernel
  have kept : ∀ arg ∈ args, arg.Ordered ∧ arg.depth ≤ 125 := by decide
  have increasing : body.Increasing := List.pairwise_singleton _ _
  have binary : ∀ arg ∈ args, ∀ x, .binary x ∈ arg.numbers → (Number.binary x).ReadsBack := by
    intro arg member x inside
    obtain known : Number.binary x = half := by
      simp only [args, List.mem_cons, List.not_mem_nil, or_false] at member
      rcases member with rfl | rfl | rfl | rfl | rfl <;>
        simp_all [numbers, itemsNumbers, membersNumbers, one]
    exact known ▸ exact
  exact ⟨⟨exact, kept, increasing⟩,
    event_survives.1 _ descriptor (fun arg member => (kept arg member).1) binary
      (fun arg member => (kept arg member).2),
    event_survives.2.1 _ descriptor body increasing rfl⟩

end ServerPages
