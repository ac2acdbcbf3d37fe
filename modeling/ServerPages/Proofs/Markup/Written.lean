import ServerPages.Markup.Token.Scan
import ServerPages.Proofs.Document.Decoding
import ServerPages.Proofs.Markup.ScriptText

/-!
# Tokens of written markup

What is written for a tag, a text or a comment is read as one tag, that text or that comment,
whatever follows it: names hold nothing that ends them, and values and texts are written with
references for all that would.
-/

namespace ServerPages.Markup

open Text

/-! ## References -/

theorem referenceAt_amp (inValue : Bool) (rest : List Char) :
    referenceAt inValue ('a' :: 'm' :: 'p' :: ';' :: rest) = ('&', rest) := by
  cases inValue <;> rfl

theorem referenceAt_lt (inValue : Bool) (rest : List Char) :
    referenceAt inValue ('l' :: 't' :: ';' :: rest) = ('<', rest) := by
  cases inValue <;> rfl

theorem referenceAt_gt (inValue : Bool) (rest : List Char) :
    referenceAt inValue ('g' :: 't' :: ';' :: rest) = ('>', rest) := by
  cases inValue <;> rfl

theorem referenceAt_quot (inValue : Bool) (rest : List Char) :
    referenceAt inValue ('q' :: 'u' :: 'o' :: 't' :: ';' :: rest) = ('"', rest) := by
  cases inValue <;> rfl

theorem referenceAt_apostrophe (inValue : Bool) (rest : List Char) :
    referenceAt inValue ('#' :: '3' :: '9' :: ';' :: rest) = ('\'', rest) := by
  cases inValue <;> rfl

theorem resolve_ampersand (inValue : Bool) {name rest : List Char} {c : Char}
    (names : referenceAt inValue name = (c, rest)) :
    resolve inValue ('&' :: name) = c :: resolve inValue rest := by
  rw [resolve, if_pos rfl, names]

theorem resolve_cons {c : Char} (plain : c ≠ '&') (inValue : Bool) (rest : List Char) :
    resolve inValue (c :: rest) = c :: resolve inValue rest := by
  rw [resolve, if_neg plain]

/-- The written form of a character is resolved to the character, whatever follows it. -/
theorem resolve_escapedChar_append (inValue : Bool) (c : Char) (rest : List Char) :
    resolve inValue (escapedChar c ++ rest) = c :: resolve inValue rest := by
  unfold escapedChar
  split
  · rename_i same
    rw [same]
    exact resolve_ampersand inValue (referenceAt_amp inValue rest)
  · rename_i plain
    split
    · rename_i same
      rw [same]
      exact resolve_ampersand inValue (referenceAt_lt inValue rest)
    · split
      · rename_i same
        rw [same]
        exact resolve_ampersand inValue (referenceAt_gt inValue rest)
      · split
        · rename_i same
          rw [same]
          exact resolve_ampersand inValue (referenceAt_quot inValue rest)
        · split
          · rename_i same
            rw [same]
            exact resolve_ampersand inValue (referenceAt_apostrophe inValue rest)
          · exact resolve_cons plain inValue rest

theorem resolve_escapeChars (inValue : Bool) (chars : List Char) :
    resolve inValue (escapeChars chars) = chars := by
  induction chars with
  | nil => rw [escapeChars, List.flatMap_nil, resolve]
  | cons c rest ih =>
      rw [escapeChars, List.flatMap_cons, resolve_escapedChar_append]
      exact congrArg (c :: ·) ih

/-- Writing adds no characters but those of the five references. -/
theorem not_mem_escapeChars_of_not_mem {mark : Char} (foreign : mark ∉ "&amp;ltgtquot#39".toList)
    {chars : List Char} (absent : mark ∉ chars) : mark ∉ escapeChars chars := by
  have alphabet : "&amp;ltgtquot#39".toList =
      ['&', 'a', 'm', 'p', ';', 'l', 't', 'g', 't', 'q', 'u', 'o', 't', '#', '3', '9'] := rfl
  rw [alphabet] at foreign
  simp only [escapeChars, List.mem_flatMap, not_exists, not_and]
  intro c member inside
  have other : mark ≠ c := fun same => absent (same ▸ member)
  unfold escapedChar at inside
  repeat' split at inside
  all_goals simp_all

/-! ## Characters that are kept -/

/-- A text without NUL, which markup does not keep, and without carriage returns, which it takes for
line feeds. -/
def IsClean (chars : List Char) : Prop :=
  '\x00' ∉ chars ∧ '\r' ∉ chars

instance (chars : List Char) : Decidable (IsClean chars) :=
  inferInstanceAs (Decidable (_ ∧ _))

theorem map_mendNull {chars : List Char} (absent : '\x00' ∉ chars) :
    chars.map mendNull = chars := by
  refine (List.map_congr_left fun c member => ?_).trans (List.map_id chars)
  refine if_neg fun same => ?_
  rw [same] at member
  exact absent member

theorem map_mendNull_escapeChars {chars : List Char} (absent : '\x00' ∉ chars) :
    (escapeChars chars).map mendNull = escapeChars chars :=
  map_mendNull (not_mem_escapeChars_of_not_mem (by decide) absent)

theorem keptValue_escapeChars {value : String} (absent : '\x00' ∉ value.toList) :
    keptValue (escapeChars value.toList) = value := by
  rw [keptValue, map_mendNull_escapeChars absent, resolve_escapeChars, String.ofList_toList]

/-! ## Names -/

/-- Names that an opening tag can give an element, but for capitals. -/
def isTagName (name : String) : Bool :=
  (name.toList.head?.map isLetter).getD false && name.toList.all isTagNamePart

/-- Names that a tag can give an attribute, but for capitals. An equals sign may only be the
first character. -/
def isAttributeName (name : String) : Bool :=
  match name.toList with
  | c :: rest => isTagNamePart c && rest.all isAttributeNamePart
  | [] => false

theorem takeWhile_append_cons {p : Char → Bool} {part : List Char} {c : Char}
    (parts : part.all p = true) (ends : p c = false) (rest : List Char) :
    (part ++ c :: rest).takeWhile p = part ∧ (part ++ c :: rest).dropWhile p = c :: rest := by
  rw [List.all_eq_true] at parts
  rw [List.takeWhile_append_of_pos parts, List.dropWhile_append_of_pos parts,
    List.takeWhile_cons_of_neg (Bool.not_eq_true _ ▸ ends),
    List.dropWhile_cons_of_neg (Bool.not_eq_true _ ▸ ends), List.append_nil]
  exact ⟨rfl, rfl⟩

/-! ## Attributes -/

def keptItem (item : String × String) : String × String :=
  (keptName item.1.toList, item.2)

theorem addAttribute_new {attributes : List (String × String)} {name : String}
    (new : name ∉ attributes.map (·.1)) (value : String) :
    addAttribute attributes name value = attributes ++ [(name, value)] := by
  refine if_neg fun found => new ?_
  obtain ⟨item, member, same⟩ := List.any_eq_true.mp found
  exact List.mem_map.mpr ⟨item, member, of_decide_eq_true same⟩

theorem value?_written {value : String} (absent : '\x00' ∉ value.toList) (rest : List Char) :
    value? ('"' :: (escapeChars value.toList ++ '"' :: rest)) = some (value, rest) := by
  have unquoted := @not_mem_escapeChars '"' (by simp) value.toList
  rw [value?, quotedValue?, Text.splitOnce_append unquoted]
  dsimp only
  rw [keptValue_escapeChars absent]

/-- Each attribute takes two steps: one for the blank in front of it. -/
theorem attributesFrom_attribute {item : String × String} (named : isAttributeName item.1 = true)
    (absent : '\x00' ∉ item.2.toList) (steps : Nat) (attributes : List (String × String))
    (rest : List Char) :
    attributesFrom (steps + 2) attributes (Element.attributeChars item ++ rest) =
      attributesFrom steps (addAttribute attributes (keptName item.1.toList) item.2) rest := by
  obtain ⟨name, value⟩ := item
  unfold isAttributeName at named
  split at named
  · rename_i c more letters
    rw [Bool.and_eq_true] at named
    obtain ⟨first, others⟩ := named
    obtain ⟨solid, notSlash, notAngle⟩ : isSpace c = false ∧ c ≠ '/' ∧ c ≠ '>' := by
      simpa [isTagNamePart, and_assoc] using first
    have written : Element.attributeChars (name, value) ++ rest =
        ' ' :: c :: (more ++ '=' :: '"' :: (escapeChars value.toList ++ '"' :: rest)) := by
      simp [Element.attributeChars, letters]
    obtain ⟨taken, dropped⟩ := takeWhile_append_cons others
      (show isAttributeNamePart '=' = false by decide)
      ('"' :: (escapeChars value.toList ++ '"' :: rest))
    have blank (chars : List Char) : attributesFrom (steps + 2) attributes (' ' :: chars) =
        attributesFrom (steps + 1) attributes chars := rfl
    rw [written, blank, attributesFrom.eq_def]
    dsimp only
    rw [if_neg (Bool.not_eq_true _ ▸ solid), if_neg notAngle, if_neg notSlash, taken, dropped,
      letters]
    have equals (chars : List Char) : dropSpace ('=' :: chars) = '=' :: chars := rfl
    have quote (chars : List Char) : dropSpace ('"' :: chars) = '"' :: chars := rfl
    simp only [equals, quote, value?_written absent rest]
  · cases named

theorem attributesFrom_end (steps : Nat) (attributes : List (String × String)) (rest : List Char) :
    attributesFrom (steps + 1) attributes ('>' :: rest) = (some (attributes, false), rest) := rfl

theorem attributesFrom_written {items : List (String × String)}
    (named : ∀ item ∈ items, isAttributeName item.1 = true)
    (absent : ∀ item ∈ items, '\x00' ∉ item.2.toList) {attributes : List (String × String)}
    (distinct : ((attributes ++ items.map keptItem).map (·.1)).Nodup) {steps : Nat}
    (enough : 2 * items.length < steps) (rest : List Char) :
    attributesFrom steps attributes (items.flatMap Element.attributeChars ++ '>' :: rest) =
      (some (attributes ++ items.map keptItem, false), rest) := by
  induction items generalizing attributes steps with
  | nil =>
      obtain ⟨steps, rfl⟩ := Nat.exists_eq_add_one_of_ne_zero (Nat.ne_of_gt enough)
      rw [List.flatMap_nil, List.nil_append, attributesFrom_end, List.map_nil, List.append_nil]
  | cons item items ih =>
      rw [List.length_cons] at enough
      obtain ⟨steps, rfl⟩ : ∃ more, steps = more + 2 := ⟨steps - 2, by omega⟩
      have new : keptName item.1.toList ∉ attributes.map (·.1) := by
        rw [List.map_append, List.nodup_append] at distinct
        exact fun old => distinct.2.2 _ old _ List.mem_cons_self rfl
      have added : attributes ++ (item :: items).map keptItem =
          addAttribute attributes (keptName item.1.toList) item.2 ++ items.map keptItem := by
        rw [addAttribute_new new, List.map_cons, List.append_assoc, List.singleton_append]
        rfl
      rw [added] at distinct ⊢
      rw [List.flatMap_cons, List.append_assoc,
        attributesFrom_attribute (named item List.mem_cons_self) (absent item List.mem_cons_self)]
      exact ih (fun item member => named item (List.mem_cons_of_mem _ member))
        (fun item member => absent item (List.mem_cons_of_mem _ member)) distinct (by omega)

/-! ## Tags -/

structure Writable (data : Element) : Prop where
  name : isTagName data.name = true
  names : ∀ item ∈ data.attributes, isAttributeName item.1 = true
  distinct : (data.attributes.map (keptItem ·) |>.map (·.1)).Nodup
  values : ∀ item ∈ data.attributes, IsClean item.2.toList

def openingTag (data : Element) : Tag :=
  ⟨false, keptName data.name.toList, false, data.attributes.map keptItem⟩

def closingTag (data : Element) : Tag :=
  ⟨true, keptName data.name.toList, false, []⟩

theorem two_length_lt_attributeChars (items : List (String × String)) :
    2 * items.length ≤ (items.flatMap Element.attributeChars).length := by
  induction items with
  | nil => exact Nat.le_refl _
  | cons item items ih =>
      simp only [List.flatMap_cons, List.length_cons, List.length_append, Element.attributeChars]
      omega

theorem exists_letter {name : String} (named : isTagName name = true) :
    ∃ c rest, name.toList = c :: rest ∧ isLetter c = true := by
  rw [isTagName, Bool.and_eq_true] at named
  cases letters : name.toList with
  | nil =>
      rw [letters] at named
      cases named.1
  | cons c rest =>
      rw [letters] at named
      exact ⟨c, rest, rfl, named.1⟩

theorem isTagNamePart_all {name : String} (named : isTagName name = true) :
    name.toList.all isTagNamePart = true := by
  rw [isTagName, Bool.and_eq_true] at named
  exact named.2

theorem scanTag_opening {data : Element} (writable : Writable data) (rest : List Char) :
    scanTag false
      (data.name.toList ++ (data.attributes.flatMap Element.attributeChars ++ '>' :: rest))
      = ([.tag (openingTag data)], rest) := by
  have read : ∀ steps, 2 * data.attributes.length < steps →
      attributesFrom steps [] (data.attributes.flatMap Element.attributeChars ++ '>' :: rest) =
        (some (data.attributes.map keptItem, false), rest) := fun steps enough => by
    have distinct : (([] ++ data.attributes.map keptItem).map Prod.fst).Nodup := writable.distinct
    have read := attributesFrom_written writable.names
      (fun item member => (writable.values item member).1) distinct enough rest
    rwa [List.nil_append] at read
  -- what follows the name ends it
  obtain ⟨c, more, begins, ends⟩ : ∃ c more,
      data.attributes.flatMap Element.attributeChars ++ '>' :: rest = c :: more ∧
        isTagNamePart c = false := by
    cases data.attributes with
    | nil => exact ⟨'>', rest, rfl, by decide⟩
    | cons item items => exact ⟨' ', _, rfl, by decide⟩
  obtain ⟨taken, dropped⟩ := takeWhile_append_cons (isTagNamePart_all writable.name) ends more
  have length := two_length_lt_attributeChars data.attributes
  rw [scanTag, begins, taken, dropped, ← begins, read _ (by
    rw [List.length_append]
    omega)]
  rfl

theorem scanTag_closing {name : String} (named : isTagName name = true) (rest : List Char) :
    scanTag true (name.toList ++ '>' :: rest) =
      ([.tag ⟨true, keptName name.toList, false, []⟩], rest) := by
  obtain ⟨taken, dropped⟩ :=
    takeWhile_append_cons (isTagNamePart_all named) (show isTagNamePart '>' = false by decide) rest
  rw [scanTag, taken, dropped, attributesFrom_end]
  rfl

theorem letter_ne {c mark : Char} (letter : isLetter c = true) (other : isLetter mark = false) :
    c ≠ mark := by
  rintro rfl
  rw [letter] at other
  cases other

theorem scanAfterOpen_of_letter {c : Char} (letter : isLetter c = true) (foreign : Bool)
    (rest : List Char) : scanAfterOpen foreign (c :: rest) = scanTag false (c :: rest) := by
  have declared := letter_ne letter (show isLetter '!' = false by decide)
  have slash := letter_ne letter (show isLetter '/' = false by decide)
  have question := letter_ne letter (show isLetter '?' = false by decide)
  unfold scanAfterOpen
  split
  · rename_i same
    cases same
  · rename_i same
    cases same
    exact absurd rfl declared
  · rename_i same
    cases same
    exact absurd rfl slash
  · rename_i same
    cases same
    rw [if_neg question, if_pos letter]

theorem scanMarkup_opening {data : Element} (writable : Writable data) (foreign : Bool)
    (rest : List Char) :
    scanMarkup foreign (data.openingChars ++ rest) = ([.tag (openingTag data)], rest) := by
  obtain ⟨c, more, letters, letter⟩ := exists_letter writable.name
  have scanned := scanTag_opening writable rest
  have written : data.openingChars ++ rest =
      '<' :: c :: (more ++ (data.attributes.flatMap Element.attributeChars ++ '>' :: rest)) := by
    simp [Element.openingChars, letters]
  rw [letters, List.cons_append] at scanned
  rw [written, scanMarkup, scanAfterOpen_of_letter letter, scanned]

theorem scanAfterOpen_closing {data : Element} (named : isTagName data.name = true) (foreign : Bool)
    (rest : List Char) :
    scanAfterOpen foreign ('/' :: (data.name.toList ++ '>' :: rest)) =
      ([.tag (closingTag data)], rest) := by
  obtain ⟨c, more, letters, letter⟩ := exists_letter named
  have scanned := scanTag_closing named rest
  rw [letters, List.cons_append] at scanned ⊢
  have angle := letter_ne letter (show isLetter '>' = false by decide)
  rw [scanAfterOpen, if_neg angle, if_pos letter, scanned, closingTag, letters]

theorem closingChars_append (data : Element) (rest : List Char) :
    data.closingChars ++ rest = '<' :: '/' :: (data.name.toList ++ '>' :: rest) := by
  simp [Element.closingChars]

theorem scanMarkup_closing {data : Element} (named : isTagName data.name = true) (foreign : Bool)
    (rest : List Char) :
    scanMarkup foreign (data.closingChars ++ rest) = ([.tag (closingTag data)], rest) := by
  rw [closingChars_append, scanMarkup, scanAfterOpen_closing named]

/-! ## Texts -/

/-- What may follow a written text: the end, or a tag. -/
def StartsTag (chars : List Char) : Prop :=
  chars = [] ∨ ∃ rest, chars = '<' :: rest

/-- Characters up to the next tag are read as what they are written for. -/
theorem scanMarkup_text {written content : List Char} (some : written ≠ [])
    (unopened : '<' ∉ written) (resolved : resolve false written = content) {rest : List Char}
    (ends : StartsTag rest) (foreign : Bool) :
    scanMarkup foreign (written ++ rest) = (Token.ofChars content, rest) := by
  have parts : ∀ c ∈ written, (c != '<') = true :=
    fun c member => bne_iff_ne.mpr fun same => unopened (same ▸ member)
  have taken : (written ++ rest).takeWhile (· != '<') = written := by
    rw [List.takeWhile_append_of_pos parts]
    obtain rfl | ⟨rest, rfl⟩ := ends <;> simp
  have dropped : (written ++ rest).dropWhile (· != '<') = rest := by
    rw [List.dropWhile_append_of_pos parts]
    obtain rfl | ⟨rest, rfl⟩ := ends <;> simp
  unfold scanMarkup
  split
  · rename_i same
    rw [same, List.takeWhile_cons_of_neg (by simp)] at taken
    exact absurd taken.symm some
  · dsimp only
    rw [taken, dropped, resolved]

theorem escapeChars_ne_nil {content : List Char} (some : content ≠ []) :
    escapeChars content ≠ [] := by
  obtain ⟨c, more, rfl⟩ := List.exists_cons_of_ne_nil some
  simp [escapeChars, escapedChar_ne_nil]

/-! ## Comments -/

/-- The content of a comment: nothing in it ends the comment. -/
structure IsComment (content : List Char) : Prop where
  clean : IsClean content
  angle : ¬ ['>'] <+: content
  dash : ¬ ['-', '>'] <+: content
  closed : ¬ ['-', '-', '>'] <:+: content
  closedLoudly : ¬ ['-', '-', '!', '>'] <:+: content

instance (content : List Char) : Decidable (IsComment content) :=
  decidable_of_iff (IsClean content ∧ ¬ ['>'] <+: content ∧ ¬ ['-', '>'] <+: content ∧
      ¬ ['-', '-', '>'] <:+: content ∧ ¬ ['-', '-', '!', '>'] <:+: content)
    ⟨fun ⟨a, b, c, d, e⟩ => ⟨a, b, c, d, e⟩, fun ⟨a, b, c, d, e⟩ => ⟨a, b, c, d, e⟩⟩

theorem commentFrom_written {content : List Char} (clean : '\x00' ∉ content)
    (closed : ¬ ['-', '-', '>'] <:+: content) (loudly : ¬ ['-', '-', '!', '>'] <:+: content)
    (rest : List Char) : commentFrom (content ++ '-' :: '-' :: '>' :: rest) = (content, rest) := by
  induction content with
  | nil => rfl
  | cons c content ih =>
      rw [List.mem_cons, not_or] at clean
      have inner :=
        ih clean.2 (fun inside => closed (inside.trans (List.suffix_cons c content).isInfix))
        (fun inside => loudly (inside.trans (List.suffix_cons c content).isInfix))
      have kept : mendNull c = c := if_neg (Ne.symm clean.1)
      rw [List.cons_append, commentFrom, inner, kept]
      · rintro more rfl same
        cases content with
        | nil => cases same
        | cons d content =>
            cases content with
            | nil => cases same
            | cons e content =>
                cases same
                exact closed ⟨[], content, rfl⟩
      · rintro more rfl same
        cases content with
        | nil => cases same
        | cons d content =>
            cases content with
            | nil => cases same
            | cons e content =>
                cases content with
                | nil => cases same
                | cons f content =>
                    cases same
                    exact loudly ⟨[], content, rfl⟩
      all_goals
        intro _ same
        have := congrArg List.length same
        simp at this
        try omega

theorem scanComment_written {content : List Char} (comment : IsComment content)
    (rest : List Char) :
    scanComment (content ++ '-' :: '-' :: '>' :: rest) =
      ([.comment (String.ofList content)], rest) := by
  have read := commentFrom_written comment.clean.1 comment.closed comment.closedLoudly rest
  unfold scanComment
  split
  rename_i text after read'
  split at read'
  · rename_i same
    cases content with
    | nil => cases same
    | cons c content =>
        cases same
        exact absurd ⟨content, rfl⟩ comment.angle
  · rename_i same
    cases content with
    | nil => cases same
    | cons c content =>
        cases content with
        | nil => cases same
        | cons d content =>
            cases same
            exact absurd ⟨content, rfl⟩ comment.dash
  · rw [read] at read'
    cases read'
    rfl

theorem chars_comment (content : String) :
    (Subtree.comment content).chars =
      '<' :: '!' :: '-' :: '-' :: (content.toList ++ ['-', '-', '>']) := rfl

theorem scanMarkup_comment {content : String} (comment : IsComment content.toList) (foreign : Bool)
    (rest : List Char) :
    scanMarkup foreign ((Subtree.comment content).chars ++ rest) = ([.comment content], rest) := by
  have scanned := scanComment_written comment rest
  rw [String.ofList_toList] at scanned
  rw [chars_comment, List.cons_append, List.cons_append, List.cons_append, List.cons_append,
    List.append_assoc]
  exact scanned

/-! ## Document types -/

structure IsDoctypeName (name : String) : Prop where
  parts : name.toList.all (fun c => !isSpace c && c != '>') = true
  kept : keptName name.toList = name

instance (name : String) : Decidable (IsDoctypeName name) :=
  decidable_of_iff (_ ∧ _) ⟨fun ⟨a, b⟩ => ⟨a, b⟩, fun ⟨a, b⟩ => ⟨a, b⟩⟩

theorem isLegacyDoctype_bare (name : String) :
    isLegacyDoctype name none none = (name != "html") := by
  simp [isLegacyDoctype]

theorem scanDoctype_written {name : String} (named : IsDoctypeName name) (rest : List Char) :
    scanDoctype (' ' :: (name.toList ++ '>' :: rest)) =
      ([.doctype name (name != "html")], rest) := by
  have start : dropSpace (' ' :: (name.toList ++ '>' :: rest)) = name.toList ++ '>' :: rest := by
    have parts := named.parts
    cases letters : name.toList with
    | nil => rfl
    | cons c more =>
        rw [letters, List.all_cons, Bool.and_eq_true, Bool.and_eq_true] at parts
        have solid : isSpace c = false := by simpa using parts.1.1
        rw [dropSpace, List.dropWhile_cons_of_pos (by decide), List.cons_append,
          List.dropWhile_cons_of_neg (by simp [solid])]
  obtain ⟨taken, dropped⟩ := takeWhile_append_cons named.parts (c := '>') rfl rest
  have bare : identifiers (dropSpace ('>' :: rest)) = (none, none, .proper) := rfl
  rw [scanDoctype, start]
  dsimp only
  rw [taken, dropped, bare, named.kept]
  dsimp only
  rw [isLegacyDoctype_bare]
  rfl

theorem chars_doctype (name : String) :
    (Subtree.doctype name).chars =
      '<' :: '!' :: 'D' :: 'O' :: 'C' :: 'T' :: 'Y' :: 'P' :: 'E' :: ' ' ::
        (name.toList ++ ['>']) := rfl

theorem scanMarkup_doctype {name : String} (named : IsDoctypeName name) (foreign : Bool)
    (rest : List Char) :
    scanMarkup foreign ((Subtree.doctype name).chars ++ rest) =
      ([.doctype name (name != "html")], rest) := by
  have scanned := scanDoctype_written named rest
  have written : (Subtree.doctype name).chars ++ rest = '<' :: '!' :: 'D' :: 'O' :: 'C' :: 'T' ::
      'Y' :: 'P' :: 'E' :: ' ' :: (name.toList ++ '>' :: rest) := by
    rw [List.append_cons name.toList '>' rest]
    rfl
  rw [written]
  exact scanned

/-! ## Text that is not markup -/

/-- Whether a closing tag follows does not depend on what stands behind it. -/
theorem nameAt?_append_angle (text rest : List Char) :
    nameAt? (text ++ '>' :: rest) = nameAt? (text ++ ['>']) := by
  unfold nameAt?
  rw [List.dropWhile_append, List.dropWhile_append, List.takeWhile_append, List.takeWhile_append]
  cases text.dropWhile isLetter with
  | nil => rfl
  | cons c left => rfl

theorem closes_append_angle (element : Option String) (text rest : List Char) :
    closes element (text ++ '>' :: rest) = closes element (text ++ ['>']) := by
  cases text with
  | nil => rfl
  | cons c text =>
      by_cases slash : c = '/'
      · subst slash
        have named := nameAt?_append_angle text rest
        simp only [closes, List.cons_append, named]
      · rw [closes_of_ne, closes_of_ne] <;> simpa using slash

theorem closes_append_tag (element : Option String) (text tag rest : List Char) :
    closes element (text ++ '<' :: (tag ++ '>' :: rest)) =
      closes element (text ++ '<' :: (tag ++ ['>'])) := by
  have same := closes_append_angle element (text ++ '<' :: tag) rest
  rwa [List.append_assoc, List.append_assoc] at same

/-- If the text of an element ends at its closing tag, it does so whatever stands behind that. -/
theorem rawText_append {element : Option String} {text tag : List Char}
    (read : rawText element (text ++ '<' :: (tag ++ ['>'])) = (text, '<' :: (tag ++ ['>'])))
    (rest : List Char) :
    rawText element (text ++ '<' :: (tag ++ '>' :: rest)) =
      (text, '<' :: (tag ++ '>' :: rest)) := by
  induction text with
  | nil =>
      rw [List.nil_append, rawText] at read ⊢
      rw [closes_append_angle]
      split at read
      · rename_i closed
        rw [if_pos closed]
      · cases read
  | cons c text ih =>
      rw [List.cons_append, rawText] at read ⊢
      rw [closes_append_tag]
      split at read
      · cases read
      · rename_i opened
        rw [if_neg opened]
        rw [Prod.mk.injEq, List.cons.injEq] at read
        rw [ih (Prod.ext read.1.2 read.2)]

theorem nameAt?_append_tag (text tag rest : List Char) :
    nameAt? (text ++ '<' :: (tag ++ '>' :: rest)) = nameAt? (text ++ '<' :: (tag ++ ['>'])) := by
  rw [nameAt?_append (by decide) (by decide), nameAt?_append (by decide) (by decide)]

theorem afterOpen_append_tag (state : ScriptState) (text tag rest : List Char) :
    state.afterOpen (text ++ '<' :: (tag ++ '>' :: rest)) =
      state.afterOpen (text ++ '<' :: (tag ++ ['>'])) := by
  cases state with
  | plain =>
      have starts (more : List Char) : (text ++ '<' :: more).take 3 = ['!', '-', '-'] ↔
          ['!', '-', '-'] <+: text :=
        (take_three_eq_iff _).trans (prefix_append_cons_iff (by decide) text more)
      simp only [ScriptState.afterOpen, starts]
  | escaped dashes => simp only [ScriptState.afterOpen, nameAt?_append_tag]
  | doubleEscaped dashes =>
      cases text with
      | nil => rfl
      | cons c text =>
          by_cases slash : c = '/'
          · subst slash
            simp only [ScriptState.afterOpen, List.cons_append, nameAt?_append_tag]
          · rw [afterOpen_doubleEscaped, afterOpen_doubleEscaped] <;> simpa using slash

/-- If the text of a script ends at its closing tag, it does so whatever stands behind that. -/
theorem scriptText_append {element : Option String} {state : ScriptState} {skip : Nat}
    {text tag : List Char}
    (read : scriptText element state skip (text ++ '<' :: (tag ++ ['>'])) =
      (text, '<' :: (tag ++ ['>']))) (rest : List Char) :
    scriptText element state skip (text ++ '<' :: (tag ++ '>' :: rest)) =
      (text, '<' :: (tag ++ '>' :: rest)) := by
  induction text generalizing state skip with
  | nil =>
      cases skip with
      | succ skip =>
          rw [List.nil_append, scriptText] at read
          cases read
      | zero =>
          rw [List.nil_append, scriptText, if_pos rfl] at read ⊢
          rw [closes_append_angle]
          split at read
          · rename_i closed
            rw [if_pos closed]
          · cases read
  | cons c text ih =>
      cases skip with
      | succ skip =>
          rw [List.cons_append, scriptText, Prod.mk.injEq, List.cons.injEq] at read
          rw [List.cons_append, scriptText, ih (Prod.ext read.1.2 read.2)]
      | zero =>
          rw [List.cons_append, scriptText] at read ⊢
          rw [closes_append_tag, afterOpen_append_tag]
          split at read
          · rename_i opening
            rw [if_pos opening]
            split at read
            · cases read
            · rename_i opened
              rw [Prod.mk.injEq, List.cons.injEq] at read
              rw [if_neg opened]
              dsimp only
              rw [ih (Prod.ext read.1.2 read.2)]
          · rename_i solid
            rw [Prod.mk.injEq, List.cons.injEq] at read
            rw [if_neg solid]
            dsimp only
            rw [ih (Prod.ext read.1.2 read.2)]

/-- The text of an element in markup that is read up to a closing tag, and the closing tag with
what follows it. -/
def textPart (content : Content) (element : String) (chars : List Char) : List Char × List Char :=
  match content with
  | .script => scriptText (some element) .plain 0 chars
  | _ => rawText (some element) chars

def EndsAtTag (content : Content) (data : Element) (text : List Char) : Prop :=
  textPart content data.name (text ++ data.closingChars) = (text, data.closingChars)

instance (content : Content) (data : Element) (text : List Char) :
    Decidable (EndsAtTag content data text) :=
  inferInstanceAs (Decidable (_ = _))

theorem closingChars_eq (data : Element) :
    data.closingChars = '<' :: ('/' :: data.name.toList ++ ['>']) := by
  simp [Element.closingChars]

theorem textPart_append {content : Content} {data : Element} {text : List Char}
    (ends : EndsAtTag content data text) (rest : List Char) :
    textPart content data.name (text ++ (data.closingChars ++ rest)) =
      (text, data.closingChars ++ rest) := by
  have closing : data.closingChars ++ rest = '<' :: ('/' :: data.name.toList ++ '>' :: rest) := by
    simp [Element.closingChars]
  rw [EndsAtTag, closingChars_eq] at ends
  rw [closing]
  cases content with
  | script => exact scriptText_append ends rest
  | markup | escapable | raw | endless => exact rawText_append ends rest

theorem withClosing_written {data : Element} (named : isTagName data.name = true)
    (text rest : List Char) :
    withClosing (text, data.closingChars ++ rest) =
      (Token.ofRun text ++ [.tag (closingTag data)], rest) := by
  rw [closingChars_append, withClosing]
  dsimp only
  rw [scanAfterOpen_closing named]

def Content.isBare : Content → Bool
  | .raw | .script => true
  | _ => false

theorem scan_bare {content : Content} (bare : content.isBare = true) {data : Element}
    (named : isTagName data.name = true) {text : List Char} (clean : IsClean text)
    (ends : EndsAtTag content data text) (foreign : Bool) (rest : List Char) :
    scan content (some data.name) foreign (text ++ (data.closingChars ++ rest)) =
      (Token.ofRun text ++ [.tag (closingTag data)], rest) := by
  have read := textPart_append ends rest
  have kept := map_mendNull clean.1
  cases content with
  | raw | script =>
      dsimp only [textPart] at read
      rw [scan, read]
      dsimp only
      rw [kept, withClosing_written named]
  | markup | escapable | endless => cases bare

theorem rawText_of_not_mem (element : Option String) {text : List Char} (unopened : '<' ∉ text)
    (rest : List Char) :
    rawText element (text ++ rest) =
      (text ++ (rawText element rest).1, (rawText element rest).2) := by
  induction text with
  | nil => rfl
  | cons c text ih =>
      rw [List.mem_cons, not_or] at unopened
      have solid : ¬ (decide (c = '<') && closes element (text ++ rest)) = true := by
        simp [Ne.symm unopened.1]
      rw [List.cons_append, rawText, if_neg solid, ih unopened.2]
      rfl

theorem scan_escapable {data : Element} (named : isTagName data.name = true) {text : List Char}
    (clean : IsClean text) (ends : EndsAtTag .escapable data []) (foreign : Bool)
    (rest : List Char) :
    scan .escapable (some data.name) foreign (escapeChars text ++ (data.closingChars ++ rest)) =
      (Token.ofRun text ++ [.tag (closingTag data)], rest) := by
  have closed := textPart_append ends rest
  rw [List.nil_append, textPart] at closed
  · rw [scan, rawText_of_not_mem _ (not_mem_escapeChars (by simp) text), closed, List.append_nil]
    dsimp only
    rw [map_mendNull_escapeChars clean.1, resolve_escapeChars, withClosing_written named]
  · exact nofun

end ServerPages.Markup
