import Mathlib.Data.List.Chain
import ServerPages.Proofs.Document.Reachable
import ServerPages.Proofs.Document.Writing
import ServerPages.Proofs.Markup.Unescape
import ServerPages.Text.Split

/-!
# Reading written documents back

A tree of elements and texts is read back from its markup as it was: whatever its attributes and
texts hold, they are never taken for tags, for the ends of attributes or for references.

The reader takes the next node by its first character. It relies on names without blanks, on texts
that neither are empty nor follow each other, and on void elements without contents; written
values and texts hold no character that ends them.
-/

namespace ServerPages

open Markup Text

/-! ## Trees that markup stands for -/

/-- Names of elements: letters, digits and hyphens. -/
structure IsElementName (name : String) : Prop where
  nonempty : name ≠ ""
  plain : ∀ c ∈ name.toList, c.isAlphanum = true ∨ c = '-'
  markup : isRawText name = false

/-- Names of attributes: no blanks, and nothing that ends a name or a tag. -/
structure IsAttributeName (name : String) : Prop where
  nonempty : name ≠ ""
  plain : ∀ c ∈ name.toList, isSpace c = false ∧ c ∉ ['=', '"', '\'', '<', '>', '/']

instance (name : String) : Decidable (IsElementName name) :=
  have := List.decidableBAll (fun c => c.isAlphanum = true ∨ c = '-') name.toList
  decidable_of_iff (name ≠ "" ∧ (∀ c ∈ name.toList, c.isAlphanum = true ∨ c = '-') ∧
    isRawText name = false) ⟨fun ⟨a, b, c⟩ => ⟨a, b, c⟩, fun ⟨a, b, c⟩ => ⟨a, b, c⟩⟩

instance (name : String) : Decidable (IsAttributeName name) :=
  have := List.decidableBAll (fun c => isSpace c = false ∧ c ∉ ['=', '"', '\'', '<', '>', '/'])
    name.toList
  decidable_of_iff (name ≠ "" ∧
    ∀ c ∈ name.toList, isSpace c = false ∧ c ∉ ['=', '"', '\'', '<', '>', '/'])
    ⟨fun ⟨a, b⟩ => ⟨a, b⟩, fun ⟨a, b⟩ => ⟨a, b⟩⟩

namespace Subtree

def isText : Subtree → Bool
  | .text _ => true
  | _ => false

mutual

/-- Trees of elements and texts that markup can stand for. -/
def Plain : Subtree → Prop
  | .element data children =>
      IsElementName data.name ∧ (∀ item ∈ data.attributes, IsAttributeName item.1) ∧
        (isVoid data.name = true → children = []) ∧ AllPlain children
  | .text content => content ≠ ""
  | _ => False

/-- Such trees one after the other; no text follows a text. -/
def AllPlain : List Subtree → Prop
  | [] => True
  | tree :: trees =>
      Plain tree ∧ AllPlain trees ∧ (tree.isText = true → (trees.head?.map isText) ≠ some true)

end

mutual

instance Plain.decidable : (tree : Subtree) → Decidable tree.Plain
  | .element data children =>
      have := AllPlain.decidable children
      inferInstanceAs (Decidable (IsElementName data.name ∧
        (∀ item ∈ data.attributes, IsAttributeName item.1) ∧
          (isVoid data.name = true → children = []) ∧ AllPlain children))
  | .text content => inferInstanceAs (Decidable (content ≠ ""))
  | .document _ | .doctype _ | .raw _ | .comment _ => inferInstanceAs (Decidable False)

instance AllPlain.decidable : (trees : List Subtree) → Decidable (AllPlain trees)
  | [] => inferInstanceAs (Decidable True)
  | tree :: trees =>
      have := Plain.decidable tree
      have := AllPlain.decidable trees
      inferInstanceAs (Decidable (Plain tree ∧ AllPlain trees ∧
        (tree.isText = true → (trees.head?.map isText) ≠ some true)))

end

/-! ## The reader -/

def isNamePart (c : Char) : Bool :=
  c != ' ' && c != '>'

/-- The attributes of an opening tag, and what follows the tag. The number of steps is at most that
of the characters. -/
def readAttributes : Nat → List Char → Option (List (String × String) × List Char)
  | steps + 1, ' ' :: rest =>
      match splitOnce '=' rest with
      | (name, some ('"' :: rest)) =>
          match splitOnce '"' rest with
          | (value, some rest) => do
              let (items, rest) ← readAttributes steps rest
              return ((String.ofList name, String.ofList (unescapeChars value)) :: items, rest)
          | _ => none
      | _ => none
  | _ + 1, '>' :: rest => some ([], rest)
  | _, _ => none

/-- The nodes up to the end or to a closing tag, and what follows them. The number of steps is at
most that of the characters. -/
def readNodes : Nat → List Char → Option (List Subtree × List Char)
  | 0, _ => none
  | _ + 1, [] => some ([], [])
  | _ + 1, '<' :: '/' :: rest => some ([], '<' :: '/' :: rest)
  | steps + 1, '<' :: rest => do
      let name := String.ofList (rest.takeWhile isNamePart)
      let (attributes, rest) ← readAttributes steps (rest.dropWhile isNamePart)
      let data : Element := ⟨name, attributes⟩
      if isVoid name then
        let (trees, rest) ← readNodes steps rest
        return (.element data [] :: trees, rest)
      else
        let (children, rest) ← readNodes steps rest
        let rest ← afterStart? data.closingChars rest
        let (trees, rest) ← readNodes steps rest
        return (.element data children :: trees, rest)
  | steps + 1, chars => do
      let content := String.ofList (unescapeChars (chars.takeWhile (· != '<')))
      let (trees, rest) ← readNodes steps (chars.dropWhile (· != '<'))
      return (.text content :: trees, rest)

def decode (markup : String) : Option Subtree :=
  match readNodes (markup.toList.length + 1) markup.toList with
  | some ([tree], []) => some tree
  | _ => none

/-! ## Reading attributes -/

theorem readAttributes_cons {item : String × String} (named : IsAttributeName item.1)
    {steps : Nat} {chars rest : List Char} {items : List (String × String)}
    (more : readAttributes steps chars = some (items, rest)) :
    readAttributes (steps + 1) (Element.attributeChars item ++ chars) =
      some (item :: items, rest) := by
  obtain ⟨name, value⟩ := item
  have unequal : '=' ∉ name.toList := fun member => by simpa using (named.plain _ member).2
  have unquoted := @not_mem_escapeChars '"' (by simp) value.toList
  have written : Element.attributeChars (name, value) ++ chars =
      ' ' :: (name.toList ++ '=' :: '"' :: (escapeChars value.toList ++ '"' :: chars)) := by
    simp [Element.attributeChars]
  rw [written, readAttributes, splitOnce_append unequal]
  simp [splitOnce_append unquoted, more, unescapeChars_escapeChars]

/-- The attributes of a written opening tag are read, whatever follows the tag. -/
theorem readAttributes_written {items : List (String × String)}
    (named : ∀ item ∈ items, IsAttributeName item.1) {steps : Nat} (rest : List Char)
    (enough : items.length < steps) :
    readAttributes steps (items.flatMap Element.attributeChars ++ '>' :: rest) =
      some (items, rest) := by
  induction items generalizing steps with
  | nil =>
      obtain ⟨steps, rfl⟩ := Nat.exists_eq_add_one_of_ne_zero (Nat.ne_of_gt enough)
      rfl
  | cons item items ih =>
      rw [List.length_cons] at enough
      obtain ⟨steps, rfl⟩ := Nat.exists_eq_add_one_of_ne_zero (Nat.ne_zero_of_lt enough)
      rw [List.flatMap_cons, List.append_assoc]
      refine readAttributes_cons (named item List.mem_cons_self) ?_
      exact ih (fun item member => named item (List.mem_cons_of_mem _ member)) (by omega)

theorem length_le_attributeChars (items : List (String × String)) :
    items.length ≤ (items.flatMap Element.attributeChars).length := by
  induction items with
  | nil => exact Nat.le_refl _
  | cons item items ih =>
      simp only [List.flatMap_cons, List.length_cons, List.length_append, Element.attributeChars]
      omega

/-! ## Reading nodes -/

def Stops (chars : List Char) : Prop :=
  chars = [] ∨ ∃ rest, chars = '<' :: '/' :: rest

theorem readNodes_stops {chars : List Char} (stops : Stops chars) (steps : Nat) :
    readNodes (steps + 1) chars = some ([], chars) := by
  obtain rfl | ⟨rest, rfl⟩ := stops <;> rfl

theorem takeWhile_isNamePart {name : String} (named : IsElementName name) {c : Char}
    (ends : isNamePart c = false) (rest : List Char) :
    (name.toList ++ c :: rest).takeWhile isNamePart = name.toList ∧
      (name.toList ++ c :: rest).dropWhile isNamePart = c :: rest := by
  have parts : ∀ d ∈ name.toList, isNamePart d = true := by
    intro d member
    rw [isNamePart, Bool.and_eq_true, bne_iff_ne, bne_iff_ne]
    rcases named.plain d member with plain | rfl
    · constructor <;> rintro rfl <;> simp at plain
    · decide
  rw [List.takeWhile_append_of_pos parts, List.dropWhile_append_of_pos parts]
  simp [ends]

/-- What follows the name in an opening tag ends the name. -/
theorem exists_isNamePart_false (items : List (String × String)) (rest : List Char) :
    ∃ c more, items.flatMap Element.attributeChars ++ '>' :: rest = c :: more ∧
      isNamePart c = false := by
  cases items with
  | nil => exact ⟨'>', rest, rfl, by decide⟩
  | cons item items => exact ⟨' ', _, rfl, by decide⟩

/-- The first character of an element's name does not make its tag a closing one. -/
theorem head_ne_slash {name : String} (named : IsElementName name) :
    ∃ c more, name.toList = c :: more ∧ c ≠ '/' := by
  cases chars : name.toList with
  | nil => exact absurd (String.toList_eq_nil_iff.mp chars) named.nonempty
  | cons c more =>
      refine ⟨c, more, rfl, ?_⟩
      rintro rfl
      rcases named.plain '/' (chars ▸ List.mem_cons_self) with plain | same
      · simp at plain
      · cases same

/-- A written opening tag is read with its name and its attributes. -/
theorem readNodes_opening {data : Element} (named : IsElementName data.name)
    (attributes : ∀ item ∈ data.attributes, IsAttributeName item.1) {steps : Nat}
    (enough : data.attributes.length < steps) (rest : List Char) :
    readNodes (steps + 1) (data.openingChars ++ rest) =
      if isVoid data.name then do
        let (trees, rest) ← readNodes steps rest
        return (.element data [] :: trees, rest)
      else do
        let (children, rest) ← readNodes steps rest
        let rest ← afterStart? data.closingChars rest
        let (trees, rest) ← readNodes steps rest
        return (.element data children :: trees, rest) := by
  obtain ⟨ending, more, ends, notPart⟩ := exists_isNamePart_false data.attributes rest
  have written : data.openingChars ++ rest = '<' :: (data.name.toList ++ ending :: more) := by
    rw [← ends]
    simp [Element.openingChars]
  obtain ⟨name, dropped⟩ := takeWhile_isNamePart named notPart more
  obtain ⟨c, others, first, notSlash⟩ := head_ne_slash named
  rw [written]
  rw [first, List.cons_append] at name dropped ⊢
  rw [readNodes, name, dropped, ← ends, readAttributes_written attributes rest enough, ← first,
    String.ofList_toList]
  · rfl
  · simp [notSlash]

theorem length_escapeChars_pos {content : String} (nonempty : content ≠ "") :
    0 < (escapeChars content.toList).length := by
  cases letters : content.toList with
  | nil => exact absurd (String.toList_eq_nil_iff.mp letters) nonempty
  | cons c more =>
      have first := List.length_pos_iff.mpr (escapedChar_ne_nil c)
      rw [escapeChars, List.flatMap_cons, List.length_append]
      omega

/-- A written text is read up to the next tag. -/
theorem readNodes_text {content : String} (nonempty : content ≠ "") {steps : Nat}
    {chars : List Char} (ends : chars = [] ∨ ∃ rest, chars = '<' :: rest) :
    readNodes (steps + 1) (escapeChars content.toList ++ chars) = do
      let (trees, rest) ← readNodes steps chars
      return (.text content :: trees, rest) := by
  have unopened := @not_mem_escapeChars '<' (by simp) content.toList
  have parts : ∀ c ∈ escapeChars content.toList, (c != '<') = true := by
    intro c member
    exact bne_iff_ne.mpr fun same => unopened (same ▸ member)
  have taken : (escapeChars content.toList ++ chars).takeWhile (· != '<') =
      escapeChars content.toList := by
    rw [List.takeWhile_append_of_pos parts]
    obtain rfl | ⟨rest, rfl⟩ := ends <;> simp
  have dropped : (escapeChars content.toList ++ chars).dropWhile (· != '<') = chars := by
    rw [List.dropWhile_append_of_pos parts]
    obtain rfl | ⟨rest, rfl⟩ := ends <;> simp
  cases written : escapeChars content.toList with
  | nil => exact absurd written (List.length_pos_iff.mp (length_escapeChars_pos nonempty))
  | cons c more =>
      have apart : c ≠ '<' := fun same => unopened (written ▸ same ▸ List.mem_cons_self)
      have read := congrArg String.ofList (unescapeChars_escapeChars content.toList)
      rw [String.ofList_toList] at read
      rw [written, List.cons_append] at taken dropped
      rw [List.cons_append, readNodes, taken, dropped, ← written, read]
      all_goals simp [apart]

theorem length_openingChars (data : Element) :
    data.attributes.length < data.openingChars.length := by
  have items := length_le_attributeChars data.attributes
  simp only [Element.openingChars, List.length_cons, List.length_append]
  omega

/-- Up to a text, what is written starts with a tag if anything is written. -/
theorem listChars_cases {trees : List Subtree} (plain : AllPlain trees)
    (apart : trees.head?.map isText ≠ some true) {rest : List Char} (stops : Stops rest) :
    listChars trees ++ rest = [] ∨ ∃ more, listChars trees ++ rest = '<' :: more := by
  cases trees with
  | nil =>
      obtain rfl | ⟨rest, rfl⟩ := stops
      · exact .inl rfl
      · exact .inr ⟨_, rfl⟩
  | cons tree trees =>
      have first := plain.1
      cases tree with
      | element data children => exact .inr ⟨_, rfl⟩
      | text content => exact absurd rfl apart
      | document | doctype | raw | comment => exact first.elim

mutual

/-- A written node is read with what follows it, as far as that is read. -/
theorem readNodes_chars (tree : Subtree) (plain : tree.Plain) {trees : List Subtree}
    {rest : List Char} {steps : Nat}
    (enough : (tree.chars ++ (listChars trees ++ rest)).length < steps)
    (ends : tree.isText = true →
      listChars trees ++ rest = [] ∨ ∃ more, listChars trees ++ rest = '<' :: more)
    (others : ∀ steps, (listChars trees ++ rest).length < steps →
      readNodes steps (listChars trees ++ rest) = some (trees, rest)) :
    readNodes steps (tree.chars ++ (listChars trees ++ rest)) = some (tree :: trees, rest) := by
  obtain ⟨steps, rfl⟩ := Nat.exists_eq_add_one_of_ne_zero (Nat.ne_zero_of_lt enough)
  cases tree with
  | document | doctype | raw | comment => exact plain.elim
  | text content =>
      simp only [Plain] at plain
      rw [chars_text] at enough ⊢
      have some := length_escapeChars_pos plain
      rw [List.length_append] at enough
      rw [readNodes_text plain (ends rfl), others steps (by omega)]
      rfl
  | element data children =>
      obtain ⟨named, attributes, void, inner⟩ := plain
      have opening := length_openingChars data
      rw [chars_element] at enough ⊢
      simp only [List.length_append, List.append_assoc] at enough others ⊢
      rw [readNodes_opening named attributes (by omega)]
      by_cases isVoid : isVoid data.name = true
      · rw [if_pos isVoid, if_pos isVoid, void isVoid, List.nil_append, others steps (by omega)]
        rfl
      · simp only [if_neg isVoid, List.append_assoc] at enough ⊢
        have closing : Stops (data.closingChars ++ (listChars trees ++ rest)) :=
          .inr ⟨data.name.toList ++ ['>'] ++ (listChars trees ++ rest),
            by simp [Element.closingChars]⟩
        rw [readNodes_listChars children inner closing (by simp at enough ⊢; omega)]
        have after :
            afterStart? data.closingChars (data.closingChars ++ (listChars trees ++ rest)) =
            some (listChars trees ++ rest) := afterStart?_eq_some.mpr rfl
        simp only [Option.bind_eq_bind, Option.bind_some, after,
          others steps (by simp at enough ⊢; omega)]
        rfl

/-- Written nodes are read up to where they end. -/
theorem readNodes_listChars (trees : List Subtree) (plain : AllPlain trees) {rest : List Char}
    (stops : Stops rest) {steps : Nat} (enough : (listChars trees ++ rest).length < steps) :
    readNodes steps (listChars trees ++ rest) = some (trees, rest) := by
  cases trees with
  | nil =>
      obtain ⟨steps, rfl⟩ := Nat.exists_eq_add_one_of_ne_zero (Nat.ne_zero_of_lt enough)
      exact readNodes_stops stops steps
  | cons tree trees =>
      obtain ⟨first, others, apart⟩ := plain
      rw [listChars_cons, List.append_assoc] at enough ⊢
      refine readNodes_chars tree first enough
        (fun text => listChars_cases others (apart text) stops) fun steps enough => ?_
      exact readNodes_listChars trees others stops enough

end

theorem decode_chars {tree : Subtree} (plain : tree.Plain) :
    decode (String.ofList tree.chars) = some tree := by
  have whole : listChars [tree] = tree.chars := by simp
  have read := readNodes_listChars [tree] ⟨plain, trivial, fun _ => nofun⟩ (.inl rfl)
    (Nat.lt_succ_self _)
  rw [List.append_nil, whole] at read
  rw [decode, String.toList_ofList, read]

end Subtree

namespace Document

mutual

def Depicts (doc : Document) (id : NodeId) : Subtree → Prop
  | .document trees => doc.kind? id = some .document ∧ DepictsAll doc (doc.children id) trees
  | .doctype name => doc.kind? id = some (.doctype name)
  | .element data trees =>
      doc.kind? id = some (.element data) ∧ DepictsAll doc (doc.children id) trees
  | .text content => doc.kind? id = some (.text content)
  | .raw content => doc.kind? id = some (.raw content)
  | .comment content => doc.kind? id = some (.comment content)

def DepictsAll (doc : Document) : List NodeId → List Subtree → Prop
  | [], [] => True
  | id :: ids, tree :: trees => Depicts doc id tree ∧ DepictsAll doc ids trees
  | _, _ => False

end

mutual

instance Depicts.decidable (doc : Document) (id : NodeId) :
    (tree : Subtree) → Decidable (doc.Depicts id tree)
  | .document trees =>
      have := DepictsAll.decidable doc (doc.children id) trees
      inferInstanceAs (Decidable (doc.kind? id = some .document ∧ _))
  | .element data trees =>
      have := DepictsAll.decidable doc (doc.children id) trees
      inferInstanceAs (Decidable (doc.kind? id = some (.element data) ∧ _))
  | .doctype _ | .text _ | .raw _ | .comment _ =>
      inferInstanceAs (Decidable (doc.kind? id = some _))

instance DepictsAll.decidable (doc : Document) :
    (ids : List NodeId) → (trees : List Subtree) → Decidable (doc.DepictsAll ids trees)
  | [], [] => inferInstanceAs (Decidable True)
  | id :: ids, tree :: trees =>
      have := Depicts.decidable doc id tree
      have := DepictsAll.decidable doc ids trees
      inferInstanceAs (Decidable (doc.Depicts id tree ∧ doc.DepictsAll ids trees))
  | [], _ :: _ | _ :: _, [] => inferInstanceAs (Decidable False)

end

variable {doc : Document}

def treeOver (below : List Subtree) : NodeKind → Subtree
  | .document => .document below
  | .doctype name => .doctype name
  | .element element => .element element below
  | .text content => .text content
  | .raw content => .raw content
  | .comment content => .comment content

theorem subtrees_of_kind? {id : NodeId} {kind : NodeKind} (known : doc.kind? id = some kind)
    (height : Nat) : doc.subtrees (height + 1) [id] =
      [treeOver (doc.subtrees height (doc.children id)) kind] := by
  rw [subtrees, List.filterMap_cons, known]
  cases kind <;> rfl

mutual

/-- The tree that stands at a node is written, given height enough. -/
theorem exists_subtrees (tree : Subtree) {id : NodeId} (depicts : doc.Depicts id tree) :
    ∃ enough, ∀ height, enough ≤ height → doc.subtrees (height + 1) [id] = [tree] := by
  cases tree with
  | doctype | text | raw | comment =>
      exact ⟨0, fun height _ => subtrees_of_kind? depicts height⟩
  | document trees =>
      obtain ⟨enough, written⟩ := exists_subtrees_all trees depicts.2
      refine ⟨enough + 1, fun height high => ?_⟩
      obtain ⟨height, rfl⟩ := Nat.exists_eq_add_one_of_ne_zero (Nat.ne_zero_of_lt high)
      rw [subtrees_of_kind? depicts.1, written height (Nat.le_of_succ_le_succ high), treeOver]
  | element data trees =>
      obtain ⟨enough, written⟩ := exists_subtrees_all trees depicts.2
      refine ⟨enough + 1, fun height high => ?_⟩
      obtain ⟨height, rfl⟩ := Nat.exists_eq_add_one_of_ne_zero (Nat.ne_zero_of_lt high)
      rw [subtrees_of_kind? depicts.1, written height (Nat.le_of_succ_le_succ high), treeOver]

theorem exists_subtrees_all (trees : List Subtree) {ids : List NodeId}
    (depicts : doc.DepictsAll ids trees) :
    ∃ enough, ∀ height, enough ≤ height → doc.subtrees (height + 1) ids = trees := by
  match ids, trees, depicts with
  | [], [], _ => exact ⟨0, fun _ _ => rfl⟩
  | id :: ids, tree :: trees, ⟨first, others⟩ =>
      obtain ⟨enough, here⟩ := exists_subtrees tree first
      obtain ⟨more, there⟩ := exists_subtrees_all trees others
      refine ⟨max enough more, fun height high => ?_⟩
      have split : doc.subtrees (height + 1) (id :: ids) =
          doc.subtrees (height + 1) [id] ++ doc.subtrees (height + 1) ids := by
        simp only [subtrees, ← List.filterMap_append, List.singleton_append]
      rw [split, here height (by omega), there height (by omega), List.singleton_append]

end

theorem outerHtml_eq (wf : doc.WellFormed) {id : NodeId} {tree : Subtree}
    (depicts : doc.Depicts id tree) : doc.outerHtml id = String.ofList tree.chars := by
  obtain ⟨enough, written⟩ := exists_subtrees tree depicts
  have whole := subtrees_of_size_le wf (Nat.le_add_right doc.size (enough + 1)) id
  rw [← Nat.add_assoc, written _ (Nat.le_add_left _ _)] at whole
  rw [outerHtml, ← whole, Subtree.listChars_cons, Subtree.listChars_nil, List.append_nil]

/-- The markup of what stands below a node is that of the trees that stand there. -/
theorem innerHtml_eq (wf : doc.WellFormed) {id : NodeId} {trees : List Subtree}
    (depicts : doc.DepictsAll (doc.children id) trees) :
    doc.innerHtml id = String.ofList (Subtree.listChars trees) := by
  obtain ⟨enough, written⟩ := exists_subtrees_all trees depicts
  obtain ⟨upper, lineage⟩ := wf.exists_lineage id
  have whole := subtrees_children_add wf (enough + 1) doc.size lineage (Nat.le_add_left _ _)
  rw [← Nat.add_assoc, written _ (Nat.le_add_left _ _)] at whole
  rw [innerHtml, ← whole]

/-- A tree of elements and texts is read back from the markup of the node that it stands at, its
names, its attributes with their values in order, its texts and what stands in what. Written values
and texts hold none of the characters that markup is made of, and nothing is lost in them. -/
theorem decode_outerHtml :
    (∀ (doc : Document) (id : NodeId) (tree : Subtree), doc.WellFormed → doc.Depicts id tree →
      tree.Plain → Subtree.decode (doc.outerHtml id) = some tree) ∧
    ∀ text, unescape (escape text) = text ∧
      ∀ mark ∈ ['<', '>', '"', '\''], mark ∉ (escape text).toList := by
  refine ⟨fun doc id tree wf depicts plain => ?_, fun text => ⟨unescape_escape text, ?_⟩⟩
  · rw [outerHtml_eq wf depicts]
    exact Subtree.decode_chars plain
  · intro mark member
    rw [escape, String.toList_ofList]
    exact not_mem_escapeChars (by simpa using member) text.toList

/-- A paragraph whose value and texts look like markup. -/
theorem decode_outerHtml_paragraph :
    let doc := parse "<p title='\"><b>&amp;lt;'>1 &lt; 2<br>&amp;<b>&lt;/p></b></p>"
    let tree : Subtree := .element ⟨"p", [("title", "\"><b>&lt;")]⟩
      [.text "1 < 2", .element ⟨"br", []⟩ [], .text "&", .element ⟨"b", []⟩ [.text "</p>"]]
    (doc.WellFormed ∧ doc.Depicts ⟨4⟩ tree ∧ tree.Plain) ∧
      Subtree.decode (doc.outerHtml ⟨4⟩) = some tree := by
  intro doc tree
  have wf : doc.WellFormed := wellFormed_parse _
  have depicts : doc.Depicts ⟨4⟩ tree := by decide +kernel
  have plain : tree.Plain := by decide +kernel
  exact ⟨⟨wf, depicts, plain⟩, decode_outerHtml.1 doc ⟨4⟩ tree wf depicts plain⟩

end Document

end ServerPages
