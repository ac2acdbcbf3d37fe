import ServerPages.Proofs.Document.Shown

/-!
# Foreign elements in written documents

Elements of SVG and MathML hold markup whatever they are called: there is a `style` and a `link`
among them whose contents are read as those of any element. A document keeps the names of its
elements and not their vocabularies, so it writes such elements as if they were those of HTML.
What should be written of parsed trees is told here from the vocabularies, and when a document
writes just that.
-/

namespace ServerPages

/-! ## What should be written -/

namespace Markup

/-- Elements without contents and closing tag, all of which are of HTML. -/
def Vocabulary.isVoid (vocabulary : Vocabulary) (name : String) : Bool :=
  vocabulary == .html && Markup.isVoid name

def Vocabulary.isRawText (vocabulary : Vocabulary) (name : String) : Bool :=
  vocabulary == .html && Markup.isRawText name

namespace Tree

mutual

/-- The markup of a tree whose texts, if it is one, are written as they are or with references. -/
def chars (raw : Bool) : Tree → List Char
  | .doctype name => "<!DOCTYPE ".toList ++ name.toList ++ ['>']
  | .text content => if raw then content.toList else escapeChars content.toList
  | .comment content => "<!--".toList ++ content.toList ++ "-->".toList
  | .instruction _ _ => []
  | .element vocabulary name attributes contents children =>
      let data : Element := ⟨name.text, attributes.map fun item => (item.name.text, item.value)⟩
      let below := vocabulary.isRawText name.text
      data.openingChars ++
        if vocabulary.isVoid name.text then []
        else listChars below contents ++ listChars below children ++ data.closingChars

def listChars (raw : Bool) : List Tree → List Char
  | [] => []
  | tree :: trees => chars raw tree ++ listChars raw trees

end

theorem chars_text (raw : Bool) (content : String) :
    chars raw (.text content) = if raw then content.toList else escapeChars content.toList := rfl

theorem chars_element (raw : Bool) (vocabulary : Vocabulary) (name : Name)
    (attributes : List Attribute) (contents children : List Tree) :
    let data : Element := ⟨name.text, attributes.map fun item => (item.name.text, item.value)⟩
    let below := vocabulary.isRawText name.text
    chars raw (.element vocabulary name attributes contents children) = data.openingChars ++
      if vocabulary.isVoid name.text then []
      else listChars below contents ++ listChars below children ++ data.closingChars := rfl

mutual

/-- No foreign element that is written is called like a void one of HTML, and where one is called
like an element of HTML that holds raw text, no text in it has a character to be escaped.
An exposed tree stands in one that is called so. -/
def harmless (exposed : Bool) : Tree → Bool
  | .doctype _ | .comment _ | .instruction _ _ => true
  | .text content => !exposed || content.toList.all fun c => escapedChar c == [c]
  | .element vocabulary name _ contents children =>
      if vocabulary == .html then
        Markup.isVoid name.text || (allHarmless false contents && allHarmless false children)
      else
        !Markup.isVoid name.text && (allHarmless (Markup.isRawText name.text) contents &&
          allHarmless (Markup.isRawText name.text) children)

def allHarmless (exposed : Bool) : List Tree → Bool
  | [] => true
  | tree :: trees => harmless exposed tree && allHarmless exposed trees

end

end Tree

end Markup

/-! ## What is written -/

/-- Written markup that is never longer than what should be written, and when the two are one. -/
def Approaches (written due : List Char) (same : Bool) : Prop :=
  written.length ≤ due.length ∧ (written = due ↔ same = true)

namespace Approaches

variable {written due more moreDue : List Char} {same others : Bool}

theorem refl (written : List Char) : Approaches written written true :=
  ⟨Nat.le_refl _, iff_of_true rfl rfl⟩

theorem append (first : Approaches written due same) (second : Approaches more moreDue others) :
    Approaches (written ++ more) (due ++ moreDue) (same && others) := by
  constructor
  · rw [List.length_append, List.length_append]
    exact Nat.add_le_add first.1 second.1
  · rw [Bool.and_eq_true, ← first.2, ← second.2]
    constructor
    · intro joined
      -- neither part can make up for what the other one lacks
      have lengths := congrArg List.length joined
      rw [List.length_append, List.length_append] at lengths
      have front := first.1
      have back := second.1
      exact List.append_inj joined (by omega)
    · rintro ⟨rfl, rfl⟩
      rfl

theorem of_length_lt (short : written.length < due.length) : Approaches written due false := by
  refine ⟨Nat.le_of_lt short, iff_of_false ?_ Bool.false_ne_true⟩
  rintro rfl
  exact Nat.lt_irrefl _ short

end Approaches

open Markup (Tree)

theorem approaches_escapeChars (content : List Char) :
    Approaches content (Markup.escapeChars content)
      (content.all fun c => Markup.escapedChar c == [c]) := by
  induction content with
  | nil => exact .refl []
  | cons c content ih =>
      have single : Approaches [c] (Markup.escapedChar c) (Markup.escapedChar c == [c]) := by
        refine ⟨List.length_pos_iff.mpr (Markup.escapedChar_ne_nil c), ?_⟩
        rw [beq_iff_eq]
        exact eq_comm
      exact single.append ih

namespace Subtree

def rawBelow (parent : Option String) : Bool :=
  (parent.map Markup.isRawText).getD false

theorem listChars_singleton (tree : Subtree) : listChars [tree] = tree.chars :=
  by rw [listChars, listChars, List.append_nil]

theorem approaches_text (parent : Option String) (raw : Bool)
    (kept : raw = true → rawBelow parent = true) (content : String) :
    Approaches (listChars [ofText parent content]) (Tree.chars raw (.text content))
      (Tree.harmless (rawBelow parent && !raw) (.text content)) := by
  rw [listChars_singleton, ofText, Tree.chars_text, Tree.harmless, ← rawBelow]
  cases held : rawBelow parent with
  | false =>
      have plain : raw = false := Bool.eq_false_iff.mpr fun written =>
        Bool.false_ne_true (held.symm.trans (kept written))
      subst plain
      exact .refl _
  | true =>
      cases raw with
      | true => exact .refl _
      | false => exact approaches_escapeChars content.toList

theorem rawBelow_isRawText (vocabulary : Markup.Vocabulary) (name : String)
    (raw : vocabulary.isRawText name = true) : rawBelow (some name) = true :=
  (Bool.and_eq_true_iff.mp raw).2

theorem exposed_html (name : String) :
    (rawBelow (some name) && !Markup.Vocabulary.html.isRawText name) = false :=
  Bool.and_not_self (Markup.isRawText name)

theorem exposed_foreign {vocabulary : Markup.Vocabulary} (foreign : vocabulary ≠ .html)
    (name : String) :
    (rawBelow (some name) && !vocabulary.isRawText name) = Markup.isRawText name := by
  rw [Markup.Vocabulary.isRawText, beq_false_of_ne foreign]
  exact Bool.and_true _

/-- An element of HTML is written as it should be as far as what is in it is. -/
theorem approaches_html (data : Element) {written due : List Char} {same : Bool}
    (inside : Approaches (written ++ data.closingChars) (due ++ data.closingChars) same) :
    Approaches
      (data.openingChars ++ if Markup.isVoid data.name then [] else written ++ data.closingChars)
      (data.openingChars ++
        if Markup.Vocabulary.html.isVoid data.name then [] else due ++ data.closingChars)
      (Markup.isVoid data.name || same) := by
  change Approaches _ (_ ++ if Markup.isVoid data.name then _ else _) _
  cases Markup.isVoid data.name with
  | true => exact .refl _
  | false => exact (Approaches.refl data.openingChars).append inside

/-- A foreign element is written as it should be if it is not taken for a void one of HTML, as far
as what is in it is. -/
theorem approaches_foreign (data : Element) {written due : List Char} {same : Bool}
    (inside : Approaches (written ++ data.closingChars) (due ++ data.closingChars) same) :
    Approaches
      (data.openingChars ++ if Markup.isVoid data.name then [] else written ++ data.closingChars)
      (data.openingChars ++ (due ++ data.closingChars))
      (!Markup.isVoid data.name && same) := by
  cases Markup.isVoid data.name with
  | true =>
      apply Approaches.of_length_lt
      have closing : data.closingChars.length = data.name.toList.length + 3 := by
        simp [Element.closingChars]
      rw [if_pos rfl, List.length_append, List.length_append, List.length_append, List.length_nil,
        closing]
      omega
  | false => exact (Approaches.refl data.openingChars).append inside

mutual

theorem approaches_tree (parent : Option String) (raw : Bool)
    (kept : raw = true → rawBelow parent = true) (tree : Tree) :
    Approaches (listChars (ofTree parent tree)) (tree.chars raw)
      (tree.harmless (rawBelow parent && !raw)) := by
  cases tree with
  | doctype name =>
      rw [ofTree, listChars_singleton]
      exact .refl _
  | text content => exact approaches_text parent raw kept content
  | comment content =>
      rw [ofTree, listChars_singleton]
      exact .refl _
  | instruction target content => exact .refl []
  | element vocabulary name attributes contents children =>
      let data : Element := ⟨name.text, attributes.map fun item => (item.name.text, item.value)⟩
      have raws := rawBelow_isRawText vocabulary name.text
      have inside := ((approaches_trees (some name.text) _ raws contents).append
        (approaches_trees (some name.text) _ raws children)).append (.refl data.closingChars)
      rw [← listChars_append, Bool.and_true] at inside
      rw [ofTree, listChars_singleton, chars_element, Tree.chars_element, Tree.harmless]
      cases vocabulary with
      | html =>
          rw [exposed_html] at inside
          exact approaches_html data inside
      | svg =>
          have foreign : Markup.Vocabulary.svg ≠ .html := by decide
          rw [exposed_foreign foreign] at inside
          exact approaches_foreign data inside
      | math =>
          have foreign : Markup.Vocabulary.math ≠ .html := by decide
          rw [exposed_foreign foreign] at inside
          exact approaches_foreign data inside

theorem approaches_trees (parent : Option String) (raw : Bool)
    (kept : raw = true → rawBelow parent = true) (trees : List Tree) :
    Approaches (listChars (ofTrees parent trees)) (Tree.listChars raw trees)
      (Tree.allHarmless (rawBelow parent && !raw) trees) := by
  cases trees with
  | nil => exact .refl []
  | cons tree trees =>
      rw [ofTrees, listChars_append, Tree.listChars, Tree.allHarmless]
      exact (approaches_tree parent raw kept tree).append (approaches_trees parent raw kept trees)

end

end Subtree

/-! ## Documents -/

namespace Document

open Markup (Tree)

/-- A document that was made of trees is written as they should be if and only if these are
harmless: unless a foreign element is taken for a void one, or for one that holds raw text and has
a text with a character to be escaped. -/
theorem toHtml_graftAll_eq_iff (trees : List Tree) :
    (empty.graftAll root trees).toHtml = String.ofList (Tree.listChars false trees) ↔
      Tree.allHarmless false trees = true := by
  have written : (empty.graftAll root trees).toHtml =
      String.ofList (Subtree.listChars (Subtree.ofTrees none trees)) := by
    rw [toHtml_eq, whole_graftAll]
    rw [Subtree.listChars_singleton]
    rfl
  rw [written, String.ofList_inj]
  exact (Subtree.approaches_trees none false nofun trees).2

/-- A decoded text in a foreign `style` is written as markup. -/
example : (parse "<svg><style>&lt;b&gt;</style></svg>").toHtml =
    "<html><head></head><body><svg><style><b></style></svg></body></html>" := by
  decide +kernel

end Document

end ServerPages
