import ServerPages.Proofs.Markup.Standing

/-!
# What is added where a construction stands

Elements, texts and comments go to the end of the latest open element. A text that follows a text
goes on with it, so that the runs of characters that a text is read in become one text again.
-/

namespace ServerPages.Markup.Construction

open Subtree (ShownAt ShownAll StartsAt ofText)

variable {b next : Construction} {top : NodeId} {below : List NodeId} {label : Label}
  {setting : Setting} {mode : Mode} {path : List Label} {parent : Option String}

/-- Nodes are put at the end of the latest open element, or of the contents of a template. -/
theorem place_eq (idle : b.Idle setting) (puts : b.PutsIn top) : b.place = .last top := by
  obtain ⟨id, below, stack, rfl⟩ := puts
  rw [place, stack, List.head?_cons, Option.getD_some, placeIn, idle.fostering, Bool.false_and,
    if_neg Bool.false_ne_true]

/-! ## Elements -/

def enter (b : Construction) (top : NodeId) (vocabulary : Vocabulary) (name : String)
    (attributes : List Attribute) : Construction :=
  { b with
    forest := b.forest.sprout top (.element vocabulary name attributes none)
    stack := ⟨b.forest.size⟩ :: b.stack }

def add (b : Construction) (top : NodeId) (part : Part) : Construction :=
  { b with forest := b.forest.sprout top part }

theorem insert_eq (place : b.place = .last top) {vocabulary : Vocabulary} {name : String}
    (plain : ¬ (vocabulary = .html ∧ name = "template")) (attributes : List Attribute) :
    b.insert true vocabulary name attributes =
        (⟨b.forest.size⟩, b.enter top vocabulary name attributes) ∧
      b.insert false vocabulary name attributes =
        (⟨b.forest.size⟩, b.add top (.element vocabulary name attributes none)) := by
  unfold insert create
  rw [place, if_neg plain]
  exact ⟨rfl, rfl⟩

theorem openTag_eq (place : b.place = .last top) {tag : Tag} (plain : tag.name ≠ "template") :
    b.openTag tag = (⟨b.forest.size⟩,
      b.enter top .html tag.name (Vocabulary.html.attributes tag.attributes)) :=
  (insert_eq place (fun same => plain same.2) _).1

theorem openFor_eq (place : b.place = .last top) {tag : Tag} (plain : tag.name ≠ "template") :
    b.openFor tag = b.enter top .html tag.name (Vocabulary.html.attributes tag.attributes) := by
  rw [openFor, openTag_eq place plain]

theorem addFor_eq (place : b.place = .last top) {tag : Tag} (plain : tag.name ≠ "template") :
    b.addFor tag =
      b.add top (.element .html tag.name (Vocabulary.html.attributes tag.attributes) none) := by
  rw [addFor, (insert_eq place (fun same => plain same.2) _).2]

/-- The tags of an element name it and its attributes as they are written, but for capitals that
its vocabulary gives back. -/
structure Spelled (vocabulary : Vocabulary) (data : Element) : Prop where
  name : vocabulary.elementName (keptName data.name.toList) = data.name
  names : ∀ item ∈ data.attributes,
    (vocabulary.attributeName (keptName item.1.toList)).text = item.1

theorem Spelled.attributes {vocabulary : Vocabulary} {data : Element}
    (spelled : Spelled vocabulary data) :
    (vocabulary.attributes (openingTag data).attributes).map
      (fun item => (item.name.text, item.value)) = data.attributes := by
  rw [Vocabulary.attributes, openingTag, List.map_map, List.map_map]
  refine (List.map_congr_left fun item member => ?_).trans (List.map_id _)
  exact Prod.ext (spelled.names item member) rfl

/-- A tag opens the element that it was written for. -/
theorem opens_enter (idle : b.Idle setting) (top : NodeId) {vocabulary : Vocabulary}
    {data : Element} (spelled : Spelled vocabulary data) :
    Opens setting top vocabulary data b
      (b.enter top vocabulary data.name (vocabulary.attributes (openingTag data).attributes)) where
  idle := { idle with }
  forest := ⟨_, spelled.attributes, rfl⟩
  stack := rfl

/-! ## Comments -/

theorem appendComment_eq (place : b.place = .last top) (content : String) :
    b.appendComment content = b.add top (.comment content) := by
  rw [appendComment, place]
  rfl

/-! ## Texts -/

def EndsInText (b : Construction) (top id : NodeId) (content : String) : Prop :=
  (b.forest.children top).getLast? = some id ∧ b.forest.kind? id = some (.text content)

theorem appendText_eq (place : b.place = .last top)
    (apart : ∀ id content, ¬ b.EndsInText top id content) (run : List Char) :
    b.appendText run = b.add top (.text (String.ofList run)) := by
  have none : b.extendText? (b.forest.children top).getLast? (String.ofList run) = none := by
    cases last : (b.forest.children top).getLast? with
    | none => rfl
    | some id =>
        unfold extendText?
        rw [Option.bind_eq_bind, Option.bind_some]
        split
        · rename_i content known
          exact absurd ⟨last, known⟩ (apart id content)
        · rfl
  rw [appendText, place, putText]
  dsimp only
  rw [none]
  rfl

theorem appendText_extend (place : b.place = .last top) {id : NodeId} {content : String}
    (ends : b.EndsInText top id content) (run : List Char) :
    b.appendText run =
      { b with forest := b.forest.setKind id (.text (content ++ String.ofList run)) } := by
  have extended : b.extendText? (b.forest.children top).getLast? (String.ofList run) =
      some { b with forest := b.forest.setKind id (.text (content ++ String.ofList run)) } := by
    rw [ends.1, extendText?, Option.bind_eq_bind, Option.bind_some, ends.2]
  rw [appendText, place, putText]
  dsimp only
  rw [extended]

end ServerPages.Markup.Construction
