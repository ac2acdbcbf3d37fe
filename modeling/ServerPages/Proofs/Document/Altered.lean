import ServerPages.Proofs.Document.Attributes

/-!
# Documents with some attributes altered

Setting and removing attributes of some names leaves an element its own name and all its other
attributes, in their order. A document in which elements are altered so, each in names of its own,
may grow; the nodes that it had stay what they are.
-/

namespace ServerPages

variable {names more : List String}

namespace Element

structure AlteredIn (names : List String) (before after : Element) : Prop where
  name : after.name = before.name
  others : after.attributes.filter (·.1 ∉ names) = before.attributes.filter (·.1 ∉ names)

theorem filter_setIn {name : String} (member : name ∈ names) (value : String)
    (pairs : List (String × String)) :
    (setIn name value pairs).filter (·.1 ∉ names) = pairs.filter (·.1 ∉ names) := by
  induction pairs with
  | nil => simp [setIn, member]
  | cons pair rest ih =>
      obtain ⟨key, old⟩ := pair
      rw [setIn]
      split
      · rename_i here
        subst here
        rw [List.filter_cons_of_neg (by simpa using member),
          List.filter_cons_of_neg (by simpa using member)]
      · rw [List.filter_cons, List.filter_cons, ih]

theorem filter_eraseP {name : String} (member : name ∈ names) (pairs : List (String × String)) :
    (pairs.eraseP (·.1 = name)).filter (·.1 ∉ names) = pairs.filter (·.1 ∉ names) := by
  induction pairs with
  | nil => rfl
  | cons pair rest ih =>
      by_cases here : pair.1 = name
      · rw [List.eraseP_cons_of_pos (by simpa using here),
          List.filter_cons_of_neg (by simpa [here] using member)]
      · rw [List.eraseP_cons_of_neg (by simpa using here), List.filter_cons, List.filter_cons, ih]

namespace AlteredIn

variable {before middle after : Element}

theorem refl (names : List String) (element : Element) : AlteredIn names element element :=
  ⟨rfl, rfl⟩

theorem trans (first : AlteredIn names before middle) (second : AlteredIn names middle after) :
    AlteredIn names before after :=
  ⟨second.name.trans first.name, second.others.trans first.others⟩

theorem mono (altered : AlteredIn names before after) (all : names ⊆ more) :
    AlteredIn more before after where
  name := altered.name
  others := by
    have narrower (pairs : List (String × String)) :
        pairs.filter (·.1 ∉ more) = (pairs.filter (·.1 ∉ names)).filter (·.1 ∉ more) := by
      rw [List.filter_filter]
      refine List.filter_congr fun pair _ => ?_
      rw [← Bool.decide_and, decide_eq_decide]
      exact (and_iff_left_of_imp fun apart member => apart (all member)).symm
    rw [narrower, altered.others, ← narrower]

theorem setAttr (element : Element) {name : String} (member : name ∈ names) (value : String) :
    AlteredIn names element (element.setAttr name value) :=
  ⟨rfl, filter_setIn member value element.attributes⟩

theorem removeAttr (element : Element) {name : String} (member : name ∈ names) :
    AlteredIn names element (element.removeAttr name) :=
  ⟨rfl, filter_eraseP member element.attributes⟩

/-- An element that is altered in no names is the same. -/
theorem eq (altered : AlteredIn [] before after) : after = before := by
  obtain ⟨name, others⟩ := altered
  simp only [List.not_mem_nil, not_false_eq_true, decide_true, List.filter_true] at others
  cases before
  cases after
  exact congrArg₂ Element.mk name others

end AlteredIn

end Element

namespace Document

/-- The nodes of a document stay what they are, but for attributes of some names at each node. -/
structure AlteredIn (names : NodeId → List String) (before after : Document) : Prop where
  element {id : NodeId} {element : Element} (known : before.element? id = some element) :
    ∃ later, after.element? id = some later ∧ element.AlteredIn (names id) later
  other {id : NodeId} (inside : before.Has id) (leaf : before.element? id = none) :
    after.kind? id = before.kind? id

namespace AlteredIn

variable {names more : NodeId → List String} {before middle doc after : Document} {id : NodeId}

theorem refl (names : NodeId → List String) (doc : Document) : AlteredIn names doc doc where
  element known := ⟨_, known, .refl _ _⟩
  other _ _ := rfl

theorem mono (altered : AlteredIn names before after)
    (all : ∀ id, before.Has id → names id ⊆ more id) : AlteredIn more before after where
  element known := by
    obtain ⟨later, found, here⟩ := altered.element known
    exact ⟨later, found, here.mono (all _ (has_of_element? known))⟩
  other := altered.other

theorem trans (first : AlteredIn names before middle) (second : AlteredIn names middle after) :
    AlteredIn names before after where
  element known := by
    obtain ⟨between, found, here⟩ := first.element known
    obtain ⟨later, found, there⟩ := second.element found
    exact ⟨later, found, here.trans there⟩
  other {id} inside leaf := by
    have same := first.other inside leaf
    have kept : middle.Has id := by
      obtain ⟨node, found⟩ := (Forest.has_iff before id).mp inside
      have known : before.kind? id = some node.kind := by
        rw [Forest.kind?, found, Option.map_some]
      exact Forest.has_of_kind? (same.trans known)
    exact (second.other kept ((element?_congr same).trans leaf)).trans same

theorem setElement {element later : Element} (known : doc.element? id = some element)
    (here : element.AlteredIn (names id) later) :
    AlteredIn names doc (doc.setKind id (.element later)) where
  element {node} old there := by
    by_cases same : node = id
    · subst same
      cases known.symm.trans there
      exact ⟨later, element?_setKind_self (has_of_element? known) later, here⟩
    · exact ⟨old, (element?_setKind_of_ne same _).trans there, .refl _ _⟩
  other {node} _ leaf := by
    refine Forest.kind?_setKind_of_ne doc ?_ _
    rintro rfl
    cases known.symm.trans leaf

theorem removeAttr (doc : Document) {name : String} (member : name ∈ names id) :
    AlteredIn names doc (doc.removeAttr id name) := by
  rcases removeAttr_cases doc id name with same | ⟨element, known, same⟩
  · rw [same]
    exact refl names doc
  · rw [same]
    exact setElement known (.removeAttr element member)

theorem addLast (names : NodeId → List String) (doc : Document) (parent : NodeId)
    (kind : NodeKind) : AlteredIn names doc (doc.addLast parent kind) where
  element {node} element known := by
    have same := element?_congr (kind?_addLast parent kind (has_of_element? known))
    exact ⟨element, same.trans known, .refl _ _⟩
  other inside _ := kind?_addLast parent kind inside

/-- Where no names are altered an element stays the same. -/
theorem element?_eq (altered : AlteredIn names before after) (none : names id = [])
    {element : Element} (known : before.element? id = some element) :
    after.element? id = some element := by
  obtain ⟨later, found, here⟩ := altered.element known
  rw [none] at here
  rw [found, here.eq]

end AlteredIn

end Document

end ServerPages
