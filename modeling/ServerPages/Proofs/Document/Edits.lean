import ServerPages.Document.Edit
import ServerPages.Document.Match
import ServerPages.Proofs.Forest.Growth

/-!
# Edits of documents

What single edits leave of a document: which elements have which attributes afterwards,
and that a well-formed document stays well formed. An edit that adds nodes lets the
document grow; an edit of attributes leaves its links alone.
-/

namespace ServerPages

namespace Element

theorem find?_eraseP_of_ne {name other : String} (different : other ≠ name)
    (pairs : List (String × String)) :
    (pairs.eraseP (·.1 = name)).find? (·.1 = other) = pairs.find? (·.1 = other) := by
  induction pairs with
  | nil => rfl
  | cons pair rest ih =>
      by_cases here : pair.1 = name
      · rw [List.eraseP_cons_of_pos (by simp [here]), List.find?_cons_of_neg]
        simpa [here] using Ne.symm different
      · rw [List.eraseP_cons_of_neg (by simp [here]), List.find?_cons, List.find?_cons, ih]

/-- Reading an attribute after removing another one. -/
theorem attr?_removeAttr_of_ne (element : Element) {name other : String}
    (different : other ≠ name) : (element.removeAttr name).attr? other = element.attr? other := by
  rw [attr?, attr?, removeAttr, find?_eraseP_of_ne different]

end Element

namespace Document

variable {doc next : Document} {id other : NodeId}

/-! ## Elements -/

theorem element?_eq_some_iff {element : Element} :
    doc.element? id = some element ↔ doc.kind? id = some (.element element) := by
  unfold element?
  split
  · rename_i known
    rw [known]
    simp
  · rename_i other
    constructor
    · exact nofun
    · intro known
      exact absurd known (other element)

theorem has_of_element? {element : Element} (known : doc.element? id = some element) :
    doc.Has id :=
  Forest.has_of_kind? (element?_eq_some_iff.mp known)

theorem has_of_attr? {name value : String} (known : doc.attr? id name = some value) :
    doc.Has id := by
  obtain ⟨element, found, _⟩ := Option.bind_eq_some_iff.mp known
  exact has_of_element? found

theorem attr?_eq_none (absent : ¬ doc.Has id) (name : String) : doc.attr? id name = none :=
  Option.eq_none_iff_forall_ne_some.mpr fun _ known => absent (has_of_attr? known)

theorem element?_congr (same : next.kind? id = doc.kind? id) :
    next.element? id = doc.element? id := by
  rw [element?, element?, same]

theorem attr?_congr (same : next.kind? id = doc.kind? id) (name : String) :
    next.attr? id name = doc.attr? id name := by
  rw [attr?, attr?, element?_congr same]

theorem tagName?_congr (same : next.kind? id = doc.kind? id) :
    next.tagName? id = doc.tagName? id := by
  rw [tagName?, tagName?, element?_congr same]

theorem takesChildren_congr (same : next.kind? id = doc.kind? id) :
    next.takesChildren id = doc.takesChildren id := by
  rw [takesChildren, takesChildren, same]

theorem element?_setKind_self (inside : doc.Has id) (element : Element) :
    element? (doc.setKind id (.element element)) id = some element :=
  element?_eq_some_iff.mpr (Forest.kind?_setKind_self inside _)

theorem element?_setKind_of_ne (different : other ≠ id) (kind : NodeKind) :
    element? (doc.setKind id kind) other = doc.element? other :=
  element?_congr (Forest.kind?_setKind_of_ne doc different kind)

theorem takesChildren_of_element? {element : Element} (known : doc.element? id = some element) :
    doc.takesChildren id = true := by
  rw [takesChildren, element?_eq_some_iff.mp known]

/-- An element in place of another leaves it open who takes children. -/
theorem takesChildren_setKind_element {element : Element}
    (known : doc.element? id = some element) (other : NodeId) (next : Element) :
    takesChildren (doc.setKind id (.element next)) other = doc.takesChildren other := by
  by_cases here : other = id
  · subst here
    rw [takesChildren_of_element? (element?_setKind_self (has_of_element? known) next),
      takesChildren_of_element? known]
  · exact takesChildren_congr (Forest.kind?_setKind_of_ne doc here _)

/-- A match sees no more of an element than its name and the attributes that are asked for. -/
theorem holds_congr {wanted : Match} (name : next.tagName? id = doc.tagName? id)
    (attributes : ∀ test ∈ wanted.attributes, next.attr? id test.1 = doc.attr? id test.1) :
    wanted.holds next id = wanted.holds doc id := by
  simp only [tagName?] at name
  simp only [attr?] at attributes
  unfold Match.holds
  cases before : doc.element? id with
  | none =>
      rw [before, Option.map_none, Option.map_eq_none_iff] at name
      rw [name]
  | some element =>
      rw [before, Option.map_some, Option.map_eq_some_iff] at name
      obtain ⟨element', after, sameName⟩ := name
      rw [after]
      simp only [before, after, Option.bind_some] at attributes
      simp only [Option.map_some, Option.getD_some, Match.accepts, sameName]
      congr 1
      rw [Bool.eq_iff_iff, List.all_eq_true, List.all_eq_true]
      refine forall₂_congr fun test member => ?_
      simp only [Match.meets, attributes test member]

/-- An element that meets a demand for a value has it. -/
theorem attr?_of_holds {wanted : Match} {name value : String}
    (asked : (name, some value) ∈ wanted.attributes) (found : wanted.holds doc id = true) :
    doc.attr? id name = some value := by
  unfold Match.holds at found
  cases known : doc.element? id with
  | none => simp [known] at found
  | some element =>
      simp only [known, Option.map_some, Option.getD_some, Match.accepts, Bool.and_eq_true,
        List.all_eq_true] at found
      have met := found.2 _ asked
      simp only [Match.meets] at met
      rw [attr?, known, Option.bind_some]
      cases present : element.attr? name with
      | none => simp [present] at met
      | some actual =>
          simp only [present, beq_iff_eq] at met
          rw [met]

theorem exists_element_of_holds {wanted : Match} (found : wanted.holds doc id = true) :
    ∃ element, doc.element? id = some element ∧ wanted.accepts element = true := by
  unfold Match.holds at found
  cases known : doc.element? id with
  | none => simp [known] at found
  | some element => exact ⟨element, rfl, by simpa [known] using found⟩

/-- Asking for a value in addition finds those of the elements that have it. -/
theorem holds_eq_iff {wanted : Match} {name value : String} :
    (wanted.eq name value).holds doc id = true ↔
      wanted.holds doc id = true ∧ doc.attr? id name = some value := by
  cases known : doc.element? id with
  | none => simp [Match.holds, known]
  | some element =>
      have met : Match.meets element (name, some value) = true ↔
          element.attr? name = some value := by
        cases read : element.attr? name <;> simp [Match.meets, read]
      simp [Match.holds, known, attr?, Match.accepts, Match.eq, met, and_assoc]

/-- Asking for a value alone finds all that have it, as only elements have attributes. -/
theorem holds_any_eq_iff {name value : String} :
    (Match.any.eq name value).holds doc id = true ↔ doc.attr? id name = some value := by
  refine holds_eq_iff.trans (and_iff_right_of_imp fun read => ?_)
  obtain ⟨element, known, _⟩ := Option.bind_eq_some_iff.mp read
  simp [Match.holds, known, Match.accepts, Match.any]

/-! ## Attributes -/

theorem setAttr_eq {element : Element} (known : doc.element? id = some element)
    (name value : String) :
    doc.setAttr id name value = .ok (doc.setKind id (.element (element.setAttr name value))) := by
  rw [setAttr, known]

theorem exists_of_setAttr {name value : String} (done : doc.setAttr id name value = .ok next) :
    ∃ element, doc.element? id = some element ∧
      next = doc.setKind id (.element (element.setAttr name value)) := by
  unfold setAttr at done
  split at done
  · rename_i element known
    exact ⟨element, known, (Except.ok.inj done).symm⟩
  · cases done

theorem attr?_setKind_setAttr {element : Element} (known : doc.element? id = some element)
    (name value : String) (other : NodeId) (asked : String) :
    attr? (doc.setKind id (.element (element.setAttr name value))) other asked =
      if other = id ∧ asked = name then some value else doc.attr? other asked := by
  by_cases here : other = id
  · subst here
    rw [attr?, element?_setKind_self (has_of_element? known), Option.bind_some,
      Element.attr?_setAttr, attr?, known, Option.bind_some]
    simp only [eq_comm, true_and]
  · rw [attr?, element?_setKind_of_ne here, if_neg fun both => here both.1, attr?]

theorem tagName?_setKind_setAttr {element : Element} (known : doc.element? id = some element)
    (name value : String) (other : NodeId) :
    tagName? (doc.setKind id (.element (element.setAttr name value))) other =
      doc.tagName? other := by
  by_cases here : other = id
  · subst here
    rw [tagName?, element?_setKind_self (has_of_element? known), tagName?, known]
    rfl
  · rw [tagName?, element?_setKind_of_ne here, tagName?]

theorem removeAttr_cases (doc : Document) (id : NodeId) (name : String) :
    doc.removeAttr id name = doc ∨ ∃ element, doc.element? id = some element ∧
      doc.removeAttr id name = doc.setKind id (.element (element.removeAttr name)) := by
  unfold removeAttr
  split
  · rename_i element known
    split
    · exact Or.inr ⟨element, known, rfl⟩
    · exact Or.inl rfl
  · exact Or.inl rfl

@[simp] theorem size_removeAttr (doc : Document) (id : NodeId) (name : String) :
    Forest.size (doc.removeAttr id name) = Forest.size doc := by
  rcases removeAttr_cases doc id name with same | ⟨element, _, same⟩
  · rw [same]
  · rw [same, Forest.size_setKind]

@[simp] theorem parent?_removeAttr (doc : Document) (id other : NodeId) (name : String) :
    Forest.parent? (doc.removeAttr id name) other = doc.parent? other := by
  rcases removeAttr_cases doc id name with same | ⟨element, _, same⟩
  · rw [same]
  · rw [same, Forest.parent?_setKind]

@[simp] theorem children_removeAttr (doc : Document) (id other : NodeId) (name : String) :
    Forest.children (doc.removeAttr id name) other = doc.children other := by
  rcases removeAttr_cases doc id name with same | ⟨element, _, same⟩
  · rw [same]
  · rw [same, Forest.children_setKind]

theorem tagName?_removeAttr (doc : Document) (id other : NodeId) (name : String) :
    (doc.removeAttr id name).tagName? other = doc.tagName? other := by
  rcases removeAttr_cases doc id name with same | ⟨element, known, same⟩
  · rw [same]
  · rw [same]
    by_cases here : other = id
    · subst here
      rw [tagName?, element?_setKind_self (has_of_element? known), tagName?, known]
      rfl
    · rw [tagName?, element?_setKind_of_ne here, tagName?]

theorem takesChildren_removeAttr (doc : Document) (id other : NodeId) (name : String) :
    (doc.removeAttr id name).takesChildren other = doc.takesChildren other := by
  rcases removeAttr_cases doc id name with same | ⟨element, known, same⟩
  · rw [same]
  · rw [same, takesChildren_setKind_element known]

theorem attr?_removeAttr (doc : Document) {id other : NodeId} {name asked : String}
    (elsewhere : other ≠ id ∨ asked ≠ name) :
    (doc.removeAttr id name).attr? other asked = doc.attr? other asked := by
  rcases removeAttr_cases doc id name with same | ⟨element, known, same⟩
  · rw [same]
  · rw [same]
    by_cases here : other = id
    · subst here
      have different := elsewhere.resolve_left (absurd rfl)
      rw [attr?, element?_setKind_self (has_of_element? known), Option.bind_some,
        Element.attr?_removeAttr_of_ne element different, attr?, known, Option.bind_some]
    · rw [attr?, element?_setKind_of_ne here, attr?]

theorem wellFormed_removeAttr (wf : doc.WellFormed) (id : NodeId) (name : String) :
    Forest.WellFormed (doc.removeAttr id name) :=
  wf.congr (fun other => parent?_removeAttr doc id other name)
    (fun other => children_removeAttr doc id other name)

theorem grown_removeAttr {before : Document} (grown : before.Grown doc) (id : NodeId)
    (name : String) : Forest.Grown before (doc.removeAttr id name) :=
  grown.congr (size_removeAttr doc id name) (fun other => parent?_removeAttr doc id other name)
    (fun other => children_removeAttr doc id other name)

end Document

end ServerPages
