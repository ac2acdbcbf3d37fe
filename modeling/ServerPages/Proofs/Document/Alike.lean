import ServerPages.Proofs.Document.SameBut
import ServerPages.Proofs.Forest.Alike

/-!
# Documents that differ in values alone

Elements that run at the server and have the name of a submitted field may differ in their
attribute `value`; everything else of two documents is the same. What does not ask for a
`value` cannot tell such documents apart.
-/

namespace ServerPages

namespace Element

structure FieldAlike (names : List String) (first second : Element) : Prop where
  rest : first.removeAttr "value" = second.removeAttr "value"
  server : first.attr? "runat" = some "server"
  named : ∃ name ∈ names, first.attr? "name" = some name

theorem setIn_eraseP {name other : String} (different : other ≠ name) (value : String)
    (pairs : List (String × String)) :
    (setIn name value pairs).eraseP (·.1 = other) =
      setIn name value (pairs.eraseP (·.1 = other)) := by
  induction pairs with
  | nil => simp [setIn, Ne.symm different]
  | cons pair rest ih =>
      obtain ⟨key, old⟩ := pair
      by_cases here : key = name
      · subst here
        simp [setIn, Ne.symm different]
      · by_cases hit : key = other
        · subst hit
          simp [setIn, here]
        · simp [setIn, here, hit, ih]

/-- Setting and removing attributes of different names in either order. -/
theorem removeAttr_setAttr_of_ne (element : Element) {name other : String}
    (different : other ≠ name) (value : String) :
    (element.setAttr name value).removeAttr other =
      (element.removeAttr other).setAttr name value := by
  simp only [removeAttr, setAttr, setIn_eraseP different]

theorem setIn_eraseP_self (name value : String) (pairs : List (String × String)) :
    (setIn name value pairs).eraseP (·.1 = name) = pairs.eraseP (·.1 = name) := by
  induction pairs with
  | nil => simp [setIn]
  | cons pair rest ih =>
      obtain ⟨key, old⟩ := pair
      by_cases here : key = name
      · subst here
        simp [setIn]
      · simp [setIn, here, ih]

theorem removeAttr_setAttr_self (element : Element) (name value : String) :
    (element.setAttr name value).removeAttr name = element.removeAttr name := by
  simp only [removeAttr, setAttr, setIn_eraseP_self]

theorem eraseP_comm {name other : String} (pairs : List (String × String)) :
    (pairs.eraseP (·.1 = name)).eraseP (·.1 = other) =
      (pairs.eraseP (·.1 = other)).eraseP (·.1 = name) := by
  induction pairs with
  | nil => rfl
  | cons pair rest ih =>
      by_cases here : pair.1 = name
      · by_cases hit : pair.1 = other
        · subst here
          subst hit
          rfl
        · have different : name ≠ other := fun same => hit (here.trans same)
          simp [here, different]
      · by_cases hit : pair.1 = other
        · have different : other ≠ name := fun same => here (hit.trans same)
          simp [hit, different]
        · simp [here, hit, ih]

theorem removeAttr_comm (element : Element) (name other : String) :
    (element.removeAttr name).removeAttr other = (element.removeAttr other).removeAttr name := by
  simp only [removeAttr, eraseP_comm]

namespace FieldAlike

variable {names more : List String} {first second third : Element}

theorem name_eq (alike : FieldAlike names first second) : first.name = second.name := by
  have same := congrArg Element.name alike.rest
  exact same

theorem attr?_eq (alike : FieldAlike names first second) {name : String}
    (other : name ≠ "value") : first.attr? name = second.attr? name := by
  rw [← attr?_removeAttr_of_ne first other, alike.rest, attr?_removeAttr_of_ne second other]

theorem symm (alike : FieldAlike names first second) : FieldAlike names second first := by
  refine ⟨alike.rest.symm, ?_, ?_⟩
  · rw [← alike.attr?_eq (by decide)]
    exact alike.server
  · rw [← alike.attr?_eq (by decide)]
    exact alike.named

theorem trans (start : FieldAlike names first second) (finish : FieldAlike names second third) :
    FieldAlike names first third :=
  ⟨start.rest.trans finish.rest, start.server, start.named⟩

theorem mono (all : names ⊆ more) (alike : FieldAlike names first second) :
    FieldAlike more first second := by
  obtain ⟨name, member, named⟩ := alike.named
  exact ⟨alike.rest, alike.server, name, all member, named⟩

/-- Writing a value to an element that takes it. -/
theorem setValue (server : first.attr? "runat" = some "server") {name : String}
    (member : name ∈ names) (named : first.attr? "name" = some name) (value : String) :
    FieldAlike names first (first.setAttr "value" value) :=
  ⟨(removeAttr_setAttr_self first "value" value).symm, server, name, member, named⟩

theorem setAttr (alike : FieldAlike names first second) {name : String}
    (other : name ∉ ["value", "runat", "name"]) (value : String) :
    FieldAlike names (first.setAttr name value) (second.setAttr name value) := by
  simp only [List.mem_cons, List.not_mem_nil, or_false, not_or] at other
  obtain ⟨notValue, notRunat, notName⟩ := other
  refine ⟨?_, ?_, ?_⟩
  · rw [removeAttr_setAttr_of_ne _ (Ne.symm notValue), alike.rest,
      removeAttr_setAttr_of_ne _ (Ne.symm notValue)]
  · rw [attr?_setAttr, if_neg notRunat]
    exact alike.server
  · rw [attr?_setAttr, if_neg notName]
    exact alike.named

theorem removeAttr (alike : FieldAlike names first second) {name : String}
    (other : name ∉ ["value", "runat", "name"]) :
    FieldAlike names (first.removeAttr name) (second.removeAttr name) := by
  simp only [List.mem_cons, List.not_mem_nil, or_false, not_or] at other
  obtain ⟨notValue, notRunat, notName⟩ := other
  refine ⟨?_, ?_, ?_⟩
  · rw [removeAttr_comm, alike.rest, removeAttr_comm]
  · rw [attr?_removeAttr_of_ne _ (Ne.symm notRunat)]
    exact alike.server
  · rw [attr?_removeAttr_of_ne _ (Ne.symm notName)]
    exact alike.named

end FieldAlike

end Element

namespace NodeKind

inductive Alike (names : List String) : NodeKind → NodeKind → Prop
  | same (kind : NodeKind) : Alike names kind kind
  | field {left right : Element} (alike : Element.FieldAlike names left right) :
      Alike names (.element left) (.element right)

namespace Alike

variable {names more : List String} {first second third : NodeKind}

theorem symm (alike : Alike names first second) : Alike names second first := by
  cases alike with
  | same => exact .same _
  | field alike => exact .field alike.symm

theorem trans (start : Alike names first second) (finish : Alike names second third) :
    Alike names first third := by
  cases start with
  | same => exact finish
  | field alike =>
      cases finish with
      | same => exact .field alike
      | field next => exact .field (alike.trans next)

theorem mono (all : names ⊆ more) (alike : Alike names first second) :
    Alike more first second := by
  cases alike with
  | same => exact .same _
  | field alike => exact .field (alike.mono all)

end Alike

end NodeKind

namespace Document

/-- Documents that are the same but for the values of submitted fields. -/
abbrev Alike (names : List String) (first second : Document) : Prop :=
  Forest.Alike (NodeKind.Alike names) first second

namespace Alike

variable {names more : List String} {first second third : Document}

theorem refl (doc : Document) : Alike names doc doc :=
  Forest.Alike.refl NodeKind.Alike.same doc

theorem symm (alike : Alike names first second) : Alike names second first :=
  Forest.Alike.symm NodeKind.Alike.symm alike

theorem trans (start : Alike names first second) (finish : Alike names second third) :
    Alike names first third :=
  Forest.Alike.trans NodeKind.Alike.trans start finish

theorem mono (all : names ⊆ more) (alike : Alike names first second) :
    Alike more first second :=
  Forest.Alike.imp (NodeKind.Alike.mono all) alike

/-! ## What is the same -/

section

variable (alike : Alike names first second)

include alike

theorem rel_element? (id : NodeId) :
    Option.Rel (fun left right => NodeKind.Alike names (.element left) (.element right))
      (first.element? id) (second.element? id) := by
  have kinds := alike.rel_kind? id
  unfold element?
  generalize first.kind? id = left at kinds ⊢
  generalize second.kind? id = right at kinds ⊢
  cases kinds with
  | none => exact .none
  | some same =>
      cases same with
      | same => exact Forest.rel_refl (fun _ => .same _) _
      | field fields => exact .some (.field fields)

theorem tagName?_eq (id : NodeId) : first.tagName? id = second.tagName? id :=
  Forest.eq_of_rel (fun element => element.map Element.name) (alike.rel_element? id) fun same => by
    cases same with
    | same => rfl
    | field fields => exact congrArg some fields.name_eq

theorem attr?_eq (id : NodeId) {name : String} (other : name ≠ "value") :
    first.attr? id name = second.attr? id name :=
  Forest.eq_of_rel (fun element : Option Element => element.bind (Element.attr? · name))
    (alike.rel_element? id) fun same => by
    cases same with
    | same => rfl
    | field fields => exact fields.attr?_eq other

/-- Nodes that take no field are the same. -/
theorem kind?_eq {id : NodeId}
    (untaken : first.attr? id "runat" = some "server" → first.attr? id "name" = none) :
    second.kind? id = first.kind? id := by
  have kinds := alike.rel_kind? id
  generalize second.kind? id = other at kinds ⊢
  cases known : first.kind? id with
  | none =>
      rw [known] at kinds
      cases kinds
      rfl
  | some kind =>
      rw [known] at kinds
      cases kinds with
      | some same =>
          cases same with
          | same => rfl
          | @field left right fields =>
              have here (name : String) : first.attr? id name = left.attr? name := by
                rw [attr?, element?_eq_some_iff.mpr known, Option.bind_some]
              obtain ⟨name, _, named⟩ := fields.named
              rw [here, here] at untaken
              cases (untaken fields.server).symm.trans named

theorem takesChildren_eq (id : NodeId) : first.takesChildren id = second.takesChildren id := by
  have kinds := alike.rel_kind? id
  unfold takesChildren
  generalize first.kind? id = left at kinds ⊢
  generalize second.kind? id = right at kinds ⊢
  cases kinds with
  | none => rfl
  | some same =>
      cases same with
      | same => rfl
      | field => rfl

theorem sameBut : SameBut "value" first second where
  ancestors := alike.inclusiveAncestors_eq
  descendants := alike.descendants_eq
  tagName := alike.tagName?_eq
  attr := alike.attr?_eq

/-- Matches that do not ask for a value. -/
theorem holds_eq {wanted : Match} (asks : ∀ test ∈ wanted.attributes, test.1 ≠ "value")
    (id : NodeId) : wanted.holds first id = wanted.holds second id :=
  alike.sameBut.holds_eq asks id

theorem findAllIn_eq {wanted : Match} (asks : ∀ test ∈ wanted.attributes, test.1 ≠ "value")
    (scope : NodeId) : first.findAllIn scope wanted = second.findAllIn scope wanted :=
  alike.sameBut.findAllIn_eq asks scope

theorem findIn_eq {wanted : Match} (asks : ∀ test ∈ wanted.attributes, test.1 ≠ "value")
    (scope : NodeId) : first.findIn scope wanted = second.findIn scope wanted :=
  alike.sameBut.findIn_eq asks scope

theorem eventScope_eq (id : NodeId) : first.eventScope id = second.eventScope id :=
  alike.sameBut.eventScope_eq (by decide) id

end

/-! ## Edits -/

/-- Edits of two documents that are both refused for one reason, or both lead to documents that
are alike. -/
inductive Edits (names : List String) :
    Except EditError Document → Except EditError Document → Prop
  | refused (error : EditError) : Edits names (.error error) (.error error)
  | done {first second : Document} (alike : Alike names first second) :
      Edits names (.ok first) (.ok second)

section

variable (alike : Alike names first second)

include alike

theorem setAttr (id : NodeId) {name : String} (other : name ∉ ["value", "runat", "name"])
    (value : String) :
    Edits names (first.setAttr id name value) (second.setAttr id name value) := by
  have elements := alike.rel_element? id
  unfold Document.setAttr
  generalize first.element? id = left at elements ⊢
  generalize second.element? id = right at elements ⊢
  cases elements with
  | none => exact .refused _
  | some same =>
      refine .done (alike.setKind id ?_)
      cases same with
      | same => exact .same _
      | field fields => exact .field (fields.setAttr other value)

theorem removeAttr (id : NodeId) {name : String} (other : name ∉ ["value", "runat", "name"]) :
    Alike names (first.removeAttr id name) (second.removeAttr id name) := by
  have elements := alike.rel_element? id
  have notValue : name ≠ "value" := fun same => other (by simp [same])
  unfold Document.removeAttr
  generalize first.element? id = left at elements ⊢
  generalize second.element? id = right at elements ⊢
  cases elements with
  | none => exact alike
  | @some left right same =>
      have present : left.attr? name = right.attr? name := by
        cases same with
        | same => rfl
        | field fields => exact fields.attr?_eq notValue
      dsimp only
      rw [present]
      split
      · refine alike.setKind id ?_
        cases same with
        | same => exact .same _
        | field fields => exact .field (fields.removeAttr other)
      · exact alike

theorem mergedText?_eq (parent child : NodeId) :
    first.mergedText? parent child = second.mergedText? parent child := by
  unfold mergedText?
  rw [alike.children_eq]
  refine Option.bind_congr fun last _ => ?_
  have kinds := alike.rel_kind? last
  have others := alike.rel_kind? child
  generalize first.kind? last = left at kinds ⊢
  generalize second.kind? last = right at kinds ⊢
  generalize first.kind? child = left' at others ⊢
  generalize second.kind? child = right' at others ⊢
  cases kinds with
  | none => rfl
  | some same =>
      cases same with
      | field => rfl
      | same =>
          rename_i kind
          cases others with
          | none => rfl
          | some same =>
              cases same with
              | field => cases kind <;> rfl
              | same => rfl

theorem appendChild (parent child : NodeId) :
    Edits names (first.appendChild parent child) (second.appendChild parent child) := by
  have detached := Forest.Alike.detach alike child
  have refusal : first.refusal? parent child = second.refusal? parent child := by
    unfold refusal? Forest.isInclusiveAncestor
    rw [alike.inclusiveAncestors_eq, alike.takesChildren_eq]
  unfold Document.appendChild
  rw [refusal]
  cases second.refusal? parent child with
  | some error => exact .refused error
  | none =>
      dsimp only
      rw [mergedText?_eq detached]
      split
      · exact .done (detached.setKind _ (.same _))
      · exact .done (detached.attachLast parent child)

end

end Alike

end Document

end ServerPages
