import Mathlib.Data.List.Find
import ServerPages.Binding.Scope
import ServerPages.Proofs.Document.Searches

/-!
# Documents that are the same but for one attribute

Two documents with the same links may have other values in one attribute. What does not ask for
that attribute cannot tell them apart: searches up and down, and the scopes of events.
-/

namespace ServerPages.Document

/-- Documents with the same links, the same names of elements, and the same attributes but one. -/
structure SameBut (name : String) (first second : Document) : Prop where
  ancestors (id : NodeId) : first.inclusiveAncestors id = second.inclusiveAncestors id
  descendants (id : NodeId) : first.descendants id = second.descendants id
  tagName (id : NodeId) : first.tagName? id = second.tagName? id
  attr (id : NodeId) {other : String} (different : other ≠ name) :
    first.attr? id other = second.attr? id other

namespace SameBut

variable {name : String} {first second : Document} (same : SameBut name first second)

include same

/-- Matches that do not ask for the attribute. -/
theorem holds_eq {wanted : Match} (asks : ∀ test ∈ wanted.attributes, test.1 ≠ name)
    (id : NodeId) : wanted.holds first id = wanted.holds second id :=
  holds_congr (same.tagName id) fun test member => same.attr id (asks test member)

theorem findAllIn_eq {wanted : Match} (asks : ∀ test ∈ wanted.attributes, test.1 ≠ name)
    (scope : NodeId) : first.findAllIn scope wanted = second.findAllIn scope wanted := by
  unfold findAllIn
  rw [same.descendants]
  exact List.filter_congr fun id _ => same.holds_eq asks id

theorem findIn_eq {wanted : Match} (asks : ∀ test ∈ wanted.attributes, test.1 ≠ name)
    (scope : NodeId) : first.findIn scope wanted = second.findIn scope wanted := by
  rw [findIn_eq_find?, findIn_eq_find?, same.descendants]
  exact List.find?_congr fun id _ => same.holds_eq asks id

theorem closest_eq {wanted : Match} (asks : ∀ test ∈ wanted.attributes, test.1 ≠ name)
    (id : NodeId) : first.closest id wanted = second.closest id wanted := by
  unfold closest
  rw [same.ancestors]
  exact List.find?_congr fun id _ => same.holds_eq asks id

/-! ## Scopes -/

variable (apart : name ∉ ["updatepanel", "id", "for", "runat"])

include apart

theorem ownReference_eq (id : NodeId) : first.ownReference id = second.ownReference id := by
  simp only [List.mem_cons, List.not_mem_nil, or_false, not_or] at apart
  obtain ⟨notPanel, notId, notFor, _⟩ := apart
  unfold ownReference
  rw [same.attr id (Ne.symm notFor)]
  refine Option.bind_congr fun panel _ => ?_
  unfold panelScope panelById find
  rw [same.findIn_eq]
  simp [Match.eq, Match.any, Ne.symm notPanel, Ne.symm notId]

theorem eventScope_eq (id : NodeId) : first.eventScope id = second.eventScope id := by
  have own := same.ownReference_eq apart
  simp only [List.mem_cons, List.not_mem_nil, or_false, not_or] at apart
  obtain ⟨notPanel, notId, notFor, notRunat⟩ := apart
  have form : first.formScope id = second.formScope id := by
    unfold formScope
    rw [same.closest_eq]
    simp [Match.serverForm, Match.eq, Match.tagged, Ne.symm notRunat]
  have nearest : first.nearestReference id = second.nearestReference id := by
    unfold nearestReference
    rw [same.closest_eq]
    · exact Option.bind_congr fun above _ => own above
    · simp [Match.has, Match.any, Ne.symm notFor]
  have panel : first.closest id .updatePanel = second.closest id .updatePanel := by
    rw [same.closest_eq]
    simp [Match.updatePanel, Match.eq, Match.any, Ne.symm notPanel]
  unfold eventScope
  rw [panel, form, nearest, own id]
  cases second.closest id .updatePanel with
  | none => rfl
  | some panel =>
      dsimp only
      rw [same.attr panel (Ne.symm notId)]

end SameBut

end ServerPages.Document
