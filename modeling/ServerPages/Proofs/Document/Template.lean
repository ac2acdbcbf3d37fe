import ServerPages.Page.Control
import ServerPages.Proofs.Document.Reachable

/-!
# Documents of templates

A document that was read from markup is well-formed, and the document itself stands at the
top of it. Taking the name of the controller from it changes neither.
-/

namespace ServerPages.Document

variable {doc : Document} {html : String}

/-- Well-formed documents with the document itself at the top. -/
structure Template (doc : Document) : Prop where
  wellFormed : doc.WellFormed
  top : doc.kind? root = some .document
  alone : doc.parent? root = none

theorem template_parse (html : String) : Template (parse html) where
  wellFormed := wellFormed_parse html
  top := kind?_graftAll root rfl _
  alone := parent?_root_graftAll _

namespace Template

theorem removeAttr (template : Template doc) (id : NodeId) (name : String) :
    Template (doc.removeAttr id name) where
  wellFormed := wellFormed_removeAttr template.wellFormed id name
  top := by
    rcases removeAttr_cases doc id name with same | ⟨element, known, same⟩
    · rw [same]
      exact template.top
    · have different : root ≠ id := by
        rintro rfl
        cases template.top.symm.trans (element?_eq_some_iff.mp known)
      rw [same, Forest.kind?_setKind_of_ne doc different]
      exact template.top
  alone := (parent?_removeAttr doc id root name).trans template.alone

theorem attr?_root (template : Template doc) (name : String) : doc.attr? root name = none := by
  rw [attr?, element?, template.top]
  rfl

theorem sound (template : Template doc) : doc.Sound where
  wellFormed := template.wellFormed
  top := by rw [takesChildren, template.top]

end Template

/-- The document that a controller gets to work on. -/
theorem template_of_takeControl {name : Option String}
    (control : (parse html).takeControl = (name, doc)) : Template doc := by
  unfold takeControl at control
  split at control
  · rename_i top _ _
    cases control
    have each (names : List String) {doc : Document} (template : Template doc) :
        Template (names.foldl (fun doc name => doc.removeAttr top name) doc) := by
      induction names generalizing doc with
      | nil => exact template
      | cons name names ih => exact ih (template.removeAttr top name)
    exact each controlNames (template_parse html)
  · cases control
    exact template_parse html

end ServerPages.Document
