import ServerPages.Page.Populate
import ServerPages.Proofs.Document.Alike
import ServerPages.Proofs.Procedure

/-!
# What fields change

Filling in the fields of a request never fails, and it changes nothing but the values of
elements that run at the server and have the name of a field.
-/

namespace ServerPages

def Request.fieldNames (request : Request) : List String :=
  request.query.map (·.1) ++ request.body.map (·.1)

namespace Document

open Procedure

variable {names : List String} {doc original : Document} {takes : Document → NodeId → Bool}

theorem holds_fieldMatch_iff {node : NodeId} {name : String} :
    (fieldMatch name).holds doc node = true ↔
      doc.attr? node "name" = some name ∧ doc.attr? node "runat" = some "server" :=
  holds_eq_iff.trans (and_congr_left' holds_any_eq_iff)

/-- Writing a value to an element that takes it. -/
theorem Alike.setValue {node : NodeId} {element : Element}
    (known : doc.element? node = some element) (server : doc.attr? node "runat" = some "server")
    {name : String} (member : name ∈ names) (named : doc.attr? node "name" = some name)
    (value : String) :
    Alike names doc (doc.setKind node (.element (element.setAttr "value" value))) := by
  rw [attr?, known] at server named
  exact Forest.Alike.setKind_right NodeKind.Alike.same doc (element?_eq_some_iff.mp known)
    (.field (.setValue server member named value))

theorem keeps_setValues {nodes : List NodeId} {name : String} (member : name ∈ names)
    (fits : ∀ node ∈ nodes, (fieldMatch name).holds original node = true) (value : String) :
    Keeps (Alike names original) (setValues takes value nodes) := by
  refine Keeps.foldlM (fun count node among doc alike => ?_) 0
  rw [runFrom_bind_ok (runFrom_get _)]
  by_cases taken : takes doc node = true
  · have asks : ∀ test ∈ (fieldMatch name).attributes, test.1 ≠ "value" := by
      simp [fieldMatch, Match.eq, Match.any]
    have holds : (fieldMatch name).holds doc node = true :=
      (alike.holds_eq asks node).symm.trans (fits node among)
    obtain ⟨named, server⟩ := holds_fieldMatch_iff.mp holds
    obtain ⟨element, known, _⟩ := exists_element_of_holds holds
    rw [if_pos taken, runFrom_bind_ok (runFrom_edit_ok (setAttr_eq known "value" value))]
    exact ⟨_, _, rfl, alike.trans (.setValue known server member named value)⟩
  · rw [if_neg taken]
    exact ⟨_, _, rfl, alike⟩

theorem keeps_setField {name : String} (member : name ∈ names) (value : String) :
    Keeps (Alike names original) (setField takes name value) := by
  intro doc alike
  unfold setField
  rw [runFrom_bind_ok (runFrom_get _)]
  refine keeps_setValues member (fun node among => ?_) value doc alike
  have asks : ∀ test ∈ (fieldMatch name).attributes, test.1 ≠ "value" := by
    simp [fieldMatch, Match.eq, Match.any]
  exact (alike.holds_eq asks node).trans (List.mem_filter.mp among).2

theorem keeps_setFields {fields : Dictionary String} (all : ∀ field ∈ fields, field.1 ∈ names) :
    Keeps (Alike names original) (setFields takes fields) :=
  Keeps.foldlM
    (fun _ field member => (keeps_setField (all field member) field.2).bind fun _ => .pure _) 0

/-- Filling in the fields of a request ends well. -/
theorem keeps_populate {request : Request} (all : request.fieldNames ⊆ names) :
    Keeps (Alike names original) (populate request) := by
  refine (keeps_setFields fun field member => ?_).bind fun _ =>
    (keeps_setFields fun field member => ?_).bind fun _ => .pure _
  · exact all (List.mem_append_left _ (List.mem_map_of_mem member))
  · obtain ⟨entry, among, rfl⟩ := List.mem_map.mp member
    exact all (List.mem_append_right _ (List.mem_map_of_mem among))

theorem exists_populate (doc : Document) (request : Request) :
    ∃ count next, (populate request).runFrom doc = (.ok count, next) ∧
      Alike request.fieldNames doc next :=
  keeps_populate (fun _ member => member) doc (.refl doc)

theorem Alike.wellFormed {next : Document} (alike : Alike names doc next) (wf : doc.WellFormed) :
    next.WellFormed :=
  wf.congr (fun id => (alike.parent?_eq id).symm) fun id => (alike.children_eq id).symm

end Document

end ServerPages
