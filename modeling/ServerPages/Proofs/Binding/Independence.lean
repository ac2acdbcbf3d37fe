import ServerPages.Proofs.Binding.Steps
import ServerPages.Proofs.Page.Populate

/-!
# Scripts do not depend on fields

What binding reads of a document is never the value of an element, so documents that differ
in values alone come to the same script, or to the same refusal. As filling in the fields of
a request changes values alone, no request has a say in the script of a page.
-/

namespace ServerPages

namespace Binding

open Procedure

/-- States of bindings whose documents differ in values alone. -/
structure Alike (names : List String) (first second : BindingState) : Prop where
  doc : Document.Alike names first.doc second.doc
  carriers : first.carriers = second.carriers

variable {names : List String}

theorem respects_edit {change : Document → Except EditError Document}
    (edits : ∀ {first second}, Document.Alike names first second →
      Document.Alike.Edits names (change first) (change second)) :
    Respects (Alike names) (Carrier.edit change) := by
  intro left right alike
  have both := edits alike.doc
  unfold Carrier.edit step
  rw [runFrom_ofRun, runFrom_ofRun]
  dsimp only
  generalize change left.doc = first at both ⊢
  generalize change right.doc = second at both ⊢
  cases both with
  | refused error => exact ⟨rfl, alike⟩
  | done same => exact ⟨rfl, same, alike.carriers⟩

theorem respects_takeId : Respects (Alike names) Carrier.takeId := by
  intro left right alike
  rw [runFrom_takeId, runFrom_takeId, alike.carriers]
  exact ⟨rfl, alike.doc, rfl⟩

theorem respects_create (element : Element) : Respects (Alike names) (Carrier.create element) := by
  intro left right alike
  rw [runFrom_create, runFrom_create, alike.doc.size]
  exact ⟨rfl, alike.doc.create (.same _), alike.carriers⟩

theorem respects_takeAttr (node : NodeId) {name : String}
    (other : name ∉ ["value", "runat", "name"]) :
    Respects (Alike names) (takeAttr node name) := by
  intro left right alike
  have notValue : name ≠ "value" := fun same => other (by simp [same])
  rw [runFrom_takeAttr, runFrom_takeAttr, alike.doc.attr?_eq node notValue]
  exact ⟨rfl, alike.doc.removeAttr node other, alike.carriers⟩

theorem respects_ensure (scope : NodeId) : Respects (Alike names) (Carrier.ensure scope) := by
  unfold Carrier.ensure
  refine Respects.get_bind fun left right alike => ?_
  dsimp only
  rw [alike.doc.findIn_eq (by decide)]
  cases right.doc.findIn scope Carrier.wanted with
  | none =>
      refine Respects.bind respects_takeId (fun id => ?_) left right alike
      refine Respects.bind (respects_create _) fun carrier => ?_
      exact Respects.bind (respects_edit fun same => same.appendChild scope carrier)
        fun _ => .pure id
  | some carrier =>
      dsimp only
      rw [alike.doc.attr?_eq carrier (by decide)]
      cases right.doc.attr? carrier "id" with
      | some id => exact Respects.pure id left right alike
      | none =>
          refine Respects.bind respects_takeId (fun id => ?_) left right alike
          exact Respects.bind (respects_edit fun same => same.setAttr carrier (by decide) id)
            fun _ => .pure id

theorem respects_bindElement (node : NodeId) (number : Nat) :
    Respects (Alike names) (bindElement node number) := by
  unfold bindElement
  refine Respects.bind (respects_edit fun same => same.setAttr node (by decide) _) fun _ => ?_
  refine Respects.get_bind fun left right alike => ?_
  dsimp only
  have message : describe left.doc node = describe right.doc node := by
    unfold describe
    rw [alike.doc.tagName?_eq, alike.doc.attr?_eq node (by decide),
      alike.doc.attr?_eq node (by decide)]
  rw [alike.doc.eventScope_eq, message]
  cases right.doc.eventScope node with
  | none => exact Respects.throw _ left right alike
  | some scope =>
      refine Respects.bind (respects_ensure scope.node) (fun carrier => ?_) left right alike
      refine Respects.bind (respects_takeAttr node (by decide)) fun expression => ?_
      refine Respects.bind (respects_takeAttr node (by decide)) fun afterwards => ?_
      refine Respects.get_bind fun left right alike => ⟨?_, alike⟩
      rw [runFrom_pure, runFrom_pure,
        alike.doc.attr?_eq node (show "id" ≠ "value" by decide),
        alike.doc.attr?_eq node (show "name" ≠ "value" by decide)]

theorem respects_bindAll (callable : List String) :
    Respects (Alike names) (bindAll callable) := by
  unfold bindAll
  refine Respects.get_bind fun left right alike => ?_
  have nodes : left.doc.findAll interactive = right.doc.findAll interactive :=
    alike.doc.findAllIn_eq (by decide) _
  dsimp only
  rw [nodes]
  refine Respects.bind (Respects.mapM ?_) (fun bound => Respects.pure _) left right alike
  rintro ⟨node, number⟩
  exact respects_bindElement node number

theorem respects_bind (callable : List String) :
    Respects (Document.Alike names) (Document.bind callable) := by
  intro left right alike
  obtain ⟨results, states⟩ := respects_bindAll callable ⟨left, 0⟩ ⟨right, 0⟩ ⟨alike, rfl⟩
  exact ⟨results, states.doc⟩

/-! ## Scripts -/

/-- Fills in the fields of a request and binds the page; its script. -/
def scriptFor (callable : List String) (assets : Assets) (request : Request) :
    Procedure Document PageError ClientScript := do
  let _ ← Document.populate request
  let code ← Document.bind callable
  return code.withAssets assets

/-- The way of a request to a script leads through a document with other values. -/
theorem runFrom_scriptFor (doc : Document) (callable : List String) (assets : Assets)
    (request : Request) :
    ∃ filled, Document.Alike request.fieldNames doc filled ∧
      (scriptFor callable assets request).runFrom doc =
        ((do return (← Document.bind callable).withAssets assets :
          Procedure Document PageError ClientScript)).runFrom filled := by
  obtain ⟨count, filled, run, alike⟩ := Document.exists_populate doc request
  refine ⟨filled, alike, ?_⟩
  unfold scriptFor
  rw [runFrom_bind_ok run]

/-- The fields of a request have no say in the script of a page: with any two requests, either
both runs end with the same script, or both are refused for the same element, and the documents
that are left differ in the values of submitted fields alone. -/
theorem scriptFor_independent {doc : Document} (reached : doc.Reachable) (callable : List String)
    (assets : Assets) (first second : Request) :
    ((∃ script, ((scriptFor callable assets first).runFrom doc).1 = .ok script ∧
        ((scriptFor callable assets second).runFrom doc).1 = .ok script) ∨
      ∃ element, ((scriptFor callable assets first).runFrom doc).1 = .error (.scope element) ∧
        ((scriptFor callable assets second).runFrom doc).1 = .error (.scope element)) ∧
    Document.Alike (first.fieldNames ++ second.fieldNames)
      ((scriptFor callable assets first).runFrom doc).2
      ((scriptFor callable assets second).runFrom doc).2 := by
  obtain ⟨left, alikeLeft, runLeft⟩ := runFrom_scriptFor doc callable assets first
  obtain ⟨right, alikeRight, runRight⟩ := runFrom_scriptFor doc callable assets second
  have alike : Document.Alike (first.fieldNames ++ second.fieldNames) left right :=
    ((alikeLeft.mono (List.subset_append_left _ _)).symm).trans
      (alikeRight.mono (List.subset_append_right _ _))
  obtain ⟨results, states⟩ := Respects.bind (respects_bind callable)
    (fun code => Respects.pure (code.withAssets assets)) left right alike
  rw [runLeft, runRight]
  refine ⟨?_, states⟩
  rcases bind_cases (alikeLeft.wellFormed reached.wellFormed) callable (fun _ _ _ => True) trivial
      (fun _ _ _ _ _ _ _ _ _ _ => trivial) with
    ⟨bound, after, run, _⟩ | ⟨element, after, run⟩
  · refine Or.inl ⟨(assemble callable bound).withAssets assets, ?_, ?_⟩
    · rw [runFrom_bind_ok run, runFrom_pure]
    · rw [← results, runFrom_bind_ok run, runFrom_pure]
  · refine Or.inr ⟨element, ?_, ?_⟩
    · rw [runFrom_bind_error run]
    · rw [← results, runFrom_bind_error run]

def fieldForm : Document := .parse
  "<form runat=server method=post><input name=n runat=server onclick='server.x()'></form>"

/-- Two requests, one of them with a field: one script, and the value in one document only. -/
theorem scriptFor_fieldForm :
    (∃ script,
      ((scriptFor [] ⟨none, none⟩ ((Request.bare .post "/").withField "n" (.str "v"))).runFrom
        fieldForm).1 = .ok script ∧
      ((scriptFor [] ⟨none, none⟩ (.bare .get "/")).runFrom fieldForm).1 = .ok script) ∧
    ((scriptFor [] ⟨none, none⟩ ((Request.bare .post "/").withField "n" (.str "v"))).runFrom
      fieldForm).2.attr? ⟨5⟩ "value" = some "v" ∧
    ((scriptFor [] ⟨none, none⟩ (.bare .get "/")).runFrom fieldForm).2.attr? ⟨5⟩ "value" =
      none := by
  have reads :
      ((scriptFor [] ⟨none, none⟩ (.bare .get "/")).runFrom fieldForm).1.isOk = true ∧
      ((scriptFor [] ⟨none, none⟩ ((Request.bare .post "/").withField "n" (.str "v"))).runFrom
        fieldForm).2.attr? ⟨5⟩ "value" = some "v" ∧
      ((scriptFor [] ⟨none, none⟩ (.bare .get "/")).runFrom fieldForm).2.attr? ⟨5⟩ "value" =
        none := by decide +kernel
  obtain ⟨ends, values⟩ := reads
  refine ⟨?_, values⟩
  rcases (scriptFor_independent (.parse _) [] ⟨none, none⟩
      ((Request.bare .post "/").withField "n" (.str "v")) (.bare .get "/")).1 with
    scripts | ⟨element, _, refused⟩
  · exact scripts
  · have refused : ((scriptFor [] ⟨none, none⟩ (.bare .get "/")).runFrom fieldForm).1 =
        .error (.scope element) := refused
    rw [refused] at ends
    cases ends

end Binding

end ServerPages
