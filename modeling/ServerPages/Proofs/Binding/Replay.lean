import ServerPages.Proofs.Binding.Independence
import ServerPages.Proofs.Binding.Marks
import ServerPages.Proofs.Document.Template

/-!
# Pages that are bound again

Every request binds the page of a template from scratch. Whatever fields it has, its script
has the same functions, its elements get the same marks, and so what a function of an earlier
script writes means the same element and the same panel.
-/

namespace ServerPages

namespace Binding

open Document (root)
open Procedure

variable {doc filled : Document} {names : List String} {callable : List String}
  {code : ClientCode} {number place : Nat} {node : NodeId} {call : Click.Call}

/-- Fills in the fields of a request and binds the page; the tables of its script. -/
def codeFor (callable : List String) (request : Request) :
    Procedure Document PageError ClientCode := do
  let _ ← Document.populate request
  Document.bind callable

/-- Makes a page ready for a request: its fields, its marks and carriers, and its script. -/
def prepare (callable : List String) (assets : Assets) (request : Request) :
    Procedure Document PageError Unit := do
  let code ← codeFor callable request
  Document.inject (code.withAssets assets)

/-! ## Values have no say -/

section

variable (alike : Document.Alike names doc filled)

include alike

theorem callsOf_eq (node : NodeId) : callsOf filled node = callsOf doc node := by
  rw [callsOf, callsOf, alike.attr?_eq node (show "onclick" ≠ "value" by decide)]

theorem findAll_interactive_eq : filled.findAll interactive = doc.findAll interactive :=
  (alike.findAllIn_eq (by decide) root).symm

theorem Unmarked.of_alike (unmarked : Unmarked doc) : Unmarked filled := fun node =>
  (alike.attr?_eq node (show markName ≠ "value" by decide)).symm.trans (unmarked node)

theorem PanelsNamed.of_alike (panels : PanelsNamed doc) : PanelsNamed filled := by
  intro panel tree holds unnamed
  obtain ⟨top, aboveRoot, abovePanel⟩ := tree
  have parents (child : NodeId) : doc.parent? child = filled.parent? child := alike.parent?_eq child
  refine panels panel ⟨top, ?_, ?_⟩ ?_ ⟨?_, ?_⟩
  · exact aboveRoot.of_parent?_eq fun child _ => parents child
  · exact abovePanel.of_parent?_eq fun child _ => parents child
  · rw [alike.holds_eq (by decide)]
    exact holds
  · rw [alike.holds_eq (by decide)]
    exact unnamed.1
  · rw [alike.attr?_eq panel (by decide)]
    exact unnamed.2

theorem panelById_eq_of_alike (id : String) : filled.panelById id = doc.panelById id := by
  unfold Document.panelById Document.find
  rw [alike.findIn_eq]
  simp [Match.eq, Match.any]

theorem isElement_eq_of_alike (node : NodeId) : filled.isElement node = doc.isElement node :=
  (Forest.eq_of_rel Option.isSome (alike.rel_element? node) fun _ => rfl).symm

/-- Scripts and styles are put below the same nodes. -/
theorem welcomes_iff_of_alike {node : NodeId} : filled.Welcomes node ↔ doc.Welcomes node := by
  have outermost : filled.documentElement = doc.documentElement := by
    rw [Document.documentElement, Document.documentElement, alike.children_eq,
      funext (isElement_eq_of_alike alike)]
  have tagged (name : String) :
      (Match.tagged name).holds filled node = (Match.tagged name).holds doc node :=
    (alike.holds_eq (by simp [Match.tagged]) node).symm
  rw [Document.Welcomes, Document.Welcomes, outermost, tagged, tagged]

theorem sound_of_alike (sound : doc.Sound) : filled.Sound where
  wellFormed := alike.wellFormed sound.wellFormed
  top := (alike.takesChildren_eq root).symm.trans sound.top

end

theorem runFrom_codeFor (doc : Document) (callable : List String) (request : Request) :
    ∃ count filled, (Document.populate request).runFrom doc = (.ok count, filled) ∧
      Document.Alike request.fieldNames doc filled ∧
      (codeFor callable request).runFrom doc = (Document.bind callable).runFrom filled := by
  obtain ⟨count, filled, run, alike⟩ := Document.exists_populate doc request
  exact ⟨count, filled, run, alike, runFrom_bind_ok run⟩

/-- The script for a request has one function for each call of each element. -/
theorem exists_event_codeFor {after : Document} {request : Request} (wf : doc.WellFormed)
    (generated : (codeFor callable request).runFrom doc = (.ok code, after))
    (found : (doc.findAll interactive)[number]? = some node)
    (called : (callsOf doc node)[place]? = some call) :
    ∃ event ∈ code.events, event.mark = mark number ∧ event.place = place ∧ event.call = call ∧
      (PanelsNamed doc →
        ∃ scope, doc.eventScope node = some scope ∧ event.panel = scope.panelId?) ∧
      ∀ other ∈ code.events, other.mark = mark number → other.place = place → other = event := by
  obtain ⟨_, filled, _, alike, run⟩ := runFrom_codeFor doc callable request
  rw [← findAll_interactive_eq alike] at found
  rw [← callsOf_eq alike] at called
  obtain ⟨event, member, mine, here, same, panel, unique⟩ :=
    exists_event (alike.wellFormed wf) (run.symm.trans generated) found called
  refine ⟨event, member, mine, here, same, fun panels => ?_, unique⟩
  rw [alike.eventScope_eq]
  exact panel (panels.of_alike alike)

/-- A page that was bound for one request is bound for any other: with the same tables, and with
the same marks and panels where a template has no marks and distinct panels of its own. -/
theorem exists_prepared {after : Document} {first : Request} (template : doc.Template)
    (unmarked : Unmarked doc)
    (generated : (codeFor callable first).runFrom doc = (.ok code, after)) (assets : Assets)
    (later : Request) :
    ∃ count filled bound final,
      (Document.populate later).runFrom doc = (.ok count, filled) ∧ filled.Sound ∧
      (Document.bind callable).runFrom filled = (.ok code, bound) ∧
      (Document.inject (code.withAssets assets)).runFrom bound = (.ok (), final) ∧
      (prepare callable assets later).runFrom doc = (.ok (), final) ∧ bound.Extends final ∧
      (∀ number node, (doc.findAll interactive)[number]? = some node →
        final.find (Match.any.eq markName (mark number)) = some node) ∧
      (PanelsNamed doc → PanelsDistinct doc → ∀ node panel id,
        node ∈ doc.findAll interactive → doc.eventScope node = some (.panel panel id) →
        final.panelById id = some panel) := by
  obtain ⟨_, filledFirst, _, alikeFirst, runFirst⟩ := runFrom_codeFor doc callable first
  obtain ⟨count, filled, populated, alike, run⟩ := runFrom_codeFor doc callable later
  have sound := sound_of_alike alike template.sound
  -- both requests leave documents that differ in values alone, which binding does not look at
  have both : Document.Alike (first.fieldNames ++ later.fieldNames) filledFirst filled :=
    (alikeFirst.mono (List.subset_append_left _ _)).symm.trans
      (alike.mono (List.subset_append_right _ _))
  have results := (respects_bind callable filledFirst filled both).1
  rw [← runFirst, generated] at results
  have bound : (Document.bind callable).runFrom filled =
      (.ok code, ((Document.bind callable).runFrom filled).2) := Prod.ext results.symm rfl
  generalize ((Document.bind callable).runFrom filled).2 = next at bound
  obtain ⟨_, _, _, _, frame, _⟩ := exists_of_bind sound.wellFormed (fun _ _ _ => True) trivial
    (fun _ _ _ _ _ _ _ _ _ _ => trivial) bound
  have hasRoot := Document.has_of_takesChildren sound.top
  have top : next.takesChildren root = true := (frame.takes root hasRoot).trans sound.top
  obtain ⟨final, injected, ext⟩ :=
    Document.exists_inject frame.wellFormed top (code.withAssets assets)
  refine ⟨count, filled, next, final, populated, sound, bound, injected, ?_, ext, ?_, ?_⟩
  · exact (runFrom_bind_ok (run.trans bound)).trans injected
  · intro number node found
    rw [← findAll_interactive_eq alike] at found
    exact find_mark sound.wellFormed hasRoot (unmarked.of_alike alike) bound ext found
  · intro panels distinct node panel id member scope
    have asks : ("id", some id) ∈ ((Match.any.eq "id" id).eq "updatepanel" "true").attributes := by
      simp [Match.eq, Match.any]
    have known := panelById_of_eventScope template.wellFormed template.top template.alone
      ((Document.mem_findAllIn template.wellFormed).mp member).1.1 (has_of_interactive member)
      distinct scope
    have same := ext.find_eq frame.wellFormed (frame.has hasRoot) asks
    rw [Document.panelById, same]
    exact (frame.panelById_eq sound.wellFormed (panels.of_alike alike) hasRoot id).trans
      ((panelById_eq_of_alike alike id).trans known)

end Binding

end ServerPages
