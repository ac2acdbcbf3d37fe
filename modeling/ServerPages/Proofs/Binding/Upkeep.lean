import ServerPages.Proofs.Binding.Steps
import ServerPages.Proofs.Document.Upkeep

/-!
# What binding does to documents

Binding marks elements, takes their click expressions and comes to carriers, whether it ends well
or refuses an element. So it keeps what operations keep that give no attributes but the server's.
-/

namespace ServerPages

open Procedure

variable {forbidden : List String} {property : Document → Prop}

def BindingState.Meets (property : Document → Prop) (state : BindingState) : Prop :=
  property state.doc

namespace Binding

theorem edit_at {state : BindingState} {change : Document → Except EditError Document}
    (holds : state.Meets property) (keeps : ∀ next, change state.doc = .ok next → property next) :
    ((Carrier.edit change).runFrom state).2.Meets property := by
  rw [Carrier.edit, step, runFrom_ofRun]
  cases done : change state.doc with
  | error error => exact holds
  | ok next => exact keeps next done

/-- What binding one element keeps of a document, binding all of them keeps. -/
theorem preserves_bind_of_each
    (each : ∀ node number, Preserves (·.Meets property) (bindElement node number))
    (callable : List String) : Preserves property (Document.bind callable) := by
  have all : Preserves (·.Meets property) (bindAll callable) :=
    Preserves.get_bind fun state holds =>
      (Preserves.mapM fun _ => each _ _).bind (fun _ => .pure _) state holds
  exact fun doc holds => all ⟨doc, 0⟩ holds

variable (stable : Document.Stable (Document.Operation.Discreet forbidden) property)
  (apart : ∀ name ∈ ownNames, name ∉ forbidden)
include stable apart

theorem preserves_ensure (scope : NodeId) :
    Preserves (·.Meets property) (Carrier.ensure scope) := by
  refine Preserves.get_bind fun state holds => ?_
  dsimp only
  split
  · split
    · exact holds
    · rw [runFrom_bind_ok (runFrom_takeId _)]
      refine Preserves.bind_at (edit_at holds fun next done => ?_) fun _ _ _ holds => holds
      exact stable.setAttr holds (apart _ (by decide)) done
  · rw [runFrom_bind_ok (runFrom_takeId _), runFrom_bind_ok (runFrom_create _ _)]
    have own : ["type", "name", "id"] ⊆ ownNames := by decide
    have created := stable.createElement holds (Carrier.element (Carrier.newId state.carriers))
      (show ["type", "name", "id"].Nodup by decide) fun name member => apart name (own member)
    refine Preserves.bind_at (edit_at created fun next done => ?_) fun _ _ _ holds => holds
    exact stable.appendChild created (Document.has_create_new _ _) done

theorem preserves_bindElement (node : NodeId) (number : Nat) :
    Preserves (·.Meets property) (bindElement node number) := by
  have takes (name : String) : Preserves (·.Meets property) (takeAttr node name) :=
    fun _ holds => stable.removeAttr holds node name
  refine Preserves.bind ?_ fun _ => Preserves.get_bind fun state holds => ?_
  · intro state holds
    exact edit_at holds fun next done => stable.setAttr holds (apart _ (by decide)) done
  · dsimp only
    split
    · exact holds
    · refine Preserves.bind (preserves_ensure stable apart _) (fun _ => ?_) _ holds
      exact (takes "onclick").bind fun _ => (takes "postclick").bind fun _ =>
        Preserves.get_bind fun _ holds => holds

end Binding

theorem Document.preserves_bind
    (stable : Document.Stable (Document.Operation.Discreet forbidden) property)
    (apart : ∀ name ∈ ownNames, name ∉ forbidden) (callable : List String) :
    Preserves property (Document.bind callable) :=
  Binding.preserves_bind_of_each (Binding.preserves_bindElement stable apart) callable

end ServerPages
