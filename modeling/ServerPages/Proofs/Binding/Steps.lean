import ServerPages.Proofs.Binding.Keys
import ServerPages.Proofs.Binding.Scopes
import ServerPages.Proofs.Procedure

/-!
# Binding one element

What a carrier is taken from is one of three: a carrier with an `id`, a carrier that gets
one, or a new carrier at the end of the scope. On a well-formed document nothing else can
happen, and an element is refused for no other reason than that it has no scope.
-/

namespace ServerPages.Binding

open Procedure

/-! ## Carriers -/

inductive Ensures (scope : NodeId) (state : BindingState) : String → BindingState → Prop
  | known {carrier : NodeId} {id : String}
      (found : state.doc.findIn scope Carrier.wanted = some carrier)
      (named : state.doc.attr? carrier "id" = some id) : Ensures scope state id state
  | named {carrier : NodeId} {element : Element}
      (found : state.doc.findIn scope Carrier.wanted = some carrier)
      (unnamed : state.doc.attr? carrier "id" = none)
      (known : state.doc.element? carrier = some element) :
      Ensures scope state (Carrier.newId state.carriers)
        ⟨state.doc.setKind carrier
          (.element (element.setAttr "id" (Carrier.newId state.carriers))), state.carriers + 1⟩
  | added (absent : state.doc.findIn scope Carrier.wanted = none) :
      Ensures scope state (Carrier.newId state.carriers)
        ⟨withCarrier state.doc scope state.carriers, state.carriers + 1⟩

theorem runFrom_edit_ok {change : Document → Except EditError Document} {doc next : Document}
    (done : change doc = .ok next) (carriers : Nat) :
    (Carrier.edit change).runFrom ⟨doc, carriers⟩ = (.ok (), ⟨next, carriers⟩) := by
  rw [Carrier.edit, step, runFrom_ofRun, done]

theorem runFrom_takeId (state : BindingState) :
    Carrier.takeId.runFrom state =
      (.ok (Carrier.newId state.carriers), ⟨state.doc, state.carriers + 1⟩) := rfl

theorem runFrom_create (element : Element) (state : BindingState) :
    (Carrier.create element).runFrom state =
      (.ok ⟨Forest.size state.doc⟩, ⟨(state.doc.create (.element element)).2, state.carriers⟩) :=
  rfl

/-- Every element of a well-formed document comes to a carrier. -/
theorem exists_ensures {doc : Document} (wf : doc.WellFormed) {scope : NodeId}
    (takes : doc.takesChildren scope = true) (carriers : Nat) :
    ∃ id next, (Carrier.ensure scope).runFrom ⟨doc, carriers⟩ = (.ok id, next) ∧
      Ensures scope ⟨doc, carriers⟩ id next := by
  unfold Carrier.ensure
  rw [runFrom_bind_ok (runFrom_get _)]
  dsimp only
  cases found : doc.findIn scope Carrier.wanted with
  | none =>
      dsimp only
      have added := Document.appendChild_create wf takes
        (.element (Carrier.element (Carrier.newId carriers)))
        (Document.mergedText?_of_element (Forest.kind?_create_new doc _))
      rw [runFrom_bind_ok (runFrom_takeId _), runFrom_bind_ok (runFrom_create _ _),
        runFrom_bind_ok (runFrom_edit_ok added _)]
      exact ⟨_, _, rfl, .added found⟩
  | some carrier =>
      dsimp only
      cases named : doc.attr? carrier "id" with
      | some id => exact ⟨id, ⟨doc, carriers⟩, rfl, .known found named⟩
      | none =>
          dsimp only
          obtain ⟨element, known, _⟩ :=
            Document.exists_element_of_holds (Document.holds_of_findIn found)
          rw [runFrom_bind_ok (runFrom_takeId _),
            runFrom_bind_ok (runFrom_edit_ok (Document.setAttr_eq known _ _) _)]
          exact ⟨_, _, rfl, .named found named known⟩

namespace Ensures

variable {scope : NodeId} {state next : BindingState} {id : String} {before : Document}
  {touched : List NodeId}

/-- Coming to a carrier stays within the frame of a binding. -/
theorem frame (ensures : Ensures scope state id next) (inside : state.doc.Has scope)
    (frame : Frame touched before state.doc) : Frame touched before next.doc := by
  cases ensures with
  | known => exact frame
  | named found unnamed known => exact frame.name ⟨Document.holds_of_findIn found, unnamed⟩ known _
  | added => exact frame.add inside _

end Ensures

/-! ## Elements -/

def marked (doc : Document) (node : NodeId) (element : Element) (number : Nat) : Document :=
  doc.setKind node (.element (element.setAttr markName (mark number)))

def unclicked (doc : Document) (node : NodeId) : Document :=
  (doc.removeAttr node "onclick").removeAttr node "postclick"

/-- What comes of an element, its scope and carrier given. -/
def outcome (doc : Document) (node : NodeId) (number : Nat) (scope : EventScope)
    (carrier : String) : BoundElement :=
  let event (place : Nat) (call : Click.Call) : ClientEvent :=
    { mark := mark number, place, id := doc.attr? node "id", name := doc.attr? node "name",
      panel := scope.panelId?, carrier, call }
  let (events, expression) := bindExpression ((doc.attr? node "onclick").getD "") event
  ⟨events, mark number, expression, (doc.attr? node "postclick").filter (· ≠ "")⟩

theorem attr?_marked {doc : Document} {node : NodeId} {element : Element}
    (known : doc.element? node = some element) (number : Nat) (other : NodeId) (name : String) :
    (marked doc node element number).attr? other name =
      if other = node ∧ name = markName then some (mark number) else doc.attr? other name :=
  Document.attr?_setKind_setAttr known _ _ _ _

theorem attr?_unclicked (doc : Document) (node other : NodeId) {name : String}
    (first : name ≠ "onclick") (second : name ≠ "postclick") :
    (unclicked doc node).attr? other name = doc.attr? other name :=
  (Document.attr?_removeAttr _ (Or.inr second)).trans
    (Document.attr?_removeAttr _ (Or.inr first))

theorem runFrom_takeAttr (node : NodeId) (name : String) (state : BindingState) :
    (takeAttr node name).runFrom state =
      (.ok (state.doc.attr? node name), ⟨state.doc.removeAttr node name, state.carriers⟩) := rfl

/-- An element is bound unless it has no scope. -/
theorem bindElement_cases {doc : Document} (wf : doc.WellFormed) {node : NodeId}
    {element : Element} (known : doc.element? node = some element) (number carriers : Nat) :
    ((marked doc node element number).eventScope node = none ∧
      (bindElement node number).runFrom ⟨doc, carriers⟩ =
        (.error (.scope (describe (marked doc node element number) node)),
          ⟨marked doc node element number, carriers⟩)) ∨
    ∃ scope carrier ensured,
      (marked doc node element number).eventScope node = some scope ∧
      Ensures scope.node ⟨marked doc node element number, carriers⟩ carrier ensured ∧
      (bindElement node number).runFrom ⟨doc, carriers⟩ =
        (.ok (outcome ensured.doc node number scope carrier),
          ⟨unclicked ensured.doc node, ensured.carriers⟩) := by
  unfold bindElement
  dsimp only
  rw [runFrom_bind_ok (runFrom_edit_ok (Document.setAttr_eq known _ _) _),
    runFrom_bind_ok (runFrom_get _)]
  dsimp only
  cases found : (marked doc node element number).eventScope node with
  | none =>
      refine Or.inl ⟨rfl, ?_⟩
      unfold marked at found
      rw [found]
      rfl
  | some scope =>
      have wfMarked : Forest.WellFormed (marked doc node element number) := wf.setKind _ _
      obtain ⟨carrier, ensured, run, ensures⟩ :=
        exists_ensures wfMarked (takesChildren_of_eventScope found) carriers
      refine Or.inr ⟨scope, carrier, ensured, rfl, ensures, ?_⟩
      unfold marked at found run
      rw [found]
      dsimp only
      rw [runFrom_bind_ok run, runFrom_bind_ok (runFrom_takeAttr _ _ _),
        runFrom_bind_ok (runFrom_takeAttr _ _ _), runFrom_bind_ok (runFrom_get _)]
      have postclick : (ensured.doc.removeAttr node "onclick").attr? node "postclick" =
          ensured.doc.attr? node "postclick" :=
        Document.attr?_removeAttr _ (Or.inr (by decide))
      have id := attr?_unclicked ensured.doc node node (show "id" ≠ "onclick" by decide)
        (by decide)
      have name := attr?_unclicked ensured.doc node node (show "name" ≠ "onclick" by decide)
        (by decide)
      unfold unclicked at id name
      dsimp only
      rw [runFrom_pure, postclick, id, name]
      rfl

namespace Frame

variable {before doc : Document} {touched : List NodeId} {node : NodeId}

theorem marked (frame : Frame touched before doc) (old : before.Has node) {element : Element}
    (known : doc.element? node = some element) (number : Nat) :
    Frame (touched ++ [node]) before (marked doc node element number) :=
  (frame.mono (List.subset_append_left _ _)).mark (List.mem_append_right _ List.mem_cons_self) old
    known (by decide) _

theorem unclicked (frame : Frame touched before doc) (member : node ∈ touched)
    (old : before.Has node) : Frame touched before (unclicked doc node) :=
  (frame.take member old (by decide)).take member old (by decide)

end Frame

/-! ## Calls of an element -/

section

variable {read : Document} {node : NodeId} {number : Nat} {scope : EventScope} {carrier : String}

def clientEvent (read : Document) (node : NodeId) (number : Nat) (scope : EventScope)
    (carrier : String) (place : Nat) (call : Click.Call) : ClientEvent :=
  { mark := mark number, place, id := read.attr? node "id", name := read.attr? node "name",
    panel := scope.panelId?, carrier, call }

theorem outcome_events (read : Document) (node : NodeId) (number : Nat) (scope : EventScope)
    (carrier : String) :
    (outcome read node number scope carrier).events =
      (Click.calls (Click.pieces ((read.attr? node "onclick").getD "").toList)).zipIdx.map
        fun (call, place) => clientEvent read node number scope carrier place call := rfl

theorem exists_of_mem_outcome {event : ClientEvent}
    (member : event ∈ (outcome read node number scope carrier).events) :
    ∃ place call, event = clientEvent read node number scope carrier place call := by
  rw [outcome_events] at member
  obtain ⟨⟨call, place⟩, _, rfl⟩ := List.mem_map.mp member
  exact ⟨place, call, rfl⟩

theorem carrier_of_mem_outcome {event : ClientEvent}
    (member : event ∈ (outcome read node number scope carrier).events) :
    event.carrier = carrier := by
  obtain ⟨place, call, rfl⟩ := exists_of_mem_outcome member
  rfl

theorem mark_of_mem_outcome {event : ClientEvent}
    (member : event ∈ (outcome read node number scope carrier).events) :
    event.mark = mark number := by
  obtain ⟨place, call, rfl⟩ := exists_of_mem_outcome member
  rfl

theorem nodup_places (read : Document) (node : NodeId) (number : Nat) (scope : EventScope)
    (carrier : String) :
    ((outcome read node number scope carrier).events.map (·.place)).Nodup := by
  have places : (outcome read node number scope carrier).events.map (·.place) =
      (Click.calls (Click.pieces ((read.attr? node "onclick").getD "").toList)).zipIdx.map
        Prod.snd := by
    rw [outcome_events, List.map_map]
    rfl
  rw [places, List.zipIdx_map_snd]
  exact List.nodup_range'

end

/-! ## All elements -/

def assemble (callable : List String) (bound : List BoundElement) : ClientCode :=
  let events := bound.flatMap (·.events)
  ⟨stubbed callable events, events, bound.map (·.listener)⟩

/-- One round of binding: the element after those behind it is marked, and its scope comes to a
carrier. -/
structure Round (before : Document) (behind : List NodeId) (node : NodeId) (state : BindingState)
    (element : Element) (scope : EventScope) (carrier : String) (ensured : BindingState) :
    Prop where
  whole : ∃ ahead, before.findAll interactive = behind ++ node :: ahead
  frame : Frame behind before state.doc
  known : state.doc.element? node = some element
  found : (marked state.doc node element behind.length).eventScope node = some scope
  ensures : Ensures scope.node ⟨marked state.doc node element behind.length, state.carriers⟩
    carrier ensured
  run : (bindElement node behind.length).runFrom state =
    (.ok (outcome ensured.doc node behind.length scope carrier),
      ⟨unclicked ensured.doc node, ensured.carriers⟩)

theorem has_of_interactive {before : Document} {node : NodeId}
    (member : node ∈ before.findAll interactive) : before.Has node :=
  Document.has_of_holds (List.mem_filter.mp member).2

namespace Round

variable {before : Document} {behind : List NodeId} {node : NodeId} {state ensured : BindingState}
  {element : Element} {scope : EventScope} {carrier : String}
  (round : Round before behind node state element scope carrier ensured)

include round

theorem mem : node ∈ before.findAll interactive := by
  obtain ⟨ahead, whole⟩ := round.whole
  rw [whole]
  exact List.mem_append_right _ List.mem_cons_self

theorem old : before.Has node :=
  has_of_interactive round.mem

theorem not_mem_behind (wf : before.WellFormed) : node ∉ behind := by
  obtain ⟨ahead, whole⟩ := round.whole
  have nodup : (before.findAll interactive).Nodup := (wf.nodup_descendants _).filter _
  rw [whole] at nodup
  intro member
  exact (List.nodup_append.mp nodup).2.2 node member node List.mem_cons_self rfl

theorem inTree (wf : before.WellFormed) : before.InTree node :=
  Document.inTree_of_mem_findAll wf round.mem

theorem frame_marked :
    Frame (behind ++ [node]) before (marked state.doc node element behind.length) :=
  round.frame.marked round.old round.known _

theorem has_scope : (marked state.doc node element behind.length).Has scope.node :=
  Document.has_of_takesChildren (takesChildren_of_eventScope round.found)

theorem frame_ensured : Frame (behind ++ [node]) before ensured.doc :=
  round.ensures.frame round.has_scope round.frame_marked

theorem frame_next : Frame (behind ++ [node]) before (unclicked ensured.doc node) :=
  round.frame_ensured.unclicked (List.mem_append_right _ List.mem_cons_self) round.old

theorem has_of_mem {other : NodeId} (member : other ∈ behind) : before.Has other := by
  obtain ⟨ahead, whole⟩ := round.whole
  exact has_of_interactive (whole ▸ List.mem_append_left _ member)

theorem marks : Frame [node] state.doc (marked state.doc node element behind.length) :=
  (Frame.refl round.frame.wellFormed).marked (round.frame.has round.old) round.known _

theorem takes : Frame [node] ensured.doc (unclicked ensured.doc node) := by
  have frame := (Frame.refl round.frame_ensured.wellFormed).mono (List.nil_subset [node])
  exact frame.unclicked List.mem_cons_self (round.frame_ensured.has round.old)

/-- What a round leaves of the state before it. -/
theorem turn : Frame [node] state.doc (unclicked ensured.doc node) := by
  exact (round.ensures.frame round.has_scope round.marks).unclicked List.mem_cons_self
    (round.frame.has round.old)

/-- The element has the scope that it had before anything was bound. -/
theorem eventScope_eq (wf : before.WellFormed) (panels : PanelsNamed before) :
    before.eventScope node = some scope := by
  have inRoot := ((Document.mem_findAllIn wf).mp round.mem).1.1
  rw [← round.frame_marked.eventScope_eq wf panels (wf.has_top inRoot round.old) round.old
    (round.inTree wf)]
  exact round.found

theorem attr?_ensured (other : NodeId) (inside : state.doc.Has other) {name : String}
    (named : name = "id" → ¬ Unnamed (marked state.doc node element behind.length) other) :
    ensured.doc.attr? other name =
      (marked state.doc node element behind.length).attr? other name := by
  have frame := round.ensures.frame round.has_scope (.refl round.frame_marked.wellFormed)
  refine frame.attr other name ?_ (fun member => nomatch member) named
  rw [marked, Forest.Has, Forest.size_setKind]
  exact inside

/-- What is read of the element after it was marked is what it had before anything was bound. -/
theorem attr?_node (wf : before.WellFormed) {name : String} (notMark : name ≠ markName)
    (named : name = "id" → ¬ Unnamed before node) :
    ensured.doc.attr? node name = before.attr? node name := by
  rw [round.attr?_ensured node (round.frame.has round.old), attr?_marked round.known, if_neg]
  · exact round.frame.attr node name round.old
      (fun member => absurd member (round.not_mem_behind wf)) named
  · exact fun same => notMark same.2
  · exact fun same unnamed => named same (round.frame_marked.unnamed round.old unnamed)

theorem attr?_mark (other : NodeId) (inside : state.doc.Has other) :
    (unclicked ensured.doc node).attr? other markName =
      if other = node then some (mark behind.length) else state.doc.attr? other markName := by
  rw [attr?_unclicked _ _ _ (by decide) (by decide),
    round.attr?_ensured other inside (fun same => absurd same (by decide)),
    attr?_marked round.known]
  simp only [and_true]

end Round

/-- Binding a document ends well or finds an element without scope. What every round keeps holds
at the end; as the calls have distinct keys, the table has them all. -/
theorem bind_cases {before : Document} (wf : before.WellFormed) (callable : List String)
    (keeps : List NodeId → BindingState → List BoundElement → Prop)
    (first : keeps [] ⟨before, 0⟩ [])
    (next : ∀ behind node state element scope carrier ensured bound,
      Round before behind node state element scope carrier ensured → keeps behind state bound →
      keeps (behind ++ [node]) ⟨unclicked ensured.doc node, ensured.carriers⟩
        (bound ++ [outcome ensured.doc node behind.length scope carrier])) :
    (∃ bound after,
      (Document.bind callable).runFrom before = (.ok (assemble callable bound), after.doc) ∧
      Keyed (before.findAll interactive).length (bound.flatMap (·.events)) ∧
      Frame (before.findAll interactive) before after.doc ∧
      keeps (before.findAll interactive) after bound) ∨
    ∃ message after,
      (Document.bind callable).runFrom before = (.error (.scope message), after) := by
  have loop := mapM_zipIdx_cases (fun item => bindElement item.1 item.2)
    (before.findAll interactive)
    (fun done state bound => Keyed done.length (bound.flatMap (·.events)) ∧
      Frame done before state.doc ∧ keeps done state bound)
    (fun error => ∃ message, error = PageError.scope message) ⟨.nil, .refl wf, first⟩ ?_
  · unfold Document.bind bindAll
    rw [within, runFrom_ofRun, runFrom_bind_ok (runFrom_get _)]
    dsimp only
    rcases loop with ⟨bound, after, run, keyed, kept⟩ | ⟨error, after, run, message, rfl⟩
    · rw [runFrom_bind_ok run, tableOf_of_nodup keyed.distinct]
      exact Or.inl ⟨bound, after, rfl, keyed, kept⟩
    · rw [runFrom_bind_error run]
      exact Or.inr ⟨message, after.doc, rfl⟩
  · intro behind node ahead state bound whole kept
    obtain ⟨keyed, frame, kept⟩ := kept
    have member : node ∈ before.findAll interactive := by simp [whole]
    obtain ⟨element, first, _⟩ := Document.exists_element_of_holds (List.mem_filter.mp member).2
    obtain ⟨element, known⟩ := frame.element first
    rcases bindElement_cases frame.wellFormed known behind.length state.carriers with
      ⟨_, run⟩ | ⟨scope, carrier, ensured, found, ensures, run⟩
    · exact Or.inr ⟨_, _, run, _, rfl⟩
    · have round : Round before behind node state element scope carrier ensured :=
        ⟨⟨ahead, whole⟩, frame, known, found, ensures, run⟩
      refine Or.inl ⟨_, _, run, ?_, round.frame_next,
        next behind node state element scope carrier ensured bound round kept⟩
      rw [List.flatMap_append, List.flatMap_singleton, List.length_append]
      exact keyed.append (fun _ => mark_of_mem_outcome) (nodup_places _ _ _ _ _)

/-- What every round keeps holds where binding ended well. -/
theorem exists_of_bind {before after : Document} (wf : before.WellFormed)
    {callable : List String} {code : ClientCode}
    (keeps : List NodeId → BindingState → List BoundElement → Prop)
    (first : keeps [] ⟨before, 0⟩ [])
    (next : ∀ behind node state element scope carrier ensured bound,
      Round before behind node state element scope carrier ensured → keeps behind state bound →
      keeps (behind ++ [node]) ⟨unclicked ensured.doc node, ensured.carriers⟩
        (bound ++ [outcome ensured.doc node behind.length scope carrier]))
    (done : (Document.bind callable).runFrom before = (.ok code, after)) :
    ∃ bound state, code = assemble callable bound ∧ after = state.doc ∧
      Frame (before.findAll interactive) before after ∧
      keeps (before.findAll interactive) state bound := by
  rcases bind_cases wf callable keeps first next with
    ⟨bound, state, run, -, frame, kept⟩ | ⟨message, next, run⟩
  · cases done.symm.trans run
    exact ⟨bound, state, rfl, rfl, frame, kept⟩
  · cases done.symm.trans run

end ServerPages.Binding
