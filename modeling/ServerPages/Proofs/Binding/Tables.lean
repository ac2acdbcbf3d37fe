import ServerPages.Controller.Handler
import ServerPages.Proofs.Binding.Marks
import ServerPages.Proofs.Document.SameBut
import ServerPages.Proofs.Forest.Alike

/-!
# Tables of a bound document

Each element that can be clicked has its number as a mark, a listener, and one entry in the table
of calls for each server call of its click expression, all in document order. An entry tells what
the element was when it was bound: a carrier without an `id` may have got one by then, and the
scopes of elements may name such carriers. Methods have one stub each, those that scripts may call
first.
-/

namespace ServerPages.Binding

open Procedure

variable {before after : Document} {behind done : List NodeId} {node : NodeId} {number : Nat}
  {element : Element} {state ensured : BindingState} {scope : EventScope} {carrier : String}
  {bound : List BoundElement}

/-! ## In the middle of binding -/

def bindEach (nodes : List NodeId) : Procedure BindingState PageError (List BoundElement) :=
  nodes.zipIdx.mapM fun (node, number) => bindElement node number

def partlyBound (before : Document) (count : Nat) : Document :=
  ((bindEach ((before.findAll interactive).take count)).runFrom ⟨before, 0⟩).2.doc

/-- An entry of the table of calls; its element is read when it has been bound, its scope before. -/
def entry (before : Document) (node : NodeId) (number : Nat) (carrier : String) (place : Nat)
    (call : Click.Call) : ClientEvent where
  mark := mark number
  place := place
  id := (partlyBound before (number + 1)).attr? node "id"
  name := before.attr? node "name"
  panel := ((partlyBound before number).eventScope node).bind EventScope.panelId?
  carrier := carrier
  call := call

def entries (before : Document) (node : NodeId) (number : Nat) (carrier : String) :
    List ClientEvent :=
  (callsOf before node).zipIdx.map fun (call, place) =>
    entry before node number carrier place call

/-- The listener of an element. Its click expression looks calls up by the mark of the element and
the number of the call. -/
def listener (before : Document) (node : NodeId) (number : Nat) : Listener where
  mark := mark number
  expression := Click.replaceCalls ((before.attr? node "onclick").getD "") fun place _ =>
    "raiseServerEvent(this, " ++
      Json.renderString (mark number ++ "_" ++ Text.decimal place) ++ ", event)"
  afterwards := (before.attr? node "postclick").filter (· ≠ "")

theorem runFrom_bindEach_concat {value : BoundElement} {start next : BindingState}
    (run : (bindEach done).runFrom start = (.ok bound, state))
    (last : (bindElement node done.length).runFrom state = (.ok value, next)) :
    (bindEach (done ++ [node])).runFrom start = (.ok (bound ++ [value]), next) := by
  unfold bindEach at run ⊢
  rw [List.zipIdx_append, List.mapM_append, runFrom_bind_ok run, List.zipIdx_singleton,
    List.mapM_cons, bind_assoc, Nat.zero_add, runFrom_bind_ok last]
  rfl

theorem sameBut_marked (known : state.doc.element? node = some element) (number : Nat) :
    Document.SameBut markName state.doc (marked state.doc node element number) := by
  have alike : Forest.Alike (fun _ _ => True) state.doc (marked state.doc node element number) :=
    .setKind_right (fun _ => trivial) state.doc (Document.element?_eq_some_iff.mp known) trivial
  refine ⟨alike.inclusiveAncestors_eq, alike.descendants_eq,
    fun id => (Document.tagName?_setKind_setAttr known _ _ _).symm, fun id other different => ?_⟩
  rw [attr?_marked known, if_neg fun same => different same.2]

/-! ## Rounds -/

/-- What an element is read for as it is bound, and how far it is what the element had before. -/
structure ReadAt (before : Document) (number : Nat) (node : NodeId) : Prop where
  resolved : ((partlyBound before number).eventScope node).isSome = true
  panels (named : PanelsNamed before) :
    (partlyBound before number).eventScope node = before.eventScope node
  id (named : ¬ Unnamed before node) :
    (partlyBound before (number + 1)).attr? node "id" = before.attr? node "id"

namespace Round

variable (round : Round before behind node state element scope carrier ensured)
  (run : (bindEach behind).runFrom ⟨before, 0⟩ = (.ok bound, state))

include round run

theorem partlyBound_eq : partlyBound before behind.length = state.doc := by
  obtain ⟨ahead, whole⟩ := round.whole
  rw [partlyBound, whole, List.take_left, run]

theorem partlyBound_succ_eq :
    partlyBound before (behind.length + 1) = unclicked ensured.doc node := by
  obtain ⟨ahead, whole⟩ := round.whole
  have first : (before.findAll interactive).take (behind.length + 1) = behind ++ [node] := by
    rw [whole, List.append_cons]
    exact List.take_left' (List.length_append.trans rfl)
  rw [partlyBound, first, runFrom_bindEach_concat run round.run]

theorem eventScope_partlyBound :
    (partlyBound before behind.length).eventScope node = some scope := by
  rw [round.partlyBound_eq run, (sameBut_marked round.known _).eventScope_eq (by decide)]
  exact round.found

theorem attr?_partlyBound :
    (partlyBound before (behind.length + 1)).attr? node "id" = ensured.doc.attr? node "id" := by
  rw [round.partlyBound_succ_eq run, attr?_unclicked _ _ _ (by decide) (by decide)]

theorem readAt (wf : before.WellFormed) : ReadAt before behind.length node where
  resolved := by rw [round.eventScope_partlyBound run, Option.isSome_some]
  panels named := (round.eventScope_partlyBound run).trans (round.eventScope_eq wf named).symm
  id named := (round.attr?_partlyBound run).trans
    (round.attr?_node wf (by decide) fun _ => named)

/-- What comes of an element is told by the document in the middle of binding. -/
theorem outcome_eq (wf : before.WellFormed) :
    outcome ensured.doc node behind.length scope carrier =
      ⟨entries before node behind.length carrier, listener before node behind.length⟩ := by
  have reads (name : String) (notMark : name ≠ markName) (notId : name ≠ "id") :=
    round.attr?_node wf notMark fun same => absurd same notId
  unfold outcome entries entry listener callsOf
  rw [round.eventScope_partlyBound run, round.attr?_partlyBound run,
    reads "name" (by decide) (by decide), reads "onclick" (by decide) (by decide),
    reads "postclick" (by decide) (by decide)]
  rfl

end Round

structure Tabled (before : Document) (done : List NodeId) (state : BindingState)
    (bound : List BoundElement) : Prop where
  run : (bindEach done).runFrom ⟨before, 0⟩ = (.ok bound, state)
  reads {number : Nat} {node : NodeId} (reached : done[number]? = some node) :
    ReadAt before number node
  outcomes : ∃ carriers : Nat → String, bound = done.zipIdx.map fun item =>
    ⟨entries before item.1 item.2 (carriers item.2), listener before item.1 item.2⟩

theorem Tabled.start (before : Document) : Tabled before [] ⟨before, 0⟩ [] where
  run := rfl
  reads reached := nomatch reached
  outcomes := ⟨fun _ => "", rfl⟩

theorem Tabled.next (wf : before.WellFormed)
    (round : Round before done node state element scope carrier ensured)
    (tabled : Tabled before done state bound) :
    Tabled before (done ++ [node]) ⟨unclicked ensured.doc node, ensured.carriers⟩
      (bound ++ [outcome ensured.doc node done.length scope carrier]) where
  run := runFrom_bindEach_concat tabled.run round.run
  reads := by
    intro number other reached
    rcases getElem?_concat_cases reached with earlier | ⟨rfl, rfl⟩
    · exact tabled.reads earlier
    · exact round.readAt tabled.run wf
  outcomes := by
    obtain ⟨carriers, rfl⟩ := tabled.outcomes
    refine ⟨Function.update carriers done.length carrier, ?_⟩
    rw [round.outcome_eq tabled.run wf, List.zipIdx_append, List.map_append, List.zipIdx_singleton,
      List.map_singleton, Nat.zero_add]
    dsimp only
    rw [Function.update_self]
    -- The carrier of the last element is none of those before it.
    refine congrArg (· ++ _) (List.map_congr_left fun item member => ?_)
    have earlier : item.2 < done.length := by
      obtain ⟨_, bounded, _⟩ := List.mem_zipIdx member
      omega
    rw [Function.update_of_ne (Nat.ne_of_lt earlier)]

/-! ## The tables -/

def callableNames (handlers : List HandlerInfo) : List String :=
  (handlers.filter (·.callable)).map (·.name)

/-- Each call of a document's clicks is in the tables of its script, in order and as its own. -/
structure Faithful (before : Document) (handlers : List HandlerInfo) (after : Document)
    (code : ClientCode) : Prop where
  marked (node : NodeId) (text : String) : after.attr? node markName = some text ↔
    ∃ number, (before.findAll interactive)[number]? = some node ∧ text = mark number
  reads {number : Nat} {node : NodeId}
    (found : (before.findAll interactive)[number]? = some node) : ReadAt before number node
  /-- One for each element. -/
  listeners : code.listeners = (before.findAll interactive).zipIdx.map fun (node, number) =>
    listener before node number
  /-- One for each call of each element; the calls of an element share a carrier. -/
  events : ∃ carriers : Nat → String, code.events =
    (before.findAll interactive).zipIdx.flatMap fun (node, number) =>
      entries before node number (carriers number)
  keys : (code.events.map ClientEvent.key).Nodup
  /-- Those that scripts may call, then others by their first call. -/
  stubs : code.methods = (callableNames handlers).eraseDups ++
    ((code.events.map (·.call.method)).removeAll (callableNames handlers)).eraseDups
  stubsOnce : code.methods.Nodup
  stub_iff (method : String) : method ∈ code.methods ↔
    (∃ handler ∈ handlers, handler.callable = true ∧ handler.name = method) ∨
      ∃ event ∈ code.events, event.call.method = method

end ServerPages.Binding
