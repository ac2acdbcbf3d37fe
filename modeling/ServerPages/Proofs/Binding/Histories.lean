import ServerPages.Proofs.Binding.Effects
import ServerPages.Proofs.Binding.Upkeep

/-!
# Bindings of one document

A document may be bound many times, ending well or not, and be edited in between. Binding adds
a carrier to a node only if there is none below it, and then there is one. So as long as the
carriers below a node stay, all bindings together add one at most.
-/

namespace ServerPages.Binding

open Document (root Operation)
open Procedure

variable {before doc next after : Document} {top node : NodeId} {touched : List NodeId}

/-! ## One binding -/

def Served (doc : Document) (top : NodeId) : Prop :=
  ∃ carrier, doc.Within top carrier ∧ carrier ≠ top ∧ Carrier.wanted.holds doc carrier = true

theorem not_served_of_findIn (wf : doc.WellFormed)
    (absent : doc.findIn top Carrier.wanted = none) : ¬ Served doc top := by
  rintro ⟨carrier, within, below, holds⟩
  rw [Document.findIn_eq_find?, List.find?_eq_none] at absent
  exact absent carrier (wf.mem_descendants.mpr ⟨within, below⟩) holds

theorem Frame.served (wf : before.WellFormed) (frame : Frame touched before after)
    (served : Served before top) : Served after top := by
  obtain ⟨carrier, within, below, holds⟩ := served
  have old := Document.has_of_holds holds
  exact ⟨carrier, (frame.grown.within_iff wf old).mpr within, below,
    (frame.holds_wanted old).trans holds⟩

def addedBelow (before after : Document) (top : NodeId) : List NodeId :=
  (after.children top).filter (¬ before.Has ·)

/-- Where a document is being bound, a node gets a carrier at most, and only one that is needed. -/
structure Serving (before : Document) (top : NodeId) (doc : Document) : Prop where
  wellFormed : doc.WellFormed
  grown : before.Grown doc
  served (earlier : Served before top) : Served doc top
  single : (addedBelow before doc top).length ≤ 1
  needed (added : addedBelow before doc top ≠ []) : Served doc top ∧ ¬ Served before top

namespace Serving

theorem start (wf : before.WellFormed) : Serving before top before := by
  have none : addedBelow before before top = [] := by
    rw [addedBelow, List.filter_eq_nil_iff]
    intro child down
    simpa using wf.has_child down
  refine ⟨wf, .refl wf, fun served => served, ?_, fun added => absurd none added⟩
  rw [none]
  exact Nat.zero_le 1

/-- A change within the frame of a binding that adds nothing below the node. -/
theorem turn (serving : Serving before top doc) (frame : Frame touched doc next)
    (same : next.children top = doc.children top) : Serving before top next := by
  have added : addedBelow before next top = addedBelow before doc top := by
    rw [addedBelow, addedBelow, same]
  refine ⟨frame.wellFormed, serving.grown.trans frame.grown,
    fun earlier => frame.served serving.wellFormed (serving.served earlier), ?_, fun some => ?_⟩
  · rw [added]
    exact serving.single
  · rw [added] at some
    obtain ⟨served, first⟩ := serving.needed some
    exact ⟨frame.served serving.wellFormed served, first⟩

/-- A carrier is added to a scope that has none. -/
theorem add (serving : Serving before top doc) {scope : NodeId} (inside : doc.Has scope)
    (absent : doc.findIn scope Carrier.wanted = none) (number : Nat) :
    Serving before top (withCarrier doc scope number) := by
  have frame := (Frame.refl serving.wellFormed).add inside number
  have children : Forest.children (withCarrier doc scope number) top =
      if scope = top then doc.children top ++ [⟨Forest.size doc⟩] else doc.children top :=
    Document.children_addLast _ inside top
  by_cases here : scope = top
  · subst here
    rw [if_pos rfl] at children
    have unserved := not_served_of_findIn serving.wellFormed absent
    have none : addedBelow before doc scope = [] := by
      by_contra some
      exact unserved (serving.needed some).1
    have one : addedBelow before (withCarrier doc scope number) scope = [⟨Forest.size doc⟩] := by
      have new : ¬ before.Has ⟨Forest.size doc⟩ := fun old =>
        Document.not_has_size doc (serving.grown.has old)
      rw [addedBelow] at none
      rw [addedBelow, children, List.filter_append, none]
      simpa using new
    have carrier := isCarrier_withCarrier doc scope number
    refine ⟨frame.wellFormed, serving.grown.trans frame.grown,
      fun earlier => absurd (serving.served earlier) unserved, ?_, fun _ => ⟨?_, ?_⟩⟩
    · rw [one]
      exact Nat.le_refl 1
    · refine ⟨_, .step (parent?_withCarrier doc scope number) .refl, ?_, carrier.holds_wanted⟩
      rintro same
      exact Document.not_has_size doc (same ▸ inside)
    · exact fun earlier => unserved (serving.served earlier)
  · rw [if_neg here] at children
    exact serving.turn frame children

end Serving

theorem preserves_serving (before : Document) (top node : NodeId) (number : Nat) :
    Preserves (·.Meets (Serving before top)) (bindElement node number) := by
  rintro ⟨doc, carriers⟩ serving
  have serving : Serving before top doc := serving
  cases known : doc.element? node with
  | none =>
      have refused : (Carrier.edit fun doc => doc.setAttr node markName (mark number)).runFrom
          ⟨doc, carriers⟩ = (.error (.document (.notAnElement node)), ⟨doc, carriers⟩) := by
        rw [Carrier.edit, step, runFrom_ofRun]
        dsimp only
        rw [Document.setAttr, known]
      unfold bindElement
      dsimp only
      rw [runFrom_bind_error refused]
      exact serving
  | some element =>
      have old := Document.has_of_element? known
      have marks : Frame [node] doc (marked doc node element number) :=
        (Frame.refl serving.wellFormed).marked old known number
      have begun := serving.turn marks (Forest.children_setKind _ _ _ _)
      rcases bindElement_cases serving.wellFormed known number carriers with
        ⟨_, run⟩ | ⟨scope, carrier, ensured, found, ensures, run⟩
      · rw [run]
        exact begun
      · have inScope := Document.has_of_takesChildren (takesChildren_of_eventScope found)
        have middle : Serving before top ensured.doc := by
          cases ensures with
          | known => exact begun
          | named found unnamed known =>
              have frame := (Frame.refl begun.wellFormed).name
                ⟨Document.holds_of_findIn found, unnamed⟩ known (Carrier.newId carriers)
              exact begun.turn frame (Forest.children_setKind _ _ _ _)
          | added absent => exact begun.add inScope absent carriers
        have takes : Frame [node] ensured.doc (unclicked ensured.doc node) := by
          have inside : ensured.doc.Has node := (ensures.frame inScope marks).has old
          exact ((Frame.refl middle.wellFormed).mono (List.nil_subset _)).unclicked
            List.mem_cons_self inside
        rw [run]
        refine middle.turn takes ?_
        rw [unclicked, Document.children_removeAttr, Document.children_removeAttr]

/-- What binding adds below a node, whether it ends well or not. -/
theorem serving_bind (wf : before.WellFormed) (top : NodeId) (callable : List String) :
    Serving before top ((Document.bind callable).runFrom before).2 :=
  preserves_bind_of_each (preserves_serving before top) callable before (.start wf)

/-! ## Many bindings -/

/-- What may happen to a document: it is bound, gets markup, or is edited otherwise. -/
inductive Turn
  | bind (callable : List String)
  | markup (parent : NodeId) (html : String)
  | edit (operation : Operation)

/-- The document after a turn; what is refused changes nothing, what fails half way remains. -/
def Turn.perform (doc : Document) : Turn → Document
  | .bind callable => ((Document.bind callable).runFrom doc).2
  | .markup parent html => (Operation.appendHtml parent html).perform .standard doc
  | .edit operation => operation.perform .standard doc

/-- The carriers below a node stay carriers below it. -/
def Spares (top : NodeId) (before after : Document) : Prop :=
  ∀ carrier, before.Within top carrier → carrier ≠ top →
    Carrier.wanted.holds before carrier = true →
      after.Within top carrier ∧ Carrier.wanted.holds after carrier = true

/-- Edits are at own nodes and spare the carriers below a node. Markup may be any. -/
def Turn.Fair (top : NodeId) (doc : Document) : Turn → Prop
  | .bind _ | .markup _ _ => True
  | .edit operation => (∀ id ∈ operation.nodes, doc.Has id) ∧
      Spares top doc (operation.perform .standard doc)

/-- Each turn is fair to the carriers that there are by then. -/
def Fair (top : NodeId) (doc : Document) : List Turn → Prop
  | [] => True
  | turn :: rest => turn.Fair top doc ∧ Fair top (turn.perform doc) rest

/-- The nodes that bindings add directly below a node, one turn after the other. -/
def appended (top : NodeId) (doc : Document) : List Turn → List NodeId
  | [] => []
  | .bind callable :: rest =>
      let next := (Turn.bind callable).perform doc
      addedBelow doc next top ++ appended top next rest
  | turn :: rest => appended top (turn.perform doc) rest

theorem Spares.served (spares : Spares top before after) (served : Served before top) :
    Served after top := by
  obtain ⟨carrier, within, below, holds⟩ := served
  obtain ⟨later, still⟩ := spares carrier within below holds
  exact ⟨carrier, later, below, still⟩

theorem perform_markup_cases (doc : Document) (parent : NodeId) (html : String) :
    (Turn.markup parent html).perform doc = doc ∨
      doc.appendHtml parent html = .ok ((Turn.markup parent html).perform doc) := by
  unfold Turn.perform Operation.perform
  dsimp only
  cases attempt : (Operation.appendHtml parent html).attempt .standard doc with
  | error error => exact Or.inl rfl
  | ok next => exact Or.inr attempt

/-- Markup that is added leaves the carriers that there are. -/
theorem spares_markup (wf : doc.WellFormed) (top parent : NodeId) (html : String) :
    Spares top doc ((Turn.markup parent html).perform doc) := by
  intro carrier within below holds
  rcases perform_markup_cases doc parent html with same | done
  · rw [same]
    exact ⟨within, holds⟩
  · obtain ⟨inside, context, grafted⟩ := Document.exists_of_appendHtml done
    obtain ⟨element, known, accepted⟩ := Document.exists_element_of_holds holds
    have old := Document.has_of_element? known
    have kept := Document.kind?_graftAll parent (Document.element?_eq_some_iff.mp known)
      (Markup.parseFragment context html)
    rw [grafted]
    refine ⟨?_, ?_⟩
    · exact ((Document.grown_graftAll parent wf inside _).2.within_iff wf old).mpr within
    · rw [Match.holds, Document.element?_eq_some_iff.mpr kept, Option.map_some, Option.getD_some]
      exact accepted

theorem Turn.rooted {turn : Turn} (rooted : doc.Rooted) (fair : turn.Fair top doc) :
    (turn.perform doc).Rooted := by
  cases turn with
  | bind callable =>
      have stable : Document.Stable (Operation.Discreet []) Document.Rooted :=
        fun doc operation rooted _ own => rooted.perform .standard operation own
      exact Document.preserves_bind stable (fun _ _ => List.not_mem_nil) callable doc rooted
  | markup parent html =>
      rcases perform_markup_cases doc parent html with same | done
      · rwa [same]
      · exact rooted.appendRead ((Document.appendRead_standard _ _ _).trans done)
  | edit operation => exact rooted.perform .standard operation fair.1

theorem Turn.served {turn : Turn} (wf : doc.WellFormed) (fair : turn.Fair top doc)
    (served : Served doc top) : Served (turn.perform doc) top := by
  cases turn with
  | bind callable => exact (serving_bind wf top callable).served served
  | markup parent html => exact (spares_markup wf top parent html).served served
  | edit operation => exact fair.2.served served

/-- Bindings add nothing to a node with a carrier below it, and one node at most to any other. -/
theorem length_appended {turns : List Turn} (rooted : doc.Rooted) (fair : Fair top doc turns) :
    (appended top doc turns).length ≤ 1 ∧ (Served doc top → appended top doc turns = []) := by
  induction turns generalizing doc with
  | nil => exact ⟨Nat.zero_le 1, fun _ => rfl⟩
  | cons turn rest ih =>
      obtain ⟨now, later⟩ := fair
      obtain ⟨short, none⟩ := ih (Turn.rooted rooted now) later
      have keeps := Turn.served rooted.wellFormed now
      cases turn with
      | bind callable =>
          have serving := serving_bind rooted.wellFormed top callable
          rw [appended]
          constructor
          · by_cases some : addedBelow doc ((Turn.bind callable).perform doc) top = []
            · rw [some, List.nil_append]
              exact short
            · rw [none (serving.needed some).1, List.append_nil]
              exact serving.single
          · intro served
            rw [none (keeps served), List.append_nil]
            by_contra some
            exact (serving.needed some).2 served
      | markup parent html => exact ⟨short, fun served => none (keeps served)⟩
      | edit operation => exact ⟨short, fun served => none (keeps served)⟩

/-- Binding adds carriers at the end of scopes, marks what it binds and takes its click expressions,
names carriers, and does no more; once it ended well there is nothing left for the next. However
often a document is bound and added to, no node gets more than one carrier, as long as those below
it are spared. -/
theorem effects_and_length_appended (reached : doc.Reachable) :
    (∀ callable code after, DistinctNames doc →
      (Document.bind callable).runFrom doc = (.ok code, after) → Effects doc after) ∧
    ∀ top turns, Fair top doc turns → (appended top doc turns).length ≤ 1 :=
  ⟨fun _ _ _ distinct done => effects_of_bind reached distinct done,
    fun _ _ fair => (length_appended reached.rooted fair).1⟩

/-- A form with a carrier that has no `id`, and a panel within it. -/
def servedForm : Document := .parse <|
  "<form runat=server><input type=hidden name=__eventElement>" ++
    "<a runat=server onclick='server.x()'></a>" ++
    "<p id=inner updatepanel=true><b runat=server onclick='server.y()'></b></p></form>"

/-- Bindings with another element for the panel in between. -/
def servedTurns : List Turn :=
  [.bind [], .markup ⟨7⟩ "<i runat=server onclick='server.z()'></i>", .bind []]

/-- The carrier gets an `id`, the panel one carrier of its own. -/
theorem effects_servedForm : ∃ code after,
    (Document.bind []).runFrom servedForm = (.ok code, after) ∧ DistinctNames servedForm ∧
      Effects servedForm after ∧ Unnamed servedForm ⟨5⟩ ∧
      after.attr? ⟨5⟩ "id" = some "__eventElement0" ∧
      Fair ⟨7⟩ servedForm servedTurns ∧ appended ⟨7⟩ servedForm servedTurns = [⟨9⟩] ∧
      (appended ⟨7⟩ servedForm servedTurns).length ≤ 1 := by
  have distinct : DistinctNames servedForm := by decide +kernel
  have fair : Fair ⟨7⟩ servedForm servedTurns := ⟨trivial, trivial, trivial, trivial⟩
  have reads : ((Document.bind []).runFrom servedForm).1.toOption.map (fun _ => ()) = some () ∧
      Unnamed servedForm ⟨5⟩ ∧
      ((Document.bind []).runFrom servedForm).2.attr? ⟨5⟩ "id" = some "__eventElement0" ∧
      appended ⟨7⟩ servedForm servedTurns = [⟨9⟩] := by decide +kernel
  obtain ⟨ended, unnamed, named, added⟩ := reads
  obtain ⟨code, run, _⟩ := exists_code_of_reads ended
  obtain ⟨effects, single⟩ := effects_and_length_appended (.parse _ : servedForm.Reachable)
  exact ⟨code, _, run, distinct, effects [] code _ distinct run, unnamed, named, fair, added,
    single ⟨7⟩ servedTurns fair⟩

end ServerPages.Binding
