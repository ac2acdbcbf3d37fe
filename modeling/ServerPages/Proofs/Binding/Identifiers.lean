import ServerPages.Proofs.Binding.Effects
import ServerPages.Proofs.Document.Template

/-!
# Identifiers of one document

Every binding hands out `id`s to carriers and marks to elements, by numbers that start again at
zero. What one binding hands out is distinct, but it may be in use already: by the markup, or from
a binding before. So identifiers stay distinct exactly where none of those that are handed out is
in use, which is so for the marks of the first binding; and where they are distinct, each one leads
to the element that it was made for.
-/

namespace ServerPages.Binding

open Document (root)

variable {before doc after : Document} {behind done : List NodeId} {node top : NodeId}
  {element : Element} {state ensured : BindingState} {scope : EventScope} {carrier : String}
  {bound : List BoundElement} {callable : List String} {code : ClientCode}
  {touched : List NodeId}

/-! ## Values of an attribute -/

def DistinctValues (doc : Document) (name : String) : Prop :=
  ∀ first second value, doc.attr? first name = some value → doc.attr? second name = some value →
    first = second

instance (doc : Document) (name : String) : Decidable (DistinctValues doc name) :=
  decidable_of_iff (∀ first second : Fin (Forest.size doc), (doc.attr? ⟨first⟩ name).isSome →
      doc.attr? ⟨first⟩ name = doc.attr? ⟨second⟩ name → first = second) <| by
    constructor
    · intro all first second value ofFirst ofSecond
      have same := all ⟨first.index, Document.has_of_attr? ofFirst⟩
        ⟨second.index, Document.has_of_attr? ofSecond⟩ (by rw [ofFirst]; rfl)
        (ofFirst.trans ofSecond.symm)
      cases first
      cases second
      exact congrArg (fun place => NodeId.mk place.val) same
    · intro distinct first second named same
      obtain ⟨value, ofFirst⟩ := Option.isSome_iff_exists.mp named
      have same := distinct ⟨first⟩ ⟨second⟩ value ofFirst (same ▸ ofFirst)
      exact Fin.ext (NodeId.mk.inj same)

/-- A search for a value that one element alone has comes to the element. -/
theorem DistinctValues.find_eq {name value : String} (distinct : DistinctValues doc name)
    (wf : doc.WellFormed) (within : doc.Within root node) (below : node ≠ root)
    (known : doc.attr? node name = some value) :
    doc.find (Match.any.eq name value) = some node := by
  refine find_eq_of_unique ?_ fun other among => ?_
  · exact (Document.mem_findAllIn wf).mpr ⟨⟨within, below⟩, Document.holds_any_eq_iff.mpr known⟩
  · have read := Document.holds_any_eq_iff.mp (List.mem_filter.mp among).2
    exact distinct other node value read known

/-- Nodes without an attribute get the values of their numbers; others keep what they have. -/
structure HandsOut (name : String) (value : Nat → String) (holders : List NodeId)
    (before after : Document) : Prop where
  given {number : Nat} {node : NodeId} (reached : holders[number]? = some node) :
    before.attr? node name = none ∧ after.attr? node name = some (value number)
  kept {node : NodeId} (other : node ∉ holders) : after.attr? node name = before.attr? node name

namespace HandsOut

variable {name : String} {value : Nat → String} {holders : List NodeId}

theorem attr?_of_mem (hands : HandsOut name value holders before after)
    (member : node ∈ holders) :
    before.attr? node name = none ∧
      ∃ number < holders.length, after.attr? node name = some (value number) := by
  obtain ⟨number, reached⟩ := List.mem_iff_getElem?.mp member
  obtain ⟨none, known⟩ := hands.given reached
  exact ⟨none, number, (List.getElem?_eq_some_iff.mp reached).1, known⟩

/-- What is handed out collides with nothing but what is in use already. -/
theorem distinct_iff (hands : HandsOut name value holders before after)
    (injective : ∀ first second, value first = value second → first = second) :
    DistinctValues after name ↔ DistinctValues before name ∧
      ∀ number < holders.length, ∀ node, before.attr? node name ≠ some (value number) := by
  have stays {node : NodeId} {used : String} (known : before.attr? node name = some used) :
      after.attr? node name = some used := by
    rw [hands.kept fun member => nomatch (hands.attr?_of_mem member).1.symm.trans known]
    exact known
  constructor
  · intro distinct
    refine ⟨fun first second used ofFirst ofSecond =>
      distinct first second used (stays ofFirst) (stays ofSecond),
      fun number bounded node used => ?_⟩
    obtain ⟨none, known⟩ := hands.given (List.getElem?_eq_getElem bounded)
    rw [distinct _ node _ known (stays used)] at none
    cases none.symm.trans used
  · rintro ⟨distinct, unused⟩ first second used ofFirst ofSecond
    by_cases left : first ∈ holders
    · obtain ⟨place, atFirst⟩ := List.mem_iff_getElem?.mp left
      cases (hands.given atFirst).2.symm.trans ofFirst
      by_cases right : second ∈ holders
      · obtain ⟨other, atSecond⟩ := List.mem_iff_getElem?.mp right
        have same := (hands.given atSecond).2.symm.trans ofSecond
        rw [injective other place (Option.some.inj same)] at atSecond
        exact Option.some.inj (atFirst.symm.trans atSecond)
      · rw [hands.kept right] at ofSecond
        exact absurd ofSecond (unused place (List.getElem?_eq_some_iff.mp atFirst).1 second)
    · rw [hands.kept left] at ofFirst
      by_cases right : second ∈ holders
      · obtain ⟨place, atSecond⟩ := List.mem_iff_getElem?.mp right
        cases (hands.given atSecond).2.symm.trans ofSecond
        exact absurd ofFirst (unused place (List.getElem?_eq_some_iff.mp atSecond).1 first)
      · rw [hands.kept right] at ofSecond
        exact distinct first second used ofFirst ofSecond

end HandsOut

/-! ## Searches of one round -/

/-- Where nothing is added, the search of a scope finds what it found. -/
theorem Frame.findIn_eq (wf : before.WellFormed) (frame : Frame touched before after)
    (size : Forest.size after = Forest.size before) (inside : before.Has top) :
    after.findIn top Carrier.wanted = before.findIn top Carrier.wanted := by
  have walk : after.descendants top = before.descendants top := by
    rw [← frame.grown.descendants_filter wf frame.wellFormed inside, eq_comm, List.filter_eq_self]
    intro node member
    have later := frame.wellFormed.has_of_mem_descendants member
    rw [Forest.Has, size] at later
    exact decide_eq_true later
  rw [Document.findIn_eq_find?, Document.findIn_eq_find?, walk]
  exact List.find?_congr fun node member =>
    frame.holds_wanted (wf.has_of_mem_descendants member)

/-- A search that found nothing finds the carrier that is added. -/
theorem findIn_withCarrier (wf : doc.WellFormed) (inside : doc.Has top)
    (absent : doc.findIn top Carrier.wanted = none) (number : Nat) :
    Document.findIn (withCarrier doc top number) top Carrier.wanted =
      some ⟨Forest.size doc⟩ := by
  have frame := (Frame.refl wf).add inside number
  have up := parent?_withCarrier doc top number
  rw [Document.findIn_eq_find?] at absent ⊢
  cases found : (Forest.descendants (withCarrier doc top number) top).find?
      (Carrier.wanted.holds (withCarrier doc top number)) with
  | none =>
      have member : (⟨Forest.size doc⟩ : NodeId) ∈
          Forest.descendants (withCarrier doc top number) top := by
        refine frame.wellFormed.mem_descendants.mpr ⟨.step up .refl, ?_⟩
        rintro same
        exact Document.not_has_size doc (same ▸ inside)
      exact absurd (isCarrier_withCarrier doc top number).holds_wanted
        (List.find?_eq_none.mp found _ member)
  | some other =>
      have holds := List.find?_some found
      have member := List.mem_of_find?_eq_some found
      rcases has_withCarrier (Document.has_of_holds holds) with old | rfl
      · rw [frame.holds_wanted old] at holds
        refine absurd holds (List.find?_eq_none.mp absent other ?_)
        exact (frame.grown.mem_descendants_iff wf frame.wellFormed old).mp member
      · rfl

/-- The carrier that a round came to is what the search of the scope finds then. -/
theorem Ensures.exists_own {next : BindingState} {id : String}
    (ensures : Ensures top state id next) (wf : state.doc.WellFormed)
    (inside : state.doc.Has top) :
    ∃ own, next.doc.findIn top Carrier.wanted = some own ∧
      next.doc.attr? own "id" = some id := by
  cases ensures with
  | @known own _ found named => exact ⟨own, found, named⟩
  | @named own element found unnamed known =>
      have names := (Frame.refl wf).name ⟨Document.holds_of_findIn found, unnamed⟩ known
        (Carrier.newId state.carriers)
      refine ⟨own, ?_, ?_⟩
      · exact (names.findIn_eq wf (Forest.size_setKind _ _ _) inside).trans found
      · rw [Document.attr?_setKind_setAttr known, if_pos ⟨rfl, rfl⟩]
  | added absent =>
      exact ⟨_, findIn_withCarrier wf inside absent _,
        (isCarrier_withCarrier state.doc top state.carriers).attr_id⟩

namespace Round

variable (round : Round before behind node state element scope carrier ensured)

include round

theorem has_scope_ensured : ensured.doc.Has scope.node :=
  (round.ensures.frame round.has_scope (.refl round.frame_marked.wellFormed)).has round.has_scope

theorem exists_own : ∃ own,
    (unclicked ensured.doc node).findIn scope.node Carrier.wanted = some own ∧
      (unclicked ensured.doc node).attr? own "id" = some carrier := by
  obtain ⟨own, found, named⟩ :=
    round.ensures.exists_own round.frame_marked.wellFormed round.has_scope
  refine ⟨own, ?_, ?_⟩
  · rw [round.takes.findIn_eq round.frame_ensured.wellFormed (by simp [unclicked])
      round.has_scope_ensured]
    exact found
  · rw [attr?_unclicked _ _ _ (by decide) (by decide)]
    exact named

/-- The scope of an element of the document is in the document. -/
theorem within_root (template : Document.Template before) :
    (unclicked ensured.doc node).Within root scope.node := by
  have wf := template.wellFormed
  have marks := round.frame_marked
  have hasRoot : before.Has root := Forest.has_of_kind? template.top
  have inner : (marked state.doc node element behind.length).Within root node :=
    (marks.grown.within_iff wf round.old).mpr ((Document.mem_findAllIn wf).mp round.mem).1.1
  obtain ⟨above, aboveRoot, aboveScope⟩ := inTree_of_eventScope marks.wellFormed
    (marks.has round.old) (Document.inTree_of_within_root inner) round.found
  have alone : Forest.parent? (marked state.doc node element behind.length) root = none :=
    (marks.grown.parents root hasRoot).trans template.alone
  rw [← aboveRoot.eq_of_parent?_none alone] at aboveScope
  have ensures := round.ensures.frame round.has_scope (.refl marks.wellFormed)
  have middle := (ensures.grown.within_iff marks.wellFormed round.has_scope).mpr aboveScope
  exact (round.takes.grown.within_iff ensures.wellFormed round.has_scope_ensured).mpr middle

end Round

/-! ## Rounds -/

structure Named (before : Document) (holders : List NodeId) (state : BindingState) : Prop where
  length : holders.length = state.carriers
  hands : HandsOut "id" Carrier.newId holders before state.doc
  wanted {holder : NodeId} (member : holder ∈ holders) :
    Carrier.wanted.holds state.doc holder = true

theorem Named.start (before : Document) : Named before [] ⟨before, 0⟩ where
  length := rfl
  hands := ⟨(nomatch ·), fun _ => rfl⟩
  wanted member := nomatch member

theorem Named.next {holders : List NodeId}
    (round : Round before done node state element scope carrier ensured)
    (named : Named before holders state) :
    ∃ more, Named before more ⟨unclicked ensured.doc node, ensured.carriers⟩ := by
  have stays {holder : NodeId} (holds : Carrier.wanted.holds state.doc holder = true) :
      Carrier.wanted.holds (unclicked ensured.doc node) holder = true :=
    (round.turn.holds_wanted (Document.has_of_holds holds)).trans holds
  rcases round.id_cases with ⟨same, kept⟩ | ⟨next, holder, none, holds, given⟩
  · refine ⟨holders, named.length.trans same.symm, ⟨fun reached => ?_, fun other => ?_⟩,
      fun member => stays (named.wanted member)⟩
    · dsimp only
      rw [kept]
      exact named.hands.given reached
    · exact (kept _).trans (named.hands.kept other)
  · have new : holder ∉ holders := by
      intro member
      obtain ⟨_, number, _, known⟩ := named.hands.attr?_of_mem member
      cases none.symm.trans known
    refine ⟨holders ++ [holder], ?_, ⟨fun {number other} reached => ?_, fun {other} apart => ?_⟩,
      fun {other} member => ?_⟩
    · rw [List.length_append, named.length]
      exact next.symm
    · dsimp only
      rw [given]
      rcases getElem?_concat_cases reached with earlier | ⟨rfl, rfl⟩
      · have different : other ≠ holder := by
          rintro rfl
          exact new (List.mem_of_getElem? earlier)
        rw [if_neg different]
        exact named.hands.given earlier
      · rw [if_pos rfl, named.length]
        exact ⟨(named.hands.kept new).symm.trans none, rfl⟩
    · obtain ⟨earlier, different⟩ : other ∉ holders ∧ other ≠ holder := by simpa using apart
      dsimp only
      rw [given, if_neg different]
      exact named.hands.kept earlier
    · rcases List.mem_append.mp member with earlier | last
      · exact stays (named.wanted earlier)
      · exact List.mem_singleton.mp last ▸ holds

structure Carried (before : Document) (done : List NodeId) (state : BindingState)
    (bound : List BoundElement) : Prop where
  own {number : Nat} {node : NodeId} (reached : done[number]? = some node) :
    ∃ scope own id, (partlyBound before number).eventScope node = some scope ∧
      (partlyBound before (number + 1)).findIn scope.node Carrier.wanted = some own ∧
      state.doc.Within root own ∧ state.doc.attr? own "id" = some id ∧
      ∀ element, bound[number]? = some element → ∀ event ∈ element.events, event.carrier = id

theorem Carried.start (before : Document) : Carried before [] ⟨before, 0⟩ [] where
  own reached := nomatch reached

theorem Carried.next (template : Document.Template before)
    (round : Round before done node state element scope carrier ensured)
    (run : (bindEach done).runFrom ⟨before, 0⟩ = (.ok bound, state))
    (length : bound.length = done.length) (carried : Carried before done state bound) :
    Carried before (done ++ [node]) ⟨unclicked ensured.doc node, ensured.carriers⟩
      (bound ++ [outcome ensured.doc node done.length scope carrier]) where
  own := by
    intro number other reached
    rcases getElem?_concat_cases reached with earlier | ⟨rfl, rfl⟩
    · obtain ⟨scope', own, id, resolved, found, within, known, writes⟩ := carried.own earlier
      have bounded := (List.getElem?_eq_some_iff.mp earlier).1
      refine ⟨scope', own, id, resolved, found, ?_, ?_, fun element here => ?_⟩
      · exact (round.turn.grown.within_iff round.frame.wellFormed
          (Document.has_of_attr? known)).mpr within
      · rcases round.id_cases with ⟨_, kept⟩ | ⟨_, holder, none, _, given⟩
        · exact (kept own).trans known
        · refine (given own).trans ?_
          rw [if_neg]
          · exact known
          · rintro rfl
            cases none.symm.trans known
      · rw [List.getElem?_append_left (length ▸ bounded)] at here
        exact writes element here
    · obtain ⟨own, found, named⟩ := round.exists_own
      refine ⟨scope, own, carrier, round.eventScope_partlyBound run, ?_, ?_, named, ?_⟩
      · rw [round.partlyBound_succ_eq run]
        exact found
      · exact (round.within_root template).trans
          (Document.within_of_findIn round.frame_next.wellFormed found).1
      · intro element here
        rw [← length, List.getElem?_concat_length] at here
        cases here
        exact fun _ => carrier_of_mem_outcome

/-! ## Documents that are bound again -/

/-- Documents that come from markup without marks, are bound, and get markup without marks. -/
inductive Rebound : Document → Prop
  | parse (html : String) (unmarked : Unmarked (.parse html)) : Rebound (.parse html)
  | bind {doc after : Document} (earlier : Rebound doc) {callable : List String}
      {code : ClientCode} (done : (Document.bind callable).runFrom doc = (.ok code, after)) :
      Rebound after
  | append {doc next : Document} (earlier : Rebound doc) {parent : NodeId} {html : String}
      (done : doc.appendHtml parent html = .ok next)
      (unmarked : ∀ node, ¬ doc.Has node → next.attr? node markName = none) : Rebound next

/-- What such documents keep: elements that have a mark are not bound again. -/
structure Sustained (doc : Document) : Prop where
  template : Document.Template doc
  once : doc.All fun _ => NodeKind.Once
  retired {node : NodeId} {value : String} (marked : doc.attr? node markName = some value) :
    doc.attr? node "onclick" = none

theorem Sustained.bind (sustained : Sustained before)
    (done : (Document.bind callable).runFrom before = (.ok code, after)) : Sustained after := by
  obtain ⟨template, once, retired⟩ := sustained
  obtain ⟨bound, state, rfl, rfl, frame, progress, changed⟩ :=
    exists_changed_of_bind template.wellFormed once done
  have hasRoot : before.Has root := Forest.has_of_kind? template.top
  refine ⟨⟨frame.wellFormed, ?_, ?_⟩, changed.once, fun {node value} marked => ?_⟩
  · have leaf : before.element? root = none := by
      rw [Document.element?, template.top]
    exact (changed.altered.other hasRoot leaf).trans template.top
  · exact (frame.grown.parents root hasRoot).trans template.alone
  · by_cases member : node ∈ before.findAll interactive
    · exact changed.cleared member (by decide)
    · have kept (name : String) (apart : name ≠ "id") (old : before.Has node) :
          state.doc.attr? node name = before.attr? node name :=
        frame.attr node name old (fun bound => absurd bound member) fun same => absurd same apart
      by_cases old : before.Has node
      · rw [kept markName (by decide) old] at marked
        rw [kept "onclick" (by decide) old]
        exact retired marked
      · obtain ⟨number, carrier⟩ := frame.added node (Document.has_of_attr? marked) old
        exact carrier.attr_none (by decide)

theorem Sustained.append (sustained : Sustained before) {parent : NodeId} {html : String}
    (done : before.appendHtml parent html = .ok after)
    (unmarked : ∀ node, ¬ before.Has node → after.attr? node markName = none) :
    Sustained after := by
  obtain ⟨template, once, retired⟩ := sustained
  have wf := Document.wellFormed_appendHtml template.wellFormed done
  obtain ⟨inside, context, rfl⟩ := Document.exists_of_appendHtml done
  have grown := (Document.grown_graftAll parent template.wellFormed inside
    (Markup.parseFragment context html)).2
  refine ⟨⟨wf, Document.kind?_graftAll parent template.top _, ?_⟩, ?_,
    fun {node value} marked => ?_⟩
  · exact (grown.parents root (Forest.has_of_kind? template.top)).trans template.alone
  · exact Document.once_graftAll once parent _ (Markup.allTidy_parseFragment context html)
  · by_cases old : before.Has node
    · obtain ⟨found, known⟩ := (Forest.has_iff before node).mp old
      have kind : before.kind? node = some found.kind := by
        rw [Forest.kind?, known, Option.map_some]
      have same := (Document.kind?_graftAll parent kind (Markup.parseFragment context html)).trans
        kind.symm
      rw [Document.attr?_congr same] at marked
      rw [Document.attr?_congr same]
      exact retired marked
    · cases (unmarked node old).symm.trans marked

theorem Rebound.sustained (rebound : Rebound doc) : Sustained doc := by
  induction rebound with
  | parse html unmarked =>
      refine ⟨Document.template_parse html, (Document.Origin.markup html).tidy.once, ?_⟩
      intro node value marked
      cases (unmarked node).symm.trans marked
  | bind _ done ih => exact ih.bind done
  | append _ done unmarked ih => exact ih.append done unmarked

/-! ## Identifiers after a binding -/

/-- What identifiers a binding hands out, and what they lead to. -/
structure Identified (before after : Document) (code : ClientCode) : Prop where
  ids : ∃ holders, HandsOut "id" Carrier.newId holders before after ∧
    (∀ holder ∈ holders, Carrier.wanted.holds after holder = true) ∧
    (DistinctValues after "id" ↔ DistinctValues before "id" ∧
      ∀ number < holders.length, ∀ node,
        before.attr? node "id" ≠ some (Carrier.newId number))
  marks : HandsOut markName mark (before.findAll interactive) before after
  distinctMarks : DistinctValues after markName ↔ DistinctValues before markName ∧
    ∀ number < (before.findAll interactive).length, ∀ node,
      before.attr? node markName ≠ some (mark number)
  first (unmarked : Unmarked before) : DistinctValues after markName
  /-- The `id` that a call writes leads to the carrier that its scope had when its element was
  bound. -/
  carriers {event : ClientEvent} (member : event ∈ code.events) : ∃ number node scope own,
    (before.findAll interactive)[number]? = some node ∧ event.mark = mark number ∧
    (partlyBound before number).eventScope node = some scope ∧
    (partlyBound before (number + 1)).findIn scope.node Carrier.wanted = some own ∧
    after.attr? own "id" = some event.carrier ∧
    (DistinctValues after "id" → after.elementById event.carrier = some own)
  /-- The mark of a listener leads to its element. -/
  elements {listener : Listener} (member : listener ∈ code.listeners) : ∃ number node,
    (before.findAll interactive)[number]? = some node ∧ listener.mark = mark number ∧
    (DistinctValues after markName →
      after.find (Match.any.eq markName listener.mark) = some node)

/-- The numbers of elements count what came of them. -/
theorem Progress.exists_reached (progress : Progress before done state bound)
    {value : BoundElement} (member : value ∈ bound) : ∃ number node, done[number]? = some node ∧
      ∃ scope carrier, ∃ read : Document, bound[number]? = some value ∧
        value = outcome read node number scope carrier := by
  obtain ⟨number, known⟩ := List.mem_iff_getElem?.mp member
  have bounded : number < done.length := progress.length ▸ (List.getElem?_eq_some_iff.mp known).1
  obtain ⟨scope, carrier, read, _, _, served⟩ :=
    progress.served (List.getElem?_eq_getElem bounded)
  exact ⟨number, _, List.getElem?_eq_getElem bounded, scope, carrier, read, known,
    Option.some.inj (known.symm.trans served)⟩

theorem handsOut_marks (sustained : Sustained before)
    (frame : Frame (before.findAll interactive) before state.doc)
    (progress : Progress before (before.findAll interactive) state bound) :
    HandsOut markName mark (before.findAll interactive) before state.doc where
  given {number node} reached := by
    have holds := (List.mem_filter.mp (List.mem_of_getElem? reached)).2
    obtain ⟨expression, read⟩ := exists_onclick_of_holds holds
    refine ⟨Option.eq_none_iff_forall_ne_some.mpr fun value marked => ?_, progress.marked reached⟩
    cases (sustained.retired marked).symm.trans read
  kept {node} other := by
    by_cases old : before.Has node
    · exact frame.attr node markName old (fun bound => absurd bound other)
        fun same => absurd same (by decide)
    · rw [Document.attr?_eq_none old]
      by_cases inside : state.doc.Has node
      · obtain ⟨number, carrier⟩ := frame.added node inside old
        exact carrier.attr_none (by decide)
      · exact Document.attr?_eq_none inside _

/-- However often a document was bound before, each binding hands out its `id`s and marks to
nodes that have none, each once. They collide exactly with those that are in use already; where
they do not, each identifier in the script leads to the node that it was generated for. -/
theorem identified_of_bind (rebound : Rebound before)
    (done : (Document.bind callable).runFrom before = (.ok code, after)) :
    Identified before after code := by
  have sustained := rebound.sustained
  have later := (sustained.bind done).template
  have wf := sustained.template.wellFormed
  obtain ⟨bound, state, rfl, rfl, frame, progress, _, ⟨holders, named⟩, carried⟩ :=
    exists_of_bind wf
      (fun done state bound => Progress before done state bound ∧ Tabled before done state bound ∧
        (∃ holders, Named before holders state) ∧ Carried before done state bound)
      ⟨.start before, .start before, ⟨[], .start before⟩, .start before⟩
      (fun _ _ _ _ _ _ _ _ round kept => ⟨kept.1.next wf round, kept.2.1.next wf round,
        kept.2.2.1.elim fun _ named => named.next round,
        kept.2.2.2.next sustained.template round kept.2.1.run kept.1.length⟩) done
  have marks := handsOut_marks sustained frame progress
  have distinctMarks := marks.distinct_iff fun _ _ => mark_inj
  refine ⟨⟨holders, named.hands, fun _ => named.wanted,
    named.hands.distinct_iff fun _ _ => newId_inj⟩, marks, distinctMarks, fun unmarked => ?_,
    fun {event} member => ?_, fun {listener} member => ?_⟩
  · refine distinctMarks.mpr ⟨fun first _ _ known => ?_, fun number _ node known => ?_⟩
    · cases (unmarked first).symm.trans known
    · cases (unmarked node).symm.trans known
  · obtain ⟨value, inBound, inValue⟩ := List.mem_flatMap.mp member
    obtain ⟨number, node, reached, _, _, _, known, rfl⟩ := progress.exists_reached inBound
    obtain ⟨scope, own, id, resolved, found, within, read, writes⟩ := carried.own reached
    cases writes _ known event inValue
    refine ⟨number, node, scope, own, reached, mark_of_mem_outcome inValue, resolved, found, read,
      fun distinct => distinct.find_eq later.wellFormed within ?_ read⟩
    rintro rfl
    cases (later.attr?_root "id").symm.trans read
  · obtain ⟨value, inBound, rfl⟩ := List.mem_map.mp member
    obtain ⟨number, node, reached, scope, carrier, read, _, rfl⟩ := progress.exists_reached inBound
    have below := ((Document.mem_findAllIn wf).mp (List.mem_of_getElem? reached)).1
    refine ⟨number, node, reached, rfl, fun distinct => ?_⟩
    exact distinct.find_eq later.wellFormed
      ((frame.grown.within_iff wf (has_of_interactive (List.mem_of_getElem? reached))).mpr below.1)
      below.2 (progress.marked reached)

def growingForm : Document := .parse <|
  "<form runat=server><b runat=server onclick='server.x()'></b></form>"

def grownForm : Document :=
  let bound := ((Document.bind []).runFrom growingForm).2
  ((bound.appendHtml ⟨4⟩ "<a runat=server onclick='server.y()'></a>").toOption).getD bound

theorem rebound_grownForm : Rebound grownForm := by
  have unmarked : Unmarked growingForm := by decide +kernel
  have ended : ((Document.bind []).runFrom growingForm).1.toOption.map (fun _ => ()) = some () := by
    decide +kernel
  have appended : (((Document.bind []).runFrom growingForm).2.appendHtml ⟨4⟩
      "<a runat=server onclick='server.y()'></a>").isOk = true := by decide +kernel
  have new : ∀ place : Fin (Forest.size grownForm),
      ¬ ((Document.bind []).runFrom growingForm).2.Has ⟨place⟩ →
        grownForm.attr? ⟨place⟩ markName = none := by decide +kernel
  obtain ⟨code, run, _⟩ := exists_code_of_reads ended
  have done : ((Document.bind []).runFrom growingForm).2.appendHtml ⟨4⟩
      "<a runat=server onclick='server.y()'></a>" = .ok grownForm := by
    rw [grownForm]
    cases attempt : ((Document.bind []).runFrom growingForm).2.appendHtml ⟨4⟩
        "<a runat=server onclick='server.y()'></a>" with
    | error error =>
        rw [attempt] at appended
        cases appended
    | ok next => rw [Except.toOption, Option.getD_some]
  refine .append (.bind (.parse _ unmarked) run) done fun node apart => ?_
  by_cases inside : grownForm.Has node
  · exact new ⟨node.index, inside⟩ apart
  · exact Document.attr?_eq_none inside _

/-- The carrier of the form keeps its `id`; the new element gets a mark that is in use. -/
theorem identified_grownForm : ∃ code after,
    (Document.bind []).runFrom grownForm = (.ok code, after) ∧ Rebound grownForm ∧
      Identified grownForm after code ∧ DistinctValues after "id" ∧
      code.events.map (·.carrier) = ["__eventElement0"] ∧
      after.attr? ⟨7⟩ markName = some "__element_xid0" := by
  have reads : ((Document.bind []).runFrom grownForm).1.toOption.map
      (fun code => code.events.map (·.carrier)) = some ["__eventElement0"] ∧
      DistinctValues ((Document.bind []).runFrom grownForm).2 "id" ∧
      ((Document.bind []).runFrom grownForm).2.attr? ⟨7⟩ markName = some "__element_xid0" := by
    decide +kernel
  obtain ⟨ended, distinct, marked⟩ := reads
  obtain ⟨code, run, carriers⟩ := exists_code_of_reads ended
  exact ⟨code, _, run, rebound_grownForm, identified_of_bind rebound_grownForm run, distinct,
    carriers, marked⟩

/-- A form beside an element with the `id` of a carrier. -/
def takenForm : Document := .parse <|
  "<p id=__eventElement0></p>" ++
    "<form runat=server><b runat=server onclick='server.x()'></b></form>"

/-- The first binding may hand out an `id` that the markup uses, and the second one a mark that the
first has handed out. What the script looks up by them is another element then. -/
theorem identifiers_collide :
    (Unmarked takenForm ∧ DistinctValues takenForm "id" ∧ ∃ code after,
      (Document.bind []).runFrom takenForm = (.ok code, after) ∧ ¬ DistinctValues after "id" ∧
      code.events.map (·.carrier) = ["__eventElement0"] ∧
      after.elementById "__eventElement0" = some ⟨4⟩ ∧ after.tagName? ⟨4⟩ = some "p") ∧
    Rebound grownForm ∧ DistinctValues grownForm "id" ∧ DistinctValues grownForm markName ∧
      grownForm.findAll interactive = [⟨7⟩] ∧ ∃ code after,
        (Document.bind []).runFrom grownForm = (.ok code, after) ∧
        ¬ DistinctValues after markName ∧ code.listeners.map (·.mark) = ["__element_xid0"] ∧
        after.find (Match.any.eq markName "__element_xid0") = some ⟨5⟩ := by
  have taken : Unmarked takenForm ∧ DistinctValues takenForm "id" ∧
      ((Document.bind []).runFrom takenForm).1.toOption.map
        (fun code => code.events.map (·.carrier)) = some ["__eventElement0"] ∧
      ¬ DistinctValues ((Document.bind []).runFrom takenForm).2 "id" ∧
      ((Document.bind []).runFrom takenForm).2.elementById "__eventElement0" = some ⟨4⟩ ∧
      ((Document.bind []).runFrom takenForm).2.tagName? ⟨4⟩ = some "p" := by decide +kernel
  have again : DistinctValues grownForm "id" ∧ DistinctValues grownForm markName ∧
      grownForm.findAll interactive = [⟨7⟩] ∧
      ((Document.bind []).runFrom grownForm).1.toOption.map
        (fun code => code.listeners.map (·.mark)) = some ["__element_xid0"] ∧
      ¬ DistinctValues ((Document.bind []).runFrom grownForm).2 markName ∧
      ((Document.bind []).runFrom grownForm).2.find (Match.any.eq markName "__element_xid0") =
        some ⟨5⟩ := by decide +kernel
  obtain ⟨unmarked, distinct, endedFirst, repeated, found, tag⟩ := taken
  obtain ⟨distinctIds, distinctMarks, bound, endedSecond, repeatedMark, other⟩ := again
  obtain ⟨code, run, carriers⟩ := exists_code_of_reads endedFirst
  obtain ⟨later, rerun, marks⟩ := exists_code_of_reads endedSecond
  exact ⟨⟨unmarked, distinct, code, _, run, repeated, carriers, found, tag⟩, rebound_grownForm,
    distinctIds, distinctMarks, bound, later, _, rerun, repeatedMark, marks, other⟩

end ServerPages.Binding
