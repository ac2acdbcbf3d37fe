import ServerPages.Proofs.Binding.Progress

/-!
# Carriers that binding adds

In a document without carriers of its own, all carriers are added by binding. Each is the
last child of a scope, and no scope gets two. The carrier that an element writes stands
within its scope but need not be the one of the scope itself: where an element of a panel
inside a form was bound earlier, the form's search finds the panel's.
-/

namespace ServerPages.Binding

variable {before doc : Document} {done touched : List NodeId} {state : BindingState}
  {bound : List BoundElement} {count number : Nat} {node top : NodeId} {scope : EventScope}
  {id : String}

def Fresh (doc : Document) : Prop :=
  ∀ node, doc.InTree node → Carrier.wanted.holds doc node = false

theorem fresh_of_forall
    (all : ∀ place : Fin (Forest.size doc), Carrier.wanted.holds doc ⟨place⟩ = false) :
    Fresh doc := by
  intro node _
  refine Bool.eq_false_iff.mpr fun holds => ?_
  exact Bool.false_ne_true ((all ⟨node.index, Document.has_of_holds holds⟩).symm.trans holds)

theorem Fresh.panelsNamed (fresh : Fresh doc) : PanelsNamed doc := by
  intro panel tree _ unnamed
  exact Bool.false_ne_true ((fresh panel tree).symm.trans unnamed.1)

/-- The element with a number has its scope at a node. -/
def BelongsTo (doc : Document) (number : Nat) (top : NodeId) : Prop :=
  ∃ node scope, (doc.findAll interactive)[number]? = some node ∧
    doc.eventScope node = some scope ∧ scope.node = top

/-- An element that is bound earlier has its scope further inside. -/
def NestedEarlier (doc : Document) (number : Nat) (top : NodeId) : Prop :=
  ∃ earlier < number, ∃ inner, BelongsTo doc earlier inner ∧ doc.Within top inner ∧ inner ≠ top

theorem BelongsTo.unique {first second : NodeId} (left : BelongsTo doc number first)
    (right : BelongsTo doc number second) : first = second := by
  obtain ⟨node, scope, found, known, rfl⟩ := left
  obtain ⟨other, scope', found', known', rfl⟩ := right
  cases found.symm.trans found'
  cases known.symm.trans known'
  rfl

theorem BelongsTo.bounded (belongs : BelongsTo doc number top) :
    number < (doc.findAll interactive).length := by
  obtain ⟨_, _, found, _⟩ := belongs
  exact (List.getElem?_eq_some_iff.mp found).1

theorem BelongsTo.has (belongs : BelongsTo doc number top) : doc.Has top := by
  obtain ⟨node, scope, _, known, rfl⟩ := belongs
  exact Document.has_of_takesChildren (takesChildren_of_eventScope known)

theorem BelongsTo.inTree (wf : doc.WellFormed) (belongs : BelongsTo doc number top) :
    doc.InTree top := by
  obtain ⟨node, scope, found, known, rfl⟩ := belongs
  have member := List.mem_of_getElem? found
  exact inTree_of_eventScope wf (has_of_interactive member)
    (Document.inTree_of_mem_findAll wf member) known

/-- Every carrier that is found within a scope is new. -/
theorem Frame.new_of_holds (wf : before.WellFormed) (fresh : Fresh before)
    (frame : Frame touched before doc) (tree : before.InTree top) {carrier : NodeId}
    (inner : doc.Within top carrier) (holds : Carrier.wanted.holds doc carrier = true) :
    ¬ before.Has carrier := by
  intro old
  rw [frame.holds_wanted old] at holds
  obtain ⟨above, aboveRoot, aboveTop⟩ := tree
  have inTree : before.InTree carrier :=
    ⟨above, aboveRoot, aboveTop.trans ((frame.grown.within_iff wf old).mp inner)⟩
  exact Bool.false_ne_true ((fresh carrier inTree).symm.trans holds)

/-- A carrier that the element with a number writes, its scope at a node. -/
structure Written (before doc : Document) (number : Nat) (top : NodeId) (id : String)
    (carrier : NodeId) : Prop where
  inside : doc.Has carrier
  new : ¬ before.Has carrier
  named : doc.attr? carrier "id" = some id
  within : doc.Within top carrier
  placed : ∃ earlier ≤ number, ∃ parent, BelongsTo before earlier parent ∧
    doc.parent? carrier = some parent
  nested : NestedEarlier before number top → doc.parent? carrier ≠ some top

def Writes (before doc : Document) (bound : List BoundElement) (number : Nat) (top : NodeId) :
    Prop :=
  ∃ id carrier,
    (∀ element, bound[number]? = some element → ∀ event ∈ element.events, event.carrier = id) ∧
    Written before doc number top id carrier

/-- The carriers after a number of elements were bound. -/
structure Carriers (before : Document) (count : Nat) (state : BindingState)
    (bound : List BoundElement) : Prop where
  numbered {node : NodeId} (inside : state.doc.Has node) (new : ¬ before.Has node) :
    ∃ number < state.carriers, IsCarrier state.doc node number
  distinct {first second : NodeId} {id : String} (newFirst : ¬ before.Has first)
    (newSecond : ¬ before.Has second) (left : state.doc.attr? first "id" = some id)
    (right : state.doc.attr? second "id" = some id) : first = second
  placed {node : NodeId} (inside : state.doc.Has node) (new : ¬ before.Has node) :
    ∃ number < count, ∃ top, BelongsTo before number top ∧ ¬ NestedEarlier before number top ∧
      state.doc.parent? node = some top
  single {first second top : NodeId} (newFirst : ¬ before.Has first)
    (newSecond : ¬ before.Has second) (upFirst : state.doc.parent? first = some top)
    (upSecond : state.doc.parent? second = some top) : first = second
  written {number : Nat} (earlier : number < count) {top : NodeId}
    (belongs : BelongsTo before number top) : Writes before state.doc bound number top

theorem Writes.concat {element : BoundElement}
    (writes : Writes before doc bound number top) (earlier : number < bound.length) :
    Writes before doc (bound ++ [element]) number top := by
  obtain ⟨id, carrier, events, written⟩ := writes
  refine ⟨id, carrier, fun other known => events other ?_, written⟩
  rw [List.getElem?_append_left earlier] at known
  exact known

theorem Written.writes {carrier : NodeId} {element : BoundElement}
    (written : Written before doc bound.length top id carrier)
    (events : ∀ event ∈ element.events, event.carrier = id) :
    Writes before doc (bound ++ [element]) bound.length top := by
  refine ⟨id, carrier, fun other known => ?_, written⟩
  rw [List.getElem?_concat_length] at known
  cases known
  exact events

theorem IsCarrier.has {carrier : NodeId} (known : IsCarrier doc carrier number) :
    doc.Has carrier :=
  Document.has_of_attr? known.attr_id

theorem Carriers.start (before : Document) : Carriers before 0 ⟨before, 0⟩ [] where
  numbered inside new := absurd inside new
  distinct newFirst _ left _ := absurd (Document.has_of_attr? left) newFirst
  placed inside new := absurd inside new
  single newFirst _ upFirst _ := absurd (Forest.has_of_parent? upFirst) newFirst
  written earlier := nomatch earlier

/-! ## What stays -/

section

variable {next : Document} (wf : doc.WellFormed) (turn : Frame touched doc next)
  (old : ∀ node ∈ touched, before.Has node)

include turn old

theorem IsCarrier.later {carrier : NodeId} (new : ¬ before.Has carrier)
    (known : IsCarrier doc carrier number) : IsCarrier next carrier number := by
  refine ⟨(turn.tagName carrier known.has).trans known.tagName, fun name => ?_⟩
  rw [turn.attr carrier name known.has (fun member => absurd (old carrier member) new)]
  · exact known.attr name
  · rintro _ unnamed
    exact nomatch unnamed.2.symm.trans known.attr_id

include wf

theorem Written.later {carrier : NodeId} (written : Written before doc number top id carrier) :
    Written before next number top id carrier where
  inside := turn.has written.inside
  new := written.new
  named := by
    rw [turn.attr carrier "id" written.inside
      (fun member => absurd (old carrier member) written.new)]
    · exact written.named
    · rintro _ unnamed
      exact nomatch unnamed.2.symm.trans written.named
  within := (turn.grown.within_iff wf written.inside).mpr written.within
  placed := by
    rw [turn.grown.parents carrier written.inside]
    exact written.placed
  nested := by
    rw [turn.grown.parents carrier written.inside]
    exact written.nested

/-- A change of old elements that adds nothing leaves the carriers. -/
theorem Carriers.later {carriers : Nat} (kept : Carriers before count ⟨doc, carriers⟩ bound)
    (size : Forest.size next = Forest.size doc) :
    Carriers before count ⟨next, carriers⟩ bound := by
  have back {node : NodeId} (inside : next.Has node) : doc.Has node := by
    rw [Forest.Has, size] at inside
    exact inside
  refine ⟨?_, ?_, ?_, ?_, ?_⟩
  · intro node inside new
    obtain ⟨number, bounded, known⟩ := kept.numbered (back inside) new
    exact ⟨number, bounded, known.later turn old new⟩
  · intro first second id newFirst newSecond left right
    have same {node : NodeId} (new : ¬ before.Has node) (known : next.attr? node "id" = some id) :
        doc.attr? node "id" = some id := by
      obtain ⟨number, _, carrier⟩ := kept.numbered (back (Document.has_of_attr? known)) new
      rw [(carrier.later turn old new).attr_id] at known
      exact carrier.attr_id.trans known
    exact kept.distinct newFirst newSecond (same newFirst left) (same newSecond right)
  · intro node inside new
    obtain ⟨number, bounded, top, belongs, flat, up⟩ := kept.placed (back inside) new
    exact ⟨number, bounded, top, belongs, flat, (turn.grown.parents node (back inside)).trans up⟩
  · intro first second top newFirst newSecond upFirst upSecond
    have same {node : NodeId} (up : next.parent? node = some top) : doc.parent? node = some top :=
      (turn.grown.parents node (back (Forest.has_of_parent? up))).symm.trans up
    exact kept.single newFirst newSecond (same upFirst) (same upSecond)
  · intro number earlier top belongs
    obtain ⟨id, carrier, writes, written⟩ := kept.written earlier belongs
    exact ⟨id, carrier, writes, written.later wf turn old⟩

end

/-! ## Carriers within a scope -/

section

variable (wf : before.WellFormed) (frame : Frame touched before state.doc)
  (carriers : Carriers before count state bound)

include wf frame carriers

omit wf frame in
theorem Carriers.holds {node : NodeId} (inside : state.doc.Has node) (new : ¬ before.Has node) :
    Carrier.wanted.holds state.doc node = true := by
  obtain ⟨number, _, carrier⟩ := carriers.numbered inside new
  exact carrier.holds_wanted

theorem Carriers.children_new {own : NodeId} (new : ¬ before.Has own) :
    state.doc.children own = [] := by
  rw [List.eq_nil_iff_forall_not_mem]
  intro child down
  have up := (frame.wellFormed.linked own child).mp down
  have newChild := frame.grown.not_has_child wf frame.wellFormed new down
  obtain ⟨number, _, top, belongs, _, known⟩ :=
    carriers.placed (frame.wellFormed.has_child down) newChild
  rw [up] at known
  cases known
  exact new belongs.has

/-- A carrier directly below a scope ends the walk below it. -/
theorem Carriers.descendants_eq {own : NodeId} (new : ¬ before.Has own)
    (up : state.doc.parent? own = some top) :
    ∃ earlier, state.doc.descendants top = earlier ++ [own] := by
  obtain ⟨added, children, fresh⟩ := frame.exists_appended wf top
  have nodup := frame.wellFormed.nodup top
  rw [children] at nodup
  have member : own ∈ added := by
    have down := (frame.wellFormed.linked top own).mpr up
    rw [children] at down
    rcases List.mem_append.mp down with older | newer
    · exact absurd (wf.has_child older) new
    · exact newer
  have alone : ∀ other ∈ added, other = own := by
    intro other newer
    have upOther := (frame.wellFormed.linked top other).mp
      (children ▸ List.mem_append_right _ newer)
    exact carriers.single (fresh other newer) new upOther up
  have single : added = [own] := by
    have replicated := List.eq_replicate_of_mem alone
    have once := List.nodup_replicate.mp (replicated ▸ (List.nodup_append.mp nodup).2.1)
    have some := List.length_pos_of_mem member
    rw [replicated, show added.length = 1 by omega]
    rfl
  rw [single] at children
  obtain ⟨earlier, walk⟩ := frame.wellFormed.descendants_concat children
  have below : state.doc.descendants own = [] := by
    unfold Forest.descendants
    rw [carriers.children_new wf frame new]
    cases Forest.size state.doc <;> rfl
  rw [below] at walk
  exact ⟨earlier, walk⟩

theorem Carriers.getLast?_eq {own : NodeId} (new : ¬ before.Has own)
    (up : state.doc.parent? own = some top) :
    (state.doc.findAllIn top Carrier.wanted).getLast? = some own := by
  obtain ⟨earlier, walk⟩ := carriers.descendants_eq wf frame new up
  have holds := carriers.holds (Forest.has_of_parent? up) new
  rw [Document.findAllIn, walk, List.filter_append, List.filter_cons_of_pos holds,
    List.filter_nil, List.getLast?_concat]

omit wf frame in
/-- An element that is bound earlier with its scope further inside has its carrier there. -/
theorem Carriers.exists_of_nested (nested : NestedEarlier before count top) :
    ∃ inner carrier, before.Has inner ∧ before.Within top inner ∧ inner ≠ top ∧
      state.doc.Has carrier ∧ ¬ before.Has carrier ∧ state.doc.Within inner carrier := by
  obtain ⟨earlier, bounded, inner, belongs, within, different⟩ := nested
  obtain ⟨_, carrier, _, written⟩ := carriers.written bounded belongs
  exact ⟨inner, carrier, belongs.has, within, different, written.inside, written.new,
    written.within⟩

omit carriers in
/-- Where no element was bound further inside, an element writes the carrier of its scope itself. -/
theorem Written.parent?_eq {carrier : NodeId}
    (written : Written before state.doc number top id carrier)
    (belongs : BelongsTo before number top) (flat : ¬ NestedEarlier before number top) :
    state.doc.parent? carrier = some top := by
  obtain ⟨earlier, bounded, parent, belongsParent, up⟩ := written.placed
  have within : before.Within top parent := by
    refine (frame.grown.within_iff wf belongsParent.has).mp ?_
    cases written.within with
    | refl => exact absurd belongs.has written.new
    | step upAgain rest =>
        cases up.symm.trans upAgain
        exact rest
  have here : parent = top := by
    rcases Nat.lt_or_eq_of_le bounded with before | rfl
    · by_contra inner
      exact flat ⟨earlier, before, parent, belongsParent, within, inner⟩
    · exact belongsParent.unique belongs
  exact here ▸ up

/-- A search finds the carrier of a scope itself only if there are none further inside. -/
theorem Carriers.parent?_ne_of_nested (nested : NestedEarlier before count top) {own : NodeId}
    (new : ¬ before.Has own) (found : state.doc.findIn top Carrier.wanted = some own) :
    state.doc.parent? own ≠ some top := by
  intro up
  obtain ⟨inner, carrier, hasInner, within, different, inside, newCarrier, below⟩ :=
    carriers.exists_of_nested nested
  have innerLater := (frame.grown.within_iff wf hasInner).mpr within
  obtain ⟨earlier, walk⟩ := carriers.descendants_eq wf frame new up
  have member : carrier ∈ state.doc.descendants top := by
    refine frame.wellFormed.mem_descendants.mpr ⟨innerLater.trans below, ?_⟩
    rintro rfl
    exact newCarrier (wf.has_top within hasInner)
  rw [Document.findIn_eq_find?, walk] at found
  rw [walk, List.mem_append, List.mem_singleton] at member
  rcases member with before | same
  · cases first : earlier.find? (Carrier.wanted.holds state.doc) with
    | none => exact List.find?_eq_none.mp first carrier before (carriers.holds inside newCarrier)
    | some other =>
        rw [List.find?_append, first] at found
        cases found
        have nodup := frame.wellFormed.nodup_descendants top
        rw [walk] at nodup
        exact (List.nodup_append.mp nodup).2.2 own (List.mem_of_find?_eq_some first) own
          List.mem_cons_self rfl
  · subst same
    cases below with
    | refl => exact newCarrier hasInner
    | step upAgain rest =>
        rw [up] at upAgain
        cases upAgain
        exact different (frame.wellFormed.within_antisymm rest innerLater)

end

/-! ## Rounds -/

/-- A reading that tells the new nodes apart still does with one more carrier, if that reads as
none of them. -/
theorem eq_of_reads_withCarrier {β : Type} {carriers : Nat} (earlier reads : NodeId → Option β)
    (inside : ∀ {node value}, reads node = some value →
      Forest.Has (withCarrier doc top carriers) node)
    (apart : ∀ {first second value}, ¬ before.Has first → ¬ before.Has second →
      earlier first = some value → earlier second = some value → first = second)
    (stays : ∀ {node}, doc.Has node → ¬ before.Has node → reads node = earlier node)
    (other : ∀ {node}, doc.Has node → ¬ before.Has node → reads node ≠ reads ⟨Forest.size doc⟩)
    {first second : NodeId} {value : β} (newFirst : ¬ before.Has first)
    (newSecond : ¬ before.Has second) (left : reads first = some value)
    (right : reads second = some value) : first = second := by
  rcases has_withCarrier (inside left) with inFirst | rfl
  · rcases has_withCarrier (inside right) with inSecond | rfl
    · rw [stays inFirst newFirst] at left
      rw [stays inSecond newSecond] at right
      exact apart newFirst newSecond left right
    · exact absurd (left.trans right.symm) (other inFirst newFirst)
  · rcases has_withCarrier (inside right) with inSecond | rfl
    · exact absurd (right.trans left.symm) (other inSecond newSecond)
    · rfl

section

variable {carriers : Nat} {element : BoundElement}
  (wf : before.WellFormed) (frame : Frame touched before doc)
  (kept : Carriers before bound.length ⟨doc, carriers⟩ bound)
  (belongs : BelongsTo before bound.length top)

include frame kept belongs

/-- Without a carrier in a scope, none of the new ones is in it. -/
theorem Carriers.not_within (absent : doc.findIn top Carrier.wanted = none) {node : NodeId}
    (inside : doc.Has node) (new : ¬ before.Has node) : ¬ doc.Within top node := by
  intro within
  rw [Document.findIn_eq_find?, List.find?_eq_none] at absent
  refine absent node (frame.wellFormed.mem_descendants.mpr ⟨within, ?_⟩) (kept.holds inside new)
  rintro rfl
  exact new belongs.has

include wf

/-- The search of a scope found a carrier, and the element writes it. -/
theorem Carriers.found (fresh : Fresh before) {carrier : NodeId}
    (found : doc.findIn top Carrier.wanted = some carrier)
    (named : doc.attr? carrier "id" = some id)
    (events : ∀ event ∈ element.events, event.carrier = id) :
    Carriers before (bound.length + 1) ⟨doc, carriers⟩ (bound ++ [element]) := by
  have holds := Document.holds_of_findIn found
  have within := (Document.within_of_findIn frame.wellFormed found).1
  have new := frame.new_of_holds wf fresh (belongs.inTree wf) within holds
  have inside := Document.has_of_holds holds
  refine ⟨kept.numbered, kept.distinct, ?_, kept.single, ?_⟩
  · intro node inside new
    obtain ⟨earlier, bounded, parent⟩ := kept.placed inside new
    exact ⟨earlier, Nat.lt_succ_of_lt bounded, parent⟩
  · intro number earlier other belongsOther
    rcases Nat.lt_or_eq_of_le (Nat.le_of_lt_succ earlier) with older | rfl
    · exact (kept.written older belongsOther).concat older
    · cases belongs.unique belongsOther
      obtain ⟨earlier, bounded, parent, belongsEarlier, _, up⟩ := kept.placed inside new
      have written : Written before doc bound.length top id carrier :=
        ⟨inside, new, named, within,
          ⟨earlier, Nat.le_of_lt bounded, parent, belongsEarlier, up⟩,
          fun nested => kept.parent?_ne_of_nested wf frame nested new found⟩
      exact written.writes events

/-- A scope further inside of an element that is bound earlier would have been found. -/
theorem Carriers.not_nested (absent : doc.findIn top Carrier.wanted = none) :
    ¬ NestedEarlier before bound.length top := by
  intro nested
  obtain ⟨inner, carrier, hasInner, within, _, inside, new, below⟩ := kept.exists_of_nested nested
  have innerLater := (frame.grown.within_iff wf hasInner).mpr within
  exact kept.not_within frame belongs absent inside new (innerLater.trans below)

/-- A carrier was added to a scope that had none. -/
theorem Carriers.added (absent : doc.findIn top Carrier.wanted = none)
    (events : ∀ event ∈ element.events, event.carrier = Carrier.newId carriers) :
    Carriers before (bound.length + 1) ⟨withCarrier doc top carriers, carriers + 1⟩
      (bound ++ [element]) := by
  -- each claim is one on the new carrier and one on the carriers that were there
  have turn := (Frame.refl frame.wellFormed).add (frame.has belongs.has) carriers
  have old : ∀ node ∈ ([] : List NodeId), before.Has node := fun _ member => nomatch member
  have newest : ¬ before.Has ⟨Forest.size doc⟩ := fun inside =>
    Document.not_has_size doc (frame.has inside)
  have flat := kept.not_nested wf frame belongs absent
  have carrier := isCarrier_withCarrier doc top carriers
  have upNewest := parent?_withCarrier doc top carriers
  have upStays {node : NodeId} (earlier : doc.Has node) :
      Forest.parent? (withCarrier doc top carriers) node = doc.parent? node :=
    turn.grown.parents node earlier
  refine ⟨?numbered, ?distinct, ?placed, ?single, ?written⟩
  case numbered =>
    intro node inside new
    rcases has_withCarrier inside with earlier | rfl
    · obtain ⟨number, bounded, known⟩ := kept.numbered earlier new
      exact ⟨number, Nat.lt_succ_of_lt bounded, known.later turn old new⟩
    · exact ⟨carriers, Nat.lt_succ_self _, carrier⟩
  case distinct =>
    intro first second id
    refine eq_of_reads_withCarrier (doc.attr? · "id")
      (Document.attr? (withCarrier doc top carriers) · "id") Document.has_of_attr? kept.distinct
      ?_ ?_
    · intro node earlier new
      obtain ⟨number, _, known⟩ := kept.numbered earlier new
      exact (known.later turn old new).attr_id.trans known.attr_id.symm
    · intro node earlier new same
      obtain ⟨number, bounded, known⟩ := kept.numbered earlier new
      rw [(known.later turn old new).attr_id, carrier.attr_id, Option.some.injEq] at same
      exact Nat.ne_of_lt bounded (newId_inj same)
  case placed =>
    intro node inside new
    rcases has_withCarrier inside with earlier | rfl
    · obtain ⟨number, bounded, parent, belongsParent, apart, up⟩ := kept.placed earlier new
      exact ⟨number, Nat.lt_succ_of_lt bounded, parent, belongsParent, apart,
        (upStays earlier).trans up⟩
    · exact ⟨bound.length, Nat.lt_succ_self _, top, belongs, flat, upNewest⟩
  case single =>
    intro first second parent
    refine eq_of_reads_withCarrier doc.parent? (Forest.parent? (withCarrier doc top carriers))
      Forest.has_of_parent? kept.single (fun earlier _ => upStays earlier) ?_
    intro node earlier new same
    rw [upNewest, upStays earlier] at same
    exact kept.not_within frame belongs absent earlier new (.step same .refl)
  case written =>
    intro number earlier other belongsOther
    rcases Nat.lt_or_eq_of_le (Nat.le_of_lt_succ earlier) with older | rfl
    · obtain ⟨id, carrier, writes, written⟩ := kept.written older belongsOther
      exact Writes.concat ⟨id, carrier, writes, written.later frame.wellFormed turn old⟩ older
    · cases belongs.unique belongsOther
      have written : Written before (withCarrier doc top carriers) bound.length top
          (Carrier.newId carriers) ⟨Forest.size doc⟩ :=
        ⟨carrier.has, newest, carrier.attr_id, .step upNewest .refl,
          ⟨bound.length, Nat.le_refl _, top, belongs, upNewest⟩, fun nested => absurd nested flat⟩
      exact written.writes events

end

/-- One round keeps what is known of the carriers. -/
theorem Carriers.next {ensured : BindingState} {element : Element} (wf : before.WellFormed)
    (fresh : Fresh before) (round : Round before done node state element scope id ensured)
    (length : bound.length = done.length)
    (carriers : Carriers before done.length state bound) :
    Carriers before (done ++ [node]).length ⟨unclicked ensured.doc node, ensured.carriers⟩
      (bound ++ [outcome ensured.doc node done.length scope id]) := by
  have panels := fresh.panelsNamed
  have belongs : BelongsTo before done.length scope.node := by
    obtain ⟨ahead, whole⟩ := round.whole
    exact ⟨node, scope, by simp [whole], round.eventScope_eq wf panels, rfl⟩
  have old : ∀ other ∈ [node], before.Has other := by
    rintro other member
    rw [List.mem_singleton.mp member]
    exact round.old
  have wfState := round.frame.wellFormed
  have wfMarked := round.frame_marked.wellFormed
  have start : Carriers before bound.length
      ⟨marked state.doc node element done.length, state.carriers⟩ bound := by
    rw [length]
    exact carriers.later wfState round.marks old (Forest.size_setKind _ _ _)
  have ensures := round.ensures
  rw [← length] at belongs
  have middle : Carriers before (bound.length + 1) ensured
      (bound ++ [outcome ensured.doc node done.length scope id]) := by
    cases ensures with
    | known found named =>
        exact start.found wf round.frame_marked belongs fresh found named
          fun _ => carrier_of_mem_outcome
    | named found unnamed =>
        have holds := Document.holds_of_findIn found
        have within := (Document.within_of_findIn wfMarked found).1
        have new := round.frame_marked.new_of_holds wf fresh (belongs.inTree wf) within holds
        obtain ⟨number, _, carrier⟩ := start.numbered (Document.has_of_holds holds) new
        exact nomatch unnamed.symm.trans carrier.attr_id
    | added absent =>
        exact start.added wf round.frame_marked belongs absent fun _ => carrier_of_mem_outcome
  have wfEnsured := round.frame_ensured.wellFormed
  rw [List.length_append, List.length_singleton, ← length]
  rw [← length] at middle
  exact middle.later wfEnsured round.takes old (by simp [unclicked])

/-- What is known of carriers when all elements of a document are bound. -/
theorem exists_carriers_of_bind {after : Document} {callable : List String} {code : ClientCode}
    (wf : before.WellFormed) (fresh : Fresh before)
    (done : (Document.bind callable).runFrom before = (.ok code, after)) :
    ∃ bound state, code = assemble callable bound ∧ after = state.doc ∧
      Frame (before.findAll interactive) before after ∧
      Progress before (before.findAll interactive) state bound ∧
      Carriers before (before.findAll interactive).length state bound :=
  exists_of_bind wf
    (fun done state bound => Progress before done state bound ∧
      Carriers before done.length state bound)
    ⟨.start before, .start before⟩
    (fun _ _ _ _ _ _ _ _ round kept =>
      ⟨kept.1.next wf round, kept.2.next wf fresh round kept.1.length⟩) done

/-- A call of the element with a number writes a carrier within the scope of the element. -/
theorem Carriers.exists_written {callable : List String} {event : ClientEvent}
    (progress : Progress before (before.findAll interactive) state bound)
    (carriers : Carriers before (before.findAll interactive).length state bound)
    (belongs : BelongsTo before number top) (member : event ∈ (assemble callable bound).events)
    (mine : event.mark = mark number) :
    ∃ carrier, Written before state.doc number top event.carrier carrier := by
  obtain ⟨_, _, _, _, _, _, _, known, inElement⟩ := progress.exists_of_mem member mine
  obtain ⟨id, carrier, writes, written⟩ := carriers.written belongs.bounded belongs
  cases writes _ known event inElement
  exact ⟨carrier, written⟩

end ServerPages.Binding
