import ServerPages.Proofs.Binding.Marks
import ServerPages.Proofs.Binding.Submission

/-!
# Carriers that scopes own

A scope should own exactly one carrier, written by all calls of its elements and by no
others. No scope ever has two carriers of its own. But a carrier is looked for everywhere
below its scope, so once an element with a scope further inside was bound, the elements of
the outer scope share the inner one's carrier. Which scopes own a carrier, and whose calls
write it, is told by the order of the elements and their scopes before anything is bound.
-/

namespace ServerPages.Binding

variable {before after : Document} {callable : List String} {code : ClientCode}
  {state : BindingState} {bound : List BoundElement} {number : Nat} {top carrier : NodeId}

structure IsOwn (doc : Document) (top carrier : NodeId) : Prop where
  child : carrier ∈ doc.children top
  holds : Carrier.wanted.holds doc carrier = true

def HasCalls (doc : Document) (number : Nat) : Prop :=
  ∃ node, (doc.findAll interactive)[number]? = some node ∧ callsOf doc node ≠ []

/-- Each scope owns one carrier, which the calls of its elements write, and calls of different
scopes write different ones. -/
structure OwnsCarriers (before after : Document) (code : ClientCode) : Prop where
  one {number : Nat} {top : NodeId} (belongs : BelongsTo before number top) :
    ∃ own, IsOwn after top own ∧ ∀ other, IsOwn after top other → other = own
  written {number : Nat} {top own : NodeId} (belongs : BelongsTo before number top)
    (owned : IsOwn after top own) {event : ClientEvent} (member : event ∈ code.events)
    (mine : event.mark = mark number) : after.attr? own "id" = some event.carrier
  apart {first second : Nat} {top other : NodeId} (left : BelongsTo before first top)
    (right : BelongsTo before second other) (different : top ≠ other) {event later : ClientEvent}
    (member : event ∈ code.events) (mine : event.mark = mark first)
    (memberLater : later ∈ code.events) (mineLater : later.mark = mark second) :
    event.carrier ≠ later.carrier

section

variable (wf : before.WellFormed) (fresh : Fresh before)
  (frame : Frame (before.findAll interactive) before state.doc)
  (carriers : Carriers before (before.findAll interactive).length state bound)

include frame

theorem IsOwn.parent? (owned : IsOwn state.doc top carrier) :
    state.doc.parent? carrier = some top :=
  (frame.wellFormed.linked top carrier).mp owned.child

include wf fresh in
theorem IsOwn.new (owned : IsOwn state.doc top carrier) (belongs : BelongsTo before number top) :
    ¬ before.Has carrier :=
  frame.new_of_holds wf fresh (belongs.inTree wf)
    (.step (owned.parent? frame) .refl) owned.holds

include carriers

theorem Carriers.isOwn (inside : state.doc.Has carrier) (new : ¬ before.Has carrier)
    (up : state.doc.parent? carrier = some top) : IsOwn state.doc top carrier :=
  ⟨(frame.wellFormed.linked top carrier).mpr up, carriers.holds inside new⟩

include wf

section

include fresh

/-- A scope owns a carrier exactly if an element of it was bound before all those with scopes
further inside. -/
theorem Carriers.exists_isOwn_iff (belongs : BelongsTo before number top) :
    (∃ own, IsOwn state.doc top own) ↔
      ∃ first, BelongsTo before first top ∧ ¬ NestedEarlier before first top := by
  constructor
  · rintro ⟨own, owned⟩
    obtain ⟨first, _, parent, belongsFirst, flat, up⟩ :=
      carriers.placed (Document.has_of_holds owned.holds) (owned.new wf fresh frame belongs)
    cases up.symm.trans (owned.parent? frame)
    exact ⟨first, belongsFirst, flat⟩
  · rintro ⟨first, belongsFirst, flat⟩
    obtain ⟨_, own, _, written⟩ := carriers.written belongsFirst.bounded belongsFirst
    exact ⟨own, carriers.isOwn frame written.inside written.new
      (written.parent?_eq wf frame belongsFirst flat)⟩

theorem Carriers.isOwn_unique (belongs : BelongsTo before number top) {other : NodeId}
    (owned : IsOwn state.doc top carrier) (ownedOther : IsOwn state.doc top other) :
    other = carrier :=
  carriers.single (ownedOther.new wf fresh frame belongs) (owned.new wf fresh frame belongs)
    (ownedOther.parent? frame) (owned.parent? frame)

/-- Own carriers of one `id` belong to one scope. -/
theorem Carriers.top_eq {first second : Nat} {other own : NodeId} {id : String}
    (left : BelongsTo before first top) (right : BelongsTo before second other)
    (owned : IsOwn state.doc top carrier) (ownedOther : IsOwn state.doc other own)
    (named : state.doc.attr? carrier "id" = some id)
    (namedOther : state.doc.attr? own "id" = some id) : top = other := by
  have here : own = carrier :=
    carriers.distinct (ownedOther.new wf fresh frame right) (owned.new wf fresh frame left)
      namedOther named
  subst here
  exact Option.some.inj ((owned.parent? frame).symm.trans (ownedOther.parent? frame))

end

/-- A call writes the own carrier of a scope within that of its element. -/
theorem Carriers.exists_owner (progress : Progress before (before.findAll interactive) state bound)
    (belongs : BelongsTo before number top) {event : ClientEvent}
    (member : event ∈ (assemble callable bound).events) (mine : event.mark = mark number) :
    ∃ owner own, (∃ earlier ≤ number, BelongsTo before earlier owner) ∧
      before.Within top owner ∧ IsOwn state.doc owner own ∧
      state.doc.attr? own "id" = some event.carrier ∧
      (owner = top ↔ ¬ NestedEarlier before number top) := by
  obtain ⟨own, written⟩ := carriers.exists_written progress belongs member mine
  obtain ⟨earlier, bounded, owner, belongsOwner, up⟩ := written.placed
  refine ⟨owner, own, ⟨earlier, bounded, belongsOwner⟩, ?_,
    carriers.isOwn frame written.inside written.new up, written.named, ?_, ?_⟩
  · refine (frame.grown.within_iff wf belongsOwner.has).mp ?_
    cases written.within with
    | refl => exact absurd belongs.has written.new
    | step upAgain rest =>
        cases up.symm.trans upAgain
        exact rest
  · rintro rfl nested
    exact written.nested nested up
  · intro flat
    exact Option.some.inj (up.symm.trans (written.parent?_eq wf frame belongs flat))

end

theorem hasCalls_of_mem (progress : Progress before (before.findAll interactive) state bound)
    {event : ClientEvent} (member : event ∈ (assemble callable bound).events)
    (mine : event.mark = mark number) : HasCalls before number := by
  obtain ⟨node, _, _, read, found, _, same, _, inElement⟩ := progress.exists_of_mem member mine
  refine ⟨node, found, fun none => ?_⟩
  rw [callsOf, ← same "onclick" (by decide) (fun same => absurd same (by decide))] at none
  rw [outcome_events, none] at inElement
  cases inElement

theorem exists_event_of_hasCalls (wf : before.WellFormed)
    (done : (Document.bind callable).runFrom before = (.ok code, after))
    (calls : HasCalls before number) : ∃ event ∈ code.events, event.mark = mark number := by
  obtain ⟨node, found, called⟩ := calls
  obtain ⟨call, known⟩ : ∃ call, (callsOf before node)[0]? = some call :=
    ⟨_, List.getElem?_eq_getElem (List.length_pos_iff.mpr called)⟩
  obtain ⟨event, member, mine, _⟩ := exists_event wf done found known
  exact ⟨event, member, mine⟩

/-! ## Scopes that own their carriers -/

section

variable (wf : before.WellFormed) (fresh : Fresh before)
  (frame : Frame (before.findAll interactive) before state.doc)
  (progress : Progress before (before.findAll interactive) state bound)
  (carriers : Carriers before (before.findAll interactive).length state bound)

include wf fresh frame progress carriers

/-- Where scopes own their carriers, elements with calls come before those further inside. -/
theorem OwnsCarriers.not_nestedEarlier
    (owns : OwnsCarriers before state.doc (assemble callable bound))
    (belongs : BelongsTo before number top) {event : ClientEvent}
    (member : event ∈ (assemble callable bound).events) (mine : event.mark = mark number) :
    ¬ NestedEarlier before number top := by
  obtain ⟨own, owned, _⟩ := owns.one belongs
  obtain ⟨owner, shared, ⟨_, _, belongsOwner⟩, _, ownedShared, named, same⟩ :=
    carriers.exists_owner wf frame progress belongs member mine
  exact same.mp (carriers.top_eq wf fresh frame belongsOwner belongs ownedShared owned named
    (owns.written belongs owned member mine))

/-- Scopes own their carriers where elements come before those further inside. -/
theorem Carriers.ownsCarriers
    (flat : ∀ number top, BelongsTo before number top →
      (∃ first, BelongsTo before first top ∧ ¬ NestedEarlier before first top) ∧
      (HasCalls before number → ¬ NestedEarlier before number top)) :
    OwnsCarriers before state.doc (assemble callable bound) := by
  have written {number : Nat} {top : NodeId} (belongs : BelongsTo before number top)
      {event : ClientEvent} (member : event ∈ (assemble callable bound).events)
      (mine : event.mark = mark number) :
      ∃ own, IsOwn state.doc top own ∧ state.doc.attr? own "id" = some event.carrier := by
    have calls := hasCalls_of_mem progress member mine
    obtain ⟨owner, own, _, _, owned, named, same⟩ :=
      carriers.exists_owner wf frame progress belongs member mine
    obtain rfl := same.mpr ((flat number top belongs).2 calls)
    exact ⟨own, owned, named⟩
  refine ⟨fun belongs => ?_, fun belongs owned event member mine => ?_, ?_⟩
  · obtain ⟨own, owned⟩ :=
      (carriers.exists_isOwn_iff wf fresh frame belongs).mpr (flat _ _ belongs).1
    exact ⟨own, owned, fun other => carriers.isOwn_unique wf fresh frame belongs owned⟩
  · obtain ⟨own, ownedOwn, named⟩ := written belongs member mine
    rw [carriers.isOwn_unique wf fresh frame belongs ownedOwn owned]
    exact named
  · intro first second top other left right different event later member mine memberLater mineLater
      same
    obtain ⟨own, owned, named⟩ := written left member mine
    obtain ⟨ownLater, ownedLater, namedLater⟩ := written right memberLater mineLater
    exact different (carriers.top_eq wf fresh frame left right owned ownedLater named
      (same ▸ namedLater))

end

/-- No scope owns two carriers. A scope owns one exactly if an element of it was bound before all
those with scopes further inside. The calls of an element write the own carrier of a scope within
that of the element, which is that scope itself exactly if no element with a scope further inside
was bound earlier. So each scope owns the one carrier that its calls write, and shares it with no
other, exactly if each scope has an element that was bound before all those further inside, and
every element with calls is one. -/
theorem ownsCarriers_iff (reached : before.Reachable) (fresh : Fresh before)
    (done : (Document.bind callable).runFrom before = (.ok code, after)) :
    (OwnsCarriers before after code ↔
      ∀ number top, BelongsTo before number top →
        (∃ first, BelongsTo before first top ∧ ¬ NestedEarlier before first top) ∧
        (HasCalls before number → ¬ NestedEarlier before number top)) ∧
    ∀ number top, BelongsTo before number top →
      (∀ own other, IsOwn after top own → IsOwn after top other → other = own) ∧
      ((∃ own, IsOwn after top own) ↔
        ∃ first, BelongsTo before first top ∧ ¬ NestedEarlier before first top) ∧
      ∀ event ∈ code.events, event.mark = mark number →
        ∃ owner own, (∃ earlier ≤ number, BelongsTo before earlier owner) ∧
          before.Within top owner ∧ IsOwn after owner own ∧
          after.attr? own "id" = some event.carrier ∧
          (owner = top ↔ ¬ NestedEarlier before number top) := by
  have wf := reached.wellFormed
  have called {number : Nat} (calls : HasCalls before number) :=
    exists_event_of_hasCalls wf done calls
  obtain ⟨bound, state, rfl, rfl, frame, progress, carriers⟩ :=
    exists_carriers_of_bind wf fresh done
  refine ⟨⟨fun owns number top belongs => ⟨?_, fun calls => ?_⟩,
      carriers.ownsCarriers wf fresh frame progress⟩, fun number top belongs => ⟨?_, ?_, ?_⟩⟩
  · obtain ⟨own, owned, _⟩ := owns.one belongs
    exact (carriers.exists_isOwn_iff wf fresh frame belongs).mp ⟨own, owned⟩
  · obtain ⟨event, member, mine⟩ := called calls
    exact owns.not_nestedEarlier wf fresh frame progress carriers belongs member mine
  · intro own other owned ownedOther
    exact carriers.isOwn_unique wf fresh frame belongs owned ownedOther
  · exact carriers.exists_isOwn_iff wf fresh frame belongs
  · intro event member mine
    exact carriers.exists_owner wf frame progress belongs member mine

/-- A form whose own element comes after one of an update panel within it. -/
def nestedForm : Document := .parse <|
  "<form runat=server><p id=inner updatepanel=true><a runat=server onclick='server.x()'></a>" ++
    "</p><b runat=server onclick='server.y()'></b></form>"

theorem nestedForm_reads :
    (∀ place : Fin (Forest.size nestedForm), Carrier.wanted.holds nestedForm ⟨place⟩ = false) ∧
    nestedForm.findAll interactive = [⟨6⟩, ⟨7⟩] ∧
    nestedForm.eventScope ⟨6⟩ = some (.panel ⟨5⟩ "inner") ∧
    nestedForm.eventScope ⟨7⟩ = some (.form ⟨4⟩) ∧
    Forest.parent? nestedForm ⟨5⟩ = some ⟨4⟩ ∧
    ((Document.bind []).runFrom nestedForm).1.isOk = true := by
  decide +kernel

/-- The form owns no carrier; its element writes that of the panel. -/
theorem ownsCarriers_nestedForm : ∃ code after,
    (Document.bind []).runFrom nestedForm = (.ok code, after) ∧ Fresh nestedForm ∧
      BelongsTo nestedForm 1 ⟨4⟩ ∧ ¬ (∃ own, IsOwn after ⟨4⟩ own) ∧
      ¬ OwnsCarriers nestedForm after code := by
  obtain ⟨none, interactive, inner, outer, up, done⟩ := nestedForm_reads
  have fresh : Fresh nestedForm := fresh_of_forall none
  have panel : BelongsTo nestedForm 0 ⟨5⟩ :=
    ⟨⟨6⟩, .panel ⟨5⟩ "inner", by rw [interactive]; rfl, inner, rfl⟩
  have form : BelongsTo nestedForm 1 ⟨4⟩ :=
    ⟨⟨7⟩, .form ⟨4⟩, by rw [interactive]; rfl, outer, rfl⟩
  -- The only element of the form comes after that of the panel.
  have late : ¬ ∃ first, BelongsTo nestedForm first ⟨4⟩ ∧ ¬ NestedEarlier nestedForm first ⟨4⟩ := by
    rintro ⟨first, belongs, flat⟩
    have bounded := belongs.bounded
    rw [interactive] at bounded
    change first < 2 at bounded
    obtain rfl | rfl : first = 0 ∨ first = 1 := by omega
    · exact absurd (belongs.unique panel) (by decide)
    · exact flat ⟨0, Nat.zero_lt_one, ⟨5⟩, panel, .step up .refl, by decide⟩
  rcases run : (Document.bind []).runFrom nestedForm with ⟨error | code, after⟩
  · rw [run] at done
    cases done
  · obtain ⟨owns, scopes⟩ := ownsCarriers_iff (.parse _) fresh run
    exact ⟨code, after, rfl, fresh, form, fun owned => late ((scopes 1 _ form).2.1.mp owned),
      fun all => late (owns.mp all 1 _ form).1⟩

end ServerPages.Binding
