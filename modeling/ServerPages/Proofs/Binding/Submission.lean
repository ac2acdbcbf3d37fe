import ServerPages.Proofs.Binding.Carriers
import ServerPages.Request

/-!
# Submitting a form

A browser sends the fields of a form in document order, and of the fields of one name the
server keeps the last. A click in a form writes its event into one carrier and leaves all
others empty, so the event arrives exactly if no other carrier follows in the form.
-/

namespace ServerPages

namespace Request

def submit (request : Request) (fields : List (String × String)) : Request :=
  fields.foldl (fun request field => request.withField field.1 (.str field.2)) request

theorem submit_concat (request : Request) (fields : List (String × String))
    (last : String × String) :
    request.submit (fields ++ [last]) = (request.submit fields).withField last.1 (.str last.2) := by
  rw [submit, List.foldl_append]
  rfl

/-- Of the fields of its name, the last one carries the event. -/
theorem event_submit (request : Request) {fields : List (String × String)} {text : String}
    (last : fields.getLast? = some (Descriptor.fieldName, text)) :
    (request.submit fields).event = Descriptor.ofField (.str text) := by
  obtain ⟨earlier, rfl⟩ := List.getLast?_eq_some_iff.mp last
  rw [submit_concat, event, find?_withField_self]

end Request

namespace Descriptor

theorem ofField_empty : ofField (.str "") = .ok none := by
  have empty : Text.trim "" = "" := by rfl
  rw [ofField, empty]
  rfl

/-- A text that a descriptor is read from is not blank. -/
theorem ofField_of_read {text : String} {descriptor : Descriptor}
    (read : Descriptor.read text = .ok descriptor) :
    ofField (.str text) = .ok (some descriptor) := by
  have solid : (Text.trim text).isEmpty = false := by
    by_contra blank
    have blanks := Text.isBlank_of_trim_isEmpty (Bool.eq_true_of_not_eq_false blank)
    have first : ∀ c rest, Json.skipSpace text.toList = c :: rest → Text.isBlank c = true := by
      intro c rest start
      refine blanks c (List.dropWhile_sublist Json.isSpace |>.subset ?_)
      rw [Json.skipSpace] at start
      rw [start]
      exact List.mem_cons_self
    unfold Descriptor.read at read
    split at read
    · rename_i rest start
      exact absurd (first _ _ start) (by decide)
    · rename_i rest start
      exact absurd (first _ _ start) (by decide)
    · cases read
  rw [ofField, solid, read]
  rfl

end Descriptor

namespace Binding

/-- The carriers of a form as they are submitted after one of them, by its `id`, was written. -/
def carrierFields (doc : Document) (form : NodeId) (id text : String) : List (String × String) :=
  (doc.findAllIn form Carrier.wanted).map fun carrier =>
    (Descriptor.fieldName, if doc.attr? carrier "id" = some id then text else "")

theorem getLast?_carrierFields {doc : Document} {form last : NodeId} (id text : String)
    (ends : (doc.findAllIn form Carrier.wanted).getLast? = some last) :
    (carrierFields doc form id text).getLast? =
      some (Descriptor.fieldName, if doc.attr? last "id" = some id then text else "") := by
  rw [carrierFields, List.getLast?_map, ends]
  rfl

variable {before after : Document} {callable : List String} {code : ClientCode} {number : Nat}
  {node form : NodeId} {event : ClientEvent}

/-- The carrier that a click in a form writes. -/
theorem exists_written (wf : before.WellFormed) (fresh : Fresh before)
    (done : (Document.bind callable).runFrom before = (.ok code, after))
    (found : (before.findAll interactive)[number]? = some node)
    (scope : after.eventScope node = some (.form form)) (member : event ∈ code.events)
    (mine : event.mark = mark number) :
    ∃ bound state, after = state.doc ∧
      Frame (before.findAll interactive) before state.doc ∧
      Carriers before (before.findAll interactive).length state bound ∧
      BelongsTo before number form ∧
      ∃ carrier, Written before state.doc number form event.carrier carrier := by
  obtain ⟨bound, state, rfl, rfl, frame, progress, carriers⟩ :=
    exists_carriers_of_bind wf fresh done
  have interactive := List.mem_of_getElem? found
  have inRoot := ((Document.mem_findAllIn wf).mp interactive).1.1
  have inside := has_of_interactive interactive
  have belongs : BelongsTo before number form := by
    refine ⟨node, .form form, found, ?_, rfl⟩
    rw [← frame.eventScope_eq wf fresh.panelsNamed (wf.has_top inRoot inside) inside
      (Document.inTree_of_mem_findAll wf interactive)]
    exact scope
  exact ⟨bound, state, rfl, frame, carriers, belongs,
    carriers.exists_written progress belongs member mine⟩

/-- The event of a click in a form arrives exactly if the carrier that it writes is the last one
of the form. It is unless an element whose scope is further inside the form was bound earlier; it
is not if in front of all such elements another of the form itself was bound, which put a carrier
at the end of the form. -/
theorem event_submit_form (reached : before.Reachable) (fresh : Fresh before)
    (done : (Document.bind callable).runFrom before = (.ok code, after))
    (found : (before.findAll interactive)[number]? = some node)
    (scope : after.eventScope node = some (.form form)) (member : event ∈ code.events)
    (mine : event.mark = mark number) {text : String} {descriptor : Descriptor}
    (read : Descriptor.read text = .ok descriptor) (request : Request) :
    ∃ carrier ∈ after.findAllIn form Carrier.wanted,
      (∀ other ∈ after.findAllIn form Carrier.wanted,
        after.attr? other "id" = some event.carrier ↔ other = carrier) ∧
      (request.submit (carrierFields after form event.carrier text)).event =
        .ok (if (after.findAllIn form Carrier.wanted).getLast? = some carrier
          then some descriptor else none) ∧
      (¬ NestedEarlier before number form →
        (after.findAllIn form Carrier.wanted).getLast? = some carrier) ∧
      (NestedEarlier before number form →
        (∃ first, BelongsTo before first form ∧ ¬ NestedEarlier before first form) →
        (after.findAllIn form Carrier.wanted).getLast? ≠ some carrier) := by
  have wf := reached.wellFormed
  obtain ⟨bound, state, rfl, frame, carriers, belongs, carrier, written⟩ :=
    exists_written wf fresh done found scope member mine
  have wfAfter := frame.wellFormed
  -- all carriers below the form came with the binding, as there were none before
  have new {other : NodeId} (inner : state.doc.Within form other)
      (holds : Carrier.wanted.holds state.doc other = true) : ¬ before.Has other :=
    frame.new_of_holds wf fresh (belongs.inTree wf) inner holds
  have different : carrier ≠ form := fun same => written.new (same ▸ belongs.has)
  have among : carrier ∈ state.doc.findAllIn form Carrier.wanted :=
    (Document.mem_findAllIn wfAfter).mpr
      ⟨⟨written.within, different⟩, carriers.holds written.inside written.new⟩
  have unique : ∀ other ∈ state.doc.findAllIn form Carrier.wanted,
      state.doc.attr? other "id" = some event.carrier ↔ other = carrier := by
    intro other memberOther
    obtain ⟨⟨inner, _⟩, holds⟩ := (Document.mem_findAllIn wfAfter).mp memberOther
    constructor
    · intro named
      exact carriers.distinct (new inner holds) written.new named written.named
    · rintro rfl
      exact written.named
  refine ⟨carrier, among, unique, ?_, ?_, ?_⟩
  · cases ends : (state.doc.findAllIn form Carrier.wanted).getLast? with
    | none =>
        rw [List.getLast?_eq_none_iff.mp ends] at among
        cases among
    | some last =>
        rw [Request.event_submit request (getLast?_carrierFields event.carrier text ends)]
        have named := unique last (List.mem_of_getLast? ends)
        by_cases here : last = carrier
        · rw [if_pos (named.mpr here), if_pos (congrArg some here),
            Descriptor.ofField_of_read read]
        · rw [if_neg fun same => here (named.mp same),
            if_neg fun same => here (Option.some.inj same), Descriptor.ofField_empty]
  · intro flat
    exact carriers.getLast?_eq wf frame written.new (written.parent?_eq wf frame belongs flat)
  · rintro nested ⟨first, belongsFirst, flat⟩
    -- the form has a carrier of its own as well, and that one is its last
    obtain ⟨_, own, _, writtenFirst⟩ := carriers.written belongsFirst.bounded belongsFirst
    have up := writtenFirst.parent?_eq wf frame belongsFirst flat
    rw [carriers.getLast?_eq wf frame writtenFirst.new up]
    intro same
    cases same
    exact written.nested nested up

def crowdedForm : Document := .parse <|
  "<form runat=server><a runat=server onclick='server.x()'></a>" ++
    "<p id=inner updatepanel=true><b runat=server onclick='server.y()'></b></p>" ++
    "<i runat=server onclick='server.z()'></i></form>"

theorem reachable_crowdedForm : crowdedForm.Reachable :=
  .parse _

/-- What is read of the form before and after it is bound. -/
theorem crowdedForm_reads :
    (∀ place : Fin (Forest.size crowdedForm),
      Carrier.wanted.holds crowdedForm ⟨place⟩ = false) ∧
    crowdedForm.findAll interactive = [⟨5⟩, ⟨7⟩, ⟨8⟩] ∧
    crowdedForm.eventScope ⟨5⟩ = some (.form ⟨4⟩) ∧
    crowdedForm.eventScope ⟨7⟩ = some (.panel ⟨6⟩ "inner") ∧
    Forest.parent? crowdedForm ⟨6⟩ = some ⟨4⟩ ∧
    ((Document.bind []).runFrom crowdedForm).1.toOption.map
      (fun code => code.events.map (·.mark)) = some [mark 0, mark 1, mark 2] ∧
    ((Document.bind []).runFrom crowdedForm).2.eventScope ⟨8⟩ = some (.form ⟨4⟩) ∧
    (Descriptor.read (Descriptor.click (mark 2) "z" []).render).isOk = true := by
  decide +kernel

theorem fresh_crowdedForm : Fresh crowdedForm :=
  fresh_of_forall crowdedForm_reads.1

/-- The last click of the form is lost: it writes the carrier of the panel, and the empty one of
the form follows. -/
theorem event_submit_crowdedForm : ∃ code after event descriptor,
    (Document.bind []).runFrom crowdedForm = (.ok code, after) ∧
    event ∈ code.events ∧ event.mark = mark 2 ∧
    Descriptor.read (Descriptor.click (mark 2) "z" []).render = .ok descriptor ∧
    ((Request.bare .post "/").submit (carrierFields after ⟨4⟩ event.carrier
      (Descriptor.click (mark 2) "z" []).render)).event = .ok none := by
  obtain ⟨_, interactive, first, second, up, marks, third, reads⟩ := crowdedForm_reads
  rcases run : (Document.bind []).runFrom crowdedForm with ⟨error | code, after⟩
  · rw [run] at marks
    cases marks
  · cases read : Descriptor.read (Descriptor.click (mark 2) "z" []).render with
    | error fault =>
        rw [read] at reads
        cases reads
    | ok descriptor =>
        rw [run] at marks third
        have all : code.events.map (·.mark) = [mark 0, mark 1, mark 2] := Option.some.inj marks
        have last : mark 2 ∈ code.events.map (·.mark) := by
          rw [all]
          simp
        obtain ⟨event, member, mine⟩ := List.mem_map.mp last
        have form : BelongsTo crowdedForm 0 ⟨4⟩ :=
          ⟨⟨5⟩, .form ⟨4⟩, by rw [interactive]; rfl, first, rfl⟩
        have panel : BelongsTo crowdedForm 1 ⟨6⟩ :=
          ⟨⟨7⟩, .panel ⟨6⟩ "inner", by rw [interactive]; rfl, second, rfl⟩
        have nested : NestedEarlier crowdedForm 2 ⟨4⟩ :=
          ⟨1, by decide, ⟨6⟩, panel, .step up .refl, by decide⟩
        have flat : ¬ NestedEarlier crowdedForm 0 ⟨4⟩ := fun ⟨_, bounded, _⟩ =>
          nomatch bounded
        obtain ⟨carrier, _, _, arrives, _, lost⟩ :=
          event_submit_form reachable_crowdedForm fresh_crowdedForm run
            (by rw [interactive]; rfl) third member mine read (.bare .post "/")
        rw [if_neg (lost nested ⟨0, form, flat⟩)] at arrives
        exact ⟨code, after, event, descriptor, rfl, member, mine, rfl, arrives⟩

end Binding

end ServerPages
