import ServerPages.Proofs.Binding.Progress
import ServerPages.Proofs.Document.Injection

/-!
# Finding bound elements again

The function that the script has for a call of a click writes a descriptor with the mark of
the element, the update panel of its scope, and the method. Marks are given to one element
each, so a search for the mark comes to the element, in the bound document and with the
script added; a search for the panel comes to the scope.
-/

namespace ServerPages

/-- The descriptor that the function of a call writes; its arguments are those of the call as they
come out in the browser. -/
def ClientEvent.descriptor (event : ClientEvent) (args : List Json) : Descriptor where
  event := some "click"
  clicked := some event.mark
  id := event.id
  name := event.name
  updatePanel := event.panel
  exec := some event.call.method
  args := args

/-- The members of that descriptor are those that stand in the script, and the arguments. -/
theorem ClientEvent.members_descriptor (event : ClientEvent) (args : List Json) :
    (event.descriptor args).members = event.template ++ [(Descriptor.argsKey, .arr args)] := by
  obtain ⟨mark, place, id, name, panel, carrier, call⟩ := event
  cases id <;> cases name <;> cases panel <;> rfl

namespace Binding

open Document (root)

variable {before after final : Document} {callable : List String} {code : ClientCode}
  {number place : Nat} {node : NodeId} {call : Click.Call}

/-! ## Functions of calls -/

def callsOf (doc : Document) (node : NodeId) : List Click.Call :=
  Click.calls (Click.pieces ((doc.attr? node "onclick").getD "").toList)

/-- The script has one function for each call of each element. -/
theorem exists_event (wf : before.WellFormed)
    (done : (Document.bind callable).runFrom before = (.ok code, after))
    (found : (before.findAll interactive)[number]? = some node)
    (called : (callsOf before node)[place]? = some call) :
    ∃ event ∈ code.events, event.mark = mark number ∧ event.place = place ∧ event.call = call ∧
      (PanelsNamed before →
        ∃ scope, before.eventScope node = some scope ∧ event.panel = scope.panelId?) ∧
      ∀ other ∈ code.events, other.mark = mark number → other.place = place → other = event := by
  obtain ⟨bound, state, rfl, rfl, frame, progress⟩ :=
    exists_of_bind wf (Progress before) (.start before)
      (fun _ _ _ _ _ _ _ _ round kept => kept.next wf round) done
  obtain ⟨scope, carrier, read, resolved, same, known⟩ := progress.served found
  have reads : callsOf read node = callsOf before node := by
    rw [callsOf, callsOf, same "onclick" (by decide) (fun same => absurd same (by decide))]
  have events : (outcome read node number scope carrier).events =
      (callsOf before node).zipIdx.map
        fun item => clientEvent read node number scope carrier item.2 item.1 := by
    rw [outcome_events, ← reads]
    rfl
  have place? : (callsOf before node).zipIdx[place]? = some (call, place) := by
    rw [List.getElem?_zipIdx, called]
    simp
  refine ⟨clientEvent read node number scope carrier place call, ?_, rfl, rfl, rfl,
    fun panels => ⟨scope, resolved panels, rfl⟩, ?_⟩
  · refine List.mem_flatMap.mpr ⟨_, List.mem_of_getElem? known, ?_⟩
    rw [events]
    exact List.mem_map.mpr ⟨_, List.mem_of_getElem? place?, rfl⟩
  · intro other member mine here
    obtain ⟨_, _, _, _, _, _, _, known', inElement⟩ := progress.exists_of_mem member mine
    rw [Option.some.inj (known'.symm.trans known), events] at inElement
    obtain ⟨⟨otherCall, otherPlace⟩, inCalls, rfl⟩ := List.mem_map.mp inElement
    have samePlace : otherPlace = place := here
    have known := List.mk_mem_zipIdx_iff_getElem?.mp inCalls
    rw [samePlace, called] at known
    cases known
    rw [samePlace]

/-! ## Searches -/

/-- A search comes to the only element that is asked for. -/
theorem find_eq_of_unique {doc : Document} {wanted : Match} (member : node ∈ doc.findAll wanted)
    (unique : ∀ other ∈ doc.findAll wanted, other = node) : doc.find wanted = some node := by
  obtain ⟨below, holds⟩ := List.mem_filter.mp member
  unfold Document.find
  rw [Document.findIn_eq_find?]
  cases found : (doc.descendants root).find? (wanted.holds doc) with
  | none => exact absurd holds (List.find?_eq_none.mp found node below)
  | some other =>
      have among : other ∈ doc.findAll wanted :=
        List.mem_filter.mpr ⟨List.mem_of_find?_eq_some found, List.find?_some found⟩
      rw [unique other among]

def Unmarked (doc : Document) : Prop :=
  ∀ node, doc.attr? node markName = none

instance (doc : Document) : Decidable (Unmarked doc) :=
  decidable_of_iff (∀ place : Fin (Forest.size doc), doc.attr? ⟨place⟩ markName = none) <| by
    constructor
    · intro all node
      refine Option.eq_none_iff_forall_ne_some.mpr fun value known => ?_
      have inside := Document.has_of_attr? known
      cases (all ⟨node.index, inside⟩).symm.trans known
    · exact fun unmarked place => unmarked ⟨place⟩

/-- Bound elements have their number as a mark, and nothing else has one. -/
theorem attr?_markName_iff (wf : before.WellFormed) (unmarked : Unmarked before)
    (done : (Document.bind callable).runFrom before = (.ok code, after)) (other : NodeId)
    (text : String) :
    after.attr? other markName = some text ↔
      ∃ number, (before.findAll interactive)[number]? = some other ∧ text = mark number := by
  obtain ⟨bound, state, rfl, rfl, frame, progress⟩ :=
    exists_of_bind wf (Progress before) (.start before)
      (fun _ _ _ _ _ _ _ _ round kept => kept.next wf round) done
  constructor
  · intro known
    have inside := Document.has_of_attr? known
    by_cases old : before.Has other
    · by_cases member : other ∈ before.findAll interactive
      · obtain ⟨number, here⟩ := List.mem_iff_getElem?.mp member
        exact ⟨number, here, Option.some.inj (known.symm.trans (progress.marked here))⟩
      · rw [frame.attr other markName old (fun bound => absurd bound member)
          (fun same => absurd same (by decide)), unmarked other] at known
        cases known
    · obtain ⟨_, carrier⟩ := frame.added other inside old
      cases (carrier.attr_none (by decide)).symm.trans known
  · rintro ⟨number, here, rfl⟩
    exact progress.marked here

/-- No two elements have the same mark. -/
theorem mark_unique (wf : before.WellFormed) (unmarked : Unmarked before)
    (done : (Document.bind callable).runFrom before = (.ok code, after))
    (found : (before.findAll interactive)[number]? = some node) (other : NodeId) :
    after.attr? other markName = some (mark number) ↔ other = node := by
  rw [attr?_markName_iff wf unmarked done]
  constructor
  · rintro ⟨place, here, same⟩
    obtain rfl := mark_inj same
    exact Option.some.inj (here.symm.trans found)
  · rintro rfl
    exact ⟨number, found, rfl⟩

/-- A search for a mark in the document with its script comes to the element. -/
theorem find_mark (wf : before.WellFormed) (hasRoot : before.Has root)
    (unmarked : Unmarked before)
    (done : (Document.bind callable).runFrom before = (.ok code, after))
    (ext : after.Extends final) (found : (before.findAll interactive)[number]? = some node) :
    final.find (Match.any.eq markName (mark number)) = some node := by
  have marks := mark_unique wf unmarked done found
  have asks :
      (markName, some (mark number)) ∈ (Match.any.eq markName (mark number)).attributes := by
    simp [Match.eq, Match.any]
  obtain ⟨_, _, _, _, frame, _⟩ :=
    exists_of_bind wf (fun _ _ _ => True) trivial (fun _ _ _ _ _ _ _ _ _ _ => trivial) done
  have member := List.mem_of_getElem? found
  have old := has_of_interactive member
  have below := ((Document.mem_findAllIn wf).mp member).1
  rw [ext.find_eq frame.wellFormed (frame.has hasRoot) asks]
  refine find_eq_of_unique ?_ fun other among =>
    (marks other).mp (Document.holds_any_eq_iff.mp (List.mem_filter.mp among).2)
  rw [Document.findAll, Document.mem_findAllIn frame.wellFormed]
  refine ⟨⟨(frame.grown.within_iff wf old).mpr below.1, below.2⟩, ?_⟩
  exact Document.holds_any_eq_iff.mpr ((marks node).mpr rfl)

def PanelsDistinct (doc : Document) : Prop :=
  ∀ first second id, first ∈ doc.findAll .updatePanel → second ∈ doc.findAll .updatePanel →
    doc.attr? first "id" = some id → doc.attr? second "id" = some id → first = second

instance (doc : Document) : Decidable (PanelsDistinct doc) :=
  decidable_of_iff (∀ first ∈ doc.findAll .updatePanel, ∀ second ∈ doc.findAll .updatePanel,
      (doc.attr? first "id").isSome → doc.attr? first "id" = doc.attr? second "id" →
        first = second) <| by
    constructor
    · intro all first second id inFirst inSecond ofFirst ofSecond
      exact all first inFirst second inSecond (by rw [ofFirst]; rfl) (ofFirst.trans ofSecond.symm)
    · intro distinct first inFirst second inSecond named same
      obtain ⟨id, ofFirst⟩ := Option.isSome_iff_exists.mp named
      exact distinct first second id inFirst inSecond ofFirst (same.symm.trans ofFirst)

theorem holds_panel_iff {doc : Document} {id : String} :
    ((Match.any.eq "id" id).eq "updatepanel" "true").holds doc node = true ↔
      doc.attr? node "id" = some id ∧ Match.updatePanel.holds doc node = true := by
  rw [Document.holds_eq_iff, Document.holds_any_eq_iff, updatePanel_holds_iff]

/-- The panel of a scope is the first one of its `id`, where the `id`s of panels are distinct. -/
theorem panelById_of_eventScope {doc : Document} (wf : doc.WellFormed)
    (top : doc.kind? root = some .document) (alone : doc.parent? root = none)
    (below : doc.Within root node) (inside : doc.Has node) (distinct : PanelsDistinct doc)
    {panel : NodeId} {id : String} (found : doc.eventScope node = some (.panel panel id)) :
    doc.panelById id = some panel := by
  have named {id' : String} (known : doc.panelScope id' = some (.panel panel id)) :
      doc.panelById id = some panel := by
    obtain ⟨other, byId, same⟩ := Option.map_eq_some_iff.mp known
    cases same
    exact byId
  have reference {other : NodeId} (known : doc.ownReference other = some (.panel panel id)) :
      doc.panelById id = some panel := by
    obtain ⟨id', _, known⟩ := Option.bind_eq_some_iff.mp known
    exact named known
  have form (known : doc.formScope node = some (.panel panel id)) :
      doc.panelById id = some panel := by
    obtain ⟨_, _, same⟩ := Option.map_eq_some_iff.mp known
    cases same
  unfold Document.eventScope at found
  split at found
  · rename_i nearest above
    split at found
    · rename_i name known
      cases found
      have holds := Document.holds_of_closest above
      have element : panel ≠ root := by
        rintro rfl
        obtain ⟨element, known, _⟩ := Document.exists_element_of_holds holds
        rw [Document.element?_eq_some_iff, top] at known
        cases known
      -- the panel is an element around the node, so that it stands below the document
      have inTree : doc.Within root panel := by
        rcases below.total (Document.within_of_closest wf inside above) with lower | upper
        · exact lower
        · exact absurd (upper.eq_of_parent?_none alone).symm element
      have among {other : NodeId} (member : other ∈ doc.findAll ((Match.any.eq "id" id).eq
          "updatepanel" "true")) :
          other ∈ doc.findAll .updatePanel ∧ doc.attr? other "id" = some id := by
        obtain ⟨place, holds⟩ := List.mem_filter.mp member
        obtain ⟨named, panel⟩ := holds_panel_iff.mp holds
        exact ⟨List.mem_filter.mpr ⟨place, panel⟩, named⟩
      have member : panel ∈ doc.findAll ((Match.any.eq "id" id).eq "updatepanel" "true") :=
        (Document.mem_findAllIn wf).mpr ⟨⟨inTree, element⟩, holds_panel_iff.mpr ⟨known, holds⟩⟩
      refine find_eq_of_unique member fun other others => ?_
      exact distinct other panel id (among others).1 (among member).1 (among others).2
        (among member).2
    · exact form found
  · simp only [Option.orElse_eq_orElse, Option.orElse_eq_or, Option.or_eq_some_iff] at found
    rcases found with own | ⟨_, nearest | ⟨_, found⟩⟩
    · exact reference own
    · obtain ⟨above, _, own⟩ := Option.bind_eq_some_iff.mp nearest
      exact reference own
    · exact form found

end Binding

end ServerPages
