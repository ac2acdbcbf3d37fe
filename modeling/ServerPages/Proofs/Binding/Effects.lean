import ServerPages.Proofs.Binding.Tables
import ServerPages.Proofs.Document.Altered
import ServerPages.Proofs.Document.ServerMarks

/-!
# What binding changes

Binding adds carriers at the end of scopes and nothing else. Of the elements that were there it
marks those that it binds and takes their click expressions, and it gives an `id` to carriers
that have none. Nothing is left to be bound then, so binding again changes nothing.
-/

namespace ServerPages.Binding

open Document (root)

variable {before after : Document} {behind done : List NodeId} {node : NodeId}
  {element : Element} {state ensured : BindingState} {scope : EventScope} {carrier : String}
  {bound : List BoundElement}

instance (doc : Document) (id : NodeId) : Decidable (Unnamed doc id) :=
  inferInstanceAs (Decidable (_ ∧ _))

/-- No element has two attributes of a name. -/
def DistinctNames (doc : Document) : Prop :=
  ∀ id element, doc.element? id = some element → (element.attributes.map (·.1)).Nodup

instance (doc : Document) : Decidable (DistinctNames doc) :=
  decidable_of_iff (∀ place : Fin (Forest.size doc), ∀ element ∈ doc.element? ⟨place⟩,
      (element.attributes.map (·.1)).Nodup) <| by
    constructor
    · intro all id element known
      exact all ⟨id.index, Document.has_of_element? known⟩ element known
    · exact fun distinct place element known => distinct ⟨place⟩ element known

theorem DistinctNames.once {doc : Document} (distinct : DistinctNames doc) :
    doc.All fun _ => NodeKind.Once := by
  intro id kind known
  cases kind with
  | element element =>
      exact Element.once_of_nodup (distinct id element (Document.element?_eq_some_iff.mpr known))
  | _ => trivial

/-- The attributes that may change at a node when some elements are bound. -/
def changedNames (doc : Document) (bound : List NodeId) (id : NodeId) : List String :=
  (if id ∈ bound then touchedNames else []) ++ if Unnamed doc id then ["id"] else []

theorem mem_changedNames_of_touched {doc : Document} {name : String} (member : node ∈ done)
    (touched : name ∈ touchedNames) : name ∈ changedNames doc done node := by
  rw [changedNames, if_pos member]
  exact List.mem_append_left _ touched

theorem mem_changedNames_of_unnamed {doc : Document} (unnamed : Unnamed doc node) :
    "id" ∈ changedNames doc done node := by
  rw [changedNames, if_pos unnamed]
  exact List.mem_append_right _ List.mem_cons_self

theorem changedNames_mono {doc next : Document} {more : List NodeId} (all : done ⊆ more)
    (unnamed : Unnamed doc node → Unnamed next node) :
    changedNames doc done node ⊆ changedNames next more node := by
  intro name member
  rcases List.mem_append.mp member with touched | named
  · split at touched
    · rename_i bound
      exact mem_changedNames_of_touched (all bound) touched
    · cases touched
  · split at named
    · rename_i here
      rw [List.mem_singleton.mp named]
      exact mem_changedNames_of_unnamed (unnamed here)
    · cases named

theorem changedNames_eq_nil {doc : Document} (untouched : node ∉ done)
    (named : ¬ Unnamed doc node) : changedNames doc done node = [] := by
  rw [changedNames, if_neg untouched, if_neg named]
  rfl

theorem altered_unclicked {names : NodeId → List String} (doc : Document)
    (touched : touchedNames ⊆ names node) : Document.AlteredIn names doc (unclicked doc node) :=
  .trans (.removeAttr doc (touched (by decide))) (.removeAttr _ (touched (by decide)))

/-- An element that was there before has its scope at one that was there, too. -/
theorem Frame.has_scope {touched : List NodeId} (wf : before.WellFormed)
    (frame : Frame touched before after) (inside : before.Has node)
    (found : after.eventScope node = some scope) : before.Has scope.node := by
  rcases eventScope_cases found with ⟨wanted, above⟩ | ⟨id, named⟩
  · have within := Document.within_of_closest frame.wellFormed (frame.has inside) above
    exact wf.has_top ((frame.grown.within_iff wf inside).mp within) inside
  · by_contra new
    have holds := Document.holds_of_findIn named
    have panel : after.attr? scope.node "updatepanel" = some "true" :=
      (Document.holds_eq_iff.mp holds).2
    obtain ⟨number, carrier⟩ := frame.added _ (Document.has_of_holds holds) new
    cases (carrier.attr_none (by decide)).symm.trans panel

theorem attr?_id_withCarrier (doc : Document) (scope : NodeId) (number : Nat) (other : NodeId) :
    Document.attr? (withCarrier doc scope number) other "id" =
      if other = ⟨Forest.size doc⟩ then some (Carrier.newId number)
      else doc.attr? other "id" := by
  split
  · rename_i here
    rw [here]
    exact (isCarrier_withCarrier doc scope number).attr_id
  · rename_i different
    by_cases old : doc.Has other
    · exact Document.attr?_congr (Document.kind?_addLast _ _ old) _
    · have new : ¬ Forest.Has (withCarrier doc scope number) other := fun inside =>
        (has_withCarrier inside).elim old different
      exact (Document.attr?_eq_none new _).trans (Document.attr?_eq_none old _).symm

/-- The next `id` is given to a carrier that has none, or none is given. -/
theorem Ensures.id_cases {next : BindingState} {target : NodeId} {id : String}
    (ensures : Ensures target state id next) (wf : state.doc.WellFormed) :
    (next.carriers = state.carriers ∧ ∀ other : NodeId,
      next.doc.attr? other "id" = state.doc.attr? other "id") ∨
    next.carriers = state.carriers + 1 ∧ ∃ holder : NodeId,
      state.doc.attr? holder "id" = none ∧ Carrier.wanted.holds next.doc holder = true ∧
      ∀ other : NodeId, next.doc.attr? other "id" =
        if other = holder then some (Carrier.newId state.carriers)
        else state.doc.attr? other "id" := by
  cases ensures with
  | known => exact Or.inl ⟨rfl, fun _ => rfl⟩
  | @named holder element found unnamed known =>
      have holds := Document.holds_of_findIn found
      have names := (Frame.refl wf).name ⟨holds, unnamed⟩ known (Carrier.newId state.carriers)
      refine Or.inr ⟨rfl, holder, unnamed, ?_, fun other => ?_⟩
      · exact (names.holds_wanted (Document.has_of_holds holds)).trans holds
      · rw [Document.attr?_setKind_setAttr known]
        simp only [and_true]
  | added =>
      exact Or.inr ⟨rfl, ⟨Forest.size state.doc⟩,
        Document.attr?_eq_none (Document.not_has_size state.doc) _,
        (isCarrier_withCarrier state.doc target state.carriers).holds_wanted,
        attr?_id_withCarrier state.doc target state.carriers⟩

/-! ## One round -/

namespace Round

variable (round : Round before behind node state element scope carrier ensured)

include round

theorem unnamed_of_marked {id : NodeId}
    (unnamed : Unnamed (marked state.doc node element behind.length) id) :
    Unnamed state.doc id := by
  refine round.marks.unnamed ?_ unnamed
  have inside := Document.has_of_holds unnamed.1
  rwa [marked, Forest.Has, Forest.size_setKind] at inside

theorem altered :
    Document.AlteredIn (changedNames state.doc [node]) state.doc (unclicked ensured.doc node) := by
  have touched {name : String} (member : name ∈ touchedNames) :
      name ∈ changedNames state.doc [node] node :=
    mem_changedNames_of_touched List.mem_cons_self member
  have marks : Document.AlteredIn (changedNames state.doc [node]) state.doc
      (marked state.doc node element behind.length) :=
    .setElement round.known (.setAttr element (touched (by decide)) _)
  have ensures : Document.AlteredIn (changedNames state.doc [node])
      (marked state.doc node element behind.length) ensured.doc := by
    cases round.ensures with
    | known => exact .refl _ _
    | @named carrier element found unnamed known =>
        have member : "id" ∈ changedNames state.doc [node] carrier :=
          mem_changedNames_of_unnamed
            (round.unnamed_of_marked ⟨Document.holds_of_findIn found, unnamed⟩)
        exact .setElement known (.setAttr element member _)
    | added => exact .addLast _ _ _ _
  exact (marks.trans ensures).trans (altered_unclicked ensured.doc fun _ => touched)

theorem once_ensured (once : state.doc.All fun _ => NodeKind.Once) :
    ensured.doc.All fun _ => NodeKind.Once := by
  have marks : (marked state.doc node element behind.length).All fun _ => NodeKind.Once :=
    Forest.All.setKind once node
      (Element.Once.setAttr (once node _ (Document.element?_eq_some_iff.mp round.known)) _ _)
  cases round.ensures with
  | known => exact marks
  | named _ _ known =>
      exact Forest.All.setKind marks _
        (Element.Once.setAttr (marks _ _ (Document.element?_eq_some_iff.mp known)) _ _)
  | added =>
      have distinct : Element.Once (Carrier.element (Carrier.newId state.carriers)) :=
        Element.once_of_nodup (show ["type", "name", "id"].Nodup by decide)
      exact Document.All.addLast marks _ distinct

theorem once (all : state.doc.All fun _ => NodeKind.Once) :
    (unclicked ensured.doc node).All fun _ => NodeKind.Once :=
  Document.ofElements_once.removeAttr
    (Document.ofElements_once.removeAttr (round.once_ensured all) _ _) _ _

theorem cleared (once : state.doc.All fun _ => NodeKind.Once) {name : String}
    (taken : name ∈ ["onclick", "postclick"]) :
    (unclicked ensured.doc node).attr? node name = none := by
  have unadjusted : ∀ name ∈ ["onclick", "postclick"], Markup.Unadjusted name := by decide
  have shape : unclicked ensured.doc node =
      ensured.doc.without (["onclick", "postclick"].map fun name => (node, name)) := rfl
  have member : (node, name) ∈ ["onclick", "postclick"].map fun name => (node, name) :=
    List.mem_map_of_mem taken
  rw [shape]
  exact Document.attr?_without_of_mem (round.once_ensured once) (unadjusted name taken) member

/-- A round gives the next `id` to a carrier that has none, or it gives none. -/
theorem id_cases :
    (ensured.carriers = state.carriers ∧ ∀ other : NodeId,
      (unclicked ensured.doc node).attr? other "id" = state.doc.attr? other "id") ∨
    ensured.carriers = state.carriers + 1 ∧ ∃ holder : NodeId,
      state.doc.attr? holder "id" = none ∧
      Carrier.wanted.holds (unclicked ensured.doc node) holder = true ∧ ∀ other : NodeId,
        (unclicked ensured.doc node).attr? other "id" =
          if other = holder then some (Carrier.newId state.carriers)
          else state.doc.attr? other "id" := by
  have marks (other : NodeId) : (marked state.doc node element behind.length).attr? other "id" =
      state.doc.attr? other "id" := by
    rw [attr?_marked round.known, if_neg fun same => absurd same.2 (by decide)]
  have takes (other : NodeId) : (unclicked ensured.doc node).attr? other "id" =
      ensured.doc.attr? other "id" := attr?_unclicked _ _ _ (by decide) (by decide)
  rcases round.ensures.id_cases round.frame_marked.wellFormed with
    ⟨same, kept⟩ | ⟨next, holder, none, holds, given⟩
  · refine Or.inl ⟨same, fun other => ?_⟩
    rw [takes, kept, marks]
  · refine Or.inr ⟨next, holder, (marks holder).symm.trans none, ?_, fun other => ?_⟩
    · exact (round.takes.holds_wanted (Document.has_of_holds holds)).trans holds
    · rw [takes, given, marks]

/-- What is new after a round is a carrier at the scope of its element. -/
theorem has_cases {other : NodeId} (inside : (unclicked ensured.doc node).Has other) :
    state.doc.Has other ∨
      (unclicked ensured.doc node).parent? other = some scope.node ∧
      (unclicked ensured.doc node).element? other =
        some (Carrier.element (Carrier.newId state.carriers)) := by
  have size : Forest.size (marked state.doc node element behind.length) =
      Forest.size state.doc := Forest.size_setKind _ _ _
  have back (earlier : (marked state.doc node element behind.length).Has other) :
      state.doc.Has other := by
    rwa [Forest.Has, size] at earlier
  rw [unclicked, Forest.Has, Document.size_removeAttr, Document.size_removeAttr] at inside
  cases round.ensures with
  | known => exact Or.inl (back inside)
  | named =>
      rw [Forest.size_setKind] at inside
      exact Or.inl (back inside)
  | added =>
      rcases has_withCarrier inside with earlier | rfl
      · exact Or.inl (back earlier)
      · refine Or.inr ⟨?_, ?_⟩
        · rw [unclicked, Document.parent?_removeAttr, Document.parent?_removeAttr]
          exact parent?_withCarrier _ _ _
        · have known := Document.element?_eq_some_iff.mpr (Document.kind?_addLast_new
            (marked state.doc node element behind.length) scope.node
            (.element (Carrier.element (Carrier.newId state.carriers))))
          have apart : (⟨Forest.size (marked state.doc node element behind.length)⟩ : NodeId) ≠
              node := by
            rintro same
            have old := round.frame.has round.old
            rw [← same, Forest.Has, size] at old
            exact Nat.lt_irrefl _ old
          have takes : Document.AlteredIn (fun id => if id = node then touchedNames else [])
              (withCarrier (marked state.doc node element behind.length) scope.node state.carriers)
              (unclicked _ node) :=
            altered_unclicked _ (by rw [if_pos rfl]; exact List.Subset.refl _)
          exact takes.element?_eq (if_neg apart) known

end Round

/-! ## Rounds -/

structure Changed (before : Document) (done : List NodeId) (state : BindingState) : Prop where
  altered : Document.AlteredIn (changedNames before done) before state.doc
  once : state.doc.All fun _ => NodeKind.Once
  cleared {node : NodeId} (member : node ∈ done) {name : String}
    (taken : name ∈ ["onclick", "postclick"]) : state.doc.attr? node name = none
  named {node : NodeId} (unnamed : Unnamed before node) :
    state.doc.attr? node "id" = none ∨
      ∃ count, state.doc.attr? node "id" = some (Carrier.newId count)
  added {node : NodeId} (inside : state.doc.Has node) (new : ¬ before.Has node) :
    ∃ number target scope count, done[number]? = some target ∧
      (partlyBound before number).eventScope target = some scope ∧ before.Has scope.node ∧
      state.doc.parent? node = some scope.node ∧
      state.doc.element? node = some (Carrier.element (Carrier.newId count))

theorem Changed.start (once : before.All fun _ => NodeKind.Once) :
    Changed before [] ⟨before, 0⟩ where
  altered := .refl _ _
  once := once
  cleared member := nomatch member
  named unnamed := Or.inl unnamed.2
  added inside new := absurd inside new

theorem Changed.next (wf : before.WellFormed)
    (round : Round before done node state element scope carrier ensured)
    (run : (bindEach done).runFrom ⟨before, 0⟩ = (.ok bound, state))
    (changed : Changed before done state) :
    Changed before (done ++ [node]) ⟨unclicked ensured.doc node, ensured.carriers⟩ where
  altered := by
    refine .trans (changed.altered.mono fun id _ => ?_) (round.altered.mono fun id inside => ?_)
    · exact changedNames_mono (List.subset_append_left _ _) fun unnamed => unnamed
    · refine changedNames_mono (List.subset_append_right _ _) fun unnamed => ?_
      by_cases old : before.Has id
      · exact round.frame.unnamed old unnamed
      · obtain ⟨number, carrier⟩ := round.frame.added id inside old
        exact nomatch unnamed.2.symm.trans carrier.attr_id
  once := round.once changed.once
  cleared := by
    intro other member name taken
    rcases List.mem_append.mp member with earlier | last
    · have different : other ∉ [node] := by
        rw [List.mem_singleton]
        rintro rfl
        exact round.not_mem_behind wf earlier
      -- what a later round may still do to the element is to name it as a carrier
      have apart : name ≠ "id" := by
        rintro rfl
        exact absurd taken (by decide)
      rw [round.turn.attr other name (round.frame.has (round.has_of_mem earlier))
        (fun member => absurd member different) (fun same => absurd same apart)]
      exact changed.cleared earlier taken
    · rw [List.mem_singleton.mp last]
      exact round.cleared changed.once taken
  named := by
    intro other unnamed
    have earlier := changed.named unnamed
    dsimp only
    rcases round.id_cases with ⟨_, same⟩ | ⟨_, holder, _, _, same⟩
    · rwa [same]
    · rw [same]
      split
      · exact Or.inr ⟨_, rfl⟩
      · exact earlier
  added := by
    intro other inside new
    rcases round.has_cases inside with earlier | ⟨up, known⟩
    · obtain ⟨number, target, scope, count, reached, found, old, up, known⟩ :=
        changed.added earlier new
      have different : other ∉ [node] := by
        rw [List.mem_singleton]
        rintro rfl
        exact new round.old
      -- a carrier of an earlier round has its `id` by now, so that this one leaves it as it is
      have named : ¬ Unnamed state.doc other := by
        intro unnamed
        have none := unnamed.2
        rw [Document.attr?, known] at none
        cases none
      refine ⟨number, target, scope, count, ?_, found, old, ?_, ?_⟩
      · rw [List.getElem?_append_left (List.getElem?_eq_some_iff.mp reached).1]
        exact reached
      · exact (round.turn.grown.parents other earlier).trans up
      · exact round.altered.element?_eq (changedNames_eq_nil different named) known
    · refine ⟨done.length, node, scope, state.carriers, List.getElem?_concat_length, ?_, ?_, up,
        known⟩
      · exact round.eventScope_partlyBound run
      · exact round.frame_marked.has_scope wf round.old round.found

/-! ## All rounds -/

structure Effects (before after : Document) : Prop where
  parents {node : NodeId} (old : before.Has node) : after.parent? node = before.parent? node
  children (node : NodeId) : ∃ added, after.children node = before.children node ++ added ∧
    ∀ child ∈ added, ¬ before.Has child
  /-- New nodes are carriers of the scopes that elements have when they are bound. -/
  added {node : NodeId} (inside : after.Has node) (new : ¬ before.Has node) :
    ∃ number target scope count, (before.findAll interactive)[number]? = some target ∧
      (partlyBound before number).eventScope target = some scope ∧ before.Has scope.node ∧
      after.parent? node = some scope.node ∧
      after.element? node = some (Carrier.element (Carrier.newId count))
  altered : before.AlteredIn (changedNames before (before.findAll interactive)) after
  marked {number : Nat} {node : NodeId}
    (found : (before.findAll interactive)[number]? = some node) :
    after.attr? node markName = some (mark number) ∧ after.attr? node "onclick" = none ∧
      after.attr? node "postclick" = none
  named {node : NodeId} (unnamed : Unnamed before node) : after.attr? node "id" = none ∨
    ∃ count, after.attr? node "id" = some (Carrier.newId count)
  unbound {node : NodeId} (inside : after.Within root node) :
    interactive.holds after node = false
  again (callable : List String) : (Document.bind callable).runFrom after =
    (.ok ⟨tableOf id callable, [], []⟩, after)

theorem exists_onclick_of_holds {doc : Document} (holds : interactive.holds doc node = true) :
    ∃ expression, doc.attr? node "onclick" = some expression := by
  obtain ⟨element, known, accepted⟩ := Document.exists_element_of_holds holds
  have met : Match.meets element ("onclick", none) = true :=
    List.all_eq_true.mp (Bool.and_eq_true_iff.mp accepted).2 _ List.mem_cons_self
  rw [Document.attr?, known, Option.bind_some]
  cases read : element.attr? "onclick" with
  | none =>
      rw [Match.meets, read] at met
      cases met
  | some expression => exact ⟨expression, rfl⟩

/-- What can be read of the script of a binding was made by one that ended well. -/
theorem exists_code_of_reads {α : Type} {doc : Document} {callable : List String}
    {read : ClientCode → α} {value : α}
    (reads : ((Document.bind callable).runFrom doc).1.toOption.map read = some value) :
    ∃ code, (Document.bind callable).runFrom doc =
      (.ok code, ((Document.bind callable).runFrom doc).2) ∧ read code = value := by
  rcases run : (Document.bind callable).runFrom doc with ⟨error | code, after⟩
  · rw [run] at reads
    cases reads
  · rw [run] at reads
    exact ⟨code, rfl, Option.some.inj reads⟩

/-- A document without an element to bind is left as it is. -/
theorem runFrom_bind_of_unbound {doc : Document} (unbound : doc.findAll interactive = [])
    (callable : List String) :
    (Document.bind callable).runFrom doc = (.ok ⟨tableOf id callable, [], []⟩, doc) := by
  unfold Document.bind bindAll
  rw [Procedure.within, Procedure.runFrom_ofRun,
    Procedure.runFrom_bind_ok (Procedure.runFrom_get _)]
  dsimp only
  rw [unbound]
  have stubs : stubbed callable [] = tableOf id callable := by
    rw [stubbed, List.map_nil, List.append_nil]
  rw [← stubs]
  rfl

/-- What all rounds together have changed. -/
theorem exists_changed_of_bind {callable : List String} {code : ClientCode}
    (wf : before.WellFormed) (once : before.All fun _ => NodeKind.Once)
    (done : (Document.bind callable).runFrom before = (.ok code, after)) :
    ∃ bound state, code = assemble callable bound ∧ after = state.doc ∧
      Frame (before.findAll interactive) before after ∧
      Progress before (before.findAll interactive) state bound ∧
      Changed before (before.findAll interactive) state := by
  obtain ⟨bound, state, code, after, frame, progress, _, changed⟩ :=
    exists_of_bind wf
      (fun done state bound => Progress before done state bound ∧ Tabled before done state bound ∧
        Changed before done state)
      ⟨.start before, .start before, .start once⟩
      (fun _ _ _ _ _ _ _ _ round kept => ⟨kept.1.next wf round, kept.2.1.next wf round,
        kept.2.2.next wf round kept.2.1.run⟩) done
  exact ⟨bound, state, code, after, frame, progress, changed⟩

theorem effects_of_bind {callable : List String} {code : ClientCode} (reached : before.Reachable)
    (distinct : DistinctNames before)
    (done : (Document.bind callable).runFrom before = (.ok code, after)) :
    Effects before after := by
  have wf := reached.wellFormed
  obtain ⟨bound, state, rfl, rfl, frame, progress, changed⟩ :=
    exists_changed_of_bind wf distinct.once done
  have cleared {node : NodeId} (member : node ∈ before.findAll interactive) {name : String}
      (taken : name ∈ ["onclick", "postclick"]) : state.doc.attr? node name = none :=
    changed.cleared member taken
  have unbound {node : NodeId} (inside : state.doc.Within root node) :
      interactive.holds state.doc node = false := by
    refine Bool.eq_false_iff.mpr fun holds => ?_
    obtain ⟨expression, read⟩ := exists_onclick_of_holds holds
    by_cases old : before.Has node
    · by_cases member : node ∈ before.findAll interactive
      · cases (cleared member (by decide)).symm.trans read
      · have held : interactive.holds before node = true := by
          rw [← frame.holds_eq old (fun bound => absurd bound member)]
          · exact holds
          · simp [interactive, Match.has, Match.eq, Match.any]
        have below : node ≠ root := by
          rintro rfl
          obtain ⟨element, known, _⟩ := Document.exists_element_of_holds held
          rw [Document.element?_eq_some_iff, (reached.rooted.top root).mpr rfl] at known
          cases known
        refine member ((Document.mem_findAllIn wf).mpr ⟨⟨?_, below⟩, held⟩)
        exact (frame.grown.within_iff wf old).mp inside
    · obtain ⟨number, carrier⟩ := frame.added node (Document.has_of_holds holds) old
      cases (carrier.attr_none (by decide)).symm.trans read
  have nothing : state.doc.findAll interactive = [] := by
    rw [Document.findAll, Document.findAllIn, List.filter_eq_nil_iff]
    intro node member
    rw [unbound (frame.wellFormed.mem_descendants.mp member).1]
    exact Bool.false_ne_true
  refine ⟨fun old => frame.grown.parents _ old, frame.exists_appended wf, changed.added,
    changed.altered, fun found => ?_, changed.named, unbound, runFrom_bind_of_unbound nothing⟩
  have member := List.mem_of_getElem? found
  exact ⟨progress.marked found, cleared member (by decide), cleared member (by decide)⟩

end ServerPages.Binding
