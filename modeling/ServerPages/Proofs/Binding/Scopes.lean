import Mathlib.Data.List.Find
import ServerPages.Proofs.Binding.Frame
import ServerPages.Proofs.Document.Searches

/-!
# Scopes while elements are bound

Scopes are read from attributes that binding leaves alone, all but one: an update panel
that is itself a carrier without an `id` would get one. Where all panels keep what they
have, every element keeps its scope.
-/

namespace ServerPages.Binding

open Document (root)

variable {doc before after : Document} {touched : List NodeId} {node : NodeId}

/-- No update panel would get an `id` as a carrier. -/
def PanelsNamed (doc : Document) : Prop :=
  ∀ panel, doc.InTree panel → Match.updatePanel.holds doc panel = true → ¬ Unnamed doc panel

theorem updatePanel_holds_iff :
    Match.updatePanel.holds doc node = true ↔
      doc.attr? node "updatepanel" = some "true" :=
  Document.holds_any_eq_iff

/-! ## Elements of scopes -/

/-- A scope is found above its element or by the `id` of a panel. -/
theorem eventScope_cases {scope : EventScope} (found : doc.eventScope node = some scope) :
    (∃ wanted, doc.closest node wanted = some scope.node) ∨
      ∃ id, doc.panelById id = some scope.node := by
  have form : doc.formScope node = some scope →
      ∃ wanted, doc.closest node wanted = some scope.node := by
    intro found
    obtain ⟨form, above, rfl⟩ := Option.map_eq_some_iff.mp found
    exact ⟨_, above⟩
  have named : ∀ {other}, doc.ownReference other = some scope →
      ∃ id, doc.panelById id = some scope.node := by
    intro other found
    obtain ⟨id, _, inner⟩ := Option.bind_eq_some_iff.mp found
    obtain ⟨panel, known, rfl⟩ := Option.map_eq_some_iff.mp inner
    exact ⟨id, known⟩
  unfold Document.eventScope at found
  split at found
  · rename_i panel above
    split at found
    · cases found
      exact Or.inl ⟨_, above⟩
    · exact Or.inl (form found)
  · simp only [Option.orElse_eq_orElse, Option.orElse_eq_or, Option.or_eq_some_iff] at found
    rcases found with own | ⟨_, nearest | ⟨_, found⟩⟩
    · exact Or.inr (named own)
    · obtain ⟨above, _, own⟩ := Option.bind_eq_some_iff.mp nearest
      exact Or.inr (named own)
    · exact Or.inl (form found)

/-- Scopes are elements. -/
theorem takesChildren_of_eventScope {scope : EventScope}
    (found : doc.eventScope node = some scope) : doc.takesChildren scope.node = true := by
  rcases eventScope_cases found with ⟨wanted, above⟩ | ⟨id, named⟩
  · exact Document.takesChildren_of_holds (Document.holds_of_closest above)
  · exact Document.takesChildren_of_holds (Document.holds_of_findIn named)

theorem inTree_of_eventScope (wf : doc.WellFormed) {scope : EventScope} (inside : doc.Has node)
    (tree : doc.InTree node) (found : doc.eventScope node = some scope) :
    doc.InTree scope.node := by
  rcases eventScope_cases found with ⟨wanted, above⟩ | ⟨id, named⟩
  · exact tree.up (Document.within_of_closest wf inside above)
  · exact Document.inTree_of_findIn wf named

/-! ## Scopes that stay -/

namespace Frame

variable (wf : before.WellFormed) (frame : Frame touched before after)

include wf frame

theorem closest_eq (inside : before.Has node) {wanted : Match}
    (untouched : ∀ test ∈ wanted.attributes, test.1 ∉ "id" :: touchedNames) :
    after.closest node wanted = before.closest node wanted := by
  unfold Document.closest
  rw [frame.grown.inclusiveAncestors_eq wf inside]
  refine List.find?_congr fun above member => ?_
  have hasAbove := wf.has_top ((wf.mem_inclusiveAncestors inside above).mp member) inside
  refine frame.holds_eq hasAbove (fun _ test asked touches => ?_) fun test asked same => ?_
  · exact untouched test asked (List.mem_cons_of_mem _ touches)
  · exact absurd (same ▸ List.mem_cons_self) (untouched test asked)

theorem panelById_eq (panels : PanelsNamed before) (hasRoot : before.Has root) (id : String) :
    after.panelById id = before.panelById id := by
  unfold Document.panelById Document.find
  rw [Document.findIn_eq_find?, Document.findIn_eq_find?,
    ← frame.grown.descendants_filter wf frame.wellFormed hasRoot, List.find?_filter]
  refine List.find?_congr fun node member => ?_
  rw [Bool.decide_and, Bool.decide_eq_true, Bool.decide_eq_true]
  by_cases old : before.Has node
  · have inner := (wf.mem_descendants.mp
      ((frame.grown.mem_descendants_iff wf frame.wellFormed old).mp member)).1
    have same := frame.attr node "updatepanel" old (fun _ => by decide)
      (fun same => absurd same (by decide))
    rw [decide_eq_true old, Bool.true_and]
    by_cases panel : Match.updatePanel.holds before node = true
    · have keeps := panels node (Document.inTree_of_within_root inner) panel
      refine frame.holds_eq old (fun _ => ?_) fun _ _ _ => keeps
      simp [Match.eq, Match.any, touchedNames, markName]
    · have noneBefore :
          ((Match.any.eq "id" id).eq "updatepanel" "true").holds before node = false := by
        refine Bool.eq_false_iff.mpr fun found => panel ?_
        exact updatePanel_holds_iff.mpr (Document.holds_eq_iff.mp found).2
      have noneAfter :
          ((Match.any.eq "id" id).eq "updatepanel" "true").holds after node = false := by
        refine Bool.eq_false_iff.mpr fun found => panel ?_
        rw [updatePanel_holds_iff, ← same]
        exact (Document.holds_eq_iff.mp found).2
      rw [noneBefore, noneAfter]
  · rw [decide_eq_false old, Bool.false_and]
    refine Bool.eq_false_iff.mpr fun found => ?_
    have inside := Document.has_of_holds found
    obtain ⟨number, carrier⟩ := frame.added node inside old
    have none : after.attr? node "updatepanel" = none := carrier.attr_none (by decide)
    cases none.symm.trans (Document.holds_eq_iff.mp found).2

theorem ownReference_eq (panels : PanelsNamed before) (hasRoot : before.Has root)
    (inside : before.Has node) : after.ownReference node = before.ownReference node := by
  unfold Document.ownReference
  rw [frame.attr node "for" inside (fun _ => by decide) (fun same => absurd same (by decide))]
  refine Option.bind_congr fun id _ => ?_
  unfold Document.panelScope
  rw [frame.panelById_eq wf panels hasRoot]

/-- Elements keep their scopes. -/
theorem eventScope_eq (panels : PanelsNamed before) (hasRoot : before.Has root)
    (inside : before.Has node) (tree : before.InTree node) :
    after.eventScope node = before.eventScope node := by
  have form : after.formScope node = before.formScope node := by
    unfold Document.formScope
    rw [frame.closest_eq wf inside (by decide)]
  have nearest : after.nearestReference node = before.nearestReference node := by
    unfold Document.nearestReference
    rw [frame.closest_eq wf inside (by decide)]
    refine Option.bind_congr fun above found => ?_
    exact frame.ownReference_eq wf panels hasRoot
      (Document.has_of_holds (Document.holds_of_closest found))
  unfold Document.eventScope
  rw [frame.closest_eq wf inside (by decide), form, nearest,
    frame.ownReference_eq wf panels hasRoot inside]
  cases above : before.closest node .updatePanel with
  | none => rfl
  | some panel =>
      have found := Document.holds_of_closest above
      have keeps := panels panel (tree.up (Document.within_of_closest wf inside above)) found
      dsimp only
      rw [frame.attr panel "id" (Document.has_of_holds found) (fun _ => by decide)
        fun _ => keeps]

end Frame

end ServerPages.Binding
