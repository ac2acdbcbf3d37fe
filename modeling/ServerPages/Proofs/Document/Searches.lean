import ServerPages.Document.Edit
import ServerPages.Document.Match
import ServerPages.Proofs.Document.Edits
import ServerPages.Proofs.Forest.Walks

/-!
# What searches find

Searches downwards go through the nodes below a scope, searches upwards through the nodes
that something is within. What stands in one tree with the document itself is in its tree.
-/

namespace ServerPages.Document

variable {doc : Document} {scope node above : NodeId} {wanted : Match}

theorem findIn_eq_find? (doc : Document) (scope : NodeId) (wanted : Match) :
    doc.findIn scope wanted = (doc.descendants scope).find? (wanted.holds doc) :=
  search_eq_find? doc _ _ _

theorem holds_of_findIn (found : doc.findIn scope wanted = some node) :
    wanted.holds doc node = true := by
  rw [findIn_eq_find?] at found
  exact List.find?_some found

theorem within_of_findIn (wf : doc.WellFormed) (found : doc.findIn scope wanted = some node) :
    doc.Within scope node ∧ node ≠ scope := by
  rw [findIn_eq_find?] at found
  exact wf.mem_descendants.mp (List.mem_of_find?_eq_some found)

theorem mem_findAllIn (wf : doc.WellFormed) :
    node ∈ doc.findAllIn scope wanted ↔
      (doc.Within scope node ∧ node ≠ scope) ∧ wanted.holds doc node = true := by
  rw [findAllIn, List.mem_filter, wf.mem_descendants]

/-- A match that one node alone holds finds that node, if it is below the scope. -/
theorem findIn_eq_some_of_alone (wf : doc.WellFormed) (inner : doc.Within scope node)
    (below : node ≠ scope) (holds : wanted.holds doc node = true)
    (alone : ∀ other, wanted.holds doc other = true → other = node) :
    doc.findIn scope wanted = some node := by
  have member := wf.mem_descendants.mpr ⟨inner, below⟩
  rw [findIn_eq_find?]
  cases found : (doc.descendants scope).find? (wanted.holds doc) with
  | none => exact absurd holds (List.find?_eq_none.mp found node member)
  | some other => rw [alone other (List.find?_some found)]

theorem holds_of_closest (found : doc.closest node wanted = some above) :
    wanted.holds doc above = true :=
  List.find?_some found

theorem within_of_closest (wf : doc.WellFormed) (inside : doc.Has node)
    (found : doc.closest node wanted = some above) : doc.Within above node :=
  (wf.mem_inclusiveAncestors inside above).mp (List.mem_of_find?_eq_some found)

theorem has_of_holds (found : wanted.holds doc node = true) : doc.Has node := by
  obtain ⟨element, known, _⟩ := exists_element_of_holds found
  exact has_of_element? known

theorem takesChildren_of_holds (found : wanted.holds doc node = true) :
    doc.takesChildren node = true := by
  obtain ⟨element, known, _⟩ := exists_element_of_holds found
  exact takesChildren_of_element? known

/-! ## The tree of the document -/

def InTree (doc : Document) (node : NodeId) : Prop :=
  ∃ top, doc.Within top root ∧ doc.Within top node

theorem InTree.up (tree : doc.InTree node) (inner : doc.Within above node) :
    doc.InTree above := by
  obtain ⟨top, aboveRoot, aboveNode⟩ := tree
  rcases aboveNode.total inner with lower | upper
  · exact ⟨top, aboveRoot, lower⟩
  · exact ⟨above, upper.trans aboveRoot, .refl⟩

theorem inTree_of_within_root (inner : doc.Within root node) : doc.InTree node :=
  ⟨root, .refl, inner⟩

theorem inTree_of_findIn (wf : doc.WellFormed) (found : doc.findIn root wanted = some node) :
    doc.InTree node :=
  inTree_of_within_root (within_of_findIn wf found).1

theorem inTree_of_mem_findAll (wf : doc.WellFormed) (member : node ∈ doc.findAll wanted) :
    doc.InTree node :=
  inTree_of_within_root ((mem_findAllIn wf).mp member).1.1

end ServerPages.Document
