import ServerPages.Markup.Parser
import ServerPages.Proofs.Document.Shown

/-!
# Trees that were built

What stands at the nodes of a tree under construction is what a document has in the end: names and
attributes are written as their tags gave them, and text is raw below the elements whose contents
are not markup.
-/

namespace ServerPages.Markup

open Forest (GrownAt)
open Subtree (Shape ShownAt ShownAll StartsAt nodesBelow ofText ofTree ofTrees shownAll_append)

def Part.Starts (parent : Option String) (part : Part) : Subtree → Prop
  | .document _ => False
  | .doctype name => part = .doctype name
  | .element data _ => ∃ vocabulary attributes contents,
      part = .element vocabulary data.name attributes contents ∧
        attributes.map (fun item => (item.name.text, item.value)) = data.attributes
  | .text content => part = .text content ∧ ofText parent content = .text content
  | .raw content => part = .text content ∧ ofText parent content = .raw content
  | .comment content => part = .comment content

def Part.contents : Part → Option NodeId
  | .element _ _ _ contents => contents
  | _ => none

def Part.shape : Shape Part where
  starts := Part.Starts
  contents := Part.contents

/-! ## Adding trees -/

/-- Trees were added at the end of the children of a node, below an element of a name, and nothing
else has changed. -/
def Builds (parent : Option String) (place : NodeId) (trees : List Subtree)
    (before after : Forest Part) : Prop :=
  ∃ ids, GrownAt place ids before after ∧
    ShownAll Part.shape after parent before.size ids trees

namespace Builds

variable {parent : Option String} {place : NodeId} {trees others : List Subtree}
  {before middle after : Forest Part}

theorem nil (parent : Option String) (place : NodeId) (forest : Forest Part) :
    Builds parent place [] forest forest :=
  ⟨[], .refl place forest, trivial⟩

theorem append (inside : before.Has place) (first : Builds parent place trees before middle)
    (rest : Builds parent place others middle after) :
    Builds parent place (trees ++ others) before after := by
  obtain ⟨ids, grown, shown⟩ := first
  obtain ⟨more, grownMore, shownMore⟩ := rest
  exact ⟨ids ++ more, grown.trans grownMore,
    shownAll_append (shown.grownAt grownMore inside) (shownMore.weaken grown.size_le)⟩

theorem has (builds : Builds parent place trees before after) {id : NodeId}
    (inside : before.Has id) : after.Has id := by
  obtain ⟨_, grown, _⟩ := builds
  exact grown.has inside

/-- A node is added that nothing stands below. -/
theorem leaf (inside : before.Has place) {part : Part} {tree : Subtree}
    (starts : part.Starts parent tree) (simple : part.contents = none)
    (alone : ∀ {bound : Nat} {id : NodeId},
      (∃ kind, StartsAt Part.shape (before.sprout place part) parent bound id kind tree) →
      ShownAt Part.shape (before.sprout place part) parent bound id tree) :
    Builds parent place [tree] before (before.sprout place part) :=
  ⟨[⟨before.size⟩], Forest.grownAt_sprout _ inside,
    alone ⟨part, Nat.le_refl _, Forest.kind?_sprout_new _ _, starts, by
      rw [show Part.shape.contents part = none from simple]
      exact nofun⟩, trivial⟩

/-- An element is added, and then trees where it keeps what stands in it: below it, or below a node
for its contents. -/
theorem element_of_grownAt (inside : before.Has place) {id spot : NodeId}
    (grown : GrownAt place [id] before middle) (late : before.size ≤ id.index)
    {vocabulary : Vocabulary} {data : Element} {attributes : List Attribute}
    {contents : Option NodeId}
    (known : middle.kind? id = some (.element vocabulary data.name attributes contents))
    (pairs : attributes.map (fun item => (item.name.text, item.value)) = data.attributes)
    (keeps : contents = none ∧ spot = id ∨ contents = some spot ∧ spot ≠ id)
    (lateSpot : before.size ≤ spot.index) (has : middle.Has spot)
    (empty : middle.children id = []) (emptySpot : middle.children spot = [])
    (inner : Builds (some data.name) spot trees middle after) :
    Builds parent place [.element data trees] before after := by
  obtain ⟨ids, more, shown⟩ := inner
  have below : after.children spot = ids := by rw [more.here, emptySpot, List.nil_append]
  have hasId : middle.Has id := Forest.has_of_kind? known
  have nodes : nodesBelow Part.shape after (.element vocabulary data.name attributes contents) id =
      ids := by
    obtain ⟨rfl, rfl⟩ | ⟨rfl, other⟩ := keeps
    · exact below
    · change after.children spot ++ after.children id = ids
      rw [below, more.elsewhere id hasId other.symm, empty, List.append_nil]
  have later : id.index + 1 ≤ middle.size := hasId
  refine ⟨[id], grown.within inside (Nat.not_lt.mpr lateSpot) more, ⟨_, ⟨late,
    (more.kinds id hasId).trans known, ⟨vocabulary, attributes, contents, rfl, pairs⟩, ?_⟩,
    nodes.symm ▸ shown.weaken later⟩, trivial⟩
  intro kept member
  obtain ⟨rfl, rfl⟩ | ⟨rfl, other⟩ := keeps
  · cases member
  · cases member
    exact ⟨lateSpot, more.has has⟩

/-- An element is added, and then trees below it. -/
theorem element (inside : before.Has place) {vocabulary : Vocabulary} {data : Element}
    {attributes : List Attribute}
    (pairs : attributes.map (fun item => (item.name.text, item.value)) = data.attributes)
    (inner : Builds (some data.name) ⟨before.size⟩ trees
      (before.sprout place (.element vocabulary data.name attributes none)) after) :
    Builds parent place [.element data trees] before after :=
  have known := Forest.kind?_sprout_new before (.element vocabulary data.name attributes none)
  have empty := Forest.children_sprout_new _ inside
  element_of_grownAt inside (Forest.grownAt_sprout _ inside) (Nat.le_refl _) known pairs
    (.inl ⟨rfl, rfl⟩) (Nat.le_refl _) (Forest.has_of_kind? known) empty empty inner

end Builds

/-! ## Reading the trees off -/

end ServerPages.Markup
