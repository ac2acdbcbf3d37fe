import ServerPages.Proofs.Forest.Links

/-!
# Forests that grow at one place

Reading markup adds nodes in order: each becomes the last child of a node, and nothing else changes
among the nodes that were there before. What is added below a new node counts as growth at the place
of that node.
-/

namespace ServerPages.Forest

variable {κ : Type} {before middle after : Forest κ} {place id : NodeId} {ids more : List NodeId}

theorem ne_of_not_has {forest : Forest κ} {old new : NodeId} (inside : forest.Has old)
    (outside : ¬ forest.Has new) : old ≠ new := by
  rintro rfl
  exact outside inside

/-- The second forest has the nodes of the first as they were, but for new children at the end of
those of one node. -/
structure GrownAt (place : NodeId) (ids : List NodeId) (before after : Forest κ) : Prop where
  size_le : before.size ≤ after.size
  kinds (id : NodeId) (inside : before.Has id) : after.kind? id = before.kind? id
  here : after.children place = before.children place ++ ids
  elsewhere (id : NodeId) (inside : before.Has id) (other : id ≠ place) :
    after.children id = before.children id

namespace GrownAt

theorem refl (place : NodeId) (forest : Forest κ) : GrownAt place [] forest forest where
  size_le := Nat.le_refl _
  kinds _ _ := rfl
  here := (List.append_nil _).symm
  elsewhere _ _ _ := rfl

theorem has (grown : GrownAt place ids before after) (inside : before.Has id) : after.Has id :=
  Nat.lt_of_lt_of_le inside grown.size_le

theorem trans (first : GrownAt place ids before middle) (second : GrownAt place more middle after) :
    GrownAt place (ids ++ more) before after where
  size_le := Nat.le_trans first.size_le second.size_le
  kinds id inside := (second.kinds id (first.has inside)).trans (first.kinds id inside)
  here := by rw [second.here, first.here, List.append_assoc]
  elsewhere id inside other :=
    (second.elsewhere id (first.has inside) other).trans (first.elsewhere id inside other)

/-- What grows below a new node adds nothing else to the place that the node was added at. -/
theorem within (first : GrownAt place ids before middle) (inside : before.Has place)
    (new : ¬ before.Has id) (second : GrownAt id more middle after) :
    GrownAt place ids before after where
  size_le := Nat.le_trans first.size_le second.size_le
  kinds other old := (second.kinds other (first.has old)).trans (first.kinds other old)
  here := by
    rw [second.elsewhere place (first.has inside) (ne_of_not_has inside new), first.here]
  elsewhere other old apart := by
    rw [second.elsewhere other (first.has old) (ne_of_not_has old new),
      first.elsewhere other old apart]

/-- A new node may become something else. -/
theorem setKind (grown : GrownAt place ids before after) (new : ¬ before.Has id) (kind : κ) :
    GrownAt place ids before (after.setKind id kind) where
  size_le := by
    rw [size_setKind]
    exact grown.size_le
  kinds other inside := by
    rw [kind?_setKind_of_ne after (ne_of_not_has inside new), grown.kinds other inside]
  here := by rw [children_setKind, grown.here]
  elsewhere other inside apart := by rw [children_setKind, grown.elsewhere other inside apart]

end GrownAt

/-- A detached node is new, and nothing else. -/
theorem grownAt_create (place : NodeId) (forest : Forest κ) (kind : κ) :
    GrownAt place [] forest (forest.create kind).2 where
  size_le := by
    rw [size_create]
    exact Nat.le_succ _
  kinds _ inside := kind?_create_of_has inside kind
  here := by rw [children_create, List.append_nil]
  elsewhere id _ _ := children_create forest kind id

theorem children_of_not_has {forest : Forest κ} (absent : ¬ forest.Has id) :
    forest.children id = [] := by
  have nothing : forest.node? id = none := Array.getElem?_eq_none (Nat.not_lt.mp absent)
  rw [children_eq, nothing]
  rfl

def sprout (forest : Forest κ) (place : NodeId) (kind : κ) : Forest κ :=
  (forest.create kind).2.attachLast place ⟨forest.size⟩

section

variable (forest : Forest κ) (kind : κ)

@[simp] theorem size_sprout : (forest.sprout place kind).size = forest.size + 1 := by
  rw [sprout, size_attachLast, size_create]

theorem not_has_size : ¬ forest.Has ⟨forest.size⟩ :=
  Nat.lt_irrefl _

theorem kind?_sprout_new : (forest.sprout place kind).kind? ⟨forest.size⟩ = some kind := by
  rw [sprout, kind?_attachLast, kind?_create_new]

variable {forest}

theorem children_sprout (inside : forest.Has place) (id : NodeId) :
    (forest.sprout place kind).children id =
      if place = id then forest.children id ++ [⟨forest.size⟩] else forest.children id := by
  have still : (forest.create kind).2.Has place := by
    rw [Has, size_create]
    exact Nat.lt_succ_of_lt inside
  rw [sprout, children_attachLast still, children_create]

theorem children_sprout_new (inside : forest.Has place) :
    (forest.sprout place kind).children ⟨forest.size⟩ = [] := by
  rw [children_sprout kind inside, if_neg (ne_of_not_has inside (not_has_size forest)),
    children_of_not_has (not_has_size forest)]

theorem grownAt_sprout (inside : forest.Has place) :
    GrownAt place [⟨forest.size⟩] forest (forest.sprout place kind) where
  size_le := by
    rw [size_sprout]
    exact Nat.le_succ _
  kinds id old := by rw [sprout, kind?_attachLast, kind?_create_of_has old]
  here := by rw [children_sprout kind inside, if_pos rfl]
  elsewhere id old apart := by rw [children_sprout kind inside, if_neg apart.symm]

end

end ServerPages.Forest
