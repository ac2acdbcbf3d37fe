import ServerPages.Proofs.Forest.Links

/-!
# Forests that differ in kinds alone

Two forests are alike if they have the same nodes with the same links and their kinds are
related. Walks through both are the same, and changes that respect the relation of kinds
keep them alike.
-/

namespace ServerPages.Forest

variable {κ : Type} {related : κ → κ → Prop} {first second third : Forest κ}

structure Node.Alike (related : κ → κ → Prop) (first second : Node κ) : Prop where
  kind : related first.kind second.kind
  parent : first.parent = second.parent
  children : first.children = second.children

/-- Forests with the same links and kinds that are related. -/
structure Alike (related : κ → κ → Prop) (first second : Forest κ) : Prop where
  size : first.size = second.size
  nodes (id : NodeId) : Option.Rel (Node.Alike related) (first.node? id) (second.node? id)

section

variable {α β : Type} {relation : α → α → Prop} {left right last : Option α}

theorem rel_refl (reflexive : ∀ value, relation value value) (value : Option α) :
    Option.Rel relation value value := by
  cases value with
  | none => exact .none
  | some value => exact .some (reflexive value)

theorem rel_symm (symmetric : ∀ {first second}, relation first second → relation second first)
    (both : Option.Rel relation left right) : Option.Rel relation right left := by
  cases both with
  | none => exact .none
  | some same => exact .some (symmetric same)

theorem rel_trans
    (transitive : ∀ {first second third}, relation first second → relation second third →
      relation first third)
    (start : Option.Rel relation left right) (finish : Option.Rel relation right last) :
    Option.Rel relation left last := by
  cases start with
  | none =>
      cases finish
      exact .none
  | some same =>
      cases finish with
      | some next => exact .some (transitive same next)

theorem rel_imp {wider : α → α → Prop}
    (weaken : ∀ {first second}, relation first second → wider first second)
    (both : Option.Rel relation left right) : Option.Rel wider left right := by
  cases both with
  | none => exact .none
  | some same => exact .some (weaken same)

theorem rel_map {change other : α → β} {image : β → β → Prop}
    (both : Option.Rel relation left right)
    (respects : ∀ {first second}, relation first second → image (change first) (other second)) :
    Option.Rel image (left.map change) (right.map other) := by
  cases both with
  | none => exact .none
  | some same => exact .some (respects same)

/-- A function that does not tell related values apart. -/
theorem eq_of_rel (read : Option α → β) (both : Option.Rel relation left right)
    (respects : ∀ {first second}, relation first second →
      read (some first) = read (some second)) : read left = read right := by
  cases both with
  | none => rfl
  | some same => exact respects same

end

namespace Alike

theorem refl (reflexive : ∀ kind, related kind kind) (forest : Forest κ) :
    Alike related forest forest :=
  ⟨rfl, fun id => rel_refl (fun _ => ⟨reflexive _, rfl, rfl⟩) (forest.node? id)⟩

theorem symm (symmetric : ∀ {left right}, related left right → related right left)
    (alike : Alike related first second) : Alike related second first :=
  ⟨alike.size.symm, fun id => rel_symm
    (fun same => ⟨symmetric same.kind, same.parent.symm, same.children.symm⟩) (alike.nodes id)⟩

theorem trans
    (transitive : ∀ {left middle right}, related left middle → related middle right →
      related left right)
    (start : Alike related first second) (finish : Alike related second third) :
    Alike related first third :=
  ⟨start.size.trans finish.size, fun id => rel_trans
    (fun left right => ⟨transitive left.kind right.kind, left.parent.trans right.parent,
      left.children.trans right.children⟩) (start.nodes id) (finish.nodes id)⟩

theorem imp {wider : κ → κ → Prop}
    (weaken : ∀ {left right}, related left right → wider left right)
    (alike : Alike related first second) : Alike wider first second :=
  ⟨alike.size, fun id => rel_imp
    (fun same => ⟨weaken same.kind, same.parent, same.children⟩) (alike.nodes id)⟩

/-! ## Links and walks -/

section

variable (alike : Alike related first second)

include alike

theorem parent?_eq (id : NodeId) : first.parent? id = second.parent? id :=
  eq_of_rel (fun node => node.bind Node.parent) (alike.nodes id) fun same => same.parent

theorem children_eq (id : NodeId) : first.children id = second.children id := by
  rw [Forest.children_eq, Forest.children_eq]
  exact eq_of_rel (fun node => (node.map Node.children).getD []) (alike.nodes id)
    fun same => same.children

theorem rel_kind? (id : NodeId) : Option.Rel related (first.kind? id) (second.kind? id) :=
  rel_map (alike.nodes id) fun same => same.kind

theorem inclusiveAncestors_eq (id : NodeId) :
    first.inclusiveAncestors id = second.inclusiveAncestors id := by
  unfold inclusiveAncestors
  rw [alike.size]
  generalize second.size = steps
  induction steps generalizing id with
  | zero => rfl
  | succ steps ih =>
      rw [chain, chain, alike.parent?_eq]
      cases second.parent? id with
      | none => rfl
      | some parent => exact congrArg (id :: ·) (ih parent)

theorem descendants_eq (id : NodeId) : first.descendants id = second.descendants id := by
  unfold descendants
  rw [alike.size, alike.children_eq]
  generalize second.children id = waiting
  generalize second.size = steps
  induction steps generalizing waiting with
  | zero => rfl
  | succ steps ih =>
      cases waiting with
      | nil => rfl
      | cons id waiting =>
          rw [walk, walk, alike.children_eq, ih]

end

/-! ## Changes -/

/-- A change of a node that respects the relation keeps forests alike. -/
theorem modify (alike : Alike related first second) (id : NodeId) {change other : Node κ → Node κ}
    (respects : ∀ {left right}, Node.Alike related left right →
      Node.Alike related (change left) (other right)) :
    Alike related (first.modify id change) (second.modify id other) where
  size := by rw [size_modify, size_modify, alike.size]
  nodes place := by
    rw [node?_modify, node?_modify]
    split
    · exact rel_map (alike.nodes place) respects
    · exact alike.nodes place

/-- A change of links keeps forests alike. -/
theorem relink (alike : Alike related first second) (id : NodeId)
    (parent : Option NodeId → Option NodeId) (children : List NodeId → List NodeId) :
    Alike related
      (first.modify id fun node => ⟨node.kind, parent node.parent, children node.children⟩)
      (second.modify id fun node => ⟨node.kind, parent node.parent, children node.children⟩) :=
  alike.modify id fun same =>
    ⟨same.kind, congrArg parent same.parent, congrArg children same.children⟩

theorem setKind (alike : Alike related first second) (id : NodeId) {left right : κ}
    (same : related left right) : Alike related (first.setKind id left) (second.setKind id right) :=
  alike.modify id fun nodes => ⟨same, nodes.parent, nodes.children⟩

/-- Changing the kind of one node to a related one. -/
theorem setKind_right (reflexive : ∀ kind, related kind kind) (forest : Forest κ) {id : NodeId}
    {kind other : κ} (known : forest.kind? id = some kind) (same : related kind other) :
    Alike related forest (forest.setKind id other) where
  size := (size_setKind forest id other).symm
  nodes place := by
    rw [Forest.setKind, node?_modify]
    split
    · rename_i here
      subst here
      obtain ⟨node, found, rfl⟩ := Option.map_eq_some_iff.mp known
      rw [found]
      exact .some ⟨same, rfl, rfl⟩
    · exact rel_refl (fun _ => ⟨reflexive _, rfl, rfl⟩) _

theorem create (alike : Alike related first second) {left right : κ} (same : related left right) :
    Alike related (first.create left).2 (second.create right).2 where
  size := by rw [size_create, size_create, alike.size]
  nodes id := by
    rw [node?_create, node?_create, alike.size]
    split
    · exact .some ⟨same, rfl, rfl⟩
    · exact alike.nodes id

theorem detach (alike : Alike related first second) (id : NodeId) :
    Alike related (first.detach id) (second.detach id) := by
  unfold Forest.detach
  rw [alike.parent?_eq]
  cases second.parent? id with
  | none => exact alike
  | some parent =>
      exact (alike.relink id (fun _ => none) fun children => children).relink parent
        (fun parent => parent) (·.filter (· ≠ id))

theorem attachLast (alike : Alike related first second) (parent child : NodeId) :
    Alike related (first.attachLast parent child) (second.attachLast parent child) :=
  (alike.relink child (fun _ => some parent) fun children => children).relink parent
    (fun parent => parent) (· ++ [child])

end Alike

end ServerPages.Forest
