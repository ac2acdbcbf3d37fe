import ServerPages.Proofs.Forest.Walks

/-!
# Growing forests

A forest grows if nodes are added and put below others while the links among the nodes
that it had stay as they were. Of the nodes that were there before, walks through the
grown forest meet the same ones in the same order.
-/

namespace ServerPages.Forest

variable {κ : Type} {before middle after : Forest κ}

/-- The second forest has the nodes of the first, linked to each other as they were. -/
structure Grown (before after : Forest κ) : Prop where
  size_le : before.size ≤ after.size
  parents (id : NodeId) (inside : before.Has id) : after.parent? id = before.parent? id
  children (id : NodeId) (inside : before.Has id) :
    (after.children id).filter (before.Has ·) = before.children id

namespace Grown

theorem has (grown : Grown before after) {id : NodeId} (inside : before.Has id) : after.Has id :=
  Nat.lt_of_lt_of_le inside grown.size_le

theorem refl (wf : before.WellFormed) : Grown before before where
  size_le := Nat.le_refl _
  parents _ _ := rfl
  children id _ := by
    rw [List.filter_eq_self]
    intro child down
    exact decide_eq_true (wf.has_child down)

theorem trans (first : Grown before middle) (second : Grown middle after) :
    Grown before after where
  size_le := Nat.le_trans first.size_le second.size_le
  parents id inside := (second.parents id (first.has inside)).trans (first.parents id inside)
  children id inside := by
    rw [← first.children id inside, ← second.children id (first.has inside), List.filter_filter]
    refine List.filter_congr fun child _ => ?_
    rw [← Bool.decide_and, decide_eq_decide]
    exact (and_iff_left_of_imp first.has).symm

/-- Forests with the same links grow alike. -/
theorem congr {other : Forest κ} (grown : Grown before after) (size : other.size = after.size)
    (parents : ∀ id, other.parent? id = after.parent? id)
    (children : ∀ id, other.children id = after.children id) : Grown before other where
  size_le := size ▸ grown.size_le
  parents id inside := (parents id).trans (grown.parents id inside)
  children id inside := by rw [children]; exact grown.children id inside

theorem setKind (grown : Grown before after) (id : NodeId) (kind : κ) :
    Grown before (after.setKind id kind) :=
  grown.congr (size_setKind after id kind) (fun other => parent?_setKind after id other kind)
    (fun other => children_setKind after id other kind)

theorem create (grown : Grown before after) (kind : κ) : Grown before (after.create kind).2 where
  size_le := by
    rw [size_create]
    exact Nat.le_succ_of_le grown.size_le
  parents id inside := (parent?_create after kind id).trans (grown.parents id inside)
  children id inside := by rw [children_create]; exact grown.children id inside

/-- Attaching a new node leaves the links among the old ones. -/
theorem attach {larger : Forest κ} {parent child : NodeId} {insert : List NodeId → List NodeId}
    (grown : Grown before after) (attached : Attached after larger parent child insert)
    (size : larger.size = after.size) (new : ¬ before.Has child)
    (adds : ∀ nodes, (insert nodes).filter (before.Has ·) =
      nodes.filter (before.Has ·)) : Grown before larger where
  size_le := size ▸ grown.size_le
  parents id inside := by
    have other : child ≠ id := fun here => new (here ▸ inside)
    rw [attached.parents, if_neg other]
    exact grown.parents id inside
  children id inside := by
    rw [attached.children]
    split
    · rw [adds]
      exact grown.children id inside
    · exact grown.children id inside

theorem attachLast {parent child : NodeId} (grown : Grown before after)
    (fits : after.Attachable parent child) (new : ¬ before.Has child) :
    Grown before (after.attachLast parent child) := by
  refine grown.attach (attached_attachLast fits.hasParent fits.hasChild)
    (size_attachLast after parent child) new fun nodes => ?_
  rw [List.filter_append, List.filter_singleton, decide_eq_false new]
  exact List.append_nil _

theorem attachFirst {parent child : NodeId} (grown : Grown before after)
    (fits : after.Attachable parent child) (new : ¬ before.Has child) :
    Grown before (after.attachFirst parent child) := by
  refine grown.attach (attached_attachFirst fits.hasParent fits.hasChild)
    (size_attachFirst after parent child) new fun nodes => ?_
  exact List.filter_cons_of_neg (by simpa using new)

/-! ## Walks -/

theorem lineage (wf : before.WellFormed) (grown : Grown before after) {id : NodeId}
    (inside : before.Has id) {ids : List NodeId} (lineage : before.Lineage id ids) :
    after.Lineage id ids :=
  lineage.of_parent?_eq fun _ member =>
    grown.parents _ (wf.has_top (lineage.mem_iff.mp member) inside)

theorem inclusiveAncestors_eq (wf : before.WellFormed) (grown : Grown before after)
    {id : NodeId} (inside : before.Has id) :
    after.inclusiveAncestors id = before.inclusiveAncestors id := by
  have lineage := wf.lineage_inclusiveAncestors inside
  exact (grown.lineage wf inside lineage).chain_eq
    (Nat.le_trans (lineage.length_le wf inside) grown.size_le)

theorem within_iff (wf : before.WellFormed) (grown : Grown before after) {top node : NodeId}
    (inside : before.Has node) : after.Within top node ↔ before.Within top node := by
  have lineage := wf.lineage_inclusiveAncestors inside
  rw [← lineage.mem_iff, ← (grown.lineage wf inside lineage).mem_iff]

/-- What is below a new node is new. -/
theorem not_has_child (wf : before.WellFormed) (grown : Grown before after)
    (wfAfter : after.WellFormed) {parent child : NodeId} (new : ¬ before.Has parent)
    (down : child ∈ after.children parent) : ¬ before.Has child := by
  intro inside
  have up := (wfAfter.linked parent child).mp down
  rw [grown.parents child inside] at up
  exact new (wf.has_parent up)

theorem preorder_filter (wf : before.WellFormed) (grown : Grown before after)
    (wfAfter : after.WellFormed) {waiting ids : List NodeId} (order : after.Preorder waiting ids) :
    before.Preorder (waiting.filter (before.Has ·))
      (ids.filter (before.Has ·)) := by
  induction order with
  | nil => exact .nil
  | @cons id waiting inner rest _ _ children others =>
      rw [List.filter_cons, List.filter_cons, List.filter_append]
      by_cases inside : before.Has id
      · rw [grown.children id inside] at children
        rw [if_pos (decide_eq_true inside), if_pos (decide_eq_true inside)]
        exact .cons children others
      · have none : (after.children id).filter (before.Has ·) = [] := by
          rw [List.filter_eq_nil_iff]
          intro child down
          simpa using grown.not_has_child wf wfAfter inside down
        rw [none] at children
        rw [if_neg (by simpa using inside), if_neg (by simpa using inside)]
        cases children' : inner.filter (before.Has ·) with
        | nil => exact others
        | cons =>
            rw [children'] at children
            cases children

theorem descendants_filter (wf : before.WellFormed) (grown : Grown before after)
    (wfAfter : after.WellFormed) {id : NodeId} (inside : before.Has id) :
    (after.descendants id).filter (before.Has ·) = before.descendants id := by
  have order := grown.preorder_filter wf wfAfter (wfAfter.preorder_descendants id)
  rw [grown.children id inside] at order
  exact order.unique (wf.preorder_descendants id)

theorem mem_descendants_iff (wf : before.WellFormed) (grown : Grown before after)
    (wfAfter : after.WellFormed) {id node : NodeId} (inside : before.Has node) :
    node ∈ after.descendants id ↔ node ∈ before.descendants id := by
  rw [wf.mem_descendants, wfAfter.mem_descendants, grown.within_iff wf inside]

end Grown

end ServerPages.Forest
