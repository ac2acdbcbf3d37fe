import ServerPages.Proofs.Forest.Links

/-!
# Well-formed forests

A forest is well formed if its parents and its children say the same, no node is twice
among the children of another, and parents form no cycle. Every change that moves nodes
with care keeps that: what is attached must stand alone and must not be above the node
that it is attached to.
-/

namespace ServerPages.Forest

variable {κ : Type} {forest : Forest κ}

/-- Parents and children agree, and no node is above itself. -/
structure WellFormed (forest : Forest κ) : Prop where
  linked (parent child : NodeId) :
    child ∈ forest.children parent ↔ forest.parent? child = some parent
  nodup (parent : NodeId) : (forest.children parent).Nodup
  grounded : ∃ depth : NodeId → Nat, ∀ child parent,
    forest.parent? child = some parent → depth parent < depth child

/-- The second node is the first or stands below it. -/
inductive Within (forest : Forest κ) (top : NodeId) : NodeId → Prop
  | refl : Within forest top top
  | step {child parent : NodeId} (up : forest.parent? child = some parent)
      (inner : Within forest top parent) : Within forest top child

namespace Within

theorem trans {top middle node : NodeId} (upper : forest.Within top middle)
    (lower : forest.Within middle node) : forest.Within top node := by
  induction lower with
  | refl => exact upper
  | step up _ ih => exact .step up ih

/-- Of two nodes above a third, one is above the other. -/
theorem total {first second node : NodeId} (left : forest.Within first node)
    (right : forest.Within second node) :
    forest.Within first second ∨ forest.Within second first := by
  induction left with
  | refl => exact Or.inr right
  | step up inner ih =>
      cases right with
      | refl => exact Or.inl (.step up inner)
      | step other lower =>
          cases up.symm.trans other
          exact ih lower

theorem eq_of_parent?_none {top node : NodeId} (inner : forest.Within top node)
    (alone : forest.parent? node = none) : node = top := by
  cases inner with
  | refl => rfl
  | step up _ => cases alone.symm.trans up

theorem has {top node : NodeId} (inner : forest.Within top node) (different : node ≠ top) :
    forest.Has node := by
  cases inner with
  | refl => exact absurd rfl different
  | step up _ => exact has_of_parent? up

/-- What is within a node stays there as long as the parents of all nodes on the way stay. -/
theorem of_parent?_eq {other : Forest κ} {top node : NodeId} (inner : forest.Within top node)
    (same : ∀ child, forest.Has child → other.parent? child = forest.parent? child) :
    other.Within top node := by
  induction inner with
  | refl => exact .refl
  | step up _ ih => exact .step ((same _ (has_of_parent? up)).trans up) ih

end Within

namespace WellFormed

theorem has_parent (wf : forest.WellFormed) {child parent : NodeId}
    (up : forest.parent? child = some parent) : forest.Has parent :=
  has_of_mem_children ((wf.linked parent child).mpr up)

theorem has_child (wf : forest.WellFormed) {child parent : NodeId}
    (down : child ∈ forest.children parent) : forest.Has child :=
  has_of_parent? ((wf.linked parent child).mp down)

theorem has_top (wf : forest.WellFormed) {top node : NodeId} (inner : forest.Within top node)
    (inside : forest.Has node) : forest.Has top := by
  induction inner with
  | refl => exact inside
  | step up _ ih => exact ih (wf.has_parent up)

/-- A node is above none of the nodes above it. -/
theorem not_within_parent (wf : forest.WellFormed) {child parent : NodeId}
    (up : forest.parent? child = some parent) : ¬ forest.Within child parent := by
  obtain ⟨depth, deeper⟩ := wf.grounded
  have grows {top node : NodeId} (inner : forest.Within top node) : depth top ≤ depth node := by
    induction inner with
    | refl => exact Nat.le_refl _
    | step up _ ih => exact Nat.le_trans ih (Nat.le_of_lt (deeper _ _ up))
  intro cycle
  exact Nat.not_lt_of_le (grows cycle) (deeper _ _ up)

theorem within_antisymm (wf : forest.WellFormed) {first second : NodeId}
    (lower : forest.Within first second) (upper : forest.Within second first) :
    first = second := by
  cases lower with
  | refl => rfl
  | step up inner => exact absurd (upper.trans inner) (wf.not_within_parent up)

/-- The subtrees of two children of one node have nothing in common. -/
theorem siblings_apart (wf : forest.WellFormed) {first second parent node : NodeId}
    (left : forest.parent? first = some parent) (right : forest.parent? second = some parent)
    (inFirst : forest.Within first node) (inSecond : forest.Within second node) :
    first = second := by
  rcases inFirst.total inSecond with inner | inner
  · cases inner with
    | refl => rfl
    | step up deeper =>
        cases right.symm.trans up
        exact absurd deeper (wf.not_within_parent left)
  · cases inner with
    | refl => rfl
    | step up deeper =>
        cases left.symm.trans up
        exact absurd deeper (wf.not_within_parent right)

theorem siblings_pairwise (wf : forest.WellFormed) (id : NodeId) :
    (forest.children id).Pairwise fun first second =>
      ∀ node, forest.Within first node → ¬ forest.Within second node := by
  refine List.Pairwise.imp_of_mem ?_ (wf.nodup id)
  intro first second left right different node inFirst inSecond
  exact different (wf.siblings_apart ((wf.linked id first).mp left)
    ((wf.linked id second).mp right) inFirst inSecond)

/-- A forest with the links of a well-formed one is well formed. -/
theorem congr {other : Forest κ} (wf : forest.WellFormed)
    (parents : ∀ id, other.parent? id = forest.parent? id)
    (children : ∀ id, other.children id = forest.children id) : other.WellFormed where
  linked parent child := by rw [parents, children]; exact wf.linked parent child
  nodup parent := by rw [children]; exact wf.nodup parent
  grounded := by
    obtain ⟨depth, deeper⟩ := wf.grounded
    exact ⟨depth, fun child parent up => deeper child parent (parents child ▸ up)⟩

theorem setKind (wf : forest.WellFormed) (id : NodeId) (kind : κ) :
    (forest.setKind id kind).WellFormed :=
  wf.congr (fun other => parent?_setKind forest id other kind)
    (fun other => children_setKind forest id other kind)

theorem create (wf : forest.WellFormed) (kind : κ) : (forest.create kind).2.WellFormed :=
  wf.congr (parent?_create forest kind) (children_create forest kind)

end WellFormed

theorem single_wellFormed (kind : κ) : (single kind).WellFormed := by
  have alone (id : NodeId) : (single kind).parent? id = none := by
    rcases id with ⟨_ | index⟩ <;> rfl
  have empty (id : NodeId) : (single kind).children id = [] := by
    rcases id with ⟨_ | index⟩ <;> rfl
  refine ⟨fun parent child => ?_, fun parent => ?_, ⟨fun _ => 0, fun child parent up => ?_⟩⟩
  · simp [alone, empty]
  · simp [empty]
  · cases (alone child).symm.trans up

/-! ## Taking nodes away -/

theorem children_detach (wf : forest.WellFormed) (id other : NodeId) :
    (forest.detach id).children other = (forest.children other).filter (· ≠ id) := by
  have stays (elsewhere : forest.parent? id ≠ some other) :
      (forest.children other).filter (· ≠ id) = forest.children other := by
    rw [List.filter_eq_self]
    intro child down
    have up := (wf.linked other child).mp down
    exact decide_eq_true fun same => elsewhere (same ▸ up)
  unfold detach
  split
  · rename_i alone
    exact (stays (by rw [alone]; exact nofun)).symm
  · rename_i parent up
    have inside : (forest.modify id fun node => { node with parent := none }).Has parent :=
      (has_modify forest id parent _).mpr (wf.has_parent up)
    rw [children_modify_children inside (·.filter (· ≠ id)), children_modify_parent]
    split
    · rfl
    · rename_i different
      exact (stays fun here => different (Option.some.inj (up.symm.trans here))).symm

theorem WellFormed.detach (wf : forest.WellFormed) (id : NodeId) :
    (forest.detach id).WellFormed where
  linked parent child := by
    rw [children_detach wf, parent?_detach, List.mem_filter, wf.linked]
    by_cases here : id = child
    · simp [here]
    · simp [here, Ne.symm here]
  nodup parent := by
    rw [children_detach wf]
    exact (wf.nodup parent).filter _
  grounded := by
    obtain ⟨depth, deeper⟩ := wf.grounded
    refine ⟨depth, fun child parent up => deeper child parent ?_⟩
    rw [parent?_detach] at up
    split at up
    · cases up
    · exact up

/-- Without the links around a node, everything is within what it was within, as long as the way
there does not pass that node. -/
theorem within_of_within_detach {id top node : NodeId}
    (inner : (forest.detach id).Within top node) : forest.Within top node := by
  induction inner with
  | refl => exact .refl
  | step up _ ih =>
      rw [parent?_detach] at up
      split at up
      · cases up
      · exact .step up ih

/-! ## Putting nodes in place -/

/-- A node that stands alone and is not above another can be linked to it. -/
structure Attachable (forest : Forest κ) (parent child : NodeId) : Prop where
  hasParent : forest.Has parent
  hasChild : forest.Has child
  alone : forest.parent? child = none
  apart : ¬ forest.Within child parent

structure Attached (before after : Forest κ) (parent child : NodeId)
    (insert : List NodeId → List NodeId) : Prop where
  parents (other : NodeId) :
    after.parent? other = if child = other then some parent else before.parent? other
  children (other : NodeId) :
    after.children other =
      if parent = other then insert (before.children other) else before.children other

theorem attached_attachLast {parent child : NodeId} (hasParent : forest.Has parent)
    (hasChild : forest.Has child) :
    Attached forest (forest.attachLast parent child) parent child (· ++ [child]) :=
  ⟨parent?_attachLast hasChild parent, children_attachLast hasParent child⟩

theorem attached_attachFirst {parent child : NodeId} (hasParent : forest.Has parent)
    (hasChild : forest.Has child) :
    Attached forest (forest.attachFirst parent child) parent child (child :: ·) :=
  ⟨parent?_attachFirst hasChild parent, children_attachFirst hasParent child⟩

/-- What is below a node stays there. -/
theorem Attached.within {after : Forest κ} {parent child top node : NodeId}
    {insert : List NodeId → List NodeId} (attached : Attached forest after parent child insert)
    (alone : forest.parent? child = none) (inner : forest.Within top node) :
    after.Within top node := by
  induction inner with
  | refl => exact .refl
  | step up _ ih =>
      refine .step ?_ ih
      rw [attached.parents, if_neg, up]
      rintro rfl
      cases alone.symm.trans up

/-- Below the attached child the depth of every node grows by more than that of the parent. -/
theorem Attached.grounded {after : Forest κ} {parent child : NodeId}
    {insert : List NodeId → List NodeId} (wf : forest.WellFormed)
    (fits : forest.Attachable parent child) (attached : Attached forest after parent child insert) :
    ∃ depth : NodeId → Nat, ∀ lower upper,
      after.parent? lower = some upper → depth upper < depth lower := by
  classical
  obtain ⟨depth, deeper⟩ := wf.grounded
  refine ⟨fun node => if forest.Within child node then depth node + depth parent + 1
    else depth node, ?_⟩
  intro lower upper up
  rw [attached.parents] at up
  dsimp only
  split at up
  · rename_i here
    cases up
    subst here
    rw [if_neg fits.apart, if_pos .refl]
    omega
  · rename_i different
    have shallower := deeper _ _ up
    by_cases inside : forest.Within child upper
    · rw [if_pos inside, if_pos (.step up inside)]
      omega
    · have outside : ¬ forest.Within child lower := by
        intro inner
        cases inner with
        | refl => exact different rfl
        | step other deeper =>
            cases up.symm.trans other
            exact inside deeper
      rw [if_neg inside, if_neg outside]
      exact shallower

theorem Attached.wellFormed {after : Forest κ} {parent child : NodeId}
    {insert : List NodeId → List NodeId} (wf : forest.WellFormed)
    (fits : forest.Attachable parent child) (attached : Attached forest after parent child insert)
    (adds : ∀ nodes, (insert nodes).Perm (child :: nodes)) : after.WellFormed where
  linked upper lower := by
    rw [attached.parents, attached.children]
    by_cases atParent : parent = upper
    · subst atParent
      rw [if_pos rfl, (adds _).mem_iff, List.mem_cons, wf.linked]
      by_cases here : child = lower
      · simp [here]
      · simp [here, Ne.symm here]
    · rw [if_neg atParent, wf.linked]
      by_cases here : child = lower
      · subst here
        simp [fits.alone, atParent]
      · simp [here]
  nodup upper := by
    rw [attached.children]
    split
    · rename_i here
      subst here
      rw [(adds _).nodup_iff, List.nodup_cons]
      refine ⟨fun down => ?_, wf.nodup parent⟩
      cases fits.alone.symm.trans ((wf.linked parent child).mp down)
    · exact wf.nodup upper
  grounded := attached.grounded wf fits

theorem WellFormed.attachLast (wf : forest.WellFormed) {parent child : NodeId}
    (fits : forest.Attachable parent child) : (forest.attachLast parent child).WellFormed :=
  (attached_attachLast fits.hasParent fits.hasChild).wellFormed wf fits fun _ =>
    List.perm_append_singleton _ _

theorem WellFormed.attachFirst (wf : forest.WellFormed) {parent child : NodeId}
    (fits : forest.Attachable parent child) : (forest.attachFirst parent child).WellFormed :=
  (attached_attachFirst fits.hasParent fits.hasChild).wellFormed wf fits fun _ => .refl _

end ServerPages.Forest
