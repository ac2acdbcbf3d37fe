import Mathlib.Data.List.Perm.Subperm
import Mathlib.Data.List.Nodup
import ServerPages.Proofs.Forest.WellFormed

/-!
# Walks through well-formed forests

The walks of a forest are bounded by its number of nodes. In a well-formed forest this
bound cuts nothing off: the walk upwards lists exactly the nodes that a node is within,
and the walk downwards lists exactly the nodes below a node, each once, and each in front
of what is below it.
-/

namespace ServerPages.Forest

variable {κ : Type} {forest : Forest κ}

/-- Different places of a forest are no more than its nodes. -/
theorem length_le_size {ids : List NodeId} (nodup : ids.Nodup)
    (inside : ∀ id ∈ ids, forest.Has id) : ids.length ≤ forest.size := by
  have places : (ids.map (·.index)).Nodup :=
    nodup.map fun first second same => by cases first; cases second; simp_all
  have bounded : ids.map (·.index) ⊆ List.range forest.size := by
    intro place found
    obtain ⟨id, member, rfl⟩ := List.mem_map.mp found
    exact List.mem_range.mpr (inside id member)
  simpa using (places.subperm bounded).length_le

/-! ## Upwards -/

/-- A node and all nodes above it, from the node upwards. -/
inductive Lineage (forest : Forest κ) : NodeId → List NodeId → Prop
  | top {id : NodeId} (alone : forest.parent? id = none) : Lineage forest id [id]
  | step {id parent : NodeId} {upper : List NodeId} (up : forest.parent? id = some parent)
      (rest : Lineage forest parent upper) : Lineage forest id (id :: upper)

namespace Lineage

theorem mem_iff {id other : NodeId} {ids : List NodeId} (lineage : forest.Lineage id ids) :
    other ∈ ids ↔ forest.Within other id := by
  induction lineage with
  | top alone =>
      rw [List.mem_singleton]
      constructor
      · rintro rfl
        exact .refl
      · intro inner
        exact (inner.eq_of_parent?_none alone).symm
  | step up rest ih =>
      rw [List.mem_cons, ih]
      constructor
      · rintro (rfl | inner)
        · exact .refl
        · exact .step up inner
      · intro inner
        cases inner with
        | refl => exact Or.inl rfl
        | step other deeper =>
            cases up.symm.trans other
            exact Or.inr deeper

theorem nodup {id : NodeId} {ids : List NodeId} (wf : forest.WellFormed)
    (lineage : forest.Lineage id ids) : ids.Nodup := by
  induction lineage with
  | top => exact List.nodup_singleton _
  | step up rest ih =>
      refine List.nodup_cons.mpr ⟨fun again => ?_, ih⟩
      exact wf.not_within_parent up (rest.mem_iff.mp again)

theorem length_le {id : NodeId} {ids : List NodeId} (wf : forest.WellFormed)
    (inside : forest.Has id) (lineage : forest.Lineage id ids) : ids.length ≤ forest.size :=
  length_le_size (lineage.nodup wf) fun _ member =>
    wf.has_top (lineage.mem_iff.mp member) inside

theorem chain_eq {id : NodeId} {ids : List NodeId} (lineage : forest.Lineage id ids)
    {steps : Nat} (enough : ids.length ≤ steps) : forest.chain steps id = ids := by
  induction lineage generalizing steps with
  | top alone =>
      obtain ⟨steps, rfl⟩ := Nat.exists_eq_add_of_le' enough
      simp [chain, alone]
  | step up rest ih =>
      obtain ⟨steps, rfl⟩ := Nat.exists_eq_succ_of_ne_zero (Nat.ne_of_gt
        (Nat.lt_of_lt_of_le (Nat.zero_lt_succ _) enough))
      have above := ih (Nat.le_of_succ_le_succ enough)
      simp only [chain, up, above]

/-- Forests that agree on the parents of what is above a node agree on its lineage. -/
theorem of_parent?_eq {other : Forest κ} {id : NodeId} {ids : List NodeId}
    (lineage : forest.Lineage id ids)
    (same : ∀ above ∈ ids, other.parent? above = forest.parent? above) :
    other.Lineage id ids := by
  induction lineage with
  | top alone => exact .top ((same _ List.mem_cons_self).trans alone)
  | step up rest ih =>
      exact .step ((same _ List.mem_cons_self).trans up)
        (ih fun above member => same above (List.mem_cons_of_mem _ member))

end Lineage

namespace WellFormed

theorem exists_lineage (wf : forest.WellFormed) (id : NodeId) :
    ∃ ids, forest.Lineage id ids := by
  obtain ⟨depth, deeper⟩ := wf.grounded
  induction height : depth id using Nat.strongRecOn generalizing id with
  | ind height ih =>
      subst height
      cases up : forest.parent? id with
      | none => exact ⟨[id], .top up⟩
      | some parent =>
          obtain ⟨upper, rest⟩ := ih (depth parent) (deeper id parent up) parent rfl
          exact ⟨id :: upper, .step up rest⟩

theorem lineage_inclusiveAncestors (wf : forest.WellFormed) {id : NodeId}
    (inside : forest.Has id) : forest.Lineage id (forest.inclusiveAncestors id) := by
  obtain ⟨ids, lineage⟩ := wf.exists_lineage id
  rw [inclusiveAncestors, lineage.chain_eq (lineage.length_le wf inside)]
  exact lineage

theorem mem_inclusiveAncestors (wf : forest.WellFormed) {id : NodeId} (inside : forest.Has id)
    (other : NodeId) : other ∈ forest.inclusiveAncestors id ↔ forest.Within other id :=
  (wf.lineage_inclusiveAncestors inside).mem_iff

theorem isInclusiveAncestor_iff (wf : forest.WellFormed) {id : NodeId} (inside : forest.Has id)
    (other : NodeId) : forest.isInclusiveAncestor other id = true ↔ forest.Within other id := by
  rw [isInclusiveAncestor, List.contains_iff_mem, wf.mem_inclusiveAncestors inside]

end WellFormed

/-! ## Downwards -/

/-- The waiting nodes with what is below them, each node in front of what is below it. -/
inductive Preorder (forest : Forest κ) : List NodeId → List NodeId → Prop
  | nil : Preorder forest [] []
  | cons {id : NodeId} {waiting inner rest : List NodeId}
      (children : Preorder forest (forest.children id) inner)
      (others : Preorder forest waiting rest) :
      Preorder forest (id :: waiting) (id :: (inner ++ rest))

namespace Preorder

theorem append {first second left right : List NodeId} (start : forest.Preorder first left)
    (finish : forest.Preorder second right) :
    forest.Preorder (first ++ second) (left ++ right) := by
  induction start with
  | nil => exact finish
  | cons children _ _ ih =>
      rw [List.cons_append, List.cons_append, List.append_assoc]
      exact .cons children ih

theorem walk_eq {waiting ids : List NodeId} (order : forest.Preorder waiting ids) {steps : Nat}
    (enough : ids.length ≤ steps) : forest.walk steps waiting = ids := by
  induction steps generalizing waiting ids with
  | zero =>
      cases order with
      | nil => rfl
      | cons => simp at enough
  | succ steps ih =>
      cases order with
      | nil => rfl
      | cons children others =>
          rw [walk, ih (children.append others) (Nat.le_of_succ_le_succ enough)]

theorem unique {waiting first second : List NodeId} (left : forest.Preorder waiting first)
    (right : forest.Preorder waiting second) : first = second := by
  have bound := Nat.le_max_left first.length second.length
  exact (left.walk_eq bound).symm.trans (right.walk_eq (Nat.le_max_right _ _))

theorem split {first second ids : List NodeId} (order : forest.Preorder (first ++ second) ids) :
    ∃ left right, forest.Preorder first left ∧ forest.Preorder second right ∧
      ids = left ++ right := by
  induction first generalizing ids with
  | nil => exact ⟨[], ids, .nil, order, rfl⟩
  | cons id first ih =>
      cases order with
      | cons children others =>
          obtain ⟨left, right, start, finish, rfl⟩ := ih others
          exact ⟨_, right, .cons children start, finish, by simp⟩

theorem subset {waiting ids : List NodeId} (order : forest.Preorder waiting ids) :
    waiting ⊆ ids := by
  induction order with
  | nil => exact fun _ member => member
  | cons _ _ _ ih =>
      intro id member
      rcases List.mem_cons.mp member with rfl | later
      · exact List.mem_cons_self
      · exact List.mem_cons_of_mem _ (List.mem_append_right _ (ih later))

theorem mem_of_child {waiting ids : List NodeId} (order : forest.Preorder waiting ids)
    {parent child : NodeId} (member : parent ∈ ids) (down : child ∈ forest.children parent) :
    child ∈ ids := by
  induction order with
  | nil => cases member
  | cons children others inner outer =>
      rcases List.mem_cons.mp member with rfl | later
      · exact List.mem_cons_of_mem _ (List.mem_append_left _ (children.subset down))
      · rcases List.mem_append.mp later with inside | outside
        · exact List.mem_cons_of_mem _ (List.mem_append_left _ (inner inside))
        · exact List.mem_cons_of_mem _ (List.mem_append_right _ (outer outside))

theorem mem_iff {waiting ids : List NodeId} (wf : forest.WellFormed)
    (order : forest.Preorder waiting ids) (node : NodeId) :
    node ∈ ids ↔ ∃ top ∈ waiting, forest.Within top node := by
  constructor
  · intro member
    induction order with
    | nil => cases member
    | cons _ _ inner outer =>
        rcases List.mem_cons.mp member with rfl | later
        · exact ⟨_, List.mem_cons_self, .refl⟩
        · rcases List.mem_append.mp later with inside | outside
          · obtain ⟨child, down, within⟩ := inner inside
            have up := (wf.linked _ child).mp down
            exact ⟨_, List.mem_cons_self, (Within.step up .refl).trans within⟩
          · obtain ⟨top, waits, within⟩ := outer outside
            exact ⟨top, List.mem_cons_of_mem _ waits, within⟩
  · rintro ⟨top, waits, within⟩
    induction within with
    | refl => exact order.subset waits
    | step up _ ih => exact order.mem_of_child ih ((wf.linked _ _).mpr up)

theorem nodup {waiting ids : List NodeId} (wf : forest.WellFormed)
    (order : forest.Preorder waiting ids)
    (apart : waiting.Pairwise fun first second =>
      ∀ node, forest.Within first node → ¬ forest.Within second node) : ids.Nodup := by
  induction order with
  | nil => exact List.nodup_nil
  | @cons id waiting inner rest children others ihInner ihRest =>
      rw [List.pairwise_cons] at apart
      have innerWithin {node : NodeId} (member : node ∈ inner) :
          ∃ child, forest.parent? child = some id ∧ forest.Within child node := by
        obtain ⟨child, down, within⟩ := (children.mem_iff wf node).mp member
        exact ⟨child, (wf.linked id child).mp down, within⟩
      refine List.nodup_cons.mpr ⟨fun again => ?_, List.nodup_append'.mpr
        ⟨ihInner (wf.siblings_pairwise id), ihRest apart.2, fun node left right => ?_⟩⟩
      · rcases List.mem_append.mp again with inside | outside
        · obtain ⟨child, up, within⟩ := innerWithin inside
          exact wf.not_within_parent up within
        · obtain ⟨top, waits, within⟩ := (others.mem_iff wf id).mp outside
          exact apart.1 top waits id .refl within
      · obtain ⟨child, up, inChild⟩ := innerWithin left
        obtain ⟨top, waits, inTop⟩ := (others.mem_iff wf node).mp right
        exact apart.1 top waits node ((Within.step up .refl).trans inChild) inTop

end Preorder

theorem exists_preorder_of_forall {waiting : List NodeId}
    (each : ∀ id ∈ waiting, ∃ inner, forest.Preorder (forest.children id) inner) :
    ∃ ids, forest.Preorder waiting ids := by
  induction waiting with
  | nil => exact ⟨[], .nil⟩
  | cons id waiting ih =>
      obtain ⟨inner, children⟩ := each id List.mem_cons_self
      obtain ⟨rest, others⟩ := ih fun later member => each later (List.mem_cons_of_mem _ member)
      exact ⟨_, .cons children others⟩

namespace WellFormed

/-- The number of nodes above a node grows on the way down and never exceeds the size. -/
theorem exists_preorder (wf : forest.WellFormed) (id : NodeId) :
    ∃ ids, forest.Preorder (forest.children id) ids := by
  have bounded (room : Nat) : ∀ (id : NodeId) (upper : List NodeId), forest.Lineage id upper →
      forest.size ≤ upper.length + room → ∃ ids, forest.Preorder (forest.children id) ids := by
    induction room with
    | zero =>
        intro id upper lineage full
        cases children : forest.children id with
        | nil => exact ⟨[], .nil⟩
        | cons child _ =>
            have down : child ∈ forest.children id := children ▸ List.mem_cons_self
            have longer := Lineage.length_le wf (wf.has_child down)
              (.step ((wf.linked id child).mp down) lineage)
            simp only [List.length_cons] at longer
            omega
    | succ room ih =>
        intro id upper lineage bound
        refine exists_preorder_of_forall fun child down => ?_
        refine ih child (child :: upper) (.step ((wf.linked id child).mp down) lineage) ?_
        simp only [List.length_cons]
        omega
  obtain ⟨upper, lineage⟩ := wf.exists_lineage id
  exact bounded forest.size id upper lineage (Nat.le_add_left _ _)

theorem preorder_descendants (wf : forest.WellFormed) (id : NodeId) :
    forest.Preorder (forest.children id) (forest.descendants id) := by
  obtain ⟨ids, order⟩ := wf.exists_preorder id
  have inside (node : NodeId) (member : node ∈ ids) : forest.Has node := by
    obtain ⟨child, down, within⟩ := (order.mem_iff wf node).mp member
    by_cases here : node = child
    · exact here ▸ wf.has_child down
    · exact within.has here
  rw [descendants, order.walk_eq (length_le_size (order.nodup wf (wf.siblings_pairwise id)) inside)]
  exact order

theorem nodup_descendants (wf : forest.WellFormed) (id : NodeId) :
    (forest.descendants id).Nodup :=
  (wf.preorder_descendants id).nodup wf (wf.siblings_pairwise id)

/-- The nodes below a node are those within it, itself left out. -/
theorem mem_descendants (wf : forest.WellFormed) {id node : NodeId} :
    node ∈ forest.descendants id ↔ forest.Within id node ∧ node ≠ id := by
  rw [(wf.preorder_descendants id).mem_iff wf]
  constructor
  · rintro ⟨child, down, within⟩
    have up := (wf.linked id child).mp down
    refine ⟨(Within.step up .refl).trans within, ?_⟩
    rintro rfl
    exact wf.not_within_parent up within
  · rintro ⟨within, different⟩
    induction within with
    | refl => exact absurd rfl different
    | @step child parent up inner ih =>
        by_cases here : parent = id
        · exact ⟨child, (wf.linked id child).mpr (here ▸ up), .refl⟩
        · obtain ⟨top, down, within⟩ := ih here
          exact ⟨top, down, .step up within⟩

theorem has_of_mem_descendants (wf : forest.WellFormed) {id node : NodeId}
    (member : node ∈ forest.descendants id) : forest.Has node := by
  obtain ⟨within, different⟩ := wf.mem_descendants.mp member
  exact within.has different

/-- What stands below the last child of a node, that child first, ends the walk below the node. -/
theorem descendants_concat (wf : forest.WellFormed) {id last : NodeId} {others : List NodeId}
    (children : forest.children id = others ++ [last]) :
    ∃ earlier, forest.descendants id = earlier ++ last :: forest.descendants last := by
  have order := wf.preorder_descendants id
  rw [children] at order
  obtain ⟨left, right, _, finish, same⟩ := order.split
  cases finish with
  | cons inner nothing =>
      cases nothing
      rw [List.append_nil] at same
      exact ⟨left, by rw [same, inner.unique (wf.preorder_descendants last)]⟩

end WellFormed

end ServerPages.Forest
