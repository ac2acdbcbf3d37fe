import ServerPages.Forest

/-!
# Links after a change

What the parents, the children and the kinds of all nodes are after each of the ways to
change a forest. Everything else about forests is derived from these equations.
-/

namespace ServerPages.Forest

variable {κ : Type}

def Has (forest : Forest κ) (id : NodeId) : Prop :=
  id.index < forest.size

instance (forest : Forest κ) (id : NodeId) : Decidable (forest.Has id) :=
  inferInstanceAs (Decidable (_ < _))

theorem has_iff (forest : Forest κ) (id : NodeId) :
    forest.Has id ↔ ∃ node, forest.node? id = some node := by
  constructor
  · intro inside
    exact ⟨_, Array.getElem?_eq_getElem inside⟩
  · rintro ⟨node, found⟩
    exact (Array.getElem?_eq_some_iff.mp found).1

theorem has_of_parent? {forest : Forest κ} {child parent : NodeId}
    (up : forest.parent? child = some parent) : forest.Has child := by
  obtain ⟨node, found, _⟩ := Option.bind_eq_some_iff.mp up
  exact (has_iff forest child).mpr ⟨node, found⟩

theorem has_of_mem_children {forest : Forest κ} {child parent : NodeId}
    (down : child ∈ forest.children parent) : forest.Has parent := by
  unfold children at down
  cases found : forest.node? parent with
  | none => simp [found] at down
  | some node => exact (has_iff forest parent).mpr ⟨node, found⟩

theorem has_of_kind? {forest : Forest κ} {id : NodeId} {kind : κ}
    (known : forest.kind? id = some kind) : forest.Has id := by
  obtain ⟨node, found, _⟩ := Option.map_eq_some_iff.mp known
  exact (has_iff forest id).mpr ⟨node, found⟩

theorem children_eq (forest : Forest κ) (id : NodeId) :
    forest.children id = ((forest.node? id).map (·.children)).getD [] := by
  unfold children
  cases forest.node? id <;> rfl

/-! ## Changing one node -/

theorem kind?_modify_parent (forest : Forest κ) (id : NodeId) (parent : Option NodeId)
    (other : NodeId) :
    (forest.modify id fun node => { node with parent }).kind? other = forest.kind? other := by
  simp only [kind?, node?_modify]
  split
  · cases forest.node? other <;> rfl
  · rfl

theorem kind?_modify_children (forest : Forest κ) (id : NodeId)
    (change : List NodeId → List NodeId) (other : NodeId) :
    (forest.modify id fun node => { node with children := change node.children }).kind? other =
      forest.kind? other := by
  simp only [kind?, node?_modify]
  split
  · cases forest.node? other <;> rfl
  · rfl

theorem children_modify_parent (forest : Forest κ) (id : NodeId) (parent : Option NodeId)
    (other : NodeId) :
    (forest.modify id fun node => { node with parent }).children other =
      forest.children other := by
  simp only [children_eq, node?_modify]
  split
  · cases forest.node? other <;> rfl
  · rfl

theorem parent?_modify_children (forest : Forest κ) (id : NodeId)
    (change : List NodeId → List NodeId) (other : NodeId) :
    (forest.modify id fun node => { node with children := change node.children }).parent? other =
      forest.parent? other := by
  simp only [parent?, node?_modify]
  split
  · cases forest.node? other <;> rfl
  · rfl

theorem has_modify (forest : Forest κ) (id other : NodeId) (change : Node κ → Node κ) :
    (forest.modify id change).Has other ↔ forest.Has other := by
  rw [Has, Has, size_modify]

theorem parent?_modify_parent {forest : Forest κ} {id : NodeId} (inside : forest.Has id)
    (parent : Option NodeId) (other : NodeId) :
    (forest.modify id fun node => { node with parent }).parent? other =
      if id = other then parent else forest.parent? other := by
  unfold parent?
  rw [node?_modify]
  split
  · rename_i here
    obtain ⟨node, found⟩ := (has_iff forest id).mp inside
    rw [← here, found]
    rfl
  · rfl

theorem children_modify_children {forest : Forest κ} {id : NodeId} (inside : forest.Has id)
    (change : List NodeId → List NodeId) (other : NodeId) :
    (forest.modify id fun node => { node with children := change node.children }).children other =
      if id = other then change (forest.children other) else forest.children other := by
  rw [children_eq, children_eq, node?_modify]
  split
  · rename_i here
    obtain ⟨node, found⟩ := (has_iff forest id).mp inside
    rw [← here, found]
    rfl
  · rfl

/-! ## Kinds -/

@[simp] theorem size_setKind (forest : Forest κ) (id : NodeId) (kind : κ) :
    (forest.setKind id kind).size = forest.size :=
  size_modify forest id _

@[simp] theorem parent?_setKind (forest : Forest κ) (id other : NodeId) (kind : κ) :
    (forest.setKind id kind).parent? other = forest.parent? other := by
  simp only [setKind, parent?, node?_modify]
  split
  · cases forest.node? other <;> rfl
  · rfl

@[simp] theorem children_setKind (forest : Forest κ) (id other : NodeId) (kind : κ) :
    (forest.setKind id kind).children other = forest.children other := by
  simp only [setKind, children_eq, node?_modify]
  split
  · cases forest.node? other <;> rfl
  · rfl

theorem kind?_setKind_self {forest : Forest κ} {id : NodeId} (inside : forest.Has id) (kind : κ) :
    (forest.setKind id kind).kind? id = some kind := by
  obtain ⟨node, found⟩ := (has_iff forest id).mp inside
  simp [kind?, setKind, node?_modify, found]

theorem kind?_setKind_of_ne (forest : Forest κ) {id other : NodeId} (different : other ≠ id)
    (kind : κ) : (forest.setKind id kind).kind? other = forest.kind? other := by
  simp [kind?, setKind, node?_modify, Ne.symm different]

/-! ## New nodes -/

@[simp] theorem create_fst (forest : Forest κ) (kind : κ) :
    (forest.create kind).1 = ⟨forest.size⟩ := rfl

@[simp] theorem size_create (forest : Forest κ) (kind : κ) :
    (forest.create kind).2.size = forest.size + 1 := by
  simp [create, size]

theorem node?_create (forest : Forest κ) (kind : κ) (id : NodeId) :
    (forest.create kind).2.node? id =
      if id.index = forest.size then some ⟨kind, none, []⟩ else forest.node? id := by
  simp only [create, node?, size, Array.getElem?_push]
  rfl

theorem node?_size (forest : Forest κ) {id : NodeId} (new : id.index = forest.size) :
    forest.node? id = none := by
  simp only [node?, new, size]
  exact Array.getElem?_eq_none (Nat.le_refl _)

@[simp] theorem parent?_create (forest : Forest κ) (kind : κ) (id : NodeId) :
    (forest.create kind).2.parent? id = forest.parent? id := by
  unfold parent?
  rw [node?_create]
  split
  · rename_i new
    rw [node?_size forest new]
    rfl
  · rfl

@[simp] theorem children_create (forest : Forest κ) (kind : κ) (id : NodeId) :
    (forest.create kind).2.children id = forest.children id := by
  rw [children_eq, children_eq, node?_create]
  split
  · rename_i new
    rw [node?_size forest new]
    rfl
  · rfl

theorem kind?_create_new (forest : Forest κ) (kind : κ) :
    (forest.create kind).2.kind? ⟨forest.size⟩ = some kind := by
  simp [kind?, node?_create]

theorem kind?_create_of_has {forest : Forest κ} {id : NodeId} (inside : forest.Has id)
    (kind : κ) : (forest.create kind).2.kind? id = forest.kind? id := by
  unfold kind?
  rw [node?_create, if_neg (Nat.ne_of_lt inside)]

/-! ## Moves -/

@[simp] theorem size_detach (forest : Forest κ) (id : NodeId) :
    (forest.detach id).size = forest.size := by
  unfold detach
  split
  · rfl
  · rw [size_modify, size_modify]

@[simp] theorem kind?_detach (forest : Forest κ) (id other : NodeId) :
    (forest.detach id).kind? other = forest.kind? other := by
  unfold detach
  split
  · rfl
  · rw [kind?_modify_children _ _ (·.filter (· ≠ id)), kind?_modify_parent]

theorem parent?_detach (forest : Forest κ) (id other : NodeId) :
    (forest.detach id).parent? other = if id = other then none else forest.parent? other := by
  unfold detach
  split
  · rename_i top
    by_cases here : id = other
    · rw [if_pos here, ← here, top]
    · rw [if_neg here]
  · rename_i parent up
    rw [parent?_modify_children _ _ (·.filter (· ≠ id)),
      parent?_modify_parent (has_of_parent? up)]

@[simp] theorem size_attachLast (forest : Forest κ) (parent child : NodeId) :
    (forest.attachLast parent child).size = forest.size := by
  rw [attachLast, size_modify, size_modify]

@[simp] theorem kind?_attachLast (forest : Forest κ) (parent child other : NodeId) :
    (forest.attachLast parent child).kind? other = forest.kind? other := by
  rw [attachLast, kind?_modify_children _ _ (· ++ [child]), kind?_modify_parent]

theorem parent?_attachLast {forest : Forest κ} {child : NodeId} (inside : forest.Has child)
    (parent other : NodeId) :
    (forest.attachLast parent child).parent? other =
      if child = other then some parent else forest.parent? other := by
  rw [attachLast, parent?_modify_children _ _ (· ++ [child]), parent?_modify_parent inside]

theorem children_attachLast {forest : Forest κ} {parent : NodeId} (inside : forest.Has parent)
    (child other : NodeId) :
    (forest.attachLast parent child).children other =
      if parent = other then forest.children other ++ [child] else forest.children other := by
  rw [attachLast, children_modify_children ((has_modify forest child parent _).mpr inside)
    (· ++ [child]), children_modify_parent]

@[simp] theorem size_attachFirst (forest : Forest κ) (parent child : NodeId) :
    (forest.attachFirst parent child).size = forest.size := by
  rw [attachFirst, size_modify, size_modify]

@[simp] theorem kind?_attachFirst (forest : Forest κ) (parent child other : NodeId) :
    (forest.attachFirst parent child).kind? other = forest.kind? other := by
  rw [attachFirst, kind?_modify_children _ _ (child :: ·), kind?_modify_parent]

theorem parent?_attachFirst {forest : Forest κ} {child : NodeId} (inside : forest.Has child)
    (parent other : NodeId) :
    (forest.attachFirst parent child).parent? other =
      if child = other then some parent else forest.parent? other := by
  rw [attachFirst, parent?_modify_children _ _ (child :: ·), parent?_modify_parent inside]

theorem children_attachFirst {forest : Forest κ} {parent : NodeId} (inside : forest.Has parent)
    (child other : NodeId) :
    (forest.attachFirst parent child).children other =
      if parent = other then child :: forest.children other else forest.children other := by
  rw [attachFirst, children_modify_children ((has_modify forest child parent _).mpr inside)
    (child :: ·), children_modify_parent]

/-! ## What all nodes are

A property of places and of what nodes are holds throughout a forest. Links do not count for it, so
that moves keep it, and a new or changed node brings its own. -/

variable {holds : NodeId → κ → Prop} {forest next : Forest κ}

def All (holds : NodeId → κ → Prop) (forest : Forest κ) : Prop :=
  ∀ id kind, forest.kind? id = some kind → holds id kind

namespace All

theorem congr (all : All holds forest) (same : ∀ id, next.kind? id = forest.kind? id) :
    All holds next :=
  fun id kind known => all id kind (same id ▸ known)

theorem single {kind : κ} (first : holds root kind) : All holds (single kind) := by
  rintro ⟨_ | place⟩ other known
  · cases known
    exact first
  · cases known

theorem create (all : All holds forest) {kind : κ} (new : holds ⟨forest.size⟩ kind) :
    All holds (forest.create kind).2 := by
  intro id other known
  rw [kind?, node?_create] at known
  split at known
  · rename_i here
    cases id
    cases here
    cases known
    exact new
  · exact all id other known

theorem setKind (all : All holds forest) (id : NodeId) {kind : κ} (new : holds id kind) :
    All holds (forest.setKind id kind) := by
  intro other changed known
  by_cases here : other = id
  · subst here
    have inside := has_of_kind? known
    rw [Has, size_setKind] at inside
    cases (kind?_setKind_self inside kind).symm.trans known
    exact new
  · exact all other changed ((kind?_setKind_of_ne forest here kind).symm.trans known)

theorem detach (all : All holds forest) (id : NodeId) : All holds (forest.detach id) :=
  all.congr (kind?_detach forest id)

theorem attachLast (all : All holds forest) (parent child : NodeId) :
    All holds (forest.attachLast parent child) :=
  all.congr (kind?_attachLast forest parent child)

theorem attachFirst (all : All holds forest) (parent child : NodeId) :
    All holds (forest.attachFirst parent child) :=
  all.congr (kind?_attachFirst forest parent child)

theorem attachBefore (all : All holds forest) (sibling child : NodeId) :
    All holds (forest.attachBefore sibling child) := by
  unfold Forest.attachBefore
  split
  · exact all
  · exact all.congr fun id => by
      rw [kind?_modify_children _ _ (insertInFront sibling child), kind?_modify_parent]

end All

end ServerPages.Forest
