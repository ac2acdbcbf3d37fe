/-!
# Forests of numbered nodes

Nodes are kept in one array and named by their place in it, which never changes.
Each node knows its parent and its children in order; a node without a parent is
the top of a tree of its own, so a forest may hold any number of detached trees.

The operations here move nodes without asking whether a move makes sense. Walks
take at most as many steps as there are nodes, which is enough for every forest
whose parents and children agree and form no cycle.
-/

namespace ServerPages

structure NodeId where
  index : Nat
  deriving DecidableEq, Repr, Inhabited

structure Forest.Node (κ : Type) where
  kind : κ
  parent : Option NodeId
  children : List NodeId
  deriving DecidableEq, Repr

/-- Nodes in order of creation. -/
structure Forest (κ : Type) where
  nodes : Array (Forest.Node κ)
  deriving DecidableEq, Repr

namespace Forest

variable {κ : Type}

def single (kind : κ) : Forest κ :=
  ⟨#[⟨kind, none, []⟩]⟩

def root : NodeId := ⟨0⟩

/-- The number of nodes, detached ones included. -/
def size (forest : Forest κ) : Nat :=
  forest.nodes.size

def node? (forest : Forest κ) (id : NodeId) : Option (Node κ) :=
  forest.nodes[id.index]?

def kind? (forest : Forest κ) (id : NodeId) : Option κ :=
  (forest.node? id).map (·.kind)

def parent? (forest : Forest κ) (id : NodeId) : Option NodeId :=
  (forest.node? id).bind (·.parent)

def children (forest : Forest κ) (id : NodeId) : List NodeId :=
  match forest.node? id with
  | some node => node.children
  | none => []

def modify (forest : Forest κ) (id : NodeId) (change : Node κ → Node κ) : Forest κ :=
  ⟨forest.nodes.modify id.index change⟩

def setKind (forest : Forest κ) (id : NodeId) (kind : κ) : Forest κ :=
  forest.modify id fun node => { node with kind }

/-- Adds a detached node. -/
def create (forest : Forest κ) (kind : κ) : NodeId × Forest κ :=
  (⟨forest.size⟩, ⟨forest.nodes.push ⟨kind, none, []⟩⟩)

theorem node?_modify (forest : Forest κ) (id other : NodeId) (change : Node κ → Node κ) :
    (forest.modify id change).node? other =
      if id = other then (forest.node? other).map change else forest.node? other := by
  simp only [modify, node?, Array.getElem?_modify]
  by_cases same : id = other
  · simp [same]
  · have : id.index ≠ other.index := fun h => same (by cases id; cases other; simp_all)
    simp [same, this]

theorem size_modify (forest : Forest κ) (id : NodeId) (change : Node κ → Node κ) :
    (forest.modify id change).size = forest.size := by
  simp [modify, size]

/-! ## Moving nodes -/

def detach (forest : Forest κ) (id : NodeId) : Forest κ :=
  match forest.parent? id with
  | none => forest
  | some parent =>
      (forest.modify id fun node => { node with parent := none }).modify parent fun node =>
        { node with children := node.children.filter (· ≠ id) }

def attachLast (forest : Forest κ) (parent child : NodeId) : Forest κ :=
  (forest.modify child fun node => { node with parent := some parent }).modify parent fun node =>
    { node with children := node.children ++ [child] }

def attachFirst (forest : Forest κ) (parent child : NodeId) : Forest κ :=
  (forest.modify child fun node => { node with parent := some parent }).modify parent fun node =>
    { node with children := child :: node.children }

/-- A list with an element put in front of the first occurrence of another. -/
def insertInFront (sibling child : NodeId) : List NodeId → List NodeId
  | [] => []
  | first :: rest =>
      if first = sibling then child :: first :: rest
      else first :: insertInFront sibling child rest

def attachBefore (forest : Forest κ) (sibling child : NodeId) : Forest κ :=
  match forest.parent? sibling with
  | none => forest
  | some parent =>
      (forest.modify child fun node => { node with parent := some parent }).modify parent
        fun node => { node with children := insertInFront sibling child node.children }

def previousSibling? (forest : Forest κ) (id : NodeId) : Option NodeId := do
  let parent ← forest.parent? id
  ((forest.children parent).takeWhile (· ≠ id)).getLast?

/-! ## Walks -/

/-- The chain of parents from a node, itself included, of at most the given length. -/
def chain (forest : Forest κ) : Nat → NodeId → List NodeId
  | 0, _ => []
  | steps + 1, id =>
      id :: match forest.parent? id with
        | some parent => chain forest steps parent
        | none => []

def inclusiveAncestors (forest : Forest κ) (id : NodeId) : List NodeId :=
  forest.chain forest.size id

def isInclusiveAncestor (forest : Forest κ) (ancestor id : NodeId) : Bool :=
  (forest.inclusiveAncestors id).contains ancestor

/-- Takes the first of the waiting nodes and puts its children in its place, step by step. -/
def walk (forest : Forest κ) : Nat → List NodeId → List NodeId
  | 0, _ => []
  | _ + 1, [] => []
  | steps + 1, id :: waiting => id :: walk forest steps (forest.children id ++ waiting)

/-- The nodes below a node, each before its children, in order. -/
def descendants (forest : Forest κ) (id : NodeId) : List NodeId :=
  forest.walk forest.size (forest.children id)

end Forest

end ServerPages
