import ServerPages.Proofs.Document.Decoding
import ServerPages.Proofs.Forest.GrownAt

/-!
# Trees in forests

A tree stands at a node if the node is what the tree starts with and the trees below it stand at
the nodes below, each being newer than its parent: the children of the node, after those of another
node if it keeps its contents there. What stands at new nodes stays there while the forest grows at
older ones, and it is read off in full. So the tree of a parsed document is known from the trees
that the markup was read as.
-/

namespace ServerPages

open Markup (Tree)

variable {κ : Type}

namespace Subtree

/-- How trees stand in a forest: whether a node of a kind is what a tree starts with, below an
element of a name, and the node that keeps the contents of one. -/
structure Shape (κ : Type) where
  starts : Option String → κ → Subtree → Prop
  contents : κ → Option NodeId

section

variable (shape : Shape κ) (forest : Forest κ)

def nodesBelow (kind : κ) (id : NodeId) : List NodeId :=
  ((shape.contents kind).map forest.children).getD [] ++ forest.children id

/-- The node is what the tree starts with, and it is no older than a bound. -/
structure StartsAt (parent : Option String) (bound : Nat) (id : NodeId) (kind : κ)
    (tree : Subtree) : Prop where
  late : bound ≤ id.index
  known : forest.kind? id = some kind
  starts : shape.starts parent kind tree
  contents : ∀ inner ∈ shape.contents kind, bound ≤ inner.index ∧ forest.Has inner

mutual

def ShownAt (parent : Option String) (bound : Nat) (id : NodeId) : Subtree → Prop
  | .document trees => ∃ kind, StartsAt shape forest parent bound id kind (.document trees) ∧
      ShownAll none (id.index + 1) (nodesBelow shape forest kind id) trees
  | .element data trees =>
      ∃ kind, StartsAt shape forest parent bound id kind (.element data trees) ∧
      ShownAll (some data.name) (id.index + 1) (nodesBelow shape forest kind id) trees
  | .doctype name => ∃ kind, StartsAt shape forest parent bound id kind (.doctype name)
  | .text content => ∃ kind, StartsAt shape forest parent bound id kind (.text content)
  | .raw content => ∃ kind, StartsAt shape forest parent bound id kind (.raw content)
  | .comment content => ∃ kind, StartsAt shape forest parent bound id kind (.comment content)

def ShownAll (parent : Option String) (bound : Nat) : List NodeId → List Subtree → Prop
  | [], [] => True
  | id :: ids, tree :: trees => ShownAt parent bound id tree ∧ ShownAll parent bound ids trees
  | _, _ => False

end

end

variable {shape : Shape κ} {before after : Forest κ} {parent : Option String} {bound lower : Nat}
  {id : NodeId} {ids more : List NodeId} {kind : κ} {tree : Subtree} {trees others : List Subtree}

theorem shownAll_append (first : ShownAll shape after parent bound ids trees)
    (second : ShownAll shape after parent bound more others) :
    ShownAll shape after parent bound (ids ++ more) (trees ++ others) := by
  induction ids generalizing trees with
  | nil =>
      cases trees with
      | nil => exact second
      | cons => exact first.elim
  | cons id ids ih =>
      cases trees with
      | nil => exact first.elim
      | cons tree trees => exact ⟨first.1, ih first.2⟩

theorem StartsAt.has (here : StartsAt shape after parent bound id kind tree) : after.Has id :=
  Forest.has_of_kind? here.known

theorem ShownAt.startsAt (here : ShownAt shape after parent bound id tree) :
    ∃ kind, StartsAt shape after parent bound id kind tree := by
  cases tree with
  | document trees =>
      obtain ⟨kind, start, _⟩ := here
      exact ⟨kind, start⟩
  | element data trees =>
      obtain ⟨kind, start, _⟩ := here
      exact ⟨kind, start⟩
  | doctype | text | raw | comment => exact here

theorem StartsAt.transfer (lower_le : lower ≤ bound) (sizes : before.size ≤ after.size)
    (kinds : ∀ id, bound ≤ id.index → before.Has id → after.kind? id = before.kind? id)
    (here : StartsAt shape before parent bound id kind tree) :
    StartsAt shape after parent lower id kind tree where
  late := Nat.le_trans lower_le here.late
  known := (kinds id here.late here.has).trans here.known
  starts := here.starts
  contents inner member :=
    have ⟨late, inside⟩ := here.contents inner member
    ⟨Nat.le_trans lower_le late, Nat.lt_of_lt_of_le inside sizes⟩

/-- What is below a node that a tree starts at stays there with the children of the nodes down to a
bound. -/
theorem StartsAt.nodesBelow_eq (here : StartsAt shape before parent bound id kind tree)
    (children : ∀ id, bound ≤ id.index → before.Has id → after.children id = before.children id) :
    nodesBelow shape after kind id = nodesBelow shape before kind id := by
  unfold nodesBelow
  rw [children id here.late here.has]
  cases contents : shape.contents kind with
  | none => rfl
  | some inner =>
      obtain ⟨late, inside⟩ := here.contents inner contents
      rw [Option.map_some, Option.map_some, children inner late inside]

/-- A reading that takes nodes one after the other reads off the trees that stand at them, if it
reads a tree once it reads what is below. No more nodes are newer than a bound than the height. -/
theorem eq_of_shownAll {forest : Forest κ}
    (reads : Option String → Nat → List NodeId → List Subtree)
    (none : ∀ parent height, reads parent height [] = [])
    (more : ∀ parent height id ids, reads parent (height + 1) (id :: ids) =
      reads parent (height + 1) [id] ++ reads parent (height + 1) ids)
    (one : ∀ {parent height bound id tree},
      (∀ {parent bound ids trees}, ShownAll shape forest parent bound ids trees →
        forest.size ≤ bound + height → reads parent height ids = trees) →
      ShownAt shape forest parent bound id tree → forest.size ≤ bound + (height + 1) →
      reads parent (height + 1) [id] = [tree])
    (height : Nat) {parent : Option String} {bound : Nat} {ids : List NodeId} {trees : List Subtree}
    (shown : ShownAll shape forest parent bound ids trees) (high : forest.size ≤ bound + height) :
    reads parent height ids = trees := by
  induction height generalizing parent bound ids trees with
  | zero =>
      match ids, trees, shown with
      | [], [], _ => exact none parent 0
      | id :: _, _ :: _, ⟨first, _⟩ =>
          obtain ⟨_, start⟩ := first.startsAt
          have late := start.late
          have inside : id.index < forest.size := start.has
          omega
  | succ height ih =>
      induction ids generalizing trees with
      | nil =>
          cases trees with
          | nil => exact none parent (height + 1)
          | cons => exact shown.elim
      | cons id ids ihs =>
          cases trees with
          | nil => exact shown.elim
          | cons tree trees =>
              obtain ⟨first, others⟩ := shown
              rw [more, ihs others, one ih first high, List.singleton_append]

mutual

/-- Trees stay at nodes whose kinds and children stay, down to a bound that they are newer than. -/
theorem ShownAt.transfer {before after : Forest κ} {parent : Option String} {bound lower : Nat}
    {id : NodeId} (tree : Subtree) (lower_le : lower ≤ bound) (sizes : before.size ≤ after.size)
    (kinds : ∀ id, bound ≤ id.index → before.Has id → after.kind? id = before.kind? id)
    (children : ∀ id, bound ≤ id.index → before.Has id → after.children id = before.children id)
    (here : ShownAt shape before parent bound id tree) :
    ShownAt shape after parent lower id tree := by
  cases tree with
  | document trees =>
      obtain ⟨kind, start, shown⟩ := here
      have late := start.late
      refine ⟨kind, start.transfer lower_le sizes kinds, ?_⟩
      rw [start.nodesBelow_eq children]
      exact ShownAll.transfer trees (Nat.le_refl _) sizes
        (fun other later => kinds other (by omega))
        (fun other later => children other (by omega)) shown
  | element data trees =>
      obtain ⟨kind, start, shown⟩ := here
      have late := start.late
      refine ⟨kind, start.transfer lower_le sizes kinds, ?_⟩
      rw [start.nodesBelow_eq children]
      exact ShownAll.transfer trees (Nat.le_refl _) sizes
        (fun other later => kinds other (by omega))
        (fun other later => children other (by omega)) shown
  | doctype | text | raw | comment =>
      obtain ⟨kind, start⟩ := here
      exact ⟨kind, start.transfer lower_le sizes kinds⟩

theorem ShownAll.transfer {before after : Forest κ} {parent : Option String} {bound lower : Nat}
    {ids : List NodeId} (trees : List Subtree) (lower_le : lower ≤ bound)
    (sizes : before.size ≤ after.size)
    (kinds : ∀ id, bound ≤ id.index → before.Has id → after.kind? id = before.kind? id)
    (children : ∀ id, bound ≤ id.index → before.Has id → after.children id = before.children id)
    (here : ShownAll shape before parent bound ids trees) :
    ShownAll shape after parent lower ids trees := by
  match ids, trees, here with
  | [], [], _ => exact trivial
  | id :: ids, tree :: trees, ⟨first, others⟩ =>
      exact ⟨ShownAt.transfer tree lower_le sizes kinds children first,
        ShownAll.transfer trees lower_le sizes kinds children others⟩

end

/-- Trees stay where they are while the forest grows at an older node. -/
theorem ShownAll.grownAt {place : NodeId} {new : List NodeId}
    (here : ShownAll shape before parent bound ids trees)
    (grown : Forest.GrownAt place new before after) (older : place.index < bound) :
    ShownAll shape after parent bound ids trees :=
  here.transfer trees (Nat.le_refl _) grown.size_le (fun id _ inside => grown.kinds id inside)
    fun id late inside => grown.elsewhere id inside fun same => by
      rw [same] at late
      omega

theorem ShownAll.weaken (lower_le : lower ≤ bound)
    (here : ShownAll shape before parent bound ids trees) :
    ShownAll shape before parent lower ids trees :=
  here.transfer trees lower_le (Nat.le_refl _) (fun _ _ _ => rfl) fun _ _ _ => rfl

end Subtree

/-! ## Parsed documents -/

def NodeKind.Starts (_ : Option String) (kind : NodeKind) : Subtree → Prop
  | .document _ => kind = .document
  | .doctype name => kind = .doctype name
  | .element data _ => kind = .element data
  | .text content => kind = .text content
  | .raw content => kind = .raw content
  | .comment content => kind = .comment content

/-- The trees of a document stand at its nodes, and below them at their children. -/
def NodeKind.shape : Subtree.Shape NodeKind where
  starts := NodeKind.Starts
  contents _ := none

theorem NodeKind.nodesBelow_eq (forest : Forest NodeKind) (kind : NodeKind) (id : NodeId) :
    Subtree.nodesBelow shape forest kind id = forest.children id := rfl

namespace Subtree

def ofText (parent : Option String) (content : String) : Subtree :=
  if (parent.map Markup.isRawText).getD false then .raw content else .text content

mutual

/-- The trees that a parsed one becomes below an element of a name. The contents of a template come
in front of its children. -/
def ofTree (parent : Option String) : Tree → List Subtree
  | .doctype name => [.doctype name]
  | .text content => [ofText parent content]
  | .comment content => [.comment content]
  | .instruction _ _ => []
  | .element _ name attributes contents children =>
      [.element ⟨name.text, attributes.map fun item => (item.name.text, item.value)⟩
        (ofTrees (some name.text) contents ++ ofTrees (some name.text) children)]

def ofTrees (parent : Option String) : List Tree → List Subtree
  | [] => []
  | tree :: trees => ofTree parent tree ++ ofTrees parent trees

end

end Subtree

namespace Document

open Subtree Forest

def whole (doc : Document) : List Subtree :=
  doc.subtrees doc.size [root]

theorem toHtml_eq (doc : Document) : doc.toHtml = String.ofList (listChars doc.whole) := rfl

theorem starts_textKind (parent : Option String) (content : String) :
    (textKind parent content).Starts parent (ofText parent content) := by
  unfold textKind ofText
  split <;> rfl

theorem tagName?_grownAt {doc next : Document} {place : NodeId} {new : List NodeId}
    (grown : GrownAt place new doc next) {id : NodeId} (inside : Forest.Has doc id) :
    next.tagName? id = doc.tagName? id := by
  unfold tagName? element?
  rw [grown.kinds id inside]

/-- A node that is copied, with nothing below it. -/
theorem shown_addLast {doc : Document} {parent : NodeId} (inside : Forest.Has doc parent)
    {kind : NodeKind} {name : Option String} {tree : Subtree} (starts : kind.Starts name tree)
    (leaf : ∀ {forest : Document} {bound : Nat} {id : NodeId},
      (∃ kind, StartsAt NodeKind.shape forest name bound id kind tree) →
        ShownAt NodeKind.shape forest name bound id tree) :
    ∃ ids, GrownAt parent ids doc (doc.addLast parent kind) ∧
      ShownAll NodeKind.shape (doc.addLast parent kind) name doc.size ids [tree] := by
  refine ⟨[⟨doc.size⟩], grownAt_sprout kind inside, leaf ⟨kind, Nat.le_refl _, ?_, starts, nofun⟩,
    trivial⟩
  exact kind?_sprout_new doc kind

mutual

/-- Copying a tree adds its nodes at the end of the children of one node, and nothing else. -/
theorem shown_graft {doc : Document} {parent : NodeId} (inside : Forest.Has doc parent)
    (tree : Tree) :
    ∃ ids, GrownAt parent ids doc (doc.graft parent tree) ∧
      ShownAll NodeKind.shape (doc.graft parent tree) (doc.tagName? parent) doc.size ids
        (ofTree (doc.tagName? parent) tree) := by
  cases tree with
  | doctype name =>
      have starts : (NodeKind.doctype name).Starts (doc.tagName? parent) (.doctype name) := rfl
      exact shown_addLast inside starts id
  | text content =>
      refine shown_addLast inside (starts_textKind _ content) fun here => ?_
      unfold ofText at here ⊢
      split at here
      · rename_i raw
        rw [if_pos raw]
        exact here
      · rename_i plain
        rw [if_neg plain]
        exact here
  | comment content =>
      have starts : (NodeKind.comment content).Starts (doc.tagName? parent) (.comment content) :=
        rfl
      exact shown_addLast inside starts id
  | instruction target content => exact ⟨[], .refl parent doc, trivial⟩
  | element vocabulary name attributes contents children =>
      let data : Element := ⟨name.text, attributes.map fun item => (item.name.text, item.value)⟩
      let added : Document := doc.addLast parent (.element data)
      let top : NodeId := ⟨doc.size⟩
      have sprouted : GrownAt parent [top] doc added := grownAt_sprout _ inside
      have known : added.kind? top = some (.element data) := kind?_sprout_new doc _
      have named : added.tagName? top = some name.text := by
        rw [tagName?, element?, known]
        rfl
      have hasTop : Forest.Has added top := has_of_kind? known
      -- contents and children come below the new element, one behind the other
      obtain ⟨ids, grown, shown⟩ := shown_graftAll hasTop contents
      obtain ⟨more, grownMore, shownMore⟩ := shown_graftAll (grown.has hasTop) children
      rw [tagName?_grownAt grown hasTop] at shownMore
      rw [named] at shown shownMore
      have below := grown.trans grownMore
      have size : added.size = doc.size + 1 := size_sprout doc _
      have older : top.index < added.size := by
        rw [size]
        exact Nat.lt_succ_self doc.size
      have inner := shownAll_append (shown.grownAt grownMore older) (shownMore.weaken grown.size_le)
      have whole := below.here
      rw [show added.children top = [] from children_sprout_new _ inside, List.nil_append] at whole
      refine ⟨[top], sprouted.within inside (not_has_size doc) below, ⟨.element data,
        ⟨Nat.le_refl _, ?_, rfl, nofun⟩, ?_⟩, trivial⟩
      · exact (below.kinds top hasTop).trans known
      · rw [size] at inner
        rw [NodeKind.nodesBelow_eq]
        exact whole ▸ inner

theorem shown_graftAll {doc : Document} {parent : NodeId} (inside : Forest.Has doc parent)
    (trees : List Tree) :
    ∃ ids, GrownAt parent ids doc (doc.graftAll parent trees) ∧
      ShownAll NodeKind.shape (doc.graftAll parent trees) (doc.tagName? parent) doc.size ids
        (ofTrees (doc.tagName? parent) trees) := by
  cases trees with
  | nil => exact ⟨[], .refl parent doc, trivial⟩
  | cons tree trees =>
      obtain ⟨ids, grown, shown⟩ := shown_graft inside tree
      obtain ⟨more, grownMore, shownMore⟩ := shown_graftAll (grown.has inside) trees
      rw [tagName?_grownAt grown inside] at shownMore
      exact ⟨ids ++ more, grown.trans grownMore,
        shownAll_append (shown.grownAt grownMore inside) (shownMore.weaken grown.size_le)⟩

end

theorem subtrees_cons (doc : Document) (height : Nat) (id : NodeId) (ids : List NodeId) :
    doc.subtrees (height + 1) (id :: ids) =
      doc.subtrees (height + 1) [id] ++ doc.subtrees (height + 1) ids := by
  simp only [subtrees, ← List.filterMap_append, List.singleton_append]

/-- Trees that stand at nodes are written, given height enough for the nodes newer than a bound. -/
theorem subtrees_of_shownAll {doc : Document} {parent : Option String} (height : Nat) {bound : Nat}
    {ids : List NodeId} {trees : List Subtree}
    (shown : ShownAll NodeKind.shape doc parent bound ids trees)
    (high : doc.size ≤ bound + height) : doc.subtrees height ids = trees := by
  refine Subtree.eq_of_shownAll (fun _ height => doc.subtrees height) ?none
    (fun _ height => subtrees_cons doc height) ?one height shown high
  case none =>
    intro _ height
    cases height <;> rfl
  case one =>
    intro parent height bound id tree ih shown high
    cases tree with
    | document below =>
        obtain ⟨kind, start, inner⟩ := shown
        have late := start.late
        rw [subtrees_of_kind? start.known, show kind = .document from start.starts]
        rw [NodeKind.nodesBelow_eq] at inner
        rw [ih inner (by omega)]
        rfl
    | element data below =>
        obtain ⟨kind, start, inner⟩ := shown
        have late := start.late
        rw [subtrees_of_kind? start.known, show kind = .element data from start.starts]
        rw [NodeKind.nodesBelow_eq] at inner
        rw [ih inner (by omega)]
        rfl
    | doctype | text | raw | comment =>
        obtain ⟨kind, start⟩ := shown
        rw [subtrees_of_kind? start.known, show kind = _ from start.starts]
        rfl

/-- The tree of a document that was made of parsed trees. -/
theorem whole_graftAll (trees : List Tree) :
    (empty.graftAll root trees).whole = [.document (ofTrees none trees)] := by
  have inside : Forest.Has empty root := by decide
  obtain ⟨ids, grown, shown⟩ := shown_graftAll inside trees
  have children := grown.here
  have known := grown.kinds root inside
  have top : ShownAt NodeKind.shape (empty.graftAll root trees) none 0 root
      (.document (ofTrees none trees)) := by
    refine ⟨.document, ⟨Nat.le_refl _, known, rfl, nofun⟩, ?_⟩
    rw [NodeKind.nodesBelow_eq,
      show Forest.children (empty.graftAll root trees) root = ids from children]
    exact shown
  have all : ShownAll NodeKind.shape (empty.graftAll root trees) none 0 [root] [_] :=
    ⟨top, trivial⟩
  exact subtrees_of_shownAll _ all (by omega)

end Document

end ServerPages
