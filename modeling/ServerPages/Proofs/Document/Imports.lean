import ServerPages.Proofs.Document.Operations
import ServerPages.Proofs.Document.Shown
import ServerPages.Proofs.Document.Sweeps

/-!
# Markup in document order

Parsed trees are copied into a document node by node, each node in front of those below it. So the
new nodes take the next free places in the order in which the document is walked through, and the
nodes that were there stay as they were, but for the new children of one of them.
-/

namespace ServerPages

open Markup (Tree)

namespace Subtree

mutual

def count : Subtree → Nat
  | .document trees | .element _ trees => countAll trees + 1
  | .doctype _ | .text _ | .raw _ | .comment _ => 1

def countAll : List Subtree → Nat
  | [] => 0
  | tree :: trees => count tree + countAll trees

end

theorem countAll_append (trees others : List Subtree) :
    countAll (trees ++ others) = countAll trees + countAll others := by
  induction trees with
  | nil => exact (Nat.zero_add _).symm
  | cons tree trees ih => rw [List.cons_append, countAll, countAll, ih, Nat.add_assoc]

theorem countAll_single (tree : Subtree) : countAll [tree] = count tree :=
  Nat.add_zero _

theorem count_ofText (parent : Option String) (content : String) :
    count (ofText parent content) = 1 := by
  unfold ofText
  split <;> rfl

end Subtree

namespace Forest

variable {κ : Type} {before after : Forest κ} {place id : NodeId} {ids waiting : List NodeId}

def places (low count : Nat) : List NodeId :=
  (List.range' low count).map NodeId.mk

theorem places_succ (low count : Nat) :
    places low (count + 1) = ⟨low⟩ :: places (low + 1) count := by
  rw [places, List.range'_succ, List.map_cons, places]

theorem places_append (low first more : Nat) :
    places low first ++ places (low + first) more = places low (first + more) := by
  rw [places, places, ← List.map_append, List.range'_append_1, places]

theorem mem_places {low count : Nat} :
    id ∈ places low count ↔ low ≤ id.index ∧ id.index < low + count := by
  rw [places, List.mem_map]
  constructor
  · rintro ⟨index, listed, rfl⟩
    exact List.mem_range'_1.mp listed
  · intro between
    exact ⟨id.index, List.mem_range'_1.mpr between, rfl⟩

theorem Preorder.single (below : after.Preorder (after.children id) ids) :
    after.Preorder [id] (id :: ids) := by
  have whole := below.cons .nil
  rwa [List.append_nil] at whole

/-- A walk goes the same way as long as it meets the same children. -/
theorem Preorder.congr (order : before.Preorder waiting ids)
    (same : ∀ id ∈ ids, after.children id = before.children id) : after.Preorder waiting ids := by
  induction order with
  | nil => exact .nil
  | @cons id waiting inner rest _ _ below later =>
      refine .cons ?_ (later fun other member => same other ?_)
      · rw [same id List.mem_cons_self]
        exact below fun other member =>
          same other (List.mem_cons_of_mem _ (List.mem_append_left _ member))
      · exact List.mem_cons_of_mem _ (List.mem_append_right _ member)

/-- The nodes that were there are what they were, but for new children of one of them. -/
theorem GrownAt.node?_eq (growth : GrownAt place ids before after) (grown : Grown before after)
    (inside : before.Has id) :
    after.node? id = (before.node? id).map fun node =>
      if id = place then { node with children := node.children ++ ids } else node := by
  obtain ⟨node, found⟩ := (has_iff before id).mp inside
  obtain ⟨later, now⟩ := (has_iff after id).mp (growth.has inside)
  have kind := growth.kinds id inside
  have parent := grown.parents id inside
  rw [kind?, kind?, now, found] at kind
  rw [parent?, parent?, now, found] at parent
  have children : later.children = if id = place then node.children ++ ids else node.children := by
    by_cases here : id = place
    · have more := growth.here
      rw [← here, children_eq, children_eq, now, found] at more
      rw [if_pos here]
      exact more
    · have same := growth.elsewhere id inside here
      rw [children_eq, children_eq, now, found] at same
      rw [if_neg here]
      exact same
  rw [now, found, Option.map_some]
  cases later
  cases node
  cases kind
  cases parent
  split <;> simp_all

end Forest

namespace Document

open Subtree Forest

variable {doc middle next : Document} {parent id : NodeId} {ids more : List NodeId}
  {trees others : List Subtree}

/-! ## Copies -/

/-- A document has grown below a node by trees whose nodes have the next places, in the order of the
document. -/
structure Copied (doc next : Document) (parent : NodeId) (ids : List NodeId)
    (trees : List Subtree) : Prop where
  grown : GrownAt parent ids doc next
  size : next.size = doc.size + countAll trees
  order : next.Preorder ids (places doc.size (countAll trees))

namespace Copied

theorem refl (doc : Document) (parent : NodeId) : Copied doc doc parent [] [] where
  grown := .refl parent doc
  size := rfl
  order := .nil

/-- What is copied later changes nothing below what was copied before. -/
theorem append (inside : doc.Has parent) (first : Copied doc middle parent ids trees)
    (second : Copied middle next parent more others) :
    Copied doc next parent (ids ++ more) (trees ++ others) where
  grown := first.grown.trans second.grown
  size := by rw [second.size, first.size, countAll_append, Nat.add_assoc]
  order := by
    have earlier : next.Preorder ids (places doc.size (countAll trees)) := by
      refine first.order.congr fun id member => ?_
      obtain ⟨late, early⟩ := mem_places.mp member
      refine second.grown.elsewhere id ?_ ?_
      · rw [Forest.Has, first.size]
        exact early
      · rintro rfl
        exact Nat.not_lt.mpr late inside
    have whole := earlier.append second.order
    rwa [first.size, places_append, ← countAll_append] at whole

theorem leaf (inside : doc.Has parent) (kind : NodeKind) {tree : Subtree}
    (single : count tree = 1) :
    Copied doc (doc.addLast parent kind) parent [⟨doc.size⟩] [tree] where
  grown := grownAt_sprout kind inside
  size := by
    rw [countAll_single, single]
    exact size_sprout doc kind
  order := by
    rw [countAll_single, single, places_succ]
    have nothing : (doc.addLast parent kind).children ⟨doc.size⟩ = [] :=
      children_sprout_new kind inside
    refine .single ?_
    rw [nothing]
    exact .nil

/-- An element comes in front of what is copied below it. -/
theorem element (inside : doc.Has parent) {data : Element}
    (below : Copied (doc.addLast parent (.element data)) next ⟨doc.size⟩ ids trees) :
    Copied doc next parent [⟨doc.size⟩] [.element data trees] where
  grown := (grownAt_sprout _ inside).within inside (not_has_size doc) below.grown
  size := by
    rw [below.size, size_addLast, countAll_single, count]
    omega
  order := by
    have nothing : (doc.addLast parent (.element data)).children ⟨doc.size⟩ = [] :=
      children_sprout_new _ inside
    have children := below.grown.here
    rw [nothing, List.nil_append] at children
    have order := below.order
    rw [size_addLast] at order
    rw [countAll_single, count, places_succ]
    refine .single ?_
    rw [children]
    exact order

end Copied

mutual

/-- A tree is copied in document order. -/
theorem copied_graft {doc : Document} {parent : NodeId} (inside : doc.Has parent) (tree : Tree) :
    ∃ ids, Copied doc (doc.graft parent tree) parent ids (ofTree (doc.tagName? parent) tree) := by
  cases tree with
  | doctype name => exact ⟨_, .leaf inside _ rfl⟩
  | text content => exact ⟨_, .leaf inside _ (count_ofText _ content)⟩
  | comment content => exact ⟨_, .leaf inside _ rfl⟩
  | instruction target content => exact ⟨[], .refl doc parent⟩
  | element vocabulary name attributes contents children =>
      let data : Element := ⟨name.text, attributes.map fun item => (item.name.text, item.value)⟩
      let added : Document := doc.addLast parent (.element data)
      let top : NodeId := ⟨doc.size⟩
      have known : added.kind? top = some (.element data) := kind?_sprout_new doc _
      have named : added.tagName? top = some name.text := by
        rw [tagName?, element?, known]
        rfl
      have hasTop : added.Has top := has_of_kind? known
      obtain ⟨ids, first⟩ := copied_graftAll hasTop contents
      obtain ⟨more, second⟩ := copied_graftAll (first.grown.has hasTop) children
      rw [tagName?_grownAt first.grown hasTop] at second
      rw [named] at first second
      exact ⟨_, .element inside (first.append hasTop second)⟩

theorem copied_graftAll {doc : Document} {parent : NodeId} (inside : doc.Has parent)
    (trees : List Tree) :
    ∃ ids, Copied doc (doc.graftAll parent trees) parent ids
      (ofTrees (doc.tagName? parent) trees) := by
  cases trees with
  | nil => exact ⟨[], .refl doc parent⟩
  | cons tree trees =>
      obtain ⟨ids, first⟩ := copied_graft inside tree
      obtain ⟨more, second⟩ := copied_graftAll (first.grown.has inside) trees
      rw [tagName?_grownAt first.grown inside] at second
      exact ⟨ids ++ more, first.append inside second⟩

end

/-! ## What is read -/

/-- A document whose tree is made of the given ones, and whose nodes are numbered in the order of
the document. -/
structure ReadAs (doc : Document) (trees : List Subtree) : Prop where
  shows (height : Nat) (enough : doc.size ≤ height) :
    doc.subtrees height [root] = [.document trees]
  size : doc.size = countAll trees + 1
  numbered : doc.descendants root = places 1 (countAll trees)

structure Imported (doc next : Document) (place : NodeId) (ids : List NodeId)
    (trees : List Subtree) : Prop where
  /-- All nodes that were there are what they were, but for the new children of one of them. -/
  kept (id : NodeId) (inside : doc.Has id) :
    next.node? id = (doc.node? id).map fun node =>
      if id = place then { node with children := node.children ++ ids } else node
  /-- The trees stand at the new children. -/
  shows (height : Nat) (enough : next.size ≤ height) : next.subtrees height ids = trees
  size : next.size = doc.size + countAll trees
  /-- The nodes of the trees, each in front of those below it, have the next free places. -/
  numbered : (ids.flatMap fun id => id :: next.descendants id) = places doc.size (countAll trees)

theorem imported_graftAll (wf : doc.WellFormed) (inside : doc.Has parent) (trees : List Tree) :
    ∃ ids, Imported doc (doc.graftAll parent trees) parent ids
      (ofTrees (doc.tagName? parent) trees) := by
  obtain ⟨ids, copied⟩ := copied_graftAll inside trees
  obtain ⟨others, grown, shown⟩ := shown_graftAll inside trees
  obtain ⟨after, links⟩ := grown_graftAll parent wf inside trees
  have same : others = ids := List.append_cancel_left (grown.here.symm.trans copied.grown.here)
  refine ⟨ids, ?_, ?_, copied.size, ?_⟩
  · intro id old
    exact copied.grown.node?_eq links old
  · intro height enough
    exact subtrees_of_shownAll height (same ▸ shown) (by omega)
  · exact (after.preorder_flatMap ids).unique copied.order

theorem readAs_read (reader : MarkupReader) (html : String) :
    ReadAs (read reader html) (ofTrees none (reader.page html)) := by
  have inside : Forest.Has empty root := rooted_empty.has_root
  obtain ⟨ids, copied⟩ := copied_graftAll inside (reader.page html)
  have after := (grown_graftAll root wellFormed_empty inside (reader.page html)).1
  refine ⟨?_, ?_, ?_⟩
  · intro height enough
    exact (subtrees_of_size_le after enough root).trans (whole_graftAll (reader.page html))
  · exact copied.size.trans (Nat.add_comm _ _)
  · have order := after.preorder_descendants root
    rw [copied.grown.here] at order
    exact order.unique copied.order

theorem contextOf_of_tagName? {name : String} (known : doc.tagName? id = some name) :
    doc.contextOf id = .ok name := by
  rw [tagName?, Option.map_eq_some_iff] at known
  obtain ⟨element, known, rfl⟩ := known
  rw [contextOf, element?_eq_some_iff.mp known]

/-- Markup is read in document order, whatever was done to a document at its own nodes before. -/
theorem imported_after (reader : MarkupReader) (origin : Origin) {operations : List Operation}
    (own : (origin.document reader).Owns reader operations) (html : String) :
    let doc : Document := (origin.document reader).after reader operations
    ReadAs (read reader html) (ofTrees none (reader.page html)) ∧
      ∀ place context, doc.contextOf place = .ok context →
        ∃ next ids, appendRead reader doc place html = .ok next ∧
          Imported doc next place ids
            (ofTrees (doc.tagName? place) (reader.fragment context html)) := by
  intro doc
  refine ⟨readAs_read reader html, fun place context known => ?_⟩
  have rooted : Rooted doc := (origin.rooted reader).after own
  have inside : doc.Has place := has_of_takesChildren (takesChildren_of_contextOf known)
  obtain ⟨ids, imported⟩ :=
    imported_graftAll rooted.wellFormed inside (reader.fragment context html)
  refine ⟨_, ids, ?_, imported⟩
  rw [appendRead, known]

/-- The contents of a template come in front of the comment below it, and the instruction is left
out. What is read for the paragraph comes behind the text that it has. -/
theorem imported_after_template :
    let reader : MarkupReader :=
      ⟨fun _ => [.doctype "html", .element .html (.plain "template") [⟨.plain "id", "t"⟩]
          [.element .html (.plain "script") [] [] [.text "1 < 2"]]
          [.instruction "xml" "version", .comment "aside"]],
        fun _ _ => [.element .svg (.plain "svg") [] [] [.element .svg (.plain "use")
          [⟨⟨some "xlink", "href"⟩, "#t"⟩, ⟨.plain "id", "u"⟩] [] []], .text "end"]⟩
    let operations : List Operation :=
      [.createElement "p" [], .appendChild root ⟨6⟩, .setText ⟨6⟩ "start"]
    let doc : Document := ((Origin.markup "page").document reader).after reader operations
    Owns reader ((Origin.markup "page").document reader) operations ∧
      ReadAs (read reader "page") [.doctype "html", .element ⟨"template", [("id", "t")]⟩
        [.element ⟨"script", []⟩ [.raw "1 < 2"], .comment "aside"]] ∧
      doc.contextOf ⟨6⟩ = .ok "p" ∧
      ∃ next ids, appendRead reader doc ⟨6⟩ "page" = .ok next ∧
        Imported doc next ⟨6⟩ ids [.element ⟨"svg", []⟩
          [.element ⟨"use", [("xlink:href", "#t"), ("id", "u")]⟩ []], .text "end"] := by
  intro reader operations doc
  have own : Owns reader ((Origin.markup "page").document reader) operations := by decide +kernel
  have page : ofTrees none (reader.page "page") = [.doctype "html",
      .element ⟨"template", [("id", "t")]⟩
        [.element ⟨"script", []⟩ [.raw "1 < 2"], .comment "aside"]] := by
    decide +kernel
  have fragment : ofTrees (doc.tagName? ⟨6⟩) (reader.fragment "p" "page") =
      [.element ⟨"svg", []⟩ [.element ⟨"use", [("xlink:href", "#t"), ("id", "u")]⟩ []],
        .text "end"] := by
    decide +kernel
  have known : doc.tagName? ⟨6⟩ = some "p" := by decide +kernel
  have context := contextOf_of_tagName? known
  obtain ⟨whole, below⟩ := imported_after reader (.markup "page") own "page"
  rw [page] at whole
  have inserted := below ⟨6⟩ "p" context
  rw [fragment] at inserted
  exact ⟨own, whole, context, inserted⟩

end Document

end ServerPages
