import ServerPages.Proofs.Document.Rooted
import ServerPages.Proofs.Document.Writing

/-!
# Operations on documents

What can be done to a document from outside, operation by operation. An operation that is
refused leaves the document as it is. Markup may be read in any way, as long as it is read as
trees: whatever they are, and whatever is done to the document at its own nodes, its nodes form
a forest all the time.
-/

namespace ServerPages

/-- A way to read markup, as a whole document or for an element of a name. -/
structure MarkupReader where
  page : String → List Markup.Tree
  fragment : String → String → List Markup.Tree

def MarkupReader.standard : MarkupReader :=
  ⟨Markup.parseDocument, Markup.parseFragment⟩

namespace Document

def read (reader : MarkupReader) (html : String) : Document :=
  empty.graftAll root (reader.page html)

def appendRead (reader : MarkupReader) (doc : Document) (parent : NodeId) (html : String) :
    Except EditError Document :=
  match doc.contextOf parent with
  | .error error => .error error
  | .ok context => .ok (doc.graftAll parent (reader.fragment context html))

theorem read_standard (html : String) : read .standard html = parse html := rfl

theorem appendRead_standard (doc : Document) (parent : NodeId) (html : String) :
    appendRead .standard doc parent html = doc.appendHtml parent html := rfl

inductive Origin
  | empty
  | markup (html : String)

def Origin.document (reader : MarkupReader) : Origin → Document
  | .empty => Document.empty
  | .markup html => read reader html

inductive Operation
  | createElement (name : String) (attributes : List (String × String))
  | createText (content : String)
  | createRaw (content : String)
  | createComment (content : String)
  | setAttr (id : NodeId) (name value : String)
  | removeAttr (id : NodeId) (name : String)
  | detach (id : NodeId)
  | appendChild (parent child : NodeId)
  | prependChild (parent child : NodeId)
  | appendHtml (parent : NodeId) (html : String)
  | setText (id : NodeId) (content : String)

namespace Operation

def nodes : Operation → List NodeId
  | .createElement _ _ | .createText _ | .createRaw _ | .createComment _ => []
  | .setAttr id _ _ | .removeAttr id _ | .detach id | .appendHtml id _ | .setText id _ => [id]
  | .appendChild parent child | .prependChild parent child => [parent, child]

def attempt (reader : MarkupReader) (doc : Document) : Operation → Except EditError Document
  | .createElement name attributes => .ok (doc.create (.element ⟨name, attributes⟩)).2
  | .createText content => .ok (doc.create (.text content)).2
  | .createRaw content => .ok (doc.create (.raw content)).2
  | .createComment content => .ok (doc.create (.comment content)).2
  | .setAttr id name value => doc.setAttr id name value
  | .removeAttr id name => .ok (doc.removeAttr id name)
  | .detach id => .ok (doc.detach id)
  | .appendChild parent child => doc.appendChild parent child
  | .prependChild parent child => doc.prependChild parent child
  | .appendHtml parent html => appendRead reader doc parent html
  | .setText id content => doc.setText id content

/-- The document after an operation; one that is refused changes nothing. -/
def perform (reader : MarkupReader) (doc : Document) (operation : Operation) : Document :=
  match operation.attempt reader doc with
  | .ok next => next
  | .error _ => doc

end Operation

def after (reader : MarkupReader) (doc : Document) (operations : List Operation) : Document :=
  operations.foldl (Operation.perform reader) doc

/-- Each operation names nodes that the document has by then. -/
def Owns (reader : MarkupReader) (doc : Document) : List Operation → Prop
  | [] => True
  | operation :: rest =>
      (∀ id ∈ operation.nodes, doc.Has id) ∧ Owns reader (operation.perform reader doc) rest

instance Owns.decidable (reader : MarkupReader) :
    (doc : Document) → (operations : List Operation) → Decidable (Owns reader doc operations)
  | _, [] => inferInstanceAs (Decidable True)
  | doc, operation :: rest =>
      have := decidable reader (operation.perform reader doc) rest
      inferInstanceAs (Decidable ((∀ id ∈ operation.nodes, doc.Has id) ∧ _))

/-- Parents and children of all nodes say the same, no node is above itself, and all ways up and
down come to an end. -/
structure IsForest (doc : Document) : Prop where
  /-- A node is once among the children of its parent, and nowhere else. -/
  once (parent child : NodeId) :
    (doc.children parent).count child = if doc.parent? child = some parent then 1 else 0
  /-- The chain of parents from a node ends. -/
  ends (id : NodeId) : ∃ upper, doc.Lineage id upper
  /-- No other nodes than the document and elements have children. -/
  hosts (id : NodeId) (filled : doc.children id ≠ []) :
    doc.kind? id = some .document ∨ ∃ element, doc.kind? id = some (.element element)
  /-- The first node alone is the document. -/
  top (id : NodeId) : doc.kind? id = some .document ↔ id = root
  /-- The walk upwards comes to the end of the chain of parents. -/
  upwards (id : NodeId) (inside : doc.Has id) {steps : Nat} (enough : doc.size ≤ steps) :
    doc.Lineage id (doc.inclusiveAncestors id) ∧ doc.chain steps id = doc.inclusiveAncestors id
  /-- The walk downwards comes to an end, after each node and before the next one below it. -/
  downwards (id : NodeId) {steps : Nat} (enough : doc.size ≤ steps) :
    doc.Preorder (doc.children id) (doc.descendants id) ∧
      doc.walk steps (doc.children id) = doc.descendants id
  /-- A node is written in full. -/
  written (id : NodeId) {height : Nat} (enough : doc.size ≤ height) :
    doc.subtrees height [id] = doc.subtrees doc.size [id]

theorem Rooted.isForest {doc : Document} (rooted : Rooted doc) : IsForest doc where
  once parent child := by
    have linked := rooted.wellFormed.linked parent child
    split
    · rename_i up
      exact List.count_eq_one_of_mem (rooted.wellFormed.nodup parent) (linked.mpr up)
    · rename_i apart
      exact List.count_eq_zero_of_not_mem fun down => apart (linked.mp down)
  ends := rooted.wellFormed.exists_lineage
  hosts id filled := takesChildren_iff.mp (rooted.hosts id filled)
  top := rooted.top
  upwards id inside steps enough := by
    have lineage := rooted.wellFormed.lineage_inclusiveAncestors inside
    have short := lineage.length_le rooted.wellFormed inside
    exact ⟨lineage, lineage.chain_eq (Nat.le_trans short enough)⟩
  downwards id steps enough := by
    have order := rooted.wellFormed.preorder_descendants id
    have short : (doc.descendants id).length ≤ doc.size :=
      Forest.length_le_size (rooted.wellFormed.nodup_descendants id) fun _ member =>
        rooted.wellFormed.has_of_mem_descendants member
    exact ⟨order, order.walk_eq (Nat.le_trans short enough)⟩
  written id height enough := subtrees_of_size_le rooted.wellFormed enough id

theorem Rooted.appendRead {doc next : Document} {reader : MarkupReader} {parent : NodeId}
    {html : String} (rooted : Rooted doc) (done : appendRead reader doc parent html = .ok next) :
    Rooted next := by
  unfold Document.appendRead at done
  split at done
  · cases done
  · rename_i context known
    cases done
    exact rooted.graftAll (takesChildren_of_contextOf known) _

/-- An operation at nodes of a document keeps it a forest, whether it is refused or not. -/
theorem Rooted.perform {doc : Document} (rooted : Rooted doc) (reader : MarkupReader)
    (operation : Operation) (own : ∀ id ∈ operation.nodes, doc.Has id) :
    Rooted (operation.perform reader doc) := by
  unfold Operation.perform
  cases attempt : operation.attempt reader doc with
  | error error => exact rooted
  | ok next =>
      cases operation with
      | createElement | createText | createRaw | createComment =>
          cases attempt
          exact rooted.create (by simp)
      | setAttr => exact rooted.setAttr attempt
      | removeAttr id name =>
          cases attempt
          exact rooted.removeAttr id name
      | detach id =>
          cases attempt
          exact rooted.detach id
      | appendChild parent child =>
          exact rooted.appendChild (own child (by simp [Operation.nodes])) attempt
      | prependChild parent child =>
          exact rooted.prependChild (own child (by simp [Operation.nodes])) attempt
      | appendHtml => exact rooted.appendRead attempt
      | setText => exact rooted.setText attempt

theorem Rooted.after {reader : MarkupReader} {operations : List Operation} {doc : Document}
    (rooted : Rooted doc) (own : doc.Owns reader operations) :
    Rooted (doc.after reader operations) := by
  induction operations generalizing doc with
  | nil => exact rooted
  | cons operation rest ih => exact ih (rooted.perform reader operation own.1) own.2

theorem Origin.rooted (reader : MarkupReader) (origin : Origin) :
    Rooted (origin.document reader) := by
  cases origin with
  | empty => exact rooted_empty
  | markup html => exact rooted_empty.graftAll rfl _

/-- Every document that can be reached keeps its first node as the top. -/
theorem Reachable.rooted {doc : Document} (reached : Reachable doc) : Rooted doc := by
  induction reached with
  | empty => exact rooted_empty
  | parse html => exact rooted_empty.graftAll rfl _
  | create _ kind leaf ih => exact ih.create leaf
  | setAttr _ done ih => exact ih.setAttr done
  | removeAttr _ id name ih => exact ih.removeAttr id name
  | detach _ id ih => exact ih.detach id
  | appendChild _ inside done ih => exact ih.appendChild inside done
  | prependChild _ inside done ih => exact ih.prependChild inside done
  | setText _ done ih => exact ih.setText done
  | appendHtml _ done ih =>
      exact ih.appendRead ((appendRead_standard _ _ _).trans done)

/-- Whatever is done to a document at its own nodes, its nodes form a forest. -/
theorem isForest_after (reader : MarkupReader) (origin : Origin) {operations : List Operation}
    (own : (origin.document reader).Owns reader operations) :
    IsForest ((origin.document reader).after reader operations) :=
  ((origin.rooted reader).after own).isForest

/-- A section is filled, then moved into its own child, which is refused. -/
theorem isForest_after_refusal :
    let reader : MarkupReader := ⟨fun _ => [], fun _ _ => [.text "read", .comment "aside"]⟩
    let operations : List Operation :=
      [.createElement "section" [], .createElement "p" [("id", "inner")], .appendChild root ⟨1⟩,
        .appendChild ⟨1⟩ ⟨2⟩, .appendHtml ⟨2⟩ "read", .appendChild ⟨2⟩ ⟨1⟩, .setText ⟨2⟩ "written"]
    Owns reader (Origin.empty.document reader) operations ∧
      IsForest ((Origin.empty.document reader).after reader operations) := by
  intro reader operations
  have own : Owns reader (Origin.empty.document reader) operations := by decide +kernel
  exact ⟨own, isForest_after reader .empty own⟩

end Document

end ServerPages
