import Mathlib.Data.List.TakeWhile
import ServerPages.Proofs.Document.Operations
import ServerPages.Proofs.Document.Searches

/-!
# Walks with a stack

A walk downwards keeps the nodes that wait on a stack: it goes on with the last of them and puts the
children of that node in its place, the first of them last. It ends when it comes to a wanted node
or when no node waits any more. A walk upwards goes from parent to parent until it comes to a wanted
node or to one without a parent.

In a document both come to an end. What the one downwards meets are the nodes below, each in front
of what is below it, as a recursion along the children lists them, and a search that stops early
finds what comes first in the list of all that could be found.
-/

namespace ServerPages

namespace Forest

variable {κ : Type} {forest : Forest κ} {wanted : NodeId → Bool} {waiting ids met : List NodeId}
  {found : Option NodeId} {id : NodeId}

/-! ## Downwards -/

/-- A walk from a stack of waiting nodes, with the nodes that it passes and the one that it stops
at. -/
inductive Sweep (forest : Forest κ) (wanted : NodeId → Bool) :
    List NodeId → List NodeId → Option NodeId → Prop
  | spent : Sweep forest wanted [] [] none
  | stop {waiting : List NodeId} {id : NodeId} (next : waiting.getLast? = some id)
      (here : wanted id = true) : Sweep forest wanted waiting [] (some id)
  | pass {waiting met : List NodeId} {id : NodeId} {found : Option NodeId}
      (next : waiting.getLast? = some id) (other : wanted id = false)
      (rest : Sweep forest wanted (waiting.dropLast ++ (forest.children id).reverse) met found) :
      Sweep forest wanted waiting (id :: met) found

namespace Sweep

/-- No walk goes in two ways. -/
theorem unique {more : List NodeId} {other : Option NodeId}
    (first : forest.Sweep wanted waiting met found)
    (second : forest.Sweep wanted waiting more other) : met = more ∧ found = other := by
  induction first generalizing more other with
  | spent =>
      cases second with
      | spent => exact ⟨rfl, rfl⟩
      | stop next => cases next
      | pass next => cases next
  | stop next here =>
      cases second with
      | spent => cases next
      | stop again =>
          cases next.symm.trans again
          exact ⟨rfl, rfl⟩
      | pass again not =>
          cases next.symm.trans again
          cases here.symm.trans not
  | pass next not rest ih =>
      cases second with
      | spent => cases next
      | stop again here =>
          cases next.symm.trans again
          cases here.symm.trans not
      | pass again _ others =>
          cases next.symm.trans again
          obtain ⟨rfl, rfl⟩ := ih others
          exact ⟨rfl, rfl⟩

/-- A walk goes through the waiting nodes and what is below them, each node in front of what is
below it, up to the first that is wanted. -/
theorem of_preorder (order : forest.Preorder waiting ids) :
    forest.Sweep wanted waiting.reverse (ids.takeWhile (!wanted ·)) (ids.find? wanted) := by
  induction length : ids.length generalizing waiting ids with
  | zero =>
      cases List.length_eq_zero_iff.mp length
      cases order
      exact .spent
  | succ length ih =>
      cases order with
      | nil => cases length
      | @cons id others inner rest children later =>
          have next : (id :: others).reverse.getLast? = some id := by simp
          cases here : wanted id with
          | true =>
              rw [List.takeWhile_cons_of_neg (by simp [here]), List.find?_cons_of_pos here]
              exact .stop next here
          | false =>
              rw [List.takeWhile_cons_of_pos (by simp [here]),
                List.find?_cons_of_neg (by simp [here])]
              apply Sweep.pass next here
              -- the children come off the stack in order, before what waited with their parent
              have stack : (id :: others).reverse.dropLast ++ (forest.children id).reverse =
                  (forest.children id ++ others).reverse := by simp
              rw [stack]
              exact ih (children.append later) (Nat.succ.inj length)

end Sweep

/-- The walk from the children of a node ends, in one way. -/
theorem WellFormed.sweep_iff (wf : forest.WellFormed) (id : NodeId) :
    forest.Sweep wanted (forest.children id).reverse met found ↔
      met = (forest.descendants id).takeWhile (!wanted ·) ∧
        found = (forest.descendants id).find? wanted := by
  have sweep : forest.Sweep wanted (forest.children id).reverse _ _ :=
    .of_preorder (wf.preorder_descendants id)
  constructor
  · intro other
    exact other.unique sweep
  · rintro ⟨rfl, rfl⟩
    exact sweep

/-- A walk for nothing meets all nodes below a node. -/
theorem WellFormed.sweep_descendants_iff (wf : forest.WellFormed) (id : NodeId) :
    forest.Sweep (fun _ => false) (forest.children id).reverse met found ↔
      met = forest.descendants id ∧ found = none := by
  have passed : (forest.descendants id).takeWhile (fun _ => !false) = forest.descendants id :=
    List.takeWhile_eq_self_iff.mpr fun _ _ => rfl
  have nothing : (forest.descendants id).find? (fun _ => false) = none :=
    List.find?_eq_none.mpr fun _ _ => Bool.false_ne_true
  rw [wf.sweep_iff, passed, nothing]

/-- A recursion along the children lists the nodes in the order of the walk. -/
theorem Preorder.flatMap_eq {listing : NodeId → List NodeId} (order : forest.Preorder waiting ids)
    (recursive :
      ∀ id, listing id = (forest.children id).flatMap fun child => child :: listing child) :
    (waiting.flatMap fun id => id :: listing id) = ids := by
  induction order with
  | nil => rfl
  | @cons id waiting inner rest _ _ below later =>
      rw [List.flatMap_cons, recursive id, below, later, List.cons_append]

theorem WellFormed.preorder_flatMap (wf : forest.WellFormed) (waiting : List NodeId) :
    forest.Preorder waiting (waiting.flatMap fun id => id :: forest.descendants id) := by
  induction waiting with
  | nil => exact .nil
  | cons id waiting ih =>
      rw [List.flatMap_cons, List.cons_append]
      exact .cons (wf.preorder_descendants id) ih

theorem WellFormed.descendants_eq (wf : forest.WellFormed) (id : NodeId) :
    forest.descendants id =
      (forest.children id).flatMap fun child => child :: forest.descendants child :=
  (wf.preorder_descendants id).unique (wf.preorder_flatMap (forest.children id))

/-- The nodes below each node are the only listing that recurs along the children. -/
theorem WellFormed.eq_descendants_iff (wf : forest.WellFormed) {listing : NodeId → List NodeId} :
    (∀ id, listing id = (forest.children id).flatMap fun child => child :: listing child) ↔
      listing = forest.descendants := by
  constructor
  · intro recursive
    funext id
    rw [recursive id]
    exact (wf.preorder_descendants id).flatMap_eq recursive
  · rintro rfl
    exact wf.descendants_eq

/-! ## Upwards -/

/-- A walk from a node to its parent and on, with the node that it stops at. -/
inductive Climb (forest : Forest κ) (wanted : NodeId → Bool) : NodeId → Option NodeId → Prop
  | stop {id : NodeId} (here : wanted id = true) : Climb forest wanted id (some id)
  | top {id : NodeId} (other : wanted id = false) (alone : forest.parent? id = none) :
      Climb forest wanted id none
  | pass {id parent : NodeId} {found : Option NodeId} (other : wanted id = false)
      (up : forest.parent? id = some parent) (rest : Climb forest wanted parent found) :
      Climb forest wanted id found

theorem Lineage.climb (lineage : forest.Lineage id ids) :
    forest.Climb wanted id (ids.find? wanted) := by
  induction lineage with
  | @top id alone =>
      cases here : wanted id with
      | true =>
          rw [List.find?_cons_of_pos here]
          exact .stop here
      | false =>
          rw [List.find?_cons_of_neg (by simp [here])]
          exact .top here alone
  | @step id parent upper up rest ih =>
      cases here : wanted id with
      | true =>
          rw [List.find?_cons_of_pos here]
          exact .stop here
      | false =>
          rw [List.find?_cons_of_neg (by simp [here])]
          exact .pass here up ih

/-- The nodes of a forest and no others are below a node if and only if that is above them. -/
theorem WellFormed.mem_descendants_iff (wf : forest.WellFormed) (above id : NodeId) :
    id ∈ forest.descendants above ↔
      above ≠ id ∧ forest.isInclusiveAncestor above id = true := by
  by_cases inside : forest.Has id
  · rw [wf.mem_descendants, wf.isInclusiveAncestor_iff inside, and_comm, ne_comm]
  · constructor
    · intro member
      exact absurd (wf.has_of_mem_descendants member) inside
    · rintro ⟨different, above⟩
      -- the walk upwards from a place without a node ends there
      have alone : forest.parent? id = none := by
        cases up : forest.parent? id with
        | none => rfl
        | some _ => exact absurd (has_of_parent? up) inside
      have chain (steps : Nat) : forest.chain steps id ⊆ [id] := by
        cases steps with
        | zero => exact List.nil_subset _
        | succ steps => simp [chain, alone]
      have member := List.contains_iff_mem.mp above
      exact absurd (List.mem_singleton.mp (chain _ member)) different

end Forest

/-! ## Documents -/

namespace Document

variable {doc : Document}

/-- The walks through a document end, and go through the nodes in document order. -/
structure InOrder (doc : Document) : Prop where
  /-- The walk downwards ends, in one way: when it has met the nodes below. -/
  sweeps (id : NodeId) (met : List NodeId) (found : Option NodeId) :
    doc.Sweep (fun _ => false) (doc.children id).reverse met found ↔
      met = doc.descendants id ∧ found = none
  /-- They are listed as by a recursion along the children, and by every such recursion. -/
  recurs (listing : NodeId → List NodeId) :
    (∀ id, listing id = (doc.children id).flatMap fun child => child :: listing child) ↔
      listing = doc.descendants
  nodup (id : NodeId) : (doc.descendants id).Nodup
  below (above id : NodeId) :
    id ∈ doc.descendants above ↔ above ≠ id ∧ doc.isInclusiveAncestor above id = true
  /-- The walk upwards ends, and it tells whether a node is above another. -/
  climbs (above id : NodeId) (inside : doc.Has id) :
    doc.Climb (· == above) id (if doc.isInclusiveAncestor above id then some above else none)
  /-- A search ends, in one way: when it has passed the nodes in front of what it finds. -/
  searches (scope : NodeId) (wanted : Match) (met : List NodeId) (found : Option NodeId) :
    doc.Sweep (wanted.holds doc) (doc.children scope).reverse met found ↔
      met = (doc.descendants scope).takeWhile (!wanted.holds doc ·) ∧
        found = doc.findIn scope wanted
  first (scope : NodeId) (wanted : Match) :
    doc.findIn scope wanted = (doc.findAllIn scope wanted).head?
  nothing (scope : NodeId) (wanted : Match) :
    doc.findIn scope wanted = none ↔ doc.findAllIn scope wanted = []

theorem findIn_eq_head? (doc : Document) (scope : NodeId) (wanted : Match) :
    doc.findIn scope wanted = (doc.findAllIn scope wanted).head? := by
  rw [findIn_eq_find?, findAllIn, List.head?_filter]

theorem climb_isInclusiveAncestor (wf : doc.WellFormed) (above : NodeId) {id : NodeId}
    (inside : doc.Has id) :
    doc.Climb (· == above) id (if doc.isInclusiveAncestor above id then some above else none) := by
  have climb : doc.Climb (· == above) id _ := (wf.lineage_inclusiveAncestors inside).climb
  have found : (doc.inclusiveAncestors id).find? (· == above) =
      if doc.isInclusiveAncestor above id then some above else none := by
    rw [Forest.isInclusiveAncestor]
    split
    · rename_i member
      rw [List.contains_iff_mem] at member
      cases found : (doc.inclusiveAncestors id).find? (· == above) with
      | none => exact absurd (List.find?_eq_none.mp found above member) (by simp)
      | some other =>
          have same : other = above := by simpa using List.find?_some found
          rw [same]
    · rename_i absent
      rw [List.contains_iff_mem] at absent
      rw [List.find?_eq_none]
      intro other member same
      exact absent (beq_iff_eq.mp same ▸ member)
  rwa [found] at climb

theorem Rooted.inOrder (rooted : Rooted doc) : InOrder doc where
  sweeps id _ _ := rooted.wellFormed.sweep_descendants_iff id
  recurs _ := rooted.wellFormed.eq_descendants_iff
  nodup := rooted.wellFormed.nodup_descendants
  below := rooted.wellFormed.mem_descendants_iff
  climbs above _ inside := climb_isInclusiveAncestor rooted.wellFormed above inside
  searches scope wanted _ _ := by
    rw [findIn_eq_find?]
    exact rooted.wellFormed.sweep_iff scope
  first := findIn_eq_head? doc
  nothing scope wanted := by
    rw [findIn_eq_head?, List.head?_eq_none_iff]

/-- Whatever is done to a document at its own nodes, walks go through it in order. -/
theorem inOrder_after (reader : MarkupReader) (origin : Origin) {operations : List Operation}
    (own : (origin.document reader).Owns reader operations) :
    InOrder ((origin.document reader).after reader operations) :=
  ((origin.rooted reader).after own).inOrder

/-- An item is put in front of an older one, so that it is met first, and so is the text in it. -/
theorem inOrder_after_prepending :
    let reader : MarkupReader := ⟨fun _ => [], fun _ _ => [.text "item"]⟩
    let operations : List Operation :=
      [.createElement "ul" [], .createElement "li" [], .createElement "li" [],
        .appendChild root ⟨1⟩, .appendChild ⟨1⟩ ⟨2⟩, .prependChild ⟨1⟩ ⟨3⟩,
        .appendHtml ⟨3⟩ "item", .appendChild ⟨2⟩ ⟨1⟩]
    let doc : Document := (Origin.empty.document reader).after reader operations
    Owns reader (Origin.empty.document reader) operations ∧ InOrder doc ∧
      doc.descendants root = [⟨1⟩, ⟨3⟩, ⟨4⟩, ⟨2⟩] ∧ doc.findIn root (.tagged "li") = some ⟨3⟩ := by
  intro reader operations doc
  have own : Owns reader (Origin.empty.document reader) operations := by decide +kernel
  refine ⟨own, inOrder_after reader .empty own, ?_⟩
  decide +kernel

end Document

end ServerPages
