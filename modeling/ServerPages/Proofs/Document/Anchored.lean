import ServerPages.Proofs.Document.Refusals
import ServerPages.Proofs.Document.Searches

/-!
# The document at the top

A node gets a parent only by being put below another node. So the document itself stands at the top
as long as it is not put anywhere: every way up from a node below it ends at it, and no search
upwards leaves its tree. What is found there is written, unless it stands below a void element.
-/

namespace ServerPages

/-- What a node of a kind writes itself, around the pieces that are written below it. -/
def NodeKind.pieces (id : NodeId) (inner : List (NodeId × List Char)) :
    NodeKind → List (NodeId × List Char)
  | .document => inner
  | .element data =>
      (id, data.openingChars) ::
        if Markup.isVoid data.name then [] else inner ++ [(id, data.closingChars)]
  | kind => [(id, kind.markup [])]

namespace Document

variable {doc next : Document} {reader : MarkupReader} {id top upper parent child node : NodeId}
  {kind : NodeKind} {element : Element} {piece : NodeId × List Char}

/-! ## Who writes what -/

/-- The markup of nodes piece by piece, each with the node that writes it. -/
def pieces (doc : Document) : Nat → List NodeId → List (NodeId × List Char)
  | 0, _ => []
  | height + 1, ids =>
      ids.flatMap fun id =>
        ((doc.kind? id).map (NodeKind.pieces id (pieces doc height (doc.children id)))).getD []

def Prints (doc : Document) (id : NodeId) : Prop :=
  ∃ element ∈ doc.element? id, (id, element.openingChars) ∈ doc.pieces doc.size [root]

instance Prints.decidable (doc : Document) (id : NodeId) : Decidable (Prints doc id) :=
  inferInstanceAs (Decidable (∃ element ∈ doc.element? id, _))

theorem pieces_single (known : doc.kind? id = some kind) (height : Nat) :
    doc.pieces (height + 1) [id] = kind.pieces id (doc.pieces height (doc.children id)) := by
  rw [pieces, List.flatMap_singleton, known]
  rfl

theorem flatMap_kindPieces (kind : NodeKind) (id : NodeId) (inner : List (NodeId × List Char)) :
    (kind.pieces id inner).flatMap Prod.snd = kind.markup (inner.flatMap Prod.snd) := by
  cases kind with
  | document => rfl
  | element data =>
      rw [NodeKind.pieces, NodeKind.markup, List.flatMap_cons]
      by_cases void : Markup.isVoid data.name = true
      · rw [if_pos void, if_pos void, List.flatMap_nil]
      · rw [if_neg void, if_neg void, List.flatMap_append, List.flatMap_singleton]
  | doctype | text | raw | comment => exact List.append_nil _

/-- The pieces together are the markup. -/
theorem flatMap_pieces (doc : Document) (height : Nat) (ids : List NodeId) :
    (doc.pieces height ids).flatMap Prod.snd = Subtree.listChars (doc.subtrees height ids) := by
  induction height generalizing ids with
  | zero => rfl
  | succ height ih =>
      rw [listChars_subtrees, pieces, List.flatMap_assoc]
      congr 1
      funext id
      rw [subtrees, List.filterMap_cons]
      cases doc.kind? id with
      | none => rfl
      | some kind =>
          refine (flatMap_kindPieces kind id _).trans ?_
          rw [ih]
          cases kind <;> exact (List.append_nil _).symm

theorem flatMap_pieces_toHtml (doc : Document) :
    (doc.pieces doc.size [root]).flatMap Prod.snd = doc.toHtml.toList := by
  rw [flatMap_pieces, toHtml, toList_outerHtml]

theorem kindPieces_subset (kind : NodeKind) (id : NodeId)
    {inner more : List (NodeId × List Char)} (all : inner ⊆ more) :
    kind.pieces id inner ⊆ kind.pieces id more := by
  cases kind with
  | document => exact all
  | element data =>
      rw [NodeKind.pieces, NodeKind.pieces]
      refine List.cons_subset_cons _ ?_
      by_cases void : Markup.isVoid data.name = true
      · rw [if_pos void, if_pos void]
        exact List.Subset.refl _
      · rw [if_neg void, if_neg void]
        exact List.append_subset.mpr
          ⟨List.subset_append_of_subset_left _ all, List.subset_append_right _ _⟩
  | doctype | text | raw | comment => exact List.Subset.refl _

theorem mem_pieces_succ (doc : Document) (height : Nat) (ids : List NodeId) :
    piece ∈ doc.pieces (height + 1) ids ↔
      ∃ id ∈ ids, ∃ kind, doc.kind? id = some kind ∧
        piece ∈ kind.pieces id (doc.pieces height (doc.children id)) := by
  rw [pieces, List.mem_flatMap]
  refine exists_congr fun id => and_congr_right fun _ => ?_
  cases doc.kind? id with
  | none => simp
  | some kind => simp

/-- More height leaves out no piece. -/
theorem pieces_subset (doc : Document) {low high : Nat} (le : low ≤ high) (ids : List NodeId) :
    doc.pieces low ids ⊆ doc.pieces high ids := by
  induction low generalizing high ids with
  | zero => exact List.nil_subset _
  | succ low ih =>
      obtain ⟨high, rfl⟩ := Nat.exists_eq_add_of_le' (Nat.le_trans (Nat.succ_pos low) le)
      intro piece member
      obtain ⟨id, listed, kind, known, own⟩ := (doc.mem_pieces_succ low ids).mp member
      refine (doc.mem_pieces_succ high ids).mpr ⟨id, listed, kind, known, ?_⟩
      exact kindPieces_subset kind id (ih (Nat.le_of_succ_le_succ le) _) own

/-! ## Below void elements -/

def Void (doc : Document) (id : NodeId) : Prop :=
  ∃ element, doc.kind? id = some (.element element) ∧ Markup.isVoid element.name = true

/-- The second node is the first, or it stands below it with no void element in between. -/
inductive Exposed (doc : Document) (top : NodeId) : NodeId → Prop
  | refl : Exposed doc top top
  | step {child parent : NodeId} (up : doc.parent? child = some parent) (plain : ¬ doc.Void parent)
      (inner : Exposed doc top parent) : Exposed doc top child

namespace Exposed

theorem within (inner : Exposed doc top id) : doc.Within top id := by
  induction inner with
  | refl => exact .refl
  | step up _ _ ih => exact .step up ih

theorem head (up : doc.parent? child = some top) (plain : ¬ doc.Void top)
    (inner : Exposed doc child id) : Exposed doc top id := by
  induction inner with
  | refl => exact .step up plain .refl
  | step higher between _ ih => exact .step higher between ih

end Exposed

theorem exposed_iff (wf : doc.WellFormed) :
    Exposed doc top id ↔ doc.Within top id ∧
      ∀ upper, doc.Within top upper → doc.Within upper id → upper ≠ id → ¬ doc.Void upper := by
  constructor
  · intro inner
    refine ⟨inner.within, ?_⟩
    induction inner with
    | refl =>
        intro upper below above different
        exact absurd (wf.within_antisymm above below) different
    | @step child parent up plain _ ih =>
        intro upper below above different
        cases above with
        | refl => exact absurd rfl different
        | step other above =>
            cases up.symm.trans other
            by_cases here : upper = parent
            · exact here ▸ plain
            · exact ih upper below above here
  · rintro ⟨inner, plain⟩
    induction inner with
    | refl => exact .refl
    | @step child parent up inner ih =>
        refine .step up (plain parent inner (.step up .refl) ?_) (ih ?_)
        · rintro rfl
          exact wf.not_within_parent up .refl
        · intro upper below above _
          refine plain upper below (.step up above) ?_
          rintro rfl
          exact wf.not_within_parent up above

/-- Whatever is written among nodes is written by a node that is exposed to one of them. -/
theorem exposed_of_mem_pieces (wf : doc.WellFormed) {height : Nat} {ids : List NodeId}
    (member : piece ∈ doc.pieces height ids) : ∃ top ∈ ids, Exposed doc top piece.1 := by
  induction height generalizing ids with
  | zero => cases member
  | succ height ih =>
      obtain ⟨top, listed, kind, known, own⟩ := (doc.mem_pieces_succ height ids).mp member
      refine ⟨top, listed, ?_⟩
      have deeper (plain : ¬ doc.Void top) (below : piece ∈ doc.pieces height (doc.children top)) :
          Exposed doc top piece.1 := by
        obtain ⟨child, down, inner⟩ := ih below
        exact inner.head ((wf.linked top child).mp down) plain
      cases kind with
      | document =>
          refine deeper ?_ own
          rintro ⟨element, other, _⟩
          cases known.symm.trans other
      | element data =>
          rw [NodeKind.pieces] at own
          rcases List.mem_cons.mp own with rfl | rest
          · exact .refl
          · by_cases void : Markup.isVoid data.name = true
            · rw [if_pos void] at rest
              cases rest
            · rw [if_neg void] at rest
              rcases List.mem_append.mp rest with below | closing
              · refine deeper ?_ below
                rintro ⟨element, other, again⟩
                cases known.symm.trans other
                exact void again
              · cases List.mem_singleton.mp closing
                exact .refl
      | doctype | text | raw | comment =>
          cases List.mem_singleton.mp own
          exact .refl

/-- A node that is no void element writes what its children write. -/
theorem Rooted.pieces_child_subset (rooted : Rooted doc) (up : doc.parent? child = some parent)
    (plain : ¬ doc.Void parent) (height : Nat) :
    doc.pieces height [child] ⊆ doc.pieces (height + 1) [parent] := by
  have down := (rooted.wellFormed.linked parent child).mpr up
  have below : doc.pieces height [child] ⊆ doc.pieces height (doc.children parent) := by
    cases height with
    | zero => exact List.nil_subset _
    | succ height =>
        intro piece member
        obtain ⟨id, listed, own⟩ := (doc.mem_pieces_succ height [child]).mp member
        refine (doc.mem_pieces_succ height _).mpr ⟨id, ?_, own⟩
        exact List.mem_singleton.mp listed ▸ down
  have takes := rooted.hosts parent (List.ne_nil_of_mem down)
  refine List.Subset.trans below ?_
  rcases takesChildren_iff.mp takes with known | ⟨element, known⟩
  · rw [pieces_single known]
    exact List.Subset.refl _
  · have filled : ¬ Markup.isVoid element.name = true := fun void => plain ⟨element, known, void⟩
    rw [pieces_single known, NodeKind.pieces, if_neg filled]
    exact List.subset_cons_of_subset _ (List.subset_append_left _ _)

/-- What a node writes is written by all nodes that it is exposed to, each of which is one level
higher. -/
theorem Rooted.pieces_subset_of_exposed (rooted : Rooted doc) (inner : Exposed doc top id)
    {ids : List NodeId} (lineage : doc.Lineage id ids) :
    ∃ levels < ids.length, ∀ height,
      doc.pieces height [id] ⊆ doc.pieces (height + levels) [top] := by
  induction inner generalizing ids with
  | refl =>
      refine ⟨0, ?_, fun height => List.Subset.refl _⟩
      cases lineage <;> exact Nat.succ_pos _
  | @step child parent up plain _ ih =>
      cases lineage with
      | top alone => cases alone.symm.trans up
      | step other rest =>
          cases up.symm.trans other
          obtain ⟨levels, fewer, upwards⟩ := ih rest
          refine ⟨levels + 1, Nat.succ_lt_succ fewer, fun height => ?_⟩
          have first := rooted.pieces_child_subset up plain height
          rw [← Nat.succ_add_eq_add_succ]
          exact List.Subset.trans first (upwards (height + 1))

/-- An element is written if and only if no void element is between it and the document. -/
theorem Rooted.prints_iff (rooted : Rooted doc) (known : doc.kind? id = some (.element element)) :
    Prints doc id ↔ Exposed doc root id := by
  constructor
  · rintro ⟨other, _, member⟩
    obtain ⟨top, listed, inner⟩ := exposed_of_mem_pieces rooted.wellFormed member
    exact List.mem_singleton.mp listed ▸ inner
  · intro inner
    refine ⟨element, element?_eq_some_iff.mpr known, ?_⟩
    have inside := Forest.has_of_kind? known
    obtain ⟨ids, lineage⟩ := rooted.wellFormed.exists_lineage id
    obtain ⟨levels, fewer, upwards⟩ := rooted.pieces_subset_of_exposed inner lineage
    have short := lineage.length_le rooted.wellFormed inside
    have own : (id, element.openingChars) ∈ doc.pieces 1 [id] := by
      rw [pieces_single known]
      exact List.mem_cons_self
    refine doc.pieces_subset ?_ [root] (upwards 1 own)
    omega

/-! ## Where parents come from -/

theorem parent?_of_detach (up : (doc.detach child).parent? id = some parent) :
    doc.parent? id = some parent := by
  rw [Forest.parent?_detach] at up
  split at up
  · cases up
  · exact up

theorem parent?_of_appendChild (wf : doc.WellFormed) (inside : doc.Has child)
    (done : doc.appendChild top child = .ok next) (up : next.parent? id = some parent) :
    doc.parent? id = some parent ∨ child = id ∧ doc.refusal? top child = none := by
  obtain ⟨allowed, appended⟩ := appended_of_appendChild done
  have fits := attachable_of_refusal?_none wf inside allowed
  cases appended with
  | attached same =>
      rw [same, Forest.parent?_attachLast fits.hasChild] at up
      by_cases here : child = id
      · exact Or.inr ⟨here, allowed⟩
      · rw [if_neg here] at up
        exact Or.inl (parent?_of_detach up)
  | merged _ _ _ same =>
      rw [same, Forest.parent?_setKind] at up
      exact Or.inl (parent?_of_detach up)

theorem parent?_of_prependChild (wf : doc.WellFormed) (inside : doc.Has child)
    (done : doc.prependChild top child = .ok next) (up : next.parent? id = some parent) :
    doc.parent? id = some parent ∨ child = id ∧ doc.refusal? top child = none := by
  unfold Document.prependChild at done
  split at done
  · cases done
  · rename_i allowed
    cases done
    have fits := attachable_of_refusal?_none wf inside allowed
    rw [Forest.parent?_attachFirst fits.hasChild] at up
    by_cases here : child = id
    · exact Or.inr ⟨here, allowed⟩
    · rw [if_neg here] at up
      exact Or.inl (parent?_of_detach up)

theorem parent?_appendRead (wf : doc.WellFormed) {html : String} (inside : doc.Has id)
    (done : appendRead reader doc top html = .ok next) : next.parent? id = doc.parent? id := by
  unfold appendRead at done
  cases context : doc.contextOf top with
  | error error =>
      rw [context] at done
      cases done
  | ok name =>
      rw [context] at done
      cases done
      have takes := takesChildren_of_contextOf context
      exact (grown_graftAll top wf (has_of_takesChildren takes) _).2.parents id inside

theorem parent?_of_setText (wf : doc.WellFormed) (inside : doc.Has id)
    (done : doc.setText top content = .ok next) (up : next.parent? id = some parent) :
    doc.parent? id = some parent := by
  obtain ⟨element, known, _⟩ := exists_of_setText done
  rw [setText_eq wf known] at done
  cases done
  change (doc.retext top element.name content).parent? id = some parent at up
  rw [parent?_retext inside] at up
  split at up
  · cases up
  · exact up

/-- Where an operation puts a node: the node that it goes below, and the node. -/
def Operation.placing? : Operation → Option (NodeId × NodeId)
  | .appendChild parent child | .prependChild parent child => some (parent, child)
  | _ => none

/-- A node that was there has the parent that it had, or it was put there. -/
theorem Operation.parent?_perform (operation : Operation) (wf : doc.WellFormed)
    (own : ∀ id ∈ operation.nodes, doc.Has id) (inside : doc.Has id)
    (up : (operation.perform reader doc).parent? id = some parent) :
    doc.parent? id = some parent ∨
      ∃ above, operation.placing? = some (above, id) ∧ doc.refusal? above id = none := by
  unfold Operation.perform at up
  cases attempt : operation.attempt reader doc with
  | error error =>
      rw [attempt] at up
      exact Or.inl up
  | ok next =>
      rw [attempt] at up
      cases operation with
      | createElement | createText | createRaw | createComment =>
          cases attempt
          exact Or.inl ((Forest.parent?_create doc _ id).symm.trans up)
      | setAttr other name value =>
          obtain ⟨element, _, rfl⟩ := exists_of_setAttr attempt
          exact Or.inl ((Forest.parent?_setKind doc other id _).symm.trans up)
      | removeAttr other name =>
          cases attempt
          exact Or.inl ((parent?_removeAttr doc other id name).symm.trans up)
      | detach child =>
          cases attempt
          exact Or.inl (parent?_of_detach up)
      | appendChild above child =>
          have here := parent?_of_appendChild wf (own child (by simp [Operation.nodes])) attempt up
          refine here.imp_right ?_
          rintro ⟨rfl, allowed⟩
          exact ⟨above, rfl, allowed⟩
      | prependChild above child =>
          have here := parent?_of_prependChild wf (own child (by simp [Operation.nodes])) attempt up
          refine here.imp_right ?_
          rintro ⟨rfl, allowed⟩
          exact ⟨above, rfl, allowed⟩
      | appendHtml place html => exact Or.inl ((parent?_appendRead wf inside attempt).symm.trans up)
      | setText other content => exact Or.inl (parent?_of_setText wf inside attempt up)

/-! ## The document stays where it is -/

/-- The document itself is put at most where it cannot go: below nodes of its own tree and below
those that take no children. -/
def Operation.Grounded (doc : Document) (operation : Operation) : Prop :=
  ∀ placing ∈ operation.placing?, placing.2 = root →
    placing.1 ∈ root :: doc.descendants root ∨ doc.takesChildren placing.1 = false

instance Operation.Grounded.decidable (doc : Document) (operation : Operation) :
    Decidable (operation.Grounded doc) :=
  inferInstanceAs (Decidable (∀ placing ∈ operation.placing?, _))

/-- No operation puts the document itself anywhere else. -/
def Stays (reader : MarkupReader) (doc : Document) : List Operation → Prop
  | [] => True
  | operation :: rest =>
      operation.Grounded doc ∧ Stays reader (operation.perform reader doc) rest

instance Stays.decidable (reader : MarkupReader) :
    (doc : Document) → (operations : List Operation) → Decidable (Stays reader doc operations)
  | _, [] => inferInstanceAs (Decidable True)
  | doc, operation :: rest =>
      have := decidable reader (operation.perform reader doc) rest
      inferInstanceAs (Decidable (operation.Grounded doc ∧ _))

theorem Rooted.refusal?_root_ne_none (rooted : Rooted doc)
    (settled : parent ∈ root :: doc.descendants root ∨ doc.takesChildren parent = false) :
    doc.refusal? parent root ≠ none := by
  intro allowed
  have takes : doc.takesChildren parent = true := by
    by_contra leaf
    rw [refusal?, if_neg leaf] at allowed
    split at allowed <;> cases allowed
  have above : doc.Within root parent := by
    rcases settled with tree | leaf
    · rcases List.mem_cons.mp tree with rfl | below
      · exact .refl
      · exact (rooted.wellFormed.mem_descendants.mp below).1
    · cases leaf.symm.trans takes
  rw [refusal?, if_pos ((rooted.wellFormed.isInclusiveAncestor_iff
    (has_of_takesChildren takes) root).mpr above)] at allowed
  cases allowed

theorem Rooted.parent?_root_perform (rooted : Rooted doc) {operation : Operation}
    (own : ∀ id ∈ operation.nodes, doc.Has id) (alone : doc.parent? root = none)
    (grounded : operation.Grounded doc) :
    (operation.perform reader doc).parent? root = none := by
  rw [Option.eq_none_iff_forall_ne_some]
  intro parent up
  rcases operation.parent?_perform rooted.wellFormed own rooted.has_root up with
    before | ⟨above, put, allowed⟩
  · cases alone.symm.trans before
  · exact rooted.refusal?_root_ne_none (grounded (above, root) put rfl) allowed

theorem Rooted.parent?_root_after {operations : List Operation} (rooted : Rooted doc)
    (own : doc.Owns reader operations) (alone : doc.parent? root = none)
    (stays : doc.Stays reader operations) : (doc.after reader operations).parent? root = none := by
  induction operations generalizing doc with
  | nil => exact alone
  | cons operation rest ih =>
      have still : (operation.perform reader doc).parent? root = none :=
        rooted.parent?_root_perform own.1 alone stays.1
      exact ih (rooted.perform reader operation own.1) own.2 still stays.2

theorem Origin.parent?_root (reader : MarkupReader) (origin : Origin) :
    (origin.document reader).parent? root = none := by
  cases origin with
  | empty => rfl
  | markup html => exact parent?_root_graftAll (reader.page html)

/-- The document is above everything that is below it, and nothing is above the document. -/
structure Anchored (doc : Document) : Prop where
  top : doc.parent? root = none
  /-- The walk upwards from a node below the document ends, and it does so at the document. -/
  upwards (node : NodeId) (below : node ∈ doc.descendants root) :
    doc.Lineage node (doc.inclusiveAncestors node) ∧
      (doc.inclusiveAncestors node).getLast? = some root
  /-- A search upwards from there finds an element of the tree. -/
  closest (node : NodeId) (wanted : Match) (above : NodeId) (below : node ∈ doc.descendants root)
    (found : doc.closest node wanted = some above) : above ∈ doc.descendants root
  /-- It is written if and only if it stands below no void element. -/
  prints (node : NodeId) (wanted : Match) (above : NodeId) (below : node ∈ doc.descendants root)
    (found : doc.closest node wanted = some above) :
    doc.Prints above ↔ ∀ upper, doc.Within upper above → upper ≠ above → ¬ doc.Void upper
  pieces : (doc.pieces doc.size [root]).flatMap Prod.snd = doc.toHtml.toList

theorem getLast?_lineage {ids : List NodeId} (alone : doc.parent? root = none)
    (inner : doc.Within root id) (lineage : doc.Lineage id ids) : ids.getLast? = some root := by
  induction lineage with
  | top above => rw [List.getLast?_singleton, inner.eq_of_parent?_none above]
  | @step id parent upper up rest ih =>
      have onward : doc.Within root parent := by
        cases inner with
        | refl => cases alone.symm.trans up
        | step other inner =>
            cases up.symm.trans other
            exact inner
      rw [List.getLast?_cons_of_ne_nil, ih onward]
      cases rest <;> exact List.cons_ne_nil _ _

/-- What is found from below the document is an element, so that it is not the document itself. -/
theorem Rooted.mem_of_closest (rooted : Rooted doc) {wanted : Match} {above : NodeId}
    (alone : doc.parent? root = none) (below : node ∈ doc.descendants root)
    (found : doc.closest node wanted = some above) : above ∈ doc.descendants root := by
  have inner := (rooted.wellFormed.mem_descendants.mp below).1
  have higher := within_of_closest rooted.wellFormed
    (rooted.wellFormed.has_of_mem_descendants below) found
  obtain ⟨element, known, _⟩ := exists_element_of_holds (holds_of_closest found)
  have apart := rooted.ne_root (element?_eq_some_iff.mp known) nofun
  refine rooted.wellFormed.mem_descendants.mpr ⟨?_, apart⟩
  rcases inner.total higher with lower | upper
  · exact lower
  · exact absurd (upper.eq_of_parent?_none alone).symm apart

theorem Rooted.anchored (rooted : Rooted doc) (alone : doc.parent? root = none) :
    Anchored doc where
  top := alone
  upwards node below := by
    have lineage := rooted.wellFormed.lineage_inclusiveAncestors
      (rooted.wellFormed.has_of_mem_descendants below)
    have inner := (rooted.wellFormed.mem_descendants.mp below).1
    exact ⟨lineage, getLast?_lineage alone inner lineage⟩
  closest node wanted above below found := rooted.mem_of_closest alone below found
  prints node wanted above below found := by
    have attached := rooted.mem_of_closest alone below found
    have inner := (rooted.wellFormed.mem_descendants.mp attached).1
    obtain ⟨element, known, _⟩ := exists_element_of_holds (holds_of_closest found)
    rw [rooted.prints_iff (element?_eq_some_iff.mp known), exposed_iff rooted.wellFormed]
    constructor
    · rintro ⟨_, plain⟩ upper higher different
      rcases inner.total higher with lower | upmost
      · exact plain upper lower higher different
      · have top := upmost.eq_of_parent?_none alone
        exact plain upper (top ▸ .refl) higher different
    · intro plain
      exact ⟨inner, fun upper _ => plain upper⟩
  pieces := flatMap_pieces_toHtml doc

/-- Whatever is done to a document at its own nodes, it stays at the top unless it is itself put
below a node of another tree. -/
theorem anchored_after (reader : MarkupReader) (origin : Origin) {operations : List Operation}
    (own : (origin.document reader).Owns reader operations)
    (stays : (origin.document reader).Stays reader operations) :
    Anchored ((origin.document reader).after reader operations) := by
  have rooted := origin.rooted reader
  have alone := rooted.parent?_root_after own (origin.parent?_root reader) stays
  exact (rooted.after own).anchored alone

/-- A list is emptied and goes into one of its own entries, which is refused, and the document into
the list, which is refused as well; an image in a line break is not written. -/
theorem anchored_after_refusals :
    let reader : MarkupReader := ⟨fun _ => [], fun _ _ => [.text "read"]⟩
    let operations : List Operation :=
      [.createElement "ul" [], .createElement "br" [], .createElement "img" [],
        .appendChild root ⟨1⟩, .appendChild ⟨1⟩ ⟨2⟩, .appendChild ⟨2⟩ ⟨3⟩, .appendChild ⟨2⟩ ⟨1⟩,
        .prependChild ⟨1⟩ root, .appendHtml ⟨1⟩ "read", .detach root]
    let doc : Document := (Origin.empty.document reader).after reader operations
    Owns reader (Origin.empty.document reader) operations ∧
      Stays reader (Origin.empty.document reader) operations ∧ Anchored doc ∧
      doc.descendants root = [⟨1⟩, ⟨2⟩, ⟨3⟩, ⟨4⟩] ∧ doc.toHtml = "<ul><br>read</ul>" ∧
      doc.Prints ⟨2⟩ ∧ ¬ doc.Prints ⟨3⟩ := by
  intro reader operations doc
  have own : Owns reader (Origin.empty.document reader) operations := by decide +kernel
  have stays : Stays reader (Origin.empty.document reader) operations := by decide +kernel
  refine ⟨own, stays, anchored_after reader .empty own stays, ?_⟩
  decide +kernel

/-- The document goes into a division that nobody has put anywhere. The way up from the paragraph
ends there, and what is found there is not written; nor is an element in a line break. -/
theorem lifted_into_division :
    let reader : MarkupReader := ⟨fun _ => [], fun _ _ => []⟩
    let operations : List Operation :=
      [.createElement "p" [], .appendChild root ⟨1⟩, .createElement "br" [],
        .appendChild root ⟨2⟩, .createElement "i" [], .appendChild ⟨2⟩ ⟨3⟩,
        .createElement "div" [], .appendChild ⟨4⟩ root]
    let doc : Document := (Origin.empty.document reader).after reader operations
    Owns reader (Origin.empty.document reader) operations ∧
      doc.descendants root = [⟨1⟩, ⟨2⟩, ⟨3⟩] ∧ doc.parent? root = some ⟨4⟩ ∧
      (doc.inclusiveAncestors ⟨1⟩).getLast? = some ⟨4⟩ ∧
      doc.closest ⟨1⟩ (.tagged "div") = some ⟨4⟩ ∧ ¬ doc.Prints ⟨4⟩ ∧
      doc.closest ⟨3⟩ (.tagged "i") = some ⟨3⟩ ∧ ¬ doc.Prints ⟨3⟩ ∧
      doc.toHtml = "<p></p><br>" := by
  decide +kernel

end Document

end ServerPages
