import ServerPages.Proofs.Document.Edits

/-!
# Documents that can be reached

Documents come from markup or start empty, and change by edits at their own nodes. All of
them are well-formed forests: adding a node links it to nothing but its parent, and a move
is refused where it would put a node below itself.
-/

namespace ServerPages.Document

variable {doc next : Document}

/-! ## Added nodes -/

section

variable (doc : Document) (parent : NodeId) (kind : NodeKind)

theorem addLast_eq :
    doc.addLast parent kind =
      Forest.attachLast (doc.create kind).2 parent ⟨Forest.size doc⟩ := rfl

@[simp] theorem size_addLast : Forest.size (doc.addLast parent kind) = Forest.size doc + 1 := by
  rw [addLast_eq, Forest.size_attachLast, Forest.size_create]

theorem not_has_size : ¬ doc.Has ⟨Forest.size doc⟩ :=
  Nat.lt_irrefl _

theorem kind?_addLast_new :
    Forest.kind? (doc.addLast parent kind) ⟨Forest.size doc⟩ = some kind := by
  rw [addLast_eq, Forest.kind?_attachLast, Forest.kind?_create_new]

variable {doc}

theorem kind?_addLast {id : NodeId} (inside : doc.Has id) :
    Forest.kind? (doc.addLast parent kind) id = doc.kind? id := by
  rw [addLast_eq, Forest.kind?_attachLast, Forest.kind?_create_of_has inside]

variable {parent}

theorem parent?_addLast (id : NodeId) :
    Forest.parent? (doc.addLast parent kind) id =
      if (⟨Forest.size doc⟩ : NodeId) = id then some parent else doc.parent? id := by
  rw [addLast_eq, Forest.parent?_attachLast (by simp [Forest.Has]), Forest.parent?_create]

theorem children_addLast (inside : doc.Has parent) (id : NodeId) :
    Forest.children (doc.addLast parent kind) id =
      if parent = id then doc.children id ++ [⟨Forest.size doc⟩] else doc.children id := by
  rw [addLast_eq, Forest.children_attachLast (by
    rw [Forest.Has, Forest.size_create]
    exact Nat.lt_succ_of_lt inside), Forest.children_create]

/-- A new node can be linked to any other. -/
theorem attachable_create (wf : doc.WellFormed) (inside : doc.Has parent) :
    Forest.Attachable (doc.create kind).2 parent ⟨Forest.size doc⟩ where
  hasParent := by
    rw [Forest.Has, Forest.size_create]
    exact Nat.lt_succ_of_lt inside
  hasChild := by simp [Forest.Has]
  alone := by
    rw [Forest.parent?_create]
    cases up : doc.parent? ⟨Forest.size doc⟩ with
    | none => rfl
    | some _ => exact absurd (Forest.has_of_parent? up) (not_has_size doc)
  apart inner := by
    have above : doc.Within ⟨Forest.size doc⟩ parent :=
      inner.of_parent?_eq fun child _ => (Forest.parent?_create doc kind child).symm
    exact not_has_size doc (wf.has_top above inside)

theorem wellFormed_addLast (wf : doc.WellFormed) (inside : doc.Has parent) :
    Forest.WellFormed (doc.addLast parent kind) :=
  (wf.create kind).attachLast (attachable_create kind wf inside)

theorem grown_addLast {before : Document} (grown : before.Grown doc) (wf : doc.WellFormed)
    (inside : doc.Has parent) : before.Grown (doc.addLast parent kind) :=
  (grown.create kind).attachLast (attachable_create kind wf inside) fun old =>
    not_has_size doc (grown.has old)

end

/-! ## Moves -/

def Fosters (doc : Document) (id : NodeId) : Prop :=
  doc.kind? id = some .document ∨ ∃ element, doc.kind? id = some (.element element)

theorem takesChildren_iff {id : NodeId} : doc.takesChildren id = true ↔ Fosters doc id := by
  unfold takesChildren Fosters
  cases doc.kind? id with
  | none => simp
  | some kind => cases kind <;> simp

theorem has_of_takesChildren {id : NodeId} (takes : doc.takesChildren id = true) : doc.Has id := by
  rcases takesChildren_iff.mp takes with known | ⟨_, known⟩
  · exact Forest.has_of_kind? known
  · exact Forest.has_of_kind? known

/-- A text goes on only from a text. -/
theorem exists_text_of_mergedText? {parent child last : NodeId} {merged : String}
    (found : doc.mergedText? parent child = some (last, merged)) :
    ∃ earlier, doc.kind? last = some (.text earlier) := by
  unfold mergedText? at found
  rw [Option.bind_eq_bind, Option.bind_eq_some_iff] at found
  obtain ⟨other, _, found⟩ := found
  split at found
  · rename_i earlier _ known _
    cases found
    exact ⟨earlier, known⟩
  · cases found

/-- Only texts are added to texts. -/
theorem mergedText?_of_element {parent child : NodeId} {element : Element}
    (known : doc.kind? child = some (.element element)) : doc.mergedText? parent child = none := by
  unfold mergedText?
  rw [known]
  cases (doc.children parent).getLast? with
  | none => rfl
  | some last =>
      rw [Option.bind_eq_bind, Option.bind_some]
      split
      · rename_i text
        cases text
      · rfl

/-- A move that is not refused puts no node below itself. -/
theorem attachable_of_refusal?_none (wf : doc.WellFormed) {parent child : NodeId}
    (inside : doc.Has child) (allowed : doc.refusal? parent child = none) :
    Forest.Attachable (doc.detach child) parent child := by
  unfold refusal? at allowed
  split at allowed
  · cases allowed
  · rename_i notAbove
    split at allowed
    · rename_i takes
      have hasParent := has_of_takesChildren takes
      refine ⟨?_, ?_, ?_, fun inner => notAbove ?_⟩
      · rw [Forest.Has, Forest.size_detach]
        exact hasParent
      · rw [Forest.Has, Forest.size_detach]
        exact inside
      · rw [Forest.parent?_detach, if_pos rfl]
      · rw [wf.isInclusiveAncestor_iff hasParent]
        exact Forest.within_of_within_detach inner
    · cases allowed

theorem wellFormed_appendChild (wf : doc.WellFormed) {parent child : NodeId}
    (inside : doc.Has child) (done : doc.appendChild parent child = .ok next) :
    next.WellFormed := by
  unfold appendChild at done
  split at done
  · cases done
  · rename_i allowed
    dsimp only at done
    split at done
    · cases done
      exact (wf.detach child).setKind _ _
    · cases done
      exact (wf.detach child).attachLast (attachable_of_refusal?_none wf inside allowed)

theorem wellFormed_prependChild (wf : doc.WellFormed) {parent child : NodeId}
    (inside : doc.Has child) (done : doc.prependChild parent child = .ok next) :
    next.WellFormed := by
  unfold prependChild at done
  split at done
  · cases done
  · rename_i allowed
    cases done
    exact (wf.detach child).attachFirst (attachable_of_refusal?_none wf inside allowed)

/-! ### Children that are taken away -/

theorem size_clear (doc : Document) (id : NodeId) :
    Forest.size (doc.clear id) = Forest.size doc := by
  unfold clear
  induction doc.children id generalizing doc with
  | nil => rfl
  | cons child rest ih => rw [List.foldl_cons, ih, Forest.size_detach]

theorem kind?_clear (doc : Document) (id other : NodeId) :
    (doc.clear id).kind? other = doc.kind? other := by
  unfold clear
  induction doc.children id generalizing doc with
  | nil => rfl
  | cons child rest ih =>
      rw [List.foldl_cons, ih, Forest.kind?_detach]

theorem parent?_clear (doc : Document) (id other : NodeId) :
    (doc.clear id).parent? other =
      if other ∈ doc.children id then none else doc.parent? other := by
  unfold clear
  induction doc.children id generalizing doc with
  | nil => rfl
  | cons child rest ih =>
      rw [List.foldl_cons, ih, Forest.parent?_detach]
      by_cases here : other = child
      · simp [here]
      · simp [here, Ne.symm here]

theorem wellFormed_clear (wf : doc.WellFormed) (id : NodeId) : (doc.clear id).WellFormed := by
  unfold clear
  induction doc.children id generalizing doc with
  | nil => exact wf
  | cons child rest ih => exact ih (wf.detach child)

theorem children_clear (wf : doc.WellFormed) (id other : NodeId) :
    (doc.clear id).children other = (doc.children other).filter (· ∉ doc.children id) := by
  unfold clear
  induction doc.children id generalizing doc with
  | nil => exact (List.filter_eq_self.mpr (by simp)).symm
  | cons child rest ih =>
      rw [List.foldl_cons, ih (wf.detach child), Forest.children_detach wf, List.filter_filter]
      refine List.filter_congr fun node _ => ?_
      simp only [List.mem_cons, not_or, ← Bool.decide_and, and_comm]

theorem children_clear_self (wf : doc.WellFormed) (id : NodeId) :
    (doc.clear id).children id = [] := by
  rw [children_clear wf, List.filter_eq_nil_iff]
  intro child down
  simpa using down

/-- A new node may become a child of any node that takes children. -/
theorem refusal?_create (wf : doc.WellFormed) {scope : NodeId}
    (takes : doc.takesChildren scope = true) (kind : NodeKind) :
    refusal? (doc.create kind).2 scope ⟨Forest.size doc⟩ = none := by
  have inside := has_of_takesChildren takes
  have fits := attachable_create kind wf inside
  have takesStill : takesChildren (doc.create kind).2 scope = true := by
    rw [takesChildren, Forest.kind?_create_of_has inside]
    exact takes
  unfold refusal?
  rw [if_neg, if_pos takesStill]
  rw [(wf.create _).isInclusiveAncestor_iff fits.hasParent]
  exact fits.apart

/-- A new node that is not added to a text is appended the way parsed ones are. -/
theorem appendChild_create (wf : doc.WellFormed) {scope : NodeId}
    (takes : doc.takesChildren scope = true) (kind : NodeKind)
    (separate : mergedText? (doc.create kind).2 scope ⟨Forest.size doc⟩ = none) :
    appendChild (doc.create kind).2 scope ⟨Forest.size doc⟩ = .ok (doc.addLast scope kind) := by
  have alone := (attachable_create kind wf (has_of_takesChildren takes)).alone
  have detached : Forest.detach (doc.create kind).2 ⟨Forest.size doc⟩ = (doc.create kind).2 := by
    rw [Forest.detach, alone]
  unfold appendChild
  rw [refusal?_create wf takes kind]
  dsimp only
  rw [detached, separate]
  rfl

/-- Every element of a well-formed document takes a text, which is its only child then. -/
theorem setText_eq (wf : doc.WellFormed) {id : NodeId} {element : Element}
    (known : doc.element? id = some element) (content : String) :
    doc.setText id content =
      .ok (if content.isEmpty then doc.clear id
        else (doc.clear id).addLast id (textKind (some element.name) content)) := by
  have takes : (doc.clear id).takesChildren id = true := by
    rw [takesChildren, kind?_clear, element?_eq_some_iff.mp known]
  unfold setText
  rw [known]
  dsimp only
  by_cases empty : content.isEmpty = true
  · rw [if_pos empty, if_pos empty]
  · rw [if_neg empty, if_neg empty, Forest.create_fst]
    refine appendChild_create (wellFormed_clear wf id) takes _ ?_
    rw [mergedText?, Forest.children_create, children_clear_self wf id]
    rfl

theorem exists_setText (wf : doc.WellFormed) {id : NodeId} {element : Element}
    (known : doc.element? id = some element) (content : String) :
    ∃ next, doc.setText id content = .ok next :=
  ⟨_, setText_eq wf known content⟩

/-- A text was given to an element: it was cleared, and a text that is not empty was put into it. -/
theorem exists_of_setText {id : NodeId} {content : String}
    (done : doc.setText id content = .ok next) :
    ∃ element, doc.element? id = some element ∧ (next = doc.clear id ∨
      appendChild ((doc.clear id).create (textKind (some element.name) content)).2 id
        ⟨Forest.size (doc.clear id)⟩ = .ok next) := by
  unfold setText at done
  split at done
  · cases done
  · rename_i element known
    dsimp only at done
    split at done
    · exact ⟨element, known, .inl (Except.ok.inj done).symm⟩
    · exact ⟨element, known, .inr done⟩

theorem wellFormed_setText (wf : doc.WellFormed) {id : NodeId} {content : String}
    (done : doc.setText id content = .ok next) : next.WellFormed := by
  obtain ⟨element, _, rfl | filled⟩ := exists_of_setText done
  · exact wellFormed_clear wf id
  · exact wellFormed_appendChild ((wellFormed_clear wf id).create _) (by simp [Forest.Has]) filled

/-! ## Markup -/

mutual

/-- Copying a tree adds nodes below its parent and nothing else. -/
theorem grown_graft {doc : Document} (parent : NodeId) (wf : doc.WellFormed)
    (inside : doc.Has parent) (tree : Markup.Tree) :
    Forest.WellFormed (doc.graft parent tree) ∧ doc.Grown (doc.graft parent tree) := by
  cases tree with
  | doctype name =>
      rw [graft]
      exact ⟨wellFormed_addLast _ wf inside, grown_addLast _ (.refl wf) wf inside⟩
  | text content =>
      rw [graft]
      exact ⟨wellFormed_addLast _ wf inside, grown_addLast _ (.refl wf) wf inside⟩
  | comment content =>
      rw [graft]
      exact ⟨wellFormed_addLast _ wf inside, grown_addLast _ (.refl wf) wf inside⟩
  | instruction target content =>
      rw [graft]
      exact ⟨wf, .refl wf⟩
  | element vocabulary name attributes contents children =>
      rw [graft]
      have added := wellFormed_addLast
        (.element ⟨name.text, attributes.map fun item => (item.name.text, item.value)⟩) wf inside
      have start := grown_addLast
        (.element ⟨name.text, attributes.map fun item => (item.name.text, item.value)⟩)
        (.refl wf) wf inside
      obtain ⟨wfContents, grownContents⟩ := grown_graftAll ⟨Forest.size doc⟩ added
        (by simp [Forest.Has]) contents
      obtain ⟨wfChildren, grownChildren⟩ := grown_graftAll ⟨Forest.size doc⟩
        wfContents (grownContents.has (by simp [Forest.Has])) children
      exact ⟨wfChildren, (start.trans grownContents).trans grownChildren⟩

theorem grown_graftAll {doc : Document} (parent : NodeId) (wf : doc.WellFormed)
    (inside : doc.Has parent) (trees : List Markup.Tree) :
    Forest.WellFormed (doc.graftAll parent trees) ∧ doc.Grown (doc.graftAll parent trees) := by
  cases trees with
  | nil =>
      rw [graftAll]
      exact ⟨wf, .refl wf⟩
  | cons tree trees =>
      rw [graftAll]
      obtain ⟨wfFirst, grownFirst⟩ := grown_graft parent wf inside tree
      obtain ⟨wfRest, grownRest⟩ := grown_graftAll parent wfFirst (grownFirst.has inside) trees
      exact ⟨wfRest, grownFirst.trans grownRest⟩

end

theorem wellFormed_empty : Forest.WellFormed empty :=
  Forest.single_wellFormed NodeKind.document

theorem parent?_root_graftAll (trees : List Markup.Tree) :
    Forest.parent? (empty.graftAll root trees) root = none :=
  (grown_graftAll root wellFormed_empty (by decide) trees).2.parents root (by decide)

theorem wellFormed_parse (html : String) : Forest.WellFormed (parse html) :=
  (grown_graftAll root wellFormed_empty (by decide) _).1

/-- Markup is read for nodes that take children. -/
theorem takesChildren_of_contextOf {id : NodeId} {context : String}
    (known : doc.contextOf id = .ok context) : doc.takesChildren id = true := by
  unfold contextOf at known
  rw [takesChildren_iff]
  split at known
  · rename_i element found
    exact Or.inr ⟨element, found⟩
  · rename_i found
    exact Or.inl found
  · cases known

theorem exists_of_appendHtml {parent : NodeId} {html : String}
    (done : doc.appendHtml parent html = .ok next) :
    doc.Has parent ∧
      ∃ context, next = doc.graftAll parent (Markup.parseFragment context html) := by
  unfold appendHtml at done
  split at done
  · cases done
  · rename_i context known
    cases done
    exact ⟨has_of_takesChildren (takesChildren_of_contextOf known), _, rfl⟩

theorem wellFormed_appendHtml (wf : doc.WellFormed) {parent : NodeId} {html : String}
    (done : doc.appendHtml parent html = .ok next) : next.WellFormed := by
  obtain ⟨inside, context, rfl⟩ := exists_of_appendHtml done
  exact (grown_graftAll parent wf inside _).1

/-! ## Reachable documents -/

/-- Documents that edits at their own nodes lead to. Edits that are refused lead nowhere. -/
inductive Reachable : Document → Prop
  | empty : Reachable empty
  | parse (html : String) : Reachable (parse html)
  | create {doc : Document} (reached : Reachable doc) (kind : NodeKind)
      (leaf : kind ≠ .document) : Reachable (doc.create kind).2
  | setAttr {doc next : Document} (reached : Reachable doc) {id : NodeId} {name value : String}
      (done : doc.setAttr id name value = .ok next) : Reachable next
  | removeAttr {doc : Document} (reached : Reachable doc) (id : NodeId) (name : String) :
      Reachable (doc.removeAttr id name)
  | detach {doc : Document} (reached : Reachable doc) (id : NodeId) : Reachable (doc.detach id)
  | appendChild {doc next : Document} (reached : Reachable doc) {parent child : NodeId}
      (inside : doc.Has child) (done : doc.appendChild parent child = .ok next) : Reachable next
  | prependChild {doc next : Document} (reached : Reachable doc) {parent child : NodeId}
      (inside : doc.Has child) (done : doc.prependChild parent child = .ok next) : Reachable next
  | setText {doc next : Document} (reached : Reachable doc) {id : NodeId} {content : String}
      (done : doc.setText id content = .ok next) : Reachable next
  | appendHtml {doc next : Document} (reached : Reachable doc) {parent : NodeId} {html : String}
      (done : doc.appendHtml parent html = .ok next) : Reachable next

theorem wellFormed_setAttr (wf : doc.WellFormed) {id : NodeId} {name value : String}
    (done : doc.setAttr id name value = .ok next) : next.WellFormed := by
  obtain ⟨element, _, rfl⟩ := exists_of_setAttr done
  exact wf.setKind id _

theorem Reachable.wellFormed (reached : Reachable doc) : doc.WellFormed := by
  induction reached with
  | empty => exact wellFormed_empty
  | parse html => exact wellFormed_parse html
  | create _ kind _ ih => exact ih.create kind
  | setAttr _ done ih => exact wellFormed_setAttr ih done
  | removeAttr _ id name ih => exact wellFormed_removeAttr ih id name
  | detach _ id ih => exact ih.detach id
  | appendChild _ inside done ih => exact wellFormed_appendChild ih inside done
  | prependChild _ inside done ih => exact wellFormed_prependChild ih inside done
  | setText _ done ih => exact wellFormed_setText ih done
  | appendHtml _ done ih => exact wellFormed_appendHtml ih done

/-! ## Kinds -/

mutual

/-- Copying a tree changes none of the nodes that are there. -/
theorem kind?_graft {doc : Document} {id : NodeId} {kind : NodeKind} (parent : NodeId)
    (known : doc.kind? id = some kind) (tree : Markup.Tree) :
    (doc.graft parent tree).kind? id = some kind := by
  cases tree with
  | doctype name =>
      rw [graft]
      exact (kind?_addLast _ _ (Forest.has_of_kind? known)).trans known
  | text content =>
      rw [graft]
      exact (kind?_addLast _ _ (Forest.has_of_kind? known)).trans known
  | comment content =>
      rw [graft]
      exact (kind?_addLast _ _ (Forest.has_of_kind? known)).trans known
  | instruction target content =>
      rw [graft]
      exact known
  | element vocabulary name attributes contents children =>
      rw [graft]
      have added := (kind?_addLast parent
        (.element ⟨name.text, attributes.map fun item => (item.name.text, item.value)⟩)
        (Forest.has_of_kind? known)).trans known
      exact kind?_graftAll _ (kind?_graftAll _ added contents) children

theorem kind?_graftAll {doc : Document} {id : NodeId} {kind : NodeKind} (parent : NodeId)
    (known : doc.kind? id = some kind) (trees : List Markup.Tree) :
    (doc.graftAll parent trees).kind? id = some kind := by
  cases trees with
  | nil =>
      rw [graftAll]
      exact known
  | cons tree trees =>
      rw [graftAll]
      exact kind?_graftAll parent (kind?_graft parent known tree) trees

end

/-- Well-formed documents that take contents. -/
structure Sound (doc : Document) : Prop where
  wellFormed : doc.WellFormed
  top : doc.takesChildren root = true

end ServerPages.Document
