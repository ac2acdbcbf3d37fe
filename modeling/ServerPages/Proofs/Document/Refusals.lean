import ServerPages.Proofs.Document.Moves
import ServerPages.Proofs.Forest.GrownAt
import ServerPages.Proofs.Procedure

/-!
# Refused operations

An operation changes a document step by step: it looks at the nodes that it names, and then it
detaches, creates, links and rewrites nodes one after the other. What is changed in front of a step
that fails stays changed. No step but the first can fail, so that an operation that is refused
leaves the document as it was, and it is refused just where a node would come below itself or is not
of the kind that the operation needs.
-/

namespace ServerPages.Document

open Procedure

variable {doc next : Document} {id parent child : NodeId} {content : String}

/-! ## Step by step -/

def elementAt (id : NodeId) : Procedure Document EditError Element := do
  match element? (← get) id with
  | some element => pure element
  | none => throw (.notAnElement id)

def putAttr (id : NodeId) (name value : String) : Procedure Document EditError Unit := do
  let element ← elementAt id
  modify (Forest.setKind · id (.element (element.setAttr name value)))

def takeAway (parent child : NodeId) : Procedure Document EditError Unit := do
  match refusal? (← get) parent child with
  | some error => throw error
  | none => modify (Forest.detach · child)

/-- Takes a node from its parent and puts it behind another's children, or its text into that of the
last of them. -/
def putLast (parent child : NodeId) : Procedure Document EditError Unit := do
  takeAway parent child
  match mergedText? (← get) parent child with
  | some (last, merged) => modify (Forest.setKind · last (.text merged))
  | none => modify (Forest.attachLast · parent child)

def putFirst (parent child : NodeId) : Procedure Document EditError Unit := do
  takeAway parent child
  modify (Forest.attachFirst · parent child)

/-- Detaches the children of an element one after the other, and puts a new text in their place. -/
def putText (id : NodeId) (content : String) : Procedure Document EditError Unit := do
  let element ← elementAt id
  forM (Forest.children (← get) id) fun child => modify (Forest.detach · child)
  if content.isEmpty then pure ()
  else
    let node ← modifyGet (Forest.create · (textKind (some element.name) content))
    putLast id node

def putMarkup (reader : MarkupReader) (parent : NodeId) (html : String) :
    Procedure Document EditError Unit := do
  match contextOf (← get) parent with
  | .error error => throw error
  | .ok context => modify (graftAll · parent (reader.fragment context html))

/-- An operation, step by step. -/
def Operation.steps (reader : MarkupReader) : Operation → Procedure Document EditError Unit
  | .createElement name attributes => modify fun doc => (doc.create (.element ⟨name, attributes⟩)).2
  | .createText content => modify fun doc => (doc.create (.text content)).2
  | .createRaw content => modify fun doc => (doc.create (.raw content)).2
  | .createComment content => modify fun doc => (doc.create (.comment content)).2
  | .setAttr id name value => putAttr id name value
  | .removeAttr id name => modify fun doc => Document.removeAttr doc id name
  | .detach id => modify (Forest.detach · id)
  | .appendChild parent child => putLast parent child
  | .prependChild parent child => putFirst parent child
  | .appendHtml parent html => putMarkup reader parent html
  | .setText id content => putText id content

/-! ## Steps in one -/

/-- What is left of a document by a change that is made or refused as a whole. -/
def settle (change : Except EditError Document) (doc : Document) :
    Except EditError Unit × Document :=
  match change with
  | .ok next => (.ok (), next)
  | .error error => (.error error, doc)

theorem runFrom_elementAt {element : Element} (known : doc.element? id = some element) :
    (elementAt id).runFrom doc = (.ok element, doc) := by
  rw [elementAt, runFrom_bind_ok (runFrom_get doc), known]
  rfl

theorem runFrom_elementAt_none (bare : doc.element? id = none) :
    (elementAt id).runFrom doc = (.error (.notAnElement id), doc) := by
  rw [elementAt, runFrom_bind_ok (runFrom_get doc), bare]
  rfl

theorem runFrom_putAttr (doc : Document) (id : NodeId) (name value : String) :
    (putAttr id name value).runFrom doc = settle (doc.setAttr id name value) doc := by
  unfold putAttr setAttr
  cases known : doc.element? id with
  | none => exact runFrom_bind_error (runFrom_elementAt_none known)
  | some element => exact runFrom_bind_ok (runFrom_elementAt known)

theorem runFrom_takeAway (allowed : doc.refusal? parent child = none) :
    (takeAway parent child).runFrom doc = (.ok (), doc.detach child) := by
  rw [takeAway, runFrom_bind_ok (runFrom_get doc), allowed]
  rfl

theorem runFrom_takeAway_refused {error : EditError}
    (refused : doc.refusal? parent child = some error) :
    (takeAway parent child).runFrom doc = (.error error, doc) := by
  rw [takeAway, runFrom_bind_ok (runFrom_get doc), refused]
  rfl

theorem runFrom_putLast (doc : Document) (parent child : NodeId) :
    (putLast parent child).runFrom doc = settle (doc.appendChild parent child) doc := by
  unfold putLast appendChild
  cases refused : doc.refusal? parent child with
  | some error => exact runFrom_bind_error (runFrom_takeAway_refused refused)
  | none =>
      rw [runFrom_bind_ok (runFrom_takeAway refused), runFrom_bind_ok (runFrom_get _)]
      dsimp only
      cases mergedText? (doc.detach child) parent child with
      | none => rfl
      | some found => rfl

theorem runFrom_putFirst (doc : Document) (parent child : NodeId) :
    (putFirst parent child).runFrom doc = settle (doc.prependChild parent child) doc := by
  unfold putFirst prependChild
  cases refused : doc.refusal? parent child with
  | some error => exact runFrom_bind_error (runFrom_takeAway_refused refused)
  | none => exact runFrom_bind_ok (runFrom_takeAway refused)

theorem runFrom_forM_detach (ids : List NodeId) (doc : Document) :
    (forM ids fun child => modify (Forest.detach · child) :
      Procedure Document EditError Unit).runFrom doc = (.ok (), ids.foldl Forest.detach doc) := by
  induction ids generalizing doc with
  | nil => rfl
  | cons child ids ih =>
      rw [List.forM_cons, runFrom_bind_ok (runFrom_modify _ doc), ih, List.foldl_cons]

/-- The new text cannot be refused once the element was found. -/
theorem runFrom_putText (wf : doc.WellFormed) (id : NodeId) (content : String) :
    (putText id content).runFrom doc = settle (doc.setText id content) doc := by
  unfold putText
  cases known : doc.element? id with
  | none =>
      rw [runFrom_bind_error (runFrom_elementAt_none known), setText, known]
      rfl
  | some element =>
      have cleared : (forM (doc.children id) fun child => modify (Forest.detach · child) :
          Procedure Document EditError Unit).runFrom doc = (.ok (), doc.clear id) :=
        runFrom_forM_detach _ doc
      obtain ⟨next, done⟩ := exists_setText wf known content
      rw [runFrom_bind_ok (runFrom_elementAt known), runFrom_bind_ok (runFrom_get doc),
        runFrom_bind_ok cleared, done]
      unfold setText at done
      rw [known] at done
      dsimp only at done
      by_cases empty : content.isEmpty = true
      · rw [if_pos empty] at done ⊢
        cases done
        rfl
      · rw [if_neg empty] at done ⊢
        rw [runFrom_bind_ok (runFrom_modifyGet _ _), runFrom_putLast, done]
        rfl

theorem runFrom_putMarkup (reader : MarkupReader) (doc : Document) (parent : NodeId)
    (html : String) :
    (putMarkup reader parent html).runFrom doc =
      settle (appendRead reader doc parent html) doc := by
  unfold putMarkup appendRead
  rw [runFrom_bind_ok (runFrom_get doc)]
  cases doc.contextOf parent with
  | error error => rfl
  | ok context => rfl

/-- Step by step an operation is done as a whole, or not at all. -/
theorem Operation.runFrom_steps (reader : MarkupReader) (wf : doc.WellFormed)
    (operation : Operation) :
    (operation.steps reader).runFrom doc = settle (operation.attempt reader doc) doc := by
  cases operation with
  | createElement | createText | createRaw | createComment | removeAttr | detach => rfl
  | setAttr id name value => exact runFrom_putAttr doc id name value
  | appendChild parent child => exact runFrom_putLast doc parent child
  | prependChild parent child => exact runFrom_putFirst doc parent child
  | appendHtml parent html => exact runFrom_putMarkup reader doc parent html
  | setText id content => exact runFrom_putText wf id content

/-! ## What is refused -/

/-- What an operation is refused for: that a node would come below itself, that nothing can be put
below a node, or that a node is no element. -/
inductive Refused (doc : Document) : Operation → EditError → Prop
  | cycleLast {parent child : NodeId} (above : doc.Within child parent) :
      Refused doc (.appendChild parent child) (.cycle child)
  | cycleFirst {parent child : NodeId} (above : doc.Within child parent) :
      Refused doc (.prependChild parent child) (.cycle child)
  | leafLast {parent child : NodeId} (apart : ¬ doc.Within child parent)
      (leaf : ¬ Fosters doc parent) : Refused doc (.appendChild parent child) (.notAnElement parent)
  | leafFirst {parent child : NodeId} (apart : ¬ doc.Within child parent)
      (leaf : ¬ Fosters doc parent) :
      Refused doc (.prependChild parent child) (.notAnElement parent)
  | leafMarkup {parent : NodeId} {html : String} (leaf : ¬ Fosters doc parent) :
      Refused doc (.appendHtml parent html) (.notAnElement parent)
  | bareAttr {id : NodeId} {name value : String}
      (bare : ∀ element, doc.kind? id ≠ some (.element element)) :
      Refused doc (.setAttr id name value) (.notAnElement id)
  | bareText {id : NodeId} {content : String}
      (bare : ∀ element, doc.kind? id ≠ some (.element element)) :
      Refused doc (.setText id content) (.notAnElement id)

theorem element?_eq_none_iff :
    doc.element? id = none ↔ ∀ element, doc.kind? id ≠ some (.element element) := by
  rw [Option.eq_none_iff_forall_ne_some]
  exact forall_congr' fun element => not_congr element?_eq_some_iff

theorem contextOf_eq_error_iff {error : EditError} :
    doc.contextOf id = .error error ↔ ¬ Fosters doc id ∧ error = .notAnElement id := by
  unfold contextOf Fosters
  cases doc.kind? id with
  | none => simp [eq_comm]
  | some kind => cases kind <;> simp [eq_comm]

theorem refusal?_eq_some_iff (wf : doc.WellFormed) (inside : doc.Has parent) {error : EditError} :
    doc.refusal? parent child = some error ↔
      (doc.Within child parent ∧ error = .cycle child) ∨
        ¬ doc.Within child parent ∧ ¬ Fosters doc parent ∧ error = .notAnElement parent := by
  rw [← wf.isInclusiveAncestor_iff inside, ← takesChildren_iff, eq_comm]
  unfold refusal?
  cases doc.isInclusiveAncestor child parent with
  | true => simp
  | false => cases doc.takesChildren parent <;> simp

theorem appendChild_eq_error_iff {error : EditError} :
    doc.appendChild parent child = .error error ↔ doc.refusal? parent child = some error := by
  unfold appendChild
  cases doc.refusal? parent child with
  | some refusal => simp
  | none =>
      dsimp only
      cases mergedText? (doc.detach child) parent child <;> simp

theorem prependChild_eq_error_iff {error : EditError} :
    doc.prependChild parent child = .error error ↔ doc.refusal? parent child = some error := by
  unfold prependChild
  cases doc.refusal? parent child <;> simp

theorem setAttr_eq_error_iff {name value : String} {error : EditError} :
    doc.setAttr id name value = .error error ↔
      doc.element? id = none ∧ error = .notAnElement id := by
  unfold setAttr
  cases doc.element? id <;> simp [eq_comm]

theorem setText_eq_error_iff (wf : doc.WellFormed) {error : EditError} :
    doc.setText id content = .error error ↔
      doc.element? id = none ∧ error = .notAnElement id := by
  cases known : doc.element? id with
  | none => simp [setText, known, eq_comm]
  | some element => simp [setText_eq wf known]

/-- An operation at nodes of a document fails if and only if it is refused. -/
theorem Operation.attempt_eq_error_iff (reader : MarkupReader) (wf : doc.WellFormed)
    (operation : Operation) (own : ∀ id ∈ operation.nodes, doc.Has id) {error : EditError} :
    operation.attempt reader doc = .error error ↔ Refused doc operation error := by
  cases operation with
  | createElement | createText | createRaw | createComment | removeAttr | detach =>
      exact iff_of_false nofun nofun
  | setAttr id name value =>
      refine setAttr_eq_error_iff.trans ?_
      rw [element?_eq_none_iff]
      constructor
      · rintro ⟨bare, rfl⟩
        exact .bareAttr bare
      · intro refused
        cases refused with
        | bareAttr bare => exact ⟨bare, rfl⟩
  | appendChild parent child =>
      refine (appendChild_eq_error_iff.trans
        (refusal?_eq_some_iff wf (own parent (by simp [Operation.nodes])))).trans ?_
      constructor
      · rintro (⟨above, rfl⟩ | ⟨apart, leaf, rfl⟩)
        · exact .cycleLast above
        · exact .leafLast apart leaf
      · intro refused
        cases refused with
        | cycleLast above => exact Or.inl ⟨above, rfl⟩
        | leafLast apart leaf => exact Or.inr ⟨apart, leaf, rfl⟩
  | prependChild parent child =>
      refine (prependChild_eq_error_iff.trans
        (refusal?_eq_some_iff wf (own parent (by simp [Operation.nodes])))).trans ?_
      constructor
      · rintro (⟨above, rfl⟩ | ⟨apart, leaf, rfl⟩)
        · exact .cycleFirst above
        · exact .leafFirst apart leaf
      · intro refused
        cases refused with
        | cycleFirst above => exact Or.inl ⟨above, rfl⟩
        | leafFirst apart leaf => exact Or.inr ⟨apart, leaf, rfl⟩
  | appendHtml parent html =>
      have failed : appendRead reader doc parent html = .error error ↔
          doc.contextOf parent = .error error := by
        unfold appendRead
        cases doc.contextOf parent <;> simp
      refine (failed.trans contextOf_eq_error_iff).trans ?_
      constructor
      · rintro ⟨leaf, rfl⟩
        exact .leafMarkup leaf
      · intro refused
        cases refused with
        | leafMarkup leaf => exact ⟨leaf, rfl⟩
  | setText id content =>
      refine (setText_eq_error_iff wf).trans ?_
      rw [element?_eq_none_iff]
      constructor
      · rintro ⟨bare, rfl⟩
        exact .bareText bare
      · intro refused
        cases refused with
        | bareText bare => exact ⟨bare, rfl⟩

/-! ## New texts -/

def retext (doc : Document) (id : NodeId) (name content : String) : Document :=
  if content.isEmpty then doc.clear id
  else (doc.clear id).addLast id (textKind (some name) content)

section

variable {other : NodeId} {name : String}

theorem has_clear (inside : doc.Has other) (id : NodeId) : (doc.clear id).Has other := by
  rw [Forest.Has, size_clear]
  exact inside

theorem kind?_retext (inside : doc.Has other) :
    Forest.kind? (doc.retext id name content) other = doc.kind? other := by
  unfold retext
  split
  · exact kind?_clear doc id other
  · rw [kind?_addLast _ _ (has_clear inside id), kind?_clear]

theorem parent?_retext (inside : doc.Has other) :
    Forest.parent? (doc.retext id name content) other =
      if other ∈ doc.children id then none else doc.parent? other := by
  unfold retext
  split
  · exact parent?_clear doc id other
  · have old : (⟨Forest.size (doc.clear id)⟩ : NodeId) ≠ other := by
      rintro rfl
      exact not_has_size _ (has_clear inside id)
    rw [parent?_addLast, if_neg old, parent?_clear]

theorem children_retext_self (wf : doc.WellFormed) (inside : doc.Has id) :
    Forest.children (doc.retext id name content) id =
      if content.isEmpty then [] else [⟨doc.size⟩] := by
  unfold retext
  split
  · exact children_clear_self wf id
  · rw [children_addLast _ (has_clear inside id), if_pos rfl, children_clear_self wf, size_clear]
    rfl

theorem children_retext_of_ne (wf : doc.WellFormed) (inside : doc.Has id) (different : other ≠ id) :
    Forest.children (doc.retext id name content) other = doc.children other := by
  have left : (doc.clear id).children other = doc.children other := by
    rw [children_clear wf, List.filter_eq_self]
    intro child down
    refine decide_eq_true fun again => different ?_
    have up := (wf.linked other child).mp down
    exact Option.some.inj (up.symm.trans ((wf.linked id child).mp again))
  unfold retext
  split
  · exact left
  · rw [children_addLast _ (has_clear inside id), if_neg different.symm, left]

theorem kind?_retext_new (doc : Document) (id : NodeId) (name : String)
    (full : ¬ content.isEmpty = true) :
    Forest.kind? (doc.retext id name content) ⟨doc.size⟩ =
      some (textKind (some name) content) := by
  rw [retext, if_neg full, ← size_clear doc id]
  exact kind?_addLast_new _ _ _

/-- What is new is a text and has no attributes. -/
theorem attr?_retext_of_not_has (new : ¬ doc.Has other) (asked : String) :
    attr? (doc.retext id name content) other asked = none := by
  cases known : attr? (doc.retext id name content) other asked with
  | none => rfl
  | some value =>
      have inside := has_of_attr? known
      by_cases empty : content.isEmpty = true
      · rw [retext, if_pos empty, Forest.Has, size_clear] at inside
        exact absurd inside new
      · rw [retext, if_neg empty, Forest.Has, size_addLast, size_clear] at inside
        have last : other.index = doc.size :=
          Nat.le_antisymm (Nat.le_of_lt_succ inside) (Nat.le_of_not_lt new)
        have text := kind?_retext_new doc id name empty
        rw [← last] at text
        obtain ⟨element, here, _⟩ := Option.bind_eq_some_iff.mp known
        rw [element?_eq_some_iff.mp here, textKind] at text
        split at text <;> cases text

/-- What is not below the element stands where it stood. -/
theorem within_retext (wf : doc.WellFormed) {above : NodeId} (inner : doc.Within above other)
    (apart : ¬ doc.Within id other) :
    Forest.Within (doc.retext id name content) above other := by
  induction inner with
  | refl => exact .refl
  | @step child parent up inner ih =>
      refine .step ?_ (ih fun below => apart (.step up below))
      rw [parent?_retext (Forest.has_of_parent? up), if_neg, up]
      intro former
      exact apart (.step ((wf.linked id child).mp former) .refl)

/-- What was below the element is still below its former children. -/
theorem kept_retext (wf : doc.WellFormed) (former : child ∈ doc.children id) :
    Kept doc (doc.retext id name content) child := by
  intro node below
  have up := (wf.linked id child).mp former
  have has : doc.Has node := by
    by_cases here : node = child
    · exact here ▸ wf.has_child former
    · exact below.has here
  refine ⟨kind?_retext has, children_retext_of_ne wf (wf.has_parent up) ?_⟩
  rintro rfl
  exact wf.not_within_parent up below

theorem text_retext (wf : doc.WellFormed) {element : Element}
    (known : doc.element? id = some element)
    (after : Forest.WellFormed (doc.retext id element.name content)) :
    (doc.retext id element.name content).text id = content := by
  have inside := has_of_element? known
  have takes : (doc.retext id element.name content).takesChildren id = true := by
    rw [takesChildren_congr (kind?_retext inside)]
    exact takesChildren_of_element? known
  rw [← String.toList_inj, toList_text_of_takesChildren after takes,
    children_retext_self wf inside]
  by_cases empty : content.isEmpty = true
  · rw [if_pos empty, String.isEmpty_iff.mp empty]
    rfl
  · have kind := kind?_retext_new doc id element.name empty
    have leaf : Forest.children (doc.retext id element.name content) ⟨doc.size⟩ = [] := by
      have apart : (⟨doc.size⟩ : NodeId) ≠ id := by
        rintro rfl
        exact not_has_size doc inside
      rw [children_retext_of_ne wf inside apart]
      exact Forest.children_of_not_has (not_has_size doc)
    have whole := reads_text after ⟨doc.size⟩
    rw [kind, leaf] at whole
    rw [if_neg empty, List.flatMap_singleton]
    refine whole.trans ?_
    unfold textKind
    split <;> exact List.append_nil _

end

/-- A text has come in place of all children of a node, and they stand alone with what is below
them. -/
structure Retexted (doc next : Document) (id : NodeId) (content : String) : Prop where
  text : next.text id = content
  children : next.children id = if content.isEmpty then [] else [⟨doc.size⟩]
  detached (child : NodeId) (former : child ∈ doc.children id) : next.parent? child = none
  intact (child : NodeId) (former : child ∈ doc.children id) : Kept doc next child
  inside (child node : NodeId) (former : child ∈ doc.children id) (below : doc.Within child node)
    (different : node ≠ child) : next.parent? node = doc.parent? node
  written (child : NodeId) (former : child ∈ doc.children id) :
    next.outerHtml child = doc.outerHtml child

theorem retexted_of_setText (wf : doc.WellFormed) (done : doc.setText id content = .ok next) :
    Retexted doc next id content := by
  have after := wellFormed_setText wf done
  obtain ⟨element, known, _⟩ := exists_of_setText done
  rw [setText_eq wf known] at done
  cases done
  change Retexted doc (doc.retext id element.name content) id content
  refine ⟨text_retext wf known after, children_retext_self wf (has_of_element? known), ?_, ?_, ?_,
    ?_⟩
  · intro child former
    rw [parent?_retext (wf.has_child former), if_pos former]
  · intro child former
    exact kept_retext wf former
  · intro child node former below different
    rw [parent?_retext (below.has different), if_neg]
    intro sibling
    exact different (wf.siblings_apart ((wf.linked id child).mp former)
      ((wf.linked id node).mp sibling) below .refl).symm
  · intro child former
    exact String.toList_inj.mp
      (Kept.same (reads_outerHtml wf) (reads_outerHtml after) (kept_retext wf former) wf)

/-! ## All operations -/

/-- A document whose operations fail where they are refused and nowhere else, and are done as a
whole or not at all. -/
structure Dependable (reader : MarkupReader) (doc : Document) : Prop where
  /-- A run fails if and only if the operation is refused. -/
  refused (operation : Operation) (own : ∀ id ∈ operation.nodes, doc.Has id) (error : EditError) :
    ((operation.steps reader).runFrom doc).1 = .error error ↔ Refused doc operation error
  /-- A run that fails leaves the document as it was. -/
  untouched (operation : Operation) (error : EditError)
    (failed : ((operation.steps reader).runFrom doc).1 = .error error) :
    ((operation.steps reader).runFrom doc).2 = doc
  /-- A run leaves what the operation makes of the document. -/
  performed (operation : Operation) :
    ((operation.steps reader).runFrom doc).2 = operation.perform reader doc
  retexted (id : NodeId) (content : String) (next : Document)
    (done : ((Operation.setText id content).steps reader).runFrom doc = (.ok (), next)) :
    Retexted doc next id content

theorem dependable (reader : MarkupReader) (wf : doc.WellFormed) : Dependable reader doc where
  refused operation own error := by
    rw [operation.runFrom_steps reader wf, ← operation.attempt_eq_error_iff reader wf own]
    cases operation.attempt reader doc <;> simp [settle]
  untouched operation error failed := by
    rw [operation.runFrom_steps reader wf] at failed ⊢
    cases attempt : operation.attempt reader doc with
    | error => rfl
    | ok next =>
        rw [attempt] at failed
        cases failed
  performed operation := by
    rw [operation.runFrom_steps reader wf, Operation.perform]
    cases operation.attempt reader doc <;> rfl
  retexted id content next done := by
    rw [Operation.runFrom_steps reader wf] at done
    refine retexted_of_setText wf ?_
    cases attempt : (Operation.setText id content).attempt reader doc with
    | error error =>
        rw [attempt] at done
        cases done
    | ok other =>
        rw [attempt] at done
        cases done
        exact attempt

/-- Whatever was done to a document at its own nodes, what is refused from then on leaves no
trace. -/
theorem dependable_after (reader : MarkupReader) (origin : Origin) {operations : List Operation}
    (own : (origin.document reader).Owns reader operations) :
    Dependable reader ((origin.document reader).after reader operations) :=
  dependable reader ((origin.rooted reader).after own).wellFormed

/-- A paragraph cannot take in the section around it, nor can the comment in it take anything; its
new text leaves the old one and the comment alone. -/
theorem dependable_after_filling :
    let reader : MarkupReader := ⟨fun _ => [], fun _ _ => [.text "read", .comment "aside"]⟩
    let operations : List Operation :=
      [.createElement "section" [], .createElement "p" [], .appendChild root ⟨1⟩,
        .appendChild ⟨1⟩ ⟨2⟩, .appendHtml ⟨2⟩ "read"]
    let doc : Document := (Origin.empty.document reader).after reader operations
    let written : Document := (Operation.setText ⟨2⟩ "written").perform reader doc
    Owns reader (Origin.empty.document reader) operations ∧ Dependable reader doc ∧
      (((Operation.appendChild ⟨2⟩ ⟨1⟩).steps reader).runFrom doc).1 = .error (.cycle ⟨1⟩) ∧
      (((Operation.prependChild ⟨4⟩ ⟨3⟩).steps reader).runFrom doc).1 =
        .error (.notAnElement ⟨4⟩) ∧
      doc.children ⟨2⟩ = [⟨3⟩, ⟨4⟩] ∧ written.children ⟨2⟩ = [⟨5⟩] ∧
      written.text ⟨2⟩ = "written" ∧ written.parent? ⟨3⟩ = none ∧ written.parent? ⟨4⟩ = none := by
  intro reader operations doc written
  have own : Owns reader (Origin.empty.document reader) operations := by decide +kernel
  refine ⟨own, dependable_after reader .empty own, ?_⟩
  decide +kernel

end ServerPages.Document
