import ServerPages.Proofs.Document.Reachable

/-!
# Documents with one top

Of all the nodes of a document only its first is the document itself, and only the document
and elements have children. Well-formed documents stay like that under every edit at their own
nodes: new nodes are no documents, kinds never change but from element to element and from text
to text, and a node is put below another only if that one takes children.
-/

namespace ServerPages.Document

variable {doc next : Document} {id parent child : NodeId}

/-- Well-formed documents whose first node alone is the document, and in which no other nodes than
the document and elements have children. -/
structure Rooted (doc : Document) : Prop where
  wellFormed : doc.WellFormed
  top (id : NodeId) : doc.kind? id = some .document ↔ id = root
  hosts (id : NodeId) (filled : doc.children id ≠ []) : doc.takesChildren id = true

namespace Rooted

theorem has_root (rooted : Rooted doc) : doc.Has root :=
  Forest.has_of_kind? ((rooted.top root).mpr rfl)

theorem sound (rooted : Rooted doc) : doc.Sound where
  wellFormed := rooted.wellFormed
  top := by rw [takesChildren, (rooted.top root).mpr rfl]

/-- A document is rooted if its nodes are what they were, and new children are put where children
may be. -/
theorem congr (rooted : Rooted doc) (wf : next.WellFormed)
    (kinds : ∀ id, next.kind? id = doc.kind? id)
    (filled : ∀ id, next.children id ≠ [] → doc.children id ≠ [] ∨ doc.takesChildren id = true) :
    Rooted next where
  wellFormed := wf
  top id := by rw [kinds]; exact rooted.top id
  hosts id here := by
    rw [takesChildren_congr (kinds id)]
    rcases filled id here with before | takes
    · exact rooted.hosts id before
    · exact takes

/-! ## Links -/

theorem detach (rooted : Rooted doc) (id : NodeId) : Rooted (doc.detach id) := by
  refine rooted.congr (rooted.wellFormed.detach id) (Forest.kind?_detach doc id) ?_
  intro other filled
  rw [Forest.children_detach rooted.wellFormed] at filled
  refine Or.inl fun empty => filled ?_
  rw [empty]
  rfl

theorem attachLast (rooted : Rooted doc) (fits : Forest.Attachable doc parent child)
    (takes : doc.takesChildren parent = true) : Rooted (doc.attachLast parent child) := by
  refine rooted.congr (rooted.wellFormed.attachLast fits)
    (Forest.kind?_attachLast doc parent child) ?_
  intro other filled
  rw [Forest.children_attachLast fits.hasParent] at filled
  split at filled
  · rename_i here
    exact Or.inr (here ▸ takes)
  · exact Or.inl filled

theorem attachFirst (rooted : Rooted doc) (fits : Forest.Attachable doc parent child)
    (takes : doc.takesChildren parent = true) : Rooted (doc.attachFirst parent child) := by
  refine rooted.congr (rooted.wellFormed.attachFirst fits)
    (Forest.kind?_attachFirst doc parent child) ?_
  intro other filled
  rw [Forest.children_attachFirst fits.hasParent] at filled
  split at filled
  · rename_i here
    exact Or.inr (here ▸ takes)
  · exact Or.inl filled

theorem clear (rooted : Rooted doc) (id : NodeId) : Rooted (doc.clear id) := by
  unfold Document.clear
  induction doc.children id generalizing doc with
  | nil => exact rooted
  | cons child rest ih => exact ih (rooted.detach child)

/-! ## Kinds -/

/-- A node may become anything but a document as long as it still takes the children it has. -/
theorem setKind (rooted : Rooted doc) {kind : NodeKind} (inside : doc.Has id)
    (apart : id ≠ root) (plain : kind ≠ .document)
    (takes : doc.takesChildren id = true → takesChildren (doc.setKind id kind) id = true) :
    Rooted (doc.setKind id kind) where
  wellFormed := rooted.wellFormed.setKind id kind
  top other := by
    by_cases here : other = id
    · subst here
      rw [Forest.kind?_setKind_self inside]
      simp [plain, apart]
    · rw [Forest.kind?_setKind_of_ne doc here]
      exact rooted.top other
  hosts other filled := by
    rw [Forest.children_setKind] at filled
    have before := rooted.hosts other filled
    by_cases here : other = id
    · subst here
      exact takes before
    · rw [takesChildren_congr (Forest.kind?_setKind_of_ne doc here kind)]
      exact before

theorem ne_root (rooted : Rooted doc) {kind : NodeKind} (known : doc.kind? id = some kind)
    (plain : kind ≠ .document) : id ≠ root := by
  intro here
  exact plain (Option.some.inj (known.symm.trans ((rooted.top id).mpr here)))

theorem setElement (rooted : Rooted doc) {before : Element}
    (known : doc.element? id = some before) (after : Element) :
    Rooted (doc.setKind id (.element after)) := by
  have element := element?_eq_some_iff.mp known
  refine rooted.setKind (has_of_element? known) (rooted.ne_root element nofun) nofun fun _ => ?_
  exact takesChildren_of_element? (element?_setKind_self (has_of_element? known) after)

theorem create (rooted : Rooted doc) {kind : NodeKind} (plain : kind ≠ .document) :
    Rooted (doc.create kind).2 where
  wellFormed := rooted.wellFormed.create kind
  top id := by
    unfold Forest.kind?
    rw [Forest.node?_create]
    split
    · rename_i new
      have apart : id ≠ root := by
        rintro rfl
        exact Nat.ne_of_lt rooted.has_root new
      simp [plain, apart]
    · exact rooted.top id
  hosts id filled := by
    rw [Forest.children_create] at filled
    have takes := rooted.hosts id filled
    rw [takesChildren_congr (Forest.kind?_create_of_has (has_of_takesChildren takes) kind)]
    exact takes

theorem addLast (rooted : Rooted doc) (takes : doc.takesChildren parent = true) {kind : NodeKind}
    (plain : kind ≠ .document) : Rooted (doc.addLast parent kind) := by
  have inside := has_of_takesChildren takes
  refine (rooted.create plain).attachLast (attachable_create kind rooted.wellFormed inside) ?_
  rw [takesChildren_congr (Forest.kind?_create_of_has inside kind)]
  exact takes

/-! ## Edits -/

theorem setAttr (rooted : Rooted doc) {name value : String}
    (done : doc.setAttr id name value = .ok next) : Rooted next := by
  obtain ⟨element, known, rfl⟩ := exists_of_setAttr done
  exact rooted.setElement known _

theorem removeAttr (rooted : Rooted doc) (id : NodeId) (name : String) :
    Rooted (doc.removeAttr id name) := by
  rcases removeAttr_cases doc id name with same | ⟨element, known, same⟩
  · rw [same]
    exact rooted
  · rw [same]
    exact rooted.setElement known _

/-- A move that is not refused goes below a node that takes children. -/
theorem takesChildren_of_refusal?_none (allowed : doc.refusal? parent child = none) :
    doc.takesChildren parent = true := by
  unfold refusal? at allowed
  split at allowed
  · cases allowed
  · split at allowed
    · rename_i takes
      exact takes
    · cases allowed

theorem appendChild (rooted : Rooted doc) (inside : doc.Has child)
    (done : doc.appendChild parent child = .ok next) : Rooted next := by
  unfold Document.appendChild at done
  split at done
  · cases done
  · rename_i allowed
    dsimp only at done
    split at done
    · rename_i last merged found
      cases done
      obtain ⟨earlier, known⟩ := exists_text_of_mergedText? found
      refine (rooted.detach child).setKind (Forest.has_of_kind? known)
        ((rooted.detach child).ne_root known nofun) nofun fun takes => ?_
      rw [takesChildren, known] at takes
      cases takes
    · cases done
      refine (rooted.detach child).attachLast
        (attachable_of_refusal?_none rooted.wellFormed inside allowed) ?_
      rw [takesChildren_congr (Forest.kind?_detach doc child parent)]
      exact takesChildren_of_refusal?_none allowed

theorem prependChild (rooted : Rooted doc) (inside : doc.Has child)
    (done : doc.prependChild parent child = .ok next) : Rooted next := by
  unfold Document.prependChild at done
  split at done
  · cases done
  · rename_i allowed
    cases done
    refine (rooted.detach child).attachFirst
      (attachable_of_refusal?_none rooted.wellFormed inside allowed) ?_
    rw [takesChildren_congr (Forest.kind?_detach doc child parent)]
    exact takesChildren_of_refusal?_none allowed

theorem textKind_ne_document (name : Option String) (content : String) :
    textKind name content ≠ .document := by
  unfold textKind
  split
  · exact nofun
  · exact nofun

theorem setText (rooted : Rooted doc) {content : String}
    (done : doc.setText id content = .ok next) : Rooted next := by
  obtain ⟨element, _, rfl | filled⟩ := exists_of_setText done
  · exact rooted.clear id
  · exact ((rooted.clear id).create (textKind_ne_document _ _)).appendChild (by simp [Forest.Has])
      filled

/-! ## Markup -/

mutual

/-- Copying a tree puts new nodes below nodes that take children. -/
theorem graft {doc : Document} {parent : NodeId} (rooted : Rooted doc)
    (takes : doc.takesChildren parent = true) (tree : Markup.Tree) :
    Rooted (doc.graft parent tree) := by
  cases tree with
  | doctype name =>
      rw [Document.graft]
      exact rooted.addLast takes nofun
  | text content =>
      rw [Document.graft]
      exact rooted.addLast takes (textKind_ne_document _ _)
  | comment content =>
      rw [Document.graft]
      exact rooted.addLast takes nofun
  | instruction target content =>
      rw [Document.graft]
      exact rooted
  | element vocabulary name attributes contents children =>
      rw [Document.graft]
      generalize attributes.map (fun item => (item.name.text, item.value)) = pairs
      have added := rooted.addLast takes (nofun : NodeKind.element ⟨name.text, pairs⟩ ≠ .document)
      have element := kind?_addLast_new doc parent (.element ⟨name.text, pairs⟩)
      have filled := added.graftAll (takesChildren_of_element? (element?_eq_some_iff.mpr element))
        contents
      exact filled.graftAll (takesChildren_of_element?
        (element?_eq_some_iff.mpr (kind?_graftAll _ element contents))) children

theorem graftAll {doc : Document} {parent : NodeId} (rooted : Rooted doc)
    (takes : doc.takesChildren parent = true) (trees : List Markup.Tree) :
    Rooted (doc.graftAll parent trees) := by
  cases trees with
  | nil =>
      rw [Document.graftAll]
      exact rooted
  | cons tree trees =>
      rw [Document.graftAll]
      refine (rooted.graft takes tree).graftAll ?_ trees
      obtain ⟨node, found⟩ := (Forest.has_iff doc parent).mp (has_of_takesChildren takes)
      have known : doc.kind? parent = some node.kind := by rw [Forest.kind?, found, Option.map_some]
      rw [takesChildren_congr ((kind?_graft parent known tree).trans known.symm)]
      exact takes

end

end Rooted

theorem rooted_empty : Rooted empty where
  wellFormed := wellFormed_empty
  top id := by
    rcases id with ⟨_ | index⟩
    · exact ⟨fun _ => rfl, fun _ => rfl⟩
    · exact ⟨nofun, nofun⟩
  hosts id filled := by
    rcases id with ⟨_ | index⟩
    · rfl
    · exact absurd rfl filled

end ServerPages.Document
