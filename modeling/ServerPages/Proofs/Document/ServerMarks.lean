import ServerPages.Page.Control
import ServerPages.Proofs.Document.Decoding
import ServerPages.Proofs.Document.Searches
import ServerPages.Proofs.Document.Upkeep

/-!
# Marks of the server

The attributes of a controller are taken from the element that names it, and before a page is sent
the mark of what runs at the server is taken from every node below its top. An attribute is removed
once from an element, which is enough where elements do not repeat attributes. What an element has
of these attributes afterwards, it has from elsewhere. What is written below the top are the trees
that stood there, without their marks.
-/

namespace ServerPages

def NodeKind.lacking (name : String) : NodeKind → NodeKind
  | .element data => .element (data.removeAttr name)
  | kind => kind

namespace Subtree

mutual

def unmarked : Subtree → Subtree
  | .document trees => .document (unmarkedAll trees)
  | .element data trees => .element (data.removeAttr "runat") (unmarkedAll trees)
  | tree => tree

def unmarkedAll : List Subtree → List Subtree
  | [] => []
  | tree :: trees => unmarked tree :: unmarkedAll trees

end

end Subtree

end ServerPages

namespace ServerPages.Document

variable {doc : Document} {names : List String} {may : NodeId → String → Prop}

/-- Elements have attributes of the given names only where they may. -/
def Confined (names : List String) (may : NodeId → String → Prop) (doc : Document) : Prop :=
  ∀ id, ∀ name ∈ names, doc.hasAttr id name = true → may id name

/-! ## Removed attributes -/

def without (doc : Document) (marks : List (NodeId × String)) : Document :=
  marks.foldl (fun doc mark => doc.removeAttr mark.1 mark.2) doc

theorem stripServerMarks_eq (doc : Document) (scope : NodeId) :
    doc.stripServerMarks scope = doc.without ((doc.descendants scope).map (·, "runat")) := by
  rw [without, List.foldl_map]
  rfl

theorem wellFormed_without (wf : doc.WellFormed) (marks : List (NodeId × String)) :
    (doc.without marks).WellFormed := by
  induction marks generalizing doc with
  | nil => exact wf
  | cons mark marks ih => exact ih (wellFormed_removeAttr wf mark.1 mark.2)

theorem element?_removeAttr_self (doc : Document) (id : NodeId) (name : String) :
    (doc.removeAttr id name).element? id = (doc.element? id).map (·.removeAttr name) := by
  unfold removeAttr
  cases known : doc.element? id with
  | none => exact known
  | some element =>
      dsimp only [Option.map_some]
      split
      · exact element?_setKind_self (has_of_element? known) _
      · rename_i lacks
        have absent : name ∉ element.attributes.map (·.1) :=
          Element.attr?_eq_none_iff.mp (Option.not_isSome_iff_eq_none.mp lacks)
        rw [known, Element.removeAttr, List.eraseP_of_forall_not]
        intro item among same
        exact absent (of_decide_eq_true same ▸ List.mem_map_of_mem among)

/-- What a node lacks, it does not get by a removal. -/
theorem attr?_removeAttr_of_none {id other : NodeId} {name asked : String}
    (absent : doc.attr? other asked = none) :
    (doc.removeAttr id name).attr? other asked = none := by
  by_cases here : other = id
  · subst here
    rw [attr?, element?_removeAttr_self]
    cases known : doc.element? other with
    | none => rfl
    | some element =>
        rw [attr?, known] at absent
        exact Element.attr?_removeAttr_of_none absent name
  · rw [attr?_removeAttr doc (Or.inl here)]
    exact absent

theorem attr?_without_of_none {id : NodeId} {asked : String} (absent : doc.attr? id asked = none)
    (marks : List (NodeId × String)) : (doc.without marks).attr? id asked = none := by
  induction marks generalizing doc with
  | nil => exact absent
  | cons mark marks ih => exact ih (attr?_removeAttr_of_none absent)

/-- Attributes that elements have once are gone when they are removed. -/
theorem attr?_without_of_mem (once : doc.All fun _ => NodeKind.Once) {id : NodeId} {name : String}
    (unadjusted : Markup.Unadjusted name) {marks : List (NodeId × String)}
    (member : (id, name) ∈ marks) : (doc.without marks).attr? id name = none := by
  induction marks generalizing doc with
  | nil => cases member
  | cons mark marks ih =>
      rcases List.mem_cons.mp member with rfl | later
      · refine attr?_without_of_none ?_ marks
        rw [attr?, element?_removeAttr_self]
        cases known : doc.element? id with
        | none => rfl
        | some element =>
            exact Element.Once.attr?_removeAttr (once id _ (element?_eq_some_iff.mp known))
              unadjusted
      · exact ih (ofElements_once.removeAttr once mark.1 mark.2) later

/-- A node of which an attribute is removed. -/
theorem kind?_removeAttr_self (doc : Document) (id : NodeId) (name : String) :
    (doc.removeAttr id name).kind? id = (doc.kind? id).map (·.lacking name) := by
  have elements := element?_removeAttr_self doc id name
  cases known : doc.element? id with
  | some element =>
      rw [known, Option.map_some] at elements
      rw [element?_eq_some_iff.mp elements, element?_eq_some_iff.mp known]
      rfl
  | none =>
      have same : doc.removeAttr id name = doc := by rw [removeAttr, known]
      rw [same]
      cases here : doc.kind? id with
      | none => rfl
      | some kind =>
          cases kind with
          | element data => cases known.symm.trans (element?_eq_some_iff.mpr here)
          | _ => rfl

theorem kind?_removeAttr_of_ne {id other : NodeId} (different : other ≠ id) (name : String) :
    (doc.removeAttr id name).kind? other = doc.kind? other := by
  unfold removeAttr
  split
  · split
    · exact Forest.kind?_setKind_of_ne _ different _
    · rfl
  · rfl

theorem kind?_without_of_not_mem {id : NodeId} {marks : List (NodeId × String)}
    (apart : ∀ mark ∈ marks, id ≠ mark.1) : (doc.without marks).kind? id = doc.kind? id := by
  induction marks generalizing doc with
  | nil => rfl
  | cons mark marks ih =>
      exact (ih fun other member => apart other (List.mem_cons_of_mem _ member)).trans
        (kind?_removeAttr_of_ne (apart mark List.mem_cons_self) _)

theorem kind?_without_of_mem {id : NodeId} {nodes : List NodeId} (distinct : nodes.Nodup)
    (member : id ∈ nodes) (name : String) :
    (doc.without (nodes.map (·, name))).kind? id = (doc.kind? id).map (·.lacking name) := by
  induction nodes generalizing doc with
  | nil => cases member
  | cons node nodes ih =>
      obtain ⟨fresh, others⟩ := List.nodup_cons.mp distinct
      change ((doc.removeAttr node name).without (nodes.map (·, name))).kind? id = _
      rcases List.mem_cons.mp member with rfl | later
      · rw [kind?_without_of_not_mem, kind?_removeAttr_self]
        rintro mark among same
        obtain ⟨other, here, rfl⟩ := List.mem_map.mp among
        exact fresh (same ▸ here)
      · rw [ih others later, kind?_removeAttr_of_ne]
        rintro rfl
        exact fresh later

theorem hasAttr_of_without {id : NodeId} {name : String} {marks : List (NodeId × String)}
    (has : (doc.without marks).hasAttr id name = true) : doc.hasAttr id name = true := by
  by_contra lacks
  have absent : doc.attr? id name = none := by
    rwa [hasAttr, Bool.not_eq_true, Option.isSome_eq_false_iff, Option.isNone_iff_eq_none] at lacks
  rw [hasAttr, attr?_without_of_none absent marks] at has
  cases has

theorem Stable.without {property : Document → Prop}
    (stable : Stable (Operation.Discreet names) property) (holds : property doc)
    (marks : List (NodeId × String)) : property (doc.without marks) := by
  induction marks generalizing doc with
  | nil => exact holds
  | cons mark marks ih => exact ih (stable.removeAttr holds mark.1 mark.2)

theorem unadjusted_of_mem_controlNames {name : String} (member : name ∈ controlNames) :
    Markup.Unadjusted name :=
  (by decide : ∀ name ∈ controlNames, Markup.Unadjusted name) name member

section

variable {scope : NodeId}

theorem kind?_stripServerMarks (wf : doc.WellFormed) {id : NodeId}
    (member : id ∈ doc.descendants scope) :
    (doc.stripServerMarks scope).kind? id = (doc.kind? id).map (·.lacking "runat") := by
  rw [stripServerMarks_eq]
  exact kind?_without_of_mem (wf.nodup_descendants scope) member "runat"

/-- What stands below a node of the scope is in the scope. -/
theorem mem_descendants_of_child (wf : doc.WellFormed) {id child : NodeId}
    (member : id ∈ doc.descendants scope) (down : child ∈ doc.children id) :
    child ∈ doc.descendants scope := by
  obtain ⟨inner, below⟩ := wf.mem_descendants.mp member
  have up := (wf.linked id child).mp down
  refine wf.mem_descendants.mpr ⟨.step up inner, ?_⟩
  rintro rfl
  exact wf.not_within_parent up inner

mutual

theorem depicts_stripServerMarks (wf : doc.WellFormed) (tree : Subtree) {id : NodeId}
    (member : id ∈ doc.descendants scope) (depicts : doc.Depicts id tree) :
    (doc.stripServerMarks scope).Depicts id tree.unmarked := by
  have stripped := kind?_stripServerMarks wf member
  cases tree with
  | doctype | text | raw | comment =>
      rw [depicts] at stripped
      exact stripped
  | document trees =>
      rw [depicts.1] at stripped
      refine ⟨stripped, ?_⟩
      rw [children_stripServerMarks]
      exact depictsAll_stripServerMarks wf trees
        (fun child down => mem_descendants_of_child wf member down) depicts.2
  | element data trees =>
      rw [depicts.1] at stripped
      refine ⟨stripped, ?_⟩
      rw [children_stripServerMarks]
      exact depictsAll_stripServerMarks wf trees
        (fun child down => mem_descendants_of_child wf member down) depicts.2

theorem depictsAll_stripServerMarks (wf : doc.WellFormed) (trees : List Subtree) {ids : List NodeId}
    (members : ∀ id ∈ ids, id ∈ doc.descendants scope) (depicts : doc.DepictsAll ids trees) :
    (doc.stripServerMarks scope).DepictsAll ids (Subtree.unmarkedAll trees) := by
  match ids, trees, depicts with
  | [], [], _ => exact trivial
  | id :: ids, tree :: trees, ⟨first, others⟩ =>
      exact ⟨depicts_stripServerMarks wf tree (members id List.mem_cons_self) first,
        depictsAll_stripServerMarks wf trees
          (fun other later => members other (List.mem_cons_of_mem _ later)) others⟩

end

/-- What is written of the contents of a node without marks are the trees that stand there, each
without its marks. -/
theorem innerHtml_stripServerMarks (wf : doc.WellFormed) {trees : List Subtree}
    (depicts : doc.DepictsAll (doc.children scope) trees) :
    (doc.stripServerMarks scope).innerHtml scope =
      String.ofList (Subtree.listChars (Subtree.unmarkedAll trees)) := by
  have members : ∀ id ∈ doc.children scope, id ∈ doc.descendants scope := by
    intro id down
    have up := (wf.linked scope id).mp down
    refine wf.mem_descendants.mpr ⟨.step up .refl, ?_⟩
    rintro rfl
    exact wf.not_within_parent up .refl
  have after : (doc.stripServerMarks scope).WellFormed := by
    rw [stripServerMarks_eq]
    exact wellFormed_without wf _
  refine innerHtml_eq after ?_
  rw [children_stripServerMarks]
  exact depictsAll_stripServerMarks wf trees members depicts

end

/-! ## Attributes of controllers -/

theorem exists_of_takeControl {name : String} {taken : Document}
    (control : doc.takeControl = (some name, taken)) :
    ∃ top, doc.firstNamed "html" = some top ∧ taken = doc.without (controlNames.map (top, ·)) := by
  unfold takeControl at control
  split at control
  · rename_i top _ found
    cases control
    refine ⟨top, ?_, List.foldl_map.symm⟩
    unfold control? at found
    obtain ⟨first, named, found⟩ := Option.bind_eq_some_iff.mp found
    split at found
    · obtain ⟨name, _, found⟩ := Option.bind_eq_some_iff.mp found
      split at found
      · cases found
      · cases found
        exact named
    · cases found
  · cases control

/-- What a node has of the attributes of a controller in a template, unless it names the controller
itself. -/
def Elsewhere (template : Document) (id : NodeId) (name : String) : Prop :=
  template.hasAttr id name = true ∧ template.firstNamed "html" ≠ some id

/-- The attributes of a controller are taken from the element that names it, and from no other. -/
theorem Tidy.of_takeControl {template taken : Document} (tidy : Tidy template) {name : String}
    (control : template.takeControl = (some name, taken)) :
    Tidy taken ∧ taken.Confined controlNames (Elsewhere template) := by
  obtain ⟨top, first, rfl⟩ := exists_of_takeControl control
  have stable : Stable (Operation.Discreet []) Tidy :=
    stable_tidy.mono fun _ => Operation.Discreet.distinct
  refine ⟨stable.without tidy _, fun id name member has => ⟨hasAttr_of_without has, ?_⟩⟩
  rw [first]
  rintro ⟨⟩
  have gone := attr?_without_of_mem tidy.once (unadjusted_of_mem_controlNames member)
    (List.mem_map.mpr ⟨name, member, rfl⟩ : (top, name) ∈ controlNames.map (top, ·))
  rw [hasAttr, gone] at has
  cases has

end ServerPages.Document
