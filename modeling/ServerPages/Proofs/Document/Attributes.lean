import ServerPages.Proofs.Document.Operations
import ServerPages.Proofs.Markup.Trees

/-!
# Attributes in edited documents

What an operation makes of the elements of a document: it may add elements, set and remove
attributes, and everything else it leaves as it is. A property of elements at their places that
bears this is kept by operations. One of them is that no element has two attributes of a name,
which markup grants and operations keep.
-/

namespace ServerPages

/-! ## Elements -/

namespace Element

theorem map_fst_setIn (name value : String) (pairs : List (String × String)) :
    (setIn name value pairs).map (·.1) =
      if name ∈ pairs.map (·.1) then pairs.map (·.1) else pairs.map (·.1) ++ [name] := by
  induction pairs with
  | nil => rfl
  | cons pair rest ih =>
      obtain ⟨key, old⟩ := pair
      rw [setIn]
      by_cases here : key = name
      · subst here
        rw [if_pos rfl, if_pos (List.mem_map_of_mem List.mem_cons_self)]
        rfl
      · rw [if_neg here, List.map_cons, ih]
        simp only [List.map_cons, List.mem_cons, Ne.symm here, false_or]
        by_cases later : name ∈ rest.map (·.1)
        · rw [if_pos later, if_pos later]
        · rw [if_neg later, if_neg later, List.cons_append]

/-- The element has at most one attribute of each name that is the same in every vocabulary. -/
def Once (element : Element) : Prop :=
  ∀ name, Markup.Unadjusted name → (element.attributes.map (·.1)).count name ≤ 1

theorem once_of_nodup {element : Element} (distinct : (element.attributes.map (·.1)).Nodup) :
    element.Once :=
  fun name _ => List.nodup_iff_count_le_one.mp distinct name

theorem Once.setAttr {element : Element} (once : element.Once) (name value : String) :
    (element.setAttr name value).Once := by
  intro asked unadjusted
  have before := once asked unadjusted
  rw [Element.setAttr, map_fst_setIn]
  split
  · exact before
  · rename_i new
    rw [List.count_append, List.count_singleton]
    split
    · rename_i same
      rw [beq_iff_eq.mp same] at new
      exact Nat.succ_le_succ (Nat.le_of_eq (List.count_eq_zero_of_not_mem new))
    · exact before

theorem Once.removeAttr {element : Element} (once : element.Once) (name : String) :
    (element.removeAttr name).Once := fun asked unadjusted =>
  Nat.le_trans ((List.eraseP_sublist.map _).count_le asked) (once asked unadjusted)

theorem attr?_eq_none_iff {element : Element} {name : String} :
    element.attr? name = none ↔ name ∉ element.attributes.map (·.1) := by
  rw [attr?, Option.map_eq_none_iff, List.find?_eq_none]
  constructor
  · intro absent member
    obtain ⟨item, among, rfl⟩ := List.mem_map.mp member
    exact absent item among (decide_eq_true rfl)
  · intro absent item among same
    exact absent (List.mem_map.mpr ⟨item, among, of_decide_eq_true same⟩)

/-- An attribute that an element has once is gone when it is removed. -/
theorem Once.attr?_removeAttr {element : Element} (once : element.Once) {name : String}
    (unadjusted : Markup.Unadjusted name) : (element.removeAttr name).attr? name = none := by
  have single := once name unadjusted
  rw [attr?_eq_none_iff, Element.removeAttr]
  dsimp only
  generalize element.attributes = pairs at single
  induction pairs with
  | nil => exact List.not_mem_nil
  | cons pair rest ih =>
      rw [List.map_cons, List.count_cons] at single
      by_cases here : pair.1 = name
      · rw [List.eraseP_cons_of_pos (by simp [here])]
        rw [if_pos (beq_iff_eq.mpr here)] at single
        exact List.count_eq_zero.mp (Nat.le_zero.mp (Nat.le_of_succ_le_succ single))
      · rw [List.eraseP_cons_of_neg (by simp [here]), List.map_cons, List.mem_cons, not_or]
        rw [if_neg (by simpa using here)] at single
        exact ⟨Ne.symm here, ih single⟩

theorem attr?_removeAttr_of_none {element : Element} {asked : String}
    (absent : element.attr? asked = none) (name : String) :
    (element.removeAttr name).attr? asked = none := by
  rw [attr?_eq_none_iff] at absent ⊢
  exact fun member => absent ((List.eraseP_sublist.map _).mem member)

end Element

def NodeKind.Once : NodeKind → Prop
  | .element data => data.Once
  | _ => True

namespace Document

/-! ## Operations -/

namespace Operation

def names : Operation → List String
  | .createElement _ attributes => attributes.map (·.1)
  | .setAttr _ name _ => [name]
  | _ => []

def Distinct (operation : Operation) : Prop :=
  operation.names.Nodup

/-- The operation gives no name twice and none of the given ones, and it adds no markup. -/
def Discreet (forbidden : List String) : Operation → Prop
  | .appendHtml _ _ => False
  | operation => operation.Distinct ∧ ∀ name ∈ operation.names, name ∉ forbidden

instance (operation : Operation) : Decidable operation.Distinct :=
  inferInstanceAs (Decidable operation.names.Nodup)

theorem Discreet.distinct {forbidden : List String} {operation : Operation}
    (discreet : operation.Discreet forbidden) : operation.Distinct := by
  cases operation with
  | appendHtml => exact discreet.elim
  | _ => exact discreet.1

end Operation

/-- A property of documents is kept by the operations of some kind at own nodes. -/
def Stable (fair : Operation → Prop) (property : Document → Prop) : Prop :=
  ∀ doc operation, property doc → fair operation → (∀ id ∈ operation.nodes, doc.Has id) →
    property (operation.perform .standard doc)

theorem Stable.mono {fair kind : Operation → Prop} {property : Document → Prop}
    (stable : Stable fair property) (all : ∀ operation, kind operation → fair operation) :
    Stable kind property :=
  fun doc operation holds one own => stable doc operation holds (all operation one) own

theorem Stable.after {fair : Operation → Prop} {property : Document → Prop}
    (stable : Stable fair property) {operations : List Operation} {doc : Document}
    (holds : property doc) (all : ∀ operation ∈ operations, fair operation)
    (own : doc.Owns .standard operations) : property (doc.after .standard operations) := by
  induction operations generalizing doc with
  | nil => exact holds
  | cons operation rest ih =>
      exact ih (stable doc operation holds (all operation List.mem_cons_self) own.1)
        (fun other member => all other (List.mem_cons_of_mem _ member)) own.2

/-- A property of nodes at their places that counts for elements alone. -/
structure OfElements (holds : NodeId → NodeKind → Prop) : Prop where
  other (id : NodeId) (kind : NodeKind) (leaf : ∀ element, kind ≠ .element element) :
    holds id kind
  removed {id : NodeId} {element : Element} (here : holds id (.element element))
    (name : String) : holds id (.element (element.removeAttr name))

namespace OfElements

variable {holds : NodeId → NodeKind → Prop} {doc next : Document}

theorem textKind (ofElements : OfElements holds) (id : NodeId) (name : Option String)
    (content : String) : holds id (textKind name content) := by
  refine ofElements.other id _ fun element => ?_
  unfold Document.textKind
  split
  · exact nofun
  · exact nofun

theorem appendChild (ofElements : OfElements holds) (all : doc.All holds) {parent child : NodeId}
    (done : doc.appendChild parent child = .ok next) : next.All holds := by
  unfold Document.appendChild at done
  split at done
  · cases done
  · dsimp only at done
    split at done
    · cases done
      exact (all.detach child).setKind _ (ofElements.other _ _ nofun)
    · cases done
      exact (all.detach child).attachLast parent child

theorem prependChild (all : doc.All holds) {parent child : NodeId}
    (done : doc.prependChild parent child = .ok next) : next.All holds := by
  unfold Document.prependChild at done
  split at done
  · cases done
  · cases done
    exact (all.detach child).attachFirst parent child

theorem setText (ofElements : OfElements holds) (all : doc.All holds) {id : NodeId}
    {content : String} (done : doc.setText id content = .ok next) : next.All holds := by
  have cleared : (doc.clear id).All holds := by
    exact List.foldlRecOn (motive := fun doc : Document => doc.All holds) (doc.children id) _ all
      fun _ all child _ => all.detach child
  obtain ⟨element, _, rfl | filled⟩ := exists_of_setText done
  · exact cleared
  · exact ofElements.appendChild (cleared.create (ofElements.textKind _ _ _)) filled

theorem removeAttr (ofElements : OfElements holds) (all : doc.All holds) (id : NodeId)
    (name : String) : (doc.removeAttr id name).All holds := by
  rcases removeAttr_cases doc id name with same | ⟨element, known, same⟩
  · rw [same]
    exact all
  · rw [same]
    exact Forest.All.setKind all id
      (ofElements.removed (all id _ (element?_eq_some_iff.mp known)) name)

/-- Operations of some kind keep a property that the new elements and the new attributes of such
operations have. -/
theorem stable (ofElements : OfElements holds) {fair : Operation → Prop}
    (created : ∀ {name attributes} id, fair (.createElement name attributes) →
      holds id (.element ⟨name, attributes⟩))
    (changed : ∀ {id element name value}, fair (.setAttr id name value) →
      holds id (.element element) → holds id (.element (element.setAttr name value)))
    (parsed : ∀ {doc : Document} {parent html} context, fair (.appendHtml parent html) →
      doc.All holds → (doc.graftAll parent (Markup.parseFragment context html)).All holds) :
    Stable fair (·.All holds) := by
  intro doc operation all one own
  unfold Operation.perform
  cases attempt : operation.attempt .standard doc with
  | error error => exact all
  | ok next =>
      cases operation with
      | createElement name attributes =>
          cases attempt
          exact Forest.All.create all (created _ one)
      | createText | createRaw | createComment =>
          cases attempt
          exact Forest.All.create all (ofElements.other _ _ nofun)
      | setAttr id name value =>
          obtain ⟨element, known, rfl⟩ := exists_of_setAttr attempt
          exact Forest.All.setKind all id
            (changed one (all id _ (element?_eq_some_iff.mp known)))
      | removeAttr id name =>
          cases attempt
          exact ofElements.removeAttr all id name
      | detach id =>
          cases attempt
          exact Forest.All.detach all id
      | appendChild => exact ofElements.appendChild all attempt
      | prependChild => exact prependChild all attempt
      | appendHtml parent html =>
          change appendRead .standard doc parent html = .ok next at attempt
          unfold appendRead at attempt
          split at attempt
          · cases attempt
          · rename_i context _
            cases attempt
            exact parsed context one all
      | setText => exact ofElements.setText all attempt

end OfElements

/-! ## Documents without repeated attributes -/

theorem ofElements_once : OfElements fun _ => NodeKind.Once where
  other _ kind leaf := by
    cases kind with
    | element element => exact absurd rfl (leaf element)
    | _ => exact trivial
  removed once name := Element.Once.removeAttr once name

/-- The names of an element's attributes in a document are the written forms of those in markup. -/
theorem once_pairs {attributes : List Markup.Attribute} (once : Markup.Once attributes)
    (name : String) :
    Element.Once ⟨name, attributes.map fun item => (item.name.text, item.value)⟩ := by
  intro asked unadjusted
  refine Nat.le_trans ?_ (once asked unadjusted)
  rw [List.map_map, List.count, List.count, List.countP_map, List.countP_map]
  refine List.countP_mono_left fun item _ same => ?_
  exact beq_iff_eq.mpr (unadjusted.eq_plain_of_text (beq_iff_eq.mp same))

section

variable {doc : Document}

theorem All.addLast {holds : NodeId → NodeKind → Prop} (all : doc.All holds) (parent : NodeId)
    {kind : NodeKind} (new : holds ⟨Forest.size doc⟩ kind) : (doc.addLast parent kind).All holds :=
  (Forest.All.create all new).attachLast parent _

end

mutual

/-- Elements that come from markup are put into a document with the attributes that they have. -/
theorem once_graft {doc : Document} (all : doc.All fun _ => NodeKind.Once) (parent : NodeId)
    (tree : Markup.Tree) (tidy : tree.Tidy) :
    (doc.graft parent tree).All fun _ => NodeKind.Once := by
  cases tree with
  | doctype name =>
      rw [graft]
      exact All.addLast all parent trivial
  | text content =>
      rw [graft]
      exact All.addLast all parent (ofElements_once.textKind ⟨Forest.size doc⟩ _ content)
  | comment content =>
      rw [graft]
      exact All.addLast all parent trivial
  | instruction target content =>
      rw [graft]
      exact all
  | element vocabulary name attributes contents children =>
      obtain ⟨once, within, below⟩ := tidy
      have new : NodeKind.Once (.element ⟨name.text, attributes.map fun item =>
          (item.name.text, item.value)⟩) := once_pairs once name.text
      rw [graft]
      exact once_graftAll (once_graftAll (All.addLast all parent new) _ contents within) _
        children below

theorem once_graftAll {doc : Document} (all : doc.All fun _ => NodeKind.Once) (parent : NodeId)
    (trees : List Markup.Tree) (tidy : Markup.Tree.AllTidy trees) :
    (doc.graftAll parent trees).All fun _ => NodeKind.Once := by
  cases trees with
  | nil =>
      rw [graftAll]
      exact all
  | cons tree trees =>
      rw [graftAll]
      exact once_graftAll (once_graft all parent tree tidy.1) parent trees tidy.2

end

/-- Rooted documents without repeated attributes. -/
structure Tidy (doc : Document) : Prop where
  rooted : Rooted doc
  once : doc.All fun _ => NodeKind.Once

/-- Operations that give no name twice keep a document tidy. -/
theorem stable_tidy : Stable Operation.Distinct Tidy := by
  have once : Stable Operation.Distinct (·.All fun _ => NodeKind.Once) :=
    ofElements_once.stable (fun _ distinct => Element.once_of_nodup distinct)
      (fun _ once => Element.Once.setAttr once _ _)
      (fun context _ all => once_graftAll all _ _ (Markup.allTidy_parseFragment context _))
  intro doc operation tidy distinct own
  exact ⟨tidy.rooted.perform .standard operation own, once doc operation tidy.once distinct own⟩

/-- Documents start tidy, whatever the markup. -/
theorem Origin.tidy (origin : Origin) : Tidy (origin.document .standard) where
  rooted := origin.rooted .standard
  once := by
    have start : Document.empty.All fun _ => NodeKind.Once := .single trivial
    cases origin with
    | empty => exact start
    | markup html => exact once_graftAll start root _ (Markup.allTidy_parseDocument html)

end Document

end ServerPages
