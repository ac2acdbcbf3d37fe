import ServerPages.Binding.Bind
import ServerPages.Proofs.Document.Reachable

/-!
# What binding leaves alone

Binding marks the elements that it was asked for, takes their click expressions, names
carriers that have no `id`, and adds carriers at the end of scopes. Everything else of a
document stays as it was: all links among its nodes, all names of elements, and all other
attributes. The frame of a binding says so for any number of bound elements.
-/

namespace ServerPages.Binding

def touchedNames : List String := [markName, "onclick", "postclick"]

def Unnamed (doc : Document) (id : NodeId) : Prop :=
  Carrier.wanted.holds doc id = true ∧ doc.attr? id "id" = none

/-- A node that looks like the carrier with a number, wherever it stands. -/
structure IsCarrier (doc : Document) (id : NodeId) (number : Nat) : Prop where
  tagName : doc.tagName? id = some "input"
  attr (name : String) :
    doc.attr? id name = (Carrier.element (Carrier.newId number)).attr? name

/-- A document with a new carrier at the end of a scope. -/
def withCarrier (doc : Document) (scope : NodeId) (number : Nat) : Document :=
  doc.addLast scope (.element (Carrier.element (Carrier.newId number)))

/-- What binding some elements leaves of a document. -/
structure Frame (touched : List NodeId) (before after : Document) : Prop where
  wellFormed : after.WellFormed
  grown : before.Grown after
  appended (id : NodeId) : ∃ added, after.children id = before.children id ++ added
  tagName (id : NodeId) (inside : before.Has id) : after.tagName? id = before.tagName? id
  takes (id : NodeId) (inside : before.Has id) : after.takesChildren id = before.takesChildren id
  attr (id : NodeId) (name : String) (inside : before.Has id)
    (untouched : id ∈ touched → name ∉ touchedNames)
    (named : name = "id" → ¬ Unnamed before id) : after.attr? id name = before.attr? id name
  added (id : NodeId) (inside : after.Has id) (new : ¬ before.Has id) :
    ∃ number, IsCarrier after id number

namespace IsCarrier

variable {doc next : Document} {id : NodeId} {number : Nat}

theorem attr_id (carrier : IsCarrier doc id number) :
    doc.attr? id "id" = some (Carrier.newId number) := by
  rw [carrier.attr]
  rfl

theorem attr_none (carrier : IsCarrier doc id number) {name : String}
    (other : name ∉ ["type", "name", "id"]) : doc.attr? id name = none := by
  simp only [List.mem_cons, List.not_mem_nil, or_false, not_or] at other
  rw [carrier.attr]
  simp [Carrier.element, Element.attr?, Ne.symm other.1, Ne.symm other.2.1, Ne.symm other.2.2]

theorem congr (carrier : IsCarrier doc id number) (same : next.kind? id = doc.kind? id) :
    IsCarrier next id number :=
  ⟨(Document.tagName?_congr same).trans carrier.tagName,
    fun name => (Document.attr?_congr same name).trans (carrier.attr name)⟩

theorem of_element? (known : doc.element? id = some (Carrier.element (Carrier.newId number))) :
    IsCarrier doc id number :=
  ⟨by rw [Document.tagName?, known]; rfl, fun name => by rw [Document.attr?, known]; rfl⟩

theorem holds_wanted (carrier : IsCarrier doc id number) :
    Carrier.wanted.holds doc id = true := by
  have kind : doc.attr? id "type" = some "hidden" := carrier.attr "type"
  have name : doc.attr? id "name" = some Descriptor.fieldName := carrier.attr "name"
  refine Document.holds_eq_iff.mpr ⟨Document.holds_eq_iff.mpr ⟨?_, kind⟩, name⟩
  obtain ⟨element, found, tag⟩ := Option.map_eq_some_iff.mp carrier.tagName
  simp [Match.holds, found, Match.accepts, Match.tagged, tag, Text.equalUpToCase_refl]

end IsCarrier

section

variable {doc : Document} {scope : NodeId} {number : Nat}

/-- The nodes with a new carrier are those from before and the carrier. -/
theorem has_withCarrier {node : NodeId} (inside : Forest.Has (withCarrier doc scope number) node) :
    doc.Has node ∨ node = ⟨Forest.size doc⟩ := by
  rw [withCarrier, Forest.Has, Document.size_addLast] at inside
  rcases Nat.lt_or_eq_of_le (Nat.le_of_lt_succ inside) with earlier | last
  · exact Or.inl earlier
  · exact Or.inr (by cases node; exact congrArg NodeId.mk last)

theorem isCarrier_withCarrier (doc : Document) (scope : NodeId) (number : Nat) :
    IsCarrier (withCarrier doc scope number) ⟨Forest.size doc⟩ number :=
  .of_element? (Document.element?_eq_some_iff.mpr (Document.kind?_addLast_new doc scope _))

theorem parent?_withCarrier (doc : Document) (scope : NodeId) (number : Nat) :
    Forest.parent? (withCarrier doc scope number) ⟨Forest.size doc⟩ = some scope := by
  rw [withCarrier, Document.parent?_addLast, if_pos rfl]

end

namespace Frame

variable {touched : List NodeId} {before after : Document}

theorem refl (wf : before.WellFormed) : Frame [] before before where
  wellFormed := wf
  grown := .refl wf
  appended _ := ⟨[], (List.append_nil _).symm⟩
  tagName _ _ := rfl
  takes _ _ := rfl
  attr _ _ _ _ _ := rfl
  added _ inside new := absurd inside new

theorem mono {more : List NodeId} (frame : Frame touched before after)
    (all : touched ⊆ more) : Frame more before after :=
  { frame with
    attr := fun id name inside untouched => frame.attr id name inside fun member =>
      untouched (all member) }

theorem has (frame : Frame touched before after) {id : NodeId} (inside : before.Has id) :
    after.Has id :=
  frame.grown.has inside

theorem exists_appended (frame : Frame touched before after) (wf : before.WellFormed)
    (id : NodeId) : ∃ added, after.children id = before.children id ++ added ∧
      ∀ child ∈ added, ¬ before.Has child := by
  obtain ⟨added, children⟩ := frame.appended id
  refine ⟨added, children, fun child newer old => ?_⟩
  have nodup := frame.wellFormed.nodup id
  rw [children] at nodup
  have up := (frame.wellFormed.linked id child).mp (children ▸ List.mem_append_right _ newer)
  rw [frame.grown.parents child old] at up
  exact (List.nodup_append.mp nodup).2.2 child ((wf.linked id child).mpr up) child newer rfl

/-- A match that asks for nothing that binding changes. -/
theorem holds_eq (frame : Frame touched before after) {wanted : Match} {id : NodeId}
    (inside : before.Has id)
    (untouched : id ∈ touched → ∀ test ∈ wanted.attributes, test.1 ∉ touchedNames)
    (named : ∀ test ∈ wanted.attributes, test.1 = "id" → ¬ Unnamed before id) :
    wanted.holds after id = wanted.holds before id :=
  Document.holds_congr (frame.tagName id inside) fun test member =>
    frame.attr id test.1 inside (fun bound => untouched bound test member) (named test member)

theorem holds_wanted (frame : Frame touched before after) {id : NodeId}
    (inside : before.Has id) :
    Carrier.wanted.holds after id = Carrier.wanted.holds before id :=
  frame.holds_eq inside (fun _ => by decide) fun _ member same =>
    absurd same ((by decide : ∀ test ∈ Carrier.wanted.attributes, test.1 ≠ "id") _ member)

/-- Binding leaves no carrier without an `id` that had one. -/
theorem unnamed (frame : Frame touched before after) {id : NodeId} (inside : before.Has id)
    (unnamed : Unnamed after id) : Unnamed before id := by
  by_contra named
  refine named ⟨?_, ?_⟩
  · rw [← frame.holds_wanted inside]
    exact unnamed.1
  · rw [← frame.attr id "id" inside (fun _ => by decide) fun _ => named]
    exact unnamed.2

theorem element (frame : Frame touched before after) {id : NodeId} {element : Element}
    (known : before.element? id = some element) : ∃ later, after.element? id = some later := by
  have same := frame.tagName id (Document.has_of_element? known)
  rw [Document.tagName?, Document.tagName?, known, Option.map_some] at same
  obtain ⟨later, found, _⟩ := Option.map_eq_some_iff.mp same
  exact ⟨later, found⟩

/-! ## Single edits -/

/-- An attribute that binding may change is set at an element that binding did not add. -/
theorem setAttr (frame : Frame touched before after) {id : NodeId} {element : Element}
    (known : after.element? id = some element) {name value : String}
    (changes : before.Has id → (id ∈ touched → name ∉ touchedNames) →
      ¬ (name = "id" → ¬ Unnamed before id))
    (apart : ∀ number, IsCarrier after id number → before.Has id) :
    Frame touched before (after.setKind id (.element (element.setAttr name value))) where
  wellFormed := frame.wellFormed.setKind id _
  grown := frame.grown.setKind id _
  appended other := by rw [Forest.children_setKind]; exact frame.appended other
  tagName other inside := by
    rw [Document.tagName?_setKind_setAttr known]
    exact frame.tagName other inside
  takes other inside := by
    rw [Document.takesChildren_setKind_element known]
    exact frame.takes other inside
  attr other asked inside untouched named := by
    rw [Document.attr?_setKind_setAttr known, if_neg]
    · exact frame.attr other asked inside untouched named
    · rintro ⟨rfl, rfl⟩
      exact changes inside untouched named
  added other inside new := by
    rw [Forest.Has, Forest.size_setKind] at inside
    obtain ⟨number, carrier⟩ := frame.added other inside new
    have different : other ≠ id := by
      rintro rfl
      exact new (apart number carrier)
    exact ⟨number, carrier.congr (Forest.kind?_setKind_of_ne after different _)⟩

/-- An attribute of a touched element is set. -/
theorem mark (frame : Frame touched before after) {id : NodeId} (member : id ∈ touched)
    (old : before.Has id) {element : Element} (known : after.element? id = some element)
    {name : String} (touches : name ∈ touchedNames) (value : String) :
    Frame touched before (after.setKind id (.element (element.setAttr name value))) :=
  frame.setAttr known (fun _ untouched => absurd touches (untouched member))
    fun _ _ => old

/-- An attribute of a touched element is removed. -/
theorem take (frame : Frame touched before after) {id : NodeId} (member : id ∈ touched)
    (old : before.Has id) {name : String} (touches : name ∈ touchedNames) :
    Frame touched before (after.removeAttr id name) where
  wellFormed := Document.wellFormed_removeAttr frame.wellFormed id name
  grown := Document.grown_removeAttr frame.grown id name
  appended other := by rw [Document.children_removeAttr]; exact frame.appended other
  tagName other inside := by
    rw [Document.tagName?_removeAttr]
    exact frame.tagName other inside
  takes other inside := by
    rw [Document.takesChildren_removeAttr]
    exact frame.takes other inside
  attr other asked inside untouched named := by
    rw [Document.attr?_removeAttr]
    · exact frame.attr other asked inside untouched named
    · by_cases here : other = id
      · refine Or.inr fun same => ?_
        exact untouched (here ▸ member) (same ▸ touches)
      · exact Or.inl here
  added other inside new := by
    have different : other ≠ id := fun here => new (here ▸ old)
    rw [Forest.Has, Document.size_removeAttr] at inside
    obtain ⟨number, carrier⟩ := frame.added other inside new
    refine ⟨number, (Document.tagName?_removeAttr after id other name).trans carrier.tagName,
      fun asked => ?_⟩
    rw [Document.attr?_removeAttr after (Or.inl different)]
    exact carrier.attr asked

/-- A carrier without an `id` gets one. Added carriers have theirs, so it is one of old. -/
theorem name (frame : Frame touched before after) {id : NodeId} (unnamed : Unnamed after id)
    {element : Element} (known : after.element? id = some element) (value : String) :
    Frame touched before (after.setKind id (.element (element.setAttr "id" value))) :=
  frame.setAttr known (fun inside _ named => named rfl (frame.unnamed inside unnamed))
    fun _ carrier => nomatch unnamed.2.symm.trans carrier.attr_id

/-- A carrier is added at the end of a scope. -/
theorem add (frame : Frame touched before after) {scope : NodeId} (inside : after.Has scope)
    (number : Nat) :
    Frame touched before (withCarrier after scope number) where
  wellFormed := Document.wellFormed_addLast _ frame.wellFormed inside
  grown := Document.grown_addLast _ frame.grown frame.wellFormed inside
  appended other := by
    obtain ⟨added, children⟩ := frame.appended other
    rw [withCarrier, Document.children_addLast _ inside, children]
    split
    · exact ⟨_, List.append_assoc _ _ _⟩
    · exact ⟨added, rfl⟩
  tagName other old := by
    rw [withCarrier, Document.tagName?_congr (Document.kind?_addLast _ _ (frame.has old))]
    exact frame.tagName other old
  takes other old := by
    rw [withCarrier, Document.takesChildren_congr (Document.kind?_addLast _ _ (frame.has old))]
    exact frame.takes other old
  attr other asked old untouched named := by
    rw [withCarrier, Document.attr?_congr (Document.kind?_addLast _ _ (frame.has old))]
    exact frame.attr other asked old untouched named
  added other inside new := by
    rcases has_withCarrier inside with earlier | rfl
    · obtain ⟨number, carrier⟩ := frame.added other earlier new
      exact ⟨number, carrier.congr (Document.kind?_addLast _ _ earlier)⟩
    · exact ⟨number, isCarrier_withCarrier after scope number⟩

end Frame

end ServerPages.Binding
