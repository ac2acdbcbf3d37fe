import Mathlib.Data.List.Find
import ServerPages.Binding.Inject
import ServerPages.Document.Printer
import ServerPages.Proofs.Document.Reachable
import ServerPages.Proofs.Document.Searches
import ServerPages.Proofs.Procedure

/-!
# Adding scripts and styles

The script and the style of a page find their place in every well-formed document, and
they add elements without attributes to it. No search that asks for an attribute comes
to another element afterwards.
-/

namespace ServerPages.Document

open Procedure

variable {before doc next : Document} {scope child : NodeId}

def Welcomes (doc : Document) (id : NodeId) : Prop :=
  id = doc.documentElement.getD root ∨ (Match.tagged "body").holds doc id = true ∨
    (Match.tagged "head").holds doc id = true

instance (doc : Document) (id : NodeId) : Decidable (Welcomes doc id) :=
  inferInstanceAs (Decidable (_ ∨ _ ∨ _))

/-- The second document has the nodes of the first as they were; what it has in addition has no
attributes, and stands where scripts and styles do. -/
structure Extends (before after : Document) : Prop where
  wellFormed : after.WellFormed
  grown : before.Grown after
  kind (id : NodeId) (inside : before.Has id) : after.kind? id = before.kind? id
  children (id : NodeId) (inside : before.Has id) (apart : ¬ before.Welcomes id) :
    after.children id = before.children id
  bare (id : NodeId) (new : ¬ before.Has id) (name : String) : after.attr? id name = none

structure Hosts (doc : Document) (scope : NodeId) : Prop where
  within : doc.Within root scope
  takes : doc.takesChildren scope = true

theorem hosts_of_find (wf : doc.WellFormed) {wanted : Match}
    (found : doc.find wanted = some scope) :
    Hosts doc scope :=
  ⟨(within_of_findIn wf found).1, takesChildren_of_holds (holds_of_findIn found)⟩

/-- The outermost element, or the document itself. -/
theorem hosts_documentElement (wf : doc.WellFormed) (top : doc.takesChildren root = true) :
    Hosts doc (doc.documentElement.getD root) := by
  cases found : doc.documentElement with
  | none => exact ⟨.refl, top⟩
  | some outermost =>
      have down := List.mem_of_find?_eq_some found
      have holds : doc.isElement outermost = true := List.find?_some found
      obtain ⟨element, known⟩ := Option.isSome_iff_exists.mp holds
      exact ⟨.step ((wf.linked root outermost).mp down) .refl, takesChildren_of_element? known⟩

namespace Extends

theorem refl (wf : before.WellFormed) : Extends before before where
  wellFormed := wf
  grown := .refl wf
  kind _ _ := rfl
  children _ _ _ := rfl
  bare id new name := by
    cases known : before.attr? id name with
    | none => rfl
    | some value => exact absurd (has_of_attr? known) new

/-- A new element without attributes, or a text. -/
theorem create (ext : Extends before doc) {kind : NodeKind}
    (plain : ∀ element, kind = .element element → element.attributes = []) :
    Extends before (doc.create kind).2 where
  wellFormed := ext.wellFormed.create kind
  grown := ext.grown.create kind
  kind id inside := by
    rw [Forest.kind?_create_of_has (ext.grown.has inside)]
    exact ext.kind id inside
  children id inside apart := by
    rw [Forest.children_create]
    exact ext.children id inside apart
  bare id new name := by
    by_cases old : doc.Has id
    · rw [attr?_congr (Forest.kind?_create_of_has old kind)]
      exact ext.bare id new name
    · by_cases here : id = ⟨Forest.size doc⟩
      · rw [attr?, element?, here, Forest.kind?_create_new]
        split
        · rename_i element same
          rw [Option.bind_some, Element.attr?, plain element (Option.some.inj same)]
          rfl
        · rfl
      · cases known : attr? (doc.create kind).2 id name with
        | none => rfl
        | some value =>
            have inside := has_of_attr? known
            rw [Forest.Has, Forest.size_create] at inside
            rcases Nat.lt_or_eq_of_le (Nat.le_of_lt_succ inside) with earlier | last
            · exact absurd earlier old
            · exact absurd (by cases id; exact congrArg NodeId.mk last) here

theorem addLast (ext : Extends before doc) {parent : NodeId} (inside : doc.Has parent)
    (new : ¬ before.Has parent) {kind : NodeKind}
    (plain : ∀ element, kind = .element element → element.attributes = []) :
    Extends before (doc.addLast parent kind) where
  wellFormed := wellFormed_addLast kind ext.wellFormed inside
  grown := grown_addLast kind ext.grown ext.wellFormed inside
  kind id old := by
    rw [kind?_addLast parent kind (ext.grown.has old)]
    exact ext.kind id old
  children id old apart := by
    rw [children_addLast kind inside, if_neg]
    · exact ext.children id old apart
    · rintro rfl
      exact new old
  bare id new name := by
    rw [addLast_eq, attr?_congr (Forest.kind?_attachLast _ _ _ _)]
    exact (ext.create plain).bare id new name

/-- What is added stands apart from the tree of the document until it is put there. -/
theorem attachable (ext : Extends before doc) (wf : before.WellFormed) (old : before.Has root)
    (hosts : Hosts doc scope) (inside : doc.Has child) (new : ¬ before.Has child)
    (alone : doc.parent? child = none) : Forest.Attachable doc scope child where
  hasParent := has_of_takesChildren hosts.takes
  hasChild := inside
  alone := alone
  apart inner := by
    rcases inner.total hosts.within with above | below
    · exact new (wf.has_top ((ext.grown.within_iff wf old).mp above) old)
    · exact new (below.eq_of_parent?_none alone ▸ old)

/-- A search that asks for an attribute comes to the same element. -/
theorem find_eq (ext : Extends before doc) (wf : before.WellFormed) (old : before.Has root)
    {wanted : Match} {name value : String} (asks : (name, some value) ∈ wanted.attributes) :
    doc.find wanted = before.find wanted := by
  unfold find
  rw [findIn_eq_find?, findIn_eq_find?,
    ← ext.grown.descendants_filter wf ext.wellFormed old, List.find?_filter]
  refine List.find?_congr fun node _ => ?_
  rw [Bool.decide_and, Bool.decide_eq_true, Bool.decide_eq_true]
  by_cases inside : before.Has node
  · rw [decide_eq_true inside, Bool.true_and]
    exact holds_congr (tagName?_congr (ext.kind node inside)) fun test _ =>
      attr?_congr (ext.kind node inside) test.1
  · rw [decide_eq_false inside, Bool.false_and]
    refine Bool.eq_false_iff.mpr fun found => ?_
    cases (ext.bare node inside name).symm.trans (attr?_of_holds asks found)

/-- An element of a name is one that was there. -/
theorem holds_tagged_eq (ext : Extends before doc) {node : NodeId} (inside : before.Has node)
    (name : String) :
    (Match.tagged name).holds doc node = (Match.tagged name).holds before node :=
  holds_congr (tagName?_congr (ext.kind node inside)) fun _ none => nomatch none

theorem hosts (ext : Extends before doc) (wf : before.WellFormed)
    (hosts : Hosts before scope) : Hosts doc scope where
  within := by
    have inside := has_of_takesChildren hosts.takes
    exact (ext.grown.within_iff wf inside).mpr hosts.within
  takes := by
    rw [takesChildren, ext.kind scope (has_of_takesChildren hosts.takes)]
    exact hosts.takes

section

variable (ext : Extends before doc) (wf : before.WellFormed) (old : before.Has root)
  (hosts : Hosts doc scope) (welcome : before.Has scope → before.Welcomes scope)
  {element : Element} (known : doc.element? child = some element)
  (new : ¬ before.Has child) (alone : doc.parent? child = none)

include ext wf old hosts known new alone

omit welcome in
theorem refusal?_eq_none : doc.refusal? scope child = none := by
  have fits := ext.attachable wf old hosts (has_of_element? known) new alone
  unfold refusal?
  rw [if_neg, if_pos hosts.takes]
  rw [ext.wellFormed.isInclusiveAncestor_iff fits.hasParent]
  exact fits.apart

omit welcome in
theorem appendChild_eq : doc.appendChild scope child = .ok (doc.attachLast scope child) := by
  unfold appendChild
  rw [ext.refusal?_eq_none wf old hosts known new alone]
  dsimp only
  rw [Forest.detach, alone]
  dsimp only
  rw [mergedText?_of_element (element?_eq_some_iff.mp known)]

omit welcome in
theorem prependChild_eq : doc.prependChild scope child = .ok (doc.attachFirst scope child) := by
  unfold prependChild
  rw [ext.refusal?_eq_none wf old hosts known new alone]
  dsimp only
  rw [Forest.detach, alone]

include welcome

theorem attachLast : Extends before (doc.attachLast scope child) := by
  have fits := ext.attachable wf old hosts (has_of_element? known) new alone
  refine ⟨ext.wellFormed.attachLast fits, ext.grown.attachLast fits new, ?_, ?_, ?_⟩
  · intro id inside
    rw [Forest.kind?_attachLast]
    exact ext.kind id inside
  · intro id inside apart
    rw [Forest.children_attachLast fits.hasParent, if_neg]
    · exact ext.children id inside apart
    · rintro rfl
      exact apart (welcome inside)
  · intro id new name
    rw [attr?_congr (Forest.kind?_attachLast _ _ _ _)]
    exact ext.bare id new name

theorem attachFirst : Extends before (doc.attachFirst scope child) := by
  have fits := ext.attachable wf old hosts (has_of_element? known) new alone
  refine ⟨ext.wellFormed.attachFirst fits, ext.grown.attachFirst fits new, ?_, ?_, ?_⟩
  · intro id inside
    rw [Forest.kind?_attachFirst]
    exact ext.kind id inside
  · intro id inside apart
    rw [Forest.children_attachFirst fits.hasParent, if_neg]
    · exact ext.children id inside apart
    · rintro rfl
      exact apart (welcome inside)
  · intro id new name
    rw [attr?_congr (Forest.kind?_attachFirst _ _ _ _)]
    exact ext.bare id new name

end

end Extends

/-! ## New elements -/

theorem parent?_size (doc : Document) : doc.parent? ⟨Forest.size doc⟩ = none := by
  cases up : doc.parent? ⟨Forest.size doc⟩ with
  | none => rfl
  | some _ => exact absurd (Forest.has_of_parent? up) (not_has_size doc)

theorem children_size (doc : Document) : doc.children ⟨Forest.size doc⟩ = [] := by
  unfold Forest.children
  have missing : doc.node? ⟨Forest.size doc⟩ = none := Forest.node?_size doc rfl
  rw [missing]

/-- The text of a new element is its only child. -/
theorem setText_create (wf : doc.WellFormed) (element : Element) (content : String) :
    setText (doc.create (.element element)).2 ⟨Forest.size doc⟩ content =
      .ok (if content.isEmpty then (doc.create (.element element)).2
        else addLast (doc.create (.element element)).2 ⟨Forest.size doc⟩
          (textKind (some element.name) content)) := by
  have known : element? (doc.create (.element element)).2 ⟨Forest.size doc⟩ = some element :=
    element?_eq_some_iff.mpr (Forest.kind?_create_new _ _)
  have cleared : clear (doc.create (.element element)).2 ⟨Forest.size doc⟩ =
      (doc.create (.element element)).2 := by
    rw [clear, Forest.children_create, children_size]
    rfl
  rw [setText_eq (wf.create _) known, cleared]

def withText (doc : Document) (name content : String) : Document :=
  if content.isEmpty then (doc.create (.element ⟨name, []⟩)).2
  else addLast (doc.create (.element ⟨name, []⟩)).2 ⟨Forest.size doc⟩
    (textKind (some name) content)

theorem has_create_new (doc : Document) (kind : NodeKind) :
    Forest.Has (doc.create kind).2 ⟨Forest.size doc⟩ :=
  Forest.has_of_kind? (Forest.kind?_create_new doc kind)

theorem has_create {id : NodeId} (inside : doc.Has id) (kind : NodeKind) :
    Forest.Has (doc.create kind).2 id := by
  rw [Forest.Has, Forest.size_create]
  exact Nat.lt_succ_of_lt inside

theorem ne_size {id : NodeId} (inside : doc.Has id) : id ≠ ⟨Forest.size doc⟩ := by
  rintro rfl
  exact not_has_size doc inside

theorem runFrom_createWithText (wf : doc.WellFormed) (name content : String) :
    (createWithText name content).runFrom doc =
      (.ok ⟨Forest.size doc⟩, doc.withText name content) := by
  have done := setText_create wf ⟨name, []⟩ content
  unfold createWithText
  rw [runFrom_bind_ok (runFrom_get _)]
  dsimp only
  rw [runFrom_bind_ok (runFrom_set _ _), Forest.create_fst, runFrom_bind_ok (runFrom_edit_ok done),
    runFrom_pure]
  rfl

section

variable (doc) (name content : String)

theorem kind?_withText {id : NodeId} (inside : doc.Has id) :
    (doc.withText name content).kind? id = doc.kind? id := by
  unfold withText
  split
  · exact Forest.kind?_create_of_has inside _
  · rw [kind?_addLast _ _ (has_create inside _), Forest.kind?_create_of_has inside]

theorem children_withText {id : NodeId} (inside : doc.Has id) :
    (doc.withText name content).children id = doc.children id := by
  unfold withText
  split
  · exact Forest.children_create doc _ id
  · rw [children_addLast _ (has_create_new doc _), if_neg (ne_size inside).symm,
      Forest.children_create]

theorem element?_withText :
    (doc.withText name content).element? ⟨Forest.size doc⟩ = some ⟨name, []⟩ := by
  refine element?_eq_some_iff.mpr ?_
  unfold withText
  split
  · exact Forest.kind?_create_new _ _
  · rw [kind?_addLast _ _ (has_create_new doc _), Forest.kind?_create_new]

theorem parent?_withText : (doc.withText name content).parent? ⟨Forest.size doc⟩ = none := by
  have alone : Forest.parent? (doc.create (.element ⟨name, []⟩)).2 ⟨Forest.size doc⟩ = none := by
    rw [Forest.parent?_create, parent?_size]
  unfold withText
  split
  · exact alone
  · rw [parent?_addLast, if_neg, alone]
    rw [Forest.size_create]
    simp

end

/-- A new element with a text is ready to be put in place. -/
theorem Extends.withText (ext : Extends before doc) (name content : String) :
    Extends before (doc.withText name content) := by
  have created : Extends before (doc.create (.element ⟨name, []⟩)).2 :=
    ext.create fun element same => by cases same; rfl
  have new : ¬ before.Has ⟨Forest.size doc⟩ := fun old => not_has_size doc (ext.grown.has old)
  unfold Document.withText
  split
  · exact created
  · refine created.addLast (has_create_new doc _) new fun element same => ?_
    unfold textKind at same
    split at same
    · cases same
    · cases same

/-! ## The script and the style of a page -/

/-- A script that has a text and nothing else stands at a node of the document's tree. -/
structure HoldsScript (doc : Document) (script : NodeId) (content : String) : Prop where
  within : doc.Within root script
  element : doc.kind? script = some (.element ⟨"script", []⟩)
  children : doc.children script = [⟨script.index + 1⟩]
  text : doc.kind? ⟨script.index + 1⟩ = some (.raw content)

namespace HoldsScript

variable {script : NodeId} {content : String}

theorem withText (holds : HoldsScript doc script content) (wf : doc.WellFormed)
    (name added : String) : HoldsScript (doc.withText name added) script content where
  within := by
    have ext := (Extends.refl wf).withText name added
    exact (ext.grown.within_iff wf (Forest.has_of_kind? holds.element)).mpr holds.within
  element := (kind?_withText _ _ _ (Forest.has_of_kind? holds.element)).trans holds.element
  children := (children_withText _ _ _ (Forest.has_of_kind? holds.element)).trans holds.children
  text := (kind?_withText _ _ _ (Forest.has_of_kind? holds.text)).trans holds.text

theorem attach {next : Document} {insert : List NodeId → List NodeId}
    (holds : HoldsScript doc script content)
    (attached : Forest.Attached doc next scope child insert) (alone : doc.parent? child = none)
    (kinds : ∀ id, next.kind? id = doc.kind? id) (other : scope ≠ script) :
    HoldsScript next script content where
  within := attached.within alone holds.within
  element := (kinds script).trans holds.element
  children := by
    rw [attached.children, if_neg other]
    exact holds.children
  text := (kinds _).trans holds.text

/-- No script is the head of a document. -/
theorem ne_of_tagged (holds : HoldsScript doc script content) {node : NodeId}
    (found : (Match.tagged "head").holds doc node = true) : node ≠ script := by
  rintro rfl
  have other : (Match.tagged "head").accepts ⟨"script", []⟩ = false := by decide +kernel
  rw [Match.holds, element?_eq_some_iff.mpr holds.element, Option.map_some, other] at found
  cases found

end HoldsScript

/-- The text of a new script is its only child. -/
theorem children_withText_new {name content : String} (written : content ≠ "") :
    (doc.withText name content).children ⟨Forest.size doc⟩ = [⟨Forest.size doc + 1⟩] ∧
      (doc.withText name content).kind? ⟨Forest.size doc + 1⟩ =
        some (textKind (some name) content) := by
  have filled : ¬ content.isEmpty = true := by simpa using written
  rw [withText, if_neg filled]
  constructor
  · rw [children_addLast _ (has_create_new doc _), if_pos rfl, Forest.children_create,
      children_size, Forest.size_create]
    rfl
  · have new := kind?_addLast_new (doc.create (.element ⟨name, []⟩)).2 ⟨Forest.size doc⟩
      (textKind (some name) content)
    rwa [Forest.size_create] at new

/-- The body takes the script of a page; where there is none, the outermost element does. -/
theorem Extends.hosts_body (ext : Extends before doc) (wf : before.WellFormed)
    (top : before.takesChildren root = true) :
    Hosts doc (doc.body.getD (before.documentElement.getD root)) ∧
      (before.Has (doc.body.getD (before.documentElement.getD root)) →
        before.Welcomes (doc.body.getD (before.documentElement.getD root))) := by
  cases found : doc.body with
  | none => exact ⟨ext.hosts wf (hosts_documentElement wf top), fun _ => Or.inl rfl⟩
  | some body =>
      refine ⟨hosts_of_find ext.wellFormed found, fun inside => Or.inr (Or.inl ?_)⟩
      exact (ext.holds_tagged_eq inside "body").symm.trans (holds_of_findIn found)

/-- A new script that was put into the document's tree holds its text there. -/
theorem holdsScript_attachLast (wf : doc.WellFormed) (old : doc.Has root) {content : String}
    (written : content ≠ "") (hosts : Hosts (doc.withText "script" content) scope) :
    HoldsScript ((doc.withText "script" content).attachLast scope ⟨Forest.size doc⟩)
      ⟨Forest.size doc⟩ content := by
  have ext := (Extends.refl wf).withText "script" content
  have known := element?_withText doc "script" content
  have alone := parent?_withText doc "script" content
  obtain ⟨children, kind⟩ := @children_withText_new doc "script" _ written
  have fits := ext.attachable wf old hosts (has_of_element? known) (not_has_size doc) alone
  have attached := Forest.attached_attachLast fits.hasParent fits.hasChild
  refine ⟨.step ((attached.parents _).trans (if_pos rfl)) (attached.within alone hosts.within),
    ?_, ?_, ?_⟩
  · rw [Forest.kind?_attachLast]
    exact element?_eq_some_iff.mp known
  · rw [attached.children, if_neg, children]
    exact fun same => fits.apart (same ▸ .refl)
  · have raw : Markup.isRawText "script" = true := by decide +kernel
    rw [Forest.kind?_attachLast, kind, textKind, Option.map_some, raw]
    rfl

/-- The style of a page goes to the end of its head; where there is none, it goes to the front of
the outermost element. A script that was added before stays as it is. -/
theorem Extends.exists_styled (ext : Extends before doc) (wf : before.WellFormed)
    (top : before.takesChildren root = true) (content : String) :
    ∃ next, (match (doc.withText "style" content).head with
        | some head => (doc.withText "style" content).appendChild head ⟨Forest.size doc⟩
        | none => (doc.withText "style" content).prependChild (before.documentElement.getD root)
            ⟨Forest.size doc⟩) = .ok next ∧
      Extends before next ∧ ∀ script text, ¬ before.Has script → HoldsScript doc script text →
        HoldsScript next script text := by
  have old := has_of_takesChildren top
  have outermost := hosts_documentElement wf top
  have wfDoc := ext.wellFormed
  have known := element?_withText doc "style" content
  have alone := parent?_withText doc "style" content
  have new : ¬ before.Has ⟨Forest.size doc⟩ := fun inside => not_has_size doc (ext.grown.has inside)
  replace ext := ext.withText "style" content
  cases found : (doc.withText "style" content).head with
  | none =>
      have hosts := ext.hosts wf outermost
      have fits := ext.attachable wf old hosts (has_of_element? known) new alone
      refine ⟨_, ext.prependChild_eq wf old hosts known new alone,
        ext.attachFirst wf old hosts (fun _ => Or.inl rfl) known new alone, ?_⟩
      rintro script text newScript holds
      refine (holds.withText wfDoc "style" content).attach
        (Forest.attached_attachFirst fits.hasParent fits.hasChild) alone
        (Forest.kind?_attachFirst _ _ _) ?_
      exact fun same => newScript (same ▸ has_of_takesChildren outermost.takes)
  | some head =>
      have tagged := holds_of_findIn found
      have hosts := hosts_of_find ext.wellFormed found
      have fits := ext.attachable wf old hosts (has_of_element? known) new alone
      have welcome (inside : before.Has head) : before.Welcomes head := Or.inr (Or.inr
        ((ext.holds_tagged_eq inside "head").symm.trans tagged))
      refine ⟨_, ext.appendChild_eq wf old hosts known new alone,
        ext.attachLast wf old hosts welcome known new alone, ?_⟩
      rintro script text - holds
      have later := holds.withText wfDoc "style" content
      exact later.attach (Forest.attached_attachLast fits.hasParent fits.hasChild) alone
        (Forest.kind?_attachLast _ _ _) (later.ne_of_tagged tagged)

/-- Every well-formed document takes the script and the style of a page, the script as an element
of its own. -/
theorem exists_inject_script (wf : doc.WellFormed) (top : doc.takesChildren root = true)
    (client : ClientScript) :
    ∃ next, (inject client).runFrom doc = (.ok (), next) ∧ Extends doc next ∧
      (client.script ≠ "" → HoldsScript next ⟨Forest.size doc⟩ client.script) := by
  have old := has_of_takesChildren top
  have run := runFrom_createWithText wf "script" client.script
  have ext := (Extends.refl wf).withText "script" client.script
  have known := element?_withText doc "script" client.script
  have alone := parent?_withText doc "script" client.script
  obtain ⟨hosts, welcome⟩ := ext.hosts_body wf top
  have appended := ext.appendChild_eq wf old hosts known (not_has_size doc) alone
  have scripted := ext.attachLast wf old hosts welcome known (not_has_size doc) alone
  have holds (written : client.script ≠ "") := holdsScript_attachLast wf old written hosts
  unfold inject
  rw [runFrom_bind_ok (runFrom_get _), runFrom_bind_ok run,
    runFrom_bind_ok (runFrom_edit_ok appended)]
  cases client.style with
  | none => exact ⟨_, rfl, scripted, holds⟩
  | some content =>
      obtain ⟨next, styled, ext, kept⟩ := scripted.exists_styled wf top content
      refine ⟨next, ?_, ext, fun written => kept _ _ (not_has_size doc) (holds written)⟩
      dsimp only
      rw [runFrom_bind_ok (runFrom_createWithText scripted.wellFormed "style" content)]
      exact runFrom_edit_ok styled

theorem exists_inject (wf : doc.WellFormed) (top : doc.takesChildren root = true)
    (client : ClientScript) :
    ∃ next, (inject client).runFrom doc = (.ok (), next) ∧ Extends doc next := by
  obtain ⟨next, run, ext, _⟩ := exists_inject_script wf top client
  exact ⟨next, run, ext⟩

/-! ## What is sent of a page -/

theorem children_stripServerMarks (doc : Document) (id scope : NodeId) :
    (doc.stripServerMarks scope).children id = doc.children id := by
  unfold stripServerMarks
  generalize doc.descendants scope = nodes
  induction nodes generalizing doc with
  | nil => rfl
  | cons node nodes ih => exact (ih _).trans (children_removeAttr doc node id "runat")

theorem tagName?_stripServerMarks (doc : Document) (id scope : NodeId) :
    (doc.stripServerMarks scope).tagName? id = doc.tagName? id := by
  unfold stripServerMarks
  generalize doc.descendants scope = nodes
  induction nodes generalizing doc with
  | nil => rfl
  | cons node nodes ih => exact (ih _).trans (tagName?_removeAttr doc node id "runat")

theorem listChars_ne_nil {trees below : List Subtree} {element : Element}
    (member : .element element below ∈ trees) : Subtree.listChars trees ≠ [] := by
  have opens : element.openingChars ≠ [] := List.cons_ne_nil _ _
  induction trees with
  | nil => cases member
  | cons tree trees ih =>
      intro none
      obtain ⟨first, rest⟩ := List.append_eq_nil_iff.mp none
      rcases List.mem_cons.mp member with rfl | later
      · exact opens (List.append_eq_nil_iff.mp first).1
      · exact ih later rest

theorem innerHtml_eq_empty {id : NodeId} (childless : doc.children id = []) :
    doc.innerHtml id = "" := by
  unfold innerHtml
  rw [childless]
  cases doc.size <;> rfl

theorem innerHtml_ne_empty {id : NodeId} {name : String} (down : child ∈ doc.children id)
    (named : doc.tagName? child = some name) : doc.innerHtml id ≠ "" := by
  obtain ⟨element, known, _⟩ := Option.map_eq_some_iff.mp named
  have inside : doc.Has child := has_of_element? known
  obtain ⟨height, size⟩ : ∃ height, doc.size = height + 1 :=
    Nat.exists_eq_succ_of_ne_zero (Nat.ne_of_gt (Nat.lt_of_le_of_lt (Nat.zero_le _) inside))
  have member : Subtree.element element (doc.subtrees height (doc.children child)) ∈
      doc.subtrees (height + 1) (doc.children id) := by
    rw [subtrees, List.mem_filterMap]
    exact ⟨child, down, by rw [element?_eq_some_iff.mp known]; rfl⟩
  intro empty
  unfold innerHtml at empty
  rw [size] at empty
  have none := congrArg String.toList empty
  rw [String.toList_ofList] at none
  exact listChars_ne_nil member none

end ServerPages.Document
