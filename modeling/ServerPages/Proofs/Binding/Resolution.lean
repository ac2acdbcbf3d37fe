import ServerPages.Binding.Scope
import ServerPages.Proofs.Document.Reachable
import ServerPages.Proofs.Document.Searches

/-!
# The order of scopes

The rules for the scope of an element are stated here on their own: by the nearest elements
on the way up, and by the panels that references name. Every node of a document comes to
exactly one scope by these rules. What is resolved follows them unless an element's own
reference is to a panel that is missing while one further up is to a panel that is there:
then the search for the nearest reference ends at the element itself, and the form around
it is taken.
-/

namespace ServerPages.Document

variable {doc : Document} {node above other : NodeId} {wanted : Match}

/-! ## The nearest element -/

/-- The nearest element that is asked for, from a node upwards, itself included. -/
inductive Nearest (doc : Document) (wanted : Match) : NodeId → NodeId → Prop
  | here {node : NodeId} (holds : wanted.holds doc node = true) : Nearest doc wanted node node
  | up {node parent above : NodeId} (passed : wanted.holds doc node = false)
      (up : doc.parent? node = some parent) (rest : Nearest doc wanted parent above) :
      Nearest doc wanted node above

theorem nearest_iff_of_lineage {upper : List NodeId} (lineage : doc.Lineage node upper) :
    Nearest doc wanted node above ↔ upper.find? (wanted.holds doc) = some above := by
  induction lineage with
  | @top node alone =>
      rw [List.find?_singleton]
      constructor
      · intro nearest
        cases nearest with
        | here holds => rw [if_pos holds]
        | up _ up => cases alone.symm.trans up
      · intro found
        split at found
        · rename_i holds
          cases found
          exact .here holds
        · cases found
  | @step node parent upper up rest ih =>
      rw [List.find?_cons]
      constructor
      · intro nearest
        cases nearest with
        | here holds => rw [holds]
        | up passed again rest =>
            cases up.symm.trans again
            rw [passed]
            exact ih.mp rest
      · intro found
        split at found
        · rename_i holds
          cases found
          exact .here holds
        · rename_i passed
          exact .up passed up (ih.mpr found)

section

variable (wf : doc.WellFormed) (inside : doc.Has node)

include wf inside

theorem closest_eq_some_iff : doc.closest node wanted = some above ↔
    Nearest doc wanted node above :=
  (nearest_iff_of_lineage (wf.lineage_inclusiveAncestors inside)).symm

theorem closest_eq_none_iff : doc.closest node wanted = none ↔
    ∀ above, ¬ Nearest doc wanted node above := by
  simp only [← closest_eq_some_iff wf inside, Option.eq_none_iff_forall_ne_some, ne_eq]

/-- A search upwards ends at the node or goes on at its parent. -/
theorem closest_eq_bind (passed : wanted.holds doc node = false) :
    doc.closest node wanted = (doc.parent? node).bind (doc.closest · wanted) := by
  refine Option.ext fun above => ?_
  rw [closest_eq_some_iff wf inside, Option.bind_eq_some_iff]
  constructor
  · intro nearest
    cases nearest with
    | here holds => cases passed.symm.trans holds
    | up _ up rest =>
        exact ⟨_, up, (closest_eq_some_iff wf (wf.has_parent up)).mpr rest⟩
  · rintro ⟨parent, up, found⟩
    exact .up passed up ((closest_eq_some_iff wf (wf.has_parent up)).mp found)

end

theorem closest_eq_self (holds : wanted.holds doc node = true) (inside : doc.Has node) :
    doc.closest node wanted = some node := by
  obtain ⟨steps, size⟩ := Nat.exists_eq_succ_of_ne_zero (Nat.ne_of_gt (Nat.zero_lt_of_lt inside))
  rw [closest, Forest.inclusiveAncestors, size, Forest.chain, List.find?_cons_of_pos holds]

/-! ## The rules -/

/-- The attribute `for` of a node names a panel that is there. -/
def Refers (doc : Document) (node panel : NodeId) (id : String) : Prop :=
  doc.attr? node "for" = some id ∧ doc.panelById id = some panel

def RefersAbove (doc : Document) (node panel : NodeId) (id : String) : Prop :=
  ∃ parent above, doc.parent? node = some parent ∧ Nearest doc (Match.any.has "for") parent above ∧
    Refers doc above panel id

def Outside (doc : Document) (node : NodeId) : Prop :=
  ∀ panel, ¬ Nearest doc .updatePanel node panel

inductive ResolvesToForm (doc : Document) (node : NodeId) : Option EventScope → Prop
  | form {form : NodeId} (nearest : Nearest doc .serverForm node form) :
      ResolvesToForm doc node (some (.form form))
  | none (outside : ∀ form, ¬ Nearest doc .serverForm node form) : ResolvesToForm doc node none

/-- The rules for the scope of a node, in their order. -/
inductive Resolves (doc : Document) (node : NodeId) : Option EventScope → Prop
  | panel {panel : NodeId} {id : String} (nearest : Nearest doc .updatePanel node panel)
      (named : doc.attr? panel "id" = some id) : Resolves doc node (some (.panel panel id))
  | unnamed {panel : NodeId} {scope : Option EventScope}
      (nearest : Nearest doc .updatePanel node panel) (unnamed : doc.attr? panel "id" = none)
      (form : ResolvesToForm doc node scope) : Resolves doc node scope
  | own {panel : NodeId} {id : String} (outside : Outside doc node)
      (refers : Refers doc node panel id) : Resolves doc node (some (.panel panel id))
  | above {panel : NodeId} {id : String} (outside : Outside doc node)
      (dangling : ∀ panel id, ¬ Refers doc node panel id)
      (refers : RefersAbove doc node panel id) : Resolves doc node (some (.panel panel id))
  | form {scope : Option EventScope} (outside : Outside doc node)
      (dangling : ∀ panel id, ¬ Refers doc node panel id)
      (alone : ∀ panel id, ¬ RefersAbove doc node panel id)
      (form : ResolvesToForm doc node scope) : Resolves doc node scope

/-- An element's own reference to a missing panel stands in front of one further up to a panel
that is there. -/
structure Masked (doc : Document) (node : NodeId) : Prop where
  outside : Outside doc node
  own : ∃ id, doc.attr? node "for" = some id ∧ doc.panelById id = none
  above : ∃ panel id, RefersAbove doc node panel id

/-! ## The rules as searches -/

def referenceAbove (doc : Document) (node : NodeId) : Option EventScope :=
  (doc.parent? node).bind doc.nearestReference

def orderedScope (doc : Document) (node : NodeId) : Option EventScope :=
  match doc.closest node .updatePanel with
  | some panel =>
      match doc.attr? panel "id" with
      | some name => some (.panel panel name)
      | none => doc.formScope node
  | none => doc.ownReference node <|> doc.referenceAbove node <|> doc.formScope node

theorem ownReference_eq_some_iff {scope : EventScope} :
    doc.ownReference node = some scope ↔
      ∃ panel id, Refers doc node panel id ∧ scope = .panel panel id := by
  unfold ownReference panelScope Refers
  constructor
  · intro found
    obtain ⟨id, known, inner⟩ := Option.bind_eq_some_iff.mp found
    obtain ⟨panel, named, same⟩ := Option.map_eq_some_iff.mp inner
    exact ⟨panel, id, ⟨known, named⟩, same.symm⟩
  · rintro ⟨panel, id, ⟨known, named⟩, rfl⟩
    rw [known, Option.bind_some, named, Option.map_some]

theorem ownReference_eq_none_iff :
    doc.ownReference node = none ↔ ∀ panel id, ¬ Refers doc node panel id := by
  constructor
  · intro none panel id refers
    cases none.symm.trans (ownReference_eq_some_iff.mpr ⟨panel, id, refers, rfl⟩)
  · intro dangling
    refine Option.eq_none_iff_forall_ne_some.mpr fun scope found => ?_
    obtain ⟨panel, id, refers, _⟩ := ownReference_eq_some_iff.mp found
    exact dangling panel id refers

section

variable (wf : doc.WellFormed) (inside : doc.Has node)

include wf inside

theorem formScope_iff {scope : Option EventScope} :
    ResolvesToForm doc node scope ↔ scope = doc.formScope node := by
  unfold formScope
  constructor
  · intro resolves
    cases resolves with
    | form nearest => rw [(closest_eq_some_iff wf inside).mpr nearest, Option.map_some]
    | none outside => rw [(closest_eq_none_iff wf inside).mpr outside, Option.map_none]
  · rintro rfl
    cases found : doc.closest node .serverForm with
    | some form => exact .form ((closest_eq_some_iff wf inside).mp found)
    | none => exact .none ((closest_eq_none_iff wf inside).mp found)

omit inside in
theorem referenceAbove_eq_some_iff {scope : EventScope} :
    doc.referenceAbove node = some scope ↔
      ∃ panel id, RefersAbove doc node panel id ∧ scope = .panel panel id := by
  unfold referenceAbove nearestReference RefersAbove
  simp only [Option.bind_eq_some_iff, ownReference_eq_some_iff]
  constructor
  · rintro ⟨parent, up, above, found, panel, id, refers, same⟩
    exact ⟨panel, id, ⟨parent, above, up,
      (closest_eq_some_iff wf (wf.has_parent up)).mp found, refers⟩, same⟩
  · rintro ⟨panel, id, ⟨parent, above, up, nearest, refers⟩, same⟩
    exact ⟨parent, up, above, (closest_eq_some_iff wf (wf.has_parent up)).mpr nearest,
      panel, id, refers, same⟩

omit inside in
theorem referenceAbove_eq_none_iff :
    doc.referenceAbove node = none ↔ ∀ panel id, ¬ RefersAbove doc node panel id := by
  constructor
  · intro none panel id refers
    cases none.symm.trans ((referenceAbove_eq_some_iff wf).mpr ⟨panel, id, refers, rfl⟩)
  · intro alone
    refine Option.eq_none_iff_forall_ne_some.mpr fun scope found => ?_
    obtain ⟨panel, id, refers, _⟩ := (referenceAbove_eq_some_iff wf).mp found
    exact alone panel id refers

theorem resolves_iff {scope : Option EventScope} :
    Resolves doc node scope ↔ scope = doc.orderedScope node := by
  unfold orderedScope
  constructor
  · intro resolves
    cases resolves with
    | panel nearest named =>
        rw [(closest_eq_some_iff wf inside).mpr nearest]
        dsimp only
        rw [named]
    | unnamed nearest unnamed form =>
        rw [(closest_eq_some_iff wf inside).mpr nearest]
        dsimp only
        rw [unnamed]
        exact (formScope_iff wf inside).mp form
    | own outside refers =>
        rw [(closest_eq_none_iff wf inside).mpr outside,
          ownReference_eq_some_iff.mpr ⟨_, _, refers, rfl⟩]
        rfl
    | above outside dangling refers =>
        rw [(closest_eq_none_iff wf inside).mpr outside, ownReference_eq_none_iff.mpr dangling,
          (referenceAbove_eq_some_iff wf).mpr ⟨_, _, refers, rfl⟩]
        rfl
    | form outside dangling alone form =>
        rw [(closest_eq_none_iff wf inside).mpr outside, ownReference_eq_none_iff.mpr dangling,
          (referenceAbove_eq_none_iff wf).mpr alone]
        exact (formScope_iff wf inside).mp form
  · rintro rfl
    have form : ResolvesToForm doc node (doc.formScope node) := (formScope_iff wf inside).mpr rfl
    cases nearest : doc.closest node .updatePanel with
    | some panel =>
        have around := (closest_eq_some_iff wf inside).mp nearest
        dsimp only
        cases named : doc.attr? panel "id" with
        | some id => exact .panel around named
        | none => exact .unnamed around named form
    | none =>
        have outside := (closest_eq_none_iff wf inside).mp nearest
        cases own : doc.ownReference node with
        | some scope =>
            obtain ⟨panel, id, refers, rfl⟩ := ownReference_eq_some_iff.mp own
            exact .own outside refers
        | none =>
            have dangling := ownReference_eq_none_iff.mp own
            cases above : doc.referenceAbove node with
            | some scope =>
                obtain ⟨panel, id, refers, rfl⟩ := (referenceAbove_eq_some_iff wf).mp above
                exact .above outside dangling refers
            | none => exact .form outside dangling ((referenceAbove_eq_none_iff wf).mp above) form

end

/-! ## Where the order is kept -/

theorem holds_has (doc : Document) (node : NodeId) (name : String) :
    (Match.any.has name).holds doc node = (doc.attr? node name).isSome := by
  unfold Match.holds attr?
  cases doc.element? node with
  | none => rfl
  | some element =>
      cases read : element.attr? name with
      | none => simp [Match.accepts, Match.has, Match.any, Match.meets, read]
      | some value => simp [Match.accepts, Match.has, Match.any, Match.meets, read]

/-- The nearest reference of an element that has one itself is its own. -/
theorem nearestReference_eq_own {id : String} (known : doc.attr? node "for" = some id) :
    doc.nearestReference node = doc.ownReference node := by
  have holds : (Match.any.has "for").holds doc node = true := by
    rw [holds_has, known, Option.isSome_some]
  rw [nearestReference, closest_eq_self holds (has_of_attr? known), Option.bind_some]

theorem nearestReference_eq_above (wf : doc.WellFormed) (inside : doc.Has node)
    (none : doc.attr? node "for" = none) :
    doc.nearestReference node = doc.referenceAbove node := by
  have passed : (Match.any.has "for").holds doc node = false := by
    rw [holds_has, none, Option.isSome_none]
  rw [nearestReference, closest_eq_bind wf inside passed, Option.bind_assoc]
  rfl

theorem masked_iff (wf : doc.WellFormed) (inside : doc.Has node) :
    Masked doc node ↔ doc.closest node .updatePanel = none ∧
      (doc.attr? node "for").isSome ∧ doc.ownReference node = none ∧
      (doc.referenceAbove node).isSome := by
  rw [closest_eq_none_iff wf inside]
  constructor
  · rintro ⟨outside, ⟨id, known, missing⟩, panel, id', refers⟩
    refine ⟨outside, by rw [known]; rfl, ?_, ?_⟩
    · rw [ownReference, known, Option.bind_some, panelScope, missing, Option.map_none]
    · rw [(referenceAbove_eq_some_iff wf).mpr ⟨panel, id', refers, rfl⟩]
      rfl
  · rintro ⟨outside, known, dangling, above⟩
    obtain ⟨id, known⟩ := Option.isSome_iff_exists.mp known
    obtain ⟨scope, above⟩ := Option.isSome_iff_exists.mp above
    obtain ⟨panel, id', refers, _⟩ := (referenceAbove_eq_some_iff wf).mp above
    refine ⟨outside, ⟨id, known, ?_⟩, panel, id', refers⟩
    rw [ownReference, known, Option.bind_some, panelScope, Option.map_eq_none_iff] at dangling
    exact dangling

/-- The scope that is resolved is the one by the rules, unless an own reference masks one further
up; then it is that of the form around the element. -/
theorem eventScope_eq_orderedScope (wf : doc.WellFormed) (inside : doc.Has node)
    (clear : ¬ Masked doc node) : doc.eventScope node = doc.orderedScope node := by
  unfold eventScope orderedScope
  cases nearest : doc.closest node .updatePanel with
  | some panel => rfl
  | none =>
      dsimp only
      cases own : doc.ownReference node with
      | some scope => rfl
      | none =>
          cases known : doc.attr? node "for" with
          | none => rw [nearestReference_eq_above wf inside known]
          | some id =>
              rw [masked_iff wf inside, nearest, known, own] at clear
              have alone : doc.referenceAbove node = none := by simpa using clear
              rw [nearestReference_eq_own known, own, alone]

theorem eventScope_of_masked (wf : doc.WellFormed) (inside : doc.Has node)
    (masked : Masked doc node) :
    doc.eventScope node = doc.formScope node ∧ doc.eventScope node ≠ doc.orderedScope node := by
  obtain ⟨nearest, known, own, above⟩ := (masked_iff wf inside).mp masked
  obtain ⟨id, known⟩ := Option.isSome_iff_exists.mp known
  obtain ⟨scope, above⟩ := Option.isSome_iff_exists.mp above
  have form : doc.eventScope node = doc.formScope node := by
    rw [eventScope, nearest]
    dsimp only
    rw [nearestReference_eq_own known, own]
    rfl
  have panel : doc.orderedScope node = some scope := by
    rw [orderedScope, nearest]
    dsimp only
    rw [own, above]
    rfl
  refine ⟨form, ?_⟩
  rw [form, panel]
  obtain ⟨_, _, _, rfl⟩ := (referenceAbove_eq_some_iff wf).mp above
  unfold formScope
  cases doc.closest node .serverForm <;> simp

/-- Every node comes to exactly one scope by the rules. It is the one that is resolved exactly if
no own reference to a missing panel masks one further up; otherwise the form around the node is
taken. -/
theorem eventScope_resolves_iff (reached : doc.Reachable) (inside : doc.Has node) :
    ∃ scope, Resolves doc node scope ∧ (∀ other, Resolves doc node other → other = scope) ∧
      (doc.eventScope node = scope ↔ ¬ Masked doc node) ∧
      (Masked doc node → ResolvesToForm doc node (doc.eventScope node)) := by
  have wf := reached.wellFormed
  refine ⟨doc.orderedScope node, (resolves_iff wf inside).mpr rfl,
    fun other => (resolves_iff wf inside).mp, ⟨?_, eventScope_eq_orderedScope wf inside⟩, ?_⟩
  · intro same masked
    exact (eventScope_of_masked wf inside masked).2 same
  · intro masked
    exact (formScope_iff wf inside).mpr (eventScope_of_masked wf inside masked).1

/-- A form with a reference to a missing panel within one to a panel that is there. -/
def referringForm : Document := .parse <|
  "<p id=far updatepanel=true></p><form runat=server>" ++
    "<div for=far><b for=gone></b></div></form>"

theorem referringForm_reads :
    referringForm.closest ⟨7⟩ .updatePanel = none ∧
      (referringForm.attr? ⟨7⟩ "for").isSome ∧ referringForm.ownReference ⟨7⟩ = none ∧
      (referringForm.referenceAbove ⟨7⟩).isSome ∧
      referringForm.eventScope ⟨7⟩ = some (.form ⟨5⟩) := by
  decide +kernel

/-- The form is taken although the rules lead to the panel. -/
theorem eventScope_referringForm :
    Forest.Has referringForm ⟨7⟩ ∧ Masked referringForm ⟨7⟩ ∧
      referringForm.eventScope ⟨7⟩ = some (.form ⟨5⟩) ∧
      ∃ scope, Resolves referringForm ⟨7⟩ scope ∧ referringForm.eventScope ⟨7⟩ ≠ scope := by
  obtain ⟨outside, known, dangling, above, form⟩ := referringForm_reads
  obtain ⟨id, read⟩ := Option.isSome_iff_exists.mp known
  have inside : Forest.Has referringForm ⟨7⟩ := has_of_attr? read
  have reached : Reachable referringForm := .parse _
  have masked : Masked referringForm ⟨7⟩ :=
    (masked_iff reached.wellFormed inside).mpr ⟨outside, known, dangling, above⟩
  obtain ⟨scope, resolves, _, follows, _⟩ := eventScope_resolves_iff reached inside
  exact ⟨inside, masked, form, scope, resolves, fun same => follows.mp same masked⟩

end ServerPages.Document
