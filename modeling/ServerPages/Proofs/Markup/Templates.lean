import ServerPages.Proofs.Markup.Choices

/-!
# Templates

What stands in a template stands below a node of its own. The tag of a template sets a mark and the
mode for templates, and the first element in it that does not belong into the head turns that mode
into one for what the template holds. Wherever a template may stand, its closing tag leads back to
the mode around it, which the open elements call for.
-/

namespace ServerPages.Markup

open Construction (sectionNames)

/-- A template may stand in the area, within the elements of a path. -/
def Area.holdsTemplates (path : List Label) : Area → Prop
  | head | flow | table | rows | cells | columns | template => True
  | choices => choiceMode (aroundChoices path) = choiceModeAgain (aroundChoices path)
  | gap | foreign | notes | frames | late => False

namespace Construction

open Forest (GrownAt)

variable {b inner : Construction} {setting : Setting} {area : Area} {mode : Mode}
  {label : Label} {path : List Label} {top : NodeId} {below : List NodeId} {data : Element}

/-! ## Modes around templates -/

theorem modeOf_select (context : b.context = none) {id : NodeId} {stack : List NodeId}
    (known : b.label? id = some (.html, "select")) (labelled : b.Labelled stack path) :
    b.modeOf (id :: stack) = Area.choiceModeAgain path := by
  have found : (stack.find? (b.isIn ["template", "table"])).bind b.label? =
      path.find? (·.isIn ["template", "table"]) :=
    find?_bind_label? labelled fun id label known => isIn_of_label? known _
  rw [modeOf, context, known, Area.choiceModeAgain, ← found]
  cases ancestor : stack.find? (b.isIn ["template", "table"]) with
  | none =>
      rw [Option.bind_none]
      rfl
  | some other =>
      have inside := List.find?_some (p := b.isIn ["template", "table"]) ancestor
      rw [Option.bind_some]
      cases label : b.label? other with
      | none =>
          rw [isIn, label] at inside
          cases inside
      | some label =>
          dsimp only
          rw [if_pos rfl, isNamed, isIn_of_label? label]

/-- The mode that the open elements call for among choices depends on what is around the list. -/
theorem modeOf_choices (context : b.context = none) {stack : List NodeId}
    (labelled : b.Labelled stack path)
    (within : (path.dropWhile (·.isIn ["optgroup", "option"])).head? = some (.html, "select")) :
    b.modeOf stack = Area.choiceModeAgain (Area.aroundChoices path) := by
  rw [labelled_iff] at labelled
  induction labelled with
  | nil => cases within
  | @cons id label stack path known others ih =>
      cases choice : label.isIn ["optgroup", "option"] with
      | false =>
          rw [List.dropWhile_cons_of_neg (by simp [choice])] at within
          obtain rfl : label = _ := Option.some.inj within
          exact modeOf_select context known (labelled_iff.mpr others)
      | true =>
          rw [List.dropWhile_cons_of_pos choice] at within
          rw [Area.aroundChoices, List.dropWhile_cons_of_pos choice]
          refine Eq.trans ?_ (ih within)
          obtain ⟨vocabulary, name⟩ := label
          cases vocabulary with
          | svg | math => cases choice
          | html =>
              have among := List.contains_iff_mem.mp choice
              fin_cases among <;>
              · rw [modeOf, context, known]
                rfl

/-- Where a template may stand, the open elements call for the mode that is set. -/
theorem StandsIn.modeOf_eq (stands : b.StandsIn setting area mode label path)
    (holds : area.holdsTemplates (label :: path)) {last : Construction}
    (context : last.context = none) (templates : last.templateModes = setting.modes)
    {stack : List NodeId} (labelled : last.Labelled stack (label :: path)) :
    last.modeOf stack = mode := by
  cases stack with
  | nil => cases labelled
  | cons id stack =>
      obtain ⟨known, others⟩ := labelled_cons.mp labelled
      have held := stands.held
      have reads := stands.reads
      -- a template calls for the mode that is kept for it, whatever it holds
      have template (same : label = (.html, "template")) : last.modeOf (id :: stack) = mode := by
        have calls : last.modeOf (id :: stack) = last.templateModes.head?.getD .inBody := by
          rw [modeOf, context, known, same]
          rfl
        rw [calls, templates, stands.templates same]
        rfl
      obtain ⟨vocabulary, name⟩ := label
      cases area with
      | gap | foreign | notes | frames | late => exact holds.elim
      | flow => exact Construction.modeOf_eq context labelled (templates ▸ reads)
      | template | table | rows | cells | columns =>
          cases vocabulary with
          | svg | math => cases held
          | html =>
              have among := List.contains_iff_mem.mp held
              fin_cases among <;> first
                | exact template rfl
                | (obtain rfl : mode = _ := reads
                   rw [modeOf, context, known]
                   rfl)
      | head =>
          cases vocabulary with
          | svg | math => cases held
          | html =>
              have among := List.contains_iff_mem.mp held
              fin_cases among
              obtain ⟨rfl, more⟩ : mode = _ ∧ _ := reads
              cases stack with
              | nil =>
                  cases path with
                  | nil => exact absurd rfl more
                  | cons => cases others
              | cons =>
                  rw [modeOf, context, known]
                  rfl
      | choices => rw [modeOf_choices context labelled reads.2, reads.1, holds]

/-! ## The tags of a template -/

def shelter (b : Construction) (top : NodeId) (data : Element) : Construction :=
  let attributes := Vocabulary.html.attributes (openingTag data).attributes
  let forest := (b.forest.create .document).2
  { b with
    forest := forest.sprout top (.element .html data.name attributes (some ⟨b.forest.size⟩))
    stack := ⟨forest.size⟩ :: b.stack
    formatting := .marker :: b.formatting
    framesetOk := false
    mode := .inTemplate
    templateModes := .inTemplate :: b.templateModes }

theorem openTemplate_eq (place : b.place = .last top) {tag : Tag}
    (attributes : tag.attributes = (openingTag data).attributes) (opened : tag.name = data.name)
    (named : data.name = "template") : b.openTemplate tag = b.shelter top data := by
  rw [named] at opened
  unfold openTemplate openFor openTag insert create shelter
  rw [place, opened, attributes, named, if_pos ⟨rfl, rfl⟩]
  rfl

section

variable (inside : b.forest.Has top) (data : Element)
include inside

theorem has_createContents : (b.forest.create .document).2.Has top := by
  rw [Forest.Has, Forest.size_create]
  exact Nat.lt_succ_of_lt inside

theorem grownAt_shelter : GrownAt top [⟨(b.forest.create .document).2.size⟩] b.forest
    (b.shelter top data).forest :=
  (Forest.grownAt_create top b.forest .document).trans
    (Forest.grownAt_sprout _ (has_createContents inside))

omit inside in
theorem kind?_shelter : (b.shelter top data).forest.kind? ⟨(b.forest.create .document).2.size⟩ =
    some (.element .html data.name (Vocabulary.html.attributes (openingTag data).attributes)
      (some ⟨b.forest.size⟩)) :=
  Forest.kind?_sprout_new _ _

omit inside in
theorem has_contents : (b.shelter top data).forest.Has ⟨b.forest.size⟩ := by
  unfold shelter Forest.Has
  rw [Forest.size_sprout, Forest.size_create]
  exact Nat.lt_succ_of_lt (Nat.lt_succ_self _)

/-- Nothing stands in a template yet, nor below it. -/
theorem children_shelter {id : NodeId} (new : b.forest.size ≤ id.index) :
    (b.shelter top data).forest.children id = [] := by
  have absent : ¬ b.forest.Has id := Nat.not_lt.mpr new
  unfold shelter
  dsimp only
  rw [Forest.children_sprout _ (has_createContents inside),
    if_neg (Forest.ne_of_not_has inside absent), Forest.children_create,
    Forest.children_of_not_has absent]

end

/-- Trees read in a template stand in it. -/
theorem builds_shelter {parent : Option String} {trees : List Subtree} {after : Forest Part}
    (inside : b.forest.Has top) (spelled : Spelled .html data)
    (builds : Builds (some data.name) ⟨b.forest.size⟩ trees (b.shelter top data).forest after) :
    Builds parent top [.element data trees] b.forest after := by
  have size : (b.forest.create .document).2.size = b.forest.size + 1 := Forest.size_create _ _
  have late : b.forest.size ≤ (b.forest.create .document).2.size := by omega
  refine .element_of_grownAt inside (grownAt_shelter inside data) late (kind?_shelter data)
    spelled.attributes (.inr ⟨rfl, ?_⟩) (Nat.le_refl _) (has_contents data)
    (children_shelter inside data late) (children_shelter inside data (Nat.le_refl _)) builds
  intro same
  have index := congrArg NodeId.index same
  dsimp only at index
  omega

def Setting.within (setting : Setting) (mode : Mode) : Setting :=
  { setting with modes := mode :: setting.modes }

def shelterModes : List Mode :=
  [.inTemplate, .inBody, .inTable, .inTableBody, .inRow, .inColumnGroup]

/-- The tag of a template opens it, and in whatever mode it is read its closing tag leads back. -/
structure Shelters (setting : Setting) (top : NodeId) (data : Element) (path : List Label)
    (start : Construction) : Prop where
  named : data.name = "template"
  opening : start.attend.applied (.tag (openingTag data)) = (start.attend.shelter top data).done
  closing : ∀ (inner : Construction) (mode : Mode), mode ∈ shelterModes →
    inner.Stands (setting.within mode) mode ((.html, "template") :: path) →
    inner.stack = (start.attend.shelter top data).stack → inner.form = start.form →
    Fades (start.attend.shelter top data).formatting inner.formatting →
    ∃ last, inner.attend.applied (.tag (closingTag data)) = last.done ∧
      Returns setting start inner last

theorem rule_template_closing (known : mode ∈ shelterModes) {tag : Tag}
    (closing : tag.closing = true) (named : tag.name = "template")
    (opened : b.hasOpen "template" = true) :
    b.rule mode (.tag tag) = b.closeImpliedThoroughly.leaveTemplate.done := by
  have rule : b.rule mode (.tag tag) =
      if b.hasOpen "template" then b.closeImpliedThoroughly.leaveTemplate.done else b.done := by
    clear opened
    obtain ⟨isClosing, name, selfClosing, attributes⟩ := tag
    obtain rfl : isClosing = true := closing
    obtain rfl : name = "template" := named
    fin_cases known <;> rfl
  rw [rule, opened, if_pos rfl]

/-- Where a template may stand its tag opens it. -/
theorem StandsIn.applied_template (stands : b.StandsIn setting area mode label path)
    (holds : area.holdsTemplates (label :: path)) {tag : Tag} (opening : tag.closing = false)
    (named : tag.name = "template") : b.applied (.tag tag) = (b.openTemplate tag).done := by
  have held := stands.held
  have reads := stands.reads
  have rule
      (known : mode ∈ [Mode.inHead, .inBody, .inCaption, .inCell, .inTable, .inTableBody, .inRow,
        .inColumnGroup, .inSelect, .inSelectInTable, .inTemplate]) :
      b.rule mode (.tag tag) = (b.openTemplate tag).done := by
    obtain ⟨closing, name, selfClosing, attributes⟩ := tag
    obtain rfl : closing = false := opening
    obtain rfl : name = "template" := named
    fin_cases known <;> rfl
  cases area with
  | gap | foreign | notes | frames | late => exact holds.elim
  | flow =>
      rw [stands.applied_open opening (fun _ => by rw [named]; rfl), rule]
      have among := mem_of_flowMode reads
      fin_cases among <;> decide
  | head =>
      obtain ⟨rfl, _⟩ : mode = _ ∧ _ := reads
      rw [stands.stands.applied_of_isIn held, rule (by decide)]
  | table | rows | cells | columns | template =>
      obtain rfl : mode = _ := reads
      rw [stands.stands.applied_of_isIn held, rule (by decide)]
  | choices =>
      rw [stands.stands.applied_of_isIn held]
      obtain rfl | rfl := stands.choosing <;> rw [rule (by decide)]

/-- The tags of a template. -/
theorem StandsIn.shelters (stands : b.StandsIn setting area mode label path)
    (holds : area.holdsTemplates (label :: path)) (puts : b.PutsIn top)
    (spelled : Spelled .html data) (named : data.name = "template") :
    Shelters setting top data (label :: path) b := by
  have opened := spelled.openingName
  refine ⟨named, ?_, fun inner turned known within stack form fades => ?_⟩
  · rw [stands.attend.applied_template holds rfl (opened.trans named),
      openTemplate_eq (stands.stands.attend.place puts) rfl opened named]
  · have standing := within.attend
    have current : inner.attend.Current ⟨(b.forest.create .document).2.size⟩ b.stack "template" :=
      ⟨stack, standing.top_label? stack⟩
    have shelters : inner.attend.hasOpen "template" = true := by
      rw [hasOpen, current.stack, List.any_cons, current.isNamed, Bool.true_or]
    have simple : inner.attend.closeImpliedThoroughly = inner.attend := by
      rw [closeImpliedThoroughly, current.stack,
        List.dropWhile_cons_of_neg (by rw [current.isIn]; decide), ← current.stack]
    let left : Construction :=
      { (inner.attend.leave b.stack).unmark with templateModes := inner.templateModes.tail }
    have leaves : inner.attend.leaveTemplate = { left with mode := left.resetMode } := by
      rw [leaveTemplate, current.popThrough rfl]
      rfl
    have modes : left.templateModes = setting.modes := by
      change inner.templateModes.tail = setting.modes
      rw [within.idle.templates]
      rfl
    have unmarked : left.formatting = b.formatting := by
      change (inner.formatting.dropWhile fun entry => !entry.isMarker).tail = b.formatting
      rw [fades.eq_of_marker, List.dropWhile_cons_of_neg (by simp [Formatting.isMarker])]
      rfl
    have labelled := standing.labelled
    rw [current.stack] at labelled
    have context : left.context = none := standing.idle.context
    have still : left.Labelled left.stack (label :: path) := (labelled_cons.mp labelled).2
    have back : left.resetMode = mode := stands.modeOf_eq holds context modes still
    refine ⟨{ left with mode := left.resetMode }, ?_,
      ⟨{ within.idle with templates := modes }, rfl, ?_, rfl, form, ?_, rfl⟩⟩
    · rw [standing.applied_of_html,
        rule_template_closing known rfl (spelled.closingName.trans named) shelters, simple, leaves]
    · exact back.trans stands.stands.mode.symm
    · change Fades b.formatting left.formatting
      rw [unmarked]
      exact .refl _

/-! ## What stands in a template -/

/-- In a template nodes are added to the node for its contents. -/
theorem insideOf_shelter (data : Element) (named : data.name = "template") :
    (b.shelter top data).insideOf ⟨(b.forest.create .document).2.size⟩ = ⟨b.forest.size⟩ := by
  have kind : (b.shelter top data).forest.kind? _ = _ := kind?_shelter data
  rw [named] at kind
  rw [insideOf, kind]
  rfl

/-- After the tag of a template the construction stands in it. -/
theorem Stands.sheltered (stands : b.Stands setting mode path) (puts : b.PutsIn top)
    (named : data.name = "template") :
    (b.attend.shelter top data).StandsIn (setting.within .inTemplate) .template .inTemplate
        (.html, "template") path ∧
      (b.attend.shelter top data).PutsIn ⟨b.forest.size⟩ := by
  have standing := stands.attend
  have spot : (b.attend.shelter top data).insideOf _ = _ := insideOf_shelter data named
  have kind : (b.attend.shelter top data).label? ⟨(b.attend.forest.create .document).2.size⟩ =
      some (.html, "template") := by
    rw [label?, kind?_shelter, ← named]
  have within : (b.attend.shelter top data).Stands (setting.within .inTemplate) .inTemplate
      ((.html, "template") :: path) := by
    refine standing.entered (grownAt_shelter (standing.has_spot puts) data) ?_ kind rfl ?_
      (.mark rfl) (fun outside => ?_) rfl
    · exact { standing.idle with
        templates := congrArg (Mode.inTemplate :: ·) standing.idle.templates }
    · rw [spot]
      exact has_contents data
    · exact standing.form fun inside => outside (List.mem_cons_of_mem _ inside)
  exact ⟨⟨within, rfl, rfl, fun _ => rfl, fun note => absurd note html_ne_note⟩,
    _, _, rfl, spot⟩

/-! ## What a template turns out to hold -/

def Setting.turned (setting : Setting) (mode : Mode) : Setting :=
  { setting with modes := mode :: setting.modes.tail }

def turned (b : Construction) (mode : Mode) : Construction :=
  { b with mode, templateModes := mode :: b.templateModes.tail }

def shelterMode : Area → Mode
  | .table => .inTable
  | .rows => .inTableBody
  | .cells => .inRow
  | .columns => .inColumnGroup
  | _ => .inBody

theorem mem_ofTemplate (name : String) :
    Area.ofTemplate name ∈ [Area.flow, .table, .rows, .cells, .columns] := by
  unfold Area.ofTemplate
  split_ifs <;> decide

theorem mem_shelterModes (name : String) :
    shelterMode (Area.ofTemplate name) ∈ shelterModes := by
  have among := mem_ofTemplate name
  generalize Area.ofTemplate name = area at among
  fin_cases among <;> decide

/-- The first element that does not belong into the head turns the mode of a template. -/
theorem rule_template_turns {tag : Tag} (opening : tag.closing = false)
    (other : headNames.contains tag.name = false) :
    b.rule .inTemplate (.tag tag) = (b.turned (shelterMode (.ofTemplate tag.name)), .again) := by
  have opens (names : List String) : tag.opens names = names.contains tag.name := by
    rw [Tag.opens, opening, Bool.not_false, Bool.true_and]
  have ends (names : List String) : tag.ends names = false := by
    rw [Tag.ends, opening, Bool.false_and]
  rw [rule, ruleInTemplate]
  simp only [opens, ends, other, opening, Bool.or_self, Bool.false_eq_true, if_false]
  unfold Area.ofTemplate
  by_cases part : ["caption", "colgroup", "tbody", "tfoot", "thead"].contains tag.name = true
  · rw [if_pos part, if_pos part]
    rfl
  · rw [if_neg part, if_neg part]
    by_cases column : tag.name = "col"
    · rw [column]
      rfl
    · by_cases row : tag.name = "tr"
      · rw [row]
        rfl
      · rw [if_neg column, if_neg row, if_neg (by simpa using column), if_neg (by simpa using row)]
        split_ifs <;> rfl

theorem Stands.turned (stands : b.Stands setting mode path) (next : Mode) :
    (b.turned next).Stands (setting.turned next) next path := by
  refine stands.moved { stands.idle with templates := ?_ } rfl rfl rfl rfl rfl
  exact congrArg (fun modes => next :: List.tail modes) stands.idle.templates

/-- After the turn the construction stands in what the template holds. -/
theorem StandsIn.turned (stands : b.StandsIn setting .template mode label path) (name : String) :
    (b.turned (shelterMode (.ofTemplate name))).StandsIn
      (setting.turned (shelterMode (.ofTemplate name))) (.ofTemplate name)
      (shelterMode (.ofTemplate name)) label path := by
  obtain rfl : label = (.html, "template") := by
    obtain ⟨vocabulary, other⟩ := label
    have held := stands.held
    cases vocabulary with
    | svg | math => cases held
    | html =>
        have among := List.contains_iff_mem.mp held
        fin_cases among
        rfl
  refine ⟨stands.stands.turned _, ?_, ?_, fun _ => rfl,
    fun note => absurd note html_ne_note⟩ <;>
  · have among := mem_ofTemplate name
    generalize Area.ofTemplate name = area at among
    fin_cases among <;> rfl

theorem Reads.turned {parent : Option String} {trees : List Subtree} {last : Construction}
    (reads : Reads setting parent top trees b last) (next : Mode) :
    Reads (setting.turned next) parent top trees (b.turned next) (last.turned next) where
  idle := { reads.idle with
    templates := congrArg (fun modes => next :: List.tail modes) reads.idle.templates }
  mode := rfl
  stack := reads.stack
  form := reads.form
  fades := reads.fades
  lineFeed := reads.lineFeed
  builds := reads.builds

/-- A construction goes on as it is, or with what a template turned out to hold. -/
inductive Turn (setting : Setting) (area : Area) (b : Construction) :
    Setting → Construction → Prop
  | stay : Turn setting area b setting b
  | turn (template : area = .template) {mode : Mode} (known : mode ∈ shelterModes) :
      Turn setting area b (setting.turned mode) (b.turned mode)

theorem Turn.eq_of_ne {inner : Setting} {start : Construction}
    (turn : Turn setting area b inner start) (other : area ≠ .template) :
    inner = setting ∧ start = b := by
  cases turn with
  | stay => exact ⟨rfl, rfl⟩
  | turn template => exact absurd template other

theorem Turn.putsIn {inner : Setting} {start : Construction}
    (turn : Turn setting area b inner start) (puts : b.PutsIn top) : start.PutsIn top := by
  cases turn <;> exact puts

/-- Trees are read one after the other. Those in front of a turn are read as if it had come before
them. -/
theorem Turn.cons {other : Area} {parent : Option String} {tree : Subtree} {trees : List Subtree}
    {inner last : Setting} {start middle next settled : Construction}
    (first : Turn setting area b inner start)
    (steady : other = .template → area = .template ∧ inner = setting ∧ start = b)
    (here : start.forest.Has top) (reads : Reads inner parent top [tree] start middle)
    (second : Turn inner other middle last next)
    (rest : Reads last parent top trees next settled) :
    ∃ outer begins, Turn setting area b outer begins ∧
      Reads outer parent top (tree :: trees) begins settled := by
  cases second with
  | stay => exact ⟨_, _, first, reads.cons here rest⟩
  | turn template known =>
      obtain ⟨same, rfl, rfl⟩ := steady template
      exact ⟨_, _, .turn same known, Reads.cons here (reads.turned _) rest⟩

/-- In whatever mode a template is read, it is one of those that its closing tag is for. -/
theorem Turn.sheltered {inner : Setting} {start : Construction}
    (turn : Turn (setting.within .inTemplate) area b inner start)
    (stands : b.Stands (setting.within .inTemplate) .inTemplate path) :
    ∃ mode ∈ shelterModes, inner = setting.within mode ∧ start.Stands inner mode path ∧
      start.forest = b.forest ∧ start.stack = b.stack ∧ start.form = b.form ∧
      start.formatting = b.formatting := by
  cases turn with
  | stay => exact ⟨_, by decide, rfl, stands, rfl, rfl, rfl, rfl⟩
  | turn _ known => exact ⟨_, known, rfl, stands.turned _, rfl, rfl, rfl, rfl⟩

end Construction

end ServerPages.Markup
