import ServerPages.Proofs.Markup.Enclosing

/-!
# Tables

Within a table, a section or a row, the opening tag of a part that belongs there opens it, and its
closing tag leads back to the rules around it. Captions and cells set a mark, which is taken away
with all formatting elements that were remembered since.
-/

namespace ServerPages.Markup.Construction

variable {b : Construction} {setting : Setting} {area : Area} {mode : Mode} {label : Label}
  {path : List Label} {top : NodeId} {below : List NodeId} {data : Element} {tag : Tag}

/-! ## Elements with rules of their own -/

theorem Spelled.openingName (spelled : Spelled .html data) : (openingTag data).name = data.name :=
  spelled.name

theorem Spelled.closingName (spelled : Spelled .html data) : (closingTag data).name = data.name :=
  spelled.name

theorem Stands.popDownTo_eq (stands : b.Stands setting mode (label :: path))
    {names : List String} (among : label.isIn names = true) (bounds : List String)
    (sub : names.all bounds.contains = true) : b.popDownTo bounds = b := by
  obtain ⟨top, below, stack⟩ := stands.exists_stack
  obtain ⟨vocabulary, name⟩ := label
  cases vocabulary with
  | svg | math => cases among
  | html =>
      have current : b.Current top below name := ⟨stack, stands.top_label? stack⟩
      exact current.popDownTo (contains_of_all among sub)

/-- An element that sets no mark is opened in one mode and closed in it. -/
theorem encloses_unmarked (stands : b.Stands setting mode (label :: path))
    (puts : b.PutsIn top) (spelled : Spelled .html data)
    (simple : tellingNames.contains data.name = false)
    (held : area.isHeldBy (.html, data.name) = true)
    (inside : Mode)
    (reads : area.IsReadIn setting.modes ((.html, data.name) :: label :: path) inside)
    (framesetOk : Bool)
    (opening : b.attend.applied (.tag (openingTag data)) =
      { b.attend.enter top .html data.name (Vocabulary.html.attributes (openingTag data).attributes)
        with framesetOk, mode := inside }.done)
    (closing : ∀ inner : Construction,
      inner.StandsIn setting area inside (.html, data.name) (label :: path) →
      inner.Current ⟨b.forest.size⟩ b.stack (closingTag data).name →
      inner.applied (.tag (closingTag data)) = { inner.leave b.stack with mode }.done) :
    ∃ next, Encloses setting area top .html data (label :: path) b next := by
  have plain : data.name ≠ "template" := by
    intro template
    rw [template] at simple
    cases simple
  have opens : Opens setting top .html data b
      { b.attend.enter top .html data.name (Vocabulary.html.attributes (openingTag data).attributes)
        with framesetOk, mode := inside } :=
    ⟨{ stands.idle with }, ⟨_, spelled.attributes, rfl⟩, rfl⟩
  have remembers : Remembers b.formatting ⟨b.forest.size⟩ (.html, data.name) b.formatting :=
    .same (contains_eq_false simple rfl)
  have within := stands.inside (stands.has_spot puts) opens remembers
    (fun outside => stands.form fun inside => outside (List.mem_cons_of_mem _ inside))
    (contains_eq_false simple rfl)
  refine ⟨_, opening, opens, within.standsIn_html held reads plain, nofun, fun inner within => ?_⟩
  have current := within.attend.current opens
  rw [← spelled.closingName] at current
  rw [closing _ within.attend.standsIn current]
  exact ⟨_, rfl, { within.attend.standsIn.stands.idle with }, rfl, stands.mode.symm, rfl,
    within.form, within.fades, rfl⟩

/-- An element that sets a mark is opened in one mode and closed in it. -/
theorem encloses_marked (stands : b.Stands setting mode (label :: path))
    (puts : b.PutsIn top) (spelled : Spelled .html data)
    (marked : markNames.contains data.name = true) (plain : data.name ≠ "template")
    (held : area.isHeldBy (.html, data.name) = true)
    (inside : Mode)
    (reads : area.IsReadIn setting.modes ((.html, data.name) :: label :: path) inside)
    (opening : b.attend.applied (.tag (openingTag data)) =
      { b.attend.enter top .html data.name (Vocabulary.html.attributes (openingTag data).attributes)
        with formatting := .marker :: b.formatting, mode := inside }.done)
    (closing : ∀ inner : Construction,
      inner.StandsIn setting area inside (.html, data.name) (label :: path) →
      inner.Current ⟨b.forest.size⟩ b.stack (closingTag data).name →
      inner.applied (.tag (closingTag data)) = { (inner.leave b.stack).unmark with mode }.done) :
    ∃ next, Encloses setting area top .html data (label :: path) b next := by
  have opens : Opens setting top .html data b
      { b.attend.enter top .html data.name (Vocabulary.html.attributes (openingTag data).attributes)
        with formatting := .marker :: b.formatting, mode := inside } :=
    ⟨{ stands.idle with }, ⟨_, spelled.attributes, rfl⟩, rfl⟩
  have remembers : Remembers b.formatting ⟨b.forest.size⟩ (.html, data.name)
      (.marker :: b.formatting) := .mark marked
  have known : Label.isIn outdatedNames (.html, data.name) = false := by
    have among := List.contains_iff_mem.mp marked
    generalize data.name = name at among
    fin_cases among <;> rfl
  have within := stands.inside (stands.has_spot puts) opens remembers
    (fun outside => stands.form fun inside => outside (List.mem_cons_of_mem _ inside)) known
  refine ⟨_, opening, opens, within.standsIn_html held reads plain, nofun, fun inner within => ?_⟩
  have current := within.attend.current opens
  rw [← spelled.closingName] at current
  rw [closing _ within.attend.standsIn current]
  have returns : Leaves setting b.formatting inner.form b.stack inner.attend
      (inner.attend.leave b.stack).unmark :=
    leaves_unmark within.attend.standsIn.stands.idle within.fades.eq_of_marker
  exact ⟨_, rfl, { returns.idle with }, rfl, stands.mode.symm, rfl, within.form, returns.fades, rfl⟩

/-! ## Rules by name -/

section

variable (opening : tag.closing = false)
include opening

theorem rule_caption_opening (named : tag.name = "caption") :
    b.rule .inTable (.tag tag) =
      { (b.popDownTo tableScope).mark.openFor tag with mode := .inCaption }.done := by
  obtain ⟨closing, name, selfClosing, attributes⟩ := tag
  obtain rfl : closing = false := opening
  obtain rfl : name = "caption" := named
  rfl

theorem rule_columns_opening (named : tag.name = "colgroup") :
    b.rule .inTable (.tag tag) =
      { (b.popDownTo tableScope).openFor tag with mode := .inColumnGroup }.done := by
  obtain ⟨closing, name, selfClosing, attributes⟩ := tag
  obtain rfl : closing = false := opening
  obtain rfl : name = "colgroup" := named
  rfl

theorem rule_section_opening (named : tag.name ∈ sectionNames) :
    b.rule .inTable (.tag tag) =
      { (b.popDownTo tableScope).openFor tag with mode := .inTableBody }.done := by
  obtain ⟨closing, name, selfClosing, attributes⟩ := tag
  obtain rfl : closing = false := opening
  fin_cases named <;> rfl

theorem rule_row_opening (named : tag.name = "tr") :
    b.rule .inTableBody (.tag tag) =
      { (b.popDownTo sectionScope).openFor tag with mode := .inRow }.done := by
  obtain ⟨closing, name, selfClosing, attributes⟩ := tag
  obtain rfl : closing = false := opening
  obtain rfl : name = "tr" := named
  rfl

theorem rule_cell_opening (named : tag.name ∈ cellNames) :
    b.rule .inRow (.tag tag) =
      { ((b.popDownTo rowScope).openFor tag).mark with mode := .inCell }.done := by
  obtain ⟨closing, name, selfClosing, attributes⟩ := tag
  obtain rfl : closing = false := opening
  fin_cases named <;> rfl

end

section

variable {id : NodeId} (current : b.Current id below tag.name) (closing : tag.closing = true)
include current closing

theorem rule_table_closing (named : tag.name = "table") :
    b.rule .inTable (.tag tag) =
      { b.leave below with mode := (b.leave below).resetMode }.done := by
  have rule : b.rule .inTable (.tag tag) =
      if b.hasInScopeNamed .table "table" then
        { b.popThrough ["table"] with mode := (b.popThrough ["table"]).resetMode }.done
      else b.done := by
    clear current
    obtain ⟨isClosing, name, selfClosing, attributes⟩ := tag
    obtain rfl : isClosing = true := closing
    obtain rfl : name = "table" := named
    rfl
  rw [named] at current
  rw [rule, current.hasInScopeNamed, if_pos rfl, current.popThrough rfl]

theorem rule_caption_closing (named : tag.name = "caption") :
    b.rule .inCaption (.tag tag) = { (b.leave below).unmark with mode := .inTable }.done := by
  have rule : b.rule .inCaption (.tag tag) =
      if b.hasInScopeNamed .table "caption" then
        { (b.closeImplied.popThrough ["caption"]).unmark with mode := .inTable }.done
      else b.done := by
    clear current
    obtain ⟨isClosing, name, selfClosing, attributes⟩ := tag
    obtain rfl : isClosing = true := closing
    obtain rfl : name = "caption" := named
    rfl
  rw [named] at current
  rw [rule, current.hasInScopeNamed, if_pos rfl, current.closeImplied rfl, current.popThrough rfl]

theorem rule_columns_closing (named : tag.name = "colgroup") :
    b.rule .inColumnGroup (.tag tag) = { b.leave below with mode := .inTable }.done := by
  have rule : b.rule .inColumnGroup (.tag tag) = (if b.currentIs "colgroup" then
      { b.pop with mode := .inTable } else b).done := by
    clear current
    obtain ⟨isClosing, name, selfClosing, attributes⟩ := tag
    obtain rfl : isClosing = true := closing
    obtain rfl : name = "colgroup" := named
    rfl
  rw [named] at current
  rw [rule, currentIs, current.currentIn, current.pop]
  rfl

theorem rule_section_closing (named : tag.name ∈ sectionNames) :
    b.rule .inTableBody (.tag tag) = { b.leave below with mode := .inTable }.done := by
  have rule : b.rule .inTableBody (.tag tag) = (if b.hasInScopeNamed .table tag.name then
        { (b.popDownTo sectionScope).pop with mode := .inTable } else b).done ∧
      sectionScope.contains tag.name = true := by
    clear current
    obtain ⟨isClosing, name, selfClosing, attributes⟩ := tag
    obtain rfl : isClosing = true := closing
    fin_cases named <;> exact ⟨rfl, rfl⟩
  rw [rule.1, current.hasInScopeNamed, if_pos rfl, current.popDownTo rule.2, current.pop]

theorem rule_row_closing (named : tag.name = "tr") :
    b.rule .inRow (.tag tag) = { b.leave below with mode := .inTableBody }.done := by
  have rule : b.rule .inRow (.tag tag) = (if b.hasInScopeNamed .table "tr" then
      { (b.popDownTo rowScope).pop with mode := .inTableBody } else b).done := by
    clear current
    obtain ⟨isClosing, name, selfClosing, attributes⟩ := tag
    obtain rfl : isClosing = true := closing
    obtain rfl : name = "tr" := named
    rfl
  rw [named] at current
  rw [rule, current.hasInScopeNamed, if_pos rfl, current.popDownTo rfl, current.pop]

theorem rule_cell_closing (named : tag.name ∈ cellNames) :
    b.rule .inCell (.tag tag) = { (b.leave below).unmark with mode := .inRow }.done := by
  have rule : b.rule .inCell (.tag tag) = (if b.hasInScopeNamed .table tag.name then
        { (b.closeImplied.popThrough [tag.name]).unmark with mode := .inRow } else b).done ∧
      impliedNames.contains tag.name = false := by
    clear current
    obtain ⟨isClosing, name, selfClosing, attributes⟩ := tag
    obtain rfl : isClosing = true := closing
    fin_cases named <;> exact ⟨rfl, rfl⟩
  rw [rule.1, current.hasInScopeNamed, if_pos rfl, current.closeImplied rule.2,
    current.popThrough (by simp)]

end

/-! ## Parts of tables -/

theorem Stands.applied_of_isIn (stands : b.Stands setting mode (label :: path))
    {names : List String} (among : label.isIn names = true) (token : Token) :
    b.applied token = b.rule mode token := by
  obtain ⟨vocabulary, name⟩ := label
  cases vocabulary with
  | html => exact stands.applied_of_html token
  | svg | math => cases among

/-- After a table the mode is what the open elements call for. -/
theorem resetMode_leave (labelled : b.Labelled below path) (idle : b.Idle setting)
    (flows : flowMode setting.modes path = some mode) : (b.leave below).resetMode = mode := by
  have still : (b.leave below).Labelled below path := labelled
  exact modeOf_eq (b := b.leave below) idle.context still (idle.templates ▸ flows)

/-- The tags of a table. -/
theorem StandsIn.encloses_table (stands : b.StandsIn setting .flow mode label path)
    (puts : b.PutsIn top) (spelled : Spelled .html data)
    (other : isMathTextPoint label.1 label.2 = true →
      ["malignmark", "mglyph"].contains data.name = false)
    (alone : Role.table.staysAlone setting.legacy (label :: path) = true)
    (named : data.name = "table") :
    ∃ next, Encloses setting .table top .html data (label :: path) b next := by
  have opened := spelled.openingName
  have place := stands.stands.attend.place puts
  refine encloses_unmarked stands.stands puts spelled (by rw [named]; rfl) (by rw [named]; rfl)
    .inTable rfl false ?_ fun inner within current => ?_
  · rw [stands.attend.applied_open rfl (fun text => opened ▸ other text),
      rule_flow_opening stands.reads rfl (by rw [opened, named]; rfl),
      stands.stands.attend.ruleBodyOpen_table (by rw [opened, named]; decide) alone,
      openFor_eq place (by rw [opened, named]; decide), opened]
    rfl
  · have still := within.stands.labelled
    rw [current.stack] at still
    rw [within.stands.applied_of_html,
      rule_table_closing current rfl (spelled.closingName.trans named),
      resetMode_leave (labelled_cons.mp still).2 within.stands.idle stands.reads]

/-- The tags of the caption of a table. -/
theorem StandsIn.encloses_caption (stands : b.StandsIn setting .table mode label path)
    (puts : b.PutsIn top) (spelled : Spelled .html data) (named : data.name = "caption") :
    ∃ next, Encloses setting .flow top .html data (label :: path) b next := by
  have opened := spelled.openingName
  have standing := stands.stands.attend
  have place : Construction.place b.attend.mark = .last top :=
    place_eq (b := b.attend.mark) { standing.idle with } puts
  obtain rfl : mode = .inTable := stands.reads
  refine encloses_marked stands.stands puts spelled (by rw [named]; rfl) (by rw [named]; decide) rfl
    .inCaption (by rw [named]; rfl) ?_ fun inner within current => ?_
  · rw [standing.applied_of_isIn stands.held, rule_caption_opening rfl (opened.trans named),
      standing.popDownTo_eq stands.held tableScope rfl,
      openFor_eq place (by rw [opened, named]; decide), opened]
    rfl
  · rw [within.stands.applied_of_html, rule_caption_closing current rfl
      (spelled.closingName.trans named)]

/-- The tags of a group of columns. -/
theorem StandsIn.encloses_columns (stands : b.StandsIn setting .table mode label path)
    (puts : b.PutsIn top) (spelled : Spelled .html data)
    (named : data.name = "colgroup") :
    ∃ next, Encloses setting .columns top .html data (label :: path) b next := by
  have opened := spelled.openingName
  have standing := stands.stands.attend
  obtain rfl : mode = .inTable := stands.reads
  refine encloses_unmarked stands.stands puts spelled (by rw [named]; rfl) (by rw [named]; rfl)
    .inColumnGroup rfl b.framesetOk ?_ fun inner within current => ?_
  · rw [standing.applied_of_isIn stands.held, rule_columns_opening rfl (opened.trans named),
      standing.popDownTo_eq stands.held tableScope rfl,
      openFor_eq (standing.place puts) (by rw [opened, named]; decide), opened]
    rfl
  · rw [within.stands.applied_of_html, rule_columns_closing current rfl
      (spelled.closingName.trans named)]

/-- The tags of a section of a table. -/
theorem StandsIn.encloses_section (stands : b.StandsIn setting .table mode label path)
    (puts : b.PutsIn top) (spelled : Spelled .html data)
    (named : data.name ∈ sectionNames) :
    ∃ next, Encloses setting .rows top .html data (label :: path) b next := by
  have opened := spelled.openingName
  have standing := stands.stands.attend
  obtain rfl : mode = .inTable := stands.reads
  have other : tellingNames.contains data.name = false ∧ data.name ≠ "template" ∧
      (Area.rows.isHeldBy (.html, data.name)) = true := by
    generalize data.name = name at named
    fin_cases named <;> decide
  refine encloses_unmarked stands.stands puts spelled other.1 other.2.2
    .inTableBody rfl b.framesetOk ?_ fun inner within current => ?_
  · rw [standing.applied_of_isIn stands.held, rule_section_opening rfl (opened.symm ▸ named),
      standing.popDownTo_eq stands.held tableScope rfl,
      openFor_eq (standing.place puts) (opened.symm ▸ other.2.1), opened]
    rfl
  · rw [within.stands.applied_of_html, rule_section_closing current rfl
      (spelled.closingName.symm ▸ named)]

/-- The tags of a row of a table. -/
theorem StandsIn.encloses_row (stands : b.StandsIn setting .rows mode label path)
    (puts : b.PutsIn top) (spelled : Spelled .html data) (named : data.name = "tr") :
    ∃ next, Encloses setting .cells top .html data (label :: path) b next := by
  have opened := spelled.openingName
  have standing := stands.stands.attend
  obtain rfl : mode = .inTableBody := stands.reads
  refine encloses_unmarked stands.stands puts spelled (by rw [named]; rfl) (by rw [named]; rfl)
    .inRow rfl b.framesetOk ?_ fun inner within current => ?_
  · rw [standing.applied_of_isIn stands.held, rule_row_opening rfl (opened.trans named),
      standing.popDownTo_eq stands.held sectionScope rfl,
      openFor_eq (standing.place puts) (by rw [opened, named]; decide), opened]
    rfl
  · rw [within.stands.applied_of_html, rule_row_closing current rfl
      (spelled.closingName.trans named)]

/-- The tags of a cell of a table. -/
theorem StandsIn.encloses_cell (stands : b.StandsIn setting .cells mode label path)
    (puts : b.PutsIn top) (spelled : Spelled .html data)
    (named : data.name ∈ cellNames) :
    ∃ next, Encloses setting .flow top .html data (label :: path) b next := by
  have opened := spelled.openingName
  have standing := stands.stands.attend
  obtain rfl : mode = .inRow := stands.reads
  have other : markNames.contains data.name = true ∧ data.name ≠ "template" := by
    generalize data.name = name at named
    fin_cases named <;> decide
  have flows : flowMode setting.modes ((.html, data.name) :: label :: path) = some .inCell := by
    generalize data.name = name at named
    fin_cases named <;> rfl
  refine encloses_marked stands.stands puts spelled other.1 other.2 rfl .inCell flows ?_
    fun inner within current => ?_
  · rw [standing.applied_of_isIn stands.held, rule_cell_opening rfl (opened.symm ▸ named),
      standing.popDownTo_eq stands.held rowScope rfl,
      openFor_eq (standing.place puts) (opened.symm ▸ other.2), opened]
    rfl
  · rw [within.stands.applied_of_html, rule_cell_closing current rfl
      (spelled.closingName.symm ▸ named)]

end ServerPages.Markup.Construction
