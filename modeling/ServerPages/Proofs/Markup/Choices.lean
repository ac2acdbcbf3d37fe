import ServerPages.Proofs.Markup.Tables

/-!
# Lists of choices

A list of choices is opened in the mode for lists within tables or in that for others. Within it a
choice or a group of choices is opened by its tag, unless it would end the one that it stands in.
-/

namespace ServerPages.Markup.Construction

variable {b : Construction} {setting : Setting} {mode : Mode} {label : Label} {path : List Label}
  {top id : NodeId} {below : List NodeId} {data : Element} {tag : Tag}

/-! ## Rules by name -/

section

variable (choosing : mode = .inSelect ∨ mode = .inSelectInTable)
include choosing

theorem rule_option_opening (opening : tag.closing = false) (named : tag.name = "option")
    (none : b.currentIs "option" = false) : b.rule mode (.tag tag) = (b.openFor tag).done := by
  have rule : b.rule mode (.tag tag) =
      ((if b.currentIs "option" then b.pop else b).openFor tag).done := by
    clear none
    obtain ⟨closing, name, selfClosing, attributes⟩ := tag
    obtain rfl : closing = false := opening
    obtain rfl : name = "option" := named
    obtain rfl | rfl := choosing <;> rfl
  rw [rule, none, if_neg Bool.false_ne_true]

theorem rule_group_opening (opening : tag.closing = false) (named : tag.name = "optgroup")
    (noOption : b.currentIs "option" = false) (noGroup : b.currentIs "optgroup" = false) :
    b.rule mode (.tag tag) = (b.openFor tag).done := by
  have rule : b.rule mode (.tag tag) =
      let b := if b.currentIs "option" then b.pop else b
      let b := if b.currentIs "optgroup" then b.pop else b
      (b.openFor tag).done := by
    clear noOption noGroup
    obtain ⟨closing, name, selfClosing, attributes⟩ := tag
    obtain rfl : closing = false := opening
    obtain rfl : name = "optgroup" := named
    obtain rfl | rfl := choosing <;> rfl
  rw [rule]
  dsimp only
  rw [noOption, if_neg Bool.false_ne_true, noGroup, if_neg Bool.false_ne_true]

variable (current : b.Current id below tag.name) (closing : tag.closing = true)
include current closing

theorem rule_option_closing (named : tag.name = "option") :
    b.rule mode (.tag tag) = (b.leave below).done := by
  have rule : b.rule mode (.tag tag) = (if b.currentIs "option" then b.pop else b).done := by
    clear current
    obtain ⟨isClosing, name, selfClosing, attributes⟩ := tag
    obtain rfl : isClosing = true := closing
    obtain rfl : name = "option" := named
    obtain rfl | rfl := choosing <;> rfl
  rw [named] at current
  rw [rule, currentIs, current.currentIn, current.pop]
  rfl

theorem rule_group_closing (named : tag.name = "optgroup") :
    b.rule mode (.tag tag) = (b.leave below).done := by
  have rule : b.rule mode (.tag tag) =
      let inGroup := (b.stack.tail.head?.map (b.isNamed "optgroup")).getD false
      let b := if b.currentIs "option" && inGroup then b.pop else b
      (if b.currentIs "optgroup" then b.pop else b).done := by
    clear current
    obtain ⟨isClosing, name, selfClosing, attributes⟩ := tag
    obtain rfl : isClosing = true := closing
    obtain rfl : name = "optgroup" := named
    obtain rfl | rfl := choosing <;> rfl
  rw [named] at current
  have noOption : b.currentIs "option" = false := current.currentIn _
  have group : b.currentIs "optgroup" = true := current.currentIn _
  rw [rule]
  dsimp only
  rw [noOption, Bool.false_and, if_neg Bool.false_ne_true, group, if_pos rfl, current.pop]

theorem rule_select_closing (named : tag.name = "select") :
    b.rule mode (.tag tag) = { b.leave below with mode := (b.leave below).resetMode }.done := by
  have rule : b.rule mode (.tag tag) = if b.hasInScopeNamed .select "select" then
      { b.popThrough ["select"] with mode := (b.popThrough ["select"]).resetMode }.done
      else b.done := by
    clear current
    obtain ⟨isClosing, name, selfClosing, attributes⟩ := tag
    obtain rfl : isClosing = true := closing
    obtain rfl : name = "select" := named
    obtain rfl | rfl := choosing <;> rfl
  rw [named] at current
  rw [rule, current.hasInScopeNamed, if_pos rfl, current.popThrough rfl]

end

/-! ## Lists and choices -/

/-- The mode for a list of choices is that for lists in tables if what flows around it is in one. -/
theorem choiceMode_eq {modes : List Mode} {path : List Label}
    (flows : flowMode modes path = some mode) :
    (if [Mode.inTable, .inCaption, .inTableBody, .inRow, .inCell].contains mode then
      Mode.inSelectInTable else .inSelect) = Area.choiceMode path := by
  induction path with
  | nil => cases flows
  | cons label below ih =>
      obtain ⟨vocabulary, name⟩ := label
      unfold Area.choiceMode
      by_cases frame : Label.isIn Area.frameNames (vocabulary, name) = true
      · rw [List.find?_cons_of_pos (by simpa using frame)]
        cases vocabulary with
        | svg | math => cases frame
        | html =>
            have among := List.contains_iff_mem.mp frame
            fin_cases among
            case «0» | «1» =>
              cases below with
              | nil => cases flows
              | cons =>
                  cases flows
                  rfl
            case «11» =>
              change (if modes.head? = some .inBody then _ else _) = _ at flows
              split at flows
              · cases flows
                rfl
              · cases flows
            all_goals first | (cases flows; done) | (cases flows; rfl)
      · rw [List.find?_cons_of_neg (by simpa using frame)]
        refine ih ?_
        cases vocabulary with
        | svg | math => exact flows
        | html => rwa [flowMode_html (Bool.eq_false_iff.mpr frame)] at flows

theorem StandsIn.choosing (stands : b.StandsIn setting .choices mode label path) :
    mode = .inSelect ∨ mode = .inSelectInTable := by
  rw [show mode = _ from stands.reads.1]
  exact Area.mem_of_choiceMode _

/-- The tags of a list of choices. -/
theorem StandsIn.encloses_select (stands : b.StandsIn setting .flow mode label path)
    (puts : b.PutsIn top) (spelled : Spelled .html data)
    (other : isMathTextPoint label.1 label.2 = true →
      ["malignmark", "mglyph"].contains data.name = false)
    (named : data.name = "select") :
    ∃ next, Encloses setting .choices top .html data (label :: path) b next := by
  have opened := spelled.openingName
  have place := stands.stands.attend.place puts
  have rule : b.attend.ruleBodyOpen (openingTag data) =
      { (b.attend.openFor (openingTag data)).settle with
        mode := Area.choiceMode (label :: path) }.done := by
    rw [← choiceMode_eq stands.reads, ← stands.stands.attend.mode]
    exact stands.stands.attend.ruleBodyOpen_select (by rw [opened, named]; decide)
  refine encloses_unmarked stands.stands puts spelled (by rw [named]; rfl) (by rw [named]; rfl)
    (Area.choiceMode (label :: path)) (by rw [named]; exact ⟨rfl, rfl⟩) false ?_
    fun inner within current => ?_
  · rw [stands.attend.applied_open rfl (fun text => opened ▸ other text),
      rule_flow_opening stands.reads rfl (by rw [opened, named]; rfl), rule,
      openFor_eq place (by rw [opened, named]; decide), opened]
    rfl
  · have still := within.stands.labelled
    rw [current.stack] at still
    rw [within.stands.applied_of_html, rule_select_closing within.choosing current rfl
      (spelled.closingName.trans named),
      resetMode_leave (labelled_cons.mp still).2 within.stands.idle stands.reads]

/-- The tags of a choice or of a group of choices. -/
theorem StandsIn.encloses_choice (stands : b.StandsIn setting .choices mode label path)
    (puts : b.PutsIn top) (spelled : Spelled .html data)
    (named : data.name = "option" ∨ data.name = "optgroup")
    (noOption : Role.headIn ["option"] (label :: path) = false)
    (noGroup : data.name = "optgroup" → Role.headIn ["optgroup"] (label :: path) = false) :
    ∃ next, Encloses setting .choices top .html data (label :: path) b next := by
  have opened := spelled.openingName
  have standing := stands.stands.attend
  have place := standing.place puts
  have free : b.attend.currentIs "option" = false := (standing.currentIn _).trans noOption
  obtain rfl := stands.stands.mode
  have entered : b.attend.openFor (openingTag data) = b.attend.enter top .html data.name
      (Vocabulary.html.attributes (openingTag data).attributes) := by
    have plain : (openingTag data).name ≠ "template" := by
      rw [opened]
      obtain named | named := named <;> rw [named] <;> decide
    rw [openFor_eq place plain, opened]
  obtain named | named := named
  · refine encloses_unmarked stands.stands puts spelled (by rw [named]; rfl) (by rw [named]; rfl)
      b.mode (by rw [named]; exact stands.reads) b.framesetOk ?_ fun inner within current => ?_
    · rw [standing.applied_of_isIn stands.held,
        rule_option_opening stands.choosing rfl (opened.trans named) free, entered]
      rfl
    · rw [within.stands.applied_of_html, rule_option_closing within.choosing current rfl
        (spelled.closingName.trans named), ← within.stands.mode]
      rfl
  · have noGroup : b.attend.currentIs "optgroup" = false :=
      (standing.currentIn _).trans (noGroup named)
    refine encloses_unmarked stands.stands puts spelled (by rw [named]; rfl) (by rw [named]; rfl)
      b.mode (by rw [named]; exact stands.reads) b.framesetOk ?_ fun inner within current => ?_
    · rw [standing.applied_of_isIn stands.held,
        rule_group_opening stands.choosing rfl (opened.trans named) free noGroup, entered]
      rfl
    · rw [within.stands.applied_of_html, rule_group_closing within.choosing current rfl
        (spelled.closingName.trans named), ← within.stands.mode]
      rfl

end ServerPages.Markup.Construction
