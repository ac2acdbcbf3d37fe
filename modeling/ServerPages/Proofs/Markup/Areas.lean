import ServerPages.Proofs.Markup.Opening

/-!
# Which rules hold where

The mode of the rules depends on the area that is read: what flows is read in a mode that the open
elements call for, and every other area has modes of its own. Where the latest open element is not
HTML, its own rules are for tags, unless it holds HTML; comments and its closing tag always fall
under them.
-/

namespace ServerPages.Markup

open Construction (misplacedNames sectionNames cellNames)
open Area (boundNames frameNames)

/-! ## Modes -/

theorem contains_of_all {names others : List String} {name : String}
    (among : names.contains name = true) (sub : names.all others.contains = true) :
    others.contains name = true :=
  List.all_eq_true.mp sub name (List.contains_iff_mem.mp among)

theorem contains_eq_false {names others : List String} {name : String}
    (absent : others.contains name = false) (sub : names.all others.contains = true) :
    names.contains name = false := by
  rw [Bool.eq_false_iff] at absent ⊢
  exact fun among => absent (contains_of_all among sub)

/-- The mode of the rules for what flows within open elements, if anything may flow there, given the
modes of the open templates. -/
def flowMode (modes : List Mode) : List Label → Option Mode
  | [] => none
  | label :: below =>
      if label.isIn cellNames then if below.isEmpty then none else some .inCell
      else if label.isIn ["caption"] then some .inCaption
      else if label.isIn ["body"] then some .inBody
      else if label.isIn ["template"] then
        if modes.head? = some .inBody then some .inBody else none
      else if label.isIn boundNames then none
      else flowMode modes below

theorem mem_of_flowMode {modes : List Mode} {path : List Label} {mode : Mode}
    (flows : flowMode modes path = some mode) : mode ∈ [Mode.inBody, .inCaption, .inCell] := by
  induction path with
  | nil => cases flows
  | cons label below ih =>
      unfold flowMode at flows
      repeat' split at flows
      all_goals first | exact ih flows | cases flows
      all_goals decide

/-- What flows within an element flows in the mode around it, unless the element is a part of a
table or of the document. -/
theorem flowMode_html {name : String} (other : frameNames.contains name = false)
    (modes : List Mode) (path : List Label) :
    flowMode modes ((.html, name) :: path) = flowMode modes path := by
  have out (names : List String) (sub : names.all frameNames.contains = true) :
      ¬ Label.isIn names (.html, name) = true :=
    Bool.eq_false_iff.mp (contains_eq_false other sub)
  rw [flowMode, if_neg (out _ rfl), if_neg (out _ rfl), if_neg (out _ rfl), if_neg (out _ rfl),
    if_neg (out _ rfl)]

theorem flowMode_foreign {vocabulary : Vocabulary} (foreign : vocabulary ≠ .html) (name : String)
    (modes : List Mode) (path : List Label) :
    flowMode modes ((vocabulary, name) :: path) = flowMode modes path := by
  cases vocabulary with
  | html => exact absurd rfl foreign
  | svg | math => rfl

namespace Construction

variable {b : Construction} {path : List Label} {setting : Setting} {mode next : Mode}
  {name : String}

/-- The mode that the open elements call for, where something may flow. -/
theorem modeOf_eq (context : b.context = none) {stack : List NodeId}
    (labelled : b.Labelled stack path) (flows : flowMode b.templateModes path = some mode) :
    b.modeOf stack = mode := by
  rw [labelled_iff] at labelled
  induction labelled with
  | nil => cases flows
  | @cons id label stack path known others ih =>
      have same : stack.isEmpty = path.isEmpty := by
        cases others <;> rfl
      rw [modeOf, context, known]
      dsimp only
      obtain ⟨vocabulary, name⟩ := label
      cases vocabulary with
      | svg | math => exact ih flows
      | html =>
          by_cases named : name ∈ frameNames
          · fin_cases named
            case «0» | «1» =>
              cases path with
              | nil => cases flows
              | cons =>
                  cases flows
                  rw [same]
                  rfl
            case «11» =>
              change (if b.templateModes.head? = some .inBody then _ else _) = _ at flows
              split at flows
              · rename_i body
                cases flows
                change b.templateModes.head?.getD .inBody = .inBody
                rw [body]
                rfl
              · cases flows
            all_goals first | exact Option.some.inj flows | cases flows
          · have ne (other : String) (known : other ∈ frameNames) : name ≠ other :=
              fun same => named (same ▸ known)
            have out : frameNames.contains name = false :=
              Bool.eq_false_iff.mpr fun inside => named (List.contains_iff_mem.mp inside)
            rw [flowMode_html out] at flows
            simp only [List.mem_cons, List.mem_append, frameNames, cellNames, boundNames] at ne
            simp [ne]
            exact ih flows

end Construction

/-! ## Areas -/

def isPoint (label : Label) : Bool :=
  isMathTextPoint label.1 label.2 || isSvgPoint label.1 label.2

/-- The element of a label is an annotation in MathML, which holds HTML if it says so. -/
def isNote (label : Label) : Bool :=
  label == (.math, "annotation-xml")

namespace Area

def isHeldBy (label : Label) : Area → Bool
  | head => label.isIn ["head"]
  | gap | late => label.isIn ["html"]
  | flow => label.1 == .html || isPoint label || isNote label
  | foreign => !(label.1 == .html || isPoint label || isNote label)
  | notes => isNote label
  | table => label.isIn ["table", "template"]
  | rows => label.isIn (sectionNames ++ ["template"])
  | cells => label.isIn ["tr", "template"]
  | columns => label.isIn ["colgroup", "template"]
  | choices => label.isIn ["optgroup", "option", "select"]
  | template => label.isIn ["template"]
  | frames => label.isIn ["frameset"]

/-- The modes that the area is read in, within the elements of a path, given the modes of the open
templates. -/
def IsReadIn (modes : List Mode) (path : List Label) (mode : Mode) : Area → Prop
  | head => mode = .inHead ∧ path.tail ≠ []
  | gap => mode = .afterHead
  | flow | foreign | notes => flowMode modes path = some mode
  | table => mode = .inTable
  | rows => mode = .inTableBody
  | cells => mode = .inRow
  | columns => mode = .inColumnGroup
  | choices => mode = choiceMode (aroundChoices path) ∧
      (path.dropWhile (·.isIn ["optgroup", "option"])).head? = some (.html, "select")
  | template => mode = .inTemplate
  | frames => mode = .inFrameset
  | late => mode = .afterFrameset

theorem mem_of_choiceMode (around : List Label) :
    choiceMode around = .inSelect ∨ choiceMode around = .inSelectInTable := by
  unfold choiceMode
  split
  · split
    · exact .inr rfl
    · exact .inl rfl
  · exact .inl rfl

theorem mem_of_isReadIn {area : Area} {modes : List Mode} {path : List Label} {mode : Mode}
    (reads : area.IsReadIn modes path mode) :
    mode ∈ [Mode.inHead, .afterHead, .inBody, .inCaption, .inCell, .inTable, .inTableBody, .inRow,
      .inColumnGroup, .inSelect, .inSelectInTable, .inTemplate, .inFrameset, .afterFrameset] := by
  cases area with
  | flow | foreign | notes =>
      have flows := mem_of_flowMode reads
      fin_cases flows <;> decide
  | head =>
      obtain ⟨rfl, _⟩ : mode = _ ∧ _ := reads
      decide
  | gap | table | rows | cells | columns | template | frames | late =>
      obtain rfl : mode = _ := reads
      decide
  | choices =>
      obtain ⟨rfl, _⟩ : mode = _ ∧ _ := reads
      obtain same | same := mem_of_choiceMode (aroundChoices path) <;> rw [same] <;> decide

end Area

namespace Construction

variable {b : Construction} {path : List Label} {mode : Mode} {setting : Setting} {area : Area}
  {label : Label} {name : String} {top : NodeId} {below : List NodeId} {token : Token} {tag : Tag}

structure StandsIn (setting : Setting) (area : Area) (mode : Mode) (label : Label)
    (path : List Label) (b : Construction) : Prop where
  stands : b.Stands setting mode (label :: path)
  held : area.isHeldBy label = true
  reads : area.IsReadIn setting.modes (label :: path) mode
  templates : label = (.html, "template") → setting.modes.head? = some mode
  annotates : isNote label = true →
    b.stack.head?.map b.annotatesHtmlAt = some (area == .flow)

/-- After reading, the construction stands in the area where it stood. -/
theorem StandsIn.after {settled : Construction} {place : NodeId} {parent : Option String}
    {trees : List Subtree} (stands : b.StandsIn setting area mode label path)
    (reads : Reads setting parent place trees b settled) :
    settled.StandsIn setting area mode label path := by
  refine ⟨stands.stands.after reads, stands.held, stands.reads, stands.templates, fun note => ?_⟩
  obtain ⟨ids, grown, _⟩ := reads.builds
  rw [← stands.annotates note, reads.stack]
  obtain ⟨top, below, stack⟩ := stands.stands.exists_stack
  have inside : b.forest.Has top := stands.stands.has_of_mem (stack ▸ List.mem_cons_self)
  rw [stack, List.head?_cons, Option.map_some, Option.map_some, annotatesHtmlAt, annotatesHtmlAt,
    grown.kinds top inside]

theorem Stands.foreignLabel?_eq (stands : b.Stands setting mode (label :: path))
    (stack : b.stack = top :: below) :
    b.foreignLabel? = if label.1 = .html then none else some (top, label.1, label.2) := by
  unfold foreignLabel?
  rw [stack]
  dsimp only
  rw [isFragment, stands.idle.context, Option.isSome_none, Bool.and_false,
    if_neg Bool.false_ne_true, stands.top_label? stack]

theorem Stands.isForeign_eq_false (stands : b.Stands setting mode ((.html, name) :: path))
    (token : Token) : b.isForeign token = false := by
  obtain ⟨top, below, stack⟩ := stands.exists_stack
  have html := stands.foreignLabel?_eq stack
  rw [if_pos rfl] at html
  unfold isForeign
  rw [html]
  cases token <;> rfl

/-- In an HTML element the rules of the mode are for everything. -/
theorem Stands.applied_of_html (stands : b.Stands setting mode ((.html, name) :: path))
    (token : Token) : b.applied token = b.rule mode token := by
  rw [applied, stands.isForeign_eq_false, if_neg Bool.false_ne_true, stands.mode]

/-- Comments and closing tags in an element that is not HTML fall under its rules. -/
theorem Stands.applied_of_foreign (stands : b.Stands setting mode (label :: path))
    (foreign : label.1 ≠ .html)
    (kind : (∃ content, token = .comment content) ∨ ∃ tag, tag.closing = true ∧ token = .tag tag) :
    b.applied token = b.ruleForeign token := by
  obtain ⟨top, below, stack⟩ := stands.exists_stack
  have known := stands.foreignLabel?_eq stack
  rw [if_neg foreign] at known
  have inside : b.isForeign token = true := by
    unfold isForeign
    rw [known]
    obtain ⟨content, rfl⟩ | ⟨tag, closing, rfl⟩ := kind
    · simp
    · simp [closing]
  rw [applied, inside, if_pos rfl]

theorem applied_of_isForeign (inside : b.isForeign token = true) :
    b.applied token = b.ruleForeign token := by
  rw [applied, inside, if_pos rfl]

/-- In an element that is not HTML and does not hold HTML, its rules are for everything. -/
theorem StandsIn.applied_foreign (stands : b.StandsIn setting .foreign mode label path)
    (inputs : token ≠ .endOfInput) : b.applied token = b.ruleForeign token := by
  obtain ⟨top, below, stack⟩ := stands.stands.exists_stack
  have held := stands.held
  simp only [Area.isHeldBy, isPoint, isNote, Bool.not_eq_true', Bool.or_eq_false_iff,
    beq_eq_false_iff_ne] at held
  obtain ⟨⟨foreign, noText, noPoint⟩, plain⟩ := held
  have plain : ¬ label.1 = .math ∨ ¬ label.2 = "annotation-xml" :=
    not_and_or.mp fun same => plain (Prod.ext same.1 same.2)
  have known := stands.stands.foreignLabel?_eq stack
  rw [if_neg foreign] at known
  refine applied_of_isForeign ?_
  unfold isForeign
  rw [known]
  cases token with
  | endOfInput => exact absurd rfl inputs
  | doctype | tag | comment | blank | text | null =>
      obtain other | other := plain <;> simp [noText, noPoint, other]

/-- So are they in an annotation that does not hold HTML, but for the tag that starts SVG. -/
theorem StandsIn.applied_notes (stands : b.StandsIn setting .notes mode label path)
    (inputs : token ≠ .endOfInput) (other : ∀ tag, token = .tag tag → tag.name ≠ "svg") :
    b.applied token = b.ruleForeign token := by
  obtain ⟨top, below, stack⟩ := stands.stands.exists_stack
  obtain rfl : label = (.math, "annotation-xml") := eq_of_beq stands.held
  have known := stands.stands.foreignLabel?_eq stack
  have silent := stands.annotates rfl
  rw [stack, List.head?_cons, Option.map_some, Option.some.injEq] at silent
  refine applied_of_isForeign ?_
  unfold isForeign
  rw [known]
  cases token with
  | endOfInput => exact absurd rfl inputs
  | tag tag =>
      have other := other tag rfl
      simp [isMathTextPoint, isSvgPoint, silent, other]
  | doctype | comment | blank | text | null => simp [isMathTextPoint, isSvgPoint, silent]

theorem StandsIn.applied_notes_svg (stands : b.StandsIn setting .notes mode label path)
    (opening : tag.closing = false) (named : tag.name = "svg") :
    b.applied (.tag tag) = b.rule mode (.tag tag) := by
  obtain ⟨top, below, stack⟩ := stands.stands.exists_stack
  obtain rfl : label = (.math, "annotation-xml") := eq_of_beq stands.held
  have known := stands.stands.foreignLabel?_eq stack
  have outside : b.isForeign (.tag tag) = false := by
    unfold isForeign
    rw [known]
    simp [opening, named]
  rw [applied, outside, if_neg Bool.false_ne_true, stands.stands.mode]

/-- An element that HTML flows in and that is not HTML itself is a point for it, or an annotation
that says that it holds HTML. -/
theorem StandsIn.flow_cases (stands : b.StandsIn setting .flow mode label path)
    (foreign : label.1 ≠ .html) (stack : b.stack = top :: below) :
    isMathTextPoint label.1 label.2 = true ∨ isSvgPoint label.1 label.2 = true ∨
      label = (.math, "annotation-xml") ∧ b.annotatesHtmlAt top = true := by
  have held := stands.held
  simp only [Area.isHeldBy, isPoint, Bool.or_eq_true, beq_iff_eq] at held
  obtain (html | text | svg) | note := held
  · exact absurd html foreign
  · exact .inl text
  · exact .inr (.inl svg)
  · have speaks := stands.annotates note
    rw [stack, List.head?_cons, Option.map_some, Option.some.injEq] at speaks
    exact .inr (.inr ⟨eq_of_beq note, speaks⟩)

/-- Where HTML flows, the rules of the mode are for characters. -/
theorem StandsIn.applied_run (stands : b.StandsIn setting .flow mode label path) {run : List Char}
    (isRun : IsRun run token) : b.applied token = b.rule mode token := by
  by_cases html : label.1 = .html
  · obtain ⟨vocabulary, name⟩ := label
    obtain rfl : vocabulary = .html := html
    exact stands.stands.applied_of_html token
  · obtain ⟨top, below, stack⟩ := stands.stands.exists_stack
    have known := stands.stands.foreignLabel?_eq stack
    rw [if_neg html] at known
    have outside : b.isForeign token = false := by
      unfold isForeign
      rw [known]
      rcases isRun with rfl | rfl <;>
        obtain text | svg | ⟨rfl, speaks⟩ := stands.flow_cases html stack <;> simp [*]
    rw [applied, outside, if_neg Bool.false_ne_true, stands.stands.mode]

/-- Where HTML flows, the rules of the mode are for opening tags, but for two that MathML keeps. -/
theorem StandsIn.applied_open (stands : b.StandsIn setting .flow mode label path)
    (opening : tag.closing = false)
    (other : isMathTextPoint label.1 label.2 = true →
      ["malignmark", "mglyph"].contains tag.name = false) :
    b.applied (.tag tag) = b.rule mode (.tag tag) := by
  by_cases html : label.1 = .html
  · obtain ⟨vocabulary, name⟩ := label
    obtain rfl : vocabulary = .html := html
    exact stands.stands.applied_of_html _
  · obtain ⟨top, below, stack⟩ := stands.stands.exists_stack
    have known := stands.stands.foreignLabel?_eq stack
    rw [if_neg html] at known
    have outside : b.isForeign (.tag tag) = false := by
      unfold isForeign
      rw [known]
      obtain text | svg | ⟨rfl, speaks⟩ := stands.flow_cases html stack
      · have others := other text
        simp_all
      · simp [opening, svg]
      · simp [opening, speaks]
    rw [applied, outside, if_neg Bool.false_ne_true, stands.stands.mode]

/-- The two tags that MathML keeps fall under its rules. -/
theorem StandsIn.applied_kept (stands : b.StandsIn setting .flow mode label path)
    (text : isMathTextPoint label.1 label.2 = true)
    (named : ["malignmark", "mglyph"].contains tag.name = true) :
    b.applied (.tag tag) = b.ruleForeign (.tag tag) := by
  obtain ⟨top, below, stack⟩ := stands.stands.exists_stack
  obtain ⟨vocabulary, name⟩ := label
  simp only [isMathTextPoint, Bool.and_eq_true, beq_iff_eq] at text
  obtain ⟨rfl, among⟩ := text
  have known := stands.stands.foreignLabel?_eq stack
  rw [if_neg (Vocabulary.noConfusion ·)] at known
  have plain : name ≠ "annotation-xml" := by
    rintro rfl
    cases among
  refine applied_of_isForeign ?_
  unfold isForeign
  rw [known]
  simp only [List.contains_cons, List.contains_nil, Bool.or_false, Bool.or_eq_true, beq_iff_eq]
    at named
  obtain named | named := named <;> cases closing : tag.closing <;>
    simp [isSvgPoint, named, closing, plain]

/-- Comments are added wherever the construction stands. -/
theorem StandsIn.applied_comment (stands : b.StandsIn setting area mode label path)
    (content : String) :
    b.applied (.comment content) = (b.appendComment content).done := by
  obtain ⟨vocabulary, name⟩ := label
  by_cases html : vocabulary = .html
  · subst html
    rw [stands.stands.applied_of_html]
    have among := Area.mem_of_isReadIn stands.reads
    fin_cases among <;> rfl
  · rw [stands.stands.applied_of_foreign html (.inl ⟨content, rfl⟩)]
    rfl

end Construction

end ServerPages.Markup
