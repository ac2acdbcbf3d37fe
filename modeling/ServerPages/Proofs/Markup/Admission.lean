import ServerPages.Proofs.Markup.Frames
import ServerPages.Proofs.Markup.Templates
import ServerPages.Proofs.Markup.Vocabularies

/-!
# Elements in their areas

An element that may stand in an area is taken there as what it is: it is added, or its text is read,
or its contents are read as an area of their own.
-/

namespace ServerPages.Markup

open Construction (outdatedNames headNames)

theorem Role.of_inside {role : Role} {vocabulary : Vocabulary} {area : Area}
    (inside : role.inside = some (vocabulary, .nodes area)) :
    (role.inside = some (.html, .nodes .flow) ∧ vocabulary = .html ∧ area = .flow) ∨
      (role = .table ∧ vocabulary = .html ∧ area = .table) ∨
      (role = .select ∧ vocabulary = .html ∧ area = .choices) ∨
      (role = .foreign vocabulary ∧ area = .foreign) := by
  cases role <;> cases inside <;> simp [Role.inside]

theorem Role.html_of_inside {role : Role} {vocabulary : Vocabulary} {inside : Inside}
    (held : role.inside = some (vocabulary, inside)) (plain : ∀ area, inside ≠ .nodes area) :
    vocabulary = .html := by
  cases role <;> cases held <;> first | rfl | exact absurd rfl (plain _)

/-- What an element holds that belongs into the head. -/
theorem Area.amongHead_cases {data : Element} {vocabulary : Vocabulary} {inside : Inside}
    (admitted : Area.amongHead data = some (vocabulary, inside)) :
    vocabulary = .html ∧ headNames.contains data.name = true ∧
      (data.name ∈ ["base", "link", "meta"] ∧ inside = .nothing ∨
        data.name ∈ ["basefont", "bgsound"] ∧ inside = .hollow ∨
        data.name = "title" ∧ inside = .text .escapable ∨
        data.name ∈ ["noframes", "style"] ∧ inside = .text .raw ∨
        data.name = "script" ∧ inside = .text .script ∨
        data.name = "template" ∧ inside = .template) := by
  have among {names : List String} (here : names.contains data.name = true)
      (sub : names.all headNames.contains = true) : headNames.contains data.name = true :=
    contains_of_all here sub
  unfold Area.amongHead at admitted
  split_ifs at admitted with leaf hollow title raw script template <;> cases admitted
  · exact ⟨rfl, among leaf rfl, .inl ⟨List.contains_iff_mem.mp leaf, rfl⟩⟩
  · exact ⟨rfl, among hollow rfl, .inr (.inl ⟨List.contains_iff_mem.mp hollow, rfl⟩)⟩
  · exact ⟨rfl, title ▸ rfl, .inr (.inr (.inl ⟨title, rfl⟩))⟩
  · exact ⟨rfl, among raw rfl, .inr (.inr (.inr (.inl ⟨List.contains_iff_mem.mp raw, rfl⟩)))⟩
  · exact ⟨rfl, script ▸ rfl, .inr (.inr (.inr (.inr (.inl ⟨script, rfl⟩))))⟩
  · exact ⟨rfl, template ▸ rfl, .inr (.inr (.inr (.inr (.inr ⟨template, rfl⟩))))⟩

theorem Area.within_ne_template (vocabulary : Vocabulary) (data : Element) :
    Area.within vocabulary data ≠ .template := by
  unfold Area.within
  split_ifs <;> decide

theorem Area.html_of_amongParts {path : List Label} {data : Element} {vocabulary : Vocabulary}
    {inside : Inside} (admitted : Area.amongParts path data = some (vocabulary, inside)) :
    vocabulary = .html := by
  unfold Area.amongParts at admitted
  split_ifs at admitted <;> cases admitted <;> rfl

/-- The tag of an element that shows what a template holds has its name. -/
theorem Area.openingName_of_admits {legacy : Bool} {path : List Label} {name : String}
    {data : Element} {vocabulary : Vocabulary} {inside : Inside}
    (admitted : (Area.ofTemplate name).admits legacy path data = some (vocabulary, inside))
    (spelled : Construction.Spelled vocabulary data) : (openingTag data).name = data.name := by
  have svg (same : vocabulary = .svg) : data.name = "svg" := by
    subst same
    have among := Construction.mem_ofTemplate name
    generalize Area.ofTemplate name = area at admitted among
    fin_cases among
    · have named := Role.mem_names_of data.name
      change (if _ then _ else if _ then _ else if _ then _ else _) = _ at admitted
      split_ifs at admitted <;> try cases admitted
      generalize Role.of data.name = role at admitted named
      cases role <;> cases admitted
      exact List.mem_singleton.mp (named.resolve_right nofun)
    all_goals
      dsimp only [Area.admits] at admitted
      split_ifs at admitted
      all_goals first | cases admitted | exact absurd (Area.html_of_amongParts admitted) (by decide)
  cases vocabulary with
  | html | math => exact spelled.name
  | svg =>
      change keptName data.name.toList = data.name
      rw [svg rfl]
      decide

namespace Construction

variable {b : Construction} {setting : Setting} {area : Area} {mode : Mode} {label : Label}
  {path : List Label} {top : NodeId} {below : List NodeId} {data : Element}
  {vocabulary : Vocabulary} {inside : Inside}

/-- What the tags of an element do in the construction, by what the element holds. -/
def Takes (setting : Setting) (top : NodeId) (vocabulary : Vocabulary) (data : Element)
    (path : List Label) (b : Construction) : Inside → Prop
  | .nothing => vocabulary = .html ∧ AddsLeaf top data b
  | .hollow => vocabulary = .html ∧ AddsHollow setting top data b
  | .text content => vocabulary = .html ∧ OpensText content data b
  | .nodes area => area ≠ .template ∧ ∃ next, Encloses setting area top vocabulary data path b next
  | .template => vocabulary = .html ∧ Shelters setting top data path b

/-! ## Where HTML flows -/

/-- An element of MathML where HTML flows in MathML. -/
theorem StandsIn.takes_kept (stands : b.StandsIn setting .flow mode label path)
    (puts : b.PutsIn top) (spelled : Spelled .math data)
    (text : isMathTextPoint label.1 label.2 = true)
    (named : data.name ∈ ["malignmark", "mglyph"]) :
    Takes setting top .math data (label :: path) b (.nodes .foreign) := by
  have math : label.1 = .math := by
    unfold isMathTextPoint at text
    simpa using (Bool.and_eq_true_iff.mp text).1
  have opened : (openingTag data).name = data.name := spelled.name
  have calm : breaksOut (openingTag data) = false ∧ Area.within .math data = .foreign := by
    unfold breaksOut Area.within
    rw [Tag.opens, Tag.opens, Tag.ends, opened]
    generalize data.name = name at named
    fin_cases named <;> exact ⟨rfl, rfl⟩
  rw [← math] at spelled
  have kept : b.attend.applied (.tag (openingTag data)) =
      b.attend.ruleForeign (.tag (openingTag data)) :=
    stands.attend.applied_kept text (opened.symm ▸ List.contains_iff_mem.mpr named)
  have encloses := encloses_within stands.stands puts stands.reads
    (by rw [math]; decide) spelled calm.1 kept
  rw [math, calm.2] at encloses
  exact ⟨by decide, encloses⟩

theorem StandsIn.takes_flow (stands : b.StandsIn setting .flow mode label path)
    (puts : b.PutsIn top) (spelled : Spelled vocabulary data)
    (admitted : Area.flow.admits setting.legacy (label :: path) data = some (vocabulary, inside)) :
    Takes setting top vocabulary data (label :: path) b inside := by
  change (if (isMathTextPoint label.1 label.2 && ["malignmark", "mglyph"].contains data.name) = true
    then _ else _) = _ at admitted
  by_cases other :
      (isMathTextPoint label.1 label.2 && ["malignmark", "mglyph"].contains data.name) =
      true
  · rw [if_pos other] at admitted
    cases admitted
    obtain ⟨text, named⟩ := Bool.and_eq_true_iff.mp other
    exact stands.takes_kept puts spelled text (List.contains_iff_mem.mp named)
  rw [if_neg other] at admitted
  simp only [Option.ite_none_left_eq_some, Option.ite_none_right_eq_some, Bool.and_eq_true, not_and,
    Bool.not_eq_true] at admitted other
  obtain ⟨known, alone, held⟩ := admitted
  cases inside with
  | nothing =>
      obtain rfl := Role.html_of_inside held nofun
      exact ⟨rfl, stands.addsLeaf_flow puts spelled other alone held⟩
  | hollow =>
      obtain rfl := Role.html_of_inside held nofun
      have outdated : Role.of data.name = .outdated := by
        generalize Role.of data.name = role at held
        cases role <;> cases held
        rfl
      exact ⟨rfl, stands.addsHollow_flow puts spelled other (Role.mem_names outdated nofun)
        (known (decide_eq_true outdated))⟩
  | text content =>
      obtain rfl := Role.html_of_inside held nofun
      exact ⟨rfl, stands.opensText_flow spelled other alone held⟩
  | template =>
      obtain rfl := Role.html_of_inside held nofun
      have template : Role.of data.name = .template := by
        generalize Role.of data.name = role at held
        cases role <;> cases held
        rfl
      exact ⟨rfl, stands.shelters trivial puts spelled
        (List.mem_singleton.mp (Role.mem_names template nofun))⟩
  | nodes area =>
      obtain ⟨flows, rfl, rfl⟩ | ⟨role, rfl, rfl⟩ | ⟨role, rfl, rfl⟩ | ⟨role, rfl⟩ :=
        Role.of_inside held
      · exact ⟨by decide, stands.encloses_flow puts spelled other alone flows⟩
      · rw [role] at alone
        exact ⟨by decide, stands.encloses_table puts spelled other alone
          (List.mem_singleton.mp (Role.mem_names role nofun))⟩
      · exact ⟨by decide, stands.encloses_select puts spelled other
          (List.mem_singleton.mp (Role.mem_names role nofun))⟩
      · exact ⟨by decide, stands.encloses_vocabulary puts spelled role⟩

/-! ## In other vocabularies -/

theorem StandsIn.takes_foreign (stands : b.StandsIn setting .foreign mode label path)
    (puts : b.PutsIn top) (spelled : Spelled vocabulary data)
    (admitted :
      Area.foreign.admits setting.legacy (label :: path) data = some (vocabulary, inside)) :
    Takes setting top vocabulary data (label :: path) b inside := by
  simp only [Area.admits, Option.ite_none_left_eq_some, Option.some.injEq, Prod.mk.injEq,
    Bool.not_eq_true] at admitted
  obtain ⟨calm, rfl, rfl⟩ := admitted
  have foreign : label.1 ≠ .html := by
    intro html
    have held := stands.held
    simp [Area.isHeldBy, html] at held
  exact ⟨Area.within_ne_template _ _,
    encloses_within stands.stands puts stands.reads foreign spelled calm
      (stands.attend.applied_foreign (by simp))⟩

theorem StandsIn.takes_notes (stands : b.StandsIn setting .notes mode label path)
    (puts : b.PutsIn top) (spelled : Spelled vocabulary data)
    (admitted : Area.notes.admits setting.legacy (label :: path) data =
      some (vocabulary, inside)) :
    Takes setting top vocabulary data (label :: path) b inside := by
  obtain rfl : label = (.math, "annotation-xml") := eq_of_beq stands.held
  dsimp only [Area.admits] at admitted
  split at admitted
  · cases admitted
  rename_i calm
  split at admitted
  · rename_i named
    cases admitted
    have role : Role.of data.name = .foreign .svg := by
      rw [named]
      decide
    have opened : (openingTag data).name = "svg" := by
      change keptName data.name.toList = "svg"
      rw [named]
      decide
    exact ⟨by decide, encloses_start stands.stands puts stands.reads spelled role
      (stands.attend.applied_notes_svg rfl opened)⟩
  · rename_i other
    cases admitted
    have opened : (openingTag data).name = data.name := spelled.name
    refine ⟨Area.within_ne_template _ _,
      encloses_within stands.stands puts stands.reads (by decide) spelled
        (Bool.eq_false_iff.mpr calm) (stands.attend.applied_notes (by simp) fun tag same => ?_)⟩
    cases same
    exact opened ▸ other

/-! ## In parts of tables -/

/-- Elements that may stand in any part of a table. -/
theorem StandsIn.takes_amongParts (stands : b.StandsIn setting area mode label path)
    (puts : b.PutsIn top) (spelled : Spelled vocabulary data)
    (tabular : area ∈ [Area.table, .rows, .cells])
    (admitted : Area.amongParts (label :: path) data = some (vocabulary, inside)) :
    Takes setting top vocabulary data (label :: path) b inside := by
  have standing := stands.stands.attend
  have held := stands.held
  have reads := stands.reads
  obtain ⟨among, ruled, holds, name, rfl⟩ : mode ∈ [Mode.inTable, .inTableBody, .inRow] ∧
      b.attend.applied (.tag (openingTag data)) = b.attend.rule mode (.tag (openingTag data)) ∧
      area.holdsTemplates (label :: path) ∧ ∃ name, label = (.html, name) := by
    obtain ⟨vocabulary, name⟩ := label
    simp only [List.mem_cons, List.not_mem_nil, or_false] at tabular
    obtain rfl | rfl | rfl := tabular <;> obtain rfl : mode = _ := reads
    all_goals
      cases vocabulary with
      | html => exact ⟨by decide, standing.applied_of_isIn held _, trivial, name, rfl⟩
      | svg | math => cases held
  unfold Area.amongParts at admitted
  split_ifs at admitted with style script template hidden form <;> cases admitted
  · exact ⟨rfl, opensText_of_openText (by rw [style]; rfl) (ruled.trans
      (rule_parts_text rfl among (.inl ⟨spelled.openingName.trans style, rfl⟩)))⟩
  · exact ⟨rfl, opensText_of_openText (by rw [script]; rfl) (ruled.trans
      (rule_parts_text rfl among (.inr ⟨spelled.openingName.trans script, rfl⟩)))⟩
  · exact ⟨rfl, stands.shelters holds puts spelled template⟩
  · simp only [Bool.and_eq_true, decide_eq_true_eq] at hidden
    refine ⟨rfl, addsLeaf_of_addFor stands.stands puts spelled (by simp [hidden.1]) (.inl ?_)⟩
    exact ruled.trans (rule_parts_leaf rfl among (spelled.openingName.trans hidden.1) hidden.2)
  · simp only [Bool.and_eq_true, decide_eq_true_eq, Bool.not_eq_true'] at form
    obtain ⟨⟨named, formless⟩, outside⟩ := form
    refine ⟨rfl, stands.stands.addsHollow_form among puts spelled named (fun inside => ?_) outside⟩
    exact List.any_eq_false.mp formless _ inside rfl

theorem StandsIn.takes_table (stands : b.StandsIn setting .table mode label path)
    (puts : b.PutsIn top) (spelled : Spelled vocabulary data)
    (admitted : Area.table.admits setting.legacy (label :: path) data = some (vocabulary, inside)) :
    Takes setting top vocabulary data (label :: path) b inside := by
  dsimp only [Area.admits] at admitted
  split at admitted
  · rename_i named
    cases admitted
    exact ⟨by decide, stands.encloses_caption puts spelled named⟩
  · split at admitted
    · rename_i named
      cases admitted
      exact ⟨by decide, stands.encloses_columns puts spelled named⟩
    · split at admitted
      · rename_i named
        cases admitted
        exact ⟨by decide, stands.encloses_section puts spelled (List.contains_iff_mem.mp named)⟩
      · exact stands.takes_amongParts puts spelled (by decide) admitted

theorem StandsIn.takes_rows (stands : b.StandsIn setting .rows mode label path)
    (puts : b.PutsIn top) (spelled : Spelled vocabulary data)
    (admitted : Area.rows.admits setting.legacy (label :: path) data = some (vocabulary, inside)) :
    Takes setting top vocabulary data (label :: path) b inside := by
  dsimp only [Area.admits] at admitted
  split at admitted
  · rename_i named
    cases admitted
    exact ⟨by decide, stands.encloses_row puts spelled named⟩
  · exact stands.takes_amongParts puts spelled (by decide) admitted

theorem StandsIn.takes_cells (stands : b.StandsIn setting .cells mode label path)
    (puts : b.PutsIn top) (spelled : Spelled vocabulary data)
    (admitted : Area.cells.admits setting.legacy (label :: path) data = some (vocabulary, inside)) :
    Takes setting top vocabulary data (label :: path) b inside := by
  dsimp only [Area.admits] at admitted
  split at admitted
  · rename_i named
    cases admitted
    exact ⟨by decide, stands.encloses_cell puts spelled (List.contains_iff_mem.mp named)⟩
  · exact stands.takes_amongParts puts spelled (by decide) admitted

theorem StandsIn.takes_columns (stands : b.StandsIn setting .columns mode label path)
    (puts : b.PutsIn top) (spelled : Spelled vocabulary data)
    (admitted :
      Area.columns.admits setting.legacy (label :: path) data = some (vocabulary, inside)) :
    Takes setting top vocabulary data (label :: path) b inside := by
  obtain rfl : mode = .inColumnGroup := stands.reads
  dsimp only [Area.admits] at admitted
  split_ifs at admitted with column template <;> cases admitted
  · refine ⟨rfl, addsLeaf_of_addFor stands.stands puts spelled (by simp [column]) (.inl ?_)⟩
    rw [stands.stands.attend.applied_of_isIn stands.held,
      rule_columns_leaf rfl (spelled.openingName.trans column)]
  · exact ⟨rfl, stands.shelters trivial puts spelled template⟩

/-! ## Elsewhere -/

theorem StandsIn.takes_choices (stands : b.StandsIn setting .choices mode label path)
    (puts : b.PutsIn top) (spelled : Spelled vocabulary data)
    (admitted :
      Area.choices.admits setting.legacy (label :: path) data = some (vocabulary, inside)) :
    Takes setting top vocabulary data (label :: path) b inside := by
  dsimp only [Area.admits] at admitted
  split_ifs at admitted with script template steady inOption option group <;> cases admitted
  · refine ⟨rfl, opensText_of_openText (by rw [script]; rfl) ?_⟩
    rw [stands.stands.attend.applied_of_isIn stands.held,
      rule_choices_text rfl stands.choosing (spelled.openingName.trans script)]
  · exact ⟨rfl, stands.shelters steady puts spelled template⟩
  · exact ⟨by decide,
      stands.encloses_choice puts spelled (.inl option) (Bool.eq_false_iff.mpr inOption)
        fun group => absurd (option.symm.trans group) (by decide)⟩
  · simp only [Bool.and_eq_true, decide_eq_true_eq, Bool.not_eq_true'] at group
    exact ⟨by decide, stands.encloses_choice puts spelled (.inr group.1)
      (Bool.eq_false_iff.mpr inOption) fun _ => group.2⟩

/-- Tags of elements that belong into the head fall under the rules of the head in a template. -/
theorem rule_template_head {tag : Tag} (opening : tag.closing = false)
    (among : headNames.contains tag.name = true) :
    b.rule .inTemplate (.tag tag) = b.rule .inHead (.tag tag) := by
  have opens : tag.opens headNames = true := by
    rw [Tag.opens, opening, among]
    rfl
  simp only [rule, ruleInTemplate, opens, Bool.true_or, if_true]

/-- Elements that belong into the head, in the head or in a template. -/
theorem StandsIn.takes_amongHead (stands : b.StandsIn setting area mode label path)
    (puts : b.PutsIn top) (spelled : Spelled vocabulary data)
    (known : area = .head ∨ area = .template)
    (admitted : Area.amongHead data = some (vocabulary, inside)) :
    Takes setting top vocabulary data (label :: path) b inside := by
  obtain ⟨rfl, among, kinds⟩ := Area.amongHead_cases admitted
  have opened := spelled.openingName
  have closed := spelled.closingName
  have held := stands.held
  have reads := stands.reads
  -- the rules of the head are for the opening tag in both areas
  obtain ⟨modes, isIn, holds⟩ : (mode = .inHead ∨ mode = .inTemplate) ∧
      (∃ names, label.isIn names = true) ∧ area.holdsTemplates (label :: path) := by
    obtain rfl | rfl := known
    · exact ⟨.inl reads.1, ⟨_, held⟩, trivial⟩
    · exact ⟨.inr reads, ⟨_, held⟩, trivial⟩
  obtain ⟨names, isIn⟩ := isIn
  have ruled : b.attend.applied (.tag (openingTag data)) =
      b.attend.rule .inHead (.tag (openingTag data)) := by
    rw [stands.stands.attend.applied_of_isIn isIn]
    obtain rfl | rfl := modes
    · rfl
    · exact rule_template_head rfl (opened.symm ▸ among)
  obtain ⟨named, rfl⟩ | ⟨named, rfl⟩ | ⟨named, rfl⟩ | ⟨named, rfl⟩ | ⟨named, rfl⟩ | ⟨named, rfl⟩ :=
    kinds
  · refine ⟨rfl, addsLeaf_of_addFor stands.stands puts spelled ?_ (.inl (ruled.trans ?_))⟩
    · rintro template
      rw [template] at named
      exact absurd named (by decide)
    · exact rule_head_leaf rfl (opened.symm ▸ named)
  · refine ⟨rfl, addsHollow_of_addFor stands puts spelled ?_ (.inl (ruled.trans ?_))
      fun next stands => ?_⟩
    · rintro template
      rw [template] at named
      exact absurd named (by decide)
    · exact rule_head_hollow rfl (opened.symm ▸ named)
    · rw [stands.stands.applied_of_isIn isIn, rule_outdated_closing rfl modes (closed.symm ▸ named)]
  · exact ⟨rfl, opensText_of_openText (by rw [named]; rfl) (ruled.trans
      (rule_head_text rfl (.inl ⟨opened.trans named, rfl⟩)))⟩
  · refine ⟨rfl, opensText_of_openText ?_ (ruled.trans
      (rule_head_text rfl (.inr (.inl ⟨?_, rfl⟩))))⟩
    · generalize data.name = name at named
      fin_cases named <;> rfl
    · rw [opened]
      generalize data.name = name at named
      fin_cases named <;> decide
  · exact ⟨rfl, opensText_of_openText (by rw [named]; rfl) (ruled.trans
      (rule_head_text rfl (.inr (.inr ⟨opened.trans named, rfl⟩))))⟩
  · exact ⟨rfl, stands.shelters holds puts spelled named⟩

theorem StandsIn.takes_head (stands : b.StandsIn setting .head mode label path)
    (puts : b.PutsIn top) (spelled : Spelled vocabulary data)
    (admitted : Area.head.admits setting.legacy (label :: path) data = some (vocabulary, inside)) :
    Takes setting top vocabulary data (label :: path) b inside := by
  dsimp only [Area.admits] at admitted
  split at admitted
  · rename_i named
    cases admitted
    obtain ⟨rfl, _⟩ : mode = .inHead ∧ _ := stands.reads
    refine ⟨rfl, opensText_of_openText (by rw [named]; rfl) ?_⟩
    rw [stands.stands.attend.applied_of_isIn stands.held, rule_head_text rfl
      (.inr (.inl ⟨by rw [spelled.openingName, named]; decide, rfl⟩))]
  · exact stands.takes_amongHead puts spelled (.inl rfl) admitted

theorem StandsIn.takes_frames (stands : b.StandsIn setting .frames mode label path)
    (puts : b.PutsIn top) (spelled : Spelled vocabulary data)
    (admitted :
      Area.frames.admits setting.legacy (label :: path) data = some (vocabulary, inside)) :
    Takes setting top vocabulary data (label :: path) b inside := by
  dsimp only [Area.admits] at admitted
  split_ifs at admitted with frameset frame text <;> cases admitted
  · exact ⟨by decide, stands.encloses_frameset puts spelled frameset⟩
  · exact ⟨rfl, stands.addsHollow_frame puts spelled frame⟩
  · exact ⟨rfl, stands.opensText_noframes (.inl rfl) spelled text⟩

/-- An element that may stand in an area is taken there. -/
theorem StandsIn.takes (stands : b.StandsIn setting area mode label path)
    (puts : b.PutsIn top) (spelled : Spelled vocabulary data)
    (admitted : area.admits setting.legacy (label :: path) data = some (vocabulary, inside)) :
    Takes setting top vocabulary data (label :: path) b inside := by
  cases area with
  | head => exact stands.takes_head puts spelled admitted
  | gap => cases admitted
  | flow => exact stands.takes_flow puts spelled admitted
  | foreign => exact stands.takes_foreign puts spelled admitted
  | notes => exact stands.takes_notes puts spelled admitted
  | table => exact stands.takes_table puts spelled admitted
  | rows => exact stands.takes_rows puts spelled admitted
  | cells => exact stands.takes_cells puts spelled admitted
  | columns => exact stands.takes_columns puts spelled admitted
  | choices => exact stands.takes_choices puts spelled admitted
  | template => exact stands.takes_amongHead puts spelled (.inr rfl) admitted
  | frames => exact stands.takes_frames puts spelled admitted
  | late =>
      dsimp only [Area.admits] at admitted
      split_ifs at admitted with text
      cases admitted
      exact ⟨rfl, stands.opensText_noframes (.inr rfl) spelled text⟩

end Construction

end ServerPages.Markup
