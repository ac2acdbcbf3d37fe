import ServerPages.Proofs.Markup.Areas

/-!
# What the tags of an element do

In the area that an element may stand in, its opening tag adds it and does nothing else: an element
without contents is added, one that holds text is opened for its text, and any other is opened and
its contents are read as their own area. Its closing tag then takes the construction back to where
it stood.
-/

namespace ServerPages.Markup.Construction

variable {b next inner : Construction} {setting : Setting} {area : Area} {mode : Mode}
  {label : Label} {path : List Label} {top : NodeId} {below : List NodeId} {data : Element}
  {vocabulary : Vocabulary}

/-- The opening tag of an element without contents adds it. -/
def AddsLeaf (top : NodeId) (data : Element) (b : Construction) : Prop :=
  ∃ framesetOk, b.attend.applied (.tag (openingTag data)) =
    { b.attend.add top (.element .html data.name
        (Vocabulary.html.attributes (openingTag data).attributes) none) with framesetOk }.done

/-- The opening tag of an element that holds text opens it for that. -/
def OpensText (content : Content) (data : Element) (b : Construction) : Prop :=
  tellingNames.contains data.name = false ∧
  ∃ framesetOk dropLineFeed, (dropLineFeed = true → data.name = "textarea") ∧
    b.attend.applied (.tag (openingTag data)) =
      { b.attend with framesetOk, dropLineFeed }.openText (openingTag data) content

/-- Within an element nothing has changed since it was opened but what was read. -/
structure Within (setting : Setting) (area : Area) (label : Label) (path : List Label)
    (opened inner : Construction) : Prop where
  standsIn : inner.StandsIn setting area opened.mode label path
  stack : inner.stack = opened.stack
  form : inner.form = opened.form
  fades : Fades opened.formatting inner.formatting

/-- After an element everything is as it was before it, but for what was read. -/
structure Returns (setting : Setting) (start inner last : Construction) : Prop where
  idle : last.Idle setting
  forest : last.forest = inner.forest
  mode : last.mode = start.mode
  stack : last.stack = start.stack
  form : last.form = start.form
  fades : Fades start.formatting last.formatting
  lineFeed : last.dropLineFeed = false

/-- The opening tag of an element opens it, its contents are read as an area, and its closing tag
leads back. -/
structure Encloses (setting : Setting) (area : Area) (top : NodeId) (vocabulary : Vocabulary)
    (data : Element) (path : List Label) (start opened : Construction) : Prop where
  opening : start.attend.applied (.tag (openingTag data)) = opened.done
  opens : Opens setting top vocabulary data start opened
  standsIn : opened.StandsIn setting area opened.mode (vocabulary, data.name) path
  lineFeed : opened.dropLineFeed = true → Subtree.dropsLineFeed vocabulary data.name = true
  closing : ∀ inner, Within setting area (vocabulary, data.name) path opened inner →
    ∃ last, inner.attend.applied (.tag (closingTag data)) = last.done ∧
      Returns setting start inner last

theorem StandsIn.attend (stands : b.StandsIn setting area mode label path) :
    b.attend.StandsIn setting area mode label path :=
  ⟨stands.stands.attend, stands.held, stands.reads, stands.templates, stands.annotates⟩

theorem html_ne_note {name : String} : ¬ isNote (.html, name) = true := nofun

/-- In an HTML element that is no template the construction stands in an area if it stands there. -/
theorem Stands.standsIn_html {name : String}
    (stands : b.Stands setting mode ((.html, name) :: path))
    (held : area.isHeldBy (.html, name) = true)
    (reads : area.IsReadIn setting.modes ((.html, name) :: path) mode)
    (plain : name ≠ "template") : b.StandsIn setting area mode (.html, name) path :=
  ⟨stands, held, reads, fun template => absurd (Prod.mk.inj template).2 plain,
    fun note => absurd note html_ne_note⟩

theorem Opens.of_attend (opens : Opens setting top vocabulary data b.attend next) :
    Opens setting top vocabulary data b next :=
  ⟨opens.idle, opens.forest, opens.stack⟩

/-- The latest open element within an element is that element. -/
theorem Within.current (within : Within setting area (.html, data.name) path next inner)
    (opens : Opens setting top .html data b next) :
    inner.Current ⟨b.forest.size⟩ b.stack data.name := by
  have stack := within.stack.trans opens.stack
  exact ⟨stack, within.standsIn.stands.top_label? stack⟩

theorem Within.attend {label : Label} (within : Within setting area label path next inner) :
    Within setting area label path next inner.attend :=
  ⟨within.standsIn.attend, within.stack, within.form, within.fades⟩

/-! ## The body -/

theorem not_contains_of_inside {name : String} {held : Option (Vocabulary × Inside)}
    (inside : (Role.of name).inside = held) {names : List String}
    (others : names.all (fun name => (Role.of name).inside != held) = true) :
    names.contains name = false := by
  rw [Bool.eq_false_iff]
  intro among
  have other := List.all_eq_true.mp others name (List.contains_iff_mem.mp among)
  rw [inside] at other
  simp at other

/-- Opening tags fall under the rules of the body wherever something flows. -/
theorem rule_flow_opening {modes : List Mode} (flows : flowMode modes path = some mode) {tag : Tag}
    (opening : tag.closing = false) (placed : misplacedNames.contains tag.name = false) :
    b.rule mode (.tag tag) = b.ruleBodyOpen tag := by
  have opens (names : List String) (sub : names.all misplacedNames.contains = true) :
      tag.opens names = false := by
    rw [Tag.opens, contains_eq_false placed sub, Bool.and_false]
  have ends (names : List String) : tag.ends names = false := by
    rw [Tag.ends, opening, Bool.false_and]
  have body : b.ruleInBody (.tag tag) = b.ruleBodyOpen tag := by
    rw [ruleInBody, opening, if_neg Bool.false_ne_true]
  have among := mem_of_flowMode flows
  fin_cases among
  · exact body
  · refine Eq.trans ?_ body
    rw [rule, ruleInCaption, opens _ rfl, ends, Bool.or_self, if_neg Bool.false_ne_true, ends,
      if_neg Bool.false_ne_true]
  · refine Eq.trans ?_ body
    rw [rule, ruleInCell, ends, if_neg Bool.false_ne_true, opens _ rfl, if_neg Bool.false_ne_true,
      ends, if_neg Bool.false_ne_true, ends, if_neg Bool.false_ne_true]

theorem rule_flow_closing {modes : List Mode} (flows : flowMode modes path = some mode) {tag : Tag}
    (closing : tag.closing = true)
    (placed : (misplacedNames ++ ["body", "html", "table"]).contains tag.name = false) :
    b.rule mode (.tag tag) = b.ruleBodyClose tag := by
  have opens (names : List String) : tag.opens names = false := by
    rw [Tag.opens, closing, Bool.not_true, Bool.false_and]
  have ends (names : List String)
      (sub : names.all (misplacedNames ++ ["body", "html", "table"]).contains = true) :
      tag.ends names = false := by
    rw [Tag.ends, contains_eq_false placed sub, Bool.and_false]
  have body : b.ruleInBody (.tag tag) = b.ruleBodyClose tag := by
    rw [ruleInBody, closing, if_pos rfl]
  have among := mem_of_flowMode flows
  fin_cases among
  · exact body
  · refine Eq.trans ?_ body
    rw [rule, ruleInCaption, opens, ends _ rfl, Bool.or_self, if_neg Bool.false_ne_true, ends _ rfl,
      if_neg Bool.false_ne_true]
  · refine Eq.trans ?_ body
    rw [rule, ruleInCell, ends _ rfl, if_neg Bool.false_ne_true, opens, if_neg Bool.false_ne_true,
      ends _ rfl, if_neg Bool.false_ne_true, ends _ rfl, if_neg Bool.false_ne_true]

theorem not_has_new (stands : b.Stands setting mode path) (tag : Tag) :
    .element ⟨b.forest.size⟩ tag ∉ b.formatting :=
  fun member => Forest.not_has_size b.forest (stands.older _ tag member)

/-- The tags of an element that flows in the body. -/
theorem StandsIn.encloses_flow (stands : b.StandsIn setting .flow mode label path)
    (puts : b.PutsIn top) (spelled : Spelled .html data)
    (other : isMathTextPoint label.1 label.2 = true →
      ["malignmark", "mglyph"].contains data.name = false)
    (alone : (Role.of data.name).staysAlone setting.legacy (label :: path) = true)
    (inside : (Role.of data.name).inside = some (.html, .nodes .flow)) :
    ∃ next, Encloses setting .flow top .html data (label :: path) b next := by
  have standing := stands.stands.attend
  have named : (openingTag data).name = data.name := spelled.name
  obtain ⟨next, rule, enters⟩ := standing.enters_body puts rfl spelled alone inside
  have opens := enters.opens.of_attend
  have kept : next.mode = mode := enters.mode.trans stands.stands.mode
  have sheltered : b.attend.hasOpen "template" = Role.inTemplate (label :: path) :=
    standing.hasOpen_template
  have pointer : next.form = if data.name = "form" ∧ Role.inTemplate (label :: path) = false then
      some ⟨b.forest.size⟩ else b.form := by
    rw [enters.form, sheltered]
    simp only [Prod.mk.injEq, true_and]
    rfl
  -- where a form may stand, no other one is open
  have free (isForm : data.name = "form") (outside : Role.inTemplate (label :: path) = false) :
      b.form = none := by
    refine stands.stands.form fun within => ?_
    rw [isForm] at alone
    have other : Role.inForm (label :: path) = false := Role.not_endsOther alone
    rw [Role.inForm, outside, Bool.not_false, Bool.and_true] at other
    exact List.any_eq_false.mp other _ within rfl
  have known : Label.isIn outdatedNames (.html, data.name) = false :=
    not_contains_of_inside inside (by decide)
  have plain : data.name ≠ "template" := by
    intro template
    rw [template] at inside
    cases inside
  have within : next.Stands setting next.mode ((.html, data.name) :: label :: path) := by
    refine stands.stands.inside (stands.stands.has_spot puts) opens enters.remembers
      (fun outside => ?_) known
    rw [List.mem_cons, not_or] at outside
    rw [pointer, if_neg fun form => outside.1 (by rw [form.1])]
    exact stands.stands.form outside.2
  have flows : flowMode setting.modes ((.html, data.name) :: label :: path) = some next.mode := by
    have other : Area.frameNames.contains data.name = false :=
      not_contains_of_inside inside (by decide)
    rw [flowMode_html other, kept]
    exact stands.reads
  refine ⟨next, ?_, opens, within.standsIn_html rfl flows plain, enters.lineFeed,
    fun inner within => ?_⟩
  · have placed : misplacedNames.contains (openingTag data).name = false := by
      rw [named]
      exact not_contains_of_inside inside (by decide)
    rw [stands.attend.applied_open rfl (fun text => named ▸ other text),
      rule_flow_opening stands.reads rfl placed, rule]
  · have current := within.attend.current opens
    obtain ⟨last, rule, leaves⟩ := within.attend.standsIn.stands.leaves_body current
      (show (closingTag data).name = data.name from spelled.name) inside enters.remembers
      within.fades (not_has_new standing) (within.form.trans pointer) free
    have placed : (misplacedNames ++ ["body", "html", "table"]).contains (closingTag data).name =
        false := by
      rw [show (closingTag data).name = data.name from spelled.name]
      exact not_contains_of_inside inside (by decide)
    refine ⟨last, ?_, ⟨leaves.idle, leaves.forest, ?_, leaves.stack, leaves.form, leaves.fades,
      leaves.lineFeed⟩⟩
    · rw [within.attend.standsIn.stands.applied_of_html, rule_flow_closing flows rfl placed, rule]
    · rw [leaves.mode, within.attend.standsIn.stands.mode, kept, stands.stands.mode]

end ServerPages.Markup.Construction
