import Mathlib.Tactic.FinCases
import ServerPages.Proofs.Document.Conforming
import ServerPages.Proofs.Markup.Feeding

/-!
# Closing the latest element

Whatever else a closing tag may close, the tag of the latest open element closes that and nothing
more, and formatting elements are remembered as they were before it was opened.
-/

namespace ServerPages.Markup.Construction

variable {b : Construction} {id : NodeId} {below : List NodeId} {name : String}

structure Current (b : Construction) (id : NodeId) (below : List NodeId) (name : String) :
    Prop where
  stack : b.stack = id :: below
  label : b.label? id = some (.html, name)

def leave (b : Construction) (below : List NodeId) : Construction :=
  { b with stack := below }

namespace Current

variable (current : b.Current id below name)
include current

theorem isIn (names : List String) : b.isIn names id = names.contains name :=
  isIn_of_label? current.label names

theorem isNamed : b.isNamed name id = true := by
  rw [Construction.isNamed, current.isIn]
  simp

theorem currentIn (names : List String) : b.currentIn names = names.contains name := by
  rw [Construction.currentIn, current.stack, List.head?_cons, Option.map_some, Option.getD_some,
    current.isIn]

theorem hasInScopeIn {names : List String} (inside : names.contains name = true) (scope : Scope) :
    b.hasInScopeIn scope names = true := by
  rw [Construction.hasInScopeIn, hasInScope, current.stack, hasInScope.search, current.isIn, inside,
    Bool.true_or]

theorem hasInScopeNamed (scope : Scope) : b.hasInScopeNamed scope name = true :=
  current.hasInScopeIn (by simp) scope

theorem pop : b.pop = b.leave below := by
  rw [Construction.pop, current.stack]
  rfl

theorem popThrough {names : List String} (inside : names.contains name = true) :
    b.popThrough names = b.leave below := by
  rw [Construction.popThrough, current.stack,
    List.dropWhile_cons_of_neg (by rw [current.isIn, inside]; decide)]
  rfl

theorem popDownTo {names : List String} (inside : names.contains name = true) :
    b.popDownTo names = b := by
  rw [Construction.popDownTo, current.stack,
    List.dropWhile_cons_of_neg (by rw [current.isIn, inside]; decide), ← current.stack]

theorem closeImplied (stays : impliedNames.contains name = false) : b.closeImplied = b := by
  rw [Construction.closeImplied, current.stack,
    List.dropWhile_cons_of_neg (by rw [current.isIn, stays]; decide), ← current.stack]

theorem closeImpliedExcept (stays : (impliedNames.erase name).contains name = false) :
    b.closeImpliedExcept name = b := by
  rw [Construction.closeImpliedExcept, current.stack,
    List.dropWhile_cons_of_neg (by rw [current.isIn, stays]; decide), ← current.stack]

theorem endBlock (stays : impliedNames.contains name = false) :
    b.endBlock name = b.leave below := by
  rw [Construction.endBlock, if_pos (current.hasInScopeNamed .element), current.closeImplied stays,
    current.popThrough (by simp)]

theorem closeParagraph (paragraph : name = "p") : b.closeParagraph = b.leave below := by
  subst paragraph
  rw [Construction.closeParagraph, current.closeImpliedExcept rfl, current.popThrough rfl]

theorem endForm (outside : b.hasOpen "template" = false) (form : name = "form")
    (points : b.form = some id) : b.endForm = { b.leave below with form := none } := by
  subst form
  have inScope : hasInScope { b with form := none } .element (· = id) = true := by
    rw [hasInScope, show Construction.stack { b with form := none } = b.stack from rfl,
      current.stack, hasInScope.search]
    simp
  have still : Current { b with form := none } id below "form" := ⟨current.stack, current.label⟩
  rw [Construction.endForm, outside, if_neg Bool.false_ne_true, points]
  dsimp only
  rw [inScope, if_pos rfl, still.closeImplied rfl, removeOpen, current.stack, List.erase_cons_head]
  rfl

/-- In a template the closing tag of a form closes the latest one. -/
theorem endForm_inTemplate (inside : b.hasOpen "template" = true) (form : name = "form") :
    b.endForm = b.leave below := by
  subst form
  rw [Construction.endForm, inside, if_pos rfl, current.hasInScopeNamed, if_pos rfl,
    current.closeImplied rfl, current.popThrough rfl]

theorem closeOther : b.closeOther name = b.leave below := by
  have found : b.stack.find? (fun id => b.isNamed name id || b.isIn specialNames id) = some id := by
    rw [current.stack, List.find?_cons_of_pos (by simp [current.isNamed])]
  unfold Construction.closeOther
  dsimp only
  rw [found]
  dsimp only
  rw [if_pos current.isNamed, current.stack, List.dropWhile_cons_of_neg (by simp)]
  rfl

/-! ## Formatting elements -/

theorem closeFormatting_of_forgotten (forgotten : b.isFormatting id = false) :
    b.closeFormatting name = b.leave below := by
  unfold Construction.closeFormatting
  split
  · rename_i first rest stack
    obtain ⟨rfl, rfl⟩ : first = id ∧ rest = below := by
      rw [current.stack] at stack
      simpa [eq_comm] using stack
    rw [current.isNamed, forgotten, Bool.not_false, Bool.and_true, if_pos rfl, current.pop]
  · rename_i stack
    rw [current.stack] at stack
    cases stack

/-- The latest formatting element is the latest open element: it is forgotten and closed. -/
theorem closeFormatting_of_latest {tag : Tag} {rest : List Formatting}
    (formatting : b.formatting = .element id tag :: rest) (tagged : tag.name = name) :
    b.closeFormatting name = { b.leave below with formatting := rest } := by
  have remembered : b.isFormatting id = true := by
    rw [isFormatting, formatting, List.any_cons, Formatting.isOf, decide_eq_true rfl, Bool.true_or]
  have inScope : b.hasInScope .element (· = id) = true := by
    rw [hasInScope, current.stack, hasInScope.search]
    simp
  have once : b.adoptOnce name = ({ b.leave below with formatting := rest }, false) := by
    have contains : b.stack.contains id = true := by
      rw [current.stack]
      simp
    have above : b.stack.takeWhile (· ≠ id) = [] := by
      rw [current.stack, List.takeWhile_cons_of_neg (by simp)]
    have under : (b.stack.dropWhile (· ≠ id)).tail = below := by
      rw [current.stack, List.dropWhile_cons_of_neg (by simp), List.tail_cons]
    have forgets : b.forget id = { b with formatting := rest } := by
      rw [forget, formatting, List.eraseP_cons_of_pos (by simp [Formatting.isOf])]
    unfold adoptOnce
    extract_lets found
    have known : found = some (id, tag) := by
      subst found
      rw [sinceMarker, formatting, List.takeWhile_cons_of_pos rfl, List.findSome?_cons]
      dsimp only
      rw [if_pos tagged]
    rw [known]
    dsimp only
    rw [contains, Bool.not_true, if_neg Bool.false_ne_true, inScope, Bool.not_true,
      if_neg Bool.false_ne_true, above, under, forgets]
    rfl
  unfold Construction.closeFormatting
  split
  · rename_i first others stack
    obtain ⟨rfl, rfl⟩ : first = id ∧ others = below := by
      rw [current.stack] at stack
      simpa [eq_comm] using stack
    rw [remembered, Bool.not_true, Bool.and_false, if_neg Bool.false_ne_true, adopt, once]
  · rename_i stack
    rw [current.stack] at stack
    cases stack

end Current

/-! ## Rules by role -/

section

variable {tag : Tag} (current : b.Current id below tag.name)
include current

theorem ruleBodyClose_block (named : tag.name ∈ Role.block.names) :
    b.ruleBodyClose tag = (b.leave below).done := by
  have rule : (impliedNames.contains tag.name = false ∧
        b.ruleBodyClose tag = (b.endBlock tag.name).done) ∨
      (tag.name = "p" ∧ b.ruleBodyClose tag = (if b.hasInScopeNamed .button "p" then b
        else b.openImplied "p").closeParagraph.done) := by
    clear current
    obtain ⟨closing, name, selfClosing, attributes⟩ := tag
    fin_cases named <;> first | exact .inl ⟨rfl, rfl⟩ | exact .inr ⟨rfl, rfl⟩
  obtain ⟨stays, rule⟩ | ⟨paragraph, rule⟩ := rule
  · rw [rule, current.endBlock stays]
  · have inScope := current.hasInScopeNamed .button
    rw [paragraph] at inScope
    rw [rule, inScope, if_pos rfl, current.closeParagraph paragraph]

theorem ruleBodyClose_heading (named : tag.name ∈ Role.heading.names) :
    b.ruleBodyClose tag = (b.leave below).done := by
  have rule : b.ruleBodyClose tag = (if b.hasInScopeIn .element headingNames then
        b.closeImplied.popThrough headingNames else b).done ∧
      impliedNames.contains tag.name = false ∧ headingNames.contains tag.name = true := by
    clear current
    obtain ⟨closing, name, selfClosing, attributes⟩ := tag
    fin_cases named <;> exact ⟨rfl, rfl, rfl⟩
  obtain ⟨rule, stays, among⟩ := rule
  rw [rule, current.hasInScopeIn among, if_pos rfl, current.closeImplied stays,
    current.popThrough among]

theorem ruleBodyClose_endBlock (named : tag.name ∈ Role.preformatted.names ++ Role.button.names) :
    b.ruleBodyClose tag = (b.leave below).done := by
  have rule : b.ruleBodyClose tag = (b.endBlock tag.name).done ∧
      impliedNames.contains tag.name = false := by
    clear current
    obtain ⟨closing, name, selfClosing, attributes⟩ := tag
    fin_cases named <;> exact ⟨rfl, rfl⟩
  rw [rule.1, current.endBlock rule.2]

omit current in
theorem ruleBodyClose_form (named : tag.name = "form") : b.ruleBodyClose tag = b.endForm.done := by
  obtain ⟨closing, name, selfClosing, attributes⟩ := tag
  obtain rfl : name = "form" := named
  rfl

theorem ruleBodyClose_item (named : tag.name ∈ Role.item.names ++ Role.term.names) :
    b.ruleBodyClose tag = (b.leave below).done := by
  have rule : (∃ scope, b.ruleBodyClose tag = (if b.hasInScopeNamed scope tag.name then
        (b.closeImpliedExcept tag.name).popThrough [tag.name] else b).done) ∧
      (impliedNames.erase tag.name).contains tag.name = false := by
    clear current
    obtain ⟨closing, name, selfClosing, attributes⟩ := tag
    fin_cases named <;> exact ⟨⟨_, rfl⟩, rfl⟩
  obtain ⟨⟨scope, rule⟩, stays⟩ := rule
  rw [rule, current.hasInScopeNamed, if_pos rfl, current.closeImpliedExcept stays,
    current.popThrough (by simp)]

omit current in
theorem ruleBodyClose_formatting (named : tag.name ∈ ["a", "nobr"] ++ formattingNames) :
    b.ruleBodyClose tag = (b.closeFormatting tag.name).done := by
  obtain ⟨closing, name, selfClosing, attributes⟩ := tag
  fin_cases named <;> rfl

theorem ruleBodyClose_object (named : tag.name ∈ Role.object.names) :
    b.ruleBodyClose tag = (b.leave below).unmark.done := by
  have rule : b.ruleBodyClose tag = (if b.hasInScopeNamed .element tag.name then
        (b.closeImplied.popThrough [tag.name]).unmark else b).done ∧
      impliedNames.contains tag.name = false := by
    clear current
    obtain ⟨closing, name, selfClosing, attributes⟩ := tag
    fin_cases named <;> exact ⟨rfl, rfl⟩
  rw [rule.1, current.hasInScopeNamed, if_pos rfl, current.closeImplied rule.2,
    current.popThrough (by simp)]

theorem ruleBodyClose_other
    (named : tag.name ∈ Role.choice.names ++ Role.rubyBase.names ++ Role.rubyText.names) :
    b.ruleBodyClose tag = (b.leave below).done := by
  have rule : b.ruleBodyClose tag = (b.closeOther tag.name).done := by
    clear current
    obtain ⟨closing, name, selfClosing, attributes⟩ := tag
    fin_cases named <;> rfl
  rw [rule, current.closeOther]

theorem ruleBodyClose_ordinary (ordinary : Role.of tag.name = .ordinary) :
    b.ruleBodyClose tag = (b.leave below).done := by
  have out (names : List String) (others : names.all (Role.of · != .ordinary) = true) :
      ¬ names.contains tag.name = true :=
    Bool.eq_false_iff.mp (Role.not_contains ordinary others)
  have unformatted : ¬ (tag.name = "a" || tag.name = "nobr" || formattingNames.contains tag.name) =
      true := by
    rw [Bool.not_eq_true, Bool.or_eq_false_iff, Bool.or_eq_false_iff]
    exact ⟨⟨decide_eq_false (Role.ne_of_role ordinary rfl),
      decide_eq_false (Role.ne_of_role ordinary rfl)⟩, Bool.eq_false_iff.mpr (out _ rfl)⟩
  unfold ruleBodyClose
  dsimp only
  repeat rw [if_neg (by
    first | exact Role.ne_of_role ordinary rfl | exact out _ rfl | exact unformatted)]
  rw [current.closeOther]

/-- The closing tag of an element of most roles closes the element and does nothing else. -/
theorem ruleBodyClose_leave {role : Role} (same : Role.of tag.name = role)
    (closes : role ∈ [.block, .heading, .preformatted, .button, .item, .term, .choice, .rubyBase,
      .rubyText, .ordinary]) :
    b.ruleBodyClose tag = (b.leave below).done := by
  cases role with
  | block => exact ruleBodyClose_block current (Role.mem_names same nofun)
  | heading => exact ruleBodyClose_heading current (Role.mem_names same nofun)
  | preformatted =>
      exact ruleBodyClose_endBlock current (List.mem_append_left _ (Role.mem_names same nofun))
  | button =>
      exact ruleBodyClose_endBlock current (List.mem_append_right _ (Role.mem_names same nofun))
  | item => exact ruleBodyClose_item current (List.mem_append_left _ (Role.mem_names same nofun))
  | term => exact ruleBodyClose_item current (List.mem_append_right _ (Role.mem_names same nofun))
  | choice =>
      have named := List.mem_append_left Role.rubyBase.names (Role.mem_names same nofun)
      exact ruleBodyClose_other current (List.mem_append_left _ named)
  | rubyBase =>
      have named := List.mem_append_right Role.choice.names (Role.mem_names same nofun)
      exact ruleBodyClose_other current (List.mem_append_left _ named)
  | rubyText =>
      exact ruleBodyClose_other current (List.mem_append_right _ (Role.mem_names same nofun))
  | ordinary => exact ruleBodyClose_ordinary current same
  | _ => simp at closes

end

/-! ## Leaving an element -/

/-- The latest open element was closed, formatting elements are remembered as before it, and the
rest is as it was. -/
structure Leaves (setting : Setting) (entries : List Formatting) (form : Option NodeId)
    (below : List NodeId) (before after : Construction) : Prop where
  idle : after.Idle setting
  forest : after.forest = before.forest
  mode : after.mode = before.mode
  stack : after.stack = below
  form : after.form = form
  fades : Fades entries after.formatting
  lineFeed : after.dropLineFeed = before.dropLineFeed

variable {setting : Setting} {mode : Mode} {path : List Label} {entries opened : List Formatting}
  {form : Option NodeId} {tag : Tag}

theorem leaves_leave (idle : b.Idle setting) (fades : Fades entries b.formatting) :
    Leaves setting entries b.form below b (b.leave below) :=
  ⟨{ idle with }, rfl, rfl, rfl, rfl, fades, rfl⟩

/-- After the mark that an element set, everything is forgotten with the mark. -/
theorem leaves_unmark (idle : b.Idle setting) (marked : b.formatting = .marker :: entries) :
    Leaves setting entries b.form below b (b.leave below).unmark := by
  refine ⟨{ idle with }, rfl, rfl, rfl, rfl, ?_, rfl⟩
  have unmarked : (b.leave below).unmark.formatting = entries := by
    rw [unmark, show (b.leave below).formatting = b.formatting from rfl, marked,
      List.dropWhile_cons_of_neg (by simp [Formatting.isMarker]), List.tail_cons]
  rw [unmarked]
  exact .refl _

theorem isFormatting_eq_false (absent : ∀ tag, .element id tag ∉ b.formatting) :
    b.isFormatting id = false := by
  rw [isFormatting, List.any_eq_false]
  intro entry member same
  cases entry with
  | marker => cases same
  | element other tag =>
      obtain rfl : other = id := of_decide_eq_true same
      exact absent tag member

/-- The closing tag of a formatting element closes it, remembered or not. -/
theorem leaves_closeFormatting (idle : b.Idle setting) (current : b.Current id below name)
    (remembers : Remembers entries id (.html, name) opened) (fades : Fades opened b.formatting)
    (unmarked : Label.isIn markNames (.html, name) = false)
    (new : ∀ tag, .element id tag ∉ entries) :
    Leaves setting entries b.form below b (b.closeFormatting name) := by
  cases remembers with
  | mark marked =>
      rw [marked] at unmarked
      cases unmarked
  | same =>
      have absent := fun tag member => new tag (fades.sublist.mem member)
      rw [current.closeFormatting_of_forgotten (isFormatting_eq_false absent)]
      exact leaves_leave idle fades
  | @entry tag fewer _ _ named weaker =>
      obtain ⟨kept, sub, formatting⟩ := fades
      rcases List.sublist_cons_iff.mp sub with forgotten | ⟨rest, rfl, among⟩
      · have faded : Fades fewer b.formatting := ⟨kept, forgotten, formatting⟩
        have absent := fun tag member => new tag (weaker.sublist.mem (faded.sublist.mem member))
        rw [current.closeFormatting_of_forgotten (isFormatting_eq_false absent)]
        exact leaves_leave idle (weaker.trans faded)
      · rw [current.closeFormatting_of_latest formatting (Prod.mk.inj named).2.symm]
        exact ⟨{ idle with }, rfl, rfl, rfl, rfl, weaker.trans ⟨rest, among, rfl⟩, rfl⟩

theorem Remembers.eq_of_marked {label : Label}
    (remembers : Remembers entries id label opened)
    (marked : Label.isIn markNames label = true) : opened = .marker :: entries := by
  cases remembers with
  | mark => rfl
  | same unmarked | entry unmarked =>
      rw [marked] at unmarked
      cases unmarked

/-- Nothing is remembered of an element that sets no mark and is no formatting element. -/
theorem Remembers.eq_of_role {role : Role} (remembers : Remembers entries id (.html, name) opened)
    (same : Role.of name = role) (unmarked : markNames.all (Role.of · != role) = true)
    (unformatted : (["a", "nobr"] ++ formattingNames).all (Role.of · != role) = true) :
    opened = entries := by
  cases remembers with
  | same => rfl
  | mark marked =>
      rw [show Label.isIn markNames (.html, name) = false from Role.not_contains same unmarked]
        at marked
      cases marked
  | entry _ known named _ =>
      rw [← (Prod.mk.inj named).2] at known
      have other := Role.not_contains same unformatted
      rw [List.contains_iff_mem.mpr known] at other
      cases other

/-- The closing tag of a form closes it, and no form is pointed to then unless the form was in a
template. -/
theorem Stands.leaves_form (stands : b.Stands setting mode ((.html, name) :: path))
    (current : b.Current id below name) (isForm : name = "form")
    (fades : Fades entries b.formatting)
    (pointer : b.form = if Role.inTemplate path = false then some id else form)
    (free : Role.inTemplate path = false → form = none) :
    Leaves setting entries form below b b.endForm := by
  have idle := stands.idle
  have known : b.hasOpen "template" = Role.inTemplate path := by
    rw [stands.hasOpen_template, isForm]
    rfl
  cases template : Role.inTemplate path with
  | false =>
      rw [template, if_pos rfl] at pointer
      rw [current.endForm (known.trans template) isForm pointer]
      exact ⟨{ idle with }, rfl, rfl, rfl, (free template).symm, fades, rfl⟩
  | true =>
      rw [template, if_neg (by decide)] at pointer
      rw [current.endForm_inTemplate (known.trans template) isForm, ← pointer]
      exact leaves_leave idle fades

/-- An element that was opened by its tag is closed by its tag. -/
theorem Stands.leaves_body (stands : b.Stands setting mode ((.html, name) :: path))
    (current : b.Current id below name) (tagged : tag.name = name)
    (inside : (Role.of name).inside = some (.html, .nodes .flow))
    (remembers : Remembers entries id (.html, name) opened) (fades : Fades opened b.formatting)
    (new : ∀ tag, .element id tag ∉ entries)
    (pointer : b.form = if name = "form" ∧ Role.inTemplate path = false then some id else form)
    (free : name = "form" → Role.inTemplate path = false → form = none) :
    ∃ last, b.ruleBodyClose tag = last.done ∧ Leaves setting entries form below b last := by
  subst tagged
  have idle := stands.idle
  have formless {role : Role} (same : Role.of tag.name = role) (other : role ≠ .form) :
      b.form = form := by
    rw [pointer, if_neg]
    intro isForm
    rw [isForm.1] at same
    exact other same.symm
  cases same : Role.of tag.name with
  | block | heading | preformatted | button | item | term | choice | rubyBase | rubyText
  | ordinary =>
      refine ⟨_, ruleBodyClose_leave current same (by decide), ?_⟩
      rw [remembers.eq_of_role same rfl rfl] at fades
      rw [← formless same nofun]
      exact leaves_leave idle fades
  | form =>
      have isForm := List.mem_singleton.mp (Role.mem_names same nofun)
      rw [remembers.eq_of_role same rfl rfl] at fades
      simp only [isForm, true_and] at pointer
      exact ⟨_, ruleBodyClose_form isForm,
        stands.leaves_form current isForm fades pointer (free isForm)⟩
  | link | formatting | unbroken =>
      have known := Role.formatting_of_mem (by decide) (Role.mem_names same nofun)
      refine ⟨_, ruleBodyClose_formatting known, ?_⟩
      rw [← formless same nofun]
      exact leaves_closeFormatting idle current remembers fades (Role.not_contains same rfl) new
  | object =>
      have named := Role.mem_names same nofun
      refine ⟨_, ruleBodyClose_object current named, ?_⟩
      rw [remembers.eq_of_marked (Role.marked_of_object named)] at fades
      rw [← formless same nofun]
      exact leaves_unmark idle fades.eq_of_marker
  | unplaced | leaf | rule | outdated | text | verbatim | table | template | select | foreign =>
      rw [same] at inside
      cases inside

end ServerPages.Markup.Construction
