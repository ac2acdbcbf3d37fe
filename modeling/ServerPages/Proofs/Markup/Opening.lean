import Mathlib.Tactic.FinCases
import ServerPages.Proofs.Markup.Closing

/-!
# Opening an element in the body

The rule of an opening tag closes what the element may not stand in, opens formatting elements again
and then opens the element. Where the element stands as it is written there is nothing to close and
nothing to open again, and the rule opens it.
-/

namespace ServerPages.Markup

theorem Role.not_endsParagraph {role : Role} {legacy : Bool} {path : List Label}
    (alone : role.staysAlone legacy path = true) (ends : role.endsParagraph legacy = true) :
    Construction.Scope.button.holds ["p"] path = false := by
  simp only [staysAlone, ends, Bool.true_and, Bool.and_eq_true, Bool.not_eq_true'] at alone
  exact alone.1

theorem Role.not_endsOther {role : Role} {legacy : Bool} {path : List Label}
    (alone : role.staysAlone legacy path = true) : role.endsOther path = false := by
  simp only [staysAlone, Bool.and_eq_true, Bool.not_eq_true'] at alone
  exact alone.2

namespace Construction

variable {b next : Construction} {tag : Tag} {setting : Setting} {mode : Mode} {path : List Label}
  {label : Label} {top : NodeId} {below : List NodeId} {data : Element}

/-! ## Nothing to close and nothing to open again -/

theorem mem_openSinceMark {stack : List NodeId} (labelled : b.Labelled stack path) {id : NodeId}
    (member : id ∈ openSinceMark stack path) :
    id ∈ stack ∧ ∃ label ∈ path.takeWhile fun label => !label.isIn markNames,
      b.label? id = some label := by
  rw [labelled_iff] at labelled
  induction labelled with
  | nil => cases member
  | @cons first label stack path known others ih =>
      cases mark : label.isIn markNames with
      | true =>
          rw [openSinceMark, List.zip_cons_cons, List.takeWhile_cons_of_neg (by simp [mark])]
            at member
          cases member
      | false =>
          rw [List.takeWhile_cons_of_pos (by simp [mark])]
          rw [openSinceMark_cons mark] at member
          rcases List.mem_cons.mp member with rfl | later
          · exact ⟨List.mem_cons_self, label, List.mem_cons_self, known⟩
          · obtain ⟨inside, other, among, same⟩ := ih later
            exact ⟨List.mem_cons_of_mem _ inside, other, List.mem_cons_of_mem _ among, same⟩

/-- Nothing is opened again if the formatting elements since the latest mark are open. -/
theorem reconstruct_eq
    (opened : ∀ id tag, .element id tag ∈ sinceMark b.formatting → id ∈ b.stack) :
    b.reconstruct = b := by
  have nothing :
      ∀ waits : Formatting → Bool, (∀ id tag, waits (.element id tag) = !b.stack.contains id) →
        waits .marker = false →
          b.formatting.takeWhile waits = [] ∧ b.formatting.dropWhile waits = b.formatting := by
    intro waits elements mark
    cases entries : b.formatting with
    | nil => exact ⟨rfl, rfl⟩
    | cons entry rest =>
        cases entry with
        | marker =>
            exact ⟨List.takeWhile_cons_of_neg (by simp [mark]),
              List.dropWhile_cons_of_neg (by simp [mark])⟩
        | element id tag =>
            rw [entries] at opened
            have inside := opened id tag List.mem_cons_self
            have stays : waits (.element id tag) = false := by
              rw [elements, List.contains_iff_mem.mpr inside]
              rfl
            exact ⟨List.takeWhile_cons_of_neg (by simp [stays]),
              List.dropWhile_cons_of_neg (by simp [stays])⟩
  unfold reconstruct
  extract_lets waits closed kept reopen
  obtain ⟨none, all⟩ := nothing waits (fun _ _ => rfl) rfl
  subst closed kept
  rw [none, all]
  rfl

namespace Stands

section

variable (stands : b.Stands setting mode path)
include stands

theorem hasInScopeNamed (scope : Scope) (name : String) :
    b.hasInScopeNamed scope name = scope.holds [name] path :=
  hasInScopeIn_eq stands.labelled scope [name]

theorem endParagraph (none : Scope.button.holds ["p"] path = false) : b.endParagraph = b := by
  rw [Construction.endParagraph, stands.hasInScopeNamed, none]
  rfl

theorem currentIn (names : List String) : b.currentIn names = Role.headIn names path := by
  have labelled := labelled_iff.mp stands.labelled
  unfold Construction.currentIn Role.headIn
  generalize b.stack = stack at labelled
  cases labelled with
  | nil => rfl
  | cons known =>
      rw [List.head?_cons, List.head?_cons, Option.map_some, Option.map_some, isIn_of_label? known]

theorem endItem {names : List String} (none : Role.endsItem names path = false) :
    b.endItem names = b := by
  unfold Construction.endItem
  extract_lets bounds isEnd
  have found : (b.stack.find? isEnd).bind b.label? =
      path.find? fun label => label.isIn names || label.isIn bounds :=
    find?_bind_label? stands.labelled fun id label known => by
      simp only [isEnd, isIn_of_label? known]
  unfold Role.endsItem at none
  dsimp only at none
  cases first : b.stack.find? isEnd with
  | none => rfl
  | some id =>
      rw [first, Option.bind_some] at found
      dsimp only
      rw [found]
      split
      · rename_i name meets
        rw [meets] at none
        dsimp only at none
        rw [none, if_neg Bool.false_ne_true]
      · rfl

/-- The formatting elements since the latest mark are open, and their labels are among those since
then. -/
theorem open_of_sinceMark {id : NodeId} {tag : Tag}
    (member : .element id tag ∈ sinceMark b.formatting) :
    id ∈ b.stack ∧ ∃ label ∈ path.takeWhile fun label => !label.isIn markNames,
      b.label? id = some label :=
  mem_openSinceMark stands.labelled
    (stands.opened.mem (List.mem_filterMap.mpr ⟨_, member, rfl⟩))

theorem reconstruct : b.reconstruct = b :=
  reconstruct_eq fun _ _ member => (stands.open_of_sinceMark member).1

theorem endLink (none : Role.link.endsOther path = false) : b.endLink = b := by
  unfold Construction.endLink
  extract_lets found
  have nothing : found = Option.none := by
    refine List.findSome?_eq_none_iff.mpr fun entry member => ?_
    cases entry with
    | marker => rfl
    | element id tag =>
        obtain ⟨_, label, among, known⟩ := stands.open_of_sinceMark member
        have other := List.any_eq_false.mp none label among
        change (if b.isNamed "a" id then some id else Option.none) = Option.none
        rw [isNamed, isIn_of_label? known, if_neg other]
  rw [nothing]

end

/-- A formatting element is remembered, and another of the same kind may be forgotten for it. -/
theorem openFormatting (stands : b.Stands setting mode (label :: path))
    (puts : b.PutsIn top) (plain : tag.name ≠ "template") :
    ∃ fewer, Fades b.formatting fewer ∧ b.openFormatting tag =
      { b.enter top .html tag.name (Vocabulary.html.attributes tag.attributes) with
        formatting := .element ⟨b.forest.size⟩ tag :: fewer } := by
  unfold Construction.openFormatting
  extract_lets same remembered
  obtain ⟨fewer, fades, equal⟩ : ∃ fewer, Fades b.formatting fewer ∧
      remembered = { b with formatting := fewer } := by
    subst remembered
    cases last : same.getLast? with
    | none => exact ⟨_, .refl _, rfl⟩
    | some earliest =>
        dsimp only
        split
        · refine ⟨_, fades_eraseP ?_, rfl⟩
          obtain ⟨entry, member, found⟩ := List.mem_filterMap.mp (List.mem_of_getLast? last)
          refine ⟨entry, member, ?_⟩
          split at found
          · split at found
            · cases found
              exact decide_eq_true rfl
            · cases found
          · cases found
        · exact ⟨_, .refl _, rfl⟩
  refine ⟨fewer, fades, ?_⟩
  have place : Construction.place { b with formatting := fewer } = .last top :=
    place_eq { stands.idle with } puts
  rw [equal, openTag_eq place plain]
  rfl

/-! ## Rules by role -/

section

variable (stands : b.Stands setting mode path)
include stands

theorem settle : b.settle.Stands setting mode path :=
  stands.moved { stands.idle with } stands.mode rfl rfl rfl rfl

theorem ruleBodyOpen_block (named : tag.name ∈ Role.block.names)
    (alone : Role.block.staysAlone setting.legacy path = true) :
    b.ruleBodyOpen tag = (b.openFor tag).done := by
  have rule : b.ruleBodyOpen tag = (b.endParagraph.openFor tag).done := by
    obtain ⟨closing, name, selfClosing, attributes⟩ := tag
    fin_cases named <;> rfl
  rw [rule, stands.endParagraph (Role.not_endsParagraph alone rfl)]

theorem ruleBodyOpen_heading (named : tag.name ∈ Role.heading.names)
    (alone : Role.heading.staysAlone setting.legacy path = true) :
    b.ruleBodyOpen tag = (b.openFor tag).done := by
  have rule : b.ruleBodyOpen tag = ((if b.endParagraph.currentIn headingNames then
        b.endParagraph.pop else b.endParagraph).openFor tag).done := by
    obtain ⟨closing, name, selfClosing, attributes⟩ := tag
    fin_cases named <;> rfl
  rw [rule, stands.endParagraph (Role.not_endsParagraph alone rfl), stands.currentIn,
    show Role.headIn headingNames path = false from Role.not_endsOther alone,
    if_neg Bool.false_ne_true]

theorem ruleBodyOpen_preformatted (named : tag.name ∈ Role.preformatted.names)
    (alone : Role.preformatted.staysAlone setting.legacy path = true) :
    b.ruleBodyOpen tag =
      { (b.openFor tag).settle with dropLineFeed := true }.done := by
  have rule : b.ruleBodyOpen tag =
      { (b.endParagraph.openFor tag).settle with dropLineFeed := true }.done := by
    obtain ⟨closing, name, selfClosing, attributes⟩ := tag
    fin_cases named <;> rfl
  rw [rule, stands.endParagraph (Role.not_endsParagraph alone rfl)]

theorem ruleBodyOpen_item (named : tag.name ∈ Role.item.names)
    (alone : Role.item.staysAlone setting.legacy path = true) :
    b.ruleBodyOpen tag = (b.settle.openFor tag).done := by
  have rule : b.ruleBodyOpen tag = ((b.settle.endItem ["li"]).endParagraph.openFor tag).done := by
    obtain ⟨closing, name, selfClosing, attributes⟩ := tag
    fin_cases named
    rfl
  rw [rule, stands.settle.endItem (Role.not_endsOther alone),
    stands.settle.endParagraph (Role.not_endsParagraph alone rfl)]

theorem ruleBodyOpen_term (named : tag.name ∈ Role.term.names)
    (alone : Role.term.staysAlone setting.legacy path = true) :
    b.ruleBodyOpen tag = (b.settle.openFor tag).done := by
  have rule :
      b.ruleBodyOpen tag = ((b.settle.endItem ["dd", "dt"]).endParagraph.openFor tag).done := by
    obtain ⟨closing, name, selfClosing, attributes⟩ := tag
    fin_cases named <;> rfl
  rw [rule, stands.settle.endItem (Role.not_endsOther alone),
    stands.settle.endParagraph (Role.not_endsParagraph alone rfl)]

theorem ruleBodyOpen_button (named : tag.name ∈ Role.button.names)
    (alone : Role.button.staysAlone setting.legacy path = true) :
    b.ruleBodyOpen tag = (b.openFor tag).settle.done := by
  have rule : b.ruleBodyOpen tag = ((if b.hasInScopeNamed .element "button" then
        b.closeImplied.popThrough ["button"] else b).reconstruct.openFor tag).settle.done := by
    obtain ⟨closing, name, selfClosing, attributes⟩ := tag
    fin_cases named
    rfl
  rw [rule, stands.hasInScopeNamed,
    show Scope.element.holds ["button"] path = false from Role.not_endsOther alone,
    if_neg Bool.false_ne_true, stands.reconstruct]

theorem ruleBodyOpen_link (named : tag.name ∈ Role.link.names)
    (alone : Role.link.staysAlone setting.legacy path = true) :
    b.ruleBodyOpen tag = (b.openFormatting tag).done := by
  have rule : b.ruleBodyOpen tag = (b.endLink.reconstruct.openFormatting tag).done := by
    obtain ⟨closing, name, selfClosing, attributes⟩ := tag
    fin_cases named
    rfl
  rw [rule, stands.endLink (Role.not_endsOther alone), stands.reconstruct]

theorem ruleBodyOpen_formatting (named : tag.name ∈ Role.formatting.names) :
    b.ruleBodyOpen tag = (b.openFormatting tag).done := by
  have rule : b.ruleBodyOpen tag = (b.reconstruct.openFormatting tag).done := by
    obtain ⟨closing, name, selfClosing, attributes⟩ := tag
    fin_cases named <;> rfl
  rw [rule, stands.reconstruct]

theorem ruleBodyOpen_unbroken (named : tag.name ∈ Role.unbroken.names)
    (alone : Role.unbroken.staysAlone setting.legacy path = true) :
    b.ruleBodyOpen tag = (b.openFormatting tag).done := by
  have rule : b.ruleBodyOpen tag = ((if b.reconstruct.hasInScopeNamed .element "nobr" then
        (b.reconstruct.closeFormatting "nobr").reconstruct
      else b.reconstruct).openFormatting tag).done := by
    obtain ⟨closing, name, selfClosing, attributes⟩ := tag
    fin_cases named
    rfl
  rw [rule, stands.reconstruct, stands.hasInScopeNamed,
    show Scope.element.holds ["nobr"] path = false from Role.not_endsOther alone,
    if_neg Bool.false_ne_true]

theorem ruleBodyOpen_object (named : tag.name ∈ Role.object.names) :
    b.ruleBodyOpen tag = (b.openFor tag).mark.settle.done := by
  have rule : b.ruleBodyOpen tag = (b.reconstruct.openFor tag).mark.settle.done := by
    obtain ⟨closing, name, selfClosing, attributes⟩ := tag
    fin_cases named <;> rfl
  rw [rule, stands.reconstruct]

theorem ruleBodyOpen_table (named : tag.name ∈ Role.table.names)
    (alone : Role.table.staysAlone setting.legacy path = true) :
    b.ruleBodyOpen tag =
      { (b.openFor tag).settle with mode := .inTable }.done := by
  have rule :
      b.ruleBodyOpen tag =
        { ((if b.legacy then b else b.endParagraph).openFor tag).settle with
          mode := .inTable }.done := by
    obtain ⟨closing, name, selfClosing, attributes⟩ := tag
    fin_cases named
    rfl
  rw [rule, stands.idle.legacy]
  cases old : setting.legacy with
  | true => rfl
  | false =>
      rw [stands.endParagraph (Role.not_endsParagraph alone (by rw [old]; rfl))]
      rfl

theorem ruleBodyOpen_rule (named : tag.name ∈ Role.rule.names)
    (alone : Role.rule.staysAlone setting.legacy path = true) :
    b.ruleBodyOpen tag = (b.addFor tag).settle.done := by
  have rule : b.ruleBodyOpen tag = (b.endParagraph.addFor tag).settle.done := by
    obtain ⟨closing, name, selfClosing, attributes⟩ := tag
    fin_cases named
    rfl
  rw [rule, stands.endParagraph (Role.not_endsParagraph alone rfl)]

theorem ruleBodyOpen_choice (named : tag.name ∈ Role.choice.names)
    (alone : Role.choice.staysAlone setting.legacy path = true) :
    b.ruleBodyOpen tag = (b.openFor tag).done := by
  have rule : b.ruleBodyOpen tag = ((if b.currentIs "option" then b.pop else b).reconstruct.openFor
      tag).done := by
    obtain ⟨closing, name, selfClosing, attributes⟩ := tag
    fin_cases named <;> rfl
  rw [rule, currentIs, stands.currentIn,
    show Role.headIn ["option"] path = false from Role.not_endsOther alone,
    if_neg Bool.false_ne_true, stands.reconstruct]

theorem ruleBodyOpen_verbatim (named : tag.name ∈ Role.verbatim.names)
    (alone : Role.verbatim.staysAlone setting.legacy path = true) :
    b.ruleBodyOpen tag = b.settle.openText tag .raw := by
  have rule : b.ruleBodyOpen tag = b.endParagraph.reconstruct.settle.openText tag .raw := by
    obtain ⟨closing, name, selfClosing, attributes⟩ := tag
    fin_cases named
    rfl
  rw [rule, stands.endParagraph (Role.not_endsParagraph alone rfl), stands.reconstruct]

theorem ruleBodyOpen_select (named : tag.name ∈ Role.select.names) :
    b.ruleBodyOpen tag =
      { (b.openFor tag).settle with
        mode := if [Mode.inTable, .inCaption, .inTableBody, .inRow, .inCell].contains b.mode then
          .inSelectInTable else .inSelect }.done := by
  have rule : b.ruleBodyOpen tag =
      { (b.reconstruct.openFor tag).settle with
        mode := if [Mode.inTable, .inCaption, .inTableBody, .inRow, .inCell].contains b.mode then
          .inSelectInTable else .inSelect }.done := by
    obtain ⟨closing, name, selfClosing, attributes⟩ := tag
    fin_cases named
    rfl
  rw [rule, stands.reconstruct]

theorem closeFront {names : List String} (none : Role.headIn names path = false) :
    b.stack.dropWhile (b.isIn names) = b.stack := by
  have current := stands.currentIn names
  rw [none] at current
  unfold Construction.currentIn at current
  cases stack : b.stack with
  | nil => rfl
  | cons id below =>
      rw [stack, List.head?_cons, Option.map_some, Option.getD_some] at current
      exact List.dropWhile_cons_of_neg (by simp [current])

theorem closeFront_inRuby {names : List String}
    (none : (Scope.element.holds ["ruby"] path && Role.headIn names path) = false) :
    (if b.hasInScopeNamed .element "ruby" then
      { b with stack := b.stack.dropWhile (b.isIn names) } else b) = b := by
  rw [stands.hasInScopeNamed]
  cases ruby : Scope.element.holds ["ruby"] path with
  | false => rfl
  | true =>
      rw [ruby, Bool.true_and] at none
      rw [if_pos rfl, stands.closeFront none]

theorem ruleBodyOpen_rubyBase (named : tag.name ∈ Role.rubyBase.names)
    (alone : Role.rubyBase.staysAlone setting.legacy path = true) :
    b.ruleBodyOpen tag = (b.openFor tag).done := by
  have rule : b.ruleBodyOpen tag = ((if b.hasInScopeNamed .element "ruby" then b.closeImplied
      else b).openFor tag).done := by
    obtain ⟨closing, name, selfClosing, attributes⟩ := tag
    fin_cases named <;> rfl
  rw [rule, closeImplied, stands.closeFront_inRuby (Role.not_endsOther alone)]

theorem ruleBodyOpen_rubyText (named : tag.name ∈ Role.rubyText.names)
    (alone : Role.rubyText.staysAlone setting.legacy path = true) :
    b.ruleBodyOpen tag = (b.openFor tag).done := by
  have rule : b.ruleBodyOpen tag = ((if b.hasInScopeNamed .element "ruby" then
      b.closeImpliedExcept "rtc" else b).openFor tag).done := by
    obtain ⟨closing, name, selfClosing, attributes⟩ := tag
    fin_cases named <;> rfl
  rw [rule, closeImpliedExcept, stands.closeFront_inRuby (Role.not_endsOther alone)]

theorem ruleBodyOpen_form (named : tag.name ∈ Role.form.names)
    (alone : Role.form.staysAlone setting.legacy path = true) (place : b.place = .last top)
    (still : (b.openFor tag).hasOpen "template" = Role.inTemplate path) :
    b.ruleBodyOpen tag = { b.openFor tag with
      form := if Role.inTemplate path = false then some ⟨b.forest.size⟩ else b.form }.done := by
  have rule : b.ruleBodyOpen tag =
      if b.form.isSome && !b.hasOpen "template" then b.done
      else
        let opened := b.endParagraph.openTag tag
        (if opened.2.hasOpen "template" then opened.2
          else { opened.2 with form := some opened.1 }).done := by
    obtain ⟨closing, name, selfClosing, attributes⟩ := tag
    fin_cases named
    rfl
  have free : (b.form.isSome && !b.hasOpen "template") = false := by
    have other : Role.inForm path = false := Role.not_endsOther alone
    rw [stands.hasOpen_template]
    cases template : path.any (·.isIn ["template"]) with
    | true => exact Bool.and_false _
    | false =>
        rw [stands.form fun inside => ?_]
        · rfl
        · rw [Role.inForm, Role.inTemplate, template, Bool.not_false, Bool.and_true] at other
          exact List.any_eq_false.mp other _ inside rfl
  have plain : tag.name ≠ "template" := by
    rw [show tag.name = "form" from List.mem_singleton.mp named]
    decide
  rw [openFor_eq place plain] at still ⊢
  rw [rule, free, if_neg Bool.false_ne_true, stands.endParagraph (Role.not_endsParagraph alone rfl),
    openTag_eq place plain]
  dsimp only
  rw [still]
  cases Role.inTemplate path <;> rfl

theorem ruleBodyOpen_leaf (opening : tag.closing = false)
    (named : tag.name ∈ Role.leaf.names ++ outdatedNames) :
    b.ruleBodyOpen tag = (b.addFor tag).done ∨
      b.ruleBodyOpen tag = (b.addFor tag).settle.done := by
  have rule : b.ruleBodyOpen tag = (b.addFor tag).done ∨
      b.ruleBodyOpen tag = (b.reconstruct.addFor tag).settle.done ∨
      b.ruleBodyOpen tag = (if isHidden tag then b.reconstruct.addFor tag
        else (b.reconstruct.addFor tag).settle).done := by
    obtain ⟨closing, name, selfClosing, attributes⟩ := tag
    obtain rfl : closing = false := opening
    fin_cases named <;> first | exact .inl rfl | exact .inr (.inl rfl) | exact .inr (.inr rfl)
  rw [stands.reconstruct] at rule
  rcases rule with added | settled | input
  · exact .inl added
  · exact .inr settled
  · rw [input]
    split
    · exact .inl rfl
    · exact .inr rfl

omit stands in
/-- An element that holds text is opened, and the text is read as what it is. -/
theorem ruleBodyOpen_text {content : Content} (opening : tag.closing = false)
    (named : tag.name ∈ (Role.text content).names) :
    ∃ framesetOk dropLineFeed,
      (dropLineFeed = true → tag.name = "textarea" ∨ b.dropLineFeed = true) ∧
      b.ruleBodyOpen tag = { b with framesetOk, dropLineFeed }.openText tag content := by
  obtain ⟨closing, name, selfClosing, attributes⟩ := tag
  obtain rfl : closing = false := opening
  cases content with
  | escapable =>
      fin_cases named
      · exact ⟨false, true, fun _ => .inl rfl, rfl⟩
      · exact ⟨b.framesetOk, b.dropLineFeed, .inr, rfl⟩
  | raw =>
      fin_cases named <;>
        first
        | exact ⟨false, b.dropLineFeed, .inr, rfl⟩
        | exact ⟨b.framesetOk, b.dropLineFeed, .inr, rfl⟩
  | script =>
      fin_cases named
      exact ⟨b.framesetOk, b.dropLineFeed, .inr, rfl⟩
  | markup | endless => cases named

theorem ruleBodyOpen_ordinary (ordinary : Role.of tag.name = .ordinary) :
    b.ruleBodyOpen tag = (b.openFor tag).done := by
  have out (names : List String) (others : names.all (Role.of · != .ordinary) = true) :
      ¬ names.contains tag.name = true :=
    Bool.eq_false_iff.mp (Role.not_contains ordinary others)
  unfold ruleBodyOpen
  dsimp only
  repeat rw [if_neg (by first | exact Role.ne_of_role ordinary rfl | exact out _ rfl)]
  rw [stands.reconstruct]

/-- The opening tag of an element of most roles opens the element and does nothing else. -/
theorem ruleBodyOpen_open {role : Role} (same : Role.of tag.name = role)
    (opens : role ∈ [.block, .heading, .choice, .rubyBase, .rubyText, .ordinary])
    (alone : role.staysAlone setting.legacy path = true) :
    b.ruleBodyOpen tag = (b.openFor tag).done := by
  cases role with
  | block => exact stands.ruleBodyOpen_block (Role.mem_names same nofun) alone
  | heading => exact stands.ruleBodyOpen_heading (Role.mem_names same nofun) alone
  | choice => exact stands.ruleBodyOpen_choice (Role.mem_names same nofun) alone
  | rubyBase => exact stands.ruleBodyOpen_rubyBase (Role.mem_names same nofun) alone
  | rubyText => exact stands.ruleBodyOpen_rubyText (Role.mem_names same nofun) alone
  | ordinary => exact stands.ruleBodyOpen_ordinary same
  | _ => simp at opens

/-- The opening tag of a list item or of a term opens it, and the page has no frameset then. -/
theorem ruleBodyOpen_settle {role : Role} (same : Role.of tag.name = role)
    (opens : role ∈ [.item, .term]) (alone : role.staysAlone setting.legacy path = true) :
    b.ruleBodyOpen tag = (b.settle.openFor tag).done := by
  cases role with
  | item => exact stands.ruleBodyOpen_item (Role.mem_names same nofun) alone
  | term => exact stands.ruleBodyOpen_term (Role.mem_names same nofun) alone
  | _ => simp at opens

theorem ruleBodyOpen_openFormatting {role : Role} (same : Role.of tag.name = role)
    (opens : role ∈ [.link, .formatting, .unbroken])
    (alone : role.staysAlone setting.legacy path = true) :
    b.ruleBodyOpen tag = (b.openFormatting tag).done := by
  cases role with
  | link => exact stands.ruleBodyOpen_link (Role.mem_names same nofun) alone
  | formatting => exact stands.ruleBodyOpen_formatting (Role.mem_names same nofun)
  | unbroken => exact stands.ruleBodyOpen_unbroken (Role.mem_names same nofun) alone
  | _ => simp at opens

end

end Stands

/-! ## Opening -/

/-- An element was opened and nothing else was done. -/
structure Enters (setting : Setting) (top : NodeId) (vocabulary : Vocabulary) (data : Element)
    (before after : Construction) : Prop where
  opens : Opens setting top vocabulary data before after
  mode : after.mode = before.mode
  remembers : Remembers before.formatting ⟨before.forest.size⟩ (vocabulary, data.name)
    after.formatting
  form : after.form =
    if (vocabulary, data.name) = (.html, "form") ∧ before.hasOpen "template" = false then
      some ⟨before.forest.size⟩
    else before.form
  lineFeed : after.dropLineFeed = true → Subtree.dropsLineFeed vocabulary data.name = true

/-- An element that neither sets a mark nor is a form is opened by its tag. -/
theorem enters_enter (idle : b.Idle setting) (attentive : b.dropLineFeed = false)
    {vocabulary : Vocabulary} (spelled : Spelled vocabulary data)
    (unmarked : Label.isIn markNames (vocabulary, data.name) = false)
    (formless : (vocabulary, data.name) ≠ (.html, "form")) :
    Enters setting top vocabulary data b
      (b.enter top vocabulary data.name (vocabulary.attributes (openingTag data).attributes)) where
  opens := opens_enter idle top spelled
  mode := rfl
  remembers := .same unmarked
  form := (if_neg fun form => formless form.1).symm
  lineFeed drops := absurd (show b.dropLineFeed = true from drops) (by rw [attentive]; decide)

theorem Enters.settle {vocabulary : Vocabulary}
    (enters : Enters setting top vocabulary data b next) :
    Enters setting top vocabulary data b next.settle :=
  ⟨⟨{ enters.opens.idle with }, enters.opens.forest, enters.opens.stack⟩, enters.mode,
    enters.remembers, enters.form, enters.lineFeed⟩

theorem Enters.of_settle {vocabulary : Vocabulary}
    (enters : Enters setting top vocabulary data b.settle next) :
    Enters setting top vocabulary data b next :=
  ⟨⟨enters.opens.idle, enters.opens.forest, enters.opens.stack⟩, enters.mode, enters.remembers,
    enters.form, enters.lineFeed⟩

namespace Stands

section

variable (stands : b.Stands setting mode (label :: path)) (puts : b.PutsIn top)
  (attentive : b.dropLineFeed = false) (spelled : Spelled .html data)
  (plain : (openingTag data).name ≠ "template")
include stands puts attentive spelled plain

/-- An element is opened for its tag if it neither sets a mark nor is a form. -/
theorem enters_openFor {role : Role} (same : Role.of data.name = role)
    (unmarked : markNames.all (Role.of · != role) = true) (formless : role ≠ .form) :
    Enters setting top .html data b (b.openFor (openingTag data)) := by
  have named : (openingTag data).name = data.name := spelled.name
  rw [openFor_eq (stands.place puts) plain, named]
  refine enters_enter stands.idle attentive spelled (Role.not_contains same unmarked) fun form => ?_
  rw [(Prod.mk.inj form).2] at same
  exact formless same.symm

theorem enters_preformatted (same : Role.of data.name = .preformatted) :
    Enters setting top .html data b
      { (b.openFor (openingTag data)).settle with dropLineFeed := true } := by
  have enters := (stands.enters_openFor puts attentive spelled plain same rfl nofun).settle
  exact ⟨⟨{ enters.opens.idle with }, enters.opens.forest, enters.opens.stack⟩, enters.mode,
    enters.remembers, enters.form,
    fun _ => Subtree.dropsLineFeed_of_preformatted (Role.mem_names same nofun)⟩

/-- A formatting element is opened as any other, and is remembered. -/
theorem enters_openFormatting {role : Role} (same : Role.of data.name = role)
    (formatting : role ∈ [.link, .formatting, .unbroken]) :
    Enters setting top .html data b (b.openFormatting (openingTag data)) := by
  have named : (openingTag data).name = data.name := spelled.name
  obtain ⟨unmarked, formless, known⟩ :
      markNames.all (Role.of · != role) = true ∧ role ≠ .form ∧ role ≠ .ordinary := by
    fin_cases formatting <;> exact ⟨rfl, nofun, nofun⟩
  have enters := stands.enters_openFor puts attentive spelled plain same unmarked formless
  rw [openFor_eq (stands.place puts) plain] at enters
  obtain ⟨fewer, fades, opens⟩ := stands.openFormatting puts plain
  have remembers : Remembers b.formatting ⟨b.forest.size⟩ (.html, data.name)
      (.element ⟨b.forest.size⟩ (openingTag data) :: fewer) := by
    refine .entry (Role.not_contains same unmarked) ?_ (by rw [named]) fades
    exact Role.formatting_of_mem formatting (named ▸ Role.mem_names same known)
  rw [opens]
  exact ⟨⟨{ stands.idle with }, enters.opens.forest, enters.opens.stack⟩, enters.mode, remembers,
    enters.form, enters.lineFeed⟩

/-- An object is opened as any other element, and sets a mark. -/
theorem enters_object (same : Role.of data.name = .object) :
    Enters setting top .html data b (b.openFor (openingTag data)).mark.settle := by
  have marked := Role.marked_of_object (Role.mem_names same nofun)
  have formless :
      ¬ ((Vocabulary.html, data.name) = (.html, "form") ∧ b.hasOpen "template" = false) :=
    fun form => Role.ne_of_role same rfl (Prod.mk.inj form.1).2
  rw [openFor_eq (stands.place puts) plain,
    show (openingTag data).name = data.name from spelled.name]
  exact ⟨⟨{ stands.idle with }, ⟨_, spelled.attributes, rfl⟩, rfl⟩, rfl, .mark marked,
    (if_neg formless).symm, fun drops => absurd (attentive.symm.trans drops) (by decide)⟩

/-- A form is opened and pointed to, unless it is in a template. -/
theorem enters_form (isForm : data.name = "form")
    (alone : Role.form.staysAlone setting.legacy (label :: path) = true) :
    ∃ next, b.ruleBodyOpen (openingTag data) = next.done ∧
      Enters setting top .html data b next := by
  have named : (openingTag data).name = data.name := spelled.name
  have place := stands.place puts
  have opened := openFor_eq place plain
  rw [named] at opened
  have still :
      (b.openFor (openingTag data)).hasOpen "template" = Role.inTemplate (label :: path) := by
    have grown := (opens_enter stands.idle top spelled).grownAt (stands.has_spot puts)
    have labelled := labelled_cons.mpr ⟨(opens_enter stands.idle top spelled).label?,
      labelled_grownAt grown stands.labelled⟩
    refine (congrArg (Construction.hasOpen · "template") opened).trans ?_
    refine (any_isIn_eq labelled ["template"]).trans ?_
    rw [isForm]
    rfl
  have rule := stands.ruleBodyOpen_form (by rw [named, isForm]; decide) alone place still
  rw [opened] at rule
  refine ⟨_, rule, ⟨⟨{ stands.idle with }, ⟨_, spelled.attributes, rfl⟩, rfl⟩, rfl, .same ?_, ?_,
    fun drops => absurd (attentive.symm.trans drops) (by decide)⟩⟩
  · rw [isForm]
    decide
  · rw [stands.hasOpen_template, isForm]
    simp only [true_and]
    rfl

end

/-- An element whose opening tag ends nothing is opened by it. -/
theorem enters_body (stands : b.Stands setting mode (label :: path))
    (puts : b.PutsIn top) (attentive : b.dropLineFeed = false)
    (spelled : Spelled .html data)
    (alone : (Role.of data.name).staysAlone setting.legacy (label :: path) = true)
    (inside : (Role.of data.name).inside = some (.html, .nodes .flow)) :
    ∃ next, b.ruleBodyOpen (openingTag data) = next.done ∧
      Enters setting top .html data b next := by
  have named : (openingTag data).name = data.name := spelled.name
  have plain : (openingTag data).name ≠ "template" := by
    rw [named]
    intro same
    rw [same] at inside
    cases inside
  have role : Role.of (openingTag data).name = Role.of data.name := by rw [named]
  cases same : Role.of data.name with
  | block | heading | choice | rubyBase | rubyText | ordinary =>
      rw [same] at role alone
      exact ⟨_, stands.ruleBodyOpen_open role (by decide) alone,
        stands.enters_openFor puts attentive spelled plain same rfl nofun⟩
  | button =>
      rw [same] at role alone
      exact ⟨_, stands.ruleBodyOpen_button (Role.mem_names role nofun) alone,
        (stands.enters_openFor puts attentive spelled plain same rfl nofun).settle⟩
  | item | term =>
      rw [same] at role alone
      exact ⟨_, stands.ruleBodyOpen_settle role (by decide) alone,
        (stands.settle.enters_openFor puts attentive spelled plain same rfl nofun).of_settle⟩
  | preformatted =>
      rw [same] at role alone
      exact ⟨_, stands.ruleBodyOpen_preformatted (Role.mem_names role nofun) alone,
        stands.enters_preformatted puts attentive spelled plain same⟩
  | link | formatting | unbroken =>
      rw [same] at role alone
      exact ⟨_, stands.ruleBodyOpen_openFormatting role (by decide) alone,
        stands.enters_openFormatting puts attentive spelled plain same (by decide)⟩
  | object =>
      rw [same] at role
      exact ⟨_, stands.ruleBodyOpen_object (Role.mem_names role nofun),
        stands.enters_object puts attentive spelled plain same⟩
  | form =>
      rw [same] at alone
      exact stands.enters_form puts attentive spelled plain
        (List.mem_singleton.mp (Role.mem_names same nofun)) alone
  | unplaced | leaf | rule | outdated | text | verbatim | table | template | select | foreign =>
      rw [same] at inside
      cases inside

end Stands

end Construction

end ServerPages.Markup
