import ServerPages.Proofs.Markup.Contents

/-!
# Elements that are never open

The tag of an outdated element adds it and does not open it, and so does the tag of a frame, or of a
form among the parts of a table. It is written with a closing tag all the same. That closes nothing:
there is no open element of its name.
-/

namespace ServerPages.Markup.Construction

open Text (equalUpToCase)
open Subtree (ShownAt)

variable {b next last : Construction} {setting : Setting} {area : Area} {mode : Mode}
  {label : Label} {path : List Label} {top id : NodeId} {below stack : List NodeId} {data : Element}
  {tag : Tag}

/-- The tags of an element that is never open add it, and then everything is as it was before. -/
def AddsHollow (setting : Setting) (top : NodeId) (data : Element) (b : Construction) : Prop :=
  ∃ next last, b.attend.applied (.tag (openingTag data)) = next.done ∧
    next.forest = b.forest.sprout top
      (.element .html data.name (Vocabulary.html.attributes (openingTag data).attributes) none) ∧
    next.attend.applied (.tag (closingTag data)) = last.done ∧ Returns setting b next last

/-! ## Closing tags that close nothing -/

theorem Stands.isIn_outdated (stands : b.Stands setting mode path) (member : id ∈ b.stack) :
    b.isIn outdatedNames id = false := by
  have known : b.label? id ∈ path.map some := stands.labelled ▸ List.mem_map_of_mem member
  obtain ⟨label, among, same⟩ := List.mem_map.mp known
  rw [isIn_of_label? same.symm]
  exact stands.outside label among

theorem Stands.closeOther_outdated (stands : b.Stands setting mode path) {name : String}
    (outdated : name ∈ outdatedNames) : b.closeOther name = b := by
  unfold Construction.closeOther
  extract_lets isEnd
  cases found : b.stack.find? isEnd with
  | none => rfl
  | some id =>
      have closed := stands.isIn_outdated (List.mem_of_find?_eq_some found)
      have unnamed : b.isNamed name id = false := by
        unfold isNamed isIn at *
        split
        · rename_i other known
          rw [known] at closed
          dsimp only at closed
          rw [Bool.eq_false_iff] at closed ⊢
          intro same
          obtain rfl : other = name := by simpa using same
          exact closed (List.contains_iff_mem.mpr outdated)
        · rfl
      dsimp only
      rw [unnamed, if_neg Bool.false_ne_true]

/-- A closing tag in an element that is not HTML goes on to the HTML around, unless an element of
its name is open in between. -/
theorem closeWithin_passes (labelled : b.Labelled stack path)
    (passes : b.rule b.mode (.tag tag) = b.done) (first : Bool)
    (foreign : first = true → ∀ label ∈ path.head?, label.1 ≠ .html)
    (none : Role.hasNamesake tag.name path = false) : b.closeWithin tag first stack = b.done := by
  rw [labelled_iff] at labelled
  induction labelled generalizing first with
  | nil => rfl
  | @cons id label stack path known others ih =>
      cases stack with
      | nil => rfl
      | cons next stack =>
          rw [closeWithin, known]
          · dsimp only
            by_cases html : label.1 = .html
            · cases first with
              | true => exact absurd html (foreign rfl label rfl)
              | false =>
                  rw [if_pos (by simp [html]), passes]
            · have apart : (label.1 != .html) = true := by simpa using html
              rw [Role.hasNamesake,
                List.takeWhile_cons_of_pos (p := fun label : Label => label.1 != .html) apart,
                List.any_cons,
                Bool.or_eq_false_iff] at none
              rw [if_neg (by simp [html]), none.1, if_neg Bool.false_ne_true]
              exact ih false nofun none.2
          · exact List.cons_ne_nil _ _

/-! ## Outdated elements -/

/-- An element is added and not opened by its tag, and its closing tag counts for nothing. -/
theorem addsHollow_of_addFor (stands : b.StandsIn setting area mode label path)
    (puts : b.PutsIn top) (spelled : Spelled .html data) (plain : data.name ≠ "template")
    (opening : b.attend.applied (.tag (openingTag data)) =
        (b.attend.addFor (openingTag data)).done ∨
      b.attend.applied (.tag (openingTag data)) =
        (b.attend.addFor (openingTag data)).settle.done)
    (closing : ∀ next : Construction, next.StandsIn setting area mode label path →
      next.applied (.tag (closingTag data)) = next.done) : AddsHollow setting top data b := by
  obtain ⟨framesetOk, rule⟩ := addsLeaf_of_addFor stands.stands puts spelled plain opening
  have inside := stands.stands.has_spot puts
  let next : Construction := { b.attend.add top (.element .html data.name
    (Vocabulary.html.attributes (openingTag data).attributes) none) with framesetOk }
  have reads : Reads setting none top [.element data []] b next :=
    .leaf (.element inside spelled.attributes (.nil _ _ _)) { stands.stands.idle with }
      rfl rfl rfl rfl rfl rfl
  exact ⟨next, next.attend, rule, rfl, closing _ (stands.after reads).attend,
    ⟨{ stands.stands.idle with }, rfl, rfl, rfl, rfl, .refl _, rfl⟩⟩

theorem rule_head_hollow (opening : tag.closing = false)
    (named : tag.name ∈ ["basefont", "bgsound"]) :
    b.rule .inHead (.tag tag) = (b.addFor tag).done := by
  obtain ⟨closing, name, selfClosing, attributes⟩ := tag
  obtain rfl : closing = false := opening
  fin_cases named <;> rfl

theorem rule_outdated_closing (closing : tag.closing = true)
    (known : mode = .inHead ∨ mode = .inTemplate) (named : tag.name ∈ ["basefont", "bgsound"]) :
    b.rule mode (.tag tag) = b.done := by
  obtain ⟨isClosing, name, selfClosing, attributes⟩ := tag
  obtain rfl : isClosing = true := closing
  obtain rfl | rfl := known <;> fin_cases named <;> rfl

/-- An outdated element that flows in the body. -/
theorem StandsIn.addsHollow_flow (stands : b.StandsIn setting .flow mode label path)
    (puts : b.PutsIn top) (spelled : Spelled .html data)
    (other : isMathTextPoint label.1 label.2 = true →
      ["malignmark", "mglyph"].contains data.name = false)
    (outdated : data.name ∈ outdatedNames)
    (none : Role.hasNamesake data.name (label :: path) = false) :
    AddsHollow setting top data b := by
  have opened := spelled.openingName
  have closed := spelled.closingName
  have placed : misplacedNames.contains (openingTag data).name = false ∧
      (misplacedNames ++ ["body", "html", "table"]).contains (closingTag data).name = false ∧
      data.name ≠ "template" ∧ ["br", "p"].contains (closingTag data).name = false := by
    rw [opened, closed]
    generalize data.name = name at outdated
    fin_cases outdated <;> decide
  have body (next : Construction) (stands : next.StandsIn setting .flow mode label path) :
      next.rule mode (.tag (closingTag data)) = next.done := by
    have rule : next.ruleBodyClose (closingTag data) =
        (next.closeOther (closingTag data).name).done := by
      rw [← closed] at outdated
      generalize closingTag data = tag at outdated
      obtain ⟨closing, name, selfClosing, attributes⟩ := tag
      fin_cases outdated <;> rfl
    rw [rule_flow_closing stands.reads rfl placed.2.1, rule,
      stands.stands.closeOther_outdated (closed.symm ▸ outdated)]
  refine addsHollow_of_addFor stands puts spelled placed.2.2.1 ?_ fun next stands => ?_
  · rw [stands.attend.applied_open rfl (fun text => opened ▸ other text),
      rule_flow_opening stands.reads rfl placed.1]
    exact stands.stands.attend.ruleBodyOpen_leaf rfl
      (List.mem_append_right _ (opened.symm ▸ outdated))
  · by_cases html : label.1 = .html
    · obtain ⟨vocabulary, name⟩ := label
      obtain rfl : vocabulary = .html := html
      rw [stands.stands.applied_of_html, body next stands]
    · have calm : breaksOut (closingTag data) = false := by
        simp only [breaksOut, Tag.ends, placed.2.2.2]
        rfl
      rw [stands.stands.applied_of_foreign html (.inr ⟨_, rfl, rfl⟩), ruleForeign]
      dsimp only
      rw [calm, if_neg Bool.false_ne_true, if_pos (show (closingTag data).closing = true from rfl)]
      refine closeWithin_passes stands.stands.labelled ?_ true (fun _ other here => ?_)
        (closed.symm ▸ none)
      · rw [stands.stands.mode, body next stands]
      · cases here
        exact html

/-! ## Forms among the parts of a table -/

theorem rule_parts_form (opening : tag.closing = false)
    (tabular : mode ∈ [Mode.inTable, .inTableBody, .inRow]) (named : tag.name = "form")
    (outside : b.hasOpen "template" = false) (free : b.form = none) :
    b.rule mode (.tag tag) =
      { (b.insert false .html tag.name (Vocabulary.html.attributes tag.attributes)).2 with
        form := some (b.insert false .html tag.name (Vocabulary.html.attributes tag.attributes)).1
      }.done := by
  have rule : b.rule mode (.tag tag) =
      if b.hasOpen "template" || b.form.isSome then b.done
      else
        { (b.insert false .html tag.name (Vocabulary.html.attributes tag.attributes)).2 with
          form := some (b.insert false .html tag.name (Vocabulary.html.attributes tag.attributes)).1
        }.done := by
    clear outside free
    obtain ⟨closing, name, selfClosing, attributes⟩ := tag
    obtain rfl : closing = false := opening
    obtain rfl : name = "form" := named
    fin_cases tabular <;> rfl
  rw [rule, outside, free]
  rfl

/-- The closing tag of a form that is not open only forgets it. -/
theorem rule_parts_form_closing (closing : tag.closing = true)
    (tabular : mode ∈ [Mode.inTable, .inTableBody, .inRow]) (named : tag.name = "form")
    (fostering : b.fostering = false) (outside : b.hasOpen "template" = false) {form : NodeId}
    (points : b.form = some form) (absent : form ∉ b.stack) :
    b.rule mode (.tag tag) = { b with form := none }.done := by
  have rule : b.rule mode (.tag tag) =
      { { b with fostering := true }.endForm with fostering := false }.done := by
    clear points absent
    obtain ⟨isClosing, name, selfClosing, attributes⟩ := tag
    obtain rfl : isClosing = true := closing
    obtain rfl : name = "form" := named
    fin_cases tabular <;> rfl
  have unscoped : ∀ stack : List NodeId, form ∉ stack →
      hasInScope.search { b with fostering := true, form := none } .element (· = form) stack =
        false := by
    intro stack absent
    induction stack with
    | nil => rfl
    | cons id stack ih =>
        rw [List.mem_cons, not_or] at absent
        rw [hasInScope.search, ih absent.2]
        split <;> simp [Ne.symm absent.1]
  have ended :
      endForm { b with fostering := true } = { b with fostering := true, form := none } := by
    unfold endForm
    rw [show hasOpen { b with fostering := true } "template" = false from outside,
      if_neg Bool.false_ne_true,
      show Construction.form { b with fostering := true } = some form from points]
    dsimp only
    rw [hasInScope, unscoped b.stack absent, if_neg Bool.false_ne_true]
  rw [rule, ended]
  cases b
  cases fostering
  rfl

/-- A form among the parts of a table, where no form is open and no template. -/
theorem Stands.addsHollow_form {name : String}
    (stands : b.Stands setting mode ((.html, name) :: path))
    (tabular : mode ∈ [Mode.inTable, .inTableBody, .inRow]) (puts : b.PutsIn top)
    (spelled : Spelled .html data) (named : data.name = "form")
    (formless : (.html, "form") ∉ (.html, name) :: path)
    (outside : Role.inTemplate ((.html, name) :: path) = false) :
    AddsHollow setting top data b := by
  have opened := spelled.openingName.trans named
  have standing := stands.attend
  have inside := stands.has_spot puts
  have free : b.attend.form = none := standing.form formless
  have shut : b.attend.hasOpen "template" = false := standing.hasOpen_template.trans outside
  have place := standing.place puts
  let added : Construction := b.attend.add top (.element .html data.name
    (Vocabulary.html.attributes (openingTag data).attributes) none)
  let next : Construction := { added with form := some ⟨b.forest.size⟩ }
  have opening : b.attend.applied (.tag (openingTag data)) = next.done := by
    have plain : ¬ (Vocabulary.html = .html ∧ (openingTag data).name = "template") := by
      rw [opened]
      decide
    rw [standing.applied_of_html, rule_parts_form rfl tabular opened shut free,
      (insert_eq place plain _).2, spelled.openingName]
    rfl
  have reads : Reads setting none top [.element data []] b added :=
    .leaf (.element inside spelled.attributes (.nil _ _ _)) { stands.idle with }
      rfl rfl rfl rfl rfl rfl
  have after := stands.after reads
  have still : next.hasOpen "template" = false := after.hasOpen_template.trans outside
  have absent : (⟨b.forest.size⟩ : NodeId) ∉ next.stack := fun member =>
    Forest.not_has_size b.forest (stands.has_of_mem member)
  have html : next.attend.isForeign (.tag (closingTag data)) = false :=
    after.isForeign_eq_false (.tag (closingTag data))
  have closing : next.attend.applied (.tag (closingTag data)) =
      { next.attend with form := none }.done := by
    rw [applied, html, if_neg Bool.false_ne_true, show next.attend.mode = mode from stands.mode]
    exact rule_parts_form_closing rfl tabular (spelled.closingName.trans named)
      stands.idle.fostering still rfl absent
  have unfree : b.form = none := free
  exact ⟨next, _, opening, rfl, closing,
    ⟨{ stands.idle with }, rfl, rfl, rfl, unfree.symm, .refl _, rfl⟩⟩

end ServerPages.Markup.Construction
