import ServerPages.Proofs.Markup.Tables

/-!
# Elements without markup in them

Void elements are added by their tag and are never open. Elements that hold text are opened in a
mode of their own, where the text is added and the closing tag leads back to the mode before.
-/

namespace ServerPages.Markup.Construction

variable {b : Construction} {setting : Setting} {area : Area} {mode : Mode} {label : Label}
  {path : List Label} {top : NodeId} {below : List NodeId} {data : Element} {tag : Tag}
  {content : Content} {names : List String}

theorem addsLeaf_of_addFor (stands : b.Stands setting mode (label :: path))
    (puts : b.PutsIn top) (spelled : Spelled .html data)
    (plain : data.name ≠ "template")
    (rule : b.attend.applied (.tag (openingTag data)) =
        (b.attend.addFor (openingTag data)).done ∨
      b.attend.applied (.tag (openingTag data)) =
        (b.attend.addFor (openingTag data)).settle.done) : AddsLeaf top data b := by
  have opened := spelled.openingName
  rw [addFor_eq (stands.attend.place puts) (opened.symm ▸ plain), opened] at rule
  obtain rule | rule := rule
  · exact ⟨b.framesetOk, rule⟩
  · exact ⟨false, rule⟩

theorem opensText_of_openText
    (plain : tellingNames.contains data.name = false)
    (rule : b.attend.applied (.tag (openingTag data)) =
      b.attend.openText (openingTag data) content) : OpensText content data b :=
  ⟨plain, b.framesetOk, false, nofun, rule⟩

/-! ## In the body -/

theorem StandsIn.addsLeaf_flow (stands : b.StandsIn setting .flow mode label path)
    (puts : b.PutsIn top) (spelled : Spelled .html data)
    (other : isMathTextPoint label.1 label.2 = true →
      ["malignmark", "mglyph"].contains data.name = false)
    (alone : (Role.of data.name).staysAlone setting.legacy (label :: path) = true)
    (inside : (Role.of data.name).inside = some (.html, .nothing)) : AddsLeaf top data b := by
  have opened := spelled.openingName
  have standing := stands.stands.attend
  have placed : misplacedNames.contains (openingTag data).name = false := by
    rw [opened]
    exact not_contains_of_inside inside (by decide)
  have plain : data.name ≠ "template" := by
    intro template
    rw [template] at inside
    cases inside
  have role : Role.of (openingTag data).name = Role.of data.name := by rw [opened]
  refine addsLeaf_of_addFor stands.stands puts spelled plain ?_
  rw [stands.attend.applied_open rfl (fun text => opened ▸ other text),
    rule_flow_opening stands.reads rfl placed]
  cases same : Role.of data.name with
  | leaf =>
      rw [same] at role
      exact standing.ruleBodyOpen_leaf rfl (List.mem_append_left _ (Role.mem_names role nofun))
  | rule =>
      rw [same] at role alone
      exact .inr (standing.ruleBodyOpen_rule (Role.mem_names role nofun) alone)
  | _ =>
      rw [same] at inside
      cases inside

theorem StandsIn.opensText_flow (stands : b.StandsIn setting .flow mode label path)
    (spelled : Spelled .html data)
    (other : isMathTextPoint label.1 label.2 = true →
      ["malignmark", "mglyph"].contains data.name = false)
    (alone : (Role.of data.name).staysAlone setting.legacy (label :: path) = true)
    (inside : (Role.of data.name).inside = some (.html, .text content)) :
    OpensText content data b := by
  have opened := spelled.openingName
  have standing := stands.stands.attend
  have placed : misplacedNames.contains (openingTag data).name = false := by
    rw [opened]
    cases content <;> exact not_contains_of_inside inside (by decide)
  have role : Role.of (openingTag data).name = Role.of data.name := by rw [opened]
  have body :
      b.attend.applied (.tag (openingTag data)) = b.attend.ruleBodyOpen (openingTag data) := by
    rw [stands.attend.applied_open rfl (fun text => opened ▸ other text),
      rule_flow_opening stands.reads rfl placed]
  have plain : tellingNames.contains data.name = false := by
    cases content <;> exact not_contains_of_inside inside (by decide)
  refine ⟨plain, ?_⟩
  cases same : Role.of data.name with
  | text other =>
      rw [same] at role inside
      obtain rfl : other = content := by
        cases inside
        rfl
      obtain ⟨framesetOk, dropLineFeed, drops, rule⟩ :=
        Stands.ruleBodyOpen_text (b := b.attend) rfl (Role.mem_names role nofun)
      refine ⟨framesetOk, dropLineFeed, fun drop => ?_, body.trans rule⟩
      exact opened ▸ (drops drop).resolve_right nofun
  | verbatim =>
      rw [same] at role inside alone
      cases inside
      exact ⟨false, false, nofun,
        body.trans (standing.ruleBodyOpen_verbatim (Role.mem_names role nofun) alone)⟩
  | _ =>
      rw [same] at inside
      cases inside

/-! ## Elsewhere -/

section

variable (opening : tag.closing = false)
include opening

theorem rule_head_leaf (named : tag.name ∈ ["base", "link", "meta"]) :
    b.rule .inHead (.tag tag) = (b.addFor tag).done := by
  obtain ⟨closing, name, selfClosing, attributes⟩ := tag
  obtain rfl : closing = false := opening
  fin_cases named <;> rfl

theorem rule_head_text (named : tag.name = "title" ∧ content = .escapable ∨
      tag.name ∈ ["noframes", "noscript", "style"] ∧ content = .raw ∨
      tag.name = "script" ∧ content = .script) :
    b.rule .inHead (.tag tag) = b.openText tag content := by
  obtain ⟨closing, name, selfClosing, attributes⟩ := tag
  obtain rfl : closing = false := opening
  obtain ⟨named, rfl⟩ | ⟨named, rfl⟩ | ⟨named, rfl⟩ := named
  · obtain rfl : name = "title" := named
    rfl
  · fin_cases named <;> rfl
  · obtain rfl : name = "script" := named
    rfl

theorem rule_parts_text (tabular : mode ∈ [Mode.inTable, .inTableBody, .inRow])
    (named : tag.name = "style" ∧ content = .raw ∨ tag.name = "script" ∧ content = .script) :
    b.rule mode (.tag tag) = b.openText tag content := by
  obtain ⟨closing, name, selfClosing, attributes⟩ := tag
  obtain rfl : closing = false := opening
  obtain ⟨named, rfl⟩ | ⟨named, rfl⟩ := named
  · obtain rfl : name = "style" := named
    fin_cases tabular <;> rfl
  · obtain rfl : name = "script" := named
    fin_cases tabular <;> rfl

theorem rule_parts_leaf (tabular : mode ∈ [Mode.inTable, .inTableBody, .inRow])
    (named : tag.name = "input") (hidden : isHidden tag = true) :
    b.rule mode (.tag tag) = (b.addFor tag).done := by
  have rule : b.rule mode (.tag tag) =
      if isHidden tag then (b.addFor tag).done else b.ruleFostered (.tag tag) := by
    clear hidden
    obtain ⟨closing, name, selfClosing, attributes⟩ := tag
    obtain rfl : closing = false := opening
    obtain rfl : name = "input" := named
    fin_cases tabular <;> rfl
  rw [rule, if_pos hidden]

theorem rule_columns_leaf (named : tag.name = "col") :
    b.rule .inColumnGroup (.tag tag) = (b.addFor tag).done := by
  obtain ⟨closing, name, selfClosing, attributes⟩ := tag
  obtain rfl : closing = false := opening
  obtain rfl : name = "col" := named
  rfl

theorem rule_choices_text (choosing : mode = .inSelect ∨ mode = .inSelectInTable)
    (named : tag.name = "script") : b.rule mode (.tag tag) = b.openText tag .script := by
  obtain ⟨closing, name, selfClosing, attributes⟩ := tag
  obtain rfl : closing = false := opening
  obtain rfl : name = "script" := named
  obtain rfl | rfl := choosing <;> rfl

end

end ServerPages.Markup.Construction
