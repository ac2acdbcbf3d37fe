import ServerPages.Proofs.Markup.Hollow

/-!
# Framesets

A frameset holds framesets and frames, which are never open. The closing tag of one in another leads
back to the rules for framesets. In a frameset and behind it a text may stand for those who are
shown no frames.
-/

namespace ServerPages.Markup.Construction

variable {b : Construction} {setting : Setting} {area : Area} {mode : Mode} {label : Label}
  {path : List Label} {top id : NodeId} {below : List NodeId} {data : Element} {tag : Tag}

theorem rule_frameset_opening (opening : tag.closing = false) (named : tag.name = "frameset") :
    b.rule .inFrameset (.tag tag) = (b.openFor tag).done := by
  obtain ⟨closing, name, selfClosing, attributes⟩ := tag
  obtain rfl : closing = false := opening
  obtain rfl : name = "frameset" := named
  rfl

/-- The end of a frameset leads to what is behind all of them, unless it is within another. -/
theorem rule_frameset_closing (closing : tag.closing = true) (named : tag.name = "frameset")
    (stack : b.stack = id :: below) (inner : below ≠ []) :
    b.rule .inFrameset (.tag tag) =
      (if !b.isFragment && !(b.leave below).currentIs "frameset" then
        { b.leave below with mode := .afterFrameset } else b.leave below).done := by
  have rule : b.rule .inFrameset (.tag tag) =
      if b.stack.length = 1 then b.done
      else
        let b := b.pop
        (if !b.isFragment && !b.currentIs "frameset" then { b with mode := .afterFrameset }
         else b).done := by
    obtain ⟨isClosing, name, selfClosing, attributes⟩ := tag
    obtain rfl : isClosing = true := closing
    obtain rfl : name = "frameset" := named
    rfl
  have more : b.stack.length ≠ 1 := by
    rw [stack, List.length_cons]
    simpa using inner
  have popped : b.pop = b.leave below := by
    rw [pop, stack]
    rfl
  rw [rule, if_neg more]
  dsimp only
  rw [popped]
  rfl

theorem rule_frame (named : tag.name = "frame") :
    b.rule .inFrameset (.tag tag) = if tag.closing then b.done else (b.addFor tag).done := by
  obtain ⟨closing, name, selfClosing, attributes⟩ := tag
  obtain rfl : name = "frame" := named
  cases closing <;> rfl

theorem rule_noframes (known : mode = .inFrameset ∨ mode = .afterFrameset)
    (opening : tag.closing = false) (named : tag.name = "noframes") :
    b.rule mode (.tag tag) = b.openText tag .raw := by
  obtain ⟨closing, name, selfClosing, attributes⟩ := tag
  obtain rfl : closing = false := opening
  obtain rfl : name = "noframes" := named
  obtain rfl | rfl := known <;> rfl

/-- The tags of a frameset in another. -/
theorem StandsIn.encloses_frameset (stands : b.StandsIn setting .frames mode label path)
    (puts : b.PutsIn top) (spelled : Spelled .html data) (named : data.name = "frameset") :
    ∃ next, Encloses setting .frames top .html data (label :: path) b next := by
  have opened := spelled.openingName
  have standing := stands.stands.attend
  obtain rfl : mode = .inFrameset := stands.reads
  refine encloses_unmarked stands.stands puts spelled (by rw [named]; rfl) (by rw [named]; rfl)
    .inFrameset rfl b.framesetOk ?_ fun inner within current => ?_
  · rw [standing.applied_of_isIn stands.held, rule_frameset_opening rfl (opened.trans named),
      openFor_eq (standing.place puts) (by rw [opened, named]; decide), opened,
      ← stands.stands.attend.mode]
    rfl
  · have more : b.stack ≠ [] := by
      obtain ⟨id, below, stack, _⟩ := puts
      rw [stack]
      exact List.cons_ne_nil _ _
    have outer : (inner.leave b.stack).currentIs "frameset" = true := by
      have labelled := within.stands.labelled
      rw [current.stack] at labelled
      have still : (inner.leave b.stack).Labelled b.stack (label :: path) :=
        (labelled_cons.mp labelled).2
      obtain ⟨top, below, stack⟩ := stands.stands.exists_stack
      rw [stack] at still ⊢
      change (inner.leave (top :: below)).isIn ["frameset"] top = true
      rw [isIn_of_label? (labelled_cons.mp still).1]
      exact stands.held
    rw [within.stands.applied_of_html, rule_frameset_closing rfl (spelled.closingName.trans named)
      current.stack more, outer, ← within.stands.mode]
    simp only [Bool.not_true, Bool.and_false, Bool.false_eq_true, if_false]
    rfl

/-- A frame. -/
theorem StandsIn.addsHollow_frame (stands : b.StandsIn setting .frames mode label path)
    (puts : b.PutsIn top) (spelled : Spelled .html data) (named : data.name = "frame") :
    AddsHollow setting top data b := by
  obtain rfl : mode = .inFrameset := stands.reads
  refine addsHollow_of_addFor stands puts spelled (by rw [named]; decide) (.inl ?_)
    fun next stands => ?_
  · rw [stands.attend.stands.applied_of_isIn stands.held,
      rule_frame (spelled.openingName.trans named)]
    rfl
  · rw [stands.stands.applied_of_isIn stands.held, rule_frame (spelled.closingName.trans named)]
    rfl

/-- A text for those who are shown no frames. -/
theorem StandsIn.opensText_noframes (stands : b.StandsIn setting area mode label path)
    (known : area = .frames ∨ area = .late) (spelled : Spelled .html data)
    (named : data.name = "noframes") : OpensText .raw data b := by
  have reads := stands.reads
  have held := stands.held
  refine opensText_of_openText (by rw [named]; rfl) ?_
  obtain rfl | rfl := known <;> obtain rfl : mode = _ := reads
  · rw [stands.attend.stands.applied_of_isIn held,
      rule_noframes (.inl rfl) rfl (spelled.openingName.trans named)]
  · rw [stands.attend.stands.applied_of_isIn held,
      rule_noframes (.inr rfl) rfl (spelled.openingName.trans named)]

end ServerPages.Markup.Construction
