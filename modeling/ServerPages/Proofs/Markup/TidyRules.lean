import ServerPages.Markup.Construction.Accept
import ServerPages.Proofs.Markup.Tidy

/-!
# Rules repeat no attribute

Every rule of every mode keeps the tree tidy, mode by mode: whatever it closes or moves, the
elements that it adds come from tags. So does the tree that a text leads to.
-/

namespace ServerPages.Markup.Construction.Tidy

variable {b : Construction} {tag : Tag} {token : Token}

/-- A rule that depends on a condition. -/
theorem either {condition : Prop} [Decidable condition] {yes no : Construction × Reply}
    (first : yes.1.Tidy) (rest : no.1.Tidy) : (if condition then yes else no).1.Tidy := by
  split
  · exact first
  · exact rest

/-! ## The start of a document -/

theorem ruleInitial (tidy : b.Tidy) (token : Token) : (b.ruleInitial token).1.Tidy := by
  cases token with
  | comment content => exact tidy.putComment _ content
  | _ => exact tidy

theorem ruleBeforeHtml (tidy : b.Tidy) (distinct : token.Distinct) :
    (b.ruleBeforeHtml token).1.Tidy := by
  have implied : (b.createTop []).Tidy := tidy.createTop List.nodup_nil
  cases token with
  | blank run => exact tidy
  | comment content => exact tidy.putComment _ content
  | tag tag => exact .either (tidy.createTop distinct) (.either tidy implied)
  | _ => exact implied

theorem ruleRepeatedTop (tidy : b.Tidy) (distinct : tag.Distinct) :
    (b.ruleRepeatedTop tag).1.Tidy := by
  unfold Construction.ruleRepeatedTop
  split
  · exact .either tidy (tidy.addMissing _ distinct)
  · exact tidy

theorem ruleBeforeHead (tidy : b.Tidy) (distinct : token.Distinct) :
    (b.ruleBeforeHead token).1.Tidy := by
  have implied := tidy.openTag (Tag.distinct_opening "head")
  cases token with
  | blank run => exact tidy
  | comment content => exact tidy.putComment _ content
  | tag tag =>
      exact .either (tidy.ruleRepeatedTop distinct) <|
        .either (tidy.openTag distinct) <|
        .either tidy implied
  | _ => exact implied

theorem openTemplate (tidy : b.Tidy) (distinct : tag.Distinct) : (b.openTemplate tag).Tidy :=
  (tidy.openFor distinct).mark

theorem leaveTemplate (tidy : b.Tidy) : b.leaveTemplate.Tidy :=
  unmark (b := b.popThrough ["template"]) tidy

theorem ruleInHead (tidy : b.Tidy) (distinct : token.Distinct) :
    (b.ruleInHead token).1.Tidy := by
  cases token with
  | blank run => exact tidy.appendText run
  | comment content => exact tidy.putComment _ content
  | tag tag =>
      exact .either (tidy.ruleRepeatedTop distinct) <|
        .either (tidy.addFor distinct) <|
        .either (tidy.openText distinct .escapable) <|
        .either (tidy.openText distinct .raw) <|
        .either (tidy.openText distinct .script) <|
        .either tidy <|
        .either tidy <|
        .either (tidy.openTemplate distinct) <|
        .either (.either (leaveTemplate (b := b.closeImpliedThoroughly) tidy) tidy) <|
        .either tidy tidy
  | _ => exact tidy

theorem ruleAfterHead (tidy : b.Tidy) (distinct : token.Distinct) :
    (b.ruleAfterHead token).1.Tidy := by
  have implied := tidy.openImplied "body"
  cases token with
  | blank run => exact tidy.appendText run
  | comment content => exact tidy.putComment _ content
  | tag tag =>
      refine .either (tidy.ruleRepeatedTop distinct) <|
        .either (tidy.openFor distinct) <|
        .either (tidy.openFor distinct) <|
        .either ?_ <|
        .either (tidy.ruleInHead distinct) <|
        .either implied <|
        .either tidy implied
      split
      · rename_i head _
        exact ruleInHead (b := { b with stack := head :: b.stack }) tidy distinct
      · exact tidy
  | _ => exact implied

theorem ruleTemplateEnds (tidy : b.Tidy) : b.ruleTemplateEnds.1.Tidy :=
  .either tidy.leaveTemplate tidy

/-! ## The body -/

theorem settle (tidy : b.Tidy) : b.settle.Tidy := tidy

theorem endItem (tidy : b.Tidy) (names : List String) : (b.endItem names).Tidy := by
  unfold Construction.endItem
  dsimp only
  split
  · split
    · exact .ite tidy tidy
    · exact tidy
  · exact tidy

theorem endBlock (tidy : b.Tidy) (name : String) : (b.endBlock name).Tidy :=
  .ite tidy tidy

theorem endForm (tidy : b.Tidy) : b.endForm.Tidy := by
  refine .ite (.ite tidy tidy) ?_
  split
  · exact tidy
  · exact .ite tidy tidy

theorem endLink (tidy : b.Tidy) : b.endLink.Tidy := by
  unfold Construction.endLink
  dsimp only
  split
  · rename_i link _
    exact (tidy.closeFormatting "a").forget link
  · exact tidy

theorem openForeign (tidy : b.Tidy) (vocabulary : Vocabulary) (name : String)
    (distinct : tag.Distinct) : (b.openForeign vocabulary name tag).Tidy :=
  tidy.insert _ vocabulary name (distinct.once vocabulary)

theorem ruleBodyOpen (tidy : b.Tidy) (distinct : tag.Distinct) :
    (b.ruleBodyOpen tag).1.Tidy := by
  have ended := tidy.endParagraph.openFor distinct
  have again := tidy.reconstruct.openFor distinct
  have added := tidy.reconstruct.addFor distinct
  unfold Construction.ruleBodyOpen
  dsimp -zeta only
  refine .either (tidy.ruleRepeatedTop distinct) <|
    .either (tidy.ruleInHead distinct) <|
    .either ?body <|
    .either ?frameset <|
    .either ended <|
    .either ?heading <|
    .either ended <|
    .either ?form <|
    .either ((tidy.settle.endItem ["li"]).endParagraph.openFor distinct) <|
    .either ((tidy.settle.endItem ["dd", "dt"]).endParagraph.openFor distinct) <|
    .either ended <|
    .either ((tidy.endBlock "button").reconstruct.openFor distinct) <|
    .either (tidy.endLink.reconstruct.openFormatting distinct) <|
    .either (tidy.reconstruct.openFormatting distinct) <|
    .either ?nobr <|
    .either again.mark <|
    .either ?table <|
    .either added <|
    .either (.ite added added) <|
    .either (tidy.addFor distinct) <|
    .either (tidy.endParagraph.addFor distinct) <|
    .either ?image <|
    .either ?textarea <|
    .either (tidy.endParagraph.reconstruct.settle.openText distinct .raw) <|
    .either (tidy.settle.openText distinct .raw) <|
    .either (tidy.openText distinct .raw) <|
    .either again <|
    .either ?option <|
    .either ?ruby <|
    .either ?rubyText <|
    .either (tidy.openForeign .math _ distinct) <|
    .either (tidy.openForeign .svg _ distinct) <|
    .either tidy again
  case body =>
    split
    · exact .either tidy (tidy.settle.addMissing _ distinct)
    · exact tidy
  case frameset =>
    split
    · rename_i body top _ _ _
      exact openFor (b := { b with forest := b.forest.detach body, stack := [top] })
        (tidy.withForest (tidy.parts.detach body)) distinct
    · exact tidy
  case heading =>
    refine openFor ?_ distinct
    exact .ite tidy.endParagraph tidy.endParagraph
  case form => exact .either tidy (.ite ended ended)
  case nobr =>
    refine openFormatting ?_ distinct
    exact .ite (tidy.reconstruct.closeFormatting "nobr").reconstruct tidy.reconstruct
  case table =>
    refine openFor ?_ distinct
    exact .ite tidy tidy.endParagraph
  case image =>
    have renamed : Tag.Distinct { tag with name := "img" } := distinct
    have image := tidy.reconstruct.addFor renamed
    exact image
  case textarea =>
    exact openText (b := { b.settle with dropLineFeed := true }) tidy distinct .escapable
  case option =>
    refine openFor (reconstruct ?_) distinct
    exact .ite tidy tidy
  case ruby | rubyText =>
    refine openFor ?_ distinct
    exact .ite tidy tidy

theorem ruleBodyClose (tidy : b.Tidy) (distinct : tag.Distinct) :
    (b.ruleBodyClose tag).1.Tidy :=
  .either (tidy.ruleInHead distinct) <|
    .either (.ite tidy tidy) <|
    .either (.either tidy tidy) <|
    .either (tidy.endBlock _) <|
    .either tidy.endForm <|
    .either (.ite tidy (tidy.openImplied "p")) <|
    .either (.ite tidy tidy) <|
    .either (.ite tidy tidy) <|
    .either (.ite tidy tidy) <|
    .either (tidy.closeFormatting _) <|
    .either (.ite tidy.unmark tidy) <|
    .either (tidy.ruleBodyOpen (Tag.distinct_opening "br")) (tidy.closeOther _)

theorem ruleInBody (tidy : b.Tidy) (distinct : token.Distinct) :
    (b.ruleInBody token).1.Tidy := by
  cases token with
  | null | doctype => exact tidy
  | blank run => exact tidy.reconstruct.appendText run
  | text run => exact tidy.reconstruct.settle.appendText run
  | comment content => exact tidy.putComment _ content
  | tag tag => exact .either (tidy.ruleBodyClose distinct) (tidy.ruleBodyOpen distinct)
  | endOfInput => exact .either tidy tidy.ruleTemplateEnds

theorem ruleInText (tidy : b.Tidy) (token : Token) : (b.ruleInText token).1.Tidy := by
  cases token with
  | blank run | text run => exact tidy.appendText run
  | _ => exact tidy

theorem ruleAfterBody (tidy : b.Tidy) (distinct : token.Distinct) :
    (b.ruleAfterBody token).1.Tidy := by
  cases token with
  | blank run => exact tidy.ruleInBody distinct
  | comment content => exact tidy.putComment _ content
  | tag tag =>
      exact .either (tidy.ruleRepeatedTop distinct) (.either (.ite tidy tidy) tidy)
  | _ => exact tidy

theorem ruleAfterAfterBody (tidy : b.Tidy) (distinct : token.Distinct) :
    (b.ruleAfterAfterBody token).1.Tidy := by
  cases token with
  | blank run => exact tidy.ruleInBody distinct
  | comment content => exact tidy.putComment _ content
  | tag tag => exact .either (tidy.ruleRepeatedTop distinct) tidy
  | _ => exact tidy

/-! ## Tables -/

theorem ruleFostered (tidy : b.Tidy) (distinct : token.Distinct) :
    (b.ruleFostered token).1.Tidy :=
  ruleInBody (b := { b with fostering := true }) tidy distinct

theorem ruleCharsInTable (tidy : b.Tidy) (distinct : token.Distinct) :
    (b.ruleCharsInTable token).1.Tidy :=
  .either tidy (tidy.ruleFostered distinct)

theorem popDownTo (tidy : b.Tidy) (names : List String) : (b.popDownTo names).Tidy := tidy

theorem ruleInTable (tidy : b.Tidy) (distinct : token.Distinct) :
    (b.ruleInTable token).1.Tidy := by
  cases token with
  | null | blank | text => exact tidy.ruleCharsInTable distinct
  | comment content => exact tidy.putComment _ content
  | endOfInput => exact tidy.ruleInBody distinct
  | doctype => exact tidy
  | tag tag =>
      have inTable := tidy.popDownTo tableScope
      exact .either (inTable.mark.openFor distinct) <|
        .either (inTable.openFor distinct) <|
        .either (inTable.openImplied "colgroup") <|
        .either (inTable.openFor distinct) <|
        .either (inTable.openImplied "tbody") <|
        .either (.either tidy tidy) <|
        .either (.either tidy tidy) <|
        .either tidy <|
        .either (tidy.ruleInHead distinct) <|
        .either (.either (tidy.addFor distinct) (tidy.ruleFostered distinct)) <|
        .either (.either tidy (tidy.addFor distinct)) <|
        tidy.ruleFostered distinct

theorem releaseTableText (tidy : b.Tidy) : b.releaseTableText.Tidy := by
  have start : Tidy { b with tableText := [] } := { tidy with pending := nofun }
  unfold Construction.releaseTableText
  dsimp only
  split
  · exact List.foldlRecOn (motive := Tidy) b.tableText _ start fun _ kept token member =>
      kept.ruleFostered (tidy.pending token member)
  · refine List.foldlRecOn (motive := Tidy) b.tableText _ start fun _ kept token _ => ?_
    split
    · exact kept.appendText _
    · exact kept

theorem ruleInTableText (tidy : b.Tidy) (distinct : token.Distinct) :
    (b.ruleInTableText token).1.Tidy := by
  have gathered : Tidy { b with tableText := b.tableText ++ [token] } :=
    { tidy with
      pending := List.forall_mem_append.mpr
        ⟨tidy.pending, List.forall_mem_singleton.mpr distinct⟩ }
  cases token with
  | null => exact tidy
  | blank | text => exact gathered
  | _ => exact tidy.releaseTableText

theorem ruleInCaption (tidy : b.Tidy) (distinct : token.Distinct) :
    (b.ruleInCaption token).1.Tidy := by
  cases token with
  | tag tag =>
      have closed : ((b.closeImplied.popThrough ["caption"]).unmark).Tidy :=
        unmark (b := b.closeImplied.popThrough ["caption"]) tidy
      exact .either (.either (.either closed closed) tidy) <|
        .either tidy (tidy.ruleInBody distinct)
  | _ => exact tidy.ruleInBody distinct

theorem ruleInColumnGroup (tidy : b.Tidy) (distinct : token.Distinct) :
    (b.ruleInColumnGroup token).1.Tidy := by
  have left : (if b.currentIs "colgroup" then b.pop.again .inTable else b.done).1.Tidy :=
    .either tidy tidy
  cases token with
  | blank run => exact tidy.appendText run
  | comment content => exact tidy.putComment _ content
  | endOfInput => exact tidy.ruleInBody distinct
  | tag tag =>
      exact .either (tidy.ruleRepeatedTop distinct) <|
        .either (tidy.addFor distinct) <|
        .either (.ite tidy tidy) <|
        .either tidy <|
        .either (tidy.ruleInHead distinct) left
  | _ => exact left

theorem ruleInTableBody (tidy : b.Tidy) (distinct : token.Distinct) :
    (b.ruleInTableBody token).1.Tidy := by
  cases token with
  | tag tag =>
      have inSection := tidy.popDownTo sectionScope
      exact .either (inSection.openFor distinct) <|
        .either (inSection.openImplied "tr") <|
        .either (.ite tidy tidy) <|
        .either (.either tidy tidy) <|
        .either tidy (tidy.ruleInTable distinct)
  | _ => exact tidy.ruleInTable distinct

theorem ruleInRow (tidy : b.Tidy) (distinct : token.Distinct) :
    (b.ruleInRow token).1.Tidy := by
  cases token with
  | tag tag =>
      exact .either ((tidy.popDownTo rowScope).openFor distinct).mark <|
        .either (.ite tidy tidy) <|
        .either (.either tidy tidy) <|
        .either (.either tidy tidy) <|
        .either tidy (tidy.ruleInTable distinct)
  | _ => exact tidy.ruleInTable distinct

theorem closeCell (tidy : b.Tidy) : b.closeCell.Tidy :=
  unmark (b := b.closeImplied.popThrough cellNames) tidy

theorem ruleInCell (tidy : b.Tidy) (distinct : token.Distinct) :
    (b.ruleInCell token).1.Tidy := by
  cases token with
  | tag tag =>
      have closed : ((b.closeImplied.popThrough [tag.name]).unmark).Tidy :=
        unmark (b := b.closeImplied.popThrough [tag.name]) tidy
      exact .either (.ite closed tidy) <|
        .either (.either tidy.closeCell tidy) <|
        .either tidy <|
        .either (.either tidy.closeCell tidy) (tidy.ruleInBody distinct)
  | _ => exact tidy.ruleInBody distinct

/-! ## Choices, templates and framesets -/

theorem ruleInSelect (tidy : b.Tidy) (distinct : token.Distinct) :
    (b.ruleInSelect token).1.Tidy := by
  cases token with
  | null | doctype => exact tidy
  | blank run | text run => exact tidy.appendText run
  | comment content => exact tidy.putComment _ content
  | endOfInput => exact tidy.ruleInBody distinct
  | tag tag =>
      have popped {next : Construction} (tidy : next.Tidy) (condition : Bool) :
          (if condition then next.pop else next).Tidy := .ite tidy tidy
      have option := popped tidy (b.currentIs "option")
      have group : (let next := if b.currentIs "option" then b.pop else b
          if next.currentIs "optgroup" then next.pop else next).Tidy := popped option _
      have ended := popped tidy
        (b.currentIs "option" && (b.stack.tail.head?.map (b.isNamed "optgroup")).getD false)
      exact .either (tidy.ruleRepeatedTop distinct) <|
        .either (option.openFor distinct) <|
        .either (group.openFor distinct) <|
        .either (popped ended _) <|
        .either (.ite tidy tidy) <|
        .either (.either tidy tidy) <|
        .either (.either tidy tidy) <|
        .either (tidy.ruleInHead distinct) tidy

theorem ruleInSelectInTable (tidy : b.Tidy) (distinct : token.Distinct) :
    (b.ruleInSelectInTable token).1.Tidy := by
  cases token with
  | tag tag =>
      exact .either tidy <|
        .either (.either tidy tidy) (tidy.ruleInSelect distinct)
  | _ => exact tidy.ruleInSelect distinct

theorem ruleInTemplate (tidy : b.Tidy) (distinct : token.Distinct) :
    (b.ruleInTemplate token).1.Tidy := by
  cases token with
  | blank | text | comment => exact tidy.ruleInBody distinct
  | null | doctype => exact tidy
  | endOfInput => exact tidy.ruleTemplateEnds
  | tag tag =>
      exact .either (tidy.ruleInHead distinct) <|
        .either tidy <|
        .either tidy <|
        .either tidy <|
        .either tidy <|
        .either tidy tidy

theorem ruleInFrameset (tidy : b.Tidy) (distinct : token.Distinct) :
    (b.ruleInFrameset token).1.Tidy := by
  cases token with
  | blank run => exact tidy.appendText run
  | comment content => exact tidy.putComment _ content
  | tag tag =>
      exact .either (tidy.ruleRepeatedTop distinct) <|
        .either (tidy.openFor distinct) <|
        .either (.either tidy (.ite tidy tidy)) <|
        .either (tidy.addFor distinct) <|
        .either (tidy.ruleInHead distinct) tidy
  | _ => exact tidy

theorem ruleAfterFrameset (tidy : b.Tidy) (distinct : token.Distinct) :
    (b.ruleAfterFrameset token).1.Tidy := by
  cases token with
  | blank run => exact tidy.appendText run
  | comment content => exact tidy.putComment _ content
  | tag tag =>
      exact .either (tidy.ruleRepeatedTop distinct) <|
        .either tidy <|
        .either (tidy.ruleInHead distinct) tidy
  | _ => exact tidy

theorem ruleAfterAfterFrameset (tidy : b.Tidy) (distinct : token.Distinct) :
    (b.ruleAfterAfterFrameset token).1.Tidy := by
  cases token with
  | blank run => exact tidy.ruleInBody distinct
  | comment content => exact tidy.putComment _ content
  | tag tag =>
      exact .either (tidy.ruleRepeatedTop distinct) <|
        .either (tidy.ruleInHead distinct) tidy
  | _ => exact tidy

/-! ## All modes -/

/-- Whatever the mode, its rules repeat no attribute. -/
theorem rule (tidy : b.Tidy) (mode : Mode) (distinct : token.Distinct) :
    (b.rule mode token).1.Tidy := by
  cases mode with
  | initial => exact tidy.ruleInitial token
  | beforeHtml => exact tidy.ruleBeforeHtml distinct
  | beforeHead => exact tidy.ruleBeforeHead distinct
  | inHead => exact tidy.ruleInHead distinct
  | afterHead => exact tidy.ruleAfterHead distinct
  | inBody => exact tidy.ruleInBody distinct
  | inText => exact tidy.ruleInText token
  | inTable => exact tidy.ruleInTable distinct
  | inTableText => exact tidy.ruleInTableText distinct
  | inCaption => exact tidy.ruleInCaption distinct
  | inColumnGroup => exact tidy.ruleInColumnGroup distinct
  | inTableBody => exact tidy.ruleInTableBody distinct
  | inRow => exact tidy.ruleInRow distinct
  | inCell => exact tidy.ruleInCell distinct
  | inSelect => exact tidy.ruleInSelect distinct
  | inSelectInTable => exact tidy.ruleInSelectInTable distinct
  | inTemplate => exact tidy.ruleInTemplate distinct
  | afterBody => exact tidy.ruleAfterBody distinct
  | inFrameset => exact tidy.ruleInFrameset distinct
  | afterFrameset => exact tidy.ruleAfterFrameset distinct
  | afterAfterBody => exact tidy.ruleAfterAfterBody distinct
  | afterAfterFrameset => exact tidy.ruleAfterAfterFrameset distinct

/-! ## Elements that are not HTML -/

theorem openWithin (tidy : b.Tidy) (distinct : tag.Distinct) : (b.openWithin tag).Tidy := by
  unfold Construction.openWithin
  split
  · exact tidy.openForeign _ _ distinct
  · exact tidy.openFor distinct

theorem closeWithin (tidy : b.Tidy) (distinct : tag.Distinct) (first : Bool)
    (stack : List NodeId) : (b.closeWithin tag first stack).1.Tidy := by
  have token : (Token.tag tag).Distinct := distinct
  induction stack generalizing first with
  | nil => exact tidy
  | cons id below ih =>
      cases below with
      | nil => exact tidy
      | cons other below =>
          rw [Construction.closeWithin]
          split
          · exact .either (tidy.rule b.mode token) (.either tidy (ih false))
          · exact ih false
          · exact nofun

theorem ruleForeign (tidy : b.Tidy) (distinct : token.Distinct) :
    (b.ruleForeign token).1.Tidy := by
  cases token with
  | null => exact tidy.appendText _
  | blank run => exact tidy.appendText run
  | text run => exact tidy.settle.appendText run
  | comment content => exact tidy.putComment _ content
  | doctype | endOfInput => exact tidy
  | tag tag =>
      exact .either (rule (b := b.popForeign) tidy _ distinct) <|
        .either (tidy.closeWithin distinct true b.stack) (tidy.openWithin distinct)

/-! ## Tokens -/

theorem process (steps : Nat) (tidy : b.Tidy) (distinct : token.Distinct) :
    (process steps b token).1.Tidy := by
  induction steps generalizing b with
  | zero => exact tidy
  | succ steps ih =>
      have applied : (if b.isForeign token then b.ruleForeign token
          else b.rule b.mode token).1.Tidy :=
        .either (tidy.ruleForeign distinct) (tidy.rule b.mode distinct)
      rw [Construction.process]
      split
      · rename_i same
        rw [same] at applied
        exact applied
      · rename_i same
        rw [same] at applied
        exact ih applied
      · rename_i same
        rw [same] at applied
        exact applied

theorem accept (tidy : b.Tidy) (distinct : token.Distinct) : (b.accept token).1.Tidy := by
  have start : Tidy { b with dropLineFeed := false } := tidy
  unfold Construction.accept
  extract_lets drop next trimmed
  split
  · split
    · rename_i name legacy _
      have typed : Tidy { next with
          forest := (next.forest.create (.doctype name)).2, legacy, mode := .beforeHtml } :=
        tidy.withForest (tidy.parts.create (Part.once_doctype name))
      exact typed.put _ _
    · exact tidy
  · rename_i run
    have plain : (Token.blank (trimmed run)).Distinct := trivial
    change Tidy (if (trimmed run).isEmpty then (next, none)
      else Construction.process next.patience next (.blank (trimmed run))).1
    split
    · exact tidy
    · exact process _ start plain
  · rename_i run
    have plain : (Token.text (trimmed run)).Distinct := trivial
    change Tidy (if (trimmed run).isEmpty then (next, none)
      else Construction.process next.patience next (.text (trimmed run))).1
    split
    · exact tidy
    · exact process _ start plain
  · exact process _ start distinct

end ServerPages.Markup.Construction.Tidy
