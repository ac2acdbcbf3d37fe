import ServerPages.Proofs.Markup.Admission

/-!
# Texts where they may stand

Characters are added where they are read, but for blanks among the parts of a table. These wait for
the next tag or comment, which adds them before it is taken itself: to that token the construction
is as good as the one with the blanks in it.
-/

namespace ServerPages.Markup.Construction

open Subtree (ofText)

variable {b settled next : Construction} {setting : Setting} {area : Area} {mode : Mode}
  {label : Label} {path : List Label} {top : NodeId} {below : List NodeId} {token : Token}
  {run : List Char} {parent : Option String}

def IsMark (token : Token) : Prop :=
  (∃ tag, token = .tag tag) ∨ ∃ content, token = .comment content

/-- A token is taken as in another construction. -/
def Yields (b : Construction) (token : Token) (settled : Construction) : Prop :=
  ∃ steps, b.accept token = process (steps + 1) settled.attend token

/-- Tags and comments are taken as in another construction: the same, or that with the characters
added that still wait. It may take one more step there. -/
def Settles (b settled : Construction) : Prop :=
  ∀ token, IsMark token → ∃ steps, b.accept token = process (steps + 2) settled.attend token

theorem attend_eq (attentive : b.dropLineFeed = false) : b.attend = b := by
  cases b
  cases attentive
  rfl

theorem accept_mark (isMark : IsMark token) :
    b.accept token = process b.attend.patience b.attend token := by
  obtain ⟨tag, rfl⟩ | ⟨content, rfl⟩ := isMark
  · rfl
  · rfl

theorem Settles.same (b : Construction) : b.Settles b := by
  intro token isMark
  obtain ⟨more, enough⟩ := patience_eq b.attend
  exact ⟨more + 14, enough ▸ accept_mark isMark⟩

theorem Settles.waiting (attentive : b.dropLineFeed = false)
    (attends : settled.dropLineFeed = false)
    (released : ∀ token, IsMark token → b.applied token = (settled, .again)) :
    b.Settles settled := by
  intro token isMark
  obtain ⟨more, enough⟩ := patience_eq b.attend
  refine ⟨more + 13, ?_⟩
  rw [accept_mark isMark, enough, attend_eq attentive, attend_eq attends]
  exact process_of_again (released token isMark) _

theorem Settles.yields (settles : b.Settles settled) (isMark : IsMark token) :
    b.Yields token settled := by
  obtain ⟨steps, accepted⟩ := settles token isMark
  exact ⟨steps + 1, accepted⟩

/-- A tag or comment that is looked at again is taken as in what it is looked at in. -/
theorem Settles.yields_of_again (settles : b.Settles settled) (isMark : IsMark token)
    (again : settled.attend.applied token = (next.attend, .again)) : b.Yields token next := by
  obtain ⟨steps, accepted⟩ := settles token isMark
  exact ⟨steps, accepted.trans (process_of_again again _)⟩

theorem Yields.accept_of_done (yields : b.Yields token settled)
    (done : settled.attend.applied token = next.done) : b.accept token = (next, none) := by
  obtain ⟨steps, accepted⟩ := yields
  exact accepted.trans (process_of_done done steps)

theorem Yields.accept_of_read (yields : b.Yields token settled) {content : Content}
    (reads : settled.attend.applied token = (next, .read content)) :
    b.accept token = (next, some content) := by
  obtain ⟨steps, accepted⟩ := yields
  exact accepted.trans (process_of_read reads steps)

/-! ## Texts that are added at once -/

theorem appendText_fostering (place : b.place = .last top)
    (fostered : Construction.place { b with fostering := true } = .last top)
    (fostering : b.fostering = false) (run : List Char) :
    { appendText { b with fostering := true } run with fostering := false } = b.appendText run := by
  by_cases ends : ∃ id content, b.EndsInText top id content
  · obtain ⟨id, content, ends⟩ := ends
    have ends' : EndsInText { b with fostering := true } top id content := ends
    rw [appendText_extend place ends, appendText_extend fostered ends', ← fostering]
  · have apart : ∀ id content, ¬ b.EndsInText top id content :=
      fun id content ends' => ends ⟨id, content, ends'⟩
    have apart' : ∀ id content, ¬ EndsInText { b with fostering := true } top id content := apart
    rw [appendText_eq place apart, appendText_eq fostered apart', ← fostering]
    rfl

/-- In a template that holds parts of a table characters are added, as there is no table that they
could be put in front of. -/
theorem StandsIn.takesRuns_template (stands : b.StandsIn setting area mode label path)
    (puts : b.PutsIn top) (tabular : mode ∈ [Mode.inTable, .inTableBody, .inRow])
    (template : label = (.html, "template")) : b.TakesRuns := by
  intro run token isRun
  subst template
  have rebuilt : reconstruct { b with fostering := true } = { b with fostering := true } :=
    reconstruct_eq fun _ _ member => (stands.stands.open_of_sinceMark member).1
  have outside : b.currentIn tableParts = false := stands.stands.currentIn _
  have fostered (framesetOk : Bool) :
      Construction.place { b with framesetOk, fostering := true } = .last top := by
    obtain ⟨id, below, stack, rfl⟩ := puts
    rw [currentIn, stack, List.head?_cons, Option.map_some, Option.getD_some] at outside
    have place : Construction.place { b with framesetOk, fostering := true } =
        if b.isIn tableParts (b.stack.head?.getD Forest.root) then
          fosterPlace { b with framesetOk, fostering := true } b.stack
        else .last (b.insideOf (b.stack.head?.getD Forest.root)) := rfl
    rw [place, stack, List.head?_cons, Option.getD_some, outside, if_neg Bool.false_ne_true]
  have ruled : b.rule mode token = b.ruleFostered token := by
    have gathers : b.rule mode token = b.ruleCharsInTable token := by
      obtain rfl | rfl := isRun <;> fin_cases tabular <;> rfl
    rw [gathers, ruleCharsInTable, outside, if_neg Bool.false_ne_true]
  rw [stands.stands.applied_of_html, ruled, ruleFostered]
  obtain rfl | rfl := isRun
  · refine ⟨b.framesetOk, ?_⟩
    rw [ruleInBody]
    dsimp only
    rw [rebuilt]
    exact congrArg (·, Reply.done)
      (appendText_fostering (stands.stands.place puts) (fostered _) stands.stands.idle.fostering
        run)
  · refine ⟨false, ?_⟩
    rw [ruleInBody]
    dsimp only
    rw [rebuilt]
    exact congrArg (·, Reply.done) (appendText_fostering (b := b.settle)
      (place_eq { stands.stands.idle with } puts) (fostered false) stands.stands.idle.fostering run)

theorem StandsIn.takesRuns (stands : b.StandsIn setting area mode label path)
    (puts : b.PutsIn top) (speaks : area.isBlank (label :: path) = false) : b.TakesRuns := by
  cases area with
  | flow =>
      intro run token isRun
      have rebuilt := stands.stands.reconstruct
      have among := mem_of_flowMode stands.reads
      rw [stands.applied_run isRun]
      obtain rfl | rfl := isRun
      · refine ⟨b.framesetOk, Eq.trans (b := (b.reconstruct.appendText run).done) ?_ ?_⟩
        · fin_cases among <;> rfl
        · rw [rebuilt]
          rfl
      · refine ⟨false, Eq.trans (b := (b.reconstruct.settle.appendText run).done) ?_ ?_⟩
        · fin_cases among <;> rfl
        · rw [rebuilt]
          rfl
  | template =>
      intro run token isRun
      obtain rfl : mode = .inTemplate := stands.reads
      have rebuilt := stands.stands.reconstruct
      rw [stands.stands.applied_of_isIn stands.held]
      obtain rfl | rfl := isRun
      · refine ⟨b.framesetOk, Eq.trans (b := (b.reconstruct.appendText run).done) rfl ?_⟩
        rw [rebuilt]
        rfl
      · refine ⟨false, Eq.trans (b := (b.reconstruct.settle.appendText run).done) rfl ?_⟩
        rw [rebuilt]
        rfl
  | foreign =>
      intro run token isRun
      obtain rfl | rfl := isRun
      · exact ⟨b.framesetOk, stands.applied_foreign nofun⟩
      · exact ⟨false, stands.applied_foreign nofun⟩
  | notes =>
      intro run token isRun
      obtain rfl | rfl := isRun
      · exact ⟨b.framesetOk, stands.applied_notes nofun nofun⟩
      · exact ⟨false, stands.applied_notes nofun nofun⟩
  | choices =>
      intro run token isRun
      rw [stands.stands.applied_of_isIn stands.held]
      obtain rfl | rfl := stands.choosing <;> obtain rfl | rfl := isRun
      all_goals exact ⟨b.framesetOk, rfl⟩
  | table | rows | cells =>
      obtain rfl : mode = _ := stands.reads
      have held : Role.headIn ["template"] (label :: path) = true :=
        (Bool.not_eq_false' _).mp speaks
      obtain ⟨vocabulary, name⟩ := label
      cases vocabulary with
      | svg | math => cases held
      | html =>
          have among := List.contains_iff_mem.mp (show ["template"].contains name = true from held)
          fin_cases among
          exact stands.takesRuns_template puts (by decide) rfl
  | head | gap | columns | frames | late => cases speaks

theorem ofChars_of_isSpace {chars : List Char} (blank : chars.all isSpace = true)
    (nonempty : chars ≠ []) : Token.ofChars chars = [.blank chars] := by
  have space {c : Char} (blank : isSpace c = true) : c ≠ '\x00' := by
    rintro rfl
    cases blank
  induction chars with
  | nil => exact absurd rfl nonempty
  | cons c chars ih =>
      rw [List.all_cons, Bool.and_eq_true] at blank
      change Token.consChar c (Token.ofChars chars) = _
      unfold Token.consChar
      rw [if_neg (space blank.1), if_pos blank.1]
      cases chars with
      | nil => rfl
      | cons d chars =>
          rw [ih blank.2 (List.cons_ne_nil _ _)]

/-! ## Blanks -/

/-- Where nothing but blanks may stand, and no parts of a table, they are added at once. -/
theorem StandsIn.reads_blank (stands : b.StandsIn setting area mode label path)
    (puts : b.PutsIn top) (simple : area ∈ [Area.head, .gap, .columns, .frames, .late])
    (apart : ∀ id content, ¬ b.EndsInText top id content) (nonempty : run ≠ [])
    (kept : b.dropLineFeed = true → run.head? ≠ some '\n') :
    Reads setting parent top [ofText parent (String.ofList run)] b (b.accept (.blank run)).1 := by
  have ruled : b.attend.applied (.blank run) = (b.attend.appendText run).done := by
    have held := stands.held
    have reads := stands.reads
    fin_cases simple
    · obtain ⟨rfl, _⟩ : mode = _ ∧ _ := reads
      exact stands.stands.attend.applied_of_isIn held _
    all_goals
      obtain rfl : mode = _ := reads
      exact stands.stands.attend.applied_of_isIn held _
  have accepted : b.accept (.blank run) = (b.attend.appendText run, none) :=
    (accept_chars (.inl rfl) nonempty kept).trans (process_of_done ruled _)
  rw [accepted]
  exact reads_firstRun stands.stands puts apart run b.framesetOk

def wait (b : Construction) (waiting : List Token) : Construction :=
  { b.attend with resume := b.mode, mode := .inTableText, tableText := waiting }

theorem Stands.wait (stands : b.Stands setting mode (label :: path)) :
    (b.wait []).Stands setting .inTableText (label :: path) :=
  stands.moved { stands.idle with tableText := rfl } rfl rfl rfl rfl rfl

theorem wait_of_attend (empty : b.tableText = []) :
    { b.attend with resume := b.mode, mode := .inTableText } = b.wait [] := by
  rw [Construction.wait, ← empty]
  rfl

/-- In a part of a table the rules for its parts are set. -/
theorem StandsIn.tabular (stands : b.StandsIn setting area mode label path)
    (tabular : area ∈ [Area.table, .rows, .cells]) (plain : area.isBlank (label :: path) = true) :
    mode ∈ [Mode.inTable, .inTableBody, .inRow] ∧
      ∃ name, label = (.html, name) ∧ tableParts.contains name = true := by
  obtain ⟨vocabulary, name⟩ := label
  have held := stands.held
  have reads := stands.reads
  simp only [List.mem_cons, List.not_mem_nil, or_false] at tabular
  cases vocabulary with
  | svg | math => obtain rfl | rfl | rfl := tabular <;> cases held
  | html =>
      refine ⟨?_, name, rfl, ?_⟩
      · obtain rfl | rfl | rfl := tabular <;> obtain rfl : mode = _ := reads <;> decide
      · have other : ["template"].contains name = false := by
          obtain rfl | rfl | rfl := tabular <;> exact (Bool.not_eq_true' _).mp plain
        obtain rfl | rfl | rfl := tabular <;>
        · have among := List.contains_iff_mem.mp held
          fin_cases among <;> first | rfl | cases other

/-- Blanks among the parts of a table wait. -/
theorem StandsIn.reads_waiting (stands : b.StandsIn setting area mode label path)
    (puts : b.PutsIn top) (tabular : area ∈ [Area.table, .rows, .cells])
    (plain : area.isBlank (label :: path) = true)
    (apart : ∀ id content, ¬ b.EndsInText top id content) (nonempty : run ≠ [])
    (kept : b.dropLineFeed = true → run.head? ≠ some '\n') :
    ∃ settled, (b.accept (.blank run)).1.Settles settled ∧
      Reads setting parent top [ofText parent (String.ofList run)] b settled := by
  have standing := stands.stands.attend
  obtain ⟨among, name, rfl, part⟩ := stands.tabular tabular plain
  have waits := standing.wait
  have starts : b.attend.applied (.blank run) = (b.wait [], .again) := by
    have gathers : b.attend.rule mode (.blank run) = b.attend.ruleCharsInTable (.blank run) := by
      fin_cases among <;> rfl
    rw [standing.applied_of_html, gathers, ruleCharsInTable, standing.currentIn,
      show Role.headIn tableParts ((.html, name) :: path) = true from part, if_pos rfl,
      ← wait_of_attend stands.stands.idle.tableText]
    rfl
  have accepted : b.accept (.blank run) = (b.wait [.blank run], none) :=
    (accept_chars (.inl rfl) nonempty kept).trans <|
      (process_of_again starts _).trans (process_of_done (waits.applied_of_html _) _)
  have place : Construction.place (b.wait []) = .last top := waits.place puts
  have released := appendText_eq (b := b.wait []) place apart run
  refine ⟨{ (b.wait []).appendText run with mode := b.mode }, ?_, ?_⟩
  · rw [accepted]
    refine .waiting rfl ?_ fun token isMark => ?_
    · rw [released]
      rfl
    · have html : (b.wait [.blank run]).isForeign token = false := waits.isForeign_eq_false token
      rw [applied, html, if_neg Bool.false_ne_true]
      obtain ⟨tag, rfl⟩ | ⟨content, rfl⟩ := isMark <;> rfl
  · rw [released]
    exact .leaf (builds_text (stands.stands.has_spot puts) _)
      { stands.stands.idle with tableText := rfl } rfl rfl rfl rfl rfl rfl

/-! ## Texts -/

/-- A text is read wherever it may stand. -/
theorem StandsIn.reads_text (stands : b.StandsIn setting area mode label path)
    (puts : b.PutsIn top) (parent : Option String)
    (apart : ∀ id content, ¬ b.EndsInText top id content)
    {content : List Char} (nonempty : content ≠ []) (clean : IsClean content)
    (blank : area.isBlank (label :: path) = true → content.all isSpace = true)
    (kept : b.dropLineFeed = true → content.head? ≠ some '\n') :
    ∃ settled, (b.acceptAll (Token.ofChars content)).Settles settled ∧
      Reads setting parent top [ofText parent (String.ofList content)] b settled := by
  cases blanks : area.isBlank (label :: path) with
  | false =>
      obtain ⟨runs, whole⟩ := runs_ofChars clean.1
      have speaks {trees : List Subtree} {later : Construction}
          (reads : Reads setting parent top trees b later) : later.attend.TakesRuns :=
        have puts : later.PutsIn top := stands.stands.putsIn_after puts reads
        (stands.after reads).attend.takesRuns puts blanks
      exact ⟨_, .same _,
        Construction.reads_text stands.stands puts speaks apart nonempty kept runs whole⟩
  | true =>
      have read : b.acceptAll (Token.ofChars content) = (b.accept (.blank content)).1 := by
        rw [ofChars_of_isSpace (blank blanks) nonempty]
        rfl
      rw [read]
      cases area with
      | head | gap | columns | frames | late =>
          exact ⟨_, .same _, stands.reads_blank puts (by decide) apart nonempty kept⟩
      | table | rows | cells =>
          exact stands.reads_waiting puts (by decide) blanks apart nonempty kept
      | flow | foreign | notes | choices | template => cases blanks

/-! ## Where a template turns -/

def leadToken : Subtree → Token
  | .comment content => .comment content
  | .element data _ => .tag (openingTag data)
  | _ => .endOfInput

/-- A tree that may stand in an area is taken as it is, or turns a template. -/
theorem StandsIn.turns (stands : settled.StandsIn setting area mode label path)
    (settles : b.Settles settled) {tree : Subtree} (solid : tree.isChars = false)
    (fits : Subtree.Fits setting.legacy (area.turn tree) (label :: path) tree) :
    ∃ inner later start, Turn setting area settled inner start ∧
      start.StandsIn inner (area.turn tree) later label path ∧ b.Yields (leadToken tree) start ∧
      inner.legacy = setting.legacy ∧
      (area.turn tree = .template → area = .template ∧ inner = setting ∧ start = settled) := by
  have stays (isMark : IsMark (leadToken tree)) (same : area.turn tree = area) :
      ∃ inner later start, Turn setting area settled inner start ∧
        start.StandsIn inner (area.turn tree) later label path ∧ b.Yields (leadToken tree) start ∧
        inner.legacy = setting.legacy ∧
        (area.turn tree = .template → area = .template ∧ inner = setting ∧ start = settled) := by
    rw [same]
    exact ⟨_, _, _, .stay, stands, settles.yields isMark, rfl, fun template => ⟨template, rfl, rfl⟩⟩
  cases tree with
  | text | raw => cases solid
  | document | doctype => exact fits.elim
  | comment content => exact stays (.inr ⟨_, rfl⟩) rfl
  | element data children =>
      -- the first element that does not belong into the head shows what a template holds
      by_cases turns : area = .template ∧ headNames.contains data.name = false
      · obtain ⟨rfl, other⟩ := turns
        have turned : Area.template.turn (.element data children) = .ofTemplate data.name := by
          rw [Area.turn, other]
          rfl
        rw [turned] at fits ⊢
        obtain ⟨_, held⟩ := fits
        split at held
        · exact held.elim
        rename_i admitted
        have named := Area.openingName_of_admits admitted held.1
        obtain rfl : mode = .inTemplate := stands.reads
        have again : settled.attend.rule .inTemplate (.tag (openingTag data)) = _ :=
          rule_template_turns rfl (named.symm ▸ other)
        rw [← stands.stands.attend.applied_of_isIn stands.held, named] at again
        refine ⟨_, _, _, .turn rfl (mem_shelterModes data.name), stands.turned data.name,
          settles.yields_of_again (.inl ⟨_, rfl⟩) again, rfl, fun template => ?_⟩
        have among := mem_ofTemplate data.name
        rw [template] at among
        exact absurd among (by decide)
      · refine stays (.inl ⟨_, rfl⟩) ?_
        rw [Area.turn]
        refine if_neg ?_
        simpa using turns

end ServerPages.Markup.Construction
