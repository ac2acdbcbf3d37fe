import ServerPages.Proofs.Markup.Rereading

/-!
# Reading written pages

The markup of a page is read part by part: comments and the document type, the element that
everything stands in, the head, the body or the frames, and what stands behind them. Each part is
read under the rules of its own mode, and what stands in head, body and frames as any trees in their
areas.
-/

namespace ServerPages.Markup

open Construction Layout
open Subtree (AllFit listChars isChars leadWithLineFeed)

variable {p q : Progress} {b s : Construction} {setting : Setting} {mode : Mode} {path : List Label}
  {rest : List Char} {top place : NodeId} {stack below : List NodeId} {parent : Option String}
  {data : Element} {name : String} {children : List Subtree}

/-! ## Where a page is read -/

namespace Construction

def Setting.outside (legacy : Bool) : Setting := ⟨legacy, []⟩

theorem Stands.turn (stands : b.Stands setting mode path) (next : Mode) :
    Construction.Stands setting next path { b with mode := next } :=
  stands.moved { stands.idle with } rfl rfl rfl rfl rfl

theorem Stands.under {legacy : Bool} (stands : b.Stands (.outside legacy) mode path)
    (other : Bool) :
    Construction.Stands (.outside other) mode path { b with legacy := other } :=
  stands.moved { stands.idle with legacy := rfl } stands.mode rfl rfl rfl rfl

theorem Stands.applied_of_empty (stands : b.Stands setting mode []) (token : Token) :
    b.applied token = b.rule mode token := by
  have empty : b.stack = [] := List.map_eq_nil_iff.mp stands.labelled
  have html : b.isForeign token = false := by
    unfold isForeign foreignLabel?
    rw [empty]
    cases token <;> rfl
  rw [applied, html, if_neg Bool.false_ne_true, stands.mode]

def openPart (b : Construction) (top : NodeId) (name : String) (data : Element) (next : Mode)
    (head : Option NodeId) (framesetOk : Bool) : Construction :=
  { b.enter top .html name (Vocabulary.html.attributes (openingTag data).attributes) with
    mode := next, head, framesetOk }

theorem Stands.openPart (stands : b.Stands setting mode path) (inside : b.forest.Has top)
    (known : name ∈ ["html", "head", "body", "frameset"]) (part : IsPart name data) (next : Mode)
    (head : Option NodeId) (framesetOk : Bool) :
    Opens setting top .html data b (b.openPart top name data next head framesetOk) ∧
      (b.openPart top name data next head framesetOk).Stands setting next
        ((.html, name) :: path) := by
  obtain ⟨rfl, writable, spelled⟩ := part
  have opens :
      Opens setting top .html data b (b.openPart top data.name data next head framesetOk) :=
    ⟨{ stands.idle with }, ⟨_, spelled.attributes, rfl⟩, rfl⟩
  have plain : tellingNames.contains data.name = false := by
    generalize data.name = name at known
    fin_cases known <;> rfl
  refine ⟨opens,
    stands.inside inside opens (.same (contains_eq_false plain rfl)) (fun outside => ?_)
    (contains_eq_false plain rfl)⟩
  exact stands.form fun inside => outside (List.mem_cons_of_mem _ inside)

end Construction

namespace Progress

/-- Markup is read where the elements of a path are open. -/
structure At (setting : Setting) (mode : Mode) (path : List Label) (stack : List NodeId)
    (p : Progress) (s : Construction) : Prop where
  markup : p.content = .markup
  settles : p.tree.Settles s
  stands : s.Stands setting mode path
  stack : s.stack = stack

def start : Progress :=
  ⟨.start none, .markup, none⟩

/-- Comments are read where the rules add them. -/
theorem At.comments {contents : List String} (parent : Option String)
    (here : p.At setting mode path stack p.tree) (inside : p.tree.forest.Has place)
    (rule : ∀ b : Construction, b.Stands setting mode path → b.stack = stack → ∀ content,
      b.applied (.comment content) = (b.add place (.comment content)).done)
    (written : ∀ content ∈ contents, IsComment content.toList) (rest : List Char) :
    ∃ q, q.At setting mode path stack q.tree ∧
      p.Leads (listChars (comments contents) ++ rest) q rest ∧
      Builds parent place (comments contents) p.tree.forest q.tree.forest := by
  induction contents generalizing p with
  | nil => exact ⟨p, here, .refl p rest, .nil _ _ _⟩
  | cons content contents ih =>
      obtain ⟨comment, others⟩ := List.forall_mem_cons.mp written
      have accepted :=
        accept_comment_of_done (rule p.tree.attend here.stands.attend here.stack content)
      have leads := leads_comment here.markup comment (listChars (comments contents) ++ rest)
      rw [accepted] at leads
      have builds : Builds parent place _ _ _ := builds_comment inside content
      have reads : Reads setting parent place [.comment content] p.tree
          (p.tree.attend.add place (.comment content)) :=
        .leaf builds { here.stands.idle with } rfl rfl rfl rfl rfl rfl
      obtain ⟨q, here', leads', builds'⟩ :=
        ih (p := ⟨p.tree.attend.add place (.comment content), p.content, p.element⟩)
          ⟨here.markup, .same _, here.stands.after reads, here.stack⟩ (builds.has inside) others
      refine ⟨q, here', ?_, builds.append inside builds'⟩
      rw [Layout.comments, List.map_cons, Subtree.listChars_cons, List.append_assoc]
      exact leads.trans leads'

/-! ## In front of everything -/

/-- The document type sets the layout of tables. -/
theorem At.doctype (parent : Option String) (here : p.At (.outside false) .initial [] [] p.tree)
    (inside : p.tree.forest.Has Forest.root) (named : IsDoctypeName name) (rest : List Char) :
    ∃ q, q.At (.outside (name != "html")) .beforeHtml [] [] q.tree ∧
      p.Leads ((Subtree.doctype name).chars ++ rest) q rest ∧
      Builds parent Forest.root [.doctype name] p.tree.forest q.tree.forest := by
  have written : (Subtree.doctype name).chars ≠ [] := by
    rw [chars_doctype]
    exact List.cons_ne_nil _ _
  have leads := leads_of_scanMarkup here.markup written
    fun foreign => scanMarkup_doctype named foreign rest
  let typed : Construction := p.tree.attend.add Forest.root (.doctype name)
  let next : Construction := { typed with legacy := name != "html", mode := .beforeHtml }
  have accepted : p.tree.accept (.doctype name (name != "html")) = (next, none) := by
    unfold accept
    dsimp only
    rw [if_pos here.stands.mode]
    rfl
  have fed : p.feed (.doctype name (name != "html")) =
      { p with tree := (p.tree.accept (.doctype name (name != "html"))).1 } := rfl
  rw [List.foldl_cons, List.foldl_nil, fed, accepted] at leads
  have starts : (Part.doctype name).Starts parent (.doctype name) := rfl
  have builds : Builds parent Forest.root [.doctype name] p.tree.forest typed.forest :=
    .leaf inside starts rfl fun here => here
  have reads : Reads (.outside false) parent Forest.root [.doctype name] p.tree typed :=
    .leaf builds { here.stands.idle with } rfl rfl rfl rfl rfl rfl
  have stands := ((here.stands.after reads).under (name != "html")).turn .beforeHtml
  exact ⟨⟨next, p.content, p.element⟩, ⟨here.markup, .same _, stands, here.stack⟩, leads, builds⟩

/-- Nothing but comments and a document type was read, and a tag is expected. -/
def AwaitsTop (legacy : Bool) (p : Progress) : Prop :=
  p.At (.outside legacy) .beforeHtml [] [] p.tree ∨
    legacy = true ∧ p.At (.outside false) .initial [] [] p.tree

theorem openingName (part : IsPart name data) : (openingTag data).name = name :=
  part.spelled.openingName.trans part.named

theorem closingName (part : IsPart name data) : (closingTag data).name = name :=
  part.spelled.closingName.trans part.named

/-- The element that everything stands in is opened. Without a document type the layout of tables is
the old one. -/
theorem AwaitsTop.enter {legacy : Bool} (awaits : p.AwaitsTop legacy)
    (inside : p.tree.forest.Has Forest.root) (part : IsPart "html" data) (rest : List Char) :
    ∃ q, q.At (.outside legacy) .beforeHead [(.html, "html")] [⟨p.tree.forest.size⟩] q.tree ∧
      p.Leads (data.openingChars ++ rest) q rest ∧
      Opens (.outside legacy) Forest.root .html data p.tree q.tree := by
  have enters (b : Construction) (stands : b.Stands (.outside legacy) .beforeHtml []) :
      b.applied (.tag (openingTag data)) =
        (b.openPart Forest.root "html" data .beforeHead b.head b.framesetOk).done := by
    rw [stands.applied_of_empty, rule, ruleBeforeHtml]
    dsimp only
    rw [Tag.opens, openingName part]
    rfl
  have accepted :
      ∃ b : Construction, b.Stands (.outside legacy) .beforeHtml [] ∧ b.forest = p.tree.forest ∧
      b.stack = p.tree.stack ∧ b.stack = [] ∧ p.content = .markup ∧
      p.tree.accept (.tag (openingTag data)) =
        (b.openPart Forest.root "html" data .beforeHead b.head b.framesetOk, none) := by
    obtain here | ⟨rfl, here⟩ := awaits
    · have stands := here.stands.attend
      exact ⟨p.tree.attend, stands, rfl, rfl, here.stack, here.markup,
        accept_tag_of_done (enters _ stands)⟩
    · let b : Construction := { p.tree.attend with legacy := true, mode := .beforeHtml }
      have stands : b.Stands (.outside true) .beforeHtml [] :=
        (here.stands.attend.under true).turn .beforeHtml
      have again : p.tree.attend.applied (.tag (openingTag data)) = (b, .again) := by
        rw [here.stands.attend.applied_of_empty]
        rfl
      refine ⟨b, stands, rfl, rfl, here.stack, here.markup, ?_⟩
      exact (process_of_again again _).trans (process_of_done (enters b stands) _)
  obtain ⟨b, stands, forest, same, stack, markup, accepted⟩ := accepted
  obtain ⟨opens, within⟩ := stands.openPart (forest ▸ inside) (by decide) part .beforeHead b.head
    b.framesetOk
  refine ⟨_, ⟨rfl, .same _, within, ?_⟩, leads_opening markup part.writable accepted rest, ?_⟩
  · rw [opens.stack, stack, forest]
  · exact ⟨opens.idle, forest ▸ opens.forest, forest ▸ same ▸ opens.stack⟩

/-- Trees are read where they may stand. -/
theorem At.trees {area : Area}
    (here : p.At setting mode ((.html, name) :: path) (top :: below) s)
    (fits : AllFit setting.legacy area ((.html, name) :: path) children)
    (held : area.isHeldBy (.html, name) = true)
    (called : area.IsReadIn setting.modes ((.html, name) :: path) mode)
    (plain : name ≠ "template") (steady : area ≠ .template)
    (attentive : s.dropLineFeed = false)
    (fresh : children.head?.map isChars = some true →
      p.tree = s ∧ ∀ id content, ¬ s.EndsInText top id content)
    (ends : StartsTag rest) :
    ∃ q settled, q.At setting mode ((.html, name) :: path) (top :: below) settled ∧
      p.Leads (listChars children ++ rest) q rest ∧
      Reads setting (some name) top children s settled := by
  have stands := here.stands.standsIn_html held called plain
  have puts := here.stands.putsIn here.stack (by simp [plain])
  obtain ⟨q, settled, _, _, settles, markup, leads, turn, reads⟩ :=
    rereads_trees children here.settles here.markup stands puts fits fresh
      (fun drops => absurd drops (Bool.eq_false_iff.mp attentive)) ends
  obtain ⟨same, start⟩ := turn.eq_of_ne steady
  subst same start
  have standing := here.stands.after reads
  exact ⟨q, settled, ⟨markup, settles, standing, reads.stack.trans here.stack⟩, leads, reads⟩

def partNames : List String := ["html", "head", "body", "frameset"]

/-- A part of a page is read, up to its closing tag. -/
theorem At.part {area : Area} (here : p.At setting mode path stack s) (inside : s.forest.Has top)
    (known : name ∈ partNames) (part : IsPart name data) {next : Mode}
    {head : Option NodeId} {framesetOk : Bool}
    (opening : s.attend.applied (.tag (openingTag data)) =
      (s.attend.openPart top name data next head framesetOk).done)
    (fits : AllFit setting.legacy area ((.html, name) :: path) children)
    (held : area.isHeldBy (.html, name) = true)
    (called : area.IsReadIn setting.modes ((.html, name) :: path) next)
    (steady : area ≠ .template) (rest : List Char) :
    ∃ q settled, q.At setting next ((.html, name) :: path) (⟨s.forest.size⟩ :: stack) settled ∧
      p.Leads (data.openingChars ++ (listChars children ++ (data.closingChars ++ rest))) q
        (data.closingChars ++ rest) ∧
      Opens setting top .html data s (s.attend.openPart top name data next head framesetOk) ∧
      Reads setting (some data.name) ⟨s.forest.size⟩ children
        (s.attend.openPart top name data next head framesetOk) settled := by
  obtain ⟨opens, within⟩ := here.stands.attend.openPart inside known part next head framesetOk
  have leads := leads_opening here.markup part.writable
    ((here.settles.yields (.inl ⟨_, rfl⟩)).accept_of_done opening)
    (listChars children ++ (data.closingChars ++ rest))
  have start : At setting next _ (⟨s.forest.size⟩ :: stack)
      ⟨_, .markup, some (openingTag data).name⟩ _ :=
    ⟨rfl, .same _, within, opens.stack.trans (congrArg _ here.stack)⟩
  have plain : name ≠ "template" := by
    fin_cases known <;> decide
  obtain ⟨q, settled, here', leads', reads⟩ := start.trees fits held called plain steady rfl
    (fun _ => ⟨rfl, opens.apart inside⟩) (startsTag_closing data rest)
  refine ⟨q, settled, here', leads.trans leads', opens.of_attend, ?_⟩
  rw [part.named]
  exact reads

/-- A part of a page is read whose closing tag takes it from the open elements. -/
theorem At.closedPart {area : Area} (parent : Option String) (here : p.At setting mode path stack s)
    (inside : s.forest.Has top) (known : name ∈ partNames) (part : IsPart name data)
    {next last : Mode} {head : Option NodeId} {framesetOk : Bool}
    (opening : s.attend.applied (.tag (openingTag data)) =
      (s.attend.openPart top name data next head framesetOk).done)
    (fits : AllFit setting.legacy area ((.html, name) :: path) children)
    (held : area.isHeldBy (.html, name) = true)
    (called : area.IsReadIn setting.modes ((.html, name) :: path) next) (steady : area ≠ .template)
    (closing : ∀ settled : Construction, settled.Stands setting next ((.html, name) :: path) →
      settled.stack = ⟨s.forest.size⟩ :: stack →
      settled.applied (.tag (closingTag data)) = { settled.pop with mode := last }.done)
    (rest : List Char) :
    ∃ q, q.At setting last path stack q.tree ∧ q.tree.dropLineFeed = false ∧
      p.Leads (data.openingChars ++ (listChars children ++ (data.closingChars ++ rest))) q rest ∧
      Builds parent top [.element data children] s.forest q.tree.forest := by
  obtain ⟨q, settled, here', leads, opens, reads⟩ :=
    here.part inside known part opening fits held called steady rest
  have closed := (here'.settles.yields (.inl ⟨_, rfl⟩)).accept_of_done
    (closing settled.attend here'.stands.attend here'.stack)
  have popped : settled.attend.pop.stack = stack := congrArg List.tail here'.stack
  have read : Reads setting parent top [.element data children] s
      { settled.attend.pop with mode := s.mode } :=
    Reads.element inside opens reads { reads.idle with } rfl rfl (popped.trans here.stack.symm)
      reads.form reads.fades rfl
  exact ⟨⟨{ settled.attend.pop with mode := last }, .markup, q.element⟩,
    ⟨rfl, .same _, (here.stands.after read).turn last, popped⟩, rfl,
    leads.trans (leads_closing here'.markup part.writable.name closed rest), read.builds⟩

/-- The head is read. -/
theorem At.head (parent : Option String)
    (here : p.At setting .beforeHead [(.html, "html")] [top] s) (part : IsPart "head" data)
    (fits : AllFit setting.legacy .head [(.html, "head"), (.html, "html")] children)
    (rest : List Char) :
    ∃ q, q.At setting .afterHead [(.html, "html")] [top] q.tree ∧ q.tree.dropLineFeed = false ∧
      p.Leads (data.openingChars ++ (listChars children ++ (data.closingChars ++ rest))) q rest ∧
      Builds parent top [.element data children] s.forest q.tree.forest := by
  have puts := here.stands.putsIn here.stack (by decide)
  have opening : s.attend.applied (.tag (openingTag data)) =
      (s.attend.openPart top "head" data .inHead (some ⟨s.forest.size⟩) s.framesetOk).done := by
    have name := openingName part
    have plain : (openingTag data).name ≠ "template" := by
      rw [name]
      decide
    rw [here.stands.attend.applied_of_html, rule, ruleBeforeHead]
    dsimp only
    rw [openTag_eq (here.stands.attend.place puts) plain, Tag.opens, Tag.opens, name]
    rfl
  refine here.closedPart parent (here.stands.has_spot puts) (by decide) part opening fits rfl
    ⟨rfl, List.cons_ne_nil _ _⟩ (by decide) (fun settled stands _ => ?_) rest
  rw [stands.applied_of_html, rule, ruleInHead]
  dsimp only
  rw [Tag.opens, Tag.opens, Tag.opens, Tag.opens, Tag.opens, Tag.ends, closingName part]
  rfl

/-- The body is read, up to its closing tag, after which it still counts as open. -/
theorem At.body (parent : Option String)
    (here : p.At setting .afterHead [(.html, "html")] [top] s) (part : IsPart "body" data)
    (fits : AllFit setting.legacy .flow [(.html, "body"), (.html, "html")] children)
    (rest : List Char) :
    ∃ q, q.At setting .afterBody [(.html, "body"), (.html, "html")] [⟨s.forest.size⟩, top] q.tree ∧
      p.Leads (data.openingChars ++ (listChars children ++ (data.closingChars ++ rest))) q rest ∧
      Builds parent top [.element data children] s.forest q.tree.forest := by
  have puts := here.stands.putsIn here.stack (by decide)
  have inside := here.stands.has_spot puts
  have opening : s.attend.applied (.tag (openingTag data)) =
      (s.attend.openPart top "body" data .inBody s.head false).done := by
    have name := openingName part
    have plain : (openingTag data).name ≠ "template" := by
      rw [name]
      decide
    rw [here.stands.attend.applied_of_html, rule, ruleAfterHead]
    dsimp only
    rw [openFor_eq (here.stands.attend.place puts) plain, Tag.opens, Tag.opens, name]
    rfl
  obtain ⟨q, settled, here', leads, opens, reads⟩ :=
    here.part inside (by decide) part opening fits rfl rfl (by decide) rest
  let last : Construction := { settled.attend with mode := .afterBody }
  have stands := here'.stands.attend
  have current : settled.attend.Current ⟨s.forest.size⟩ [top] "body" :=
    ⟨here'.stack, stands.top_label? here'.stack⟩
  have closing : settled.attend.applied (.tag (closingTag data)) = last.done := by
    have close : settled.attend.rule .inBody (.tag (closingTag data)) =
        settled.attend.ruleBodyClose (closingTag data) := rfl
    rw [stands.applied_of_html, close, ruleBodyClose, closingName part]
    dsimp only
    rw [if_neg (by decide), if_pos rfl, current.hasInScopeNamed .element, if_pos rfl]
  have closed := (here'.settles.yields (.inl ⟨_, rfl⟩)).accept_of_done closing
  obtain ⟨attributes, pairs, sprouted⟩ := opens.forest
  exact ⟨⟨last, .markup, q.element⟩, ⟨rfl, .same _, stands.turn .afterBody, here'.stack⟩,
    leads.trans (leads_closing here'.markup part.writable.name closed rest),
    .element inside pairs (sprouted ▸ reads.builds)⟩

/-- Frames are read. -/
theorem At.frames (parent : Option String)
    (here : p.At setting .afterHead [(.html, "html")] [top] s) (part : IsPart "frameset" data)
    (fits : AllFit setting.legacy .frames [(.html, "frameset"), (.html, "html")] children)
    (rest : List Char) :
    ∃ q, q.At setting .afterFrameset [(.html, "html")] [top] q.tree ∧ q.tree.dropLineFeed = false ∧
      p.Leads (data.openingChars ++ (listChars children ++ (data.closingChars ++ rest))) q rest ∧
      Builds parent top [.element data children] s.forest q.tree.forest := by
  have puts := here.stands.putsIn here.stack (by decide)
  have opening : s.attend.applied (.tag (openingTag data)) =
      (s.attend.openPart top "frameset" data .inFrameset s.head s.framesetOk).done := by
    have name := openingName part
    have plain : (openingTag data).name ≠ "template" := by
      rw [name]
      decide
    rw [here.stands.attend.applied_of_html, rule, ruleAfterHead]
    dsimp only
    rw [openFor_eq (here.stands.attend.place puts) plain, Tag.opens, Tag.opens, Tag.opens, name]
    rfl
  refine here.closedPart parent (here.stands.has_spot puts) (by decide) part opening fits rfl rfl
    (by decide) (fun settled stands stack => ?_) rest
  have whole : settled.isFragment = false := by
    rw [isFragment, stands.idle.context]
    rfl
  have outer : (settled.leave [top]).currentIs "frameset" = false := by
    have labelled := stands.labelled
    rw [stack] at labelled
    exact isIn_of_label? (labelled_cons.mp (labelled_cons.mp labelled).2).1 _
  rw [stands.applied_of_html, rule_frameset_closing rfl (closingName part) stack
    (List.cons_ne_nil _ _), whole, outer, pop, stack]
  rfl

/-- The closing tag of the element that everything stands in. -/
theorem At.close (here : p.At setting mode ((.html, name) :: path) stack s)
    (late : mode = .afterBody ∨ mode = .afterFrameset)
    (part : IsPart "html" data) (rest : List Char) :
    ∃ q last, (last = .afterAfterBody ∨ last = .afterAfterFrameset) ∧
      q.At setting last ((.html, name) :: path) stack q.tree ∧
      p.Leads (data.closingChars ++ rest) q rest ∧ q.tree.forest = s.forest := by
  have stands := here.stands.attend
  have whole : s.attend.isFragment = false := by
    rw [isFragment, stands.idle.context]
    rfl
  obtain ⟨last, known, closing⟩ : ∃ last, (last = .afterAfterBody ∨ last = .afterAfterFrameset) ∧
      s.attend.applied (.tag (closingTag data)) = { s.attend with mode := last }.done := by
    obtain rfl | rfl := late
    · refine ⟨_, .inl rfl, ?_⟩
      rw [stands.applied_of_html, rule, ruleAfterBody, whole, Tag.opens, Tag.ends, closingName part]
      rfl
    · refine ⟨_, .inr rfl, ?_⟩
      rw [stands.applied_of_html, rule, ruleAfterFrameset, Tag.opens, Tag.ends, closingName part]
      rfl
  have closed := (here.settles.yields (.inl ⟨_, rfl⟩)).accept_of_done closing
  exact ⟨⟨{ s.attend with mode := last }, .markup, p.element⟩, last, known,
    ⟨rfl, .same _, stands.turn last, here.stack⟩,
    leads_closing here.markup part.writable.name closed rest, rfl⟩

/-! ## Whole pages -/

theorem chars_part (part : IsPart name data) (known : name ∈ partNames)
    (children : List Subtree) (rest : List Char) :
    (Subtree.element data children).chars ++ rest =
      data.openingChars ++ (listChars children ++ (data.closingChars ++ rest)) := by
  have filled : isVoid data.name = false := by
    rw [part.named]
    fin_cases known <;> decide +kernel
  rw [Subtree.chars_element, filled, if_neg Bool.false_ne_true, List.append_assoc,
    List.append_assoc]

/-- What a page shows is read, with what stands behind it. -/
theorem At.display {display : Display} (fits : display.Fits setting.legacy)
    (here : p.At setting .afterHead [(.html, "html")] [top] s) (ends : StartsTag rest) :
    ∃ q settled last name path stack, (last = .afterBody ∨ last = .afterFrameset) ∧
      q.At setting last ((.html, name) :: path) stack settled ∧
      p.Leads (listChars display.trees ++ rest) q rest ∧
      Builds (some "html") top display.trees s.forest settled.forest := by
  have inside := here.stands.has_spot (here.stands.putsIn here.stack (by decide))
  cases display with
  | body data held late =>
      obtain ⟨part, fits, written⟩ := fits
      obtain ⟨_, here, leads₁, builds₁⟩ := here.body (some "html") part fits
        (listChars (Layout.comments late) ++ rest)
      obtain ⟨q, here, leads₂, builds₂⟩ := here.comments (some "html") (builds₁.has inside)
        (fun b stands stack content => by
          rw [stands.applied_of_html, rule, ruleAfterBody, appendCommentToTop, top?, stack]
          rfl)
        written rest
      refine ⟨q, _, _, _, _, _, .inl rfl, here, ?_, builds₁.append inside builds₂⟩
      rw [Display.trees, Subtree.listChars_cons, List.append_assoc, chars_part part (by decide)]
      exact leads₁.trans leads₂
  | frames data held late =>
      obtain ⟨part, fits, fitsLate⟩ := fits
      obtain ⟨_, here, attentive, leads₁, builds₁⟩ := here.frames (some "html") part fits
        (listChars late ++ rest)
      obtain ⟨q, settled, here, leads₂, reads⟩ := here.trees fitsLate rfl rfl
        (by decide) (by decide) attentive
        (fun _ => ⟨rfl, apart_of_builds (not_starts_element · _ _) builds₁⟩) ends
      refine ⟨q, settled, _, _, _, _, .inr rfl, here, ?_, builds₁.append inside reads.builds⟩
      rw [Display.trees, Subtree.listChars_cons, List.append_assoc, chars_part part (by decide)]
      exact leads₁.trans leads₂

/-- The head and what is shown are read, with what stands around them. -/
theorem At.inTop {page : Layout} (fits : page.Fits)
    (here : p.At (.outside page.legacy) .beforeHead [(.html, "html")] [top] p.tree)
    (ends : StartsTag rest) :
    ∃ q settled last name path stack, (last = .afterBody ∨ last = .afterFrameset) ∧
      q.At (.outside page.legacy) last ((.html, name) :: path) stack settled ∧
      p.Leads (listChars page.inTop ++ rest) q rest ∧
      Builds (some "html") top page.inTop p.tree.forest settled.forest := by
  have written := fits.comments
  simp only [List.mem_append] at written
  have inside := here.stands.has_spot (here.stands.putsIn here.stack (by decide))
  -- the markup of the parts, from the last to the first
  let last := listChars page.display.trees ++ rest
  let third := listChars page.gap ++ last
  let second := (Subtree.element page.head page.inHead).chars ++ third
  have starts : StartsTag last := by
    cases shown : page.display with
    | body | frames =>
        simp only [last, shown]
        exact .inr ⟨_, rfl⟩
  obtain ⟨_, here, leads₁, builds₁⟩ := here.comments (some "html") inside
    (fun b stands stack content => by
      have place := stands.place (stands.putsIn stack (by decide))
      rw [stands.applied_of_html, rule, ruleBeforeHead, appendComment_eq place])
    (fun content (member : content ∈ page.early) => written content (by simp [member])) second
  have inside₁ := builds₁.has inside
  obtain ⟨_, here, attentive, leads₂, builds₂⟩ :=
    here.head (some "html") fits.head fits.inHead third
  have inside₂ := builds₂.has inside₁
  obtain ⟨_, _, here, leads₃, reads⟩ := here.trees fits.gap rfl rfl (by decide)
    (by decide) attentive (fun _ => ⟨rfl, apart_of_builds (not_starts_element · _ _) builds₂⟩)
      starts
  have inside₃ := reads.builds.has inside₂
  obtain ⟨q, settled, mode, name, path, stack, late, here, leads₄, builds₄⟩ :=
    here.display fits.display ends
  refine ⟨q, settled, mode, name, path, stack, late, here, ?_, ?_⟩
  · have whole :
        listChars page.inTop ++ rest = listChars (Layout.comments page.early) ++ second := by
      simp only [Layout.inTop, Subtree.listChars_append, Subtree.listChars_cons, List.append_assoc,
        second, third, last]
    rw [whole]
    rw [← chars_part fits.head (by decide)] at leads₂
    exact ((leads₁.trans leads₂).trans leads₃).trans leads₄
  · have others := reads.builds.append inside₂ builds₄
    exact builds₁.append inside (builds₂.append inside₁ others)

end Progress

end ServerPages.Markup
