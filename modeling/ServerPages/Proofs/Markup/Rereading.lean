import ServerPages.Proofs.Markup.Waiting

/-!
# Reading what was written

The markup of trees is read piece by piece: a text, a comment or a tag at a time, each of which is
taken as the token that it was written for. So trees that may stand in an area are read there as
they are, by induction on the trees: what stands in an element is read before its closing tag.
-/

namespace ServerPages.Markup

open Construction
open Subtree (AllFit FitsText dropsLineFeed leadWithLineFeed isChars listChars ofText)

variable {p q r : Progress} {chars more rest : List Char} {tokens : List Token} {data : Element}

/-! ## Pieces of markup -/

namespace Progress

/-- Reading characters up to a rest leads from one state of affairs to another. -/
def Leads (before : Progress) (chars : List Char) (after : Progress) (rest : List Char) : Prop :=
  ∀ steps, chars.length ≤ steps →
    ∃ left, rest.length ≤ left ∧ before.consume steps chars = after.consume left rest

theorem Leads.refl (progress : Progress) (chars : List Char) :
    progress.Leads chars progress chars :=
  fun steps enough => ⟨steps, enough, rfl⟩

theorem Leads.trans (first : p.Leads chars q more) (second : q.Leads more r rest) :
    p.Leads chars r rest := by
  intro steps enough
  obtain ⟨left, still, same⟩ := first steps enough
  obtain ⟨last, fewer, again⟩ := second left still
  exact ⟨last, fewer, same.trans again⟩

/-- One step takes the tokens at the front. -/
theorem leads_of_scan {piece : List Char} (some : piece ≠ [])
    (scans : ∀ foreign, scan p.content p.element foreign (piece ++ rest) = (tokens, rest)) :
    p.Leads (piece ++ rest) (tokens.foldl feed { p with content := .markup }) rest := by
  obtain ⟨c, more, rfl⟩ := List.exists_cons_of_ne_nil some
  intro steps enough
  rw [List.cons_append, List.length_cons, List.length_append] at enough
  obtain ⟨steps, rfl⟩ : ∃ fewer, steps = fewer + 1 := ⟨steps - 1, by omega⟩
  refine ⟨steps, by omega, ?_⟩
  rw [List.cons_append] at scans ⊢
  rw [consume]
  · dsimp only
    rw [scans]
  · exact List.cons_ne_nil _ _

theorem leads_of_scanMarkup (markup : p.content = .markup) {piece : List Char} (some : piece ≠ [])
    (scans : ∀ foreign, scanMarkup foreign (piece ++ rest) = (tokens, rest)) :
    p.Leads (piece ++ rest) (tokens.foldl feed p) rest := by
  obtain ⟨tree, content, element⟩ := p
  obtain rfl : content = .markup := markup
  exact leads_of_scan some scans

/-- After tokens that are no tags only the tree has changed. -/
theorem foldl_feed_runs (runs : AreRuns tokens) :
    tokens.foldl feed p = { p with tree := p.tree.acceptAll tokens } := by
  induction tokens generalizing p with
  | nil => rfl
  | cons token tokens ih =>
      obtain ⟨⟨run, _, isRun⟩, others⟩ := List.forall_mem_cons.mp runs
      have fed : p.feed token = { p with tree := (p.tree.accept token).1 } := by
        rcases isRun with rfl | rfl <;> rfl
      rw [List.foldl_cons, fed, ih others]
      rfl

theorem feed_tag {tag : Tag} {next : Construction} {content : Option Content}
    (accepted : p.tree.accept (.tag tag) = (next, content)) :
    p.feed (.tag tag) =
      ⟨next, content.getD .markup, if tag.closing then p.element else some tag.name⟩ := by
  rw [feed, accepted]

theorem leads_text (markup : p.content = .markup) {written content : List Char}
    (some : written ≠ []) (unopened : '<' ∉ written) (resolved : resolve false written = content)
    (clean : IsClean content) (ends : StartsTag rest) :
    p.Leads (written ++ rest)
      { p with tree := p.tree.acceptAll (Token.ofChars content) } rest := by
  rw [← foldl_feed_runs (runs_ofChars clean.1).1]
  exact leads_of_scanMarkup markup some fun foreign =>
    scanMarkup_text some unopened resolved ends foreign

theorem leads_comment (markup : p.content = .markup) {content : String}
    (comment : IsComment content.toList) (rest : List Char) :
    p.Leads ((Subtree.comment content).chars ++ rest)
      { p with tree := (p.tree.accept (.comment content)).1 } rest := by
  have written : (Subtree.comment content).chars ≠ [] := by
    rw [chars_comment]
    exact List.cons_ne_nil _ _
  exact leads_of_scanMarkup markup written fun foreign => scanMarkup_comment comment foreign rest

theorem leads_opening (markup : p.content = .markup) (writable : Writable data)
    {next : Construction} {content : Option Content}
    (accepted : p.tree.accept (.tag (openingTag data)) = (next, content)) (rest : List Char) :
    p.Leads (data.openingChars ++ rest)
      ⟨next, content.getD .markup, some (openingTag data).name⟩ rest := by
  have written : data.openingChars ≠ [] := List.cons_ne_nil _ _
  have leads := leads_of_scanMarkup markup written
    fun foreign => scanMarkup_opening writable foreign rest
  rwa [List.foldl_cons, List.foldl_nil, feed_tag accepted] at leads

theorem leads_closing (markup : p.content = .markup) (named : isTagName data.name = true)
    {next : Construction} (accepted : p.tree.accept (.tag (closingTag data)) = (next, none))
    (rest : List Char) :
    p.Leads (data.closingChars ++ rest) ⟨next, .markup, p.element⟩ rest := by
  have written : data.closingChars ≠ [] := by
    rw [closingChars_eq]
    exact List.cons_ne_nil _ _
  have leads := leads_of_scanMarkup markup written
    fun foreign => scanMarkup_closing named foreign rest
  rwa [List.foldl_cons, List.foldl_nil, feed_tag accepted] at leads

end Progress

/-! ## Comments and elements -/

variable {s : Construction} {setting : Setting} {area : Area} {mode : Mode} {label : Label}
  {path : List Label} {top : NodeId} {below : List NodeId} {vocabulary : Vocabulary}
  {parent : Option String}

/-- Reading characters up to a rest adds trees at the end of the latest open element. -/
def Rereads (setting : Setting) (parent : Option String) (top : NodeId) (trees : List Subtree)
    (before : Progress) (s : Construction) (chars rest : List Char) : Prop :=
  ∃ after, after.content = .markup ∧ before.Leads chars after rest ∧
    Reads setting parent top trees s after.tree

theorem builds_comment {forest : Forest Part} (inside : forest.Has top) (content : String) :
    Builds parent top [.comment content] forest (forest.sprout top (.comment content)) := by
  have starts : (Part.comment content).Starts parent (.comment content) := rfl
  exact .leaf inside starts rfl fun here => here

theorem rereads_comment {content : String} (yields : p.tree.Yields (.comment content) s)
    (markup : p.content = .markup) (stands : s.StandsIn setting area mode label path)
    (puts : s.PutsIn top) (comment : IsComment content.toList) (rest : List Char) :
    Rereads setting parent top [.comment content] p s ((Subtree.comment content).chars ++ rest)
      rest := by
  have accepted := yields.accept_of_done (stands.attend.applied_comment content)
  rw [appendComment_eq (stands.stands.attend.place puts)] at accepted
  have leads := Progress.leads_comment markup comment rest
  rw [accepted] at leads
  refine ⟨_, ?_, leads, ?_⟩
  · exact markup
  · exact .leaf (builds_comment (stands.stands.has_spot puts) content) { stands.stands.idle with }
      rfl rfl rfl rfl rfl rfl

theorem builds_alone {forest : Forest Part} (inside : forest.Has top)
    (spelled : Spelled .html data) :
    Builds parent top [.element data []] forest (forest.sprout top (.element .html data.name
      (Vocabulary.html.attributes (openingTag data).attributes) none)) :=
  .element inside spelled.attributes (.nil _ _ _)

/-- An element without contents is read. -/
theorem rereads_leaf (yields : p.tree.Yields (.tag (openingTag data)) s)
    (markup : p.content = .markup)
    (stands : s.StandsIn setting area mode label path) (puts : s.PutsIn top)
    (writable : Writable data) (spelled : Spelled .html data) (adds : AddsLeaf top data s)
    (rest : List Char) :
    Rereads setting parent top [.element data []] p s (data.openingChars ++ rest) rest := by
  obtain ⟨framesetOk, done⟩ := adds
  have accepted := yields.accept_of_done done
  refine ⟨_, rfl, Progress.leads_opening markup writable accepted rest, ?_⟩
  exact .leaf (builds_alone (stands.stands.has_spot puts) spelled) { stands.stands.idle with }
    rfl rfl rfl rfl rfl rfl

/-- An element that is never open is read. -/
theorem rereads_hollow (yields : p.tree.Yields (.tag (openingTag data)) s)
    (markup : p.content = .markup) (inside : s.forest.Has top)
    (writable : Writable data) (spelled : Spelled .html data) (adds : AddsHollow setting top data s)
    (rest : List Char) :
    Rereads setting parent top [.element data []] p s
      (data.openingChars ++ (data.closingChars ++ rest)) rest := by
  obtain ⟨next, last, opening, forest, closing, returns⟩ := adds
  have opened := yields.accept_of_done opening
  have closed := accept_tag_of_done closing
  refine ⟨_, rfl, (Progress.leads_opening markup writable opened _).trans
    (Progress.leads_closing (p := ⟨next, .markup, _⟩) rfl writable.name closed rest), ?_⟩
  have builds : Builds parent top [.element data []] s.forest last.forest := by
    rw [returns.forest, forest]
    exact builds_alone inside spelled
  exact ⟨returns.idle, returns.mode, returns.stack, returns.form, returns.fades,
    fun drops => absurd drops (Bool.eq_false_iff.mp returns.lineFeed), builds⟩

/-- An element is read if its contents are. -/
theorem rereads_element (yields : p.tree.Yields (.tag (openingTag data)) s)
    (markup : p.content = .markup)
    (inside : s.forest.Has top) (writable : Writable data) {opened : Construction}
    (encloses : Encloses setting area top vocabulary data (label :: path) s opened)
    {children : List Subtree}
    (held : ∀ p : Progress, p.tree = opened → p.content = .markup →
      ∃ q inner, q.tree.Settles inner ∧ q.content = .markup ∧
        p.Leads (listChars children ++ (data.closingChars ++ rest)) q (data.closingChars ++ rest) ∧
        Reads setting (some data.name) ⟨s.forest.size⟩ children opened inner) :
    Rereads setting parent top [.element data children] p s
      (data.openingChars ++ (listChars children ++ (data.closingChars ++ rest))) rest := by
  have accepted := yields.accept_of_done encloses.opening
  have leads := Progress.leads_opening markup writable accepted
    (listChars children ++ (data.closingChars ++ rest))
  obtain ⟨q, inner, settles, markup', leads', reads⟩ :=
    held ⟨opened, .markup, some (openingTag data).name⟩ rfl rfl
  have within : Within setting area (vocabulary, data.name) (label :: path) opened inner :=
    ⟨encloses.standsIn.after reads, reads.stack, reads.form, reads.fades⟩
  obtain ⟨last, done, returns⟩ := encloses.closing inner within
  have closed := (settles.yields (.inl ⟨_, rfl⟩)).accept_of_done done
  refine ⟨_, rfl, (leads.trans leads').trans
    (Progress.leads_closing markup' writable.name closed rest), ?_⟩
  exact Reads.element inside encloses.opens reads returns.idle returns.forest returns.mode
    returns.stack returns.form returns.fades returns.lineFeed

/-- A template is read if its contents are, in whatever mode they are. -/
theorem rereads_template (yields : p.tree.Yields (.tag (openingTag data)) s)
    (markup : p.content = .markup) (stands : s.Stands setting mode path) (puts : s.PutsIn top)
    (writable : Writable data) (spelled : Spelled .html data)
    (shelters : Shelters setting top data path s) {children : List Subtree}
    (held : ∀ p : Progress, p.tree = s.attend.shelter top data → p.content = .markup →
      ∃ q settled inner start, q.tree.Settles settled ∧ q.content = .markup ∧
        p.Leads (listChars children ++ (data.closingChars ++ rest)) q (data.closingChars ++ rest) ∧
        Turn (setting.within .inTemplate) .template (s.attend.shelter top data) inner start ∧
        Reads inner (some data.name) ⟨s.forest.size⟩ children start settled) :
    Rereads setting parent top [.element data children] p s
      (data.openingChars ++ (listChars children ++ (data.closingChars ++ rest))) rest := by
  have accepted := yields.accept_of_done shelters.opening
  have leads := Progress.leads_opening markup writable accepted
    (listChars children ++ (data.closingChars ++ rest))
  obtain ⟨q, settled, inner, start, settles, markup', leads', turn, reads⟩ :=
    held ⟨_, .markup, some (openingTag data).name⟩ rfl rfl
  obtain ⟨within, _⟩ := stands.sheltered puts shelters.named
  obtain ⟨turned, known, rfl, standing, forest, stack, form, formatting⟩ :=
    turn.sheltered within.stands
  have fades := reads.fades
  rw [formatting] at fades
  obtain ⟨last, done, returns⟩ := shelters.closing settled turned known (standing.after reads)
    (reads.stack.trans stack) (reads.form.trans form) fades
  have closed := (settles.yields (.inl ⟨_, rfl⟩)).accept_of_done done
  refine ⟨_, rfl, (leads.trans leads').trans
    (Progress.leads_closing markup' writable.name closed rest), ?_⟩
  have builds : Builds parent top [.element data children] s.forest last.forest := by
    have read := reads.builds
    rw [forest] at read
    rw [returns.forest]
    exact builds_shelter (b := s.attend) (stands.has_spot puts) spelled read
  exact ⟨returns.idle, returns.mode, returns.stack, returns.form, returns.fades,
    fun drops => absurd drops (Bool.eq_false_iff.mp returns.lineFeed), builds⟩

/-! ## Elements that hold text -/

def heldText (name : String) (text : List Char) : List Subtree :=
  if text.isEmpty then [] else [ofText (some name) (String.ofList text)]

theorem heldText_of_ne {name : String} {text : List Char} (some : text ≠ []) :
    heldText name text = [ofText (.some name) (String.ofList text)] :=
  if_neg (by simpa using some)

theorem head?_of_leadWithLineFeed {name : String} {text : List Char}
    (leads : leadWithLineFeed (heldText name text) = false) : text.head? ≠ some '\n' := by
  unfold heldText at leads
  split at leads
  · rename_i none
    rw [List.isEmpty_iff.mp none]
    nofun
  · unfold ofText at leads
    split at leads <;> simpa [leadWithLineFeed] using leads

/-- The text of an element is read up to the closing tag. -/
theorem scan_held {content : Content} {children : List Subtree}
    (named : isTagName data.name = true)
    (written : (Inside.text content).isWrittenIn data.name = true)
    (fits : FitsText content data children) :
    ∃ text, children = heldText data.name text ∧ IsClean text ∧ ∀ foreign rest,
      scan content (some data.name) foreign
          (listChars children ++ data.closingChars ++ rest) =
        (Token.ofRun text ++ [.tag (closingTag data)], rest) := by
  match children, fits with
  | [], ends =>
      have clean : IsClean [] := ⟨List.not_mem_nil, List.not_mem_nil⟩
      refine ⟨[], rfl, clean, fun foreign rest => ?_⟩
      cases content with
      | escapable => exact scan_escapable named clean ends foreign rest
      | raw | script => exact scan_bare rfl named clean ends foreign rest
      | markup | endless => cases written
  | [.text held], ⟨references, filled, clean, ends⟩ =>
      have nonempty : held.toList ≠ [] := fun none => filled (String.toList_eq_nil_iff.mp none)
      cases content with
      | escapable =>
          have plain : isRawText data.name = false := by
            simpa using (Bool.and_eq_true_iff.mp written).2
          refine ⟨held.toList, ?_, clean, fun foreign rest => ?_⟩
          · rw [heldText_of_ne nonempty, String.ofList_toList, ofText, Option.map_some,
              Option.getD_some, plain, if_neg Bool.false_ne_true]
          · have scanned := scan_escapable named clean ends foreign rest
            simpa using scanned
      | raw | script => cases references
      | markup | endless => cases written
  | [.raw held], ⟨bare, filled, clean, ends⟩ =>
      have nonempty : held.toList ≠ [] := fun none => filled (String.toList_eq_nil_iff.mp none)
      have raw : isRawText data.name = true := by
        cases content with
        | raw | script => exact (Bool.and_eq_true_iff.mp written).2
        | markup | escapable | endless => cases bare
      refine ⟨held.toList, ?_, clean, fun foreign rest => ?_⟩
      · rw [heldText_of_ne nonempty, String.ofList_toList, ofText, Option.map_some,
          Option.getD_some, raw, if_pos rfl]
      · have scanned := scan_bare bare named clean ends foreign rest
        simpa using scanned

theorem areRuns_ofRun (text : List Char) : AreRuns (Token.ofRun text) := by
  unfold Token.ofRun
  split
  · exact List.forall_mem_nil _
  · rename_i some
    exact List.forall_mem_singleton.mpr ⟨text, by simpa using some, .inr rfl⟩

/-- In the mode for text the characters are added and the mode to go back to is kept. -/
theorem reads_held {opened : Construction}
    (stands : opened.Stands setting .inText ((.html, data.name) :: path)) (puts : opened.PutsIn top)
    (apart : ∀ id content, ¬ opened.EndsInText top id content)
    {text : List Char} (kept : opened.dropLineFeed = true → text.head? ≠ some '\n') :
    Reads setting (some data.name) top (heldText data.name text) opened
        (opened.acceptAll (Token.ofRun text)) ∧
      (opened.acceptAll (Token.ofRun text)).resume = opened.resume := by
  cases text with
  | nil => exact ⟨.nil stands.idle top, rfl⟩
  | cons c more =>
      have ruled : opened.attend.applied (.text (c :: more)) =
          (opened.attend.appendText (c :: more)).done := stands.attend.applied_of_html _
      have accepted : opened.accept (.text (c :: more)) =
          (opened.attend.appendText (c :: more), none) :=
        (accept_chars (.inr rfl) (List.cons_ne_nil _ _) kept).trans (process_of_done ruled _)
      have read : opened.acceptAll (Token.ofRun (c :: more)) =
          opened.attend.appendText (c :: more) := congrArg Prod.fst accepted
      rw [read, heldText_of_ne (List.cons_ne_nil _ _)]
      refine ⟨reads_firstRun stands puts apart _ opened.framesetOk, ?_⟩
      rw [appendText_eq (stands.attend.place puts) apart]
      rfl

theorem not_endsInText_of_empty (empty : s.forest.children top = []) (id : NodeId)
    (content : String) : ¬ s.EndsInText top id content := by
  rintro ⟨last, _⟩
  rw [empty] at last
  cases last

theorem Construction.Opens.apart {opened : Construction}
    (opens : Opens setting top vocabulary data s opened) (inside : s.forest.Has top) :
    ∀ id content, ¬ opened.EndsInText ⟨s.forest.size⟩ id content := by
  obtain ⟨attributes, _, forest⟩ := opens.forest
  exact not_endsInText_of_empty (by rw [forest, Forest.children_sprout_new _ inside])

/-- An element that holds text is read. -/
theorem rereads_textElement (yields : p.tree.Yields (.tag (openingTag data)) s)
    (markup : p.content = .markup) (stands : s.Stands setting mode (label :: path))
    (puts : s.PutsIn top) (writable : Writable data) (spelled : Spelled .html data)
    {content : Content} (opens : OpensText content data s)
    (written : (Inside.text content).isWrittenIn data.name = true) {children : List Subtree}
    (fits : FitsText content data children)
    (lineFeed : dropsLineFeed .html data.name = true → leadWithLineFeed children = false)
    (rest : List Char) :
    Rereads setting parent top [.element data children] p s
      (data.openingChars ++ (listChars children ++ data.closingChars ++ rest)) rest := by
  obtain ⟨plain, framesetOk, dropLineFeed, drops, opening⟩ := opens
  obtain ⟨text, rfl, clean, scans⟩ := scan_held writable.name written fits
  let start : Construction := { s.attend with framesetOk, dropLineFeed }
  have place : start.place = .last top := place_eq { stands.idle with } puts
  have named := spelled.openingName
  have other : data.name ≠ "template" := by
    intro template
    rw [template] at plain
    cases plain
  -- the element is open in the mode for text
  let opened : Construction :=
    { start.enter top .html data.name
        (Vocabulary.html.attributes (openingTag data).attributes) with
      resume := s.mode, mode := .inText }
  have inside := stands.has_spot puts
  have opens : Opens setting top .html data s opened :=
    ⟨{ stands.idle with }, ⟨_, spelled.attributes, rfl⟩, rfl⟩
  have within : opened.Stands setting .inText ((.html, data.name) :: label :: path) :=
    stands.inside inside opens (.same (contains_eq_false plain rfl))
      (fun outside => stands.form fun inside => outside (List.mem_cons_of_mem _ inside))
      (contains_eq_false plain rfl)
  have opening' : s.attend.applied (.tag (openingTag data)) = (opened, .read content) := by
    rw [opening, openText, openFor_eq place (named.symm ▸ other), named]
    rfl
  have accepted := yields.accept_of_read opening'
  have leads := Progress.leads_opening markup writable accepted
    (listChars (heldText data.name text) ++ data.closingChars ++ rest)
  rw [named] at leads
  -- its text is read, and its closing tag
  have kept (drop : opened.dropLineFeed = true) : text.head? ≠ some '\n' := by
    refine head?_of_leadWithLineFeed (lineFeed ?_)
    rw [drops drop]
    rfl
  obtain ⟨reads, resume⟩ := reads_held within opens.putsIn (opens.apart inside) kept
  have closing : (opened.acceptAll (Token.ofRun text)).attend.applied (.tag (closingTag data)) =
      { (opened.acceptAll (Token.ofRun text)).attend.pop with
        mode := (opened.acceptAll (Token.ofRun text)).resume }.done :=
    (within.after reads).attend.applied_of_html _
  have closed := accept_tag_of_done closing
  have some : listChars (heldText data.name text) ++ data.closingChars ≠ [] := by
    rw [closingChars_eq]
    exact List.append_ne_nil_of_right_ne_nil _ (List.cons_ne_nil _ _)
  have leads' := Progress.leads_of_scan (p := ⟨opened, content, .some data.name⟩) some
    fun foreign => scans foreign rest
  rw [List.foldl_append, Progress.foldl_feed_runs (areRuns_ofRun text), List.foldl_cons,
    List.foldl_nil, Progress.feed_tag closed] at leads'
  refine ⟨_, rfl, leads.trans leads', ?_⟩
  refine Reads.element inside opens reads { reads.idle with } rfl resume ?_ reads.form reads.fades
    rfl
  exact congrArg List.tail (reads.stack.trans opens.stack)

/-! ## Trees -/

/-- After a tree that is no text a text makes a node of its own. -/
theorem apart_of_builds {tree : Subtree} {before : Forest Part}
    (solid : ∀ content, ¬ (Part.text content).Starts parent tree)
    (builds : Builds parent top [tree] before s.forest) (id : NodeId) (content : String) :
    ¬ s.EndsInText top id content := by
  obtain ⟨ids, grown, shown⟩ := builds
  match ids, shown with
  | [only], ⟨here, _⟩ =>
      rintro ⟨last, kind⟩
      rw [grown.here, List.getLast?_append, List.getLast?_singleton] at last
      obtain rfl : only = id := by simpa using last
      obtain ⟨part, start⟩ := here.startsAt
      have known := start.known
      rw [kind] at known
      cases known
      exact solid content start.starts

theorem not_starts_element (content : String) (data : Element) (children : List Subtree) :
    ¬ (Part.text content).Starts parent (.element data children) := by
  rintro ⟨_, _, _, element, _⟩
  cases element

theorem not_starts_text {legacy : Bool} {tree : Subtree} (solid : tree.isChars = false)
    (fits : Subtree.Fits legacy area path tree) (content : String) :
    ¬ (Part.text content).Starts parent tree := by
  cases tree with
  | text | raw => cases solid
  | document | doctype => exact fits.elim
  | comment => exact nofun
  | element data children => exact not_starts_element content data children

/-- Texts are followed by tags or comments. -/
theorem startsTag_listChars {legacy : Bool} {trees : List Subtree}
    (fits : AllFit legacy area path trees) (solid : trees.head?.map isChars ≠ some true)
    (ends : StartsTag rest) :
    StartsTag (listChars trees ++ rest) := by
  cases trees with
  | nil => exact ends
  | cons tree trees =>
      right
      cases tree with
      | text | raw => exact absurd rfl solid
      | comment content => exact ⟨_, rfl⟩
      | element data children => exact ⟨_, rfl⟩
      | document | doctype => exact fits.1.elim

/-- Characters that may stand in an area are written as the text that they are. -/
theorem written_text {legacy : Bool} {tree : Subtree} (solid : tree.isChars = true)
    (fits : Subtree.Fits legacy area (label :: path) tree) :
    ∃ content : String, ofText (some label.2) content = tree ∧
      Subtree.FitsAsText area (label :: path) content ∧ tree.chars ≠ [] ∧ '<' ∉ tree.chars ∧
      resolve false tree.chars = content.toList := by
  cases tree with
  | text content =>
      obtain ⟨plain, fits⟩ := fits
      have some : content.toList ≠ [] := fun none => fits.some (String.toList_eq_nil_iff.mp none)
      refine ⟨content, if_neg (Bool.eq_false_iff.mp plain), fits, escapeChars_ne_nil some,
        not_mem_escapeChars (.inl rfl) _, resolve_escapeChars _ _⟩
  | raw content =>
      obtain ⟨bare, ⟨unopened, resolved⟩, fits⟩ := fits
      have some : content.toList ≠ [] := fun none => fits.some (String.toList_eq_nil_iff.mp none)
      exact ⟨content, if_pos bare, fits, some, unopened, resolved⟩
  | document | doctype | comment | element => cases solid

theorem leadWithLineFeed_ofText (content : String) (trees : List Subtree) :
    leadWithLineFeed (ofText parent content :: trees) = (content.toList.head? == some '\n') := by
  unfold ofText
  split <;> rfl

theorem not_isVoid_of_isWrittenIn {name : String} {inside : Inside}
    (written : inside.isWrittenIn name = true) (some : inside ≠ .nothing) :
    isVoid name = false := by
  cases inside with
  | nothing => exact absurd rfl some
  | text content =>
      cases content with
      | escapable | raw | script => simpa using (Bool.and_eq_true_iff.mp written).1
      | markup | endless => cases written
  | hollow | nodes | template => exact (Bool.not_eq_true' _).mp written

theorem startsTag_closing (data : Element) (rest : List Char) :
    StartsTag (data.closingChars ++ rest) := by
  rw [closingChars_append]
  exact .inr ⟨_, rfl⟩

/-- A text that may stand in an area is read as it is, in front of a tag or a comment. -/
theorem rereads_text {tree : Subtree} (markup : p.content = .markup)
    (stands : p.tree.StandsIn setting area mode label path) (puts : p.tree.PutsIn top)
    (solid : tree.isChars = true) (fits : Subtree.Fits setting.legacy area (label :: path) tree)
    (apart : ∀ id content, ¬ p.tree.EndsInText top id content)
    (lineFeed : p.tree.dropLineFeed = true → leadWithLineFeed (tree :: trees) = false)
    {rest : List Char} (tag : StartsTag rest) :
    ∃ q settled, q.tree.Settles settled ∧ q.content = .markup ∧
      p.Leads (tree.chars ++ rest) q rest ∧
      Reads setting (some label.2) top [tree] p.tree settled := by
  obtain ⟨content, same, asText, written, unopened, resolved⟩ := written_text solid fits
  have nonempty : content.toList ≠ [] :=
    fun none => asText.some (String.toList_eq_nil_iff.mp none)
  have kept (drops : p.tree.dropLineFeed = true) : content.toList.head? ≠ some '\n' := by
    have leads := lineFeed drops
    rw [← same, leadWithLineFeed_ofText] at leads
    simpa using leads
  have read := stands.reads_text puts (some label.2) apart nonempty asText.clean asText.blank kept
  rw [String.ofList_toList, same] at read
  obtain ⟨settled, settles, reads⟩ := read
  have leads := Progress.leads_text markup written unopened resolved asText.clean tag
  exact ⟨⟨_, p.content, p.element⟩, settled, settles, markup, leads, reads⟩

theorem turn_of_isChars {tree : Subtree} (solid : tree.isChars = true) : area.turn tree = area := by
  cases tree with
  | text | raw => rfl
  | document | doctype | comment | element => cases solid

mutual

/-- A comment or an element that may stand in an area is read as it is. -/
theorem rereads_tree {p : Progress} {s : Construction} {setting : Setting} {area : Area}
    {mode : Mode} {label : Label} {path : List Label} {top : NodeId} {parent : Option String}
    (tree : Subtree) (yields : p.tree.Yields (leadToken tree) s) (markup : p.content = .markup)
    (stands : s.StandsIn setting area mode label path) (puts : s.PutsIn top)
    (solid : tree.isChars = false) (fits : Subtree.Fits setting.legacy area (label :: path) tree)
    (rest : List Char) :
    Rereads setting parent top [tree] p s (tree.chars ++ rest) rest := by
  cases tree with
  | document | doctype => exact fits.elim
  | text | raw => cases solid
  | comment content => exact rereads_comment yields markup stands puts fits rest
  | element data children =>
      obtain ⟨writable, held⟩ := fits
      cases admitted : area.admits setting.legacy (label :: path) data with
      | none =>
          rw [admitted] at held
          exact held.elim
      | some kind =>
          obtain ⟨vocabulary, inside⟩ := kind
          rw [admitted] at held
          obtain ⟨spelled, written, lineFeed, fits⟩ := held
          have takes := stands.takes puts spelled admitted
          have within := stands.stands.has_spot puts
          cases inside with
          | nothing =>
              obtain ⟨rfl, adds⟩ := takes
              obtain rfl : children = [] := fits
              have void : isVoid data.name = true := written
              rw [Subtree.chars_element, void, if_pos rfl, List.append_nil]
              exact rereads_leaf yields markup stands puts writable spelled adds rest
          | hollow =>
              obtain ⟨rfl, adds⟩ := takes
              obtain rfl : children = [] := fits
              have filled : isVoid data.name = false := not_isVoid_of_isWrittenIn written nofun
              rw [Subtree.chars_element, filled, if_neg Bool.false_ne_true, Subtree.listChars_nil,
                List.nil_append, List.append_assoc]
              exact rereads_hollow yields markup within writable spelled adds rest
          | text content =>
              obtain ⟨rfl, opens⟩ := takes
              have filled : isVoid data.name = false := not_isVoid_of_isWrittenIn written nofun
              rw [Subtree.chars_element, filled, if_neg Bool.false_ne_true, List.append_assoc]
              exact rereads_textElement yields markup stands.stands puts writable spelled opens
                written fits lineFeed rest
          | nodes inner =>
              obtain ⟨steady, opened, encloses⟩ := takes
              have filled : isVoid data.name = false := not_isVoid_of_isWrittenIn written nofun
              rw [Subtree.chars_element, filled, if_neg Bool.false_ne_true, List.append_assoc,
                List.append_assoc]
              refine rereads_element yields markup within writable encloses fun p tree markup => ?_
              obtain ⟨q, settled, _, _, settles, markup', leads, turn, reads⟩ :=
                rereads_trees children (tree ▸ .same _) markup encloses.standsIn
                  encloses.opens.putsIn fits (fun _ => ⟨tree, encloses.opens.apart within⟩)
                  (fun drops => lineFeed (encloses.lineFeed drops)) (startsTag_closing data rest)
              obtain ⟨rfl, rfl⟩ := turn.eq_of_ne steady
              exact ⟨q, settled, settles, markup', leads, reads⟩
          | template =>
              obtain ⟨rfl, shelters⟩ := takes
              have filled : isVoid data.name = false := not_isVoid_of_isWrittenIn written nofun
              obtain ⟨sheltered, spot⟩ := stands.stands.sheltered puts shelters.named
              rw [Subtree.chars_element, filled, if_neg Bool.false_ne_true, List.append_assoc,
                List.append_assoc]
              refine rereads_template yields markup stands.stands puts writable spelled shelters
                fun p tree markup => ?_
              have empty := children_shelter (b := s.attend) within data (Nat.le_refl _)
              rw [shelters.named] at fits ⊢
              exact rereads_trees children (tree ▸ .same _) markup sheltered spot fits
                (fun _ => ⟨tree, not_endsInText_of_empty empty⟩) nofun (startsTag_closing data rest)

/-- Trees that may stand in an area are read as they are. -/
theorem rereads_trees {p : Progress} {s : Construction} {setting : Setting} {area : Area}
    {mode : Mode} {label : Label} {path : List Label} {top : NodeId} (trees : List Subtree)
    (settles : p.tree.Settles s) (markup : p.content = .markup)
    (stands : s.StandsIn setting area mode label path) (puts : s.PutsIn top)
    (fits : AllFit setting.legacy area (label :: path) trees)
    (fresh : trees.head?.map isChars = some true →
      p.tree = s ∧ ∀ id content, ¬ s.EndsInText top id content)
    (lineFeed : s.dropLineFeed = true → leadWithLineFeed trees = false)
    {rest : List Char} (ends : StartsTag rest) :
    ∃ q settled inner start, q.tree.Settles settled ∧ q.content = .markup ∧
      p.Leads (listChars trees ++ rest) q rest ∧ Turn setting area s inner start ∧
      Reads inner (some label.2) top trees start settled := by
  cases trees with
  | nil => exact ⟨p, s, _, _, settles, markup, .refl p rest, .stay, .nil stands.stands.idle top⟩
  | cons tree trees =>
      obtain ⟨first, others, apart⟩ := fits
      have within := stands.stands.has_spot puts
      rw [Subtree.listChars_cons, List.append_assoc]
      cases solid : tree.isChars with
      | true =>
          -- a text is read up to the tag that follows it
          obtain ⟨rfl, apart'⟩ := fresh (by rw [List.head?_cons, Option.map_some, solid])
          rw [turn_of_isChars solid] at first others
          have tag := startsTag_listChars others (apart solid) ends
          obtain ⟨middle, settled, settles, markup', leads, reads⟩ :=
            rereads_text markup stands puts solid first apart' lineFeed tag
          obtain ⟨q, last, _, _, settles', markup', leads', turn, reads'⟩ :=
            rereads_trees trees settles markup' (stands.after reads)
              (stands.stands.putsIn_after puts reads) others
              (fun next => absurd next (apart solid))
              (fun drops => absurd (reads.lineFeed drops).1 (List.cons_ne_nil _ _)) ends
          obtain ⟨_, _, whole, reads''⟩ := Turn.cons .stay (fun template => ⟨template, rfl, rfl⟩)
            within reads turn reads'
          exact ⟨q, last, _, _, settles', markup', leads.trans leads', whole, reads''⟩
      | false =>
          -- what waits comes in front of the tag, and a template may show what it holds
          obtain ⟨inner, later, start, turn, stands', yields, legacy, steady⟩ :=
            stands.turns settles solid first
          have puts' := turn.putsIn puts
          rw [← legacy] at first others
          have read : Rereads inner (some label.2) top [tree] p start _ _ :=
            rereads_tree tree yields markup stands' puts' solid first (listChars trees ++ rest)
          obtain ⟨middle, markup', leads, reads⟩ := read
          obtain ⟨q, last, _, _, settles', markup'', leads', turn', reads'⟩ :=
            rereads_trees trees (.same _) markup' (stands'.after reads)
              (stands'.stands.putsIn_after puts' reads) others
              (fun _ => ⟨rfl, apart_of_builds (not_starts_text solid first) reads.builds⟩)
              (fun drops => absurd (reads.lineFeed drops).1 (List.cons_ne_nil _ _)) ends
          obtain ⟨_, _, whole, reads''⟩ := turn.cons steady
            (stands'.stands.has_spot puts') reads turn' reads'
          exact ⟨q, last, _, _, settles', markup'', leads.trans leads', whole, reads''⟩

end

end ServerPages.Markup
