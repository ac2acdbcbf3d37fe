import Mathlib.Data.List.Forall2
import ServerPages.Proofs.Markup.Built
import ServerPages.Proofs.Markup.Written

/-!
# Where a construction stands

Between two pieces of written markup the construction of a tree stands where the elements around
them are open and nothing else is remembered: no text waits in a table, and the formatting elements
since the latest mark are open. Reading some trees leaves it there, with the trees added at the end
of the latest open element.
-/

namespace ServerPages.Markup

open Forest (GrownAt)
open Subtree (ShownAt ShownAll StartsAt)

abbrev Label := Vocabulary × String

def Label.isIn (names : List String) : Label → Bool
  | (.html, name) => names.contains name
  | _ => false

namespace Construction

def Scope.holds (scope : Scope) (names : List String) : List Label → Bool
  | [] => false
  | label :: below =>
      label.isIn names || (!scope.endsAt label.1 label.2 && scope.holds names below)

variable {b next : Construction} {path : List Label} {names : List String} {id : NodeId}

/-! ## Labels of open elements -/

theorem isIn_of_label? {label : Label} (known : b.label? id = some label) (names : List String) :
    b.isIn names id = label.isIn names := by
  obtain ⟨vocabulary, name⟩ := label
  unfold isIn
  rw [known]
  cases vocabulary <;> rfl

/-- The open elements have the labels of a path. -/
def Labelled (b : Construction) (stack : List NodeId) (path : List Label) : Prop :=
  stack.map b.label? = path.map some

theorem labelled_cons {stack : List NodeId} {label : Label} :
    b.Labelled (id :: stack) (label :: path) ↔
      b.label? id = some label ∧ b.Labelled stack path := by
  simp [Labelled]

/-- The open elements and the path are gone through together. -/
theorem labelled_iff {stack : List NodeId} :
    b.Labelled stack path ↔ List.Forall₂ (fun id label => b.label? id = some label) stack path := by
  refine Iff.trans ?_ (List.forall₂_map_left_iff.trans List.forall₂_map_right_iff)
  rw [List.forall₂_eq_eq_eq]
  rfl

theorem search_eq {stack : List NodeId} (labelled : b.Labelled stack path) (scope : Scope)
    (names : List String) :
    hasInScope.search b scope (b.isIn names) stack = scope.holds names path := by
  rw [labelled_iff] at labelled
  induction labelled with
  | nil => rfl
  | cons known others ih =>
      rw [hasInScope.search, Scope.holds, isIn_of_label? known, known]
      dsimp only
      rw [ih]

theorem hasInScopeIn_eq (labelled : b.Labelled b.stack path) (scope : Scope)
    (names : List String) : b.hasInScopeIn scope names = scope.holds names path :=
  search_eq labelled scope names

theorem any_isIn_eq {stack : List NodeId} (labelled : b.Labelled stack path)
    (names : List String) : stack.any (b.isIn names) = path.any (·.isIn names) := by
  rw [labelled_iff] at labelled
  induction labelled with
  | nil => rfl
  | cons known others ih =>
      rw [List.any_cons, List.any_cons, isIn_of_label? known, ih]

/-- The latest open element that meets a condition on labels. -/
theorem find?_bind_label? {stack : List NodeId} (labelled : b.Labelled stack path)
    {wanted : NodeId → Bool} {meets : Label → Bool}
    (same : ∀ id label, b.label? id = some label → wanted id = meets label) :
    (stack.find? wanted).bind b.label? = path.find? meets := by
  rw [labelled_iff] at labelled
  induction labelled with
  | nil => rfl
  | cons known others ih =>
      rw [List.find?_cons, List.find?_cons, same _ _ known]
      split
      · exact known
      · exact ih

theorem label?_congr (same : next.forest.kind? id = b.forest.kind? id) :
    next.label? id = b.label? id := by
  unfold label?
  rw [same]

theorem has_of_label? {label : Label} (known : b.label? id = some label) : b.forest.Has id := by
  unfold label? at known
  split at known
  · rename_i found
    exact Forest.has_of_kind? found
  · cases known

theorem has_of_labelled {stack : List NodeId} (labelled : b.Labelled stack path)
    (member : id ∈ stack) : b.forest.Has id := by
  have known : b.label? id ∈ path.map some := labelled ▸ List.mem_map_of_mem member
  obtain ⟨label, _, same⟩ := List.mem_map.mp known
  exact has_of_label? same.symm

/-- Open elements keep their labels while nodes are added. -/
theorem label?_grownAt {place : NodeId} {new : List NodeId}
    (grown : GrownAt place new b.forest next.forest) (inside : b.forest.Has id) :
    next.label? id = b.label? id :=
  label?_congr (grown.kinds id inside)

theorem labelled_grownAt {place : NodeId} {new : List NodeId} {stack : List NodeId}
    (grown : GrownAt place new b.forest next.forest) (labelled : b.Labelled stack path) :
    next.Labelled stack path := by
  rw [Labelled, ← labelled]
  exact List.map_congr_left fun id member => label?_grownAt grown (has_of_labelled labelled member)

/-! ## Formatting elements -/

def sinceMark (entries : List Formatting) : List Formatting :=
  entries.takeWhile fun entry => !entry.isMarker

/-- The latest mark and what is before it. -/
def beforeMark (entries : List Formatting) : List Formatting :=
  entries.dropWhile fun entry => !entry.isMarker

/-- Of the formatting elements since the latest mark some were forgotten, and none was added. -/
def Fades (before after : List Formatting) : Prop :=
  ∃ kept, kept.Sublist (sinceMark before) ∧ after = kept ++ beforeMark before

section

variable {before middle after entries kept : List Formatting}

theorem sinceMark_append_beforeMark (entries : List Formatting) :
    sinceMark entries ++ beforeMark entries = entries :=
  List.takeWhile_append_dropWhile

theorem not_isMarker_of_mem {entry : Formatting} (member : entry ∈ sinceMark entries) :
    (!entry.isMarker) = true :=
  List.mem_takeWhile_imp (p := fun entry : Formatting => !entry.isMarker) member

theorem beforeMark_cases (entries : List Formatting) :
    beforeMark entries = [] ∨ ∃ rest, beforeMark entries = .marker :: rest := by
  induction entries with
  | nil => exact .inl rfl
  | cons entry entries ih =>
      cases entry with
      | marker => exact .inr ⟨entries, rfl⟩
      | element id tag => exact ih

theorem sinceMark_append (sub : kept.Sublist (sinceMark entries)) :
    sinceMark (kept ++ beforeMark entries) = kept ∧
      beforeMark (kept ++ beforeMark entries) = beforeMark entries := by
  have all : ∀ entry ∈ kept, (!entry.isMarker) = true :=
    fun entry member => not_isMarker_of_mem (sub.mem member)
  have since : sinceMark (kept ++ beforeMark entries) = kept ++ sinceMark (beforeMark entries) :=
    List.takeWhile_append_of_pos all
  have before : beforeMark (kept ++ beforeMark entries) = beforeMark (beforeMark entries) :=
    List.dropWhile_append_of_pos all
  rw [since, before]
  obtain none | ⟨rest, mark⟩ := beforeMark_cases entries
  · rw [none]
    exact ⟨List.append_nil _, rfl⟩
  · rw [mark]
    exact ⟨List.append_nil _, rfl⟩

theorem Fades.refl (entries : List Formatting) : Fades entries entries :=
  ⟨sinceMark entries, .refl _, (sinceMark_append_beforeMark entries).symm⟩

theorem Fades.trans (first : Fades before middle) (second : Fades middle after) :
    Fades before after := by
  obtain ⟨kept, sub, rfl⟩ := first
  obtain ⟨fewer, subsub, rfl⟩ := second
  obtain ⟨since, mark⟩ := sinceMark_append sub
  rw [since] at subsub
  exact ⟨fewer, subsub.trans sub, by rw [mark]⟩

theorem Fades.sinceMark_sublist (fades : Fades before after) :
    (sinceMark after).Sublist (sinceMark before) := by
  obtain ⟨kept, sub, rfl⟩ := fades
  rw [(sinceMark_append sub).1]
  exact sub

theorem Fades.sublist (fades : Fades before after) : after.Sublist before := by
  obtain ⟨kept, sub, rfl⟩ := fades
  have whole := sub.append (.refl (beforeMark before))
  rwa [sinceMark_append_beforeMark] at whole

/-- Behind a mark nothing can be forgotten. -/
theorem Fades.eq_of_marker (fades : Fades (.marker :: entries) after) :
    after = .marker :: entries := by
  obtain ⟨kept, sub, rfl⟩ := fades
  rw [List.sublist_nil.mp sub]
  rfl

/-- Forgetting a formatting element since the latest mark. -/
theorem fades_eraseP {forgotten : Formatting → Bool}
    (found : ∃ entry ∈ sinceMark entries, forgotten entry = true) :
    Fades entries (entries.eraseP forgotten) := by
  refine ⟨(sinceMark entries).eraseP forgotten, List.eraseP_sublist, ?_⟩
  conv_lhs => rw [← sinceMark_append_beforeMark entries]
  obtain ⟨entry, member, holds⟩ := found
  exact List.eraseP_append_left holds _ member

end

def formattingId? : Formatting → Option NodeId
  | .marker => none
  | .element id _ => some id

/-! ## Standing and reading -/

def markNames : List String :=
  ["applet", "caption", "marquee", "object", "td", "template", "th"]

/-- Outdated elements, which are added by their tags and never open. -/
def outdatedNames : List String := ["basefont", "bgsound", "keygen"]

/-- Elements whose tags do more than open and close them. -/
def tellingNames : List String := ["form"] ++ markNames ++ outdatedNames

/-- The open elements since the latest one that sets a mark. -/
def openSinceMark (stack : List NodeId) (path : List Label) : List NodeId :=
  ((stack.zip path).takeWhile fun item => !item.2.isIn markNames).map (·.1)

/-- What holds wherever markup is read within the same elements. -/
structure Setting where
  /-- Tables have the old layout. -/
  legacy : Bool
  /-- The modes of the open templates, the latest in front. -/
  modes : List Mode

/-- Nothing is remembered that changes how markup is read. -/
structure Idle (setting : Setting) (b : Construction) : Prop where
  templates : b.templateModes = setting.modes
  tableText : b.tableText = []
  fostering : b.fostering = false
  context : b.context = none
  legacy : b.legacy = setting.legacy

/-- The construction stands where the elements of a path are open, the latest in front. -/
structure Stands (setting : Setting) (mode : Mode) (path : List Label) (b : Construction) :
    Prop where
  idle : b.Idle setting
  mode : b.mode = mode
  labelled : b.Labelled b.stack path
  opened : ((sinceMark b.formatting).filterMap formattingId?).Sublist (openSinceMark b.stack path)
  tagged : ∀ id tag, .element id tag ∈ sinceMark b.formatting → b.label? id = some (.html, tag.name)
  older : ∀ id tag, .element id tag ∈ b.formatting → b.forest.Has id
  form : (.html, "form") ∉ path → b.form = none
  outside : ∀ label ∈ path, label.isIn outdatedNames = false
  spots : ∀ id ∈ b.stack, b.forest.Has (b.insideOf id)

/-- Nodes are added at the end of a node: the latest open element, or the node for its contents. -/
def PutsIn (b : Construction) (top : NodeId) : Prop :=
  ∃ id below, b.stack = id :: below ∧ b.insideOf id = top

/-- Trees were read to the end of the latest open element, and the rest is as it was. -/
structure Reads (setting : Setting) (parent : Option String) (top : NodeId) (trees : List Subtree)
    (before after : Construction) : Prop where
  idle : after.Idle setting
  mode : after.mode = before.mode
  stack : after.stack = before.stack
  form : after.form = before.form
  fades : Fades before.formatting after.formatting
  lineFeed : after.dropLineFeed = true → trees = [] ∧ before.dropLineFeed = true
  builds : Builds parent top trees before.forest after.forest

section

variable {setting : Setting} {mode : Mode} {parent : Option String} {top : NodeId}
  {trees others : List Subtree} {tree : Subtree} {middle last : Construction}

theorem Reads.nil (idle : b.Idle setting) (top : NodeId) : Reads setting parent top [] b b where
  idle := idle
  mode := rfl
  stack := rfl
  form := rfl
  fades := .refl _
  lineFeed drops := ⟨rfl, drops⟩
  builds := .nil parent top _

theorem Reads.cons (inside : b.forest.Has top) (first : Reads setting parent top [tree] b middle)
    (rest : Reads setting parent top trees middle last) :
    Reads setting parent top (tree :: trees) b last where
  idle := rest.idle
  mode := rest.mode.trans first.mode
  stack := rest.stack.trans first.stack
  form := rest.form.trans first.form
  fades := first.fades.trans rest.fades
  lineFeed drops := absurd (first.lineFeed (rest.lineFeed drops).2).1 (List.cons_ne_nil _ _)
  builds := first.builds.append inside rest.builds

theorem insideOf_congr (same : next.forest.kind? id = b.forest.kind? id) :
    next.insideOf id = b.insideOf id := by
  unfold insideOf
  rw [same]

theorem insideOf_eq {label : Label} (known : b.label? id = some label)
    (plain : label ≠ (.html, "template")) : b.insideOf id = id := by
  unfold insideOf
  split
  · rename_i kind
    unfold label? at known
    rw [kind] at known
    cases known
    exact absurd rfl plain
  · rfl

/-- Where a construction stands there is a node that nodes are added to. -/
theorem Stands.has_spot (stands : b.Stands setting mode path) (puts : b.PutsIn top) :
    b.forest.Has top := by
  obtain ⟨id, below, stack, rfl⟩ := puts
  exact stands.spots id (stack ▸ List.mem_cons_self)

theorem Stands.has_of_mem (stands : b.Stands setting mode path) (member : id ∈ b.stack) :
    b.forest.Has id :=
  has_of_labelled stands.labelled member

theorem spots_grownAt {place : NodeId} {new : List NodeId}
    (stands : b.Stands setting mode path) (grown : GrownAt place new b.forest next.forest)
    (member : id ∈ b.stack) : next.forest.Has (next.insideOf id) := by
  rw [insideOf_congr (grown.kinds id (stands.has_of_mem member))]
  exact grown.has (stands.spots id member)

/-- After reading, the construction stands where it stood. -/
theorem Stands.after (stands : b.Stands setting mode path)
    (reads : Reads setting parent top trees b last) : last.Stands setting mode path := by
  obtain ⟨ids, grown, _⟩ := reads.builds
  refine ⟨reads.idle, reads.mode.trans stands.mode,
    reads.stack ▸ labelled_grownAt grown stands.labelled, ?_, ?_, ?_, ?_, stands.outside, ?_⟩
  · rw [reads.stack]
    exact (reads.fades.sinceMark_sublist.filterMap _).trans stands.opened
  · intro id tag member
    have known := stands.tagged id tag (reads.fades.sinceMark_sublist.mem member)
    rw [label?_grownAt grown (has_of_label? known), known]
  · intro id tag member
    exact grown.has (stands.older id tag (reads.fades.sublist.mem member))
  · intro absent
    rw [reads.form]
    exact stands.form absent
  · intro id member
    exact spots_grownAt stands grown (reads.stack ▸ member)

/-- The construction stands where it stood, in any mode, as long as the tree, the open elements and
what is remembered of them are the same. -/
theorem Stands.moved (stands : b.Stands setting mode path) {inner : Setting} {later : Mode}
    (idle : next.Idle inner) (turned : next.mode = later) (forest : next.forest = b.forest)
    (stack : next.stack = b.stack) (formatting : next.formatting = b.formatting)
    (form : next.form = b.form) : next.Stands inner later path := by
  have labels (id : NodeId) : next.label? id = b.label? id := label?_congr (by rw [forest])
  refine ⟨idle, turned, ?_, ?_, ?_, ?_, form ▸ stands.form, stands.outside, ?_⟩
  · rw [stack, Labelled, ← stands.labelled]
    exact List.map_congr_left fun id _ => labels id
  · rw [formatting, stack]
    exact stands.opened
  · rw [formatting]
    intro id tag member
    rw [labels, stands.tagged id tag member]
  · rw [formatting, forest]
    exact stands.older
  · rw [stack, forest]
    intro id member
    rw [insideOf_congr (b := b) (by rw [forest])]
    exact stands.spots id member

/-- After reading, nodes are added where they were. -/
theorem Stands.putsIn_after {place : NodeId} (stands : b.Stands setting mode path)
    (puts : b.PutsIn place) (reads : Reads setting parent top trees b last) :
    last.PutsIn place := by
  obtain ⟨id, below, stack, spot⟩ := puts
  obtain ⟨ids, grown, _⟩ := reads.builds
  have member : id ∈ b.stack := by
    rw [stack]
    exact List.mem_cons_self
  refine ⟨id, below, reads.stack.trans stack, ?_⟩
  rw [insideOf_congr (grown.kinds id (stands.has_of_mem member)), spot]

/-- A template is open if one is among the open elements. -/
theorem Stands.hasOpen_template (stands : b.Stands setting mode path) :
    b.hasOpen "template" = path.any (·.isIn ["template"]) :=
  any_isIn_eq stands.labelled ["template"]

/-! ## Elements -/

/-- An element was added to the latest open one and is open. -/
structure Opens (setting : Setting) (top : NodeId) (vocabulary : Vocabulary) (data : Element)
    (before after : Construction) : Prop where
  idle : after.Idle setting
  forest : ∃ attributes,
    attributes.map (fun item : Attribute => (item.name.text, item.value)) = data.attributes ∧
      after.forest = before.forest.sprout top (.element vocabulary data.name attributes none)
  stack : after.stack = ⟨before.forest.size⟩ :: before.stack

inductive Remembers (entries : List Formatting) (id : NodeId) (label : Label) :
    List Formatting → Prop
  | same (unmarked : label.isIn markNames = false) : Remembers entries id label entries
  | mark (marked : label.isIn markNames = true) : Remembers entries id label (.marker :: entries)
  | entry {tag : Tag} {fewer : List Formatting} (unmarked : label.isIn markNames = false)
      (known : tag.name ∈ ["a", "nobr"] ++ formattingNames) (named : label = (.html, tag.name))
      (fades : Fades entries fewer) :
      Remembers entries id label (.element id tag :: fewer)

variable {vocabulary : Vocabulary} {data : Element} {children : List Subtree}

theorem Opens.grownAt (opens : Opens setting top vocabulary data b middle)
    (inside : b.forest.Has top) : GrownAt top [⟨b.forest.size⟩] b.forest middle.forest := by
  obtain ⟨attributes, _, forest⟩ := opens.forest
  rw [forest]
  exact Forest.grownAt_sprout _ inside

theorem Opens.label? (opens : Opens setting top vocabulary data b middle) :
    middle.label? ⟨b.forest.size⟩ = some (vocabulary, data.name) := by
  obtain ⟨attributes, _, forest⟩ := opens.forest
  unfold Construction.label?
  rw [forest, Forest.kind?_sprout_new]

theorem openSinceMark_cons {label : Label} (unmarked : label.isIn markNames = false) (id : NodeId)
    (stack : List NodeId) (path : List Label) :
    openSinceMark (id :: stack) (label :: path) = id :: openSinceMark stack path := by
  unfold openSinceMark
  rw [List.zip_cons_cons, List.takeWhile_cons_of_pos (by simp [unmarked])]
  rfl

/-- After an element was opened, the construction stands in it. -/
theorem Stands.entered (stands : b.Stands setting mode path) {inner : Setting} {label : Label}
    (grown : GrownAt top [id] b.forest middle.forest)
    (idle : middle.Idle inner) (kind : middle.label? id = some label)
    (stack : middle.stack = id :: b.stack) (spot : middle.forest.Has (middle.insideOf id))
    (remembers : Remembers b.formatting id label middle.formatting)
    (form : (.html, "form") ∉ label :: path → middle.form = none)
    (known : label.isIn outdatedNames = false) :
    middle.Stands inner middle.mode (label :: path) := by
  have labels {id : NodeId} (old : b.forest.Has id) : middle.label? id = b.label? id :=
    label?_grownAt grown old
  have labelled : middle.Labelled middle.stack (label :: path) := by
    rw [stack]
    exact labelled_cons.mpr ⟨kind, labelled_grownAt grown stands.labelled⟩
  have inside : middle.forest.Has id := has_of_label? kind
  rw [stack] at labelled
  -- the claims on formatting elements go by what is remembered of them
  generalize entries : middle.formatting = formatting at remembers
  refine ⟨idle, rfl, stack ▸ labelled, ?opened, ?tagged, ?older, form,
    List.forall_mem_cons.mpr ⟨known, stands.outside⟩, ?spots⟩
  case spots =>
    rw [stack]
    exact List.forall_mem_cons.mpr ⟨spot, fun _ member => spots_grownAt stands grown member⟩
  all_goals rw [entries]
  case opened =>
    rw [stack]
    cases remembers with
    | same unmarked =>
        rw [openSinceMark_cons unmarked]
        exact stands.opened.cons _
    | mark => exact List.nil_sublist _
    | entry unmarked known named fades =>
        rw [openSinceMark_cons unmarked]
        exact ((fades.sinceMark_sublist.filterMap _).trans stands.opened).cons_cons _
  case tagged =>
    intro id tag member
    cases remembers with
    | same =>
        have before := stands.tagged id tag member
        rw [labels (has_of_label? before), before]
    | mark => cases member
    | entry unmarked known named fades =>
        rcases List.mem_cons.mp member with here | before
        · cases here
          rw [kind, named]
        · have before := stands.tagged id tag (fades.sinceMark_sublist.mem before)
          rw [labels (has_of_label? before), before]
  case older =>
    intro id tag member
    cases remembers with
    | same => exact grown.has (stands.older id tag member)
    | mark =>
        rcases List.mem_cons.mp member with mark | before
        · cases mark
        · exact grown.has (stands.older id tag before)
    | entry unmarked known named fades =>
        rcases List.mem_cons.mp member with here | before
        · cases here
          exact inside
        · exact grown.has (stands.older id tag (fades.sublist.mem before))

theorem Opens.insideOf (opens : Opens setting top vocabulary data b middle) :
    middle.insideOf ⟨b.forest.size⟩ = ⟨b.forest.size⟩ := by
  obtain ⟨attributes, _, forest⟩ := opens.forest
  unfold Construction.insideOf
  rw [forest, Forest.kind?_sprout_new]
  split
  · rename_i template
    exact nomatch (Part.element.inj (Option.some.inj template)).2.2.2
  · rfl

/-- Nodes are added within the element that was opened. -/
theorem Opens.putsIn (opens : Opens setting top vocabulary data b middle) :
    middle.PutsIn ⟨b.forest.size⟩ :=
  ⟨_, _, opens.stack, opens.insideOf⟩

/-- After an element was opened that keeps what stands in it below itself, the construction stands
in it. -/
theorem Stands.inside (stands : b.Stands setting mode path) (inside : b.forest.Has top)
    (opens : Opens setting top vocabulary data b middle)
    (remembers : Remembers b.formatting ⟨b.forest.size⟩ (vocabulary, data.name) middle.formatting)
    (form : (.html, "form") ∉ (vocabulary, data.name) :: path → middle.form = none)
    (known : Label.isIn outdatedNames (vocabulary, data.name) = false) :
    middle.Stands setting middle.mode ((vocabulary, data.name) :: path) := by
  refine stands.entered (opens.grownAt inside) opens.idle opens.label?
    opens.stack ?_ remembers form known
  rw [opens.insideOf]
  exact has_of_label? opens.label?

/-- An element is read with what stands in it, once its closing tag has taken things back to where
they were. -/
theorem Reads.element (inside : b.forest.Has top)
    (opens : Opens setting top vocabulary data b middle) {inner : Construction}
    (reads : Reads setting (some data.name) ⟨b.forest.size⟩ children middle inner)
    (idle : last.Idle setting) (forest : last.forest = inner.forest) (mode : last.mode = b.mode)
    (stack : last.stack = b.stack) (form : last.form = b.form)
    (fades : Fades b.formatting last.formatting) (lineFeed : last.dropLineFeed = false) :
    Reads setting parent top [.element data children] b last where
  idle := idle
  mode := mode
  stack := stack
  form := form
  fades := fades
  lineFeed drops := by
    rw [lineFeed] at drops
    cases drops
  builds := by
    obtain ⟨attributes, pairs, sprouted⟩ := opens.forest
    have inner := reads.builds
    rw [sprouted] at inner
    rw [forest]
    exact .element inside pairs inner

/-- A node is read that nothing stands below. -/
theorem Reads.leaf {part : Part}
    (builds : Builds parent top [tree] b.forest (b.forest.sprout top part))
    (idle : last.Idle setting) (forest : last.forest = b.forest.sprout top part)
    (mode : last.mode = b.mode) (stack : last.stack = b.stack) (form : last.form = b.form)
    (formatting : last.formatting = b.formatting) (lineFeed : last.dropLineFeed = false) :
    Reads setting parent top [tree] b last where
  idle := idle
  mode := mode
  stack := stack
  form := form
  fades := by
    rw [formatting]
    exact .refl _
  lineFeed drops := by
    rw [lineFeed] at drops
    cases drops
  builds := forest ▸ builds

end

end Construction

end ServerPages.Markup
