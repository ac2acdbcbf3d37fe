import ServerPages.Proofs.Binding.Effects
import ServerPages.Proofs.Document.Refusals
import ServerPages.Proofs.Lifecycle.Concealing
import ServerPages.Proofs.Page.Fields
import ServerPages.Proofs.Text

/-!
# The panel of the page that counts

The page that counts keeps its count in a field of its panel and shows it beside. Whatever a request
brings as the count stands in the field once the page is filled in and bound, both places can be
written, and what is sent of the panel is the same but for the count.
-/

namespace ServerPages.Demo

open Document Json Procedure Text

/-! ## The view -/

def counterView : String := Assets.ofLines [
  "<!DOCTYPE html>",
  "<html runat=\"server\" language=\"js\" codebehind=\"Counter\">",
  "<head>",
  "  <meta charset=\"utf-8\">",
  "  <title>Counter</title>",
  "</head>",
  "<body>",
  "  <div id=\"panel\" updatepanel=\"true\">",
  "    <input type=\"hidden\" id=\"count\" name=\"count\" runat=\"server\" value=\"0\">",
  "    <p>Count: <span id=\"shown\" runat=\"server\">0</span></p>",
  "    <button id=\"inc\" runat=\"server\" onclick=\"server.add(1)\">+1</button>",
  "    <button id=\"inc10\" runat=\"server\" onclick=\"server.add(10)\">+10</button>",
  "  </div>",
  "  <div for=\"panel\" show=\"progress\">Working...</div>",
  "  <div for=\"panel\" show=\"failure\">That didn't work.</div>",
  "  <p><a href=\"/\">Home</a></p>",
  "</body>",
  "</html>"]

def countField (count : String) : Element :=
  ⟨"input", [("type", "hidden"), ("id", "count"), ("name", "count"), ("runat", "server"),
    ("value", count)]⟩

def shownElement : Element :=
  ⟨"span", [("id", "shown"), ("runat", "server")]⟩

def counterDocument : Document :=
  ⟨#[⟨.document, none, [⟨1⟩, ⟨2⟩]⟩,
    ⟨.doctype "html", some ⟨0⟩, []⟩,
    ⟨.element ⟨"html", []⟩, some ⟨0⟩, [⟨3⟩, ⟨10⟩, ⟨11⟩]⟩,
    ⟨.element ⟨"head", []⟩, some ⟨2⟩, [⟨4⟩, ⟨5⟩, ⟨6⟩, ⟨7⟩, ⟨9⟩]⟩,
    ⟨.text "\n  ", some ⟨3⟩, []⟩,
    ⟨.element ⟨"meta", [("charset", "utf-8")]⟩, some ⟨3⟩, []⟩,
    ⟨.text "\n  ", some ⟨3⟩, []⟩,
    ⟨.element ⟨"title", []⟩, some ⟨3⟩, [⟨8⟩]⟩,
    ⟨.text "Counter", some ⟨7⟩, []⟩,
    ⟨.text "\n", some ⟨3⟩, []⟩,
    ⟨.text "\n", some ⟨2⟩, []⟩,
    ⟨.element ⟨"body", []⟩, some ⟨2⟩,
      [⟨12⟩, ⟨13⟩, ⟨28⟩, ⟨29⟩, ⟨31⟩, ⟨32⟩, ⟨34⟩, ⟨35⟩, ⟨38⟩]⟩,
    ⟨.text "\n  ", some ⟨11⟩, []⟩,
    ⟨.element ⟨"div", [("id", "panel"), ("updatepanel", "true")]⟩, some ⟨11⟩,
      [⟨14⟩, ⟨15⟩, ⟨16⟩, ⟨17⟩, ⟨21⟩, ⟨22⟩, ⟨24⟩, ⟨25⟩, ⟨27⟩]⟩,
    ⟨.text "\n    ", some ⟨13⟩, []⟩,
    ⟨.element (countField "0"), some ⟨13⟩, []⟩,
    ⟨.text "\n    ", some ⟨13⟩, []⟩,
    ⟨.element ⟨"p", []⟩, some ⟨13⟩, [⟨18⟩, ⟨19⟩]⟩,
    ⟨.text "Count: ", some ⟨17⟩, []⟩,
    ⟨.element shownElement, some ⟨17⟩, [⟨20⟩]⟩,
    ⟨.text "0", some ⟨19⟩, []⟩,
    ⟨.text "\n    ", some ⟨13⟩, []⟩,
    ⟨.element ⟨"button", [("id", "inc"), ("runat", "server"), ("onclick", "server.add(1)")]⟩,
      some ⟨13⟩, [⟨23⟩]⟩,
    ⟨.text "+1", some ⟨22⟩, []⟩,
    ⟨.text "\n    ", some ⟨13⟩, []⟩,
    ⟨.element ⟨"button", [("id", "inc10"), ("runat", "server"), ("onclick", "server.add(10)")]⟩,
      some ⟨13⟩, [⟨26⟩]⟩,
    ⟨.text "+10", some ⟨25⟩, []⟩,
    ⟨.text "\n  ", some ⟨13⟩, []⟩,
    ⟨.text "\n  ", some ⟨11⟩, []⟩,
    ⟨.element ⟨"div", [("for", "panel"), ("show", "progress")]⟩, some ⟨11⟩, [⟨30⟩]⟩,
    ⟨.text "Working...", some ⟨29⟩, []⟩,
    ⟨.text "\n  ", some ⟨11⟩, []⟩,
    ⟨.element ⟨"div", [("for", "panel"), ("show", "failure")]⟩, some ⟨11⟩, [⟨33⟩]⟩,
    ⟨.text "That didn't work.", some ⟨32⟩, []⟩,
    ⟨.text "\n  ", some ⟨11⟩, []⟩,
    ⟨.element ⟨"p", []⟩, some ⟨11⟩, [⟨36⟩]⟩,
    ⟨.element ⟨"a", [("href", "/")]⟩, some ⟨35⟩, [⟨37⟩]⟩,
    ⟨.text "Home", some ⟨36⟩, []⟩,
    ⟨.text "\n\n\n", some ⟨11⟩, []⟩]⟩

def panelNode : NodeId := ⟨13⟩

def countNode : NodeId := ⟨15⟩

def shownNode : NodeId := ⟨19⟩

theorem toList_ofLines (lines : List String) :
    (Assets.ofLines lines).toList = lines.flatMap fun line => line.toList ++ ['\n'] := by
  rw [Assets.ofLines, String.toList_join, List.flatMap_map]
  simp

theorem takeControl_counterView :
    (Document.parse counterView).takeControl = (some "Counter", counterDocument) := by
  rw [Document.parse, Markup.parseDocument, counterView,
    Markup.construct_of_toList (toList_ofLines _)]
  decide +kernel

def boundCounter : Document :=
  ((Document.bind []).runFrom counterDocument).2

/-- The nodes of the panel of a bound page, with what stands below each; the field and the text that
is shown are left out. -/
def panelNodes : List (NodeId × NodeKind × List NodeId) :=
  [(panelNode, .element ⟨"div", [("id", "panel"), ("updatepanel", "true")]⟩,
      [⟨14⟩, countNode, ⟨16⟩, ⟨17⟩, ⟨21⟩, ⟨22⟩, ⟨24⟩, ⟨25⟩, ⟨27⟩, ⟨39⟩]),
    (⟨14⟩, .text "\n    ", []),
    (⟨16⟩, .text "\n    ", []),
    (⟨17⟩, .element ⟨"p", []⟩, [⟨18⟩, shownNode]),
    (⟨18⟩, .text "Count: ", []),
    (⟨21⟩, .text "\n    ", []),
    (⟨22⟩, .element ⟨"button", [("id", "inc"), ("runat", "server"),
      ("__element_xid", "__element_xid0")]⟩, [⟨23⟩]),
    (⟨23⟩, .text "+1", []),
    (⟨24⟩, .text "\n    ", []),
    (⟨25⟩, .element ⟨"button", [("id", "inc10"), ("runat", "server"),
      ("__element_xid", "__element_xid1")]⟩, [⟨26⟩]),
    (⟨26⟩, .text "+10", []),
    (⟨27⟩, .text "\n  ", []),
    (⟨39⟩, .element (Carrier.element "__eventElement0"), [])]

theorem counterDocument_reads :
    Binding.Unmarked counterDocument ∧
    counterDocument.findAll Binding.interactive = [⟨22⟩, ⟨25⟩] ∧
    (Page.index counterDocument = [("count", countNode), ("inc", ⟨22⟩), ("inc10", ⟨25⟩),
      ("shown", shownNode)]) ∧
    counterDocument.takers takesBody "count" = [countNode] ∧
    (∀ place : Fin (Forest.size counterDocument), (⟨place⟩ : NodeId) ≠ countNode →
      counterDocument.attr? ⟨place⟩ "runat" = some "server" →
        counterDocument.attr? ⟨place⟩ "name" = none) ∧
    ((Document.bind []).runFrom counterDocument).1.isOk = true := by
  decide +kernel

theorem boundCounter_reads :
    (∀ entry ∈ panelNodes, boundCounter.kind? entry.1 = some entry.2.1 ∧
      boundCounter.children entry.1 = entry.2.2 ∧ ¬ boundCounter.Welcomes entry.1) ∧
    (boundCounter.children countNode = [] ∧ ¬ boundCounter.Welcomes countNode) ∧
    boundCounter.kind? shownNode = some (.element shownElement) ∧
    (∀ place : Fin (Forest.size boundCounter), boundCounter.attr? ⟨place⟩ "updatepanel" ≠ none →
      (⟨place⟩ : NodeId) = panelNode) ∧
    (∀ place : Fin (Forest.size boundCounter), (⟨place⟩ : NodeId) ≠ countNode →
      boundCounter.attr? ⟨place⟩ "runat" = some "server" →
        boundCounter.attr? ⟨place⟩ "name" = none) ∧
    boundCounter.panelById "panel" = some panelNode := by
  decide +kernel

/-! ## The page of a request -/

/-- A document that shows the panel of the page that counts, with a count in its field. -/
structure Ready (doc : Document) (count : String) : Prop where
  wellFormed : doc.WellFormed
  inner : doc.Within root panelNode
  alone (id : NodeId) (marked : doc.attr? id "updatepanel" ≠ none) : id = panelNode
  panel : ∀ entry ∈ panelNodes,
    doc.kind? entry.1 = some entry.2.1 ∧ doc.children entry.1 = entry.2.2
  field : doc.element? countNode = some (countField count) ∧ doc.children countNode = []
  shown : doc.element? shownNode = some shownElement

section

variable {request : Request} {value : Json}

/-- The field takes the count of the body. -/
theorem element?_countNode_of_populate (distinct : request.body.keys.Nodup)
    (brings : request.body.find? "count" = some value) {number : Nat} {filled : Document}
    (populated : (Document.populate request).runFrom counterDocument = (.ok number, filled)) :
    filled.element? countNode = some (countField value.fieldText) := by
  obtain ⟨_, _, _, takers, _⟩ := counterDocument_reads
  have keys : (request.fields .body).keys = request.body.keys := List.map_map
  have among : ("count", value.fieldText) ∈ request.fields .body :=
    List.mem_map.mpr ⟨("count", value), (Dictionary.find?_eq_some_iff distinct).mp brings, rfl⟩
  have taken : countNode ∈ counterDocument.takers takesBody "count" := by
    rw [takers]
    exact List.mem_singleton_self _
  cases populated.symm.trans (runFrom_populate counterDocument request)
  rw [element?_fill, brought_of_mem (keys ▸ distinct) among taken]
  rfl

/-- Binding leaves the field as it is. -/
theorem element?_countNode_of_bind {filled bound : Document} {code : ClientCode} {count : String}
    (wf : filled.WellFormed) (tidy : Tidy filled)
    (alike : Document.Alike request.fieldNames counterDocument filled)
    (field : filled.element? countNode = some (countField count))
    (binds : (Document.bind []).runFrom filled = (.ok code, bound)) :
    bound.element? countNode = some (countField count) := by
  obtain ⟨_, interactive, _⟩ := counterDocument_reads
  obtain ⟨_, state, _, rfl, _, _, changed⟩ := Binding.exists_changed_of_bind wf tidy.once binds
  refine changed.altered.element?_eq (Binding.changedNames_eq_nil ?_ ?_) field
  · rw [Binding.findAll_interactive_eq alike, interactive]
    decide
  · rintro ⟨_, unnamed⟩
    rw [attr?, field] at unnamed
    cases unnamed

/-- A page that was bound for a request, and the page with its script: but for its fields it is the
bound page. -/
structure Bound (names : List String) (count : String) (bound final : Document) : Prop where
  wellFormed : bound.WellFormed
  same : Document.Alike names boundCounter bound
  field : bound.element? countNode = some (countField count)
  ext : bound.Extends final

namespace Bound

variable {names : List String} {count : String} {bound final : Document} {id : NodeId}

theorem has (page : Bound names count bound final) (has : boundCounter.Has id) : bound.Has id := by
  rwa [Forest.Has, ← page.same.size]

theorem kind?_eq (page : Bound names count bound final) (has : boundCounter.Has id)
    (other : id ≠ countNode) : final.kind? id = boundCounter.kind? id := by
  obtain ⟨_, _, _, _, untaken, _⟩ := boundCounter_reads
  exact (page.ext.kind id (page.has has)).trans
    (page.same.kind?_eq (untaken ⟨id.index, has⟩ other))

theorem children_eq (page : Bound names count bound final) (has : boundCounter.Has id)
    (apart : ¬ boundCounter.Welcomes id) : final.children id = boundCounter.children id := by
  rw [← Binding.welcomes_iff_of_alike page.same] at apart
  rw [page.ext.children id (page.has has) apart, page.same.children_eq]

theorem panelById_eq (page : Bound names count bound final) :
    final.panelById "panel" = some panelNode := by
  obtain ⟨_, _, _, _, _, byId⟩ := boundCounter_reads
  have top : boundCounter.Has root := by decide +kernel
  have asks : ("id", some "panel") ∈
      ((Match.any.eq "id" "panel").eq "updatepanel" "true").attributes := by
    simp [Match.eq, Match.any]
  rw [panelById, page.ext.find_eq page.wellFormed (page.has top) asks]
  exact (Binding.panelById_eq_of_alike page.same "panel").trans byId

theorem ready (page : Bound names count bound final) : Ready final count := by
  obtain ⟨panel, ⟨childless, apart⟩, shown, alone, _⟩ := boundCounter_reads
  have hasField : boundCounter.Has countNode := by decide +kernel
  have wf := page.ext.wellFormed
  refine ⟨wf, (within_of_findIn wf page.panelById_eq).1, ?_, ?_, ⟨?_, ?_⟩, ?_⟩
  · intro id marked
    by_cases old : bound.Has id
    · have has : boundCounter.Has id := by rwa [Forest.Has, page.same.size]
      rw [attr?_congr (page.ext.kind id old), ← page.same.attr?_eq id (by decide)] at marked
      exact alone ⟨id.index, has⟩ marked
    · exact absurd (page.ext.bare id old "updatepanel") marked
  · intro entry member
    obtain ⟨kind, children, apart⟩ := panel entry member
    have other : entry.1 ≠ countNode :=
      (by decide : ∀ entry ∈ panelNodes, entry.1 ≠ countNode) entry member
    have has := Forest.has_of_kind? kind
    exact ⟨(page.kind?_eq has other).trans kind, (page.children_eq has apart).trans children⟩
  · have field := page.field
    rw [element?_eq_some_iff] at field ⊢
    rw [page.ext.kind countNode (page.has hasField), field]
  · exact (page.children_eq hasField apart).trans childless
  · rw [element?_eq_some_iff]
    exact (page.kind?_eq (Forest.has_of_kind? shown) (by decide)).trans shown

end Bound

theorem exists_codeFor : ∃ code,
    (Binding.codeFor [] (.bare .get "/")).runFrom counterDocument = (.ok code, boundCounter) := by
  obtain ⟨_, _, _, _, _, ends⟩ := counterDocument_reads
  rcases ran : (Document.bind []).runFrom counterDocument with ⟨error | code, after⟩
  · rw [ran] at ends
    cases ends
  · refine ⟨code, ?_⟩
    rw [boundCounter, ran]
    exact (runFrom_bind_ok (populate_bare counterDocument .get "/")).trans ran

/-- The page of a request is filled in, bound and given its script, and then shows the count. -/
theorem exists_ready (distinct : request.body.keys.Nodup)
    (brings : request.body.find? "count" = some value) (assets : Assets) :
    ∃ number filled code bound final,
      (Document.populate request).runFrom counterDocument = (.ok number, filled) ∧
      (Document.bind []).runFrom filled = (.ok code, bound) ∧
      (Document.inject (code.withAssets assets)).runFrom bound = (.ok (), final) ∧
      (Binding.prepare [] assets request).runFrom counterDocument = (.ok (), final) ∧
      Ready final value.fieldText := by
  obtain ⟨code, generated⟩ := exists_codeFor
  obtain ⟨number, filled, bound, final, populated, sound, binds, injects, prepared, ext, _⟩ :=
    Binding.exists_prepared (template_of_takeControl takeControl_counterView)
      counterDocument_reads.1 generated assets request
  obtain ⟨_, _, again, alike⟩ := exists_populate counterDocument request
  cases populated.symm.trans again
  have same : Document.Alike request.fieldNames boundCounter bound := by
    have both := (Binding.respects_bind [] counterDocument filled alike).2
    rwa [binds] at both
  have tidy : Tidy filled := by
    have start : Guarded True (parse counterView) counterDocument :=
      guarded_of_takeControl takeControl_counterView
    have stable : Stable (Operation.Discreet []) Tidy :=
      stable_tidy.mono fun _ => Operation.Discreet.distinct
    have kept := preserves_populate stable nofun request counterDocument start.tidy
    rwa [populated] at kept
  have wf : bound.WellFormed := by
    obtain ⟨_, _, _, rfl, frame, _⟩ :=
      Binding.exists_changed_of_bind sound.wellFormed tidy.once binds
    exact frame.wellFormed
  have field := element?_countNode_of_bind sound.wellFormed tidy alike
    (element?_countNode_of_populate distinct brings populated) binds
  exact ⟨number, filled, code, bound, final, populated, binds, injects, prepared,
    Bound.ready ⟨wf, same, field, ext⟩⟩

end

/-! ## Changes of the page -/

namespace Ready

variable {doc : Document} {count : String}

theorem has (ready : Ready doc count) {entry : NodeId × NodeKind × List NodeId}
    (member : entry ∈ panelNodes) : doc.Has entry.1 :=
  Forest.has_of_kind? (ready.panel entry member).1

/-- A new count in the field. -/
theorem setCount (ready : Ready doc count) (sum : String) :
    ∃ next, doc.setAttr countNode "value" sum = .ok next ∧ Ready next sum := by
  have inside := has_of_element? ready.field.1
  have kinds {id : NodeId} (other : id ≠ countNode) :
      (doc.setKind countNode (.element (countField sum))).kind? id = doc.kind? id :=
    Forest.kind?_setKind_of_ne doc other _
  refine ⟨doc.setKind countNode (.element (countField sum)), setAttr_eq ready.field.1 "value" sum,
    ready.wellFormed.setKind _ _, ?_, ?_, ?_, ?_, ?_⟩
  · exact ready.inner.of_parent?_eq fun child _ => Forest.parent?_setKind doc _ child _
  · intro id marked
    by_cases here : id = countNode
    · subst here
      rw [attr?, element?_setKind_self inside] at marked
      exact absurd rfl marked
    · rw [attr?_congr (kinds here)] at marked
      exact ready.alone id marked
  · intro entry member
    have other : entry.1 ≠ countNode :=
      (by decide : ∀ entry ∈ panelNodes, entry.1 ≠ countNode) entry member
    rw [kinds other, Forest.children_setKind]
    exact ready.panel entry member
  · rw [element?_setKind_self inside, Forest.children_setKind]
    exact ⟨rfl, ready.field.2⟩
  · rw [element?_eq_some_iff, kinds (by decide)]
    exact element?_eq_some_iff.mp ready.shown

theorem parent?_eq (ready : Ready doc count) {entry : NodeId × NodeKind × List NodeId}
    {place : Nat} (known : panelNodes[place]? = some entry) {child : NodeId}
    (down : child ∈ entry.2.2) : doc.parent? child = some entry.1 := by
  refine (ready.wellFormed.linked entry.1 child).mp ?_
  rwa [(ready.panel entry (List.mem_of_getElem? known)).2]

/-- The element that shows the count is in the panel, and not the other way round. -/
theorem not_within_shown (ready : Ready doc count) : ¬ doc.Within shownNode panelNode := by
  have paragraph : doc.parent? ⟨17⟩ = some panelNode :=
    ready.parent?_eq (show panelNodes[0]? = some _ from rfl) (by decide)
  have shown : doc.parent? shownNode = some ⟨17⟩ :=
    ready.parent?_eq (show panelNodes[3]? = some _ from rfl) (by decide)
  intro outer
  have inner : doc.Within panelNode shownNode := .step shown (.step paragraph .refl)
  exact absurd (ready.wellFormed.within_antisymm inner outer) (by decide)

/-- A new text where the count is shown. -/
theorem setShown (ready : Ready doc count) {sum : String} (full : sum ≠ "") :
    ∃ next, doc.setText shownNode sum = .ok next ∧ Ready next count ∧
      next.text shownNode = sum ∧ next.DepictsAll (next.children shownNode) [.text sum] := by
  have wf := ready.wellFormed
  have inside := has_of_element? ready.shown
  have nonempty : ¬ sum.isEmpty = true := fun empty => full (String.isEmpty_iff.mp empty)
  have done : doc.setText shownNode sum = .ok (doc.retext shownNode "span" sum) :=
    setText_eq wf ready.shown sum
  have hasField := has_of_element? ready.field.1
  refine ⟨doc.retext shownNode "span" sum, done, ⟨wellFormed_setText wf done,
    within_retext wf ready.inner ready.not_within_shown, ?_, ?_, ⟨?_, ?_⟩, ?_⟩,
    (retexted_of_setText wf done).text, ?_⟩
  · intro id marked
    by_cases old : doc.Has id
    · rw [attr?_congr (kind?_retext old)] at marked
      exact ready.alone id marked
    · exact absurd (attr?_retext_of_not_has old "updatepanel") marked
  · intro entry member
    have other : entry.1 ≠ shownNode :=
      (by decide : ∀ entry ∈ panelNodes, entry.1 ≠ shownNode) entry member
    rw [kind?_retext (ready.has member), children_retext_of_ne wf inside other]
    exact ready.panel entry member
  · rw [element?_eq_some_iff, kind?_retext hasField]
    exact element?_eq_some_iff.mp ready.field.1
  · rw [children_retext_of_ne wf inside (by decide)]
    exact ready.field.2
  · rw [element?_eq_some_iff, kind?_retext inside]
    exact element?_eq_some_iff.mp ready.shown
  · rw [children_retext_self wf inside, if_neg nonempty]
    have plain : textKind (some "span") sum = .text sum := if_neg (by decide +kernel)
    exact ⟨(kind?_retext_new doc shownNode "span" nonempty).trans (congrArg some plain), trivial⟩

def trees (count shown : String) : List Subtree :=
  [.text "\n    ",
    .element (countField count) [],
    .text "\n    ",
    .element ⟨"p", []⟩ [.text "Count: ", .element shownElement [.text shown]],
    .text "\n    ",
    .element ⟨"button", [("id", "inc"), ("runat", "server"), ("__element_xid", "__element_xid0")]⟩
      [.text "+1"],
    .text "\n    ",
    .element ⟨"button", [("id", "inc10"), ("runat", "server"), ("__element_xid", "__element_xid1")]⟩
      [.text "+10"],
    .text "\n  ",
    .element (Carrier.element "__eventElement0") []]

theorem depictsAll (ready : Ready doc count) {shown : String}
    (shows : doc.DepictsAll (doc.children shownNode) [.text shown]) :
    doc.DepictsAll (doc.children panelNode) (trees count shown) := by
  have nodes := ready.panel
  simp only [panelNodes, List.forall_mem_cons, List.not_mem_nil, false_imp_iff, implies_true,
    and_true] at nodes
  obtain ⟨⟨_, k13⟩, n14, n16, n17, n18, n21, n22, n23, n24, n25, n26, n27, n39⟩ := nodes
  rw [k13]
  have field := element?_eq_some_iff.mp ready.field.1
  have span := element?_eq_some_iff.mp ready.shown
  simp only [trees, DepictsAll, Depicts, n14, n16, n17, n18, n21, n22, n23, n24, n25, n26, n27, n39,
    field, span, ready.field.2, and_self, and_true, true_and]
  exact shows

end Ready

/-! ## The panel as it is sent -/

def sentTrees (count : String) : List Subtree :=
  [.text "\n    ",
    .element ⟨"input", [("type", "hidden"), ("id", "count"), ("name", "count"), ("value", count)]⟩
      [],
    .text "\n    ",
    .element ⟨"p", []⟩ [.text "Count: ", .element ⟨"span", [("id", "shown")]⟩ [.text count]],
    .text "\n    ",
    .element ⟨"button", [("id", "inc"), ("__element_xid", "__element_xid0")]⟩ [.text "+1"],
    .text "\n    ",
    .element ⟨"button", [("id", "inc10"), ("__element_xid", "__element_xid1")]⟩ [.text "+10"],
    .text "\n  ",
    .element (Carrier.element "__eventElement0") []]

/-- What is sent of the panel, with the count in the field and once more to be seen. -/
def panelMarkup (count : String) : String :=
  String.join ["\n    <input type=\"hidden\" id=\"count\" name=\"count\" value=\"", count, "\">",
    "\n    <p>Count: <span id=\"shown\">", count, "</span></p>",
    "\n    <button id=\"inc\" __element_xid=\"__element_xid0\">+1</button>",
    "\n    <button id=\"inc10\" __element_xid=\"__element_xid1\">+10</button>",
    "\n  <input type=\"hidden\" name=\"__eventElement\" id=\"__eventElement0\">"]

theorem escapeChars_signedDecimal (number : Int) :
    Markup.escapeChars (signedDecimal number).toList = (signedDecimal number).toList := by
  refine Markup.escapeChars_eq_self fun c member special => ?_
  rcases mem_signedDecimal member with digit | rfl
  · have marks : (['&', '<', '>', '"', '\''].all fun mark => !mark.isDigit) = true := by decide
    have other := List.all_eq_true.mp marks c special
    rw [digit] at other
    cases other
  · exact absurd special (by decide)

theorem listChars_sentTrees {count : String}
    (plain : Markup.escapeChars count.toList = count.toList) :
    Subtree.listChars (sentTrees count) = (panelMarkup count).toList := by
  have void : Markup.isVoid "input" = true ∧ Markup.isVoid "p" = false ∧
      Markup.isVoid "span" = false := by decide +kernel
  -- the pieces around the count, each put together from what is written of its trees
  have field : Subtree.chars (.text "\n    ") ++ '<' :: ("input".toList ++
      ([("type", "hidden"), ("id", "count"), ("name", "count")].flatMap Element.attributeChars ++
        ' ' :: ("value".toList ++ ['=', '"']))) =
      "\n    <input type=\"hidden\" id=\"count\" name=\"count\" value=\"".toList := by
    decide +kernel
  have shown : Subtree.chars (.text "\n    ") ++ (Element.openingChars ⟨"p", []⟩ ++
      (Subtree.chars (.text "Count: ") ++ Element.openingChars ⟨"span", [("id", "shown")]⟩)) =
      "\n    <p>Count: <span id=\"shown\">".toList := by
    decide +kernel
  have closing : Element.closingChars ⟨"span", []⟩ ++ Element.closingChars ⟨"p", []⟩ =
      "</span></p>".toList := by
    decide +kernel
  have inc : Subtree.listChars [.text "\n    ",
      .element ⟨"button", [("id", "inc"), ("__element_xid", "__element_xid0")]⟩ [.text "+1"]] =
      "\n    <button id=\"inc\" __element_xid=\"__element_xid0\">+1</button>".toList := by
    decide +kernel
  have inc10 : Subtree.listChars [.text "\n    ",
      .element ⟨"button", [("id", "inc10"), ("__element_xid", "__element_xid1")]⟩ [.text "+10"]] =
      "\n    <button id=\"inc10\" __element_xid=\"__element_xid1\">+10</button>".toList := by
    decide +kernel
  have carrier : Subtree.listChars [.text "\n  ",
      .element (Carrier.element "__eventElement0") []] =
      "\n  <input type=\"hidden\" name=\"__eventElement\" id=\"__eventElement0\">".toList := by
    decide +kernel
  rw [panelMarkup, String.toList_join]
  simp only [List.flatMap_cons, List.flatMap_nil, ← field, ← shown, ← closing, ← inc, ← inc10,
    ← carrier, sentTrees, Subtree.listChars_cons, Subtree.listChars_nil, Subtree.chars_text,
    Subtree.chars_element, void]
  simp only [Element.openingChars, Element.closingChars, Element.attributeChars, plain,
    List.append_assoc, List.cons_append, List.flatMap_cons, List.flatMap_nil, List.append_nil,
    if_true, List.nil_append, Bool.false_eq_true, if_false]
  rfl

/-- The panel of a page that shows its count is sent without the marks of what runs at the
server. -/
theorem Ready.panelReply_eq {doc : Document} {number : Int}
    (ready : Ready doc (signedDecimal number))
    (shows : doc.DepictsAll (doc.children shownNode) [.text (signedDecimal number)]) :
    (doc.panelReply "panel").1 = .panel "panel" (panelMarkup (signedDecimal number)) := by
  have element : doc.element? panelNode =
      some ⟨"div", [("id", "panel"), ("updatepanel", "true")]⟩ :=
    element?_eq_some_iff.mpr (ready.panel _ List.mem_cons_self).1
  have marked : doc.attr? panelNode "updatepanel" = some "true" := by
    rw [attr?, element]
    rfl
  have named : doc.attr? panelNode "id" = some "panel" := by
    rw [attr?, element]
    rfl
  have found : doc.panelById "panel" = some panelNode := by
    refine findIn_eq_some_of_alone ready.wellFormed ready.inner (by decide)
      (holds_eq_iff.mpr ⟨holds_any_eq_iff.mpr named, marked⟩) fun other holds => ?_
    refine ready.alone other fun bare => ?_
    rw [(holds_eq_iff.mp holds).2] at bare
    cases bare
  have sent : Subtree.unmarkedAll (Ready.trees (signedDecimal number) (signedDecimal number)) =
      sentTrees (signedDecimal number) := rfl
  rw [panelReply, found]
  dsimp only
  rw [innerHtml_stripServerMarks ready.wellFormed (ready.depictsAll shows), sent,
    listChars_sentTrees (escapeChars_signedDecimal number), String.ofList_toList]

end ServerPages.Demo
