import ServerPages.Demo
import ServerPages.Proofs.Demo.Panel
import ServerPages.Proofs.Event.Wire
import ServerPages.Proofs.Lifecycle.Handling
import ServerPages.Proofs.Routing
import ServerPages.Proofs.Server.Shapes
import ServerPages.Proofs.Url.Queries

/-!
# The page that counts

The page that counts has no state at the server: its count stands in a field that the client sends
along, and each post gets a panel with the next count. Whatever count is posted, the panel shows the
sum of what the text of the field writes and the step, as long as 64 bits hold the sum; beyond that
the handler breaks down and the client gets no panel. What is shown is read back as it was, so the
next post goes on from there.
-/

namespace ServerPages.Demo

open Document Http Json Procedure Text

variable {σ ω : Type}

/-! ## The handler -/

structure Shows (page : Page) (doc : Document) (count : String) : Prop where
  elements : page.elements = Page.index counterDocument
  document : page.document = some doc
  ready : Ready doc count

namespace Shows

variable {page : Page} {doc : Document} {count : String}

theorem element?_count (shows : Shows page doc count) : page.element? "count" = some countNode := by
  rw [Page.element?, shows.elements, counterDocument_reads.2.2.1]
  rfl

theorem element?_shown (shows : Shows page doc count) : page.element? "shown" = some shownNode := by
  rw [Page.element?, shows.elements, counterDocument_reads.2.2.1]
  rfl

theorem value?_count (shows : Shows page doc count) : page.value? "count" = some count := by
  have value : doc.attr? countNode "value" = some count := by
    rw [attr?, shows.ready.field.1]
    rfl
  rw [Page.value?, shows.element?_count, shows.document]
  exact value

theorem text?_shown (shows : Shows page doc count) :
    page.text? "shown" = some (doc.text shownNode) := by
  rw [Page.text?, shows.element?_shown, shows.document]
  rfl

end Shows

section

variable {page : Page} {doc : Document} {count : String} {given : Option Int} {sum : Int}

/-- A sum that 64 bits hold is written to the field and shown. -/
theorem runFrom_add (shows : Shows page doc count) (object : σ) (shared : ω)
    (sums : countOf count + given.getD 1 = sum) (held : IntegerRange.signed64.holds sum = true) :
    ∃ next, (add given).runFrom ⟨object, page, shared⟩ =
        (.ok (.ofInt sum), ⟨object, { page with document := some next }, shared⟩) ∧
      Ready next (signedDecimal sum) ∧ next.text shownNode = signedDecimal sum ∧
      next.DepictsAll (next.children shownNode) [.text (signedDecimal sum)] := by
  obtain ⟨middle, valued, ready⟩ := shows.ready.setCount (signedDecimal sum)
  have between : Shows { page with document := some middle } middle (signedDecimal sum) :=
    ⟨shows.elements, rfl, ready⟩
  obtain ⟨next, texted, ready, text, depicts⟩ := ready.setShown (signedDecimal_ne_empty sum)
  refine ⟨next, ?_, ready, text, depicts⟩
  have valuing : (Page.setValue "count" (signedDecimal sum)).runFrom page =
      (.ok (), { page with document := some middle }) :=
    Page.runFrom_editElement shows.element?_count shows.document valued
  have texting : (Page.setText "shown" (signedDecimal sum)).runFrom
      { page with document := some middle } = (.ok (), { page with document := some next }) :=
    Page.runFrom_editElement between.element?_shown between.document texted
  have first : (Work.onPage (Page.setValue "count" (signedDecimal sum))).runFrom
      (⟨object, page, shared⟩ : Live σ ω) =
        (.ok (), ⟨object, { page with document := some middle }, shared⟩) :=
    Work.runFrom_onPage_ok valuing
  rw [add, runFrom_bind_ok (runFrom_get _)]
  dsimp only
  rw [shows.value?_count, Option.getD_some, sums, if_pos held, runFrom_bind_ok first,
    runFrom_bind_ok (Work.runFrom_onPage_ok texting)]
  rfl

/-- A sum beyond 64 bits breaks the handler down before it writes anything. -/
theorem runFrom_add_beyond (shows : Shows page doc count) (object : σ) (shared : ω)
    (sums : countOf count + given.getD 1 = sum)
    (beyond : IntegerRange.signed64.holds sum = false) :
    (add given).runFrom ⟨object, page, shared⟩ =
      (.error .brokeDown, ⟨object, page, shared⟩) := by
  rw [add, runFrom_bind_ok (runFrom_get _)]
  dsimp only
  rw [shows.value?_count, Option.getD_some, sums, if_neg (Bool.eq_false_iff.mp beyond)]
  rfl

end

/-! ## Posts -/

def counterHandler : Handler σ ω :=
  .of "Counter" "add" false (.cons (asOptional (asInteger "i64" .signed64)) .nil)
    fun _ values => add values.1

/-- The arguments that bring a step, or none. -/
inductive Steps : List Json → Option Int → Prop
  | missing : Steps [] none
  | null : Steps [.null] none
  | given {step : Int} (held : IntegerRange.signed64.holds step = true) :
      Steps [.ofInt step] (some step)

theorem Steps.suits {args : List Json} {step : Option Int} (steps : Steps args step) :
    (Parameters.cons (asOptional (asInteger "i64" .signed64)) .nil).Suits args (step, ()) := by
  refine ⟨fun limit fixed => ?_, ?_⟩
  · cases fixed
    cases steps <;> simp
  · cases steps with
    | missing => rfl
    | null => rfl
    | @given step held =>
        obtain ⟨low, high⟩ := (Bool.and_eq_true _ _).mp held
        have low := of_decide_eq_true low
        have high := of_decide_eq_true high
        have fits : -0x8000000000000000 ≤ step ∧ step < 0x10000000000000000 := by
          simp only [IntegerRange.signed64] at low high
          omega
        have read : asInteger "i64" .signed64 (.num (.integer ⟨step, fits⟩)) = .ok step :=
          if_pos held
        have shape : Json.ofInt step = .num (.integer ⟨step, fits⟩) := by
          rw [Json.ofInt, Integer64.ofInt?, dif_pos fits]
        rw [shape]
        simp only [Parameters.cons, List.headD_cons, asOptional, read]
        rfl

/-- A post that asks for the panel of the page that counts: it leads to the page, its body brings
something as the count, and its event names the handler and brings a step or none. -/
structure Post where
  raw : RawRequest
  request : Request
  descriptor : Descriptor
  /-- What the body brings as the count. -/
  count : Json
  step : Option Int
  reads : raw.request? = some request
  leads : Path.segments request.path = ["counter"]
  brings : request.body.find? "count" = some count
  event : request.event = .ok (some descriptor)
  asks : descriptor.updatePanel = some "panel"
  names : descriptor.exec = some "add"
  steps : Steps descriptor.args step

namespace Post

def sum (post : Post) : Int :=
  countOf post.count.fieldText + post.step.getD 1

def page (post : Post) (doc : Document) : Page :=
  { (Page.of post.request).attach counterDocument counterView with document := some doc }

def active (post : Post) (object : σ) : Instance σ ω :=
  ⟨counter object, object, .of post.request, .controllerBound⟩

def running (post : Post) (object : σ) (shared : ω) (doc : Document) : Running σ ω :=
  ⟨⟨counter object, object, post.page doc, .initialized⟩, shared⟩

variable {post : Post} {doc : Document} {object : σ} {shared : ω}

theorem shows (ready : Ready doc post.count.fieldText) :
    Shows (post.page doc) doc post.count.fieldText :=
  ⟨rfl, rfl, ready⟩

/-- The body of a request that was read has each field once. -/
theorem distinct (post : Post) : post.request.body.keys.Nodup :=
  (RawRequest.increasing_body post.reads).nodup_keys

/-- The page is opened as far as its event. -/
theorem exists_opens (post : Post) (object : σ) (shared : ω) :
    ∃ doc, (Binding.prepare [] .shared post.request).runFrom counterDocument = (.ok (), doc) ∧
      Ready doc post.count.fieldText ∧
      (Lifecycle.openPage .shared post.request counterDocument counterView).runFrom
          ⟨post.active object, shared⟩ =
        (Lifecycle.tellingErrors (Lifecycle.eventOrStart post.request)).runFrom
          (post.running object shared doc) := by
  obtain ⟨number, filled, code, bound, doc, populated, binds, injects, prepared, ready⟩ :=
    exists_ready post.distinct post.brings .shared
  refine ⟨doc, prepared, ready, ?_⟩
  exact Lifecycle.runFrom_openPage populated rfl
    (Lifecycle.runFrom_bindPage rfl binds injects)

theorem agreed (post : Post) (object : σ) (shared : ω) (doc : Document) (event : ServerEvent) :
    Agreed (post.running object shared doc) "add" event post.descriptor.args counterHandler
      ⟨object, post.page doc, shared⟩ :=
  ⟨by rfl, rfl⟩

/-- A post whose sum 64 bits hold comes to a panel that shows the sum. -/
theorem runFrom_eventOrStart (post : Post) (object : σ) (shared : ω)
    (ready : Ready doc post.count.fieldText)
    (held : IntegerRange.signed64.holds post.sum = true) :
    ∃ after,
      (Lifecycle.eventOrStart post.request).runFrom (post.running object shared doc) =
        (.ok (some "panel"), after) ∧
      ∃ last, (Lifecycle.deliver (some "panel")).runFrom after =
        (.ok (.panel (.panel "panel" (panelMarkup (signedDecimal post.sum)))), last) := by
  obtain ⟨next, added, ready, _, shown⟩ := runFrom_add (shows ready) object shared rfl held
  have full : Json.ofInt post.sum ≠ .null := by
    rw [Json.ofInt]
    split <;> exact nofun
  have agreed := post.agreed object shared doc
    ⟨Lifecycle.sourceOf (post.page doc) post.descriptor, post.descriptor⟩
  have asked : (Lifecycle.eventOrStart post.request).runFrom (post.running object shared doc) =
      (.ok post.descriptor.updatePanel,
        (post.running object shared next).withStage .eventDispatched) :=
    Lifecycle.runFrom_eventOrStart post.event post.names
      (DispatchCourse.answered agreed post.steps.suits added full).run
  rw [post.asks] at asked
  refine ⟨_, asked, ?_⟩
  refine ⟨_, (Lifecycle.runFrom_deliver_panel rfl "panel").trans (congrArg (·, _) ?_)⟩
  rw [ready.panelReply_eq shown]
  rfl

/-- A post whose sum 64 bits do not hold breaks down. -/
theorem runFrom_eventOrStart_beyond (post : Post) (object : σ) (shared : ω)
    (ready : Ready doc post.count.fieldText)
    (beyond : IntegerRange.signed64.holds post.sum = false) :
    (Lifecycle.eventOrStart post.request).runFrom (post.running object shared doc) =
      (.error .brokeDown, post.running object shared doc) := by
  have fails := runFrom_add_beyond (shows ready) object shared rfl beyond
  have agreed := post.agreed object shared doc
    ⟨Lifecycle.sourceOf (post.page doc) post.descriptor, post.descriptor⟩
  exact Lifecycle.runFrom_eventOrStart_error post.event post.names
    (DispatchCourse.failed agreed post.steps.suits fails).run

def answer (post : Post) : Response :=
  if IntegerRange.signed64.holds post.sum then
    .json .ok (PanelReply.panel "panel" (panelMarkup (signedDecimal post.sum))).render
  else .page .internalServerError

end Post

/-! ## Posts of texts -/

def clicked (step : Option Int) : Descriptor :=
  (Descriptor.click "__element_xid0" "add" (step.map Json.ofInt).toList).withUpdatePanel "panel"

def sentFields (count : String) (step : Option Int) : Dictionary Json :=
  [(Descriptor.fieldName, .ofMembers (clicked step).members), ("count", .str count)]

def sentRequest (count : String) (step : Option Int) : RawRequest :=
  ⟨"POST", "/counter", [("Content-Type", "application/json")],
    Utf8.encode (Json.obj (sentFields count step)).render⟩

theorem ofMembers_clicked (step : Option Int) :
    Json.ofMembers (clicked step).members = .obj [("args", .arr (step.map Json.ofInt).toList),
      ("clicked", .str "__element_xid0"), ("event", .str "click"), ("exec", .str "add"),
      ("updatePanel", .str "panel")] := by
  have members : (clicked step).members = [("event", .str "click"),
    ("clicked", .str "__element_xid0"), ("updatePanel", .str "panel"), ("exec", .str "add"),
    ("args", .arr (step.map Json.ofInt).toList)] := rfl
  have less : "clicked" < "event" ∧ "exec" < "updatePanel" ∧ "args" < "clicked" := by
    decide +kernel
  have more : ¬ "updatePanel" < "clicked" ∧ ¬ "updatePanel" < "event" ∧ ¬ "exec" < "clicked" ∧
      ¬ "exec" < "event" := by
    decide +kernel
  rw [members]
  simp only [ofMembers, Dictionary.ofPairs, List.foldl_cons, List.foldl_nil, Dictionary.put, less,
    more, if_true, if_false, String.reduceEq]

/-- The arguments of a click are integers. -/
theorem integers_clicked (step : Option Int) : (step.map Json.ofInt).toList = [] ∨
    ∃ n, (step.map Json.ofInt).toList = [.num (.integer n)] := by
  cases step with
  | none => exact Or.inl rfl
  | some number =>
      refine Or.inr ?_
      rw [Option.map_some, Json.ofInt]
      split
      · exact ⟨_, rfl⟩
      · exact ⟨_, rfl⟩

theorem increasing_sentFields (count : String) (step : Option Int) :
    (sentFields count step).Increasing :=
  List.pairwise_map.mp <|
    show [Descriptor.fieldName, "count"].Pairwise (· < ·) by decide +kernel

theorem ordered_sentFields (count : String) (step : Option Int) :
    (Json.obj (sentFields count step)).Ordered := by
  have args : ItemsOrdered (step.map Json.ofInt).toList := by
    rcases integers_clicked step with args | ⟨n, args⟩ <;> rw [args]
    · exact trivial
    · exact ⟨trivial, trivial⟩
  have inner : (Json.ofMembers (clicked step).members).Ordered := by
    rw [ofMembers_clicked]
    refine ⟨List.pairwise_map.mp ?_, args, trivial, trivial, trivial, trivial, trivial⟩
    show ["args", "clicked", "event", "exec", "updatePanel"].Pairwise (· < ·)
    decide +kernel
  exact ⟨increasing_sentFields count step, inner, trivial, trivial⟩

theorem read_sentFields (count : String) (step : Option Int) :
    Json.read (Json.obj (sentFields count step)).render =
      .ok (.obj (sentFields count step)) := by
  refine read_render (ordered_sentFields count step) (readsBack_of_binary fun x member => ?_) ?_
  · rw [sentFields, ofMembers_clicked] at member
    rcases integers_clicked step with args | ⟨n, args⟩ <;> rw [args] at member <;>
      simp [numbers, membersNumbers, itemsNumbers] at member
  · rw [sentFields, ofMembers_clicked]
    rcases integers_clicked step with args | ⟨n, args⟩ <;> rw [args] <;>
      simp [depth, membersDepth, itemsDepth, depthLimit]

theorem request?_sentRequest (count : String) (step : Option Int) :
    (sentRequest count step).request? = some
      ((Request.bare .post "/counter").withJsonBody (.obj (sentFields count step))) := by
  -- the head of the request does not depend on its body
  have parts : (sentRequest count step).parts = ("/counter".toList, []) := by
    have parted : splitOnce '?' "/counter".toList = ("/counter".toList, none) := by
      decide +kernel
    rw [RawRequest.parts, sentRequest, parted]
    rfl
  have query : (sentRequest count step).query? = some [] := by
    rw [RawRequest.query?, parts]
    decide +kernel
  have path : (sentRequest count step).path = "/counter" := by
    rw [RawRequest.path, parts]
    decide +kernel
  have format : (sentRequest count step).bodyFormat = .json := by
    have header : (sentRequest count step).header? "Content-Type" = some "application/json" := by
      have same : equalUpToCase "Content-Type" "Content-Type" = true := by decide +kernel
      simp only [RawRequest.header?, sentRequest, List.find?_cons, same, Option.map_some]
    rw [RawRequest.bodyFormat, header]
    decide +kernel
  have body : (sentRequest count step).jsonBody? = some (.obj (sentFields count step)) := by
    rw [RawRequest.jsonBody?, sentRequest, Utf8.decode?_encode]
    dsimp only [Option.bind_eq_bind, Option.bind_some]
    rw [read_sentFields]
  rw [RawRequest.request?, query, path, format]
  dsimp only [Option.bind_eq_bind, Option.bind_some]
  rw [body]
  rfl

/-- Each text and each step that 64 bits hold can be posted. -/
def Post.of (count : String) (step : Option Int)
    (held : ∀ n ∈ step, IntegerRange.signed64.holds n = true) : Post where
  raw := sentRequest count step
  request := (Request.bare .post "/counter").withJsonBody (.obj (sentFields count step))
  descriptor := clicked step
  count := .str count
  step := step
  reads := request?_sentRequest count step
  leads := by
    have path : ((Request.bare .post "/counter").withJsonBody (.obj (sentFields count step))).path =
      "/counter" := rfl
    rw [path]
    decide +kernel
  brings := Request.find?_withJsonBody _ (increasing_sentFields count step) rfl
  event := by
    rw [Request.event, Request.find?_withJsonBody _ (increasing_sentFields count step) rfl]
    simp only [ofMembers, Descriptor.ofField]
    rw [Descriptor.ofJson_of_perm (Dictionary.ofPairs_perm (clicked step).nodup_keys_members)]
  asks := rfl
  names := rfl
  steps := by
    cases step with
    | none => exact .missing
    | some n => exact .given (held n rfl)

/-! ## Round trips -/

/-- Stores that remember no other template for the page than its view. -/
def Current (store : Store σ ω) : Prop :=
  store.templates.Holds fun name template => name = "counter" → template = counterView

theorem Current.empty (capacity : Nat) (shared : ω) :
    Current (Store.empty capacity shared : Store σ ω) :=
  Cache.Holds.empty capacity

/-- The view of the page is its template, and is so afterwards. -/
theorem Current.exists_template {store : Store σ ω} (current : Current store) :
    ∃ templates, (Store.template "counter" counterView :
        Procedure (Store σ ω) (Halt PageError) String).runFrom store =
      (.ok counterView, { store with templates }) ∧
      templates.Holds fun name template => name = "counter" → template = counterView := by
  have counts : "counter" = "counter" → counterView = counterView := fun _ => rfl
  obtain ⟨same, kept⟩ := Cache.Holds.getOrInsert current (fun _ => counterView) counts
  refine ⟨(store.templates.getOrInsert "counter" fun _ => counterView).2.2, ?_, kept⟩
  exact congrArg (fun template => (Except.ok template, _)) (same rfl)

/-- The routes lead to the page that counts wherever the segments of a path are its name. -/
theorem exists_routes (object : σ) (makeRoutes : Bool) :
    ∃ routes : Routes σ ω, Demo.routes object makeRoutes = .ok routes ∧
      ∀ path, Path.segments path = ["counter"] →
        routes.find? path = some (.attached (counter object)) := by
  obtain ⟨first, greets⟩ : ∃ first : Routes σ ω,
      (Routes.empty makeRoutes).add "/" (.attached (home object)) = .ok first :=
    ⟨_, Routes.add_eq_ok_iff.mpr ⟨rfl, rfl⟩⟩
  have fresh : first.find? "/counter" = none := by
    rw [Routes.find?_add greets, if_neg (by decide +kernel)]
    rfl
  obtain ⟨second, counts⟩ : ∃ second : Routes σ ω,
      first.add "/counter" (.attached (counter object)) = .ok second :=
    ⟨_, Routes.add_eq_ok_iff.mpr ⟨fresh, rfl⟩⟩
  refine ⟨second, ?_, fun path leads => ?_⟩
  · rw [Demo.routes, greets]
    exact counts
  · have same : Path.segments "/counter" = Path.segments path := by
      rw [leads]
      decide +kernel
    rw [Routes.find?_add counts, if_pos same]

section

variable {views : Views} {routes : Routes σ ω} {object : σ} {store : Store σ ω}

theorem Post.takesCall_eq_false (post : Post) (object : σ) :
    (Route.attached (counter object) : Route σ ω).takesCall post.request = false := by
  rw [Route.takesCall, Application.isCall, post.event]
  dsimp only
  rw [post.names]
  cases post.descriptor.clicked <;> rfl

/-- The view of the page is rendered for the controller that is made for the post. -/
theorem Post.page_eq (post : Post) (shows : views.render "counter" = .ok counterView)
    (object : σ) :
    (Route.attached (counter object) : Route σ ω).page (application object views) post.request =
      (application object views).renderMarkup "counter" counterView (some post.request)
        (some (post.active object)) := by
  have viewed : (application object views : Application σ ω).view "counter" =
      (pure counterView : Procedure (Store σ ω) (Halt PageError) String) := by
    rw [Application.view, application, shows]
  have made : (Application.create (counter object) post.request :
      Procedure (Store σ ω) (Halt PageError) (Instance σ ω)) = pure (post.active object) := rfl
  have renders : (Route.attached (counter object) : Route σ ω).page (application object views)
      post.request = (do
        let active ← Application.create (counter object) post.request
        (application object views).render "counter" (some post.request) (some active)) := rfl
  rw [renders, made, pure_bind, Application.render, viewed, pure_bind]

/-- A post is answered, and the store goes on to remember the view of the page alone. -/
theorem Post.run_serve (post : Post) (shows : views.render "counter" = .ok counterView)
    (leads : ∀ path, Path.segments path = ["counter"] →
      routes.find? path = some (.attached (counter object)))
    (current : Current store) :
    (((application object views).serve routes post.raw).run store).1 = post.answer ∧
      Current (((application object views).serve routes post.raw).run store).2 := by
  obtain ⟨templates, remembered, kept⟩ := current.exists_template
  obtain ⟨doc, _, ready, opens⟩ := post.exists_opens object store.shared
  have made := runFrom_instanceFor_some (application object views) "Counter" post.request
    (post.active object) { store with templates }
  have found : (application object views).routeOf routes post.request.path =
      some (.attached (counter object)) := by
    rw [Application.routeOf, leads _ post.leads]
  have page : (Route.attached (counter object) : Route σ ω).takesCall post.request = false :=
    post.takesCall_eq_false object
  rw [answer]
  cases held : IntegerRange.signed64.holds post.sum with
  | true =>
      obtain ⟨after, ran, last, delivers⟩ :=
        post.runFrom_eventOrStart object store.shared ready held
      have opened := opens.trans (Lifecycle.runFrom_tellingErrors ran)
      have renders := runFrom_renderMarkup remembered takeControl_counterView made opened delivers
      rw [← post.page_eq shows] at renders
      rw [Application.run_serve_of_page post.reads found page renders]
      refine ⟨?_, kept⟩
      rw [if_pos rfl]
      rfl
  | false =>
      have ran := post.runFrom_eventOrStart_beyond object store.shared ready held
      have opened := opens.trans (Lifecycle.runFrom_tellingErrors_brokeDown ran)
      have renders := runFrom_renderMarkup_error remembered takeControl_counterView made opened
      rw [← post.page_eq shows] at renders
      rw [Application.run_serve_of_brokeDown post.reads found page renders]
      exact ⟨rfl, kept⟩

end

/-- What the handler makes of the page that a post finds: the sum in the field and in what is shown,
or nothing at all. -/
structure Post.Handled (post : Post) (object : σ) (shared : ω) (page : Page) : Prop where
  held (holds : IntegerRange.signed64.holds post.sum = true) : ∃ after : Page,
    (add post.step).runFrom ⟨object, page, shared⟩ =
      (.ok (.ofInt post.sum), ⟨object, after, shared⟩) ∧
    after.value? "count" = some (signedDecimal post.sum) ∧
    after.text? "shown" = some (signedDecimal post.sum)
  beyond (exceeds : IntegerRange.signed64.holds post.sum = false) :
    (add post.step).runFrom ⟨object, page, shared⟩ =
      (.error .brokeDown, ⟨object, page, shared⟩)

theorem Post.handled (post : Post) (object : σ) (shared : ω) {doc : Document}
    (ready : Ready doc post.count.fieldText) : post.Handled object shared (post.page doc) where
  held holds := by
    obtain ⟨next, added, ready, text, _⟩ := runFrom_add (shows ready) object shared rfl holds
    have after : Shows { post.page doc with document := some next } next
        (signedDecimal post.sum) := ⟨rfl, rfl, ready⟩
    exact ⟨_, added, after.value?_count, after.text?_shown.trans (congrArg some text)⟩
  beyond exceeds := runFrom_add_beyond (shows ready) object shared rfl exceeds

/-- A post that brings the count back that another one was answered with. -/
structure Follows (post next : Post) : Prop where
  held : IntegerRange.signed64.holds post.sum = true
  brings : next.count = .str (signedDecimal post.sum)

theorem Follows.sum_eq {post next : Post} (follows : Follows post next) :
    next.sum = post.sum + next.step.getD 1 := by
  rw [Post.sum, follows.brings, fieldText, countOf, readInteger_signedDecimal follows.held]
  rfl

/-- The last sum of posts that follow one another is the first with each later step added. -/
theorem sum_getLast {first : Post} {rest : List Post} (chain : (first :: rest).IsChain Follows) :
    ((first :: rest).getLast (List.cons_ne_nil first rest)).sum =
      rest.foldl (fun total post => total + post.step.getD 1) first.sum := by
  induction rest generalizing first with
  | nil => rfl
  | cons next rest ih =>
      obtain ⟨follows, chain⟩ := List.isChain_cons_cons.mp chain
      rw [List.getLast_cons (List.cons_ne_nil next rest), ih chain, List.foldl_cons,
        follows.sum_eq]

/-- The page that counts counts. A post of any count and step is answered with the panel that shows
the sum, or with the page of an error where 64 bits do not hold the sum, whatever was posted before.
The handler returns the sum and leaves it in the field and in what is shown, or it breaks down and
leaves the page as it was. Posts that bring back what the one before was answered with add up. -/
theorem counts (object : σ) {views : Views} (shows : views.render "counter" = .ok counterView)
    (makeRoutes : Bool) :
    ∃ routes : Routes σ ω, Demo.routes object makeRoutes = .ok routes ∧
      (∀ (posts : List Post) (store : Store σ ω), Current store →
        ((posts.mapM fun post => (application object views).serve routes post.raw).run store).1 =
          posts.map Post.answer) ∧
      (∀ (post : Post) (shared : ω), ∃ doc,
        (Binding.prepare [] .shared post.request).runFrom counterDocument = (.ok (), doc) ∧
          post.Handled object shared (post.page doc)) ∧
      ∀ (first : Post) (rest : List Post), (first :: rest).IsChain Follows →
        ((first :: rest).getLast (List.cons_ne_nil first rest)).sum =
          rest.foldl (fun total post => total + post.step.getD 1) first.sum := by
  obtain ⟨routes, made, leads⟩ : ∃ routes : Routes σ ω, _ := exists_routes object makeRoutes
  refine ⟨routes, made, fun posts store current => ?_, fun post shared => ?_,
    fun first rest chain => sum_getLast chain⟩
  · exact (run_mapM_of_kept (fun post store current => post.run_serve shows leads current) posts
      current).1
  · obtain ⟨doc, prepared, ready, _⟩ := post.exists_opens object shared
    exact ⟨doc, prepared, post.handled object shared ready⟩

/-! Two posts of which the second goes on from the first, one of a text that is no count, and one of
the greatest count there is. -/

def countingViews : Views :=
  .ofDictionary [("counter", counterView)]

theorem render_countingViews : countingViews.render "counter" = .ok counterView := rfl

def firstPost : Post :=
  .of "41" (some 1) fun _ member => by cases member; decide

def secondPost : Post :=
  .of "42" none nofun

def namelessPost : Post :=
  .of "many" (some 10) fun _ member => by cases member; decide

def overflowingPost : Post :=
  .of "9223372036854775807" (some 1) fun _ member => by cases member; decide

theorem sums : firstPost.sum = 42 ∧ secondPost.sum = 43 ∧ namelessPost.sum = 10 ∧
    overflowingPost.sum = 9223372036854775808 := by
  decide +kernel

/-- With the greatest count and a step of one the handler breaks down, and there is no panel. -/
theorem breaks_down_overflowing : ∃ (routes : Routes Unit Unit) (doc : Document),
    Demo.routes () false = .ok routes ∧
    (Binding.prepare [] .shared overflowingPost.request).runFrom counterDocument = (.ok (), doc) ∧
    overflowingPost.count = .str "9223372036854775807" ∧ overflowingPost.step = some 1 ∧
    (add overflowingPost.step).runFrom ⟨(), overflowingPost.page doc, ()⟩ =
      (.error .brokeDown, ⟨(), overflowingPost.page doc, ()⟩) ∧
    (((application () countingViews).serve routes overflowingPost.raw).run (.empty 1 ())).1 =
      .page .internalServerError ∧
    Response.page .internalServerError ≠
      .json .ok (PanelReply.panel "panel" (panelMarkup "9223372036854775808")).render := by
  obtain ⟨routes, made, leads⟩ : ∃ routes : Routes Unit Unit, _ := exists_routes () false
  obtain ⟨doc, prepared, ready, _⟩ := overflowingPost.exists_opens () ()
  have exceeds : IntegerRange.signed64.holds overflowingPost.sum = false := by
    rw [sums.2.2.2]
    decide
  have answered : overflowingPost.answer = .page .internalServerError := by
    rw [Post.answer, if_neg (Bool.eq_false_iff.mp exceeds)]
  have served := (overflowingPost.run_serve render_countingViews leads (Current.empty 1 ())).1
  refine ⟨routes, doc, made, prepared, rfl, rfl,
    (overflowingPost.handled () () ready).beyond exceeds, served.trans answered, fun same => ?_⟩
  cases congrArg Response.status same

theorem counts_fourPosts : ∃ routes : Routes Unit Unit,
    countingViews.render "counter" = .ok counterView ∧
    Demo.routes () false = .ok routes ∧
    (([firstPost, secondPost, namelessPost, overflowingPost].mapM fun post =>
        (application () countingViews).serve routes post.raw).run (.empty 1 ())).1 =
      [.json .ok (PanelReply.panel "panel" (panelMarkup "42")).render,
        .json .ok (PanelReply.panel "panel" (panelMarkup "43")).render,
        .json .ok (PanelReply.panel "panel" (panelMarkup "10")).render,
        .page .internalServerError] ∧
    [firstPost, secondPost].IsChain Follows ∧
    [firstPost, secondPost].getLast (List.cons_ne_nil _ _) = secondPost ∧
    secondPost.sum = firstPost.sum + 1 := by
  obtain ⟨routes, made, answers, _, follow⟩ : ∃ routes : Routes Unit Unit, _ :=
    counts () render_countingViews false
  obtain ⟨first, second, nameless, overflowing⟩ := sums
  have chain : [firstPost, secondPost].IsChain Follows := by
    refine List.isChain_pair.mpr ⟨?_, ?_⟩
    · rw [first]
      decide
    · rw [first]
      exact congrArg Json.str (by decide +kernel : "42" = signedDecimal 42)
  refine ⟨routes, render_countingViews, made, (answers _ _ (Current.empty 1 ())).trans ?_, chain,
    rfl, follow firstPost [secondPost] chain⟩
  simp only [List.map_cons, List.map_nil, Post.answer, first, second, nameless, overflowing]
  rfl

end ServerPages.Demo
