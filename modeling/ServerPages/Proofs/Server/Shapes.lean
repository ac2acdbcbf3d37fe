import ServerPages.Proofs.Cache.Entries
import ServerPages.Proofs.Dictionary
import ServerPages.Proofs.Lifecycle.Reliable
import ServerPages.Server.Respond

/-!
# The shapes of responses

Each request is answered in the shape that its client waits for: a script that calls a method or
asks for the contents of an update panel gets JSON, whatever goes wrong on the way, and whoever
asks for a page gets markup. Whether a panel is asked for is found out twice, before a request is
dispatched and where its event is; both look at the same field.
-/

namespace ServerPages

open Procedure Http

variable {σ ω α : Type}

/-! ## Bodies -/

theorem Request.increasing_withField {request : Request} (increasing : request.body.Increasing)
    (key : String) (value : Json) : (request.withField key value).body.Increasing :=
  Dictionary.increasing_put increasing key value

theorem Request.increasing_foldl (field : α → String × Json) {items : List α} {request : Request}
    (increasing : request.body.Increasing) :
    (items.foldl (fun request item => request.withField (field item).1 (field item).2)
      request).body.Increasing := by
  induction items generalizing request with
  | nil => exact increasing
  | cons item items ih => exact ih (increasing_withField increasing _ _)

/-- The body of a request that was read has its fields in order, each of them once. -/
theorem Http.RawRequest.increasing_body {raw : RawRequest} {request : Request}
    (reads : raw.request? = some request) : request.body.Increasing := by
  obtain ⟨query, _, reads⟩ := Option.bind_eq_some_iff.mp reads
  have bare : (⟨.ofName raw.method, raw.path, query, []⟩ : Request).body.Increasing :=
    List.Pairwise.nil
  dsimp only at reads
  cases format : raw.bodyFormat with
  | json =>
      rw [format] at reads
      obtain ⟨value, _, done⟩ := Option.bind_eq_some_iff.mp reads
      cases done
      exact Request.increasing_foldl id bare
  | form =>
      rw [format] at reads
      cases reads
      exact Request.increasing_foldl (fun field : String × String => (field.1, .str field.2)) bare
  | other =>
      rw [format] at reads
      cases reads
      exact bare

/-! ## Where controllers come from -/

def Loader.Reliable (loader : Loader σ ω) : Prop :=
  ∀ name shared controller, ((loader.load name).runFrom shared).1 = .ok (.controller controller) →
    controller.Reliable

def Store.Reliable (store : Store σ ω) : Prop :=
  store.controllers.Holds fun _ controller => controller.Reliable

def Routes.Reliable (routes : Routes σ ω) : Prop :=
  ∀ path controller, routes.find? path = some (.attached controller) → controller.Reliable

namespace Store

variable {ε : Type} {good : α → Prop} {expected : ε → Prop}

/-- The markup that is used for a name: what is remembered, or else the given one. -/
def markupFor (store : Store σ ω) (name markup : String) : String :=
  (store.templates.get? name).getD markup

theorem runFrom_template (store : Store σ ω) (name markup : String) : ∃ templates,
    (template name markup : Procedure (Store σ ω) ε String).runFrom store =
      (.ok (store.markupFor name markup), { store with templates }) := by
  refine ⟨(store.templates.getOrInsert name fun _ => markup).2.2, ?_⟩
  have run : (template name markup : Procedure (Store σ ω) ε String).runFrom store =
      (.ok (store.templates.getOrInsert name fun _ => markup).1, { store with
        templates := (store.templates.getOrInsert name fun _ => markup).2.2 }) := rfl
  rw [run, markupFor]
  cases known : store.templates.get? name with
  | none => rw [Cache.getOrInsert_of_absent known]; rfl
  | some held => rw [Cache.getOrInsert_of_get? known]; rfl

theorem yields_onShared {procedure : Procedure ω ε α}
    (fits : ∀ shared, Fits good expected (procedure.runFrom shared).1) :
    Yields Reliable good expected (onShared procedure : Procedure (Store σ ω) ε α) :=
  fun store reliable => ⟨fits store.shared, reliable⟩

end Store

open Store (yields_onShared)

theorem Loader.yields_resolve {loader : Loader σ ω} (reliable : loader.Reliable) (name : String) :
    Procedure.Yields Store.Reliable Controller.Reliable (fun _ => True) (loader.resolve name) := by
  intro store kept
  have remembered : (remembered name).runFrom store =
    (.ok (store.controllers.get? name), store) := rfl
  rw [resolve, runFrom_bind_ok remembered]
  cases known : store.controllers.get? name with
  | some controller => exact ⟨.ok (kept name controller known), kept⟩
  | none =>
      have loads : ∀ shared, Fits (fun found => ∀ controller, found = .controller controller →
          controller.Reliable) (fun _ => True) ((loader.load name).runFrom shared).1 := by
        intro shared
        cases result : ((loader.load name).runFrom shared).1 with
        | error error => exact .error trivial
        | ok found =>
            refine .ok ?_
            rintro controller rfl
            exact reliable name shared controller result
      refine (yields_onShared loads).bind (fun found sound => ?_) store kept
      cases found with
      | controller controller =>
          intro store kept
          exact (kept.getOrInsert (fun _ => controller) (sound controller rfl)).imp_left .ok
      | mixin mixin => exact Yields.throw trivial

namespace Application

variable {app : Application σ ω}

theorem yields_create {τ : Type} {property : τ → Prop} {controller : Controller σ ω}
    (reliable : controller.Reliable) (request : Request) :
    Yields property (fun active : Instance σ ω => active.controller.Reliable) Halt.IsFailure
      (create controller request) := by
  unfold create
  cases made : Instance.create controller request with
  | error error => exact Yields.throw ⟨error, rfl⟩
  | ok active =>
      refine Yields.pure ?_
      unfold Instance.create at made
      split at made <;> cases made
      exact reliable

theorem yields_instanceFor (reliable : app.loader.Reliable) (name : String) (request : Request)
    {given : Option (Instance σ ω)} (sound : ∀ active ∈ given, active.controller.Reliable) :
    Yields Store.Reliable (fun active => active.controller.Reliable) Halt.IsFailure
      (app.instanceFor name request given) := by
  cases given with
  | some active => exact Yields.pure (sound active rfl)
  | none =>
      have resolved : Yields Store.Reliable Controller.Reliable Halt.IsFailure
          ((app.loader.resolve name).mapError Halt.failed) :=
        (Loader.yields_resolve reliable name).mapError fun error _ => ⟨error, rfl⟩
      exact resolved.bind fun controller => (yields_create · request)

/-! ## Pages -/

/-- The markup that is used for a view is no template. -/
def PassesThrough (app : Application σ ω) (store : Store σ ω) (name : String) : Prop :=
  ∃ markup, app.views.render name = .ok markup ∧
    (Document.parse (store.markupFor name markup)).takeControl.1 = none

end Application

theorem Instance.fits_run {active : Instance σ ω} (reliable : active.controller.Reliable)
    {good : α → Prop} {lifecycle : Lifecycle σ ω α} (settles : lifecycle.Settles good)
    (shared : ω) :
    Fits (fun result => good result.1 ∧ result.2.controller.Reliable) Halt.IsFailure
      ((active.run lifecycle).runFrom shared).1 := by
  have ended := settles ⟨active, shared⟩ reliable
  rw [run, runFrom_ofRun]
  rcases ran : lifecycle.runFrom ⟨active, shared⟩ with ⟨result, after⟩
  rw [ran] at ended
  exact ended.1.map fun value holds => ⟨holds, ended.2⟩

namespace Application

variable {app : Application σ ω} {store : Store σ ω} {name markup : String} {request : Request}
  {given : Option (Instance σ ω)}

def Opens (request : Request) (opened : Opened σ ω) : Prop :=
  ∃ active, opened = .page active request.panel? ∧ active.controller.Reliable

theorem runFrom_openMarkup_of_none
    (plain : (Document.parse (store.markupFor name markup)).takeControl.1 = none) :
    ∃ templates, (app.openMarkup name markup request given).runFrom store =
      (.ok (.passThrough markup), { store with templates }) := by
  obtain ⟨templates, remembered⟩ := store.runFrom_template name markup
  refine ⟨templates, ?_⟩
  rw [openMarkup, runFrom_bind_ok remembered]
  rcases taken : (Document.parse (store.markupFor name markup)).takeControl with
    ⟨_ | controllerName, doc⟩
  · rfl
  · rw [taken] at plain
    cases plain

section

variable (loads : app.loader.Reliable) (kept : store.Reliable)
  (sound : ∀ active ∈ given, active.controller.Reliable)

include loads kept sound

theorem fits_openMarkup {controllerName : String} {doc : Document}
    (control : (Document.parse (store.markupFor name markup)).takeControl =
      (some controllerName, doc)) :
    Fits (Opens request) Halt.IsFailure
        ((app.openMarkup name markup request given).runFrom store).1 ∧
      ((app.openMarkup name markup request given).runFrom store).2.Reliable := by
  obtain ⟨templates, remembered⟩ := store.runFrom_template name markup
  rw [openMarkup, runFrom_bind_ok remembered]
  simp only [control]
  refine (yields_instanceFor loads controllerName request sound).bind
    (fun active reliable => ?_) { store with templates } kept
  refine (yields_onShared (active.fits_run reliable
    (Lifecycle.settles_openPage app.assets request doc _))).bind fun result opened => ?_
  exact Yields.pure ⟨result.2, by rw [opened.1], opened.2⟩

theorem fits_renderMarkup (name markup : String) (request : Request) :
    Fits (fun outcome => outcome.Suits request.panel? ∨ outcome = .passThrough markup ∧
        (Document.parse (store.markupFor name markup)).takeControl.1 = none) Halt.IsFailure
        ((app.renderMarkup name markup (some request) given).runFrom store).1 ∧
      ((app.renderMarkup name markup (some request) given).runFrom store).2.Reliable := by
  rcases control : (Document.parse (store.markupFor name markup)).takeControl with
    ⟨_ | controllerName, doc⟩
  · obtain ⟨templates, opened⟩ := runFrom_openMarkup_of_none (congrArg Prod.fst control)
    have run : (app.renderMarkup name markup (some request) given).runFrom store =
        (.ok (.passThrough markup), { store with templates }) := by
      rw [renderMarkup, runFrom_bind_ok opened]
      rfl
    rw [run]
    exact ⟨.ok (.inr ⟨rfl, rfl⟩), kept⟩
  · rw [renderMarkup]
    refine Yields.bind_at (fits_openMarkup loads kept sound control) fun opened opens => ?_
    obtain ⟨active, rfl, reliable⟩ := opens
    refine (yields_onShared (active.fits_run reliable (Lifecycle.settles_deliver _))).bind
      fun result delivered => ?_
    exact Yields.pure (.inl delivered.1)

/-- A view is rendered in the form that is asked for, or passed through. -/
theorem fits_render (name : String) (request : Request) :
    Fits (fun outcome => outcome.Suits request.panel? ∨
        (∃ markup, outcome = .passThrough markup) ∧ app.PassesThrough store name) Halt.IsFailure
        ((app.render name (some request) given).runFrom store).1 ∧
      ((app.render name (some request) given).runFrom store).2.Reliable := by
  cases rendered : app.views.render name with
  | error failure =>
      have failed : (app.render name (some request) given).runFrom store =
          (.error (.failed (.view name failure)), store) := by
        rw [render, view, rendered]
        rfl
      rw [failed]
      exact ⟨.error ⟨_, rfl⟩, kept⟩
  | ok markup =>
      have same : (app.render name (some request) given).runFrom store =
          (app.renderMarkup name markup (some request) given).runFrom store := by
        rw [render, view, rendered]
        exact runFrom_bind_ok (runFrom_pure markup store)
      obtain ⟨fits, after⟩ := fits_renderMarkup loads kept sound name markup request
      rw [same]
      refine ⟨fits.imp fun outcome suits => ?_, after⟩
      rcases suits with suits | ⟨passed, plain⟩
      · exact .inl suits
      · exact .inr ⟨⟨markup, passed⟩, markup, rendered, plain⟩

end

/-! ## Calls of scripts -/

theorem settles_runCall (descriptor : Descriptor) (exec : String) :
    Lifecycle.Ends (runCall descriptor exec : Lifecycle σ ω Json) := by
  refine Lifecycle.settles_tellingErrors ((Lifecycle.ends_dispatch _ _ _).andThen fun value => ?_)
  cases value with
  | some value => exact Yields.pure trivial
  | none =>
      refine Lifecycle.settles_active_bind fun active _ => ?_
      split <;> exact Yields.pure trivial

theorem yields_call {controller : Controller σ ω} (reliable : controller.Reliable)
    (request : Request) :
    Yields Store.Reliable (fun _ => True) Halt.IsFailure (call controller request) := by
  unfold call
  rcases request.event with fault | event
  · exact Yields.throw ⟨_, rfl⟩
  · refine (Yields.pure trivial : Yields _ (fun _ => True) _ _).andThen fun descriptor => ?_
    dsimp only
    rcases calledMethod descriptor with error | exec
    · exact Yields.throw ⟨_, rfl⟩
    · refine (Yields.pure trivial : Yields _ (fun _ => True) _ _).andThen fun exec => ?_
      refine (yields_create reliable request).bind fun active sound => ?_
      exact (yields_onShared (active.fits_run sound (settles_runCall descriptor exec))).bind
        fun result _ => Yields.pure trivial

/-! ## Routed requests -/

def routeOf (app : Application σ ω) (routes : Routes σ ω) (path : String) : Option (Route σ ω) :=
  match routes.find? path with
  | some route => some route
  | none => (routes.madeView? app.views path).map .view

end Application

namespace Route

def view? : Route σ ω → Option String
  | .view name => some name
  | .attached controller => controller.view

def takesCall (route : Route σ ω) (request : Request) : Bool :=
  match route with
  | .view _ => false
  | .attached controller => Application.isCall controller request

def page (app : Application σ ω) (request : Request) :
    Route σ ω → Procedure (Store σ ω) (Halt PageError) Outcome
  | .view name => app.render name (some request) none
  | .attached controller => app.renderAttached controller request

end Route

namespace Application

variable {app : Application σ ω} {routes : Routes σ ω} {store : Store σ ω} {request : Request}

theorem routeOf_reliable (attached : routes.Reliable) {path : String} {controller : Controller σ ω}
    (found : app.routeOf routes path = some (.attached controller)) : controller.Reliable := by
  unfold routeOf at found
  split at found
  · rename_i route known
    obtain rfl := Option.some.inj found
    exact attached path controller known
  · simp at found

theorem dispatch_of_missing (missing : app.routeOf routes request.path = none) :
    app.dispatch routes request = pure none := by
  unfold routeOf at missing
  unfold dispatch
  split at missing
  · cases missing
  · rename_i absent
    rw [absent, Option.map_eq_none_iff.mp missing]

theorem dispatch_of_call {controller : Controller σ ω}
    (found : app.routeOf routes request.path = some (.attached controller))
    (calls : isCall controller request = true) :
    app.dispatch routes request =
      (do return some (.call (← settled (call controller request)))) := by
  unfold routeOf at found
  unfold dispatch
  split at found
  · rename_i known
    rw [known, Option.some.inj found]
    exact if_pos calls
  · simp at found

theorem dispatch_of_page {route : Route σ ω}
    (found : app.routeOf routes request.path = some route)
    (shows : route.takesCall request = false) :
    app.dispatch routes request = answerPage (route.page app request) := by
  unfold routeOf at found
  unfold dispatch
  split at found
  · rename_i known
    rw [known, Option.some.inj found]
    cases route with
    | view name => rfl
    | attached controller => exact if_neg (Bool.eq_false_iff.mp shows)
  · rename_i absent
    obtain ⟨name, made, rfl⟩ := Option.map_eq_some_iff.mp found
    rw [absent, made]
    rfl

/-- The page of a route comes in the form that is asked for, or is passed through. -/
theorem fits_page (loads : app.loader.Reliable) (kept : store.Reliable) {route : Route σ ω}
    (sound : ∀ controller, route = .attached controller → controller.Reliable)
    (request : Request) :
    Fits (fun outcome => outcome.Suits request.panel? ∨
        (∃ markup, outcome = .passThrough markup) ∧
          ∃ name ∈ route.view?, app.PassesThrough store name) Halt.IsFailure
        ((route.page app request).runFrom store).1 ∧
      ((route.page app request).runFrom store).2.Reliable := by
  cases route with
  | view name =>
      have sound : ∀ active ∈ (none : Option (Instance σ ω)), active.controller.Reliable := by
        simp
      obtain ⟨fits, after⟩ := fits_render loads kept sound name request
      rw [Route.page]
      exact ⟨fits.imp fun outcome => .imp_right fun passed =>
        ⟨passed.1, name, rfl, passed.2⟩, after⟩
  | attached controller =>
      rw [Route.page, renderAttached, Route.view?]
      cases controller.view with
      | none => exact Yields.throw ⟨_, rfl⟩ store kept
      | some name =>
          have made : Yields (· = store) (fun active => active.controller.Reliable) Halt.IsFailure
              (create controller request) := yields_create (sound controller rfl) request
          obtain ⟨fits, same⟩ := made store rfl
          rcases run : (create controller request).runFrom store with ⟨result, after⟩
          rw [run] at fits same
          obtain rfl : after = store := same
          cases fits with
          | error failed =>
              rw [runFrom_bind_error run]
              exact ⟨.error failed, kept⟩
          | @ok active reliable =>
              have sound : ∀ other ∈ some active, other.controller.Reliable := by
                rintro other ⟨⟩
                exact reliable
              obtain ⟨fits, ended⟩ := fits_render loads kept sound name request
              rw [runFrom_bind_ok run]
              exact ⟨fits.imp fun outcome => .imp_right fun passed =>
                ⟨passed.1, name, rfl, passed.2⟩, ended⟩

/-! ## Responses -/

theorem exists_settled {τ : Type} {procedure : Procedure τ (Halt PageError) α} {state : τ}
    {good : α → Prop} (fits : Fits good Halt.IsFailure (procedure.runFrom state).1) :
    ∃ result, (settled procedure).runFrom state = (.ok result, (procedure.runFrom state).2) ∧
      (procedure.runFrom state).1 = result.mapError .failed ∧
        Fits good (fun _ => True) result := by
  rw [settled, runFrom_ofRun]
  rcases run : procedure.runFrom state with ⟨ended, after⟩
  rw [run] at fits
  cases fits with
  | @ok value holds => exact ⟨.ok value, rfl, rfl, .ok holds⟩
  | error failed =>
      obtain ⟨error, rfl⟩ := failed
      exact ⟨.error error, rfl, rfl, .error trivial⟩

section

variable {raw : Http.RawRequest} {after : Store σ ω} (reads : raw.request? = some request)

include reads

theorem run_serve {response : Http.Response}
    (responds : (app.respond routes request).runFrom store = (.ok response, after)) :
    (app.serve routes raw).run store = (response, after) := by
  have ran : StateT.run (ExceptT.run (app.respond routes request)) store =
      (.ok response, after) := responds
  rw [serve, reads]
  dsimp only
  rw [StateT.run_bind, ran]
  rfl

theorem run_serve_brokeDown
    (responds : (app.respond routes request).runFrom store = (.error .brokeDown, after)) :
    (app.serve routes raw).run store = (.page .internalServerError, after) := by
  have ran : StateT.run (ExceptT.run (app.respond routes request)) store =
      (.error .brokeDown, after) := responds
  rw [serve, reads]
  dsimp only
  rw [StateT.run_bind, ran]
  rfl

variable {route : Route σ ω} (found : app.routeOf routes request.path = some route)
  (shows : route.takesCall request = false)

include found shows

/-- A page that is rendered is the response. -/
theorem run_serve_of_page {outcome : Outcome}
    (renders : (route.page app request).runFrom store = (.ok outcome, after)) :
    (app.serve routes raw).run store =
      (pageResponse request.expectsPanel (.ok outcome), after) := by
  have settles : (settled (route.page app request)).runFrom store = (.ok (.ok outcome), after) := by
    rw [settled, runFrom_ofRun, renders]
  have dispatched : (app.dispatch routes request).runFrom store =
      (.ok (some (.page (.ok outcome))), after) := by
    rw [dispatch_of_page found shows]
    exact runFrom_bind_ok settles
  exact run_serve reads (runFrom_bind_ok dispatched)

/-- Where the page breaks down the response tells of an error. -/
theorem run_serve_of_brokeDown
    (renders : (route.page app request).runFrom store = (.error .brokeDown, after)) :
    (app.serve routes raw).run store = (.page .internalServerError, after) := by
  have settles : (settled (route.page app request)).runFrom store = (.error .brokeDown, after) := by
    rw [settled, runFrom_ofRun, renders]
  have dispatched : (app.dispatch routes request).runFrom store = (.error .brokeDown, after) := by
    rw [dispatch_of_page found shows]
    exact runFrom_bind_error settles
  exact run_serve_brokeDown reads (runFrom_bind_error dispatched)

end

/-- The shape of a response is the one that its client waits for. -/
structure Answers (app : Application σ ω) (routes : Routes σ ω) (request : Request)
    (store : Store σ ω) (response : Response) : Prop where
  notFound : response.status = .notFound ↔ app.routeOf routes request.path = none
  explained : app.routeOf routes request.path = none → response = .page .notFound
  call {controller : Controller σ ω}
    (found : app.routeOf routes request.path = some (.attached controller))
    (calls : isCall controller request = true) :
    (∃ value, ((call controller request).runFrom store).1 = .ok value ∧
      response = .json .ok value.render) ∨
    ∃ error, ((call controller request).runFrom store).1 = .error (.failed error) ∧
      response = .json .internalServerError (Json.obj [("error", .str error.clientMessage)]).render
  panel {route : Route σ ω} (found : app.routeOf routes request.path = some route)
    (shows : route.takesCall request = false) (expects : request.expectsPanel = true)
    (template : ∀ name ∈ route.view?, ¬ app.PassesThrough store name) :
    (∃ id html, request.panel? = some id ∧
      response = .json .ok (PanelReply.panel id html).render) ∨
    ∃ error, response = .json .ok (PanelReply.failure error).render
  whole {route : Route σ ω} (found : app.routeOf routes request.path = some route)
    (shows : route.takesCall request = false) (whole : request.expectsPanel = false) :
    ∃ markup, response = .html .ok markup ∨ response = .html .internalServerError markup

theorem answers_notFound (missing : app.routeOf routes request.path = none) :
    app.Answers routes request store (.page .notFound) where
  notFound := ⟨fun _ => missing, fun _ => rfl⟩
  explained _ := rfl
  call found := by
    rw [missing] at found
    cases found
  panel found := by
    rw [missing] at found
    cases found
  whole found := by
    rw [missing] at found
    cases found

theorem answers_call {controller : Controller σ ω}
    (found : app.routeOf routes request.path = some (.attached controller))
    (calls : isCall controller request = true) {result : Except PageError Json}
    (comes : ((call controller request).runFrom store).1 = result.mapError .failed) :
    app.Answers routes request store (callResponse result) := by
  have takes : (Route.attached controller : Route σ ω).takesCall request = true := calls
  refine ⟨?_, fun missing => ?_, fun known _ => ?_, fun known shows => ?_, fun known shows => ?_⟩
  · rw [found]
    cases result <;> exact ⟨nofun, nofun⟩
  · rw [found] at missing
    cases missing
  · rw [found] at known
    cases known
    cases result with
    | ok value => exact .inl ⟨value, comes, rfl⟩
    | error error => exact .inr ⟨error, comes, rfl⟩
  · rw [found] at known
    cases known
    cases takes.symm.trans shows
  · rw [found] at known
    cases known
    cases takes.symm.trans shows

theorem status_pageResponse (expectsPanel : Bool) (result : Except PageError Outcome) :
    (pageResponse expectsPanel result).status ≠ .notFound := by
  unfold pageResponse
  split
  · nofun
  · nofun
  · nofun
  · split <;> nofun

theorem exists_panelReply {result : Except PageError Outcome} {id : String}
    (fits : Fits (Outcome.Suits (some id)) (fun _ => True) result) :
    (∃ html, pageResponse true result = .json .ok (PanelReply.panel id html).render) ∨
      ∃ error, pageResponse true result = .json .ok (PanelReply.failure error).render := by
  cases fits with
  | error => exact .inr ⟨_, rfl⟩
  | ok suits =>
      rcases suits with rfl | ⟨html, rfl⟩
      · exact .inr ⟨_, rfl⟩
      · exact .inl ⟨html, rfl⟩

theorem exists_wholePage {result : Except PageError Outcome}
    (fits : Fits (fun outcome => outcome.Suits none ∨ ∃ markup, outcome = .passThrough markup)
      (fun _ => True) result) :
    ∃ markup, pageResponse false result = .html .ok markup ∨
      pageResponse false result = .html .internalServerError markup := by
  cases fits with
  | error => exact ⟨_, .inr rfl⟩
  | ok suits =>
      rcases suits with ⟨markup, rfl⟩ | ⟨markup, rfl⟩ <;> exact ⟨markup, .inl rfl⟩

theorem answers_page {route : Route σ ω} (found : app.routeOf routes request.path = some route)
    (shows : route.takesCall request = false) {result : Except PageError Outcome}
    (fits : Fits (fun outcome => outcome.Suits request.panel? ∨
      (∃ markup, outcome = .passThrough markup) ∧
        ∃ name ∈ route.view?, app.PassesThrough store name) (fun _ => True) result) :
    app.Answers routes request store (pageResponse request.expectsPanel result) := by
  have expects := request.expectsPanel_eq
  refine ⟨?_, fun missing => ?_, fun known calls => ?_, fun known _ expected template => ?_,
    fun known _ whole => ?_⟩
  · rw [found]
    exact ⟨fun status => absurd status (status_pageResponse _ _), nofun⟩
  · rw [found] at missing
    cases missing
  · rw [found] at known
    cases known
    cases shows.symm.trans calls
  · rw [found] at known
    cases known
    rw [expected] at expects ⊢
    obtain ⟨id, asked⟩ := Option.isSome_iff_exists.mp expects.symm
    rw [asked] at fits ⊢
    have suits := fits.imp fun outcome suits => suits.resolve_right fun passes => by
      obtain ⟨-, name, member, through⟩ := passes
      exact template name member through
    rcases exists_panelReply suits with ⟨html, same⟩ | failed
    · exact .inl ⟨id, html, rfl, same⟩
    · exact .inr failed
  · have none : request.panel? = none := by simpa [whole] using expects.symm
    rw [none] at fits
    rw [whole]
    exact exists_wholePage (fits.imp fun outcome => .imp_right And.left)

/-- Where no hook and no handler breaks down, each request gets a response, of the shape that its
client waits for. -/
theorem respond_answers (app : Application σ ω) (routes : Routes σ ω) (request : Request)
    (store : Store σ ω) (loads : app.loader.Reliable) (attached : routes.Reliable)
    (kept : store.Reliable) :
    ∃ response after, (app.respond routes request).runFrom store = (.ok response, after) ∧
      app.Answers routes request store response ∧ after.Reliable := by
  have responds {handled : Option Handled} {after : Store σ ω}
      (answers : (app.dispatch routes request).runFrom store = (.ok handled, after)) :
      (app.respond routes request).runFrom store =
        (.ok (handledResponse request.expectsPanel handled), after) := by
    rw [respond, runFrom_bind_ok answers]
    rfl
  cases found : app.routeOf routes request.path with
  | none =>
      have answered : (app.dispatch routes request).runFrom store = (.ok none, store) := by
        rw [dispatch_of_missing found]
        rfl
      exact ⟨_, _, responds answered, answers_notFound found, kept⟩
  | some route =>
      cases calls : route.takesCall request with
      | false =>
          have sound : ∀ controller, route = .attached controller → controller.Reliable := by
            rintro controller rfl
            exact routeOf_reliable attached found
          obtain ⟨fits, after⟩ := fits_page loads kept sound request
          obtain ⟨result, run, -, good⟩ := exists_settled fits
          have answered : (app.dispatch routes request).runFrom store =
              (.ok (some (.page result)), ((route.page app request).runFrom store).2) := by
            rw [dispatch_of_page found calls, answerPage, runFrom_bind_ok run]
            rfl
          exact ⟨_, _, responds answered, answers_page found calls good, after⟩
      | true =>
          -- only attached controllers take calls
          obtain ⟨controller, rfl⟩ : ∃ controller, route = .attached controller := by
            cases route with
            | view name => cases calls
            | attached controller => exact ⟨controller, rfl⟩
          have sound := routeOf_reliable attached found
          obtain ⟨fits, after⟩ := yields_call sound request store kept
          obtain ⟨result, run, comes, -⟩ := exists_settled fits
          have answered : (app.dispatch routes request).runFrom store =
              (.ok (some (.call result)), ((call controller request).runFrom store).2) := by
            rw [dispatch_of_call found calls, runFrom_bind_ok run]
            rfl
          exact ⟨_, _, responds answered, answers_call found calls comes, after⟩

end Application

/-! A controller whose only handler refuses, for a page with an update panel. -/

def refusingController : Controller Unit Unit :=
  ((ControllerClass.named "C" fun _ => .ok ()).handler "save" false .nil fun _ _ =>
    Work.fail (.of "full")).build

def refusingApp : Application Unit Unit where
  views := ⟨fun _ => .ok
    "<html runat=server language=js codebehind=C><p id=p runat=server updatepanel=true></p></html>",
    fun _ => true⟩
  loader := ⟨(Source.named "own").withController "C" refusingController, none⟩
  assets := .none

theorem refusingController_reliable : refusingController.Reliable where
  init := reliable_pure ()
  start := reliable_pure ()
  finish := reliable_pure ()
  errored _ := reliable_pure ()
  beforeExec _ := reliable_pure ()
  handlers {name handler} found event args := by
    obtain rfl := List.mem_singleton.mp (List.mem_of_find?_eq_some found)
    exact Handler.reliable_of (fun _ _ => reliable_throw _) _ _ _ _ event args

theorem refusingApp_loader_reliable : refusingApp.loader.Reliable := by
  intro name shared controller loaded
  by_cases named : name = "C"
  · subst named
    obtain rfl : refusingController = controller :=
      Loadable.controller.inj (Except.ok.inj loaded)
    exact refusingController_reliable
  · have missing : refusingApp.loader.primary.load name = pure none := by
      simp [refusingApp, Source.load, Source.withController, Source.register, Source.named,
        Dictionary.put, Dictionary.find?, Ne.symm named]
    rw [Loader.load, runFrom_ofRun, missing] at loaded
    cases loaded

/-- A handler refuses the click of a panel. -/
theorem respond_answers_refusal :
    let routes : Routes Unit Unit := ⟨[("c", .view "c")], false⟩
    let save := (Descriptor.click "1" "save" []).withUpdatePanel "p"
    let request := (Request.bare .post "/c").withField Descriptor.fieldName (.obj save.members)
    let store : Store Unit Unit := .empty 1 ()
    (refusingApp.loader.Reliable ∧ routes.Reliable ∧ store.Reliable) ∧
      (request.expectsPanel = true ∧ ¬ refusingApp.PassesThrough store "c") ∧
      ∃ response after, (refusingApp.respond routes request).runFrom store = (.ok response, after) ∧
        refusingApp.Answers routes request store response ∧ after.Reliable := by
  intro routes save request store
  have attached : routes.Reliable := by
    intro path controller found
    simp only [Routes.find?, routes, Dictionary.find?] at found
    split at found <;> cases found
  have kept : store.Reliable := Cache.Holds.empty 1
  refine ⟨⟨refusingApp_loader_reliable, attached, kept⟩, ⟨rfl, ?_⟩,
    Application.respond_answers refusingApp routes request store refusingApp_loader_reliable
      attached kept⟩
  rintro ⟨markup, rendered, plain⟩
  obtain rfl := Except.ok.inj rendered
  rw [Store.markupFor, show store.templates.get? "c" = none from Cache.get?_empty 1 "c"] at plain
  exact absurd plain (by decide +kernel)

end ServerPages
