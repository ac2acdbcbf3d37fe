import ServerPages.Proofs.Cache.Entries
import ServerPages.Proofs.Caching.Anew
import ServerPages.Proofs.Caching.Steady

/-!
# Remembering changes no answer

Where each name always has the same markup and loads the same controller, an application with
caches of any capacity answers all that it is asked as one that remembers nothing.
-/

namespace ServerPages

open Procedure

variable {σ ω α : Type} {related : ω → ω → Prop} {loader : Loader σ ω} {html : String → String}

/-- What a store remembers of a name is what the name has, or loads. -/
structure Store.Mirrors (related : ω → ω → Prop) (loader : Loader σ ω) (html : String → String)
    (store : Store σ ω) (shared : ω) : Prop where
  templates : store.templates.Holds fun name markup => markup = html name
  controllers : store.controllers.Holds (loader.Yields related)
  shared : related store.shared shared

namespace Store.Mirrors

variable {store : Store σ ω} {shared : ω}

theorem empty {start : ω} (alike : related start shared) (capacity : Nat) :
    Mirrors related loader html (.empty capacity start) shared :=
  ⟨.empty capacity, .empty capacity, alike⟩

theorem clear (mirrors : Mirrors related loader html store shared) :
    Mirrors related loader html store.clear shared :=
  ⟨.empty _, .empty _, mirrors.shared⟩

theorem remove (mirrors : Mirrors related loader html store shared) (name : String) :
    Mirrors related loader html (store.remove name) shared :=
  ⟨mirrors.templates.remove name, mirrors.controllers.remove name, mirrors.shared⟩

end Store.Mirrors

open Store (Mirrors)

/-! ## What is remembered -/

theorem simulates_onShared {ε : Type} {good : α → Prop} {outer inner : Procedure ω ε α}
    (same : Simulates related good outer inner) :
    Simulates (Mirrors related loader html) good (Store.onShared outer) inner := by
  intro store shared mirrors
  obtain ⟨results, states, holds⟩ := same store.shared shared mirrors.shared
  exact ⟨results, ⟨mirrors.templates, mirrors.controllers, states⟩, holds⟩

/-- The template of a name is its markup. -/
theorem simulates_template {ε : Type} (name : String) :
    Simulates (Mirrors related loader html) (· = html name)
      (Store.template name (html name) : Procedure (Store σ ω) ε String) (pure (html name)) := by
  intro store shared mirrors
  obtain ⟨same, holds⟩ :=
    mirrors.templates.getOrInsert (fun _ => html name) (rfl : html name = html name)
  refine ⟨congrArg Except.ok same, ⟨holds, mirrors.controllers, mirrors.shared⟩, ?_⟩
  intro value done
  cases done
  exact same

theorem simulates_load (steady : loader.Steady related) (name : String) :
    Simulates related (fun found => loader.Settled related name (.ok found)) (loader.load name)
      (loader.load name) := by
  obtain ⟨result, settled⟩ := steady.exists_settled name
  intro first second alike
  obtain ⟨outer, inner, states⟩ := settled.constantly.both alike
  refine ⟨outer.trans inner.symm, states, fun value done => ?_⟩
  have found : result = .ok value := outer.symm.trans done
  rw [found] at settled
  exact settled

theorem simulates_remember {name : String} {controller : Controller σ ω}
    (settled : loader.Yields related name controller) :
    Simulates (Mirrors related loader html) (·.Heeds related)
      (Loader.remember name controller) (pure controller) := by
  intro store shared mirrors
  obtain ⟨kept, holds⟩ :=
    mirrors.controllers.getOrInsert (fun _ => controller) settled
  have same := Loadable.controller.inj <| Except.ok.inj <|
    kept.constantly.unique settled.constantly mirrors.shared
  have loaded : (Loader.remember name controller).runFrom store =
      (.ok (store.controllers.getOrInsert name fun _ => controller).1,
        { store with
          controllers := (store.controllers.getOrInsert name fun _ => controller).2.2 }) := rfl
  rw [loaded]
  refine ⟨?_, ⟨mirrors.templates, holds, mirrors.shared⟩, fun value done => ?_⟩
  · exact congrArg Except.ok same
  · cases done
    exact kept.heeds rfl

/-- A controller that is remembered is the one that would be loaded. -/
theorem simulates_resolve (steady : loader.Steady related) (name : String) :
    Simulates (Mirrors related loader html) (·.Heeds related) (loader.resolve name)
      (loader.resolveAnew name) := by
  intro store shared mirrors
  have remembered : (Loader.remembered name).runFrom store =
    (.ok (store.controllers.get? name), store) := rfl
  rw [Loader.resolve, runFrom_bind_ok remembered]
  cases known : store.controllers.get? name with
  | some controller =>
      have settled := mirrors.controllers name controller known
      obtain ⟨found, alike⟩ := settled.constantly.inner mirrors.shared
      have loaded : (loader.load name).runFrom shared =
        (.ok (.controller controller), ((loader.load name).runFrom shared).2) := Prod.ext found rfl
      rw [Loader.resolveAnew, runFrom_bind_ok loaded]
      refine ⟨rfl, ⟨mirrors.templates, mirrors.controllers, alike⟩, fun value done => ?_⟩
      cases done
      exact settled.heeds rfl
  | none =>
      refine (simulates_onShared (simulates_load steady name)).bind (fun found settled => ?_)
        store shared mirrors
      cases found with
      | controller controller => exact simulates_remember settled
      | mixin => exact Simulates.throw _

/-! ## Pages -/

variable {app : Application σ ω}

theorem simulates_create (controller : Controller σ ω) (heeds : controller.Heeds related)
    (request : Request) :
    Simulates (Mirrors related loader html) (·.controller.Heeds related)
      (Application.create controller request) (Application.create controller request) := by
  unfold Application.create
  cases made : Instance.create controller request with
  | error error => exact Simulates.throw _
  | ok active =>
      refine Simulates.pure ?_
      unfold Instance.create at made
      split at made
      · cases made
        exact heeds
      · cases made

/-- The controller of an instance that was given, if one was, does not see what differs. -/
def GivenHeeds (related : ω → ω → Prop) (given : Option (Instance σ ω)) : Prop :=
  ∀ active ∈ given, active.controller.Heeds related

theorem simulates_instanceFor (steady : app.loader.Steady related) (name : String)
    (request : Request) {given : Option (Instance σ ω)} (heeds : GivenHeeds related given) :
    Simulates (Mirrors related app.loader html) (·.controller.Heeds related)
      (app.instanceFor name request given) (app.instanceAnew name request given) := by
  cases given with
  | some active => exact Simulates.pure (heeds active rfl)
  | none =>
      refine ((simulates_resolve steady name).mapError _).bind fun controller heeds => ?_
      exact simulates_create controller heeds request

def Opened.Heeds (related : ω → ω → Prop) : Opened σ ω → Prop
  | .passThrough _ => True
  | .page active _ => active.controller.Heeds related

theorem simulates_open (steady : app.loader.Steady related) (name : String) (request : Request)
    {given : Option (Instance σ ω)} (heeds : GivenHeeds related given) :
    Simulates (Mirrors related app.loader html) (·.Heeds related)
      (app.openMarkup name (html name) request given)
      (app.openAnew (html name) request given) := by
  have anew : app.openAnew (html name) request given =
    (pure (html name) >>= fun markup => app.openAnew markup request given) :=
      (pure_bind (html name) fun markup => app.openAnew markup request given).symm
  rw [anew]
  refine (simulates_template name).bind fun template same => ?_
  subst same
  rcases taken : (Document.parse (html name)).takeControl with ⟨_ | controllerName, doc⟩
  · simp only [Application.openAnew, taken]
    exact Simulates.pure trivial
  · simp only [Application.openAnew, taken]
    refine (simulates_instanceFor steady _ request heeds).bind fun active heeds => ?_
    refine (simulates_onShared (Instance.simulates_run heeds ?_)).bind fun ended heeds => ?_
    · exact Lifecycle.respects_openPage _ _ _ _
    · exact Simulates.pure heeds

theorem simulates_render (steady : app.loader.Steady related) (name : String)
    (request : Option Request) {given : Option (Instance σ ω)}
    (heeds : GivenHeeds related given) :
    Simulates (Mirrors related app.loader html) (fun _ => True)
      (app.renderMarkup name (html name) request given)
      (app.renderAnew (html name) request given) := by
  cases request with
  | none => exact Simulates.pure trivial
  | some request =>
      refine (simulates_open steady name request heeds).bind fun opened heeds => ?_
      cases opened with
      | passThrough markup => exact Simulates.pure trivial
      | page active panel =>
          refine (simulates_onShared (Instance.simulates_run heeds ?_)).bind fun _ _ => ?_
          · exact Lifecycle.respects_deliver panel
          · exact Simulates.pure trivial

/-! ## Loading ahead -/

/-- What is remembered of one load is what the name loads. -/
theorem record_settled {name : String} {result : Except PageError (Loadable σ ω)}
    (settled : loader.Settled related name result) {cache : Cache (Controller σ ω)}
    (holds : cache.Holds (loader.Yields related)) :
    ((Loader.record name result).run cache).1 = .of result ∧
      ((Loader.record name result).run cache).2.Holds (loader.Yields related) := by
  rcases result with error | ⟨controller | mixin⟩
  · exact ⟨rfl, holds⟩
  · exact ⟨rfl, holds.set settled⟩
  · exact ⟨rfl, holds⟩

theorem records_settled {arrivals : List (Loader.Arrival σ ω)}
    (settled : ∀ arrival ∈ arrivals, loader.Settled related arrival.name arrival.result)
    {cache : Cache (Controller σ ω)}
    (holds : cache.Holds (loader.Yields related)) :
    let recorded := (arrivals.mapM fun arrival => (do
      return (arrival.name, ← Loader.record arrival.name arrival.result) :
        StateM (Cache (Controller σ ω)) (String × PreloadOutcome))).run cache
    recorded.1 = arrivals.map (fun arrival => (arrival.name, .of arrival.result)) ∧
      recorded.2.Holds (loader.Yields related) := by
  induction arrivals generalizing cache with
  | nil => exact ⟨rfl, holds⟩
  | cons arrival rest ih =>
      obtain ⟨outcome, held⟩ := record_settled (settled arrival List.mem_cons_self) holds
      obtain ⟨outcomes, kept⟩ := ih (fun later member =>
        settled later (List.mem_cons_of_mem _ member)) held
      rw [List.mapM_cons]
      refine ⟨?_, kept⟩
      exact congrArg₂ (fun first others => (arrival.name, first) :: others) outcome outcomes

theorem collect_settled {arrivals : List (Loader.Arrival σ ω)}
    (settled : ∀ arrival ∈ arrivals, loader.Settled related arrival.name arrival.result)
    {cache : Cache (Controller σ ω)}
    (holds : cache.Holds (loader.Yields related)) :
    ((Loader.collect arrivals).run cache).1 =
        (Loader.inOrder arrivals).map (fun arrival => (arrival.name, .of arrival.result)) ∧
      ((Loader.collect arrivals).run cache).2.Holds (loader.Yields related) :=
  records_settled (fun arrival member =>
    settled arrival ((List.mergeSort_perm arrivals _).mem_iff.mp member)) holds

/-- Loading ahead reports the same, and remembers what names load. -/
theorem preload_mirrors (steady : loader.Steady related) {store : Store σ ω} {shared : ω}
    (mirrors : Mirrors related loader html store shared) :
    (loader.preload.run store).1 = (loader.preloadAnew shared).1 ∧
      Mirrors related loader html (loader.preload.run store).2 (loader.preloadAnew shared).2 := by
  cases known : loader.primary.names? with
  | none =>
      simp only [Loader.preload, Loader.preloadAnew, known]
      exact ⟨rfl, mirrors⟩
  | some names =>
      obtain ⟨same, states, settled⟩ := steady.loadAll names 0 mirrors.shared
      obtain ⟨outcomes, held⟩ := collect_settled settled mirrors.controllers
      simp only [Loader.preload, Loader.preloadAnew, known]
      refine ⟨(congrArg (PreloadReport.mk loader.primary.label false) outcomes).trans ?_,
        mirrors.templates, held, states⟩
      rw [same]

/-! ## Visits -/

def Visit.Heeds (related : ω → ω → Prop) : Visit σ ω → Prop
  | .render _ _ given | .opening _ _ given => GivenHeeds related given
  | .clear | .forget _ | .preload => True

/-- One visit is answered the same, and leaves a store that remembers what names have. -/
theorem serve_mirrors (steady : app.loader.Steady related) {visit : Visit σ ω}
    (heeds : visit.Heeds related) {store : Store σ ω} {shared : ω}
    (mirrors : Mirrors related app.loader html store shared) :
    (visit.serve app html store).1 = (visit.serveAnew app html shared).1 ∧
      Mirrors related app.loader html (visit.serve app html store).2
        (visit.serveAnew app html shared).2 := by
  cases visit with
  | render name request given =>
      obtain ⟨results, states, -⟩ := simulates_render steady name request heeds _ _ mirrors
      simp only [Visit.serve, Visit.serveAnew]
      exact ⟨congrArg Answer.rendered results, states⟩
  | opening name request given =>
      obtain ⟨results, states, -⟩ := simulates_open steady name request heeds _ _ mirrors
      simp only [Visit.serve, Visit.serveAnew]
      exact ⟨congrArg Answer.opened results, states⟩
  | clear => exact ⟨rfl, mirrors.clear⟩
  | forget name => exact ⟨rfl, mirrors.remove name⟩
  | preload =>
      obtain ⟨reports, states⟩ := preload_mirrors steady mirrors
      simp only [Visit.serve, Visit.serveAnew]
      exact ⟨congrArg Answer.preloaded reports, states⟩

theorem each_mirrors (html : String → String) (steady : app.loader.Steady related)
    {visits : List (Visit σ ω)} (heed : ∀ visit ∈ visits, visit.Heeds related)
    {store : Store σ ω} {shared : ω} (mirrors : Mirrors related app.loader html store shared) :
    (Visit.each (Visit.serve app html) visits store).1 =
        (Visit.each (Visit.serveAnew app html) visits shared).1 ∧
      Mirrors related app.loader html (Visit.each (Visit.serve app html) visits store).2
        (Visit.each (Visit.serveAnew app html) visits shared).2 := by
  induction visits generalizing store shared with
  | nil => exact ⟨rfl, mirrors⟩
  | cons visit rest ih =>
      obtain ⟨answer, states⟩ := serve_mirrors steady (heed visit List.mem_cons_self) mirrors
      obtain ⟨answers, final⟩ := ih (fun later member =>
        heed later (List.mem_cons_of_mem _ member)) states
      exact ⟨congrArg₂ List.cons answer answers, final⟩

/-! ## Templates without a controller -/

/-- The element of the page does not say that it runs at the server, in which language, or for which
controller. -/
def Document.LacksControl (doc : Document) : Prop :=
  ∀ top, doc.firstNamed "html" = some top →
    doc.attr? top "runat" ≠ some "server" ∨ doc.attr? top "language" ≠ some "js" ∨
      (doc.attr? top "codebehind").getD "" = ""

theorem Document.takeControl_of_lacks {doc : Document} (lacks : doc.LacksControl) :
    doc.takeControl = (none, doc) := by
  have uncontrolled : doc.control? = none := by
    cases known : doc.firstNamed "html" with
    | none => simp [control?, known]
    | some top =>
        have missing := lacks top known
        simp only [control?, known, Option.bind_eq_bind, Option.bind_some]
        split
        · rename_i serves
          cases named : doc.attr? top "codebehind" with
          | none => rfl
          | some name =>
              have blank : name = "" := by
                rcases missing with place | language | unnamed
                · exact absurd serves.1 place
                · exact absurd serves.2 language
                · rwa [named] at unnamed
              rw [blank]
              rfl
        · rfl
  rw [takeControl, uncontrolled]

/-- What an application that remembers has done after visits. -/
structure Transparent (app : Application σ ω) (html : String → String) (capacity : Nat)
    (start : ω) (visits : List (Visit σ ω)) : Prop where
  /-- Each answer is the one that would be given if nothing was remembered. -/
  answers : (Visit.each (Visit.serve app html) visits (.empty capacity start)).1 =
    (Visit.each (Visit.serveAnew app html) visits start).1
  /-- A template is remembered as it is. -/
  unmodified (name markup : String)
    (remembered : (Visit.each (Visit.serve app html) visits
      (.empty capacity start)).2.templates.get? name = some markup) : markup = html name
  /-- A template that lacks an attribute of a controller is passed through, each time. -/
  plain (name : String) (lacks : (Document.parse (html name)).LacksControl)
    (given : Option (Instance σ ω)) :
    let store := (Visit.each (Visit.serve app html) visits (.empty capacity start)).2
    (∀ request, ((Visit.render name request given).serve app html store).1 =
        .rendered (.ok (.passThrough (html name)))) ∧
      ∀ request, ((Visit.opening name request given).serve app html store).1 =
        .opened (.ok (.passThrough (html name)))

section Plain

variable {store : Store σ ω} {shared : ω} {name : String}

theorem exists_openMarkup_of_lacks (mirrors : Mirrors related loader html store shared)
    (app : Application σ ω) (lacks : (Document.parse (html name)).LacksControl)
    (request : Request) (given : Option (Instance σ ω)) :
    ∃ after, (app.openMarkup name (html name) request given).runFrom store =
      (.ok (.passThrough (html name)), after) := by
  obtain ⟨result, -⟩ := simulates_template name (ε := Halt PageError) store shared mirrors
  obtain ⟨after, taken⟩ : ∃ after,
      (Store.template name (html name)).runFrom store = (.ok (html name), after) :=
    ⟨_, Prod.ext result rfl⟩
  refine ⟨after, ?_⟩
  rw [Application.openMarkup, runFrom_bind_ok taken, Document.takeControl_of_lacks lacks]
  rfl

theorem runFrom_renderMarkup_of_lacks (mirrors : Mirrors related loader html store shared)
    (app : Application σ ω) (lacks : (Document.parse (html name)).LacksControl)
    (request : Option Request) (given : Option (Instance σ ω)) :
    ((app.renderMarkup name (html name) request given).runFrom store).1 =
      .ok (.passThrough (html name)) := by
  cases request with
  | none => rfl
  | some request =>
      obtain ⟨after, opened⟩ := exists_openMarkup_of_lacks mirrors app lacks request given
      rw [Application.renderMarkup, runFrom_bind_ok opened]
      rfl

end Plain

/-- An application answers as if it remembered nothing, whatever it has forgotten or loaded ahead,
where names have their markup for good and each source always loads the same for a name. A load may
change what is shared as long as no controller sees it. Where no load does, `related` is equality,
and nothing is asked of controllers (`Loader.steady_eq_iff`, `Controller.heeds_eq`). -/
theorem transparent (app : Application σ ω) (html : String → String) (capacity : Nat)
    {start : ω} (steady : app.loader.Steady related) (alike : related start start)
    {visits : List (Visit σ ω)} (heed : ∀ visit ∈ visits, visit.Heeds related) :
    Transparent app html capacity start visits := by
  obtain ⟨answers, mirrors⟩ := each_mirrors html steady heed (.empty alike capacity)
  refine ⟨answers, mirrors.templates, fun name lacks given =>
    ⟨fun request => ?_, fun request => ?_⟩⟩
  · exact congrArg Answer.rendered
      (runFrom_renderMarkup_of_lacks mirrors app lacks request given)
  · obtain ⟨after, opened⟩ := exists_openMarkup_of_lacks mirrors app lacks request given
    exact congrArg (fun ended => Answer.opened ended.1) opened

/-! A loader that counts its loads, for a controller that does not look at the count. -/

def countedController : Controller Unit Nat :=
  ⟨"C", fun _ => .ok (), .none, .empty, none, none⟩

def countedPage : String :=
  "<html runat=server language=js codebehind=C><body></body></html>"

def countingApp : Application Unit Nat where
  views := ⟨fun _ => .ok countedPage, fun _ => true⟩
  loader := ⟨(Source.named "counted").register "C" (do
    modify (· + 1)
    return .controller countedController), none⟩
  assets := .none

theorem heeds_countedController : countedController.Heeds fun _ _ => True where
  init := Respects.pure ()
  start := Respects.pure ()
  finish := Respects.pure ()
  errored _ := Respects.pure ()
  beforeExec _ := Respects.pure ()
  handlers := nofun

theorem steady_countingApp : countingApp.loader.Steady fun _ _ => True := by
  intro source member name
  cases List.mem_singleton.mp member
  by_cases same : name = "C"
  · subst same
    refine ⟨.ok (some (.controller countedController)),
      ⟨fun _ => ⟨rfl, trivial⟩, fun _ => ⟨rfl, trivial⟩⟩, fun controller known => ?_⟩
    cases known
    exact heeds_countedController
  · have missing : countingApp.loader.primary.load name = pure none := by
      simp [countingApp, Source.load, Source.register, Source.named, Dictionary.put,
        Dictionary.find?, Ne.symm same]
    rw [missing]
    refine ⟨_, .pure none, fun controller known => ?_⟩
    cases known

/-- A page is rendered before and after everything was forgotten and loaded ahead. -/
theorem transparent_countingApp :
    let visits : List (Visit Unit Nat) :=
      [.render "c" (some (.bare .get "/")) none, .clear, .preload,
        .render "c" (some (.bare .get "/")) none, .forget "c"]
    countingApp.loader.Steady (fun _ _ => True) ∧
      (∀ visit ∈ visits, visit.Heeds fun _ _ => True) ∧
      Transparent countingApp (fun _ => countedPage) 1 0 visits := by
  intro visits
  have heed : ∀ visit ∈ visits, visit.Heeds fun _ _ => True := by
    simp [visits, Visit.Heeds, GivenHeeds]
  exact ⟨steady_countingApp, heed, transparent countingApp _ 1 steady_countingApp trivial heed⟩

end ServerPages
