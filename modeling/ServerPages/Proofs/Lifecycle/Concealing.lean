import ServerPages.Application
import ServerPages.Proofs.Caching.Transparent
import ServerPages.Proofs.Document.ServerMarks
import ServerPages.Proofs.Lifecycle.Dispatch
import ServerPages.Proofs.Lifecycle.Upholding

/-!
# What pages conceal

Nothing that is sent of a template says what runs at the server, whatever hooks and handlers make
of the page, and whatever the maker of an open page makes of it before it is finished. The
attributes that name the controller stay where they were put besides, if no one adds any.
-/

namespace ServerPages

open Procedure

open Document (controlNames)

variable {σ ω α : Type} {change : Page → Page → Prop}

/-! ## Changes of pages -/

namespace Page

variable {before after : Page}

/-- What can be made of the document of a page through its operations: it is taken away, or work is
done on it or on another one in its place, at nodes that it has by then and without giving an
attribute twice. -/
def Edits (before after : Page) : Prop :=
  ∀ doc, after.document = some doc → ∃ start operations,
    (before.document = some start ∨
      ∃ origin : Document.Origin, start = origin.document .standard) ∧
    start.Owns .standard operations ∧
    (∀ operation ∈ operations, operation.Distinct) ∧ doc = start.after .standard operations

/-- No node of the page has an attribute of the given names that it did not have before. -/
def Spares (names : List String) (before after : Page) : Prop :=
  ∀ doc, after.document = some doc → ∀ id, ∀ name ∈ names, doc.hasAttr id name = true →
    ∃ start, before.document = some start ∧ start.hasAttr id name = true

theorem Edits.tidy (edits : before.Edits after) (tidy : before.Meets Document.Tidy) :
    after.Meets Document.Tidy := by
  intro doc known
  obtain ⟨start, operations, source, own, distinct, rfl⟩ := edits doc known
  have started : start.Tidy := by
    rcases source with here | ⟨origin, rfl⟩
    · exact tidy start here
    · exact origin.tidy
  exact Document.stable_tidy.after started distinct own

theorem Spares.confined {names : List String} {may : NodeId → String → Prop}
    (spares : before.Spares names after) (confined : before.Meets (Document.Confined names may)) :
    after.Meets (Document.Confined names may) := by
  intro doc known id name member has
  obtain ⟨start, here, had⟩ := spares doc known id name member has
  exact confined start here id name member had

end Page

namespace Document

variable {sparing : Prop} {template doc : Document}

/-- Documents that templates are turned into: no attribute is repeated, and, where no one adds
attributes of controllers, elements have those that they had in the template. -/
structure Guarded (sparing : Prop) (template doc : Document) : Prop where
  tidy : Tidy doc
  confined (spared : sparing) : doc.Confined controlNames (Elsewhere template)

theorem guarded_of_takeControl {text controllerName : String}
    (control : (parse text).takeControl = (some controllerName, doc)) :
    Guarded sparing (parse text) doc := by
  obtain ⟨tidy, confined⟩ := Tidy.of_takeControl (Origin.markup text).tidy control
  exact ⟨tidy, fun _ => confined⟩

end Document

/-! ## Open pages -/

/-- What an open page becomes in the hands of its maker, who may change it and the state of its
controller, and dispatch events to it. -/
inductive Instance.Held (change : Page → Page → Prop) (opened : Instance σ ω) :
    Instance σ ω → Prop
  | opened : Held change opened opened
  | edited {active : Instance σ ω} {page : Page} (held : Held change opened active)
      (changed : change active.page page) (object : σ) :
      Held change opened { active with object, page }
  | dispatched {active : Instance σ ω} {after : Running σ ω} (held : Held change opened active)
      {exec : String} {event : ServerEvent} {args : List Json} {shared : ω}
      {result : Except (Halt PageError) (Option Json)}
      (run : (Lifecycle.dispatch exec event args).runFrom ⟨active, shared⟩ = (result, after)) :
      Held change opened after.active

theorem Instance.Held.meets {property : Document → Prop}
    (keeps : ∀ before after, change before after →
      before.Meets property → after.Meets property)
    {opened active : Instance σ ω} (held : Held change opened active)
    (meets : opened.Meets change property) : active.Meets change property := by
  induction held with
  | opened => exact meets
  | edited _ changed _ ih => exact ⟨ih.does, keeps _ _ changed ih.page⟩
  | @dispatched active after _ exec event args shared result run ih =>
      have kept := Lifecycle.preserves_dispatch keeps exec event args ⟨active, shared⟩ ih
      rw [run] at kept
      exact kept

variable {app : Application σ ω} {name markup template : String} {request : Request}
  {given : Option (Instance σ ω)} {store kept : Store σ ω}

/-- An instance goes on, and what all requests share is what it leaves. -/
theorem runFrom_onShared_run {active : Instance σ ω} {lifecycle : Lifecycle σ ω α}
    (store : Store σ ω) {result : Except (Halt PageError) α} {after : Running σ ω}
    (run : lifecycle.runFrom ⟨active, store.shared⟩ = (result, after)) :
    (Store.onShared (active.run lifecycle)).runFrom store =
      (result.map (·, after.active), { store with shared := after.shared }) := by
  rw [Store.onShared, within, runFrom_ofRun, Instance.run, runFrom_ofRun, run]

section

variable {controllerName : String} {doc : Document} {active : Instance σ ω} {middle : Store σ ω}
  {running after : Running σ ω}
  (remembered : (Store.template name markup : Procedure (Store σ ω) (Halt PageError) String).runFrom
    store = (.ok template, kept))
  (control : (Document.parse template).takeControl = (some controllerName, doc))
  (made : (app.instanceFor controllerName request given).runFrom kept = (.ok active, middle))

include remembered control made

/-- A template is opened as its page. -/
theorem runFrom_openMarkup {result : Except (Halt PageError) (Option String)}
    (opens : (Lifecycle.openPage app.assets request doc template).runFrom
      ⟨active, middle.shared⟩ = (result, running)) :
    (app.openMarkup name markup request given).runFrom store =
      (result.map (.page running.active ·), { middle with shared := running.shared }) := by
  rw [Application.openMarkup, runFrom_bind_ok remembered, control]
  dsimp only
  rw [runFrom_bind_ok made]
  cases result with
  | error halt => exact runFrom_bind_error (runFrom_onShared_run middle opens)
  | ok panel => exact runFrom_bind_ok (runFrom_onShared_run middle opens)

/-- A page that is open and delivered is rendered. -/
theorem runFrom_renderMarkup {panel : Option String} {outcome : Outcome}
    (opens : (Lifecycle.openPage app.assets request doc template).runFrom
      ⟨active, middle.shared⟩ = (.ok panel, running))
    (delivers : (Lifecycle.deliver panel).runFrom running = (.ok outcome, after)) :
    (app.renderMarkup name markup (some request) given).runFrom store =
      (.ok outcome, { middle with shared := after.shared }) := by
  have opened := runFrom_openMarkup remembered control made opens
  have delivered := runFrom_onShared_run { middle with shared := running.shared } delivers
  rw [Application.renderMarkup, runFrom_bind_ok opened]
  exact runFrom_bind_ok delivered

/-- A page that is not opened is not rendered, for the same reason. -/
theorem runFrom_renderMarkup_error {halt : Halt PageError}
    (opens : (Lifecycle.openPage app.assets request doc template).runFrom
      ⟨active, middle.shared⟩ = (.error halt, running)) :
    (app.renderMarkup name markup (some request) given).runFrom store =
      (.error halt, { middle with shared := running.shared }) :=
  runFrom_bind_error (runFrom_openMarkup remembered control made opens)

end

end ServerPages
