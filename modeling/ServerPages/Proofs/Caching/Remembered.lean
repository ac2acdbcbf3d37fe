import ServerPages.Proofs.Caching.Transparent

/-!
# Markup against what is remembered

Once the template of a name is remembered, it decides whether the name is a page, and makes the
page if it is one. If it is none, the markup that came with the request is passed through, and
not the remembered one.
-/

namespace ServerPages

open Procedure

variable {σ ω : Type} {store : Store σ ω} {name cached : String}

theorem runFrom_template_of_get? {ε : Type}
    (remembered : store.templates.get? name = some cached) (markup : String) :
    (Store.template name markup : Procedure (Store σ ω) ε String).runFrom store =
      (.ok cached, store) := by
  rw [Store.template, runFrom_bind_ok (runFrom_get store),
    Cache.getOrInsert_of_get? remembered]
  rfl

/-- Beside a remembered template without a controller markup is passed through. -/
theorem runFrom_openMarkup_of_plain (remembered : store.templates.get? name = some cached)
    (plain : (Document.parse cached).takeControl.1 = none) (app : Application σ ω)
    (markup : String) (request : Request) (given : Option (Instance σ ω)) :
    (app.openMarkup name markup request given).runFrom store =
      (.ok (.passThrough markup), store) := by
  rw [Application.openMarkup, runFrom_bind_ok (runFrom_template_of_get? remembered markup)]
  rcases taken : (Document.parse cached).takeControl with ⟨_ | controllerName, doc⟩
  · rfl
  · rw [taken] at plain
    cases plain

/-- Beside a remembered template of a controller markup does not count. -/
theorem runFrom_openMarkup_congr (remembered : store.templates.get? name = some cached)
    (controlled : (Document.parse cached).takeControl.1.isSome) (app : Application σ ω)
    (first second : String) (request : Request) (given : Option (Instance σ ω)) :
    (app.openMarkup name first request given).runFrom store =
      (app.openMarkup name second request given).runFrom store := by
  rw [Application.openMarkup, Application.openMarkup,
    runFrom_bind_ok (runFrom_template_of_get? remembered first),
    runFrom_bind_ok (runFrom_template_of_get? remembered second)]
  rcases taken : (Document.parse cached).takeControl with ⟨_ | controllerName, doc⟩
  · rw [taken] at controlled
    cases controlled
  · rfl

theorem runFrom_renderMarkup_of_plain (remembered : store.templates.get? name = some cached)
    (plain : (Document.parse cached).takeControl.1 = none) (app : Application σ ω)
    (markup : String) (request : Option Request) (given : Option (Instance σ ω)) :
    (app.renderMarkup name markup request given).runFrom store =
      (.ok (.passThrough markup), store) := by
  cases request with
  | none => rfl
  | some request =>
      rw [Application.renderMarkup,
        runFrom_bind_ok (runFrom_openMarkup_of_plain remembered plain app markup request given)]
      rfl

theorem runFrom_renderMarkup_congr (remembered : store.templates.get? name = some cached)
    (controlled : (Document.parse cached).takeControl.1.isSome) (app : Application σ ω)
    (first second : String) (request : Request) (given : Option (Instance σ ω)) :
    (app.renderMarkup name first (some request) given).runFrom store =
      (app.renderMarkup name second (some request) given).runFrom store := by
  simp only [Application.renderMarkup, runFrom_bind]
  rw [runFrom_openMarkup_congr remembered controlled app first second]

/-- Rendering a name of which a template is remembered comes to the same for two markups just where
they are the same, or there is a request and the remembered template has a controller; opening it
as a page does so just where they are the same or the remembered template has a controller. -/
theorem outcomes_eq_iff (remembered : store.templates.get? name = some cached)
    (app : Application σ ω) (first second : String) (given : Option (Instance σ ω)) :
    (∀ request : Option Request,
      ((app.renderMarkup name first request given).runFrom store).1 =
          ((app.renderMarkup name second request given).runFrom store).1 ↔
        first = second ∨ request.isSome ∧ (Document.parse cached).takeControl.1.isSome) ∧
    ∀ request : Request,
      ((app.openMarkup name first request given).runFrom store).1 =
          ((app.openMarkup name second request given).runFrom store).1 ↔
        first = second ∨ (Document.parse cached).takeControl.1.isSome := by
  cases control : (Document.parse cached).takeControl.1 with
  | none =>
      refine ⟨fun request => ?_, fun request => ?_⟩
      · rw [runFrom_renderMarkup_of_plain remembered control,
          runFrom_renderMarkup_of_plain remembered control]
        simp
      · rw [runFrom_openMarkup_of_plain remembered control,
          runFrom_openMarkup_of_plain remembered control]
        simp
  | some controllerName =>
      have controlled : (Document.parse cached).takeControl.1.isSome :=
        Option.isSome_iff_exists.mpr ⟨controllerName, control⟩
      refine ⟨fun request => ?_, fun request => ?_⟩
      · cases request with
        | none => simp [Application.renderMarkup]
        | some request =>
            rw [runFrom_renderMarkup_congr remembered controlled app first second]
            simp
      · rw [runFrom_openMarkup_congr remembered controlled app first second]
        simp

def plainPage : String := "<p>old</p>"

theorem takeControl_plainPage : (Document.parse plainPage).takeControl.1 = none := by
  decide +kernel

/-- Where a page without a controller is remembered, the markup of a page with one is sent as it
is. -/
theorem outcomes_ne_plainPage :
    let store : Store Unit Nat :=
      { Store.empty 1 0 with templates := (Cache.empty 1).set "c" plainPage }
    store.templates.get? "c" = some plainPage ∧
      ((countingApp.renderMarkup "c" plainPage (some (.bare .get "/")) none).runFrom store).1 ≠
        ((countingApp.renderMarkup "c" countedPage (some (.bare .get "/")) none).runFrom
          store).1 := by
  intro store
  have remembered : store.templates.get? "c" = some plainPage :=
    Cache.get?_set_self (by simp [Cache.empty, Cache.size]) plainPage
  refine ⟨remembered, fun same => ?_⟩
  rcases ((outcomes_eq_iff remembered countingApp _ _ none).1 _).mp same with equal | controlled
  · exact absurd equal (by decide)
  · rw [takeControl_plainPage] at controlled
    exact absurd controlled.2 (by decide)

end ServerPages
