import ServerPages.Application

/-!
# Applications that remember nothing

What an application does where it loads each controller anew and reads each template from the
markup that it is given, and visits to applications: pages that are asked for, one after the
other, between which what was remembered may be forgotten or loaded ahead.
-/

namespace ServerPages

variable {σ ω : Type}

def PreloadOutcome.of : Except PageError (Loadable σ ω) → PreloadOutcome
  | .ok (.controller _) => .loaded
  | .ok (.mixin _) => .skippedMixin
  | .error error => .failed error.message

namespace Loader

def resolveAnew (loader : Loader σ ω) (name : String) :
    Procedure ω PageError (Controller σ ω) := do
  match ← loader.load name with
  | .controller controller => return controller
  | .mixin _ => throw (.notAController name)

/-- Loads all modules of the first source, to report on them alone. -/
def preloadAnew (loader : Loader σ ω) (shared : ω) : PreloadReport × ω :=
  let source := loader.primary.label
  match loader.primary.names? with
  | none => (⟨source, true, []⟩, shared)
  | some names =>
      let loaded := (loader.loadAll 0 names).run shared
      let outcomes := (inOrder loaded.1).map fun arrival =>
        (arrival.name, PreloadOutcome.of arrival.result)
      (⟨source, false, outcomes⟩, loaded.2)

end Loader

namespace Application

def instanceAnew (app : Application σ ω) (name : String) (request : Request)
    (given : Option (Instance σ ω)) : Procedure ω (Halt PageError) (Instance σ ω) :=
  match given with
  | some active => return active.withRequest request
  | none => do
      let controller ← (app.loader.resolveAnew name).mapError .failed
      create controller request

def openAnew (app : Application σ ω) (markup : String) (request : Request)
    (given : Option (Instance σ ω)) : Procedure ω (Halt PageError) (Opened σ ω) :=
  match (Document.parse markup).takeControl with
  | (none, _) => return .passThrough markup
  | (some controllerName, doc) => do
      let active ← app.instanceAnew controllerName request given
      let (panel, active) ← active.run (Lifecycle.openPage app.assets request doc markup)
      return .page active panel

def renderAnew (app : Application σ ω) (markup : String) (request : Option Request)
    (given : Option (Instance σ ω)) : Procedure ω (Halt PageError) Outcome :=
  match request with
  | none => return .passThrough markup
  | some request => do
      match ← app.openAnew markup request given with
      | .passThrough markup => return .passThrough markup
      | .page active panel =>
          let (outcome, _) ← active.run (Lifecycle.deliver panel)
          return outcome

end Application

/-! ## Visits -/

inductive Visit (σ ω : Type)
  | render (name : String) (request : Option Request) (given : Option (Instance σ ω))
  | opening (name : String) (request : Request) (given : Option (Instance σ ω))
  | clear
  | forget (name : String)
  | preload

inductive Answer (σ ω : Type)
  | rendered (result : Except (Halt PageError) Outcome)
  | opened (result : Except (Halt PageError) (Opened σ ω))
  | done
  | preloaded (report : PreloadReport)

namespace Visit

/-- A visit to an application that remembers, where each name has its markup. -/
def serve (app : Application σ ω) (html : String → String) (visit : Visit σ ω)
    (store : Store σ ω) : Answer σ ω × Store σ ω :=
  match visit with
  | .render name request given =>
      let ended := (app.renderMarkup name (html name) request given).runFrom store
      (.rendered ended.1, ended.2)
  | .opening name request given =>
      let ended := (app.openMarkup name (html name) request given).runFrom store
      (.opened ended.1, ended.2)
  | .clear => (.done, store.clear)
  | .forget name => (.done, store.remove name)
  | .preload =>
      let ended := app.loader.preload.run store
      (.preloaded ended.1, ended.2)

/-- A visit to an application that remembers nothing. -/
def serveAnew (app : Application σ ω) (html : String → String) (visit : Visit σ ω)
    (shared : ω) : Answer σ ω × ω :=
  match visit with
  | .render name request given =>
      let ended := (app.renderAnew (html name) request given).runFrom shared
      (.rendered ended.1, ended.2)
  | .opening name request given =>
      let ended := (app.openAnew (html name) request given).runFrom shared
      (.opened ended.1, ended.2)
  | .clear | .forget _ => (.done, shared)
  | .preload =>
      let ended := app.loader.preloadAnew shared
      (.preloaded ended.1, ended.2)

def each {τ : Type} (serve : Visit σ ω → τ → Answer σ ω × τ) :
    List (Visit σ ω) → τ → List (Answer σ ω) × τ
  | [], state => ([], state)
  | visit :: rest, state =>
      let first := serve visit state
      let others := each serve rest first.2
      (first.1 :: others.1, others.2)

end Visit

end ServerPages
