import ServerPages.Routing
import ServerPages.Text.Blank
import ServerPages.Text.Integer

/-!
# The demonstration

A page that greets, a page that counts, and a mixin that gives scripts their arguments
back. The controllers have no state of their own: what is to last stands in the page.
-/

namespace ServerPages.Demo

open Json Text

variable {σ ω : Type}

/-! ## Greeting -/

def ask : Work σ ω Unit :=
  Work.onPage (Page.setText "greeting" "Who's there?")

def greeting (name : String) : String :=
  if name.isEmpty then "Please enter a name." else "Hello, " ++ name ++ "!"

def greet : Work σ ω Json := do
  let name := trim (((← get).page.value? "name").getD "")
  Work.onPage (Page.setText "greeting" (greeting name))
  return .null

/-! ## Counting -/

/-- The count that a text holds, zero if it holds none. -/
def countOf (text : String) : Int :=
  (readInteger .signed64 text).toOption.getD 0

/-- Adds a step, or one, to the count that the page holds; breaks down if 64 bits do not hold the
sum. -/
def add (given : Option Int) : Work σ ω Json := do
  let count := countOf (((← get).page.value? "count").getD "0")
  let sum := count + given.getD 1
  if IntegerRange.signed64.holds sum then
    Work.onPage (Page.setValue "count" (signedDecimal sum))
    Work.onPage (Page.setText "shown" (signedDecimal sum))
    return .ofInt sum
  else Work.breakDown

/-! ## Controllers -/

def echo : Mixin σ ω :=
  ((Mixin.named "Echo").handler "echo" false (.each .ok) fun _ args => return .arr args).allCallable

def home (object : σ) : Controller σ ω :=
  let cls : ControllerClass σ ω :=
    { ControllerClass.named "Home" fun _ => .ok object with
      title := some "Codebehind demo", view := some "home",
      hooks := { Hooks.none with start := ask } }
  ((cls.handler "greet" false .nil fun _ _ => greet).including echo).build

def counter (object : σ) : Controller σ ω :=
  let cls : ControllerClass σ ω :=
    { ControllerClass.named "Counter" fun _ => .ok object with
      title := some "Counter", view := some "counter" }
  (cls.handler "add" false (.cons (asOptional (asInteger "i64" .signed64)) .nil)
    fun _ (given, _) => add given).build

def source (object : σ) : Source σ ω :=
  (((Source.named "demo").withController "Home" (home object)).withController "Counter"
    (counter object)).withMixin echo

def routes (object : σ) (makeRoutes : Bool) : Except String (Routes σ ω) := do
  let routes ← (Routes.empty makeRoutes).add "/" (.attached (home object))
  routes.add "/counter" (.attached (counter object))

def application (object : σ) (views : Views) : Application σ ω :=
  { views, loader := ⟨source object, some (.missing "builtin")⟩, assets := .shared }

end ServerPages.Demo
