import ServerPages.Controller.Handler
import ServerPages.Document.Printer

/-!
# Actions

Controllers can be given as data: as lists of actions on the page. Actions run in order
until one fails. What they see goes to a log that all requests share, and each
controller counts for itself.
-/

namespace ServerPages.Scripted

structure Tally where
  count : Nat
  deriving DecidableEq, Repr

inductive Entry
  | value (value : Json)
  | arguments (args : List Json)
  | count (n : Nat)
  | event (source : Option String) (descriptor : Descriptor)
  | request (request : Request)
  | elementValue (value : Option String)
  | elementText (text : Option String)
  | title (title : Option String)
  | markup (markup : Option String)
  | element (node : Option NodeId)
  | ids (ids : List String)
  | result (result : Option PageResult)
  | document (html : String)
  | errored (error : PageError)
  | beforeExec (handler : HandlerInfo) (args : List Json)
  | loading (name : String)

/-- The log, the latest entry last. -/
abbrev Log := Array Entry

inductive TextSource
  /-- The argument at a place. -/
  | argument (place : Nat)
  /-- The count. -/
  | count
  | constant (value : Json)

inductive ValueSource
  /-- The argument at a place. -/
  | argument (place : Nat)
  /-- All arguments. -/
  | arguments
  /-- The count. -/
  | count
  | constant (value : Json)

inductive Action
  | log (value : Json)
  | logArguments
  | count
  | logEvent
  | logRequest
  | getValue (id : String)
  | getText (id : String)
  | getTitle
  | getMarkup
  | getElement (id : String)
  | ids
  | getResult
  | takeResult
  | setValue (id : String) (value : TextSource)
  | setText (id : String) (text : TextSource)
  | setAttr (id name : String) (value : TextSource)
  | setTitle (title : TextSource)
  | succeed (result : ValueSource)
  | failWith (message : String)
  | document
  | appendHtml (id html : String)
  /-- Tries to set an attribute of the first node below an element. -/
  | markFirstChild (id : String)
  | fail (message : TextSource) (contexts : List String)
  | breakDown
  | giveBack (value : ValueSource)
  | unknown (name : String)

structure Occasion where
  args : List Json
  event : Option ServerEvent

abbrev Acting : Type → Type := Procedure (Live Tally Log) (Halt PageError)

namespace Occasion

/-- The argument at a place, null where there is none. -/
def argument (occasion : Occasion) (place : Nat) : Json :=
  occasion.args.getD place .null

def text (occasion : Occasion) (count : Nat) : TextSource → String
  | .argument place => (occasion.argument place).fieldText
  | .count => Text.decimal count
  | .constant value => value.fieldText

def value (occasion : Occasion) (count : Nat) : ValueSource → Json
  | .argument place => occasion.argument place
  | .arguments => .arr occasion.args
  | .count => .ofNat count
  | .constant value => value

end Occasion

namespace Acting

def note (entry : Entry) : Acting Unit :=
  modify fun live => { live with shared := live.shared.push entry }

def notePage (entry : Page → Entry) : Acting Unit := do
  note (entry (← get).page)

def onPage {α : Type} (procedure : Procedure Page PageError α) : Acting α :=
  .within (·.page) (fun page live => { live with page }) (procedure.mapError .failed)

def onDocument {α : Type} (procedure : Procedure Document PageError α) : Acting α :=
  onPage (Page.withDocument procedure)

def fail {α : Type} (failure : Failure) : Acting α :=
  throw (.failed (.other failure))

def noteEvent (event : ServerEvent) : Acting Unit :=
  notePage fun page =>
    .event (do (← page.document).tagName? (← event.source)) event.descriptor

end Acting

namespace Action

open Acting

/-- Does one thing; the value that is given back, if any is. -/
def run (occasion : Occasion) (action : Action) : Acting (Option Json) := do
  let n := (← get).object.count
  match action with
  | .log value => note (.value value)
  | .logArguments => note (.arguments occasion.args)
  | .count => do
      modify fun live => { live with object := ⟨n + 1⟩ }
      note (.count (n + 1))
  | .logEvent =>
      match occasion.event with
      | some event => noteEvent event
      | none => Acting.fail (.of "no event")
  | .logRequest => notePage fun page => .request page.request
  | .getValue id => notePage fun page => .elementValue (page.value? id)
  | .getText id => notePage fun page => .elementText (page.text? id)
  | .getTitle => notePage fun page => .title page.title?
  | .getMarkup => notePage fun page => .markup page.markup
  | .getElement id => notePage fun page => .element (page.element? id)
  | .ids => notePage fun page => .ids page.ids
  | .getResult => notePage fun page => .result page.result
  | .takeResult => do
      notePage fun page => .result page.result
      onPage (modify fun page => { page with result := none })
  | .setValue id value => onPage (Page.setValue id (occasion.text n value))
  | .setText id text => onPage (Page.setText id (occasion.text n text))
  | .setAttr id name value => onPage (Page.setAttr id name (occasion.text n value))
  | .setTitle title => onPage (Page.setTitle (occasion.text n title))
  | .succeed result => onPage (Page.leave (.value (occasion.value n result)))
  | .failWith message => onPage (Page.leave (.failure message))
  | .document => do
      let html ← onDocument (do return (← get).toHtml)
      note (.document html)
  | .appendHtml id html =>
      onDocument <| Document.edit fun doc =>
        doc.appendHtml ((doc.elementById id).getD Document.root) html
  | .markFirstChild id =>
      onDocument <| Document.edit fun doc =>
        let child := (doc.elementById id).bind fun node => (doc.children node).head?
        doc.setAttr (child.getD Document.root) "x" "y"
  | .fail message contexts =>
      Acting.fail (contexts.foldl Failure.context (.of (occasion.text n message)))
  | .breakDown => throw .brokeDown
  | .giveBack value => return some (occasion.value n value)
  | .unknown name => Acting.fail (.of ("unknown action " ++ name))
  return none

/-- Does one thing after the other; the last value that is given back, null if none is. -/
def runAll (occasion : Occasion) : List Action → Acting Json
  | [] => pure .null
  | actions =>
      actions.foldlM
        (fun value action => do
          match ← action.run occasion with
          | some value => return value
          | none => return value)
        .null

def work (occasion : Occasion) (actions : List Action) : Work Tally Log Json :=
  (runAll occasion actions).mapError (.map PageError.toFailure)

end Action

end ServerPages.Scripted
