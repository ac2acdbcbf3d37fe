import ServerPages.Assets
import ServerPages.Click.Call
import ServerPages.Event.Descriptor

/-!
# Scripts of pages

The script of a page holds a table of stubs for server methods, a table of functions
for the server calls of its clicks, and a listener for each element that can be
clicked. The tables and listeners are kept as data; the text of the script is
printed from them.
-/

namespace ServerPages

/-- A server call of a click: which element it belongs to, and where its event goes. -/
structure ClientEvent where
  /-- The mark of the element. -/
  mark : String
  /-- The number of the call in the element's click expression. -/
  place : Nat
  id : Option String
  name : Option String
  panel : Option String
  /-- The `id` of the carrier. -/
  carrier : String
  call : Click.Call
  deriving DecidableEq, Repr

structure Listener where
  /-- The mark of the element. -/
  mark : String
  /-- The click expression, its server calls replaced. -/
  expression : String
  /-- The function that is told of the outcome, where there is one. -/
  afterwards : Option String
  deriving DecidableEq, Repr

structure ClientCode where
  methods : List String
  events : List ClientEvent
  listeners : List Listener
  deriving DecidableEq, Repr

structure ClientScript where
  script : String
  style : Option String
  deriving DecidableEq, Repr

namespace ClientEvent

def key (event : ClientEvent) : String :=
  event.mark ++ "_" ++ Text.decimal event.place

/-- The descriptor of a call without its arguments. -/
def template (event : ClientEvent) : List (String × Json) :=
  let part (key : String) (text : Option String) : List (String × Json) :=
    (text.map fun text => (key, Json.str text)).toList
  [("event", .str "click"), ("clicked", .str event.mark)] ++ part "id" event.id ++
    part "name" event.name ++ part "updatePanel" event.panel ++
    [("exec", .str event.call.method)]

/-- The descriptor of a call as script text; the arguments stand as they are written in the
expression. -/
def literalChars (event : ClientEvent) : List Char :=
  (Json.obj event.template).chars.dropLast ++ ",\"args\":[".toList ++
    event.call.arguments.toList ++ [']', '\x7d']

def literal (event : ClientEvent) : String :=
  String.ofList event.literalChars

def before (event : ClientEvent) : String :=
  if event.panel.isSome then "event.preventDefault(); " else ""

def after (event : ClientEvent) : String :=
  if event.panel.isSome then
    " __updatePanel(" ++ Json.renderString event.carrier ++ ", self);"
  else ""

def function (event : ClientEvent) : String :=
  "function(self, event) \x7b " ++ event.before ++ "document.getElementById(" ++
    Json.renderString event.carrier ++ ").value=__js(" ++ event.literal ++ ");" ++
    event.after ++ " \x7d"

def replacement (event : ClientEvent) : String :=
  "raiseServerEvent(this, " ++ Json.renderString event.key ++ ", event)"

end ClientEvent

namespace Listener

def text (listener : Listener) : String :=
  "\t".intercalate <|
    ["\x7b const elt = document.querySelector(\"[__element_xid='" ++ listener.mark ++ "']\");",
      "elt.addEventListener(\"click\", function (event) \x7b" ++ listener.expression ++ "\x7d);"] ++
    (listener.afterwards.map fun name => " elt.postclick = " ++ name ++ "; ").toList ++ ["\x7d"]

end Listener

namespace ClientCode

def stub (method : String) : String :=
  "(...args) => \x7b return server_event(" ++ Json.renderString method ++ ", args); \x7d"

def assignment (table key value : String) : String :=
  table ++ "[" ++ Json.renderString key ++ "] = " ++ value ++ ";"

def lines (code : ClientCode) : List String :=
  (code.methods.map fun method => assignment "serverEvents" method (stub method)) ++
    (code.events.map fun event => assignment "clientEvents" event.key event.function) ++
    if code.listeners.isEmpty then [] else ["\n".intercalate (code.listeners.map Listener.text)]

/-- Script text without anything that looks like a closing tag. -/
def escapeClosing : List Char → List Char
  | [] => []
  | '<' :: '/' :: rest => '<' :: '\\' :: '/' :: escapeClosing rest
  | c :: rest => c :: escapeClosing rest

def render (code : ClientCode) : String :=
  let text := "const serverEvents = \x7b\x7d; const clientEvents = \x7b\x7d;\n(function() \x7b" ++
    "\n".intercalate code.lines ++ "\x7d)();"
  String.ofList (escapeClosing text.toList)

/-- The texts to add to a page: the generated script before the shared one, and the style. -/
def withAssets (code : ClientCode) (assets : Assets) : ClientScript :=
  match assets.script with
  | some shared => ⟨code.render ++ "\n" ++ shared, assets.style⟩
  | none => ⟨code.render, assets.style⟩

end ClientCode

end ServerPages
