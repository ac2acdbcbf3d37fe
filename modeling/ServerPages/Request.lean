import ServerPages.Event.Descriptor

/-!
# Requests

What a page gets to know about the request that it answers: the method, the path,
and the fields of the query and of the body. Fields of a query are texts, those of
a body are values. An event travels in a body field of its own.
-/

namespace ServerPages

inductive Method
  | get
  | head
  | post
  | other (name : String)
  deriving DecidableEq, Repr

namespace Method

/-- The method of a name; names are told apart by case. -/
def ofName (name : String) : Method :=
  if name = "GET" then .get
  else if name = "HEAD" then .head
  else if name = "POST" then .post
  else .other name

def name : Method → String
  | .get => "GET"
  | .head => "HEAD"
  | .post => "POST"
  | .other name => name

theorem name_ofName (name : String) : (ofName name).name = name := by
  unfold ofName
  split
  · simp_all [Method.name]
  · split
    · simp_all [Method.name]
    · split <;> simp_all [Method.name]

end Method

structure Request where
  method : Method
  /-- The path without the query, decoded. -/
  path : String
  query : Dictionary String
  body : Dictionary Json

namespace Request

def bare (method : Method) (path : String) : Request :=
  ⟨method, path, [], []⟩

def withQuery (request : Request) (key value : String) : Request :=
  { request with query := request.query.put key value }

def withField (request : Request) (key : String) (value : Json) : Request :=
  { request with body := request.body.put key value }

/-- Sets the fields of the body that a value names; only objects name any. -/
def withJsonBody (request : Request) (value : Json) : Request :=
  (value.members?.getD []).foldl (fun request entry => request.withField entry.1 entry.2) request

/-- Carries an event the way a form does, as text. -/
def withEvent (request : Request) (descriptor : Descriptor) : Request :=
  request.withField Descriptor.fieldName (.str descriptor.render)

def isPost (request : Request) : Bool :=
  request.method == .post

def event (request : Request) : Except DescriptorFault (Option Descriptor) :=
  match request.body.find? Descriptor.fieldName with
  | some value => Descriptor.ofField value
  | none => .ok none

/-- Whether the client waits for the contents of an update panel; an event that can't be read asks
for none. -/
def expectsPanel (request : Request) : Bool :=
  match request.event with
  | .ok (some descriptor) => descriptor.updatePanel.isSome
  | _ => false

theorem find?_withField_self (request : Request) (key : String) (value : Json) :
    (request.withField key value).body.find? key = some value :=
  Dictionary.find?_put_self key value request.body

theorem event_withEvent (request : Request) (descriptor : Descriptor) :
    (request.withEvent descriptor).event = Descriptor.ofField (.str descriptor.render) := by
  simp only [event, withEvent, find?_withField_self]

end Request

end ServerPages
