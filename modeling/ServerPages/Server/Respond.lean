import ServerPages.Event.Reply
import ServerPages.Http.Request
import ServerPages.Http.Response
import ServerPages.Routing

/-!
# Responses to requests

A page is answered with its markup, the contents of an update panel and the value of a
call with JSON. A client that waits for an update panel is told of an error in its
reply; any other error of a page is answered with the page of its status, as are
requests that lead nowhere, that can't be read, or whose handling broke down.
-/

namespace ServerPages.Application

open Http

variable {σ ω : Type}

def pageResponse (expectsPanel : Bool) : Except PageError Outcome → Response
  | .ok (.html markup) | .ok (.passThrough markup) => .html .ok markup
  | .ok (.panel reply) => .json .ok reply.render
  | .error error =>
      if expectsPanel then .json .ok (PanelReply.failure error.clientMessage).render
      else .page .internalServerError

def callResponse : Except PageError Json → Response
  | .ok value => .json .ok value.render
  | .error error =>
      .json .internalServerError
        (Json.obj [("error", .str error.clientMessage)]).render

def handledResponse (expectsPanel : Bool) : Option Handled → Response
  | some (.page result) => pageResponse expectsPanel result
  | some (.call result) => callResponse result
  | none => .page .notFound

def respond (app : Application σ ω) (routes : Routes σ ω) (request : Request) :
    Procedure (Store σ ω) Breakdown Response := do
  return handledResponse request.expectsPanel (← app.dispatch routes request)

/-- Responds to a request as it is sent, whatever becomes of it. -/
def serve (app : Application σ ω) (routes : Routes σ ω) (raw : RawRequest) :
    StateM (Store σ ω) Response :=
  match raw.request? with
  | none => return .page .internalServerError
  | some request => do
      match ← (app.respond routes request).run with
      | .ok response => return response
      | .error .brokeDown => return .page .internalServerError

end ServerPages.Application
