import ServerPages.Controller.Class
import ServerPages.Loader.Source
import ServerPages.Scripted.Action

/-!
# Scripted controllers

A scripted class gives its hooks and handlers as lists of actions, and the parameters
of its handlers by their shapes.
-/

namespace ServerPages.Scripted

open Json Text

inductive Shape
  | any
  | integer
  | byte
  | flag
  | binary
  | text
  | optional (shape : Shape)
  deriving DecidableEq, Repr

namespace Shape

def read : Shape → Json → Except String Json
  | .any, value => .ok value
  | .integer, value => (asInteger "i64" .signed64 value).map .ofInt
  | .byte, value => (asInteger "u8" .unsigned8 value).map .ofInt
  | .flag, value => (asBool value).map .bool
  | .binary, value => (asBinary value).map fun x => .num (.binary x)
  | .text, value => (asText value).map .str
  | .optional shape, value => (asOptional shape.read value).map Json.ofOption

end Shape

inductive Signature
  | fixed (shapes : List Shape)
  /-- Any number of parameters of one shape. -/
  | each (shape : Shape)
  deriving DecidableEq, Repr

namespace Signature

def fixedParameters : List Shape → Parameters (List Json)
  | [] => Parameters.nil.map fun _ => []
  | shape :: shapes =>
      (Parameters.cons shape.read (fixedParameters shapes)).map fun (v, vs) => v :: vs

def parameters : Signature → Parameters (List Json)
  | .fixed shapes => fixedParameters shapes
  | .each shape => Parameters.each shape.read

end Signature

structure ScriptedHandler where
  name : String
  callable : Bool
  signature : Signature
  actions : List Action

structure ScriptedMixin where
  name : String
  handlers : List ScriptedHandler
  /-- Whether scripts may call all handlers. -/
  allCallable : Bool

inductive ClassPart
  | handler (handler : ScriptedHandler)
  | mixin (mixin : ScriptedMixin)

/-- When the state of a controller can't be made. -/
inductive Construction
  | always
  | fails (message : String)
  /-- Fails with the value of a field of the query, where there is one. -/
  | failsWithQuery (key : String)

/-- The hooks of a class; hooks that are not given do nothing. -/
structure ScriptedHooks where
  init : List Action
  start : List Action
  finish : List Action
  errored : Option (List Action)
  beforeExec : Option (List Action)

structure ScriptedClass where
  name : String
  title : Option String
  view : Option String
  construction : Construction
  hooks : ScriptedHooks
  parts : List ClassPart

def construct (construction : Construction) (request : Request) : Except Failure Tally :=
  match construction with
  | .always => .ok ⟨0⟩
  | .fails message => .error (.of message)
  | .failsWithQuery key =>
      match request.query.find? key with
      | some message => .error (.of message)
      | none => .ok ⟨0⟩

def hook (actions : List Action) : Work Tally Log Unit := do
  let _ ← Action.work ⟨[], none⟩ actions

def notedHook (entry : Entry) (occasion : Occasion) (actions : Option (List Action)) :
    Work Tally Log Unit :=
  match actions with
  | none => pure ()
  | some actions => do
      modify fun live => { live with shared := live.shared.push entry }
      let _ ← Action.work occasion actions

namespace ScriptedHooks

def hooks (hooks : ScriptedHooks) : Hooks Tally Log where
  init := hook hooks.init
  start := hook hooks.start
  finish := hook hooks.finish
  errored error := notedHook (.errored error) ⟨[], none⟩ hooks.errored
  beforeExec invocation :=
    notedHook (.beforeExec invocation.handler invocation.args)
      ⟨invocation.args, some invocation.event⟩ hooks.beforeExec

end ScriptedHooks

namespace ScriptedHandler

def body (handler : ScriptedHandler) (event : ServerEvent) (args : List Json) :
    Work Tally Log Json :=
  Action.work ⟨args, some event⟩ handler.actions

end ScriptedHandler

namespace ScriptedMixin

def mixin (scripted : ScriptedMixin) : Mixin Tally Log :=
  let mixin := scripted.handlers.foldl
    (fun mixin handler =>
      mixin.handler handler.name handler.callable handler.signature.parameters handler.body)
    (Mixin.named scripted.name)
  if scripted.allCallable then mixin.allCallable else mixin

end ScriptedMixin

namespace ScriptedClass

def addPart (cls : ControllerClass Tally Log) : ClassPart → ControllerClass Tally Log
  | .handler handler =>
      cls.handler handler.name handler.callable handler.signature.parameters handler.body
  | .mixin mixin => cls.including mixin.mixin

def controller (scripted : ScriptedClass) : Controller Tally Log :=
  let cls : ControllerClass Tally Log :=
    { ControllerClass.named scripted.name (construct scripted.construction) with
      hooks := scripted.hooks.hooks, title := scripted.title, view := scripted.view }
  (scripted.parts.foldl addPart cls).build

end ScriptedClass

/-- A module that tells the log that it is loaded, and then fails. -/
def broken (name : String) (failure : Failure) : Procedure Log Failure (Loadable Tally Log) := do
  modify fun log => log.push (.loading name)
  throw failure

end ServerPages.Scripted
