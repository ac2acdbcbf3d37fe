import ServerPages.Cache
import ServerPages.Settings.Environment

/-!
# Settings

The settings of a server come from variables of the environment, with a value of
their own where a variable is not set. The variables are read in a fixed order, and
the first that can't be used is reported.
-/

namespace ServerPages

open Text

structure Settings where
  listenAddress : String
  viewsDirectory : String
  /-- The extension of views, without the point. -/
  viewExtension : String
  /-- How many entries each cache may hold. -/
  cacheCapacity : Nat
  /-- Whether paths without a route lead to the views of their names. -/
  makeRoutes : Bool
  /-- Whether controllers are loaded before the first request. -/
  preload : Bool
  /-- The number of workers, or none for as many as suit the machine. -/
  workers : Option Nat
  deriving DecidableEq, Repr

structure SettingSources where
  listen : Option (List UInt8)
  views : Option (List UInt8)
  extension : Option (List UInt8)
  capacity : Option (List UInt8)
  makeRoutes : Option (List UInt8)
  preload : Option (List UInt8)
  workers : Option (List UInt8)

def withoutPoints (text : String) : String :=
  String.ofList (text.toList.dropWhile (· = '.'))

namespace Settings

/-- The settings where no variable is set. -/
def standard : Settings :=
  { listenAddress := "127.0.0.1:3000"
    viewsDirectory := "views"
    viewExtension := "html"
    cacheCapacity := Cache.defaultCapacity
    makeRoutes := false
    preload := true
    workers := none }

/-- A reading of a variable, with the message of what is wrong with it. -/
def read {α : Type} (name : String) (bytes : Option (List UInt8))
    (reading : Variable → Except VariableFault α) : Except String α :=
  (reading ⟨name, bytes⟩).mapError (VariableFault.message name)

/-- A number without sign that fits 64 bits. -/
def readNatural (text : String) : Except String Nat :=
  match readInteger .unsigned64 text with
  | .ok n => .ok n.toNat
  | .error fault => .error fault.message

/-- The settings of variables, or the message of the first that can't be used. -/
def ofSources (sources : SettingSources) : Except String Settings := do
  let listenAddress ← read "CODEBEHIND_LISTEN" sources.listen (·.text standard.listenAddress)
  let viewsDirectory ← read "CODEBEHIND_VIEWS" sources.views (·.text standard.viewsDirectory)
  let viewExtension ← read "CODEBEHIND_VIEW_EXT" sources.extension (·.text standard.viewExtension)
  let cacheCapacity ← read "CODEBEHIND_CACHE_CAPACITY" sources.capacity
    (·.parsed readNatural standard.cacheCapacity)
  let makeRoutes ← read "CODEBEHIND_MAKE_ROUTES" sources.makeRoutes (·.switch standard.makeRoutes)
  let preload ← read "CODEBEHIND_PRELOAD" sources.preload (·.switch standard.preload)
  let workers ← read "CODEBEHIND_WORKERS" sources.workers
    (·.parsed (fun text => (readNatural text).map some) standard.workers)
  return { listenAddress, viewsDirectory, viewExtension := withoutPoints viewExtension,
           cacheCapacity, makeRoutes, preload, workers }

end Settings

end ServerPages
