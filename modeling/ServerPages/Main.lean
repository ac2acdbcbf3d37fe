import ServerPages.Demo
import ServerPages.Http.Message
import ServerPages.Server.Respond
import ServerPages.Settings.CommandLine

/-!
# The program

Serves the demonstration. Requests come on standard input, one after the other, and
each is answered on standard output. The views are the files of a directory, as they
are when a request comes. Settings come from the environment and from the command
line; a program that can't start says why and ends with status 1, and with status 2
where the command line is at fault.
-/

namespace ServerPages.Program

open Http

def help : String :=
  "Serve pages. Options override the `CODEBEHIND_*` environment variables.\n\n" ++
  "OPTIONS:\n" ++
  "    --listen <LISTEN>      Address to listen on\n" ++
  "    --views <VIEWS>        Directory holding the views\n" ++
  "    --make-routes          Serve `<views>/<path>.<ext>` for unrouted paths\n" ++
  "    --no-preload           Don't load the controllers at startup\n" ++
  "    --workers <WORKERS>    Number of worker threads\n"

def complaint : CommandLine.Fault → String
  | .unknownArgument => "unknown argument"
  | .missingValue => "an option lacks its value"
  | .unwantedValue => "an option was given a value that it does not take"
  | .invalidValue => "an option was given a value that it can't use"
  | .repeatedOption => "an option was given more than once"
  | .helpRequested => help

def sources : IO SettingSources := do
  let bytes (name : String) : IO (Option (List UInt8)) := do
    return (← IO.getEnv name).map Text.Utf8.encode
  return {
    listen := ← bytes "CODEBEHIND_LISTEN"
    views := ← bytes "CODEBEHIND_VIEWS"
    extension := ← bytes "CODEBEHIND_VIEW_EXT"
    capacity := ← bytes "CODEBEHIND_CACHE_CAPACITY"
    makeRoutes := ← bytes "CODEBEHIND_MAKE_ROUTES"
    preload := ← bytes "CODEBEHIND_PRELOAD"
    workers := ← bytes "CODEBEHIND_WORKERS" }

def directoryExists (directory : String) : IO Bool := do
  ((← IO.currentDir) / directory).isDir

/-- The files of a directory that hold text. -/
def readTree (directory : String) : IO FileTree := do
  let top := (← IO.currentDir) / directory
  let paths ← top.walkDir
  let files ← paths.toList.filterMapM fun path => do
    if ← path.isDir then return none
    try
      return some (path.components.drop top.components.length, ← IO.FS.readFile path)
    catch _ => return none
  return files

partial def readHead (input : IO.FS.Stream) (lines : List String) : IO (List String) := do
  let line ← input.getLine
  if (Text.trim line).isEmpty then return lines.reverse
  readHead input (line :: lines)

partial def readBytes (input : IO.FS.Stream) (count : Nat) (bytes : List UInt8) :
    IO (List UInt8) := do
  if count = 0 then return bytes
  let more ← input.read count.toUSize
  if more.isEmpty then return bytes
  readBytes input (count - more.size) (bytes ++ more.toList)

def readRequest (input : IO.FS.Stream) : IO (Option RawRequest) := do
  match ← readHead input [] with
  | [] => return none
  | first :: headers =>
      match RawRequest.ofHead? first headers with
      | none => return none
      | some raw => return some { raw with body := ← readBytes input raw.bodyLength [] }

partial def serveAll (settings : Settings) (routes : Routes Unit Unit) (store : Store Unit Unit)
    (input output : IO.FS.Stream) : IO Unit := do
  match ← readRequest input with
  | none => return
  | some raw =>
      let files := ViewFiles.of settings.viewsDirectory settings.viewExtension
      let views := Views.ofFiles files (← readTree settings.viewsDirectory)
      let app : Application Unit Unit := Demo.application () views
      let (response, store) := (app.serve routes raw).run store
      output.putStr response.message
      output.flush
      serveAll settings routes store input output

def serve (settings : Settings) : IO UInt32 := do
  let stderr ← IO.getStderr
  if !(← directoryExists settings.viewsDirectory) then
    stderr.putStrLn ("views directory " ++ Text.quoted settings.viewsDirectory ++ " does not exist")
    return 1
  match Demo.routes () settings.makeRoutes with
  | .error message =>
      stderr.putStrLn message
      return 1
  | .ok routes =>
      let app : Application Unit Unit := Demo.application () (.ofDictionary [])
      let store := Store.empty settings.cacheCapacity ()
      let (_, store) := if settings.preload then app.loader.preload.run store
        else (⟨app.loader.primary.label, false, []⟩, store)
      serveAll settings routes store (← IO.getStdin) (← IO.getStdout)
      return 0

def run (words : List String) : IO UInt32 := do
  match Settings.ofSources (← sources) with
  | .error message =>
      (← IO.getStderr).putStrLn message
      return 1
  | .ok settings =>
      match CommandLine.override settings words with
      | .error .helpRequested =>
          IO.print help
          return 0
      | .error fault =>
          (← IO.getStderr).putStrLn (complaint fault)
          return 2
      | .ok settings => serve settings

end ServerPages.Program

def main (words : List String) : IO UInt32 :=
  ServerPages.Program.run words
