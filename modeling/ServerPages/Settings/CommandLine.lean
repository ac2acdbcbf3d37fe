import ServerPages.Settings.Basic
import ServerPages.Text.Split

/-!
# Command lines

The words of a command line override settings. An option is two dashes and a name;
its value is the next word, unless that looks like an option itself, or what follows
an equals sign. Words are read from the left: one that is no option and no value, a
value where none belongs and a request for help end the reading. What is wrong with
the options that were read is looked for after that, option by option in the order of
their first use; a value that is missing at the end comes before all else.
-/

namespace ServerPages.CommandLine

open Text

inductive Fault
  | unknownArgument
  | missingValue
  | unwantedValue
  | invalidValue
  | repeatedOption
  | helpRequested
  deriving DecidableEq, Repr

inductive Name
  | listen
  | views
  | makeRoutes
  | noPreload
  | workers
  deriving DecidableEq, Repr

namespace Name

def all : List Name := [.listen, .views, .makeRoutes, .noPreload, .workers]

/-- An option as it is written, without the dashes. -/
def text : Name → String
  | .listen => "listen"
  | .views => "views"
  | .makeRoutes => "make-routes"
  | .noPreload => "no-preload"
  | .workers => "workers"

def takesValue : Name → Bool
  | .listen | .views | .workers => true
  | .makeRoutes | .noPreload => false

def accepts (name : Name) (value : String) : Bool :=
  match name with
  | .workers => (Settings.readNatural value).toOption.isSome
  | _ => true

def ofText? (text : String) : Option Name :=
  all.find? (·.text = text)

end Name

structure Use where
  name : Name
  value : Option String
  deriving DecidableEq, Repr

/-! ## Words -/

inductive Word
  /-- Two dashes alone, after which no option follows. -/
  | separator
  /-- Two dashes and a name, with what follows an equals sign. -/
  | long (name : String) (value : Option String)
  /-- A dash and letters. -/
  | short (letter : Char)
  /-- Any other word. -/
  | plain (text : String)
  deriving DecidableEq, Repr

def Word.of (text : String) : Word :=
  match text.toList with
  | ['-', '-'] => .separator
  | '-' :: '-' :: rest =>
      let (name, value) := splitOnce '=' rest
      .long (String.ofList name) (value.map String.ofList)
  | '-' :: letter :: _ => .short letter
  | _ => .plain text

/-- The use of an option that still waits for its value when the next option begins. -/
def unfinished (waiting : Option Name) : List Use :=
  (waiting.map fun name => ⟨name, none⟩).toList

def andThen (uses : List Use) (rest : Except Fault (List Use × Option Name)) :
    Except Fault (List Use × Option Name) :=
  rest.map fun (more, waiting) => (uses ++ more, waiting)

/-- The uses of options in a command line, and the option that waits for its value at the end;
`waiting` is the one that waits for it at the start. -/
def scan (waiting : Option Name) : List String → Except Fault (List Use × Option Name)
  | [] => .ok (unfinished waiting, waiting)
  | word :: rest =>
      match Word.of word with
      | .separator =>
          if rest.isEmpty then .ok (unfinished waiting, waiting) else .error .unknownArgument
      | .long name value =>
          match Name.ofText? name, value with
          | none, none => .error (if name = "help" then .helpRequested else .unknownArgument)
          | none, some _ => .error (if name = "help" then .unwantedValue else .unknownArgument)
          | some name, some value =>
              if name.takesValue then
                andThen (unfinished waiting ++ [⟨name, some value⟩]) (scan none rest)
              else .error .unwantedValue
          | some name, none =>
              if name.takesValue then andThen (unfinished waiting) (scan (some name) rest)
              else andThen (unfinished waiting ++ [⟨name, none⟩]) (scan none rest)
      | .short letter => .error (if letter = 'h' then .helpRequested else .unknownArgument)
      | .plain text =>
          match waiting with
          | some name => andThen [⟨name, some text⟩] (scan none rest)
          | none => .error .unknownArgument

/-! ## Options -/

def valuesOf (uses : List Use) (name : Name) : List String :=
  (uses.filter (·.name = name)).filterMap (·.value)

/-- Whether an option was used and should have had a value, but never had one. -/
def lacksValue (uses : List Use) (name : Name) : Bool :=
  name.takesValue && (valuesOf uses name).isEmpty

def faultOf? (uses : List Use) (name : Name) : Option Fault :=
  if lacksValue uses name then some .missingValue
  else if !(valuesOf uses name).all name.accepts then some .invalidValue
  else if 1 < (uses.filter (·.name = name)).length then some .repeatedOption
  else none

def fault? (uses : List Use) (waiting : Option Name) : Option Fault :=
  match waiting.filter (lacksValue uses) with
  | some _ => some .missingValue
  | none => uses.findSome? fun use => faultOf? uses use.name

def apply (settings : Settings) (use : Use) : Settings :=
  match use.name, use.value with
  | .listen, some value => { settings with listenAddress := value }
  | .views, some value => { settings with viewsDirectory := value }
  | .makeRoutes, _ => { settings with makeRoutes := true }
  | .noPreload, _ => { settings with preload := false }
  | .workers, some value => { settings with workers := (Settings.readNatural value).toOption }
  | _, none => settings

def override (settings : Settings) (words : List String) : Except Fault Settings := do
  let (uses, waiting) ← scan none words
  match fault? uses waiting with
  | some fault => throw fault
  | none => return uses.foldl apply settings

end ServerPages.CommandLine
