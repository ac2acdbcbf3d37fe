import ServerPages.Text.Split

/-!
# Names of files

A file name is a list of components between slashes. Empty components and points for
the current directory do not count, except for a point at the very start. The
extension is what follows the last point of the last component, unless nothing stands
before that point.
-/

namespace ServerPages.FileName

open Text

inductive Component
  | root
  | current
  | parent
  | normal (name : String)
  deriving DecidableEq, Repr

/-- The component that a part between slashes stands for. -/
def Component.ofPart? (part : List Char) : Option Component :=
  if part = [] ∨ part = ['.'] then none
  else if part = ['.', '.'] then some .parent
  else some (.normal (String.ofList part))

def isAbsolute (name : String) : Bool :=
  name.toList.head? = some '/'

def components (name : String) : List Component :=
  let parts := splitAt '/' name.toList
  let start : List Component :=
    if isAbsolute name then [.root] else if parts.head? = some ['.'] then [.current] else []
  start ++ parts.filterMap Component.ofPart?

def append (directory name : String) : String :=
  if isAbsolute name then name
  else if directory.isEmpty ∨ directory.toList.getLast? = some '/' then directory ++ name
  else directory ++ "/" ++ name

def last? (name : String) : Option String :=
  match (components name).getLast? with
  | some (.normal last) => some last
  | _ => none

/-- The text after the last point of a text, if there is a point with something before it. -/
def afterLastPoint? (chars : List Char) : Option (List Char) :=
  match splitOnce '.' chars.reverse with
  | (_, none) => none
  | (_, some []) => none
  | (after, some _) => some after.reverse

def extension? (name : String) : Option String := do
  let last ← last? name
  let extension ← afterLastPoint? last.toList
  return String.ofList extension

def hasExtension (name extension : String) : Bool :=
  extension? name = some extension

end ServerPages.FileName
