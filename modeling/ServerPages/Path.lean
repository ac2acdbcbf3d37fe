import ServerPages.Text.Split

/-!
# Request paths

A path is the list of its segments between slashes, the empty ones left out. Its
canonical form joins them by single slashes; a path whose segments are all plain
file names also names a view.
-/

namespace ServerPages.Path

open Text

/-- The segments of a path that are not empty. -/
def segments (path : String) : List String :=
  ((splitAt '/' path.toList).filter fun part => !part.isEmpty).map String.ofList

def join (parts : List String) : String :=
  "/".intercalate parts

/-- The canonical form of a path, under which its route is kept. -/
def routeKey (path : String) : String :=
  join (segments path)

/-- A segment that stays within its directory when it is read as a file name. -/
def isFileName (segment : String) : Bool :=
  segment != "." && segment != ".." && !segment.toList.contains '\\' &&
    !segment.toList.contains '\x00'

/-- The view that a path names: all its segments are file names, and there is at least one. -/
def viewName? (path : String) : Option String :=
  let parts := segments path
  if parts.isEmpty || !parts.all isFileName then none else some (join parts)

end ServerPages.Path
