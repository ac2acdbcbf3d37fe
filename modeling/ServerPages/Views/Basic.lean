import ServerPages.Dictionary
import ServerPages.Failure
import ServerPages.Settings.Basic
import ServerPages.Views.FileName

/-!
# Views

A view is markup under a name. Views are held in memory, or they are the files of a
directory: the file of a view has its name, with the extension of views unless the
name has it already.
-/

namespace ServerPages

open Text

structure Views where
  render : String → Except Failure String
  has : String → Bool

/-- The files of a directory and of those below it, by the names on the way to them. -/
abbrev FileTree := List (List String × String)

namespace FileTree

def isDirectory (tree : FileTree) (names : List String) : Bool :=
  names.isEmpty || tree.any fun file => names.isPrefixOf file.1 && names != file.1

/-- The names that parts of a file name lead to from a directory; every part but the last has to
lead to a directory. -/
def follow? (tree : FileTree) (directory : List String) : List (List Char) → Option (List String)
  | [] => some directory
  | part :: rest =>
      if !tree.isDirectory directory then none
      else if part = [] ∨ part = ['.'] then follow? tree directory rest
      else if part = ['.', '.'] then
        if directory.isEmpty then none else follow? tree directory.dropLast rest
      else follow? tree (directory ++ [String.ofList part]) rest

/-- The text of a file, its name seen from the directory of the tree. -/
def read? (tree : FileTree) (name : String) : Option String :=
  if FileName.isAbsolute name then none
  else do
    let names ← tree.follow? [] (splitAt '/' name.toList)
    return (← tree.find? (·.1 = names)).2

end FileTree

structure ViewFiles where
  directory : String
  /-- The extension of views, without the point. -/
  extension : String

namespace ViewFiles

/-- The files of a directory with an extension; points at its start do not count. -/
def of (directory extension : String) : ViewFiles :=
  ⟨directory, withoutPoints extension⟩

def fileName (files : ViewFiles) (name : String) : String :=
  if FileName.hasExtension name files.extension then name else name ++ "." ++ files.extension

def path (files : ViewFiles) (name : String) : String :=
  FileName.append files.directory (files.fileName name)

def render (files : ViewFiles) (tree : FileTree) (name : String) : Except Failure String :=
  match tree.read? (files.fileName name) with
  | some text => .ok text
  | none =>
      .error (.of ("reading view " ++ quoted name ++ " from " ++ quoted (files.path name)))

end ViewFiles

namespace Views

def ofDictionary (entries : Dictionary String) : Views where
  render name :=
    match entries.find? name with
    | some markup => .ok markup
    | none => .error (.of ("no view " ++ quoted name))
  has name := entries.has name

def ofFiles (files : ViewFiles) (tree : FileTree) : Views where
  render := files.render tree
  has name := (tree.read? (files.fileName name)).isSome

end Views

end ServerPages
