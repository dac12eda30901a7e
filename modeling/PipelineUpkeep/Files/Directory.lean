import PipelineUpkeep.Text.Blank
/-!
# Directories

A tree of text files below a root, with a folder in which relative paths start.
Every place is the list of names on the way to it from the root.  A file is only
written where its folder exists; writing replaces the whole text or changes
nothing.
-/

namespace PipelineUpkeep

open Text

/-- The names on the way to a file or folder. -/
abbrev Location := List String

structure Directory where
  /-- The folder where relative paths start. -/
  home : Location
  files : List (Location × String)
  /-- Folders that may hold no file. -/
  folders : List Location

namespace Directory

def fileAt? (directory : Directory) (location : Location) : Option String :=
  (directory.files.find? (·.1 == location)).map (·.2)

/-- The root, the way to the home folder, and the way to each file are folders. -/
def isFolder (directory : Directory) (location : Location) : Bool :=
  location.isPrefixOf directory.home || directory.folders.contains location ||
    directory.files.any fun file => location.isPrefixOf file.1 && location != file.1

/-- The parts of a path between its slashes. -/
def pathParts (path : String) : List String :=
  (path.toList.splitOn '/').map String.ofList

/-- Follow the parts of a path from a place.  Every step but the last must end in a
folder. -/
def follow? (directory : Directory) : Location → List String → Option Location
  | location, [] => some location
  | location, part :: parts =>
      if directory.isFolder location then
        if part = "" ∨ part = "." then follow? directory location parts
        else if part = ".." then follow? directory location.dropLast parts
        else follow? directory (location ++ [part]) parts
      else none

/-- The place that a path names, whether or not anything is there. -/
def locate? (directory : Directory) (path : String) : Option Location :=
  if path = "" then none
  else if path.toList.head? = some '/' then directory.follow? [] (pathParts path)
  else directory.follow? directory.home (pathParts path)

/-- A file or folder is at the path. -/
def has (directory : Directory) (path : String) : Bool :=
  match directory.locate? path with
  | none => false
  | some location => directory.isFolder location || (directory.fileAt? location).isSome

/-- The text of the file at a path. -/
def read? (directory : Directory) (path : String) : Option String :=
  (directory.locate? path).bind directory.fileAt?

/-- Replace the text of a file, or add a file at the end. -/
def putFile (location : Location) (text : String) :
    List (Location × String) → List (Location × String)
  | [] => [(location, text)]
  | (other, old) :: rest =>
      if other = location then (location, text) :: rest
      else (other, old) :: putFile location text rest

/-- Write a file; fails without effect where that is not possible. -/
def write? (directory : Directory) (path text : String) : Option Directory :=
  match directory.locate? path with
  | none => none
  | some location =>
      if directory.isFolder location then none
      else some { directory with files := putFile location text directory.files }

/-- Make every folder on the way to a place; fails if a file is in the way. -/
def makeFolders? (directory : Directory) (path : String) : Option Directory :=
  let start := if path.toList.head? = some '/' then [] else directory.home
  let location := start ++ (pathParts path).filter (· != "")
  -- Every prefix of the place is a folder on the way.
  let ways := (List.range (location.length + 1)).map (location.take ·)
  if ways.any fun way => (directory.fileAt? way).isSome then none
  else some { directory with folders := directory.folders ++ ways }

end Directory

/-- The part of a path's last name after its last point; empty if there is none or
if the name starts with its only point. -/
def extensionOf (path : String) : String :=
  let names := (Directory.pathParts path).filter fun part => part != "" && part != "."
  match names.getLast? with
  | none => ""
  | some name =>
      let fromEnd := name.toList.reverse
      let after := fromEnd.takeWhile (· != '.')
      let before := (fromEnd.drop (after.length + 1)).reverse
      if before.isEmpty then "" else String.ofList after.reverse

theorem fileAt?_putFile_self (directory : Directory) (location : Location) (text : String) :
    { directory with files := Directory.putFile location text directory.files }.fileAt? location =
      some text := by
  unfold Directory.fileAt?
  induction directory.files with
  | nil => simp [Directory.putFile]
  | cons file rest ih =>
      obtain ⟨other, old⟩ := file
      by_cases hOther : other = location
      · simp [Directory.putFile, hOther]
      · simpa [Directory.putFile, hOther] using ih

end PipelineUpkeep
