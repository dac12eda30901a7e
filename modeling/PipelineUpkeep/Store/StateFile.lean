import PipelineUpkeep.Data.Codec
import PipelineUpkeep.Files.Directory
import PipelineUpkeep.Files.Error
import PipelineUpkeep.Store.Snapshot
/-!
# State files

A snapshot in a file.  The extension of its name says the format; every other file
is JSON.  A file that does not exist stands for the empty snapshot.
-/

namespace PipelineUpkeep

open Data

namespace Snapshot

/-- The format of a state file. -/
def fileFormat (path : String) : Format :=
  (Format.ofExtension? (extensionOf path)).getD .json

/-- Read the snapshot at a path. -/
def loadFrom (codec : Codec) (directory : Directory) (path : String) :
    Except FileError Snapshot :=
  match directory.read? path with
  | none => .error (.stateUnreadable path)
  | some text =>
      match codec.decode? decode (fileFormat path) text with
      | some snapshot => .ok snapshot
      | none => .error (.stateMalformed (fileFormat path) path)

/-- Read the snapshot at a path, which is empty if nothing is there. -/
def load (codec : Codec) (directory : Directory) (path : String) : Except FileError Snapshot :=
  if directory.has path then loadFrom codec directory path else .ok .empty

/-- Write a snapshot. -/
def save (codec : Codec) (snapshot : Snapshot) (path : String) (directory : Directory) :
    Except FileError Directory :=
  match codec.write? (fileFormat path) snapshot.encode with
  | none => .error .numberTooLarge
  | some text =>
      match directory.write? path text with
      | none => .error (.stateUnwritable path)
      | some directory => .ok directory

end Snapshot

end PipelineUpkeep
